import Bruxo.ItemDeque

/-!
# Walking through a container

`Container::iterator` and `ContainerIterator` (`container.cpp`). The containers that wait are never
empty and the position is never at an end (`Sound`), so that each step finds an item. What is walked
over is the whole of the container, depth by depth.
-/

namespace Bruxo

/-! ## Depths -/

namespace ItemForest.Items

variable {α : Type}

/-- The list from a position on. -/
def drop : Nat → Items α α → Items α α
  | 0, items => items
  | _ + 1, nil => nil
  | n + 1, item _ rest => rest.drop n
  | n + 1, container _ _ rest => rest.drop n

/-- The items of the list itself. -/
def tops : Items α α → List α
  | nil => []
  | item a rest => a :: rest.tops
  | container a _ rest => a :: rest.tops

/-- What is in the containers of the list itself. -/
def itemlists : Items α α → List (Items α α)
  | nil => []
  | item _ rest => rest.itemlists
  | container _ itemlist rest => itemlist :: rest.itemlists

/-- The items in as many containers, from the first one of the list on. -/
def level : Nat → Items α α → List α
  | 0, items => items.tops
  | depth + 1, items => items.itemlists.flatMap (level depth)

/-- The items of the list, then those in its containers, then those in containers in these. -/
def breadthFirst (items : Items α α) : List α :=
  (List.range items.size).flatMap fun depth => items.level depth

end ItemForest.Items

open ItemForest

/-! ## The iterator -/

/-- `over`, as `overList`, and `cur`, a position in the list of its first container. -/
structure ContainerIterator (α : Type) where
  overList : List (Items α α)
  cur : Nat

namespace ContainerIterator

variable {α β : Type}

def hasNext (it : ContainerIterator α) : Bool := !it.overList.isEmpty

/-- `operator*`, of a position that is not at an end. -/
def deref (it : ContainerIterator α) : Option α :=
  match it.overList with
  | [] => none
  | front :: _ =>
      match front.drop it.cur with
      | .nil => none
      | .item a _ => some a
      | .container a _ _ => some a

/-- `++cur`, and on to the next container at the end of the first. -/
def next (front : Items α α) (rest : List (Items α α)) (cur : Nat) : ContainerIterator α :=
  if cur + 1 = front.length then ⟨rest, 0⟩ else ⟨front :: rest, cur + 1⟩

def advance (it : ContainerIterator α) : Option (ContainerIterator α) :=
  match it.overList with
  | [] => none
  | front :: rest =>
      match front.drop it.cur with
      | .nil => none
      | .item _ _ => some (next front rest it.cur)
      | .container _ itemlist _ =>
          some (next front (rest ++ if itemlist.length = 0 then [] else [itemlist]) it.cur)

/-- `Container::iterator` of the container with the list. -/
def iterator (itemlist : Items α α) : ContainerIterator α :=
  if itemlist.length = 0 then ⟨[], 0⟩ else ⟨[itemlist], 0⟩

/-- `for (it = iterator(); it.hasNext(); it.advance())`, for no more items than the number. -/
def forEach (body : β → α → β) : Nat → β → ContainerIterator α → Option β
  | 0, acc, it => if it.hasNext then none else some acc
  | n + 1, acc, it =>
      if it.hasNext then
        it.deref.bind fun a => it.advance.bind fun it => forEach body n (body acc a) it
      else some acc

/-- The items that are come to. -/
def visited (n : Nat) (itemlist : Items α α) : Option (List α) :=
  forEach (fun l a => l ++ [a]) n [] (iterator itemlist)

/-- `Container::size` -/
def size (n : Nat) (itemlist : Items α α) (recursive : Bool) : Option Nat :=
  if recursive then forEach (fun count _ => count + 1) n 0 (iterator itemlist)
  else some itemlist.length

/-! ## Each step -/

/-- The containers that wait are not empty, and the position is not at an end. -/
structure Sound (it : ContainerIterator α) : Prop where
  nonempty : ∀ itemlist ∈ it.overList, 0 < itemlist.length
  inside : ∀ front ∈ it.overList.head?, it.cur < front.length

/-- What is left of the first container, and the ones behind it. -/
def left (it : ContainerIterator α) : List (Items α α) :=
  match it.overList with
  | [] => []
  | front :: rest => front.drop it.cur :: rest

section Steps

variable {front items itemlist tail : Items α α} {rest lists : List (Items α α)} {cur n : Nat}
  {a : α} {it : ContainerIterator α}

theorem drop_length (items : Items α α) : items.drop items.length = .nil := by
  induction items with
  | nil => rfl
  | item a rest ih => exact ih
  | container a itemlist rest _ ih => exact ih

theorem drop_succ_item (h : front.drop cur = .item a tail) : front.drop (cur + 1) = tail := by
  induction cur generalizing front with
  | zero => obtain rfl := h; rfl
  | succ cur ih =>
      cases front with
      | nil => cases h
      | item b rest => exact ih h
      | container b itemlist rest => exact ih h

theorem drop_succ_container (h : front.drop cur = .container a itemlist tail) :
    front.drop (cur + 1) = tail := by
  induction cur generalizing front with
  | zero => obtain rfl := h; rfl
  | succ cur ih =>
      cases front with
      | nil => cases h
      | item b rest => exact ih h
      | container b itemlist rest => exact ih h

theorem drop_ne_nil (h : cur < front.length) : front.drop cur ≠ .nil := by
  induction front generalizing cur with
  | nil => cases h
  | item a rest ih =>
      cases cur with
      | zero => rintro ⟨⟩
      | succ cur => exact ih (Nat.lt_of_succ_lt_succ h)
  | container a itemlist rest _ ih =>
      cases cur with
      | zero => rintro ⟨⟩
      | succ cur => exact ih (Nat.lt_of_succ_lt_succ h)

theorem iterated_nil_cons (lists : List (Items α α)) :
    Items.iterated (.nil :: lists) = Items.iterated lists := by
  rw [Items.iterated]

theorem sound_iterator (itemlist : Items α α) : (iterator itemlist).Sound := by
  rw [iterator]
  split
  · exact ⟨by rintro _ ⟨⟩, by rintro _ ⟨⟩⟩
  · next hne =>
      have hpos : 0 < itemlist.length := Nat.pos_of_ne_zero hne
      refine ⟨fun l hl => ?_, fun l hl => ?_⟩
      · obtain rfl := List.mem_singleton.mp hl
        exact hpos
      · obtain rfl := Option.some.inj hl
        exact hpos

theorem left_iterator (itemlist : Items α α) :
    Items.iterated (iterator itemlist).left = Items.iterated [itemlist] := by
  rw [iterator]
  split
  · next hzero =>
      cases itemlist with
      | nil => exact (iterated_nil_cons []).symm
      | item a rest => cases hzero
      | container a itemlist rest => cases hzero
  · rfl

theorem sound_next (hcur : cur < front.length) (hrest : ∀ l ∈ rest, 0 < l.length) :
    (next front rest cur).Sound := by
  rw [next]
  split
  · refine ⟨hrest, fun l hl => ?_⟩
    exact hrest l (List.mem_of_mem_head? hl)
  · next hne =>
      refine ⟨fun l hl => ?_, fun l hl => ?_⟩
      · rcases List.mem_cons.mp hl with rfl | hl
        · exact Nat.zero_lt_of_lt hcur
        · exact hrest l hl
      · obtain rfl := Option.some.inj hl
        exact Nat.lt_of_le_of_ne hcur hne

theorem left_next (front : Items α α) (rest : List (Items α α)) (cur : Nat) :
    Items.iterated (next front rest cur).left =
      Items.iterated (front.drop (cur + 1) :: rest) := by
  rw [next]
  split
  · next hend =>
      rw [hend, drop_length, iterated_nil_cons]
      cases rest <;> rfl
  · rfl

/-- A step comes to an item, and leaves what is behind it and in it. -/
theorem Sound.step (h : it.Sound) (hnext : it.hasNext = true) :
    ∃ a it', it.deref = some a ∧ it.advance = some it' ∧ it'.Sound ∧
      Items.iterated it.left = a :: Items.iterated it'.left := by
  obtain ⟨overList, cur⟩ := it
  cases overList with
  | nil => cases hnext
  | cons front rest =>
      have hcur : cur < front.length := h.inside front rfl
      have hrest : ∀ l ∈ rest, 0 < l.length := fun l hl =>
        h.nonempty l (List.mem_cons_of_mem front hl)
      cases hdrop : front.drop cur with
      | nil => exact absurd hdrop (drop_ne_nil hcur)
      | item a tail =>
          refine ⟨a, next front rest cur, ?_, ?_, sound_next hcur hrest, ?_⟩
          · simp only [deref, hdrop]
          · simp only [advance, hdrop]
          · rw [left_next, drop_succ_item hdrop]
            simp only [left, hdrop]
            rw [Items.iterated]
      | container a itemlist tail =>
          have hqueue : ∀ l ∈ rest ++ (if itemlist.length = 0 then [] else [itemlist]),
              0 < l.length := by
            intro l hl
            rcases List.mem_append.mp hl with hl | hl
            · exact hrest l hl
            · split at hl
              · cases hl
              · next hne =>
                  obtain rfl := List.mem_singleton.mp hl
                  exact Nat.pos_of_ne_zero hne
          refine ⟨a, next front (rest ++ if itemlist.length = 0 then [] else [itemlist]) cur,
            ?_, ?_, sound_next hcur hqueue, ?_⟩
          · simp only [deref, hdrop]
          · simp only [advance, hdrop]
          · rw [left_next, drop_succ_container hdrop]
            simp only [left, hdrop]
            rw [Items.iterated, List.cons_append]

theorem left_of_not_hasNext (h : ¬ it.hasNext = true) : Items.iterated it.left = [] := by
  obtain ⟨overList, cur⟩ := it
  cases overList with
  | nil => exact Items.iterated.eq_1
  | cons front rest => exact absurd rfl h

/-- The loop goes over all that is left, and ends. -/
theorem Sound.forEach (h : it.Sound) (body : β → α → β) (acc : β)
    (hn : (Items.iterated it.left).length ≤ n) :
    it.forEach body n acc = some ((Items.iterated it.left).foldl body acc) := by
  induction n generalizing it acc with
  | zero =>
      rw [ContainerIterator.forEach]
      split
      · next hnext =>
          obtain ⟨a, it', -, -, -, hleft⟩ := h.step hnext
          rw [hleft] at hn
          exact absurd hn (Nat.not_succ_le_zero _)
      · next hend => rw [left_of_not_hasNext hend, List.foldl_nil]
  | succ n ih =>
      rw [ContainerIterator.forEach]
      split
      · next hnext =>
          obtain ⟨a, it', hderef, hadvance, hsound, hleft⟩ := h.step hnext
          rw [hleft, List.length_cons] at hn
          rw [hderef, Option.bind_some, hadvance, Option.bind_some, hleft, List.foldl_cons]
          exact ih hsound _ (Nat.le_of_succ_le_succ hn)
      · next hend => rw [left_of_not_hasNext hend, List.foldl_nil]

/-! ## Depth by depth -/

theorem level_of_empty (depth : Nat) (h : items.length = 0) : items.level depth = [] := by
  cases items with
  | nil => cases depth <;> rfl
  | item a rest => cases h
  | container a itemlist rest => cases h

/-- Empty containers do not wait, and there is nothing in them. -/
theorem flatMap_level_nonempty (depth : Nat) (lists : List (Items α α)) :
    ((lists.filter fun l => 0 < l.length).flatMap fun l => l.level depth) =
      lists.flatMap fun l => l.level depth := by
  induction lists with
  | nil => rfl
  | cons l lists ih =>
      rw [List.filter_cons, List.flatMap_cons]
      split
      · rw [List.flatMap_cons, ih]
      · next hempty =>
          have hzero : l.length = 0 := by simpa using hempty
          rw [level_of_empty depth hzero, List.nil_append, ih]

/-- A list is gone over before what waits, and what is in it waits behind that. -/
theorem iterated_cons (front : Items α α) (lists : List (Items α α)) :
    Items.iterated (front :: lists) =
      front.tops ++ Items.iterated (lists ++ front.itemlists.filter fun l => 0 < l.length) := by
  induction front generalizing lists with
  | nil =>
      rw [iterated_nil_cons]
      simp only [Items.tops, Items.itemlists, List.filter_nil, List.append_nil, List.nil_append]
  | item a rest ih =>
      rw [Items.iterated, ih]
      rfl
  | container a itemlist rest _ ih =>
      have hwaits : (if itemlist.length = 0 then [] else [itemlist]) =
          [itemlist].filter fun l => 0 < l.length := by
        rw [List.filter_cons, List.filter_nil]
        split
        · next hzero => rw [if_neg (by simp [hzero])]
        · next hne => rw [if_pos (by simpa using Nat.pos_of_ne_zero hne)]
      rw [Items.iterated, List.cons_append, ih, hwaits, List.append_assoc, ← List.filter_append]
      rfl

/-- The lists of one depth are gone over before those of the next. -/
theorem iterated_append (lists waiting : List (Items α α)) :
    Items.iterated (lists ++ waiting) = lists.flatMap Items.tops ++
      Items.iterated (waiting ++ (lists.flatMap Items.itemlists).filter fun l => 0 < l.length) := by
  induction lists generalizing waiting with
  | nil => simp only [List.nil_append, List.flatMap_nil, List.filter_nil, List.append_nil]
  | cons front lists ih =>
      rw [List.cons_append, iterated_cons, List.append_assoc, ih, List.flatMap_cons,
        List.flatMap_cons, List.filter_append, List.append_assoc, List.append_assoc]

theorem size_itemlists (items : Items α α) :
    ((items.itemlists.filter fun l => 0 < l.length).map Items.size).sum ≤ items.size - 1 := by
  induction items with
  | nil => exact Nat.le_refl 0
  | item a rest ih =>
      rw [Items.itemlists, Items.size]
      omega
  | container a itemlist rest _ ih =>
      rw [Items.itemlists, List.filter_cons, Items.size]
      split
      · rw [List.map_cons, List.sum_cons]
        omega
      · omega

theorem size_next_depth (lists : List (Items α α)) :
    (((lists.flatMap Items.itemlists).filter fun l => 0 < l.length).map Items.size).sum ≤
      (lists.map Items.size).sum - 1 := by
  induction lists with
  | nil => exact Nat.le_refl 0
  | cons l lists ih =>
      have hl := size_itemlists l
      rw [List.flatMap_cons, List.filter_append, List.map_append, List.sum_append, List.map_cons,
        List.sum_cons]
      omega

theorem length_flatten (items : Items α α) : items.flatten.length = items.size := by
  induction items with
  | nil => rfl
  | item a rest ih => rw [Items.flatten, List.length_cons, ih, Items.size]
  | container a itemlist rest ihlist ih =>
      rw [Items.flatten, List.length_cons, List.length_append, ihlist, ih, Items.size]

theorem length_iterated (lists : List (Items α α)) :
    (Items.iterated lists).length = (lists.map Items.size).sum := by
  rw [(Items.iterated_perm lists).length_eq, List.length_flatMap]
  exact congrArg List.sum (List.map_congr_left fun items _ => length_flatten items)

theorem iterated_levels (lists : List (Items α α)) (hn : (lists.map Items.size).sum ≤ n) :
    Items.iterated lists =
      (List.range n).flatMap fun depth => lists.flatMap fun l => l.level depth := by
  induction n generalizing lists with
  | zero =>
      have hlength := (length_iterated lists).trans (Nat.le_zero.mp hn)
      exact List.eq_nil_of_length_eq_zero hlength
  | succ n ih =>
      have hsize := size_next_depth lists
      have hnext (depth : Nat) : (((lists.flatMap Items.itemlists).filter fun l =>
          0 < l.length).flatMap fun l => l.level depth) =
            lists.flatMap fun l => l.level (depth + 1) := by
        rw [flatMap_level_nonempty, List.flatMap_assoc]
        rfl
      have hfirst := iterated_append lists []
      rw [List.append_nil, List.nil_append] at hfirst
      rw [hfirst, ih _ (by omega), List.range_succ_eq_map, List.flatMap_cons, List.flatMap_map]
      congr 1
      exact List.flatMap_congr fun depth _ => hnext depth

theorem iterated_breadthFirst (itemlist : Items α α) :
    Items.iterated [itemlist] = itemlist.breadthFirst := by
  rw [iterated_levels [itemlist] (n := itemlist.size) (Nat.le_of_eq (Nat.add_zero _))]
  exact List.flatMap_congr fun depth _ => List.append_nil _

end Steps

/-- A loop over a container has done its work for each item, once there are turns enough. -/
theorem forEach_iterator (itemlist : Items α α) (body : β → α → β) (acc : β) (n : Nat) :
    forEach body (itemlist.size + n) acc (iterator itemlist) =
      some (itemlist.breadthFirst.foldl body acc) := by
  have hlength : (Items.iterated (iterator itemlist).left).length ≤ itemlist.size + n := by
    rw [left_iterator, length_iterated]
    exact Nat.add_le_add_left (Nat.zero_le n) itemlist.size
  rw [(sound_iterator itemlist).forEach body acc hlength, left_iterator, iterated_breadthFirst]

/-- The iterator comes to every item in the container once, in the order of the depths, and then
stops; so `size(true)` is the number of them all. -/
theorem container_walk (itemlist : Items α α) (n : Nat) :
    visited (itemlist.size + n) itemlist = some itemlist.breadthFirst ∧
      itemlist.breadthFirst.Perm itemlist.flatten ∧
      size (itemlist.size + n) itemlist true = some itemlist.flatten.length := by
  have hperm : itemlist.breadthFirst.Perm itemlist.flatten := by
    rw [← iterated_breadthFirst]
    exact Items.iterated_singleton itemlist
  refine ⟨?_, hperm, ?_⟩
  · rw [visited, forEach_iterator, List.foldl_append_eq_append, List.nil_append,
      ← List.flatMap_def, List.flatMap_singleton']
  · rw [size, if_pos rfl, forEach_iterator, List.foldl_add_const, ← hperm.length_eq, Nat.zero_add,
      Nat.one_mul]

end ContainerIterator

end Bruxo
