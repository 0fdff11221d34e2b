import Bruxo.SaleList

/-!
# Taking items out of a forest

An item list with what is in its containers, as a whole: what a `ContainerIterator` goes over
is every item of it once (`iterated_perm`), and when some items are taken out, what is inside
them goes too (`gone`) and the others stay (`kept`).
-/

namespace Bruxo.ItemForest.Items

variable {α β : Type}

/-- Every item, before what is in it. -/
def flatten : Items α α → List α
  | nil => []
  | item a rest => a :: rest.flatten
  | container a itemlist rest => a :: (itemlist.flatten ++ rest.flatten)

/-- What a `ContainerIterator` goes over whose lists begin where it stands in the first. -/
def iterated : List (Items α α) → List α
  | [] => []
  | .nil :: lists => iterated lists
  | .item a rest :: lists => a :: iterated (rest :: lists)
  | .container a itemlist rest :: lists =>
      a :: iterated (rest :: lists ++ if itemlist.length = 0 then [] else [itemlist])
termination_by lists => (lists.map fun list => 2 * list.size + 1).sum
decreasing_by
  · simp only [List.map_cons, List.sum_cons, Items.size]
    omega
  · simp only [List.map_cons, List.sum_cons, Items.size]
    omega
  · split <;> simp only [List.map_append, List.map_cons, List.map_nil, List.sum_append,
      List.sum_cons, List.sum_nil, List.append_nil, Items.size] <;> omega

def map (f : α → β) : Items α α → Items β β
  | nil => nil
  | item a rest => item (f a) (rest.map f)
  | container a itemlist rest => container (f a) (itemlist.map f) (rest.map f)

/-- Every item is changed or taken out, and with it what is inside. -/
def filterMap (f : α → Option α) : Items α α → Items α α
  | nil => nil
  | item a rest =>
      match f a with
      | none => rest.filterMap f
      | some a' => item a' (rest.filterMap f)
  | container a itemlist rest =>
      match f a with
      | none => rest.filterMap f
      | some a' => container a' (itemlist.filterMap f) (rest.filterMap f)

/-- The items that are taken out, and those inside them. -/
def gone (f : α → Option α) : Items α α → List α
  | nil => []
  | item a rest => if (f a).isNone then a :: rest.gone f else rest.gone f
  | container a itemlist rest =>
      if (f a).isNone then a :: (itemlist.flatten ++ rest.gone f)
      else itemlist.gone f ++ rest.gone f

/-- The items that stay, as they were. -/
def kept (f : α → Option α) : Items α α → List α
  | nil => []
  | item a rest => if (f a).isNone then rest.kept f else a :: rest.kept f
  | container a itemlist rest =>
      if (f a).isNone then rest.kept f else a :: (itemlist.kept f ++ rest.kept f)

/-! ## The iterator -/

theorem flatten_nil_of_length {items : Items α α} (h : items.length = 0) : items.flatten = [] := by
  cases items with
  | nil => rfl
  | item a rest => cases h
  | container a itemlist rest => cases h

theorem iterated_perm (lists : List (Items α α)) :
    (iterated lists).Perm (lists.flatMap flatten) := by
  induction lists using iterated.induct with
  | case1 =>
      rw [iterated]
      exact .refl _
  | case2 lists ih =>
      rw [iterated]
      exact ih
  | case3 a rest lists ih =>
      rw [iterated]
      exact ih.cons a
  | case4 a itemlist rest lists ih =>
      rw [iterated]
      refine (ih.cons a).trans ?_
      rw [List.flatMap_append, List.flatMap_cons, List.flatMap_cons, flatten, List.cons_append]
      refine List.Perm.cons a ?_
      have htail : (if _h : itemlist.length = 0 then [] else [itemlist]).flatMap flatten
          = itemlist.flatten := by
        split
        · next h => rw [flatten_nil_of_length h, List.flatMap_nil]
        · rw [List.flatMap_cons, List.flatMap_nil, List.append_nil]
      rw [htail]
      exact List.perm_append_comm.trans (.of_eq (List.append_assoc ..).symm)

theorem iterated_singleton (items : Items α α) : (iterated [items]).Perm items.flatten := by
  refine (iterated_perm [items]).trans (.of_eq ?_)
  rw [List.flatMap_cons, List.flatMap_nil, List.append_nil]

theorem flatten_map (f : α → β) (items : Items α α) :
    (items.map f).flatten = items.flatten.map f := by
  induction items with
  | nil => rfl
  | item a rest ih => rw [map, flatten, flatten, List.map_cons, ih]
  | container a itemlist rest ihlist ih =>
      rw [map, flatten, flatten, List.map_cons, List.map_append, ihlist, ih]

/-! ## What is taken out -/

variable {f g : α → Option α}

theorem flatten_perm (f : α → Option α) (items : Items α α) :
    items.flatten.Perm (items.gone f ++ items.kept f) := by
  induction items with
  | nil => exact .refl _
  | item a rest ih =>
      rw [flatten, gone, kept]
      split
      · exact ih.cons a
      · exact (ih.cons a).trans List.perm_middle.symm
  | container a itemlist rest ihlist ih =>
      rw [flatten, gone, kept]
      split
      · rw [List.cons_append, List.append_assoc]
        exact (ih.append_left _).cons a
      · refine ((ihlist.append ih).cons a).trans (List.Perm.trans ?_ List.perm_middle.symm)
        refine List.Perm.cons a ?_
        rw [List.append_assoc, List.append_assoc]
        refine List.Perm.append_left _ ?_
        rw [← List.append_assoc, ← List.append_assoc]
        exact List.perm_append_comm.append_right _

theorem flatten_filterMap (f : α → Option α) (items : Items α α) :
    (items.filterMap f).flatten = (items.kept f).filterMap f := by
  induction items with
  | nil => rfl
  | item a rest ih =>
      rw [filterMap, kept]
      cases h : f a with
      | none => exact ih
      | some a' =>
          rw [if_neg (by rw [Option.isNone_some]; exact Bool.false_ne_true),
            List.filterMap_cons_some h, ← ih]
          rfl
  | container a itemlist rest ihlist ih =>
      rw [filterMap, kept]
      cases h : f a with
      | none => exact ih
      | some a' =>
          rw [if_neg (by rw [Option.isNone_some]; exact Bool.false_ne_true),
            List.filterMap_cons_some h, List.filterMap_append, ← ih, ← ihlist]
          rfl

/-- What is taken out depends on nothing else of `f`. -/
theorem gone_congr {items : Items α α} (h : ∀ a ∈ items.flatten, (f a).isNone = (g a).isNone) :
    items.gone f = items.gone g := by
  induction items with
  | nil => rfl
  | item a rest ih =>
      rw [flatten, List.forall_mem_cons] at h
      rw [gone, gone, h.1, ih h.2]
  | container a itemlist rest ihlist ih =>
      rw [flatten, List.forall_mem_cons, List.forall_mem_append] at h
      rw [gone, gone, h.1, ihlist h.2.1, ih h.2.2]

theorem isSome_of_mem_kept {items : Items α α} {a : α} (h : a ∈ items.kept f) :
    (f a).isSome := by
  induction items with
  | nil => cases h
  | item b rest ih =>
      rw [kept] at h
      split at h
      · exact ih h
      · next hb =>
        rcases List.mem_cons.mp h with rfl | h
        · exact Option.isSome_iff_ne_none.mpr fun hnone => hb (by rw [hnone]; rfl)
        · exact ih h
  | container b itemlist rest ihlist ih =>
      rw [kept] at h
      split at h
      · exact ih h
      · next hb =>
        rcases List.mem_cons.mp h with rfl | h
        · exact Option.isSome_iff_ne_none.mpr fun hnone => hb (by rw [hnone]; rfl)
        · exact (List.mem_append.mp h).elim ihlist ih

theorem mem_flatten_of_mem_kept {items : Items α α} {a : α} (h : a ∈ items.kept f) :
    a ∈ items.flatten :=
  (flatten_perm f items).mem_iff.mpr (List.mem_append_right _ h)

theorem mem_flatten_of_mem_gone {items : Items α α} {a : α} (h : a ∈ items.gone f) :
    a ∈ items.flatten :=
  (flatten_perm f items).mem_iff.mpr (List.mem_append_left _ h)

/-- What is to be taken out goes. -/
theorem filter_gone (f : α → Option α) (items : Items α α) :
    (items.gone f).filter (fun a => (f a).isNone) = items.flatten.filter fun a => (f a).isNone := by
  induction items with
  | nil => rfl
  | item a rest ih =>
      rw [gone, flatten]
      split
      · next h => rw [List.filter_cons_of_pos (p := fun a => (f a).isNone) h,
          List.filter_cons_of_pos (p := fun a => (f a).isNone) h, ih]
      · next h => rw [List.filter_cons_of_neg (p := fun a => (f a).isNone) h, ih]
  | container a itemlist rest ihlist ih =>
      rw [gone, flatten]
      split
      · next h =>
          rw [List.filter_cons_of_pos (p := fun a => (f a).isNone) h,
            List.filter_cons_of_pos (p := fun a => (f a).isNone) h, List.filter_append,
            List.filter_append, ih]
      · next h =>
          rw [List.filter_cons_of_neg (p := fun a => (f a).isNone) h, List.filter_append,
            List.filter_append, ihlist, ih]

theorem filterMap_congr {items : Items α α} (h : ∀ a ∈ items.flatten, f a = g a) :
    items.filterMap f = items.filterMap g := by
  induction items with
  | nil => rfl
  | item a rest ih =>
      rw [flatten, List.forall_mem_cons] at h
      rw [filterMap, filterMap, h.1, ih h.2]
  | container a itemlist rest ihlist ih =>
      rw [flatten, List.forall_mem_cons, List.forall_mem_append] at h
      rw [filterMap, filterMap, h.1, ihlist h.2.1, ih h.2.2]

theorem filterMap_filterMap (f g : α → Option α) (items : Items α α) :
    (items.filterMap f).filterMap g = items.filterMap fun a => (f a).bind g := by
  induction items with
  | nil => rfl
  | item a rest ih =>
      rw [filterMap, filterMap]
      cases f a with
      | none => exact ih
      | some a' =>
          rw [Option.bind_some, filterMap, ih]
  | container a itemlist rest ihlist ih =>
      rw [filterMap, filterMap]
      cases f a with
      | none => exact ih
      | some a' =>
          rw [Option.bind_some, filterMap, ihlist, ih]

theorem filterMap_some (items : Items α α) : items.filterMap some = items := by
  induction items with
  | nil => rfl
  | item a rest ih => rw [filterMap, ih]
  | container a itemlist rest ihlist ih => rw [filterMap, ihlist, ih]

end Bruxo.ItemForest.Items
