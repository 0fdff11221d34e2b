import Bruxo.HouseTransfer

/-!
# Where the items of a house are

The items that were in a house are followed through `setOwner`: each is in the house or in the
locker of the owner before, and what can be moved is not left (`Conserved`). A unit of a stack
counts as an item here.

The locker takes them all, but for the rest of a stack that is put together with one behind the
capacity (`Fits`). That they are still there afterwards is for the save of an owner who is not in
the game to say, and nobody asks what it or the load before it returned
(`setOwner_conserved_iff`).
-/

namespace Bruxo.HouseTransfer

open Mail ItemForest

variable {κ : Type}

/-! ## Things -/

/-- What is to be found once: an item with all that is in it, one unit of a stack, or a container
that stays. -/
inductive Thing (κ : Type) where
  | whole (item : Tree κ)
  | unit (id : UInt16) (text : List UInt8) (attributes : List κ) (n : Nat)
  | fixed (item : Item κ)

def Thing.id : Thing κ → UInt16
  | whole item => item.head.id
  | unit id _ _ _ => id
  | fixed item => item.id

def unitsOf (item : Item κ) (l : List Nat) : List (Thing κ) :=
  l.map (.unit item.id item.text (attributes item))

section Things

variable (types : UInt16 → ItemType)

def thingsOf (item : Tree κ) : List (Thing κ) :=
  if isStackable types item then unitsOf item.head (units item.head) else [.whole item]

/-- What is in a list, at the top -/
def things (items : ItemList κ) : List (Thing κ) := (trees items).flatMap (thingsOf types)

/-- What is on a tile, or in a container there that cannot be picked up -/
def thingsOn : ItemList κ → List (Thing κ)
  | .nil => []
  | .item a rest => thingsOf types (.item a) ++ thingsOn rest
  | .container b itemlist rest =>
      (if isPickupable types b then [.whole (.container b itemlist)]
        else .fixed b :: things types itemlist) ++ thingsOn rest

def Thing.MustMove : Thing κ → Prop
  | fixed _ => False
  | thing => (types thing.id).isPickupable = true ∧ (types thing.id).moveable = true

/-- The items on a tile, and those in the containers there that cannot be picked up -/
def spots : ItemList κ → List (Tree κ)
  | .nil => []
  | .item a rest => .item a :: spots rest
  | .container b itemlist rest =>
      .container b itemlist ::
        ((if isPickupable types b then [] else trees itemlist) ++ spots rest)

/-- What is in the locker of the depot, in memory or as it is loaded from the rows -/
def Owner.depot (player : Owner κ) (depotId : Nat) : ItemList κ :=
  match player with
  | .online lockers => itemsOf lockers depotId
  | .offline record => readTop (tagged verbatim) .depot record.lockerItems depotId

/-- Each item of the house is one thing, and not in the locker as well. -/
structure Furnished (house : House κ) (player : Owner κ) : Prop where
  identified : ∀ item ∈ house.tiles.flatMap (spots types), ∃ uid, item.head.uid = some uid
  distinct : ((house.tiles.flatMap (spots types)).map fun item => item.head.uid).Nodup
  nodup : (house.tiles.flatMap (thingsOn types)).Nodup
  elsewhere : ∀ thing ∈ house.tiles.flatMap (thingsOn types),
    thing ∉ things types (player.depot house.townId.toNat)

/-- The tiles are as they were but for what was taken, each thing is in the house or in the locker
once, and what has to move is not left. -/
structure Conserved (house house' : House κ) (player' : Owner κ) : Prop where
  inPlace : ∃ test, house'.tiles = house.tiles.map (keepOn types test)
  once : ∃ others, (∀ thing ∈ others, thing ∉ house.tiles.flatMap (thingsOn types)) ∧
    (house'.tiles.flatMap (thingsOn types) ++
      things types (player'.depot house.townId.toNat)).Perm
        (house.tiles.flatMap (thingsOn types) ++ others)
  left : ∀ thing ∈ house'.tiles.flatMap (thingsOn types), ¬ thing.MustMove types

/-! ## When it is so -/

variable [DecidableEq κ]

/-- The rest of a stack is to go behind the capacity of the locker. -/
def Drops (locker : ItemList κ) (item : Tree κ) : Prop :=
  match queryDestination types item locker with
  | some index => capacity ≤ index ∧ (updateThing types item.head index locker).2 ≠ []
  | none => False

/-- No rest of a stack is dropped when the items are added one after the other. -/
def Fits (locker : ItemList κ) : List (Tree κ) → Prop
  | [] => True
  | item :: items => ¬ Drops types locker item ∧ Fits (add types locker item) items

/-- What is taken out of the house -/
def moved (tiles : List (ItemList κ)) : List (Tree κ) :=
  (moveItemList types tiles).filter (moves types)

/-- An owner who is not in the game is loaded, and the lockers are saved as those of lockers. -/
def Arrives (house : House κ) (player : Owner κ) (outcomes : Outcomes (Columns κ)) : Prop :=
  match player with
  | .online lockers =>
      Fits types (getDepotLocker house.townId.toNat lockers).1.itemlist (moved types house.tiles)
  | .offline record => ∃ lockers, loadPlayerById record outcomes = some lockers ∧
      Fits types (getDepotLocker house.townId.toNat lockers).1.itemlist
        (moved types house.tiles) ∧
      house.townId.toNat < 100 ∧ record.save ≠ 0 ∧
      AllSucceed verbatim outcomes.script (transferToPlayer types house lockers).2
        (outcomes.connection record.lockerItems)

end Things

/-! ## The house -/

section House

variable {types : UInt16 → ItemType}

theorem trees_keep (test : Item κ → Bool) (items : ItemList κ) :
    trees (keep test items) = (trees items).filter fun item => test item.head := by
  induction items with
  | nil => rfl
  | item a rest ih =>
      rw [keep, trees, List.filter_cons]
      cases h : test a with
      | true => simpa [Tree.head, h, trees] using ih
      | false => simpa [Tree.head, h] using ih
  | container b itemlist rest _ ih =>
      rw [keep, trees, List.filter_cons]
      cases h : test b with
      | true => simpa [Tree.head, h, trees] using ih
      | false => simpa [Tree.head, h] using ih

theorem keep_keep (test test' : Item κ → Bool) (items : ItemList κ) :
    keep test (keep test' items) = keep (fun a => test' a && test a) items := by
  induction items with
  | nil => rfl
  | item a rest ih => cases h : test' a <;> cases h' : test a <;> simp [keep, h, h', ih]
  | container b itemlist rest _ ih =>
      cases h : test' b <;> cases h' : test b <;> simp [keep, h, h', ih]

theorem keepOn_keepOn (test test' : Item κ → Bool) (tile : ItemList κ) :
    keepOn types test (keepOn types test' tile) =
      keepOn types (fun a => test' a && test a) tile := by
  induction tile with
  | nil => rfl
  | item a rest ih => cases h : test' a <;> cases h' : test a <;> simp [keepOn, h, h', ih]
  | container b itemlist rest _ ih =>
      cases hb : isPickupable types b <;> cases h : test' b <;> cases h' : test b <;>
        simp [keepOn, hb, h, h', ih, keep_keep]

theorem keepOn_true (tile : ItemList κ) : keepOn types (fun _ => true) tile = tile := by
  have hkeep : ∀ items : ItemList κ, keep (fun _ => true) items = items := by
    intro items
    induction items with
    | nil => rfl
    | item a rest ih => simp [keep, ih]
    | container b itemlist rest _ ih => simp [keep, ih]
  induction tile with
  | nil => rfl
  | item a rest ih => simp [keepOn, ih]
  | container b itemlist rest _ ih => simp [keepOn, ih, hkeep]

/-- What is moved is of the items in reach. -/
theorem collect_filter (tile : ItemList κ) :
    (collect types tile).filter (moves types) = (spots types tile).filter (moves types) := by
  have hnot : ∀ item : Tree κ, isPickupable types item.head = false →
      moves types item = false := by
    intro item h
    rw [moves, h]
    rfl
  induction tile with
  | nil => rfl
  | item a rest ih =>
      rw [collect, spots]
      split
      · rw [List.filter_cons, List.filter_cons, ih]
      · next h =>
          rw [List.filter_cons, hnot (.item a) (Bool.eq_false_of_not_eq_true h), ih]
          rfl
  | container b itemlist rest _ ih =>
      rw [collect, spots]
      split
      · rw [List.nil_append, List.filter_cons, List.filter_cons, ih]
      · next h =>
          rw [List.filter_cons, hnot (.container b itemlist) (Bool.eq_false_of_not_eq_true h),
            List.filter_append, ih]
          exact (List.filter_append ..).symm

theorem moved_eq (tiles : List (ItemList κ)) :
    moved types tiles = (tiles.flatMap (spots types)).filter (moves types) := by
  rw [moved, moveItemList, List.filter_flatMap, List.filter_flatMap]
  exact congrArg (tiles.flatMap ·) (funext collect_filter)

/-- What stays is not to move: it cannot be moved, or counts nothing. -/
theorem not_mustMove {item : Tree κ} (h : moves types item = false) :
    ∀ thing ∈ thingsOf types item, ¬ thing.MustMove types := by
  rw [moves, Bool.and_eq_false_iff, Bool.and_eq_false_iff] at h
  intro thing hthing hmust
  rw [thingsOf] at hthing
  split at hthing
  · next hstackable =>
      obtain ⟨n, hn, rfl⟩ := List.mem_map.mp hthing
      obtain ⟨hpick, hmove⟩ := hmust
      rcases h with (h | h) | h
      · exact Bool.false_ne_true (h.symm.trans hpick)
      · exact Bool.false_ne_true (h.symm.trans hmove)
      · rw [hstackable, Bool.not_true, Bool.false_or, decide_eq_false_iff_not] at h
        exact h (List.length_pos_of_mem hn)
  · next hstackable =>
      obtain rfl := List.mem_singleton.mp hthing
      obtain ⟨hpick, hmove⟩ := hmust
      rcases h with (h | h) | h
      · exact Bool.false_ne_true (h.symm.trans hpick)
      · exact Bool.false_ne_true (h.symm.trans hmove)
      · rw [Bool.eq_false_of_not_eq_true hstackable] at h
        cases h

theorem things_keep {test : Item κ → Bool} {items : ItemList κ}
    (h : ∀ item ∈ trees items, test item.head = !moves types item) :
    (things types items).Perm (things types (keep test items) ++
      ((trees items).filter (moves types)).flatMap (thingsOf types)) ∧
    ∀ thing ∈ things types (keep test items), ¬ thing.MustMove types := by
  have hkeep : trees (keep test items) = (trees items).filter fun item => !moves types item := by
    rw [trees_keep]
    exact List.filter_congr h
  rw [things, things, hkeep, ← List.flatMap_append]
  refine ⟨((List.filter_append_perm (moves types) _).symm.trans
    List.perm_append_comm).flatMap_right _, fun thing hthing => ?_⟩
  obtain ⟨item, hitem, hthing⟩ := List.mem_flatMap.mp hthing
  have hmoves := (List.mem_filter.mp hitem).2
  rw [Bool.not_eq_true'] at hmoves
  exact not_mustMove hmoves thing hthing

/-- What a tile has is what is left there and what is taken. -/
theorem thingsOn_keepOn {test : Item κ → Bool} {tile : ItemList κ}
    (h : ∀ item ∈ spots types tile, test item.head = !moves types item) :
    (thingsOn types tile).Perm (thingsOn types (keepOn types test tile) ++
      ((spots types tile).filter (moves types)).flatMap (thingsOf types)) ∧
    ∀ thing ∈ thingsOn types (keepOn types test tile), ¬ thing.MustMove types := by
  induction tile with
  | nil => exact ⟨.refl _, fun _ h => (by cases h)⟩
  | item a rest ih =>
      obtain ⟨hperm, hleft⟩ := ih fun item hitem => h item (List.mem_cons_of_mem _ hitem)
      have ha : test a = !moves types (.item a) := h (.item a) List.mem_cons_self
      rw [spots, List.filter_cons, keepOn, ha, thingsOn]
      cases hmoves : moves types (.item a) with
      | true =>
          rw [if_pos rfl, List.flatMap_cons]
          refine ⟨(hperm.append_left _).trans ?_, hleft⟩
          exact List.perm_append_comm_assoc ..
      | false =>
          rw [if_neg Bool.false_ne_true, Bool.not_false, if_pos rfl, thingsOn, List.append_assoc]
          refine ⟨hperm.append_left _, fun thing hthing => ?_⟩
          rcases List.mem_append.mp hthing with hthing | hthing
          · exact not_mustMove hmoves thing hthing
          · exact hleft thing hthing
  | container b itemlist rest _ ih =>
      obtain ⟨hperm, hleft⟩ := ih fun item hitem =>
        h item (List.mem_cons_of_mem _ (List.mem_append_right _ hitem))
      have hb : test b = !moves types (.container b itemlist) :=
        h (.container b itemlist) List.mem_cons_self
      rw [spots, List.filter_cons, keepOn, hb, thingsOn]
      cases hpick : isPickupable types b with
      | true =>
          rw [if_pos rfl, if_pos rfl, if_pos rfl, List.nil_append]
          cases hmoves : moves types (.container b itemlist) with
          | true =>
              rw [if_pos rfl, List.flatMap_cons]
              refine ⟨(hperm.append_left _).trans ?_, hleft⟩
              exact List.perm_append_comm_assoc ..
          | false =>
              rw [if_neg Bool.false_ne_true, Bool.not_false, if_pos rfl, thingsOn, hpick,
                if_pos rfl, List.append_assoc]
              refine ⟨hperm.append_left _, fun thing hthing => ?_⟩
              rcases List.mem_append.mp hthing with hthing | hthing
              · exact not_mustMove hmoves thing hthing
              · exact hleft thing hthing
      | false =>
          have hstays : moves types (.container b itemlist) = false := by
            rw [moves, Tree.head, hpick]
            rfl
          obtain ⟨hin, hleftin⟩ := things_keep fun item hitem => h item (by
            rw [spots, hpick]
            exact List.mem_cons_of_mem _ (List.mem_append_left _ hitem))
          simp only [hstays, Bool.false_eq_true, if_false, Bool.not_false, if_true, thingsOn, hpick,
            List.filter_append, List.flatMap_append, List.cons_append, List.append_assoc]
          refine ⟨.cons _ ?_, fun thing hthing => ?_⟩
          · refine (hin.append hperm).trans ?_
            rw [List.append_assoc]
            exact (List.perm_append_comm_assoc ..).append_left _
          · rcases List.mem_cons.mp hthing with rfl | hthing
            · exact id
            · rcases List.mem_append.mp hthing with hthing | hthing
              · exact hleftin thing hthing
              · exact hleft thing hthing

/-- None of the items that were taken -/
def untaken (items : List (Tree κ)) (a : Item κ) : Bool :=
  decide (a.uid ∉ items.map fun item => item.head.uid)

/-- By its identity an item is known to be one that moves. -/
theorem untaken_eq {house : House κ} {player : Owner κ} (h : Furnished types house player) :
    ∀ item ∈ house.tiles.flatMap (spots types),
      untaken (moved types house.tiles) item.head = !moves types item := by
  intro item hitem
  rw [moved_eq]
  cases hmoves : moves types item with
  | true =>
      refine decide_eq_false (not_not.mpr ?_)
      exact List.mem_map.mpr ⟨item, List.mem_filter.mpr ⟨hitem, hmoves⟩, rfl⟩
  | false =>
      refine decide_eq_true fun hin => ?_
      obtain ⟨item', hitem', heq⟩ := List.mem_map.mp hin
      obtain ⟨hin', hmoves'⟩ := List.mem_filter.mp hitem'
      obtain rfl := List.inj_on_of_nodup_map h.distinct hin' hitem heq
      exact Bool.false_ne_true (hmoves.symm.trans hmoves')

theorem tiles_keepOn (test : Item κ → Bool) (tiles : List (ItemList κ))
    (h : ∀ item ∈ tiles.flatMap (spots types), test item.head = !moves types item) :
    (tiles.flatMap (thingsOn types)).Perm
      ((tiles.map (keepOn types test)).flatMap (thingsOn types) ++
        (moved types tiles).flatMap (thingsOf types)) ∧
    ∀ thing ∈ (tiles.map (keepOn types test)).flatMap (thingsOn types),
      ¬ thing.MustMove types := by
  rw [moved_eq]
  induction tiles with
  | nil => exact ⟨.refl _, fun _ h => (by cases h)⟩
  | cons tile tiles ih =>
      obtain ⟨hperm, hleft⟩ := ih fun item hitem => h item (by
        rw [List.flatMap_cons]
        exact List.mem_append_right _ hitem)
      obtain ⟨htile, hlefttile⟩ := thingsOn_keepOn fun item hitem => h item (by
        rw [List.flatMap_cons]
        exact List.mem_append_left _ hitem)
      simp only [List.flatMap_cons, List.map_cons, List.filter_append, List.flatMap_append,
        List.append_assoc]
      refine ⟨?_, fun thing hthing => ?_⟩
      · refine (htile.append hperm).trans ?_
        rw [List.append_assoc]
        exact (List.perm_append_comm_assoc ..).append_left _
      · rcases List.mem_append.mp hthing with hthing | hthing
        · exact hlefttile thing hthing
        · exact hleft thing hthing

variable [DecidableEq κ]

/-- The moves one after the other: each takes its item out of the house and adds it to the
locker. -/
theorem foldl_internalMoveItem (items : List (Tree κ)) (tiles : List (ItemList κ))
    (depot : DepotLocker (Attr κ)) :
    items.foldl (internalMoveItem types) (tiles, depot) =
      (tiles.map (keepOn types (untaken (items.filter (moves types)))),
        { itemlist := (items.filter (moves types)).foldl (add types) depot.itemlist
          save := depot.save || !(items.filter (moves types)).isEmpty }) := by
  induction items generalizing tiles depot with
  | nil =>
      have htiles : keepOn types (untaken (κ := κ) []) = id :=
        funext fun tile => keepOn_true tile
      simp [htiles]
  | cons item items ih =>
      rw [List.foldl_cons, internalMoveItem, List.filter_cons]
      cases hmoves : moves types item with
      | false =>
          rw [if_neg Bool.false_ne_true, if_neg Bool.false_ne_true]
          exact ih tiles depot
      | true =>
          rw [if_pos rfl, if_pos rfl, ih, removeThing, List.map_map]
          have htest : (fun a : Item κ => decide (a.uid ≠ item.head.uid) &&
              untaken (items.filter (moves types)) a) =
                untaken (item :: items.filter (moves types)) := by
            funext a
            simp [untaken]
          have hkeep : keepOn types (untaken (items.filter (moves types))) ∘
              keepOn types (fun a => decide (a.uid ≠ item.head.uid)) =
                keepOn types (untaken (item :: items.filter (moves types))) := by
            funext tile
            rw [Function.comp_apply, keepOn_keepOn, htest]
          rw [hkeep]
          simp

end House

/-! ## The locker -/

section Locker

variable {types : UInt16 → ItemType}

@[simp] theorem units_setUnits (l : List Nat) (item : Item κ) : units (setUnits l item) = l := by
  simp [units, setUnits, List.filterMap_append, List.filterMap_map]

@[simp] theorem attributes_setUnits (l : List Nat) (item : Item κ) :
    attributes (setUnits l item) = attributes item := by
  rw [attributes, setUnits, List.filterMap_append, List.filterMap_map, List.filterMap_map]
  simp

theorem things_cons (item : Tree κ) (rest : ItemList κ) :
    things types (item.cons rest) = thingsOf types item ++ things types rest := by
  cases item <;> rfl

theorem thingsOf_stack {a : Item κ} (h : isStackable types (.item a) = true) :
    thingsOf types (.item a) = unitsOf a (units a) := if_pos h

theorem thingsOf_setUnits {a : Item κ} (h : isStackable types (.item a) = true) (l : List Nat) :
    thingsOf types (.item (setUnits l a)) = unitsOf a l := by
  have hset : isStackable types (.item (setUnits l a)) = true := h
  rw [thingsOf_stack hset, unitsOf, unitsOf, units_setUnits, attributes_setUnits]
  rfl

variable [DecidableEq κ]

/-- The stack that was found takes some of the units, as ones of its own. -/
theorem updateThing_spec {a : Item κ} (hstackable : isStackable types (.item a) = true)
    {locker : ItemList κ} {index : Nat} (h : findStack types a locker = some index) :
    ∃ taken, units a = taken ++ (updateThing types a index locker).2 ∧
      (things types (updateThing types a index locker).1).Perm
        (unitsOf a taken ++ things types locker) := by
  induction locker generalizing index with
  | nil => cases h
  | item b rest ih =>
      rw [findStack] at h
      split at h
      · next hfound =>
          cases h
          obtain ⟨hequals, _⟩ := hfound
          simp only [equals, Bool.and_eq_true, decide_eq_true_eq] at hequals
          obtain ⟨⟨hid, htext⟩, hattributes⟩ := hequals
          have hb : isStackable types (.item b) = true := by
            rw [isStackable, hid]
            exact hstackable
          have hunits : ∀ l, unitsOf b l = unitsOf a l := fun l => by
            rw [unitsOf, unitsOf, hid, htext, hattributes]
          refine ⟨_, (List.take_append_drop _ _).symm, ?_⟩
          rw [updateThing]
          change (things types (Tree.cons (.item (setUnits _ b)) rest)).Perm
            (_ ++ things types (Tree.cons (.item b) rest))
          rw [things_cons, things_cons, thingsOf_setUnits hb, thingsOf_stack hb, ← hunits, unitsOf,
            unitsOf, unitsOf, List.map_append, ← List.append_assoc]
          exact List.perm_append_comm.append_right _
      · obtain ⟨index, hrest, rfl⟩ := Option.map_eq_some_iff.mp h
        obtain ⟨taken, hunits, hperm⟩ := ih hrest
        refine ⟨taken, hunits, ?_⟩
        rw [updateThing]
        change (things types (Tree.cons (.item b) _)).Perm
          (_ ++ things types (Tree.cons (.item b) rest))
        rw [things_cons, things_cons]
        exact (hperm.append_left _).trans (List.perm_append_comm_assoc ..)
  | container b itemlist rest _ ih =>
      rw [findStack] at h
      obtain ⟨index, hrest, rfl⟩ := Option.map_eq_some_iff.mp h
      obtain ⟨taken, hunits, hperm⟩ := ih hrest
      refine ⟨taken, hunits, ?_⟩
      rw [updateThing]
      change (things types (Tree.cons (.container b itemlist) _)).Perm
        (_ ++ things types (Tree.cons (.container b itemlist) rest))
      rw [things_cons, things_cons]
      exact (hperm.append_left _).trans (List.perm_append_comm_assoc ..)

/-- What is added is in the locker, but for the rest of a stack that is dropped. -/
theorem things_add (locker : ItemList κ) (item : Tree κ) :
    (¬ Drops types locker item → (things types (add types locker item)).Perm
      (thingsOf types item ++ things types locker)) ∧
    (Drops types locker item → ∃ taken lost, lost ≠ [] ∧ thingsOf types item = taken ++ lost ∧
      (things types (add types locker item)).Perm (taken ++ things types locker)) := by
  cases hquery : queryDestination types item locker with
  | none =>
      have hadd : add types locker item = item.cons locker := by
        cases item <;> simp only [add, hquery]
      have hnot : ¬ Drops types locker item := by
        rw [Drops, hquery]
        exact id
      rw [hadd, things_cons]
      exact ⟨fun _ => .refl _, fun h => absurd h hnot⟩
  | some index =>
      cases item with
      | container b itemlist => cases hquery
      | item a =>
          have hstackable : isStackable types (.item a) = true := by
            by_contra hnot
            rw [queryDestination, if_neg hnot] at hquery
            cases hquery
          have hfound : findStack types a locker = some index := by
            rw [queryDestination, if_pos hstackable] at hquery
            exact hquery
          obtain ⟨taken, hunits, hperm⟩ := updateThing_spec hstackable hfound
          have hadd : add types locker (.item a) =
              if 0 < (updateThing types a index locker).2.length then
                addThing index (.item (setUnits (updateThing types a index locker).2 a))
                  (updateThing types a index locker).1
              else (updateThing types a index locker).1 := by
            simp only [add, hquery]
          have hdrops : Drops types locker (.item a) ↔
              capacity ≤ index ∧ (updateThing types a index locker).2 ≠ [] := by
            rw [Drops, hquery]
            rfl
          generalize updateThing types a index locker = result at hunits hperm hadd hdrops
          obtain ⟨locker', left⟩ := result
          dsimp only at hunits hperm hadd hdrops
          rw [hadd, hdrops, thingsOf_stack hstackable, hunits, unitsOf, List.map_append]
          constructor
          · intro hnot
            split
            · next hleft =>
                have hroom : ¬ capacity ≤ index := fun hle =>
                  hnot ⟨hle, List.ne_nil_of_length_pos hleft⟩
                rw [addThing, if_neg hroom, things_cons, thingsOf_setUnits hstackable]
                refine (hperm.append_left _).trans ?_
                rw [← List.append_assoc]
                exact List.perm_append_comm.append_right _
            · next hleft =>
                rw [List.length_eq_zero_iff.mp (Nat.eq_zero_of_not_pos hleft), List.map_nil,
                  List.append_nil]
                exact hperm
          · rintro ⟨hle, hleft⟩
            rw [if_pos (List.length_pos_of_ne_nil hleft), addThing, if_pos hle]
            exact ⟨_, _, by simpa using hleft, rfl, hperm⟩

theorem things_foldl {items : List (Tree κ)} {locker : ItemList κ}
    (h : Fits types locker items) :
    (things types (items.foldl (add types) locker)).Perm
      (items.flatMap (thingsOf types) ++ things types locker) := by
  induction items generalizing locker with
  | nil => exact .refl _
  | cons item items ih =>
      obtain ⟨hnot, hrest⟩ := h
      rw [List.foldl_cons, List.flatMap_cons]
      refine (ih hrest).trans ((((things_add locker item).1 hnot).append_left _).trans ?_)
      rw [List.append_assoc]
      exact List.perm_append_comm_assoc ..

theorem mem_add {thing : Thing κ} {locker : ItemList κ} {item : Tree κ}
    (h : thing ∈ things types (add types locker item)) :
    thing ∈ thingsOf types item ∨ thing ∈ things types locker := by
  by_cases hdrops : Drops types locker item
  · obtain ⟨taken, lost, _, hitem, hperm⟩ := (things_add locker item).2 hdrops
    rw [hitem]
    rcases List.mem_append.mp (hperm.mem_iff.mp h) with h | h
    · exact .inl (List.mem_append_left _ h)
    · exact .inr h
  · exact List.mem_append.mp (((things_add locker item).1 hdrops).mem_iff.mp h)

theorem mem_foldl {thing : Thing κ} {items : List (Tree κ)} {locker : ItemList κ}
    (h : thing ∈ things types (items.foldl (add types) locker)) :
    thing ∈ items.flatMap (thingsOf types) ∨ thing ∈ things types locker := by
  induction items generalizing locker with
  | nil => exact .inr h
  | cons item items ih =>
      rw [List.flatMap_cons, List.mem_append, or_assoc]
      rcases ih h with h | h
      · exact .inr (.inl h)
      · rcases mem_add h with h | h
        · exact .inl h
        · exact .inr (.inr h)

/-- Where the locker does not fit, a unit of a stack is nowhere. -/
theorem lost_of_not_fits {items : List (Tree κ)} {locker : ItemList κ}
    (hnot : ¬ Fits types locker items) (hnodup : (items.flatMap (thingsOf types)).Nodup)
    (hfresh : ∀ thing ∈ items.flatMap (thingsOf types), thing ∉ things types locker) :
    ∃ thing ∈ items.flatMap (thingsOf types),
      thing ∉ things types (items.foldl (add types) locker) := by
  induction items generalizing locker with
  | nil => exact absurd trivial hnot
  | cons item items ih =>
      rw [List.flatMap_cons] at hnodup hfresh ⊢
      obtain ⟨hitem, hitems, hdisjoint⟩ := List.nodup_append'.mp hnodup
      by_cases hdrops : Drops types locker item
      · obtain ⟨taken, lost, hlost, heq, hperm⟩ := (things_add locker item).2 hdrops
        obtain ⟨thing, hthing⟩ := List.exists_mem_of_ne_nil lost hlost
        have hin : thing ∈ thingsOf types item := by
          rw [heq]
          exact List.mem_append_right _ hthing
        refine ⟨thing, List.mem_append_left _ hin, fun hmem => ?_⟩
        rw [List.foldl_cons] at hmem
        rcases mem_foldl hmem with hmem | hmem
        · exact hdisjoint hin hmem
        · rw [heq] at hitem
          rcases List.mem_append.mp (hperm.mem_iff.mp hmem) with hmem | hmem
          · exact (List.nodup_append'.mp hitem).2.2 hmem hthing
          · exact hfresh thing (List.mem_append_left _ hin) hmem
      · have hrest : ¬ Fits types (add types locker item) items := fun h => hnot ⟨hdrops, h⟩
        obtain ⟨thing, hthing, hmem⟩ := ih hrest hitems fun thing hthing hmem => by
          rcases mem_add hmem with hmem | hmem
          · exact hdisjoint hmem hthing
          · exact hfresh thing (List.mem_append_right _ hthing) hmem
        exact ⟨thing, List.mem_append_right _ hthing, hmem⟩

end Locker

/-! ## The transfer -/

section Transfer

variable {types : UInt16 → ItemType} {house : House κ} {player : Owner κ}

theorem exists_mustMove {item : Tree κ} (h : moves types item = true) :
    ∃ thing ∈ thingsOf types item, thing.MustMove types := by
  simp only [moves, Bool.and_eq_true, Bool.or_eq_true, Bool.not_eq_true', decide_eq_true_eq] at h
  obtain ⟨⟨hpick, hmove⟩, hcount⟩ := h
  rw [thingsOf]
  split
  · next hstackable =>
      rw [hstackable] at hcount
      obtain ⟨n, hn⟩ := List.exists_mem_of_length_pos (hcount.resolve_left Bool.false_ne_true.symm)
      exact ⟨_, List.mem_map_of_mem hn, hpick, hmove⟩
  · exact ⟨_, List.mem_singleton_self _, hpick, hmove⟩

theorem mem_spots {item : Tree κ} {tile : ItemList κ} (h : .whole item ∈ thingsOn types tile) :
    item ∈ spots types tile := by
  have hthing : ∀ item' : Tree κ, .whole item ∈ thingsOf types item' → item = item' := by
    intro item' h
    rw [thingsOf] at h
    split at h
    · obtain ⟨n, _, heq⟩ := List.mem_map.mp h
      cases heq
    · cases List.mem_singleton.mp h
      rfl
  induction tile with
  | nil => cases h
  | item a rest ih =>
      rcases List.mem_append.mp h with h | h
      · rw [hthing _ h]
        exact List.mem_cons_self
      · exact List.mem_cons_of_mem _ (ih h)
  | container b itemlist rest _ ih =>
      rw [thingsOn] at h
      rw [spots]
      rcases List.mem_append.mp h with h | h
      · split at h
        · cases List.mem_singleton.mp h
          exact List.mem_cons_self
        · next hpick =>
            rcases List.mem_cons.mp h with h | h
            · cases h
            · obtain ⟨item', hitem', h⟩ := List.mem_flatMap.mp h
              rw [hthing _ h, if_neg hpick]
              exact List.mem_cons_of_mem _ (List.mem_append_left _ hitem')
      · exact List.mem_cons_of_mem _ (List.mem_append_right _ (ih h))

theorem things_append (first second : ItemList κ) :
    things types (append first second) = things types first ++ things types second := by
  have htrees : trees (append first second) = trees first ++ trees second := by
    induction first with
    | nil => rfl
    | item a rest ih => rw [append, trees, trees, ih, List.cons_append]
    | container b itemlist rest _ ih => rw [append, trees, trees, ih, List.cons_append]
  rw [things, htrees, List.flatMap_append]
  rfl

theorem id_thingsOf {item : Tree κ} {thing : Thing κ} (h : thing ∈ thingsOf types item) :
    thing.id = item.head.id := by
  rw [thingsOf] at h
  split at h
  · obtain ⟨n, _, rfl⟩ := List.mem_map.mp h
    rfl
  · rw [List.mem_singleton.mp h]
    rfl

theorem things_withoutDepot (items : ItemList κ) :
    things types (withoutDepot items) =
      (things types items).filter fun thing => thing.id ≠ ITEM_DEPOT := by
  have hall : ∀ item : Tree κ, item.head.id ≠ ITEM_DEPOT →
      (thingsOf types item).filter (fun thing => thing.id ≠ ITEM_DEPOT) = thingsOf types item :=
    fun item hne => List.filter_eq_self.mpr fun thing hthing =>
      decide_eq_true (id_thingsOf hthing ▸ hne)
  have hnone : ∀ item : Tree κ, ¬ item.head.id ≠ ITEM_DEPOT →
      (thingsOf types item).filter (fun thing => thing.id ≠ ITEM_DEPOT) = [] :=
    fun item heq => List.filter_eq_nil_iff.mpr fun thing hthing hne =>
      heq (id_thingsOf hthing ▸ of_decide_eq_true hne)
  induction items with
  | nil => rfl
  | item a rest ih =>
      rw [withoutDepot]
      change _ = (things types (Tree.cons (.item a) rest)).filter _
      rw [things_cons, List.filter_append]
      split
      · next hne =>
          rw [hall (.item a) hne, ← ih]
          exact things_cons (.item a) _
      · next heq => rw [hnone (.item a) heq, ih, List.nil_append]
  | container b itemlist rest _ ih =>
      rw [withoutDepot]
      change _ = (things types (Tree.cons (.container b itemlist) rest)).filter _
      rw [things_cons, List.filter_append]
      split
      · next hne =>
          rw [hall (.container b itemlist) hne, ← ih]
          exact things_cons (.container b itemlist) _
      · next heq => rw [hnone (.container b itemlist) heq, ih, List.nil_append]

theorem reload_verbatim (items : ItemList κ) : items.reload (tagged verbatim) = items := by
  induction items with
  | nil => rfl
  | item a rest ih => rw [Items.reload, ih]; rfl
  | container b itemlist rest ihc ih => rw [Items.reload, ihc, ih]; rfl

/-- Where nothing is taken, all is as it has to be if nothing has to be taken. -/
theorem conserved_unmoved_iff (h : Furnished types house player) (owner : Nat) (player' : Owner κ)
    (hfresh : ∀ thing ∈ things types (player'.depot house.townId.toNat),
      thing ∉ house.tiles.flatMap (thingsOn types)) :
    Conserved types house { house with owner := owner } player' ↔
      moved types house.tiles = [] := by
  constructor
  · intro hconserved
    by_contra hmoved
    obtain ⟨item, hitem⟩ := List.exists_mem_of_ne_nil _ hmoved
    obtain ⟨thing, hthing, hmust⟩ := exists_mustMove (List.mem_filter.mp hitem).2
    have hperm := (tiles_keepOn _ house.tiles (untaken_eq h)).1
    refine hconserved.left thing (hperm.mem_iff.mpr (List.mem_append_right _ ?_)) hmust
    exact List.mem_flatMap.mpr ⟨item, hitem, hthing⟩
  · intro hmoved
    have hstay : ∀ item ∈ house.tiles.flatMap (spots types), true = !moves types item := by
      intro item hitem
      rw [moved_eq, List.filter_eq_nil_iff] at hmoved
      rw [Bool.eq_false_of_not_eq_true (hmoved item hitem)]
      rfl
    have hsame : house.tiles.map (keepOn types fun _ => true) = house.tiles := by
      have hid : keepOn types (κ := κ) (fun _ => true) = id := funext keepOn_true
      rw [hid, List.map_id]
    obtain ⟨_, hleft⟩ := tiles_keepOn (fun _ => true) house.tiles hstay
    rw [hsame] at hleft
    exact ⟨⟨_, hsame.symm⟩, ⟨_, hfresh, .refl _⟩, hleft⟩

/-- Where the items that move were taken, all is as it has to be if they are in the locker. -/
theorem conserved_moved_iff (h : Furnished types house player) (owner : Nat) (player' : Owner κ) :
    Conserved types house { house with
      owner := owner
      tiles := house.tiles.map (keepOn types (untaken (moved types house.tiles))) } player' ↔
    ∃ others, (∀ thing ∈ others, thing ∉ house.tiles.flatMap (thingsOn types)) ∧
      (things types (player'.depot house.townId.toNat)).Perm
        ((moved types house.tiles).flatMap (thingsOf types) ++ others) := by
  obtain ⟨hperm, hleft⟩ := tiles_keepOn _ house.tiles (untaken_eq h)
  constructor
  · rintro ⟨_, ⟨others, hothers, honce⟩, _⟩
    refine ⟨others, hothers, (List.perm_append_left_iff _).mp (honce.trans ?_)⟩
    rw [← List.append_assoc]
    exact hperm.append_right _
  · rintro ⟨others, hothers, hdepot⟩
    refine ⟨⟨_, rfl⟩, ⟨others, hothers, (hdepot.append_left _).trans ?_⟩, hleft⟩
    rw [← List.append_assoc]
    exact hperm.symm.append_right _

/-- The chest of a new locker is none of the things of a house. -/
theorem fresh_depot (h : Furnished types house player) {lockers : Lockers (Attr κ)}
    (hlockers : ∀ thing ∈ things types (itemsOf lockers house.townId.toNat),
      thing ∈ things types (player.depot house.townId.toNat) ∨ thing ∈ things types chest) :
    ∀ thing ∈ house.tiles.flatMap (thingsOn types),
      thing ∉ things types (getDepotLocker house.townId.toNat lockers).1.itemlist := by
  have hchest : ∀ thing ∈ house.tiles.flatMap (thingsOn types), thing ∉ things types chest := by
    intro thing hthing hin
    obtain rfl : thing = .whole (.container ⟨⟨ITEM_DEPOT, [], []⟩, none⟩ .nil) :=
      List.mem_singleton.mp hin
    obtain ⟨tile, htile, hthing⟩ := List.mem_flatMap.mp hthing
    obtain ⟨uid, huid⟩ := h.identified _ (List.mem_flatMap.mpr ⟨tile, htile, mem_spots hthing⟩)
    cases huid
  intro thing hthing hin
  rw [getDepotLocker] at hin
  rw [itemsOf] at hlockers
  split at hin
  · next locker hfind =>
      rw [hfind] at hlockers
      rcases hlockers thing hin with hin | hin
      · exact h.elsewhere thing hthing hin
      · exact hchest thing hthing hin
  · exact hchest thing hthing hin

/-- What the rows make of the locker after a save: it is as in memory but for the chest, or as it
was. -/
theorem depot_saved {record : Record (Columns κ)} {outcomes : Outcomes (Columns κ)}
    {lockers : Lockers (Attr κ)} {townId : Nat} (htown : townId < 2 ^ 32)
    (hsorted : AssocList.Sorted lockers) (hkeys : ∀ e ∈ lockers, e.1 = townId ∨ e.1 < 100) :
    (needsSave lockers = true ∧ (townId < 100 ∧ record.save ≠ 0 ∧
        AllSucceed verbatim outcomes.script lockers (outcomes.connection record.lockerItems)) ∧
      (Owner.offline (record.saved verbatim outcomes lockers)).depot townId =
        withoutDepot (itemsOf lockers townId)) ∨
    ((needsSave lockers = true → ¬ (townId < 100 ∧ record.save ≠ 0 ∧
        AllSucceed verbatim outcomes.script lockers (outcomes.connection record.lockerItems))) ∧
      ((Owner.offline (record.saved verbatim outcomes lockers)).depot townId = .nil ∨
        (Owner.offline (record.saved verbatim outcomes lockers)).depot townId =
          (Owner.offline record).depot townId)) := by
  have hidle : (outcomes.connection record.lockerItems).server.saved = none := rfl
  rcases savePlayer_stored verbatim outcomes.script record.save lockers hidle with
    ⟨hsave, hall, hrows⟩ | ⟨hnot, hrows⟩
  · cases hneeds : needsSave lockers with
    | false =>
        rw [written, hneeds, if_neg Bool.false_ne_true] at hrows
        refine .inr ⟨fun hneeds => (by cases hneeds), .inr ?_⟩
        rw [Owner.depot, Record.saved, hrows]
        rfl
    | true =>
        rw [written, hneeds, if_pos rfl] at hrows
        by_cases hlt : townId < 100
        · refine .inl ⟨rfl, ⟨hlt, hsave, hall⟩, ?_⟩
          rw [Owner.depot, Record.saved, hrows]
          dsimp only
          rw [readTop_itemBlocks hsorted fun e he => (hkeys e he).elim (fun heq => heq ▸ hlt) id]
          exact reload_verbatim _
        · refine .inr ⟨fun _ hw => hlt hw.1, .inl ?_⟩
          rw [Owner.depot, Record.saved, hrows]
          refine readTop_itemBlocks_eq_nil hsorted (fun e he => ?_) (Nat.le_of_not_lt hlt)
          rcases hkeys e he with heq | hlt
          · exact heq ▸ htown
          · omega
  · refine .inr ⟨fun _ hw => hnot hw.2, .inr ?_⟩
    rw [Owner.depot, Record.saved, hrows]
    rfl

variable [DecidableEq κ]

/-- The locker of the depot when all has been moved -/
def depotAfter (types : UInt16 → ItemType) (house : House κ) (lockers : Lockers (Attr κ)) :
    ItemList κ :=
  (moved types house.tiles).foldl (add types)
    (getDepotLocker house.townId.toNat lockers).1.itemlist

theorem transferToPlayer_eq (hdepot : ¬ (house.townId = 0 ∨ house.owner = 0))
    (lockers : Lockers (Attr κ)) :
    transferToPlayer types house lockers =
      (house.tiles.map (keepOn types (untaken (moved types house.tiles))),
        AssocList.set house.townId.toNat
          { itemlist := depotAfter types house lockers
            save := (getDepotLocker house.townId.toNat lockers).1.save ||
              !(moved types house.tiles).isEmpty }
          (getDepotLocker house.townId.toNat lockers).2) := by
  rw [transferToPlayer, if_neg hdepot]
  dsimp only
  rw [foldl_internalMoveItem]
  rfl

/-- The locker has all that was moved exactly when it fits. -/
theorem depotAfter_iff (h : Furnished types house player) {lockers : Lockers (Attr κ)}
    (hfresh : ∀ thing ∈ house.tiles.flatMap (thingsOn types),
      thing ∉ things types (getDepotLocker house.townId.toNat lockers).1.itemlist)
    {depot : List (Thing κ)} (test : Thing κ → Bool)
    (htest : ∀ thing ∈ (moved types house.tiles).flatMap (thingsOf types), test thing = true)
    (hdepot : depot = (things types (depotAfter types house lockers)).filter test) :
    (∃ others, (∀ thing ∈ others, thing ∉ house.tiles.flatMap (thingsOn types)) ∧
      depot.Perm ((moved types house.tiles).flatMap (thingsOf types) ++ others)) ↔
    Fits types (getDepotLocker house.townId.toNat lockers).1.itemlist
      (moved types house.tiles) := by
  have hperm := (tiles_keepOn _ house.tiles (untaken_eq h)).1
  have hmem : ∀ thing ∈ (moved types house.tiles).flatMap (thingsOf types),
      thing ∈ house.tiles.flatMap (thingsOn types) := fun thing hthing =>
    hperm.mem_iff.mpr (List.mem_append_right _ hthing)
  subst hdepot
  constructor
  · rintro ⟨others, _, hall⟩
    by_contra hnot
    have hnodup := (List.nodup_append'.mp (hperm.nodup_iff.mp h.nodup)).2.1
    obtain ⟨thing, hthing, hlost⟩ := lost_of_not_fits hnot hnodup fun thing hthing =>
      hfresh thing (hmem thing hthing)
    exact hlost (List.mem_of_mem_filter (hall.mem_iff.mpr (List.mem_append_left _ hthing)))
  · intro hfits
    refine ⟨(things types (getDepotLocker house.townId.toNat lockers).1.itemlist).filter test,
      fun thing hthing hin => hfresh thing hin (List.mem_of_mem_filter hthing), ?_⟩
    have hall := (things_foldl hfits).filter test
    rw [List.filter_append, List.filter_eq_self.mpr htest] at hall
    exact hall

/-- The lockers after a transfer to a player that was loaded -/
theorem transferToPlayer_loaded (hdepot : ¬ (house.townId = 0 ∨ house.owner = 0))
    {record : Record (Columns κ)} {outcomes : Outcomes (Columns κ)} {lockers : Lockers (Attr κ)}
    (hload : loadPlayerById record outcomes = some lockers) :
    (∀ thing ∈ things types (itemsOf lockers house.townId.toNat),
      thing ∈ things types ((Owner.offline record).depot house.townId.toNat) ∨
        thing ∈ things types chest) ∧
    AssocList.Sorted (transferToPlayer types house lockers).2 ∧
    (∀ e ∈ (transferToPlayer types house lockers).2, e.1 = house.townId.toNat ∨ e.1 < 100) ∧
    (moved types house.tiles ≠ [] → needsSave (transferToPlayer types house lockers).2 = true) ∧
    itemsOf (transferToPlayer types house lockers).2 house.townId.toNat =
      depotAfter types house lockers := by
  rw [loadPlayerById] at hload
  split at hload
  · obtain rfl := Option.some.inj hload
    rw [transferToPlayer_eq hdepot]
    refine ⟨fun thing hthing => ?_, (sorted_getDepotLocker sorted_loadLockers).set _ _,
      fun e he => ?_, fun hmoved => ?_, ?_⟩
    · rw [itemsOf] at hthing
      split at hthing
      · next locker hfind =>
          rw [(mem_loadLockers (AssocList.mem_of_find hfind)).2, things_append] at hthing
          refine (List.mem_append.mp hthing).imp_left fun hthing => ?_
          split at hthing
          · exact hthing
          · cases hthing
      · cases hthing
    · rcases AssocList.mem_set he with rfl | he
      · exact .inl rfl
      · exact (mem_getDepotLocker he).imp_right fun he => (mem_loadLockers he).1
    · have hempty : (moved types house.tiles).isEmpty = false := by
        rw [List.isEmpty_eq_false_iff]
        exact hmoved
      refine List.any_eq_true.mpr ⟨_, AssocList.mem_of_find (AssocList.find_set .. |>.trans
        (if_pos rfl)), ?_⟩
      rw [hempty, Bool.not_false, Bool.or_true]
    · rw [itemsOf_set, if_pos rfl]
  · cases hload

/-- What is saved of a player who was loaded decides, if anything was moved. -/
theorem conserved_saved_iff (hchest : (types ITEM_DEPOT).isPickupable = false)
    {record : Record (Columns κ)} (h : Furnished types house (.offline record))
    (htown : house.townId ≠ 0) (howner : house.owner ≠ 0) {outcomes : Outcomes (Columns κ)}
    {lockers : Lockers (Attr κ)} (hload : loadPlayerById record outcomes = some lockers) :
    (∃ others, (∀ thing ∈ others, thing ∉ house.tiles.flatMap (thingsOn types)) ∧
      (things types ((Owner.offline (record.saved verbatim outcomes
        (transferToPlayer types house lockers).2)).depot house.townId.toNat)).Perm
          ((moved types house.tiles).flatMap (thingsOf types) ++ others)) ↔
    moved types house.tiles = [] ∨ Arrives types house (.offline record) outcomes := by
  have hdepot : ¬ (house.townId = 0 ∨ house.owner = 0) := not_or.mpr ⟨htown, howner⟩
  obtain ⟨hlockers, hsorted, hkeys, hneeds, hitems⟩ := transferToPlayer_loaded hdepot hload
  have harrives : Arrives types house (.offline record) outcomes ↔
      Fits types (getDepotLocker house.townId.toNat lockers).1.itemlist
          (moved types house.tiles) ∧
        house.townId.toNat < 100 ∧ record.save ≠ 0 ∧
        AllSucceed verbatim outcomes.script (transferToPlayer types house lockers).2
          (outcomes.connection record.lockerItems) := by
    refine ⟨?_, fun hall => ⟨lockers, hload, hall⟩⟩
    rintro ⟨lockers', hload', hall⟩
    obtain rfl := Option.some.inj (hload.symm.trans hload')
    exact hall
  rw [harrives]
  rcases depot_saved house.townId.toNat_lt hsorted hkeys with
    ⟨_, hwritten, hsaved⟩ | ⟨hnot, hsaved⟩
  · have htest : ∀ thing ∈ (moved types house.tiles).flatMap (thingsOf types),
        decide (thing.id ≠ ITEM_DEPOT) = true := by
      intro thing hthing
      obtain ⟨item, hitem, hthing⟩ := List.mem_flatMap.mp hthing
      have hpick := (List.mem_filter.mp hitem).2
      rw [moves, Bool.and_eq_true, Bool.and_eq_true, isPickupable, ← id_thingsOf hthing] at hpick
      refine decide_eq_true fun heq => ?_
      rw [heq, hchest] at hpick
      exact Bool.false_ne_true hpick.1.1
    rw [hsaved, hitems]
    refine (depotAfter_iff h (fresh_depot h hlockers) _ htest (things_withoutDepot _)).trans
      ⟨fun hfits => .inr ⟨hfits, hwritten⟩, ?_⟩
    rintro (hnil | ⟨hfits, _⟩)
    · rw [hnil]
      trivial
    · exact hfits
  · constructor
    · rintro ⟨others, _, hall⟩
      by_contra hnone
      obtain ⟨hmoved, _⟩ := not_or.mp hnone
      obtain ⟨item, hitem⟩ := List.exists_mem_of_ne_nil _ hmoved
      obtain ⟨thing, hthing, _⟩ := exists_mustMove (List.mem_filter.mp hitem).2
      have hin := List.mem_flatMap.mpr ⟨item, hitem, hthing⟩
      have hstored := hall.mem_iff.mpr (List.mem_append_left _ hin)
      rcases hsaved with heq | heq
      · rw [heq] at hstored
        cases hstored
      · rw [heq] at hstored
        have hperm := (tiles_keepOn _ house.tiles (untaken_eq h)).1
        exact h.elsewhere thing (hperm.mem_iff.mpr (List.mem_append_right _ hin)) hstored
    · intro hor
      have hnil : moved types house.tiles = [] :=
        hor.elim id fun hall => by_contra fun hmoved => hnot (hneeds hmoved) hall.2
      refine ⟨_, fun thing hthing hin => ?_, by rw [hnil]; exact .refl _⟩
      rcases hsaved with heq | heq
      · rw [heq] at hthing
        cases hthing
      · rw [heq] at hthing
        exact h.elsewhere thing hin hthing

/-- All items of a house are kept, and none is left that has to move, exactly where there is none,
or a town, and the owner before is loaded, has room for what is left of every stack, and is
saved. -/
theorem setOwner_conserved_iff (hchest : (types ITEM_DEPOT).isPickupable = false)
    (h : Furnished types house player) (howner : house.owner ≠ 0) {guid : Nat}
    (hdiff : house.owner ≠ guid) (outcomes : Outcomes (Columns κ)) (nameFound : Bool) :
    Conserved types house (setOwner types house player outcomes guid nameFound).1
        (setOwner types house player outcomes guid nameFound).2 ↔
      moved types house.tiles = [] ∨
        (house.townId ≠ 0 ∧ Arrives types house player outcomes) := by
  have hperm := (tiles_keepOn _ house.tiles (untaken_eq h)).1
  have helsewhere : ∀ thing ∈ things types (player.depot house.townId.toNat),
      thing ∉ house.tiles.flatMap (thingsOn types) := fun thing hthing hin =>
    h.elsewhere thing hin hthing
  rw [setOwner, if_neg hdiff, if_pos howner]
  unfold transferToDepot
  by_cases htown : house.townId = 0
  · rw [if_pos (.inl htown)]
    refine (conserved_unmoved_iff h _ player helsewhere).trans ⟨.inl, fun hor => ?_⟩
    exact hor.resolve_right fun hnot => hnot.1 htown
  · have hdepot : ¬ (house.townId = 0 ∨ house.owner = 0) := not_or.mpr ⟨htown, howner⟩
    rw [if_neg hdepot]
    cases player with
    | online lockers =>
        dsimp only
        rw [transferToPlayer_eq hdepot]
        refine (conserved_moved_iff h _ _).trans ?_
        have hfresh : ∀ thing ∈ house.tiles.flatMap (thingsOn types),
            thing ∉ things types (getDepotLocker house.townId.toNat lockers).1.itemlist :=
          fresh_depot h fun thing hthing => .inl hthing
        refine (depotAfter_iff h hfresh (fun _ => true) (fun _ _ => rfl) ?_).trans ?_
        · rw [Owner.depot, itemsOf_set, if_pos rfl]
          exact (List.filter_eq_self.mpr fun _ _ => rfl).symm
        · refine ⟨fun hfits => .inr ⟨htown, hfits⟩, ?_⟩
          rintro (hnil | ⟨_, hfits⟩)
          · rw [hnil]
            trivial
          · exact hfits
    | offline record =>
        dsimp only
        cases hload : loadPlayerById record outcomes with
        | none =>
            refine (conserved_unmoved_iff h _ _ helsewhere).trans ⟨.inl, fun hor => ?_⟩
            refine hor.resolve_right fun hnot => ?_
            obtain ⟨lockers, hsome, _⟩ := hnot.2
            rw [hload] at hsome
            cases hsome
        | some lockers =>
            dsimp only
            rw [show (transferToPlayer types house lockers).1 =
              house.tiles.map (keepOn types (untaken (moved types house.tiles))) from by
                rw [transferToPlayer_eq hdepot]]
            refine (conserved_moved_iff h _ _).trans
              ((conserved_saved_iff hchest h htown howner hload).trans ?_)
            rw [and_iff_right htown]

end Transfer

/-! ## A sword on a tile, and coins in a chest that stays -/

def cottageTypes (id : UInt16) : ItemType :=
  if id = 100 then { id := id, pickupable := true, moveable := true }
  else if id = 200 then { id := id, group := .container, type := .container }
  else if id = 300 then { id := id, stackable := true, pickupable := true, moveable := true }
  else {}

def sword : Item Unit := { id := 100, text := [], others := [], uid := some 1 }

def oldChest : Item Unit := { id := 200, text := [], others := [], uid := some 2 }

def coins : Item Unit :=
  { id := 300, text := [], others := [.unit 1, .unit 2, .unit 3], uid := some 3 }

def cottage : House Unit where
  owner := 7
  townId := 2
  tiles := [.item sword (.container oldChest (.item coins .nil) .nil)]

/-- The owner is not in the game. -/
def absentOwner : Record (Columns Unit) := { save := 1, loads := true, lockerItems := [] }

/-- The player can be loaded, and then the database does as it is told. -/
def answering (ok : Bool) : Outcomes (Columns Unit) where
  selectPlayer := true
  selectLockers := true
  statements _ := ok
  maxPacketSize := 1000
  script := { lastlogin := "", before := [], lockers := "", depots := [], after := []
              text := fun _ => "" }

theorem cottage_furnished : Furnished cottageTypes cottage (.offline absentOwner) where
  identified item hitem := by
    obtain rfl | rfl | rfl : item = .item sword ∨ item = .container oldChest (.item coins .nil) ∨
        item = .item coins := by
      simpa [cottage, spots, isPickupable, oldChest, cottageTypes, ItemType.isPickupable, trees]
        using hitem
    · exact ⟨1, rfl⟩
    · exact ⟨2, rfl⟩
    · exact ⟨3, rfl⟩
  distinct := by decide
  nodup := by
    have hthings : cottage.tiles.flatMap (thingsOn cottageTypes) =
        [.whole (.item sword), .fixed oldChest, .unit 300 [] [] 1, .unit 300 [] [] 2,
          .unit 300 [] [] 3] := rfl
    rw [hthings]
    simp
  elsewhere _ _ h := by cases h

theorem cottage_moved : moved cottageTypes cottage.tiles = [.item sword, .item coins] := rfl

theorem setOwner_conserved_iff_cottage :
    Conserved cottageTypes cottage
      (setOwner cottageTypes cottage (.offline absentOwner) (answering true) 8 true).1
      (setOwner cottageTypes cottage (.offline absentOwner) (answering true) 8 true).2 := by
  refine (setOwner_conserved_iff (by decide) cottage_furnished (by decide) (by decide) _ _).mpr
    (.inr ⟨by decide, _, rfl, ?_, by decide, by decide, fun _ _ => rfl⟩)
  rw [cottage_moved]
  exact ⟨fun h => h, fun h => h, trivial⟩

/-- The save fails: the sword and the coins are nowhere. -/
theorem cottage_lost :
    ¬ ∀ (types : UInt16 → ItemType) (house : House Unit) (player : Owner Unit)
      (outcomes : Outcomes (Columns Unit)) (guid : Nat), (types ITEM_DEPOT).isPickupable = false →
        Furnished types house player → house.owner ≠ 0 → house.owner ≠ guid →
          Conserved types house (setOwner types house player outcomes guid true).1
            (setOwner types house player outcomes guid true).2 := by
  intro hall
  have hconserved := hall cottageTypes cottage (.offline absentOwner) (answering false) 8
    (by decide) cottage_furnished (by decide) (by decide)
  obtain ⟨others, _, honce⟩ := hconserved.once
  have hsword : Thing.whole (.item sword) ∈ cottage.tiles.flatMap (thingsOn cottageTypes) :=
    List.mem_cons_self
  have hafter := honce.mem_iff.mpr (List.mem_append_left others hsword)
  -- Only the chest is left, and the rows are as they were.
  have hleft : Thing.whole (.item sword) ∈ [Thing.fixed oldChest] := hafter
  cases List.mem_singleton.mp hleft

end Bruxo.HouseTransfer
