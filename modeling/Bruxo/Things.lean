import Bruxo.Cylinder
import Mathlib.Data.List.Sort

/-!
# Putting things into cylinders and taking them out

`addThing`, `removeThing` and `updateThing` of tiles, containers and players,
for items, and `Item::clone`. Each of them either takes one item out of one
cylinder, puts one in, or changes the count of one: `Takes` and `Recounts` say
what the first and the last leave as it was.
-/

namespace Bruxo

namespace World

/-! ## Writing to a world -/

section Writes

variable (w : World)

def setThing (i : ThingId) (t : Thing) : World :=
  { w with thing := Function.update w.thing i t }

def setParent (i : ThingId) (parent : Option Cylinder) : World :=
  w.setThing i { w.thing i with parent := parent }

def setData (i : ThingId) (data : Item) : World := w.setThing i { w.thing i with data := data }

def setItems (c : ThingId) (items : List ThingId) : World :=
  w.setThing c { w.thing c with itemlist := items }

def setTile (pos : Position) (t : Tile) : World :=
  { w with tile := Function.update w.tile pos (some t) }

def setInventory (p slot : Nat) (item : Option ThingId) : World :=
  { w with
    player := Function.update w.player p
      { w.player p with inventory := Function.update (w.player p).inventory slot item } }

end Writes

/-! ## The operations -/

variable (env : Env) (w : World)

/-- `Tile::addThing` of an item that is neither a ground nor a splash nor a field in
the way of another one of its kind. -/
def tileInsert (pos : Position) (t : Tile) (item : ThingId) : World :=
  if (w.typeOf env item).alwaysOnTop then
    let below (a b : ThingId) : Bool :=
      (w.typeOf env a).alwaysOnTopOrder ≤ (w.typeOf env b).alwaysOnTopOrder
    w.setTile pos { t with topItems := t.topItems.orderedInsert (below · ·) item }
  else w.setTile pos { t with downItems := item :: t.downItems }

def tileAddThing (pos : Position) (item : ThingId) : World :=
  match w.tile pos with
  | none => w
  | some t =>
      let it := w.typeOf env item
      if 0xFFFF ≤ (t.downItems ++ t.topItems).length then w
      else
        let w := w.setParent item (some (.tile pos))
        if it.isGroundTile then
          match t.ground with
          | none => w.setTile pos { t with ground := some item }
          | some oldGround =>
              (w.setParent oldGround none).setTile pos { t with ground := some item }
        else if it.alwaysOnTop then
          match (if it.isSplash then t.topItems.find? fun i => (w.typeOf env i).isSplash
              else none) with
          | none => w.tileInsert env pos t item
          | some oldSplash =>
              (w.setParent oldSplash none).tileInsert env pos
                { t with topItems := t.topItems.erase oldSplash } item
        else
          match (if it.isMagicField then t.downItems.find? fun i => (w.typeOf env i).isMagicField
              else none) with
          | none => w.tileInsert env pos t item
          | some oldField =>
              if (w.typeOf env oldField).replaceable then
                (w.setParent oldField none).tileInsert env pos
                  { t with downItems := t.downItems.erase oldField } item
              else w.setParent item none

def containerAddThing (c : ThingId) (index : Int) (item : ThingId) : World :=
  if (w.thing c).maxSize ≤ index then w
  else
    let w := w.setParent item (some (.container c))
    w.setItems c (item :: (w.thing c).itemlist)

def playerAddThing (p : Nat) (index : Int) (item : ThingId) : World :=
  if index < 1 ∨ 10 < index then w
  else (w.setParent item (some (.player p))).setInventory p index.toNat (some item)

def addThing (c : Cylinder) (index : Int) (item : ThingId) : World :=
  match c with
  | .tile pos => w.tileAddThing env pos item
  | .container c => w.containerAddThing c index item
  | .player p => w.playerAddThing p index item

/-- The `addThing` without an index, which a player does not do anything for. -/
def addThingAnywhere (c : Cylinder) (item : ThingId) : World :=
  match c with
  | .player _ => w
  | _ => w.addThing env c 0 item

/-- Whether a `removeThing` leaves a smaller stack. -/
def splits (item : ThingId) (count : Nat) : Bool :=
  (w.typeOf env item).stackable && count ≠ w.count item

def reduce (item : ThingId) (count : Nat) : World :=
  w.setData item ((w.thing item).data.setItemCount (w.count item - count))

def tileRemoveThing (pos : Position) (item : ThingId) (count : Nat) : World :=
  match w.tile pos with
  | none => w
  | some t =>
      if t.ground = some item then (w.setParent item none).setTile pos { t with ground := none }
      else if (w.typeOf env item).alwaysOnTop then
        if item ∈ t.topItems then
          (w.setParent item none).setTile pos { t with topItems := t.topItems.erase item }
        else w
      else if item ∈ t.downItems then
        if w.splits env item count then w.reduce item count
        else (w.setParent item none).setTile pos { t with downItems := t.downItems.erase item }
      else w

def containerRemoveThing (c item : ThingId) (count : Nat) : World :=
  if item ∈ (w.thing c).itemlist then
    if w.splits env item count then w.reduce item count
    else
      let w := w.setParent item none
      w.setItems c ((w.thing c).itemlist.erase item)
  else w

def playerRemoveThing (p : Nat) (item : ThingId) (count : Nat) : World :=
  match slots.find? fun slot => (w.player p).inventory slot = some item with
  | none => w
  | some slot =>
      if w.splits env item count then w.reduce item count
      else (w.setParent item none).setInventory p slot none

def removeThing (c : Cylinder) (item : ThingId) (count : Nat) : World :=
  match c with
  | .tile pos => w.tileRemoveThing env pos item count
  | .container c => w.containerRemoveThing env c item count
  | .player p => w.playerRemoveThing env p item count

/-- `updateThing` with the id that the item has. -/
def updateThing (c : Cylinder) (item : ThingId) (count : Nat) : World :=
  if w.isHolding env c item then
    let it := w.typeOf env item
    w.setData item
      (((w.thing item).data.setID it it (env.newDuration (w.thing item).id)).setSubType it count)
  else w

/-- `clone` of an item that is no container, with the count of the clone. -/
def clone (item : ThingId) (count : Nat) : World :=
  { w.setThing w.nextId
      { w.thing item with
        data := (w.thing item).data.cloned.setItemCount count
        parent := none
        isContainer := false
        itemlist := [] } with
    nextId := w.nextId + 1 }

/-! ## What stays as it was -/

/-- What a tile has where: its ground, the items that are always on top, the others. -/
structure Sorted (t : Tile) : Prop where
  ground : ∀ i ∈ t.ground, (w.typeOf env i).isGroundTile
  top : ∀ i ∈ t.topItems, (w.typeOf env i).alwaysOnTop
  down : ∀ i ∈ t.downItems, ¬ (w.typeOf env i).alwaysOnTop

/-- Only `c` has other contents, and only `i` has another parent. -/
structure Frame (w w' : World) (c : Cylinder) (i : ThingId) (parent : Option Cylinder) : Prop where
  id : ∀ j, (w'.thing j).id = (w.thing j).id
  data : ∀ j, (w'.thing j).data = (w.thing j).data
  isContainer : ∀ j, (w'.thing j).isContainer = (w.thing j).isContainer
  maxSize : ∀ j, (w'.thing j).maxSize = (w.thing j).maxSize
  contents_ne : ∀ c', c' ≠ c → w'.contents c' = w.contents c'
  parent_self : (w'.thing i).parent = parent
  parent_ne : ∀ j, j ≠ i → (w'.thing j).parent = (w.thing j).parent
  nextId : w'.nextId = w.nextId
  sorted : (∀ pos t, w.tile pos = some t → w.Sorted env t) →
    ∀ pos t, w'.tile pos = some t → w'.Sorted env t

/-- `i` is taken out of `c`. -/
structure Takes (w w' : World) (c : Cylinder) (i : ThingId) : Prop
    extends Frame env w w' c i none where
  perm : (w.contents c).Perm (i :: w'.contents c)
  tile : ∀ pos t, w.tile pos = some t → ∃ t', w'.tile pos = some t' ∧
    (t'.downItems ++ t'.topItems).length ≤ (t.downItems ++ t.topItems).length
  slot : ∀ p s, (w.player p).inventory s = none → (w'.player p).inventory s = none

/-- `i` has another count. -/
structure Recounts (w w' : World) (i : ThingId) (n : Nat) : Prop where
  id : ∀ j, (w'.thing j).id = (w.thing j).id
  data : ∀ j, j ≠ i → (w'.thing j).data = (w.thing j).data
  isContainer : ∀ j, (w'.thing j).isContainer = (w.thing j).isContainer
  maxSize : ∀ j, (w'.thing j).maxSize = (w.thing j).maxSize
  contents : ∀ c, w'.contents c = w.contents c
  count : w'.count i = n
  parent : ∀ j, (w'.thing j).parent = (w.thing j).parent
  nextId : w'.nextId = w.nextId
  tile : w'.tile = w.tile
  player : w'.player = w.player

section Lemmas

variable {env} {w}

theorem setThing_thing (i j : ThingId) (t : Thing) :
    (w.setThing i t).thing j = if j = i then t else w.thing j := by
  simp only [setThing, Function.update_apply]

theorem contents_setThing (i : ThingId) (t : Thing) (h : t.itemlist = (w.thing i).itemlist)
    (c : Cylinder) : (w.setThing i t).contents c = w.contents c := by
  cases c with
  | tile pos => rfl
  | container k =>
      simp only [contents, setThing_thing]
      split
      · next hk => rw [h, hk]
      · rfl
  | player p => rfl

theorem sorted_congr {w' : World} (hid : ∀ j, (w'.thing j).id = (w.thing j).id) {t : Tile}
    (h : w.Sorted env t) : w'.Sorted env t := by
  have htype : ∀ j, w'.typeOf env j = w.typeOf env j := fun j => by simp only [typeOf, hid]
  exact ⟨fun i hi => by rw [htype]; exact h.ground i hi, fun i hi => by rw [htype]; exact h.top i hi,
    fun i hi => by rw [htype]; exact h.down i hi⟩

/-! ## Frames of the writes -/

/-- `setParent` of one item, and then something that leaves the items alone but for the
contents of `c`. -/
theorem setParent_frame {c : Cylinder} {i : ThingId} {parent : Option Cylinder} {w' : World}
    (hthing : ∀ j, (w'.thing j).id = (w.thing j).id ∧ (w'.thing j).data = (w.thing j).data ∧
      (w'.thing j).isContainer = (w.thing j).isContainer ∧
      (w'.thing j).maxSize = (w.thing j).maxSize ∧
      (w'.thing j).parent = if j = i then parent else (w.thing j).parent)
    (hcontents : ∀ c', c' ≠ c → w'.contents c' = w.contents c') (hnext : w'.nextId = w.nextId)
    (hsorted : (∀ pos t, w.tile pos = some t → w.Sorted env t) →
      ∀ pos t, w'.tile pos = some t → w.Sorted env t) :
    Frame env w w' c i parent where
  id j := (hthing j).1
  data j := (hthing j).2.1
  isContainer j := (hthing j).2.2.1
  maxSize j := (hthing j).2.2.2.1
  contents_ne := hcontents
  parent_self := by rw [(hthing i).2.2.2.2, if_pos rfl]
  parent_ne j hj := by rw [(hthing j).2.2.2.2, if_neg hj]
  nextId := hnext
  sorted h pos t ht := sorted_congr (fun j => (hthing j).1) (hsorted h pos t ht)

theorem setTile_frame (i : ThingId) (parent : Option Cylinder) {pos : Position} {t : Tile}
    (h : (∀ pos t, w.tile pos = some t → w.Sorted env t) → w.Sorted env t) :
    Frame env w ((w.setParent i parent).setTile pos t) (.tile pos) i parent := by
  refine setParent_frame (fun j => ?_) (fun c' hc' => ?_) rfl (fun hs pos' t' ht' => ?_)
  · simp only [setTile, setParent, setThing_thing]
    split
    · next hj => subst hj; exact ⟨rfl, rfl, rfl, rfl, rfl⟩
    · exact ⟨rfl, rfl, rfl, rfl, rfl⟩
  · cases c' with
    | tile pos' =>
        have hpos : pos' ≠ pos := fun heq => hc' (by rw [heq])
        simp only [contents, setTile, setParent, setThing, Function.update_of_ne hpos]
    | container k =>
        exact contents_setThing i { w.thing i with parent := parent } rfl (.container k)
    | player p => rfl
  · simp only [setTile, setParent, setThing, Function.update_apply] at ht'
    split at ht'
    · cases ht'
      exact h hs
    · exact hs pos' t' ht'

theorem setItems_frame (i c : ThingId) (parent : Option Cylinder) (l : List ThingId) :
    Frame env w ((w.setParent i parent).setItems c l) (.container c) i parent := by
  refine setParent_frame (fun j => ?_) (fun c' hc' => ?_) rfl (fun hs => hs)
  · simp only [setItems, setParent, setThing_thing]
    split <;> split <;> simp_all
  · cases c' with
    | tile pos => rfl
    | container k =>
        have hk : k ≠ c := fun heq => hc' (by rw [heq])
        simp only [contents, setItems, setParent, setThing_thing, if_neg hk]
        split
        · next h => rw [h]
        · rfl
    | player p => rfl

theorem setInventory_frame (i : ThingId) (parent : Option Cylinder) (p slot : Nat)
    (o : Option ThingId) :
    Frame env w ((w.setParent i parent).setInventory p slot o) (.player p) i parent := by
  refine setParent_frame (fun j => ?_) (fun c' hc' => ?_) rfl (fun hs => hs)
  · simp only [setInventory, setParent, setThing_thing]
    split
    · next hj => subst hj; exact ⟨rfl, rfl, rfl, rfl, rfl⟩
    · exact ⟨rfl, rfl, rfl, rfl, rfl⟩
  · cases c' with
    | tile pos => rfl
    | container k =>
        exact contents_setThing i { w.thing i with parent := parent } rfl (.container k)
    | player q =>
        have hq : q ≠ p := fun heq => hc' (by rw [heq])
        simp only [contents, setInventory, setParent, setThing, Function.update_of_ne hq]

/-! ## Taking out -/

theorem slots_nodup : slots.Nodup := List.nodup_range' 1

theorem mem_slots {slot : Nat} : slot ∈ slots ↔ 1 ≤ slot ∧ slot ≤ 10 := by
  simp only [slots, List.mem_range'_1]
  omega

theorem filterMap_update_perm {l : List Nat} (hl : l.Nodup) {s : Nat} (hs : s ∈ l)
    (f : Nat → Option ThingId) (o : Option ThingId) :
    (l.filterMap (Function.update f s o)).Perm (o.toList ++ (l.erase s).filterMap f) := by
  have hrest : (l.erase s).filterMap (Function.update f s o) = (l.erase s).filterMap f := by
    refine List.filterMap_congr fun x hx => ?_
    have hne : x ≠ s := fun heq => hl.not_mem_erase (heq ▸ hx)
    rw [Function.update_of_ne hne]
  refine ((List.perm_cons_erase hs).filterMap _).trans ?_
  cases o with
  | none =>
      rw [List.filterMap_cons_none (Function.update_self ..), hrest]
      exact List.Perm.refl _
  | some i =>
      rw [List.filterMap_cons_some (Function.update_self ..), hrest]
      exact List.Perm.refl _

theorem setInventory_perm (i : ThingId) (parent : Option Cylinder) {p slot : Nat}
    (hslot : slot ∈ slots) (o : Option ThingId) :
    (((w.setParent i parent).setInventory p slot o).contents (.player p)).Perm
      (o.toList ++ (slots.erase slot).filterMap (w.player p).inventory) := by
  simp only [contents, setInventory, setParent, setThing, Function.update_self]
  exact filterMap_update_perm slots_nodup hslot _ o

theorem player_perm {p slot : Nat} (hslot : slot ∈ slots) :
    (w.contents (.player p)).Perm
      (((w.player p).inventory slot).toList ++
        (slots.erase slot).filterMap (w.player p).inventory) := by
  have h := filterMap_update_perm slots_nodup hslot (w.player p).inventory
    ((w.player p).inventory slot)
  rwa [Function.update_eq_self] at h

/-- Taking an item off a tile, which is then `t'`. -/
theorem setTile_takes {pos : Position} {t t' : Tile} {item : ThingId} (ht : w.tile pos = some t)
    (hperm : (t.ground.toList ++ t.topItems ++ t.downItems).Perm
      (item :: (t'.ground.toList ++ t'.topItems ++ t'.downItems)))
    (hlen : (t'.downItems ++ t'.topItems).length ≤ (t.downItems ++ t.topItems).length)
    (hsorted : w.Sorted env t → w.Sorted env t') :
    Takes env w ((w.setParent item none).setTile pos t') (.tile pos) item where
  toFrame := setTile_frame item none fun hs => hsorted (hs pos t ht)
  perm := by
    simp only [contents, ht, setTile, Function.update_self]
    exact hperm
  tile pos' u hu := by
    simp only [setTile, setParent, setThing, Function.update_apply]
    split
    · next hpos =>
        subst hpos
        rw [ht] at hu
        cases hu
        exact ⟨t', rfl, hlen⟩
    · exact ⟨u, hu, Nat.le_refl _⟩
  slot _ _ hs := hs

theorem splits_whole {item : ThingId} : w.splits env item (w.count item) = false := by
  simp only [splits, ne_eq, not_true_eq_false, decide_false, Bool.and_false]

theorem splits_of_one {item : ThingId} {count : Nat} (h : (w.typeOf env item).stackable = false) :
    w.splits env item count = false := by
  simp only [splits, h, Bool.false_and]

theorem tileRemoveThing_takes {pos : Position} {item : ThingId} {count : Nat}
    (h : w.isHolding env (.tile pos) item) (hsplit : w.splits env item count = false) :
    Takes env w (w.tileRemoveThing env pos item count) (.tile pos) item := by
  simp only [isHolding] at h
  cases ht : w.tile pos with
  | none => rw [ht] at h; cases h
  | some t =>
      simp only [ht, Bool.or_eq_true, decide_eq_true_eq, List.contains_iff_mem] at h
      simp only [tileRemoveThing, ht]
      by_cases hground : t.ground = some item
      · rw [if_pos hground]
        refine setTile_takes ht ?_ (Nat.le_refl _) fun hs => ⟨(fun i hi => by cases hi), hs.top,
          hs.down⟩
        rw [hground]
        exact List.Perm.refl _
      rw [if_neg hground]
      by_cases htop : (w.typeOf env item).alwaysOnTop
      · rw [if_pos htop]
        have hmem : item ∈ t.topItems := by
          rcases h with h | h
          · exact absurd h hground
          · rwa [if_pos htop] at h
        rw [if_pos hmem]
        have hperm := List.perm_cons_erase hmem
        refine setTile_takes ht ?_ ?_ fun hs => ⟨hs.ground,
          fun i hi => hs.top i (List.mem_of_mem_erase hi), hs.down⟩
        · exact ((hperm.append_left t.ground.toList).trans List.perm_middle).append_right _
        · simp only [List.length_append]
          have := List.length_erase_le (a := item) (l := t.topItems)
          omega
      · rw [if_neg htop]
        have hmem : item ∈ t.downItems := by
          rcases h with h | h
          · exact absurd h hground
          · rwa [if_neg htop] at h
        rw [if_pos hmem, if_neg (by rw [hsplit]; exact Bool.false_ne_true)]
        have hperm := List.perm_cons_erase hmem
        refine setTile_takes ht ?_ ?_ fun hs => ⟨hs.ground, hs.top,
          fun i hi => hs.down i (List.mem_of_mem_erase hi)⟩
        · exact (hperm.append_left _).trans List.perm_middle
        · simp only [List.length_append]
          have := List.length_erase_le (a := item) (l := t.downItems)
          omega

theorem removeThing_takes {c : Cylinder} {item : ThingId} {count : Nat}
    (h : w.isHolding env c item) (hsplit : w.splits env item count = false) :
    Takes env w (w.removeThing env c item count) c item := by
  have hneg : ¬ w.splits env item count = true := by rw [hsplit]; exact Bool.false_ne_true
  cases c with
  | tile pos => exact tileRemoveThing_takes h hsplit
  | container c =>
      have hmem : item ∈ (w.thing c).itemlist := List.contains_iff_mem.mp h
      have hlist : ((w.setParent item none).thing c).itemlist = (w.thing c).itemlist :=
        contents_setThing item { w.thing item with parent := none } rfl (.container c)
      simp only [removeThing, containerRemoveThing, if_pos hmem, if_neg hneg, hlist]
      refine ⟨setItems_frame item c none _, ?_, fun pos t ht => ⟨t, ht, Nat.le_refl _⟩,
        fun _ _ hs => hs⟩
      simp only [contents, setItems, setThing_thing, if_true]
      exact List.perm_cons_erase hmem
  | player p =>
      simp only [removeThing, playerRemoveThing]
      cases hfind : slots.find? fun slot => (w.player p).inventory slot = some item with
      | none =>
          obtain ⟨slot, hslot, hi⟩ := List.any_eq_true.mp h
          exact absurd hi (List.find?_eq_none.mp hfind slot hslot)
      | some slot =>
          have hslot : slot ∈ slots := List.mem_of_find?_eq_some hfind
          have hi : (w.player p).inventory slot = some item := by
            have := List.find?_some hfind
            simpa using this
          simp only [if_neg hneg]
          refine ⟨setInventory_frame item none p slot none, ?_,
            fun pos t ht => ⟨t, ht, Nat.le_refl _⟩, fun q s hs => ?_⟩
          · have hbefore := player_perm (w := w) (p := p) hslot
            rw [hi] at hbefore
            have hafter := setInventory_perm (w := w) item none (p := p) hslot none
            exact hbefore.trans (hafter.symm.cons item)
          · simp only [setInventory, setParent, setThing, Function.update_apply]
            split
            · next hq =>
                subst hq
                simp only [Function.update_apply]
                split
                · rfl
                · exact hs
            · exact hs

theorem typeOf_setParent (i : ThingId) (parent : Option Cylinder) (j : ThingId) :
    (w.setParent i parent).typeOf env j = w.typeOf env j := by
  simp only [typeOf, setParent, setThing_thing]
  split
  · next h => rw [h]
  · rfl

/-! ## Counting anew -/

theorem setData_recounts (i : ThingId) (data : Item) :
    Recounts w (w.setData i data) i data.count.toNat where
  id j := by simp only [setData, setThing_thing]; split <;> simp_all
  data j hj := by simp only [setData, setThing_thing, if_neg hj]
  isContainer j := by simp only [setData, setThing_thing]; split <;> simp_all
  maxSize j := by simp only [setData, setThing_thing]; split <;> simp_all
  contents := contents_setThing i _ rfl
  count := by simp only [count, setData, setThing_thing, if_true]
  parent j := by simp only [setData, setThing_thing]; split <;> simp_all
  nextId := rfl
  tile := rfl
  player := rfl

theorem setItemCount_count (item : Item) {n : Nat} (h : n < 256) :
    (item.setItemCount n).count.toNat = n := by
  simp only [Item.setItemCount, UInt8.toNat_ofNat']
  omega

theorem count_lt (i : ThingId) : w.count i < 256 := UInt8.toNat_lt _

theorem reduce_recounts (item : ThingId) (m : Nat) :
    Recounts w (w.reduce item m) item (w.count item - m) := by
  have h := setData_recounts (w := w) item ((w.thing item).data.setItemCount (w.count item - m))
  rwa [setItemCount_count _ (by have := w.count_lt item; omega)] at h

end Lemmas

end World

/-! ## Sound worlds -/

/-- What stacks is neither a ground nor a fluid nor a field nor hung up nor always on top,
and what is hung up is not always on top. -/
structure Env.Sensible (env : Env) : Prop where
  stackable : ∀ id, (env.items id).stackable →
    (env.items id).isGroundTile = false ∧ (env.items id).alwaysOnTop = false ∧
      (env.items id).fluid = false ∧ (env.items id).isMagicField = false ∧
      (env.items id).isHangable = false
  hangable : ∀ id, (env.items id).isHangable → (env.items id).alwaysOnTop = false

namespace World

/-- A container that is there. -/
def Real (w : World) (c : Cylinder) : Prop := ∀ k, c = .container k → k < w.nextId

section Sound

variable {env : Env} {w w' : World} {c : Cylinder} {i : ThingId}

theorem typeOf_congr (hid : ∀ j, (w'.thing j).id = (w.thing j).id) (j : ThingId) :
    w'.typeOf env j = w.typeOf env j := by
  simp only [typeOf, hid]

theorem stackSize_congr (hid : ∀ j, (w'.thing j).id = (w.thing j).id) (j : ThingId) :
    w'.stackSize env j = w.stackSize env j := by
  simp only [stackSize, typeOf_congr hid]

theorem holding_of_sorted (hs : ∀ pos t, w.tile pos = some t → w.Sorted env t)
    (hi : i ∈ w.contents c) : w.isHolding env c i := by
  cases c with
  | tile pos =>
      simp only [contents] at hi
      simp only [isHolding]
      cases ht : w.tile pos with
      | none => rw [ht] at hi; cases hi
      | some t =>
          simp only [ht, List.mem_append, Option.mem_toList] at hi
          simp only [Bool.or_eq_true, decide_eq_true_eq, List.contains_iff_mem]
          rcases hi with (hi | hi) | hi
          · exact .inl hi
          · exact .inr (by rwa [if_pos ((hs pos t ht).top i hi)])
          · exact .inr (by rwa [if_neg ((hs pos t ht).down i hi)])
  | container c => exact List.contains_iff_mem.mpr hi
  | player p =>
      obtain ⟨slot, hslot, hi⟩ := List.mem_filterMap.mp hi
      exact List.any_eq_true.mpr ⟨slot, hslot, decide_eq_true hi⟩

theorem setID_count (prevIt it : ItemType) (d : Nat) (item : Item) :
    (item.setID prevIt it d).count = item.count := by
  simp only [Item.setID, Item.removeIntAttr, Item.setDuration, Item.setIntAttr]
  split <;> split <;> rfl

/-! ## What the operations leave -/

theorem Takes.mem (h : Takes env w w' c i) : i ∈ w.contents c :=
  h.perm.symm.subset List.mem_cons_self

theorem Takes.subset (h : Takes env w w' c i) {c' : Cylinder} {j : ThingId}
    (hj : j ∈ w'.contents c') : j ∈ w.contents c' := by
  by_cases hc : c' = c
  · subst hc
    exact h.perm.symm.subset (List.mem_cons_of_mem _ hj)
  · rwa [h.contents_ne c' hc] at hj

theorem Recounts.count_ne {n : Nat} (h : Recounts w w' i n) {j : ThingId} (hj : j ≠ i) :
    w'.count j = w.count j := by
  rw [World.count, h.data j hj, World.count]

theorem clone_thing_ne {n : Nat} {j : ThingId} (hj : j ≠ w.nextId) :
    (w.clone i n).thing j = w.thing j := by
  simp only [clone, setThing, Function.update_of_ne hj]

theorem clone_id (i : ThingId) (n : Nat) :
    ((w.clone i n).thing w.nextId).id = (w.thing i).id := by
  simp only [clone, setThing_thing, if_true]

theorem clone_count (i : ThingId) {n : Nat} (hn : n < 256) : (w.clone i n).count w.nextId = n := by
  simp only [count, clone, setThing_thing, if_true]
  exact setItemCount_count _ hn

end Sound

end World

end Bruxo
