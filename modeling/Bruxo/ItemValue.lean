import Bruxo.MoveItem
import Bruxo.Lib.Growth

/-!
# What the cylinders hold

A price for one item of each type makes a value of what a cylinder holds. What `addThing`,
`updateThing` and `Item::clone` do to the values follows from what they put in and what they drop:
an item may be refused by the cylinder, and it may take the place of another one (`lands`,
`displaced`).
-/

namespace Bruxo

namespace World

open Growth

/-! ## Values -/

def worth (price : UInt16 → Nat) (w : World) (i : ThingId) : Nat := price (w.thing i).id * w.count i

def valueAt (price : UInt16 → Nat) (w : World) (c : Cylinder) : Nat :=
  ((w.contents c).map (w.worth price)).sum

section Adding

variable (env : Env) (w : World)

/-- Whether `addThing` puts the item into the cylinder. -/
def lands (c : Cylinder) (index : Int) (item : ThingId) : Bool :=
  match c with
  | .tile pos =>
      match w.tile pos with
      | none => false
      | some t =>
          let it := w.typeOf env item
          decide ((t.downItems ++ t.topItems).length < 0xFFFF) &&
            (it.isGroundTile || it.alwaysOnTop || !it.isMagicField ||
              (t.downItems.find? fun i => (w.typeOf env i).isMagicField).all fun i =>
                (w.typeOf env i).replaceable)
  | .container c => index < (w.thing c).maxSize
  | .player _ => decide (1 ≤ index ∧ index ≤ 10)

/-- The item that is no longer there once `addThing` has put the new one in. -/
def displaced (c : Cylinder) (index : Int) (item : ThingId) : Option ThingId :=
  match c with
  | .tile pos =>
      match w.tile pos with
      | none => none
      | some t =>
          let it := w.typeOf env item
          if 0xFFFF ≤ (t.downItems ++ t.topItems).length then none
          else if it.isGroundTile then t.ground
          else if it.alwaysOnTop then
            if it.isSplash then t.topItems.find? fun i => (w.typeOf env i).isSplash else none
          else if it.isMagicField then
            (t.downItems.find? fun i => (w.typeOf env i).isMagicField).filter fun i =>
              (w.typeOf env i).replaceable
          else none
  | .container _ => none
  | .player p => w.inventoryItem p index

end Adding

/-! ## Items in their places -/

/-- Every item lies in one place, which is its parent, and the tiles are in order. -/
structure Placed (env : Env) (w : World) : Prop where
  parent : ∀ c, ∀ i ∈ w.contents c, (w.thing i).parent = some c
  nodup : ∀ c, (w.contents c).Nodup
  fresh : ∀ c, ∀ i ∈ w.contents c, i < w.nextId
  blank : ∀ k, w.nextId ≤ k → w.contents (.container k) = []
  real : ∀ i c, (w.thing i).parent = some c → w.Real c
  sorted : ∀ pos t, w.tile pos = some t → w.Sorted env t

/-- An item that is there and lies nowhere. -/
structure Loose (w : World) (item : ThingId) : Prop where
  allocated : item < w.nextId
  nowhere : ∀ c, item ∉ w.contents c

/-- `item` is put into `c` if it lands there, and `out` is dropped from it. -/
structure Swaps (env : Env) (w w' : World) (c : Cylinder) (item : ThingId) (lands : Bool)
    (out : Option ThingId) : Prop where
  id : ∀ j, (w'.thing j).id = (w.thing j).id
  data : ∀ j, (w'.thing j).data = (w.thing j).data
  contents_ne : ∀ c', c' ≠ c → w'.contents c' = w.contents c'
  perm : (out.toList ++ w'.contents c).Perm ((if lands then [item] else []) ++ w.contents c)
  parent_self : lands = true → (w'.thing item).parent = some c
  parent_ne : ∀ j, j ≠ item → out ≠ some j → (w'.thing j).parent = (w.thing j).parent
  parent_some : ∀ j c', (w'.thing j).parent = some c' → c' = c ∨ (w.thing j).parent = some c'
  nextId : w'.nextId = w.nextId
  sorted : (∀ pos t, w.tile pos = some t → w.Sorted env t) →
    ∀ pos t, w'.tile pos = some t → w'.Sorted env t

section Lemmas

variable {env : Env} {w w' v : World} {c : Cylinder} {item i : ThingId}

theorem setParent_thing (i : ThingId) (o : Option Cylinder) (j : ThingId) :
    (w.setParent i o).thing j =
      if j = i then { w.thing j with parent := o } else w.thing j := by
  unfold setParent
  rw [setThing_thing]
  by_cases hj : j = i
  · rw [if_pos hj, if_pos hj, hj]
  · rw [if_neg hj, if_neg hj]

/-- Only parents of items differ. -/
structure Reparents (w v : World) : Prop where
  id : ∀ j, (v.thing j).id = (w.thing j).id
  data : ∀ j, (v.thing j).data = (w.thing j).data
  itemlist : ∀ j, (v.thing j).itemlist = (w.thing j).itemlist
  nextId : v.nextId = w.nextId
  tile : v.tile = w.tile
  player : v.player = w.player

theorem setParent_reparents (i : ThingId) (o : Option Cylinder) : Reparents w (w.setParent i o) where
  id j := by rw [setParent_thing]; split <;> rfl
  data j := by rw [setParent_thing]; split <;> rfl
  itemlist j := by rw [setParent_thing]; split <;> rfl
  nextId := rfl
  tile := rfl
  player := rfl

theorem Reparents.trans {u : World} (h : Reparents w u) (h' : Reparents u v) : Reparents w v where
  id j := (h'.id j).trans (h.id j)
  data j := (h'.data j).trans (h.data j)
  itemlist j := (h'.itemlist j).trans (h.itemlist j)
  nextId := h'.nextId.trans h.nextId
  tile := h'.tile.trans h.tile
  player := h'.player.trans h.player

theorem Reparents.contents (h : Reparents w v) (c : Cylinder) : v.contents c = w.contents c := by
  cases c with
  | tile pos => simp only [World.contents, h.tile]
  | container k => exact h.itemlist k
  | player p => simp only [World.contents, h.player]

/-- A tile is written after some parents were. -/
theorem setTile_swaps {pos : Position} {t t' : Tile} {lands : Bool} {out : Option ThingId}
    (hv : Reparents w v) (ht : w.tile pos = some t)
    (hperm : (out.toList ++ (t'.ground.toList ++ t'.topItems ++ t'.downItems)).Perm
      ((if lands then [item] else []) ++ (t.ground.toList ++ t.topItems ++ t.downItems)))
    (hsorted : w.Sorted env t → w.Sorted env t')
    (hself : lands = true → (v.thing item).parent = some (.tile pos))
    (hne : ∀ j, j ≠ item → out ≠ some j → (v.thing j).parent = (w.thing j).parent)
    (hsome : ∀ j c', (v.thing j).parent = some c' →
      c' = .tile pos ∨ (w.thing j).parent = some c') :
    Swaps env w (v.setTile pos t') (.tile pos) item lands out where
  id := hv.id
  data := hv.data
  contents_ne c' hc' := by
    rw [← hv.contents c']
    cases c' with
    | tile pos' =>
        have hpos : pos' ≠ pos := fun heq => hc' (by rw [heq])
        simp only [World.contents, setTile, Function.update_of_ne hpos]
    | container k => rfl
    | player p => rfl
  perm := by
    have hbefore : w.contents (.tile pos) = t.ground.toList ++ t.topItems ++ t.downItems := by
      simp only [World.contents, ht]
    have hafter : (v.setTile pos t').contents (.tile pos) =
        t'.ground.toList ++ t'.topItems ++ t'.downItems := by
      simp only [World.contents, setTile, Function.update_self]
    rw [hbefore, hafter]
    exact hperm
  parent_self := hself
  parent_ne := hne
  parent_some := hsome
  nextId := hv.nextId
  sorted hs pos' u hu := by
    have hid : ∀ j, ((v.setTile pos t').thing j).id = (w.thing j).id := hv.id
    refine sorted_congr hid ?_
    simp only [setTile, Function.update_apply, hv.tile] at hu
    split at hu
    · cases hu
      exact hsorted (hs pos t ht)
    · exact hs pos' u hu

/-- The parents after an item was put into `c` and another one dropped. -/
theorem parents_of_drop {out : Option ThingId} (hout : out ≠ some item)
    (hv : v = out.elim (w.setParent item (some c)) ((w.setParent item (some c)).setParent · none)) :
    Reparents w v ∧ (v.thing item).parent = some c ∧
      (∀ j, j ≠ item → out ≠ some j → (v.thing j).parent = (w.thing j).parent) ∧
      ∀ j c', (v.thing j).parent = some c' → c' = c ∨ (w.thing j).parent = some c' := by
  have hput : ∀ j, ((w.setParent item (some c)).thing j).parent =
      if j = item then some c else (w.thing j).parent := by
    intro j
    rw [setParent_thing]
    split <;> rfl
  have hsome : ∀ j c', ((w.setParent item (some c)).thing j).parent = some c' →
      c' = c ∨ (w.thing j).parent = some c' := by
    intro j c' hj
    rw [hput] at hj
    split at hj
    · exact .inl (Option.some.inj hj).symm
    · exact .inr hj
  cases out with
  | none =>
      obtain rfl : v = w.setParent item (some c) := hv
      refine ⟨setParent_reparents item _, ?_, fun j hj _ => ?_, hsome⟩
      · rw [hput, if_pos rfl]
      · rw [hput, if_neg hj]
  | some old =>
      obtain rfl : v = (w.setParent item (some c)).setParent old none := hv
      have hold : item ≠ old := fun heq => hout (heq ▸ rfl)
      refine ⟨(setParent_reparents item _).trans (setParent_reparents old none), ?_,
        fun j hj hjold => ?_, fun j c' hj => ?_⟩
      · rw [setParent_thing, if_neg hold, hput, if_pos rfl]
      · have hne : j ≠ old := fun heq => hjold (heq ▸ rfl)
        rw [setParent_thing, if_neg hne, hput, if_neg hj]
      · rw [setParent_thing] at hj
        split at hj
        · cases hj
        · exact hsome j c' hj

theorem tileInsert_swaps {pos : Position} {t t' : Tile} {out : Option ThingId}
    (ht : w.tile pos = some t) (hout : out ≠ some item)
    (hv : v = out.elim (w.setParent item (some (.tile pos)))
      ((w.setParent item (some (.tile pos))).setParent · none))
    (hperm : (out.toList ++ (t'.ground.toList ++ t'.topItems ++ t'.downItems)).Perm
      (t.ground.toList ++ t.topItems ++ t.downItems))
    (hsorted : w.Sorted env t → w.Sorted env t') :
    Swaps env w (v.tileInsert env pos t' item) (.tile pos) item true out := by
  obtain ⟨hre, hself, hne, hsome⟩ := parents_of_drop hout hv
  have htype : ∀ j, v.typeOf env j = w.typeOf env j := fun j => typeOf_congr hre.id j
  unfold tileInsert
  split
  · next htop =>
      refine setTile_swaps hre ht ?_ (fun hs => ?_) (fun _ => hself) hne hsome
      · have hins := List.perm_orderedInsert (fun a b => (decide
          ((v.typeOf env a).alwaysOnTopOrder ≤ (v.typeOf env b).alwaysOnTopOrder)) = true)
          item t'.topItems
        have hin := ((hins.append_left t'.ground.toList).trans List.perm_middle).append_right
          t'.downItems
        exact ((hin.append_left out.toList).trans List.perm_middle).trans (hperm.cons item)
      · have hs' := hsorted hs
        refine ⟨hs'.ground, fun i hi => ?_, hs'.down⟩
        rcases List.mem_cons.mp ((List.perm_orderedInsert _ _ _).subset hi) with rfl | hi
        · rw [← htype]
          exact htop
        · exact hs'.top i hi
  · next htop =>
      refine setTile_swaps hre ht ?_ (fun hs => ?_) (fun _ => hself) hne hsome
      · exact ((List.perm_middle.append_left out.toList).trans List.perm_middle).trans
          (hperm.cons item)
      · have hs' := hsorted hs
        refine ⟨hs'.ground, hs'.top, fun i hi => ?_⟩
        rcases List.mem_cons.mp hi with rfl | hi
        · rw [← htype]
          exact htop
        · exact hs'.down i hi

theorem Swaps.refl : Swaps env w w c item false none where
  id _ := rfl
  data _ := rfl
  contents_ne _ _ := rfl
  perm := List.Perm.refl _
  parent_self h := by cases h
  parent_ne _ _ _ := rfl
  parent_some _ _ hp := .inr hp
  nextId := rfl
  sorted hs := hs

/-- A field that may not be replaced keeps the new one away. -/
theorem refused_swaps {o : Option Cylinder} :
    Swaps env w ((w.setParent item o).setParent item none) c item false none := by
  have hre : Reparents w ((w.setParent item o).setParent item none) :=
    (setParent_reparents _ _).trans (setParent_reparents _ _)
  have hparent : ∀ j, (((w.setParent item o).setParent item none).thing j).parent =
      if j = item then none else (w.thing j).parent := by
    intro j
    rw [setParent_thing, setParent_thing]
    split <;> rfl
  refine ⟨hre.id, hre.data, fun c' _ => hre.contents c', ?_, fun h => (by cases h),
    fun j hj _ => ?_, fun j c' hj => .inr ?_, rfl, fun hs pos' u hu => ?_⟩
  · rw [hre.contents]
    exact List.Perm.refl _
  · rw [hparent, if_neg hj]
  · rw [hparent] at hj
    split at hj
    · cases hj
    · exact hj
  · exact sorted_congr hre.id (hs pos' u hu)

/-- What is found in a list on a tile is dropped from it. -/
theorem find_perm {l : List ThingId} {p : ThingId → Bool} {old : ThingId} (h : l.find? p = some old) :
    l.Perm (old :: l.erase old) :=
  List.perm_cons_erase (List.mem_of_find?_eq_some h)

theorem tileAddThing_swaps {pos : Position} {index : Int} (hloose : item ∉ w.contents (.tile pos)) :
    Swaps env w (w.tileAddThing env pos item) (.tile pos) item
      (w.lands env (.tile pos) index item) (w.displaced env (.tile pos) index item) := by
  simp only [tileAddThing, lands, displaced]
  cases ht : w.tile pos with
  | none => exact Swaps.refl
  | some t =>
      have hnot : ∀ old ∈ t.ground.toList ++ t.topItems ++ t.downItems, some old ≠ some item := by
        intro old hold heq
        cases heq
        simp only [contents, ht] at hloose
        exact hloose hold
      by_cases hfull : 0xFFFF ≤ (t.downItems ++ t.topItems).length
      · simp only [if_pos hfull, decide_eq_false (Nat.not_lt.mpr hfull), Bool.false_and]
        exact Swaps.refl
      simp only [if_neg hfull, decide_eq_true (Nat.not_le.mp hfull), Bool.true_and,
        typeOf_setParent]
      by_cases hground : (w.typeOf env item).isGroundTile = true
      · simp only [hground, Bool.true_or, if_true]
        cases hold : t.ground with
        | none =>
            have hnone : (none : Option ThingId) ≠ some item := by simp
            obtain ⟨hre, hself, hne, hsome⟩ := parents_of_drop (c := .tile pos) (w := w) hnone rfl
            refine setTile_swaps hre ht ?_ (fun hs => ⟨fun i hi => ?_, hs.top, hs.down⟩)
              (fun _ => hself) hne hsome
            · rw [hold]
              exact List.Perm.refl _
            · cases hi
              exact hground
        | some old =>
            have hmem : some old ≠ some item := hnot old (by rw [hold]; simp)
            obtain ⟨hre, hself, hne, hsome⟩ := parents_of_drop (c := .tile pos) (w := w) hmem rfl
            refine setTile_swaps hre ht ?_ (fun hs => ⟨fun i hi => ?_, hs.top, hs.down⟩)
              (fun _ => hself) hne hsome
            · rw [hold]
              exact List.Perm.swap _ _ _
            · cases hi
              exact hground
      simp only [hground, Bool.false_or, if_false, Bool.false_eq_true]
      by_cases htop : (w.typeOf env item).alwaysOnTop = true
      · simp only [htop, if_true, Bool.true_or]
        cases hold : (if (w.typeOf env item).isSplash = true then
            t.topItems.find? fun i => (w.typeOf env i).isSplash else none) with
        | none => exact tileInsert_swaps ht (by simp) rfl (List.Perm.refl _) id
        | some old =>
            have hfind : t.topItems.find? (fun i => (w.typeOf env i).isSplash) = some old := by
              split at hold
              · exact hold
              · cases hold
            have hmem := List.mem_of_find?_eq_some hfind
            refine tileInsert_swaps ht (hnot old ?_) rfl ?_ fun hs => ⟨hs.ground,
              fun i hi => hs.top i (List.mem_of_mem_erase hi), hs.down⟩
            · exact List.mem_append_left _ (List.mem_append_right _ hmem)
            · have hperm := (find_perm hfind).append_left t.ground.toList
              exact ((List.perm_middle.symm.append_right _).trans
                (hperm.symm.append_right _))
      simp only [htop, Bool.false_or, if_false, Bool.false_eq_true]
      by_cases hfield : (w.typeOf env item).isMagicField = true
      · simp only [hfield, if_true, Bool.not_true, Bool.false_or]
        cases hfind : t.downItems.find? (fun i => (w.typeOf env i).isMagicField) with
        | none => exact tileInsert_swaps ht (by simp) rfl (List.Perm.refl _) id
        | some old =>
            have hmem := List.mem_of_find?_eq_some hfind
            by_cases hreplaceable : (w.typeOf env old).replaceable = true
            · simp only [Option.all_some, hreplaceable, if_true, Option.filter_some]
              refine tileInsert_swaps ht (hnot old (List.mem_append_right _ hmem)) rfl ?_
                fun hs => ⟨hs.ground, hs.top, fun i hi => hs.down i (List.mem_of_mem_erase hi)⟩
              have hperm := (find_perm hfind).symm.append_left (t.ground.toList ++ t.topItems)
              have hmiddle : (old :: (t.ground.toList ++ t.topItems ++ t.downItems.erase old)).Perm
                  (t.ground.toList ++ t.topItems ++ old :: t.downItems.erase old) :=
                List.perm_middle.symm
              exact hmiddle.trans hperm
            · simp only [Option.all_some, hreplaceable, if_false, Bool.false_eq_true,
                Option.filter_some]
              exact refused_swaps
      · simp only [hfield, if_false, Bool.false_eq_true, Bool.not_false, Bool.true_or]
        exact tileInsert_swaps ht (by simp) rfl (List.Perm.refl _) id

theorem containerAddThing_swaps {k : ThingId} {index : Int} :
    Swaps env w (w.containerAddThing k index item) (.container k) item
      (w.lands env (.container k) index item) none := by
  unfold containerAddThing
  simp only [lands]
  split
  · next hfull =>
      rw [decide_eq_false (Int.not_lt.mpr hfull)]
      exact Swaps.refl
  · next hroom =>
      rw [decide_eq_true (Int.not_le.mp hroom)]
      have hre : Reparents w (w.setParent item (some (.container k))) := setParent_reparents _ _
      have hlist : ((w.setParent item (some (.container k))).thing k).itemlist =
          (w.thing k).itemlist := hre.itemlist k
      have hframe : Frame env w ((w.setParent item (some (.container k))).setItems k
          (item :: (w.thing k).itemlist)) (.container k) item (some (.container k)) :=
        setItems_frame item k _ _
      rw [hlist]
      refine ⟨hframe.id, hframe.data, hframe.contents_ne, ?_, fun _ => hframe.parent_self,
        fun j hj _ => hframe.parent_ne j hj, fun j c' hj => ?_, hframe.nextId, hframe.sorted⟩
      · simp only [contents, setItems, setThing_thing, if_true]
        exact List.Perm.refl _
      · by_cases hji : j = item
        · rw [hji, hframe.parent_self] at hj
          exact .inl (Option.some.inj hj).symm
        · rw [hframe.parent_ne j hji] at hj
          exact .inr hj

theorem playerAddThing_swaps {p : Nat} {index : Int} :
    Swaps env w (w.playerAddThing p index item) (.player p) item
      (w.lands env (.player p) index item) (w.displaced env (.player p) index item) := by
  unfold playerAddThing
  simp only [lands, displaced, inventoryItem]
  by_cases hindex : 1 ≤ index ∧ index ≤ 10
  · rw [if_neg (by omega : ¬ (index < 1 ∨ 10 < index)), if_pos hindex, decide_eq_true hindex]
    have hslot : index.toNat ∈ slots := mem_slots.mpr (by omega)
    have hframe : Frame env w ((w.setParent item (some (.player p))).setInventory p index.toNat
        (some item)) (.player p) item (some (.player p)) :=
      setInventory_frame item _ p _ _
    refine ⟨hframe.id, hframe.data, hframe.contents_ne, ?_, fun _ => hframe.parent_self,
      fun j hj _ => hframe.parent_ne j hj, fun j c' hj => ?_, hframe.nextId, hframe.sorted⟩
    · have hbefore := player_perm (w := w) (p := p) hslot
      have hafter := setInventory_perm (w := w) item (some (.player p)) (p := p) hslot (some item)
      refine (hafter.append_left _).trans ?_
      refine List.Perm.trans ?_ (hbefore.symm.append_left [item])
      exact List.perm_middle
    · by_cases hji : j = item
      · rw [hji, hframe.parent_self] at hj
        exact .inl (Option.some.inj hj).symm
      · rw [hframe.parent_ne j hji] at hj
        exact .inr hj
  · rw [if_pos (by omega : index < 1 ∨ 10 < index), if_neg hindex, decide_eq_false hindex]
    exact Swaps.refl

/-- What `addThing` does. -/
theorem addThing_swaps {index : Int} (hloose : ∀ c, item ∉ w.contents c) :
    Swaps env w (w.addThing env c index item) c item (w.lands env c index item)
      (w.displaced env c index item) := by
  cases c with
  | tile pos => exact tileAddThing_swaps (hloose _)
  | container k => exact containerAddThing_swaps
  | player p => exact playerAddThing_swaps

/-! ## What is kept -/

theorem mem_of_swaps {lands : Bool} {out : Option ThingId} (h : Swaps env w w' c item lands out)
    (hw : (w.contents c).Nodup) (hloose : item ∉ w.contents c) :
    (w'.contents c).Nodup ∧ ∀ j ∈ w'.contents c,
      out ≠ some j ∧ (j = item ∧ lands = true ∨ j ≠ item ∧ j ∈ w.contents c) := by
  have hin : ((if lands then [item] else []) ++ w.contents c).Nodup := by
    cases lands with
    | true => exact List.nodup_cons.mpr ⟨hloose, hw⟩
    | false => exact hw
  have hout := h.perm.nodup_iff.mpr hin
  refine ⟨hout.of_append_right, fun j hj => ⟨fun heq => ?_, ?_⟩⟩
  · refine (List.disjoint_of_nodup_append hout) ?_ hj
    rw [heq]
    exact List.mem_cons_self
  · have hmem := h.perm.subset (List.mem_append_right _ hj)
    rcases List.mem_append.mp hmem with hj | hj
    · cases lands with
      | true => exact .inl ⟨List.mem_singleton.mp hj, rfl⟩
      | false => cases hj
    · exact .inr ⟨fun heq => hloose (heq ▸ hj), hj⟩

theorem Swaps.placed {lands : Bool} {out : Option ThingId} (h : Swaps env w w' c item lands out)
    (hw : Placed env w) (hitem : Loose w item) (hreal : w.Real c) : Placed env w' := by
  obtain ⟨hnodup, hmem⟩ := mem_of_swaps h (hw.nodup c) (hitem.nowhere c)
  have hout : ∀ j, out = some j → j = item ∨ j ∈ w.contents c := by
    intro j hj
    have hsub := h.perm.subset (List.mem_append_left (w'.contents c)
      (Option.mem_toList.mpr (Option.mem_def.mpr hj)))
    rcases List.mem_append.mp hsub with hin | hin
    · cases lands with
      | true => exact .inl (List.mem_singleton.mp hin)
      | false => cases hin
    · exact .inr hin
  refine ⟨fun c' j hj => ?_, fun c' => ?_, fun c' j hj => ?_, fun k hk => ?_, fun i c' hp => ?_,
    h.sorted hw.sorted⟩
  · by_cases hc : c' = c
    · subst hc
      obtain ⟨hne, ⟨rfl, hlands⟩ | ⟨hji, hin⟩⟩ := hmem j hj
      · exact h.parent_self hlands
      · rw [h.parent_ne j hji hne]
        exact hw.parent c' j hin
    · rw [h.contents_ne c' hc] at hj
      have hji : j ≠ item := fun heq => hitem.nowhere c' (heq ▸ hj)
      have hp := hw.parent c' j hj
      rw [h.parent_ne j hji fun heq => ?_]
      · exact hp
      · have hin := (hout j heq).resolve_left hji
        rw [hw.parent c j hin] at hp
        exact hc (Option.some.inj hp).symm
  · by_cases hc : c' = c
    · subst hc
      exact hnodup
    · rw [h.contents_ne c' hc]
      exact hw.nodup c'
  · rw [h.nextId]
    by_cases hc : c' = c
    · subst hc
      obtain ⟨-, ⟨rfl, -⟩ | ⟨-, hin⟩⟩ := hmem j hj
      · exact hitem.allocated
      · exact hw.fresh c' j hin
    · rw [h.contents_ne c' hc] at hj
      exact hw.fresh c' j hj
  · rw [h.nextId] at hk
    have hne : Cylinder.container k ≠ c := fun heq => absurd (hreal k heq.symm) (Nat.not_lt.mpr hk)
    rw [h.contents_ne _ hne]
    exact hw.blank k hk
  · have hr : w.Real c' := (h.parent_some i c' hp).elim (fun heq => heq ▸ hreal) (hw.real i c')
    intro k hk
    rw [h.nextId]
    exact hr k hk

/-! ## What the values become -/

theorem valueAt_congr {price : UInt16 → Nat} (hcontents : w'.contents c = w.contents c)
    (hthing : ∀ j ∈ w.contents c, (w'.thing j).id = (w.thing j).id ∧ w'.count j = w.count j) :
    w'.valueAt price c = w.valueAt price c := by
  unfold valueAt
  rw [hcontents]
  congr 1
  refine List.map_congr_left fun j hj => ?_
  unfold worth
  rw [(hthing j hj).1, (hthing j hj).2]

theorem Swaps.worth_eq {lands : Bool} {out : Option ThingId} (h : Swaps env w w' c item lands out)
    (price : UInt16 → Nat) : w'.worth price = w.worth price := by
  funext j
  unfold worth
  rw [h.id, count, h.data, count]

theorem Swaps.valueAt_ne {lands : Bool} {out : Option ThingId}
    (h : Swaps env w w' c item lands out) (price : UInt16 → Nat) {c' : Cylinder} (hc' : c' ≠ c) :
    w'.valueAt price c' = w.valueAt price c' := by
  unfold valueAt
  rw [h.contents_ne c' hc', h.worth_eq]

theorem Swaps.grows {lands : Bool} {out : Option ThingId} (h : Swaps env w w' c item lands out)
    (price : UInt16 → Nat) :
    Grows (w.valueAt price) (w'.valueAt price)
      ((if lands then w.worth price item else 0 : Nat) - (out.elim 0 (w.worth price) : Nat)) := by
  have hsum := (h.perm.map (w.worth price)).sum_eq
  rw [List.map_append, List.map_append, List.sum_append, List.sum_append] at hsum
  have hin : (List.map (w.worth price) (if lands then [item] else [])).sum =
      if lands then w.worth price item else 0 := by
    cases lands with
    | true => exact Nat.add_zero _
    | false => rfl
  have hout : (List.map (w.worth price) out.toList).sum = out.elim 0 (w.worth price) := by
    cases out with
    | none => rfl
    | some old => exact Nat.add_zero _
  have hgrows := grows_at c fun c' hc' => h.valueAt_ne price hc'
  have hat : w'.valueAt price c = ((w'.contents c).map (w.worth price)).sum := by
    unfold valueAt
    rw [h.worth_eq]
  have hbefore : w.valueAt price c = ((w.contents c).map (w.worth price)).sum := rfl
  rw [hin, hout, ← hat, ← hbefore] at hsum
  have hdiff : (w'.valueAt price c : Int) - w.valueAt price c =
      (if lands then w.worth price item else 0 : Nat) - (out.elim 0 (w.worth price) : Nat) := by
    omega
  rwa [hdiff] at hgrows

theorem Recounts.placed {n : Nat} (h : Recounts w w' i n) (hw : Placed env w) : Placed env w' where
  parent c j hj := by
    rw [h.contents] at hj
    rw [h.parent]
    exact hw.parent c j hj
  nodup c := by
    rw [h.contents]
    exact hw.nodup c
  fresh c j hj := by
    rw [h.contents] at hj
    rw [h.nextId]
    exact hw.fresh c j hj
  blank k hk := by
    rw [h.nextId] at hk
    rw [h.contents]
    exact hw.blank k hk
  real j c hp := by
    rw [h.parent] at hp
    unfold Real
    rw [h.nextId]
    exact hw.real j c hp
  sorted pos t ht := by
    rw [h.tile] at ht
    exact sorted_congr h.id (hw.sorted pos t ht)

theorem Recounts.valueAt_ne {n : Nat} (h : Recounts w w' i n) (hw : Placed env w)
    (hi : i ∈ w.contents c) (price : UInt16 → Nat) {c' : Cylinder} (hc' : c' ≠ c) :
    w'.valueAt price c' = w.valueAt price c' := by
  refine valueAt_congr (h.contents c') fun j hj => ⟨h.id j, h.count_ne fun heq => hc' ?_⟩
  have hp := hw.parent c' j hj
  rw [heq, hw.parent c i hi] at hp
  exact (Option.some.inj hp).symm

/-- An item of `c` counts `n` now. -/
theorem Recounts.grows {n : Nat} (h : Recounts w w' i n) (hw : Placed env w)
    (hi : i ∈ w.contents c) (price : UInt16 → Nat) :
    Grows (w.valueAt price) (w'.valueAt price)
      ((price (w.thing i).id * n : Nat) - (w.worth price i : Nat)) := by
  have hne : ∀ j, j ≠ i → w'.worth price j = w.worth price j := by
    intro j hj
    unfold worth
    rw [h.id, h.count_ne hj]
  have hself : w'.worth price i = price (w.thing i).id * n := by
    unfold worth
    rw [h.id, h.count]
  have hperm := List.perm_cons_erase hi
  have hafter := (hperm.map (w'.worth price)).sum_eq
  have hbefore := (hperm.map (w.worth price)).sum_eq
  have hrest : ((w.contents c).erase i).map (w'.worth price) =
      ((w.contents c).erase i).map (w.worth price) := by
    refine List.map_congr_left fun j hj => hne j fun heq => ?_
    exact (hw.nodup c).not_mem_erase (heq ▸ hj)
  rw [List.map_cons, List.sum_cons] at hafter hbefore
  rw [hrest, hself] at hafter
  have hgrows := grows_at c fun c' hc' => h.valueAt_ne hw hi price hc'
  have hat : w'.valueAt price c = ((w.contents c).map (w'.worth price)).sum := by
    unfold valueAt
    rw [h.contents]
  have hat' : w.valueAt price c = ((w.contents c).map (w.worth price)).sum := rfl
  rw [← hat] at hafter
  rw [← hat'] at hbefore
  have hdiff : (w'.valueAt price c : Int) - w.valueAt price c =
      (price (w.thing i).id * n : Nat) - (w.worth price i : Nat) := by
    omega
  rwa [hdiff] at hgrows

/-- What a stack counts after `updateThing`: no more than a byte holds, and for a fluid it is
the kind of the fluid that is changed. -/
def updatedCount (env : Env) (w : World) (i : ThingId) (n : Nat) : Nat :=
  if (w.typeOf env i).fluid then w.count i else n % 256

theorem updateThing_recounts_of_sorted (hw : Placed env w) (hi : i ∈ w.contents c)
    (hstack : (w.typeOf env i).stackable = true) (n : Nat) :
    Recounts w (w.updateThing env c i n) i (w.updatedCount env i n) := by
  simp only [updateThing, if_pos (holding_of_sorted hw.sorted hi)]
  have hr := setData_recounts (w := w) i
    (((w.thing i).data.setID (w.typeOf env i) (w.typeOf env i)
      (env.newDuration (w.thing i).id)).setSubType (w.typeOf env i) n)
  have hcount : (((w.thing i).data.setID (w.typeOf env i) (w.typeOf env i)
      (env.newDuration (w.thing i).id)).setSubType (w.typeOf env i) n).count.toNat =
      w.updatedCount env i n := by
    unfold Item.setSubType updatedCount
    by_cases hfluid : (w.typeOf env i).fluid = true
    · rw [if_pos hfluid, if_pos hfluid]
      have hset : (((w.thing i).data.setID (w.typeOf env i) (w.typeOf env i)
          (env.newDuration (w.thing i).id)).setFluidType n).count = (w.thing i).data.count :=
        setID_count _ _ _ _
      rw [hset]
      rfl
    · rw [if_neg hfluid, if_neg hfluid, if_pos hstack]
      simp only [Item.setItemCount, UInt8.toNat_ofNat']
      omega
  rwa [hcount] at hr

/-! ## New items -/

/-- The world with an item at the next address. -/
def create (w : World) (t : Thing) : World :=
  { w.setThing w.nextId t with nextId := w.nextId + 1 }

/-- An item that lies nowhere and holds nothing. -/
structure Blank (t : Thing) : Prop where
  parent : t.parent = none
  itemlist : t.itemlist = []

theorem create_thing_ne {t : Thing} {j : ThingId} (hj : j ≠ w.nextId) :
    (w.create t).thing j = w.thing j := by
  simp only [create, setThing, Function.update_of_ne hj]

theorem create_thing_self (t : Thing) : (w.create t).thing w.nextId = t := by
  simp only [create, setThing_thing, if_true]

theorem create_contents (hw : Placed env w) {t : Thing} (ht : Blank t) (c : Cylinder) :
    (w.create t).contents c = w.contents c := by
  cases c with
  | tile pos => rfl
  | container k =>
      simp only [contents, create, setThing_thing]
      split
      · next hk =>
          subst hk
          exact ht.itemlist.trans (hw.blank _ (Nat.le_refl _)).symm
      · rfl
  | player p => rfl

theorem create_loose (hw : Placed env w) {t : Thing} (ht : Blank t) :
    Loose (w.create t) w.nextId where
  allocated := Nat.lt_succ_self _
  nowhere c hc := by
    rw [create_contents hw ht] at hc
    exact absurd (hw.fresh c _ hc) (Nat.lt_irrefl _)

theorem create_placed (hw : Placed env w) {t : Thing} (ht : Blank t) : Placed env (w.create t) := by
  have hcontents := create_contents hw ht
  have hne : ∀ c, ∀ j ∈ w.contents c, j ≠ w.nextId := fun c j hj => Nat.ne_of_lt (hw.fresh c j hj)
  refine ⟨fun c j hj => ?_, fun c => ?_, fun c j hj => ?_, fun k hk => ?_, fun j c hp => ?_,
    fun pos u hu => ?_⟩
  · rw [hcontents] at hj
    rw [create_thing_ne (hne c j hj)]
    exact hw.parent c j hj
  · rw [hcontents]
    exact hw.nodup c
  · rw [hcontents] at hj
    exact Nat.lt_succ_of_lt (hw.fresh c j hj)
  · rw [hcontents]
    exact hw.blank k (Nat.le_of_succ_le hk)
  · by_cases hjn : j = w.nextId
    · rw [hjn, create_thing_self, ht.parent] at hp
      cases hp
    · rw [create_thing_ne hjn] at hp
      exact fun k hk => Nat.lt_succ_of_lt (hw.real j c hp k hk)
  · have hmem : ∀ j ∈ w.contents (.tile pos), (w.create t).typeOf env j = w.typeOf env j :=
      fun j hj => by simp only [typeOf, create_thing_ne (hne _ j hj)]
    have hu : w.tile pos = some u := hu
    simp only [contents, hu, List.mem_append, Option.mem_toList] at hmem
    have hs := hw.sorted pos u hu
    exact ⟨fun j hj => by rw [hmem j (.inl (.inl hj))]; exact hs.ground j hj,
      fun j hj => by rw [hmem j (.inl (.inr hj))]; exact hs.top j hj,
      fun j hj => by rw [hmem j (.inr hj)]; exact hs.down j hj⟩

theorem create_valueAt (hw : Placed env w) {t : Thing} (ht : Blank t) (price : UInt16 → Nat) :
    (w.create t).valueAt price = w.valueAt price := by
  funext c
  refine valueAt_congr (create_contents hw ht c) fun j hj => ?_
  have hne : j ≠ w.nextId := Nat.ne_of_lt (hw.fresh c j hj)
  simp only [count, create_thing_ne hne, and_self]

/-! ## Clones -/

/-- What `clone` makes, as it is before it lies anywhere. -/
def cloneOf (w : World) (item : ThingId) (count : Nat) : Thing :=
  { w.thing item with
    data := (w.thing item).data.cloned.setItemCount count
    parent := none
    isContainer := false
    itemlist := [] }

theorem clone_eq (item : ThingId) (n : Nat) : w.clone item n = w.create (w.cloneOf item n) := rfl

theorem clone_loose (hw : Placed env w) (item : ThingId) (n : Nat) :
    Loose (w.clone item n) w.nextId := by
  rw [clone_eq]
  exact create_loose hw ⟨rfl, rfl⟩

theorem clone_placed (hw : Placed env w) (item : ThingId) (n : Nat) :
    Placed env (w.clone item n) := by
  rw [clone_eq]
  exact create_placed hw ⟨rfl, rfl⟩

theorem clone_valueAt (hw : Placed env w) (item : ThingId) (n : Nat) (price : UInt16 → Nat) :
    (w.clone item n).valueAt price = w.valueAt price := by
  rw [clone_eq]
  exact create_valueAt hw ⟨rfl, rfl⟩ price

end Lemmas

end World

end Bruxo
