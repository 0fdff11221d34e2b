import Bruxo.TileStack

/-!
# The flags a tile takes from its items

A flag is set when an item comes that has what it stands for. When such an item goes, some
flags are cleared only if no other item has it, the others at once. So the flags are right
after a run as long as no step takes the first of two items that one of the others stands
for.
-/

namespace Bruxo.TileStack.Tile

/-- The flags that items give a tile; `TILESTATE_FLOORCHANGE` counts as one. -/
inductive Shown where
  | floorChange
  | flag (f : TileFlag)
  deriving DecidableEq

variable (items : UInt16 → ItemType) (s : Tile)

def shows : Shown → Bool
  | .floorChange => s.hasFloorChange
  | .flag f => s.flags f

/-- The property of an item that `setTileFlags` maps to a flag. -/
def gives (t : TileItem) : Shown → Bool
  | .floorChange => changesFloor items t
  | .flag f => sets items t f

/-- Each flag is set exactly when some item on the tile has its property. -/
def Right : Prop := ∀ x, s.shows x = true ↔ ∃ i ∈ s.contents, gives items (s.thing i) x = true

/-! ## The condition -/

/-- The flags that `resetTileFlags` clears without asking for other items. -/
def outright : Shown → Bool
  | .floorChange => true
  | .flag f =>
      match f with
      | .teleport | .magicField | .mailbox | .trashHolder | .bed | .depot | .supportsHangable =>
          true
      | _ => false

/-- Whether `removeItem` takes the whole item off the tile. -/
def takes (i : ItemId) (count : Nat) : Bool :=
  s.getThingIndex items (.item i) ≠ -1 &&
    (s.ground = some i || (s.typeOf items i).alwaysOnTop ||
      !((s.typeOf items i).stackable && count ≠ (s.thing i).data.count.toNat))

/-- The item that a step takes off the tile, replaces or turns into another one. -/
def outgoing : Op → Option ItemId
  | .addThing (.item i) =>
      let it := s.typeOf items i
      if 0xFFFF ≤ s.items.length then none
      else if it.isGroundTile then s.ground
      else if it.alwaysOnTop then
        if it.isSplash then
          (s.top.find? fun j => (s.typeOf items j).isSplash).filter fun j => s.takes items j 1
        else none
      else if it.isMagicField then
        (s.down.find? fun j => (s.thing j).cls = .magicField).filter fun j =>
          (s.typeOf items j).replaceable && s.takes items j 1
      else none
  | .updateThing i _ _ _ => if s.getThingIndex items (.item i) = -1 then none else some i
  | .replaceThing index _ =>
      match s.getThing index with
      | some (.item j) => some j
      | _ => none
  | .removeThing (.item i) count => if s.takes items i count then some i else none
  | _ => none

/-- What comes in its place. -/
def incoming : Op → Option TileItem
  | .addThing (.item i) => some (s.thing i)
  | .updateThing i itemId count duration => some (updated items (s.thing i) itemId count duration)
  | .replaceThing _ i => some (s.thing i)
  | _ => none

/-- For every flag that is cleared outright when an item goes, what comes in its place has
the property too, or no other item on the tile has it. -/
def KeepsFlags (op : Op) : Prop :=
  ∀ o, s.outgoing items op = some o → ∀ x, outright x = true →
    gives items (s.thing o) x = true →
      (∃ t, s.incoming items op = some t ∧ gives items t x = true) ∨
        ∀ j ∈ s.contents, j ≠ o → gives items (s.thing j) x = false

section Flags

variable {items} {s s' : Tile} {i j o : ItemId} {x : Shown}

/-! ## What setting and resetting show -/

theorem changesFloor_eq_any {bits : FloorChange → Bool} :
    (FloorChange.all.any fun b => s.floorChange b || bits b) =
      (s.hasFloorChange || FloorChange.all.any bits) := by
  simp only [hasFloorChange, FloorChange.all, List.any_cons, List.any_nil, Bool.or_false]
  ac_rfl

theorem setTileFlags_shows :
    (s.setTileFlags items i).shows x = (s.shows x || gives items (s.thing i) x) := by
  cases x with
  | flag f => rfl
  | floorChange =>
      by_cases h : s.hasFloorChange = true
      · simp only [shows, setTileFlags, h, if_true, Bool.true_or]
        exact h
      · simp only [shows, setTileFlags, if_neg h]
        exact changesFloor_eq_any

/-- Another item on the tile has the property. -/
def Others (items : UInt16 → ItemType) (s : Tile) (o : ItemId) (x : Shown) : Prop :=
  ∃ j ∈ s.contents, j ≠ o ∧ gives items (s.thing j) x = true

theorem hasPropertyBut_eq_true {prop : ItemProperty} :
    s.hasPropertyBut items i prop = true ↔
      ∃ j ∈ s.contents, j ≠ i ∧ hasProperty items (s.thing j) prop = true := by
  simp only [hasPropertyBut, List.any_eq_true, Bool.and_eq_true, decide_eq_true_eq]

/-- The flags that are cleared if no other item has the property. -/
theorem and_not_clears {f has others : Bool} {P : Prop} (h : others = true ↔ P) :
    (f && !(has && !others)) = true ↔ f = true ∧ ¬ (has = true ∧ ¬ P) := by
  rw [← h]
  cases f <;> cases has <;> cases others <;> decide

theorem resetTileFlags_shows (hx : x ≠ .flag .immovableBlockPath) :
    (s.resetTileFlags items i).shows x = true ↔
      s.shows x = true ∧
        ¬ (gives items (s.thing i) x = true ∧ (outright x = true ∨ ¬ Others items s i x)) := by
  cases x with
  | floorChange =>
      simp only [shows, resetTileFlags, gives, outright, true_or, and_true, hasFloorChange]
      split
      · next h =>
          simp only [h, not_true, and_false, iff_false, Bool.not_eq_true]
          rfl
      · next h => simp only [h, not_false_eq_true, and_true, Bool.false_eq_true]
  | flag f =>
      cases f with
      | immovableBlockPath => exact absurd rfl hx
      | blockSolid | blockPath | immovableBlockSolid | immovableNoFieldBlockPath
      | noFieldBlockPath =>
          simp only [shows, resetTileFlags, clears, gives, outright, Bool.false_eq_true, false_or]
          exact and_not_clears hasPropertyBut_eq_true
      | teleport | magicField | mailbox | trashHolder | bed | depot | supportsHangable =>
          simp only [shows, resetTileFlags, clears, gives, sets, outright, true_or, and_true,
            Bool.and_eq_true, Bool.not_eq_true', decide_eq_true_eq, decide_eq_false_iff_not,
            Bool.not_eq_true]

/-! ## What a step shows -/

/-- `o` is taken off the tile. -/
structure Taken (items : UInt16 → ItemType) (s s' : Tile) (o : ItemId) : Prop where
  thing : s'.thing = s.thing
  contents : ∀ j, j ∈ s'.contents ↔ j ∈ s.contents ∧ j ≠ o
  shows : ∀ x, x ≠ .flag .immovableBlockPath → (s'.shows x = true ↔ s.shows x = true ∧
    ¬ (gives items (s.thing o) x = true ∧ (outright x = true ∨ ¬ Others items s o x)))
  never : s.flags .immovableBlockPath = false → s'.flags .immovableBlockPath = false

/-- Nothing that counts for the flags changes. -/
structure Same (items : UInt16 → ItemType) (s s' : Tile) : Prop where
  contents : s'.contents = s.contents
  gives : ∀ j x, gives items (s'.thing j) x = gives items (s.thing j) x
  shows : ∀ x, s'.shows x = s.shows x

theorem Same.right (h : Same items s s') : s'.Right items ↔ s.Right items := by
  simp only [Right, h.contents, h.gives, h.shows]

theorem Same.refl : Same items s s := ⟨rfl, fun _ _ => rfl, fun _ => rfl⟩

/-- The lists are as after the item went, the flags not yet. -/
theorem taken_of_reset {t : Tile} (hthing : t.thing = s.thing) (hflags : t.flags = s.flags)
    (hfloor : t.floorChange = s.floorChange)
    (hcontents : ∀ j, j ∈ t.contents ↔ j ∈ s.contents ∧ j ≠ o) :
    Taken items s (t.resetTileFlags items o) o := by
  have hshows : ∀ x, t.shows x = s.shows x := by
    intro x
    cases x <;> simp only [shows, hasFloorChange, hflags, hfloor]
  have hothers : ∀ x, Others items t o x ↔ Others items s o x := by
    intro x
    simp only [Others, hcontents, hthing]
    exact ⟨fun ⟨j, ⟨hj, _⟩, h⟩ => ⟨j, hj, h⟩, fun ⟨j, hj, h⟩ => ⟨j, ⟨hj, h.1⟩, h⟩⟩
  refine ⟨hthing, hcontents, fun x hx => ?_, fun h => ?_⟩
  · rw [resetTileFlags_shows hx, hshows, hothers, hthing]
  · simp only [resetTileFlags, hflags, h, Bool.false_and]

theorem mem_of_idxOf? {α : Type} [DecidableEq α] {l : List α} {a : α} {k : Nat}
    (h : l.idxOf? a = some k) : a ∈ l :=
  List.mem_of_getElem? (getElem?_of_idxOf? h)

/-- An item that has an index is where its type says. -/
theorem found_of_getThingIndex (h : s.getThingIndex items (.item i) ≠ -1) :
    s.ground = some i ∨ (s.ground ≠ some i ∧
      (((s.typeOf items i).alwaysOnTop = true ∧ i ∈ s.top) ∨
        ((s.typeOf items i).alwaysOnTop = false ∧ i ∈ s.down))) := by
  by_cases hg : s.ground = some i
  · exact .inl hg
  · refine .inr ⟨hg, ?_⟩
    simp only [getThingIndex, hg, if_false] at h
    cases htop : (s.typeOf items i).alwaysOnTop with
    | true =>
        simp only [htop, if_true] at h
        cases hk : s.top.idxOf? i with
        | none => simp only [hk, ne_eq, not_true] at h
        | some k => exact .inl ⟨rfl, mem_of_idxOf? hk⟩
    | false =>
        simp only [htop, if_false, Bool.false_eq_true] at h
        cases hk : s.down.idxOf? i with
        | none => simp only [hk, ne_eq, not_true] at h
        | some k => exact .inr ⟨rfl, mem_of_idxOf? hk⟩

theorem mem_contents_of_getThingIndex (h : s.getThingIndex items (.item i) ≠ -1) :
    i ∈ s.contents := by
  rw [mem_contents, mem_items]
  rcases found_of_getThingIndex h with hg | ⟨_, ⟨_, htop⟩ | ⟨_, hdown⟩⟩
  · exact .inl hg
  · exact .inr (.inr htop)
  · exact .inr (.inl hdown)

theorem takes_iff {count : Nat} :
    s.takes items i count = true ↔ s.getThingIndex items (.item i) ≠ -1 ∧
      (s.ground = some i ∨ (s.typeOf items i).alwaysOnTop = true ∨
        ¬ ((s.typeOf items i).stackable = true ∧ count ≠ (s.thing i).data.count.toNat)) := by
  simp only [takes, Bool.and_eq_true, Bool.or_eq_true, decide_eq_true_eq, Bool.not_eq_true',
    Bool.and_eq_false_iff, decide_eq_false_iff_not, or_assoc, not_and_or, Bool.not_eq_true]

theorem Distinct.items_iff (hd : s.Distinct) (hg : s.ground = some i) {j : ItemId} :
    j ∈ s.items ↔ j ∈ s.contents ∧ j ≠ i := by
  rw [mem_contents, hg]
  refine ⟨fun hj => ⟨.inr hj, ?_⟩, fun ⟨hj, hne⟩ => hj.resolve_left ?_⟩
  · rintro rfl
    exact hd.ground j hg hj
  · rintro ⟨⟩
    exact hne rfl

/-- An item goes from the vector and the ground stays. -/
theorem mem_contents_erase {t : Tile} (hd : s.Distinct) (hi : i ∈ s.items)
    (hground : t.ground = s.ground) (hitems : t.items.Perm (s.items.erase i)) :
    ∀ j, j ∈ t.contents ↔ j ∈ s.contents ∧ j ≠ i := by
  intro j
  rw [mem_contents, mem_contents, hground, hitems.mem_iff, hd.nodup.mem_erase_iff]
  refine ⟨?_, fun ⟨hj, hne⟩ => hj.imp_right fun hj => ⟨hne, hj⟩⟩
  rintro (hg | ⟨hne, hj⟩)
  · refine ⟨.inl hg, ?_⟩
    rintro rfl
    exact hd.ground j hg hi
  · exact ⟨.inr hj, hne⟩

theorem removeItem_taken {count : Nat} (hd : s.Distinct) (h : s.takes items i count = true) :
    Taken items s (s.removeItem items i count) i := by
  obtain ⟨hindex, htakes⟩ := takes_iff.mp h
  rw [removeItem, if_neg hindex]
  rcases found_of_getThingIndex hindex with hg | ⟨hg, ⟨htop, hi⟩ | ⟨htop, hi⟩⟩
  · rw [if_pos hg]
    refine taken_of_reset rfl rfl rfl fun j => ?_
    rw [← hd.items_iff hg]
    rfl
  · rw [if_neg hg, if_pos htop, if_pos hi]
    refine taken_of_reset rfl rfl rfl (mem_contents_erase hd (mem_items.mpr (.inr hi)) rfl ?_)
    have hdown : i ∉ s.down := fun hdown => hd.disjoint hdown hi
    simp only [setItems]
    rw [← down_append_top (s := s), List.erase_append_right _ hdown]
  · have hpartial := (htakes.resolve_left hg).resolve_left (by rw [htop]; exact Bool.false_ne_true)
    rw [if_neg hg, if_neg (by rw [htop]; exact Bool.false_ne_true), if_pos hi]
    simp only [typeOf] at hpartial ⊢
    rw [if_neg hpartial]
    refine taken_of_reset rfl rfl rfl (mem_contents_erase hd (mem_items.mpr (.inl hi)) rfl ?_)
    simp only [addDownItemCount, setItems]
    rw [← down_append_top (s := s), List.erase_append_left _ hi]

/-- The count of an item is nothing that the flags look at. -/
theorem gives_setItemCount {t : TileItem} {n : Nat} :
    gives items { t with data := t.data.setItemCount n } x = gives items t x := by
  cases x with
  | floorChange => rfl
  | flag f => cases f <;> rfl

theorem removeItem_same {count : Nat} (h : s.takes items i count = false) :
    Same items s (s.removeItem items i count) := by
  rw [removeItem]
  split
  · exact .refl
  · next hindex =>
      have htakes : ¬ s.takes items i count = true := by rw [h]; exact Bool.false_ne_true
      rw [takes_iff, not_and, not_or, not_or, not_not] at htakes
      obtain ⟨hg, htop, hpartial⟩ := htakes hindex
      rw [if_neg hg, if_neg htop]
      split
      · simp only [typeOf] at hpartial ⊢
        rw [if_pos hpartial]
        refine ⟨rfl, fun j x => ?_, fun x => ?_⟩
        · simp only [setThing, Function.update_apply]
          split
          · next heq => rw [heq, gives_setItemCount]
          · rfl
        · cases x <;> rfl
      · exact .refl

/-- An item comes to the tile. -/
structure Come (items : UInt16 → ItemType) (s s' : Tile) (i : ItemId) : Prop where
  thing : s'.thing = s.thing
  contents : ∀ j, j ∈ s'.contents ↔ j = i ∨ j ∈ s.contents
  shows : ∀ x, s'.shows x = (s.shows x || gives items (s.thing i) x)

theorem come_of_set {t : Tile} (hthing : t.thing = s.thing) (hflags : t.flags = s.flags)
    (hfloor : t.floorChange = s.floorChange)
    (hcontents : ∀ j, j ∈ t.contents ↔ j = i ∨ j ∈ s.contents) :
    Come items s (t.setTileFlags items i) i := by
  refine ⟨hthing, hcontents, fun x => ?_⟩
  rw [setTileFlags_shows, hthing]
  cases x <;> simp only [shows, hasFloorChange, hflags, hfloor]

theorem insertTop_come {p : ItemId → Bool} :
    Come items s ((s.insertTop p i).setTileFlags items i) i := by
  refine come_of_set rfl rfl rfl fun j => ?_
  have hmem : j ∈ (s.insertTop p i).items ↔ j = i ∨ j ∈ s.items := by
    simp only [insertTop, setItems, List.mem_append, (insertBefore_perm s.top).mem_iff,
      List.mem_cons, mem_items (s := s)]
    exact or_left_comm
  rw [mem_contents, hmem, mem_contents]
  exact or_left_comm

theorem insertDown_come : Come items s ((s.insertDown i).setTileFlags items i) i := by
  refine come_of_set rfl rfl rfl fun j => ?_
  rw [mem_contents, mem_contents]
  simp only [insertDown, addDownItemCount, setItems, List.mem_cons]
  exact or_left_comm

theorem ground_come (hg : s.ground = none) :
    Come items s ({ s with ground := some i }.setTileFlags items i) i := by
  refine come_of_set rfl rfl rfl fun j => ?_
  rw [mem_contents, mem_contents, hg]
  simp only [Option.some.injEq, reduceCtorEq, false_or, eq_comm]

/-- A step of the tile as the flags see it: `o` goes and what has the properties `inc`
comes. -/
structure Turn (items : UInt16 → ItemType) (s s' : Tile) (o : ItemId) (inc : Shown → Prop) :
    Prop where
  mem : o ∈ s.contents
  contents : ∀ x, (∃ j ∈ s'.contents, gives items (s'.thing j) x = true) ↔
    inc x ∨ Others items s o x
  shows : ∀ x, x ≠ .flag .immovableBlockPath → (s'.shows x = true ↔ inc x ∨ (s.shows x = true ∧
    ¬ (gives items (s.thing o) x = true ∧ (outright x = true ∨ ¬ Others items s o x))))
  never : s.flags .immovableBlockPath = false → s'.flags .immovableBlockPath = false

theorem any_iff_others (ho : o ∈ s.contents) :
    (∃ j ∈ s.contents, gives items (s.thing j) x = true) ↔
      gives items (s.thing o) x = true ∨ Others items s o x := by
  constructor
  · rintro ⟨j, hj, hx⟩
    by_cases hne : j = o
    · rw [← hne]
      exact .inl hx
    · exact .inr ⟨j, hj, hne, hx⟩
  · rintro (hx | ⟨j, hj, _, hx⟩)
    · exact ⟨o, ho, hx⟩
    · exact ⟨j, hj, hx⟩

/-- `immovableBlockPath` is never set, as no item is asked for it. -/
theorem Right.never (hs : s.Right items) : s.flags .immovableBlockPath = false := by
  have h := hs (.flag .immovableBlockPath)
  rw [← Bool.not_eq_true]
  intro hset
  obtain ⟨_, _, hx⟩ := h.mp hset
  cases hx

/-- The flags stay right just when the outright ones that the outgoing item stands for are
given by what comes, or by nothing that stays. -/
theorem Turn.right_iff {inc : Shown → Prop} (h : Turn items s s' o inc) (hs : s.Right items) :
    s'.Right items ↔ ∀ x, outright x = true → gives items (s.thing o) x = true →
      inc x ∨ ¬ Others items s o x := by
  have hright : ∀ x, s.shows x = true ↔
      gives items (s.thing o) x = true ∨ Others items s o x :=
    fun x => (hs x).trans (any_iff_others h.mem)
  constructor
  · intro hs' x hout hgives
    have hx : x ≠ .flag .immovableBlockPath := by
      rintro rfl
      cases hout
    have hshows := (h.shows x hx).symm.trans ((hs' x).trans (h.contents x))
    rw [hright] at hshows
    tauto
  · intro hcond x
    rw [h.contents]
    by_cases hx : x = .flag .immovableBlockPath
    · subst hx
      have hnone : ¬ (inc (.flag .immovableBlockPath) ∨
          Others items s o (.flag .immovableBlockPath)) := by
        rw [← h.contents]
        rintro ⟨_, _, hx⟩
        cases hx
      have hnever := h.never hs.never
      simp only [Tile.shows, hnever, hnone, Bool.false_eq_true]
    · rw [h.shows x hx, hright]
      have hcond := hcond x
      tauto

theorem Taken.turn (h : Taken items s s' o) (ho : o ∈ s.contents) :
    Turn items s s' o fun _ => False := by
  refine ⟨ho, fun x => ?_, fun x hx => ?_, h.never⟩
  · simp only [Others, h.contents, h.thing, false_or, and_assoc]
  · rw [h.shows x hx, false_or]

theorem Taken.come_turn {t : Tile} (h : Taken items s t o) (ho : o ∈ s.contents)
    (hcome : Come items t s' i) :
    Turn items s s' o fun x => gives items (s.thing i) x = true := by
  refine ⟨ho, fun x => ?_, fun x hx => ?_, fun hnever => ?_⟩
  · simp only [hcome.contents, hcome.thing, h.thing, h.contents, Others]
    constructor
    · rintro ⟨j, rfl | ⟨hj, hne⟩, hx⟩
      · exact .inl hx
      · exact .inr ⟨j, hj, hne, hx⟩
    · rintro (hx | ⟨j, hj, hne, hx⟩)
      · exact ⟨i, .inl rfl, hx⟩
      · exact ⟨j, .inr ⟨hj, hne⟩, hx⟩
  · rw [hcome.shows, h.thing, Bool.or_eq_true, h.shows x hx, or_comm]
  · have hshows := hcome.shows (.flag .immovableBlockPath)
    simp only [Tile.shows, h.never hnever, gives, sets, Bool.or_false] at hshows
    exact hshows

/-- The lists are as after one item took another's place, the flags not yet. -/
theorem turn_of_exchange {t : Tile} (ho : o ∈ s.contents) (hi : i ∉ s.contents)
    (hthing : t.thing = s.thing) (hflags : t.flags = s.flags)
    (hfloor : t.floorChange = s.floorChange)
    (hcontents : ∀ j, j ∈ t.contents ↔ j = i ∨ (j ∈ s.contents ∧ j ≠ o)) :
    Turn items s ((t.resetTileFlags items o).setTileFlags items i) o
      fun x => gives items (s.thing i) x = true := by
  have hne : i ≠ o := fun heq => hi (heq ▸ ho)
  have hshows : ∀ x, t.shows x = s.shows x := by
    intro x
    cases x <;> simp only [shows, hasFloorChange, hflags, hfloor]
  have hany : ∀ x, Others items t o x ↔ gives items (s.thing i) x = true ∨ Others items s o x := by
    intro x
    simp only [Others, hcontents, hthing]
    constructor
    · rintro ⟨j, rfl | ⟨hj, _⟩, hne, hx⟩
      · exact .inl hx
      · exact .inr ⟨j, hj, hne, hx⟩
    · rintro (hx | ⟨j, hj, hne, hx⟩)
      · exact ⟨i, .inl rfl, hne, hx⟩
      · exact ⟨j, .inr ⟨hj, hne⟩, hne, hx⟩
  refine ⟨ho, fun x => ?_, fun x hx => ?_, fun hnever => ?_⟩
  · rw [← hany]
    refine exists_congr fun j => ?_
    refine ⟨fun ⟨hj, hx⟩ => ⟨hj, ?_, hx⟩, fun ⟨hj, _, hx⟩ => ⟨hj, hx⟩⟩
    rcases (hcontents j).mp hj with rfl | ⟨_, hne⟩
    · exact hne
    · exact hne
  · rw [setTileFlags_shows, Bool.or_eq_true, resetTileFlags_shows hx, hshows, hany]
    simp only [resetTileFlags, hthing]
    tauto
  · simp only [setTileFlags, resetTileFlags, hflags, hnever, sets, Bool.false_and, Bool.or_false]

/-- The item stays and turns into another one. -/
theorem turn_of_update {t : TileItem} (hi : i ∈ s.contents) :
    Turn items s (((s.resetTileFlags items i).setThing i t).setTileFlags items i) i
      fun x => gives items t x = true := by
  refine ⟨hi, fun x => ?_, fun x hx => ?_, fun hnever => ?_⟩
  · constructor
    · rintro ⟨j, hj, hx⟩
      by_cases hji : j = i
      · subst hji
        simp only [setTileFlags, setThing, Function.update_self] at hx
        exact .inl hx
      · simp only [setTileFlags, setThing, Function.update_of_ne hji] at hx
        exact .inr ⟨j, hj, hji, hx⟩
    · rintro (hx | ⟨j, hj, hji, hx⟩)
      · refine ⟨i, hi, ?_⟩
        simp only [setTileFlags, setThing, Function.update_self]
        exact hx
      · refine ⟨j, hj, ?_⟩
        simp only [setTileFlags, setThing, Function.update_of_ne hji]
        exact hx
  · have hreset : (s.resetTileFlags items i).shows x = true ↔
        s.shows x = true ∧
          ¬ (gives items (s.thing i) x = true ∧
            (outright x = true ∨ ¬ Others items s i x)) := resetTileFlags_shows hx
    have hshows : ((s.resetTileFlags items i).setThing i t).shows x =
        (s.resetTileFlags items i).shows x := by cases x <;> rfl
    rw [setTileFlags_shows, Bool.or_eq_true, hshows, hreset, or_comm]
    simp only [setThing, Function.update_self]
  · simp only [setTileFlags, setThing, resetTileFlags, hnever, sets, Bool.false_and, Bool.or_false]

theorem Come.right (h : Come items s s' i) (hs : s.Right items) : s'.Right items := by
  intro x
  rw [h.shows, Bool.or_eq_true, hs x]
  simp only [h.contents, h.thing]
  constructor
  · rintro (⟨j, hj, hx⟩ | hx)
    · exact ⟨j, .inr hj, hx⟩
    · exact ⟨i, .inl rfl, hx⟩
  · rintro ⟨j, rfl | hj, hx⟩
    · exact .inr hx
    · exact .inl ⟨j, hj, hx⟩

theorem takes_mem {count : Nat} (h : s.takes items i count = true) : i ∈ s.contents :=
  mem_contents_of_getThingIndex (takes_iff.mp h).1

/-! ## The condition is exact -/

variable {op : Op}

theorem keepsFlags_of_none (h : s.outgoing items op = none) : s.KeepsFlags items op := by
  intro o ho
  rw [h] at ho
  cases ho

theorem Turn.keepsFlags_iff {inc : Shown → Prop} (h : Turn items s s' o inc) (hs : s.Right items)
    (hout : s.outgoing items op = some o)
    (hinc : ∀ x, inc x ↔ ∃ t, s.incoming items op = some t ∧ gives items t x = true) :
    s'.Right items ↔ s.KeepsFlags items op := by
  have hothers : ∀ x, ¬ Others items s o x ↔
      ∀ j ∈ s.contents, j ≠ o → gives items (s.thing j) x = false := by
    intro x
    simp only [Others, not_exists, not_and, Bool.not_eq_true]
  rw [h.right_iff hs]
  simp only [KeepsFlags, hout, Option.some.injEq, forall_eq', hinc, hothers]

/-- An old splash or an old field makes place, if it is taken as a whole. -/
theorem removed_come_iff {count : Nat} (hd : s.Distinct) (hs : s.Right items)
    (hcome : Come items (s.removeItem items j count) s' i)
    (hout : s.outgoing items op = some j ∧ s.takes items j count = true ∨
      s.outgoing items op = none ∧ s.takes items j count = false)
    (hin : s.incoming items op = some (s.thing i)) :
    s'.Right items ↔ s.KeepsFlags items op := by
  rcases hout with ⟨hout, htakes⟩ | ⟨hout, htakes⟩
  · refine ((removeItem_taken hd htakes).come_turn (takes_mem htakes) hcome).keepsFlags_iff hs hout
      fun x => ?_
    simp only [hin, Option.some.injEq, exists_eq_left']
  · exact iff_of_true (hcome.right ((removeItem_same htakes).right.mpr hs))
      (keepsFlags_of_none hout)

theorem filter_takes {p : ItemId → Bool} {o : Option ItemId} (h : o = some j) :
    o.filter p = some j ∧ p j = true ∨ o.filter p = none ∧ p j = false := by
  subst h
  cases hp : p j with
  | true => exact .inl ⟨by simp only [Option.filter_some, hp, if_true], rfl⟩
  | false => exact .inr ⟨by simp only [Option.filter_some, hp, if_false, Bool.false_eq_true], rfl⟩

theorem ground_turn {g : ItemId} (hd : s.Distinct) (hoff : i ∉ s.contents)
    (hg : s.ground = some g) :
    Turn items s (({ s with ground := some i }.resetTileFlags items g).setTileFlags items i) g
      fun x => gives items (s.thing i) x = true := by
  refine turn_of_exchange (mem_contents.mpr (.inl hg)) hoff rfl rfl rfl fun j => ?_
  rw [← hd.items_iff hg, mem_contents, Option.some.injEq, eq_comm]

theorem addItem_right_iff (hd : s.Distinct) (hs : s.Right items) (hoff : i ∉ s.contents) :
    (s.addItem items i).Right items ↔ s.KeepsFlags items (.addThing (.item i)) := by
  have hin : s.incoming items (.addThing (.item i)) = some (s.thing i) := rfl
  by_cases hfull : 0xFFFF ≤ s.items.length
  · rw [addItem, if_pos hfull]
    exact iff_of_true hs (keepsFlags_of_none (by simp only [outgoing, hfull, if_true]))
  · rw [addItem, if_neg hfull]
    by_cases hground : (s.typeOf items i).isGroundTile = true
    · simp only [hground, if_true]
      have hout : s.outgoing items (.addThing (.item i)) = s.ground := by
        simp only [outgoing, hfull, hground, if_true, if_false]
      cases hg : s.ground with
      | none =>
          exact iff_of_true ((ground_come hg).right hs) (keepsFlags_of_none (hout.trans hg))
      | some g =>
          refine (ground_turn hd hoff hg).keepsFlags_iff hs (hout.trans hg) fun x => ?_
          simp only [hin, Option.some.injEq, exists_eq_left']
    · simp only [hground, if_false, Bool.false_eq_true]
      by_cases htop : (s.typeOf items i).alwaysOnTop = true
      · simp only [htop, if_true]
        cases hold : (if (s.typeOf items i).isSplash = true then
            s.top.find? fun j => (s.typeOf items j).isSplash else none) with
        | none =>
            refine iff_of_true (insertTop_come.right hs) (keepsFlags_of_none ?_)
            simp only [outgoing, hfull, hground, htop, if_true, if_false, Bool.false_eq_true]
            split
            · next hsplash =>
                rw [if_pos hsplash] at hold
                rw [hold, Option.filter_none]
            · rfl
        | some j =>
            refine removed_come_iff hd hs insertTop_come ?_ hin
            have hsplash : (s.typeOf items i).isSplash = true := by
              by_contra h
              rw [if_neg h] at hold
              cases hold
            rw [if_pos hsplash] at hold
            simp only [outgoing, hfull, hground, htop, hsplash, if_true, if_false, Bool.false_eq_true]
            exact filter_takes hold
      · simp only [htop, if_false, Bool.false_eq_true]
        cases hold : (if (s.typeOf items i).isMagicField = true then
            s.down.find? fun j => (s.thing j).cls = .magicField else none) with
        | none =>
            refine iff_of_true (insertDown_come.right hs) (keepsFlags_of_none ?_)
            simp only [outgoing, hfull, hground, htop, if_false, Bool.false_eq_true]
            split
            · next hfield =>
                rw [if_pos hfield] at hold
                rw [hold, Option.filter_none]
            · rfl
        | some j =>
            have hfield : (s.typeOf items i).isMagicField = true := by
              by_contra h
              rw [if_neg h] at hold
              cases hold
            rw [if_pos hfield] at hold
            simp only
            have hout : s.outgoing items (.addThing (.item i)) =
                if (s.typeOf items j).replaceable && s.takes items j 1 then some j else none := by
              simp only [outgoing, hfull, hground, htop, hfield, if_true, if_false,
                Bool.false_eq_true, hold, Option.filter_some]
            split
            · next hreplaceable =>
                refine removed_come_iff hd hs insertDown_come ?_ hin
                rw [hout, hreplaceable, Bool.true_and]
                cases s.takes items j 1 with
                | true => exact .inl ⟨rfl, rfl⟩
                | false => exact .inr ⟨rfl, rfl⟩
            · next hreplaceable =>
                refine iff_of_true hs (keepsFlags_of_none ?_)
                rw [hout, Bool.eq_false_iff.mpr hreplaceable, Bool.false_and]
                rfl

/-- A creature comes or goes. -/
theorem creatures_same {l : List CreatureId} : Same items s { s with creatures := l } :=
  ⟨rfl, fun _ _ => rfl, fun x => by cases x <;> rfl⟩

theorem internalAddThing_right {t : TileThing} (hs : s.Right items) :
    (s.internalAddThing items t).Right items := by
  cases t with
  | creature c => exact creatures_same.right.mpr hs
  | item i =>
      simp only [internalAddThing]
      split
      · cases hg : s.ground with
        | none => exact (ground_come hg).right hs
        | some g => exact hs
      · split
        · exact hs
        · split
          · exact insertTop_come.right hs
          · exact insertDown_come.right hs

/-- The item that `replaceThing` takes out is the one at the index. -/
theorem putAt_item {index : Nat} (h : s.getThing index = some (.item j)) :
    ∃ s', s.putAt index i = some (j, s') := by
  have above : ∀ {pos}, s.getThingAbove pos = some (.item j) →
      ∃ s', s.putAbove pos i = some (j, s') := by
    intro pos h
    rw [getThingAbove_eq, List.getElem?_append] at h
    rw [putAbove]
    split at h
    · next hpos =>
        rw [List.getElem?_map, Option.map_eq_some_iff] at h
        obtain ⟨k, hk, ⟨⟩⟩ := h
        rw [hk]
        exact ⟨_, rfl⟩
    · next hpos =>
        rw [List.length_map] at hpos h
        rw [List.getElem?_eq_none (Nat.le_of_not_lt hpos)]
        simp only
        rw [List.getElem?_append] at h
        split at h
        · rw [List.getElem?_map, Option.map_eq_some_iff] at h
          obtain ⟨_, _, ⟨⟩⟩ := h
        · next hcreature =>
            rw [List.length_map] at hcreature h
            rw [if_neg hcreature]
            rw [List.getElem?_map, Option.map_eq_some_iff] at h
            obtain ⟨k, hk, ⟨⟩⟩ := h
            rw [hk]
            exact ⟨_, rfl⟩
  rw [getThing] at h
  rw [putAt]
  cases hg : s.ground with
  | none =>
      simp only [hg] at h
      exact above h
  | some g =>
      simp only [hg] at h
      split at h
      · next hzero =>
          cases h
          exact ⟨_, if_pos hzero⟩
      · next hzero =>
          obtain ⟨s', hput⟩ := above h
          exact ⟨s', by simp only [hzero, if_false, hput]⟩

theorem mem_set_iff {l : List ItemId} {pos : Nat} (hl : l.Nodup) (hpos : l[pos]? = some o) :
    ∀ k, k ∈ l.set pos i ↔ k = i ∨ (k ∈ l ∧ k ≠ o) := by
  intro k
  obtain ⟨hlt, heq⟩ := List.getElem?_eq_some_iff.mp hpos
  rw [List.set_eq_take_append_cons_drop, if_pos hlt]
  have hsplit : l = l.take pos ++ o :: l.drop (pos + 1) := by
    rw [← heq, List.cons_getElem_drop_succ, List.take_append_drop]
  have hmem : k ∈ l ↔ k = o ∨ k ∈ l.take pos ∨ k ∈ l.drop (pos + 1) := by
    conv_lhs => rw [hsplit]
    rw [List.mem_append, List.mem_cons, or_left_comm]
  have hne : k ∈ l.take pos ∨ k ∈ l.drop (pos + 1) → k ≠ o := by
    rintro hk rfl
    rw [hsplit, List.nodup_append, List.nodup_cons] at hl
    rcases hk with hk | hk
    · exact hl.2.2 k hk k List.mem_cons_self rfl
    · exact hl.2.1.1 hk
  rw [hmem, List.mem_append, List.mem_cons]
  tauto

theorem putAt_turn {t : Tile} {index : Nat} (hd : s.Distinct) (hoff : i ∉ s.contents)
    (h : s.putAt index i = some (o, t)) :
    Turn items s ((t.resetTileFlags items o).setTileFlags items i) o
      fun x => gives items (s.thing i) x = true := by
  have hset : ∀ {pos}, s.items[pos]? = some o →
      Turn items s (((s.setItems (s.items.set pos i)).resetTileFlags items o).setTileFlags items i)
        o fun x => gives items (s.thing i) x = true := by
    intro pos hpos
    have ho := List.mem_of_getElem? hpos
    refine turn_of_exchange (mem_contents.mpr (.inr ho)) hoff rfl rfl rfl fun j => ?_
    have hground : s.ground = some j → j ≠ o := by
      rintro hg rfl
      exact hd.ground j hg ho
    rw [mem_contents, mem_contents]
    simp only [setItems, mem_set_iff hd.nodup hpos]
    tauto
  rcases (putAt_cases h).2 with ⟨hg, rfl⟩ | ⟨pos, hpos, rfl⟩ | ⟨pos, hpos, rfl⟩
  · exact ground_turn hd hoff hg
  · exact hset (by rw [← List.getElem?_drop]; exact hpos)
  · refine hset ?_
    rw [Tile.down, List.getElem?_take] at hpos
    split at hpos
    · exact hpos
    · cases hpos

theorem replaceThing_right_iff {index : Nat} (hd : s.Distinct) (hs : s.Right items)
    (hoff : i ∉ s.contents) :
    (s.replaceThing items index i).Right items ↔ s.KeepsFlags items (.replaceThing index i) := by
  rw [replaceThing]
  split
  · next hput =>
      refine iff_of_true hs (keepsFlags_of_none ?_)
      simp only [outgoing]
      split
      · next j hget =>
          obtain ⟨_, hsome⟩ := putAt_item (i := i) hget
          rw [hput] at hsome
          cases hsome
      · rfl
  · next o t hput =>
      refine (putAt_turn hd hoff hput).keepsFlags_iff hs ?_ fun x => ?_
      · simp only [outgoing, (putAt_cases hput).1]
      · simp only [incoming, Option.some.injEq, exists_eq_left']

theorem updateThing_right_iff {itemId : UInt16} {count duration : Nat} (hs : s.Right items) :
    (s.updateThing items i itemId count duration).Right items ↔
      s.KeepsFlags items (.updateThing i itemId count duration) := by
  rw [updateThing]
  split
  · next h => exact iff_of_true hs (keepsFlags_of_none (by simp only [outgoing, h, if_true]))
  · next h =>
      refine (turn_of_update (mem_contents_of_getThingIndex h)).keepsFlags_iff hs ?_ fun x => ?_
      · simp only [outgoing, h, if_false]
      · simp only [incoming, Option.some.injEq, exists_eq_left']
        rfl

theorem removeThing_right_iff {t : TileThing} {count : Nat} (hd : s.Distinct)
    (hs : s.Right items) :
    (s.removeThing items t count).Right items ↔ s.KeepsFlags items (.removeThing t count) := by
  cases t with
  | creature c => exact iff_of_true (creatures_same.right.mpr hs) (keepsFlags_of_none rfl)
  | item i =>
      cases htakes : s.takes items i count with
      | true =>
          refine ((removeItem_taken hd htakes).turn (takes_mem htakes)).keepsFlags_iff hs
            (by simp only [outgoing, htakes, if_true]) fun x => ?_
          simp only [incoming, reduceCtorEq, false_and, exists_false]
      | false =>
          refine iff_of_true ((removeItem_same htakes).right.mpr hs) (keepsFlags_of_none ?_)
          simp only [outgoing, htakes, if_false, Bool.false_eq_true]

theorem change_same {t : TileItem} (hoff : i ∉ s.contents) (hs : s.Right items) :
    (s.setThing i t).Right items := by
  intro x
  have hx := hs x
  have hthing : ∀ j ∈ s.contents, (s.setThing i t).thing j = s.thing j := by
    intro j hj
    refine Function.update_of_ne ?_ _ _
    rintro rfl
    exact hoff hj
  have hshows : (s.setThing i t).shows x = s.shows x := by cases x <;> rfl
  rw [hshows, hx]
  refine exists_congr fun j => and_congr_right fun hj => ?_
  rw [hthing j hj]

/-- A step from right flags leads to right flags just when it keeps them. -/
theorem step_right_iff (hd : s.Distinct) (hs : s.Right items) (hfresh : s.Fresh op) :
    (s.step items op).Right items ↔ s.KeepsFlags items op := by
  cases op with
  | change i t => exact iff_of_true (change_same hfresh hs) (keepsFlags_of_none rfl)
  | addThing t =>
      cases t with
      | creature c => exact iff_of_true (creatures_same.right.mpr hs) (keepsFlags_of_none rfl)
      | item i => exact addItem_right_iff hd hs hfresh
  | internalAddThing t =>
      exact iff_of_true (internalAddThing_right hs) (keepsFlags_of_none rfl)
  | updateThing i itemId count duration => exact updateThing_right_iff hs
  | replaceThing index i => exact replaceThing_right_iff hd hs hfresh
  | removeThing t count => exact removeThing_right_iff hd hs

theorem empty_right (thing : ItemId → TileItem) : (empty thing).Right items := by
  intro x
  have hshows : (empty thing).shows x = false := by
    cases x with
    | floorChange => rfl
    | flag f => rfl
  rw [hshows]
  refine iff_of_false Bool.false_ne_true ?_
  rintro ⟨_, hi, _⟩
  cases hi

end Flags

/-- After a run whose steps all keep the flags, they are right. -/
theorem tile_flags {s : Tile}
    (h : Reachable items (fun s op => s.Fresh op ∧ s.KeepsFlags items op) s) : s.Right items := by
  induction h with
  | empty thing => exact empty_right thing
  | step hs hop ih => exact (step_right_iff (hs.distinct And.left) ih hop.1).mpr hop.2

/-- Items 1 and 2 are mailboxes. -/
def mailboxes (i : ItemId) : TileItem where
  id := 1
  cls := if i = 1 ∨ i = 2 then .mailbox else .item
  data := { Item.bare with count := 1 }

/-- A mailbox and another item. -/
def mailboxAndItem : Tile :=
  ((empty mailboxes).step (fun _ => {}) (.addThing (.item 1))).step (fun _ => {})
    (.addThing (.item 3))

/-- The mailbox goes, and with it the flag. -/
theorem tile_flags_mailbox :
    let s := mailboxAndItem.step (fun _ => {}) (.removeThing (.item 1) 1)
    mailboxAndItem.flags .mailbox = true ∧ s.contents = [3] ∧ s.Right fun _ => {} := by
  refine ⟨by decide +kernel, by decide +kernel, tile_flags (fun _ => {}) ?_⟩
  refine .step (.step (.step (.empty mailboxes) ?_) ?_) ?_
  · exact ⟨show (1 : ItemId) ∉ _ by decide +kernel, keepsFlags_of_none (by decide +kernel)⟩
  · exact ⟨show (3 : ItemId) ∉ _ by decide +kernel, keepsFlags_of_none (by decide +kernel)⟩
  · refine ⟨trivial, fun o ho x _ _ => .inr fun j hj hne => ?_⟩
    have hone : mailboxAndItem.outgoing (fun _ => {}) (.removeThing (.item 1) 1) = some 1 := by
      decide +kernel
    cases hone.symm.trans ho
    have hthree : ∀ j ∈ mailboxAndItem.contents, j ≠ 1 → j = 3 := by decide +kernel
    cases hthree j hj hne
    cases x with
    | floorChange => decide +kernel
    | flag f => cases f <;> decide +kernel

/-- With the first of two mailboxes the flag goes. -/
theorem tile_flags_fail :
    ¬ ∀ (items : UInt16 → ItemType) (s : Tile),
      Reachable items (fun s op => s.Fresh op) s → s.Right items := by
  intro h
  have hreach : Reachable (fun _ => {}) (fun s op => s.Fresh op)
      ((((empty mailboxes).step (fun _ => {}) (.addThing (.item 1))).step (fun _ => {})
        (.addThing (.item 2))).step (fun _ => {}) (.removeThing (.item 1) 1)) :=
    .step (.step (.step (.empty mailboxes) (show (1 : ItemId) ∉ _ by decide +kernel))
      (show (2 : ItemId) ∉ _ by decide +kernel)) trivial
  have hmailbox := (h _ _ hreach (.flag .mailbox)).mpr
  exact absurd (hmailbox ⟨2, by decide +kernel, by decide +kernel⟩) (by decide +kernel)

end Bruxo.TileStack.Tile
