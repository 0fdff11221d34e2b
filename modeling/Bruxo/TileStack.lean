import Bruxo.ItemAttributes
import Mathlib.Data.List.Perm.Basic

/-!
# The stack of a tile

`Tile` (`tile.h`, `tile.cpp`) with its ground, its `TileItemVector` and its creatures. The
vector has the down items first and the top items, those that are always on top, behind
them; on the stack the ground comes first, then the top items, the creatures and the down
items. With the items go the flags that the tile takes from them.

The parents of things, the clients and the scripts that hear of a change are left out.
-/

namespace Bruxo.TileStack

/-- The address of an item. -/
abbrev ItemId := Nat

abbrev CreatureId := Nat

/-- The classes that override `getTeleport` and its like; the others are `item`. -/
inductive ItemClass where
  | item | teleport | magicField | mailbox | trashHolder | bedItem | depotLocker
  deriving DecidableEq

structure TileItem where
  id : UInt16
  cls : ItemClass
  data : Item

inductive TileThing where
  | item (i : ItemId)
  | creature (c : CreatureId)
  deriving DecidableEq

/-- The flags that items give a tile, besides those of `TILESTATE_FLOORCHANGE`. -/
inductive TileFlag where
  | teleport | magicField | mailbox | trashHolder | bed | depot | blockSolid | blockPath
  | immovableBlockSolid | immovableBlockPath | immovableNoFieldBlockPath | noFieldBlockPath
  | supportsHangable
  deriving DecidableEq

structure Tile where
  thing : ItemId → TileItem
  ground : Option ItemId
  items : List ItemId
  downItemCount : Nat
  creatures : List CreatureId
  floorChange : FloorChange → Bool
  flags : TileFlag → Bool

/-! ## Properties of items -/

inductive ItemProperty where
  | blockSolid | blockPath | immovableBlockSolid | immovableBlockPath
  | immovableNoFieldBlockPath | noFieldBlockPath | supportHangable

variable (items : UInt16 → ItemType)

/-- `Item::hasProperty` -/
def hasProperty (t : TileItem) (prop : ItemProperty) : Bool :=
  let it := items t.id
  let unique := (t.data.intAttrs .uniqueId).isSome
  match prop with
  | .blockSolid => it.blockSolid
  | .blockPath => it.blockPathFind
  | .immovableBlockSolid => it.blockSolid && (!it.moveable || unique)
  | .immovableBlockPath => it.blockPathFind && (!it.moveable || unique)
  | .immovableNoFieldBlockPath => !it.isMagicField && it.blockPathFind && (!it.moveable || unique)
  | .noFieldBlockPath => !it.isMagicField && it.blockPathFind
  | .supportHangable => it.isHorizontal || it.isVertical

/-- What `setTileFlags` asks an item for a flag; it never sets
`TILESTATE_IMMOVABLEBLOCKPATH`. -/
def sets (t : TileItem) : TileFlag → Bool
  | .immovableBlockSolid => hasProperty items t .immovableBlockSolid
  | .blockPath => hasProperty items t .blockPath
  | .noFieldBlockPath => hasProperty items t .noFieldBlockPath
  | .immovableNoFieldBlockPath => hasProperty items t .immovableNoFieldBlockPath
  | .teleport => t.cls = .teleport
  | .magicField => t.cls = .magicField
  | .mailbox => t.cls = .mailbox
  | .trashHolder => t.cls = .trashHolder
  | .blockSolid => hasProperty items t .blockSolid
  | .bed => t.cls = .bedItem
  | .depot => t.cls = .depotLocker
  | .supportsHangable => hasProperty items t .supportHangable
  | .immovableBlockPath => false

/-- `it.floorChange != 0` -/
def changesFloor (t : TileItem) : Bool := FloorChange.all.any (items t.id).floorChange

namespace Tile

variable (s : Tile)

/-! ## The stack -/

def typeOf (i : ItemId) : ItemType := items (s.thing i).id

/-- The items between `getBeginDownItem` and `getEndDownItem`. -/
def down : List ItemId := s.items.take s.downItemCount

/-- The items between `getBeginTopItem` and `getEndTopItem`. -/
def top : List ItemId := s.items.drop s.downItemCount

def getThingCount : Nat :=
  s.creatures.length + s.items.length + if s.ground.isSome then 1 else 0

/-- `n` is the index of what came last on the stack. -/
def getThingIndex (t : TileThing) : Int :=
  let n : Int := if s.ground.isSome then 0 else -1
  match t with
  | .item i =>
      if s.ground = some i then 0
      else if (s.typeOf items i).alwaysOnTop then
        match s.top.idxOf? i with
        | some k => n + 1 + k
        | none => -1
      else
        match s.down.idxOf? i with
        | some k => n + s.top.length + s.creatures.length + 1 + k
        | none => -1
  | .creature c =>
      match s.creatures.idxOf? c with
      | some k => n + s.top.length + 1 + k
      | none => -1

/-- The part of `getThing` behind the ground. -/
def getThingAbove (index : Nat) : Option TileThing :=
  if index < s.top.length then (s.items[s.downItemCount + index]?).map .item
  else
    let index := index - s.top.length
    if index < s.creatures.length then (s.creatures[index]?).map .creature
    else
      let index := index - s.creatures.length
      if index < s.downItemCount then (s.items[index]?).map .item else none

def getThing (index : Nat) : Option TileThing :=
  match s.ground with
  | some g => if index = 0 then some (.item g) else s.getThingAbove (index - 1)
  | none => s.getThingAbove index

/-! ## Flags -/

/-- `hasFlag(TILESTATE_FLOORCHANGE)` -/
def hasFloorChange : Bool := FloorChange.all.any s.floorChange

/-- The items, the ground included. -/
def contents : List ItemId := s.ground.toList ++ s.items

/-- `hasProperty` with an item that does not count. -/
def hasPropertyBut (exclude : ItemId) (prop : ItemProperty) : Bool :=
  s.contents.any fun i => i ≠ exclude && hasProperty items (s.thing i) prop

def setTileFlags (i : ItemId) : Tile :=
  { s with
    floorChange :=
      if s.hasFloorChange then s.floorChange
      else fun bit => s.floorChange bit || (s.typeOf items i).floorChange bit
    flags := fun f => s.flags f || sets items (s.thing i) f }

/-- Whether `resetTileFlags` clears a flag: for some it asks the other items. -/
def clears (i : ItemId) : TileFlag → Bool
  | .blockSolid =>
      hasProperty items (s.thing i) .blockSolid && !s.hasPropertyBut items i .blockSolid
  | .immovableBlockSolid =>
      hasProperty items (s.thing i) .immovableBlockSolid &&
        !s.hasPropertyBut items i .immovableBlockSolid
  | .blockPath =>
      hasProperty items (s.thing i) .blockPath && !s.hasPropertyBut items i .blockPath
  | .noFieldBlockPath =>
      hasProperty items (s.thing i) .noFieldBlockPath &&
        !s.hasPropertyBut items i .noFieldBlockPath
  | .immovableBlockPath =>
      hasProperty items (s.thing i) .immovableBlockPath &&
        !s.hasPropertyBut items i .immovableBlockPath
  | .immovableNoFieldBlockPath =>
      hasProperty items (s.thing i) .immovableNoFieldBlockPath &&
        !s.hasPropertyBut items i .immovableNoFieldBlockPath
  | .teleport => (s.thing i).cls = .teleport
  | .magicField => (s.thing i).cls = .magicField
  | .mailbox => (s.thing i).cls = .mailbox
  | .trashHolder => (s.thing i).cls = .trashHolder
  | .bed => (s.thing i).cls = .bedItem
  | .depot => (s.thing i).cls = .depotLocker
  | .supportsHangable => hasProperty items (s.thing i) .supportHangable

def resetTileFlags (i : ItemId) : Tile :=
  { s with
    floorChange := if changesFloor items (s.thing i) then fun _ => false else s.floorChange
    flags := fun f => s.flags f && !s.clears items i f }

/-! ## The operations -/

def setThing (i : ItemId) (t : TileItem) : Tile :=
  { s with thing := Function.update s.thing i t }

def setItems (l : List ItemId) : Tile := { s with items := l }

def addDownItemCount (increment : Int) : Tile :=
  { s with downItemCount := (castInt 2 false (s.downItemCount + increment)).toNat }

def removeItem (i : ItemId) (count : Nat) : Tile :=
  if s.getThingIndex items (.item i) = -1 then s
  else if s.ground = some i then { s with ground := none }.resetTileFlags items i
  else if (s.typeOf items i).alwaysOnTop then
    if i ∈ s.top then (s.setItems (s.down ++ s.top.erase i)).resetTileFlags items i else s
  else if i ∈ s.down then
    let t := s.thing i
    if (items t.id).stackable ∧ count ≠ t.data.count.toNat then
      s.setThing i { t with
        data := t.data.setItemCount (max 0 (castInt 4 true (t.data.count.toNat - count))).toNat }
    else
      ((s.setItems (s.down.erase i ++ s.top)).addDownItemCount (-1)).resetTileFlags items i
  else s

def removeThing (t : TileThing) (count : Nat) : Tile :=
  match t with
  | .creature c => { s with creatures := s.creatures.erase c }
  | .item i => s.removeItem items i count

/-- Insertion in front of the first element that `p` holds of. -/
def insertBefore (p : ItemId → Bool) (i : ItemId) : List ItemId → List ItemId
  | [] => [i]
  | j :: l => if p j then i :: j :: l else j :: insertBefore p i l

def insertTop (p : ItemId → Bool) (i : ItemId) : Tile :=
  s.setItems (s.down ++ insertBefore p i s.top)

def insertDown (i : ItemId) : Tile := (s.setItems (i :: s.items)).addDownItemCount 1

def addItem (i : ItemId) : Tile :=
  if 0xFFFF ≤ s.items.length then s
  else
    let it := s.typeOf items i
    if it.isGroundTile then
      match s.ground with
      | none => { s with ground := some i }.setTileFlags items i
      | some oldGround =>
          (({ s with ground := some i }).resetTileFlags items oldGround).setTileFlags items i
    else if it.alwaysOnTop then
      let oldSplash := if it.isSplash then s.top.find? fun j => (s.typeOf items j).isSplash else none
      let s := match oldSplash with
        | none => s
        | some j => s.removeItem items j 1
      (s.insertTop (fun j => it.alwaysOnTopOrder ≤ (s.typeOf items j).alwaysOnTopOrder) i).setTileFlags
        items i
    else
      let oldField :=
        if it.isMagicField then s.down.find? fun j => (s.thing j).cls = .magicField else none
      match oldField with
      | none => (s.insertDown i).setTileFlags items i
      | some j =>
          if (s.typeOf items j).replaceable then
            ((s.removeItem items j 1).insertDown i).setTileFlags items i
          else s

def addThing (t : TileThing) : Tile :=
  match t with
  | .creature c => { s with creatures := c :: s.creatures }
  | .item i => s.addItem items i

def internalAddThing (t : TileThing) : Tile :=
  match t with
  | .creature c => { s with creatures := c :: s.creatures }
  | .item i =>
      let it := s.typeOf items i
      if it.isGroundTile then
        match s.ground with
        | none => { s with ground := some i }.setTileFlags items i
        | some _ => s
      else if 0xFFFF ≤ s.items.length then s
      else if it.alwaysOnTop then
        (s.insertTop (fun j => it.alwaysOnTopOrder < (s.typeOf items j).alwaysOnTopOrder)
          i).setTileFlags items i
      else (s.insertDown i).setTileFlags items i

/-- `setID` and `setSubType` as `updateThing` calls them. -/
def updated (t : TileItem) (itemId : UInt16) (count duration : Nat) : TileItem :=
  let data := t.data.setID (items t.id) (items itemId) duration
  { t with id := itemId, data := data.setSubType (items itemId) (count % 65536) }

/-- `duration` is what `normal_random` gives for the decay times of the new type. -/
def updateThing (i : ItemId) (itemId : UInt16) (count duration : Nat) : Tile :=
  if s.getThingIndex items (.item i) = -1 then s
  else
    let s := s.resetTileFlags items i
    (s.setThing i (updated items (s.thing i) itemId count duration)).setTileFlags items i

/-- The part of `replaceThing` behind the ground: the old item and the tile with `i` in its
place. -/
def putAbove (pos : Nat) (i : ItemId) : Option (ItemId × Tile) :=
  match s.top[pos]? with
  | some j => some (j, s.setItems (s.items.set (s.downItemCount + pos) i))
  | none =>
      let pos := pos - s.top.length
      if pos < s.creatures.length then none
      else
        let pos := pos - s.creatures.length
        match s.down[pos]? with
        | some j => some (j, s.setItems (s.items.set pos i))
        | none => none

/-- `index` is one that `getThingIndex` gives, below `2 ^ 31`. -/
def putAt (index : Nat) (i : ItemId) : Option (ItemId × Tile) :=
  match s.ground with
  | some g =>
      if index = 0 then some (g, { s with ground := some i }) else s.putAbove (index - 1) i
  | none => s.putAbove index i

def replaceThing (index : Nat) (i : ItemId) : Tile :=
  match s.putAt index i with
  | none => s
  | some (oldItem, s) => (s.resetTileFlags items oldItem).setTileFlags items i

/-! ## The parts of the vector -/

/-- Nothing is on the tile twice, and no more is counted as down than there is. -/
structure Distinct (s : Tile) : Prop where
  count : s.downItemCount ≤ s.items.length
  small : s.items.length ≤ 0xFFFF
  nodup : s.items.Nodup
  ground : ∀ g, s.ground = some g → g ∉ s.items
  creatures : s.creatures.Nodup

/-- The down items are those that are not always on top. -/
structure Layered (s : Tile) : Prop where
  down : ∀ i ∈ s.down, (s.typeOf items i).alwaysOnTop = false
  top : ∀ i ∈ s.top, (s.typeOf items i).alwaysOnTop = true

section Parts

variable {s : Tile} {i j : ItemId} {p : ItemId → Bool}

theorem down_append_top : s.down ++ s.top = s.items := List.take_append_drop ..

theorem mem_items : i ∈ s.items ↔ i ∈ s.down ∨ i ∈ s.top := by
  rw [← down_append_top, List.mem_append]

theorem Distinct.down_length (h : s.Distinct) : s.down.length = s.downItemCount :=
  List.length_take_of_le h.count

theorem top_length : s.top.length = s.items.length - s.downItemCount := List.length_drop

theorem Distinct.disjoint (h : s.Distinct) (hd : i ∈ s.down) (ht : i ∈ s.top) : False := by
  have hnodup := h.nodup
  rw [← down_append_top, List.nodup_append] at hnodup
  exact hnodup.2.2 i hd i ht rfl

/-- The vector was put together from two parts, and the count is that of the first one. -/
theorem parts_of {down top : List ItemId} (hitems : s.items = down ++ top)
    (hcount : s.downItemCount = down.length) : s.down = down ∧ s.top = top := by
  simp only [Tile.down, Tile.top, hitems, hcount, List.take_left', List.drop_left', and_self]

theorem addDownItemCount_count {n : Int} {m : Nat} (h : s.downItemCount + n = m)
    (hm : m ≤ 0xFFFF) : (s.addDownItemCount n).downItemCount = m := by
  simp only [addDownItemCount, castInt, h]
  norm_num
  omega

theorem insertBefore_perm (l : List ItemId) : (insertBefore p i l).Perm (i :: l) := by
  induction l with
  | nil => exact .refl _
  | cons a l ih =>
      simp only [insertBefore]
      split
      · exact .refl _
      · exact (ih.cons a).trans (.swap i a l)

theorem insertTop_parts (h : s.Distinct) :
    (s.insertTop p i).down = s.down ∧ (s.insertTop p i).top = insertBefore p i s.top :=
  parts_of rfl h.down_length.symm

theorem insertDown_count (h : s.Distinct) (hsmall : s.items.length < 0xFFFF) :
    (s.insertDown i).downItemCount = s.downItemCount + 1 := by
  have hle := h.count
  exact addDownItemCount_count rfl (by omega)

theorem insertDown_parts (h : s.Distinct) (hsmall : s.items.length < 0xFFFF) :
    (s.insertDown i).down = i :: s.down ∧ (s.insertDown i).top = s.top := by
  refine parts_of ?_ ?_
  · simp only [insertDown, addDownItemCount, setItems, List.cons_append, down_append_top]
  · rw [insertDown_count h hsmall, List.length_cons, h.down_length]

theorem eraseTop_parts (h : s.Distinct) :
    (s.setItems (s.down ++ s.top.erase i)).down = s.down ∧
      (s.setItems (s.down ++ s.top.erase i)).top = s.top.erase i :=
  parts_of rfl h.down_length.symm

theorem eraseDown_count (h : s.Distinct) (hi : i ∈ s.down) :
    ((s.setItems (s.down.erase i ++ s.top)).addDownItemCount (-1)).downItemCount =
      (s.down.erase i).length := by
  have hlen := h.down_length
  have hle := h.count
  have hsmall := h.small
  have hpos := List.length_pos_of_mem hi
  refine addDownItemCount_count ?_ ?_
  · simp only [setItems, List.length_erase_of_mem hi]
    omega
  · rw [List.length_erase_of_mem hi]
    omega

theorem eraseDown_parts (h : s.Distinct) (hi : i ∈ s.down) :
    ((s.setItems (s.down.erase i ++ s.top)).addDownItemCount (-1)).down = s.down.erase i ∧
      ((s.setItems (s.down.erase i ++ s.top)).addDownItemCount (-1)).top = s.top :=
  parts_of rfl (eraseDown_count h hi)

theorem setTop_parts (h : s.Distinct) (pos : Nat) :
    (s.setItems (s.items.set (s.downItemCount + pos) i)).down = s.down ∧
      (s.setItems (s.items.set (s.downItemCount + pos) i)).top = s.top.set pos i := by
  refine parts_of ?_ h.down_length.symm
  simp only [setItems]
  have hnot : ¬ s.downItemCount + pos < s.down.length := by rw [h.down_length]; omega
  rw [← down_append_top, List.set_append, if_neg hnot, h.down_length, Nat.add_sub_cancel_left]

theorem setDown_parts (h : s.Distinct) {pos : Nat} (hpos : pos < s.down.length) :
    (s.setItems (s.items.set pos i)).down = s.down.set pos i ∧
      (s.setItems (s.items.set pos i)).top = s.top := by
  refine parts_of ?_ ?_
  · simp only [setItems]
    rw [← down_append_top, List.set_append, if_pos hpos]
  · simp only [setItems, List.length_set, h.down_length]

end Parts

/-! ## The two index functions -/

/-- What is on the tile, from the ground up. -/
def stack (s : Tile) : List TileThing :=
  s.ground.toList.map .item ++ (s.top.map .item ++ (s.creatures.map .creature ++ s.down.map .item))

section Index

variable {items} {s : Tile} {i : ItemId} {c : CreatureId} {t : TileThing} {k : Nat}

theorem getThingAbove_eq (index : Nat) :
    s.getThingAbove index =
      (s.top.map .item ++ (s.creatures.map .creature ++ s.down.map .item))[index]? := by
  simp only [getThingAbove, List.getElem?_append, List.length_map, List.getElem?_map]
  split
  · rw [Tile.top, List.getElem?_drop]
  · split
    · rfl
    · rw [Tile.down, List.getElem?_take]
      split <;> rfl

theorem getThing_eq (index : Nat) : s.getThing index = s.stack[index]? := by
  simp only [getThing, stack]
  cases hg : s.ground with
  | none =>
      simp only [Option.toList_none, List.map_nil, List.nil_append]
      exact getThingAbove_eq index
  | some g =>
      cases index with
      | zero => rfl
      | succ index => exact getThingAbove_eq index

theorem getElem?_of_idxOf? {α : Type} [DecidableEq α] {l : List α} {a : α} {k : Nat}
    (h : l.idxOf? a = some k) : l[k]? = some a := by
  obtain ⟨hk, ha, _⟩ := List.idxOf?_eq_some_iff.mp h
  rw [List.getElem?_eq_getElem hk, ha]

theorem stack_length (h : s.Distinct) : s.stack.length = s.getThingCount := by
  have htop := top_length (s := s)
  have hdown := h.down_length
  have hle := h.count
  cases hg : s.ground <;>
    simp only [stack, getThingCount, hg, List.length_append, List.length_map, Option.toList_none,
      Option.toList_some, List.length_nil, List.length_singleton, Option.isSome_none,
      Option.isSome_some, if_true, if_false, Bool.false_eq_true] <;>
    omega

theorem mem_stack_item :
    TileThing.item i ∈ s.stack ↔ s.ground = some i ∨ i ∈ s.items := by
  simp only [stack, List.mem_append, List.mem_map, TileThing.item.injEq, exists_eq_right,
    reduceCtorEq, and_false, exists_false, false_or, Option.mem_toList, mem_items]
  rw [or_comm (a := i ∈ s.top)]

theorem mem_stack_creature : TileThing.creature c ∈ s.stack ↔ c ∈ s.creatures := by
  simp only [stack, List.mem_append, List.mem_map, TileThing.creature.injEq, exists_eq_right,
    reduceCtorEq, and_false, exists_false, false_or, or_false]

theorem Distinct.stack_nodup (h : s.Distinct) : s.stack.Nodup := by
  have hitem : Function.Injective TileThing.item := fun _ _ heq => TileThing.item.inj heq
  have hcreature : Function.Injective TileThing.creature :=
    fun _ _ heq => TileThing.creature.inj heq
  have hnodup := h.nodup
  rw [← down_append_top, List.nodup_append] at hnodup
  obtain ⟨hdown, htop, hdisj⟩ := hnodup
  simp only [stack]
  refine List.nodup_append.mpr ⟨?_, List.nodup_append.mpr ⟨htop.map hitem,
    List.nodup_append.mpr ⟨h.creatures.map hcreature, hdown.map hitem, ?_⟩, ?_⟩, ?_⟩
  · cases s.ground with
    | none => exact List.nodup_nil
    | some g => exact List.nodup_singleton _
  · rintro a ha b hb rfl
    obtain ⟨_, _, rfl⟩ := List.mem_map.mp ha
    obtain ⟨_, _, heq⟩ := List.mem_map.mp hb
    cases heq
  · rintro a ha b hb rfl
    obtain ⟨i, hi, rfl⟩ := List.mem_map.mp ha
    rcases List.mem_append.mp hb with hb | hb
    · obtain ⟨_, _, heq⟩ := List.mem_map.mp hb
      cases heq
    · obtain ⟨j, hj, heq⟩ := List.mem_map.mp hb
      cases heq
      exact hdisj _ hj _ hi rfl
  · rintro a ha b hb rfl
    obtain ⟨g, hg, rfl⟩ := List.mem_map.mp ha
    have hground := h.ground g (by simpa using hg)
    rw [mem_items] at hground
    rcases List.mem_append.mp hb with hb | hb
    · obtain ⟨j, hj, heq⟩ := List.mem_map.mp hb
      cases heq
      exact hground (.inr hj)
    · rcases List.mem_append.mp hb with hb | hb
      · obtain ⟨_, _, heq⟩ := List.mem_map.mp hb
        cases heq
      · obtain ⟨j, hj, heq⟩ := List.mem_map.mp hb
        cases heq
        exact hground (.inl hj)

theorem stack_top (hk : s.top[k]? = some i) :
    s.stack[s.ground.toList.length + k]? = some (.item i) := by
  have hlt := (List.getElem?_eq_some_iff.mp hk).1
  rw [stack, List.getElem?_append_right (by simp), List.length_map, Nat.add_sub_cancel_left,
    List.getElem?_append_left (by simpa using hlt), List.getElem?_map, hk]
  rfl

theorem stack_creature (hk : s.creatures[k]? = some c) :
    s.stack[s.ground.toList.length + (s.top.length + k)]? = some (.creature c) := by
  have hlt := (List.getElem?_eq_some_iff.mp hk).1
  rw [stack, List.getElem?_append_right (by simp), List.length_map, Nat.add_sub_cancel_left,
    List.getElem?_append_right (by simp), List.length_map, Nat.add_sub_cancel_left,
    List.getElem?_append_left (by simpa using hlt), List.getElem?_map, hk]
  rfl

theorem stack_down (hk : s.down[k]? = some i) :
    s.stack[s.ground.toList.length + (s.top.length + (s.creatures.length + k))]? =
      some (.item i) := by
  rw [stack, List.getElem?_append_right (by simp), List.length_map, Nat.add_sub_cancel_left,
    List.getElem?_append_right (by simp), List.length_map, Nat.add_sub_cancel_left,
    List.getElem?_append_right (by simp), List.length_map, Nat.add_sub_cancel_left,
    List.getElem?_map, hk]
  rfl

/-- What `getThingIndex` starts from counts the ground. -/
theorem ground_index :
    (if s.ground.isSome then (0 : Int) else -1) = (s.ground.toList.length : Int) - 1 := by
  cases s.ground <;> rfl

/-- An index that is found leads back to the thing. -/
theorem getThing_getThingIndex (h : s.getThingIndex items t ≠ -1) :
    ∃ k : Nat, s.getThingIndex items t = k ∧ s.getThing k = some t := by
  have found : ∀ {k : Nat}, s.stack[k]? = some t → s.getThingIndex items t = k →
      ∃ k : Nat, s.getThingIndex items t = k ∧ s.getThing k = some t :=
    fun hk hindex => ⟨_, hindex, (getThing_eq _).trans hk⟩
  cases t with
  | item i =>
      by_cases hg : s.ground = some i
      · refine found (k := 0) ?_ (by simp only [getThingIndex, hg, if_true]; rfl)
        simp only [stack, hg]
        rfl
      · by_cases htop : (s.typeOf items i).alwaysOnTop = true
        · cases hk : s.top.idxOf? i with
          | none => exact absurd (by simp only [getThingIndex, hg, htop, hk, if_true, if_false]) h
          | some k =>
              refine found (stack_top (getElem?_of_idxOf? hk)) ?_
              simp only [getThingIndex, hg, htop, hk, if_true, if_false, ground_index]
              omega
        · cases hk : s.down.idxOf? i with
          | none =>
              refine absurd ?_ h
              simp only [getThingIndex, hg, htop, hk, if_false, Bool.false_eq_true]
          | some k =>
              refine found (stack_down (getElem?_of_idxOf? hk)) ?_
              simp only [getThingIndex, hg, htop, hk, if_false, Bool.false_eq_true, ground_index]
              omega
  | creature c =>
      cases hk : s.creatures.idxOf? c with
      | none => exact absurd (by simp only [getThingIndex, hk]) h
      | some k =>
          refine found (stack_creature (getElem?_of_idxOf? hk)) ?_
          simp only [getThingIndex, hk, ground_index]
          omega

theorem idxOf?_ne_none {α : Type} [DecidableEq α] {l : List α} {a : α} (h : a ∈ l) :
    ∃ k, l.idxOf? a = some k :=
  Option.isSome_iff_exists.mp (List.isSome_idxOf?.mpr h)

/-- What is on the tile is found where its layer is searched. -/
theorem getThingIndex_ne (hl : s.Layered items) (h : t ∈ s.stack) :
    s.getThingIndex items t ≠ -1 := by
  cases t with
  | item i =>
      by_cases hg : s.ground = some i
      · simp only [getThingIndex, hg, if_true]
        decide
      · have hi := (mem_stack_item.mp h).resolve_left hg
        rcases mem_items.mp hi with hi | hi
        · obtain ⟨k, hk⟩ := idxOf?_ne_none hi
          simp only [getThingIndex, hg, hl.down i hi, hk, if_false, Bool.false_eq_true, ground_index]
          omega
        · obtain ⟨k, hk⟩ := idxOf?_ne_none hi
          simp only [getThingIndex, hg, hl.top i hi, hk, if_true, if_false, ground_index]
          omega
  | creature c =>
      obtain ⟨k, hk⟩ := idxOf?_ne_none (mem_stack_creature.mp h)
      simp only [getThingIndex, hk, ground_index]
      omega

/-- The two functions are inverse to each other between the things on the tile and the
numbers below `getThingCount`. -/
structure IndexBijection (items : UInt16 → ItemType) (s : Tile) : Prop where
  getThing_getThingIndex : ∀ t ∈ s.stack,
    ∃ k : Nat, k < s.getThingCount ∧ s.getThingIndex items t = k ∧ s.getThing k = some t
  getThingIndex_getThing : ∀ k, k < s.getThingCount →
    ∃ t ∈ s.stack, s.getThing k = some t ∧ s.getThingIndex items t = k

theorem indexBijection (h : s.Distinct) (hl : s.Layered items) : s.IndexBijection items := by
  have hback : ∀ t ∈ s.stack,
      ∃ k : Nat, k < s.getThingCount ∧ s.getThingIndex items t = k ∧ s.getThing k = some t := by
    intro t ht
    obtain ⟨k, hk, hget⟩ := getThing_getThingIndex (getThingIndex_ne hl ht)
    have hlt := hget
    rw [getThing_eq, List.getElem?_eq_some_iff] at hlt
    exact ⟨k, stack_length h ▸ hlt.1, hk, hget⟩
  refine ⟨hback, fun k hk => ?_⟩
  rw [← stack_length h] at hk
  have hmem := List.getElem_mem hk
  obtain ⟨k', _, hk', hget⟩ := hback _ hmem
  have hkk' : k = k' := by
    rw [getThing_eq] at hget
    exact (List.getElem?_inj hk h.stack_nodup).mp ((List.getElem?_eq_getElem hk).trans hget.symm)
  refine ⟨_, hmem, (getThing_eq k).trans (List.getElem?_eq_getElem hk), ?_⟩
  rw [hk', hkk']

end Index

/-! ## What a step does to the stack -/

/-- Things go, none comes and none changes its type. -/
structure Shrinks (items : UInt16 → ItemType) (s s' : Tile) : Prop where
  down : s'.down.Sublist s.down
  top : s'.top.Sublist s.top
  count : s'.downItemCount ≤ s'.items.length
  ground : ∀ g, s'.ground = some g → s.ground = some g
  creatures : s'.creatures.Sublist s.creatures
  type : ∀ i, s'.typeOf items i = s.typeOf items i

section Steps

variable {items} {s s' : Tile} {i j : ItemId} {c : CreatureId}

theorem Shrinks.sublist (h : Shrinks items s s') : s'.items.Sublist s.items := by
  rw [← down_append_top (s := s), ← down_append_top (s := s')]
  exact h.down.append h.top

theorem Shrinks.distinct (h : Shrinks items s s') (hd : s.Distinct) : s'.Distinct where
  count := h.count
  small := Nat.le_trans h.sublist.length_le hd.small
  nodup := hd.nodup.sublist h.sublist
  ground g hg hmem := hd.ground g (h.ground g hg) (h.sublist.subset hmem)
  creatures := hd.creatures.sublist h.creatures

theorem Shrinks.layered (h : Shrinks items s s') (hl : s.Layered items) : s'.Layered items where
  down i hi := by rw [h.type]; exact hl.down i (h.down.subset hi)
  top i hi := by rw [h.type]; exact hl.top i (h.top.subset hi)

theorem Shrinks.refl (hd : s.Distinct) : Shrinks items s s :=
  ⟨.refl _, .refl _, hd.count, fun _ h => h, .refl _, fun _ => rfl⟩

/-- Flags are no part of the stack. -/
theorem Shrinks.resetTileFlags (h : Shrinks items s s') :
    Shrinks items s (s'.resetTileFlags items i) :=
  ⟨h.down, h.top, h.count, h.ground, h.creatures, h.type⟩

theorem removeItem_shrinks {count : Nat} (hd : s.Distinct) :
    Shrinks items s (s.removeItem items i count) := by
  rw [removeItem]
  split
  · exact .refl hd
  · split
    · exact Shrinks.resetTileFlags
        ⟨.refl _, .refl _, hd.count, nofun, .refl _, fun _ => rfl⟩
    · split
      · split
        · obtain ⟨hdown, htop⟩ := eraseTop_parts (i := i) hd
          refine Shrinks.resetTileFlags ⟨?_, ?_, ?_, fun _ h => h, .refl _, fun _ => rfl⟩
          · rw [hdown]
          · rw [htop]
            exact List.erase_sublist
          · simp only [setItems, List.length_append, ← hd.down_length]
            omega
        · exact .refl hd
      · split
        · next hi =>
            simp only
            split
            · refine ⟨.refl _, .refl _, hd.count, fun _ h => h, .refl _, fun j => ?_⟩
              simp only [typeOf, Tile.setThing, Function.update_apply]
              split
              · next hj => rw [hj]
              · rfl
            · obtain ⟨hdown, htop⟩ := eraseDown_parts hd hi
              refine Shrinks.resetTileFlags ⟨?_, ?_, ?_, fun _ h => h, .refl _, fun _ => rfl⟩
              · rw [hdown]
                exact List.erase_sublist
              · rw [htop]
              · rw [eraseDown_count hd hi]
                simp only [addDownItemCount, setItems, List.length_append]
                omega
        · exact .refl hd

theorem removeThing_shrinks {t : TileThing} {count : Nat} (hd : s.Distinct) :
    Shrinks items s (s.removeThing items t count) := by
  cases t with
  | item i => exact removeItem_shrinks hd
  | creature c => exact ⟨.refl _, .refl _, hd.count, fun _ h => h, List.erase_sublist, fun _ => rfl⟩

/-- What is put on the tile is not on it yet. -/
def Off (s : Tile) : TileThing → Prop
  | .item i => i ∉ s.contents
  | .creature c => c ∉ s.creatures

theorem mem_contents : i ∈ s.contents ↔ s.ground = some i ∨ i ∈ s.items := by
  simp only [contents, List.mem_append, Option.mem_toList]

theorem insertTop_distinct {p : ItemId → Bool} (hd : s.Distinct) (hoff : i ∉ s.contents)
    (hsmall : s.items.length < 0xFFFF) : (s.insertTop p i).Distinct := by
  have hperm : (s.insertTop p i).items.Perm (i :: s.items) := by
    simp only [insertTop, setItems]
    rw [← down_append_top (s := s)]
    exact ((insertBefore_perm s.top).append_left s.down).trans List.perm_middle
  simp only [mem_contents, not_or] at hoff
  have hlen := hperm.length_eq
  simp only [List.length_cons] at hlen
  have hle := hd.count
  refine ⟨?_, by omega, hperm.nodup_iff.mpr (List.nodup_cons.mpr ⟨hoff.2, hd.nodup⟩),
    fun g hg hmem => ?_, hd.creatures⟩
  · simp only [insertTop, setItems] at hlen ⊢
    omega
  · rcases List.mem_cons.mp (hperm.mem_iff.mp hmem) with rfl | hmem
    · exact hoff.1 hg
    · exact hd.ground g hg hmem

theorem insertDown_distinct (hd : s.Distinct) (hoff : i ∉ s.contents)
    (hsmall : s.items.length < 0xFFFF) : (s.insertDown i).Distinct := by
  simp only [mem_contents, not_or] at hoff
  have hle := hd.count
  have hcount := insertDown_count (i := i) hd hsmall
  refine ⟨?_, hsmall, List.nodup_cons.mpr ⟨hoff.2, hd.nodup⟩, fun g hg hmem => ?_, hd.creatures⟩
  · rw [hcount]
    simp only [insertDown, addDownItemCount, setItems, List.length_cons]
    omega
  · rcases List.mem_cons.mp hmem with rfl | hmem
    · exact hoff.1 hg
    · exact hd.ground g hg hmem

theorem insertTop_layered {p : ItemId → Bool} (hd : s.Distinct) (hl : s.Layered items)
    (htop : (s.typeOf items i).alwaysOnTop = true) : (s.insertTop p i).Layered items := by
  obtain ⟨hdown, htop'⟩ := insertTop_parts (p := p) (i := i) hd
  refine ⟨fun j hj => ?_, fun j hj => ?_⟩
  · rw [hdown] at hj
    exact hl.down j hj
  · rw [htop', (insertBefore_perm s.top).mem_iff, List.mem_cons] at hj
    rcases hj with rfl | hj
    · exact htop
    · exact hl.top j hj

theorem insertDown_layered (hd : s.Distinct) (hl : s.Layered items)
    (hsmall : s.items.length < 0xFFFF) (hdown : (s.typeOf items i).alwaysOnTop = false) :
    (s.insertDown i).Layered items := by
  obtain ⟨hdown', htop⟩ := insertDown_parts (i := i) hd hsmall
  refine ⟨fun j hj => ?_, fun j hj => ?_⟩
  · rw [hdown', List.mem_cons] at hj
    rcases hj with rfl | hj
    · exact hdown
    · exact hl.down j hj
  · rw [htop] at hj
    exact hl.top j hj

theorem ground_distinct (hd : s.Distinct) (hoff : i ∉ s.contents) :
    { s with ground := some i }.Distinct := by
  simp only [mem_contents, not_or] at hoff
  refine ⟨hd.count, hd.small, hd.nodup, fun g hg => ?_, hd.creatures⟩
  cases hg
  exact hoff.2

theorem creature_distinct (hd : s.Distinct) (hoff : c ∉ s.creatures) :
    { s with creatures := c :: s.creatures }.Distinct :=
  ⟨hd.count, hd.small, hd.nodup, hd.ground, List.nodup_cons.mpr ⟨hoff, hd.creatures⟩⟩

/-- Flags are no part of what the two invariants are about. -/
theorem Distinct.setTileFlags (h : s.Distinct) : (s.setTileFlags items i).Distinct :=
  ⟨h.count, h.small, h.nodup, h.ground, h.creatures⟩

theorem Distinct.resetTileFlags (h : s.Distinct) : (s.resetTileFlags items i).Distinct :=
  ⟨h.count, h.small, h.nodup, h.ground, h.creatures⟩

theorem Layered.setTileFlags (h : s.Layered items) : (s.setTileFlags items i).Layered items :=
  ⟨h.down, h.top⟩

theorem Layered.resetTileFlags (h : s.Layered items) : (s.resetTileFlags items i).Layered items :=
  ⟨h.down, h.top⟩

theorem Shrinks.off (h : Shrinks items s s') (hoff : i ∉ s.contents) : i ∉ s'.contents := by
  simp only [mem_contents, not_or] at hoff ⊢
  exact ⟨fun hg => hoff.1 (h.ground i hg), fun hi => hoff.2 (h.sublist.subset hi)⟩

/-- What an insertion does once the old splash or the old field is gone. -/
structure Inserts (items : UInt16 → ItemType) (s s' : Tile) : Prop where
  distinct : s'.Distinct
  layered : s.Layered items → s'.Layered items

theorem Shrinks.insertTop {p : ItemId → Bool} (h : Shrinks items s s') (hd : s.Distinct)
    (hoff : i ∉ s.contents) (hsmall : s.items.length < 0xFFFF)
    (htop : (s.typeOf items i).alwaysOnTop = true) :
    Inserts items s ((s'.insertTop p i).setTileFlags items i) := by
  have hsmall' := Nat.lt_of_le_of_lt h.sublist.length_le hsmall
  refine ⟨(insertTop_distinct (h.distinct hd) (h.off hoff) hsmall').setTileFlags, fun hl => ?_⟩
  exact (insertTop_layered (h.distinct hd) (h.layered hl) (by rw [h.type, htop])).setTileFlags

theorem Shrinks.insertDown (h : Shrinks items s s') (hd : s.Distinct) (hoff : i ∉ s.contents)
    (hsmall : s.items.length < 0xFFFF) (hdown : (s.typeOf items i).alwaysOnTop = false) :
    Inserts items s ((s'.insertDown i).setTileFlags items i) := by
  have hsmall' := Nat.lt_of_le_of_lt h.sublist.length_le hsmall
  refine ⟨(insertDown_distinct (h.distinct hd) (h.off hoff) hsmall').setTileFlags, fun hl => ?_⟩
  exact (insertDown_layered (h.distinct hd) (h.layered hl) hsmall'
    (by rw [h.type, hdown])).setTileFlags

theorem addItem_inserts (hd : s.Distinct) (hoff : i ∉ s.contents) :
    Inserts items s (s.addItem items i) := by
  rw [addItem]
  split
  · exact ⟨hd, id⟩
  · next hsmall =>
      simp only
      split
      · cases hg : s.ground with
        | none => exact ⟨(ground_distinct hd hoff).setTileFlags, fun hl => ⟨hl.down, hl.top⟩⟩
        | some g =>
            exact ⟨(ground_distinct hd hoff).resetTileFlags.setTileFlags,
              fun hl => ⟨hl.down, hl.top⟩⟩
      · split
        · next htop =>
            refine Shrinks.insertTop ?_ hd hoff (by omega) htop
            split
            · exact .refl hd
            · exact removeItem_shrinks hd
        · next htop =>
            have hdown := Bool.eq_false_iff.mpr htop
            split
            · exact (Shrinks.refl hd).insertDown hd hoff (by omega) hdown
            · split
              · exact (removeItem_shrinks hd).insertDown hd hoff (by omega) hdown
              · exact ⟨hd, id⟩

theorem internalAddThing_inserts (hd : s.Distinct) {t : TileThing} (hoff : s.Off t) :
    Inserts items s (s.internalAddThing items t) := by
  cases t with
  | creature c => exact ⟨creature_distinct hd hoff, fun hl => ⟨hl.down, hl.top⟩⟩
  | item i =>
      simp only [internalAddThing]
      split
      · cases hg : s.ground with
        | none => exact ⟨(ground_distinct hd hoff).setTileFlags, fun hl => ⟨hl.down, hl.top⟩⟩
        | some g => exact ⟨hd, id⟩
      · split
        · exact ⟨hd, id⟩
        · next hsmall =>
            split
            · next htop => exact (Shrinks.refl hd).insertTop hd hoff (by omega) htop
            · next htop =>
                exact (Shrinks.refl hd).insertDown hd hoff (by omega) (Bool.eq_false_iff.mpr htop)

theorem addThing_inserts (hd : s.Distinct) {t : TileThing} (hoff : s.Off t) :
    Inserts items s (s.addThing items t) := by
  cases t with
  | creature c => exact ⟨creature_distinct hd hoff, fun hl => ⟨hl.down, hl.top⟩⟩
  | item i => exact addItem_inserts hd hoff

theorem updateThing_distinct {itemId : UInt16} {count duration : Nat} (hd : s.Distinct) :
    (s.updateThing items i itemId count duration).Distinct := by
  rw [updateThing]
  split
  · exact hd
  · exact ⟨hd.count, hd.small, hd.nodup, hd.ground, hd.creatures⟩

theorem updateThing_layered {itemId : UInt16} {count duration : Nat} (hl : s.Layered items)
    (hsame : i ∈ s.items → (items itemId).alwaysOnTop = (s.typeOf items i).alwaysOnTop) :
    (s.updateThing items i itemId count duration).Layered items := by
  rw [updateThing]
  split
  · exact hl
  · have htype : ∀ (t : TileItem) j, t.id = itemId → j ∈ s.items →
        (items (Function.update s.thing i t j).id).alwaysOnTop =
          (s.typeOf items j).alwaysOnTop := by
      intro t j ht hj
      rw [Function.update_apply]
      split
      · next heq =>
          subst heq
          rw [ht, hsame hj]
      · rfl
    refine ⟨fun j hj => ?_, fun j hj => ?_⟩
    · exact (htype _ j rfl (mem_items.mpr (.inl hj))).trans (hl.down j hj)
    · exact (htype _ j rfl (mem_items.mpr (.inr hj))).trans (hl.top j hj)

/-- Where `replaceThing` puts an item, and what was there. -/
theorem putAbove_cases {pos : Nat} (h : s.putAbove pos i = some (j, s')) :
    s.getThingAbove pos = some (.item j) ∧
      ((∃ pos, s.top[pos]? = some j ∧
          s' = s.setItems (s.items.set (s.downItemCount + pos) i)) ∨
        ∃ pos, s.down[pos]? = some j ∧ s' = s.setItems (s.items.set pos i)) := by
  rw [putAbove] at h
  split at h
  · next k hpos =>
      cases h
      refine ⟨?_, .inl ⟨_, hpos, rfl⟩⟩
      rw [getThingAbove, if_pos (List.getElem?_eq_some_iff.mp hpos).1, ← List.getElem?_drop]
      exact congrArg (Option.map TileThing.item) hpos
  · next htop =>
      simp only at h
      split at h
      · cases h
      · next hcreature =>
          split at h
          · next k hpos =>
              cases h
              refine ⟨?_, .inr ⟨_, hpos, rfl⟩⟩
              rw [getThingAbove_eq, List.getElem?_append_right, List.getElem?_append_right,
                List.length_map, List.length_map, List.getElem?_map, hpos]
              · rfl
              · rw [List.length_map, List.length_map]
                omega
              · rw [List.length_map]
                exact List.getElem?_eq_none_iff.mp htop
          · cases h

theorem putAt_cases {index : Nat} (h : s.putAt index i = some (j, s')) :
    s.getThing index = some (.item j) ∧
      ((s.ground = some j ∧ s' = { s with ground := some i }) ∨
        (∃ pos, s.top[pos]? = some j ∧
          s' = s.setItems (s.items.set (s.downItemCount + pos) i)) ∨
        ∃ pos, s.down[pos]? = some j ∧ s' = s.setItems (s.items.set pos i)) := by
  rw [putAt] at h
  rw [getThing]
  cases hg : s.ground with
  | none =>
      simp only [hg] at h
      obtain ⟨hget, hput⟩ := putAbove_cases h
      exact ⟨hget, .inr hput⟩
  | some g =>
      simp only [hg] at h
      split at h
      · next hzero =>
          cases h
          exact ⟨if_pos hzero, .inl ⟨rfl, rfl⟩⟩
      · next hzero =>
          simp only [hzero, if_false]
          obtain ⟨hget, hput⟩ := putAbove_cases h
          exact ⟨hget, .inr hput⟩

/-- How a replacement keeps the invariants: the old item's place takes the new one. -/
theorem putAt_distinct {index : Nat} (hd : s.Distinct) (hoff : i ∉ s.contents)
    (h : s.putAt index i = some (j, s')) : s'.Distinct := by
  simp only [mem_contents, not_or] at hoff
  have hset : ∀ pos, (s.setItems (s.items.set pos i)).Distinct := by
    intro pos
    have hlen : (s.items.set pos i).length = s.items.length := List.length_set
    refine ⟨hlen ▸ hd.count, hlen ▸ hd.small, hd.nodup.set hoff.2, fun g hg hmem => ?_, hd.creatures⟩
    rcases List.mem_or_eq_of_mem_set hmem with hmem | rfl
    · exact hd.ground g hg hmem
    · exact hoff.1 hg
  rcases (putAt_cases h).2 with ⟨_, rfl⟩ | ⟨pos, _, rfl⟩ | ⟨pos, _, rfl⟩
  · refine ⟨hd.count, hd.small, hd.nodup, fun g hg => ?_, hd.creatures⟩
    cases hg
    exact hoff.2
  · exact hset _
  · exact hset _

theorem putAt_layered {index : Nat} (hd : s.Distinct) (hl : s.Layered items)
    (h : s.putAt index i = some (j, s'))
    (hsame : j ∈ s.items → (s.typeOf items i).alwaysOnTop = (s.typeOf items j).alwaysOnTop) :
    s'.Layered items := by
  rcases (putAt_cases h).2 with ⟨_, rfl⟩ | ⟨pos, hpos, rfl⟩ | ⟨pos, hpos, rfl⟩
  · exact ⟨hl.down, hl.top⟩
  · have hj := List.mem_of_getElem? hpos
    obtain ⟨hdown, htop⟩ := setTop_parts (i := i) hd pos
    refine ⟨fun k hk => ?_, fun k hk => ?_⟩
    · rw [hdown] at hk
      exact hl.down k hk
    · rw [htop] at hk
      rcases List.mem_or_eq_of_mem_set hk with hk | rfl
      · exact hl.top k hk
      · exact (hsame (mem_items.mpr (.inr hj))).trans (hl.top j hj)
  · have hj := List.mem_of_getElem? hpos
    obtain ⟨hdown, htop⟩ := setDown_parts (i := i) hd (List.getElem?_eq_some_iff.mp hpos).1
    refine ⟨fun k hk => ?_, fun k hk => ?_⟩
    · rw [hdown] at hk
      rcases List.mem_or_eq_of_mem_set hk with hk | rfl
      · exact hl.down k hk
      · exact (hsame (mem_items.mpr (.inl hj))).trans (hl.down j hj)
    · rw [htop] at hk
      exact hl.top k hk

theorem replaceThing_distinct {index : Nat} (hd : s.Distinct) (hoff : i ∉ s.contents) :
    (s.replaceThing items index i).Distinct := by
  rw [replaceThing]
  split
  · exact hd
  · next hput => exact (putAt_distinct hd hoff hput).resetTileFlags.setTileFlags

theorem replaceThing_layered {index : Nat} (hd : s.Distinct) (hl : s.Layered items)
    (hsame : ∀ j, s.getThing index = some (.item j) → j ∈ s.items →
      (s.typeOf items i).alwaysOnTop = (s.typeOf items j).alwaysOnTop) :
    (s.replaceThing items index i).Layered items := by
  rw [replaceThing]
  split
  · exact hl
  · next hput =>
      have hlayered := putAt_layered hd hl hput (hsame _ (putAt_cases hput).1)
      exact hlayered.resetTileFlags.setTileFlags

end Steps

/-! ## Runs -/

/-- `change` is what happens to an item elsewhere. -/
inductive Op where
  | change (i : ItemId) (t : TileItem)
  | addThing (t : TileThing)
  | internalAddThing (t : TileThing)
  | updateThing (i : ItemId) (itemId : UInt16) (count duration : Nat)
  | replaceThing (index : Nat) (i : ItemId)
  | removeThing (t : TileThing) (count : Nat)

def step (s : Tile) : Op → Tile
  | .change i t => s.setThing i t
  | .addThing t => s.addThing items t
  | .internalAddThing t => s.internalAddThing items t
  | .updateThing i itemId count duration => s.updateThing items i itemId count duration
  | .replaceThing index i => s.replaceThing items index i
  | .removeThing t count => s.removeThing items t count

/-- What comes to the tile is not on it already. -/
def Fresh (s : Tile) : Op → Prop
  | .change i _ => s.Off (.item i)
  | .addThing t => s.Off t
  | .internalAddThing t => s.Off t
  | .replaceThing _ i => s.Off (.item i)
  | _ => True

/-- An item beside the ground is not exchanged, nor turned, between the down items and the
top items; for that `Game::transformItem` removes and adds. -/
def KeepsLayer (s : Tile) : Op → Prop
  | .updateThing i itemId _ _ =>
      i ∈ s.items → (items itemId).alwaysOnTop = (s.typeOf items i).alwaysOnTop
  | .replaceThing index i => ∀ j, s.getThing index = some (.item j) → j ∈ s.items →
      (s.typeOf items i).alwaysOnTop = (s.typeOf items j).alwaysOnTop
  | _ => True

/-- A tile that nothing was put on yet. -/
def empty (thing : ItemId → TileItem) : Tile where
  thing := thing
  ground := none
  items := []
  downItemCount := 0
  creatures := []
  floorChange _ := false
  flags _ := false

/-- The tiles that steps with a property lead to. -/
inductive Reachable (P : Tile → Op → Prop) : Tile → Prop where
  | empty (thing : ItemId → TileItem) : Reachable P (empty thing)
  | step {s : Tile} {op : Op} : Reachable P s → P s op → Reachable P (s.step items op)

section Runs

variable {items} {s : Tile} {op : Op} {P : Tile → Op → Prop}

theorem step_distinct (hd : s.Distinct) (hfresh : s.Fresh op) : (s.step items op).Distinct := by
  cases op with
  | change i t => exact ⟨hd.count, hd.small, hd.nodup, hd.ground, hd.creatures⟩
  | addThing t => exact (addThing_inserts hd hfresh).distinct
  | internalAddThing t => exact (internalAddThing_inserts hd hfresh).distinct
  | updateThing i itemId count duration => exact updateThing_distinct hd
  | replaceThing index i => exact replaceThing_distinct hd hfresh
  | removeThing t count => exact (removeThing_shrinks hd).distinct hd

theorem change_layered {i : ItemId} {t : TileItem} (hl : s.Layered items)
    (hoff : i ∉ s.contents) : (s.setThing i t).Layered items := by
  simp only [mem_contents, not_or] at hoff
  have htype : ∀ j ∈ s.items, (s.setThing i t).typeOf items j = s.typeOf items j := by
    intro j hj
    simp only [typeOf, setThing]
    rw [Function.update_of_ne]
    rintro rfl
    exact hoff.2 hj
  refine ⟨fun j hj => ?_, fun j hj => ?_⟩
  · rw [htype j (mem_items.mpr (.inl hj))]
    exact hl.down j hj
  · rw [htype j (mem_items.mpr (.inr hj))]
    exact hl.top j hj

theorem step_layered (hd : s.Distinct) (hl : s.Layered items) (hfresh : s.Fresh op)
    (hkeeps : s.KeepsLayer items op) : (s.step items op).Layered items := by
  cases op with
  | change i t => exact change_layered hl hfresh
  | addThing t => exact (addThing_inserts hd hfresh).layered hl
  | internalAddThing t => exact (internalAddThing_inserts hd hfresh).layered hl
  | updateThing i itemId count duration => exact updateThing_layered hl hkeeps
  | replaceThing index i => exact replaceThing_layered hd hl hkeeps
  | removeThing t count => exact (removeThing_shrinks hd).layered hl

theorem empty_distinct (thing : ItemId → TileItem) : (empty thing).Distinct :=
  ⟨Nat.le_refl 0, Nat.zero_le _, List.nodup_nil, nofun, List.nodup_nil⟩

theorem Reachable.distinct (hP : ∀ {s op}, P s op → s.Fresh op) (h : Reachable items P s) :
    s.Distinct := by
  induction h with
  | empty thing => exact empty_distinct thing
  | step _ hop ih => exact step_distinct ih (hP hop)

theorem Reachable.layered (hP : ∀ {s op}, P s op → s.Fresh op ∧ s.KeepsLayer items op)
    (h : Reachable items P s) : s.Layered items := by
  induction h with
  | empty thing => exact ⟨nofun, nofun⟩
  | step hs hop ih => exact step_layered (hs.distinct fun h => (hP h).1) ih (hP hop).1 (hP hop).2

/-- The down items are counted right when they are those that are not always on top. -/
theorem downItemCount_eq (hd : s.Distinct) (hl : s.Layered items) :
    s.downItemCount = s.items.countP fun i => !(s.typeOf items i).alwaysOnTop := by
  rw [← down_append_top (s := s), List.countP_append, List.countP_eq_length.mpr,
    List.countP_eq_zero.mpr, Nat.add_zero, hd.down_length]
  · intro i hi
    simp only [hl.top i hi, Bool.not_true, Bool.false_eq_true, not_false_eq_true]
  · intro i hi
    simp only [hl.down i hi, Bool.not_false]

end Runs

/-- The indices go there and back; the down items are counted right, and none of them comes
behind a top item. -/
structure WellStacked (items : UInt16 → ItemType) (s : Tile) : Prop where
  index : s.IndexBijection items
  count : s.downItemCount = s.items.countP fun i => !(s.typeOf items i).alwaysOnTop
  order : s.items.Pairwise fun i j =>
    (s.typeOf items j).alwaysOnTop = false → (s.typeOf items i).alwaysOnTop = false

theorem order_of_layered {s : Tile} (hl : s.Layered items) :
    s.items.Pairwise fun i j =>
      (s.typeOf items j).alwaysOnTop = false → (s.typeOf items i).alwaysOnTop = false := by
  rw [← down_append_top (s := s), List.pairwise_append]
  refine ⟨List.pairwise_of_forall_mem_list fun i hi j _ _ => hl.down i hi,
    List.pairwise_of_forall_mem_list fun i _ j hj h => ?_, fun i hi j _ _ => hl.down i hi⟩
  rw [hl.top j hj] at h
  cases h

theorem stack_index_bijection {s : Tile}
    (h : Reachable items (fun s op => s.Fresh op ∧ s.KeepsLayer items op) s) :
    s.WellStacked items := by
  have hd : s.Distinct := h.distinct And.left
  have hl : s.Layered items := h.layered id
  exact ⟨indexBijection hd hl, downItemCount_eq hd hl, order_of_layered items hl⟩

/-- Type 1 is a ground, type 2 is always on top. -/
def fewTypes (id : UInt16) : ItemType :=
  if id = 1 then { group := .ground } else { alwaysOnTop := id = 2 }

def plainItem (id : UInt16) : TileItem where
  id := id
  cls := .item
  data := { Item.bare with count := 1 }

/-- Item 1 is a ground, item 2 is always on top. -/
def fewItems (i : ItemId) : TileItem := plainItem (if i = 1 then 1 else if i = 2 then 2 else 0)

/-- A ground, a down item, a top item and a creature come to a tile, and the down item turns
into another one. -/
theorem stack_index_bijection_four :
    let ops : List Op := [.addThing (.item 1), .addThing (.item 3), .addThing (.item 2),
      .addThing (.creature 7), .updateThing 3 5 1 0]
    let s := ops.foldl (step fewTypes) (empty fewItems)
    s.stack = [.item 1, .item 2, .creature 7, .item 3] ∧ s.WellStacked fewTypes := by
  refine ⟨by decide +kernel, stack_index_bijection fewTypes ?_⟩
  simp only [List.foldl_cons, List.foldl_nil]
  refine .step (.step (.step (.step (.step (.empty fewItems) ?_) ?_) ?_) ?_) ?_
  · exact ⟨show (1 : ItemId) ∉ _ by decide +kernel, trivial⟩
  · exact ⟨show (3 : ItemId) ∉ _ by decide +kernel, trivial⟩
  · exact ⟨show (2 : ItemId) ∉ _ by decide +kernel, trivial⟩
  · exact ⟨show (7 : CreatureId) ∉ _ by decide +kernel, trivial⟩
  · exact ⟨trivial, fun _ => by decide +kernel⟩

/-- A down item that turns into one that is always on top stays among the down items, and is
not found any more. -/
theorem stack_index_bijection_fails :
    ¬ ∀ (items : UInt16 → ItemType) (s : Tile),
      Reachable items (fun s op => s.Fresh op) s → s.WellStacked items := by
  intro h
  have hreach : Reachable fewTypes (fun s op => s.Fresh op)
      (((empty fewItems).step fewTypes (.addThing (.item 3))).step fewTypes
        (.updateThing 3 2 1 0)) :=
    .step (.step (.empty fewItems) (show (3 : ItemId) ∉ _ by decide +kernel)) trivial
  exact absurd (h _ _ hreach).count (by decide +kernel)

end Tile

end Bruxo.TileStack
