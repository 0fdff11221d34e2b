import Bruxo.Map
import Bruxo.Position
import Mathlib.Data.List.Nodup
import Mathlib.Data.List.Perm.Basic

/-!
# Creatures on the map and the search for spectators

Each leaf of the quadtree lists the creatures in its block, and the players among them
(`QTreeLeafNode::addCreature`, `removeCreature`); `Map::placeCreature`, `Map::moveCreature`
and `Tile::removeCreature` keep the lists. `Map::getSpectatorsInternal` walks the leaves
from block to block, along the links to the south and the east.

Where a creature is placed is the position of the tile that `placeCreature` found for it.
The 32-bit sums of the search are numbers without bound: the ranges asked for are far from
where they would overflow.
-/

namespace Bruxo.Spectators

abbrev CreatureId := Nat

/-- `creatures` are those of the tile at a position, `tile` is the position of the tile a
creature was set on last, and `removed` is `isInternalRemoved`. -/
structure CreatureMap (α : Type) where
  map : Map α
  creatureList : LeafId → List CreatureId
  playerList : LeafId → List CreatureId
  creatures : Position → List CreatureId
  tile : CreatureId → Option Position
  removed : CreatureId → Bool

/-- `*iter = list.back(); list.pop_back();` for the element that was found. -/
def swapRemove (l : List CreatureId) (c : CreatureId) : List CreatureId :=
  match l.idxOf? c, l.getLast? with
  | some k, some last => (l.set k last).dropLast
  | _, _ => l

namespace CreatureMap

variable {α : Type} (isPlayer : CreatureId → Bool) (s : CreatureMap α)

/-! ## Creatures -/

def getQTNode (pos : Position) : Option LeafId :=
  s.map.root.getLeafStatic pos.x.toUInt32 pos.y.toUInt32

def addCreature (leaf : LeafId) (c : CreatureId) : CreatureMap α :=
  { s with
    creatureList := Function.update s.creatureList leaf (s.creatureList leaf ++ [c])
    playerList :=
      if isPlayer c then Function.update s.playerList leaf (s.playerList leaf ++ [c])
      else s.playerList }

def removeCreature (leaf : LeafId) (c : CreatureId) : CreatureMap α :=
  { s with
    creatureList := Function.update s.creatureList leaf (swapRemove (s.creatureList leaf) c)
    playerList :=
      if isPlayer c then Function.update s.playerList leaf (swapRemove (s.playerList leaf) c)
      else s.playerList }

/-- `Tile::addThing` and `Tile::internalAddThing` of a creature. -/
def addThing (pos : Position) (c : CreatureId) : CreatureMap α :=
  { s with
    tile := Function.update s.tile c (some pos)
    creatures := Function.update s.creatures pos (c :: s.creatures pos) }

/-- `Tile::removeThing` of a creature. -/
def removeThing (pos : Position) (c : CreatureId) : CreatureMap α :=
  { s with creatures := Function.update s.creatures pos ((s.creatures pos).erase c) }

/-- `Game::internalPlaceCreature`, where `dest` is the tile that was found. -/
def placeCreature (dest : Position) (c : CreatureId) : CreatureMap α :=
  if (s.tile c).isSome then s
  else
    match s.getQTNode dest with
    | none => s
    | some leaf => (s.addThing dest c).addCreature isPlayer leaf c

/-- "Switch the node ownership" -/
def switchLeaf (leaf newLeaf : LeafId) (c : CreatureId) : CreatureMap α :=
  if leaf ≠ newLeaf then (s.removeCreature isPlayer leaf c).addCreature isPlayer newLeaf c else s

def moveCreature (c : CreatureId) (newPos : Position) : CreatureMap α :=
  match s.tile c with
  | none => s
  | some oldPos =>
      if c ∉ s.creatures oldPos then s
      else
        match s.getQTNode oldPos, s.getQTNode newPos with
        | some leaf, some newLeaf =>
            ((s.removeThing oldPos c).switchLeaf isPlayer leaf newLeaf c).addThing newPos c
        | _, _ => s

/-- `Game::removeCreature` with `Tile::removeCreature`. -/
def takeCreature (c : CreatureId) : CreatureMap α :=
  if s.removed c then s
  else
    match s.tile c with
    | none => s
    | some pos =>
        match s.getQTNode pos with
        | none => s
        | some leaf =>
            let s := (s.removeCreature isPlayer leaf c).removeThing pos c
            { s with removed := Function.update s.removed c true }

def setTile (x y : UInt16) (z : UInt8) (newTile : α) : CreatureMap α :=
  { s with map := (s.map.setTile x y z newTile).1 }

/-! ## The search -/

structure Range where
  minX : Int
  maxX : Int
  minY : Int
  maxY : Int
  minZ : Int
  maxZ : Int

/-- The tests of `getSpectatorsInternal`; `offsetZ` is `centerPos.getOffsetZ(cpos)`. -/
def inRange (centerPos : Position) (range : Range) (cpos : Position) : Bool :=
  let x : Int := cpos.x.toNat
  let y : Int := cpos.y.toNat
  let z : Int := cpos.z.toNat
  let offsetZ : Int := centerPos.z.toNat - z
  !(range.minZ > z || range.maxZ < z) &&
    !(centerPos.y.toNat + range.minY + offsetZ > y || centerPos.y.toNat + range.maxY + offsetZ < y ||
      centerPos.x.toNat + range.minX + offsetZ > x || centerPos.x.toNat + range.maxX + offsetZ < x)

/-- `std::min<uint32_t>(0xFFFF, std::max<int32_t>(0, v))` -/
def clamp (v : Int) : Nat := min 0xFFFF (max 0 v).toNat

/-- The values of `for (n = first; n <= last; n += FLOOR_SIZE)`. -/
def steps (first last : Nat) : List Nat :=
  List.range' first ((last + floorSize - first) / floorSize) floorSize

def getPosition (c : CreatureId) : Position := (s.tile c).getD ⟨0, 0, 0⟩

def nodeList (onlyPlayers : Bool) : LeafId → List CreatureId :=
  if onlyPlayers then s.playerList else s.creatureList

def getLeafStatic (x y : Nat) : Option LeafId :=
  s.map.root.getLeafStatic (UInt32.ofNat x) (UInt32.ofNat y)

section Search

variable (centerPos : Position) (range : Range) (onlyPlayers : Bool)

/-- What the search adds from a leaf. -/
def found (leaf : LeafId) : List CreatureId :=
  (s.nodeList onlyPlayers leaf).filter fun c => inRange centerPos range (s.getPosition c)

/-- The loop over `nx`. -/
def searchRow (ny : Nat) : List Nat → Option LeafId → List CreatureId → List CreatureId
  | [], _, spectators => spectators
  | _ :: xs, some leaf, spectators =>
      searchRow ny xs (s.map.leaves leaf).leafE
        (spectators ++ s.found centerPos range onlyPlayers leaf)
  | nx :: xs, none, spectators =>
      searchRow ny xs (s.getLeafStatic (nx + floorSize) ny) spectators

/-- The loop over `ny`. -/
def searchRows (startx1 endx2 : Nat) :
    List Nat → Option LeafId → List CreatureId → List CreatureId
  | [], _, spectators => spectators
  | ny :: ys, leafS, spectators =>
      let spectators :=
        s.searchRow centerPos range onlyPlayers ny (steps startx1 endx2) leafS spectators
      let leafS := match leafS with
        | some leaf => (s.map.leaves leaf).leafS
        | none => s.getLeafStatic startx1 (ny + floorSize)
      searchRows startx1 endx2 ys leafS spectators

def getSpectatorsInternal (spectators : List CreatureId) : List CreatureId :=
  let minoffset : Int := centerPos.z.toNat - range.maxZ
  let x1 := clamp (centerPos.x.toNat + range.minX + minoffset)
  let y1 := clamp (centerPos.y.toNat + range.minY + minoffset)
  let maxoffset : Int := centerPos.z.toNat - range.minZ
  let x2 := clamp (centerPos.x.toNat + range.maxX + maxoffset)
  let y2 := clamp (centerPos.y.toNat + range.maxY + maxoffset)
  let startx1 := x1 - x1 % floorSize
  let starty1 := y1 - y1 % floorSize
  let endx2 := x2 - x2 % floorSize
  let endy2 := y2 - y2 % floorSize
  s.searchRows centerPos range onlyPlayers startx1 endx2 (steps starty1 endy2)
    (s.getLeafStatic startx1 starty1) spectators

end Search

/-! ## The lists of the leaves -/

theorem swapRemove_perm {l : List CreatureId} {c : CreatureId} (h : c ∈ l) :
    (swapRemove l c).Perm (l.erase c) := by
  obtain ⟨k, hk⟩ := Option.isSome_iff_exists.mp (List.isSome_idxOf?.mpr h)
  obtain ⟨hlt, hc, _⟩ := List.idxOf?_eq_some_iff.mp hk
  obtain ⟨last, hlast⟩ := Option.isSome_iff_exists.mp
    (List.getLast?_isSome.mpr (List.ne_nil_of_mem h))
  have hset : (l.set k last).getLast? = some last := by
    rw [List.getLast?_eq_getElem?, List.length_set, List.getElem?_set]
    rw [List.getLast?_eq_getElem?] at hlast
    split
    · rfl
    · exact hlast
  have hsplit : (l.set k last).dropLast ++ [last] = l.set k last :=
    List.dropLast_append_getLast? last hset
  have hperm : (last :: (l.set k last).dropLast).Perm (last :: l.eraseIdx k) := by
    refine (List.perm_append_singleton last _).symm.trans ?_
    rw [hsplit]
    exact List.set_perm_cons_eraseIdx hlt last
  have herase : l.erase c = l.eraseIdx k := List.erase_eq_eraseIdx_of_idxOf (by
    rw [List.idxOf_eq_getD_idxOf?, hk]
    rfl)
  rw [swapRemove, hk, hlast, herase]
  exact hperm.cons_inv

/-- The lists hold what `p` says, each creature once. -/
structure Listed (isPlayer : CreatureId → Bool) (s : CreatureMap α)
    (p : LeafId → CreatureId → Prop) : Prop where
  nodup : ∀ leaf, (s.creatureList leaf).Nodup
  playerNodup : ∀ leaf, (s.playerList leaf).Nodup
  mem : ∀ leaf c, c ∈ s.creatureList leaf ↔ p leaf c
  mem_player : ∀ leaf c, c ∈ s.playerList leaf ↔ p leaf c ∧ isPlayer c = true

section Lists

variable {isPlayer} {s : CreatureMap α} {p q : LeafId → CreatureId → Prop} {leaf : LeafId}
  {c : CreatureId}

theorem Listed.congr (h : Listed isPlayer s p) (hpq : ∀ leaf c, p leaf c ↔ q leaf c) :
    Listed isPlayer s q where
  nodup := h.nodup
  playerNodup := h.playerNodup
  mem leaf c := by rw [h.mem, hpq]
  mem_player leaf c := by rw [h.mem_player, hpq]

/-- Only the lists matter. -/
theorem Listed.of_lists {s' : CreatureMap α} (h : Listed isPlayer s p)
    (hcreature : s'.creatureList = s.creatureList) (hplayer : s'.playerList = s.playerList) :
    Listed isPlayer s' p := by
  refine ⟨?_, ?_, ?_, ?_⟩
  · rw [hcreature]
    exact h.nodup
  · rw [hplayer]
    exact h.playerNodup
  · rw [hcreature]
    exact h.mem
  · rw [hplayer]
    exact h.mem_player

theorem push_spec {lists : LeafId → List CreatureId} (hnodup : ∀ leaf, (lists leaf).Nodup)
    (hnew : c ∉ lists leaf) :
    (∀ l, (Function.update lists leaf (lists leaf ++ [c]) l).Nodup) ∧
      ∀ l d, d ∈ Function.update lists leaf (lists leaf ++ [c]) l ↔
        d ∈ lists l ∨ (d = c ∧ l = leaf) := by
  refine ⟨fun l => ?_, fun l d => ?_⟩
  · rw [Function.update_apply]
    split
    · exact List.nodup_append.mpr ⟨hnodup leaf, List.nodup_singleton c, fun a ha b hb => by
        rw [List.mem_singleton.mp hb]
        rintro rfl
        exact hnew ha⟩
    · exact hnodup l
  · rw [Function.update_apply]
    split
    · next hl => simp only [hl, List.mem_append, List.mem_singleton, and_true]
    · next hl => simp only [hl, and_false, or_false]

theorem swapRemove_spec {lists : LeafId → List CreatureId} (hnodup : ∀ leaf, (lists leaf).Nodup)
    (hold : c ∈ lists leaf) :
    (∀ l, (Function.update lists leaf (swapRemove (lists leaf) c) l).Nodup) ∧
      ∀ l d, d ∈ Function.update lists leaf (swapRemove (lists leaf) c) l ↔
        d ∈ lists l ∧ ¬ (d = c ∧ l = leaf) := by
  have hperm := swapRemove_perm hold
  refine ⟨fun l => ?_, fun l d => ?_⟩
  · rw [Function.update_apply]
    split
    · exact hperm.nodup_iff.mpr ((hnodup leaf).erase c)
    · exact hnodup l
  · rw [Function.update_apply]
    split
    · next hl =>
        rw [hperm.mem_iff, (hnodup leaf).mem_erase_iff, hl]
        simp only [and_true]
        exact and_comm
    · next hl => simp only [hl, and_false, not_false_eq_true, and_true]

theorem Listed.addCreature (h : Listed isPlayer s p) (hnew : ¬ p leaf c) :
    Listed isPlayer (s.addCreature isPlayer leaf c)
      fun l d => p l d ∨ (d = c ∧ l = leaf) := by
  obtain ⟨hnodup, hmem⟩ := push_spec h.nodup (by rwa [h.mem])
  refine ⟨hnodup, fun l => ?_, fun l d => ?_, fun l d => ?_⟩
  · simp only [CreatureMap.addCreature]
    split
    · exact (push_spec h.playerNodup (by rw [h.mem_player]; exact fun hp => hnew hp.1)).1 l
    · exact h.playerNodup l
  · rw [← h.mem]
    exact hmem l d
  · simp only [CreatureMap.addCreature]
    split
    · next hc =>
        rw [(push_spec h.playerNodup (by rw [h.mem_player]; exact fun hp => hnew hp.1)).2,
          h.mem_player]
        constructor
        · rintro (⟨hp, hd⟩ | ⟨rfl, hl⟩)
          · exact ⟨.inl hp, hd⟩
          · exact ⟨.inr ⟨rfl, hl⟩, hc⟩
        · rintro ⟨hp | hl, hd⟩
          · exact .inl ⟨hp, hd⟩
          · exact .inr hl
    · next hc =>
        rw [h.mem_player]
        refine ⟨fun ⟨hp, hd⟩ => ⟨.inl hp, hd⟩, ?_⟩
        rintro ⟨hp | ⟨rfl, _⟩, hd⟩
        · exact ⟨hp, hd⟩
        · exact absurd hd hc

theorem Listed.removeCreature (h : Listed isPlayer s p) (hold : p leaf c) :
    Listed isPlayer (s.removeCreature isPlayer leaf c)
      fun l d => p l d ∧ ¬ (d = c ∧ l = leaf) := by
  obtain ⟨hnodup, hmem⟩ := swapRemove_spec h.nodup (by rwa [h.mem])
  refine ⟨hnodup, fun l => ?_, fun l d => ?_, fun l d => ?_⟩
  · simp only [CreatureMap.removeCreature]
    split
    · next hc => exact (swapRemove_spec h.playerNodup (by rw [h.mem_player]; exact ⟨hold, hc⟩)).1 l
    · exact h.playerNodup l
  · rw [← h.mem]
    exact hmem l d
  · simp only [CreatureMap.removeCreature]
    split
    · next hc =>
        rw [(swapRemove_spec h.playerNodup (by rw [h.mem_player]; exact ⟨hold, hc⟩)).2,
          h.mem_player]
        exact and_right_comm
    · next hc =>
        rw [h.mem_player]
        refine ⟨fun ⟨hp, hd⟩ => ⟨⟨hp, ?_⟩, hd⟩, fun ⟨⟨hp, _⟩, hd⟩ => ⟨hp, hd⟩⟩
        rintro ⟨rfl, _⟩
        exact hc hd

end Lists

/-! ## The invariant -/

/-- `c` stands on a tile of the block that `leaf` is for. -/
def At (s : CreatureMap α) (leaf : LeafId) (c : CreatureId) : Prop :=
  s.removed c = false ∧ ∃ pos, s.tile c = some pos ∧ s.map.getLeaf pos.x pos.y = some leaf

structure Placed (isPlayer : CreatureId → Bool) (s : CreatureMap α) : Prop where
  linked : s.map.Linked
  leafed : ∀ c pos, s.tile c = some pos → ∃ leaf, s.map.getLeaf pos.x pos.y = some leaf
  fresh : ∀ c, s.tile c = none → s.removed c = false
  nodup : ∀ pos, (s.creatures pos).Nodup
  onTile : ∀ pos c, c ∈ s.creatures pos ↔ s.tile c = some pos ∧ s.removed c = false
  listed : Listed isPlayer s s.At

section Steps

variable {isPlayer} {s : CreatureMap α} {c : CreatureId} {pos : Position} {leaf : LeafId}

theorem getQTNode_eq (s : CreatureMap α) (pos : Position) :
    s.getQTNode pos = s.map.getLeaf pos.x pos.y :=
  QTreeNode.getLeafStatic_eq_getLeaf _ _ _

theorem at_unique {leaf' : LeafId} (h : s.At leaf c) (h' : s.At leaf' c) : leaf = leaf' := by
  obtain ⟨_, pos, hpos, hleaf⟩ := h
  obtain ⟨_, pos', hpos', hleaf'⟩ := h'
  cases hpos.symm.trans hpos'
  exact Option.some.inj (hleaf.symm.trans hleaf')

variable (pos) in
/-- A creature that is on no tile comes to one. -/
theorem addThing_onTile (hnodup : ∀ pos, (s.creatures pos).Nodup)
    (honTile : ∀ p d, d ∈ s.creatures p ↔ d ≠ c ∧ s.tile d = some p ∧ s.removed d = false)
    (hremoved : s.removed c = false) :
    (∀ p, ((s.addThing pos c).creatures p).Nodup) ∧
      ∀ p d, d ∈ (s.addThing pos c).creatures p ↔
        (s.addThing pos c).tile d = some p ∧ (s.addThing pos c).removed d = false := by
  have hnew : ∀ p, c ∉ s.creatures p := fun p hc => ((honTile p c).mp hc).1 rfl
  refine ⟨fun p => ?_, fun p d => ?_⟩
  · simp only [addThing, Function.update_apply]
    split
    · exact List.nodup_cons.mpr ⟨hnew pos, hnodup pos⟩
    · exact hnodup p
  · simp only [addThing, Function.update_apply]
    by_cases hd : d = c
    · subst hd
      simp only [if_true, Option.some.injEq, hremoved, and_true]
      split
      · next hp => simp only [List.mem_cons_self, hp]
      · next hp =>
          refine iff_of_false (hnew p) ?_
          rintro rfl
          exact hp rfl
    · simp only [if_neg hd]
      split
      · next hp =>
          rw [List.mem_cons, hp, honTile]
          simp only [hd, ne_eq, not_false_eq_true, true_and, false_or]
      · rw [honTile]
        simp only [hd, ne_eq, not_false_eq_true, true_and]

theorem Placed.placeCreature (h : Placed isPlayer s)
    (hdest : s.map.getLeaf pos.x pos.y = some leaf) :
    Placed isPlayer (s.placeCreature isPlayer pos c) := by
  rw [CreatureMap.placeCreature]
  split
  · exact h
  · next htile =>
      rw [Option.isSome_iff_ne_none, not_not] at htile
      rw [getQTNode_eq, hdest]
      simp only
      have hremoved := h.fresh c htile
      have hnone : ∀ leaf, ¬ s.At leaf c := by
        rintro _ ⟨_, p, hp, _⟩
        rw [htile] at hp
        cases hp
      obtain ⟨hnodup, honTile⟩ := addThing_onTile pos h.nodup (c := c)
        (fun p d => by
          rw [h.onTile]
          refine ⟨fun hd => ⟨?_, hd⟩, And.right⟩
          rintro rfl
          rw [htile] at hd
          cases hd.1) hremoved
      refine ⟨h.linked, fun d p hd => ?_, fun d hd => ?_, hnodup, honTile, ?_⟩
      · simp only [CreatureMap.addCreature, addThing, Function.update_apply] at hd ⊢
        split at hd
        · cases hd
          exact ⟨leaf, hdest⟩
        · exact h.leafed d p hd
      · simp only [CreatureMap.addCreature, addThing, Function.update_apply] at hd
        split at hd
        · cases hd
        · exact h.fresh d hd
      · have hlisted : Listed isPlayer (s.addThing pos c) s.At := h.listed.of_lists rfl rfl
        refine (hlisted.addCreature (hnone leaf)).congr fun l d => ?_
        simp only [At, CreatureMap.addCreature, addThing, Function.update_apply]
        by_cases hd : d = c
        · subst hd
          simp only [hremoved, if_true, htile, reduceCtorEq, false_and, exists_false, and_false,
            false_or, true_and, Option.some.injEq, exists_eq_left', hdest]
          exact eq_comm
        · simp only [hd, if_false, false_and, or_false]

/-- A creature leaves its tile. -/
theorem removeThing_onTile (hnodup : ∀ p, (s.creatures p).Nodup)
    (honTile : ∀ p d, d ∈ s.creatures p ↔ s.tile d = some p ∧ s.removed d = false)
    (htile : s.tile c = some pos) :
    (∀ p, ((s.removeThing pos c).creatures p).Nodup) ∧
      ∀ p d, d ∈ (s.removeThing pos c).creatures p ↔
        d ≠ c ∧ s.tile d = some p ∧ s.removed d = false := by
  refine ⟨fun p => ?_, fun p d => ?_⟩
  · simp only [removeThing, Function.update_apply]
    split
    · exact (hnodup pos).erase c
    · exact hnodup p
  · simp only [removeThing, Function.update_apply]
    split
    · next hp => rw [(hnodup pos).mem_erase_iff, honTile, hp]
    · next hp =>
        rw [honTile]
        refine ⟨fun hd => ⟨?_, hd⟩, And.right⟩
        rintro rfl
        cases htile.symm.trans hd.1
        exact hp rfl

/-- The list of the old leaf gives the creature to that of the new one. -/
theorem Listed.switchLeaf {newLeaf : LeafId} {p : LeafId → CreatureId → Prop}
    (h : Listed isPlayer s p) (hleaf : ∀ l, p l c ↔ l = leaf) :
    Listed isPlayer (s.switchLeaf isPlayer leaf newLeaf c)
      fun l d => if d = c then l = newLeaf else p l d := by
  rw [CreatureMap.switchLeaf]
  split
  · next hne =>
      have hremoved := h.removeCreature ((hleaf leaf).mpr rfl)
      refine (hremoved.addCreature ?_).congr fun l d => ?_
      · rw [hleaf]
        rintro ⟨rfl, _⟩
        exact hne rfl
      · split
        · next hd =>
            rw [hd, hleaf]
            tauto
        · next hd => simp only [hd, false_and, not_false_eq_true, and_true, or_false]
  · next heq =>
      rw [not_not] at heq
      refine h.congr fun l d => ?_
      split
      · next hd => rw [hd, hleaf, heq]
      · exact Iff.rfl

theorem switchLeaf_frame (isPlayer : CreatureId → Bool) (s : CreatureMap α)
    (leaf newLeaf : LeafId) (c : CreatureId) :
    (s.switchLeaf isPlayer leaf newLeaf c).map = s.map ∧
      (s.switchLeaf isPlayer leaf newLeaf c).tile = s.tile ∧
      (s.switchLeaf isPlayer leaf newLeaf c).removed = s.removed ∧
      (s.switchLeaf isPlayer leaf newLeaf c).creatures = s.creatures := by
  rw [switchLeaf]
  split <;> exact ⟨rfl, rfl, rfl, rfl⟩

theorem Placed.moveCreature {newLeaf : LeafId} (h : Placed isPlayer s)
    (hnew : s.map.getLeaf pos.x pos.y = some newLeaf) :
    Placed isPlayer (s.moveCreature isPlayer c pos) := by
  rw [CreatureMap.moveCreature]
  split
  · exact h
  · next oldPos htile =>
      split
      · exact h
      · next hc =>
          rw [not_not, h.onTile] at hc
          obtain ⟨leaf, hleaf⟩ := h.leafed c oldPos htile
          rw [getQTNode_eq, getQTNode_eq, hleaf, hnew]
          simp only
          obtain ⟨hnodup, honTile⟩ := removeThing_onTile h.nodup h.onTile htile
          have hat : ∀ l, s.At l c ↔ l = leaf := by
            intro l
            refine ⟨fun hl => at_unique hl ⟨hc.2, oldPos, htile, hleaf⟩, ?_⟩
            rintro rfl
            exact ⟨hc.2, oldPos, htile, hleaf⟩
          have hgone : Listed isPlayer (s.removeThing oldPos c) s.At := h.listed.of_lists rfl rfl
          have hlisted : Listed isPlayer
              ((s.removeThing oldPos c).switchLeaf isPlayer leaf newLeaf c) _ := hgone.switchLeaf hat
          obtain ⟨hmap, htile', hremoved, hcreatures⟩ :=
            switchLeaf_frame isPlayer (s.removeThing oldPos c) leaf newLeaf c
          generalize (s.removeThing oldPos c).switchLeaf isPlayer leaf newLeaf c = t at *
          obtain ⟨hnodup', honTile'⟩ := addThing_onTile (s := t) (c := c) pos
            (by rw [hcreatures]; exact hnodup)
            (by rw [hcreatures, htile', hremoved]; exact honTile)
            (by rw [hremoved]; exact hc.2)
          refine ⟨?_, fun d p hd => ?_, fun d hd => ?_, hnodup', honTile', ?_⟩
          · show t.map.Linked
            rw [hmap]
            exact h.linked
          · simp only [addThing, Function.update_apply] at hd ⊢
            rw [hmap]
            split at hd
            · cases hd
              exact ⟨newLeaf, hnew⟩
            · exact h.leafed d p (by rw [← hd, htile']; rfl)
          · simp only [addThing, Function.update_apply] at hd ⊢
            split at hd
            · cases hd
            · rw [hremoved]
              exact h.fresh d (by rw [← hd, htile']; rfl)
          · have hadd : Listed isPlayer (t.addThing pos c) _ := hlisted.of_lists rfl rfl
            refine hadd.congr fun l d => ?_
            simp only [At, addThing, Function.update_apply, hmap, htile', hremoved]
            by_cases hd : d = c
            · subst hd
              have hremoved' : (s.removeThing oldPos d).removed d = false := hc.2
              simp only [if_true, hremoved', true_and, Option.some.injEq, exists_eq_left']
              show l = newLeaf ↔ s.map.getLeaf pos.x pos.y = some l
              rw [hnew, Option.some.injEq]
              exact eq_comm
            · simp only [hd, if_false]
              rfl

theorem Placed.takeCreature (h : Placed isPlayer s) :
    Placed isPlayer (s.takeCreature isPlayer c) := by
  rw [CreatureMap.takeCreature]
  split
  · exact h
  · next hremoved =>
      split
      · exact h
      · next pos htile =>
          obtain ⟨leaf, hleaf⟩ := h.leafed c pos htile
          rw [getQTNode_eq, hleaf]
          simp only
          rw [Bool.not_eq_true] at hremoved
          have hc : s.At leaf c := ⟨hremoved, pos, htile, hleaf⟩
          obtain ⟨hnodup, honTile⟩ := removeThing_onTile h.nodup h.onTile htile
          refine ⟨h.linked, h.leafed, fun d hd => ?_, hnodup, fun p d => ?_, ?_⟩
          · simp only [Function.update_apply]
            split
            · next heq =>
                subst heq
                cases htile.symm.trans hd
            · exact h.fresh d hd
          · refine (honTile p d).trans ?_
            simp only [removeThing, CreatureMap.removeCreature, Function.update_apply]
            by_cases hd : d = c
            · simp only [hd, if_true, ne_eq, not_true, false_and, Bool.true_eq_false, and_false]
            · simp only [hd, if_false, ne_eq, not_false_eq_true, true_and]
          · have hlisted := h.listed.removeCreature hc
            have htaken : Listed isPlayer { (s.removeCreature isPlayer leaf c).removeThing pos c with
                removed := Function.update s.removed c true } _ := hlisted.of_lists rfl rfl
            refine htaken.congr fun l d => ?_
            simp only [At, removeThing, CreatureMap.removeCreature, Function.update_apply]
            by_cases hd : d = c
            · subst hd
              simp only [if_true, true_and, Bool.true_eq_false, false_and, iff_false, not_and,
                not_not]
              exact fun hl => at_unique hl hc
            · simp only [hd, if_false, false_and, not_false_eq_true, and_true]

/-- A leaf that is there stays that of its block. -/
theorem getLeaf_setTile_of_some (m : Map α) (x y : UInt16) (z : UInt8) (newTile : α)
    {x' y' : UInt16} {id : LeafId} (h : m.getLeaf x' y' = some id) :
    (m.setTile x y z newTile).1.getLeaf x' y' = some id := by
  by_cases hz : z.toNat < mapMaxLayers
  · rw [Map.getLeaf_setTile m x y x' y' newTile hz, Map.getLeaf_leafFor]
    split
    · next hblock =>
        rw [Map.getLeaf_congr m hblock] at h
        rw [Map.leafFor_snd, h, Option.getD_some]
    · exact h
  · rw [Map.setTile, dif_neg hz]
    exact h

theorem Placed.setTile {x y : UInt16} {z : UInt8} {newTile : α} (h : Placed isPlayer s) :
    Placed isPlayer (s.setTile x y z newTile) := by
  refine ⟨h.linked.setTile x y z newTile, fun d p hd => ?_, h.fresh, h.nodup, h.onTile, ?_⟩
  · obtain ⟨leaf, hleaf⟩ := h.leafed d p hd
    exact ⟨leaf, getLeaf_setTile_of_some s.map x y z newTile hleaf⟩
  · have hlisted : Listed isPlayer (s.setTile x y z newTile) s.At := h.listed.of_lists rfl rfl
    refine hlisted.congr fun l d => and_congr_right fun _ => exists_congr fun p =>
      and_congr_right fun hp => ?_
    obtain ⟨leaf, hleaf⟩ := h.leafed d p hp
    have hleaf' := getLeaf_setTile_of_some s.map x y z newTile hleaf
    show _ ↔ (s.map.setTile x y z newTile).1.getLeaf p.x p.y = some l
    rw [hleaf, hleaf']

end Steps

/-! ## The walk over the leaves -/

section Walk

variable {isPlayer} {s : CreatureMap α} {centerPos : Position} {range : Range}
  {onlyPlayers : Bool}

theorem getLeafStatic_eq (x y : Nat) :
    s.getLeafStatic x y = s.map.getLeaf (UInt16.ofNat x) (UInt16.ofNat y) := by
  have htop : ∀ n : Nat,
      QTreeNode.topBits 13 (UInt32.ofNat n) = QTreeNode.topBits 13 (UInt16.ofNat n).toUInt32 := by
    intro n
    simp only [QTreeNode.topBits, UInt16.toNat_toUInt32, UInt32.toNat_ofNat', UInt16.toNat_ofNat']
    omega
  rw [getLeafStatic, QTreeNode.getLeafStatic_eq_getLeaf]
  exact s.map.rootLeaf_eq (htop x) (htop y)

/-- What the search adds from the block of a position, if there is a leaf for it. -/
def visit (s : CreatureMap α) (centerPos : Position) (range : Range) (onlyPlayers : Bool)
    (x y : Nat) : List CreatureId :=
  (s.map.getLeaf (UInt16.ofNat x) (UInt16.ofNat y)).toList.flatMap
    (s.found centerPos range onlyPlayers)

theorem ofNat_add_floorSize (n : Nat) : UInt16.ofNat (n + floorSize) = UInt16.ofNat n + 8 :=
  UInt16.ofNat_add n 8

/-- The links lead from block to block, as the look-ups do. -/
theorem searchRow_eq (h : s.map.Linked) (n nx ny : Nat) (spectators : List CreatureId) :
    s.searchRow centerPos range onlyPlayers ny (List.range' nx n floorSize)
        (s.map.getLeaf (UInt16.ofNat nx) (UInt16.ofNat ny)) spectators =
      spectators ++ (List.range' nx n floorSize).flatMap fun x =>
        s.visit centerPos range onlyPlayers x ny := by
  induction n generalizing nx spectators with
  | zero => rw [List.range'_zero, searchRow, List.flatMap_nil, List.append_nil]
  | succ n ih =>
      rw [List.range'_succ, List.flatMap_cons, visit]
      cases hleaf : s.map.getLeaf (UInt16.ofNat nx) (UInt16.ofNat ny) with
      | some leaf =>
          rw [searchRow, h.east hleaf, ← ofNat_add_floorSize, ih, Option.toList_some,
            List.flatMap_singleton, List.append_assoc]
      | none =>
          rw [searchRow, getLeafStatic_eq, ih, Option.toList_none, List.flatMap_nil,
            List.nil_append]

theorem searchRows_eq (h : s.map.Linked) (startx1 endx2 n ny : Nat)
    (spectators : List CreatureId) :
    s.searchRows centerPos range onlyPlayers startx1 endx2 (List.range' ny n floorSize)
        (s.map.getLeaf (UInt16.ofNat startx1) (UInt16.ofNat ny)) spectators =
      spectators ++ (List.range' ny n floorSize).flatMap fun y =>
        (steps startx1 endx2).flatMap fun x => s.visit centerPos range onlyPlayers x y := by
  induction n generalizing ny spectators with
  | zero => simp only [List.range'_zero, searchRows, List.flatMap_nil, List.append_nil]
  | succ n ih =>
      rw [List.range'_succ, List.flatMap_cons]
      cases hleaf : s.map.getLeaf (UInt16.ofNat startx1) (UInt16.ofNat ny) with
      | some leaf =>
          simp only [searchRows, steps]
          rw [← hleaf, searchRow_eq h, h.south hleaf, ← ofNat_add_floorSize, ih, List.append_assoc]
          rfl
      | none =>
          simp only [searchRows, steps]
          rw [← hleaf, searchRow_eq h, getLeafStatic_eq, ih, List.append_assoc]
          rfl

theorem mem_steps {first last n : Nat} (hfirst : first % 8 = 0) (hlast : last % 8 = 0) :
    n ∈ steps first last ↔ first ≤ n ∧ n ≤ last ∧ n % 8 = 0 := by
  rw [steps, List.mem_range']
  simp only [floorSize]
  constructor
  · rintro ⟨k, hk, rfl⟩
    omega
  · rintro ⟨hge, hle, hn⟩
    exact ⟨(n - first) / 8, by omega, by omega⟩

theorem steps_nodup {first last : Nat} : (steps first last).Nodup :=
  List.nodup_range' floorSize (by decide)

theorem mem_found {leaf : LeafId} {c : CreatureId} (h : Placed isPlayer s) :
    c ∈ s.found centerPos range onlyPlayers leaf ↔
      s.At leaf c ∧ (onlyPlayers = true → isPlayer c = true) ∧
        inRange centerPos range (s.getPosition c) = true := by
  rw [found, List.mem_filter, ← and_assoc]
  refine and_congr_left fun _ => ?_
  cases onlyPlayers with
  | true =>
      rw [nodeList, if_pos rfl, h.listed.mem_player]
      simp only [true_implies]
  | false =>
      rw [nodeList, if_neg Bool.false_ne_true, h.listed.mem]
      simp only [Bool.false_eq_true, false_implies, and_true]

theorem mem_visit {x y : Nat} {c : CreatureId} (h : Placed isPlayer s) :
    c ∈ s.visit centerPos range onlyPlayers x y ↔
      ∃ leaf, s.map.getLeaf (UInt16.ofNat x) (UInt16.ofNat y) = some leaf ∧ s.At leaf c ∧
        (onlyPlayers = true → isPlayer c = true) ∧
        inRange centerPos range (s.getPosition c) = true := by
  simp only [visit, List.mem_flatMap, Option.mem_toList, mem_found h]

theorem visit_nodup {x y : Nat} (h : Placed isPlayer s) :
    (s.visit centerPos range onlyPlayers x y).Nodup := by
  rw [visit]
  cases s.map.getLeaf (UInt16.ofNat x) (UInt16.ofNat y) with
  | none => exact List.nodup_nil
  | some leaf =>
      rw [Option.toList_some, List.flatMap_singleton, found, nodeList]
      split
      · exact (h.listed.playerNodup leaf).filter _
      · exact (h.listed.nodup leaf).filter _

/-- A creature is met in one block only. -/
theorem visit_unique {x y x' y' : Nat} {c : CreatureId} (h : Placed isPlayer s)
    (hx : x < 65536) (hy : y < 65536) (hx' : x' < 65536) (hy' : y' < 65536)
    (hc : c ∈ s.visit centerPos range onlyPlayers x y)
    (hc' : c ∈ s.visit centerPos range onlyPlayers x' y') : x / 8 = x' / 8 ∧ y / 8 = y' / 8 := by
  obtain ⟨leaf, hleaf, hat, _⟩ := (mem_visit h).mp hc
  obtain ⟨leaf', hleaf', hat', _⟩ := (mem_visit h).mp hc'
  rw [at_unique hat hat'] at hleaf
  have hblock := h.linked.injective hleaf hleaf'
  simpa only [Map.SameBlock, UInt16.toNat_ofNat_of_lt', hx, hy, hx', hy'] using hblock

/-- What the search adds: the blocks of a rectangle, row by row. -/
def searched (s : CreatureMap α) (centerPos : Position) (range : Range) (onlyPlayers : Bool)
    (startx1 starty1 endx2 endy2 : Nat) : List CreatureId :=
  (steps starty1 endy2).flatMap fun y =>
    (steps startx1 endx2).flatMap fun x => s.visit centerPos range onlyPlayers x y

section Rectangle

variable {startx1 starty1 endx2 endy2 : Nat}

theorem mem_searched {c : CreatureId} :
    c ∈ s.searched centerPos range onlyPlayers startx1 starty1 endx2 endy2 ↔
      ∃ y ∈ steps starty1 endy2, ∃ x ∈ steps startx1 endx2,
        c ∈ s.visit centerPos range onlyPlayers x y := by
  simp only [searched, List.mem_flatMap]

theorem searched_nodup (h : Placed isPlayer s) (hx1 : startx1 % 8 = 0) (hy1 : starty1 % 8 = 0)
    (hx2 : endx2 % 8 = 0) (hy2 : endy2 % 8 = 0) (hx : endx2 < 65536) (hy : endy2 < 65536) :
    (s.searched centerPos range onlyPlayers startx1 starty1 endx2 endy2).Nodup := by
  have hcolumn : ∀ x ∈ steps startx1 endx2, x < 65536 ∧ x % 8 = 0 := by
    intro x hmem
    obtain ⟨_, hle, hmod⟩ := (mem_steps hx1 hx2).mp hmem
    exact ⟨by omega, hmod⟩
  have hrow : ∀ y ∈ steps starty1 endy2, y < 65536 ∧ y % 8 = 0 := by
    intro y hmem
    obtain ⟨_, hle, hmod⟩ := (mem_steps hy1 hy2).mp hmem
    exact ⟨by omega, hmod⟩
  rw [searched, List.nodup_flatMap]
  refine ⟨fun y hmem => List.nodup_flatMap.mpr ⟨fun x _ => visit_nodup h, ?_⟩, ?_⟩
  · refine steps_nodup.pairwise_of_forall_ne fun x hxmem x' hxmem' hne => ?_
    rintro c hc hc'
    obtain ⟨hlt, hmod⟩ := hcolumn x hxmem
    obtain ⟨hlt', hmod'⟩ := hcolumn x' hxmem'
    have hsame := visit_unique h hlt (hrow y hmem).1 hlt' (hrow y hmem).1 hc hc'
    omega
  · refine steps_nodup.pairwise_of_forall_ne fun y hymem y' hymem' hne => ?_
    rintro c hc hc'
    obtain ⟨x, hxmem, hc⟩ := List.mem_flatMap.mp hc
    obtain ⟨x', hxmem', hc'⟩ := List.mem_flatMap.mp hc'
    obtain ⟨hlt, hmod⟩ := hrow y hymem
    obtain ⟨hlt', hmod'⟩ := hrow y' hymem'
    have hsame := visit_unique h (hcolumn x hxmem).1 hlt (hcolumn x' hxmem').1 hlt' hc hc'
    omega

end Rectangle

variable (centerPos) in
theorem getSpectatorsInternal_eq (h : s.map.Linked) (spectators : List CreatureId) :
    ∃ x1 y1 x2 y2, x1 = clamp (centerPos.x.toNat + range.minX + (centerPos.z.toNat - range.maxZ)) ∧
      y1 = clamp (centerPos.y.toNat + range.minY + (centerPos.z.toNat - range.maxZ)) ∧
      x2 = clamp (centerPos.x.toNat + range.maxX + (centerPos.z.toNat - range.minZ)) ∧
      y2 = clamp (centerPos.y.toNat + range.maxY + (centerPos.z.toNat - range.minZ)) ∧
      s.getSpectatorsInternal centerPos range onlyPlayers spectators = spectators ++
        s.searched centerPos range onlyPlayers (x1 - x1 % 8) (y1 - y1 % 8) (x2 - x2 % 8)
          (y2 - y2 % 8) := by
  refine ⟨_, _, _, _, rfl, rfl, rfl, rfl, ?_⟩
  rw [getSpectatorsInternal, getLeafStatic_eq]
  exact searchRows_eq h _ _ _ _ _

end Walk

/-! ## Every creature in range, once -/

/-- The floor lies in the interval, and the position, shifted by the difference of the floors,
in the range around the centre. -/
structure InRange (centerPos : Position) (range : Range) (pos : Position) : Prop where
  floor : range.minZ ≤ pos.z.toNat ∧ (pos.z.toNat : Int) ≤ range.maxZ
  x : range.minX ≤ pos.x.toNat - (centerPos.z.toNat - pos.z.toNat : Int) - centerPos.x.toNat ∧
    pos.x.toNat - (centerPos.z.toNat - pos.z.toNat : Int) - centerPos.x.toNat ≤ range.maxX
  y : range.minY ≤ pos.y.toNat - (centerPos.z.toNat - pos.z.toNat : Int) - centerPos.y.toNat ∧
    pos.y.toNat - (centerPos.z.toNat - pos.z.toNat : Int) - centerPos.y.toNat ≤ range.maxY

theorem inRange_iff {centerPos : Position} {range : Range} {pos : Position} :
    inRange centerPos range pos = true ↔ InRange centerPos range pos := by
  simp only [inRange, Bool.and_eq_true, Bool.not_eq_true', Bool.or_eq_false_iff,
    decide_eq_false_iff_not, gt_iff_lt]
  constructor
  · rintro ⟨⟨h1, h2⟩, ⟨⟨h3, h4⟩, h5⟩, h6⟩
    exact ⟨⟨by omega, by omega⟩, ⟨by omega, by omega⟩, ⟨by omega, by omega⟩⟩
  · rintro ⟨⟨h1, h2⟩, ⟨h3, h4⟩, h5, h6⟩
    exact ⟨⟨by omega, by omega⟩, ⟨⟨by omega, by omega⟩, by omega⟩, by omega⟩

/-- The block of a position in range is among those that are searched. -/
theorem InRange.block {centerPos : Position} {range : Range} {pos : Position}
    (h : InRange centerPos range pos) :
    let x1 := clamp (centerPos.x.toNat + range.minX + (centerPos.z.toNat - range.maxZ))
    let y1 := clamp (centerPos.y.toNat + range.minY + (centerPos.z.toNat - range.maxZ))
    let x2 := clamp (centerPos.x.toNat + range.maxX + (centerPos.z.toNat - range.minZ))
    let y2 := clamp (centerPos.y.toNat + range.maxY + (centerPos.z.toNat - range.minZ))
    x1 ≤ pos.x.toNat ∧ pos.x.toNat ≤ x2 ∧ y1 ≤ pos.y.toNat ∧ pos.y.toNat ≤ y2 := by
  obtain ⟨⟨h1, h2⟩, ⟨h3, h4⟩, h5, h6⟩ := h
  have hx := pos.x.toNat_lt
  have hy := pos.y.toNat_lt
  simp only [clamp]
  refine ⟨?_, ?_, ?_, ?_⟩ <;> omega

section Exact

variable {isPlayer} {s : CreatureMap α}

/-- What an exact search for creatures adds. -/
structure Exact (isPlayer : CreatureId → Bool) (s : CreatureMap α) (centerPos : Position)
    (range : Range) (onlyPlayers : Bool) (added : List CreatureId) : Prop where
  nodup : added.Nodup
  mem : ∀ c, c ∈ added ↔ (onlyPlayers = true → isPlayer c = true) ∧
    ∃ pos, c ∈ s.creatures pos ∧ InRange centerPos range pos

theorem Placed.search (h : Placed isPlayer s) (centerPos : Position) (range : Range)
    (onlyPlayers : Bool) (spectators : List CreatureId) :
    ∃ added, s.getSpectatorsInternal centerPos range onlyPlayers spectators = spectators ++ added ∧
      Exact isPlayer s centerPos range onlyPlayers added := by
  obtain ⟨x1, y1, x2, y2, hx1, hy1, hx2, hy2, hsearch⟩ :=
    getSpectatorsInternal_eq centerPos h.linked spectators
  have hx2' : x2 ≤ 65535 := hx2 ▸ Nat.min_le_left ..
  have hy2' : y2 ≤ 65535 := hy2 ▸ Nat.min_le_left ..
  refine ⟨_, hsearch, searched_nodup h (by omega) (by omega) (by omega) (by omega) (by omega)
    (by omega), fun c => ?_⟩
  simp only [mem_searched, mem_visit h]
  constructor
  · rintro ⟨_, _, _, _, leaf, _, ⟨hremoved, pos, htile, _⟩, hplayer, hrange⟩
    refine ⟨hplayer, pos, (h.onTile pos c).mpr ⟨htile, hremoved⟩, ?_⟩
    rw [getPosition, htile] at hrange
    exact inRange_iff.mp hrange
  · rintro ⟨hplayer, pos, hc, hrange⟩
    obtain ⟨htile, hremoved⟩ := (h.onTile pos c).mp hc
    obtain ⟨leaf, hleaf⟩ := h.leafed c pos htile
    have hblock := hrange.block
    simp only [← hx1, ← hy1, ← hx2, ← hy2] at hblock
    have hx := pos.x.toNat_lt
    have hy := pos.y.toNat_lt
    refine ⟨pos.y.toNat - pos.y.toNat % 8, (mem_steps (by omega) (by omega)).mpr (by omega),
      pos.x.toNat - pos.x.toNat % 8, (mem_steps (by omega) (by omega)).mpr (by omega),
      leaf, ?_, ⟨hremoved, pos, htile, hleaf⟩, hplayer, ?_⟩
    · have hofNat : ∀ n, n < 65536 → (UInt16.ofNat n).toNat = n :=
        fun n hn => UInt16.toNat_ofNat_of_lt' hn
      rw [← hleaf]
      refine Map.getLeaf_congr _ ⟨?_, ?_⟩ <;> rw [hofNat _ (by omega)] <;> omega
    · rw [getPosition, htile]
      exact inRange_iff.mpr hrange

end Exact

/-! ## Runs -/

inductive Op (α : Type) where
  | setTile (x y : UInt16) (z : UInt8) (newTile : α)
  | placeCreature (dest : Position) (c : CreatureId)
  | moveCreature (c : CreatureId) (newPos : Position)
  | takeCreature (c : CreatureId)

def step (s : CreatureMap α) : Op α → CreatureMap α
  | .setTile x y z newTile => s.setTile x y z newTile
  | .placeCreature dest c => s.placeCreature isPlayer dest c
  | .moveCreature c newPos => s.moveCreature isPlayer c newPos
  | .takeCreature c => s.takeCreature isPlayer c

/-- Creatures are set on tiles of the map. -/
def Allowed (s : CreatureMap α) : Op α → Prop
  | .placeCreature dest _ => (s.map.getTile dest.x dest.y dest.z).isSome = true
  | .moveCreature _ newPos => (s.map.getTile newPos.x newPos.y newPos.z).isSome = true
  | _ => True

def empty : CreatureMap α where
  map := .empty
  creatureList _ := []
  playerList _ := []
  creatures _ := []
  tile _ := none
  removed _ := false

inductive Reachable : CreatureMap α → Prop where
  | empty : Reachable empty
  | step {s : CreatureMap α} (op : Op α) : Reachable s → s.Allowed op →
      Reachable (s.step isPlayer op)

theorem getLeaf_of_getTile {m : Map α} {pos : Position}
    (h : (m.getTile pos.x pos.y pos.z).isSome = true) : ∃ leaf, m.getLeaf pos.x pos.y = some leaf := by
  by_cases hz : pos.z.toNat < mapMaxLayers
  · rw [Map.getTile_eq _ _ _ hz] at h
    cases hleaf : m.getLeaf pos.x pos.y with
    | none =>
        rw [hleaf] at h
        cases h
    | some leaf => exact ⟨leaf, rfl⟩
  · rw [Map.getTile_of_invalid _ _ _ hz] at h
    cases h

theorem Placed.step {s : CreatureMap α} {op : Op α} (h : Placed isPlayer s)
    (hallowed : s.Allowed op) : Placed isPlayer (s.step isPlayer op) := by
  cases op with
  | setTile x y z newTile => exact h.setTile
  | placeCreature dest c =>
      obtain ⟨leaf, hleaf⟩ := getLeaf_of_getTile hallowed
      exact h.placeCreature hleaf
  | moveCreature c newPos =>
      obtain ⟨leaf, hleaf⟩ := getLeaf_of_getTile hallowed
      exact h.moveCreature hleaf
  | takeCreature c => exact h.takeCreature

theorem empty_placed : Placed isPlayer (empty : CreatureMap α) where
  linked := Map.linked_empty
  leafed := nofun
  fresh _ _ := rfl
  nodup _ := List.nodup_nil
  onTile _ _ := ⟨nofun, fun h => nomatch h.1⟩
  listed := {
    nodup _ := List.nodup_nil
    playerNodup _ := List.nodup_nil
    mem _ _ := ⟨nofun, fun ⟨_, _, h, _⟩ => nomatch h⟩
    mem_player _ _ := ⟨nofun, fun ⟨⟨_, _, h, _⟩, _⟩ => nomatch h⟩ }

theorem Reachable.placed {s : CreatureMap α} (h : Reachable isPlayer s) : Placed isPlayer s := by
  induction h with
  | empty => exact empty_placed isPlayer
  | step op _ hop ih => exact ih.step isPlayer hop

end CreatureMap

end Bruxo.Spectators
