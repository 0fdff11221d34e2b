import Bruxo.Lib.Trie
import Mathlib.Data.Nat.Bitwise

/-!
# The map

`Map`, `QTreeNode` and `QTreeLeafNode` (`map.h`, `map.cpp`): a quadtree over
the upper thirteen bits of the 16-bit coordinates, its leaves the blocks of
`FLOOR_SIZE` by `FLOOR_SIZE` tiles, each with a link to the leaf south and the
leaf east of it.

A `QTreeNode` is a `Trie` of block paths, its leaves pointers (`LeafId`) into
the leaves of the map, since the links point to the same objects. The level the
code counts down from 15 is the depth of the trie plus two; its test
`level != FLOOR_BITS` for what to allocate is the depth being above one.

Tiles are pointers too, of a type `α`. What a call of `setTile` does to the
things on a tile is told by its outcome; the shape of the map does not depend
on it.
-/

namespace Bruxo

/-! ## Quadtree -/

def floorBits : Nat := 3

def floorSize : Nat := 8

def mapMaxLayers : Nat := 16

abbrev LeafId := Nat

abbrev QTreeNode (n : Nat) := Trie (Fin 4) LeafId n

namespace QTreeNode

/-- `((x & 0x8000) >> 15) | ((y & 0x8000) >> 14)` -/
def index (x y : UInt32) : Fin 4 :=
  Fin.ofNat 4 (((x &&& 0x8000) >>> 15) ||| ((y &&& 0x8000) >>> 14)).toNat

def getLeaf : {n : Nat} → QTreeNode n → (x y : UInt32) → Option LeafId
  | _, .null, _, _ => none
  | _, .leaf id, _, _ => some id
  | _, .inner child, x, y => getLeaf (child (index x y)) (x <<< 1) (y <<< 1)

/-- The loop of `getLeafStatic`, which looks at the child first. -/
def getLeafStatic : {n : Nat} → QTreeNode (n + 1) → (x y : UInt32) → Option LeafId
  | 0, node, x, y =>
      match node.child (index x y) with
      | .null => none
      | .leaf id => some id
  | _ + 1, node, x, y =>
      match node.child (index x y) with
      | .null => none
      | .inner child => getLeafStatic (.inner child) (x <<< 1) (y <<< 1)

/-- The node after `createLeaf`, the leaf, and `newLeaf`. A missing node is made
when the descent gets to it; `fresh` is the next leaf to be allocated. -/
def createLeaf (fresh : LeafId) : {n : Nat} → QTreeNode n → (x y : UInt32) →
    QTreeNode n × LeafId × Bool
  | 0, .leaf id, _, _ => (.leaf id, id, false)
  | 0, .null, _, _ => (.leaf fresh, fresh, true)
  | _ + 1, node, x, y =>
      let r := createLeaf fresh (node.child (index x y)) (x * 2) (y * 2)
      (.inner (Function.update node.child (index x y) r.1), r.2)

/-! ## Paths

The descent looks at one bit of each coordinate a level, from bit 15 down. -/

theorem toNat_and_bit15 (x : UInt32) :
    (x &&& 0x8000).toNat = 2 ^ 15 * (x.toNat / 2 ^ 15 % 2) := by
  have hbit := Nat.testBit_eq_decide_div_mod_eq (x := x.toNat) (i := 15)
  rw [UInt32.toNat_and]
  show x.toNat &&& 2 ^ 15 = _
  rw [Nat.and_two_pow, hbit]
  rcases Nat.mod_two_eq_zero_or_one (x.toNat / 2 ^ 15) with hz | ho
  · rw [hz]
    rfl
  · rw [ho]
    rfl

theorem val_index (x y : UInt32) :
    (index x y).val = x.toNat / 2 ^ 15 % 2 + 2 * (y.toNat / 2 ^ 15 % 2) := by
  have hx := toNat_and_bit15 x
  have hy := toNat_and_bit15 y
  simp only [index, Fin.ofNat, UInt32.toNat_or, UInt32.toNat_shiftRight, hx, hy]
  rcases Nat.mod_two_eq_zero_or_one (x.toNat / 2 ^ 15) with hx | hx <;>
    rcases Nat.mod_two_eq_zero_or_one (y.toNat / 2 ^ 15) with hy | hy <;>
      rw [hx, hy] <;> rfl

def path : (n : Nat) → (x y : UInt32) → List (Fin 4)
  | 0, _, _ => []
  | n + 1, x, y => index x y :: path n (x <<< 1) (y <<< 1)

theorem length_path (n : Nat) (x y : UInt32) : (path n x y).length = n := by
  induction n generalizing x y with
  | zero => rfl
  | succ n ih => rw [path, List.length_cons, ih]

theorem toNat_shiftLeft_one (x : UInt32) : (x <<< (1 : UInt32)).toNat = x.toNat * 2 % 2 ^ 32 := by
  rw [UInt32.toNat_shiftLeft]
  show x.toNat <<< 1 % 2 ^ 32 = _
  rw [Nat.shiftLeft_eq, pow_one]

theorem mul_two_eq_shiftLeft (x : UInt32) : x * (2 : UInt32) = x <<< (1 : UInt32) := by
  rw [← UInt32.toNat_inj, toNat_shiftLeft_one, UInt32.toNat_mul]
  rfl

/-- The upper `n` of the lower sixteen bits. -/
def topBits (n : Nat) (x : UInt32) : Nat := x.toNat / 2 ^ (16 - n) % 2 ^ n

theorem topBits_succ {n : Nat} (h : n < 16) (x : UInt32) :
    topBits (n + 1) x = topBits n (x <<< 1) + 2 ^ n * (x.toNat / 2 ^ 15 % 2) := by
  obtain ⟨k, hk⟩ : ∃ k, 15 = k + n := ⟨15 - n, by omega⟩
  have hdiv : x.toNat / 2 ^ k / 2 ^ n = x.toNat / 2 ^ 15 := by
    rw [Nat.div_div_eq_div_mul, ← pow_add, ← hk]
  have hshift : (x <<< 1).toNat = x.toNat * 2 % (2 ^ (k + 1) * 2 ^ (31 - k)) := by
    rw [← pow_add, show k + 1 + (31 - k) = 32 by omega, toNat_shiftLeft_one]
  have hlow : topBits n (x <<< 1) = x.toNat / 2 ^ k % 2 ^ n := by
    rw [topBits, show 16 - n = k + 1 by omega, hshift, Nat.mod_mul_right_div_self,
      Nat.mod_mod_of_dvd _ (pow_dvd_pow 2 (by omega)), pow_succ,
      Nat.mul_div_mul_right _ _ (by decide)]
  rw [hlow, topBits, show 16 - (n + 1) = k by omega, Nat.mod_pow_succ, hdiv]

theorem add_mul_eq_iff {N a a' b b' : Nat} (ha : a < N) (ha' : a' < N) :
    a + N * b = a' + N * b' ↔ a = a' ∧ b = b' := by
  constructor
  · intro h
    have hmod := congrArg (· % N) h
    have hdiv := congrArg (· / N) h
    simp only [Nat.add_mul_mod_self_left, Nat.mod_eq_of_lt ha, Nat.mod_eq_of_lt ha'] at hmod
    simp only [Nat.add_mul_div_left _ _ (Nat.zero_lt_of_lt ha), Nat.div_eq_of_lt ha,
      Nat.div_eq_of_lt ha', Nat.zero_add] at hdiv
    exact ⟨hmod, hdiv⟩
  · rintro ⟨rfl, rfl⟩
    rfl

/-- Two paths are the same if and only if the coordinates agree in the bits
that were looked at. -/
theorem path_eq_iff {n : Nat} (h : n ≤ 16) (x y x' y' : UInt32) :
    path n x y = path n x' y' ↔ topBits n x = topBits n x' ∧ topBits n y = topBits n y' := by
  induction n generalizing x y x' y' with
  | zero => simp [path, topBits, Nat.mod_one]
  | succ n ih =>
      have hlt : ∀ z, topBits n z < 2 ^ n := fun z => Nat.mod_lt _ (Nat.two_pow_pos n)
      rw [path, path, List.cons.injEq, ih (by omega), topBits_succ h, topBits_succ h,
        topBits_succ h, topBits_succ h, Fin.ext_iff, val_index, val_index,
        add_mul_eq_iff (hlt _) (hlt _), add_mul_eq_iff (hlt _) (hlt _),
        add_mul_eq_iff (Nat.mod_lt _ (by decide)) (Nat.mod_lt _ (by decide))]
      tauto

theorem getLeaf_eq_lookup {n : Nat} (t : QTreeNode n) (x y : UInt32) :
    t.getLeaf x y = t.lookup (path n x y) := by
  induction t generalizing x y with
  | null => rw [getLeaf, Trie.lookup_null]
  | leaf id => rfl
  | inner child ih => exact ih _ _ _

theorem getLeafStatic_eq_getLeaf {n : Nat} (t : QTreeNode (n + 1)) (x y : UInt32) :
    t.getLeafStatic x y = t.getLeaf x y := by
  induction n generalizing x y with
  | zero =>
      cases t with
      | null => rfl
      | inner child =>
          rw [getLeafStatic, getLeaf, Trie.child]
          cases child (index x y) <;> rfl
  | succ n ih =>
      cases t with
      | null => rfl
      | inner child =>
          rw [getLeafStatic, getLeaf, Trie.child]
          cases child (index x y) with
          | null => rfl
          | inner c => exact ih (.inner c) _ _

theorem createLeaf_eq (fresh : LeafId) {n : Nat} (t : QTreeNode n) (x y : UInt32) :
    ((t.createLeaf fresh x y).1, (t.createLeaf fresh x y).2.1)
        = t.findOrInsert fresh (path n x y)
      ∧ (t.createLeaf fresh x y).2.2 = (t.lookup (path n x y)).isNone := by
  induction n generalizing x y with
  | zero => cases t <;> exact ⟨rfl, rfl⟩
  | succ n ih =>
      obtain ⟨hrec, hnew⟩ := ih (t.child (index x y)) (x <<< 1) (y <<< 1)
      rw [createLeaf, path, Trie.lookup_cons, mul_two_eq_shiftLeft, mul_two_eq_shiftLeft,
        Trie.findOrInsert, ← hrec]
      exact ⟨rfl, hnew⟩

end QTreeNode

/-! ## Leaves and maps -/

structure Floor (α : Type) where
  tiles : Fin 8 → Fin 8 → Option α

structure QTreeLeafNode (α : Type) where
  leafS : Option LeafId
  leafE : Option LeafId
  array : Fin mapMaxLayers → Option (Floor α)

structure Map (α : Type) where
  root : QTreeNode 13
  leaves : LeafId → QTreeLeafNode α
  nextLeaf : LeafId

/-- What `setTile` did with the new tile: nothing on an invalid floor, put it
into the empty slot, or hand its things to the tile in the slot and delete it. -/
inductive SetOutcome (α : Type) where
  | invalid
  | placed
  | mergedInto (tile : α)

namespace Map

variable {α : Type}

def emptyLeaf : QTreeLeafNode α where
  leafS := none
  leafE := none
  array := fun _ => none

def empty : Map α where
  root := .inner fun _ => .null
  leaves := fun _ => emptyLeaf
  nextLeaf := 0

/-- `x & FLOOR_MASK` -/
def offset (x : UInt16) : Fin 8 := Fin.ofNat 8 (x &&& 7).toNat

def getTile (m : Map α) (x y : UInt16) (z : UInt8) : Option α :=
  if h : z.toNat < mapMaxLayers then
    match m.root.getLeafStatic x.toUInt32 y.toUInt32 with
    | none => none
    | some leaf =>
        match (m.leaves leaf).array ⟨z.toNat, h⟩ with
        | none => none
        | some floor => floor.tiles (offset x) (offset y)
  else none

/-- `if (target) target->… = …;` -/
def link (leaves : LeafId → QTreeLeafNode α) (target : Option LeafId)
    (set : QTreeLeafNode α → QTreeLeafNode α) : LeafId → QTreeLeafNode α :=
  match target with
  | none => leaves
  | some id => Function.update leaves id (set (leaves id))

/-- The links around a new leaf: from the leaves north and west to it, and from
it to the leaves south and east if they are there. -/
def linkNewLeaf (root : QTreeNode 13) (leaves : LeafId → QTreeLeafNode α) (leaf : LeafId)
    (x y : UInt32) : LeafId → QTreeLeafNode α :=
  let northLeaf := root.getLeaf x (y - 8)
  let leaves := link leaves northLeaf fun l => { l with leafS := some leaf }
  let westLeaf := root.getLeaf (x - 8) y
  let leaves := link leaves westLeaf fun l => { l with leafE := some leaf }
  let southLeaf := root.getLeaf x (y + 8)
  let leaves := link leaves (southLeaf.map fun _ => leaf) fun l => { l with leafS := southLeaf }
  let eastLeaf := root.getLeaf (x + 8) y
  link leaves (eastLeaf.map fun _ => leaf) fun l => { l with leafE := eastLeaf }

def createFloor (l : QTreeLeafNode α) (z : Fin mapMaxLayers) : Floor α :=
  (l.array z).getD { tiles := fun _ _ => none }

/-- `floor->tiles[offsetX][offsetY] = tile` -/
def setSlot (f : Floor α) (i j : Fin 8) (tile : α) : Floor α :=
  { tiles := Function.update f.tiles i (Function.update (f.tiles i) j (some tile)) }

/-- `createLeaf` from the root and the links of a leaf that is new. -/
def leafFor (m : Map α) (x y : UInt16) : Map α × LeafId :=
  let r := m.root.createLeaf m.nextLeaf x.toUInt32 y.toUInt32
  if r.2.2 then
    let leaves := Function.update m.leaves r.2.1 emptyLeaf
    ({ root := r.1
       leaves := linkNewLeaf r.1 leaves r.2.1 x.toUInt32 y.toUInt32
       nextLeaf := m.nextLeaf + 1 }, r.2.1)
  else ({ m with root := r.1 }, r.2.1)

def setTile (m : Map α) (x y : UInt16) (z : UInt8) (newTile : α) : Map α × SetOutcome α :=
  if h : z.toNat < mapMaxLayers then
    let (m, leaf) := m.leafFor x y
    let floor := createFloor (m.leaves leaf) ⟨z.toNat, h⟩
    let slot := floor.tiles (offset x) (offset y)
    let floor := match slot with
      | some _ => floor
      | none => setSlot floor (offset x) (offset y) newTile
    ({ m with leaves := Function.update m.leaves leaf { m.leaves leaf with
        array := Function.update (m.leaves leaf).array ⟨z.toNat, h⟩ (some floor) } },
      match slot with
      | some tile => .mergedInto tile
      | none => .placed)
  else (m, .invalid)

/-- The map and the tile whose creatures and items are taken off. -/
def removeTile (m : Map α) (x y : UInt16) (z : UInt8) : Map α × Option α :=
  (m, m.getTile x y z)

/-! ## Blocks -/

def getLeaf (m : Map α) (x y : UInt16) : Option LeafId := m.root.getLeaf x.toUInt32 y.toUInt32

/-- The two positions lie in one block of `FLOOR_SIZE`. -/
def SameBlock (x y x' y' : UInt16) : Prop :=
  x.toNat / 8 = x'.toNat / 8 ∧ y.toNat / 8 = y'.toNat / 8

instance (x y x' y' : UInt16) : Decidable (SameBlock x y x' y') :=
  inferInstanceAs (Decidable (_ ∧ _))

theorem SameBlock.refl (x y : UInt16) : SameBlock x y x y := ⟨rfl, rfl⟩

theorem topBits_toUInt32 (x : UInt16) : QTreeNode.topBits 13 x.toUInt32 = x.toNat / 8 := by
  have hlt := x.toNat_lt
  simp only [QTreeNode.topBits, UInt16.toNat_toUInt32]
  omega

theorem path_eq_iff_sameBlock (x y x' y' : UInt16) :
    QTreeNode.path 13 x.toUInt32 y.toUInt32 = QTreeNode.path 13 x'.toUInt32 y'.toUInt32
      ↔ SameBlock x y x' y' := by
  rw [QTreeNode.path_eq_iff (by decide)]
  simp only [topBits_toUInt32, SameBlock]

theorem topBits_add (y : UInt16) :
    QTreeNode.topBits 13 (y.toUInt32 + 8) = QTreeNode.topBits 13 (y + 8).toUInt32 := by
  have hlt := y.toNat_lt
  simp only [QTreeNode.topBits, UInt32.toNat_add, UInt16.toNat_add,
    UInt16.toNat_toUInt32]
  simp
  omega

theorem topBits_sub (y : UInt16) :
    QTreeNode.topBits 13 (y.toUInt32 - 8) = QTreeNode.topBits 13 (y - 8).toUInt32 := by
  have hlt := y.toNat_lt
  simp only [QTreeNode.topBits, UInt32.toNat_sub, UInt16.toNat_sub,
    UInt16.toNat_toUInt32]
  simp
  omega

theorem getLeaf_eq_lookup (m : Map α) (x y : UInt16) :
    m.getLeaf x y = m.root.lookup (QTreeNode.path 13 x.toUInt32 y.toUInt32) :=
  QTreeNode.getLeaf_eq_lookup _ _ _

/-- Only the block of a position matters for finding its leaf. -/
theorem rootLeaf_eq (m : Map α) {x y : UInt32} {x' y' : UInt16}
    (hx : QTreeNode.topBits 13 x = QTreeNode.topBits 13 x'.toUInt32)
    (hy : QTreeNode.topBits 13 y = QTreeNode.topBits 13 y'.toUInt32) :
    m.root.getLeaf x y = m.getLeaf x' y' := by
  rw [getLeaf, QTreeNode.getLeaf_eq_lookup, QTreeNode.getLeaf_eq_lookup,
    (QTreeNode.path_eq_iff (by decide) _ _ _ _).mpr ⟨hx, hy⟩]

theorem getLeaf_congr (m : Map α) {x y x' y' : UInt16} (h : SameBlock x y x' y') :
    m.getLeaf x y = m.getLeaf x' y' := by
  rw [getLeaf_eq_lookup, getLeaf_eq_lookup, (path_eq_iff_sameBlock x y x' y').mpr h]

/-! ## Finding or making a leaf -/

theorem link_apply (leaves : LeafId → QTreeLeafNode α) (target : Option LeafId)
    (set : QTreeLeafNode α → QTreeLeafNode α) (id : LeafId) :
    link leaves target set id = if target = some id then set (leaves id) else leaves id := by
  cases target with
  | none => rfl
  | some t =>
      by_cases h : t = id
      · subst h
        rw [link, Function.update_self, if_pos rfl]
      · rw [link, Function.update_of_ne (Ne.symm h), if_neg (by simpa using h)]

theorem leafFor_root (m : Map α) (x y : UInt16) :
    ((m.leafFor x y).1.root, (m.leafFor x y).2)
      = m.root.findOrInsert m.nextLeaf (QTreeNode.path 13 x.toUInt32 y.toUInt32) := by
  rw [← (QTreeNode.createLeaf_eq m.nextLeaf m.root x.toUInt32 y.toUInt32).1, leafFor]
  cases (m.root.createLeaf m.nextLeaf x.toUInt32 y.toUInt32).2.2 <;> rfl

theorem leafFor_snd (m : Map α) (x y : UInt16) :
    (m.leafFor x y).2 = (m.getLeaf x y).getD m.nextLeaf := by
  rw [getLeaf_eq_lookup, ← Trie.findOrInsert_snd _ _ (QTreeNode.length_path _ _ _),
    ← leafFor_root]

/-- The leaf of the block is there afterwards, every other one as before. -/
theorem getLeaf_leafFor (m : Map α) (x y x' y' : UInt16) :
    (m.leafFor x y).1.getLeaf x' y'
      = if SameBlock x' y' x y then some (m.leafFor x y).2 else m.getLeaf x' y' := by
  have hroot := congrArg Prod.fst (leafFor_root m x y)
  have hinsert := Trie.lookup_findOrInsert m.nextLeaf m.root
    (QTreeNode.length_path 13 x.toUInt32 y.toUInt32)
    (QTreeNode.length_path 13 x'.toUInt32 y'.toUInt32)
  rw [getLeaf_eq_lookup, show (m.leafFor x y).1.root = _ from hroot, hinsert, leafFor_snd,
    getLeaf_eq_lookup, getLeaf_eq_lookup]
  simp only [path_eq_iff_sameBlock]

theorem leafFor_of_none {m : Map α} {x y : UInt16} (h : m.getLeaf x y = none) :
    (m.leafFor x y).1.nextLeaf = m.nextLeaf + 1
      ∧ (m.leafFor x y).1.leaves
        = linkNewLeaf (m.leafFor x y).1.root (Function.update m.leaves m.nextLeaf emptyLeaf)
            m.nextLeaf x.toUInt32 y.toUInt32 := by
  have hsnd := leafFor_snd m x y
  obtain ⟨-, hnew⟩ := QTreeNode.createLeaf_eq m.nextLeaf m.root x.toUInt32 y.toUInt32
  rw [← getLeaf_eq_lookup, h] at hnew
  rw [h, Option.getD_none] at hsnd
  have hnew : (m.root.createLeaf m.nextLeaf x.toUInt32 y.toUInt32).2.2 = true := hnew
  rw [leafFor, if_pos hnew] at hsnd ⊢
  have hleaf : (m.root.createLeaf m.nextLeaf x.toUInt32 y.toUInt32).2.1 = m.nextLeaf := hsnd
  simp only [hleaf]
  exact ⟨trivial, trivial⟩

theorem leafFor_of_some {m : Map α} {x y : UInt16} {id : LeafId} (h : m.getLeaf x y = some id) :
    (m.leafFor x y).1.nextLeaf = m.nextLeaf ∧ (m.leafFor x y).1.leaves = m.leaves := by
  obtain ⟨-, hnew⟩ := QTreeNode.createLeaf_eq m.nextLeaf m.root x.toUInt32 y.toUInt32
  rw [← getLeaf_eq_lookup, h] at hnew
  have hold : ¬ (m.root.createLeaf m.nextLeaf x.toUInt32 y.toUInt32).2.2 = true := by
    rw [hnew]
    exact Bool.false_ne_true
  rw [leafFor, if_neg hold]
  exact ⟨rfl, rfl⟩

/-! ## The invariant -/

/-- The leaves in the tree are allocated, one for each block, and linked to
their neighbours. Coordinates wrap around at the edge of the map. -/
structure Linked (m : Map α) : Prop where
  allocated : ∀ {x y id}, m.getLeaf x y = some id → id < m.nextLeaf
  injective : ∀ {x y x' y' id}, m.getLeaf x y = some id → m.getLeaf x' y' = some id →
    SameBlock x y x' y'
  south : ∀ {x y id}, m.getLeaf x y = some id → (m.leaves id).leafS = m.getLeaf x (y + 8)
  east : ∀ {x y id}, m.getLeaf x y = some id → (m.leaves id).leafE = m.getLeaf (x + 8) y

theorem sameBlock_south (x y x' y' : UInt16) :
    SameBlock x' (y' + 8) x y ↔ SameBlock x' y' x (y - 8) := by
  have hy := y.toNat_lt
  have hy' := y'.toNat_lt
  simp only [SameBlock, UInt16.toNat_add, UInt16.toNat_sub]
  simp
  omega

theorem sameBlock_east (x y x' y' : UInt16) :
    SameBlock (x' + 8) y' x y ↔ SameBlock x' y' (x - 8) y := by
  have hx := x.toNat_lt
  have hx' := x'.toNat_lt
  simp only [SameBlock, UInt16.toNat_add, UInt16.toNat_sub]
  simp
  omega

/-- The links around a new leaf, in terms of the map with the leaf in it. -/
theorem linkNewLeaf_spec {m : Map α} {leaves : LeafId → QTreeLeafNode α} {leaf : LeafId}
    {x y : UInt16} (hnorth : m.getLeaf x (y - 8) ≠ some leaf)
    (hwest : m.getLeaf (x - 8) y ≠ some leaf) (hnew : leaves leaf = emptyLeaf) (id : LeafId) :
    linkNewLeaf m.root leaves leaf x.toUInt32 y.toUInt32 id
      = { leaves id with
          leafS := if id = leaf then m.getLeaf x (y + 8)
            else if m.getLeaf x (y - 8) = some id then some leaf else (leaves id).leafS
          leafE := if id = leaf then m.getLeaf (x + 8) y
            else if m.getLeaf (x - 8) y = some id then some leaf else (leaves id).leafE } := by
  have hN := m.rootLeaf_eq (x := x.toUInt32) rfl (topBits_sub y)
  have hS := m.rootLeaf_eq (x := x.toUInt32) rfl (topBits_add y)
  have hW := m.rootLeaf_eq (y := y.toUInt32) (topBits_sub x) rfl
  have hE := m.rootLeaf_eq (y := y.toUInt32) (topBits_add x) rfl
  simp only [linkNewLeaf, hN, hS, hW, hE, link_apply]
  by_cases hid : id = leaf
  · subst hid
    rw [if_neg hnorth, if_neg hwest, hnew, if_pos rfl, if_pos rfl]
    cases m.getLeaf x (y + 8) <;> cases m.getLeaf (x + 8) y <;> simp [emptyLeaf]
  · have hmap : ∀ o : Option LeafId, o.map (fun _ => leaf) ≠ some id := by
      rintro (_ | o) heq
      · cases heq
      · exact hid (Option.some.inj heq).symm
    rw [if_neg (hmap _), if_neg (hmap _), if_neg hid, if_neg hid]
    by_cases hn : m.getLeaf x (y - 8) = some id <;> by_cases hw : m.getLeaf (x - 8) y = some id <;>
      simp [hn, hw]

section NeighbourLinks

/-! The links in one direction, over positions `P` with `next` towards it and
`prev` back: adding the value of one class of positions and setting the two
links it takes part in keeps all of them right. -/

variable {P : Type} {same : P → P → Prop} [DecidableRel same] {get get' : P → Option LeafId}
  {new : LeafId}

theorem links_of_insert (next prev : P → P) (links links' : LeafId → Option LeafId) (p : P)
    (hsame : ∀ {q r}, same q r → get' q = get' r ∧ same (next q) (next r))
    (hprev : ∀ q, same (next q) p ↔ same q (prev p))
    (hget : ∀ q, get' q = if same q p then some new else get q)
    (hinj : ∀ {q r id}, get' q = some id → get' r = some id → same q r)
    (hfresh : ∀ q, get q ≠ some new)
    (hlinks : ∀ id, links' id = if id = new then get' (next p)
      else if get' (prev p) = some id then some new else links id)
    (hold : ∀ {q id}, get q = some id → links id = get (next q)) {q : P} {id : LeafId}
    (hq : get' q = some id) : links' id = get' (next q) := by
  rw [hlinks]
  by_cases hp : same q p
  · have hid : id = new := by
      rw [hget, if_pos hp] at hq
      exact (Option.some.inj hq).symm
    rw [if_pos hid]
    exact (hsame (hsame hp).2).1.symm
  · have hgetq : get q = some id := by
      rwa [hget, if_neg hp] at hq
    have hid : id ≠ new := fun heq => hfresh q (heq ▸ hgetq)
    rw [if_neg hid]
    by_cases hnorth : get' (prev p) = some id
    · have hnext := (hprev q).mpr (hinj hq hnorth)
      rw [if_pos hnorth, hget, if_pos hnext]
    · have hnext : ¬ same (next q) p := fun hn =>
        hnorth (((hsame ((hprev q).mp hn)).1).symm.trans hq)
      rw [if_neg hnorth, hget, if_neg hnext, hold hgetq]

end NeighbourLinks

theorem SameBlock.south {x y x' y' : UInt16} (h : SameBlock x y x' y') :
    SameBlock x (y + 8) x' (y' + 8) := by
  have hy := y.toNat_lt
  have hy' := y'.toNat_lt
  obtain ⟨hx, h⟩ := h
  refine ⟨hx, ?_⟩
  simp only [UInt16.toNat_add]
  simp
  omega

theorem SameBlock.east {x y x' y' : UInt16} (h : SameBlock x y x' y') :
    SameBlock (x + 8) y (x' + 8) y' := by
  obtain ⟨hx, hy⟩ := h
  have hblock : SameBlock y x y x' := ⟨rfl, hx⟩
  exact ⟨hblock.south.2, hy⟩

theorem not_sameBlock_north (x y : UInt16) : ¬ SameBlock x (y - 8) x y := by
  have hy := y.toNat_lt
  simp only [SameBlock, UInt16.toNat_sub]
  simp
  omega

theorem not_sameBlock_west (x y : UInt16) : ¬ SameBlock (x - 8) y x y := by
  have hx := x.toNat_lt
  simp only [SameBlock, UInt16.toNat_sub]
  simp
  omega

/-- The allocation step keeps the invariant. -/
theorem Linked.leafFor {m : Map α} (h : Linked m) (x y : UInt16) : Linked (m.leafFor x y).1 := by
  have hget := getLeaf_leafFor m x y
  have hsnd := leafFor_snd m x y
  cases hleaf : m.getLeaf x y with
  | some id =>
      obtain ⟨hnext, hleaves⟩ := leafFor_of_some hleaf
      rw [hleaf, Option.getD_some] at hsnd
      have hsame : ∀ x' y', (m.leafFor x y).1.getLeaf x' y' = m.getLeaf x' y' := by
        intro x' y'
        rw [hget]
        split
        · rename_i hblock
          rw [hsnd, ← hleaf, getLeaf_congr m hblock]
        · rfl
      constructor
      · intro x' y' id' hid
        rw [hsame] at hid
        exact hnext ▸ h.allocated hid
      · intro x₁ y₁ x₂ y₂ id' h₁ h₂
        rw [hsame] at h₁ h₂
        exact h.injective h₁ h₂
      · intro x' y' id' hid
        rw [hsame] at hid ⊢
        rw [hleaves, h.south hid]
      · intro x' y' id' hid
        rw [hsame] at hid ⊢
        rw [hleaves, h.east hid]
  | none =>
      obtain ⟨hnext, hleaves⟩ := leafFor_of_none hleaf
      rw [hleaf, Option.getD_none] at hsnd
      rw [hsnd] at hget
      have hfresh : ∀ x' y', m.getLeaf x' y' ≠ some m.nextLeaf :=
        fun x' y' hid => Nat.lt_irrefl _ (h.allocated hid)
      have hinj : ∀ {x₁ y₁ x₂ y₂ id}, (m.leafFor x y).1.getLeaf x₁ y₁ = some id →
          (m.leafFor x y).1.getLeaf x₂ y₂ = some id → SameBlock x₁ y₁ x₂ y₂ := by
        intro x₁ y₁ x₂ y₂ id h₁ h₂
        rw [hget] at h₁ h₂
        split at h₁
        · rename_i hb₁
          split at h₂
          · rename_i hb₂
            exact ⟨hb₁.1.trans hb₂.1.symm, hb₁.2.trans hb₂.2.symm⟩
          · exact absurd (h₂.trans h₁.symm) (hfresh x₂ y₂)
        · split at h₂
          · exact absurd (h₁.trans h₂.symm) (hfresh x₁ y₁)
          · exact h.injective h₁ h₂
      have hnorth : (m.leafFor x y).1.getLeaf x (y - 8) ≠ some m.nextLeaf := by
        rw [hget, if_neg (not_sameBlock_north x y)]
        exact hfresh _ _
      have hwest : (m.leafFor x y).1.getLeaf (x - 8) y ≠ some m.nextLeaf := by
        rw [hget, if_neg (not_sameBlock_west x y)]
        exact hfresh _ _
      have hspec := linkNewLeaf_spec hnorth hwest
        (Function.update_self m.nextLeaf emptyLeaf m.leaves)
      rw [← hleaves] at hspec
      have hkept : ∀ id, id ≠ m.nextLeaf →
          Function.update m.leaves m.nextLeaf emptyLeaf id = m.leaves id :=
        fun id hne => Function.update_of_ne hne _ _
      constructor
      · intro x' y' id hid
        rw [hnext]
        rw [hget] at hid
        split at hid
        · cases hid
          exact Nat.lt_succ_self _
        · exact Nat.lt_succ_of_lt (h.allocated hid)
      · exact hinj
      · intro x' y' id hid
        refine links_of_insert (fun q => (q.1, q.2 + 8)) (fun q => (q.1, q.2 - 8))
          (fun id => (m.leaves id).leafS) (fun id => ((m.leafFor x y).1.leaves id).leafS) (x, y)
          (fun {q r} (hb : SameBlock q.1 q.2 r.1 r.2) => ⟨getLeaf_congr _ hb, hb.south⟩)
          (fun q => sameBlock_south x y q.1 q.2) (fun q => hget q.1 q.2) hinj
          (fun q => hfresh q.1 q.2) (fun id => ?_) h.south (q := (x', y')) hid
        rw [hspec]
        by_cases hne : id = m.nextLeaf
        · simp only [if_pos hne]
        · simp only [if_neg hne, hkept id hne]
      · intro x' y' id hid
        refine links_of_insert (fun q => (q.1 + 8, q.2)) (fun q => (q.1 - 8, q.2))
          (fun id => (m.leaves id).leafE) (fun id => ((m.leafFor x y).1.leaves id).leafE) (x, y)
          (fun {q r} (hb : SameBlock q.1 q.2 r.1 r.2) => ⟨getLeaf_congr _ hb, hb.east⟩)
          (fun q => sameBlock_east x y q.1 q.2) (fun q => hget q.1 q.2) hinj
          (fun q => hfresh q.1 q.2) (fun id => ?_) h.east (q := (x', y')) hid
        rw [hspec]
        by_cases hne : id = m.nextLeaf
        · simp only [if_pos hne]
        · simp only [if_neg hne, hkept id hne]

/-! ## Setting a tile -/

theorem getTile_eq (m : Map α) (x y : UInt16) {z : UInt8} (h : z.toNat < mapMaxLayers) :
    m.getTile x y z = (m.getLeaf x y).bind fun leaf =>
      ((m.leaves leaf).array ⟨z.toNat, h⟩).bind fun floor => floor.tiles (offset x) (offset y) := by
  rw [getTile, dif_pos h, QTreeNode.getLeafStatic_eq_getLeaf, getLeaf]
  cases m.root.getLeaf x.toUInt32 y.toUInt32 with
  | none => rfl
  | some leaf =>
      simp only [Option.bind_some]
      cases (m.leaves leaf).array ⟨z.toNat, h⟩ <;> rfl

theorem getTile_of_invalid (m : Map α) (x y : UInt16) {z : UInt8} (h : ¬ z.toNat < mapMaxLayers) :
    m.getTile x y z = none :=
  dif_neg h

/-- Finding or making a leaf changes no floors; a new leaf has none. -/
theorem Linked.array_leafFor {m : Map α} (h : Linked m) (x y : UInt16) (id : LeafId) :
    ((m.leafFor x y).1.leaves id).array
      = if m.getLeaf x y = none ∧ id = m.nextLeaf then fun _ => none
        else (m.leaves id).array := by
  have hget := getLeaf_leafFor m x y
  have hsnd := leafFor_snd m x y
  cases hleaf : m.getLeaf x y with
  | some leaf =>
      rw [(leafFor_of_some hleaf).2, if_neg (by simp)]
  | none =>
      obtain ⟨-, hleaves⟩ := leafFor_of_none hleaf
      rw [hleaf, Option.getD_none] at hsnd
      rw [hsnd] at hget
      have hfresh : ∀ x' y', m.getLeaf x' y' ≠ some m.nextLeaf :=
        fun x' y' hid => Nat.lt_irrefl _ (h.allocated hid)
      have hnorth : (m.leafFor x y).1.getLeaf x (y - 8) ≠ some m.nextLeaf := by
        rw [hget, if_neg (not_sameBlock_north x y)]
        exact hfresh _ _
      have hwest : (m.leafFor x y).1.getLeaf (x - 8) y ≠ some m.nextLeaf := by
        rw [hget, if_neg (not_sameBlock_west x y)]
        exact hfresh _ _
      rw [hleaves, linkNewLeaf_spec hnorth hwest (Function.update_self _ _ _)]
      by_cases hid : id = m.nextLeaf
      · simp [hid, emptyLeaf]
      · simp [hid]

theorem Linked.getTile_leafFor {m : Map α} (h : Linked m) (x y x' y' : UInt16) (z : UInt8) :
    (m.leafFor x y).1.getTile x' y' z = m.getTile x' y' z := by
  by_cases hz : z.toNat < mapMaxLayers
  · have hget := getLeaf_leafFor m x y x' y'
    have hsnd := leafFor_snd m x y
    have harray := h.array_leafFor x y
    rw [getTile_eq _ _ _ hz, getTile_eq _ _ _ hz, hget]
    by_cases hblock : SameBlock x' y' x y
    · rw [if_pos hblock, getLeaf_congr m hblock]
      cases hleaf : m.getLeaf x y with
      | none =>
          rw [hleaf, Option.getD_none] at hsnd
          rw [Option.bind_some, harray, if_pos ⟨hleaf, hsnd⟩]
          rfl
      | some leaf =>
          rw [hleaf, Option.getD_some] at hsnd
          rw [Option.bind_some, Option.bind_some, harray, if_neg (by simp [hleaf]), hsnd]
    · rw [if_neg hblock]
      cases hleaf : m.getLeaf x' y' with
      | none => rfl
      | some leaf =>
          have hne : ¬ (m.getLeaf x y = none ∧ leaf = m.nextLeaf) := fun hc =>
            Nat.lt_irrefl _ (hc.2 ▸ h.allocated hleaf)
          rw [Option.bind_some, Option.bind_some, harray, if_neg hne]
  · rw [getTile_of_invalid _ _ _ hz, getTile_of_invalid _ _ _ hz]

theorem val_offset (x : UInt16) : (offset x).val = x.toNat % 8 := by
  have hand : (x &&& 7).toNat = x.toNat % 8 := by
    rw [UInt16.toNat_and]
    exact Nat.and_two_pow_sub_one_eq_mod _ 3
  simp only [offset, Fin.ofNat, hand, Nat.mod_mod]

/-- A position is its block and its offset in it. -/
theorem pos_eq_iff (x y x' y' : UInt16) :
    (x' = x ∧ y' = y) ↔ SameBlock x' y' x y ∧ offset x' = offset x ∧ offset y' = offset y := by
  simp only [← UInt16.toNat_inj, SameBlock, Fin.ext_iff, val_offset]
  omega

/-- The floor `setTile` works on, and what stands in the slot. -/
def floorAt (m : Map α) (x y : UInt16) (z : Fin mapMaxLayers) : Floor α :=
  createFloor ((m.leafFor x y).1.leaves (m.leafFor x y).2) z

theorem Linked.floorAt_tiles {m : Map α} (h : Linked m) (x y x' y' : UInt16) {z : UInt8}
    (hz : z.toNat < mapMaxLayers) (hblock : SameBlock x' y' x y) :
    (m.floorAt x y ⟨z.toNat, hz⟩).tiles (offset x') (offset y') = m.getTile x' y' z := by
  rw [← h.getTile_leafFor x y, getTile_eq _ _ _ hz, getLeaf_leafFor, if_pos hblock, Option.bind_some,
    floorAt, createFloor]
  cases ((m.leafFor x y).1.leaves (m.leafFor x y).2).array ⟨z.toNat, hz⟩ <;> rfl

theorem setTile_snd {m : Map α} (h : Linked m) (x y : UInt16) {z : UInt8} (newTile : α)
    (hz : z.toNat < mapMaxLayers) :
    (m.setTile x y z newTile).2 = match m.getTile x y z with
      | some tile => .mergedInto tile
      | none => .placed := by
  rw [setTile, dif_pos hz, ← h.floorAt_tiles x y x y hz (SameBlock.refl x y)]
  rfl

theorem getLeaf_setTile (m : Map α) (x y x' y' : UInt16) {z : UInt8} (newTile : α)
    (hz : z.toNat < mapMaxLayers) :
    (m.setTile x y z newTile).1.getLeaf x' y' = (m.leafFor x y).1.getLeaf x' y' := by
  rw [setTile, dif_pos hz]
  rfl

theorem leaves_setTile (m : Map α) (x y : UInt16) {z : UInt8} (newTile : α)
    (hz : z.toNat < mapMaxLayers) (id : LeafId) :
    ((m.setTile x y z newTile).1.leaves id).leafS = ((m.leafFor x y).1.leaves id).leafS
      ∧ ((m.setTile x y z newTile).1.leaves id).leafE = ((m.leafFor x y).1.leaves id).leafE
      ∧ ((m.setTile x y z newTile).1.leaves id).array
        = if id = (m.leafFor x y).2 then
            Function.update ((m.leafFor x y).1.leaves id).array ⟨z.toNat, hz⟩
              (some (match (m.floorAt x y ⟨z.toNat, hz⟩).tiles (offset x) (offset y) with
                | some _ => m.floorAt x y ⟨z.toNat, hz⟩
                | none => setSlot (m.floorAt x y ⟨z.toNat, hz⟩) (offset x) (offset y) newTile))
          else ((m.leafFor x y).1.leaves id).array := by
  rw [setTile, dif_pos hz]
  by_cases hid : id = (m.leafFor x y).2
  · subst hid
    simp only [Function.update_self, if_true, floorAt]
    exact ⟨trivial, trivial, trivial⟩
  · simp only [Function.update_of_ne hid, if_neg hid]
    exact ⟨trivial, trivial, trivial⟩

/-- The step lemma of the invariant. -/
theorem Linked.setTile {m : Map α} (h : Linked m) (x y : UInt16) (z : UInt8) (newTile : α) :
    Linked (m.setTile x y z newTile).1 := by
  by_cases hz : z.toNat < mapMaxLayers
  · have hleaf := h.leafFor x y
    have hget := fun x' y' => getLeaf_setTile m x y x' y' newTile hz
    have hnext : (m.setTile x y z newTile).1.nextLeaf = (m.leafFor x y).1.nextLeaf := by
      rw [Map.setTile, dif_pos hz]
    constructor
    · intro x' y' id hid
      rw [hget] at hid
      exact hnext ▸ hleaf.allocated hid
    · intro x₁ y₁ x₂ y₂ id h₁ h₂
      rw [hget] at h₁ h₂
      exact hleaf.injective h₁ h₂
    · intro x' y' id hid
      rw [hget] at hid ⊢
      rw [(leaves_setTile m x y newTile hz id).1]
      exact hleaf.south hid
    · intro x' y' id hid
      rw [hget] at hid ⊢
      rw [(leaves_setTile m x y newTile hz id).2.1]
      exact hleaf.east hid
  · rw [Map.setTile, dif_neg hz]
    exact h

theorem tiles_setSlot (f : Floor α) (i j i' j' : Fin 8) (tile : α) :
    (setSlot f i j tile).tiles i' j' = if i' = i ∧ j' = j then some tile else f.tiles i' j' := by
  simp only [setSlot, Function.update_apply]
  by_cases hi : i' = i
  · subst hi
    simp [Function.update_apply]
  · simp [hi]

/-- The step lemma of the contents: the first tile set in a slot stays. -/
theorem Linked.getTile_setTile {m : Map α} (h : Linked m) (x y : UInt16) {z : UInt8} (newTile : α)
    (hz : z.toNat < mapMaxLayers) (x' y' : UInt16) (z' : UInt8) :
    (m.setTile x y z newTile).1.getTile x' y' z'
      = if x' = x ∧ y' = y ∧ z' = z then some ((m.getTile x y z).getD newTile)
        else m.getTile x' y' z' := by
  by_cases hz' : z'.toNat < mapMaxLayers
  · have hsame := h.getTile_leafFor x y x' y' z'
    rw [getTile_eq _ _ _ hz'] at hsame ⊢
    rw [getLeaf_setTile m x y x' y' newTile hz]
    have hold := h.floorAt_tiles x y x y hz (SameBlock.refl x y)
    by_cases hblock : SameBlock x' y' x y
    · have hslot := h.floorAt_tiles x y x' y' hz hblock
      rw [getLeaf_leafFor, if_pos hblock, Option.bind_some] at hsame ⊢
      rw [(leaves_setTile m x y newTile hz _).2.2, if_pos rfl, Function.update_apply]
      by_cases hzz : z' = z
      · subst hzz
        rw [if_pos rfl, Option.bind_some]
        by_cases hpos : x' = x ∧ y' = y
        · obtain ⟨rfl, rfl⟩ := hpos
          rw [if_pos ⟨rfl, rfl, rfl⟩, hold]
          cases htile : m.getTile x' y' z' with
          | some tile =>
              rw [htile] at hold
              exact hold
          | none =>
              show (setSlot _ _ _ _).tiles _ _ = _
              rw [tiles_setSlot, if_pos ⟨rfl, rfl⟩]
              rfl
        · have hne : ¬ (offset x' = offset x ∧ offset y' = offset y) := fun hoff =>
            hpos ((pos_eq_iff x y x' y').mpr ⟨hblock, hoff⟩)
          rw [if_neg fun hc => hpos ⟨hc.1, hc.2.1⟩, ← hslot]
          cases (m.floorAt x y ⟨z'.toNat, hz⟩).tiles (offset x) (offset y) with
          | some tile => rfl
          | none =>
              show (setSlot _ _ _ _).tiles _ _ = _
              rw [tiles_setSlot, if_neg hne]
      · have hne : (⟨z'.toNat, hz'⟩ : Fin mapMaxLayers) ≠ ⟨z.toNat, hz⟩ := by
          intro heq
          have hval := Fin.mk.inj heq
          exact hzz (UInt8.toNat_inj.mp hval)
        rw [if_neg hne, if_neg fun hc => hzz hc.2.2]
        exact hsame
    · have hne : ∀ leaf, (m.leafFor x y).1.getLeaf x' y' = some leaf → leaf ≠ (m.leafFor x y).2 := by
        intro leaf hleaf heq
        refine hblock ((h.leafFor x y).injective hleaf ?_)
        rw [getLeaf_leafFor, if_pos (SameBlock.refl x y), heq]
      rw [if_neg fun hc => hblock ((pos_eq_iff x y x' y').mp ⟨hc.1, hc.2.1⟩).1, ← hsame]
      cases hleaf : (m.leafFor x y).1.getLeaf x' y' with
      | none => rfl
      | some leaf =>
          rw [Option.bind_some, Option.bind_some, (leaves_setTile m x y newTile hz leaf).2.2,
            if_neg (hne leaf hleaf)]
  · rw [getTile_of_invalid _ _ _ hz', getTile_of_invalid _ _ _ hz', if_neg]
    rintro ⟨-, -, rfl⟩
    exact hz' hz

/-! ## Runs -/

inductive Op (α : Type) where
  | setTile (x y : UInt16) (z : UInt8) (newTile : α)
  | removeTile (x y : UInt16) (z : UInt8)

def step (m : Map α) : Op α → Map α
  | .setTile x y z newTile => (m.setTile x y z newTile).1
  | .removeTile x y z => (m.removeTile x y z).1

def run (ops : List (Op α)) : Map α := ops.foldl step empty

/-- The tile an operation would put at a position. -/
def Op.tileAt (x y : UInt16) (z : UInt8) : Op α → Option α
  | .setTile x' y' z' newTile =>
      if z'.toNat < mapMaxLayers ∧ x = x' ∧ y = y' ∧ z = z' then some newTile else none
  | .removeTile _ _ _ => none

/-- The finite map the quadtree stands for: of the tiles set at a position the
first one. -/
def firstSet (ops : List (Op α)) (x y : UInt16) (z : UInt8) : Option α :=
  ops.findSome? (Op.tileAt x y z)

theorem getLeaf_empty (x y : UInt16) : (empty : Map α).getLeaf x y = none := by
  rw [getLeaf, empty, QTreeNode.getLeaf, QTreeNode.getLeaf]

theorem linked_empty : Linked (empty : Map α) where
  allocated := fun hid => by rw [getLeaf_empty] at hid; cases hid
  injective := fun hid => by rw [getLeaf_empty] at hid; cases hid
  south := fun hid => by rw [getLeaf_empty] at hid; cases hid
  east := fun hid => by rw [getLeaf_empty] at hid; cases hid

theorem getTile_empty (x y : UInt16) (z : UInt8) : (empty : Map α).getTile x y z = none := by
  by_cases hz : z.toNat < mapMaxLayers
  · rw [getTile_eq _ _ _ hz, getLeaf_empty]
    rfl
  · exact getTile_of_invalid _ _ _ hz

theorem Linked.step {m : Map α} (h : Linked m) (op : Op α) : Linked (m.step op) := by
  cases op with
  | setTile x y z newTile => exact h.setTile x y z newTile
  | removeTile x y z => exact h

theorem Linked.getTile_step {m : Map α} (h : Linked m) (op : Op α) (x y : UInt16) (z : UInt8) :
    (m.step op).getTile x y z = (m.getTile x y z).or (op.tileAt x y z) := by
  cases op with
  | removeTile x' y' z' => exact (Option.or_none).symm
  | setTile x' y' z' newTile =>
      by_cases hz : z'.toNat < mapMaxLayers
      · rw [Map.step, h.getTile_setTile x' y' newTile hz, Op.tileAt]
        by_cases hpos : x = x' ∧ y = y' ∧ z = z'
        · obtain ⟨rfl, rfl, rfl⟩ := hpos
          rw [if_pos ⟨rfl, rfl, rfl⟩, if_pos ⟨hz, rfl, rfl, rfl⟩]
          cases m.getTile x y z <;> rfl
        · rw [if_neg hpos, if_neg fun hc => hpos hc.2, Option.or_none]
      · rw [Map.step, Map.setTile, dif_neg hz, Op.tileAt, if_neg fun hc => hz hc.1, Option.or_none]

/-- The run lemma, from any map that keeps the invariant. -/
theorem Linked.foldl {m : Map α} (h : Linked m) (ops : List (Op α)) :
    Linked (ops.foldl Map.step m) ∧ ∀ x y z,
      (ops.foldl Map.step m).getTile x y z = (m.getTile x y z).or (firstSet ops x y z) := by
  induction ops generalizing m with
  | nil => exact ⟨h, fun x y z => (Option.or_none).symm⟩
  | cons op ops ih =>
      obtain ⟨hlinked, htile⟩ := ih (h.step op)
      refine ⟨hlinked, fun x y z => ?_⟩
      rw [List.foldl_cons, htile, h.getTile_step, Option.or_assoc]
      simp only [firstSet, List.findSome?_cons]
      cases op.tileAt x y z <;> rfl

theorem linked_run (ops : List (Op α)) : Linked (run ops) := (linked_empty.foldl ops).1

theorem getTile_run (ops : List (Op α)) (x y : UInt16) (z : UInt8) :
    (run ops).getTile x y z = firstSet ops x y z := by
  have htile := (linked_empty.foldl ops).2 x y z
  rwa [getTile_empty, Option.none_or] at htile

/-- After every run of operations the quadtree holds at each position the first
tile that was set there, later ones are merged into it, and each leaf is linked
to the leaves of the next block south and east, across the edge of the map. -/
theorem quadtree_refines (ops : List (Op α)) :
    (∀ x y z, (run ops).getTile x y z = firstSet ops x y z)
      ∧ (∀ x y z newTile, z.toNat < mapMaxLayers →
          ((run ops).setTile x y z newTile).2 = match firstSet ops x y z with
            | some tile => .mergedInto tile
            | none => .placed)
      ∧ ∀ x y leaf, (run ops).getLeaf x y = some leaf →
          ((run ops).leaves leaf).leafS = (run ops).getLeaf x (y + 8)
          ∧ ((run ops).leaves leaf).leafE = (run ops).getLeaf (x + 8) y := by
  have hlinked := linked_run ops
  refine ⟨getTile_run ops, fun x y z newTile hz => ?_, fun x y leaf hleaf => ?_⟩
  · rw [← getTile_run]
    exact setTile_snd hlinked x y newTile hz
  · exact ⟨hlinked.south hleaf, hlinked.east hleaf⟩

/-- Neither part of the finite map one might expect: the last tile set at a
position is not the one returned, and the leaf of the last row is linked south
to the leaf of the first. -/
theorem last_tile_and_edge_links :
    (¬ ∀ (ops : List (Op Nat)) (x y : UInt16) (z : UInt8) (newTile : Nat),
        z.toNat < mapMaxLayers →
          (run (ops ++ [.setTile x y z newTile])).getTile x y z = some newTile)
      ∧ ¬ ∀ (ops : List (Op Nat)) (x y : UInt16) (leaf : LeafId),
        (run ops).getLeaf x y = some leaf →
          ((run ops).leaves leaf).leafS
            = if y.toNat + 8 < 65536 then (run ops).getLeaf x (y + 8) else none := by
  constructor
  · intro hclaim
    have hlast := hclaim [.setTile 100 100 7 1] 100 100 7 2 (by decide)
    have hfirst := getTile_run [.setTile 100 100 7 1, .setTile 100 100 7 2] 100 100 7
    exact absurd (hfirst.symm.trans hlast) (by decide)
  · intro hclaim
    have hlinks := hclaim [.setTile 0 65535 7 1, .setTile 0 0 7 2] 0 65535 0 (by decide +kernel)
    exact absurd hlinks (by decide +kernel)

end Map

end Bruxo
