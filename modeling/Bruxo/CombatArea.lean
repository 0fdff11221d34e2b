import Bruxo.Lib.Loops
import Bruxo.MatrixArea
import Bruxo.PathSearch
import Bruxo.SightLine
import Mathlib.Data.List.Induction
import Mathlib.Data.Nat.ModEq

/-!
# The tiles of a combat area

`createArea` (`matrixarea.cpp`) and `getList` (`combat.cpp`). The values of an area come from a
script with the number of its rows, of which the number of columns is made; a value that is left
over is written outside of the array, which is undefined. The positions of the cells are walked
along in coordinates that go round, and missing tiles are made on the way.

A tile is the position that it is at.
-/

namespace Bruxo.CombatArea

open MatrixArea (word)
open SightLine (Tile isTileClear isSightClear)
open WalkCache (toCoordinate)

/-! ## Creating an area -/

/-- The columns of a number of values in rows. -/
def columns (size : Nat) (rows : UInt32) : UInt32 :=
  if rows = 0 then 0 else UInt32.ofNat (size / rows.toNat)

def newArea (rows cols : UInt32) : MatrixArea where
  arr := List.replicate (word (rows.toNat * cols.toNat)) false
  center := (0, 0)
  rows := rows.toNat
  cols := cols.toNat
  allocated := List.length_replicate

/-- `area(row, col) = true` -/
def mark (area : MatrixArea) (row col : Nat) : Option MatrixArea :=
  if word (row * area.cols + col) < area.arr.length then
    some
      { area with
        arr := area.arr.set (word (row * area.cols + col)) true
        allocated := by rw [List.length_set, area.allocated] }
  else none

def setCenter (area : MatrixArea) (y x : Nat) : MatrixArea := { area with center := (x, y) }

structure Loop where
  area : MatrixArea
  x : UInt32
  y : UInt32

/-- The coordinates of the next value. -/
def Loop.next (s : Loop) : Loop :=
  if s.area.cols = (s.x + 1).toNat then { s with x := 0, y := s.y + 1 }
  else { s with x := s.x + 1 }

def readValue (s : Loop) (value : UInt32) : Option Loop :=
  (if value = 1 ∨ value = 3 then mark s.area s.y.toNat s.x.toNat else some s.area).map fun area =>
    { s with
      area := if value = 2 ∨ value = 3 then setCenter area s.y.toNat s.x.toNat else area }.next

def createArea (vec : List UInt32) (rows : UInt32) : Option MatrixArea :=
  (vec.foldlM readValue ⟨newArea rows (columns vec.length rows), 0, 0⟩).map Loop.area

/-! ## The walk over the cells -/

/-- No direction leaves the position as it is. -/
def getNextPosition (dir : Option PathSearch.Direction) (pos : Position) : Position :=
  match dir with
  | none => pos
  | some dir => PathSearch.getNextPosition dir pos

structure Walk where
  tmpPos : Position
  map : Map Tile
  vec : List Position

/-- The tile of the position, which is made if it is missing. -/
def Walk.pushBack (w : Walk) : Walk :=
  { w with
    map :=
      if (w.map.getTile w.tmpPos.x w.tmpPos.y w.tmpPos.z).isSome then w.map
      else (w.map.setTile w.tmpPos.x w.tmpPos.y w.tmpPos.z ⟨none, []⟩).1
    vec := w.vec ++ [w.tmpPos] }

def Walk.east (w : Walk) : Walk := { w with tmpPos := { w.tmpPos with x := w.tmpPos.x + 1 } }

/-- Back to the first column of the next row. -/
def Walk.nextRow (w : Walk) (cols : Nat) : Walk :=
  { w with
    tmpPos := { w.tmpPos with x := w.tmpPos.x - UInt16.ofNat cols, y := w.tmpPos.y + 1 } }

section GetList

variable (blockProjectile : UInt16 → Bool) (casterPos : Position) (area : MatrixArea)

/-- `area(row, col)` outside of the array is undefined. -/
def visit (row : Nat) (w : Walk) (col : Nat) : Option Walk :=
  (area.cell row col).map fun marked =>
    if marked && isSightClear blockProjectile w.map casterPos w.tmpPos true then w.pushBack.east
    else w.east

def visitRow (w : Walk) (row : Nat) : Option Walk :=
  ((List.range area.cols).foldlM (visit blockProjectile casterPos area row) w).map
    fun w => w.nextRow area.cols

/-- The position of the first cell. -/
def firstPos (targetPos : Position) : Position where
  x := (targetPos.x.toUInt32 - UInt32.ofNat area.center.1).toUInt16
  y := (targetPos.y.toUInt32 - UInt32.ofNat area.center.2).toUInt16
  z := targetPos.z

/-- The map with the tiles that were made, and the tiles of the list. -/
def getList (m : Map Tile) (targetPos : Position) (dir : Option PathSearch.Direction) :
    Option Walk :=
  (List.range area.rows).foldlM
    (visitRow blockProjectile (getNextPosition dir targetPos) area)
    ⟨firstPos area targetPos, m, []⟩

end GetList

/-! ## Where the cells are -/

/-- The target plus the cell minus the centre. -/
def place (center : Nat × Nat) (targetPos : Position) (row col : Nat) : Int × Int :=
  (targetPos.x.toNat + col - center.1, targetPos.y.toNat + row - center.2)

def InRange (p : Int × Int) : Prop := (0 ≤ p.1 ∧ p.1 < 65536) ∧ 0 ≤ p.2 ∧ p.2 < 65536

instance (p : Int × Int) : Decidable (InRange p) := inferInstanceAs (Decidable (_ ∧ _))

def toPosition (p : Int × Int) (z : UInt8) : Position := ⟨toCoordinate p.1, toCoordinate p.2, z⟩

section Spec

variable (blockProjectile : UInt16 → Bool) (m : Map Tile)
  (targetPos : Position) (dir : Option PathSearch.Direction)

/-- Whether the caster sees the position on the map as it is before the walk. -/
def Seen (pos : Position) : Prop :=
  isSightClear blockProjectile m (getNextPosition dir targetPos) pos true = true

instance (pos : Position) : Decidable (Seen blockProjectile m targetPos dir pos) :=
  inferInstanceAs (Decidable (_ = _))

/-- The tile of a cell that is marked, in range and in sight. -/
def tileAt (area : MatrixArea) (c : Nat × Nat) : Option Position :=
  let p := place area.center targetPos c.1 c.2
  let pos := toPosition p targetPos.z
  if area.cell c.1 c.2 = some true ∧ InRange p ∧ Seen blockProjectile m targetPos dir pos then
    some pos
  else none

/-- An area is made of the values, and the list has the tile of each of its cells that is marked,
in range and in sight, row by row, and no other; on a floor of the map they are all there. -/
def Placed (vec : List UInt32) (rows : UInt32) : Prop :=
  ∃ area w, createArea vec rows = some area ∧
    getList blockProjectile area m targetPos dir = some w ∧
    w.vec = (Loops.cells area.rows area.cols).filterMap
      (tileAt blockProjectile m targetPos dir area) ∧
    (targetPos.z.toNat < mapMaxLayers →
      ∀ pos ∈ w.vec, (w.map.getTile pos.x pos.y pos.z).isSome = true)

/-- Where the last value that is a centre goes. -/
def centerOf (cols : Nat) (vec : List UInt32) : Nat × Nat :=
  vec.zipIdx.foldl
    (fun center v => if v.1 = 2 ∨ v.1 = 3 then (v.2 % cols, v.2 / cols % 2 ^ 32) else center) (0, 0)

/-- Every value that marks a cell has one, and where the cell is out of range the caster does not
see the position that its coordinates come round to. -/
structure Fits (vec : List UInt32) (rows : UInt32) : Prop where
  size : rows.toNat * (columns vec.length rows).toNat < 2 ^ 32
  inside : ∀ (i : Nat) (v : UInt32), vec[i]? = some v → v = 1 ∨ v = 3 →
    i % 2 ^ 32 < rows.toNat * (columns vec.length rows).toNat
  sight : ∀ (i : Nat) (v : UInt32), vec[i]? = some v → v = 1 ∨ v = 3 →
    let cols := (columns vec.length rows).toNat
    let p := place (centerOf cols vec) targetPos (i % 2 ^ 32 / cols) (i % 2 ^ 32 % cols)
    InRange p ∨ ¬ Seen blockProjectile m targetPos dir (toPosition p targetPos.z)

end Spec

/-! ## The values of an area -/

section Counters

variable {cols i : Nat} {x y : UInt32}

/-- The counters at a value. With no columns only the first one counts. -/
def Counted (cols i : Nat) (x y : UInt32) : Prop :=
  (cols = 0 → x.toNat = i % 2 ^ 32) ∧
    (0 < cols → x.toNat = i % cols ∧ y.toNat = i / cols % 2 ^ 32)

/-- However the counters wrap, the place in the array is the number of the value. -/
theorem Counted.word_index (h : Counted cols i x y) :
    word (y.toNat * cols + x.toNat) = i % 2 ^ 32 := by
  rcases Nat.eq_zero_or_pos cols with hzero | hpos
  · rw [h.1 hzero, hzero, Nat.mul_zero, Nat.zero_add]
    exact Nat.mod_mod i (2 ^ 32)
  · obtain ⟨hx, hy⟩ := h.2 hpos
    have hmod : Nat.ModEq (2 ^ 32) (y.toNat * cols + x.toNat) (i / cols * cols + i % cols) := by
      rw [hx, hy]
      exact ((Nat.mod_modEq _ _).mul_right cols).add_right _
    rw [Nat.div_add_mod'] at hmod
    exact hmod

theorem Counted.succ (hcols : cols < 2 ^ 32) (h : Counted cols i x y) :
    if cols = (x + 1).toNat then Counted cols (i + 1) 0 (y + 1)
    else Counted cols (i + 1) (x + 1) y := by
  rcases Nat.eq_zero_or_pos cols with hzero | hpos
  · have hx : (x + 1).toNat = (i + 1) % 2 ^ 32 := by
      rw [UInt32.toNat_add, h.1 hzero]
      exact Nat.mod_add_mod i (2 ^ 32) 1
    split
    · next heq =>
        refine ⟨fun _ => ?_, fun h => absurd hzero h.ne'⟩
        rw [← hx, ← heq, hzero]
        rfl
    · exact ⟨fun _ => hx, fun h => absurd hzero h.ne'⟩
  · obtain ⟨hx, hy⟩ := h.2 hpos
    have hlt : i % cols < cols := Nat.mod_lt i hpos
    have hnext : (x + 1).toNat = i % cols + 1 := by
      rw [UInt32.toNat_add, hx]
      have hone : (1 : UInt32).toNat = 1 := rfl
      exact Nat.mod_eq_of_lt (by omega)
    have hi : i + 1 = i / cols * cols + (i % cols + 1) := by
      rw [← Nat.add_assoc, Nat.div_add_mod']
    rw [hnext]
    split
    · next heq =>
        have hrow : i + 1 = (i / cols + 1) * cols + 0 := by rw [Nat.succ_mul, Nat.add_zero]; omega
        refine ⟨fun hzero => absurd hzero hpos.ne', fun _ => ⟨?_, ?_⟩⟩
        · rw [hrow, RowMajor.index_mod hpos]
          rfl
        · rw [hrow, RowMajor.index_div hpos, UInt32.toNat_add, hy]
          exact Nat.mod_add_mod (i / cols) (2 ^ 32) 1
    · next hne =>
        have hinside : i % cols + 1 < cols := by omega
        refine ⟨fun hzero => absurd hzero hpos.ne', fun _ => ⟨?_, ?_⟩⟩
        · rw [hnext, hi, RowMajor.index_mod hinside]
        · rw [hi, RowMajor.index_div hinside, hy]

end Counters

section Values

variable {vec : List UInt32} {v : UInt32} {n cols j : Nat}

/-- What is written is written inside of an array of `n`. -/
def Inside (n : Nat) (vec : List UInt32) : Prop :=
  ∀ (i : Nat) (v : UInt32), vec[i]? = some v → v = 1 ∨ v = 3 → i % 2 ^ 32 < n

/-- A value marks the place in the array. -/
def MarkedAt (vec : List UInt32) (j : Nat) : Prop :=
  ∃ (i : Nat) (v : UInt32), vec[i]? = some v ∧ (v = 1 ∨ v = 3) ∧ i % 2 ^ 32 = j

theorem getElem?_concat_iff {i : Nat} {u : UInt32} :
    (vec ++ [v])[i]? = some u ↔ vec[i]? = some u ∨ i = vec.length ∧ v = u := by
  rcases Nat.lt_trichotomy i vec.length with hlt | heq | hgt
  · rw [List.getElem?_append_left hlt]
    exact (or_iff_left fun h => hlt.ne h.1).symm
  · rw [List.getElem?_append_right heq.ge, List.getElem?_eq_none heq.ge, heq, Nat.sub_self,
      List.getElem?_cons_zero, Option.some_inj]
    exact ⟨fun h => .inr ⟨rfl, h⟩, fun h => (h.resolve_left fun h => by cases h).2⟩
  · rw [List.getElem?_eq_none hgt.le, List.getElem?_eq_none (by rw [List.length_append]; exact hgt)]
    exact iff_of_false (fun h => by cases h) fun h =>
      h.elim (fun h => by cases h) fun h => hgt.ne' h.1

theorem inside_concat :
    Inside n (vec ++ [v]) ↔ Inside n vec ∧ (v = 1 ∨ v = 3 → vec.length % 2 ^ 32 < n) := by
  constructor
  · intro h
    refine ⟨fun i u hu => h i u (getElem?_concat_iff.mpr (.inl hu)), h vec.length v ?_⟩
    exact getElem?_concat_iff.mpr (.inr ⟨rfl, rfl⟩)
  · rintro ⟨hvec, hlast⟩ i u hu
    rcases getElem?_concat_iff.mp hu with hu | ⟨rfl, rfl⟩
    · exact hvec i u hu
    · exact hlast

theorem markedAt_concat :
    MarkedAt (vec ++ [v]) j ↔ MarkedAt vec j ∨ (v = 1 ∨ v = 3) ∧ vec.length % 2 ^ 32 = j := by
  constructor
  · rintro ⟨i, u, hu, hmarks, hj⟩
    rcases getElem?_concat_iff.mp hu with hu | ⟨rfl, rfl⟩
    · exact .inl ⟨i, u, hu, hmarks, hj⟩
    · exact .inr ⟨hmarks, hj⟩
  · rintro (⟨i, u, hu, hmarks, hj⟩ | ⟨hmarks, hj⟩)
    · exact ⟨i, u, getElem?_concat_iff.mpr (.inl hu), hmarks, hj⟩
    · exact ⟨vec.length, v, getElem?_concat_iff.mpr (.inr ⟨rfl, rfl⟩), hmarks, hj⟩

theorem centerOf_concat :
    centerOf cols (vec ++ [v]) =
      if v = 2 ∨ v = 3 then (vec.length % cols, vec.length / cols % 2 ^ 32)
      else centerOf cols vec := by
  rw [centerOf, List.zipIdx_append, List.foldl_append, Nat.zero_add]
  rfl

end Values

/-- The area and the counters after the values of a list. -/
structure Filled (empty : MatrixArea) (vec : List UInt32) (s : Loop) : Prop where
  rows : s.area.rows = empty.rows
  cols : s.area.cols = empty.cols
  length : s.area.arr.length = empty.arr.length
  counted : Counted empty.cols vec.length s.x s.y
  arr : ∀ j < empty.arr.length, s.area.arr[j]? = some true ↔ MarkedAt vec j
  center : 0 < empty.cols → s.area.center = centerOf empty.cols vec

section Filled

variable {empty area : MatrixArea} {vec : List UInt32} {v : UInt32} {s : Loop}

theorem mark_eq_some {row col : Nat} (h : word (row * area.cols + col) < area.arr.length) :
    ∃ area', mark area row col = some area' ∧ area'.rows = area.rows ∧ area'.cols = area.cols ∧
      area'.center = area.center ∧
      area'.arr = area.arr.set (word (row * area.cols + col)) true :=
  ⟨_, if_pos h, rfl, rfl, rfl, rfl⟩

theorem mark_eq_none {row col : Nat} (h : ¬ word (row * area.cols + col) < area.arr.length) :
    mark area row col = none := if_neg h

theorem Loop.next_area (s : Loop) : s.next.area = s.area := by
  unfold Loop.next
  split
  · rfl
  · rfl

/-- The area after the value is written, before it can become the centre. -/
theorem Filled.marked (h : Filled empty vec s)
    (hinside : v = 1 ∨ v = 3 → vec.length % 2 ^ 32 < empty.arr.length) :
    ∃ area, (if v = 1 ∨ v = 3 then mark s.area s.y.toNat s.x.toNat else some s.area) = some area ∧
      area.rows = empty.rows ∧ area.cols = empty.cols ∧ area.center = s.area.center ∧
      area.arr.length = empty.arr.length ∧
      ∀ j < empty.arr.length, area.arr[j]? = some true ↔ MarkedAt (vec ++ [v]) j := by
  have hindex : word (s.y.toNat * s.area.cols + s.x.toNat) = vec.length % 2 ^ 32 := by
    rw [h.cols]
    exact h.counted.word_index
  by_cases hmarks : v = 1 ∨ v = 3
  · have hlt := hinside hmarks
    obtain ⟨area, harea, hrows, hcols, hcenter, harr⟩ :=
      @mark_eq_some s.area s.y.toNat s.x.toNat (by rw [hindex, h.length]; exact hlt)
    rw [hindex] at harr
    rw [if_pos hmarks]
    refine ⟨area, harea, hrows.trans h.rows, hcols.trans h.cols, hcenter, ?_, fun j hj => ?_⟩
    · rw [harr, List.length_set, h.length]
    rw [harr, List.getElem?_set, markedAt_concat, h.length, if_pos hlt]
    split
    · next heq => exact iff_of_true rfl (.inr ⟨hmarks, heq⟩)
    · next hne =>
        rw [h.arr j hj]
        exact (or_iff_left fun h => hne h.2).symm
  · rw [if_neg hmarks]
    refine ⟨s.area, rfl, h.rows, h.cols, rfl, h.length, fun j hj => ?_⟩
    rw [h.arr j hj, markedAt_concat]
    exact (or_iff_left fun h => hmarks h.1).symm

theorem Filled.readValue (hcols : empty.cols < 2 ^ 32) (h : Filled empty vec s)
    (hinside : v = 1 ∨ v = 3 → vec.length % 2 ^ 32 < empty.arr.length) :
    ∃ s', readValue s v = some s' ∧ Filled empty (vec ++ [v]) s' := by
  obtain ⟨area, harea, hrows, hcols', hcenter, hlength, harr⟩ := h.marked hinside
  have hcounted := h.counted.succ hcols
  rw [CombatArea.readValue, harea]
  refine ⟨_, rfl, ?_⟩
  have hkept : (if v = 2 ∨ v = 3 then setCenter area s.y.toNat s.x.toNat else area).rows =
      empty.rows ∧
      (if v = 2 ∨ v = 3 then setCenter area s.y.toNat s.x.toNat else area).cols = empty.cols ∧
      (if v = 2 ∨ v = 3 then setCenter area s.y.toNat s.x.toNat else area).arr = area.arr := by
    split
    · exact ⟨hrows, hcols', rfl⟩
    · exact ⟨hrows, hcols', rfl⟩
  obtain ⟨hkeptRows, hkeptCols, hkeptArr⟩ := hkept
  refine ⟨?_, ?_, ?_, ?_, fun j hj => ?_, fun hpos => ?_⟩
  · rw [Loop.next_area]
    exact hkeptRows
  · rw [Loop.next_area]
    exact hkeptCols
  · rw [Loop.next_area]
    exact (congrArg List.length hkeptArr).trans hlength
  · unfold Loop.next
    dsimp only
    rw [hkeptCols, List.length_append, List.length_singleton]
    split
    · next heq => rwa [if_pos heq] at hcounted
    · next hne => rwa [if_neg hne] at hcounted
  · rw [Loop.next_area]
    dsimp only
    rw [hkeptArr]
    exact harr j hj
  · rw [Loop.next_area, centerOf_concat]
    dsimp only
    obtain ⟨hx, hy⟩ := h.counted.2 hpos
    split
    · exact Prod.ext hx hy
    · exact hcenter.trans (h.center hpos)

theorem Filled.readValue_eq_none (h : Filled empty vec s) (hmarks : v = 1 ∨ v = 3)
    (houtside : ¬ vec.length % 2 ^ 32 < empty.arr.length) :
    CombatArea.readValue s v = none := by
  have hindex : word (s.y.toNat * s.area.cols + s.x.toNat) = vec.length % 2 ^ 32 := by
    rw [h.cols]
    exact h.counted.word_index
  have hnone := @mark_eq_none s.area s.y.toNat s.x.toNat
    (by rw [hindex, h.length]; exact houtside)
  rw [CombatArea.readValue, if_pos hmarks, hnone]
  rfl

theorem filled_newArea (rows cols : UInt32) :
    Filled (newArea rows cols) [] ⟨newArea rows cols, 0, 0⟩ where
  rows := rfl
  cols := rfl
  length := rfl
  counted := by
    refine ⟨fun _ => rfl, fun _ => ⟨(Nat.zero_mod _).symm, ?_⟩⟩
    rw [List.length_nil, Nat.zero_div]
    rfl
  arr j hj := by
    refine iff_of_false (fun h => ?_) ?_
    · have hfalse := List.eq_of_mem_replicate (List.mem_of_getElem? h)
      cases hfalse
    · rintro ⟨i, v, hv, -⟩
      cases hv
  center _ := rfl

theorem foldlM_readValue (rows cols : UInt32) (vec : List UInt32) :
    (Inside (newArea rows cols).arr.length vec →
      ∃ s, vec.foldlM CombatArea.readValue ⟨newArea rows cols, 0, 0⟩ = some s ∧
        Filled (newArea rows cols) vec s) ∧
    (¬ Inside (newArea rows cols).arr.length vec →
      vec.foldlM CombatArea.readValue ⟨newArea rows cols, 0, 0⟩ = none) := by
  induction vec using List.reverseRecOn with
  | nil =>
      refine ⟨fun _ => ⟨_, rfl, filled_newArea rows cols⟩, fun h => absurd ?_ h⟩
      intro i v hv
      cases hv
  | append_singleton vec v ih =>
      rw [inside_concat, Loops.foldlM_concat]
      by_cases hvec : Inside (newArea rows cols).arr.length vec
      · obtain ⟨s, hs, hfilled⟩ := ih.1 hvec
        rw [hs, and_iff_right hvec]
        constructor
        · exact fun hlast => hfilled.readValue cols.toNat_lt hlast
        · intro hlast
          obtain ⟨hmarks, houtside⟩ := Classical.not_imp.mp hlast
          exact hfilled.readValue_eq_none hmarks houtside
      · rw [ih.2 hvec]
        exact ⟨fun h => absurd h.1 hvec, fun _ => rfl⟩

/-- What `createArea` makes, where no value is written outside of the array. -/
structure Created (vec : List UInt32) (rowCount : UInt32) (area : MatrixArea) : Prop where
  rows : area.rows = rowCount.toNat
  cols : area.cols = (columns vec.length rowCount).toNat
  arr : ∀ j < area.arr.length, area.arr[j]? = some true ↔ MarkedAt vec j
  center : 0 < area.cols → area.center = centerOf area.cols vec

theorem createArea_of_inside {rows : UInt32}
    (h : Inside (word (rows.toNat * (columns vec.length rows).toNat)) vec) :
    ∃ area, createArea vec rows = some area ∧ Created vec rows area := by
  have hlength : (newArea rows (columns vec.length rows)).arr.length =
      word (rows.toNat * (columns vec.length rows).toNat) := List.length_replicate
  rw [← hlength] at h
  obtain ⟨s, hs, hfilled⟩ := (foldlM_readValue rows (columns vec.length rows) vec).1 h
  refine ⟨s.area, by rw [createArea, hs]; rfl, hfilled.rows, hfilled.cols, ?_, ?_⟩
  · rw [hfilled.length]
    exact hfilled.arr
  · rw [hfilled.cols]
    exact hfilled.center

theorem createArea_eq_none {rows : UInt32}
    (h : ¬ Inside (word (rows.toNat * (columns vec.length rows).toNat)) vec) :
    createArea vec rows = none := by
  have hlength : (newArea rows (columns vec.length rows)).arr.length =
      word (rows.toNat * (columns vec.length rows).toNat) := List.length_replicate
  rw [← hlength] at h
  rw [createArea, (foldlM_readValue rows (columns vec.length rows) vec).2 h]
  rfl

end Filled

/-! ## Coordinates that go round -/

section Coordinates

theorem toCoordinate_eq_ofInt (v : Int) : toCoordinate v = UInt16.ofInt v := rfl

theorem toCoordinate_add_one (v : Int) : toCoordinate (v + 1) = toCoordinate v + 1 := by
  rw [toCoordinate_eq_ofInt, UInt16.ofInt_add]
  rfl

theorem toCoordinate_natCast (n : Nat) : toCoordinate n = UInt16.ofNat n := by
  rw [← UInt16.toNat_inj, toCoordinate, UInt16.toNat_ofNat', UInt16.toNat_ofNat']
  omega

theorem toCoordinate_add_sub (v : Int) (n : Nat) :
    toCoordinate (v + n) - UInt16.ofNat n = toCoordinate v := by
  rw [toCoordinate_eq_ofInt, UInt16.ofInt_add, ← toCoordinate_eq_ofInt n, toCoordinate_natCast,
    UInt16.add_sub_cancel]
  rfl

theorem toCoordinate_sub (x : UInt16) (n : Nat) :
    (x.toUInt32 - UInt32.ofNat n).toUInt16 = toCoordinate (x.toNat - n) := by
  have hx := x.toNat_lt
  rw [← UInt16.toNat_inj, toCoordinate, UInt16.toNat_ofNat', UInt32.toNat_toUInt16,
    UInt32.toNat_sub, UInt16.toNat_toUInt32, UInt32.toNat_ofNat']
  omega

variable (center : Nat × Nat) (targetPos : Position) (row col : Nat)

/-- Where the walk is at a cell. -/
def cellPos : Position := toPosition (place center targetPos row col) targetPos.z

theorem firstPos_eq (area : MatrixArea) :
    firstPos area targetPos = cellPos area.center targetPos 0 0 := by
  have hzero (a b : Int) : a + (0 : Nat) - b = a - b := by omega
  rw [firstPos, toCoordinate_sub, toCoordinate_sub, cellPos, toPosition, place, hzero, hzero]

theorem cellPos_succ_col :
    cellPos center targetPos row (col + 1) =
      { cellPos center targetPos row col with x := (cellPos center targetPos row col).x + 1 } := by
  have hx : (targetPos.x.toNat : Int) + (col + 1 : Nat) - center.1 =
      targetPos.x.toNat + col - center.1 + 1 := by omega
  rw [cellPos, toPosition, place, hx]
  dsimp only
  rw [toCoordinate_add_one]
  rfl

theorem cellPos_succ_row :
    cellPos center targetPos (row + 1) 0 =
      { cellPos center targetPos row col with
        x := (cellPos center targetPos row col).x - UInt16.ofNat col
        y := (cellPos center targetPos row col).y + 1 } := by
  have hx : (targetPos.x.toNat : Int) + col - center.1 = targetPos.x.toNat - center.1 + col := by
    omega
  have hy : (targetPos.y.toNat : Int) + (row + 1 : Nat) - center.2 =
      targetPos.y.toNat + row - center.2 + 1 := by omega
  have hzero : (targetPos.x.toNat : Int) + (0 : Nat) - center.1 = targetPos.x.toNat - center.1 := by
    omega
  rw [cellPos, cellPos, toPosition, toPosition, place, place, hx, hy, hzero]
  dsimp only
  rw [toCoordinate_add_one, toCoordinate_add_sub]

end Coordinates

/-! ## The walk -/

/-- The tiles that were made change nothing that is seen, and those of the list are there. -/
structure Walked (blockProjectile : UInt16 → Bool) (m : Map Tile) (found : List Position)
    (w : Walk) : Prop where
  linked : w.map.Linked
  clear : isTileClear blockProjectile w.map = isTileClear blockProjectile m
  vec : w.vec = found
  there : ∀ pos ∈ w.vec, pos.z.toNat < mapMaxLayers →
    (w.map.getTile pos.x pos.y pos.z).isSome = true

section Walk

variable {blockProjectile : UInt16 → Bool} {m : Map Tile} {found : List Position} {w : Walk}

/-- An empty tile is as clear as none. -/
theorem isTileClear_setTile (h : m.Linked) {x y : UInt16} {z : UInt8}
    (hnone : m.getTile x y z = none) :
    isTileClear blockProjectile (m.setTile x y z ⟨none, []⟩).1 = isTileClear blockProjectile m := by
  by_cases hz : z.toNat < mapMaxLayers
  · funext x' y' z' blockFloor
    unfold isTileClear
    rw [h.getTile_setTile x y _ hz]
    split_ifs with hsame
    · obtain ⟨rfl, rfl, rfl⟩ := hsame
      rw [hnone]
      cases blockFloor <;> rfl
    · rfl
  · rw [Map.setTile, dif_neg hz]

theorem getTile_setTile_isSome (h : m.Linked) (x y : UInt16) (z : UInt8) (tile : Tile)
    {pos : Position} (hpos : (m.getTile pos.x pos.y pos.z).isSome = true) :
    ((m.setTile x y z tile).1.getTile pos.x pos.y pos.z).isSome = true := by
  by_cases hz : z.toNat < mapMaxLayers
  · rw [h.getTile_setTile x y tile hz]
    split
    · rfl
    · exact hpos
  · rwa [Map.setTile, dif_neg hz]

theorem Walked.pushBack (h : Walked blockProjectile m found w) :
    Walked blockProjectile m (found ++ [w.tmpPos]) w.pushBack := by
  have hvec : w.pushBack.vec = found ++ [w.tmpPos] := by rw [Walk.pushBack, h.vec]
  by_cases hsome : (w.map.getTile w.tmpPos.x w.tmpPos.y w.tmpPos.z).isSome = true
  · have hmap : w.pushBack.map = w.map := if_pos hsome
    refine ⟨hmap ▸ h.linked, hmap ▸ h.clear, hvec, fun pos hpos hz => ?_⟩
    rw [hmap]
    rw [hvec, ← h.vec] at hpos
    rcases List.mem_append.mp hpos with hpos | hpos
    · exact h.there pos hpos hz
    · obtain rfl := List.mem_singleton.mp hpos
      exact hsome
  · have hmap : w.pushBack.map =
        (w.map.setTile w.tmpPos.x w.tmpPos.y w.tmpPos.z ⟨none, []⟩).1 := if_neg hsome
    refine ⟨?_, ?_, hvec, fun pos hpos hz => ?_⟩
    · rw [hmap]
      exact h.linked.setTile _ _ _ _
    · rw [hmap, isTileClear_setTile h.linked (Option.not_isSome_iff_eq_none.mp hsome), h.clear]
    · rw [hmap]
      rw [hvec, ← h.vec] at hpos
      rcases List.mem_append.mp hpos with hpos | hpos
      · exact getTile_setTile_isSome h.linked _ _ _ _ (h.there pos hpos hz)
      · obtain rfl := List.mem_singleton.mp hpos
        rw [h.linked.getTile_setTile _ _ _ hz, if_pos ⟨rfl, rfl, rfl⟩]
        rfl

/-- The list does not depend on where the walk is. -/
theorem Walked.at (h : Walked blockProjectile m found w) (pos : Position) :
    Walked blockProjectile m found { w with tmpPos := pos } :=
  ⟨h.linked, h.clear, h.vec, h.there⟩

variable {area : MatrixArea} {targetPos : Position} {dir : Option PathSearch.Direction}
  {row col : Nat}

variable (blockProjectile m targetPos dir area) in
/-- The tile of a cell that is marked and in sight, where its coordinates come round to. -/
def picked (c : Nat × Nat) : Option Position :=
  if area.cell c.1 c.2 = some true ∧
      Seen blockProjectile m targetPos dir (cellPos area.center targetPos c.1 c.2) then
    some (cellPos area.center targetPos c.1 c.2)
  else none

theorem Walked.visit {marked : Bool} (hcell : area.cell row col = some marked)
    (h : Walked blockProjectile m found w)
    (hpos : w.tmpPos = cellPos area.center targetPos row col) :
    ∃ w', visit blockProjectile (getNextPosition dir targetPos) area row w col = some w' ∧
      w'.tmpPos = cellPos area.center targetPos row (col + 1) ∧
      Walked blockProjectile m
        (found ++ (picked blockProjectile m area targetPos dir (row, col)).toList) w' := by
  have hseen : isSightClear blockProjectile w.map (getNextPosition dir targetPos) w.tmpPos true =
      true ↔ Seen blockProjectile m targetPos dir (cellPos area.center targetPos row col) := by
    rw [SightLine.isSightClear_congr h.clear, hpos]
    exact Iff.rfl
  have heast : w.east.tmpPos = cellPos area.center targetPos row (col + 1) := by
    rw [cellPos_succ_col, ← hpos]
    rfl
  have hvisit : CombatArea.visit blockProjectile (getNextPosition dir targetPos) area row w col =
      some (if marked && isSightClear blockProjectile w.map (getNextPosition dir targetPos) w.tmpPos
        true then w.pushBack.east else w.east) := by
    rw [CombatArea.visit, hcell]
    rfl
  have hiff : (marked && isSightClear blockProjectile w.map (getNextPosition dir targetPos)
      w.tmpPos true) = true ↔ area.cell row col = some true ∧
        Seen blockProjectile m targetPos dir (cellPos area.center targetPos row col) := by
    rw [Bool.and_eq_true, hseen, hcell, Option.some_inj]
  rw [picked]
  dsimp only
  by_cases htaken : area.cell row col = some true ∧
      Seen blockProjectile m targetPos dir (cellPos area.center targetPos row col)
  · rw [if_pos (hiff.mpr htaken)] at hvisit
    refine ⟨w.pushBack.east, hvisit, heast, ?_⟩
    rw [if_pos htaken, ← hpos]
    exact h.pushBack.at _
  · rw [if_neg fun hboth => htaken (hiff.mp hboth)] at hvisit
    refine ⟨w.east, hvisit, heast, ?_⟩
    rw [if_neg htaken, Option.toList_none, List.append_nil]
    exact h.at _

/-- The row at which the walk is. -/
theorem Walked.visitRow (hread : ∀ col < area.cols, ∃ marked, area.cell row col = some marked)
    (h : Walked blockProjectile m found w)
    (hpos : w.tmpPos = cellPos area.center targetPos row 0) :
    ∃ w', visitRow blockProjectile (getNextPosition dir targetPos) area w row = some w' ∧
      w'.tmpPos = cellPos area.center targetPos (row + 1) 0 ∧
      Walked blockProjectile m (found ++ (Loops.rowCells row area.cols).filterMap
        (picked blockProjectile m area targetPos dir)) w' := by
  have hloop := @Loops.foldlM_range _
    (CombatArea.visit blockProjectile (getNextPosition dir targetPos) area row)
    (fun col w => w.tmpPos = cellPos area.center targetPos row col ∧
      Walked blockProjectile m (found ++ (Loops.rowCells row col).filterMap
        (picked blockProjectile m area targetPos dir)) w) area.cols ?_ w ⟨hpos, ?_⟩
  · obtain ⟨w', hw', hpos', hwalked⟩ := hloop
    refine ⟨w'.nextRow area.cols, by rw [CombatArea.visitRow, hw']; rfl, ?_, hwalked.at _⟩
    rw [cellPos_succ_row _ _ _ area.cols, ← hpos']
    rfl
  · rintro col hcol w ⟨hpos, hwalked⟩
    obtain ⟨marked, hcell⟩ := hread col hcol
    obtain ⟨w', hw', hpos', hwalked'⟩ := @Walked.visit _ _ _ _ _ _ dir _ _ _ hcell hwalked hpos
    refine ⟨w', hw', hpos', ?_⟩
    rw [Loops.rowCells_succ, List.filterMap_append, ← List.append_assoc]
    rw [List.filterMap_cons, List.filterMap_nil]
    cases hpick : picked blockProjectile m area targetPos dir (row, col) with
    | none => rwa [hpick] at hwalked'
    | some pos => rwa [hpick] at hwalked'
  · rw [Loops.rowCells, List.range_zero, List.map_nil, List.filterMap_nil, List.append_nil]
    exact h

theorem getList_of_read (hm : m.Linked)
    (hread : ∀ row < area.rows, ∀ col < area.cols, ∃ marked, area.cell row col = some marked) :
    ∃ w, getList blockProjectile area m targetPos dir = some w ∧
      Walked blockProjectile m ((Loops.cells area.rows area.cols).filterMap
        (picked blockProjectile m area targetPos dir)) w := by
  have hloop := @Loops.foldlM_range _
    (CombatArea.visitRow blockProjectile (getNextPosition dir targetPos) area)
    (fun row w => w.tmpPos = cellPos area.center targetPos row 0 ∧
      Walked blockProjectile m ((Loops.cells row area.cols).filterMap
        (picked blockProjectile m area targetPos dir)) w) area.rows ?_
    ⟨firstPos area targetPos, m, []⟩ ⟨firstPos_eq targetPos area, ?_⟩
  · obtain ⟨w, hw, -, hwalked⟩ := hloop
    exact ⟨w, hw, hwalked⟩
  · rintro row hrow w ⟨hpos, hwalked⟩
    rw [Loops.cells_succ, List.filterMap_append]
    obtain ⟨w', hw', hpos', hwalked'⟩ :=
      @Walked.visitRow _ _ _ _ _ _ dir _ (hread row hrow) hwalked hpos
    exact ⟨w', hw', hpos', hwalked'⟩
  · exact ⟨hm, rfl, rfl, fun pos hpos => by cases hpos⟩

/-- A cell without a place in the array is come to sooner or later. -/
theorem getList_eq_none (hrow : row < area.rows) (hcol : col < area.cols)
    (hcell : area.cell row col = none) :
    getList blockProjectile area m targetPos dir = none := by
  refine Loops.foldlM_eq_none (List.mem_range.mpr hrow) (fun w => ?_) _
  have hvisit (w : Walk) :
      CombatArea.visit blockProjectile (getNextPosition dir targetPos) area row w col = none := by
    rw [CombatArea.visit, hcell]
    rfl
  have hrowNone := Loops.foldlM_eq_none (List.mem_range.mpr hcol) hvisit w
  rw [CombatArea.visitRow, hrowNone]
  rfl

end Walk

/-! ## Areas that are made of values -/

section Created

variable {blockProjectile : UInt16 → Bool} {m : Map Tile} {targetPos : Position}
  {dir : Option PathSearch.Direction} {vec : List UInt32} {rows : UInt32} {area : MatrixArea}
  {row col : Nat}

theorem length_arr (hsize : area.rows * area.cols < 2 ^ 32) :
    area.arr.length = area.rows * area.cols :=
  area.allocated.trans (MatrixArea.word_of_lt hsize)

theorem cell_eq (hsize : area.rows * area.cols < 2 ^ 32) (hrow : row < area.rows)
    (hcol : col < area.cols) : area.cell row col = area.arr[row * area.cols + col]? := by
  have hlt := RowMajor.index_lt hrow hcol
  rw [MatrixArea.cell, MatrixArea.word_of_lt (hlt.trans hsize)]

theorem exists_cell (hsize : area.rows * area.cols < 2 ^ 32)
    (hrow : row < area.rows) (hcol : col < area.cols) :
    ∃ marked, area.cell row col = some marked := by
  have hlt : row * area.cols + col < area.arr.length := by
    rw [length_arr hsize]
    exact RowMajor.index_lt hrow hcol
  exact ⟨area.arr[row * area.cols + col],
    (cell_eq hsize hrow hcol).trans (List.getElem?_eq_getElem hlt)⟩

theorem Created.cell_iff (h : Created vec rows area) (hsize : area.rows * area.cols < 2 ^ 32)
    (hrow : row < area.rows) (hcol : col < area.cols) :
    area.cell row col = some true ↔ MarkedAt vec (row * area.cols + col) := by
  rw [cell_eq hsize hrow hcol]
  refine h.arr _ ?_
  rw [length_arr hsize]
  exact RowMajor.index_lt hrow hcol

/-- What is in range is picked as it is meant to be; out of range nothing is meant to be. -/
theorem picked_eq_iff (c : Nat × Nat) :
    picked blockProjectile m area targetPos dir c = tileAt blockProjectile m targetPos dir area c ↔
      (area.cell c.1 c.2 = some true →
        InRange (place area.center targetPos c.1 c.2) ∨
          ¬ Seen blockProjectile m targetPos dir
            (toPosition (place area.center targetPos c.1 c.2) targetPos.z)) := by
  rw [picked, tileAt, cellPos]
  by_cases hcell : area.cell c.1 c.2 = some true
  · by_cases hrange : InRange (place area.center targetPos c.1 c.2)
    · simp only [hcell, hrange, true_and, true_or, implies_true]
    · by_cases hseen : Seen blockProjectile m targetPos dir
          (toPosition (place area.center targetPos c.1 c.2) targetPos.z)
      · simp [hcell, hrange, hseen]
      · simp [hcell, hrange, hseen]
  · simp [hcell]

theorem tileAt_le (c : Nat × Nat) (pos : Position)
    (h : tileAt blockProjectile m targetPos dir area c = some pos) :
    picked blockProjectile m area targetPos dir c = some pos := by
  rw [tileAt] at h
  split at h
  · next hall => rwa [picked, cellPos, if_pos ⟨hall.1, hall.2.2⟩]
  · cases h

/-- The cells that are marked are those of the values that mark one. -/
theorem Created.sight_iff (h : Created vec rows area) (hsize : area.rows * area.cols < 2 ^ 32)
    (hinside : Inside (area.rows * area.cols) vec) :
    (∀ c ∈ Loops.cells area.rows area.cols, picked blockProjectile m area targetPos dir c =
        tileAt blockProjectile m targetPos dir area c) ↔
      ∀ (i : Nat) (v : UInt32), vec[i]? = some v → v = 1 ∨ v = 3 →
        let p := place (centerOf area.cols vec) targetPos (i % 2 ^ 32 / area.cols)
          (i % 2 ^ 32 % area.cols)
        InRange p ∨ ¬ Seen blockProjectile m targetPos dir (toPosition p targetPos.z) := by
  simp only [picked_eq_iff, Loops.mem_cells]
  constructor
  · intro hcells i v hv hmarks
    obtain ⟨row, col, hrow, hcol, hindex⟩ := RowMajor.exists_index (hinside i v hv hmarks)
    rw [hindex, RowMajor.index_div hcol, RowMajor.index_mod hcol,
      ← h.center (Nat.zero_lt_of_lt hcol)]
    exact hcells (row, col) ⟨hrow, hcol⟩
      ((h.cell_iff hsize hrow hcol).mpr ⟨i, v, hv, hmarks, hindex⟩)
  · rintro hvalues ⟨row, col⟩ ⟨hrow, hcol⟩ hcell
    obtain ⟨i, v, hv, hmarks, hindex⟩ := (h.cell_iff hsize hrow hcol).mp hcell
    have hvalue := hvalues i v hv hmarks
    rwa [hindex, RowMajor.index_div hcol, RowMajor.index_mod hcol,
      ← h.center (Nat.zero_lt_of_lt hcol)] at hvalue

/-- With more cells than can be counted some have no place in the array. -/
theorem getList_of_large (hsize : ¬ area.rows * area.cols < 2 ^ 32) :
    getList blockProjectile area m targetPos dir = none := by
  obtain ⟨row, col, hrow, hcol, hindex⟩ :=
    @RowMajor.exists_index area.rows area.cols (2 ^ 32 - 1) (by omega)
  refine getList_eq_none hrow hcol ?_
  have hlt : area.arr.length < 2 ^ 32 := by
    rw [area.allocated]
    exact Nat.mod_lt _ (Nat.two_pow_pos 32)
  rw [MatrixArea.cell, ← hindex]
  exact List.getElem?_eq_none (Nat.le_sub_one_of_lt hlt)

theorem Placed.fits (hm : m.Linked) (h : Placed blockProjectile m targetPos dir vec rows) :
    Fits blockProjectile m targetPos dir vec rows := by
  obtain ⟨area, w, harea, hw, hvec, -⟩ := h
  have hwords : Inside (word (rows.toNat * (columns vec.length rows).toNat)) vec := by
    by_contra hnot
    rw [createArea_eq_none hnot] at harea
    cases harea
  obtain ⟨area', harea', hcreated⟩ := createArea_of_inside hwords
  obtain rfl := Option.some.inj (harea.symm.trans harea')
  have hsize : area.rows * area.cols < 2 ^ 32 := by
    by_contra hnot
    rw [getList_of_large hnot] at hw
    cases hw
  rw [← hcreated.rows, ← hcreated.cols, MatrixArea.word_of_lt hsize] at hwords
  obtain ⟨w', hw', hwalked⟩ := @getList_of_read blockProjectile m area targetPos dir hm
    fun row hrow col hcol => exists_cell hsize hrow hcol
  obtain rfl := Option.some.inj (hw.symm.trans hw')
  have hpicked := (Loops.filterMap_eq_iff tileAt_le).mp (hwalked.vec.symm.trans hvec)
  have hvalues := (hcreated.sight_iff hsize hwords).mp hpicked
  rw [hcreated.rows, hcreated.cols] at hsize hwords
  rw [hcreated.cols] at hvalues
  exact ⟨hsize, hwords, hvalues⟩

theorem Fits.placed (hm : m.Linked) (h : Fits blockProjectile m targetPos dir vec rows) :
    Placed blockProjectile m targetPos dir vec rows := by
  have hwords : Inside (word (rows.toNat * (columns vec.length rows).toNat)) vec := by
    rw [MatrixArea.word_of_lt h.size]
    exact h.inside
  obtain ⟨area, harea, hcreated⟩ := createArea_of_inside hwords
  have hsize := h.size
  have hinside := h.inside
  have hvalues := h.sight
  rw [← hcreated.rows, ← hcreated.cols] at hsize hinside
  rw [← hcreated.cols] at hvalues
  obtain ⟨w, hw, hwalked⟩ := @getList_of_read blockProjectile m area targetPos dir hm
    fun row hrow col hcol => exists_cell hsize hrow hcol
  have hpicked := (hcreated.sight_iff hsize hinside).mpr hvalues
  refine ⟨area, w, harea, hw, hwalked.vec.trans (List.filterMap_congr hpicked),
    fun hz pos hpos => hwalked.there pos hpos ?_⟩
  -- Every tile is on the floor of the target.
  rw [hwalked.vec] at hpos
  obtain ⟨c, -, hc⟩ := List.mem_filterMap.mp hpos
  rw [picked] at hc
  split at hc
  · obtain rfl := Option.some.inj hc
    exact hz
  · cases hc

end Created

/-- An area is made and its tiles are found, each at the position of its cell and none out of
range, exactly where the values that mark a cell fit the rows and columns and no cell out of range
is in sight at the position that its coordinates come round to. -/
theorem combat_area (blockProjectile : UInt16 → Bool) {m : Map Tile} (hm : m.Linked)
    (targetPos : Position) (dir : Option PathSearch.Direction) (vec : List UInt32)
    (rows : UInt32) :
    Placed blockProjectile m targetPos dir vec rows ↔
      Fits blockProjectile m targetPos dir vec rows :=
  ⟨Placed.fits hm, Fits.placed hm⟩

/-- Two cells in the middle of a map, of which the second one is the centre. -/
theorem combat_area_two :
    Map.Linked (Map.empty : Map Tile) ∧
      Placed (fun _ => false) Map.empty ⟨100, 100, 7⟩ (some .north) [1, 3] 1 := by
  have hlt (i : Nat) (v : UInt32) (hv : ([1, 3] : List UInt32)[i]? = some v) : i = 0 ∨ i = 1 := by
    obtain ⟨hi, -⟩ := List.getElem?_eq_some_iff.mp hv
    rw [List.length_cons, List.length_singleton] at hi
    omega
  refine ⟨Map.linked_empty, (combat_area (fun _ => false) Map.linked_empty ⟨100, 100, 7⟩
    (some .north) [1, 3] 1).mpr ⟨by decide, fun i v hv _ => ?_, fun i v hv _ => .inl ?_⟩⟩
  · obtain rfl | rfl := hlt i v hv
    · decide
    · decide
  · obtain rfl | rfl := hlt i v hv
    · decide
    · decide

/-- A row with one value more than the other, and the same two cells on the border of the map,
where the first is out of range and comes round to the other end of it. -/
theorem combat_area_border :
    ¬ Placed (fun _ => false) Map.empty ⟨100, 100, 7⟩ (some .north) [1, 1, 1, 1, 3] 2 ∧
      ¬ Placed (fun _ => false) Map.empty ⟨0, 100, 7⟩ (some .north) [1, 3] 1 := by
  have hempty (x y : UInt16) (z : UInt8) :
      isTileClear (fun _ => false) Map.empty x y z false = true := by
    rw [isTileClear, Map.getTile_empty]
  constructor
  · intro h
    have hfits := h.fits Map.linked_empty
    exact absurd (hfits.inside 4 3 rfl (.inr rfl)) (by decide)
  · intro h
    have hfits := h.fits Map.linked_empty
    rcases hfits.sight 0 1 rfl (.inl rfl) with hrange | hunseen
    · exact absurd hrange (by decide)
    · exact hunseen (SightLine.isSightClear_of_clear hempty rfl)

end Bruxo.CombatArea
