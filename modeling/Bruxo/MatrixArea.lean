import Bruxo.Lib.RowMajor
import Mathlib.Algebra.Group.Nat.Defs

/-!
# Areas of spells

`MatrixArea` (`matrixarea.cpp`): the cells of an area row by row, and its centre. Its motions
permute the cells by slices and compute the centre apart from them; both are moved by one map of
coordinates, so the motions compose as those of a rectangle.
-/

namespace Bruxo

open RowMajor

/-- A number of 32 bits. -/
def MatrixArea.word (n : Nat) : Nat := n % 2 ^ 32

/-- `n - i - 1` -/
def MatrixArea.opposite (n i : Nat) : Nat := word (n + 2 ^ 32 - i + 2 ^ 32 - 1)

/-- The centre is `(x, y)`; the array is allocated for the product of the sizes. -/
structure MatrixArea where
  arr : List Bool
  center : Nat × Nat
  rows : Nat
  cols : Nat
  allocated : arr.length = MatrixArea.word (rows * cols)

namespace MatrixArea

/-- `operator()`, of a place in the array. -/
def cell (m : MatrixArea) (row col : Nat) : Option Bool := m.arr[word (row * m.cols + col)]?

theorem word_comm (n k : Nat) : word (n * k) = word (k * n) := by rw [Nat.mul_comm]

section Motions

variable (m : MatrixArea)

/-- rows, top to bottom, to the current rows, bottom to top -/
def flip : MatrixArea where
  arr := copySlices m.rows m.cols (fun i => ⟨word (i * m.cols), 1⟩)
    (fun i => ⟨word (opposite m.rows i * m.cols), 1⟩) m.arr (List.replicate m.arr.length false) false
  center := (m.center.1, opposite m.rows m.center.2)
  rows := m.rows
  cols := m.cols
  allocated := by rw [length_copySlices, List.length_replicate, m.allocated]

/-- cols, left to right, to the current cols, right to left -/
def mirror : MatrixArea where
  arr := copySlices m.cols m.rows (fun i => ⟨i, m.cols⟩) (fun i => ⟨opposite m.cols i, m.cols⟩) m.arr
    (List.replicate m.arr.length false) false
  center := (opposite m.cols m.center.1, m.center.2)
  rows := m.rows
  cols := m.cols
  allocated := by rw [length_copySlices, List.length_replicate, m.allocated]

/-- rows, top to bottom, to the current cols, right to left -/
def rotate90 : MatrixArea where
  arr := copySlices m.rows m.cols (fun i => ⟨i, m.rows⟩)
    (fun i => ⟨word (opposite m.rows i * m.cols), 1⟩) m.arr (List.replicate m.arr.length false) false
  center := (opposite m.rows m.center.2, m.center.1)
  rows := m.cols
  cols := m.rows
  allocated := by rw [length_copySlices, List.length_replicate, m.allocated, word_comm]

def rotate180 : MatrixArea where
  arr := m.arr.reverse
  center := (opposite m.cols m.center.1, opposite m.rows m.center.2)
  rows := m.rows
  cols := m.cols
  allocated := by rw [List.length_reverse, m.allocated]

/-- cols, left to right, to the current rows, bottom to top -/
def rotate270 : MatrixArea where
  arr := copySlices m.cols m.rows (fun i => ⟨word (i * m.rows), 1⟩)
    (fun i => ⟨opposite m.cols i, m.cols⟩) m.arr (List.replicate m.arr.length false) false
  center := (m.center.2, opposite m.cols m.center.1)
  rows := m.cols
  cols := m.rows
  allocated := by rw [length_copySlices, List.length_replicate, m.allocated, word_comm]

end Motions

/-- There is a cell for each row and column, and the centre is one of them. -/
structure Rectangular (m : MatrixArea) : Prop where
  size : m.arr.length = m.rows * m.cols
  center_x : m.center.1 < m.cols
  center_y : m.center.2 < m.rows

/-! ## Motions of coordinates -/

inductive Motion where
  | flip
  | mirror
  | rotate90
  | rotate180
  | rotate270

def apply (m : MatrixArea) : Motion → MatrixArea
  | .flip => m.flip
  | .mirror => m.mirror
  | .rotate90 => m.rotate90
  | .rotate180 => m.rotate180
  | .rotate270 => m.rotate270

/-- Where a motion of an area takes the cell `(x, y)`. -/
def Motion.move (rows cols : Nat) : Motion → Nat × Nat → Nat × Nat
  | .flip, (x, y) => (x, rows - 1 - y)
  | .mirror, (x, y) => (cols - 1 - x, y)
  | .rotate90, (x, y) => (rows - 1 - y, x)
  | .rotate180, (x, y) => (cols - 1 - x, rows - 1 - y)
  | .rotate270, (x, y) => (y, cols - 1 - x)

/-- The rows and the columns that a motion leaves. -/
def Motion.size (rows cols : Nat) : Motion → Nat × Nat
  | .flip => (rows, cols)
  | .mirror => (rows, cols)
  | .rotate90 => (cols, rows)
  | .rotate180 => (rows, cols)
  | .rotate270 => (cols, rows)

section Cells

variable {m : MatrixArea} {x y : Nat}

theorem Rectangular.small (hm : Rectangular m) : m.rows * m.cols < 2 ^ 32 := by
  have hlt : word (m.rows * m.cols) < 2 ^ 32 := Nat.mod_lt _ (Nat.two_pow_pos 32)
  rwa [← m.allocated, hm.size] at hlt

theorem word_of_lt {n : Nat} (h : n < 2 ^ 32) : word n = n := Nat.mod_eq_of_lt h

theorem Rectangular.word_index (hm : Rectangular m) (hy : y < m.rows) (hx : x < m.cols) :
    word (y * m.cols + x) = y * m.cols + x :=
  word_of_lt (Nat.lt_trans (index_lt hy hx) hm.small)

theorem Rectangular.word_row (hm : Rectangular m) (hy : y < m.rows) :
    word (y * m.cols) = y * m.cols := by
  have hcols : 0 < m.cols := Nat.zero_lt_of_lt hm.center_x
  exact hm.word_index hy hcols

theorem Rectangular.rows_lt (hm : Rectangular m) : m.rows < 2 ^ 32 := by
  have hcols : 0 < m.cols := Nat.zero_lt_of_lt hm.center_x
  exact Nat.lt_of_le_of_lt (Nat.le_mul_of_pos_right _ hcols) hm.small

theorem Rectangular.cols_lt (hm : Rectangular m) : m.cols < 2 ^ 32 := by
  have hrows : 0 < m.rows := Nat.zero_lt_of_lt hm.center_y
  exact Nat.lt_of_le_of_lt (Nat.le_mul_of_pos_left _ hrows) hm.small

theorem opposite_eq {n i : Nat} (hn : n < 2 ^ 32) (hi : i < n) : opposite n i = n - 1 - i := by
  unfold opposite word
  omega

theorem Rectangular.cell_eq (hm : Rectangular m) (hy : y < m.rows) (hx : x < m.cols) :
    m.cell y x = m.arr[y * m.cols + x]? := by
  rw [cell, hm.word_index hy hx]

/-- What one of the slices takes to its place. -/
theorem copied_cell {n size i k : Nat} (target source : Nat → Slice) (hi : i < n) (hk : k < size)
    (hinj : ∀ i' < n, ∀ k' < size, (target i').place k' = (target i).place k → i' = i ∧ k' = k)
    (htarget : (target i).place k < m.arr.length) (hsource : (source i).place k < m.arr.length) :
    (copySlices n size target source m.arr (List.replicate m.arr.length false) false)[
      (target i).place k]? = m.arr[(source i).place k]? := by
  have hlength : (target i).place k < (List.replicate m.arr.length false).length := by
    rwa [List.length_replicate]
  rw [copySlices_get hi hk hinj hlength, List.getD_eq_getElem?_getD,
    List.getElem?_eq_getElem hsource, Option.getD_some]

theorem apply_length (motion : Motion) : (m.apply motion).arr.length = m.arr.length := by
  cases motion with
  | rotate180 => exact List.length_reverse
  | _ => exact length_copySlices.trans List.length_replicate

theorem apply_rows (motion : Motion) :
    (m.apply motion).rows = (motion.size m.rows m.cols).1 := by
  cases motion <;> rfl

theorem apply_cols (motion : Motion) :
    (m.apply motion).cols = (motion.size m.rows m.cols).2 := by
  cases motion <;> rfl

/-- The centre goes where the cells go. -/
theorem apply_center (hm : Rectangular m) (motion : Motion) :
    (m.apply motion).center = motion.move m.rows m.cols m.center := by
  have hx := opposite_eq hm.cols_lt hm.center_x
  have hy := opposite_eq hm.rows_lt hm.center_y
  cases motion with
  | flip => dsimp only [apply, flip]; rw [hy]; rfl
  | mirror => dsimp only [apply, mirror]; rw [hx]; rfl
  | rotate90 => dsimp only [apply, rotate90]; rw [hy]; rfl
  | rotate180 => dsimp only [apply, rotate180]; rw [hx, hy]; rfl
  | rotate270 => dsimp only [apply, rotate270]; rw [hx]; rfl

theorem Motion.move_lt {rows cols : Nat} (motion : Motion) {c : Nat × Nat} (hx : c.1 < cols)
    (hy : c.2 < rows) :
    (motion.move rows cols c).1 < (motion.size rows cols).2 ∧
      (motion.move rows cols c).2 < (motion.size rows cols).1 := by
  obtain ⟨x, y⟩ := c
  cases motion <;> dsimp only [move, size] at hx hy ⊢ <;> omega

theorem Motion.size_mul {rows cols : Nat} (motion : Motion) :
    (motion.size rows cols).1 * (motion.size rows cols).2 = rows * cols := by
  cases motion <;> first | rfl | exact Nat.mul_comm _ _

theorem Rectangular.apply (hm : Rectangular m) (motion : Motion) :
    Rectangular (m.apply motion) := by
  have hcenter := motion.move_lt hm.center_x hm.center_y
  refine ⟨?_, ?_, ?_⟩
  · rw [apply_length, apply_rows, apply_cols, motion.size_mul, hm.size]
  · rw [apply_center hm, apply_cols]
    exact hcenter.1
  · rw [apply_center hm, apply_rows]
    exact hcenter.2

theorem flip_cell (hm : Rectangular m) (hy : y < m.rows) (hx : x < m.cols) :
    (m.apply .flip).cell (m.rows - 1 - y) x = m.cell y x := by
  have hy' : m.rows - 1 - y < m.rows := by omega
  have hback : opposite m.rows (m.rows - 1 - y) = y := by
    rw [opposite_eq hm.rows_lt hy']
    omega
  rw [(hm.apply .flip).cell_eq hy' hx, hm.cell_eq hy hx]
  have hcopied := copied_cell (m := m) (fun i => ⟨word (i * m.cols), 1⟩)
    (fun i => ⟨word (opposite m.rows i * m.cols), 1⟩) hy' hx
  unfold Slice.place at hcopied
  dsimp only at hcopied
  rw [hback, hm.word_row hy, hm.word_row hy', Nat.mul_one] at hcopied
  refine hcopied ?_ (hm.size ▸ index_lt hy' hx) (hm.size ▸ index_lt hy hx)
  intro i' hi' k' hk' hplace
  rw [hm.word_row hi', Nat.mul_one] at hplace
  exact index_inj hk' hx hplace

theorem mirror_cell (hm : Rectangular m) (hy : y < m.rows) (hx : x < m.cols) :
    (m.apply .mirror).cell y (m.cols - 1 - x) = m.cell y x := by
  have hx' : m.cols - 1 - x < m.cols := by omega
  have hback : opposite m.cols (m.cols - 1 - x) = x := by
    rw [opposite_eq hm.cols_lt hx']
    omega
  rw [(hm.apply .mirror).cell_eq hy hx', hm.cell_eq hy hx]
  have hcopied := copied_cell (m := m) (fun i => ⟨i, m.cols⟩)
    (fun i => ⟨opposite m.cols i, m.cols⟩) hx' hy
  unfold Slice.place at hcopied
  dsimp only at hcopied
  rw [hback, Nat.add_comm _ (y * m.cols), Nat.add_comm _ (y * m.cols)] at hcopied
  refine hcopied ?_ (hm.size ▸ index_lt hy hx') (hm.size ▸ index_lt hy hx)
  intro i' hi' k' _ hplace
  rw [Nat.add_comm] at hplace
  exact (index_inj hi' hx' hplace).symm

theorem rotate90_cell (hm : Rectangular m) (hy : y < m.rows) (hx : x < m.cols) :
    (m.apply .rotate90).cell x (m.rows - 1 - y) = m.cell y x := by
  have hy' : m.rows - 1 - y < m.rows := by omega
  have hback : opposite m.rows (m.rows - 1 - y) = y := by
    rw [opposite_eq hm.rows_lt hy']
    omega
  have hsize : m.arr.length = m.cols * m.rows := by rw [hm.size, Nat.mul_comm]
  rw [(hm.apply .rotate90).cell_eq hx hy', hm.cell_eq hy hx]
  have hcopied := copied_cell (m := m) (fun i => ⟨i, m.rows⟩)
    (fun i => ⟨word (opposite m.rows i * m.cols), 1⟩) hy' hx
  unfold Slice.place at hcopied
  dsimp only at hcopied
  rw [hback, hm.word_row hy, Nat.mul_one, Nat.add_comm _ (x * m.rows)] at hcopied
  refine hcopied ?_ (hsize ▸ index_lt hx hy') (hm.size ▸ index_lt hy hx)
  intro i' hi' k' _ hplace
  rw [Nat.add_comm] at hplace
  exact (index_inj hi' hy' hplace).symm

theorem rotate270_cell (hm : Rectangular m) (hy : y < m.rows) (hx : x < m.cols) :
    (m.apply .rotate270).cell (m.cols - 1 - x) y = m.cell y x := by
  have hx' : m.cols - 1 - x < m.cols := by omega
  have hback : opposite m.cols (m.cols - 1 - x) = x := by
    rw [opposite_eq hm.cols_lt hx']
    omega
  have hsize : m.arr.length = m.cols * m.rows := by rw [hm.size, Nat.mul_comm]
  have hrow : ∀ i < m.cols, word (i * m.rows) = i * m.rows := fun i hi =>
    (hm.apply .rotate270).word_row hi
  rw [(hm.apply .rotate270).cell_eq hx' hy, hm.cell_eq hy hx]
  have hcopied := copied_cell (m := m) (fun i => ⟨word (i * m.rows), 1⟩)
    (fun i => ⟨opposite m.cols i, m.cols⟩) hx' hy
  unfold Slice.place at hcopied
  dsimp only at hcopied
  rw [hback, hrow _ hx', Nat.mul_one, Nat.add_comm x] at hcopied
  refine hcopied ?_ (hsize ▸ index_lt hx' hy) (hm.size ▸ index_lt hy hx)
  intro i' hi' k' hk' hplace
  rw [hrow i' hi', Nat.mul_one] at hplace
  exact index_inj hk' hy hplace

theorem rotate180_cell (hm : Rectangular m) (hy : y < m.rows) (hx : x < m.cols) :
    (m.apply .rotate180).cell (m.rows - 1 - y) (m.cols - 1 - x) = m.cell y x := by
  have hy' : m.rows - 1 - y < m.rows := by omega
  have hx' : m.cols - 1 - x < m.cols := by omega
  have hlt : (m.rows - 1 - y) * m.cols + (m.cols - 1 - x) < m.arr.length :=
    hm.size ▸ index_lt hy' hx'
  obtain ⟨below, hbelow⟩ : ∃ below, m.rows = y + 1 + below := ⟨m.rows - 1 - y, by omega⟩
  have hall : m.rows * m.cols = y * m.cols + m.cols + below * m.cols := by
    rw [hbelow, Nat.add_mul, Nat.succ_mul]
  have hbelow' : m.rows - 1 - y = below := by omega
  have hback : m.arr.length - 1 - ((m.rows - 1 - y) * m.cols + (m.cols - 1 - x)) =
      y * m.cols + x := by
    rw [hm.size, hall, hbelow']
    omega
  rw [(hm.apply .rotate180).cell_eq hy' hx', hm.cell_eq hy hx]
  exact (List.getElem?_reverse hlt).trans (by rw [hback])

/-- A motion takes each cell along. -/
theorem apply_cell (hm : Rectangular m) (motion : Motion) (hx : x < m.cols) (hy : y < m.rows) :
    (m.apply motion).cell (motion.move m.rows m.cols (x, y)).2
      (motion.move m.rows m.cols (x, y)).1 = m.cell y x := by
  cases motion with
  | flip => exact flip_cell hm hy hx
  | mirror => exact mirror_cell hm hy hx
  | rotate90 => exact rotate90_cell hm hy hx
  | rotate180 => exact rotate180_cell hm hy hx
  | rotate270 => exact rotate270_cell hm hy hx

end Cells

/-! ## Laws -/

section Laws

variable {m m' : MatrixArea}

theorem ext_cells (hm : Rectangular m) (hm' : Rectangular m') (hrows : m.rows = m'.rows)
    (hcols : m.cols = m'.cols) (hcenter : m.center = m'.center)
    (hcells : ∀ x y, x < m.cols → y < m.rows → m.cell y x = m'.cell y x) : m = m' := by
  have harr : m.arr = m'.arr := by
    refine List.ext_getElem? fun j => ?_
    by_cases hj : j < m.rows * m.cols
    · obtain ⟨y, x, hy, hx, rfl⟩ := exists_index hj
      have hcell := hcells x y hx hy
      rwa [hm.cell_eq hy hx, hm'.cell_eq (hrows ▸ hy) (hcols ▸ hx), ← hcols] at hcell
    · have hover : m.arr.length ≤ j := by rw [hm.size]; omega
      have hover' : m'.arr.length ≤ j := by rw [hm'.size, ← hrows, ← hcols]; omega
      rw [List.getElem?_eq_none hover, List.getElem?_eq_none hover']
  obtain ⟨arr, center, rows, cols, _⟩ := m
  obtain ⟨arr', center', rows', cols', _⟩ := m'
  dsimp only at harr hcenter hrows hcols
  subst harr hcenter hrows hcols
  rfl

/-- Where two motions take the coordinates after each other. -/
def Motion.andThen (rows cols : Nat) (first second : Motion) (c : Nat × Nat) : Nat × Nat :=
  second.move (first.size rows cols).1 (first.size rows cols).2 (first.move rows cols c)

/-- An area that has each cell, and the centre, where two motions take them. -/
theorem apply_apply_eq (hm : Rectangular m) (hm' : Rectangular m') (first second : Motion)
    (hsize : second.size (first.size m.rows m.cols).1 (first.size m.rows m.cols).2 =
      (m'.rows, m'.cols))
    (hcenter : first.andThen m.rows m.cols second m.center = m'.center)
    (hcells : ∀ x y, x < m'.cols → y < m'.rows → ∃ x' < m.cols, ∃ y' < m.rows,
      first.andThen m.rows m.cols second (x', y') = (x, y) ∧ m.cell y' x' = m'.cell y x) :
    (m.apply first).apply second = m' := by
  have hfirst := hm.apply first
  have hrows : ((m.apply first).apply second).rows = m'.rows := by
    rw [apply_rows, apply_rows, apply_cols, hsize]
  have hcols : ((m.apply first).apply second).cols = m'.cols := by
    rw [apply_cols, apply_rows, apply_cols, hsize]
  refine ext_cells (hfirst.apply second) hm' hrows hcols ?_ fun x y hx hy => ?_
  · rw [apply_center hfirst, apply_center hm, apply_rows, apply_cols]
    exact hcenter
  · obtain ⟨x', hx', y', hy', hmove, hcell⟩ := hcells x y (hcols ▸ hx) (hrows ▸ hy)
    have hlt := first.move_lt (c := (x', y')) hx' hy'
    rw [← apply_cols, ← apply_rows] at hlt
    have hmoved := apply_cell hfirst second hlt.1 hlt.2
    rw [apply_rows, apply_cols] at hmoved
    have hmove' : second.move (first.size m.rows m.cols).1 (first.size m.rows m.cols).2
        ((first.move m.rows m.cols (x', y')).1, (first.move m.rows m.cols (x', y')).2) = (x, y) :=
      hmove
    rw [hmove', apply_cell hm first hx' hy'] at hmoved
    exact hmoved.trans hcell

/-- Two motions turn an area around. -/
theorem apply_apply_rotate180 (hm : Rectangular m) (first second : Motion)
    (hsize : second.size (first.size m.rows m.cols).1 (first.size m.rows m.cols).2 =
      (m.rows, m.cols))
    (hmove : ∀ x y, first.andThen m.rows m.cols second (x, y) = (m.cols - 1 - x, m.rows - 1 - y)) :
    (m.apply first).apply second = m.rotate180 := by
  refine apply_apply_eq hm (hm.apply .rotate180) first second hsize ?_ fun x y hx hy => ?_
  · exact (hmove _ _).trans (apply_center hm .rotate180).symm
  · have hx' : x < m.cols := hx
    have hy' : y < m.rows := hy
    have hxlt : m.cols - 1 - x < m.cols := by omega
    have hylt : m.rows - 1 - y < m.rows := by omega
    have hxback : m.cols - 1 - (m.cols - 1 - x) = x := by omega
    have hyback : m.rows - 1 - (m.rows - 1 - y) = y := by omega
    have hcell := rotate180_cell hm hylt hxlt
    rw [hxback, hyback] at hcell
    refine ⟨_, hxlt, _, hylt, ?_, hcell.symm⟩
    rw [hmove, hxback, hyback]

/-- Two motions undo each other. -/
theorem apply_apply_self (hm : Rectangular m) (first second : Motion)
    (hsize : second.size (first.size m.rows m.cols).1 (first.size m.rows m.cols).2 =
      (m.rows, m.cols))
    (hmove : ∀ x y, x < m.cols → y < m.rows → first.andThen m.rows m.cols second (x, y) = (x, y)) :
    (m.apply first).apply second = m :=
  apply_apply_eq hm hm first second hsize (hmove _ _ hm.center_x hm.center_y)
    fun x y hx hy => ⟨x, hx, y, hy, hmove x y hx hy, rfl⟩

/-- Each motion takes the cells and the centre along by one map of coordinates, and the motions
compose as those of a rectangle. -/
theorem motions_compose (m : MatrixArea) (hm : Rectangular m) :
    (∀ motion : Motion, Rectangular (m.apply motion) ∧
      ((m.apply motion).rows, (m.apply motion).cols) = motion.size m.rows m.cols ∧
      (m.apply motion).center = motion.move m.rows m.cols m.center ∧
      ∀ x y, x < m.cols → y < m.rows →
        (m.apply motion).cell (motion.move m.rows m.cols (x, y)).2
          (motion.move m.rows m.cols (x, y)).1 = m.cell y x) ∧
      m.rotate90.rotate90 = m.rotate180 ∧ m.rotate90.rotate270 = m ∧ m.flip.flip = m ∧
      m.mirror.mirror = m ∧ m.flip.mirror = m.rotate180 := by
  refine ⟨fun motion => ⟨hm.apply motion, ?_, apply_center hm motion, fun x y hx hy =>
    apply_cell hm motion hx hy⟩, ?_, ?_, ?_, ?_, ?_⟩
  · rw [apply_rows, apply_cols]
  · exact apply_apply_rotate180 hm .rotate90 .rotate90 rfl fun _ _ => rfl
  · refine apply_apply_self hm .rotate90 .rotate270 rfl fun x y _ hy => Prod.ext rfl ?_
    exact Nat.sub_sub_self (Nat.le_sub_one_of_lt hy)
  · refine apply_apply_self hm .flip .flip rfl fun x y _ hy => Prod.ext rfl ?_
    exact Nat.sub_sub_self (Nat.le_sub_one_of_lt hy)
  · refine apply_apply_self hm .mirror .mirror rfl fun x y hx _ => Prod.ext ?_ rfl
    exact Nat.sub_sub_self (Nat.le_sub_one_of_lt hx)
  · exact apply_apply_rotate180 hm .flip .mirror rfl fun _ _ => rfl

/-- Three rows of four cells, with the centre at the left of the first. -/
def wave : MatrixArea where
  arr := [true, true, true, true, false, true, true, true, false, false, true, false]
  center := (0, 0)
  rows := 3
  cols := 4
  allocated := by decide

example : wave.rotate90.arr =
    [false, false, true, false, true, true, true, true, true, false, true, true] := by decide

theorem motions_compose_wave :
    wave.rotate90.center = (2, 0) ∧ wave.rotate90.rotate90 = wave.rotate180 ∧
      wave.rotate90.rotate270 = wave ∧ wave.flip.flip = wave ∧ wave.mirror.mirror = wave ∧
      wave.flip.mirror = wave.rotate180 := by
  have hwave : Rectangular wave := ⟨rfl, by decide, by decide⟩
  obtain ⟨hmotion, hlaws⟩ := motions_compose wave hwave
  exact ⟨(hmotion .rotate90).2.2.1, hlaws⟩

end Laws

end MatrixArea

end Bruxo
