import Mathlib.Data.List.Basic
import Mathlib.Tactic.TypeStar

/-!
# Lists written by slices

A matrix kept row by row in a list, and the writes of one slice of a list after another: each gives
the elements at a start and every stride from it. Where no two writes are of one place, each of them
is what is found there.
-/

namespace Bruxo.RowMajor

/-! ## Places -/

section Places

variable {rows cols y x y' x' j : Nat}

theorem index_lt (hy : y < rows) (hx : x < cols) : y * cols + x < rows * cols := by
  have hle : (y + 1) * cols ≤ rows * cols := Nat.mul_le_mul_right cols hy
  rw [Nat.succ_mul] at hle
  omega

theorem index_div (hx : x < cols) : (y * cols + x) / cols = y := by
  rw [Nat.mul_comm, Nat.mul_add_div (Nat.zero_lt_of_lt hx), Nat.div_eq_of_lt hx, Nat.add_zero]

theorem index_mod (hx : x < cols) : (y * cols + x) % cols = x := by
  rw [Nat.mul_comm, Nat.mul_add_mod, Nat.mod_eq_of_lt hx]

theorem index_inj (hx : x < cols) (hx' : x' < cols) (h : y * cols + x = y' * cols + x') :
    y = y' ∧ x = x' := by
  have hdiv : (y * cols + x) / cols = (y' * cols + x') / cols := by rw [h]
  have hmod : (y * cols + x) % cols = (y' * cols + x') % cols := by rw [h]
  rw [index_div hx, index_div hx'] at hdiv
  rw [index_mod hx, index_mod hx'] at hmod
  exact ⟨hdiv, hmod⟩

theorem exists_index (hj : j < rows * cols) : ∃ y x, y < rows ∧ x < cols ∧ j = y * cols + x := by
  have hcols : 0 < cols := by
    rcases Nat.eq_zero_or_pos cols with rfl | hpos
    · rw [Nat.mul_zero] at hj
      exact absurd hj (Nat.not_lt_zero _)
    · exact hpos
  refine ⟨j / cols, j % cols, ?_, Nat.mod_lt _ hcols, ?_⟩
  · exact (Nat.div_lt_iff_lt_mul hcols).mpr hj
  · rw [Nat.mul_comm, Nat.div_add_mod]

end Places

/-! ## Writes -/

section Writes

variable {α : Type*}

def writeAll (l : List α) (writes : List (Nat × α)) : List α :=
  writes.foldl (fun l w => l.set w.1 w.2) l

variable {l : List α} {writes : List (Nat × α)} {j : Nat} {v : α}

@[simp] theorem length_writeAll : (writeAll l writes).length = l.length := by
  unfold writeAll
  induction writes generalizing l with
  | nil => rfl
  | cons w writes ih => rw [List.foldl_cons, ih, List.length_set]

/-- What all the writes of a place agree on is found there. -/
theorem getElem?_writeAll (hj : j < l.length) (hmem : (j, v) ∈ writes)
    (hagree : ∀ w ∈ writes, w.1 = j → w.2 = v) : (writeAll l writes)[j]? = some v := by
  have hkept : ∀ (l : List α), j < l.length → l[j]? = some v → ∀ writes : List (Nat × α),
      (∀ w ∈ writes, w.1 = j → w.2 = v) → (writeAll l writes)[j]? = some v := by
    intro l hj hl writes hagree
    unfold writeAll
    induction writes generalizing l with
    | nil => exact hl
    | cons w writes ih =>
        rw [List.foldl_cons]
        refine ih _ (by rwa [List.length_set]) ?_ fun w' hw' =>
          hagree w' (List.mem_cons_of_mem _ hw')
        rw [List.getElem?_set]
        split
        · next heq => rw [if_pos (heq ▸ hj), hagree w List.mem_cons_self heq]
        · exact hl
  induction writes generalizing l with
  | nil => cases hmem
  | cons w writes ih =>
      have hrest : ∀ w' ∈ writes, w'.1 = j → w'.2 = v := fun w' hw' =>
        hagree w' (List.mem_cons_of_mem _ hw')
      have hj' : j < (l.set w.1 w.2).length := by rwa [List.length_set]
      rcases List.mem_cons.mp hmem with rfl | hmem
      · exact hkept _ hj' (by rw [List.getElem?_set_self hj]) writes hrest
      · exact ih hj' hmem hrest

/-- A start and a stride. -/
structure Slice where
  start : Nat
  stride : Nat

def Slice.place (s : Slice) (k : Nat) : Nat := s.start + k * s.stride

/-- The `size` elements of one slice put in the places of another, for each of `n` pairs of
slices. -/
def copySlices (n size : Nat) (target source : Nat → Slice) (arr l : List α) (default : α) : List α :=
  (List.range n).foldl (fun l i => writeAll l ((List.range size).map fun k =>
    ((target i).place k, arr.getD ((source i).place k) default))) l

variable {n size : Nat} {target source : Nat → Slice} {arr : List α} {default : α}

theorem copySlices_eq : copySlices n size target source arr l default =
    writeAll l ((List.range n).flatMap fun i => (List.range size).map fun k =>
      ((target i).place k, arr.getD ((source i).place k) default)) := by
  unfold copySlices writeAll
  rw [List.foldl_flatMap]

@[simp] theorem length_copySlices :
    (copySlices n size target source arr l default).length = l.length := by
  rw [copySlices_eq, length_writeAll]

theorem copySlices_get {i k : Nat} (hi : i < n) (hk : k < size)
    (hinj : ∀ i' < n, ∀ k' < size, (target i').place k' = (target i).place k → i' = i ∧ k' = k)
    (hj : (target i).place k < l.length) :
    (copySlices n size target source arr l default)[(target i).place k]? =
      some (arr.getD ((source i).place k) default) := by
  rw [copySlices_eq]
  refine getElem?_writeAll hj ?_ ?_
  · refine List.mem_flatMap.mpr ⟨i, List.mem_range.mpr hi, ?_⟩
    exact List.mem_map.mpr ⟨k, List.mem_range.mpr hk, rfl⟩
  · intro w hw hplace
    obtain ⟨i', hi', hw⟩ := List.mem_flatMap.mp hw
    obtain ⟨k', hk', rfl⟩ := List.mem_map.mp hw
    obtain ⟨rfl, rfl⟩ := hinj i' (List.mem_range.mp hi') k' (List.mem_range.mp hk') hplace
    rfl

end Writes

end Bruxo.RowMajor
