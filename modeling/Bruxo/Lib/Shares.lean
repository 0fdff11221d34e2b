import Mathlib.Algebra.BigOperators.Field
import Mathlib.Algebra.Order.BigOperators.Ring.Finset
import Mathlib.Algebra.Order.Floor.Semiring
import Mathlib.Data.Rat.Floor
import Mathlib.Tactic.Positivity
import Mathlib.Tactic.GCongr

/-!
# Shares of a pool

A whole number is shared by weight: each gets the floor of its part. The shares of any of them are
not more than the pool, and more weight, its own or that of another with the same pool, is not less.
-/

namespace Shares

variable {ι : Type} {s t : Finset ι} {w : ι → ℚ} {pool : ℕ} {i j : ι}

/-- Without any weight there is no part of it. -/
def part (s : Finset ι) (w : ι → ℚ) (i : ι) : ℚ := w i / ∑ j ∈ s, w j

def share (s : Finset ι) (w : ι → ℚ) (pool : ℕ) (i : ι) : ℕ := ⌊part s w i * pool⌋₊

theorem part_nonneg (hw : ∀ j ∈ s, 0 ≤ w j) (hi : 0 ≤ w i) : 0 ≤ part s w i :=
  div_nonneg hi (Finset.sum_nonneg hw)

theorem sum_part_le (hw : ∀ j ∈ s, 0 ≤ w j) (hsub : t ⊆ s) : ∑ i ∈ t, part s w i ≤ 1 := by
  unfold part
  rw [← Finset.sum_div]
  refine div_le_one_of_le₀ ?_ (Finset.sum_nonneg hw)
  exact Finset.sum_le_sum_of_subset_of_nonneg hsub fun j hj _ => hw j hj

/-- Whoever gets not more than a share, together they get not more than the pool. -/
theorem sum_le_pool {f : ι → ℕ} (hw : ∀ j ∈ s, 0 ≤ w j) (hsub : t ⊆ s)
    (hf : ∀ i ∈ t, f i ≤ share s w pool i) : ∑ i ∈ t, f i ≤ pool := by
  have hpool : (0 : ℚ) ≤ pool := Nat.cast_nonneg pool
  have hsum : ((∑ i ∈ t, f i : ℕ) : ℚ) ≤ pool := by
    calc ((∑ i ∈ t, f i : ℕ) : ℚ) = ∑ i ∈ t, (f i : ℚ) := Nat.cast_sum t f
      _ ≤ ∑ i ∈ t, part s w i * pool := by
          refine Finset.sum_le_sum fun i hi => ?_
          have hpart := part_nonneg hw (hw i (hsub hi))
          calc (f i : ℚ) ≤ share s w pool i := Nat.cast_le.mpr (hf i hi)
            _ ≤ part s w i * pool := Nat.floor_le (mul_nonneg hpart hpool)
      _ = (∑ i ∈ t, part s w i) * pool := (Finset.sum_mul ..).symm
      _ ≤ 1 * pool := mul_le_mul_of_nonneg_right (sum_part_le hw hsub) hpool
      _ = pool := one_mul _
  exact Nat.cast_le.mp hsum

theorem part_mono (hw : ∀ j ∈ s, 0 ≤ w j) (hij : w i ≤ w j) : part s w i ≤ part s w j :=
  div_le_div_of_nonneg_right hij (Finset.sum_nonneg hw)

/-- More weight of one, and of no other. -/
theorem part_le_of_grown (w w' : ι → ℚ) (hw : ∀ j ∈ s, 0 ≤ w j) (hi : i ∈ s) (hle : w i ≤ w' i)
    (hsame : ∀ j ∈ s, j ≠ i → w' j = w j) : part s w i ≤ part s w' i := by
  classical
  have hothers : ∑ j ∈ s.erase i, w' j = ∑ j ∈ s.erase i, w j :=
    Finset.sum_congr rfl fun j hj =>
      hsame j (Finset.mem_of_mem_erase hj) (Finset.ne_of_mem_erase hj)
  have hrest : 0 ≤ ∑ j ∈ s.erase i, w j :=
    Finset.sum_nonneg fun j hj => hw j (Finset.mem_of_mem_erase hj)
  unfold part
  rw [← Finset.add_sum_erase s w hi, ← Finset.add_sum_erase s w' hi, hothers]
  by_cases hzero : w i = 0
  · rw [hzero, zero_div]
    exact div_nonneg (hzero ▸ hle) (add_nonneg (hzero ▸ hle) hrest)
  · have hpos : 0 < w i := lt_of_le_of_ne (hw i hi) (Ne.symm hzero)
    have hpos' : 0 < w' i := lt_of_lt_of_le hpos hle
    rw [div_le_div_iff₀ (by positivity) (by positivity)]
    have hmul : w i * ∑ j ∈ s.erase i, w j ≤ w' i * ∑ j ∈ s.erase i, w j :=
      mul_le_mul_of_nonneg_right hle hrest
    linarith [mul_comm (w i) (w' i)]

end Shares
