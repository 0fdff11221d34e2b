import Mathlib.Algebra.Group.Nat.Defs
import Mathlib.Algebra.Order.Group.Int

/-!
# Casts and least values

A value that is shown with a largest number, after or before it is cast to fewer bits. The cast is
not seen where the value fits, or where what is left of it is still the largest number.
-/

namespace Saturate

section Order

variable {α β : Type*} [LE α] [DecidableLE α] [LinearOrder β] (f : α → β)

theorem map_min_of_le (hle : ∀ a b, a ≤ b ↔ f a ≤ f b) (a b : α) :
    f (minOfLe.min a b) = min (f a) (f b) := by
  by_cases h : a ≤ b
  · exact (congrArg f (if_pos h)).trans (min_eq_left ((hle a b).mp h)).symm
  · have hlt : f b < f a := not_le.mp fun h' => h ((hle a b).mpr h')
    exact (congrArg f (if_neg h)).trans (min_eq_right hlt.le).symm

theorem map_max_of_le (hle : ∀ a b, a ≤ b ↔ f a ≤ f b) (a b : α) :
    f (maxOfLe.max a b) = max (f a) (f b) := by
  by_cases h : a ≤ b
  · exact (congrArg f (if_pos h)).trans (max_eq_right ((hle a b).mp h)).symm
  · have hlt : f b < f a := not_le.mp fun h' => h ((hle a b).mpr h')
    exact (congrArg f (if_neg h)).trans (max_eq_left hlt.le).symm

end Order

section Unsigned

variable {x w largest : Nat}

theorem min_mod_eq_min_iff (hlargest : largest < 2 ^ w) :
    min (x % 2 ^ w) largest = min x largest ↔ x < 2 ^ w ∨ largest ≤ x % 2 ^ w := by
  by_cases hx : x < 2 ^ w
  · rw [Nat.mod_eq_of_lt hx]
    exact iff_of_true rfl (.inl hx)
  · have hlarge : largest ≤ x := hlargest.le.trans (Nat.le_of_not_lt hx)
    rw [Nat.min_eq_right hlarge, or_iff_right hx]
    exact min_eq_right_iff

theorem mod_eq_min_iff :
    x % 2 ^ w = min x (2 ^ w - 1) ↔ x < 2 ^ w ∨ x % 2 ^ w = 2 ^ w - 1 := by
  have hpos : 0 < 2 ^ w := Nat.two_pow_pos w
  have hle : x % 2 ^ w ≤ 2 ^ w - 1 := Nat.le_sub_one_of_lt (Nat.mod_lt x hpos)
  have h := min_mod_eq_min_iff (x := x) (Nat.sub_lt hpos Nat.one_pos)
  rw [Nat.min_eq_left hle] at h
  exact h.trans (or_congr_right hle.ge_iff_eq)

end Unsigned

/-! ## Signed values of a range of `2 * half` -/

section Signed

variable {x largest : Int} {half : Nat}

theorem bmod_of_mem (hlow : -half ≤ x) (hhigh : x < half) : x.bmod (2 * half) = x := by
  refine (Int.bmod_eq_iff (by omega)).mpr ⟨by omega, by omega, ?_⟩
  rw [Int.sub_self]
  exact Int.dvd_zero _

theorem bmod_of_ge (hlow : half ≤ x) (hhigh : x < 3 * half) :
    x.bmod (2 * half) = x - 2 * half := by
  rw [← @bmod_of_mem (x - 2 * half) half (by omega) (by omega)]
  exact (Int.sub_bmod_right x (2 * half)).symm

theorem bmod_of_lt (hlow : -(3 * half) ≤ x) (hhigh : x < -half) :
    x.bmod (2 * half) = x + 2 * half := by
  rw [← @bmod_of_mem (x + 2 * half) half (by omega) (by omega)]
  exact (Int.add_bmod_right x (2 * half)).symm

/-- A value that wraps once is seen to, but where it wraps to more than the largest number. -/
theorem min_bmod_eq_iff (hpos : 0 < largest) (hlargest : largest < half) (hlow : -half ≤ x)
    (hhigh : x < 3 * half) :
    min (max 0 (x.bmod (2 * half))) largest = min (max 0 x) largest ↔
      x < half ∨ 2 * half + largest ≤ x := by
  by_cases hx : x < half
  · rw [bmod_of_mem hlow hx]
    exact iff_of_true rfl (.inl hx)
  · rw [bmod_of_ge (by omega) hhigh]
    omega

theorem max_bmod_eq_iff (hlow : -(2 * half) < x) (hhigh : x < 2 * half) :
    max 0 (x.bmod (2 * half)) = max 0 x ↔ -half ≤ x ∧ x < half := by
  by_cases hneg : x < -half
  · rw [bmod_of_lt (by omega) hneg]
    omega
  · by_cases hx : x < half
    · rw [bmod_of_mem (by omega) hx]
      exact iff_of_true rfl ⟨by omega, hx⟩
    · rw [bmod_of_ge (by omega) (by omega)]
      omega

end Signed

end Saturate
