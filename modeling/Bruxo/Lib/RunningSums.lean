import Mathlib.Algebra.Group.Nat.Defs
import Mathlib.Data.List.Basic
import Mathlib.Tactic.Ring

/-!
# Running sums with a modulus

The sum of a list of numbers, and the sum of the sums of its beginnings, from a start for each. They
may be reduced after any number of elements: what is left of them in the end is the same. Without
reduction they are bounded by the length of the list.
-/

namespace RunningSums

def step (s : Nat × Nat) (x : Nat) : Nat × Nat := (s.1 + x, s.2 + (s.1 + x))

def sums (s : Nat × Nat) (l : List Nat) : Nat × Nat := l.foldl step s

def reduce (m : Nat) (s : Nat × Nat) : Nat × Nat := (s.1 % m, s.2 % m)

/-- The sums with a reduction after every element. -/
def reducedSums (m : Nat) (s : Nat × Nat) (l : List Nat) : Nat × Nat :=
  l.foldl (fun s x => reduce m (step s x)) s

section Reduction

variable {m : Nat} {s : Nat × Nat}

theorem reduce_eq (h₁ : s.1 < m) (h₂ : s.2 < m) : reduce m s = s := by
  rw [reduce, Nat.mod_eq_of_lt h₁, Nat.mod_eq_of_lt h₂]

theorem reduce_lt (hm : 0 < m) (s : Nat × Nat) : (reduce m s).1 < m ∧ (reduce m s).2 < m :=
  ⟨Nat.mod_lt _ hm, Nat.mod_lt _ hm⟩

theorem reduce_step (x : Nat) : reduce m (step (reduce m s) x) = reduce m (step s x) := by
  simp only [reduce, step, Nat.add_mod, Nat.mod_mod]

theorem reduce_step_congr {s t : Nat × Nat} (h : reduce m s = reduce m t) (x : Nat) :
    reduce m (step s x) = reduce m (step t x) := by
  rw [← reduce_step, h, reduce_step]

/-- Sums that agree but for the modulus go on to agree. -/
theorem reduce_sums_congr {s t : Nat × Nat} (h : reduce m s = reduce m t) (l : List Nat) :
    reduce m (sums s l) = reduce m (sums t l) := by
  induction l generalizing s t with
  | nil => exact h
  | cons x l ih => exact ih (reduce_step_congr h x)

theorem reduce_sums (s : Nat × Nat) (l : List Nat) :
    reduce m (sums (reduce m s) l) = reduce m (sums s l) :=
  reduce_sums_congr (by simp only [reduce, Nat.mod_mod]) l

theorem reduce_reducedSums (s : Nat × Nat) (l : List Nat) :
    reduce m (reducedSums m s l) = reduce m (sums s l) := by
  induction l generalizing s with
  | nil => rfl
  | cons x l ih =>
      have hnext := ih (reduce m (step s x))
      rw [reduce_sums] at hnext
      exact hnext

theorem reducedSums_lt (h₁ : s.1 < m) (h₂ : s.2 < m) (l : List Nat) :
    (reducedSums m s l).1 < m ∧ (reducedSums m s l).2 < m := by
  have hm : 0 < m := Nat.zero_lt_of_lt h₁
  induction l generalizing s with
  | nil => exact ⟨h₁, h₂⟩
  | cons x l ih =>
      obtain ⟨hfst, hsnd⟩ := reduce_lt hm (step s x)
      exact ih hfst hsnd

/-- Reducing after every element or only in the end is the same. -/
theorem reducedSums_eq (h₁ : s.1 < m) (h₂ : s.2 < m) (l : List Nat) :
    reducedSums m s l = reduce m (sums s l) := by
  obtain ⟨hfst, hsnd⟩ := reducedSums_lt h₁ h₂ l
  rw [← reduce_reducedSums, reduce_eq hfst hsnd]

end Reduction

section Bounds

variable {s : Nat × Nat} {w : Nat}

theorem le_sums (s : Nat × Nat) (l : List Nat) : s.1 ≤ (sums s l).1 ∧ s.2 ≤ (sums s l).2 := by
  induction l generalizing s with
  | nil => exact ⟨Nat.le_refl _, Nat.le_refl _⟩
  | cons x l ih =>
      obtain ⟨hfst, hsnd⟩ := ih (step s x)
      exact ⟨(Nat.le_add_right _ _).trans hfst, (Nat.le_add_right _ _).trans hsnd⟩

theorem sums_fst_le {l : List Nat} (hw : ∀ x ∈ l, x ≤ w) :
    (sums s l).1 ≤ s.1 + l.length * w := by
  induction l generalizing s with
  | nil => exact Nat.le_add_right _ _
  | cons x l ih =>
      have hx := hw x List.mem_cons_self
      have hrest : (sums (step s x) l).1 ≤ (s.1 + x) + l.length * w :=
        ih fun y hy => hw y (List.mem_cons_of_mem _ hy)
      have hlength : (x :: l).length * w = l.length * w + w := Nat.succ_mul _ _
      have hcons : (sums s (x :: l)).1 = (sums (step s x) l).1 := rfl
      omega

/-- Of the sum of the sums, twice: half of a triangle of the largest elements. -/
theorem sums_snd_le {l : List Nat} (hw : ∀ x ∈ l, x ≤ w) :
    2 * (sums s l).2 ≤ 2 * s.2 + 2 * (l.length * s.1) + l.length * (l.length + 1) * w := by
  induction l generalizing s with
  | nil => exact (Nat.le_add_right _ _).trans (Nat.le_add_right _ _)
  | cons x l ih =>
      have hx := hw x List.mem_cons_self
      have hrest : 2 * (sums (step s x) l).2 ≤ 2 * (s.2 + (s.1 + x)) + 2 * (l.length * (s.1 + x)) +
          l.length * (l.length + 1) * w := ih fun y hy => hw y (List.mem_cons_of_mem _ hy)
      have hmul : l.length * x ≤ l.length * w := Nat.mul_le_mul_left _ hx
      calc 2 * (sums s (x :: l)).2
          ≤ 2 * (s.2 + (s.1 + x)) + 2 * (l.length * (s.1 + x)) + l.length * (l.length + 1) * w :=
            hrest
        _ = 2 * s.2 + 2 * ((l.length + 1) * s.1) + (2 * x + 2 * (l.length * x)) +
              l.length * (l.length + 1) * w := by ring
        _ ≤ 2 * s.2 + 2 * ((l.length + 1) * s.1) + (2 * w + 2 * (l.length * w)) +
              l.length * (l.length + 1) * w := by omega
        _ = 2 * s.2 + 2 * ((x :: l).length * s.1) +
              (x :: l).length * ((x :: l).length + 1) * w := by
            rw [List.length_cons]
            ring

end Bounds

end RunningSums
