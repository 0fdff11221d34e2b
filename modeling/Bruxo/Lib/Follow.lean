import Mathlib.Data.Set.Finite.Basic
import Mathlib.Data.Set.Finite.Range

/-!
# Following a partial function

`after n a` is what `n` steps of a partial function lead to from `a`. The steps from `a` come to an
end exactly if they never lead to the same value twice, as long as there are only finitely many
values that they may lead to. What holds where it holds one step later then holds everywhere.
-/

namespace Bruxo.Follow

variable {α : Type*} (next : α → Option α)

def after : Nat → α → Option α
  | 0, a => some a
  | n + 1, a => (after n a).bind next

/-- No value is met twice. -/
def Once (a : α) : Prop :=
  ∀ i j b, i < j → after next i a = some b → after next j a ≠ some b

variable {next} {a b : α} {i j n k : Nat}

theorem after_succ_of_eq (h : after next n a = some b) : after next (n + 1) a = next b := by
  rw [after, h, Option.bind_some]

theorem after_add (i j : Nat) (a : α) :
    after next (i + j) a = (after next i a).bind (after next j) := by
  induction j with
  | zero =>
      cases h : after next i a with
      | none => rfl
      | some b => rfl
  | succ j ih =>
      rw [← Nat.add_assoc, after, ih, Option.bind_assoc]
      rfl

theorem after_of_eq (h : after next i a = some b) (j : Nat) :
    after next (i + j) a = after next j b := by
  rw [after_add, h, Option.bind_some]

theorem after_none_of_le (h : after next n a = none) (hle : n ≤ k) : after next k a = none := by
  obtain ⟨d, rfl⟩ := Nat.exists_eq_add_of_le hle
  rw [after_add, h, Option.bind_none]

/-- What is met twice is met again and again. -/
theorem after_mul (h : after next i a = some a) (n : Nat) : after next (n * i) a = some a := by
  induction n with
  | zero => rw [Nat.zero_mul, after]
  | succ n ih => rw [Nat.succ_mul, after_of_eq ih, h]

theorem isSome_of_not_once (h : ¬ Once next a) (n : Nat) : (after next n a).isSome := by
  unfold Once at h
  push Not at h
  obtain ⟨i, j, b, hij, hi, hj⟩ := h
  obtain ⟨d, rfl⟩ := Nat.exists_eq_add_of_le (Nat.le_of_lt hij)
  have hd : 0 < d := by omega
  have hcycle : after next d b = some b := by rw [← after_of_eq hi, hj]
  have hlater : after next (i + n * d) a = some b := by rw [after_of_eq hi, after_mul hcycle]
  have hle : n ≤ i + n * d := (Nat.le_mul_of_pos_right n hd).trans (Nat.le_add_left _ _)
  refine Option.isSome_iff_ne_none.mpr fun hnone => ?_
  rw [after_none_of_le hnone hle] at hlater
  cases hlater

/-- Without meeting anything twice the steps leave a finite set. -/
theorem ends_of_once {s : Set α} (hs : s.Finite) (h : Once next a)
    (hmem : ∀ n b, after next n a = some b → b ∈ s) : ∃ n, after next n a = none := by
  by_contra hall
  push Not at hall
  choose f hf using fun n => Option.ne_none_iff_exists'.mp (hall n)
  have hinj : Function.Injective f := by
    intro i j hij
    by_contra hne
    rcases Nat.lt_or_gt_of_ne hne with hlt | hlt
    · exact h i j (f i) hlt (hf i) (hij ▸ hf j)
    · exact h j i (f j) hlt (hf j) (hij ▸ hf i)
  exact Set.infinite_of_injective_forall_mem hinj (fun n => hmem n (f n) (hf n)) hs

/-- What holds of a value if it holds of the next one, holds all along the steps. -/
theorem induction_back {P : α → Prop} (hend : after next k a = none)
    (hstep : ∀ n b, after next n a = some b → (∀ c, next b = some c → P c) → P b)
    (hb : after next n a = some b) : P b := by
  induction hd : k - n generalizing n b with
  | zero =>
      rw [after_none_of_le hend (by omega)] at hb
      cases hb
  | succ d ih =>
      refine hstep n b hb fun c hc => ?_
      exact ih (n := n + 1) (by rw [after_succ_of_eq hb, hc]) (by omega)

end Bruxo.Follow
