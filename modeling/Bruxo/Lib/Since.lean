import Mathlib.Data.List.Induction
import Bruxo.Lib.Runs

/-!
# What has been so since

A history is a list whose head is the newest entry. `Since A B` says that `A` was so of the
history at some time, and `B` of each longer one up to now. The history of a run has the state
that each action found beside the action.
-/

namespace Bruxo.Runs

section Since

variable {α : Type*}

inductive Since (A B : List α → Prop) : List α → Prop
  | now {l : List α} (h : A l) : Since A B l
  | later {x : α} {l : List α} (h : B (x :: l)) (since : Since A B l) : Since A B (x :: l)

variable {A B : List α → Prop} {l : List α}

theorem since_nil : Since A B [] ↔ A [] := by
  constructor
  · rintro ⟨h⟩
    exact h
  · exact .now

theorem since_cons {x : α} : Since A B (x :: l) ↔ A (x :: l) ∨ B (x :: l) ∧ Since A B l := by
  constructor
  · intro h
    cases h with
    | now h => exact .inl h
    | later h since => exact .inr ⟨h, since⟩
  · rintro (h | ⟨h, since⟩)
    · exact .now h
    · exact .later h since

end Since

section History

variable {σ α : Type*} (step : σ → α → σ)

def history (s : σ) : List α → List (σ × α)
  | [] => []
  | a :: as => history (step s a) as ++ [(s, a)]

theorem history_snoc (s : σ) (as : List α) (a : α) :
    history step s (as ++ [a]) = (run step s as, a) :: history step s as := by
  induction as generalizing s with
  | nil => rfl
  | cons b as ih =>
      rw [List.cons_append, history, ih, history, run_cons, List.cons_append]

/-- `P` is so of the newest entry. -/
def AtHead (P : σ → α → Prop) : List (σ × α) → Prop
  | [] => False
  | e :: _ => P e.1 e.2

variable {step} {s : σ}

/-- One action did `A`, and all after it `B`. -/
theorem since_history {A B : σ → α → Prop} (as : List α) :
    Since (AtHead A) (AtHead B) (history step s as) ↔ ∃ pre a post, as = pre ++ a :: post ∧
      A (run step s pre) a ∧ Throughout step B (run step s (pre ++ [a])) post := by
  induction as using List.reverseRecOn with
  | nil =>
      refine ⟨fun h => (since_nil.mp h).elim, ?_⟩
      rintro ⟨pre, a, post, heq, -⟩
      exact absurd heq.symm (List.append_ne_nil_of_right_ne_nil pre (List.cons_ne_nil a post))
  | append_singleton as b ih =>
      rw [history_snoc, since_cons, ih]
      constructor
      · rintro (hA | ⟨hB, pre, a, post, rfl, hA, hpost⟩)
        · exact ⟨as, b, [], rfl, hA, throughout_nil⟩
        · refine ⟨pre, a, post ++ [b], by rw [List.append_assoc, List.cons_append], hA, ?_⟩
          rw [throughout_snoc, ← run_append, List.append_assoc, List.singleton_append]
          exact ⟨hpost, hB⟩
      · rintro ⟨pre, a, post, heq, hA, hpost⟩
        rcases List.eq_nil_or_concat post with rfl | ⟨post, c, rfl⟩
        · obtain ⟨rfl, hlast⟩ := List.append_inj' heq rfl
          obtain rfl := List.singleton_inj.mp hlast
          exact .inl hA
        · rw [List.concat_eq_append, ← List.cons_append, ← List.append_assoc] at heq
          obtain ⟨rfl, hlast⟩ := List.append_inj' heq rfl
          obtain rfl := List.singleton_inj.mp hlast
          rw [List.concat_eq_append, throughout_snoc, ← run_append, List.append_assoc,
            List.singleton_append] at hpost
          exact .inr ⟨hpost.2, pre, a, post, rfl, hA, hpost.1⟩

end History

end Bruxo.Runs
