import Mathlib.Data.List.Basic

/-!
# Runs of a step function

A run is a list of actions that a total step function takes one after the other. What is
said of a run is said of every action in it, at the state that the action finds
(`Throughout`); it follows from what one step does under an invariant.
-/

namespace Bruxo.Runs

variable {σ α : Type*} (step : σ → α → σ)

def run (s : σ) (as : List α) : σ := as.foldl step s

@[simp] theorem run_nil (s : σ) : run step s [] = s := rfl

@[simp] theorem run_cons (s : σ) (a : α) (as : List α) :
    run step s (a :: as) = run step (step s a) as := rfl

theorem run_snoc (s : σ) (as : List α) (a : α) :
    run step s (as ++ [a]) = step (run step s as) a := by
  rw [run, List.foldl_append]
  rfl

theorem run_append (s : σ) (as bs : List α) :
    run step s (as ++ bs) = run step (run step s as) bs := by
  unfold run
  rw [List.foldl_append]

/-- `P` holds at every action of the run, of the state before it and the action. -/
def Throughout (P : σ → α → Prop) (s : σ) (as : List α) : Prop :=
  ∀ pre a post, as = pre ++ a :: post → P (run step s pre) a

variable {step} {P C : σ → α → Prop} {Inv : σ → Prop} {s : σ}

theorem throughout_nil : Throughout step P s [] :=
  fun pre _ _ h => by cases pre <;> cases h

theorem throughout_cons {a : α} {as : List α} :
    Throughout step P s (a :: as) ↔ P s a ∧ Throughout step P (step s a) as := by
  constructor
  · intro h
    exact ⟨h [] a as rfl, fun pre b post heq => h (a :: pre) b post (by rw [heq]; rfl)⟩
  · rintro ⟨hfirst, hrest⟩ pre b post heq
    cases pre with
    | nil =>
        obtain ⟨rfl, rfl⟩ := List.cons.inj heq
        exact hfirst
    | cons c pre =>
        obtain ⟨rfl, rfl⟩ := List.cons.inj heq
        exact hrest pre b post rfl

theorem throughout_snoc {as : List α} {a : α} :
    Throughout step P s (as ++ [a]) ↔ Throughout step P s as ∧ P (run step s as) a := by
  induction as generalizing s with
  | nil =>
      rw [List.nil_append, throughout_cons, run_nil]
      exact ⟨fun h => ⟨throughout_nil, h.1⟩, fun h => ⟨h.2, throughout_nil⟩⟩
  | cons b as ih => rw [List.cons_append, throughout_cons, throughout_cons, ih, run_cons, and_assoc]

/-- Where the condition of a step decides what holds at it, and is all that the invariant
needs, the condition of a run decides what holds throughout. -/
theorem throughout_iff (hstep : ∀ s a, Inv s → C s a → Inv (step s a))
    (hiff : ∀ s a, Inv s → (P s a ↔ C s a)) (inv : Inv s) (as : List α) :
    Throughout step P s as ↔ Throughout step C s as := by
  induction as generalizing s with
  | nil => exact ⟨fun _ => throughout_nil, fun _ => throughout_nil⟩
  | cons a as ih =>
      rw [throughout_cons, throughout_cons]
      constructor
      · rintro ⟨hfirst, hrest⟩
        have hc := (hiff s a inv).mp hfirst
        exact ⟨hc, (ih (hstep s a inv hc)).mp hrest⟩
      · rintro ⟨hc, hrest⟩
        exact ⟨(hiff s a inv).mpr hc, (ih (hstep s a inv hc)).mpr hrest⟩

/-- What is kept by every step that meets its condition is so after a run that meets it. -/
theorem run_inv (hstep : ∀ s a, Inv s → C s a → Inv (step s a)) (inv : Inv s) {as : List α}
    (hc : Throughout step C s as) : Inv (run step s as) := by
  induction as generalizing s with
  | nil => exact inv
  | cons a as ih =>
      obtain ⟨hfirst, hrest⟩ := throughout_cons.mp hc
      exact ih (hstep s a inv hfirst) hrest

/-- What the condition of a step gives under the invariant holds throughout a run that meets it. -/
theorem throughout_of_inv (hstep : ∀ s a, Inv s → C s a → Inv (step s a))
    (hof : ∀ s a, Inv s → C s a → P s a) (inv : Inv s) {as : List α}
    (hc : Throughout step C s as) : Throughout step P s as := by
  induction as generalizing s with
  | nil => exact throughout_nil
  | cons a as ih =>
      obtain ⟨hfirst, hrest⟩ := throughout_cons.mp hc
      exact throughout_cons.mpr ⟨hof s a inv hfirst, ih (hstep s a inv hfirst) hrest⟩

end Bruxo.Runs
