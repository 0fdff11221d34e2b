import Mathlib.Data.Finset.Card
import Mathlib.Logic.Relation

/-!
# Taking away with everything below

A set of nodes from which those on a stack are taken away, each with its children, and those with
theirs. A node that is not in the set any more is passed over with all that is below it, so what is
taken away is what lies below the stack as long as the set is closed: no node of it is a child of
one that was taken away before.
-/

namespace Sweep

variable {α : Type*} (children : α → List α)

/-- A child that is one of the nodes. -/
def Child (all : Finset α) (c d : α) : Prop := d ∈ children c ∧ d ∈ all

/-- The node itself, or one that is reached from it over children that are among the nodes. -/
def Below (all : Finset α) : α → α → Prop := Relation.ReflTransGen (Child children all)

/-- A child of a node that was taken away was taken away too, or is on the stack. -/
def Closed (all : Finset α) (stack : List α) (live : Finset α) : Prop :=
  ∀ c ∈ all, c ∉ live → ∀ d, Child children all c d → d ∈ live → d ∈ stack

section Closed

variable {children} {all live : Finset α} {c d : α}

theorem closed_all : Closed children all [] all := fun _ hc hnot => absurd hc hnot

/-- What is below a node that was taken away was taken away. -/
theorem Closed.below (h : Closed children all [] live) (hc : c ∈ all) (hnot : c ∉ live)
    (hbelow : Below children all c d) : d ∉ live := by
  have hmem : d ∈ all ∧ d ∉ live := by
    induction hbelow with
    | refl => exact ⟨hc, hnot⟩
    | tail _ hstep ih =>
        exact ⟨hstep.2, fun hd => absurd (h _ ih.1 ih.2 _ hstep hd) List.not_mem_nil⟩
  exact hmem.2

end Closed

variable [DecidableEq α]

/-- What is left of the set. -/
def sweep : List α → Finset α → Finset α
  | [], live => live
  | c :: stack, live =>
      if c ∈ live then sweep (children c ++ stack) (live.erase c) else sweep stack live
termination_by stack live => (live.card, stack.length)
decreasing_by
  · next h => exact Prod.Lex.left _ _ (Finset.card_erase_lt_of_mem h)
  · exact Prod.Lex.right _ (Nat.lt_succ_self _)

section Lemmas

variable {children} {all live : Finset α} {stack : List α} {c d : α}

theorem sweep_subset (stack : List α) (live : Finset α) : sweep children stack live ⊆ live := by
  induction stack, live using sweep.induct children with
  | case1 live => rw [sweep]
  | case2 c stack live hc ih =>
      rw [sweep, if_pos hc]
      exact ih.trans (Finset.erase_subset c live)
  | case3 c stack live hc ih =>
      rw [sweep, if_neg hc]
      exact ih

/-- Only what lies below the stack is taken away. -/
theorem below_of_swept (hall : live ⊆ all) (hd : d ∈ live) (h : d ∉ sweep children stack live) :
    ∃ c ∈ stack, c ∈ live ∧ Below children all c d := by
  induction stack, live using sweep.induct children with
  | case1 live =>
      rw [sweep] at h
      exact absurd hd h
  | case2 c stack live hc ih =>
      rw [sweep, if_pos hc] at h
      by_cases hself : d = c
      · exact ⟨c, List.mem_cons_self .., hc, hself ▸ Relation.ReflTransGen.refl⟩
      · obtain ⟨e, he, hlive, hbelow⟩ :=
          ih ((Finset.erase_subset c live).trans hall) (Finset.mem_erase.mpr ⟨hself, hd⟩) h
        have helive := Finset.mem_of_mem_erase hlive
        rcases List.mem_append.mp he with hchild | hstack
        · have hstep : Child children all c e := ⟨hchild, hall helive⟩
          exact ⟨c, List.mem_cons_self .., hc, Relation.ReflTransGen.head hstep hbelow⟩
        · exact ⟨e, List.mem_cons_of_mem _ hstack, helive, hbelow⟩
  | case3 c stack live hc ih =>
      rw [sweep, if_neg hc] at h
      obtain ⟨e, he, hlive, hbelow⟩ := ih hall hd h
      exact ⟨e, List.mem_cons_of_mem _ he, hlive, hbelow⟩

theorem closed_sweep (h : Closed children all stack live) :
    Closed children all [] (sweep children stack live) ∧
      ∀ c ∈ stack, c ∉ sweep children stack live := by
  induction stack, live using sweep.induct children with
  | case1 live =>
      rw [sweep]
      exact ⟨h, fun _ hc => absurd hc List.not_mem_nil⟩
  | case2 c stack live hc ih =>
      rw [sweep, if_pos hc]
      have hclosed : Closed children all (children c ++ stack) (live.erase c) := by
        intro a ha hnot d hchild hd
        obtain ⟨hne, hlive⟩ := Finset.mem_erase.mp hd
        by_cases hsame : a = c
        · exact List.mem_append_left _ (hsame ▸ hchild.1)
        · have haway : a ∉ live := fun hin => hnot (Finset.mem_erase.mpr ⟨hsame, hin⟩)
          rcases List.mem_cons.mp (h a ha haway d hchild hlive) with hd | hd
          · exact absurd hd hne
          · exact List.mem_append_right _ hd
      obtain ⟨hdone, haway⟩ := ih hclosed
      refine ⟨hdone, fun d hd => ?_⟩
      rcases List.mem_cons.mp hd with rfl | hd
      · exact fun hin => (Finset.mem_erase.mp (sweep_subset _ _ hin)).1 rfl
      · exact haway d (List.mem_append_right _ hd)
  | case3 c stack live hc ih =>
      rw [sweep, if_neg hc]
      have hclosed : Closed children all stack live := by
        intro a ha hnot d hchild hd
        rcases List.mem_cons.mp (h a ha hnot d hchild hd) with rfl | hstack
        · exact absurd hd hc
        · exact hstack
      obtain ⟨hdone, haway⟩ := ih hclosed
      refine ⟨hdone, fun d hd => ?_⟩
      rcases List.mem_cons.mp hd with rfl | hd
      · exact fun hin => hc (sweep_subset _ _ hin)
      · exact haway d hd

/-- Of a closed set what lies below the stack is taken away. -/
theorem not_mem_sweep_iff (hall : live ⊆ all) (h : Closed children all [] live) (hd : d ∈ live) :
    d ∉ sweep children stack live ↔ ∃ c ∈ stack, c ∈ all ∧ Below children all c d := by
  constructor
  · intro hnot
    obtain ⟨c, hc, hlive, hbelow⟩ := below_of_swept hall hd hnot
    exact ⟨c, hc, hall hlive, hbelow⟩
  · rintro ⟨c, hc, hin, hbelow⟩
    have hclosed : Closed children all stack live := fun a ha hnot e hchild he =>
      absurd (h a ha hnot e hchild he) List.not_mem_nil
    obtain ⟨hdone, haway⟩ := closed_sweep hclosed
    exact hdone.below hin (haway c hc) hbelow

end Lemmas

end Sweep
