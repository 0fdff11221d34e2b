import Mathlib.Data.List.Basic
import Mathlib.Data.List.Infix
import Mathlib.Data.Nat.Find

/-!
# Lists cut at a separator

The pieces between the separators of a list, from the left and no further than a number of cuts.
The separators that are cut at do not overlap.
-/

namespace Split

variable {α : Type} [DecidableEq α] {sep l before after : List α} {k : Nat}

/-- The pieces of the list, cut at the first separators of it. -/
def split (sep : List α) : Nat → List α → List (List α)
  | 0, l => [l]
  | k + 1, l =>
      match l.dropInfix? sep with
      | none => [l]
      | some (before, after) => before :: split sep k after

/-- The pieces of the list, cut at each separator. -/
def splitAll (sep l : List α) : List (List α) := split sep (l.length + 1) l

/-- The separators that a cut at each of them comes to. -/
def occurrences (sep l : List α) : Nat := (splitAll sep l).length - 1

theorem dropInfix?_spec (hsep : sep ≠ []) (h : l.dropInfix? sep = some (before, after)) :
    l = before ++ sep ++ after ∧ ¬ sep <:+: before := by
  obtain ⟨⟨i, hl, hi⟩, hfirst⟩ := List.dropInfix?_eq_some_iff.mp h
  obtain rfl := eq_of_beq hi
  refine ⟨hl, ?_⟩
  rintro ⟨x, y, rfl⟩
  have hle := hfirst x i (y ++ i ++ after) (by simp only [hl, List.append_assoc]) hi
  have hpos := List.length_pos_of_ne_nil hsep
  simp only [List.length_append] at hle
  omega

theorem dropInfix?_eq_none : l.dropInfix? sep = none ↔ ¬ sep <:+: l := by
  classical
  constructor
  · rintro hnone ⟨x, y, hl⟩
    -- the separator that begins first is found
    have hex : ∃ n x y, x ++ sep ++ y = l ∧ x.length = n := ⟨x.length, x, y, hl, rfl⟩
    obtain ⟨x, y, hl, hlength⟩ := Nat.find_spec hex
    have hsome : l.dropInfix? sep = some (x, y) := by
      refine List.dropInfix?_eq_some_iff.mpr ⟨⟨sep, hl.symm, beq_self_eq_true sep⟩, ?_⟩
      intro x' i y' hl' hi
      obtain rfl := eq_of_beq hi
      rw [hlength]
      exact Nat.find_min' hex ⟨x', y', hl'.symm, rfl⟩
    rw [hnone] at hsome
    cases hsome
  · intro hnot
    cases h : l.dropInfix? sep with
    | none => rfl
    | some cut =>
        obtain ⟨before, after⟩ := cut
        obtain ⟨⟨i, hl, hi⟩, -⟩ := List.dropInfix?_eq_some_iff.mp h
        obtain rfl := eq_of_beq hi
        exact absurd ⟨before, after, hl.symm⟩ hnot

theorem split_of_none (h : l.dropInfix? sep = none) : split sep k l = [l] := by
  cases k with
  | zero => rfl
  | succ k => rw [split, h]

theorem split_of_some (h : l.dropInfix? sep = some (before, after)) :
    split sep (k + 1) l = before :: split sep k after := by
  rw [split, h]

theorem split_ne_nil (sep : List α) (k : Nat) (l : List α) : split sep k l ≠ [] := by
  cases k with
  | zero => exact List.cons_ne_nil l []
  | succ k =>
      rw [split]
      split
      · exact List.cons_ne_nil l []
      · exact List.cons_ne_nil _ _

theorem intercalate_split (hsep : sep ≠ []) (k : Nat) (l : List α) :
    sep.intercalate (split sep k l) = l := by
  induction k generalizing l with
  | zero => exact List.intercalate_singleton
  | succ k ih =>
      cases h : l.dropInfix? sep with
      | none => rw [split_of_none h, List.intercalate_singleton]
      | some cut =>
          obtain ⟨before, after⟩ := cut
          obtain ⟨hl, -⟩ := dropInfix?_spec hsep h
          rw [split_of_some h, List.intercalate_cons_of_ne_nil (split_ne_nil sep k after), ih, hl]

theorem length_split_le (sep : List α) (k : Nat) (l : List α) :
    (split sep k l).length ≤ k + 1 := by
  induction k generalizing l with
  | zero => exact Nat.le_refl 1
  | succ k ih =>
      cases h : l.dropInfix? sep with
      | none =>
          rw [split_of_none h]
          exact Nat.le_add_left 1 (k + 1)
      | some cut =>
          obtain ⟨before, after⟩ := cut
          rw [split_of_some h, List.length_cons]
          exact Nat.succ_le_succ (ih after)

/-- Each cut takes something of the list away. -/
theorem length_after (hsep : sep ≠ []) (h : l.dropInfix? sep = some (before, after)) :
    after.length < l.length := by
  obtain ⟨hl, -⟩ := dropInfix?_spec hsep h
  have hpos := List.length_pos_of_ne_nil hsep
  rw [hl, List.length_append, List.length_append]
  omega

theorem length_split_le_length (hsep : sep ≠ []) (k : Nat) (l : List α) :
    (split sep k l).length ≤ l.length + 1 := by
  induction k generalizing l with
  | zero => exact Nat.le_add_left 1 l.length
  | succ k ih =>
      cases h : l.dropInfix? sep with
      | none =>
          rw [split_of_none h]
          exact Nat.le_add_left 1 l.length
      | some cut =>
          obtain ⟨before, after⟩ := cut
          have hless := length_after hsep h
          have hrest := ih after
          rw [split_of_some h, List.length_cons]
          omega

/-- Only the piece that was cut no more may contain the separator. -/
theorem not_infix_of_mem_dropLast (hsep : sep ≠ []) {piece : List α}
    (h : piece ∈ (split sep k l).dropLast) : ¬ sep <:+: piece := by
  induction k generalizing l with
  | zero => cases h
  | succ k ih =>
      cases hcut : l.dropInfix? sep with
      | none =>
          rw [split_of_none hcut] at h
          cases h
      | some cut =>
          obtain ⟨before, after⟩ := cut
          rw [split_of_some hcut, List.dropLast_cons_of_ne_nil (split_ne_nil sep k after)] at h
          rcases List.mem_cons.mp h with rfl | h
          · exact (dropInfix?_spec hsep hcut).2
          · exact ih h

/-- Where fewer cuts were made than the number, there is no separator left. -/
theorem not_infix_of_length_le (hsep : sep ≠ []) (hk : (split sep k l).length ≤ k)
    {piece : List α} (h : piece ∈ split sep k l) : ¬ sep <:+: piece := by
  induction k generalizing l with
  | zero => exact absurd hk (Nat.not_succ_le_zero 0)
  | succ k ih =>
      cases hcut : l.dropInfix? sep with
      | none =>
          rw [split_of_none hcut] at h
          obtain rfl := List.mem_singleton.mp h
          exact dropInfix?_eq_none.mp hcut
      | some cut =>
          obtain ⟨before, after⟩ := cut
          rw [split_of_some hcut] at h hk
          rcases List.mem_cons.mp h with rfl | h
          · exact (dropInfix?_spec hsep hcut).2
          · exact ih (Nat.le_of_succ_le_succ hk) h

/-- More cuts than there are separators make no difference. -/
theorem split_of_length_le {k' : Nat} (hk : (split sep k l).length ≤ k) (hle : k ≤ k') :
    split sep k' l = split sep k l := by
  induction k generalizing l k' with
  | zero => exact absurd hk (Nat.not_succ_le_zero 0)
  | succ k ih =>
      obtain ⟨k', rfl⟩ := Nat.exists_eq_add_of_le' hle
      cases hcut : l.dropInfix? sep with
      | none => rw [split_of_none hcut, split_of_none hcut]
      | some cut =>
          obtain ⟨before, after⟩ := cut
          rw [split_of_some hcut, List.length_cons] at hk
          have hrest := ih (Nat.le_of_succ_le_succ hk) (Nat.le_add_left k k')
          rw [← Nat.add_assoc, split_of_some hcut, split_of_some hcut, hrest]

/-! ## A cut at each separator -/

theorem splitAll_of_none (h : l.dropInfix? sep = none) : splitAll sep l = [l] := split_of_none h

theorem splitAll_of_some (hsep : sep ≠ []) (h : l.dropInfix? sep = some (before, after)) :
    splitAll sep l = before :: splitAll sep after := by
  have hless := length_after hsep h
  have hlength := length_split_le_length hsep (after.length + 1) after
  rw [splitAll, split_of_some h, split_of_length_le hlength hless, splitAll]

theorem occurrences_of_none (h : l.dropInfix? sep = none) : occurrences sep l = 0 := by
  rw [occurrences, splitAll_of_none h]
  rfl

theorem occurrences_of_some (hsep : sep ≠ []) (h : l.dropInfix? sep = some (before, after)) :
    occurrences sep l = occurrences sep after + 1 := by
  have hpos : 0 < (splitAll sep after).length := List.length_pos_of_ne_nil (split_ne_nil _ _ _)
  rw [occurrences, occurrences, splitAll_of_some hsep h, List.length_cons]
  omega

theorem not_infix_of_mem_splitAll (hsep : sep ≠ []) {piece : List α}
    (h : piece ∈ splitAll sep l) : ¬ sep <:+: piece :=
  not_infix_of_length_le hsep (length_split_le_length hsep (l.length + 1) l) h

end Split
