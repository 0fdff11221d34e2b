import Mathlib.Data.List.Basic
import Mathlib.Tactic.TypeStar

/-!
# Nested loops that can fail

Loops over ranges whose steps have no result where they are undefined, the cells of a loop in a
loop, and what two ways of picking from a list agree on.
-/

namespace Loops

/-! ## One loop -/

section Loop

variable {σ α : Type*} {f : σ → α → Option σ} {a : α} {l : List α}

/-- A step that never has a result leaves the loop without one. -/
theorem foldlM_eq_none (ha : a ∈ l) (h : ∀ s, f s a = none) (s : σ) : l.foldlM f s = none := by
  induction l generalizing s with
  | nil => cases ha
  | cons b l ih =>
      rw [List.foldlM_cons]
      rcases List.mem_cons.mp ha with rfl | ha
      · rw [h]
        rfl
      · cases f s b with
        | none => rfl
        | some s' => exact ih ha s'

theorem foldlM_concat (s : σ) : (l ++ [a]).foldlM f s = (l.foldlM f s).bind fun s => f s a := by
  rw [List.foldlM_append]
  refine congrArg (Option.bind _) (funext fun s' => ?_)
  rw [List.foldlM_cons]
  exact Option.bind_fun_some _

variable {g : σ → Nat → Option σ} {P : Nat → σ → Prop} {n : Nat}

/-- The invariant of a loop over a range speaks of the next index. -/
theorem foldlM_range (hstep : ∀ i < n, ∀ s, P i s → ∃ s', g s i = some s' ∧ P (i + 1) s') {s : σ}
    (h : P 0 s) : ∃ s', (List.range n).foldlM g s = some s' ∧ P n s' := by
  induction n with
  | zero => exact ⟨s, rfl, h⟩
  | succ n ih =>
      obtain ⟨t, ht, hP⟩ := ih fun i hi => hstep i (Nat.lt_succ_of_lt hi)
      obtain ⟨s', hs', hP'⟩ := hstep n (Nat.lt_succ_self n) t hP
      refine ⟨s', ?_, hP'⟩
      rw [List.range_succ, foldlM_concat, ht]
      exact hs'

end Loop

/-! ## A loop in a loop -/

section Cells

variable {rows cols : Nat} {c : Nat × Nat}

def rowCells (row cols : Nat) : List (Nat × Nat) := (List.range cols).map fun col => (row, col)

/-- Rows and columns in the order of a loop over the columns in one over the rows. -/
def cells (rows cols : Nat) : List (Nat × Nat) :=
  (List.range rows).flatMap fun row => rowCells row cols

theorem rowCells_succ (row cols : Nat) :
    rowCells row (cols + 1) = rowCells row cols ++ [(row, cols)] := by
  rw [rowCells, List.range_succ, List.map_append]
  rfl

theorem cells_succ (rows cols : Nat) :
    cells (rows + 1) cols = cells rows cols ++ rowCells rows cols := by
  rw [cells, List.range_succ, List.flatMap_append, List.flatMap_singleton]
  rfl

theorem mem_cells : c ∈ cells rows cols ↔ c.1 < rows ∧ c.2 < cols := by
  rw [cells, List.mem_flatMap]
  constructor
  · rintro ⟨row, hrow, hc⟩
    obtain ⟨col, hcol, rfl⟩ := List.mem_map.mp hc
    exact ⟨List.mem_range.mp hrow, List.mem_range.mp hcol⟩
  · rintro ⟨hrow, hcol⟩
    exact ⟨c.1, List.mem_range.mpr hrow, List.mem_map.mpr ⟨c.2, List.mem_range.mpr hcol, rfl⟩⟩

end Cells

/-! ## Picking -/

section Pick

variable {α β : Type*} {f g : α → Option β} {l : List α}

theorem filterMap_length_le (hle : ∀ a b, g a = some b → f a = some b) :
    (l.filterMap g).length ≤ (l.filterMap f).length := by
  induction l with
  | nil => exact Nat.le_refl 0
  | cons a l ih =>
      cases hg : g a with
      | none =>
          rw [List.filterMap_cons_none hg]
          cases hf : f a with
          | none => rwa [List.filterMap_cons_none hf]
          | some b =>
              rw [List.filterMap_cons_some hf]
              exact Nat.le_succ_of_le ih
      | some b =>
          rw [List.filterMap_cons_some hg, List.filterMap_cons_some (hle a b hg)]
          exact Nat.succ_le_succ ih

/-- Two ways of picking, of which one picks whatever the other does, pick the same list only if
they pick the same everywhere. -/
theorem filterMap_eq_iff (hle : ∀ a b, g a = some b → f a = some b) :
    l.filterMap f = l.filterMap g ↔ ∀ a ∈ l, f a = g a := by
  refine ⟨fun h => ?_, List.filterMap_congr⟩
  induction l with
  | nil => exact fun a ha => by cases ha
  | cons a l ih =>
      rw [List.forall_mem_cons]
      cases hg : g a with
      | some b =>
          rw [List.filterMap_cons_some hg, List.filterMap_cons_some (hle a b hg)] at h
          exact ⟨hle a b hg, ih (List.cons.inj h).2⟩
      | none =>
          cases hf : f a with
          | none =>
              rw [List.filterMap_cons_none hg, List.filterMap_cons_none hf] at h
              exact ⟨rfl, ih h⟩
          | some b =>
              rw [List.filterMap_cons_none hg, List.filterMap_cons_some hf] at h
              have hlength := congrArg List.length h
              have hshorter := filterMap_length_le (l := l) hle
              rw [List.length_cons] at hlength
              omega

end Pick

end Loops
