import Mathlib.Data.List.Basic

/-!
# Tables with a key

A list of rows and a key that no two of its rows share. A row is looked up by its key, and what is
found is the row with that key.
-/

namespace Table

variable {α κ : Type*} [DecidableEq κ]

def lookup (key : α → κ) (rows : List α) (k : κ) : Option α :=
  rows.find? fun row => key row = k

/-- No two rows have the same key. -/
def UniqueKey (key : α → κ) (rows : List α) : Prop :=
  ∀ row ∈ rows, ∀ other ∈ rows, key row = key other → row = other

section Lookup

variable {key : α → κ} {rows : List α} {k : κ} {row : α}

theorem mem_of_lookup (h : lookup key rows k = some row) : row ∈ rows := List.mem_of_find?_eq_some h

theorem key_of_lookup (h : lookup key rows k = some row) : key row = k := by
  have hfound : decide (key row = k) = true :=
    List.find?_some (p := fun row => decide (key row = k)) h
  exact of_decide_eq_true hfound

theorem lookup_none (h : lookup key rows k = none) (hrow : row ∈ rows) : key row ≠ k := by
  intro hkey
  exact List.find?_eq_none.mp h row hrow (decide_eq_true hkey)

theorem UniqueKey.lookup_iff (h : UniqueKey key rows) :
    lookup key rows k = some row ↔ row ∈ rows ∧ key row = k := by
  refine ⟨fun hlookup => ⟨mem_of_lookup hlookup, key_of_lookup hlookup⟩, ?_⟩
  rintro ⟨hrow, hkey⟩
  cases hfound : lookup key rows k with
  | none => exact absurd hkey (lookup_none hfound hrow)
  | some other =>
      have hsame : key other = key row := (key_of_lookup hfound).trans hkey.symm
      rw [h other (mem_of_lookup hfound) row hrow hsame]

end Lookup

end Table
