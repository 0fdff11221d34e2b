import Mathlib.Data.Finmap
import Mathlib.Data.Finset.Insert

/-!
# Maps and sets read back from their rows

A finite map written out as its entries, and a finite set as its members, in any order. A loop
that puts the rows into an empty map gives the map back, whatever the loop does with a key that is
already there (`foldl_entries`).
-/

namespace Entries

variable {α β : Type} [DecidableEq α]

theorem entries_foldl {step : Finmap (fun _ : α => β) → (Σ _ : α, β) → Finmap fun _ : α => β}
    (hstep : ∀ s e, e.1 ∉ s → step s e = s.insert e.1 e.2) (rows : List (Σ _ : α, β))
    (s : Finmap fun _ : α => β) (hnodup : (s.entries + (rows : Multiset _)).keys.Nodup) :
    (rows.foldl step s).entries = s.entries + rows := by
  induction rows generalizing s with
  | nil => exact (add_zero s.entries).symm
  | cons e rows ih =>
      have hsum : s.entries + ((e :: rows : List _) : Multiset _)
          = e ::ₘ (s.entries + (rows : Multiset _)) := Multiset.add_cons e s.entries rows
      rw [hsum] at hnodup ⊢
      have hfresh : e.1 ∉ s := by
        intro hmem
        rw [Multiset.keys_cons, Multiset.nodup_cons] at hnodup
        refine hnodup.1 ?_
        rw [Multiset.keys, Multiset.map_add, Multiset.mem_add]
        exact .inl (Finmap.mem_def.mp hmem)
      have hinsert : (s.insert e.1 e.2).entries = e ::ₘ s.entries :=
        Finmap.entries_insert_of_notMem hfresh
      rw [List.foldl_cons, hstep s e hfresh, ih, hinsert, Multiset.cons_add]
      rw [hinsert, Multiset.cons_add]
      exact hnodup

theorem foldl_entries {step : Finmap (fun _ : α => β) → (Σ _ : α, β) → Finmap fun _ : α => β}
    (hstep : ∀ s e, e.1 ∉ s → step s e = s.insert e.1 e.2) {rows : List (Σ _ : α, β)}
    {s : Finmap fun _ : α => β} (hrows : (rows : Multiset _) = s.entries) :
    rows.foldl step ∅ = s := by
  have hempty : (∅ : Finmap fun _ : α => β).entries = 0 := rfl
  have hnodup : ((∅ : Finmap fun _ : α => β).entries + (rows : Multiset _)).keys.Nodup := by
    rw [hempty, zero_add, hrows]
    exact s.nodupKeys.nodup_keys
  refine Finmap.ext ?_
  rw [entries_foldl hstep rows ∅ hnodup, hempty, zero_add, hrows]

/-- The rows in the form they are written in. -/
theorem foldl_rows {ρ : Type} (read : ρ → Σ _ : α, β) (write : (Σ _ : α, β) → ρ)
    (step : Finmap (fun _ : α => β) → (Σ _ : α, β) → Finmap fun _ : α => β)
    (hread : ∀ e, read (write e) = e) (hstep : ∀ s e, e.1 ∉ s → step s e = s.insert e.1 e.2)
    {rows : List ρ} {s : Finmap fun _ : α => β}
    (hrows : (rows : Multiset _) = s.entries.map write) :
    rows.foldl (fun s row => step s (read row)) ∅ = s := by
  have hentries : ((rows.map read : List _) : Multiset _) = s.entries := by
    rw [← Multiset.map_coe, hrows, Multiset.map_map]
    exact (Multiset.map_congr rfl fun e _ => hread e).trans (Multiset.map_id' _)
  rw [← foldl_entries hstep hentries, List.foldl_map]

/-- The members that a loop inserts are those of the rows that pass its check. -/
theorem mem_foldl_insert {p : α → Prop} [DecidablePred p] {step : Finset α → α → Finset α}
    (hstep : ∀ s a, step s a = if p a then insert a s else s) (rows : List α) (s : Finset α)
    (a : α) : a ∈ rows.foldl step s ↔ a ∈ s ∨ a ∈ rows ∧ p a := by
  induction rows generalizing s with
  | nil => simp only [List.foldl_nil, List.not_mem_nil, false_and, or_false]
  | cons b rows ih =>
      rw [List.foldl_cons, ih, hstep, List.mem_cons]
      split
      · next hb =>
          rw [Finset.mem_insert]
          constructor
          · rintro ((rfl | hs) | hrows)
            · exact .inr ⟨.inl rfl, hb⟩
            · exact .inl hs
            · exact .inr ⟨.inr hrows.1, hrows.2⟩
          · rintro (hs | ⟨rfl | hrows, ha⟩)
            · exact .inl (.inr hs)
            · exact .inl (.inl rfl)
            · exact .inr ⟨hrows, ha⟩
      · next hb =>
          constructor
          · rintro (hs | hrows)
            · exact .inl hs
            · exact .inr ⟨.inr hrows.1, hrows.2⟩
          · rintro (hs | ⟨rfl | hrows, ha⟩)
            · exact .inl hs
            · exact absurd ha hb
            · exact .inr ⟨hrows, ha⟩

end Entries
