import Mathlib.Data.List.Nodup

/-!
# Totals of a ledger

The total of what the entries of a list are worth, in any type with a commutative addition. When
one entry changes what it is worth, the total changes by the difference (`total_change`).
-/

namespace Ledger

variable {α β : Type} [Add β] [Zero β]

def total (f : α → β) : List α → β
  | [] => 0
  | a :: as => f a + total f as

theorem total_congr {f g : α → β} {l : List α} (h : ∀ a ∈ l, f a = g a) :
    total f l = total g l := by
  induction l with
  | nil => rfl
  | cons a l ih =>
      rw [total, total, h a List.mem_cons_self, ih fun b hb => h b (List.mem_cons_of_mem _ hb)]

theorem total_eq_zero [Std.LawfulIdentity (α := β) (· + ·) 0] {f : α → β} {l : List α}
    (h : ∀ a ∈ l, f a = 0) : total f l = 0 := by
  induction l with
  | nil => rfl
  | cons a l ih =>
      rw [total, h a List.mem_cons_self, ih fun b hb => h b (List.mem_cons_of_mem _ hb)]
      exact Std.LawfulLeftIdentity.left_id 0

variable [Std.Associative (α := β) (· + ·)] [Std.Commutative (α := β) (· + ·)]

/-- All entries but one are worth the same as before. -/
theorem total_change {f g : α → β} {l : List α} (hnodup : l.Nodup) {a : α} (ha : a ∈ l)
    (hothers : ∀ b, b ≠ a → g b = f b) : total g l + f a = total f l + g a := by
  induction l with
  | nil => cases ha
  | cons b l ih =>
      obtain ⟨hb, hnodup⟩ := List.nodup_cons.mp hnodup
      rcases List.mem_cons.mp ha with rfl | ha
      · have hrest : total g l = total f l := total_congr fun c hc => by
          refine hothers c ?_
          rintro rfl
          exact hb hc
        rw [total, total, hrest]
        ac_rfl
      · have hhead : g b = f b := by
          refine hothers b ?_
          rintro rfl
          exact hb ha
        rw [total, total, hhead]
        have hrest := ih hnodup ha
        calc f b + total g l + f a = f b + (total g l + f a) := by ac_rfl
          _ = f b + (total f l + g a) := by rw [hrest]
          _ = f b + total f l + g a := by ac_rfl

end Ledger
