import Mathlib.Algebra.BigOperators.Group.Finset.Basic
import Mathlib.Data.Int.Basic
import Mathlib.Algebra.BigOperators.Ring.Finset
import Mathlib.Tactic.Linarith

/-!
# How much more there is in total

Places that hold amounts. A change at finitely many places makes the total more, or less, by some
difference (`Grows`), which there is one of only; changes one after the other add up.
-/

namespace Growth

variable {κ : Type} {f g h : κ → Nat} {d e : Int}

/-- Where only the places of `cs` have changed, this is by how much the total has. -/
def difference (f g : κ → Nat) (cs : Finset κ) : Int := ∑ c ∈ cs, ((g c : Int) - f c)

/-- The total of `g` is `d` more than that of `f`, and they differ at finitely many places. -/
def Grows (f g : κ → Nat) (d : Int) : Prop :=
  ∃ cs : Finset κ, (∀ c, c ∉ cs → g c = f c) ∧ difference f g cs = d

theorem difference_extend {cs ds : Finset κ} (hsub : cs ⊆ ds) (hout : ∀ c, c ∉ cs → g c = f c) :
    difference f g ds = difference f g cs := by
  refine (Finset.sum_subset hsub fun c _ hc => ?_).symm
  rw [hout c hc, sub_self]

/-- The difference is the one at any places outside of which nothing has changed. -/
theorem Grows.difference_eq (hg : Grows f g d) {ds : Finset κ}
    (hout : ∀ c, c ∉ ds → g c = f c) : difference f g ds = d := by
  classical
  obtain ⟨cs, hcs, hd⟩ := hg
  calc difference f g ds = difference f g (cs ∪ ds) :=
        (difference_extend Finset.subset_union_right hout).symm
    _ = difference f g cs := difference_extend Finset.subset_union_left hcs
    _ = d := hd

theorem Grows.unique (hd : Grows f g d) (he : Grows f g e) : d = e := by
  obtain ⟨cs, hcs, rfl⟩ := hd
  exact he.difference_eq hcs

theorem Grows.refl (f : κ → Nat) : Grows f f 0 := ⟨∅, fun _ _ => rfl, rfl⟩

theorem Grows.trans (hd : Grows f g d) (he : Grows g h e) : Grows f h (d + e) := by
  classical
  obtain ⟨cs, hcs, rfl⟩ := hd
  obtain ⟨ds, hds, rfl⟩ := he
  refine ⟨cs ∪ ds, fun c hc => ?_, ?_⟩
  · rw [Finset.mem_union, not_or] at hc
    rw [hds c hc.2, hcs c hc.1]
  · rw [← difference_extend Finset.subset_union_left hcs,
      ← difference_extend Finset.subset_union_right hds]
    unfold difference
    rw [← Finset.sum_add_distrib]
    refine Finset.sum_congr rfl fun c _ => ?_
    omega

/-- Only one place has changed. -/
theorem grows_at (a : κ) (hout : ∀ c, c ≠ a → g c = f c) : Grows f g ((g a : Int) - f a) := by
  refine ⟨{a}, fun c hc => hout c fun heq => hc (Finset.mem_singleton.mpr heq), ?_⟩
  exact Finset.sum_singleton (fun c => (g c : Int) - f c) a

end Growth
