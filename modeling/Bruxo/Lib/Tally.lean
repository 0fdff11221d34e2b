import Bruxo.Lib.AssocList
import Mathlib.Algebra.BigOperators.Group.Finset.Piecewise

/-!
# Tallies

Deposits of amounts to keys, as a sorted association list of what each key holds. Deposits one after
the other leave at each key the sum of what went to it, and all keys together hold the sum of all.
-/

namespace Tally

open AssocList

variable {α M : Type} [LinearOrder α]

/-! ## The keys of a list -/

section Keys

variable {l : List (α × M)}

def keys (l : List (α × M)) : Finset α := (l.map Prod.fst).toFinset

theorem mem_keys {e : α × M} (h : e ∈ l) : e.1 ∈ keys l :=
  List.mem_toFinset.mpr (List.mem_map_of_mem h)

theorem keys_cons (e : α × M) (l : List (α × M)) : keys (e :: l) = insert e.1 (keys l) :=
  List.toFinset_cons

theorem keys_set (a : α) (b : M) (l : List (α × M)) :
    keys (AssocList.set a b l) = insert a (keys l) := by
  induction l with
  | nil => rfl
  | cons e l ih =>
      obtain ⟨k, c⟩ := e
      rw [AssocList.set]
      split
      · rw [keys_cons]
      split
      · next hka => rw [keys_cons, keys_cons, hka, Finset.insert_idem]
      · rw [keys_cons, keys_cons, ih, Finset.insert_comm]

/-- A sum over the entries of a sorted list that depends on the keys only. -/
theorem sum_entries {N : Type} [AddCommMonoid N] (hs : Sorted l) (f : α → N) :
    (l.map fun e => f e.1).sum = ∑ a ∈ keys l, f a := by
  have hnodup : (l.map Prod.fst).Nodup := List.pairwise_map.mpr (hs.imp fun h => ne_of_lt h)
  rw [keys, List.sum_toFinset f hnodup, List.map_map]
  rfl

end Keys

/-! ## Deposits -/

section Deposits

variable [AddCommMonoid M] {l deposits : List (α × M)}

/-- What a key holds. -/
def held (a : α) (l : List (α × M)) : M := (find a l).getD 0

def credit (l : List (α × M)) (e : α × M) : List (α × M) :=
  AssocList.set e.1 (held e.1 l + e.2) l

def total (l : List (α × M)) : M := (l.map Prod.snd).sum

/-- What a list of deposits takes to a key. -/
def deposited (a : α) (deposits : List (α × M)) : M :=
  ((deposits.filter fun e => e.1 = a).map Prod.snd).sum

theorem deposited_cons (a : α) (e : α × M) (deposits : List (α × M)) :
    deposited a (e :: deposits) = (if e.1 = a then e.2 else 0) + deposited a deposits := by
  unfold deposited
  by_cases h : e.1 = a
  · rw [if_pos h, List.filter_cons_of_pos (by simpa using h), List.map_cons, List.sum_cons]
  · rw [if_neg h, List.filter_cons_of_neg (by simpa using h), zero_add]

theorem held_credit (a : α) (l : List (α × M)) (e : α × M) :
    held a (credit l e) = held a l + if e.1 = a then e.2 else 0 := by
  unfold held credit
  rw [find_set]
  by_cases h : e.1 = a
  · rw [if_pos h.symm, if_pos h, h]
    rfl
  · rw [if_neg (Ne.symm h), if_neg h, add_zero]

theorem held_credits (a : α) :
    held a (deposits.foldl credit l) = held a l + deposited a deposits := by
  induction deposits generalizing l with
  | nil => exact (add_zero _).symm
  | cons e deposits ih => rw [List.foldl_cons, ih, held_credit, add_assoc, deposited_cons]

theorem keys_credits : keys (deposits.foldl credit l) = keys l ∪ keys deposits := by
  induction deposits generalizing l with
  | nil => exact (Finset.union_empty _).symm
  | cons e deposits ih =>
      rw [List.foldl_cons, ih, credit, keys_set, keys_cons, Finset.insert_union,
        Finset.union_insert]

theorem Sorted.credit (hs : Sorted l) (e : α × M) : Sorted (Tally.credit l e) := hs.set _ _

theorem Sorted.credits (hs : Sorted l) (deposits : List (α × M)) :
    Sorted (deposits.foldl Tally.credit l) := by
  induction deposits generalizing l with
  | nil => exact hs
  | cons e deposits ih => exact ih (Sorted.credit hs e)

/-- A sorted list has one entry of a key. -/
theorem deposited_eq_held (hs : Sorted l) (a : α) : deposited a l = held a l := by
  induction l with
  | nil => rfl
  | cons e l ih =>
      obtain ⟨hlt, hs⟩ := List.pairwise_cons.mp hs
      rw [deposited_cons, ih hs]
      unfold held
      rw [find_cons]
      by_cases h : e.1 = a
      · subst h
        rw [if_pos rfl, if_pos rfl, find_eq_none_of_lt hlt]
        exact add_zero _
      · rw [if_neg h, if_neg h, zero_add]

/-- What a sorted list holds in total is what its keys hold. -/
theorem total_eq_sum (hs : Sorted l) : total l = ∑ a ∈ keys l, held a l := by
  rw [← sum_entries hs]
  refine congrArg List.sum (List.map_congr_left fun e he => ?_)
  rw [held, hs.find_of_mem he]
  rfl

theorem total_eq_sum_of_subset (hs : Sorted l) {s : Finset α} (hsub : keys l ⊆ s) :
    total l = ∑ a ∈ s, held a l := by
  rw [total_eq_sum hs]
  refine Finset.sum_subset hsub fun a _ ha => ?_
  unfold held
  cases hf : find a l with
  | none => rfl
  | some b => exact absurd (mem_keys (mem_of_find hf)) ha

theorem total_credit (hs : Sorted l) (e : α × M) : total (credit l e) = total l + e.2 := by
  have hkeys : keys (credit l e) = insert e.1 (keys l) := keys_set _ _ _
  rw [total_eq_sum (Sorted.credit hs e), hkeys,
    total_eq_sum_of_subset hs (Finset.subset_insert e.1 _),
    Finset.sum_congr rfl fun a _ => held_credit a l e, Finset.sum_add_distrib, Finset.sum_ite_eq,
    if_pos (Finset.mem_insert_self _ _)]

theorem total_credits (hs : Sorted l) :
    total (deposits.foldl credit l) = total l + total deposits := by
  induction deposits generalizing l with
  | nil => exact (add_zero _).symm
  | cons e deposits ih =>
      have hcons : total (e :: deposits) = e.2 + total deposits := List.sum_cons
      rw [List.foldl_cons, ih (Sorted.credit hs e), total_credit hs, add_assoc, hcons]

end Deposits

end Tally
