import Mathlib.Order.Lattice

/-!
# Sorted association lists

A finite map with ordered keys, as a list of its entries in the order of an
iteration. `set` puts an entry where its key belongs, `erase` drops it, and a
sorted list is determined by what `find` answers (`Sorted.ext`).
-/

namespace AssocList

variable {α β : Type} [LinearOrder α]

def find (a : α) : List (α × β) → Option β
  | [] => none
  | (k, b) :: l => if k = a then some b else find a l

def set (a : α) (b : β) : List (α × β) → List (α × β)
  | [] => [(a, b)]
  | (k, c) :: l =>
      if a < k then (a, b) :: (k, c) :: l
      else if k = a then (a, b) :: l
      else (k, c) :: set a b l

def erase (a : α) (l : List (α × β)) : List (α × β) := l.filter fun e => e.1 ≠ a

def Sorted (l : List (α × β)) : Prop := l.Pairwise fun x y => x.1 < y.1

theorem find_cons (a : α) (e : α × β) (l : List (α × β)) :
    find a (e :: l) = if e.1 = a then some e.2 else find a l := rfl

theorem find_set (a a' : α) (b : β) (l : List (α × β)) :
    find a' (set a b l) = if a' = a then some b else find a' l := by
  induction l with
  | nil => simp only [set, find, eq_comm]
  | cons e l ih =>
      obtain ⟨k, c⟩ := e
      simp only [set]
      split
      · simp only [find, eq_comm]
      split
      · next hka =>
          subst hka
          simp only [find, eq_comm]
          split <;> rfl
      · next hka =>
          simp only [find, ih]
          split
          · next hk =>
              subst hk
              rw [if_neg hka]
          · rfl

theorem find_erase (a a' : α) (l : List (α × β)) :
    find a' (erase a l) = if a' = a then none else find a' l := by
  induction l with
  | nil => simp only [erase, List.filter_nil, find, ite_self]
  | cons e l ih =>
      obtain ⟨k, c⟩ := e
      simp only [erase] at ih
      by_cases hka : k = a
      · subst hka
        rw [erase, List.filter_cons_of_neg (by simp), ih, find]
        split
        · rfl
        · next h => rw [if_neg (Ne.symm h)]
      · rw [erase, List.filter_cons_of_pos (by simpa using hka), find, find, ih]
        split
        · next hk =>
            subst hk
            rw [if_neg hka]
        · rfl

theorem mem_of_find {a : α} {b : β} {l : List (α × β)} (h : find a l = some b) : (a, b) ∈ l := by
  induction l with
  | nil => cases h
  | cons e l ih =>
      obtain ⟨k, c⟩ := e
      rw [find] at h
      split at h
      · next hk =>
          cases h
          subst hk
          exact List.mem_cons_self
      · exact List.mem_cons_of_mem _ (ih h)

theorem find_eq_none_of_lt {a : α} {l : List (α × β)} (h : ∀ e ∈ l, a < e.1) : find a l = none := by
  cases hf : find a l with
  | none => rfl
  | some b => exact absurd (h _ (mem_of_find hf)) (lt_irrefl a)

theorem Sorted.find_of_mem {l : List (α × β)} (hs : Sorted l) {e : α × β} (h : e ∈ l) :
    find e.1 l = some e.2 := by
  induction l with
  | nil => cases h
  | cons e' l ih =>
      obtain ⟨hlt, hs⟩ := List.pairwise_cons.mp hs
      rcases List.mem_cons.mp h with rfl | h
      · rw [find_cons, if_pos rfl]
      · rw [find_cons, if_neg (ne_of_lt (hlt e h)), ih hs h]

theorem mem_set {a : α} {b : β} {l : List (α × β)} {e : α × β} (h : e ∈ set a b l) :
    e = (a, b) ∨ e ∈ l := by
  induction l with
  | nil => exact .inl (List.mem_singleton.mp h)
  | cons e' l ih =>
      obtain ⟨k, c⟩ := e'
      rw [set] at h
      split at h
      · exact List.mem_cons.mp h
      split at h
      · rcases List.mem_cons.mp h with h | h
        · exact .inl h
        · exact .inr (List.mem_cons_of_mem _ h)
      · rcases List.mem_cons.mp h with h | h
        · exact .inr (h ▸ List.mem_cons_self)
        · exact (ih h).imp_right (List.mem_cons_of_mem _)

theorem set_of_lt {a : α} {l : List (α × β)} (h : ∀ e ∈ l, a < e.1) (b : β) :
    set a b l = (a, b) :: l := by
  cases l with
  | nil => rfl
  | cons e l => exact if_pos (h e List.mem_cons_self)

theorem set_ne_nil (a : α) (b : β) (l : List (α × β)) : set a b l ≠ [] := by
  cases l with
  | nil => exact List.cons_ne_nil _ _
  | cons e l =>
      rw [set]
      split
      · exact List.cons_ne_nil _ _
      split <;> exact List.cons_ne_nil _ _

theorem Sorted.set {l : List (α × β)} (hs : Sorted l) (a : α) (b : β) :
    Sorted (AssocList.set a b l) := by
  induction l with
  | nil => exact List.pairwise_singleton _ _
  | cons e l ih =>
      obtain ⟨k, c⟩ := e
      obtain ⟨hlt, hs'⟩ := List.pairwise_cons.mp hs
      rw [AssocList.set]
      split
      · next hak =>
          refine List.pairwise_cons.mpr ⟨fun e he => ?_, hs⟩
          rcases List.mem_cons.mp he with rfl | he
          · exact hak
          · exact lt_trans hak (hlt e he)
      split
      · next hka =>
          subst hka
          exact List.pairwise_cons.mpr ⟨hlt, hs'⟩
      · next hak hka =>
          refine List.pairwise_cons.mpr ⟨fun e he => ?_, ih hs'⟩
          rcases mem_set he with rfl | he
          · exact lt_of_le_of_ne (not_lt.mp hak) hka
          · exact hlt e he

theorem Sorted.erase {l : List (α × β)} (hs : Sorted l) (a : α) : Sorted (AssocList.erase a l) :=
  List.Pairwise.filter _ hs

theorem Sorted.ext {l l' : List (α × β)} (hs : Sorted l) (hs' : Sorted l')
    (h : ∀ a, find a l = find a l') : l = l' := by
  induction l generalizing l' with
  | nil =>
      cases l' with
      | nil => rfl
      | cons e l' =>
          have := h e.1
          rw [hs'.find_of_mem List.mem_cons_self] at this
          cases this
  | cons e l ih =>
      obtain ⟨hlt, hs⟩ := List.pairwise_cons.mp hs
      cases l' with
      | nil =>
          have := h e.1
          rw [find_cons, if_pos rfl] at this
          cases this
      | cons e' l' =>
          obtain ⟨hlt', hs'⟩ := List.pairwise_cons.mp hs'
          have hkey : e.1 = e'.1 := by
            rcases lt_trichotomy e.1 e'.1 with hk | hk | hk
            · have hnone : find e.1 (e' :: l') = none := by
                rw [find_cons, if_neg (ne_of_gt hk)]
                exact find_eq_none_of_lt fun x hx => lt_trans hk (hlt' x hx)
              have := h e.1
              rw [hnone, find_cons, if_pos rfl] at this
              cases this
            · exact hk
            · have hnone : find e'.1 (e :: l) = none := by
                rw [find_cons, if_neg (ne_of_gt hk)]
                exact find_eq_none_of_lt fun x hx => lt_trans hk (hlt x hx)
              have := h e'.1
              rw [hnone, find_cons, if_pos rfl] at this
              cases this
          have hval : e.2 = e'.2 := by
            have := h e.1
            rw [find_cons, if_pos rfl, find_cons, if_pos hkey.symm] at this
            exact Option.some.inj this
          have htail : l = l' := by
            refine ih hs hs' fun a => ?_
            by_cases ha : e.1 = a
            · rw [find_eq_none_of_lt fun x hx => ha ▸ hlt x hx,
                find_eq_none_of_lt fun x hx => ha ▸ hkey ▸ hlt' x hx]
            · have := h a
              rwa [find_cons, if_neg ha, find_cons, if_neg (hkey ▸ ha)] at this
          rw [Prod.ext hkey hval, htail]

end AssocList
