import Mathlib.Data.Finset.Card
import Mathlib.Logic.Relation

/-!
# Forests, breadth first

A queue of nodes, from which the first one is taken and behind which its children are put. In a
forest no node comes twice, and so a finite one is walked through.
-/

namespace BreadthFirst

variable {α : Type} (children : α → List α)

/-- The nodes in the order in which they are visited, where they are not more than the number. -/
def visit : Nat → List α → Option (List α)
  | _, [] => some []
  | 0, _ :: _ => none
  | n + 1, k :: queue => (visit n (queue ++ children k)).map (k :: ·)

def Child (k x : α) : Prop := x ∈ children k

/-- Below a root, or a root. -/
def Reached (roots : List α) (x : α) : Prop :=
  ∃ r ∈ roots, Relation.ReflTransGen (Child children) r x

/-- No node has two parents, and what is reached from the roots is none of them. -/
structure Forest (roots : List α) : Prop where
  children_nodup : ∀ k, (children k).Nodup
  parent : ∀ k k' x, x ∈ children k → x ∈ children k' → k = k'
  roots_nodup : roots.Nodup
  root : ∀ k, Reached children roots k → ∀ x ∈ children k, x ∉ roots

/-- The nodes that are done and those that wait. -/
structure Walk (roots done queue : List α) : Prop where
  nodup : (done ++ queue).Nodup
  reached : ∀ x ∈ done ++ queue, Reached children roots x
  origin : ∀ x ∈ done ++ queue, x ∈ roots ∨ ∃ k ∈ done, x ∈ children k

section Lemmas

variable {children} {roots done queue l : List α} {k x : α} {U : Finset α} {n : Nat}

theorem Reached.root (h : x ∈ roots) : Reached children roots x := ⟨x, h, .refl⟩

theorem Reached.child (h : Reached children roots k) (hx : x ∈ children k) :
    Reached children roots x := by
  obtain ⟨r, hr, hpath⟩ := h
  exact ⟨r, hr, hpath.tail hx⟩

theorem Walk.start (h : Forest children roots) : Walk children roots [] roots where
  nodup := h.roots_nodup
  reached _ hx := .root hx
  origin _ hx := .inl hx

/-- The children of a node were not there before. -/
theorem Walk.step (hf : Forest children roots) (h : Walk children roots done (k :: queue)) :
    Walk children roots (done ++ [k]) (queue ++ children k) := by
  have hk : k ∈ done ++ k :: queue := List.mem_append_right _ List.mem_cons_self
  have hmid : (done ++ [k]) ++ (queue ++ children k) = (done ++ k :: queue) ++ children k := by
    simp only [List.append_assoc, List.cons_append, List.nil_append]
  refine ⟨?_, fun x hx => ?_, fun x hx => ?_⟩
  · rw [hmid]
    refine List.nodup_append.mpr ⟨h.nodup, hf.children_nodup k, ?_⟩
    rintro x hx y hy rfl
    rcases h.origin x hx with hroot | ⟨k', hk', hchild⟩
    · exact hf.root k (h.reached k hk) x hy hroot
    · obtain rfl := hf.parent k' k x hchild hy
      have hdisjoint := (List.nodup_append.mp h.nodup).2.2
      exact hdisjoint k' hk' k' List.mem_cons_self rfl
  · rw [hmid] at hx
    rcases List.mem_append.mp hx with hx | hx
    · exact h.reached x hx
    · exact (h.reached k hk).child hx
  · rw [hmid] at hx
    rcases List.mem_append.mp hx with hx | hx
    · refine (h.origin x hx).imp_right ?_
      rintro ⟨k', hk', hchild⟩
      exact ⟨k', List.mem_append_left _ hk', hchild⟩
    · exact .inr ⟨k, List.mem_append_right _ List.mem_cons_self, hx⟩

/-- There are no more than there are nodes at all. -/
theorem Walk.length_le (h : Walk children roots done queue)
    (hU : ∀ x, Reached children roots x → x ∈ U) : done.length + queue.length ≤ U.card := by
  classical
  have hsub : (done ++ queue).toFinset ⊆ U := by
    intro x hx
    exact hU x (h.reached x (List.mem_toFinset.mp hx))
  have hcard := Finset.card_le_card hsub
  rwa [List.toFinset_card_of_nodup h.nodup, List.length_append] at hcard

theorem Walk.visit (hf : Forest children roots) (hU : ∀ x, Reached children roots x → x ∈ U)
    (h : Walk children roots done queue) (hn : U.card ≤ n + done.length) :
    ∃ l, visit children n queue = some l ∧ (done ++ l).Nodup ∧
      ∀ x ∈ l, Reached children roots x := by
  have hlength := h.length_le hU
  induction n generalizing done queue with
  | zero =>
      cases queue with
      | nil => exact ⟨[], rfl, h.nodup, fun x hx => by cases hx⟩
      | cons k queue =>
          rw [List.length_cons] at hlength
          omega
  | succ n ih =>
      cases queue with
      | nil => exact ⟨[], rfl, h.nodup, fun x hx => by cases hx⟩
      | cons k queue =>
          have hstep := h.step hf
          have hdone : (done ++ [k]).length = done.length + 1 := List.length_append
          obtain ⟨l, hl, hnodup, hreached⟩ := ih hstep (by omega) (hstep.length_le hU)
          refine ⟨k :: l, ?_, ?_, fun x hx => ?_⟩
          · rw [BreadthFirst.visit, hl]
            rfl
          · rwa [List.append_assoc] at hnodup
          · rcases List.mem_cons.mp hx with rfl | hx
            · exact h.reached x (List.mem_append_right _ List.mem_cons_self)
            · exact hreached x hx

theorem visit_unique {n' : Nat} {l' : List α} (h : visit children n queue = some l)
    (h' : visit children n' queue = some l') : l = l' := by
  induction n generalizing queue n' l l' with
  | zero =>
      cases queue with
      | nil =>
          cases n' <;> cases h <;> cases h' <;> rfl
      | cons k queue => cases h
  | succ n ih =>
      cases queue with
      | nil =>
          cases n' <;> cases h <;> cases h' <;> rfl
      | cons k queue =>
          cases n' with
          | zero => cases h'
          | succ n' =>
              obtain ⟨m, hm, rfl⟩ := Option.map_eq_some_iff.mp h
              obtain ⟨m', hm', rfl⟩ := Option.map_eq_some_iff.mp h'
              rw [ih hm hm']

/-- A forest is walked through, and every node of it visited once. -/
theorem visit_forest (hf : Forest children roots) (hU : ∀ x, Reached children roots x → x ∈ U)
    (hn : U.card ≤ n) :
    ∃ l, visit children n roots = some l ∧ l.Nodup ∧ ∀ x ∈ l, Reached children roots x :=
  (Walk.start hf).visit hf hU hn

end Lemmas

end BreadthFirst
