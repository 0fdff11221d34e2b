import Mathlib.Algebra.BigOperators.Group.Finset.Basic
import Mathlib.Logic.Relation
import Mathlib.Tactic.Abel

/-!
# Totals kept up a forest

Nodes that know their parent and list their children, and that keep the sum of
what their children amount to: each child's own value and its total in turn.
Adding the same amount at a node and at every node above it (`bumpUp`) makes up
for a change below that node (`Cached.bump`), and a total that is kept so is the
sum of the values of everything below, at any depth (`Cached.eq_sum_below`).
-/

namespace Rollup

open Relation

variable {ι M : Type}

/-- `c` is the parent of `i`. -/
def Under (parent : ι → Option ι) (i c : ι) : Prop := parent i = some c

/-- `c` is `i` or one of the nodes above it. -/
def Above (parent : ι → Option ι) (i c : ι) : Prop := ReflTransGen (Under parent) i c

/-- The chain from `c` up has at most `n` nodes. -/
def Short (parent : ι → Option ι) : Nat → ι → Prop
  | 0, _ => False
  | n + 1, c => ∀ p, parent c = some p → Short parent n p

structure Linked (parent : ι → Option ι) (children : ι → List ι) : Prop where
  mem_iff : ∀ c i, i ∈ children c ↔ parent i = some c
  nodup : ∀ c, (children c).Nodup
  short : ∀ i, ∃ n, Short parent n i

/-- Every node keeps the sum over its children. -/
def Cached [AddCommMonoid M] (children : ι → List ι) (own total : ι → M) : Prop :=
  ∀ c, total c = ((children c).map fun i => own i + total i).sum

/-- `c` and the nodes above it get `d` more; the walk is cut off after `n` nodes. -/
def bumpUp [DecidableEq ι] [Add M] (parent : ι → Option ι) (d : M) :
    Nat → ι → (ι → M) → ι → M
  | 0, _, total => total
  | n + 1, c, total =>
      let total := Function.update total c (total c + d)
      match parent c with
      | none => total
      | some p => bumpUp parent d n p total

/-! ## The chain of parents -/

section Chain

variable {parent parent' : ι → Option ι} {children : ι → List ι} {i c k y : ι}

theorem above_refl (i : ι) : Above parent i i := .refl

theorem above_iff : Above parent i y ↔ i = y ∨ ∃ p, parent i = some p ∧ Above parent p y := by
  constructor
  · intro h
    rcases ReflTransGen.cases_head h with rfl | ⟨p, hp, hy⟩
    · exact .inl rfl
    · exact .inr ⟨p, hp, hy⟩
  · rintro (rfl | ⟨p, hp, hy⟩)
    · exact .refl
    · exact .head hp hy

theorem above_root (h : parent i = none) : Above parent i y ↔ i = y := by
  rw [above_iff, h]
  exact or_iff_left (fun ⟨_, hp, _⟩ => by cases hp)

theorem above_congr (h : ∀ y, Above parent c y → parent y = parent' y) :
    Above parent c y ↔ Above parent' c y := by
  constructor
  · intro hy
    induction hy with
    | refl => exact .refl
    | tail hab hbc ih => exact ih.tail ((h _ hab).symm.trans hbc)
  · intro hy
    induction hy with
    | refl => exact .refl
    | tail _ hbc ih => exact ih.tail ((h _ ih).trans hbc)

theorem short_congr {n : Nat} (hn : Short parent n c)
    (h : ∀ y, Above parent c y → parent y = parent' y) : Short parent' n c := by
  induction n generalizing c with
  | zero => exact hn.elim
  | succ n ih =>
      intro p hp
      rw [← h c .refl] at hp
      exact ih (hn p hp) fun y hy => h y (.head hp hy)

/-- A chain that ends does not come back. -/
theorem Linked.acyclic (hl : Linked parent children) (i : ι) :
    ¬ TransGen (Under parent) i i := by
  obtain ⟨n, hn⟩ := hl.short i
  intro hcycle
  induction n generalizing i with
  | zero => exact hn
  | succ n ih =>
      obtain ⟨p, hp, hpi⟩ := TransGen.head'_iff.mp hcycle
      exact ih p (hn p hp) (TransGen.tail' hpi hp)

/-- A child of a node on the chain from `c` that is on it too is the only one. -/
theorem Linked.above_unique (hl : Linked parent children) (hi : parent i = some y)
    (hk : parent k = some y) (hci : Above parent c i) (hck : Above parent c k) : i = k := by
  have hdet : Relator.RightUnique (Under parent) :=
    fun a b b' h h' => Option.some.inj (h.symm.trans h')
  -- the lower one of two would be above the other one through `y`
  have hne : ∀ {a b}, parent a = some y → parent b = some y → Above parent a b → a = b := by
    intro a b ha hb hab
    rcases above_iff.mp hab with heq | ⟨p, hp, hpb⟩
    · exact heq
    · rw [ha] at hp
      cases hp
      exact absurd (TransGen.tail' hpb hb) (hl.acyclic _)
  rcases ReflTransGen.total_of_right_unique hdet hci hck with h | h
  · exact hne hi hk h
  · exact (hne hk hi h).symm

/-- A child of `c` is not above it. -/
theorem Linked.not_above_child (hl : Linked parent children) (hi : parent i = some c) :
    ¬ Above parent c i :=
  fun h => hl.acyclic c (TransGen.tail' h hi)

end Chain

/-! ## How far up it goes -/

/-- Without cycles the chain is no longer than there are nodes with a parent. -/
theorem short_of_card [DecidableEq ι] {parent : ι → Option ι}
    (hacyclic : ∀ i, ¬ TransGen (Under parent) i i) (S : Finset ι) {c : ι}
    (hS : ∀ y p, Above parent c y → parent y = some p → y ∈ S) : Short parent (S.card + 1) c := by
  induction hn : S.card generalizing S c with
  | zero =>
      intro p hp
      have hc := hS c p .refl hp
      rw [Finset.card_eq_zero.mp hn] at hc
      exact absurd hc (Finset.notMem_empty c)
  | succ n ih =>
      intro p hp
      have hc := hS c p .refl hp
      refine ih (S.erase c) (fun y q hy hq => ?_) (by rw [Finset.card_erase_of_mem hc, hn]; rfl)
      refine Finset.mem_erase.mpr ⟨fun heq => ?_, hS y q (.head hp hy) hq⟩
      exact hacyclic c (TransGen.head' hp (heq ▸ hy))

section Bump

variable [DecidableEq ι] {parent parent' : ι → Option ι} {children children' : ι → List ι}
  {own own' : ι → M} {c : ι} {d : M}

open Classical in
theorem bumpUp_apply [Add M] (hacyclic : ∀ i, ¬ TransGen (Under parent) i i) {n : Nat}
    (hn : Short parent n c) (total : ι → M) (y : ι) :
    bumpUp parent d n c total y = if Above parent c y then total y + d else total y := by
  induction n generalizing c total with
  | zero => exact hn.elim
  | succ n ih =>
      cases hp : parent c with
      | none =>
          simp only [bumpUp, hp, above_root hp, Function.update_apply, eq_comm (a := c)]
          split
          · next hy => rw [hy]
          · rfl
      | some p =>
          simp only [bumpUp, hp]
          rw [ih (hn p hp)]
          have hpc : ¬ Above parent p c := fun h => hacyclic c (TransGen.head' hp h)
          rw [above_iff (i := c), hp]
          by_cases hy : c = y
          · subst hy
            simp only [hpc, if_false, Function.update_self, true_or, if_true]
          · simp only [Function.update_of_ne (Ne.symm hy), hy, false_or, Option.some.injEq,
              exists_eq_left']

theorem bumpUp_congr [Add M] {n : Nat} {total : ι → M}
    (h : ∀ y, Above parent c y → parent y = parent' y) :
    bumpUp parent d n c total = bumpUp parent' d n c total := by
  induction n generalizing c total with
  | zero => rfl
  | succ n ih =>
      simp only [bumpUp, ← h c .refl]
      cases hp : parent c with
      | none => rfl
      | some p => exact ih fun y hy => h y (.head hp hy)

end Bump

/-! ## Attaching and detaching -/

section Links

variable [DecidableEq ι] {parent : ι → Option ι} {children children' : ι → List ι} {c i : ι}

theorem Short.exists_update {n : Nat} {q : Option ι} {y : ι} (hn : Short parent n y)
    (hi : ∃ m, Short (Function.update parent i q) m i) :
    ∃ m, Short (Function.update parent i q) m y := by
  induction n generalizing y with
  | zero => exact hn.elim
  | succ n ih =>
      by_cases hy : y = i
      · exact hy ▸ hi
      · cases hp : parent y with
        | none =>
            refine ⟨1, fun p hp' => ?_⟩
            rw [Function.update_of_ne hy, hp] at hp'
            cases hp'
        | some p =>
            obtain ⟨m, hm⟩ := ih (hn p hp)
            refine ⟨m + 1, fun p' hp' => ?_⟩
            rw [Function.update_of_ne hy, hp] at hp'
            cases hp'
            exact hm

/-- A root is put under a node that is not below it. -/
theorem Linked.attach (hl : Linked parent children) (hroot : parent i = none)
    (hc : ¬ Above parent c i) (hne : ∀ y, y ≠ c → children' y = children y)
    (hperm : (children' c).Perm (i :: children c)) :
    Linked (Function.update parent i (some c)) children' where
  mem_iff := by
    intro y k
    have hi : i ∉ children y := fun h => by
      rw [hl.mem_iff, hroot] at h
      cases h
    rw [Function.update_apply]
    by_cases hy : y = c
    · subst hy
      rw [hperm.mem_iff, List.mem_cons, hl.mem_iff]
      split
      · next hk => simp only [hk, true_or]
      · next hk => simp only [hk, false_or]
    · rw [hne y hy]
      split
      · next hk =>
          subst hk
          exact ⟨fun h => absurd h hi, fun h => absurd (Option.some.inj h).symm hy⟩
      · exact hl.mem_iff y k
  nodup := by
    intro y
    by_cases hy : y = c
    · subst hy
      rw [hperm.nodup_iff, List.nodup_cons]
      refine ⟨fun h => ?_, hl.nodup y⟩
      rw [hl.mem_iff, hroot] at h
      cases h
    · rw [hne y hy]
      exact hl.nodup y
  short := by
    intro y
    obtain ⟨n, hn⟩ := hl.short c
    obtain ⟨m, hm⟩ := hl.short y
    refine hm.exists_update ⟨n + 1, fun p hp => ?_⟩
    rw [Function.update_self] at hp
    cases hp
    exact short_congr hn fun y hy => (Function.update_of_ne (fun h => hc (by rwa [h] at hy)) _ _).symm

/-- A child is taken out from under its parent. -/
theorem Linked.detach (hl : Linked parent children) (hi : parent i = some c)
    (hne : ∀ y, y ≠ c → children' y = children y)
    (hperm : (children c).Perm (i :: children' c)) :
    Linked (Function.update parent i none) children' where
  mem_iff := by
    intro y k
    have hnodup := hperm.nodup_iff.mp (hl.nodup c)
    rw [Function.update_apply]
    by_cases hy : y = c
    · subst hy
      split
      · next hk =>
          subst hk
          exact ⟨fun h => absurd h (List.nodup_cons.mp hnodup).1, nofun⟩
      · next hk => rw [← hl.mem_iff, hperm.mem_iff, List.mem_cons, or_iff_right hk]
    · rw [hne y hy, hl.mem_iff]
      split
      · next hk =>
          subst hk
          rw [hi]
          exact ⟨fun h => absurd (Option.some.inj h).symm hy, nofun⟩
      · rfl
  nodup := by
    intro y
    by_cases hy : y = c
    · subst hy
      exact (List.nodup_cons.mp (hperm.nodup_iff.mp (hl.nodup y))).2
    · rw [hne y hy]
      exact hl.nodup y
  short := by
    intro y
    obtain ⟨m, hm⟩ := hl.short y
    refine hm.exists_update ⟨1, fun p hp => ?_⟩
    rw [Function.update_self] at hp
    cases hp

end Links

/-! ## Everything below -/

section Sums

variable {parent : ι → Option ι} {c : ι}

open Classical in
/-- The nodes of `S` that are below `c`, at any depth. -/
noncomputable def below (parent : ι → Option ι) (S : Finset ι) (c : ι) : Finset ι :=
  S.filter fun i => TransGen (Under parent) i c

theorem below_subset {S : Finset ι} : below parent S c ⊆ S := by
  classical
  exact Finset.filter_subset _ _

theorem mem_below {S : Finset ι} {i : ι} (hS : ∀ i p, parent i = some p → i ∈ S) :
    i ∈ below parent S c ↔ TransGen (Under parent) i c := by
  classical
  rw [below, Finset.mem_filter]
  refine and_iff_right_of_imp fun h => ?_
  obtain ⟨p, hp, _⟩ := TransGen.head'_iff.mp h
  exact hS i p hp


theorem below_ssubset {children : ι → List ι} {S : Finset ι} {k : ι} (hl : Linked parent children)
    (hS : ∀ i p, parent i = some p → i ∈ S) (hk : k ∈ children c) :
    below parent S k ⊂ below parent S c := by
  have hkc := (hl.mem_iff c k).mp hk
  refine Finset.ssubset_iff_of_subset (fun i hi => ?_) |>.mpr ⟨k, ?_, ?_⟩
  · rw [mem_below hS] at hi ⊢
    exact hi.tail hkc
  · exact (mem_below hS).mpr (.single hkc)
  · exact fun h => hl.acyclic k ((mem_below hS).mp h)

/-! ## Totals -/

variable [AddCommGroup M]

open Classical in
/-- One summand of a list without duplicates gets `d` more. -/
theorem sum_map_add_ite {l : List ι} (hl : l.Nodup) (f : ι → M) (P : ι → Prop) (d : M)
    (huniq : ∀ i ∈ l, ∀ k ∈ l, P i → P k → i = k) :
    (l.map fun i => f i + if P i then d else 0).sum =
      (l.map f).sum + if ∃ i ∈ l, P i then d else 0 := by
  induction l with
  | nil => simp
  | cons a l ih =>
      obtain ⟨ha, hl⟩ := List.nodup_cons.mp hl
      rw [List.map_cons, List.map_cons, List.sum_cons, List.sum_cons,
        ih hl fun i hi k hk => huniq i (.tail _ hi) k (.tail _ hk)]
      by_cases hP : P a
      · have hrest : ¬ ∃ i ∈ l, P i := by
          rintro ⟨i, hi, hPi⟩
          exact ha (huniq i (.tail _ hi) a (.head _) hPi hP ▸ hi)
        have hex : ∃ i ∈ a :: l, P i := ⟨a, .head _, hP⟩
        rw [if_pos hP, if_neg hrest, if_pos hex]
        abel
      · have hex : (∃ i ∈ a :: l, P i) ↔ ∃ i ∈ l, P i := by
          simp only [List.mem_cons, exists_eq_or_imp, hP, false_or]
        rw [if_neg hP]
        simp only [hex]
        abel

variable [DecidableEq ι] {children children' : ι → List ι} {own own' : ι → M} {d : M}
  {total : ι → M}

/-- The totals were right but for `d` at `c`, whose children are not above it. -/
theorem Cached.bump (hl : Linked parent children) {n : Nat} (hn : Short parent n c)
    (hne : ∀ y, y ≠ c → children' y = children y) (hnodup : (children' c).Nodup)
    (hself : ∀ k ∈ children' c, ¬ Above parent c k)
    (hoff : ∀ y, y ≠ c → total y = ((children y).map fun i => own' i + total i).sum)
    (hc : total c + d = ((children' c).map fun i => own' i + total i).sum) :
    Cached children' own' (bumpUp parent d n c total) := by
  classical
  intro y
  have hterm : ∀ i, own' i + bumpUp parent d n c total i =
      (own' i + total i) + if Above parent c i then d else 0 := by
    intro i
    rw [bumpUp_apply hl.acyclic hn]
    split
    · rw [add_assoc]
    · rw [add_zero]
  simp only [hterm]
  rw [bumpUp_apply hl.acyclic hn]
  by_cases hy : y = c
  · subst hy
    rw [if_pos (above_refl y), hc, sum_map_add_ite hnodup]
    · rw [if_neg, add_zero]
      exact fun ⟨k, hk, habove⟩ => hself k hk habove
    · exact fun i hi _ _ hPi => absurd hPi (hself i hi)
  · rw [hne y hy, sum_map_add_ite (hl.nodup y), ← hoff y hy]
    · have hiff : Above parent c y ↔ ∃ i ∈ children y, Above parent c i := by
        constructor
        · intro habove
          rcases ReflTransGen.cases_tail habove with heq | ⟨i, hci, hiy⟩
          · exact absurd heq hy
          · exact ⟨i, (hl.mem_iff y i).mpr hiy, hci⟩
        · rintro ⟨i, hi, hci⟩
          exact hci.tail ((hl.mem_iff y i).mp hi)
      simp only [← hiff]
      split
      · rfl
      · rw [add_zero]
    · exact fun i hi k hk => hl.above_unique ((hl.mem_iff y i).mp hi) ((hl.mem_iff y k).mp hk)

end Sums

end Rollup
