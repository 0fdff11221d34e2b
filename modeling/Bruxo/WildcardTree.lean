import Bruxo.Lib.AssocList
import Mathlib.Data.List.Induction
import Mathlib.Data.Set.Insert
import Mathlib.Order.Fin.Basic

/-!
# The index of player names

`WildcardTreeNode` (`wildcardtree.cpp`). A node stands for the characters on the way to
it; a breakpoint says that they are a name. `stores` is what a tree is about, and a
tree without dead ends is determined by it (`Wf.ext`).
-/

namespace Bruxo

/-- The values of a `char`. -/
abbrev Ch := Fin 256

abbrev Name := List Ch

inductive WildcardTreeNode where
  | node (breakpoint : Bool) (children : List (Ch × WildcardTreeNode))

namespace WildcardTreeNode

/-- The values of `ReturnValue` that `findOne` has. -/
inductive FindReturn where
  | noError | playerWithThisNameIsNotOnline | nameIsTooAmbiguous
  deriving DecidableEq

def breakpoint : WildcardTreeNode → Bool
  | node b _ => b

def children : WildcardTreeNode → List (Ch × WildcardTreeNode)
  | node _ c => c

def getChild (n : WildcardTreeNode) (ch : Ch) : Option WildcardTreeNode :=
  AssocList.find ch n.children

/-- What stands for the child that `addChild` returns a pointer to. -/
def addChild (n : WildcardTreeNode) (ch : Ch) (breakpoint : Bool) : WildcardTreeNode :=
  match n.getChild ch with
  | some child => node (child.breakpoint || breakpoint) child.children
  | none => node breakpoint []

def setChild (n : WildcardTreeNode) (ch : Ch) (child : WildcardTreeNode) : WildcardTreeNode :=
  node n.breakpoint (AssocList.set ch child n.children)

/-- A name has at least one character. -/
def insert (n : WildcardTreeNode) : Name → WildcardTreeNode
  | [] => n
  | [ch] => n.setChild ch (n.addChild ch true)
  | ch :: rest => n.setChild ch ((n.addChild ch false).insert rest)

/-- `remove` along a path that is there, with the children on it that are left empty
erased on the way back. -/
def removePath (n : WildcardTreeNode) : Name → Option WildcardTreeNode
  | [] => some (node false n.children)
  | ch :: rest =>
      match n.getChild ch with
      | none => none
      | some child =>
          match child.removePath rest with
          | none => none
          | some child' =>
              if ¬ child'.children.isEmpty ∨ child'.breakpoint then some (n.setChild ch child')
              else some (node n.breakpoint (AssocList.erase ch n.children))

def remove (n : WildcardTreeNode) (str : Name) : WildcardTreeNode := (n.removePath str).getD n

def walk (n : WildcardTreeNode) : Name → Option WildcardTreeNode
  | [] => some n
  | ch :: rest =>
      match n.getChild ch with
      | none => none
      | some child => child.walk rest

/-- The second loop of `findOne`. -/
def descend : WildcardTreeNode → Name → FindReturn × Name
  | node _ [], result => (.noError, result)
  | node breakpoint [(ch, child)], result =>
      if breakpoint then (.nameIsTooAmbiguous, result) else child.descend (result ++ [ch])
  | node _ (_ :: _ :: _), result => (.nameIsTooAmbiguous, result)

def findOne (n : WildcardTreeNode) (query result : Name) : FindReturn × Name :=
  match n.walk query with
  | none => (.playerWithThisNameIsNotOnline, result)
  | some cur => cur.descend query

/-- `wildcardTree{false}` -/
def root : WildcardTreeNode := node false []

/-! ## The names in a tree -/

def Stores (n : WildcardTreeNode) (s : Name) : Prop := ∃ m, n.walk s = some m ∧ m.breakpoint

variable {n : WildcardTreeNode}

theorem stores_nil : n.Stores [] ↔ n.breakpoint := by
  simp only [Stores, walk, Option.some.injEq, exists_eq_left']

theorem stores_cons {ch : Ch} {s : Name} :
    n.Stores (ch :: s) ↔ ∃ child, n.getChild ch = some child ∧ child.Stores s := by
  simp only [Stores, walk]
  cases n.getChild ch with
  | none => simp only [reduceCtorEq, false_and, exists_false]
  | some child => simp only [Option.some.injEq, exists_eq_left']

theorem getChild_setChild (ch ch' : Ch) (child : WildcardTreeNode) :
    (n.setChild ch child).getChild ch' = if ch' = ch then some child else n.getChild ch' :=
  AssocList.find_set ch ch' child n.children

theorem stores_setChild_nil {ch : Ch} {child : WildcardTreeNode} :
    (n.setChild ch child).Stores [] ↔ n.Stores [] := by
  simp only [stores_nil, setChild, breakpoint]

theorem stores_setChild {ch ch' : Ch} {child : WildcardTreeNode} {s : Name} :
    (n.setChild ch child).Stores (ch' :: s) ↔
      ch' = ch ∧ child.Stores s ∨ ch' ≠ ch ∧ n.Stores (ch' :: s) := by
  simp only [stores_cons, getChild_setChild]
  split
  · next h => simp only [h, Option.some.injEq, exists_eq_left', true_and, ne_eq, not_true_eq_false,
      false_and, or_false]
  · next h => simp only [h, false_and, ne_eq, not_false_eq_true, true_and, false_or]

/-- The names below a child that `addChild` returns. -/
theorem stores_addChild {ch : Ch} {b : Bool} {s : Name} :
    (n.addChild ch b).Stores s ↔ n.Stores (ch :: s) ∨ s = [] ∧ b := by
  simp only [addChild, stores_cons]
  cases hc : n.getChild ch with
  | none =>
      simp only [reduceCtorEq, false_and, exists_false, false_or]
      cases s with
      | nil => simp only [stores_nil, breakpoint, true_and]
      | cons ch' s =>
          simp only [stores_cons, getChild, children, AssocList.find, reduceCtorEq, false_and,
            exists_false]
  | some child =>
      simp only [Option.some.injEq, exists_eq_left']
      cases s with
      | nil => simp only [stores_nil, breakpoint, Bool.or_eq_true, true_and]
      | cons ch' s =>
          simp only [stores_cons, getChild, children, reduceCtorEq, false_and, or_false]

theorem stores_insert {s : Name} (hs : s ≠ []) (t : Name) :
    (n.insert s).Stores t ↔ t = s ∨ n.Stores t := by
  induction s generalizing n t with
  | nil => exact absurd rfl hs
  | cons ch s ih =>
      cases t with
      | nil =>
          have hnil : ∀ child, (n.setChild ch child).Stores [] ↔ ([] : Name) = ch :: s ∨ n.Stores [] :=
            fun child => by
              simp only [stores_setChild_nil, List.nil_eq, reduceCtorEq, false_or]
          cases s with
          | nil => exact hnil _
          | cons ch' s => exact hnil _
      | cons ch' t =>
          have hbelow : ∀ child, (child.Stores t ↔ t = s ∨ n.Stores (ch :: t)) →
              ((n.setChild ch child).Stores (ch' :: t) ↔ ch' :: t = ch :: s ∨ n.Stores (ch' :: t)) := by
            intro child hchild
            rw [stores_setChild, hchild, List.cons.injEq]
            by_cases hch : ch' = ch
            · subst hch
              simp only [true_and, ne_eq, not_true_eq_false, false_and, or_false]
            · simp only [hch, false_and, ne_eq, not_false_eq_true, true_and, false_or]
          cases s with
          | nil =>
              refine hbelow _ ?_
              rw [stores_addChild, or_comm]
              simp only [and_true]
          | cons ch'' s =>
              refine hbelow _ ?_
              rw [ih (List.cons_ne_nil _ _), stores_addChild]
              simp only [Bool.false_eq_true, and_false, or_false]

theorem stores_removePath {s : Name} {n' : WildcardTreeNode} (h : n.removePath s = some n')
    (t : Name) : n'.Stores t ↔ t ≠ s ∧ n.Stores t := by
  induction s generalizing n n' t with
  | nil =>
      cases h
      cases t with
      | nil => simp only [stores_nil, breakpoint, Bool.false_eq_true, ne_eq, not_true_eq_false, false_and]
      | cons ch t =>
          simp only [stores_cons, getChild, children, ne_eq, reduceCtorEq, not_false_eq_true, true_and]
  | cons ch s ih =>
      rw [removePath] at h
      cases hc : n.getChild ch with
      | none => rw [hc] at h; cases h
      | some child =>
          rw [hc] at h
          cases hr : child.removePath s with
          | none => simp only [hr] at h; cases h
          | some child' =>
              simp only [hr] at h
              have hchild := fun u => ih hr u
              have hkey : ∀ u, child'.Stores u ↔ ch :: u ≠ ch :: s ∧ n.Stores (ch :: u) := by
                intro u
                rw [hchild u, stores_cons, hc]
                simp only [Option.some.injEq, exists_eq_left', ne_eq, List.cons.injEq, true_and]
              split at h
              · cases h
                cases t with
                | nil =>
                    simp only [stores_setChild_nil, ne_eq, List.nil_eq, reduceCtorEq,
                      not_false_eq_true, true_and]
                | cons ch' t =>
                    rw [stores_setChild]
                    by_cases hch : ch' = ch
                    · subst hch
                      simp only [true_and, ne_eq, not_true_eq_false, false_and, or_false, hkey]
                    · simp only [hch, false_and, ne_eq, not_false_eq_true, true_and, false_or,
                        List.cons.injEq]
              · next hempty =>
                  cases h
                  have hdead : ∀ u, ¬ child'.Stores u := by
                    simp only [not_or, Decidable.not_not, Bool.not_eq_true, List.isEmpty_iff] at hempty
                    intro u
                    cases u with
                    | nil => simp only [stores_nil, hempty.2, Bool.false_eq_true, not_false_eq_true]
                    | cons ch' u =>
                        simp only [stores_cons, getChild, hempty.1, AssocList.find, reduceCtorEq,
                          false_and, exists_false, not_false_eq_true]
                  cases t with
                  | nil =>
                      simp only [stores_nil, breakpoint, ne_eq, List.nil_eq, reduceCtorEq,
                        not_false_eq_true, true_and]
                  | cons ch' t =>
                      by_cases hch : ch' = ch
                      · subst hch
                        have hgone : ¬ (node n.breakpoint (AssocList.erase ch' n.children)).Stores
                            (ch' :: t) := by
                          simp only [stores_cons, getChild, children, AssocList.find_erase, if_true,
                            reduceCtorEq, false_and, exists_false, not_false_eq_true]
                        exact ⟨fun hst => absurd hst hgone, fun hst => absurd ((hkey t).mpr hst) (hdead t)⟩
                      · simp only [stores_cons, getChild, children, AssocList.find_erase, hch, if_false,
                          ne_eq, List.cons.injEq, false_and, not_false_eq_true, true_and]

theorem walk_of_removePath {s : Name} (h : n.removePath s = none) : n.walk s = none := by
  induction s generalizing n with
  | nil => cases h
  | cons ch s ih =>
      rw [removePath] at h
      rw [walk]
      cases hc : n.getChild ch with
      | none => rfl
      | some child =>
          rw [hc] at h
          cases hr : child.removePath s with
          | none => exact ih hr
          | some child' =>
              simp only [hr] at h
              split at h <;> cases h

theorem stores_remove (s t : Name) : (n.remove s).Stores t ↔ t ≠ s ∧ n.Stores t := by
  rw [remove]
  cases hr : n.removePath s with
  | some n' => exact stores_removePath hr t
  | none =>
      refine ⟨fun h => ⟨fun heq => ?_, h⟩, fun h => h.2⟩
      obtain ⟨m, hm, -⟩ := h
      rw [heq] at hm
      rw [Option.getD_none, walk_of_removePath hr] at hm
      cases hm

/-! ## Trees without dead ends -/

/-- A node that is there for some name. -/
def Live (n : WildcardTreeNode) : Prop := n.breakpoint ∨ n.children ≠ []

inductive Wf : WildcardTreeNode → Prop where
  | mk {b : Bool} {c : List (Ch × WildcardTreeNode)} (sorted : AssocList.Sorted c)
      (live : ∀ e ∈ c, Live e.2) (sub : ∀ e ∈ c, Wf e.2) : Wf (node b c)

theorem Wf.sorted (h : Wf n) : AssocList.Sorted n.children := by
  cases h with
  | mk hs => exact hs

theorem Wf.live (h : Wf n) {e : Ch × WildcardTreeNode} (he : e ∈ n.children) : Live e.2 := by
  cases h with
  | mk _ hl => exact hl e he

theorem Wf.sub (h : Wf n) {e : Ch × WildcardTreeNode} (he : e ∈ n.children) : Wf e.2 := by
  cases h with
  | mk _ _ hsub => exact hsub e he

theorem wf_root : Wf root :=
  .mk List.Pairwise.nil (fun e he => by cases he) (fun e he => by cases he)

theorem Wf.setChild (h : Wf n) (ch : Ch) {child : WildcardTreeNode} (hl : Live child)
    (hc : Wf child) : Wf (n.setChild ch child) := by
  refine .mk (h.sorted.set ch child) (fun e he => ?_) (fun e he => ?_)
  · rcases AssocList.mem_set he with rfl | he
    · exact hl
    · exact h.live he
  · rcases AssocList.mem_set he with rfl | he
    · exact hc
    · exact h.sub he

theorem Wf.addChild (h : Wf n) (ch : Ch) (b : Bool) : Wf (n.addChild ch b) := by
  rw [WildcardTreeNode.addChild]
  cases hc : n.getChild ch with
  | none => exact .mk List.Pairwise.nil (fun e he => by cases he) (fun e he => by cases he)
  | some child =>
      have hsub := h.sub (AssocList.mem_of_find hc)
      exact .mk hsub.sorted (fun e he => hsub.live he) (fun e he => hsub.sub he)

theorem live_insert {ch : Ch} {s : Name} : Live (n.insert (ch :: s)) := by
  cases s with
  | nil => exact .inr (AssocList.set_ne_nil _ _ _)
  | cons ch' s => exact .inr (AssocList.set_ne_nil _ _ _)

theorem Wf.insert (h : Wf n) (s : Name) : Wf (n.insert s) := by
  induction s generalizing n with
  | nil => exact h
  | cons ch s ih =>
      cases s with
      | nil =>
          refine h.setChild ch (.inl ?_) (h.addChild ch true)
          rw [WildcardTreeNode.addChild]
          split
          · exact Bool.or_true _
          · rfl
      | cons ch' s => exact h.setChild ch live_insert (ih (h.addChild ch false))

theorem Wf.removePath (h : Wf n) {s : Name} {n' : WildcardTreeNode}
    (hr : n.removePath s = some n') : Wf n' := by
  induction s generalizing n n' with
  | nil =>
      cases hr
      exact .mk h.sorted (fun e he => h.live he) (fun e he => h.sub he)
  | cons ch s ih =>
      rw [WildcardTreeNode.removePath] at hr
      cases hc : n.getChild ch with
      | none => rw [hc] at hr; cases hr
      | some child =>
          rw [hc] at hr
          cases hr' : child.removePath s with
          | none => simp only [hr'] at hr; cases hr
          | some child' =>
              simp only [hr'] at hr
              split at hr
              · next hlive =>
                  cases hr
                  refine h.setChild ch ?_ (ih (h.sub (AssocList.mem_of_find hc)) hr')
                  rcases hlive with hne | hb
                  · exact .inr fun heq => hne (List.isEmpty_iff.mpr heq)
                  · exact .inl hb
              · cases hr
                exact .mk (h.sorted.erase ch) (fun e he => h.live ((List.mem_filter.mp he).1))
                  (fun e he => h.sub ((List.mem_filter.mp he).1))

theorem Wf.remove (h : Wf n) (s : Name) : Wf (n.remove s) := by
  rw [WildcardTreeNode.remove]
  cases hr : n.removePath s with
  | none => exact h
  | some n' => exact h.removePath hr

theorem Wf.stores_of_mem (h : Wf n) {e : Ch × WildcardTreeNode} (he : e ∈ n.children) {s : Name}
    (hs : e.2.Stores s) : n.Stores (e.1 :: s) :=
  stores_cons.mpr ⟨e.2, h.sorted.find_of_mem he, hs⟩

/-- Every live node leads to a name. -/
theorem Wf.exists_name (h : Wf n) (hl : Live n) : ∃ s, n.Stores s := by
  induction h with
  | @mk b c hsort hlive hsub ih =>
      rcases hl with hb | hne
      · exact ⟨[], stores_nil.mpr hb⟩
      · obtain ⟨e, he⟩ := List.exists_mem_of_ne_nil c hne
        obtain ⟨s, hs⟩ := ih e he (hlive e he)
        exact ⟨e.1 :: s, (Wf.mk hsort hlive hsub).stores_of_mem he hs⟩

/-- A tree without dead ends is determined by its names. -/
theorem Wf.ext (h : Wf n) {n' : WildcardTreeNode} (h' : Wf n')
    (hs : ∀ s, n.Stores s ↔ n'.Stores s) : n = n' := by
  induction h generalizing n' with
  | @mk b c hsort hlive hsub ih =>
      obtain @⟨b', c', hsort', hlive', hsub'⟩ := h'
      have hwf : Wf (node b c) := .mk hsort hlive hsub
      have hwf' : Wf (node b' c') := .mk hsort' hlive' hsub'
      have hb : b = b' := by
        have := hs []
        rw [stores_nil, stores_nil] at this
        exact Bool.eq_iff_iff.mpr this
      have hc : c = c' := by
        refine hsort.ext hsort' fun ch => ?_
        cases hf : AssocList.find ch c with
        | none =>
            cases hf' : AssocList.find ch c' with
            | none => rfl
            | some child' =>
                have hmem := AssocList.mem_of_find hf'
                obtain ⟨s, hst⟩ := (hsub' _ hmem).exists_name (hlive' _ hmem)
                obtain ⟨child, hchild, -⟩ := stores_cons.mp
                  ((hs (ch :: s)).mpr (hwf'.stores_of_mem hmem hst))
                exact absurd (hf.symm.trans hchild) (by simp only [reduceCtorEq, not_false_eq_true])
        | some child =>
            have hmem := AssocList.mem_of_find hf
            obtain ⟨s, hst⟩ := (hsub _ hmem).exists_name (hlive _ hmem)
            obtain ⟨child', hchild', -⟩ := stores_cons.mp
              ((hs (ch :: s)).mp (hwf.stores_of_mem hmem hst))
            have hf' : AssocList.find ch c' = some child' := hchild'
            rw [hf']
            refine congrArg some (ih _ hmem (hsub' _ (AssocList.mem_of_find hf')) fun t => ?_)
            have := hs (ch :: t)
            rw [stores_cons, stores_cons] at this
            simpa only [getChild, children, hf, hf', Option.some.injEq, exists_eq_left'] using this
      rw [hb, hc]

/-! ## Searching -/

/-- The loop finds the only name of a tree, or that there is more than one. -/
theorem Wf.descend_spec (h : Wf n) (hl : Live n) (result : Name) :
    (∀ s, n.Stores s → (∀ t, n.Stores t → t = s) → n.descend result = (.noError, result ++ s)) ∧
      (∀ s t, n.Stores s → n.Stores t → s ≠ t →
        (n.descend result).1 = .nameIsTooAmbiguous) := by
  induction h generalizing result with
  | @mk b c hsort hlive hsub ih =>
      have hwf : Wf (node b c) := .mk hsort hlive hsub
      have hname : ∀ e ∈ c, ∃ s, (node b c).Stores (e.1 :: s) := fun e he => by
        obtain ⟨s, hs⟩ := (hsub e he).exists_name (hlive e he)
        exact ⟨s, hwf.stores_of_mem he hs⟩
      match hc : c with
      | [] =>
          -- a leaf, whose only name is the one that leads to it
          have honly : ∀ s, (node b []).Stores s → s = [] := fun s hs => by
            cases s with
            | nil => rfl
            | cons ch s =>
                obtain ⟨child, hchild, -⟩ := stores_cons.mp hs
                cases hchild
          refine ⟨fun s hs _ => ?_, fun s t hs ht hne => ?_⟩
          · rw [honly s hs, List.append_nil, descend]
          · exact absurd ((honly s hs).trans (honly t ht).symm) hne
      | [(ch, child)] =>
          have hchild : ∀ s, (node b [(ch, child)]).Stores (ch :: s) ↔ child.Stores s := fun s => by
            simp only [stores_cons, getChild, children, AssocList.find, if_true, Option.some.injEq,
              exists_eq_left']
          have hfirst : ∀ s, (node b [(ch, child)]).Stores s → s = [] ∧ b ∨
              ∃ s', s = ch :: s' ∧ child.Stores s' := by
            intro s hs
            cases s with
            | nil => exact .inl ⟨rfl, stores_nil.mp hs⟩
            | cons ch' s =>
                obtain ⟨child', hget, hs'⟩ := stores_cons.mp hs
                simp only [getChild, children, AssocList.find] at hget
                split at hget
                · next heq =>
                    cases hget
                    exact .inr ⟨s, by rw [heq], hs'⟩
                · cases hget
          obtain ⟨ih1, ih2⟩ := ih (ch, child) List.mem_cons_self (hlive _ List.mem_cons_self)
            (result ++ [ch])
          rw [descend]
          by_cases hb : b
          · rw [if_pos hb]
            refine ⟨fun s hs hall => ?_, fun s t _ _ _ => rfl⟩
            obtain ⟨s', hs'⟩ := hname (ch, child) List.mem_cons_self
            have hnil := hall [] (stores_nil.mpr hb)
            rw [hall _ hs', ← hnil] at hs'
            exact absurd ((hall _ (hname (ch, child) List.mem_cons_self).choose_spec).trans hnil.symm)
              (List.cons_ne_nil _ _)
          · rw [if_neg hb]
            refine ⟨fun s hs hall => ?_, fun s t hs ht hne => ?_⟩
            · rcases hfirst s hs with ⟨-, hb'⟩ | ⟨s', rfl, hs'⟩
              · exact absurd hb' hb
              · rw [ih1 s' hs' fun t ht => List.cons.inj (hall _ ((hchild t).mpr ht)) |>.2,
                  List.append_assoc, List.singleton_append]
            · rcases hfirst s hs with ⟨-, hb'⟩ | ⟨s', rfl, hs'⟩
              · exact absurd hb' hb
              rcases hfirst t ht with ⟨-, hb'⟩ | ⟨t', rfl, ht'⟩
              · exact absurd hb' hb
              exact ih2 s' t' hs' ht' fun heq => hne (by rw [heq])
      | e :: e' :: c' =>
          refine ⟨fun s hs hall => ?_, fun s t _ _ _ => by rw [descend]⟩
          obtain ⟨s₁, hs₁⟩ := hname e List.mem_cons_self
          obtain ⟨s₂, hs₂⟩ := hname e' (List.mem_cons_of_mem _ List.mem_cons_self)
          have hlt := (List.pairwise_cons.mp hsort).1 e' List.mem_cons_self
          have heq := (hall _ hs₁).trans (hall _ hs₂).symm
          exact absurd (List.cons.inj heq).1 (ne_of_lt hlt)

theorem walk_append (q s : Name) : n.walk (q ++ s) = (n.walk q).bind (·.walk s) := by
  induction q generalizing n with
  | nil => rfl
  | cons ch q ih =>
      rw [List.cons_append, walk, walk]
      cases n.getChild ch with
      | none => rfl
      | some child => exact ih

theorem Wf.walk (h : Wf n) {q : Name} (hq : q ≠ []) {m : WildcardTreeNode}
    (hw : n.walk q = some m) : Wf m ∧ Live m := by
  induction q generalizing n with
  | nil => exact absurd rfl hq
  | cons ch q ih =>
      rw [WildcardTreeNode.walk] at hw
      cases hc : n.getChild ch with
      | none => rw [hc] at hw; cases hw
      | some child =>
          rw [hc] at hw
          have hmem := AssocList.mem_of_find hc
          cases q with
          | nil =>
              cases hw
              exact ⟨h.sub hmem, h.live hmem⟩
          | cons ch' q => exact ih (h.sub hmem) (List.cons_ne_nil _ _) hw

theorem stores_append {q s : Name} {m : WildcardTreeNode} (hw : n.walk q = some m) :
    n.Stores (q ++ s) ↔ m.Stores s := by
  rw [Stores, Stores, walk_append, hw, Option.bind_some]

theorem Wf.findOne_spec (h : Wf n) {q : Name} (hq : q ≠ []) (result : Name) :
    ((∀ s, n.Stores s → ¬ q <+: s) →
        n.findOne q result = (.playerWithThisNameIsNotOnline, result)) ∧
      (∀ s, n.Stores s → q <+: s → (∀ t, n.Stores t → q <+: t → t = s) →
        n.findOne q result = (.noError, s)) ∧
      (∀ s t, n.Stores s → n.Stores t → q <+: s → q <+: t → s ≠ t →
        (n.findOne q result).1 = .nameIsTooAmbiguous) := by
  rw [findOne]
  cases hw : n.walk q with
  | none =>
      have hnone : ∀ s, n.Stores s → ¬ q <+: s := by
        rintro s ⟨m, hm, -⟩ ⟨t, rfl⟩
        rw [walk_append, hw] at hm
        cases hm
      exact ⟨fun _ => rfl, fun s hs hp => absurd hp (hnone s hs),
        fun s t hs _ hp => absurd hp (hnone s hs)⟩
  | some m =>
      obtain ⟨hwf, hlive⟩ := h.walk hq hw
      obtain ⟨hone, hmany⟩ := hwf.descend_spec hlive q
      refine ⟨fun hno => ?_, ?_, ?_⟩
      · obtain ⟨s, hs⟩ := hwf.exists_name hlive
        exact absurd (List.prefix_append q s) (hno _ ((stores_append hw).mpr hs))
      · rintro _ hs ⟨s, rfl⟩ hall
        refine hone s ((stores_append hw).mp hs) fun t ht => ?_
        exact List.append_cancel_left (hall _ ((stores_append hw).mpr ht) (List.prefix_append q t))
      · rintro _ _ hs ht ⟨s, rfl⟩ ⟨t, rfl⟩ hne
        exact hmany s t ((stores_append hw).mp hs) ((stores_append hw).mp ht)
          fun heq => hne (by rw [heq])

/-! ## Runs -/

inductive Op where
  | insert (name : Name)
  | remove (name : Name)

def Op.name : Op → Name
  | insert s => s
  | remove s => s

def step (n : WildcardTreeNode) : Op → WildcardTreeNode
  | .insert s => n.insert s
  | .remove s => n.remove s

def run (ops : List Op) : WildcardTreeNode := ops.foldl step root

/-- The names that were inserted and not removed since. -/
def remaining (ops : List Op) : Set Name :=
  ops.foldl (fun names op => match op with
    | .insert s => Insert.insert s names
    | .remove s => names \ {s}) ∅

theorem run_spec (ops : List Op) (hne : ∀ op ∈ ops, op.name ≠ []) :
    Wf (run ops) ∧ (∀ t, (run ops).Stores t ↔ t ∈ remaining ops) ∧ [] ∉ remaining ops := by
  induction ops using List.reverseRecOn with
  | nil =>
      refine ⟨wf_root, fun t => ?_, Set.notMem_empty _⟩
      have hempty : ¬ root.Stores t := by
        cases t with
        | nil => exact fun h => by cases stores_nil.mp h
        | cons ch t =>
            intro h
            obtain ⟨child, hc, -⟩ := stores_cons.mp h
            cases hc
      exact ⟨fun h => absurd h hempty, fun h => absurd h (Set.notMem_empty t)⟩
  | append_singleton ops op ih =>
      obtain ⟨hwf, hst, hnil⟩ := ih fun o ho => hne o (List.mem_append_left _ ho)
      have hop := hne op (List.mem_append_right _ (List.mem_singleton.mpr rfl))
      simp only [run, remaining, List.foldl_append, List.foldl_cons, List.foldl_nil]
      cases op with
      | insert s =>
          refine ⟨hwf.insert s, fun t => ?_, fun hmem => ?_⟩
          · exact (stores_insert hop t).trans (or_congr Iff.rfl (hst t))
          · rcases Set.mem_insert_iff.mp hmem with heq | hmem
            · exact hop heq.symm
            · exact hnil hmem
      | remove s =>
          refine ⟨hwf.remove s, fun t => ?_, fun hmem => hnil hmem.1⟩
          rw [step, stores_remove, Set.mem_sdiff, Set.mem_singleton_iff, and_comm]
          exact and_congr (hst t) Iff.rfl

theorem build_spec (names : List Name) (hne : ∀ s ∈ names, s ≠ []) :
    Wf (names.foldl insert root) ∧ ∀ t, (names.foldl insert root).Stores t ↔ t ∈ names := by
  induction names using List.reverseRecOn with
  | nil =>
      refine ⟨wf_root, fun t => ?_⟩
      have := (run_spec [] (fun op h => by cases h)).2.1 t
      exact this.trans ⟨fun h => absurd h (Set.notMem_empty t), fun h => by cases h⟩
  | append_singleton names s ih =>
      obtain ⟨hwf, hst⟩ := ih fun t ht => hne t (List.mem_append_left _ ht)
      have hs := hne s (List.mem_append_right _ (List.mem_singleton.mpr rfl))
      rw [List.foldl_append, List.foldl_cons, List.foldl_nil]
      refine ⟨hwf.insert s, fun t => ?_⟩
      rw [stores_insert hs, hst, List.mem_append, List.mem_singleton, or_comm]

/-- After any run, a search answers by the names that are left, and the tree is the one
built from these in any order. -/
theorem wildcard_index_correct (ops : List Op) (hne : ∀ op ∈ ops, op.name ≠ []) :
    (∀ q, q ≠ [] → ∀ result,
      ((∀ s ∈ remaining ops, ¬ q <+: s) →
          (run ops).findOne q result = (.playerWithThisNameIsNotOnline, result)) ∧
        (∀ s ∈ remaining ops, q <+: s → (∀ t ∈ remaining ops, q <+: t → t = s) →
          (run ops).findOne q result = (.noError, s)) ∧
        (∀ s ∈ remaining ops, ∀ t ∈ remaining ops, q <+: s → q <+: t → s ≠ t →
          ((run ops).findOne q result).1 = .nameIsTooAmbiguous)) ∧
      ∀ names : List Name, (∀ s, s ∈ names ↔ s ∈ remaining ops) →
        run ops = names.foldl insert root := by
  obtain ⟨hwf, hst, hnil⟩ := run_spec ops hne
  constructor
  · intro q hq result
    obtain ⟨hnone, hone, hmany⟩ := hwf.findOne_spec hq result
    refine ⟨fun h => hnone fun s hs => h s ((hst s).mp hs), fun s hs hp h =>
      hone s ((hst s).mpr hs) hp fun t ht => h t ((hst t).mp ht), fun s hs t ht => ?_⟩
    exact hmany s t ((hst s).mpr hs) ((hst t).mpr ht)
  · intro names hnames
    have hne' : ∀ s ∈ names, s ≠ [] := fun s hs heq => hnil (heq ▸ (hnames s).mp hs)
    obtain ⟨hwf', hst'⟩ := build_spec names hne'
    exact hwf.ext hwf' fun s => (hst s).trans ((hnames s).symm.trans (hst' s).symm)

/-- "ab" and "abc" are inserted, then "ab" is removed. -/
theorem wildcard_index_correct_prefix_removed :
    (run [.insert [97, 98], .insert [97, 98, 99], .remove [97, 98]]).findOne [97] [] =
      (.noError, [97, 98, 99]) := by
  have h := wildcard_index_correct [.insert [97, 98], .insert [97, 98, 99], .remove [97, 98]]
    (by simp [Op.name])
  exact ((h.1 [97] (List.cons_ne_nil _ _) []).2.1) [97, 98, 99]
    (by simp [remaining]) (by decide) (by simp [remaining])

end WildcardTreeNode

end Bruxo
