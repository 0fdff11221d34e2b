import Bruxo.PathSearch
import Mathlib.Data.Finset.Card
import Mathlib.Data.Finset.Range

/-!
# What the path search finds

The nodes are a tree at every turn: every node but the start has a parent one step away, was
found enterable, and is dearer than its parent (`Tree`). The costs are positive, so a closed node
is never dearer than an open one and is not opened again (`Expanding`). Every expansion closes one
node more, and so there are `MAX_NODES` at most.
-/

namespace Bruxo.PathSearch

open WalkCache (toCoordinate getOffset getDistance getOffset_toCoordinate)

/-! ## Keys and neighbours -/

theorem tableKey_injective {x y x' y' : UInt16} (h : tableKey x y = tableKey x' y') :
    x = x' ∧ y = y' := by
  have hy := y.toNat_lt
  have hy' := y'.toNat_lt
  rw [tableKey, tableKey, ← Nat.shiftLeft_add_eq_or_of_lt hy, ← Nat.shiftLeft_add_eq_or_of_lt hy',
    Nat.shiftLeft_eq, Nat.shiftLeft_eq] at h
  exact ⟨UInt16.toNat_inj.mp (by omega), UInt16.toNat_inj.mp (by omega)⟩

def IsDiagonal (offset : Int × Int) : Prop := offset.1 ≠ 0 ∧ offset.2 ≠ 0

instance (offset : Int × Int) : Decidable (IsDiagonal offset) :=
  inferInstanceAs (Decidable (_ ∧ _))

theorem dirNeighbors_mem (d : Direction) : ∀ o ∈ dirNeighbors d, o ∈ allNeighbors := by
  cases d <;> decide

theorem dirNeighbors_straight {d : Direction} (h : d.isDiagonal = false) :
    ∀ o ∈ (dirNeighbors d).take 3, ¬ IsDiagonal o := by
  cases d <;> first | decide | cases h

theorem fromParent_straight (offset_x offset_y : Int) :
    (fromParent false offset_x offset_y).isDiagonal = false := by
  simp only [fromParent, Bool.not_false, Bool.true_or, if_true]
  split_ifs <;> rfl

theorem mem_neighbors {allowDiagonal : Bool} {s : AStarNodes} {n : Nat} {o : Int × Int}
    (h : o ∈ neighbors allowDiagonal s n) :
    o ∈ allNeighbors ∧
      (IsDiagonal o → allowDiagonal = true ∨ (s.nodes n).parent = none) := by
  rw [neighbors] at h
  split at h
  · refine ⟨dirNeighbors_mem _ o (List.mem_of_mem_take h), fun hdiag => .inl ?_⟩
    cases allowDiagonal with
    | true => rfl
    | false => exact absurd hdiag (dirNeighbors_straight (fromParent_straight _ _) o h)
  · next hparent => exact ⟨h, fun _ => .inr hparent⟩

theorem directionOf_neighbor {o : Int × Int} (h : o ∈ allNeighbors) :
    ∃ d : Direction, directionOf (-o.1) (-o.2) = [d] ∧ d.offset = o ∧
      (d.isDiagonal = true → IsDiagonal o) := by
  simp only [allNeighbors, List.mem_cons, List.not_mem_nil, or_false] at h
  rcases h with rfl | rfl | rfl | rfl | rfl | rfl | rfl | rfl
  all_goals exact ⟨_, rfl, rfl, by decide⟩

/-! ## The best node -/

/-- The best of the first nodes, as the loop keeps it. -/
structure Best (s : AStarNodes) (k : Nat) (best : Int × Option Nat) : Prop where
  node : ∀ n, best.2 = some n → n < k ∧ s.openNodes n = true ∧ (s.nodes n).f = best.1
  le : ∀ i < k, s.openNodes i = true → best.1 ≤ (s.nodes i).f

theorem best_foldl (s : AStarNodes) (k : Nat) :
    Best s k ((List.range k).foldl (fun best i =>
      if s.openNodes i && (s.nodes i).f < best.1 then ((s.nodes i).f, some i) else best)
      (AStarNodes.maxF, none)) := by
  induction k with
  | zero => exact ⟨fun n h => (nomatch h), fun i hi => absurd hi (Nat.not_lt_zero i)⟩
  | succ k ih =>
      rw [List.range_succ, List.foldl_append, List.foldl_cons, List.foldl_nil]
      generalize (List.range k).foldl _ _ = best at ih ⊢
      split
      · next hlt =>
          rw [Bool.and_eq_true, decide_eq_true_eq] at hlt
          refine ⟨?_, fun i hi hopen => ?_⟩
          · rintro n h
            obtain rfl := Option.some.inj h
            exact ⟨Nat.lt_succ_self k, hlt.1, rfl⟩
          · rcases Nat.lt_succ_iff_lt_or_eq.mp hi with hi | rfl
            · exact Int.le_trans (Int.le_of_lt hlt.2) (ih.le i hi hopen)
            · exact Int.le_refl _
      · next hge =>
          refine ⟨fun n h => ?_, fun i hi hopen => ?_⟩
          · obtain ⟨hn, hopen, hf⟩ := ih.node n h
            exact ⟨Nat.lt_succ_of_lt hn, hopen, hf⟩
          · rcases Nat.lt_succ_iff_lt_or_eq.mp hi with hi | rfl
            · exact ih.le i hi hopen
            · rw [hopen, Bool.true_and, decide_eq_true_eq] at hge
              exact Int.not_lt.mp hge

theorem getBestNode_spec {s : AStarNodes} {n : Nat} (h : s.getBestNode = some n) :
    n < s.curNode ∧ s.openNodes n = true ∧
      ∀ i < s.curNode, s.openNodes i = true → (s.nodes n).f ≤ (s.nodes i).f := by
  have hbest := best_foldl s s.curNode
  obtain ⟨hn, hopen, hf⟩ := hbest.node n h
  exact ⟨hn, hopen, fun i hi hi' => hf ▸ hbest.le i hi hi'⟩

/-! ## A new parent -/

section SetParent

variable {τ κ : Type} {w : Walk τ κ} {s : AStarNodes}

theorem setParent_self (i p : Nat) (f : Int) :
    (s.setParent i p f).nodes i = { s.nodes i with parent := some p, f := f } :=
  Function.update_self ..

theorem setParent_of_ne {i p j : Nat} (h : j ≠ i) (f : Int) :
    (s.setParent i p f).nodes j = s.nodes j :=
  Function.update_of_ne h ..

theorem nodePos_setParent (i p : Nat) (f : Int) (j : Nat) :
    nodePos w (s.setParent i p f) j = nodePos w s j := by
  by_cases h : j = i
  · rw [h, nodePos, setParent_self]
    rfl
  · rw [nodePos, setParent_of_ne h]
    rfl

end SetParent

/-! ## A new node -/

/-- What `createOpenNode` did. -/
structure Created (s s' : AStarNodes) (parent : Nat) (x y : UInt16) (f : Int) : Prop where
  lt_max : s.curNode < MAX_NODES
  curNode : s'.curNode = s.curNode + 1
  new : s'.nodes s.curNode = ⟨some parent, f, x, y⟩
  old : ∀ i < s.curNode, s'.nodes i = s.nodes i
  newOpen : s'.openNodes s.curNode = true
  oldOpen : ∀ i < s.curNode, s'.openNodes i = s.openNodes i
  table : ∀ x' y' i, s'.getNodeByPosition x' y' = some i →
    (x' = x ∧ y' = y ∧ i = s.curNode) ∨ s.getNodeByPosition x' y' = some i

theorem createOpenNode_spec {s s' : AStarNodes} {parent : Nat} {x y : UInt16} {f : Int}
    (h : s.createOpenNode parent x y f = some s') : Created s s' parent x y f := by
  rw [AStarNodes.createOpenNode] at h
  split at h
  · cases h
  next hmax =>
  obtain rfl := Option.some.inj h
  refine ⟨Nat.lt_of_not_le hmax, rfl, Function.update_self ..,
    fun i hi => Function.update_of_ne (Nat.ne_of_lt hi) .., Function.update_self ..,
    fun i hi => Function.update_of_ne (Nat.ne_of_lt hi) .., fun x' y' i hi => ?_⟩
  simp only [AStarNodes.getNodeByPosition, Function.update_apply] at hi
  split at hi
  · next hkey =>
      obtain ⟨hx, hy⟩ := tableKey_injective hkey
      exact .inl ⟨hx, hy, (Option.some.inj hi).symm⟩
  · exact .inr hi

/-! ## The tree -/

section Tree

variable {τ κ : Type} [DecidableEq τ] (w : Walk τ κ) (pathCondition : PathingConditionCall)
  (fpp : FindPathParams)

/-- What a position of a new node was found to be. -/
def Enterable (pos : Position) : Prop :=
  inSearch w pathCondition fpp pos = true ∧ (w.canWalkTo pos).isSome

/-- A link of a node to its parent. -/
structure Link (s : AStarNodes) (i p : Nat) (o : Int × Int) : Prop where
  parent : (s.nodes i).parent = some p
  lt : p < s.curNode
  dearer : (s.nodes p).f < (s.nodes i).f
  neighbor : o ∈ allNeighbors
  pos : nodePos w s i = shift (nodePos w s p) o
  diagonal : IsDiagonal o → fpp.allowDiagonal = true ∨ p = 0

structure Tree (s : AStarNodes) : Prop where
  pos : 0 < s.curNode
  le_max : s.curNode ≤ MAX_NODES
  table : ∀ x y i, s.getNodeByPosition x y = some i →
    i < s.curNode ∧ (s.nodes i).x = x ∧ (s.nodes i).y = y
  start : (s.nodes 0).parent = none ∧ (s.nodes 0).f = 0 ∧ nodePos w s 0 = w.position
  nonneg : ∀ i < s.curNode, 0 ≤ (s.nodes i).f
  node : ∀ i, 0 < i → i < s.curNode →
    Enterable w pathCondition fpp (nodePos w s i) ∧ ∃ p o, Link w fpp s i p o

/-- While `n` is expanded: it is the cheapest open node, and no closed node is dearer. -/
structure Expanding (n : Nat) (s : AStarNodes) : Prop extends Tree w pathCondition fpp s where
  lt : n < s.curNode
  opened : s.openNodes n = true
  closed_le : ∀ i < s.curNode, s.openNodes i = false → (s.nodes i).f ≤ (s.nodes n).f
  le_open : ∀ i < s.curNode, s.openNodes i = true → (s.nodes n).f ≤ (s.nodes i).f

def closed (s : AStarNodes) : Finset Nat :=
  (Finset.range s.curNode).filter fun i => s.openNodes i = false

/-- What a turn of the inner loop leaves as it is. -/
structure Keeps (n : Nat) (s s' : AStarNodes) : Prop where
  le : s.curNode ≤ s'.curNode
  pos : ∀ i < s.curNode, nodePos w s' i = nodePos w s i
  parent : (s'.nodes n).parent = (s.nodes n).parent
  closed : closed s' = closed s

variable {w pathCondition fpp} {s s' : AStarNodes} {n : Nat} {o : Int × Int}

theorem visit_cases (h : visit w pathCondition fpp n o s = some s') :
    s' = s ∨
      ∃ pos c, pos = shift (nodePos w s n) o ∧ inSearch w pathCondition fpp pos = true ∧ 0 < c ∧
        ((∃ i, s.getNodeByPosition pos.x pos.y = some i ∧ (s.nodes n).f + c < (s.nodes i).f ∧
            s' = (s.setParent i n ((s.nodes n).f + c)).openNode i) ∨
          (s.getNodeByPosition pos.x pos.y = none ∧ (w.canWalkTo pos).isSome ∧
            s.createOpenNode n pos.x pos.y ((s.nodes n).f + c) = some s')) := by
  rw [visit] at h
  dsimp only at h
  split at h
  · exact .inl (Option.some.inj h).symm
  next hin =>
  have hin : inSearch w pathCondition fpp (shift (nodePos w s n) o) = true := by simpa using hin
  have hcost := getMapWalkCost_pos (s.nodes n) (shift (nodePos w s n) o)
  split at h
  · next i hi =>
      split at h
      · exact .inl (Option.some.inj h).symm
      · next hf =>
          have hextra :
              0 ≤ ((w.getTile (shift (nodePos w s n) o)).map w.getTileWalkCost).getD 0 := by
            cases w.getTile (shift (nodePos w s n) o) with
            | none => exact Int.le_refl 0
            | some tile => exact w.getTileWalkCost_nonneg tile
          rw [Int.add_assoc] at h hf
          exact .inr ⟨_, _, rfl, hin, Int.add_pos_of_pos_of_nonneg hcost hextra,
            .inl ⟨i, hi, Int.not_le.mp hf, (Option.some.inj h).symm⟩⟩
  · next hnone =>
      split at h
      · exact .inl (Option.some.inj h).symm
      · next tile htile =>
          rw [Int.add_assoc] at h
          exact .inr ⟨_, _, rfl, hin,
            Int.add_pos_of_pos_of_nonneg hcost (w.getTileWalkCost_nonneg tile),
            .inr ⟨hnone, by rw [htile]; rfl, h⟩⟩

/-- A node that gets a better parent is open: a closed one is not dearer than `n`. -/
theorem Expanding.relink (h : Expanding w pathCondition fpp n s) {i : Nat} {c : Int}
    (hi : i < s.curNode) (hpos : nodePos w s i = shift (nodePos w s n) o) (hc : 0 < c)
    (hlt : (s.nodes n).f + c < (s.nodes i).f)
    (ho : o ∈ allNeighbors) (hdiag : IsDiagonal o → fpp.allowDiagonal = true ∨ n = 0) :
    Expanding w pathCondition fpp n ((s.setParent i n ((s.nodes n).f + c)).openNode i) ∧
      Keeps w n s ((s.setParent i n ((s.nodes n).f + c)).openNode i) := by
  have hopen : s.openNodes i = true := by
    cases hopen : s.openNodes i with
    | true => rfl
    | false =>
        have := h.closed_le i hi hopen
        omega
  rw [AStarNodes.openNode, if_pos (show (s.setParent i n _).openNodes i = true from hopen)]
  have hne : n ≠ i := by
    rintro rfl
    omega
  have hzero : 0 ≠ i := by
    rintro rfl
    have := h.start.2.1
    have := h.nonneg n h.lt
    omega
  have hf : ((s.setParent i n ((s.nodes n).f + c)).nodes i).f = (s.nodes n).f + c := by
    rw [setParent_self]
  have hfn : ((s.setParent i n ((s.nodes n).f + c)).nodes n).f = (s.nodes n).f := by
    rw [setParent_of_ne hne]
  have hle : ∀ j, ((s.setParent i n ((s.nodes n).f + c)).nodes j).f ≤ (s.nodes j).f := by
    intro j
    by_cases hj : j = i
    · rw [hj, hf]
      omega
    · rw [setParent_of_ne hj]
  refine ⟨{
    pos := h.pos
    le_max := h.le_max
    table := fun x y j hj => ?_
    start := ?_
    nonneg := fun j hj => ?_
    node := fun j hj hj' => ?_
    lt := h.lt
    opened := h.opened
    closed_le := fun j hj hj' => ?_
    le_open := fun j hj hj' => ?_ }, Nat.le_refl _, fun j _ => nodePos_setParent .., ?_, rfl⟩
  · obtain ⟨hlt, hx, hy⟩ := h.table x y j hj
    have hnode := nodePos_setParent (w := w) (s := s) i n ((s.nodes n).f + c) j
    simp only [nodePos, Position.mk.injEq] at hnode
    exact ⟨hlt, hnode.1.trans hx, hnode.2.1.trans hy⟩
  · rw [setParent_of_ne hzero, nodePos_setParent]
    exact h.start
  · by_cases hj' : j = i
    · rw [hj', hf]
      have := h.nonneg n h.lt
      omega
    · rw [setParent_of_ne hj']
      exact h.nonneg j hj
  · rw [nodePos_setParent]
    refine ⟨(h.node j hj hj').1, ?_⟩
    by_cases heq : j = i
    · subst heq
      exact ⟨n, o, by rw [setParent_self], h.lt, by rw [hf, hfn]; omega, ho,
        by rw [nodePos_setParent, nodePos_setParent, hpos], hdiag⟩
    · obtain ⟨p, o', hlink⟩ := (h.node j hj hj').2
      refine ⟨p, o', ?_, hlink.lt, ?_, hlink.neighbor, ?_, hlink.diagonal⟩
      · rw [setParent_of_ne heq]
        exact hlink.parent
      · rw [setParent_of_ne heq]
        exact Int.lt_of_le_of_lt (hle p) hlink.dearer
      · rw [nodePos_setParent, nodePos_setParent]
        exact hlink.pos
  · rw [hfn]
    exact Int.le_trans (hle j) (h.closed_le j hj hj')
  · rw [hfn]
    by_cases heq : j = i
    · rw [heq, hf]
      omega
    · rw [setParent_of_ne heq]
      exact h.le_open j hj hj'
  · rw [setParent_of_ne hne]

/-- A new node is open, and dearer than `n`. -/
theorem Expanding.create (h : Expanding w pathCondition fpp n s) {pos : Position} {c : Int}
    (hpos : pos = shift (nodePos w s n) o) (henter : Enterable w pathCondition fpp pos)
    (hc : 0 < c) (ho : o ∈ allNeighbors) (hdiag : IsDiagonal o → fpp.allowDiagonal = true ∨ n = 0)
    (hnew : Created s s' n pos.x pos.y ((s.nodes n).f + c)) :
    Expanding w pathCondition fpp n s' ∧ Keeps w n s s' := by
  have hlt : ∀ {i}, i < s'.curNode → i < s.curNode ∨ i = s.curNode := by
    intro i hi
    rw [hnew.curNode] at hi
    exact Nat.lt_succ_iff_lt_or_eq.mp hi
  have hlt' : ∀ {i}, i < s.curNode → i < s'.curNode := by
    intro i hi
    rw [hnew.curNode]
    exact Nat.lt_succ_of_lt hi
  have hold : ∀ i < s.curNode, nodePos w s' i = nodePos w s i := by
    intro i hi
    rw [nodePos, nodePos, hnew.old i hi]
  have hself : nodePos w s' s.curNode = pos := by
    rw [nodePos, hnew.new, hpos]
    rfl
  have hfn := h.nonneg n h.lt
  have hfn' := hnew.old n h.lt
  refine ⟨{
    pos := hlt' h.pos
    le_max := hnew.curNode ▸ hnew.lt_max
    table := fun x y i hi => ?_
    start := ?_
    nonneg := fun i hi => ?_
    node := fun i hi hi' => ?_
    lt := hlt' h.lt
    opened := (hnew.oldOpen n h.lt).trans h.opened
    closed_le := fun i hi hi' => ?_
    le_open := fun i hi hi' => ?_ },
    hnew.curNode ▸ Nat.le_succ _, hold, by rw [hfn'], ?_⟩
  · rcases hnew.table x y i hi with ⟨rfl, rfl, rfl⟩ | hi
    · rw [hnew.new]
      exact ⟨hnew.curNode ▸ Nat.lt_succ_self _, rfl, rfl⟩
    · obtain ⟨hi', hx, hy⟩ := h.table x y i hi
      rw [hnew.old i hi']
      exact ⟨hlt' hi', hx, hy⟩
  · rw [hnew.old 0 h.pos, hold 0 h.pos]
    exact h.start
  · rcases hlt hi with hi | rfl
    · rw [hnew.old i hi]
      exact h.nonneg i hi
    · rw [hnew.new]
      exact Int.add_nonneg hfn (Int.le_of_lt hc)
  · rcases hlt hi' with hi' | rfl
    · obtain ⟨henter', p, o', hlink⟩ := h.node i hi hi'
      rw [hold i hi']
      refine ⟨henter', p, o', ?_, hlt' hlink.lt, ?_, hlink.neighbor, ?_, hlink.diagonal⟩
      · rw [hnew.old i hi']
        exact hlink.parent
      · rw [hnew.old i hi', hnew.old p hlink.lt]
        exact hlink.dearer
      · rw [hold i hi', hold p hlink.lt]
        exact hlink.pos
    · refine ⟨hself ▸ henter, n, o, by rw [hnew.new], hlt' h.lt, ?_, ho, ?_, hdiag⟩
      · rw [hnew.new, hfn']
        exact Int.lt_add_of_pos_right _ hc
      · rw [hself, hold n h.lt, hpos]
  · rw [hfn']
    rcases hlt hi with hi | rfl
    · rw [hnew.oldOpen i hi] at hi'
      rw [hnew.old i hi]
      exact h.closed_le i hi hi'
    · rw [hnew.newOpen] at hi'
      cases hi'
  · rw [hfn']
    rcases hlt hi with hi | rfl
    · rw [hnew.oldOpen i hi] at hi'
      rw [hnew.old i hi]
      exact h.le_open i hi hi'
    · rw [hnew.new]
      exact Int.le_add_of_nonneg_right (Int.le_of_lt hc)
  · rw [closed, closed, hnew.curNode, Finset.range_add_one, Finset.filter_insert,
      if_neg (by rw [hnew.newOpen]; simp)]
    refine Finset.filter_congr fun i hi => ?_
    rw [hnew.oldOpen i (Finset.mem_range.mp hi)]

theorem Tree.closeNode (h : Tree w pathCondition fpp s) (n : Nat) :
    Tree w pathCondition fpp (s.closeNode n) where
  pos := h.pos
  le_max := h.le_max
  table := h.table
  start := h.start
  nonneg := h.nonneg
  node := by
    intro i hi hi'
    obtain ⟨henter, p, o, hlink⟩ := h.node i hi hi'
    exact ⟨henter, p, o, hlink.parent, hlink.lt, hlink.dearer, hlink.neighbor, hlink.pos,
      hlink.diagonal⟩

/-- Only the start is without a parent. -/
theorem Tree.neighbors (h : Tree w pathCondition fpp s) (hn : n < s.curNode) :
    ∀ o ∈ neighbors fpp.allowDiagonal s n,
      o ∈ allNeighbors ∧ (IsDiagonal o → fpp.allowDiagonal = true ∨ n = 0) := by
  intro o ho
  obtain ⟨hmem, hdiag⟩ := mem_neighbors ho
  refine ⟨hmem, fun hd => (hdiag hd).imp_right fun hparent => ?_⟩
  by_contra hne
  obtain ⟨_, p, o', hlink⟩ := h.node n (Nat.pos_of_ne_zero hne) hn
  have := hlink.parent
  rw [hparent] at this
  cases this

/-- One turn of the inner loop. -/
theorem Expanding.visit (h : Expanding w pathCondition fpp n s) (ho : o ∈ allNeighbors)
    (hdiag : IsDiagonal o → fpp.allowDiagonal = true ∨ n = 0)
    (hv : visit w pathCondition fpp n o s = some s') :
    Expanding w pathCondition fpp n s' ∧ Keeps w n s s' := by
  rcases visit_cases hv with rfl | ⟨pos, c, hpos, hin, hc, hcase⟩
  · exact ⟨h, Nat.le_refl _, fun _ _ => rfl, rfl, rfl⟩
  rcases hcase with ⟨i, hi, hlt, rfl⟩ | ⟨_, hwalk, hnew⟩
  · obtain ⟨hi, hx, hy⟩ := h.table _ _ i hi
    refine h.relink hi ?_ hc hlt ho hdiag
    rw [nodePos, hx, hy, hpos]
    rfl
  · exact h.create hpos ⟨hin, hwalk⟩ hc ho hdiag (createOpenNode_spec hnew)

omit [DecidableEq τ] in
theorem Keeps.trans {s'' : AStarNodes} (h : Keeps w n s s') (h' : Keeps w n s' s'') :
    Keeps w n s s'' where
  le := Nat.le_trans h.le h'.le
  pos := fun i hi => (h'.pos i (Nat.lt_of_lt_of_le hi h.le)).trans (h.pos i hi)
  parent := h'.parent.trans h.parent
  closed := h'.closed.trans h.closed

/-- The inner loop. -/
theorem Expanding.expand (h : Expanding w pathCondition fpp n s) {offsets : List (Int × Int)}
    (ho : ∀ o ∈ offsets, o ∈ allNeighbors ∧
      (IsDiagonal o → fpp.allowDiagonal = true ∨ n = 0)) :
    Expanding w pathCondition fpp n (expand w pathCondition fpp n offsets s).1 ∧
      Keeps w n s (expand w pathCondition fpp n offsets s).1 := by
  induction offsets generalizing s with
  | nil => exact ⟨h, Nat.le_refl _, fun _ _ => rfl, rfl, rfl⟩
  | cons o offsets ih =>
      obtain ⟨hmem, hdiag⟩ := ho o List.mem_cons_self
      rw [PathSearch.expand]
      split
      · next s' hv =>
          obtain ⟨h', hkeeps⟩ := h.visit hmem hdiag hv
          obtain ⟨h'', hkeeps'⟩ := ih h' fun o ho' => ho o (List.mem_cons_of_mem _ ho')
          exact ⟨h'', hkeeps.trans hkeeps'⟩
      · exact ⟨h, Nat.le_refl _, fun _ _ => rfl, rfl, rfl⟩

end Tree

/-! ## The search -/

section Search

variable {τ κ : Type} [DecidableEq τ] (w : Walk τ κ) (pathCondition : PathingConditionCall)
  (fpp : FindPathParams)

/-- The path condition held at this position when it was asked. -/
def Accepted (pos : Position) : Prop :=
  ∃ bestMatch, (pathCondition.call w.position pos fpp bestMatch).1 = true

/-- Between two turns of the outer loop. -/
structure Searching (s : Search) : Prop extends Tree w pathCondition fpp s.nodes where
  ordered : ∀ i < s.nodes.curNode, ∀ j < s.nodes.curNode,
    s.nodes.openNodes i = false → s.nodes.openNodes j = true → (s.nodes.nodes i).f ≤ (s.nodes.nodes j).f
  found : ∀ n, s.found = some n →
    n < s.nodes.curNode ∧ nodePos w s.nodes n = s.endPos ∧ Accepted w pathCondition fpp s.endPos

variable {w pathCondition fpp} {s s' : Search} {n : Nat}

theorem Searching.select_ended (h : Searching w pathCondition fpp s)
    (hs : select w pathCondition fpp s = .ended s') : Searching w pathCondition fpp s' := by
  rw [select] at hs
  split at hs
  · split at hs
    · split at hs
      · cases hs
        exact h
      · cases hs
    · next n hbest =>
        dsimp only at hs
        split at hs
        · next hok =>
            split at hs
            · cases hs
              refine { h with found := fun m hm => ?_ }
              obtain rfl := Option.some.inj hm
              exact ⟨(getBestNode_spec hbest).1, rfl, s.bestMatch, hok⟩
            · cases hs
        · cases hs
  · cases hs
    exact h

theorem Searching.select_node (h : Searching w pathCondition fpp s)
    (hs : select w pathCondition fpp s = .node n s') :
    Searching w pathCondition fpp s' ∧ s'.nodes = s.nodes ∧ s.nodes.getBestNode = some n := by
  rw [select] at hs
  split at hs
  · split at hs
    · split at hs <;> cases hs
    · next m hbest =>
        dsimp only at hs
        split at hs
        · next hok =>
            split at hs
            · cases hs
            · cases hs
              refine ⟨{ h with found := fun m hm => ?_ }, rfl, hbest⟩
              obtain rfl := Option.some.inj hm
              exact ⟨(getBestNode_spec hbest).1, rfl, s.bestMatch, hok⟩
        · cases hs
          exact ⟨{ h with found := h.found }, rfl, hbest⟩
  · cases hs

theorem Searching.expanding (h : Searching w pathCondition fpp s)
    (hbest : s.nodes.getBestNode = some n) : Expanding w pathCondition fpp n s.nodes := by
  obtain ⟨hlt, hopen, hmin⟩ := getBestNode_spec hbest
  exact { h.toTree with
    lt := hlt
    opened := hopen
    closed_le := fun i hi hi' => h.ordered i hi n hlt hi' hopen
    le_open := hmin }

theorem closed_closeNode {nodes : AStarNodes} (hlt : n < nodes.curNode)
    (hopen : nodes.openNodes n = true) :
    (closed (nodes.closeNode n)).card = (closed nodes).card + 1 := by
  have hinsert : closed (nodes.closeNode n) = insert n (closed nodes) := by
    ext i
    simp only [closed, AStarNodes.closeNode, Finset.mem_filter, Finset.mem_range,
      Finset.mem_insert, Function.update_apply]
    by_cases h : i = n
    · subst h
      simp only [hlt, if_pos, true_and, true_or]
    · simp only [h, if_false, false_or]
  rw [hinsert, Finset.card_insert_of_notMem (by simp [closed, hopen])]

theorem Searching.close (h : Searching w pathCondition fpp s) {nodes : AStarNodes}
    (he : Expanding w pathCondition fpp n nodes) (hkeeps : Keeps w n s.nodes nodes) :
    Searching w pathCondition fpp { s with nodes := nodes.closeNode n } where
  toTree := he.toTree.closeNode n
  ordered := by
    intro i hi j hj hclosed hopen
    simp only [AStarNodes.closeNode, Function.update_apply] at hclosed hopen
    split at hopen
    · cases hopen
    · have hn := he.le_open j hj hopen
      split at hclosed
      · next heq => exact heq ▸ hn
      · exact Int.le_trans (he.closed_le i hi hclosed) hn
  found := by
    intro m hm
    obtain ⟨hlt, hpos, hacc⟩ := h.found m hm
    exact ⟨Nat.lt_of_lt_of_le hlt hkeeps.le, (hkeeps.pos m hlt).trans hpos, hacc⟩

theorem closed_card_le (nodes : AStarNodes) : (closed nodes).card ≤ nodes.curNode :=
  (Finset.card_filter_le _ _).trans (Nat.le_of_eq (Finset.card_range _))

/-- The fuel counts the expansions, and every expansion closes a node. -/
theorem Searching.search {fuel : Nat} (h : Searching w pathCondition fpp s)
    (hfuel : MAX_NODES ≤ (closed s.nodes).card + fuel) :
    ∃ result, search w pathCondition fpp fuel s = some result ∧
      ∀ s', result = some s' → Searching w pathCondition fpp s' := by
  induction fuel generalizing s with
  | zero =>
      rw [PathSearch.search]
      cases hs : select w pathCondition fpp s with
      | ended s' =>
          refine ⟨_, rfl, ?_⟩
          rintro _ ⟨⟩
          exact h.select_ended hs
      | fail => exact ⟨none, rfl, fun s' hs' => by cases hs'⟩
      | node n s' =>
          -- There is an open node, so not all of `MAX_NODES` are closed.
          obtain ⟨_, _, hbest⟩ := h.select_node hs
          have he := h.expanding hbest
          have := closed_closeNode he.lt he.opened
          have := closed_card_le (s.nodes.closeNode n)
          have := he.le_max
          simp only [AStarNodes.closeNode] at *
          omega
  | succ fuel ih =>
      rw [PathSearch.search]
      cases hs : select w pathCondition fpp s with
      | ended s' =>
          refine ⟨_, rfl, ?_⟩
          rintro _ ⟨⟩
          exact h.select_ended hs
      | fail => exact ⟨none, rfl, fun s' hs' => by cases hs'⟩
      | node n s' =>
          obtain ⟨h', hnodes, hbest⟩ := h.select_node hs
          rw [← hnodes] at hbest
          obtain ⟨he, hkeeps⟩ := (h'.expanding hbest).expand
            (h'.neighbors (getBestNode_spec hbest).1)
          dsimp only
          split
          · exact ⟨none, rfl, fun s' hs' => by cases hs'⟩
          · refine ih (h'.close he hkeeps) ?_
            rw [closed_closeNode he.lt he.opened, hkeeps.closed, hnodes]
            omega

end Search

end Bruxo.PathSearch
