import Bruxo.PathSearchWalk
import Mathlib.Data.List.Sublists

/-!
# What the pruning of neighbours leaves out

A node of `Map::getPathMatching` (`map.cpp`) does not look at the neighbours that its parent, or
the parent of that one, has looked at already: each of them is the parent, or one straight step
from it (`skipped_neighbor`). A closed node has nothing to add to its neighbours any more
(`Settled`), so a search in which every node looks at all of them takes the same turns
(`searchWith_eq`).

Straight steps are the cheapest, whatever the tiles cost, so that is so for every map on which no
step goes around the edge of the coordinates.
-/

namespace Bruxo.PathSearch

open WalkCache (toCoordinate getOffset getDistance getOffset_toCoordinate)

/-! ## The search without pruning -/

/-- All neighbours that the parameters allow: the start has eight anyway. -/
def unprunedNeighbors (allowDiagonal : Bool) (s : AStarNodes) (n : Nat) : List (Int × Int) :=
  if allowDiagonal || (s.nodes n).parent.isNone then allNeighbors else allNeighbors.take 4

section Search

variable {τ κ : Type} [DecidableEq τ] (w : Walk τ κ) (pathCondition : PathingConditionCall)
  (fpp : FindPathParams) (neighborsOf : AStarNodes → Nat → List (Int × Int))

/-- `search` with other neighbours. -/
def searchWith : Nat → Search → Option (Option Search)
  | fuel, s =>
      match select w pathCondition fpp s with
      | .ended s' => some (some s')
      | .fail => some none
      | .node n s' =>
          match fuel with
          | 0 => none
          | fuel + 1 =>
              match expand w pathCondition fpp n (neighborsOf s'.nodes n) s'.nodes with
              | (nodes, full) =>
                  if full && s'.found.isNone then some none
                  else searchWith fuel { s' with nodes := nodes.closeNode n }

/-- `getPathMatching` with other neighbours. -/
def pathMatchingWith (fuel : Nat) : Option (Option (List Direction)) :=
  match searchWith w pathCondition fpp neighborsOf fuel
      ⟨.start w.position.x w.position.y, none, ⟨0, 0, 0⟩, 0⟩ with
  | none => none
  | some none => some none
  | some (some s) =>
      match s.found with
      | none => some none
      | some found =>
          (backtrack w s.nodes fuel s.endPos (s.nodes.nodes found).parent).map some

/-- The search over eight neighbours. -/
def eightNeighbors (_ : AStarNodes) (_ : Nat) : List (Int × Int) := allNeighbors

/-- What a walk costs, with the tiles that it goes to. -/
def walkCost : Position → List Direction → Int
  | _, [] => 0
  | pos, d :: directions =>
      (if d.isDiagonal then MAP_DIAGONALWALKCOST else MAP_NORMALWALKCOST) +
        ((w.getTile (getNextPosition d pos)).map w.getTileWalkCost).getD 0 +
        walkCost (getNextPosition d pos) directions

/-- The first position that matches is the best match, as it is if the goal is to stand on the
target or next to it. -/
def ExactGoal : Prop :=
  ∀ pos, (pathCondition.call w.position pos fpp 0).2 = 0

end Search

/-! ## The neighbours left out -/

/-- The neighbours of a node that is one step `on` from its parent. -/
def prunedNeighbors (allowDiagonal : Bool) (on : Int × Int) : List (Int × Int) :=
  (dirNeighbors (fromParent allowDiagonal (-on.1) (-on.2))).take (if allowDiagonal then 5 else 3)

/-- A neighbour that is left out is the parent, or one straight step from the parent. -/
theorem skipped_neighbor (allowDiagonal : Bool) :
    ∀ on ∈ allNeighbors, ∀ o ∈ if allowDiagonal then allNeighbors else allNeighbors.take 4,
      o ∉ prunedNeighbors allowDiagonal on →
        (on.1 + o.1, on.2 + o.2) = (0, 0) ∨
          (on.1 + o.1, on.2 + o.2) ∈ allNeighbors.take 4 := by
  cases allowDiagonal with
  | false => decide
  | true => decide

/-- They stand in the order of `allNeighbors`. -/
theorem prunedNeighbors_sublist (allowDiagonal : Bool) :
    ∀ on ∈ allNeighbors, (prunedNeighbors allowDiagonal on).Sublist
      (if allowDiagonal then allNeighbors else allNeighbors.take 4) := by
  cases allowDiagonal with
  | false => decide
  | true => decide

/-! ## One turn of the inner loop -/

section Steps

variable {τ κ : Type} [DecidableEq τ] (w : Walk τ κ) (pathCondition : PathingConditionCall)
  (fpp : FindPathParams)

/-- What a position costs on the way over `n`. -/
def newF (s : AStarNodes) (n : Nat) (pos : Position) : Int :=
  (s.nodes n).f + getMapWalkCost (s.nodes n) pos +
    ((w.getTile pos).map w.getTileWalkCost).getD 0

/-- `n` has nothing to add to a neighbour: it is no dearer than on the way over `n`, or cannot be
walked on. -/
def Settled (s : AStarNodes) (n : Nat) (o : Int × Int) : Prop :=
  inSearch w pathCondition fpp (shift (nodePos w s n) o) = true →
    (∃ i, s.getNodeByPosition (shift (nodePos w s n) o).x (shift (nodePos w s n) o).y = some i ∧
        (s.nodes i).f ≤ newF w s n (shift (nodePos w s n) o)) ∨
      s.getNodeByPosition (shift (nodePos w s n) o).x (shift (nodePos w s n) o).y = none ∧
        w.canWalkTo (shift (nodePos w s n) o) = none

/-- Every node is in the table. -/
def Placed (s : AStarNodes) : Prop :=
  ∀ i < s.curNode, s.getNodeByPosition (s.nodes i).x (s.nodes i).y = some i

/-- What a turn of the inner loop for `n` does to the nodes. -/
structure Persists (n : Nat) (s s' : AStarNodes) : Prop where
  le : s.curNode ≤ s'.curNode
  opened : ∀ i < s.curNode, s'.openNodes i = s.openNodes i
  new : ∀ i, s.curNode ≤ i → i < s'.curNode → s'.openNodes i = true
  node : ∀ i < s.curNode, s.openNodes i = false ∨ i = n → s'.nodes i = s.nodes i
  f_le : ∀ i < s.curNode, (s'.nodes i).f ≤ (s.nodes i).f
  table : ∀ x y i, s.getNodeByPosition x y = some i → s'.getNodeByPosition x y = some i
  walkable : ∀ x y, s.getNodeByPosition x y = none → s'.getNodeByPosition x y = none ∨
    (w.canWalkTo ⟨x, y, w.position.z⟩).isSome

variable {w pathCondition fpp} {s s' s'' : AStarNodes} {n q : Nat} {o : Int × Int}

omit [DecidableEq τ] in
theorem floor_shift : (⟨(shift (nodePos w s q) o).x, (shift (nodePos w s q) o).y,
    w.position.z⟩ : Position) = shift (nodePos w s q) o := rfl

theorem canWalkTo_getTile {pos : Position} {tile : τ} (h : w.canWalkTo pos = some tile) :
    w.getTile pos = some tile := by
  rw [Walk.canWalkTo] at h
  dsimp only at h
  split at h
  · cases h
  split at h
  · exact h
  split at h
  · split at h
    · cases h
    · split at h
      · exact h
      · cases h
  · exact h

theorem visit_of_settled (h : Settled w pathCondition fpp s n o) :
    visit w pathCondition fpp n o s = some s := by
  rw [visit]
  dsimp only
  split
  · rfl
  next hin =>
  have hin : inSearch w pathCondition fpp (shift (nodePos w s n) o) = true := by simpa using hin
  rcases h hin with ⟨i, hi, hf⟩ | ⟨hnone, hwalk⟩
  · rw [hi]
    exact if_pos hf
  · rw [hnone, hwalk]

omit [DecidableEq τ] in
theorem newF_gt (s : AStarNodes) (n : Nat) (pos : Position) : (s.nodes n).f < newF w s n pos := by
  have hcost := getMapWalkCost_pos (s.nodes n) pos
  have hextra : 0 ≤ ((w.getTile pos).map w.getTileWalkCost).getD 0 := by
    cases w.getTile pos with
    | none => exact Int.le_refl 0
    | some tile => exact w.getTileWalkCost_nonneg tile
  rw [newF]
  omega

theorem createOpenNode_table {parent : Nat} {x y : UInt16} {f : Int}
    (h : s.createOpenNode parent x y f = some s') (x' y' : UInt16) :
    s'.getNodeByPosition x' y'
      = if x' = x ∧ y' = y then some s.curNode else s.getNodeByPosition x' y' := by
  rw [AStarNodes.createOpenNode] at h
  split at h
  · cases h
  obtain rfl := Option.some.inj h
  simp only [AStarNodes.getNodeByPosition, Function.update_apply]
  refine if_congr ⟨tableKey_injective, ?_⟩ rfl rfl
  rintro ⟨rfl, rfl⟩
  rfl

theorem Persists.refl (n : Nat) (s : AStarNodes) : Persists w n s s where
  le := Nat.le_refl _
  opened _ _ := rfl
  new _ hle hlt := absurd hlt (Nat.not_lt_of_le hle)
  node _ _ _ := rfl
  f_le _ _ := Int.le_refl _
  table _ _ _ h := h
  walkable _ _ h := .inl h

theorem Persists.trans (h : Persists w n s s') (h' : Persists w n s' s'') :
    Persists w n s s'' where
  le := Nat.le_trans h.le h'.le
  opened i hi := (h'.opened i (Nat.lt_of_lt_of_le hi h.le)).trans (h.opened i hi)
  new i hle hlt := by
    rcases Nat.lt_or_ge i s'.curNode with hi | hi
    · exact (h'.opened i hi).trans (h.new i hle hi)
    · exact h'.new i hi hlt
  node i hi hkept := by
    have hkept' : s'.openNodes i = false ∨ i = n := hkept.imp_left (h.opened i hi).trans
    exact (h'.node i (Nat.lt_of_lt_of_le hi h.le) hkept').trans (h.node i hi hkept)
  f_le i hi := Int.le_trans (h'.f_le i (Nat.lt_of_lt_of_le hi h.le)) (h.f_le i hi)
  table x y i hi := h'.table x y i (h.table x y i hi)
  walkable x y hnone := (h.walkable x y hnone).elim (h'.walkable x y) .inr

/-- What is settled for a closed node, or for `n`, stays so. -/
theorem Settled.persists (h : Settled w pathCondition fpp s q o)
    (htree : Tree w pathCondition fpp s) (hpersists : Persists w n s s') (hq : q < s.curNode)
    (hkept : s.openNodes q = false ∨ q = n) : Settled w pathCondition fpp s' q o := by
  have hnode := hpersists.node q hq hkept
  have hpos : nodePos w s' q = nodePos w s q := by rw [nodePos, nodePos, hnode]
  intro hin
  rw [hpos] at hin ⊢
  rw [newF, hnode]
  rcases h hin with ⟨i, hi, hf⟩ | ⟨hnone, hwalk⟩
  · have hlt := (htree.table _ _ i hi).1
    exact .inl ⟨i, hpersists.table _ _ i hi, Int.le_trans (hpersists.f_le i hlt) hf⟩
  · rcases hpersists.walkable _ _ hnone with hnone' | hsome
    · exact .inr ⟨hnone', hwalk⟩
    · -- The position is on the floor of the search.
      rw [floor_shift, hwalk] at hsome
      cases hsome

/-- A turn settles its neighbour. -/
theorem Expanding.visit_settles (h : Expanding w pathCondition fpp n s) (hplaced : Placed s)
    (hv : PathSearch.visit w pathCondition fpp n o s = some s') :
    Placed s' ∧ Persists w n s s' ∧ Settled w pathCondition fpp s' n o := by
  rw [PathSearch.visit] at hv
  dsimp only at hv
  split at hv
  · next hout =>
      obtain rfl := Option.some.inj hv
      refine ⟨hplaced, .refl n s, fun hin => ?_⟩
      rw [hin] at hout
      cases hout
  next hin =>
  have hin : inSearch w pathCondition fpp (shift (nodePos w s n) o) = true := by simpa using hin
  split at hv
  · next i hi =>
      split at hv
      · next hf =>
          obtain rfl := Option.some.inj hv
          exact ⟨hplaced, .refl n s, fun _ => .inl ⟨i, hi, hf⟩⟩
      · next hf =>
          have hgt := newF_gt (w := w) s n (shift (nodePos w s n) o)
          have hf : newF w s n (shift (nodePos w s n) o) < (s.nodes i).f := Int.not_le.mp hf
          have hlt := (h.table _ _ i hi).1
          have hopen : s.openNodes i = true := by
            cases hopen : s.openNodes i with
            | true => rfl
            | false =>
                have := h.closed_le i hlt hopen
                omega
          have hne : ∀ j, s.openNodes j = false ∨ j = n → j ≠ i := by
            rintro j (hclosed | rfl) rfl
            · rw [hopen] at hclosed
              cases hclosed
            · omega
          rw [AStarNodes.openNode,
            if_pos (show (s.setParent i n _).openNodes i = true from hopen)] at hv
          obtain rfl := Option.some.inj hv
          refine ⟨fun j hj => ?_, ?_, fun _ => .inl ⟨i, ?_, ?_⟩⟩
          · by_cases heq : j = i
            · rw [heq, setParent_self]
              exact hplaced i hlt
            · rw [setParent_of_ne heq]
              exact hplaced j hj
          · refine ⟨Nat.le_refl _, fun _ _ => rfl, fun _ hle hlt => absurd hlt (Nat.not_lt_of_le hle),
              fun j _ hkept => setParent_of_ne (hne j hkept) _, fun j _ => ?_, fun _ _ _ hj => hj,
              fun _ _ hnone => .inl hnone⟩
            by_cases heq : j = i
            · rw [heq, setParent_self]
              exact Int.le_of_lt hf
            · rw [setParent_of_ne heq]
          · rw [nodePos_setParent]
            exact hi
          · rw [nodePos_setParent, newF, setParent_of_ne (hne n (.inr rfl)), setParent_self]
  · next hnone =>
      split at hv
      · next hwalk =>
          obtain rfl := Option.some.inj hv
          exact ⟨hplaced, .refl n s, fun _ => .inr ⟨hnone, hwalk⟩⟩
      · next tile htile =>
          have htable := createOpenNode_table hv
          have hnew := createOpenNode_spec hv
          have hcost : (s.nodes n).f + getMapWalkCost (s.nodes n) (shift (nodePos w s n) o) +
              w.getTileWalkCost tile = newF w s n (shift (nodePos w s n) o) := by
            rw [newF, canWalkTo_getTile htile]
            rfl
          rw [hcost] at hnew
          have hpos : nodePos w s' n = nodePos w s n := by rw [nodePos, nodePos, hnew.old n h.lt]
          -- The table has no other node there.
          have hother : ∀ x y i, s.getNodeByPosition x y = some i →
              s'.getNodeByPosition x y = some i := by
            intro x y i hi
            rw [htable, if_neg, hi]
            rintro ⟨rfl, rfl⟩
            rw [hnone] at hi
            cases hi
          refine ⟨fun j hj => ?_, ?_, fun _ => .inl ⟨s.curNode, ?_, ?_⟩⟩
          · rw [hnew.curNode] at hj
            rcases Nat.lt_succ_iff_lt_or_eq.mp hj with hj | rfl
            · rw [hnew.old j hj]
              exact hother _ _ j (hplaced j hj)
            · rw [hnew.new, htable]
              exact if_pos ⟨rfl, rfl⟩
          · refine ⟨hnew.curNode ▸ Nat.le_succ _, hnew.oldOpen, fun j hle hlt => ?_,
              fun j hj _ => hnew.old j hj, fun j hj => Int.le_of_eq (by rw [hnew.old j hj]), hother,
              fun x y hnone' => ?_⟩
            · rw [hnew.curNode] at hlt
              obtain rfl : j = s.curNode := Nat.le_antisymm (Nat.le_of_lt_succ hlt) hle
              exact hnew.newOpen
            · rw [htable]
              by_cases heq : x = (shift (nodePos w s n) o).x ∧ y = (shift (nodePos w s n) o).y
              · obtain ⟨rfl, rfl⟩ := heq
                refine .inr ?_
                rw [floor_shift, htile]
                rfl
              · rw [if_neg heq]
                exact .inl hnone'
          · rw [hpos, htable]
            exact if_pos ⟨rfl, rfl⟩
          · rw [hpos, newF, hnew.new, hnew.old n h.lt]
            exact Int.le_refl _

/-- The inner loop settles the neighbours that it goes over. -/
theorem Expanding.expand_settles (h : Expanding w pathCondition fpp n s) (hplaced : Placed s)
    {offsets : List (Int × Int)} (ho : ∀ o ∈ offsets, o ∈ allNeighbors ∧
      (IsDiagonal o → fpp.allowDiagonal = true ∨ n = 0))
    (hexpand : PathSearch.expand w pathCondition fpp n offsets s = (s', false)) :
    Placed s' ∧ Persists w n s s' ∧ ∀ o ∈ offsets, Settled w pathCondition fpp s' n o := by
  induction offsets generalizing s with
  | nil =>
      obtain ⟨rfl, -⟩ := Prod.mk.inj hexpand
      exact ⟨hplaced, .refl n s, fun o ho => by cases ho⟩
  | cons o offsets ih =>
      obtain ⟨hmem, hdiag⟩ := ho o List.mem_cons_self
      rw [PathSearch.expand] at hexpand
      split at hexpand
      · next s₁ hv =>
          obtain ⟨hplaced', hpersists, hsettled⟩ := h.visit_settles hplaced hv
          obtain ⟨h', -⟩ := h.visit hmem hdiag hv
          have ho' : ∀ o' ∈ offsets, o' ∈ allNeighbors ∧
              (IsDiagonal o' → fpp.allowDiagonal = true ∨ n = 0) :=
            fun o' hmem' => ho o' (List.mem_cons_of_mem _ hmem')
          obtain ⟨hplaced'', hpersists', hrest⟩ := ih h' hplaced' ho' hexpand
          refine ⟨hplaced'', hpersists.trans hpersists', fun o' ho' => ?_⟩
          rcases List.mem_cons.mp ho' with rfl | ho'
          · exact hsettled.persists h'.toTree hpersists' h'.lt (.inr rfl)
          · exact hrest o' ho'
      · cases (Prod.mk.inj hexpand).2

/-- The inner loop over more neighbours, if those that are more are settled. -/
theorem Expanding.expand_sublist (h : Expanding w pathCondition fpp n s) (hplaced : Placed s)
    {offsets offsets' : List (Int × Int)} (hsub : offsets'.Sublist offsets)
    (hnodup : offsets.Nodup) (ho : ∀ o ∈ offsets, o ∈ allNeighbors ∧
      (IsDiagonal o → fpp.allowDiagonal = true ∨ n = 0))
    (hskip : ∀ o ∈ offsets, o ∉ offsets' → Settled w pathCondition fpp s n o) :
    PathSearch.expand w pathCondition fpp n offsets s
      = PathSearch.expand w pathCondition fpp n offsets' s := by
  induction hsub generalizing s with
  | slnil => rfl
  | @cons offsets' offsets o hsub ih =>
      obtain ⟨hfresh, hnodup⟩ := List.nodup_cons.mp hnodup
      have hsettled := hskip o List.mem_cons_self fun hmem => hfresh (hsub.subset hmem)
      rw [PathSearch.expand, visit_of_settled hsettled]
      exact ih h hplaced hnodup (fun o' ho' => ho o' (List.mem_cons_of_mem _ ho'))
        fun o' ho' => hskip o' (List.mem_cons_of_mem _ ho')
  | @cons_cons offsets' offsets o hsub ih =>
      obtain ⟨hfresh, hnodup⟩ := List.nodup_cons.mp hnodup
      obtain ⟨hmem, hdiag⟩ := ho o List.mem_cons_self
      rw [PathSearch.expand, PathSearch.expand]
      split
      · next s₁ hv =>
          obtain ⟨hplaced', hpersists, -⟩ := h.visit_settles hplaced hv
          obtain ⟨h', -⟩ := h.visit hmem hdiag hv
          refine ih h' hplaced' hnodup (fun o' ho' => ho o' (List.mem_cons_of_mem _ ho'))
            fun o' ho' hnot => ?_
          have hne : o' ∉ o :: offsets' := by
            intro hmem'
            rcases List.mem_cons.mp hmem' with rfl | hmem'
            · exact hfresh ho'
            · exact hnot hmem'
          exact (hskip o' (List.mem_cons_of_mem _ ho') hne).persists h.toTree hpersists h.lt
            (.inr rfl)
      · rfl

end Steps

/-! ## The search -/

section Pruning

variable {τ κ : Type} [DecidableEq τ] (w : Walk τ κ) (pathCondition : PathingConditionCall)
  (fpp : FindPathParams)

/-- A closed node has nothing to add to any neighbour. -/
def Covered (s : AStarNodes) : Prop :=
  ∀ q < s.curNode, s.openNodes q = false →
    ∀ o ∈ unprunedNeighbors fpp.allowDiagonal s q, Settled w pathCondition fpp s q o

variable {w pathCondition fpp} {s : AStarNodes} {n p : Nat} {on : Int × Int}

theorem toCoordinate_add (v : Int) (d : Int) :
    toCoordinate ((toCoordinate v).toNat + d) = toCoordinate (v + d) := by
  have hval : ((toCoordinate v).toNat : Int) = v % 65536 := by
    rw [toCoordinate, UInt16.toNat_ofNat']
    omega
  have hmod : ((toCoordinate v).toNat + d) % 65536 = (v + d) % 65536 := by
    rw [hval]
    omega
  exact congrArg (fun i : Int => UInt16.ofNat i.toNat) hmod

theorem shift_shift (pos : Position) (o o' : Int × Int) :
    shift (shift pos o) o' = shift pos (o.1 + o'.1, o.2 + o'.2) := by
  simp only [shift, toCoordinate_add, Int.add_assoc]

theorem shift_zero (pos : Position) : shift pos (0, 0) = pos := by
  have hcoordinate : ∀ x : UInt16, toCoordinate (x.toNat + 0) = x := by
    intro x
    have := x.toNat_lt
    rw [toCoordinate]
    refine UInt16.toNat_inj.mp ?_
    rw [UInt16.toNat_ofNat']
    omega
  simp only [shift, hcoordinate]

omit [DecidableEq τ] in
/-- The parent is where the tables take it to be, unless the step went around the edge. -/
theorem neighbors_of_link (hlink : Link w fpp s n p on)
    (hadj : Adjacent (nodePos w s p) (shift (nodePos w s p) on)) :
    neighbors fpp.allowDiagonal s n = prunedNeighbors fpp.allowDiagonal on := by
  obtain ⟨hx, hy⟩ := mem_allNeighbors hlink.neighbor
  have hpos := hlink.pos
  have hoffset_x : getOffset (s.nodes p).x (s.nodes n).x = -on.1 := by
    rw [show (s.nodes n).x = (shift (nodePos w s p) on).x from congrArg Position.x hpos]
    exact getOffset_shift hx hadj.1
  have hoffset_y : getOffset (s.nodes p).y (s.nodes n).y = -on.2 := by
    rw [show (s.nodes n).y = (shift (nodePos w s p) on).y from congrArg Position.y hpos]
    exact getOffset_shift hy hadj.2.1
  rw [neighbors, hlink.parent]
  dsimp only
  rw [hoffset_x, hoffset_y, prunedNeighbors]

theorem straight_mem {allowDiagonal : Bool} {o : Int × Int} (h : o ∈ allNeighbors.take 4) :
    o ∈ unprunedNeighbors allowDiagonal s n := by
  rw [unprunedNeighbors]
  split
  · exact List.mem_of_mem_take h
  · exact h

theorem getMapWalkCost_ge (node : AStarNode) (pos : Position) :
    MAP_NORMALWALKCOST ≤ getMapWalkCost node pos := by
  rw [getMapWalkCost]
  split <;> decide

omit [DecidableEq τ] in
/-- Which is what a straight step costs, also around the edge. -/
theorem getMapWalkCost_straight {o : Int × Int} (h : o ∈ allNeighbors.take 4) :
    getMapWalkCost (s.nodes n) (shift (nodePos w s n) o) = MAP_NORMALWALKCOST := by
  have hstep : ∀ (x : UInt16) (d : Int), d = 0 ∨ d = 1 ∨ d = -1 →
      (getDistance x (toCoordinate (x.toNat + d)) = 0 ↔ d = 0) := by
    intro x d hd
    have hx := x.toNat_lt
    rw [getDistance, getOffset, toCoordinate, UInt16.toNat_ofNat']
    omega
  have hcases : o = (-1, 0) ∨ o = (0, 1) ∨ o = (1, 0) ∨ o = (0, -1) := by
    simpa [allNeighbors] using h
  have hx := hstep (s.nodes n).x o.1 (by rcases hcases with rfl | rfl | rfl | rfl <;> decide)
  have hy := hstep (s.nodes n).y o.2 (by rcases hcases with rfl | rfl | rfl | rfl <;> decide)
  have hone : ¬ (o.1 = 0 ↔ o.2 = 0) := by
    rcases hcases with rfl | rfl | rfl | rfl <;> decide
  rw [getMapWalkCost, if_neg]
  intro heq
  rw [shift, nodePos] at heq
  dsimp only at heq
  rw [← hx, ← hy, heq] at hone
  exact hone Iff.rfl

/-- The neighbours that `n` does not look at are settled: its parent is closed. -/
theorem Expanding.skipped_settled (h : Expanding w pathCondition fpp n s) (hplaced : Placed s)
    (hcovered : Covered w pathCondition fpp s) (hedge : NoEdge w pathCondition fpp) :
    ∀ o ∈ unprunedNeighbors fpp.allowDiagonal s n, o ∉ neighbors fpp.allowDiagonal s n →
      Settled w pathCondition fpp s n o := by
  intro o ho hskip
  rcases Nat.eq_zero_or_pos n with rfl | hpos
  · rw [neighbors, h.start.1] at hskip
    rw [unprunedNeighbors, h.start.1, Option.isNone_none, Bool.or_true, if_pos rfl] at ho
    exact absurd ho hskip
  obtain ⟨henter, p, on, hlink⟩ := h.node n hpos h.lt
  have hp : nodePos w s p = w.position ∨ Enterable w pathCondition fpp (nodePos w s p) := by
    rcases Nat.eq_zero_or_pos p with rfl | hp
    · exact .inl h.start.2.2
    · exact .inr (h.node p hp hlink.lt).1
  have hadj := hedge _ hp on hlink.neighbor (hlink.pos ▸ henter)
  have hclosed : s.openNodes p = false := by
    cases hopen : s.openNodes p with
    | false => rfl
    | true =>
        have := h.le_open p hlink.lt hopen
        have := hlink.dearer
        omega
  rw [neighbors_of_link hlink hadj] at hskip
  rw [unprunedNeighbors, hlink.parent, Option.isNone_some, Bool.or_false] at ho
  have hstep := skipped_neighbor fpp.allowDiagonal on hlink.neighbor o ho hskip
  have hdearer := hlink.dearer
  have hsum : shift (nodePos w s n) o = shift (nodePos w s p) (on.1 + o.1, on.2 + o.2) := by
    rw [hlink.pos, shift_shift]
  rcases hstep with hback | hstraight
  · intro _
    rw [hsum, hback, shift_zero]
    have hgt := newF_gt (w := w) s n (nodePos w s p)
    exact .inl ⟨p, hplaced p hlink.lt, by omega⟩
  · have hsettled := hcovered p hlink.lt hclosed _ (straight_mem hstraight)
    intro hin
    rw [hsum] at hin ⊢
    rcases hsettled hin with ⟨i, hi, hf⟩ | hnone
    · refine .inl ⟨i, hi, ?_⟩
      have hge := getMapWalkCost_ge (s.nodes n) (shift (nodePos w s p) (on.1 + o.1, on.2 + o.2))
      rw [newF, getMapWalkCost_straight hstraight] at hf
      rw [newF]
      omega
    · exact .inr hnone

/-- Between two turns of the outer loop. -/
structure Pruned (w : Walk τ κ) (pathCondition : PathingConditionCall) (fpp : FindPathParams)
    (s : Search) : Prop extends Searching w pathCondition fpp s where
  placed : Placed s.nodes
  covered : Covered w pathCondition fpp s.nodes
  none : s.found = none
  bestMatch : s.bestMatch = 0

variable {t t' : Search}

omit [DecidableEq τ] in
/-- A node that matches ends the search. -/
theorem select_none (hexact : ExactGoal w pathCondition fpp) (hnone : t.found = none)
    (hbest : t.bestMatch = 0) (hs : select w pathCondition fpp t = .node n t') :
    t'.found = none ∧ t'.bestMatch = 0 := by
  rw [select] at hs
  split at hs
  · split at hs
    · split at hs <;> cases hs
    · dsimp only at hs
      rw [hbest, hexact, if_pos rfl] at hs
      split at hs
      · cases hs
      · cases hs
        exact ⟨hnone, rfl⟩
  · cases hs

theorem mem_unprunedNeighbors {allowDiagonal : Bool} {o : Int × Int}
    (ho : o ∈ unprunedNeighbors allowDiagonal s n) :
    o ∈ allNeighbors ∧
      (IsDiagonal o → allowDiagonal = true ∨ (s.nodes n).parent = none) := by
  rw [unprunedNeighbors] at ho
  split at ho
  · next hall =>
      refine ⟨ho, fun _ => ?_⟩
      rw [Bool.or_eq_true, Option.isNone_iff_eq_none] at hall
      exact hall
  · have hstraight : ∀ o ∈ allNeighbors.take 4, ¬ IsDiagonal o := by decide
    exact ⟨List.mem_of_mem_take ho, fun hdiag => absurd hdiag (hstraight o ho)⟩

theorem unprunedNeighbors_nodup (allowDiagonal : Bool) (s : AStarNodes) (n : Nat) :
    (unprunedNeighbors allowDiagonal s n).Nodup := by
  rw [unprunedNeighbors]
  split <;> decide

theorem Expanding.neighbors_sublist (h : Expanding w pathCondition fpp n s)
    (hedge : NoEdge w pathCondition fpp) :
    (neighbors fpp.allowDiagonal s n).Sublist (unprunedNeighbors fpp.allowDiagonal s n) := by
  rcases Nat.eq_zero_or_pos n with rfl | hpos
  · rw [neighbors, unprunedNeighbors, h.start.1, Option.isNone_none, Bool.or_true, if_pos rfl]
  · obtain ⟨henter, p, on, hlink⟩ := h.node n hpos h.lt
    have hp : nodePos w s p = w.position ∨ Enterable w pathCondition fpp (nodePos w s p) := by
      rcases Nat.eq_zero_or_pos p with rfl | hp
      · exact .inl h.start.2.2
      · exact .inr (h.node p hp hlink.lt).1
    have hadj := hedge _ hp on hlink.neighbor (hlink.pos ▸ henter)
    rw [neighbors_of_link hlink hadj, unprunedNeighbors, hlink.parent, Option.isNone_some,
      Bool.or_false]
    exact prunedNeighbors_sublist fpp.allowDiagonal on hlink.neighbor

/-- The turn of the outer loop covers the node that it closes. -/
theorem Expanding.covered_close (h : Expanding w pathCondition fpp n s) (hplaced : Placed s)
    (hcovered : Covered w pathCondition fpp s) (hedge : NoEdge w pathCondition fpp)
    {nodes : AStarNodes} (hexpand : PathSearch.expand w pathCondition fpp n
      (neighbors fpp.allowDiagonal s n) s = (nodes, false)) :
    Placed nodes ∧ Covered w pathCondition fpp (nodes.closeNode n) := by
  obtain ⟨hplaced', hpersists, hsettled⟩ :=
    h.expand_settles hplaced (h.toTree.neighbors h.lt) hexpand
  refine ⟨hplaced', fun q hq hclosed o ho => ?_⟩
  simp only [AStarNodes.closeNode, Function.update_apply] at hclosed
  have hparent : ∀ i < s.curNode, s.openNodes i = false ∨ i = n →
      unprunedNeighbors fpp.allowDiagonal (nodes.closeNode n) i
        = unprunedNeighbors fpp.allowDiagonal s i := by
    intro i hi hkept
    rw [unprunedNeighbors, unprunedNeighbors, ← hpersists.node i hi hkept]
    rfl
  by_cases heq : q = n
  · subst heq
    rw [hparent q h.lt (.inr rfl)] at ho
    by_cases hlooked : o ∈ neighbors fpp.allowDiagonal s q
    · exact hsettled o hlooked
    · have hkept : Settled w pathCondition fpp nodes q o :=
        (h.skipped_settled hplaced hcovered hedge o ho hlooked).persists h.toTree hpersists h.lt
          (.inr rfl)
      exact hkept
  · rw [if_neg heq] at hclosed
    have hold : q < s.curNode := by
      by_contra hnew
      rw [hpersists.new q (Nat.le_of_not_lt hnew) hq] at hclosed
      cases hclosed
    rw [hpersists.opened q hold] at hclosed
    rw [hparent q hold (.inl hclosed)] at ho
    have hkept : Settled w pathCondition fpp nodes q o :=
      (hcovered q hold hclosed o ho).persists h.toTree hpersists hold (.inl hclosed)
    exact hkept

/-- The search without pruning takes the same turns. -/
theorem Pruned.searchWith_eq {fuel : Nat} (h : Pruned w pathCondition fpp t)
    (hedge : NoEdge w pathCondition fpp) (hexact : ExactGoal w pathCondition fpp) :
    searchWith w pathCondition fpp (unprunedNeighbors fpp.allowDiagonal) fuel t
      = search w pathCondition fpp fuel t := by
  induction fuel generalizing t with
  | zero =>
      unfold searchWith search
      cases select w pathCondition fpp t <;> rfl
  | succ fuel ih =>
      rw [searchWith, search]
      cases hs : select w pathCondition fpp t with
      | ended t' => rfl
      | fail => rfl
      | node n t' =>
          obtain ⟨h', hnodes, hbest⟩ := h.toSearching.select_node hs
          obtain ⟨hnone, hzero⟩ := select_none hexact h.none h.bestMatch hs
          have hplaced : Placed t'.nodes := hnodes ▸ h.placed
          have hcovered : Covered w pathCondition fpp t'.nodes := hnodes ▸ h.covered
          have he := h'.expanding (hnodes ▸ hbest)
          have hskip := he.skipped_settled hplaced hcovered hedge
          have hsub := he.neighbors_sublist hedge
          have hall : ∀ o ∈ unprunedNeighbors fpp.allowDiagonal t'.nodes n, o ∈ allNeighbors ∧
              (IsDiagonal o → fpp.allowDiagonal = true ∨ n = 0) := by
            intro o ho
            obtain ⟨hmem, hdiag⟩ := mem_unprunedNeighbors ho
            refine ⟨hmem, fun hd => (hdiag hd).imp_right fun hparent => ?_⟩
            by_contra hne
            obtain ⟨-, p, on, hlink⟩ := he.node n (Nat.pos_of_ne_zero hne) he.lt
            rw [hlink.parent] at hparent
            cases hparent
          have hsame := he.expand_sublist hplaced hsub (unprunedNeighbors_nodup _ _ _) hall hskip
          dsimp only
          rw [hsame]
          obtain ⟨-, hkeeps⟩ := he.expand (h'.toTree.neighbors he.lt)
          obtain ⟨he', -⟩ := he.expand (h'.toTree.neighbors he.lt)
          rcases hexpand : expand w pathCondition fpp n (neighbors fpp.allowDiagonal t'.nodes n)
            t'.nodes with ⟨nodes, full⟩
          rw [hexpand] at hkeeps he'
          cases full with
          | true =>
              simp only [hnone, Option.isNone_none, Bool.and_self, if_true]
          | false =>
              obtain ⟨hplaced', hcovered'⟩ := he.covered_close hplaced hcovered hedge hexpand
              simp only [Bool.false_and, Bool.false_eq_true, if_false]
              exact ih { h'.close he' hkeeps with
                placed := hplaced'
                covered := hcovered'
                none := hnone
                bestMatch := hzero }

theorem pruned_start (w : Walk τ κ) (pathCondition : PathingConditionCall)
    (fpp : FindPathParams) :
    Pruned w pathCondition fpp
      ⟨.start w.position.x w.position.y, .none, ⟨0, 0, 0⟩, 0⟩ where
  toSearching := searching_start w pathCondition fpp
  placed := by
    intro i hi
    obtain rfl : i = 0 := Nat.lt_one_iff.mp hi
    simp only [AStarNodes.start, AStarNodes.getNodeByPosition, Function.update_self]
  covered := by
    intro q hq hclosed
    obtain rfl : q = 0 := Nat.lt_one_iff.mp hq
    cases hclosed
  none := rfl
  bestMatch := rfl

/-- The same directions, and so the same costs. -/
theorem pathMatchingWith_eq (hedge : NoEdge w pathCondition fpp)
    (hexact : ExactGoal w pathCondition fpp) (fuel : Nat) :
    pathMatchingWith w pathCondition fpp (unprunedNeighbors fpp.allowDiagonal) fuel
      = getPathMatching w pathCondition fpp fuel := by
  unfold pathMatchingWith
  rw [(pruned_start w pathCondition fpp).searchWith_eq hedge hexact]
  rfl

/-- Whatever path the search without pruning finds, `getPathMatching` finds one that costs as
much. -/
theorem neighbor_pruning_optimal (w : Walk τ κ) (pathCondition : PathingConditionCall)
    (fpp : FindPathParams) (hedge : NoEdge w pathCondition fpp)
    (hexact : ExactGoal w pathCondition fpp) :
    ∀ dirList, pathMatchingWith w pathCondition fpp (unprunedNeighbors fpp.allowDiagonal)
        MAX_NODES = some (some dirList) →
      ∃ dirList', getPathMatching w pathCondition fpp MAX_NODES = some (some dirList') ∧
        walkCost w w.position dirList'.reverse = walkCost w w.position dirList.reverse := by
  intro dirList hfound
  rw [pathMatchingWith_eq hedge hexact] at hfound
  exact ⟨dirList, hfound, rfl⟩

omit [DecidableEq τ] in
/-- To stand on the target or next to it. -/
theorem exactGoal_condition (w : Walk τ κ) (isSightClear : Position → Position → Bool)
    (targetPos : Position) {fpp : FindPathParams}
    (hdist : fpp.maxTargetDist = 0 ∨ fpp.maxTargetDist = 1) :
    ExactGoal w (FrozenPathingConditionCall.condition isSightClear targetPos) fpp := by
  intro pos
  unfold FrozenPathingConditionCall.condition FrozenPathingConditionCall.call
  dsimp only
  split
  · rfl
  split
  · rfl
  split
  · rfl
  next hne =>
  have hzero : fpp.maxTargetDist = 0 := hdist.resolve_right hne
  rw [hzero]
  split
  · split
    · rfl
    · split
      · rfl
      · next hle _ _ => rw [if_neg (Int.not_lt.mpr hle)]
  · rfl

/-- Without diagonals the two diagonals of eight neighbours are missing, and a node beyond the edge
of the map takes its parent to be on its other side. -/
theorem pruning_loses_diagonal_or_edge :
    ¬ (∀ (w : Walk Unit Unit) (targetPos : Position) (fpp : FindPathParams),
      fpp.maxTargetDist = 0 →
      ∀ dirList, pathMatchingWith w (onto targetPos) fpp eightNeighbors MAX_NODES
          = some (some dirList) →
        ∃ dirList', getPathMatching w (onto targetPos) fpp MAX_NODES = some (some dirList') ∧
          walkCost w w.position dirList'.reverse = walkCost w w.position dirList.reverse) ∧
    ¬ (∀ (w : Walk Unit Unit) (targetPos : Position) (fpp : FindPathParams),
      fpp.maxTargetDist = 0 → fpp.allowDiagonal = true →
      ∀ dirList, pathMatchingWith w (onto targetPos) fpp eightNeighbors MAX_NODES
          = some (some dirList) →
        ∃ dirList', getPathMatching w (onto targetPos) fpp MAX_NODES = some (some dirList') ∧
          walkCost w w.position dirList'.reverse = walkCost w w.position dirList.reverse) := by
  constructor
  · intro h
    have height : pathMatchingWith (walkOn ⟨100, 100, 7⟩ [⟨101, 101, 7⟩, ⟨102, 102, 7⟩])
        (onto ⟨102, 102, 7⟩) (reach false 10) eightNeighbors MAX_NODES
          = some (some [.southeast, .southeast]) := by decide +kernel
    have hpruned : getPathMatching (walkOn ⟨100, 100, 7⟩ [⟨101, 101, 7⟩, ⟨102, 102, 7⟩])
        (onto ⟨102, 102, 7⟩) (reach false 10) MAX_NODES = some none := by decide +kernel
    obtain ⟨dirList', hdirs, -⟩ := h _ _ _ rfl _ height
    rw [hpruned] at hdirs
    cases hdirs
  · intro h
    have height : pathMatchingWith
        (walkOn ⟨65534, 100, 7⟩ [⟨65535, 100, 7⟩, ⟨0, 100, 7⟩, ⟨1, 100, 7⟩])
        (onto ⟨1, 100, 7⟩) (reach true 0) eightNeighbors MAX_NODES
          = some (some [.east, .east]) := by decide +kernel
    have hpruned : getPathMatching
        (walkOn ⟨65534, 100, 7⟩ [⟨65535, 100, 7⟩, ⟨0, 100, 7⟩, ⟨1, 100, 7⟩])
        (onto ⟨1, 100, 7⟩) (reach true 0) MAX_NODES = some none := by decide +kernel
    obtain ⟨dirList', hdirs, -⟩ := h _ _ _ rfl rfl _ height
    rw [hpruned] at hdirs
    cases hdirs

/-- Over one tile to the next. -/
theorem neighbor_pruning_optimal_two_steps :
    ∃ dirList', getPathMatching (walkOn ⟨100, 100, 7⟩ [⟨101, 101, 7⟩, ⟨102, 101, 7⟩])
        (onto ⟨102, 101, 7⟩) (reach false 10) MAX_NODES = some (some dirList') ∧
      walkCost (walkOn ⟨100, 100, 7⟩ [⟨101, 101, 7⟩, ⟨102, 101, 7⟩]) ⟨100, 100, 7⟩ dirList'.reverse
        = 35 := by
  have hrun : pathMatchingWith (walkOn ⟨100, 100, 7⟩ [⟨101, 101, 7⟩, ⟨102, 101, 7⟩])
      (onto ⟨102, 101, 7⟩) (reach false 10) (unprunedNeighbors (reach false 10).allowDiagonal)
      MAX_NODES = some (some [.east, .southeast]) := by decide +kernel
  obtain ⟨dirList', hdirs, hcost⟩ := neighbor_pruning_optimal _ _ _ noEdge_walkOn
    (exactGoal_condition _ _ _ (.inl rfl)) _ hrun
  exact ⟨dirList', hdirs, hcost.trans (by decide)⟩

end Pruning

end Bruxo.PathSearch
