import Bruxo.PathSearchSound

/-!
# The walk along the found path

The loop back over the parents ends: each parent is cheaper, so there are fewer nodes below it
(`backtrack_walks`). The walker takes the directions from the back of the list, and so goes from the
start to the matched position (`getPathMatching_sound`).

A link that leads around the edge of the 16-bit coordinates gets no direction or a wrong one.
-/

namespace Bruxo.PathSearch

open WalkCache (toCoordinate getOffset getDistance getOffset_toCoordinate)

variable {τ κ : Type} [DecidableEq τ] (w : Walk τ κ) (pathCondition : PathingConditionCall)
  (fpp : FindPathParams)

/-! ## Walks -/

def Adjacent (pos pos' : Position) : Prop :=
  getDistance pos'.x pos.x ≤ 1 ∧ getDistance pos'.y pos.y ≤ 1 ∧ pos'.z = pos.z

/-- The walk goes to adjacent tiles that the creature can walk to. -/
def Walks : Position → List Direction → Position → Prop
  | pos, [], endPos => pos = endPos
  | pos, d :: directions, endPos =>
      Adjacent pos (getNextPosition d pos) ∧ (w.canWalkTo (getNextPosition d pos)).isSome ∧
        Walks (getNextPosition d pos) directions endPos

/-- No step of the search goes around the edge of the map. -/
def NoEdge : Prop :=
  ∀ pos, pos = w.position ∨ Enterable w pathCondition fpp pos → ∀ o ∈ allNeighbors,
    Enterable w pathCondition fpp (shift pos o) → Adjacent pos (shift pos o)

/-- The search ends after `MAX_NODES` expansions at most, and what it returns leads over tiles
that can be walked on to a position that matches, with diagonals only where they are allowed. -/
def Sound : Prop :=
  ∃ result, getPathMatching w pathCondition fpp MAX_NODES = some result ∧
    ∀ dirList, result = some dirList →
      ∃ endPos, Walks w w.position dirList.reverse endPos ∧
        (∃ bestMatch, (pathCondition.call w.position endPos fpp bestMatch).1 = true) ∧
        ∀ d ∈ dirList, d.isDiagonal = true → fpp.allowDiagonal = true

variable {w pathCondition fpp}

theorem Walks.snoc {pos endPos : Position} {directions : List Direction} {d : Direction}
    (h : Walks w pos directions endPos) (hadj : Adjacent endPos (getNextPosition d endPos))
    (hwalk : (w.canWalkTo (getNextPosition d endPos)).isSome) :
    Walks w pos (directions ++ [d]) (getNextPosition d endPos) := by
  induction directions generalizing pos with
  | nil =>
      obtain rfl : pos = endPos := h
      exact ⟨hadj, hwalk, rfl⟩
  | cons d' directions ih =>
      obtain ⟨hadj', hwalk', hrest⟩ := h
      exact ⟨hadj', hwalk', ih hrest⟩

theorem getOffset_shift {a : UInt16} {d : Int} (hd : -1 ≤ d ∧ d ≤ 1)
    (h : getDistance (toCoordinate (a.toNat + d)) a ≤ 1) :
    getOffset a (toCoordinate (a.toNat + d)) = -d := by
  rw [getDistance] at h
  have : getOffset a (toCoordinate (a.toNat + d)) = -getOffset (toCoordinate (a.toNat + d)) a := by
    rw [getOffset, getOffset]
    omega
  rcases getOffset_toCoordinate a d (by omega) with ⟨_, _, heq⟩ | ⟨_, hfar⟩ <;> omega

theorem mem_allNeighbors {o : Int × Int} (h : o ∈ allNeighbors) :
    (-1 ≤ o.1 ∧ o.1 ≤ 1) ∧ -1 ≤ o.2 ∧ o.2 ≤ 1 := by
  simp only [allNeighbors, List.mem_cons, List.not_mem_nil, or_false] at h
  rcases h with rfl | rfl | rfl | rfl | rfl | rfl | rfl | rfl
  all_goals decide

/-- What is pushed for a link is its direction. -/
theorem directionOf_link {pos : Position} {o : Int × Int} (ho : o ∈ allNeighbors)
    (hadj : Adjacent pos (shift pos o)) :
    ∃ d : Direction,
      directionOf (getOffset pos.x (shift pos o).x) (getOffset pos.y (shift pos o).y) = [d] ∧
      getNextPosition d pos = shift pos o ∧ (d.isDiagonal = true → IsDiagonal o) := by
  obtain ⟨hx, hy⟩ := mem_allNeighbors ho
  obtain ⟨d, hd, hoffset, hdiag⟩ := directionOf_neighbor ho
  refine ⟨d, ?_, by rw [getNextPosition, hoffset], hdiag⟩
  rw [← hd]
  exact congrArg₂ directionOf (getOffset_shift hx hadj.1) (getOffset_shift hy hadj.2.1)

/-! ## The way back -/

def cheaper (s : AStarNodes) (i : Nat) : Finset Nat :=
  (Finset.range s.curNode).filter fun j => (s.nodes j).f < (s.nodes i).f

theorem cheaper_card_lt {s : AStarNodes} {i p : Nat} (hp : p < s.curNode)
    (hf : (s.nodes p).f < (s.nodes i).f) : (cheaper s p).card < (cheaper s i).card := by
  refine Finset.card_lt_card ⟨fun j hj => ?_, fun hsub => ?_⟩
  · obtain ⟨hj, hlt⟩ := Finset.mem_filter.mp hj
    exact Finset.mem_filter.mpr ⟨hj, Int.lt_trans hlt hf⟩
  · have := hsub (Finset.mem_filter.mpr ⟨Finset.mem_range.mpr hp, hf⟩)
    exact absurd (Finset.mem_filter.mp this).2 (Int.lt_irrefl _)

theorem cheaper_card_le (s : AStarNodes) (i : Nat) : (cheaper s i).card ≤ s.curNode :=
  (Finset.card_filter_le _ _).trans (Nat.le_of_eq (Finset.card_range _))

theorem backtrack_ends {s : AStarNodes} (h : Tree w pathCondition fpp s) {fuel i : Nat}
    (hi : i < s.curNode) (hfuel : (cheaper s i).card ≤ fuel) (pos : Position) :
    ∃ dirList, backtrack w s fuel pos (s.nodes i).parent = some dirList := by
  induction fuel generalizing i pos with
  | zero =>
      rcases Nat.eq_zero_or_pos i with rfl | hpos
      · rw [h.start.1]
        exact ⟨[], rfl⟩
      · obtain ⟨_, p, o, hlink⟩ := h.node i hpos hi
        have := cheaper_card_lt hlink.lt hlink.dearer
        omega
  | succ fuel ih =>
      rcases Nat.eq_zero_or_pos i with rfl | hpos
      · rw [h.start.1]
        exact ⟨[], rfl⟩
      · obtain ⟨_, p, o, hlink⟩ := h.node i hpos hi
        have := cheaper_card_lt hlink.lt hlink.dearer
        obtain ⟨dirList, hdirs⟩ := ih hlink.lt (by omega) (nodePos w s p)
        rw [hlink.parent, backtrack, hdirs]
        exact ⟨_, rfl⟩

theorem backtrack_walks {s : AStarNodes} (h : Tree w pathCondition fpp s)
    (hedge : NoEdge w pathCondition fpp) {fuel i : Nat} (hi : i < s.curNode)
    {dirList : List Direction}
    (hdirs : backtrack w s fuel (nodePos w s i) (s.nodes i).parent = some dirList) :
    Walks w w.position dirList.reverse (nodePos w s i) ∧ (i = 0 → dirList = []) ∧
      ∀ d ∈ dirList.dropLast, d.isDiagonal = true → fpp.allowDiagonal = true := by
  induction fuel generalizing i dirList with
  | zero =>
      rcases Nat.eq_zero_or_pos i with rfl | hpos
      · rw [h.start.1] at hdirs
        cases hdirs
        exact ⟨h.start.2.2.symm, fun _ => rfl, fun d hd => absurd hd List.not_mem_nil⟩
      · obtain ⟨_, p, o, hlink⟩ := h.node i hpos hi
        rw [hlink.parent] at hdirs
        cases hdirs
  | succ fuel ih =>
      rcases Nat.eq_zero_or_pos i with rfl | hpos
      · rw [h.start.1] at hdirs
        cases hdirs
        exact ⟨h.start.2.2.symm, fun _ => rfl, fun d hd => absurd hd List.not_mem_nil⟩
      · obtain ⟨henter, p, o, hlink⟩ := h.node i hpos hi
        rw [hlink.parent, backtrack] at hdirs
        obtain ⟨rest, hrest, rfl⟩ := Option.map_eq_some_iff.mp hdirs
        obtain ⟨hwalk, hstart, hdiag⟩ := ih hlink.lt hrest
        have hp : nodePos w s p = w.position ∨ Enterable w pathCondition fpp (nodePos w s p) := by
          rcases Nat.eq_zero_or_pos p with rfl | hp
          · exact .inl h.start.2.2
          · exact .inr (h.node p hp hlink.lt).1
        rw [hlink.pos] at henter ⊢
        have hadj := hedge _ hp o hlink.neighbor henter
        obtain ⟨d, hd, hnext, hd'⟩ := directionOf_link hlink.neighbor hadj
        rw [hd, List.singleton_append]
        refine ⟨?_, fun hzero => absurd hzero (Nat.ne_of_gt hpos), fun d' hmem hdiag' => ?_⟩
        · rw [List.reverse_cons, ← hnext]
          rw [← hnext] at hadj henter
          exact hwalk.snoc hadj henter.2
        · cases rest with
          | nil => cases hmem
          | cons d'' rest =>
              rcases List.mem_cons.mp hmem with rfl | hmem
              · -- A diagonal link that is not allowed leads to the start, and was the first.
                rcases hlink.diagonal (hd' hdiag') with hallow | rfl
                · exact hallow
                · cases hstart rfl
              · exact hdiag d' hmem hdiag'

/-! ## The path -/

theorem searching_start (w : Walk τ κ) (pathCondition : PathingConditionCall)
    (fpp : FindPathParams) :
    Searching w pathCondition fpp
      ⟨.start w.position.x w.position.y, none, ⟨0, 0, 0⟩, 0⟩ where
  pos := Nat.zero_lt_one
  le_max := (by decide : 1 ≤ MAX_NODES)
  table := by
    intro x y i hi
    simp only [AStarNodes.start, AStarNodes.getNodeByPosition, Function.update_apply] at hi
    split at hi
    · next hkey =>
        obtain ⟨rfl, rfl⟩ := tableKey_injective hkey
        cases hi
        exact ⟨Nat.zero_lt_one, rfl, rfl⟩
    · cases hi
  start := ⟨rfl, rfl, rfl⟩
  nonneg := fun _ _ => Int.le_refl 0
  node := fun i hi hi' => absurd hi (Nat.not_lt.mpr (Nat.lt_one_iff.mp hi' ▸ Nat.le_refl 0))
  ordered := fun _ _ _ _ _ _ => Int.le_refl 0
  found := fun _ h => by cases h

theorem getPathMatching_sound (w : Walk τ κ) (pathCondition : PathingConditionCall)
    (fpp : FindPathParams) :
    ∃ result, getPathMatching w pathCondition fpp MAX_NODES = some result ∧
      (NoEdge w pathCondition fpp → ∀ dirList, result = some dirList →
        ∃ endPos, Walks w w.position dirList.reverse endPos ∧
          (∃ bestMatch, (pathCondition.call w.position endPos fpp bestMatch).1 = true) ∧
          ∀ d ∈ dirList.reverse.tail, d.isDiagonal = true → fpp.allowDiagonal = true) := by
  obtain ⟨result, hsearch, hresult⟩ :=
    (searching_start w pathCondition fpp).search (Nat.le_add_left MAX_NODES _)
  rw [getPathMatching, hsearch]
  cases result with
  | none => exact ⟨none, rfl, fun _ _ h => by cases h⟩
  | some s =>
      have h := hresult s rfl
      dsimp only
      cases hfound : s.found with
      | none => exact ⟨none, rfl, fun _ _ h => by cases h⟩
      | some n =>
          obtain ⟨hn, hpos, hacc⟩ := h.found n hfound
          have hfuel : (cheaper s.nodes n).card ≤ MAX_NODES :=
            (cheaper_card_le s.nodes n).trans h.le_max
          obtain ⟨dirList, hdirs⟩ := backtrack_ends h.toTree hn hfuel s.endPos
          refine ⟨some dirList, congrArg (Option.map some) hdirs, ?_⟩
          rintro hedge _ ⟨⟩
          rw [← hpos] at hdirs hacc
          obtain ⟨hwalk, _, hdiag⟩ := backtrack_walks h.toTree hedge hn hdirs
          refine ⟨_, hwalk, hacc, fun d hd => hdiag d ?_⟩
          rwa [List.tail_reverse, List.mem_reverse] at hd

/-! ## Cases -/

/-- A creature that is nowhere hindered but by tiles that are not there. -/
def walkOn (position : Position) (tiles : List Position) : Walk Unit Unit where
  position := position
  creatureTile := some ()
  getWalkCache := fun pos => if pos ∈ tiles then 1 else 0
  getTile := fun pos => if pos ∈ tiles then some () else none
  queryAdd := fun _ => true
  getTopVisibleCreature := fun _ => false
  getFieldItem := fun _ => none
  isImmune := fun _ => false
  hasCondition := fun _ => false
  monster := none

/-- To stand on the target itself. -/
def reach (allowDiagonal : Bool) (maxSearchDist : Int) : FindPathParams where
  fullPathSearch := true
  clearSight := true
  allowDiagonal := allowDiagonal
  keepDistance := false
  maxSearchDist := maxSearchDist
  minTargetDist := 0
  maxTargetDist := 0

def onto (targetPos : Position) : PathingConditionCall :=
  FrozenPathingConditionCall.condition (fun _ _ => true) targetPos

theorem mem_of_canWalkTo {position pos : Position} {tiles : List Position}
    (h : ((walkOn position tiles).canWalkTo pos).isSome) : pos ∈ tiles := by
  by_contra hnot
  have hcache : (walkOn position tiles).getWalkCache pos = 0 := if_neg hnot
  rw [Walk.canWalkTo, hcache] at h
  cases h

/-- Without diagonals the first step can be one, and a step around the edge of the map is taken
for none. -/
theorem not_sound_diagonal_or_edge :
    ¬ Sound (walkOn ⟨100, 100, 7⟩ [⟨101, 101, 7⟩]) (onto ⟨101, 101, 7⟩) (reach false 10) ∧
      ¬ Sound (walkOn ⟨0, 100, 7⟩ [⟨65535, 100, 7⟩]) (onto ⟨65535, 100, 7⟩) (reach true 0) := by
  have hdiagonal : getPathMatching (walkOn ⟨100, 100, 7⟩ [⟨101, 101, 7⟩]) (onto ⟨101, 101, 7⟩)
      (reach false 10) MAX_NODES = some (some [.southeast]) := by decide +kernel
  have hedge : getPathMatching (walkOn ⟨0, 100, 7⟩ [⟨65535, 100, 7⟩]) (onto ⟨65535, 100, 7⟩)
      (reach true 0) MAX_NODES = some (some []) := by decide +kernel
  constructor
  · rintro ⟨result, hresult, h⟩
    rw [hdiagonal] at hresult
    obtain ⟨_, _, _, hdiag⟩ := h [.southeast] (Option.some.inj hresult).symm
    cases hdiag .southeast List.mem_cons_self rfl
  · rintro ⟨result, hresult, h⟩
    rw [hedge] at hresult
    obtain ⟨endPos, hwalk, ⟨bestMatch, hmatch⟩, _⟩ := h [] (Option.some.inj hresult).symm
    obtain rfl : ⟨0, 100, 7⟩ = endPos := hwalk
    have : ((onto ⟨65535, 100, 7⟩).call ⟨0, 100, 7⟩ ⟨0, 100, 7⟩ (reach true 0) bestMatch).1 =
        false := rfl
    cases this.symm.trans hmatch

instance (pos pos' : Position) : Decidable (Adjacent pos pos') :=
  inferInstanceAs (Decidable (_ ∧ _ ∧ _))

theorem noEdge_walkOn :
    NoEdge (walkOn ⟨100, 100, 7⟩ [⟨101, 101, 7⟩, ⟨102, 101, 7⟩]) (onto ⟨102, 101, 7⟩)
      (reach false 10) := by
  have hinner : ∀ pos ∈ [⟨100, 100, 7⟩, ⟨101, 101, 7⟩, (⟨102, 101, 7⟩ : Position)],
      ∀ o ∈ allNeighbors, Adjacent pos (shift pos o) := by decide
  rintro pos hpos o ho -
  refine hinner pos ?_ o ho
  rcases hpos with rfl | henter
  · exact List.mem_cons_self
  · exact List.mem_cons_of_mem _ (mem_of_canWalkTo henter.2)

/-- Over one tile to the next. -/
theorem getPathMatching_sound_two_steps :
    getPathMatching (walkOn ⟨100, 100, 7⟩ [⟨101, 101, 7⟩, ⟨102, 101, 7⟩]) (onto ⟨102, 101, 7⟩)
        (reach false 10) MAX_NODES = some (some [.east, .southeast]) ∧
      ∃ endPos, Walks (walkOn ⟨100, 100, 7⟩ [⟨101, 101, 7⟩, ⟨102, 101, 7⟩]) ⟨100, 100, 7⟩
        [.southeast, .east] endPos := by
  have hrun : getPathMatching (walkOn ⟨100, 100, 7⟩ [⟨101, 101, 7⟩, ⟨102, 101, 7⟩])
      (onto ⟨102, 101, 7⟩) (reach false 10) MAX_NODES = some (some [.east, .southeast]) := by
    decide +kernel
  obtain ⟨result, hresult, h⟩ := getPathMatching_sound
    (walkOn ⟨100, 100, 7⟩ [⟨101, 101, 7⟩, ⟨102, 101, 7⟩]) (onto ⟨102, 101, 7⟩) (reach false 10)
  rw [hrun] at hresult
  obtain ⟨endPos, hwalk, _⟩ := h noEdge_walkOn _ (Option.some.inj hresult).symm
  exact ⟨hrun, endPos, hwalk⟩

end Bruxo.PathSearch
