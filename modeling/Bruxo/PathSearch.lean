import Bruxo.WalkCache

/-!
# The path search

`Map::getPathMatching` with `AStarNodes` (`map.cpp`, `map.h`), `Map::canWalkTo`, and the path
condition of `creature.cpp`. The search takes the cheapest open node until the condition holds
at one, and goes back from there over the parents.

What the map and the creature answer is a parameter (`Walk`), and so is the condition. A node is
an index into `nodes`, and a pointer that is null is `none`.
-/

namespace Bruxo.PathSearch

open WalkCache (toCoordinate getOffset getDistance)

def MAX_NODES : Nat := 512
def MAP_NORMALWALKCOST : Int := 10
def MAP_DIAGONALWALKCOST : Int := 25

/-! ## Directions -/

inductive Direction where
  | north | east | south | west | southwest | southeast | northwest | northeast
  deriving DecidableEq, Repr

namespace Direction

def isDiagonal : Direction → Bool
  | north | east | south | west => false
  | southwest | southeast | northwest | northeast => true

def offset : Direction → Int × Int
  | north => (0, -1)
  | south => (0, 1)
  | west => (-1, 0)
  | east => (1, 0)
  | southwest => (-1, 1)
  | northwest => (-1, -1)
  | northeast => (1, -1)
  | southeast => (1, 1)

end Direction

/-- The coordinates are 16 bits: they go round. -/
def shift (pos : Position) (offset : Int × Int) : Position :=
  ⟨toCoordinate (pos.x.toNat + offset.1), toCoordinate (pos.y.toNat + offset.2), pos.z⟩

def getNextPosition (direction : Direction) (pos : Position) : Position :=
  shift pos direction.offset

/-! ## The path condition -/

structure FindPathParams where
  fullPathSearch : Bool
  clearSight : Bool
  allowDiagonal : Bool
  keepDistance : Bool
  maxSearchDist : Int
  minTargetDist : Int
  maxTargetDist : Int

/-- The call answers whether the tested position matches, and what `bestMatchDist` is then. -/
structure PathingConditionCall where
  isInRange : Position → Position → FindPathParams → Bool
  call : Position → Position → FindPathParams → Int → Bool × Int

namespace FrozenPathingConditionCall

variable (isSightClear : Position → Position → Bool) (targetPos : Position)

def isInRange (startPos testPos : Position) (fpp : FindPathParams) : Bool :=
  let inside (test target max min : Int) : Bool := !(target + max < test || test < target - min)
  if fpp.fullPathSearch then
    inside testPos.x.toNat targetPos.x.toNat fpp.maxTargetDist fpp.maxTargetDist &&
      inside testPos.y.toNat targetPos.y.toNat fpp.maxTargetDist fpp.maxTargetDist
  else
    let dx := getOffset startPos.x targetPos.x
    let dxMax := if dx ≥ 0 then fpp.maxTargetDist else 0
    let dxMin := if dx ≤ 0 then fpp.maxTargetDist else 0
    let dy := getOffset startPos.y targetPos.y
    let dyMax := if dy ≥ 0 then fpp.maxTargetDist else 0
    let dyMin := if dy ≤ 0 then fpp.maxTargetDist else 0
    inside testPos.x.toNat targetPos.x.toNat dxMax dxMin &&
      inside testPos.y.toNat targetPos.y.toNat dyMax dyMin

def call (startPos testPos : Position) (fpp : FindPathParams) (bestMatchDist : Int) :
    Bool × Int :=
  if !isInRange targetPos startPos testPos fpp then (false, bestMatchDist)
  else if fpp.clearSight && !isSightClear testPos targetPos then (false, bestMatchDist)
  else
    let testDist := max (getDistance targetPos.x testPos.x) (getDistance targetPos.y testPos.y)
    if fpp.maxTargetDist = 1 then
      (!(testDist < fpp.minTargetDist || testDist > fpp.maxTargetDist), bestMatchDist)
    else if testDist ≤ fpp.maxTargetDist then
      if testDist < fpp.minTargetDist then (false, bestMatchDist)
      else if testDist = fpp.maxTargetDist then (true, 0)
      else if testDist > bestMatchDist then (true, testDist)
      else (false, bestMatchDist)
    else (false, bestMatchDist)

def condition : PathingConditionCall := ⟨isInRange targetPos, call isSightClear targetPos⟩

end FrozenPathingConditionCall

/-! ## The creature on the map -/

/-- A creature and the map, with tiles `τ` and the combat types `κ` of the fields on them. -/
structure Walk (τ κ : Type) where
  position : Position
  creatureTile : Option τ
  getWalkCache : Position → Int
  getTile : Position → Option τ
  queryAdd : τ → Bool
  getTopVisibleCreature : τ → Bool
  getFieldItem : τ → Option κ
  isImmune : κ → Bool
  hasCondition : κ → Bool
  /-- `canWalkOnFieldType` of a monster -/
  monster : Option (κ → Bool)

namespace Walk

variable {τ κ : Type} (w : Walk τ κ)

def canWalkTo [DecidableEq τ] (pos : Position) : Option τ :=
  let walkCache := w.getWalkCache pos
  if walkCache = 0 then none
  else if walkCache = 1 then w.getTile pos
  else
    let tile := w.getTile pos
    if w.creatureTile ≠ tile then
      match tile with
      | none => none
      | some t => if w.queryAdd t then tile else none
    else tile

def getTileWalkCost (tile : τ) : Int :=
  let creatureCost := if w.getTopVisibleCreature tile then MAP_NORMALWALKCOST * 3 else 0
  match w.getFieldItem tile with
  | some combatType =>
      let afraid := match w.monster with
        | some canWalkOnFieldType => !canWalkOnFieldType combatType
        | none => false
      if !w.isImmune combatType && !w.hasCondition combatType && afraid then
        creatureCost + MAP_NORMALWALKCOST * 18
      else creatureCost
  | none => creatureCost

theorem getTileWalkCost_nonneg (tile : τ) : 0 ≤ w.getTileWalkCost tile := by
  simp only [getTileWalkCost]
  cases w.getFieldItem tile with
  | none =>
      dsimp only
      split <;> decide
  | some combatType =>
      dsimp only
      split_ifs <;> decide

end Walk

/-! ## The nodes -/

structure AStarNode where
  parent : Option Nat
  f : Int
  x : UInt16
  y : UInt16

structure AStarNodes where
  nodes : Nat → AStarNode
  openNodes : Nat → Bool
  nodeTable : Nat → Option Nat
  curNode : Nat
  closedNodes : Int

/-- `(x << 16) | y` -/
def tableKey (x y : UInt16) : Nat := x.toNat <<< 16 ||| y.toNat

/-- `std::abs(node->x - neighborPos.x) == std::abs(node->y - neighborPos.y)` -/
def getMapWalkCost (node : AStarNode) (neighborPos : Position) : Int :=
  if getDistance node.x neighborPos.x = getDistance node.y neighborPos.y then
    MAP_DIAGONALWALKCOST
  else MAP_NORMALWALKCOST

theorem getMapWalkCost_pos (node : AStarNode) (neighborPos : Position) :
    0 < getMapWalkCost node neighborPos := by
  rw [getMapWalkCost]
  split <;> decide

namespace AStarNodes

def start (x y : UInt16) : AStarNodes where
  nodes := fun _ => ⟨none, 0, x, y⟩
  openNodes := fun i => i == 0
  nodeTable := Function.update (fun _ => none) (tableKey x y) (some 0)
  curNode := 1
  closedNodes := 0

variable (s : AStarNodes)

def createOpenNode (parent : Nat) (x y : UInt16) (f : Int) : Option AStarNodes :=
  if s.curNode ≥ MAX_NODES then none
  else
    some
      { nodes := Function.update s.nodes s.curNode ⟨some parent, f, x, y⟩
        openNodes := Function.update s.openNodes s.curNode true
        nodeTable := Function.update s.nodeTable (tableKey x y) (some s.curNode)
        curNode := s.curNode + 1
        closedNodes := s.closedNodes }

/-- The largest `int32_t`. -/
def maxF : Int := 2147483647

def getBestNode : Option Nat :=
  ((List.range s.curNode).foldl (fun best i =>
    if s.openNodes i && (s.nodes i).f < best.1 then ((s.nodes i).f, some i) else best)
    (maxF, none)).2

def closeNode (i : Nat) : AStarNodes :=
  { s with openNodes := Function.update s.openNodes i false, closedNodes := s.closedNodes + 1 }

def openNode (i : Nat) : AStarNodes :=
  if s.openNodes i then s
  else
    { s with openNodes := Function.update s.openNodes i true, closedNodes := s.closedNodes - 1 }

def getNodeByPosition (x y : UInt16) : Option Nat := s.nodeTable (tableKey x y)

/-- `neighborNode->f = newf; neighborNode->parent = n;` -/
def setParent (i parent : Nat) (f : Int) : AStarNodes :=
  { s with
    nodes := Function.update s.nodes i { s.nodes i with parent := some parent, f := f } }

end AStarNodes

/-! ## The neighbours -/

def dirNeighbors : Direction → List (Int × Int)
  | .north => [(-1, 0), (0, 1), (1, 0), (1, 1), (-1, 1)]
  | .east => [(-1, 0), (0, 1), (0, -1), (-1, -1), (-1, 1)]
  | .south => [(-1, 0), (1, 0), (0, -1), (-1, -1), (1, -1)]
  | .west => [(0, 1), (1, 0), (0, -1), (1, -1), (1, 1)]
  | .southwest => [(1, 0), (0, -1), (-1, -1), (1, -1), (1, 1)]
  | .southeast => [(-1, 0), (0, -1), (-1, -1), (1, -1), (-1, 1)]
  | .northwest => [(0, 1), (1, 0), (1, -1), (1, 1), (-1, 1)]
  | .northeast => [(-1, 0), (0, 1), (-1, -1), (1, 1), (-1, 1)]

def allNeighbors : List (Int × Int) :=
  [(-1, 0), (0, 1), (1, 0), (0, -1), (-1, -1), (1, -1), (1, 1), (-1, 1)]

/-- `offset_x` and `offset_y` lead to the parent. Without diagonals a parent that is one, the
start, counts as a vertical one. -/
def fromParent (allowDiagonal : Bool) (offset_x offset_y : Int) : Direction :=
  if offset_y = 0 then
    if offset_x = -1 then .west else .east
  else if !allowDiagonal || offset_x = 0 then
    if offset_y = -1 then .north else .south
  else if offset_y = -1 then
    if offset_x = -1 then .northwest else .northeast
  else if offset_x = -1 then .southwest
  else .southeast

def neighbors (allowDiagonal : Bool) (s : AStarNodes) (n : Nat) : List (Int × Int) :=
  match (s.nodes n).parent with
  | some p =>
      let offset_x := getOffset (s.nodes p).x (s.nodes n).x
      let offset_y := getOffset (s.nodes p).y (s.nodes n).y
      (dirNeighbors (fromParent allowDiagonal offset_x offset_y)).take
        (if allowDiagonal then 5 else 3)
  | none => allNeighbors

/-! ## The search -/

section Search

variable {τ κ : Type} [DecidableEq τ] (w : Walk τ κ) (pathCondition : PathingConditionCall)
  (fpp : FindPathParams)

def nodePos (s : AStarNodes) (i : Nat) : Position := ⟨(s.nodes i).x, (s.nodes i).y, w.position.z⟩

/-- Both `continue`s that come before the tile is asked for. -/
def inSearch (pos : Position) : Bool :=
  !(fpp.maxSearchDist ≠ 0 &&
    (getDistance w.position.x pos.x > fpp.maxSearchDist ||
      getDistance w.position.y pos.y > fpp.maxSearchDist)) &&
  !(fpp.keepDistance && !pathCondition.isInRange w.position pos fpp)

/-- One turn of the inner loop; `none` if there is no node left. The tile of a node that exists
is there, so what it costs without one does not matter. -/
def visit (n : Nat) (offset : Int × Int) (s : AStarNodes) : Option AStarNodes :=
  let pos := shift (nodePos w s n) offset
  if !inSearch w pathCondition fpp pos then some s
  else
    match s.getNodeByPosition pos.x pos.y with
    | some neighborNode =>
        let extraCost := ((w.getTile pos).map w.getTileWalkCost).getD 0
        let newf := (s.nodes n).f + getMapWalkCost (s.nodes n) pos + extraCost
        if (s.nodes neighborNode).f ≤ newf then some s
        else some ((s.setParent neighborNode n newf).openNode neighborNode)
    | none =>
        match w.canWalkTo pos with
        | none => some s
        | some tile =>
            let newf := (s.nodes n).f + getMapWalkCost (s.nodes n) pos + w.getTileWalkCost tile
            s.createOpenNode n pos.x pos.y newf

/-- The inner loop, and whether it had to stop for want of a node. -/
def expand (n : Nat) : List (Int × Int) → AStarNodes → AStarNodes × Bool
  | [], s => (s, false)
  | offset :: offsets, s =>
      match visit w pathCondition fpp n offset s with
      | some s' => expand n offsets s'
      | none => (s, true)

structure Search where
  nodes : AStarNodes
  found : Option Nat
  endPos : Position
  bestMatch : Int

/-- The outer loop up to the neighbours: the search is over, or a node is to be expanded. -/
inductive Selected where
  | ended (s : Search)
  | fail
  | node (n : Nat) (s : Search)

def select (s : Search) : Selected :=
  if fpp.maxSearchDist ≠ 0 ∨ s.nodes.closedNodes < 100 then
    match s.nodes.getBestNode with
    | none => if s.found.isSome then .ended s else .fail
    | some n =>
        let pos := nodePos w s.nodes n
        let (ok, bestMatch) := pathCondition.call w.position pos fpp s.bestMatch
        if ok then
          let s' : Search := ⟨s.nodes, some n, pos, bestMatch⟩
          if bestMatch = 0 then .ended s' else .node n s'
        else .node n { s with bestMatch := bestMatch }
  else .ended s

/-- The outer loop, with as many expansions as there is fuel; `some none` is a `return false`. -/
def search : Nat → Search → Option (Option Search)
  | fuel, s =>
      match select w pathCondition fpp s with
      | .ended s' => some (some s')
      | .fail => some none
      | .node n s' =>
          match fuel with
          | 0 => none
          | fuel + 1 =>
              match expand w pathCondition fpp n (neighbors fpp.allowDiagonal s'.nodes n)
                  s'.nodes with
              | (nodes, full) =>
                  if full && s'.found.isNone then some none
                  else search fuel { s' with nodes := nodes.closeNode n }

/-- What is pushed to `dirList` for a step back by `dx` and `dy`. -/
def directionOf (dx dy : Int) : List Direction :=
  if dx = 1 ∧ dy = 1 then [.northwest]
  else if dx = -1 ∧ dy = 1 then [.northeast]
  else if dx = 1 ∧ dy = -1 then [.southwest]
  else if dx = -1 ∧ dy = -1 then [.southeast]
  else if dx = 1 then [.west]
  else if dx = -1 then [.east]
  else if dy = 1 then [.north]
  else if dy = -1 then [.south]
  else []

/-- The loop back to the start. -/
def backtrack (s : AStarNodes) : Nat → Position → Option Nat → Option (List Direction)
  | _, _, none => some []
  | 0, _, some _ => none
  | fuel + 1, prev, some found =>
      let pos := nodePos w s found
      (backtrack s fuel pos (s.nodes found).parent).map fun dirList =>
        directionOf (getOffset pos.x prev.x) (getOffset pos.y prev.y) ++ dirList

/-- `none` is a loop that is not at its end; `some none` is a `return false`. -/
def getPathMatching (fuel : Nat) : Option (Option (List Direction)) :=
  match search w pathCondition fpp fuel
      ⟨.start w.position.x w.position.y, none, ⟨0, 0, 0⟩, 0⟩ with
  | none => none
  | some none => some none
  | some (some s) =>
      match s.found with
      | none => some none
      | some found =>
          (backtrack w s.nodes fuel s.endPos (s.nodes.nodes found).parent).map some

end Search

end Bruxo.PathSearch
