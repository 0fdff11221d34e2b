import Bruxo.PathSearch
import Bruxo.Spawn

/-!
# Keeping the distance

`Monster::getDistanceStep` chooses a step for a monster that stays away from its target, and
`Monster::canWalkTo` says which steps there are. The four branches for a target that is diagonal to
the monster are one with other directions, and so are the four for one that is not.
-/

namespace Bruxo.DistanceStep

open PathSearch
open WalkCache (toCoordinate getOffset getDistance)

/-- A monster, what it asks the map, with tiles `τ`, and the settings of all monsters. -/
structure Monster (τ : Type) where
  position : Position
  masterPos : Position
  spawn : Bool
  targetDistance : Int
  stepDuration : Int
  despawnRadius : Int
  despawnRange : Int
  getWalkCache : Position → Int
  getTile : Position → Option τ
  getTopVisibleCreature : τ → Bool
  /-- `queryAdd` with `FLAG_PATHFINDING` has no error. -/
  queryAdd : τ → Bool
  isSightClear : Position → Position → Bool → Bool

/-- What the random generator answers in a call: one coin, and the order of the directions. -/
structure Choices where
  boolean_random : Bool
  getShuffleDirections : List Direction
  perm : getShuffleDirections.Perm [.north, .west, .east, .south]

/-- What a call returns, the direction if it sets it, and the duration of the steps after it. -/
structure Step where
  result : Bool
  direction : Option Direction
  stepDuration : Int
  deriving DecidableEq

section Trees

variable (walk : Direction → Bool) (coin flee : Bool)

/-- One of two directions in which the monster can walk, or none. -/
def either (first second : Direction) : Option Direction :=
  if walk first && walk second then
    some (if coin then first else second)
  else if walk first then
    some first
  else if walk second then
    some second
  else
    none

/-- The target is diagonal to the monster, which goes one of the two ways away from it, both at
once, or, to flee, one of the two ways that bring it to the side of the target. Without need to flee
it goes such a way only for the tile that is beyond. -/
def diagonalStep (away away' both side side' extra beyond extra' beyond' : Direction) :
    Option Direction :=
  match either walk coin away away' with
  | some dir => some dir
  | none =>
      if walk both then
        some both
      else
        match if flee then either walk coin side side' else none with
        | some dir => some dir
        | none =>
            if walk extra && walk beyond then
              some extra
            else if walk extra' && walk beyond' then
              some extra'
            else
              none

/-- The target is straight ahead, or `offset` squares to the side. The monster goes away from it,
to the side that is away from it, to any side if it flees, on a diagonal away from it, or, to flee,
towards it. -/
def straightStep (offset : Int) (away side side' diagSide diag diagSide' diag' towards : Direction) :
    Option Direction :=
  if walk away then
    some away
  else if walk side && walk side' && offset = 0 then
    some (if coin then side else side')
  else if walk side && offset ≤ 0 then
    some side
  else if walk side' && 0 ≤ offset then
    some side'
  else
    match if flee then either walk coin side side' else none with
    | some dir => some dir
    | none =>
        if walk diag || walk diag' then
          if walk diag && walk diag' then
            some (if coin then diag else diag')
          else if walk diagSide then
            some diagSide
          else if walk diag then
            some diag
          else if walk diagSide' then
            some diagSide'
          else if walk diag' then
            some diag'
          else
            none
        else if flee && walk towards then
          some towards
        else
          none

/-- The step away from a target at some offset, which is not the monster's own square. -/
def awayStep (offsetx offsety : Int) : Option Direction :=
  let dx : Int := offsetx.natAbs
  let dy : Int := offsety.natAbs
  let straight : Option Direction :=
    if dx < dy then
      if offsety < 0 then
        straightStep walk coin flee offsetx .north .west .east .west .northwest .east .northeast
          .south
      else
        straightStep walk coin flee offsetx .south .west .east .west .southwest .east .southeast
          .north
    else
      if offsetx < 0 then
        straightStep walk coin flee offsety .west .north .south .north .northwest .south .southwest
          .east
      else
        straightStep walk coin flee offsety .east .north .south .south .southeast .north .northeast
          .west
  if dx = dy then
    if 1 ≤ offsetx ∧ 1 ≤ offsety then
      diagonalStep walk coin flee .south .east .southeast .north .west .west .southwest .north
        .northeast
    else if offsetx ≤ -1 ∧ offsety ≤ -1 then
      diagonalStep walk coin flee .west .north .northwest .south .east .south .southwest .east
        .northeast
    else if 1 ≤ offsetx ∧ offsety ≤ -1 then
      diagonalStep walk coin flee .north .east .northeast .south .west .west .northwest .south
        .southeast
    else if offsetx ≤ -1 ∧ 1 ≤ offsety then
      diagonalStep walk coin flee .west .south .southwest .north .east .east .southeast .north
        .northwest
    else
      straight
  else
    straight

end Trees

namespace Monster

variable {τ : Type} (m : Monster τ)

def isInSpawnRange (pos : Position) : Bool :=
  if ¬ m.spawn then
    true
  else if m.despawnRadius = 0 then
    true
  else if ¬ Spawns.isInZone m.masterPos m.despawnRadius pos then
    false
  else if m.despawnRange = 0 then
    true
  else
    ((pos.z.toNat : Int) - m.masterPos.z.toNat).natAbs ≤ m.despawnRange

def canWalkTo (pos : Position) (direction : Direction) : Bool :=
  let pos := getNextPosition direction pos
  if m.isInSpawnRange pos then
    if m.getWalkCache pos = 0 then
      false
    else
      match m.getTile pos with
      | some tile => !m.getTopVisibleCreature tile && m.queryAdd tile
      | none => false
  else
    false

def getRandomStep (choices : Choices) (creaturePos : Position) : Option Direction :=
  choices.getShuffleDirections.find? fun dir => m.canWalkTo creaturePos dir

def getDistanceStep (choices : Choices) (targetPos : Position) (flee : Bool) : Step :=
  let creaturePos := m.position
  let dx := getDistance creaturePos.x targetPos.x
  let dy := getDistance creaturePos.y targetPos.y
  let distance := max dx dy
  if ¬ flee ∧ (m.targetDistance < distance ∨ ¬ m.isSightClear creaturePos targetPos true) then
    -- let the A* calculate it
    ⟨false, none, m.stepDuration⟩
  else if ¬ flee ∧ distance = m.targetDistance then
    ⟨true, none, m.stepDuration⟩
  else
    let offsetx := getOffset creaturePos.x targetPos.x
    let offsety := getOffset creaturePos.y targetPos.y
    let stepDuration :=
      if dx ≤ 1 ∧ dy ≤ 1 then
        if m.stepDuration < 2 then m.stepDuration + 1 else m.stepDuration
      else if 0 < m.stepDuration then
        m.stepDuration - 1
      else
        m.stepDuration
    if offsetx = 0 ∧ offsety = 0 then
      -- the target is on the square of the monster
      let dir := m.getRandomStep choices creaturePos
      ⟨dir.isSome, dir, stepDuration⟩
    else
      ⟨true, awayStep (m.canWalkTo creaturePos) choices.boolean_random flee offsetx offsety,
        stepDuration⟩

end Monster

section Choice

variable {walk : Direction → Bool} {coin flee : Bool} {dir : Direction}

theorem ite_some {p : Prop} [Decidable p] {d : Direction} {rest : Option Direction}
    (h : (if p then some d else rest) = some dir) : p ∧ d = dir ∨ ¬ p ∧ rest = some dir := by
  split at h
  · next hp => exact Or.inl ⟨hp, Option.some.inj h⟩
  · next hp => exact Or.inr ⟨hp, h⟩

theorem match_some {first rest : Option Direction}
    (h : (match first with | some dir => some dir | none => rest) = some dir) :
    first = some dir ∨ first = none ∧ rest = some dir := by
  cases first with
  | some d => exact Or.inl h
  | none => exact Or.inr ⟨rfl, h⟩

theorem walk_coin {first second : Direction} (h : (walk first && walk second) = true) :
    walk (if coin then first else second) = true := by
  obtain ⟨hfirst, hsecond⟩ := Bool.and_eq_true_iff.mp h
  cases coin with
  | true => exact hfirst
  | false => exact hsecond

theorem coin_mem {first second : Direction} {l : List Direction} (hfirst : first ∈ l)
    (hsecond : second ∈ l) : (if coin then first else second) ∈ l := by
  cases coin with
  | true => exact hfirst
  | false => exact hsecond

theorem either_some {first second : Direction} (h : either walk coin first second = some dir) :
    walk dir = true ∧ (dir = first ∨ dir = second) := by
  rw [either] at h
  rcases ite_some h with ⟨hboth, rfl⟩ | ⟨-, h⟩
  · exact ⟨walk_coin hboth, List.mem_pair.mp (coin_mem (by simp) (by simp))⟩
  · rcases ite_some h with ⟨hfirst, rfl⟩ | ⟨-, h⟩
    · exact ⟨hfirst, Or.inl rfl⟩
    · rcases ite_some h with ⟨hsecond, rfl⟩ | ⟨-, h⟩
      · exact ⟨hsecond, Or.inr rfl⟩
      · cases h

theorem either_none {first second : Direction} (h : either walk coin first second = none) :
    walk first = false ∧ walk second = false := by
  rw [either] at h
  split at h
  · cases h
  · split at h
    · cases h
    · next hfirst =>
        split at h
        · cases h
        · next hsecond => exact ⟨eq_false_of_ne_true hfirst, eq_false_of_ne_true hsecond⟩

theorem fleeing_some {first second : Direction}
    (h : (if flee then either walk coin first second else none) = some dir) :
    walk dir = true ∧ (dir = first ∨ dir = second) := by
  split at h
  · exact either_some h
  · cases h

theorem diagonalStep_some {away away' both side side' extra beyond extra' beyond' : Direction}
    (h : diagonalStep walk coin flee away away' both side side' extra beyond extra' beyond' =
      some dir) :
    walk dir = true ∧ dir ∈ [away, away', both, side, side', extra, extra'] := by
  rw [diagonalStep] at h
  rcases match_some h with haway | ⟨-, h⟩
  · obtain ⟨hwalk, rfl | rfl⟩ := either_some haway
    · exact ⟨hwalk, by simp⟩
    · exact ⟨hwalk, by simp⟩
  rcases ite_some h with ⟨hboth, rfl⟩ | ⟨-, h⟩
  · exact ⟨hboth, by simp⟩
  rcases match_some h with hside | ⟨-, h⟩
  · obtain ⟨hwalk, rfl | rfl⟩ := fleeing_some hside
    · exact ⟨hwalk, by simp⟩
    · exact ⟨hwalk, by simp⟩
  rcases ite_some h with ⟨hextra, rfl⟩ | ⟨-, h⟩
  · exact ⟨(Bool.and_eq_true_iff.mp hextra).1, by simp⟩
  rcases ite_some h with ⟨hextra, rfl⟩ | ⟨-, h⟩
  · exact ⟨(Bool.and_eq_true_iff.mp hextra).1, by simp⟩
  cases h

theorem straightStep_some {offset : Int}
    {away side side' diagSide diag diagSide' diag' towards : Direction}
    (h : straightStep walk coin flee offset away side side' diagSide diag diagSide' diag' towards =
      some dir) :
    walk dir = true ∧ (dir ∈ [away, side, side', diagSide, diag, diagSide', diag'] ∨
      flee = true ∧ ∀ d ∈ [away, side, side', diag, diag'], walk d = false) := by
  rw [straightStep] at h
  rcases ite_some h with ⟨hwalk, rfl⟩ | ⟨haway, h⟩
  · exact ⟨hwalk, Or.inl (by simp)⟩
  rcases ite_some h with ⟨hsides, rfl⟩ | ⟨-, h⟩
  · exact ⟨walk_coin (Bool.and_eq_true_iff.mp hsides).1, Or.inl (coin_mem (by simp) (by simp))⟩
  rcases ite_some h with ⟨hside, rfl⟩ | ⟨-, h⟩
  · exact ⟨(Bool.and_eq_true_iff.mp hside).1, Or.inl (by simp)⟩
  rcases ite_some h with ⟨hside, rfl⟩ | ⟨-, h⟩
  · exact ⟨(Bool.and_eq_true_iff.mp hside).1, Or.inl (by simp)⟩
  rcases match_some h with hside | ⟨hsides, h⟩
  · obtain ⟨hwalk, rfl | rfl⟩ := fleeing_some hside
    · exact ⟨hwalk, Or.inl (by simp)⟩
    · exact ⟨hwalk, Or.inl (by simp)⟩
  split at h
  · rcases ite_some h with ⟨hboth, rfl⟩ | ⟨-, h⟩
    · exact ⟨walk_coin hboth, Or.inl (coin_mem (by simp) (by simp))⟩
    rcases ite_some h with ⟨hwalk, rfl⟩ | ⟨-, h⟩
    · exact ⟨hwalk, Or.inl (by simp)⟩
    rcases ite_some h with ⟨hwalk, rfl⟩ | ⟨-, h⟩
    · exact ⟨hwalk, Or.inl (by simp)⟩
    rcases ite_some h with ⟨hwalk, rfl⟩ | ⟨-, h⟩
    · exact ⟨hwalk, Or.inl (by simp)⟩
    rcases ite_some h with ⟨hwalk, rfl⟩ | ⟨-, h⟩
    · exact ⟨hwalk, Or.inl (by simp)⟩
    cases h
  · next hdiags =>
      rcases ite_some h with ⟨htowards, rfl⟩ | ⟨-, h⟩
      · obtain ⟨hflee, hwalk⟩ := Bool.and_eq_true_iff.mp htowards
        refine ⟨hwalk, Or.inr ⟨hflee, ?_⟩⟩
        rw [if_pos hflee] at hsides
        obtain ⟨hside, hside'⟩ := either_none hsides
        obtain ⟨hdiag, hdiag'⟩ := Bool.or_eq_false_iff.mp (eq_false_of_ne_true hdiags)
        simp [eq_false_of_ne_true haway, hside, hside', hdiag, hdiag']
      · cases h

end Choice

section Distance

variable {pos targetPos : Position} {dir : Direction}

/-- `std::max(dx, dy)`, the distance of two squares of a floor. -/
def distance (pos targetPos : Position) : Int :=
  max (getDistance pos.x targetPos.x) (getDistance pos.y targetPos.y)

/-- A step by `d` does not go back along an axis, on which the target is `offset` squares behind. -/
def Onward (offset d : Int) : Prop := 0 ≤ offset ∧ 0 ≤ d ∨ offset ≤ 0 ∧ d ≤ 0

/-- The step does not go back along an axis on which the target is as far away as it is. -/
def KeepsOff (offsetx offsety : Int) (dir : Direction) : Prop :=
  offsety.natAbs ≤ offsetx.natAbs ∧ Onward offsetx dir.offset.1 ∨
    offsetx.natAbs ≤ offsety.natAbs ∧ Onward offsety dir.offset.2

/-- The step crosses the edge of the coordinates and comes out at the other end. -/
def Crosses (pos : Position) (dir : Direction) : Prop :=
  ¬ (0 ≤ (pos.x.toNat : Int) + dir.offset.1 ∧ (pos.x.toNat : Int) + dir.offset.1 < 65536 ∧
    0 ≤ (pos.y.toNat : Int) + dir.offset.2 ∧ (pos.y.toNat : Int) + dir.offset.2 < 65536)

instance (pos : Position) (dir : Direction) : Decidable (Crosses pos dir) :=
  inferInstanceAs (Decidable (¬ (_ ∧ _)))

theorem offset_le (dir : Direction) :
    (-1 ≤ dir.offset.1 ∧ dir.offset.1 ≤ 1) ∧ -1 ≤ dir.offset.2 ∧ dir.offset.2 ≤ 1 := by
  cases dir <;> decide

/-- The distance along one axis after a step that does not go back along it: it is not less, unless
the step crosses the edge and the target is more than half of the coordinates away. -/
theorem getDistance_step {a b : UInt16} {d : Int} (hd : -1 ≤ d ∧ d ≤ 1)
    (honward : Onward (getOffset a b) d)
    (hedge : (0 ≤ (a.toNat : Int) + d ∧ (a.toNat : Int) + d < 65536) ∨ getDistance a b ≤ 32767) :
    getDistance a b ≤ getDistance (toCoordinate (a.toNat + d)) b := by
  have ha : a.toNat < 65536 := UInt16.toNat_lt _
  have hb : b.toNat < 65536 := UInt16.toNat_lt _
  have hval : ((toCoordinate (a.toNat + d)).toNat : Int) = (a.toNat + d) % 65536 := by
    rw [toCoordinate, UInt16.toNat_ofNat']
    omega
  simp only [Onward, getDistance, getOffset, hval] at honward hedge ⊢
  omega

theorem distance_step
    (hkeeps : KeepsOff (getOffset pos.x targetPos.x) (getOffset pos.y targetPos.y) dir)
    (hedge : ¬ Crosses pos dir ∨ distance pos targetPos ≤ 32767) :
    distance pos targetPos ≤ distance (getNextPosition dir pos) targetPos := by
  obtain ⟨hdx, hdy⟩ := offset_le dir
  have hx : getDistance pos.x targetPos.x ≤ distance pos targetPos := Int.le_max_left ..
  have hy : getDistance pos.y targetPos.y ≤ distance pos targetPos := Int.le_max_right ..
  rcases hkeeps with ⟨hle, honward⟩ | ⟨hle, honward⟩
  · have hfar : distance pos targetPos = getDistance pos.x targetPos.x := by
      rw [distance, getDistance, getDistance]
      omega
    rw [hfar]
    refine (getDistance_step hdx honward ?_).trans (Int.le_max_left ..)
    rcases hedge with hin | hnear
    · have hin := not_not.mp hin
      exact Or.inl ⟨hin.1, hin.2.1⟩
    · exact Or.inr (hx.trans hnear)
  · have hfar : distance pos targetPos = getDistance pos.y targetPos.y := by
      rw [distance, getDistance, getDistance]
      omega
    rw [hfar]
    refine (getDistance_step hdy honward ?_).trans (Int.le_max_right ..)
    rcases hedge with hin | hnear
    · have hin := not_not.mp hin
      exact Or.inl hin.2.2
    · exact Or.inr (hy.trans hnear)

end Distance

section Away

variable {walk : Direction → Bool} {coin flee : Bool} {offsetx offsety : Int} {dir : Direction}

/-- The step straight away from a target that is not diagonal to the monster, the two sideways and
the two diagonal ones away from it. -/
def escapes (offsetx offsety : Int) : List Direction :=
  if offsetx.natAbs < offsety.natAbs then
    if offsety < 0 then
      [.north, .west, .east, .northwest, .northeast]
    else
      [.south, .west, .east, .southwest, .southeast]
  else
    if offsetx < 0 then
      [.west, .north, .south, .northwest, .southwest]
    else
      [.east, .north, .south, .southeast, .northeast]

/-- The monster flees, and none of the steps away from the target can be walked. -/
def Cornered (walk : Direction → Bool) (flee : Bool) (offsetx offsety : Int) : Prop :=
  offsetx.natAbs ≠ offsety.natAbs ∧ flee = true ∧ ∀ d ∈ escapes offsetx offsety, walk d = false

theorem straightStep_keepsOff {away side side' diagSide diag diagSide' diag' towards : Direction}
    {offset : Int} (hne : offsetx.natAbs ≠ offsety.natAbs)
    (hescapes : escapes offsetx offsety = [away, side, side', diag, diag'])
    (hkeeps : ∀ d ∈ [away, side, side', diagSide, diag, diagSide', diag'],
      KeepsOff offsetx offsety d)
    (h : straightStep walk coin flee offset away side side' diagSide diag diagSide' diag' towards =
      some dir) :
    walk dir = true ∧ (KeepsOff offsetx offsety dir ∨ Cornered walk flee offsetx offsety) := by
  obtain ⟨hwalk, hmem | ⟨hflee, hnone⟩⟩ := straightStep_some h
  · exact ⟨hwalk, Or.inl (hkeeps dir hmem)⟩
  · exact ⟨hwalk, Or.inr ⟨hne, hflee, hescapes ▸ hnone⟩⟩

theorem diagonalStep_keepsOff
    {away away' both side side' extra beyond extra' beyond' : Direction}
    (hkeeps : ∀ d ∈ [away, away', both, side, side', extra, extra'], KeepsOff offsetx offsety d)
    (h : diagonalStep walk coin flee away away' both side side' extra beyond extra' beyond' =
      some dir) :
    walk dir = true ∧ (KeepsOff offsetx offsety dir ∨ Cornered walk flee offsetx offsety) := by
  obtain ⟨hwalk, hmem⟩ := diagonalStep_some h
  exact ⟨hwalk, Or.inl (hkeeps dir hmem)⟩

/-- One case for each of the eight ways the target may lie: what is left is that the steps of the
branch do not go back along an axis that decides the distance. -/
theorem awayStep_some (hne : ¬ (offsetx = 0 ∧ offsety = 0))
    (h : awayStep walk coin flee offsetx offsety = some dir) :
    walk dir = true ∧ (KeepsOff offsetx offsety dir ∨ Cornered walk flee offsetx offsety) := by
  rw [awayStep] at h
  split at h
  · split at h
    · refine diagonalStep_keepsOff ?_ h
      simp only [List.forall_mem_cons, List.not_mem_nil, false_imp_iff, implies_true,
        and_true, KeepsOff, Onward, Direction.offset]
      omega
    · split at h
      · refine diagonalStep_keepsOff ?_ h
        simp only [List.forall_mem_cons, List.not_mem_nil, false_imp_iff, implies_true,
        and_true, KeepsOff, Onward, Direction.offset]
        omega
      · split at h
        · refine diagonalStep_keepsOff ?_ h
          simp only [List.forall_mem_cons, List.not_mem_nil, false_imp_iff, implies_true,
        and_true, KeepsOff, Onward, Direction.offset]
          omega
        · split at h
          · refine diagonalStep_keepsOff ?_ h
            simp only [List.forall_mem_cons, List.not_mem_nil, false_imp_iff, implies_true,
        and_true, KeepsOff, Onward, Direction.offset]
            omega
          · omega
  · split at h
    · split at h
      · refine straightStep_keepsOff (by omega) ?_ ?_ h
        · rw [escapes, if_pos (by omega), if_pos (by omega)]
        · simp only [List.forall_mem_cons, List.not_mem_nil, false_imp_iff, implies_true,
        and_true, KeepsOff, Onward, Direction.offset]
          omega
      · refine straightStep_keepsOff (by omega) ?_ ?_ h
        · rw [escapes, if_pos (by omega), if_neg (by omega)]
        · simp only [List.forall_mem_cons, List.not_mem_nil, false_imp_iff, implies_true,
        and_true, KeepsOff, Onward, Direction.offset]
          omega
    · split at h
      · refine straightStep_keepsOff (by omega) ?_ ?_ h
        · rw [escapes, if_neg (by omega), if_pos (by omega)]
        · simp only [List.forall_mem_cons, List.not_mem_nil, false_imp_iff, implies_true,
        and_true, KeepsOff, Onward, Direction.offset]
          omega
      · refine straightStep_keepsOff (by omega) ?_ ?_ h
        · rw [escapes, if_neg (by omega), if_neg (by omega)]
        · simp only [List.forall_mem_cons, List.not_mem_nil, false_imp_iff, implies_true,
        and_true, KeepsOff, Onward, Direction.offset]
          omega

end Away

theorem keepsOff_zero (dir : Direction) : KeepsOff 0 0 dir := by
  refine Or.inl ⟨Nat.le_refl _, ?_⟩
  rcases Int.le_total 0 dir.offset.1 with h | h
  · exact Or.inl ⟨Int.le_refl _, h⟩
  · exact Or.inr ⟨Int.le_refl _, h⟩

namespace Monster

variable {τ : Type} {m : Monster τ} {choices : Choices} {targetPos : Position} {flee : Bool}
  {dir : Direction}

/-- A direction that is set can be walked and, unless the monster is cornered, keeps the monster off
along an axis that decides the distance. -/
theorem getDistanceStep_some (h : (m.getDistanceStep choices targetPos flee).direction = some dir) :
    m.canWalkTo m.position dir = true ∧
      (KeepsOff (getOffset m.position.x targetPos.x) (getOffset m.position.y targetPos.y) dir ∨
        Cornered (m.canWalkTo m.position) flee (getOffset m.position.x targetPos.x)
          (getOffset m.position.y targetPos.y)) := by
  rw [getDistanceStep] at h
  dsimp only at h
  split at h
  · cases h
  · split at h
    · cases h
    · split at h
      · next hzero =>
          have hwalk : m.canWalkTo m.position dir = true :=
            List.find?_some (p := fun dir => m.canWalkTo m.position dir) h
          rw [hzero.1, hzero.2]
          exact ⟨hwalk, Or.inl (keepsOff_zero dir)⟩
      · next hne => exact awayStep_some hne h

/-- A direction that is set can be walked, and the step does not bring the monster closer to the
target, unless it flees and is cornered, or the step crosses the edge of the coordinates with the
target more than half of them away. -/
theorem getDistanceStep_keeps
    (h : (m.getDistanceStep choices targetPos flee).direction = some dir) :
    m.canWalkTo m.position dir = true ∧
      (distance m.position targetPos ≤ distance (getNextPosition dir m.position) targetPos ∨
        Cornered (m.canWalkTo m.position) flee (getOffset m.position.x targetPos.x)
          (getOffset m.position.y targetPos.y) ∨
        Crosses m.position dir ∧ 32767 < distance m.position targetPos) := by
  obtain ⟨hwalk, hkeeps | hcornered⟩ := getDistanceStep_some h
  · refine ⟨hwalk, ?_⟩
    by_cases hedge : ¬ Crosses m.position dir ∨ distance m.position targetPos ≤ 32767
    · exact Or.inl (distance_step hkeeps hedge)
    · obtain ⟨hcrosses, hfar⟩ := not_or.mp hedge
      exact Or.inr (Or.inr ⟨not_not.mp hcrosses, Int.not_le.mp hfar⟩)
  · exact ⟨hwalk, Or.inr (Or.inl hcornered)⟩

end Monster

/-- The choices when nothing is shuffled. -/
def inOrder : Choices := ⟨true, [.north, .west, .east, .south], List.Perm.refl _⟩

/-- A monster that may stand on one more square than its own. -/
def onTwoSquares (position other : Position) : Monster Unit where
  position := position
  masterPos := position
  spawn := false
  targetDistance := 4
  stepDuration := 0
  despawnRadius := 0
  despawnRange := 0
  getWalkCache := fun _ => 2
  getTile := fun pos => if pos = other then some () else none
  getTopVisibleCreature := fun _ => false
  queryAdd := fun _ => true
  isSightClear := fun _ _ _ => true

/-- With the target two squares to the east, the monster goes west. -/
theorem getDistanceStep_keeps_west :
    (onTwoSquares ⟨100, 100, 7⟩ ⟨99, 100, 7⟩).canWalkTo ⟨100, 100, 7⟩ .west = true ∧
      (distance ⟨100, 100, 7⟩ ⟨102, 100, 7⟩ ≤
          distance (getNextPosition .west ⟨100, 100, 7⟩) ⟨102, 100, 7⟩ ∨
        Cornered ((onTwoSquares ⟨100, 100, 7⟩ ⟨99, 100, 7⟩).canWalkTo ⟨100, 100, 7⟩) false
          (getOffset 100 102) (getOffset 100 100) ∨
        Crosses ⟨100, 100, 7⟩ .west ∧ 32767 < distance ⟨100, 100, 7⟩ ⟨102, 100, 7⟩) :=
  Monster.getDistanceStep_keeps
    (show ((onTwoSquares ⟨100, 100, 7⟩ ⟨99, 100, 7⟩).getDistanceStep inOrder ⟨102, 100, 7⟩
      false).direction = some .west by decide)

/-- A monster at the western edge that flees from a target far to the east goes straight away from
it, over the edge, and comes out closer to it. -/
theorem getDistanceStep_edge :
    ((onTwoSquares ⟨0, 100, 7⟩ ⟨65535, 100, 7⟩).getDistanceStep inOrder ⟨40000, 100, 7⟩
        true).direction = some .west ∧
      (onTwoSquares ⟨0, 100, 7⟩ ⟨65535, 100, 7⟩).canWalkTo ⟨0, 100, 7⟩ .west = true ∧
      distance ⟨0, 100, 7⟩ ⟨40000, 100, 7⟩ = 40000 ∧
      distance (getNextPosition .west ⟨0, 100, 7⟩) ⟨40000, 100, 7⟩ = 25535 := by
  decide

end Bruxo.DistanceStep
