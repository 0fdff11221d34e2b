import Bruxo.Lib.AssocList
import Bruxo.Lib.Runs
import Bruxo.Position
import Mathlib.Data.List.Nodup
import Mathlib.Data.List.Perm.Subperm
import Mathlib.Logic.Function.Basic

/-!
# Spawns

`Spawn` (`spawn.cpp`) keeps for each of its blocks which monster it has, in a multimap, and looks
after the blocks that have none in a check that the scheduler calls. A monster that has wandered
off is kept under the id 0, so that its block is free. A check is asked for when a monster of the
spawn is removed, and by a check that leaves fewer monsters than blocks, but not by the startup.

The rest of the game is a state `σ` that is asked whether a player is near, for random numbers, by
the events and for places, and that may change between the steps.
-/

namespace Bruxo.Spawns

abbrev MonsterId := Nat

structure SpawnBlock (MonsterType : Type) where
  pos : Position := ⟨0, 0, 0⟩
  mTypes : List (MonsterType × UInt16) := []
  lastSpawn : Int := 0
  interval : UInt32 := 0

/-- `spawn` is whether the monster is of this spawn, `references` are those that the spawn has. -/
structure Monster where
  isRemoved : Bool
  position : Position
  spawn : Bool
  references : Int

/-- What the spawn asks the rest of the game. `placeCreature` gives the position of the tile that
was found. -/
structure Game (σ MonsterType : Type) where
  time : σ → Int
  findPlayer : σ → Position → Bool
  isIgnoringSpawnBlock : MonsterType → Bool
  normalRandom : σ → Int × σ
  eventMonsterOnSpawn : MonsterId → MonsterType → Position → Bool → σ → Bool × σ
  placeCreature : MonsterId → Position → Bool → σ → Option Position × σ
  rateSpawn : Int

abbrev SpawnedMap := List (Nat × MonsterId)

/-- `std::multimap::insert` -/
def insert (entry : Nat × MonsterId) (spawnedMap : SpawnedMap) : SpawnedMap :=
  spawnedMap.takeWhile (·.1 ≤ entry.1) ++ entry :: spawnedMap.dropWhile (·.1 ≤ entry.1)

/-- `checkSpawnEvent` is the delay of the event that is pending. -/
structure State (σ MonsterType : Type) where
  spawnedMap : SpawnedMap := []
  spawnMap : List (Nat × SpawnBlock MonsterType) := []
  centerPos : Position
  radius : Int
  interval : UInt32 := 60000
  checkSpawnEvent : Option UInt32 := none
  monster : MonsterId → Monster := fun _ => ⟨false, ⟨0, 0, 0⟩, false, 0⟩
  nextMonster : MonsterId := 0
  game : σ

def isInZone (centerPos : Position) (radius : Int) (pos : Position) : Bool :=
  if radius = -1 then true
  else
    let x : Int := pos.x.toNat
    let y : Int := pos.y.toNat
    x ≥ centerPos.x.toNat - radius && x ≤ centerPos.x.toNat + radius &&
      y ≥ centerPos.y.toNat - radius && y ≤ centerPos.y.toNat + radius

section Code

variable {σ MonsterType : Type} (game : Game σ MonsterType)

/-- `spawnMap[spawnId].lastSpawn = time` -/
def touch (spawnId : Nat) (time : Int) (spawnMap : List (Nat × SpawnBlock MonsterType)) :
    List (Nat × SpawnBlock MonsterType) :=
  AssocList.set spawnId { (AssocList.find spawnId spawnMap).getD {} with lastSpawn := time } spawnMap

namespace State

variable (s : State σ MonsterType)

def isInSpawnZone (pos : Position) : Bool := isInZone s.centerPos s.radius pos

def addBlock (sb : SpawnBlock MonsterType) : State σ MonsterType :=
  { s with
    interval := min s.interval sb.interval
    spawnMap := AssocList.set (s.spawnMap.length + 1) sb s.spawnMap }

def startSpawnCheck : State σ MonsterType :=
  if s.checkSpawnEvent = none then { s with checkSpawnEvent := some s.interval } else s

/-! ## Spawning -/

/-- What is left of a try: the game went on, and monsters were made. -/
def attempted (g : σ) (nextMonster : MonsterId) : State σ MonsterType :=
  { s with game := g, nextMonster }

/-- A new monster that was placed. -/
def register (spawnId : Nat) (monster : MonsterId) (position : Position) : State σ MonsterType :=
  { s with
    monster := Function.update s.monster monster ⟨false, position, true, 1⟩
    spawnedMap := insert (spawnId, monster) s.spawnedMap
    spawnMap := touch spawnId (game.time s.game) s.spawnMap }

/-- `spawnMonster` of a monster type. -/
def spawnMonsterType (spawnId : Nat) (mType : MonsterType) (pos : Position) (startup : Bool) :
    Bool × State σ MonsterType :=
  let monster := s.nextMonster
  let (ok, g) := game.eventMonsterOnSpawn monster mType pos startup s.game
  if !ok then (false, s.attempted g (monster + 1))
  else
    match game.placeCreature monster pos startup g with
    | (none, g) => (false, s.attempted g (monster + 1))
    | (some position, g) =>
        (true, (s.attempted g (monster + 1)).register game spawnId monster position)

/-- `spawnFunc`, with the number of types that are blocked. -/
def spawnFunc (spawnId : Nat) (pos : Position) (startup isBlocked roll : Bool) :
    List (MonsterType × UInt16) → Nat → State σ MonsterType → Bool × Nat × State σ MonsterType
  | [], blockedMonsters, s => (false, blockedMonsters, s)
  | (mType, chance) :: mTypes, blockedMonsters, s =>
      if isBlocked && !game.isIgnoringSpawnBlock mType then
        spawnFunc spawnId pos startup isBlocked roll mTypes (blockedMonsters + 1) s
      else if !roll then
        let (ok, s) := s.spawnMonsterType game spawnId mType pos startup
        (ok, blockedMonsters, s)
      else
        let (number, g) := game.normalRandom s.game
        let s := s.attempted g s.nextMonster
        if (chance.toNat : Int) ≥ number then
          let (ok, s) := s.spawnMonsterType game spawnId mType pos startup
          if ok then (true, blockedMonsters, s)
          else spawnFunc spawnId pos startup isBlocked roll mTypes blockedMonsters s
        else spawnFunc spawnId pos startup isBlocked roll mTypes blockedMonsters s

def spawnMonster (spawnId : Nat) (sb : SpawnBlock MonsterType) (startup : Bool) :
    Bool × State σ MonsterType :=
  let isBlocked := !startup && game.findPlayer s.game sb.pos
  let (ok, blockedMonsters, s) :=
    spawnFunc game spawnId sb.pos startup isBlocked (sb.mTypes.length > 1) sb.mTypes 0 s
  if ok then (true, s)
  else if sb.mTypes.length = blockedMonsters then (false, s)
  else
    let (ok, _, s) :=
      spawnFunc game spawnId sb.pos startup isBlocked false sb.mTypes blockedMonsters s
    (ok, s)

/-- The loop of `startup`, with the ids for which `spawnMonster` is true, which it does not look
at. -/
def spawnAll : List (Nat × SpawnBlock MonsterType) → State σ MonsterType →
    List Nat × State σ MonsterType
  | [], s => ([], s)
  | (spawnId, sb) :: blocks, s =>
      let (ok, s) := s.spawnMonster game spawnId sb true
      let (spawnIds, s) := spawnAll blocks s
      (if ok then spawnId :: spawnIds else spawnIds, s)

def startup : State σ MonsterType := (spawnAll game s.spawnMap s).2

/-! ## Checks -/

/-- What a monster that was removed leaves. -/
def release (spawnId : Nat) (id : MonsterId) : State σ MonsterType :=
  { s with
    spawnMap := if spawnId ≠ 0 then touch spawnId (game.time s.game) s.spawnMap else s.spawnMap
    monster := Function.update s.monster id
      { s.monster id with references := (s.monster id).references - 1 } }

/-- The loop of `cleanup`, where `visited` is what stands before the iterator. The id 0 comes
before it. -/
def cleanupFrom : SpawnedMap → SpawnedMap → State σ MonsterType → State σ MonsterType
  | visited, [], s => { s with spawnedMap := visited }
  | visited, (spawnId, id) :: rest, s =>
      let monster := s.monster id
      if monster.isRemoved then cleanupFrom visited rest (s.release game spawnId id)
      else if !s.isInSpawnZone monster.position && spawnId ≠ 0 then
        cleanupFrom (insert (0, id) visited) rest s
      else cleanupFrom (visited ++ [(spawnId, id)]) rest s

def cleanup : State σ MonsterType := cleanupFrom game [] s.spawnedMap s

/-- The loop of `checkSpawn`. -/
def checkBlocks : List (Nat × SpawnBlock MonsterType) → UInt32 → State σ MonsterType →
    State σ MonsterType
  | [], _, s => s
  | (spawnId, sb) :: blocks, spawnCount, s =>
      if s.spawnedMap.any (·.1 = spawnId) then checkBlocks blocks spawnCount s
      else if game.time s.game ≥ sb.lastSpawn + sb.interval.toNat then
        let (ok, s) := s.spawnMonster game spawnId sb false
        if !ok then
          checkBlocks blocks spawnCount
            { s with spawnMap := touch spawnId (game.time s.game) s.spawnMap }
        else if ((spawnCount + 1).toNat : Int) ≥ game.rateSpawn then s
        else checkBlocks blocks (spawnCount + 1) s
      else checkBlocks blocks spawnCount s

def checkSpawn : State σ MonsterType :=
  let s := { s with checkSpawnEvent := none }.cleanup game
  let s := checkBlocks game s.spawnMap 0 s
  if s.spawnedMap.length < s.spawnMap.length then { s with checkSpawnEvent := some s.interval }
  else s

/-! ## Runs -/

/-- `Game::removeCreature`, with `Monster::onRemoveCreature`; `handled` is what the script of the
type answers. -/
def removeCreature (id : MonsterId) (handled : Bool) : State σ MonsterType :=
  let monster := s.monster id
  if monster.isRemoved then s
  else
    let s := if !handled && monster.spawn then s.startSpawnCheck else s
    { s with monster := Function.update s.monster id { monster with isRemoved := true } }

inductive Op (σ : Type) where
  | checkSpawn
  | removeCreature (id : MonsterId) (handled : Bool)
  | moveCreature (id : MonsterId) (position : Position)
  | game (g : σ)

/-- A check is called when its event is pending. -/
def step (s : State σ MonsterType) : Op σ → State σ MonsterType
  | .checkSpawn => if s.checkSpawnEvent.isSome then s.checkSpawn game else s
  | .removeCreature id handled => s.removeCreature id handled
  | .moveCreature id position =>
      { s with monster := Function.update s.monster id { s.monster id with position } }
  | .game g => { s with game := g }

end State

end Code

end Bruxo.Spawns
