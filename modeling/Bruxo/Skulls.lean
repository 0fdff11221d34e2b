import Bruxo.Lib.Since
import Mathlib.Logic.Function.Basic
import Mathlib.Logic.Relation
import Mathlib.Tactic.Tauto

/-!
# Skulls

Who has attacked whom in a fight, the white skull of the one that began, and the ticks that an
unjustified kill adds, for which a player is given a red or a black skull (`player.cpp`; the
death of a player is of `creature.cpp`, the row in the database of `iologindata.cpp`).

A creature is checked every 250 milliseconds, which is no second to `checkSkullTicks`. So the
ticks fall while a player is away, and only then.
-/

namespace Bruxo.Skulls

open Relation Runs

inductive WorldType where
  | noPvp
  | pvp
  | pvpEnforced
  deriving DecidableEq, Repr

inductive Skull where
  | none
  | yellow
  | green
  | white
  | red
  | black
  deriving DecidableEq, Repr

def EVENT_CREATURE_THINK_INTERVAL : Int := 250

structure Config where
  worldType : WorldType
  fragTime : Int
  killsToRed : Int
  killsToBlack : Int
  whiteSkullTime : Int
  pzLocked : Int
  /-- The flag of the group of a player. -/
  notGainInFight : Nat → Bool

/-! ## The condition of a fight -/

structure InFight where
  ticks : Int
  endTime : Int
  deriving DecidableEq, Repr

namespace InFight

variable (now : Int)

def startCondition (ticks : Int) : InFight where
  ticks := ticks
  endTime := if 0 < ticks then now + ticks else 0

def updateCondition (c : InFight) (ticks : Int) : Bool :=
  if c.ticks = -1 ∧ 0 < ticks then false
  else if 0 ≤ ticks ∧ now + ticks < c.endTime then false
  else true

def addCondition (c : InFight) (ticks : Int) : InFight :=
  if c.updateCondition now ticks then ⟨ticks, now + ticks⟩ else c

def executeCondition (c : InFight) (interval : Int) : Bool × InFight :=
  if c.ticks = -1 then (true, c)
  else (decide (now ≤ c.endTime), { c with ticks := max 0 (c.ticks - interval) })

def isPersistent (c : InFight) : Bool := decide (c.ticks ≠ -1)

end InFight

/-! ## Players -/

inductive Creature where
  | player (guid : Nat)
  | monster (id : Nat)
  | summon (id : Nat) (master : Creature)
  deriving DecidableEq, Repr

/-- What the ticks of a player come from. -/
inductive Deed where
  | murder (victim : Nat)
  | away (seconds : Int)
  deriving DecidableEq, Repr

/-- What `savePlayer` has written. -/
structure Row where
  skulltime : Int
  skull : Skull
  /-- The ticks of the condition, if it was stored. -/
  condition : Option Int
  savedAt : Int
  deriving DecidableEq, Repr

structure Player where
  online : Bool
  skull : Skull
  skullTicks : Int
  /-- By guid. -/
  attackedSet : List Nat
  pzLocked : Bool
  inFight : Option InFight
  skillLoss : Bool
  row : Row
  /-- The newest first. -/
  past : List Deed

/-- What an action reads of the map, the parties and the guilds. -/
structure Scene where
  /-- `getZone() == ZONE_PVP` -/
  zonePvp : Creature → Bool
  party : Nat → Option Nat
  guild : Nat → Option Nat
  guildWarVector : Nat → List Nat
  /-- Of `CONDITION_INFIGHT`. -/
  isSuppress : Nat → Bool

namespace Scene

variable (sc : Scene) (this player : Nat)

def isPartner : Bool :=
  decide (player ≠ this ∧ (sc.party this).isSome ∧ sc.party this = sc.party player)

def isGuildMate : Bool :=
  decide ((sc.guild this).isSome ∧ sc.guild this = sc.guild player)

def isInWar : Bool :=
  match sc.guild this, sc.guild player with
  | some guild, some playerGuild =>
      decide (playerGuild ∈ sc.guildWarVector this ∧ guild ∈ sc.guildWarVector player)
  | _, _ => false

def isInPvpZone (attacker target : Creature) : Bool := sc.zonePvp attacker && sc.zonePvp target

end Scene

structure World where
  /-- In milliseconds. -/
  now : Int
  players : Nat → Player

namespace World

def update (w : World) (guid : Nat) (f : Player → Player) : World :=
  { w with players := Function.update w.players guid (f (w.players guid)) }

/-- `time(nullptr)` -/
def time (w : World) : Int := w.now / 1000

end World

/-! ## The functions of a player -/

namespace Player

variable (cfg : Config) (now : Int)

def addCondition (ticks : Int) (p : Player) : Player :=
  { p with
    inFight := some (match p.inFight with
      | none => .startCondition now ticks
      | some c => c.addCondition now ticks) }

/-- `onEndCondition` of the fight. -/
def onEndCondition (notGainInFight : Bool) (p : Player) : Player :=
  let p := { p with inFight := none, pzLocked := false, attackedSet := [] }
  if notGainInFight ∨ p.skull ≠ .red ∧ p.skull ≠ .black then { p with skull := .none } else p

def executeConditions (notGainInFight : Bool) (interval : Int) (p : Player) : Player :=
  match p.inFight with
  | none => p
  | some c =>
      match c.executeCondition now interval with
      | (true, c) => { p with inFight := some c }
      | (false, _) => p.onEndCondition notGainInFight

def hasCondition (isSuppress : Bool) (p : Player) : Bool :=
  !isSuppress && p.inFight.any fun c => decide (now ≤ c.endTime ∨ c.ticks = -1)

def checkSkullTicks (isSuppress : Bool) (ticks : Int) (p : Player) : Player :=
  let newTicks := p.skullTicks - ticks
  let p := { p with skullTicks := if newTicks < 0 then 0 else newTicks }
  if (p.skull = .red ∨ p.skull = .black) ∧ p.skullTicks < 1 ∧ ¬ p.hasCondition now isSuppress then
    { p with skull := .none }
  else p

/-- The end of `onThink`. -/
def onThink (isSuppress : Bool) (interval : Int) (p : Player) : Player :=
  if cfg.worldType ≠ .pvpEnforced then p.checkSkullTicks now isSuppress (interval / 1000) else p

/-- The part of `addUnjustifiedDead` behind its guard. -/
def addFrag (attacked : Nat) (p : Player) : Player :=
  let p := { p with skullTicks := p.skullTicks + cfg.fragTime, past := .murder attacked :: p.past }
  if p.skull ≠ .black then
    if cfg.killsToBlack ≠ 0 ∧ (cfg.killsToBlack - 1) * cfg.fragTime < p.skullTicks then
      { p with skull := .black }
    else if p.skull ≠ .red ∧ cfg.killsToRed ≠ 0 ∧
        (cfg.killsToRed - 1) * cfg.fragTime < p.skullTicks then
      { p with skull := .red }
    else p
  else p

/-- The conditions that the death of a player takes are the persistent ones. -/
def endConditions (notGainInFight : Bool) (p : Player) : Player :=
  if p.inFight.any InFight.isPersistent then p.onEndCondition notGainInFight else p

def death (notGainInFight isSuppress : Bool) (p : Player) : Player :=
  if p.skillLoss then p.endConditions notGainInFight
  else
    ({ p with skillLoss := true }.endConditions notGainInFight).onThink cfg now isSuppress
      EVENT_CREATURE_THINK_INTERVAL

/-- `savePlayer`; a world with enforced fights leaves the skull in the row as it is. -/
def savePlayer (time : Int) (p : Player) : Player :=
  let skulltime := if 0 < p.skullTicks then time + p.skullTicks else 0
  let skull := if p.skull = .red ∨ p.skull = .black then p.skull else .none
  { p with
    online := false
    row :=
      { skulltime := if cfg.worldType ≠ .pvpEnforced then skulltime else p.row.skulltime
        skull := if cfg.worldType ≠ .pvpEnforced then skull else p.row.skull
        condition := (p.inFight.filter InFight.isPersistent).map InFight.ticks
        savedAt := time } }

/-- `loadPlayer`, into a new object. -/
def loadPlayer (time : Int) (p : Player) : Player :=
  let skullSeconds := p.row.skulltime - time
  let skulled := cfg.worldType ≠ .pvpEnforced ∧ 0 < skullSeconds
  { online := true
    skullTicks := if skulled then skullSeconds + 2 else 0
    skull := if skulled ∧ (p.row.skull = .red ∨ p.row.skull = .black) then p.row.skull else .none
    attackedSet := []
    pzLocked := false
    inFight := p.row.condition.map (.startCondition now)
    skillLoss := true
    row := p.row
    past := .away (time - p.row.savedAt) :: p.past }

end Player

/-! ## Fights between players -/

namespace World

variable (cfg : Config) (sc : Scene)

def getSkull (w : World) (this : Nat) : Skull :=
  if cfg.notGainInFight this then .none else (w.players this).skull

def hasAttacked (w : World) (this attacked : Nat) : Bool :=
  !cfg.notGainInFight this && decide (attacked ∈ (w.players this).attackedSet)

def addAttacked (w : World) (this attacked : Nat) : World :=
  if cfg.notGainInFight this ∨ attacked = this then w
  else w.update this fun p => { p with attackedSet := p.attackedSet.insert attacked }

def removeAttacked (w : World) (this attacked : Nat) : World :=
  if attacked = this then w
  else w.update this fun p => { p with attackedSet := p.attackedSet.filter (· ≠ attacked) }

def getSkullClient (w : World) (this player : Nat) : Skull :=
  if cfg.worldType ≠ .pvp then .none
  else if w.getSkull cfg player ≠ .none then w.getSkull cfg player
  else if w.hasAttacked cfg player this then .yellow
  else if sc.isPartner this player then .green
  else w.getSkull cfg player

def addInFightTicks (w : World) (this : Nat) (pzlock : Bool) : World :=
  if cfg.notGainInFight this then w
  else w.update this fun p =>
    { p with pzLocked := p.pzLocked || pzlock }.addCondition w.now cfg.pzLocked

def lockPz (w : World) (this : Nat) (lock : Bool) : World :=
  if lock then w.update this fun p => { p with pzLocked := true } else w

def setWhite (w : World) (this target : Nat) : World :=
  if w.getSkull cfg target = .none ∧ w.getSkull cfg this = .none then
    w.update this fun p => { p with skull := .white }
  else w

/-- What `onAttackedCreature` does to a player that is neither a partner nor a guild mate. -/
def onAttackedPlayer (w : World) (this target : Nat) : World :=
  let w := (w.lockPz this (cfg.worldType = .pvpEnforced)).addInFightTicks cfg target false
  if w.getSkull cfg this = .none ∧ w.getSkullClient cfg sc this target = .yellow then
    w.addAttacked cfg this target
  else if w.hasAttacked cfg target this then w
  else
    let w := w.lockPz this (cfg.worldType ≠ .pvpEnforced)
    if ¬ sc.isInPvpZone (.player this) (.player target) ∧ ¬ sc.isInWar this target then
      (w.addAttacked cfg this target).setWhite cfg this target
    else w

/-- The callers all leave `addFightTicks` true. -/
def onAttackedCreature (w : World) (this : Nat) (target : Creature) : World :=
  if sc.zonePvp target then w
  else if target = .player this then w.addInFightTicks cfg this false
  else if cfg.notGainInFight this then w
  else
    match target with
    | .player target =>
        (if ¬ sc.isPartner this target ∧ ¬ sc.isGuildMate this target then
          w.onAttackedPlayer cfg sc this target
        else w).addInFightTicks cfg this false
    | _ => w.addInFightTicks cfg this false

def addUnjustifiedDead (w : World) (this attacked : Nat) : World :=
  if cfg.notGainInFight this ∨ attacked = this ∨ cfg.worldType = .pvpEnforced then w
  else w.update this fun p => p.addFrag cfg attacked

/-- The fight of a killer lasts longer. -/
def prolong (w : World) (this : Nat) (lastHit : Bool) : World :=
  if lastHit ∧ (w.players this).hasCondition w.now (sc.isSuppress this) then
    w.update this fun p =>
      { p with pzLocked := true }.addCondition w.now (cfg.whiteSkullTime * 1000)
  else w

/-- The victim of a fight in a zone for it loses no skills. -/
def spare (w : World) (target : Nat) : World :=
  w.update target fun p => { p with skillLoss := false }

/-- The guard of what a kill costs the killer. -/
def isAggressor (w : World) (this target : Nat) : Bool :=
  !sc.isInPvpZone (.player this) (.player target) && w.hasAttacked cfg this target &&
    !w.hasAttacked cfg target this && !sc.isGuildMate this target && decide (target ≠ this)

/-- `Player::onKilledCreature` -/
def onKilledPlayer (w : World) (this target : Nat) (lastHit : Bool) : World × Bool :=
  if sc.zonePvp (.player target) then (w.spare target, false)
  else if ¬ cfg.notGainInFight this ∧ ¬ sc.isPartner this target ∧
      w.isAggressor cfg sc this target then
    if w.getSkull cfg target = .none ∧ ¬ sc.isInWar this target then
      ((w.addUnjustifiedDead cfg this target).prolong cfg sc this lastHit, true)
    else (w.prolong cfg sc this lastHit, false)
  else (w, false)

/-- The master of a summon is told of a kill as of a last hit. -/
def onKilledCreature (target : Nat) : Creature → Bool → World → World × Bool
  | .player this, lastHit, w => w.onKilledPlayer cfg sc this target lastHit
  | .monster _, _, w => (w, false)
  | .summon _ master, _, w => ((onKilledCreature target master true w).1, false)

end World

def Creature.getMaster : Creature → Option Creature
  | .summon _ master => some master
  | _ => none

/-- An entry of the damage map, of a creature that is still there. -/
structure Damage where
  attacker : Creature
  total : Int
  ticks : Int

/-- The creature that has done most, of those that did it lately. -/
def mostDamageCreature (pzLocked now : Int) (damageMap : List Damage) : Option Creature :=
  (damageMap.foldl (fun (most : Int × Option Creature) d =>
    if most.1 < d.total ∧ now - d.ticks ≤ pzLocked then (d.total, some d.attacker) else most)
    (0, none)).2

/-- Whether it is told of the death too, beside the one of the last hit. -/
def tells (lastHit : Option Creature) (most : Creature) : Bool :=
  let lastHitMaster := lastHit.bind Creature.getMaster
  decide (some most ≠ lastHit ∧ some most ≠ lastHitMaster) &&
    decide (lastHit ≠ most.getMaster ∧
      (lastHitMaster = none ∨ most.getMaster ≠ lastHitMaster))

namespace World

variable (cfg : Config) (sc : Scene)

/-- The attackers that are players forget the victim. -/
def forget (w : World) (victim : Nat) (damageMap : List Damage) : World :=
  damageMap.foldl (fun w d =>
    match d.attacker with
    | .player attacker => w.removeAttacked attacker victim
    | _ => w) w

def lastHitKilled (w : World) (victim : Nat) : Option Creature → World × Bool
  | some c => w.onKilledCreature cfg sc victim c true
  | none => (w, false)

def mostDamageKilled (w : World) (victim : Nat) (lastHit : Option Creature)
    (damageMap : List Damage) : World × Bool :=
  match mostDamageCreature cfg.pzLocked w.now damageMap with
  | some c => if tells lastHit c then w.onKilledCreature cfg sc victim c false else (w, false)
  | none => (w, false)

/-- `Creature::onDeath` of a player, with whether the kill was unjustified for the last hit and for
the most damage. -/
def onDeath (w : World) (victim : Nat) (lastHit : Option Creature) (damageMap : List Damage) :
    World × Bool × Bool :=
  let hit := w.lastHitKilled cfg sc victim lastHit
  let most := (hit.1.forget victim damageMap).mostDamageKilled cfg sc victim lastHit damageMap
  (most.1.update victim fun p =>
    p.death cfg w.now (cfg.notGainInFight victim) (sc.isSuppress victim), hit.2, most.2)

/-- `checkCreatures`, for one of them. -/
def checkCreature (w : World) (this : Nat) : World :=
  w.update this fun p =>
    (p.onThink cfg w.now (sc.isSuppress this) EVENT_CREATURE_THINK_INTERVAL).executeConditions w.now
      (cfg.notGainInFight this) EVENT_CREATURE_THINK_INTERVAL

end World

inductive Action where
  | wait (milliseconds : Nat)
  | onAttackedCreature (sc : Scene) (this : Nat) (target : Creature)
  /-- By `onAttacked`, and by spells. -/
  | addInFightTicks (this : Nat) (pzlock : Bool)
  | onDeath (sc : Scene) (victim : Nat) (lastHit : Option Creature) (damageMap : List Damage)
  | checkCreature (sc : Scene) (this : Nat)
  | logout (this : Nat)
  | login (this : Nat)

def Creature.guid : Creature → Option Nat
  | .player guid => some guid
  | .monster _ => none
  | .summon _ master => master.guid

/-- The players that must be online for it. -/
def Action.players : Action → List Nat
  | .onAttackedCreature _ this target => this :: target.guid.toList
  | .addInFightTicks this _ => [this]
  | .onDeath _ victim lastHit damageMap =>
      victim :: ((lastHit.toList ++ damageMap.map Damage.attacker).filterMap Creature.guid)
  | .checkCreature _ this => [this]
  | .logout this => [this]
  | _ => []

namespace World

variable (cfg : Config)

def act (w : World) : Action → World
  | .wait milliseconds => { w with now := w.now + milliseconds }
  | .onAttackedCreature sc this target => w.onAttackedCreature cfg sc this target
  | .addInFightTicks this pzlock => w.addInFightTicks cfg this pzlock
  | .onDeath sc victim lastHit damageMap => (w.onDeath cfg sc victim lastHit damageMap).1
  | .checkCreature sc this => w.checkCreature cfg sc this
  | .logout this => w.update this fun p => p.savePlayer cfg w.time
  | .login this =>
      if (w.players this).online then w
      else w.update this fun p => p.loadPlayer cfg w.now w.time

def step (w : World) (a : Action) : World :=
  if ∀ guid ∈ a.players, (w.players guid).online then w.act cfg a else w

/-- Nobody is online, and nobody has a skull in the database. -/
def init (now : Int) : World where
  now := now
  players := fun _ =>
    { online := false
      skull := .none
      skullTicks := 0
      attackedSet := []
      pzLocked := false
      inFight := none
      skillLoss := true
      row := ⟨0, .none, none, now / 1000⟩
      past := [] }

end World

/-! ## Unjustified kills -/

def Able (w : World) (a : Action) : Prop := ∀ guid ∈ a.players, (w.players guid).online

/-- The kill is charged: the killer has attacked a player without a skull that has not attacked
him, is no partner, guild mate or enemy in a war, and is in no zone for fights. -/
def Unjustified (cfg : Config) (sc : Scene) (w : World) (this victim : Nat) : Prop :=
  sc.zonePvp (.player victim) = false ∧ victim ≠ this ∧ sc.isPartner this victim = false ∧
    sc.isGuildMate this victim = false ∧ sc.isInWar this victim = false ∧
    w.getSkull cfg victim = .none ∧ w.hasAttacked cfg this victim = true ∧
    w.hasAttacked cfg victim this = false

/-- The killer, or the master of the summon, has the last hit; or a summon of his has done most,
and he himself has done nothing. -/
def Murders (cfg : Config) (w : World) (a : Action) (this victim : Nat) : Prop :=
  ∃ sc lastHit damageMap, a = .onDeath sc victim lastHit damageMap ∧ Able w a ∧
    Unjustified cfg sc w this victim ∧
    (lastHit.bind Creature.guid = some this ∨
      (mostDamageCreature cfg.pzLocked w.now damageMap).bind Creature.guid = some this ∧
        .player this ∉ damageMap.map Damage.attacker)

/-! ## What the actions change -/

section Update

variable (w : World) (f : Player → Player) {guid other : Nat}

@[simp] theorem update_self : (w.update guid f).players guid = f (w.players guid) :=
  Function.update_self ..

theorem update_of_ne (h : other ≠ guid) : (w.update guid f).players other = w.players other :=
  Function.update_of_ne h ..

end Update

/-- A change of one player, who may be charged with the kills of `charged`; unless all is calm,
his set may change too, and his fight end. -/
inductive Change (cfg : Config) (charged : Nat → Nat → Prop) (calm : Bool) (guid : Nat)
    (p : Player) : Player → Prop
  | fight (pzLocked : Bool) (c : InFight) :
      Change cfg charged calm guid p { p with pzLocked := pzLocked, inFight := some c }
  | apart (pzLocked skillLoss : Bool) :
      Change cfg charged calm guid p { p with pzLocked := pzLocked, skillLoss := skillLoss }
  | white (hflag : cfg.notGainInFight guid = false) (hskull : p.skull = .none) :
      Change cfg charged calm guid p { p with skull := .white }
  | frag {victim : Nat} (h : charged guid victim) :
      Change cfg charged calm guid p (p.addFrag cfg victim)
  | attacked (h : calm = false) (attackedSet : List Nat) :
      Change cfg charged calm guid p { p with attackedSet := attackedSet }
  | think (h : calm = false) (now : Int) (isSuppress : Bool) : Change cfg charged calm guid p
      (p.onThink cfg now isSuppress EVENT_CREATURE_THINK_INTERVAL)
  | ended (h : calm = false) :
      Change cfg charged calm guid p (p.onEndCondition (cfg.notGainInFight guid))

structure Changes (cfg : Config) (charged : Nat → Nat → Prop) (calm : Bool) (w w' : World) :
    Prop where
  now : w'.now = w.now
  players : ∀ guid, ReflTransGen (Change cfg charged calm guid) (w.players guid) (w'.players guid)

section Changes

variable {cfg : Config} {sc : Scene} {charged : Nat → Nat → Prop} {calm : Bool}
  {w w' w'' : World} {this target : Nat} {f : Player → Player}

theorem Changes.refl (w : World) : Changes cfg charged calm w w := ⟨rfl, fun _ => .refl⟩

theorem Changes.trans (h : Changes cfg charged calm w w') (h' : Changes cfg charged calm w' w'') :
    Changes cfg charged calm w w'' :=
  ⟨h'.now.trans h.now, fun guid => (h.players guid).trans (h'.players guid)⟩

theorem Changes.ite {c : Prop} [Decidable c] (h : c → Changes cfg charged calm w w')
    (h' : ¬ c → Changes cfg charged calm w w'') :
    Changes cfg charged calm w (if c then w' else w'') := by
  split
  · exact h ‹_›
  · exact h' ‹_›

theorem Changes.chain (h : ReflTransGen (Change cfg charged calm this) (w.players this)
    (f (w.players this))) : Changes cfg charged calm w (w.update this f) := by
  refine ⟨rfl, fun guid => ?_⟩
  rcases eq_or_ne guid this with rfl | hne
  · rw [update_self]
    exact h
  · rw [update_of_ne w f hne]

theorem Changes.update (h : Change cfg charged calm this (w.players this) (f (w.players this))) :
    Changes cfg charged calm w (w.update this f) := .chain (.single h)

theorem Changes.mono (h : Changes cfg charged calm w w') : Changes cfg charged false w w' := by
  refine ⟨h.now, fun guid => ReflTransGen.mono (fun p p' hp => ?_) _ _ (h.players guid)⟩
  cases hp with
  | fight pzLocked c => exact .fight pzLocked c
  | apart pzLocked skillLoss => exact .apart pzLocked skillLoss
  | white hflag hskull => exact .white hflag hskull
  | frag h => exact .frag h
  | attacked _ attackedSet => exact .attacked rfl attackedSet
  | think _ now isSuppress => exact .think rfl now isSuppress
  | ended _ => exact .ended rfl

/-! ### Attacks -/

theorem changes_addInFightTicks (w : World) (this : Nat) (pzlock : Bool) :
    Changes cfg charged calm w (w.addInFightTicks cfg this pzlock) :=
  .ite (fun _ => .refl w) fun _ => .update (.fight _ _)

theorem changes_lockPz (w : World) (this : Nat) (lock : Bool) :
    Changes cfg charged calm w (w.lockPz this lock) :=
  .ite (fun _ => .update (.apart true _)) fun _ => .refl w

theorem changes_setWhite (hflag : cfg.notGainInFight this = false) (w : World) (target : Nat) :
    Changes cfg charged calm w (w.setWhite cfg this target) := by
  refine .ite (fun hnone => .update (.white hflag ?_)) fun _ => .refl w
  have hskull := hnone.2
  rwa [World.getSkull, hflag, if_neg Bool.false_ne_true] at hskull

theorem changes_addAttacked (w : World) (this attacked : Nat) :
    Changes cfg charged false w (w.addAttacked cfg this attacked) :=
  .ite (fun _ => .refl w) fun _ => .update (.attacked rfl _)

theorem changes_onAttackedPlayer (hflag : cfg.notGainInFight this = false) (w : World)
    (target : Nat) : Changes cfg charged false w (w.onAttackedPlayer cfg sc this target) := by
  rw [World.onAttackedPlayer]
  refine .trans (changes_lockPz w this (cfg.worldType = .pvpEnforced)) ?_
  refine .trans (@changes_addInFightTicks cfg _ _ _ target false) ?_
  refine .ite (fun _ => changes_addAttacked _ this target) fun _ => .ite (fun _ => .refl _) fun _ => ?_
  refine .trans (changes_lockPz _ this (cfg.worldType ≠ .pvpEnforced)) ?_
  refine .ite (fun _ => ?_) fun _ => .refl _
  exact (changes_addAttacked _ this target).trans (changes_setWhite hflag _ target)

theorem changes_onAttackedCreature (w : World) (this : Nat) (target : Creature) :
    Changes cfg charged false w (w.onAttackedCreature cfg sc this target) := by
  unfold World.onAttackedCreature
  refine .ite (fun _ => .refl w) fun _ => .ite (fun _ => changes_addInFightTicks w this false)
    fun _ => .ite (fun _ => .refl w) fun hflag => ?_
  cases target with
  | player target =>
      refine .trans (.ite (fun _ => ?_) fun _ => .refl w) (changes_addInFightTicks _ this false)
      exact changes_onAttackedPlayer (by simpa using hflag) w target
  | monster id => exact changes_addInFightTicks w this false
  | summon id master => exact changes_addInFightTicks w this false

/-! ### Kills -/

theorem changes_prolong (w : World) (this : Nat) (lastHit : Bool) :
    Changes cfg charged calm w (w.prolong cfg sc this lastHit) :=
  .ite (fun _ => .update (.fight _ _)) fun _ => .refl w

theorem changes_spare (w : World) (target : Nat) : Changes cfg charged calm w (w.spare target) :=
  .update (.apart _ false)

theorem hasAttacked_congr {guid : Nat}
    (h : (w'.players guid).attackedSet = (w.players guid).attackedSet) (attacked : Nat) :
    w'.hasAttacked cfg guid attacked = w.hasAttacked cfg guid attacked := by
  rw [World.hasAttacked, World.hasAttacked, h]

theorem changes_onKilledPlayer (w : World) (this target : Nat) (lastHit : Bool)
    (hcharged : Unjustified cfg sc w this target → charged this target) :
    Changes cfg charged calm w (w.onKilledPlayer cfg sc this target lastHit).1 := by
  rw [World.onKilledPlayer]
  split
  · exact changes_spare w target
  · rename_i hzone
    split
    · rename_i haggressor
      simp only [World.isAggressor, Bool.and_eq_true, Bool.not_eq_true',
        decide_eq_true_eq] at haggressor
      obtain ⟨-, hpartner, ⟨⟨⟨-, hattacked⟩, hnot⟩, hmate⟩, hne⟩ := haggressor
      split
      · rename_i hcond
        refine .trans (.ite (fun _ => .refl w) fun _ => .update (.frag (hcharged ?_)))
          (changes_prolong _ this lastHit)
        exact ⟨by simpa using hzone, hne, by simpa using hpartner, hmate, by simpa using hcond.2,
          hcond.1, hattacked, hnot⟩
      · exact changes_prolong w this lastHit
    · exact .refl w

theorem changes_onKilledCreature (w : World) (c : Creature) (target : Nat) (lastHit : Bool)
    (hcharged : ∀ guid, c.guid = some guid → Unjustified cfg sc w guid target →
      charged guid target) :
    Changes cfg charged calm w (w.onKilledCreature cfg sc target c lastHit).1 := by
  induction c generalizing lastHit with
  | player this => exact changes_onKilledPlayer w this target lastHit (hcharged this rfl)
  | monster id => exact .refl w
  | summon id master ih => exact ih true hcharged

theorem changes_lastHitKilled (w : World) (victim : Nat) (lastHit : Option Creature)
    (hcharged : ∀ guid, lastHit.bind Creature.guid = some guid →
      Unjustified cfg sc w guid victim → charged guid victim) :
    Changes cfg charged calm w (w.lastHitKilled cfg sc victim lastHit).1 := by
  cases lastHit with
  | none => exact .refl w
  | some c => exact changes_onKilledCreature w c victim true hcharged

theorem changes_mostDamageKilled (w : World) (victim : Nat) (lastHit : Option Creature)
    (damageMap : List Damage) (hcharged : ∀ guid,
      (mostDamageCreature cfg.pzLocked w.now damageMap).bind Creature.guid = some guid →
      Unjustified cfg sc w guid victim → charged guid victim) :
    Changes cfg charged calm w (w.mostDamageKilled cfg sc victim lastHit damageMap).1 := by
  rw [World.mostDamageKilled]
  split
  · rename_i c hmost
    rw [hmost] at hcharged
    split
    · exact changes_onKilledCreature w c victim false hcharged
    · exact .refl w
  · exact .refl w

/-- Of the attackers that are players, the sets lose the victim. -/
theorem forget_spec (cfg : Config) (charged : Nat → Nat → Prop) (w : World) (victim : Nat)
    (damageMap : List Damage) :
    Changes cfg charged false w (w.forget victim damageMap) ∧
      (∀ guid attacked, attacked ∈ ((w.forget victim damageMap).players guid).attackedSet ↔
        attacked ∈ (w.players guid).attackedSet ∧ ¬ (attacked = victim ∧ guid ≠ victim ∧
          .player guid ∈ damageMap.map Damage.attacker)) ∧
      ∀ guid, ((w.forget victim damageMap).players guid).inFight = (w.players guid).inFight ∧
        ((w.forget victim damageMap).players guid).skull = (w.players guid).skull := by
  rw [World.forget]
  induction damageMap generalizing w with
  | nil => exact ⟨.refl w, by simp, fun _ => ⟨rfl, rfl⟩⟩
  | cons d damageMap ih =>
      rw [List.foldl_cons]
      cases hd : d.attacker with
      | monster id => simpa [hd] using ih w
      | summon id master => simpa [hd] using ih w
      | player attacker =>
          obtain ⟨hchanges, hset, hrest⟩ := ih (w.removeAttacked attacker victim)
          refine ⟨.trans (.ite (fun _ => .refl w) fun _ => .update (.attacked rfl _)) hchanges, ?_, ?_⟩
          · intro guid attacked
            rw [hset, List.map_cons, List.mem_cons, hd, World.removeAttacked]
            rcases eq_or_ne victim attacker with rfl | hne
            · rw [if_pos rfl]
              simp only [Creature.player.injEq]
              tauto
            · rw [if_neg hne]
              rcases eq_or_ne guid attacker with rfl | hguid
              · rw [update_self, List.mem_filter]
                simp only [decide_eq_true_eq, true_or, and_true, hne.symm, ne_eq, not_false_eq_true]
                tauto
              · rw [update_of_ne w _ hguid]
                simp only [Creature.player.injEq, hguid, false_or]
          · intro guid
            obtain ⟨hfight, hskull⟩ := hrest guid
            rw [hfight, hskull, World.removeAttacked]
            split
            · exact ⟨rfl, rfl⟩
            · rcases eq_or_ne guid attacker with rfl | hguid
              · rw [update_self]
                exact ⟨rfl, rfl⟩
              · rw [update_of_ne w _ hguid]
                exact ⟨rfl, rfl⟩

theorem addFrag_frame (attacked : Nat) (p : Player) :
    p.addFrag cfg attacked = { p with
      skull := (p.addFrag cfg attacked).skull
      skullTicks := p.skullTicks + cfg.fragTime
      past := .murder attacked :: p.past } ∧
    ((p.addFrag cfg attacked).skull = .none → p.skull = .none) := by
  rw [Player.addFrag]
  dsimp only
  split
  · split
    · exact ⟨rfl, fun h => by cases h⟩
    · split
      · exact ⟨rfl, fun h => by cases h⟩
      · exact ⟨rfl, id⟩
  · exact ⟨rfl, id⟩

/-- While all is calm the sets stay, no fight ends and no skull is lost. -/
theorem Changes.same (h : Changes cfg charged true w w') (guid : Nat) :
    (w'.players guid).attackedSet = (w.players guid).attackedSet ∧
      ((w.players guid).inFight.isSome → (w'.players guid).inFight.isSome) ∧
      ((w'.players guid).skull = .none → (w.players guid).skull = .none) := by
  have hchain := h.players guid
  revert hchain
  generalize w'.players guid = p'
  intro hchain
  induction hchain with
  | refl => exact ⟨rfl, id, id⟩
  | tail _ hlast ih =>
      obtain ⟨hset, hfight, hskull⟩ := ih
      cases hlast with
      | fight pzLocked c => exact ⟨hset, fun _ => rfl, hskull⟩
      | apart pzLocked skillLoss => exact ⟨hset, hfight, hskull⟩
      | white _ hnone => exact ⟨hset, hfight, fun h => by cases h⟩
      | frag _ =>
          obtain ⟨hframe, hnone⟩ := @addFrag_frame cfg _ _
          refine ⟨?_, ?_, hskull ∘ hnone⟩
          · rw [hframe]
            exact hset
          · rw [hframe]
            exact hfight
      | attacked h _ => cases h
      | think h _ _ => cases h
      | ended h => cases h

/-- What is so once the attackers have forgotten the victim was so before, and the killer is none
of them. -/
theorem unjustified_of_forget {victim : Nat} {damageMap : List Damage}
    (hcalm : Changes cfg charged true w w')
    (h : Unjustified cfg sc (w'.forget victim damageMap) this victim) :
    Unjustified cfg sc w this victim ∧ .player this ∉ damageMap.map Damage.attacker := by
  obtain ⟨-, hmem, hrest⟩ := forget_spec cfg charged w' victim damageMap
  obtain ⟨hzone, hne, hpartner, hmate, hwar, hskull, hattacked, hnot⟩ := h
  rw [World.hasAttacked, Bool.and_eq_true, decide_eq_true_eq, hmem,
    (hcalm.same this).1] at hattacked
  refine ⟨⟨hzone, hne, hpartner, hmate, hwar, ?_, ?_, ?_⟩, fun hin => ?_⟩
  · rw [World.getSkull, (hrest victim).2] at hskull
    rw [World.getSkull]
    split
    · rfl
    · rename_i hflag
      rw [if_neg hflag] at hskull
      exact (hcalm.same victim).2.2 hskull
  · rw [World.hasAttacked, Bool.and_eq_true, decide_eq_true_eq]
    exact ⟨hattacked.1, hattacked.2.1⟩
  · rw [World.hasAttacked, Bool.and_eq_false_iff, decide_eq_false_iff_not] at hnot ⊢
    refine hnot.imp id fun hnot hin => hnot ?_
    rw [hmem, (hcalm.same victim).1]
    exact ⟨hin, fun h => hne h.1.symm⟩
  · exact hattacked.2.2 ⟨rfl, hne.symm, hin⟩

/-! ### The checks and the end of a fight -/

theorem change_endConditions (p : Player) : ReflTransGen (Change cfg charged false this) p
    (p.endConditions (cfg.notGainInFight this)) := by
  rw [Player.endConditions]
  split
  · exact .single (.ended rfl)
  · exact .refl

theorem change_death (now : Int) (isSuppress : Bool) (p : Player) :
    ReflTransGen (Change cfg charged false this) p
      (p.death cfg now (cfg.notGainInFight this) isSuppress) := by
  rw [Player.death]
  split
  · exact change_endConditions p
  · refine .tail (.trans (.single ?_) (change_endConditions _)) (.think rfl now isSuppress)
    exact .apart p.pzLocked true

theorem changes_checkCreature (w : World) (this : Nat) :
    Changes cfg charged false w (w.checkCreature cfg sc this) := by
  refine .chain (.trans (.single (.think rfl w.now (sc.isSuppress this))) ?_)
  rw [Player.executeConditions]
  split
  · exact .refl
  · split
    · exact .single (.fight _ _)
    · exact .single (.ended rfl)

theorem changes_onDeath (w : World) (victim : Nat) (lastHit : Option Creature)
    (damageMap : List Damage) (hcharged : ∀ guid, Unjustified cfg sc w guid victim →
      (lastHit.bind Creature.guid = some guid ∨
        (mostDamageCreature cfg.pzLocked w.now damageMap).bind Creature.guid = some guid ∧
          .player guid ∉ damageMap.map Damage.attacker) → charged guid victim) :
    Changes cfg charged false w (w.onDeath cfg sc victim lastHit damageMap).1 := by
  have hhit : Changes cfg charged true w (w.lastHitKilled cfg sc victim lastHit).1 :=
    changes_lastHitKilled w victim lastHit fun guid hguid h => hcharged guid h (.inl hguid)
  have hforget := (forget_spec cfg charged
    (w.lastHitKilled cfg sc victim lastHit).1 victim damageMap).1
  have hmost := @changes_mostDamageKilled cfg sc charged false
    ((w.lastHitKilled cfg sc victim lastHit).1.forget victim damageMap) victim lastHit damageMap
    fun guid hguid h => by
      rw [hforget.now, hhit.now] at hguid
      obtain ⟨hunjust, hnone⟩ := unjustified_of_forget hhit h
      exact hcharged guid hunjust (.inr ⟨hguid, hnone⟩)
  exact (hhit.mono.trans (hforget.trans hmost)).trans
    (.chain (change_death w.now (sc.isSuppress victim) _))

/-- Within a moment, who is charged has murdered. -/
theorem changes_act {a : Action} (hable : Able w a) (hwait : ∀ n, a ≠ .wait n)
    (hlogout : ∀ guid, a ≠ .logout guid) (hlogin : ∀ guid, a ≠ .login guid) :
    Changes cfg (Murders cfg w a) false w (w.act cfg a) := by
  cases a with
  | wait milliseconds => exact absurd rfl (hwait milliseconds)
  | onAttackedCreature sc this target => exact changes_onAttackedCreature w this target
  | addInFightTicks this pzlock => exact changes_addInFightTicks w this pzlock
  | onDeath sc victim lastHit damageMap =>
      exact changes_onDeath w victim lastHit damageMap fun guid hunjust hkiller =>
        ⟨sc, lastHit, damageMap, rfl, hable, hunjust, hkiller⟩
  | checkCreature sc this => exact changes_checkCreature w this
  | logout this => exact absurd rfl (hlogout this)
  | login this => exact absurd rfl (hlogin this)

end Changes

end Bruxo.Skulls
