import Bruxo.KnownCreatures
import Bruxo.Party
import Bruxo.SpectatorCache
import Bruxo.Summons
import Mathlib.Data.List.Dedup

/-!
# Whom a monster knows

The target list and the friend list of a `Monster` (`monster.cpp`), and what tells it of others:
`Game::placeCreature` and `removeCreature` (`game.cpp`), `Map::moveCreature` (`map.cpp`) and the
handlers of `Creature` (`creature.cpp`). The spectators are told one after the other, and a handler
may remove creatures in the middle. So what is still to be called is a stack, `calls`: an operation
puts its calls there, and `Action.next` performs the uppermost.

Left out are whom the monster attacks and follows, the walk back to its spawn, what a client is
sent, and the scripts, which may answer an event in place of the monster or add to its lists.
-/

namespace Bruxo.Targets

open Spectators (CreatureId addSpectators)

inductive CreatureKind where
  /-- Whether the group of the player has `PlayerFlag_IgnoredByMonsters` -/
  | player (ignoredByMonsters : Bool)
  | monster
  | npc
  deriving DecidableEq

/-- What a monster reads of the others. -/
structure World where
  kind : CreatureId → CreatureKind
  position : CreatureId → Position
  health : CreatureId → Int
  healthMax : CreatureId → Int
  /-- Whether one of its conditions is aggressive -/
  aggressive : CreatureId → Bool
  /-- Whether it was ever put on a tile: `getParent() != nullptr` -/
  placed : CreatureId → Bool
  /-- The creatures of the tiles -/
  onMap : List CreatureId
  masters : Summons.State CreatureId
  parties : Parties.Game

namespace World

variable (w : World) (m c : CreatureId)

def isPlayer : Bool :=
  match w.kind c with
  | .player _ => true
  | _ => false

def isMonster : Bool := w.kind c = .monster

def isDead : Bool := w.health c ≤ 0

def isRemoved : Bool := w.masters.isRemoved c

def getMaster : Option CreatureId := w.masters.master c

def isSummon : Bool := (w.getMaster c).isSome

/-- `getMaster()`, where that is a player -/
def masterPlayer : Option CreatureId := (w.getMaster c).filter w.isPlayer

/-- `Creature::canSee` with the range of `Monster::canSee` -/
def canSeePosition (myPos pos : Position) : Bool :=
  let viewRange := KnownCreatures.maxClientViewportX + 1
  let offsetz : Int := myPos.z.toNat - pos.z.toNat
  if myPos.z.toNat ≤ 7 ∧ 7 < pos.z.toNat then false
  else if 8 ≤ myPos.z.toNat ∧ (pos.z.toNat < 8 ∨ 2 < offsetz.natAbs) then false
  else
    myPos.x.toNat - viewRange + offsetz ≤ pos.x.toNat &&
      pos.x.toNat ≤ myPos.x.toNat + viewRange + offsetz &&
        myPos.y.toNat - viewRange + offsetz ≤ pos.y.toNat &&
          pos.y.toNat ≤ myPos.y.toNat + viewRange + offsetz

def canSee : Bool := canSeePosition (w.position m) (w.position c)

def isFriend : Bool :=
  match w.masterPlayer m with
  | some masterPlayer =>
      match (if w.isPlayer c then some c else w.masterPlayer c) with
      | some tmpPlayer => tmpPlayer == masterPlayer || w.parties.isPartner masterPlayer tmpPlayer
      | none => false
  | none => w.isMonster c && !w.isSummon c

def isOpponent : Bool :=
  match w.masterPlayer m with
  | some masterPlayer => c != masterPlayer
  | none => w.kind c = .player false || (w.masterPlayer c).isSome

/-- `getSpectators` over all floors; those that `order` names come in its order. -/
def spectators (order : List CreatureId) (pos : Position) : List CreatureId :=
  (w.onMap ++ order).dedup.filter fun c =>
    decide (c ∈ w.onMap) &&
      Spectators.CreatureMap.inRange pos (Spectators.CachedMap.sight.range pos) (w.position c)

end World

structure Monster where
  friendList : List CreatureId := []
  targetList : List CreatureId := []
  isIdle : Bool := true
  /-- How many references on a creature the lists have taken and not given back -/
  references : CreatureId → Int := fun _ => 0

namespace Monster

variable (w : World) (m : CreatureId) (self : Monster) (c : CreatureId)

def incrementReferenceCounter : Monster :=
  { self with references := Function.update self.references c (self.references c + 1) }

def decrementReferenceCounter : Monster :=
  { self with references := Function.update self.references c (self.references c - 1) }

def addFriend : Monster :=
  if c ∈ self.friendList then self
  else { self.incrementReferenceCounter c with friendList := c :: self.friendList }

def removeFriend : Monster :=
  if c ∈ self.friendList then
    { self.decrementReferenceCounter c with friendList := self.friendList.erase c }
  else self

def addTarget (pushFront : Bool) : Monster :=
  if c ∈ self.targetList then self
  else { self.incrementReferenceCounter c with
    targetList := if pushFront then c :: self.targetList else self.targetList ++ [c] }

def removeTarget : Monster :=
  if c ∈ self.targetList then
    { self.decrementReferenceCounter c with targetList := self.targetList.erase c }
  else self

def clearTargetList : Monster :=
  { self.targetList.foldl decrementReferenceCounter self with targetList := [] }

def clearFriendList : Monster :=
  { self.friendList.foldl decrementReferenceCounter self with friendList := [] }

def setIdle (idle : Bool) : Monster :=
  if w.isRemoved m || w.isDead m then self
  else if !idle then { self with isIdle := idle }
  else clearFriendList (clearTargetList { self with isIdle := idle })

def updateIdleStatus : Monster :=
  self.setIdle w m (!w.isSummon m && self.targetList.isEmpty && !w.aggressive m)

def onCreatureFound (pushFront : Bool) : Monster :=
  if !w.canSee m c then self
  else
    let self := if w.isFriend m c then self.addFriend c else self
    let self := if w.isOpponent m c then self.addTarget c pushFront else self
    self.updateIdleStatus w m

def onCreatureEnter : Monster := self.onCreatureFound w m c true

def onCreatureLeave : Monster :=
  let self := if w.isFriend m c then self.removeFriend c else self
  if w.isOpponent m c then (self.removeTarget c).updateIdleStatus w m else self

/-- Whom `updateTargetList` drops -/
def dropped : Bool := w.isDead c || !w.canSee m c

/-- The first loop of `updateTargetList` -/
def dropFriends : Monster :=
  { (self.friendList.filter (dropped w m)).foldl decrementReferenceCounter self with
    friendList := self.friendList.filter fun c => !dropped w m c }

/-- The second loop -/
def dropTargets : Monster :=
  { (self.targetList.filter (dropped w m)).foldl decrementReferenceCounter self with
    targetList := self.targetList.filter fun c => !dropped w m c }

def updateTargetList (spectators : List CreatureId) : Monster :=
  (spectators.erase m).foldl (fun self c => self.onCreatureFound w m c false)
    ((self.dropFriends w m).dropTargets w m)

/-- The last branch of `onCreatureMove`, for a monster that another creature moves by -/
def onOtherMove (newPos oldPos : Position) : Monster :=
  let canSeeNewPos := World.canSeePosition (w.position m) newPos
  let canSeeOldPos := World.canSeePosition (w.position m) oldPos
  let self :=
    if canSeeNewPos && !canSeeOldPos then self.onCreatureEnter w m c
    else if !canSeeNewPos && canSeeOldPos then self.onCreatureLeave w m c
    else self
  self.updateIdleStatus w m

def onFollowCreatureComplete (hasFollowPath : Bool) : Monster :=
  if c ∉ self.targetList then self
  else
    let rest := self.targetList.erase c
    if hasFollowPath then { self with targetList := c :: rest }
    else if !w.isSummon m then { self with targetList := rest ++ [c] }
    else { self.decrementReferenceCounter c with targetList := rest }

end Monster

/-- What is still to be called. Of the first four, `m` is who is told. -/
inductive Call where
  | onCreatureAppear (m c : CreatureId)
  | onCreatureMove (m c : CreatureId) (newPos oldPos : Position)
  /-- `onCreatureMove` of the creature that moved, behind `Creature::onCreatureMove` -/
  | onSelfMove (m : CreatureId)
  | onRemoveCreature (m c : CreatureId)
  /-- `Game::removeCreature` from `setRemoved` on -/
  | setRemoved (c : CreatureId)
  | removeCreature (c : CreatureId)
  /-- `Creature::onDeath` behind `death` -/
  | finishDeath (c : CreatureId) (droppedCorpse : Bool)
  deriving DecidableEq

/-- Who is told by a call. -/
def Call.listener : Call → Option CreatureId
  | .onCreatureAppear m _ => some m
  | .onCreatureMove m _ _ _ => some m
  | .onSelfMove m => some m
  | .onRemoveCreature m _ => some m
  | _ => none

structure State extends World where
  monster : CreatureId → Monster
  calls : List Call
  /-- The creatures whose `executeDeath` the dispatcher has to run -/
  dying : List CreatureId

namespace State

def init (kind : CreatureId → CreatureKind) (health : CreatureId → Int) : State where
  kind := kind
  position _ := ⟨0, 0, 0⟩
  health := health
  healthMax := health
  aggressive _ := false
  placed _ := false
  onMap := []
  masters := Summons.State.init
  parties := Parties.Game.init
  monster _ := {}
  calls := []
  dying := []

def setMonster (s : State) (m : CreatureId) (monster : Monster) : State :=
  { s with monster := Function.update s.monster m monster }

/-! ## The operations -/

/-- `pos` is where `Map::placeCreature` found a tile. -/
def placeCreature (s : State) (c : CreatureId) (pos : Position) (order : List CreatureId) : State :=
  if s.placed c ∨ mapMaxLayers ≤ pos.z.toNat then s
  else
    let s := { s with
      position := Function.update s.position c pos
      placed := Function.update s.placed c true
      onMap := s.onMap ++ [c] }
    { s with calls := (s.spectators order pos).map (.onCreatureAppear · c) ++ s.calls }

def moveCreature (s : State) (c : CreatureId) (newPos : Position) (order : List CreatureId) :
    State :=
  if c ∉ s.onMap ∨ mapMaxLayers ≤ newPos.z.toNat then s
  else
    let oldPos := s.position c
    let spectators := addSpectators (s.spectators order oldPos) (s.spectators order newPos)
    { s with
      position := Function.update s.position c newPos
      calls := spectators.map (.onCreatureMove · c newPos oldPos) ++ s.calls }

def setMaster (s : State) (c : CreatureId) (newMaster : Option CreatureId) : State :=
  { s with masters := s.masters.setMaster c newMaster }

/-- The first line of `Monster::changeHealth` -/
def wake (s : State) (c : CreatureId) : State :=
  if s.isMonster c then s.setMonster c ((s.monster c).setIdle s.toWorld c false) else s

def changeHealth (s : State) (c : CreatureId) (healthChange : Int) : State :=
  let s := s.wake c
  let health :=
    if 0 < healthChange then s.health c + min healthChange (s.healthMax c - s.health c)
    else max 0 (s.health c + healthChange)
  let s := { s with health := Function.update s.health c health }
  if s.isDead c then { s with dying := s.dying ++ [c] } else s

/-- One round of the loop of `Monster::death` -/
def killSummon (s : State) (summon : CreatureId) : State :=
  let s := s.changeHealth summon (-s.health summon)
  { s with masters := s.masters.removeMaster summon }

def monsterDeath (s : State) (c : CreatureId) : State :=
  let s := (s.masters.summons c).foldl killSummon s
  let s := { s with masters := s.masters.setSummons c [] }
  s.setMonster c (s.monster c).clearTargetList.clearFriendList

/-- What `Player::death` comes to: the health that it gives back, the temple where it leaves the
player's skills alone, and whether a corpse was dropped. -/
structure PlayerDeath where
  health : Int
  temple : Option Position
  droppedCorpse : Bool

def playerDeath (s : State) (c : CreatureId) (death : PlayerDeath) (order : List CreatureId) :
    State :=
  let s := { s with health := Function.update s.health c death.health }
  match death.temple with
  | none => s
  | some pos => if pos = s.position c then s else s.moveCreature c pos order

/-- `Game::executeDeath`; what `onDeath` does behind `death` is called when that is over. -/
def executeDeath (s : State) (c : CreatureId) (death : PlayerDeath) (order : List CreatureId) :
    State :=
  if c ∉ s.dying then s
  else
    let s := { s with dying := s.dying.erase c }
    if c ∉ s.onMap then s
    else
      match s.kind c with
      | .player _ =>
          let s := { s with calls := .finishDeath c death.droppedCorpse :: s.calls }
          s.playerDeath c death order
      | .monster =>
          let s := { s with calls := .finishDeath c true :: s.calls }
          s.monsterDeath c
      | .npc => { s with calls := .finishDeath c true :: s.calls }

/-! ## The calls -/

/-- The part of `Player::onRemoveCreature` about parties -/
def leaveParties (ev : Parties.Events) (g : Parties.Game) (player : CreatureId) : Parties.Game :=
  let g := g.clearPartyInvitations ev player
  match (g.player player).party with
  | none => g
  | some P => (g.leaveParty ev P player true).1

def onRemoveCreature (s : State) (ev : Parties.Events) (m c : CreatureId) : State :=
  let s := if m = c then { s with masters := s.masters.onRemoveCreature c } else s
  match s.kind m with
  | .monster =>
      s.setMonster m (if m = c then (s.monster m).setIdle s.toWorld m true
        else (s.monster m).onCreatureLeave s.toWorld m c)
  | .player _ => if m = c then { s with parties := leaveParties ev s.parties c } else s
  | .npc => s

/-- `despawnList` of `Creature::onCreatureMove` -/
def despawnList (s : State) (c : CreatureId) (newPos : Position) : List CreatureId :=
  ((s.masters.summons c).filter fun summon =>
    let pos := s.position summon
    decide (2 < ((newPos.z.toNat : Int) - pos.z.toNat).natAbs ∨
      30 < max ((newPos.x.toNat : Int) - pos.x.toNat).natAbs
        ((newPos.y.toNat : Int) - pos.y.toNat).natAbs)).reverse

def perform (s : State) (ev : Parties.Events) (order : List CreatureId) : Call → State
  | .onCreatureAppear m c =>
      if !s.isMonster m then s
      else if c = m then
        s.setMonster m (((s.monster m).updateTargetList s.toWorld m
          (s.spectators order (s.position m))).updateIdleStatus s.toWorld m)
      else s.setMonster m ((s.monster m).onCreatureEnter s.toWorld m c)
  | .onCreatureMove m c newPos oldPos =>
      if c = m then
        { s with calls :=
            (s.despawnList m newPos).map .removeCreature ++ .onSelfMove m :: s.calls }
      else if !s.isMonster m then s
      else s.setMonster m ((s.monster m).onOtherMove s.toWorld m c newPos oldPos)
  | .onSelfMove m =>
      if !s.isMonster m then s
      else
        s.setMonster m (((s.monster m).updateTargetList s.toWorld m
          (s.spectators order (s.position m))).updateIdleStatus s.toWorld m)
  | .onRemoveCreature m c => s.onRemoveCreature ev m c
  | .setRemoved c =>
      { s with
        masters := { s.masters with isRemoved := Function.update s.masters.isRemoved c true }
        calls := (s.masters.summons c).map .removeCreature ++ s.calls }
  | .removeCreature c =>
      if s.isRemoved c ∨ c ∉ s.onMap then s
      else
        { s with
          onMap := s.onMap.filter (· ≠ c)
          calls := (s.spectators order (s.position c)).map (.onRemoveCreature · c) ++
            .setRemoved c :: s.calls }
  | .finishDeath c droppedCorpse =>
      let s := if s.isSummon c then s.setMaster c none else s
      if droppedCorpse then { s with calls := .removeCreature c :: s.calls } else s

inductive Action where
  | placeCreature (c : CreatureId) (pos : Position) (order : List CreatureId)
  | moveCreature (c : CreatureId) (newPos : Position) (order : List CreatureId)
  | setMaster (c : CreatureId) (newMaster : Option CreatureId)
  | changeHealth (c : CreatureId) (healthChange : Int)
  | executeDeath (c : CreatureId) (death : PlayerDeath) (order : List CreatureId)
  | removeCreature (c : CreatureId)
  /-- Something changes who is in which party. -/
  | party (ev : Parties.Events) (op : Parties.Game.Op)
  /-- `onAddCondition` and `onEndCondition` -/
  | condition (c : CreatureId) (aggressive : Bool)
  | onFollowCreatureComplete (m c : CreatureId) (hasFollowPath : Bool)
  /-- `updateIdleStatus` of `onThink` -/
  | think (m : CreatureId)
  /-- `setIdle(true)` of `onThink`, for a monster that was sent back to its spawn -/
  | rest (m : CreatureId)
  /-- The uppermost call is performed. -/
  | next (ev : Parties.Events) (order : List CreatureId)

/-- The dispatcher starts an operation when nothing is left to call. -/
def operate (s : State) : Action → State
  | .placeCreature c pos order => s.placeCreature c pos order
  | .moveCreature c newPos order => s.moveCreature c newPos order
  | .setMaster c newMaster => s.setMaster c newMaster
  | .changeHealth c healthChange => s.changeHealth c healthChange
  | .executeDeath c death order => s.executeDeath c death order
  | .removeCreature c => { s with calls := [.removeCreature c] }
  | .party ev op => { s with parties := s.parties.step ev op }
  | .condition c aggressive =>
      let s := { s with aggressive := Function.update s.aggressive c aggressive }
      if !s.isMonster c then s
      else s.setMonster c ((s.monster c).updateIdleStatus s.toWorld c)
  | .onFollowCreatureComplete m c hasFollowPath =>
      if !s.isMonster m then s
      else s.setMonster m ((s.monster m).onFollowCreatureComplete s.toWorld m c hasFollowPath)
  | .think m =>
      if !s.isMonster m then s
      else s.setMonster m ((s.monster m).updateIdleStatus s.toWorld m)
  | .rest m => if !s.isMonster m then s else s.setMonster m ((s.monster m).setIdle s.toWorld m true)
  | .next _ _ => s

def step (s : State) : Action → State
  | .next ev order =>
      match s.calls with
      | [] => s
      | call :: calls => { s with calls := calls }.perform ev order call
  | action => if s.calls = [] then s.operate action else s

end State

end Bruxo.Targets
