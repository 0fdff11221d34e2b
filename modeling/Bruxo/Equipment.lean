import Bruxo.ConditionBalance
import Bruxo.ItemType

/-!
# Equipment

The built-in move events of worn items, `MoveEvent::EquipItem` and `MoveEvent::DeEquipItem`
(`movement.cpp`), with `Game::transformItem` (`game.cpp`) and the notifications of a player that
fire them (`player.cpp`).

A type that turns into another one as it is put on is transformed inside of `EquipItem`. The
transformation fires the events of both types itself, and only then are the abilities of the first
type given to the player; the slot is not marked by this branch. As types may turn into each other
without end, the functions have fuel; without any there is no result.

The decay that both functions start is left out, as is the refresh of what the client shows.
-/

namespace Bruxo.Equipment

open Conditions

/-! ## Item types and events -/

/-- `slots_t` -/
inductive Slot where
  | head | necklace | backpack | armor | right | left | legs | feet | ring | ammo
  deriving DecidableEq, Repr

def Slot.all : List Slot :=
  [.head, .necklace, .backpack, .armor, .right, .left, .legs, .feet, .ring, .ammo]

theorem Slot.mem_all (slot : Slot) : slot ∈ Slot.all := by
  cases slot <;> decide

theorem Slot.nodup_all : Slot.all.Nodup := by decide

/-- The bit of `SlotPositionBits`. -/
def Slot.slotp : Slot → UInt32
  | head => 1
  | necklace => 2
  | backpack => 4
  | armor => 8
  | right => 16
  | left => 32
  | legs => 64
  | feet => 128
  | ring => 256
  | ammo => 512

structure Abilities where
  invisible : Bool := false
  manaShield : Bool := false
  regeneration : Bool := false
  speed : Int32 := 0
  conditionSuppressions : BitVec 32 := 0
  skills : Vector Int32 7 := .replicate 7 0
  specialSkills : Vector Int32 6 := .replicate 6 0
  specialMagicLevelSkill : Vector Int16 12 := .replicate 12 0
  stats : Vector Int32 4 := .replicate 4 0
  statsPercent : Vector Int32 4 := .replicate 4 0
  experienceRate : Vector Int32 5 := .replicate 5 0
  deriving DecidableEq

/-- An item type with what the move events look at; 0 is no type to turn into. -/
structure EquipType extends ItemType where
  transformEquipTo : UInt16 := 0
  transformDeEquipTo : UInt16 := 0
  abilities : Option Abilities := none

/-- What a type gives to who wears it. -/
def EquipType.gifts (it : EquipType) : Abilities := it.abilities.getD {}

inductive EventType where
  | equip | deEquip
  deriving DecidableEq, Repr

structure MoveEvent where
  slot : UInt32
  wieldInfo : UInt32 := 0
  vocationEquipSet : List UInt16 := []
  reqLevel : UInt32 := 0
  reqMagLevel : UInt32 := 0
  premium : Bool := false

structure Server where
  items : UInt16 → EquipType
  itemIdMap : UInt16 → EventType → List MoveEvent
  /-- `static_cast<int32_t>(v * ((percent - 100) / 100.f))` -/
  scale : Int32 → Int32 → Int32

/-- `MoveEvents::getEvent` -/
def Server.getEvent (server : Server) (id : UInt16) (eventType : EventType) (slot : Slot) :
    Option MoveEvent :=
  (server.itemIdMap id eventType).find? fun moveEvent => moveEvent.slot &&& slot.slotp ≠ 0

/-! ## Players -/

/-- The conditions that a slot gives, with the slot as their id. -/
inductive SlotCondition where
  | invisible | manaShield | regeneration
  deriving DecidableEq, Repr

/-- What the levels of a player change. -/
structure Levels where
  level : UInt32
  magLevel : UInt32
  healthMax : Int32
  manaMax : Int32

structure Player where
  vocationId : UInt16
  isPremium : Bool
  ignoresWeaponCheck : Bool
  baseSpeed : Int32
  levels : Levels
  effects : Effects
  specialMagicLevelSkill : Vector Int16 12
  conditionSuppressions : BitVec 32
  /-- Whether there is a condition of a type with the id of a slot. -/
  conditions : SlotCondition → Slot → Bool
  /-- The type of the item in a slot. -/
  inventory : Slot → Option UInt16
  inventoryAbilities : Slot → Bool

namespace Player

variable (player : Player)

def setItemAbility (slot : Slot) (enabled : Bool) : Player :=
  { player with inventoryAbilities := Function.update player.inventoryAbilities slot enabled }

def setInventory (slot : Slot) (id : Option UInt16) : Player :=
  { player with inventory := Function.update player.inventory slot id }

/-- `Player::getMagicLevel` -/
def getMagicLevel : UInt32 :=
  (max 0 (player.levels.magLevel.toInt32 + player.effects.varStats.get ⟨3, by decide⟩)).toUInt32

end Player

/-- `Player::getDefaultStats` -/
def Levels.getDefaultStats (levels : Levels) (stat : Fin 4) : Int32 :=
  match stat with
  | 0 => levels.healthMax
  | 1 => levels.manaMax
  | 2 => 0
  | 3 => levels.magLevel.toInt32

/-! ## Abilities -/

namespace Abilities

variable (server : Server) (abilities : Abilities)

/-- Whether a condition is given. -/
def grants : SlotCondition → Bool
  | .invisible => abilities.invisible
  | .manaShield => abilities.manaShield
  | .regeneration => abilities.regeneration

/-- What the percentages come to; they are taken of the stats as they are at the moment. -/
def percentStats (levels : Levels) : Vector Int32 4 :=
  Vector.ofFn fun stat =>
    if abilities.statsPercent.get stat ≠ 0 then
      server.scale (levels.getDefaultStats stat) (abilities.statsPercent.get stat)
    else 0

/-- The rates, of which the one without a type is not looked at. -/
def rates : Vector Int32 5 :=
  Vector.ofFn fun i => if i.val ≠ 0 then abilities.experienceRate.get i else 0

/-- What `EquipItem` does after the transformation. -/
def add (player : Player) (slot : Slot) : Player :=
  let e := player.effects
  let e :=
    if abilities.speed ≠ 0 then e.changeSpeed player.baseSpeed abilities.speed else e
  { player with
    conditions := fun condition x =>
      player.conditions condition x || (decide (x = slot) && abilities.grants condition)
    conditionSuppressions := player.conditionSuppressions ||| abilities.conditionSuppressions
    specialMagicLevelSkill :=
      Vector.zipWith (fun v m => if m ≠ 0 then v + m else v) player.specialMagicLevelSkill
        abilities.specialMagicLevelSkill
    effects :=
      { e with
        varSkills := addEach e.varSkills abilities.skills
        varSpecialSkills := addEach e.varSpecialSkills abilities.specialSkills
        varStats :=
          addEach (addEach e.varStats abilities.stats) (abilities.percentStats server player.levels)
        experienceRate := addEach e.experienceRate abilities.rates } }

/-- What `DeEquipItem` does after the transformation. -/
def remove (player : Player) (slot : Slot) : Player :=
  let e := player.effects
  let e :=
    if abilities.speed ≠ 0 then e.changeSpeed player.baseSpeed (-abilities.speed) else e
  { player with
    conditions := fun condition x =>
      player.conditions condition x && !(decide (x = slot) && abilities.grants condition)
    conditionSuppressions := player.conditionSuppressions &&& ~~~abilities.conditionSuppressions
    specialMagicLevelSkill :=
      Vector.zipWith (fun v m => if m ≠ 0 then v + -m else v) player.specialMagicLevelSkill
        abilities.specialMagicLevelSkill
    effects :=
      { e with
        varSkills := subEach e.varSkills abilities.skills
        varSpecialSkills := subEach e.varSpecialSkills abilities.specialSkills
        varStats :=
          subEach (subEach e.varStats abilities.stats) (abilities.percentStats server player.levels)
        experienceRate := subEach e.experienceRate abilities.rates } }

end Abilities

/-! ## Move events -/

/-- The item that an event is about: its type, and the slot of the player that it is in, if it is
in one. -/
structure Item where
  id : UInt16
  place : Option Slot

/-- The checks of `EquipItem`. -/
def MoveEvent.allows (moveEvent : MoveEvent) (player : Player) : Bool :=
  player.ignoresWeaponCheck || moveEvent.wieldInfo = 0 ||
    (moveEvent.vocationEquipSet.isEmpty || moveEvent.vocationEquipSet.contains player.vocationId) &&
    decide (moveEvent.reqLevel ≤ player.levels.level) &&
    decide (moveEvent.reqMagLevel ≤ player.getMagicLevel) &&
    (!moveEvent.premium || player.isPremium)

section Events

variable (server : Server)

mutual

/-- `MoveEvents::onPlayerEquip`, with `EquipItem`. -/
def onPlayerEquip (fuel : Nat) (player : Player) (item : Item) (slot : Slot) :
    Option (Player × Item) :=
  match fuel with
  | 0 => none
  | fuel + 1 =>
    match server.getEvent item.id .equip slot with
    | none => some (player, item)
    | some moveEvent =>
      if !moveEvent.allows player then some (player, item)
      else if player.inventoryAbilities slot then some (player, item)
      else
        let it := server.items item.id
        if it.transformEquipTo ≠ 0 then
          (transformItem fuel player item it.transformEquipTo).map fun (player, item) =>
            (it.gifts.add server player slot, item)
        else some (it.gifts.add server (player.setItemAbility slot true) slot, item)

/-- `MoveEvents::onPlayerDeEquip`, with `DeEquipItem`. -/
def onPlayerDeEquip (fuel : Nat) (player : Player) (item : Item) (slot : Slot) :
    Option (Player × Item) :=
  match fuel with
  | 0 => none
  | fuel + 1 =>
    match server.getEvent item.id .deEquip slot with
    | none => some (player.setItemAbility slot false, item)
    | some _ =>
      if !player.inventoryAbilities slot then some (player, item)
      else
        let player := player.setItemAbility slot false
        let it := server.items item.id
        if it.transformDeEquipTo ≠ 0 then
          (transformItem fuel player item it.transformDeEquipTo).map fun (player, item) =>
            (it.gifts.remove server player slot, item)
        else some (it.gifts.remove server player slot, item)

/-- `Game::transformItem`. An item that is in no slot changes its type without events of the
player. -/
def transformItem (fuel : Nat) (player : Player) (item : Item) (newId : UInt16) :
    Option (Player × Item) :=
  match fuel with
  | 0 => none
  | fuel + 1 =>
    if item.id = newId then some (player, item)
    else
      match item.place with
      | none => some (player, item)
      | some slot =>
        let newType := server.items newId
        let curType := server.items item.id
        if newType.id = 0 then some (player, item)
        else if curType.alwaysOnTop ≠ newType.alwaysOnTop then
          -- the item is taken out, and `addThing` of a player does not put it back
          (onPlayerDeEquip fuel (player.setInventory slot none) { item with place := none } slot).map
            fun (player, item) => (player, { item with id := newId })
        else if curType.type = newType.type then
          match onPlayerDeEquip fuel player item slot with
          | none => none
          | some (player, item) =>
            match item.place with
            | none => onPlayerEquip fuel player item slot
            | some place =>
              onPlayerEquip fuel (player.setInventory place newId) { item with id := newId } slot
        else
          match onPlayerEquip fuel (player.setInventory slot newId) ⟨newId, slot⟩ slot with
          | none => none
          | some (player, _) => onPlayerDeEquip fuel player { item with place := none } slot

end

end Events

end Bruxo.Equipment
