import Mathlib.Data.List.Basic

/-!
# Conditions

The condition objects of `condition.h`: the fields of the base class and, for each derived
class, its own. A float is its four bytes. `createCondition` gives a type its class.

The time is `OTSYS_TIME`, passed in where it is read.
-/

namespace Bruxo.Conditions

/-! ## Types -/

/-- `ConditionType_t` -/
inductive ConditionType where
  | poison | fire | energy | bleeding | haste | paralyze | outfit | invisible | light | manashield
  | infight | drunk | exhaustWeapon | regeneration | soul | drown | muted | channelMutedTicks
  | yellTicks | attributes | freezing | dazzled | cursed | exhaustCombat | exhaustHeal | pacified
  | cliport
  deriving DecidableEq, Repr

namespace ConditionType

def all : List ConditionType :=
  [poison, fire, energy, bleeding, haste, paralyze, outfit, invisible, light, manashield, infight,
    drunk, exhaustWeapon, regeneration, soul, drown, muted, channelMutedTicks, yellTicks, attributes,
    freezing, dazzled, cursed, exhaustCombat, exhaustHeal, pacified, cliport]

/-- One bit for each type, in the order of the enumeration. -/
def code (t : ConditionType) : UInt32 := 1 <<< UInt32.ofNat (all.idxOf t)

def ofCode (n : UInt32) : Option ConditionType := all.find? fun t => t.code = n

end ConditionType

/-- The derived classes. -/
inductive ConditionClass where
  | damage | speed | invisible | outfit | light | regeneration | soul | attributes | drunk | generic
  deriving DecidableEq, Repr

/-- The `switch` of `createCondition`. -/
def ConditionType.cls : ConditionType → ConditionClass
  | poison | fire | energy | drown | freezing | dazzled | cursed | bleeding => .damage
  | haste | paralyze => .speed
  | invisible => .invisible
  | outfit => .outfit
  | light => .light
  | regeneration => .regeneration
  | soul => .soul
  | attributes => .attributes
  | drunk => .drunk
  | infight | exhaustWeapon | exhaustCombat | exhaustHeal | muted | channelMutedTicks | yellTicks
  | pacified | manashield | cliport => .generic

def CONDITIONID_DEFAULT : Int8 := -1
def CONDITIONID_COMBAT : Int8 := 0

/-! ## Fields of the derived classes -/

structure IntervalInfo where
  timeLeft : Int32
  value : Int32
  interval : Int32
  deriving DecidableEq, Repr

structure ConditionDamage where
  maxDamage : Int32 := 0
  minDamage : Int32 := 0
  startDamage : Int32 := 0
  periodDamage : Int32 := 0
  periodDamageTick : Int32 := 0
  tickInterval : Int32 := 2000
  initDamage : Int32 := 0
  forceUpdate : Bool := false
  delayed : Bool := false
  field : Bool := false
  owner : UInt32 := 0
  damageList : List IntervalInfo := []
  deriving DecidableEq, Repr

structure ConditionSpeed where
  speedDelta : Int32
  mina : UInt32 := 0
  minb : UInt32 := 0
  maxa : UInt32 := 0
  maxb : UInt32 := 0
  deriving DecidableEq, Repr

/-- `Outfit_t` -/
structure Outfit where
  lookType : UInt16 := 0
  lookTypeEx : UInt16 := 0
  lookMount : UInt16 := 0
  lookHead : UInt8 := 0
  lookBody : UInt8 := 0
  lookLegs : UInt8 := 0
  lookFeet : UInt8 := 0
  lookAddons : UInt8 := 0
  deriving DecidableEq, Repr

structure LightInfo where
  level : UInt8
  color : UInt8
  deriving DecidableEq, Repr

structure ConditionLight where
  lightInfo : LightInfo
  internalLightTicks : UInt32 := 0
  lightChangeInterval : UInt32 := 0
  deriving DecidableEq, Repr

structure ConditionRegeneration where
  internalHealthTicks : UInt32 := 0
  internalManaTicks : UInt32 := 0
  healthTicks : UInt32 := 1000
  manaTicks : UInt32 := 1000
  healthGain : UInt32 := 0
  healthGainPercent : UInt32 := 0
  manaGain : UInt32 := 0
  manaGainPercent : UInt32 := 0
  deriving DecidableEq, Repr

structure ConditionSoul where
  internalSoulTicks : UInt32 := 0
  soulTicks : UInt32 := 0
  soulGain : UInt32 := 0
  deriving DecidableEq, Repr

/-- The entry of `experienceRate` for no type of rate is never used. -/
structure ConditionAttributes where
  skills : Vector Int32 7 := Vector.replicate 7 0
  skillsPercent : Vector Int32 7 := Vector.replicate 7 0
  specialSkills : Vector Int32 6 := Vector.replicate 6 0
  stats : Vector Int32 4 := Vector.replicate 4 0
  statsPercent : Vector Int32 4 := Vector.replicate 4 0
  experienceRate : Vector Int32 5 := Vector.replicate 5 0
  currentSkill : Nat := 0
  currentSpecialSkill : Nat := 0
  currentStat : Nat := 0
  currentExperienceRate : Nat := 0
  disableDefense : Bool := false
  deriving DecidableEq, Repr

structure ConditionDrunk where
  drunkenness : UInt8 := 25
  deriving DecidableEq, Repr

inductive Derived where
  | damage (d : ConditionDamage)
  | speed (d : ConditionSpeed)
  | invisible
  | outfit (d : Outfit)
  | light (d : ConditionLight)
  | regeneration (d : ConditionRegeneration)
  | soul (d : ConditionSoul)
  | attributes (d : ConditionAttributes)
  | drunk (d : ConditionDrunk)
  | generic
  deriving DecidableEq, Repr

def Derived.cls : Derived → ConditionClass
  | damage _ => .damage
  | speed _ => .speed
  | invisible => .invisible
  | outfit _ => .outfit
  | light _ => .light
  | regeneration _ => .regeneration
  | soul _ => .soul
  | attributes _ => .attributes
  | drunk _ => .drunk
  | generic => .generic

/-! ## Conditions -/

structure Condition where
  endTime : Int64
  subId : UInt32
  ticks : Int32
  conditionType : UInt32
  isBuff : Bool
  aggressive : Bool
  constant : Bool := false
  id : Int8
  derived : Derived
  deriving DecidableEq, Repr

/-- The class is that of the type, as it is of every condition that `createCondition` made. -/
def Condition.WellTyped (c : Condition) : Prop :=
  (ConditionType.ofCode c.conditionType).map ConditionType.cls = some c.derived.cls

/-- The fields that a constructor gives from `param` or by default. -/
def ConditionClass.create (param : Int32) : ConditionClass → Derived
  | damage => .damage {}
  | speed => .speed { speedDelta := param }
  | invisible => .invisible
  | outfit => .outfit {}
  | light =>
      .light { lightInfo := ⟨param.toUInt32.toUInt8, (param.toUInt32 >>> 8).toUInt8⟩ }
  | regeneration => .regeneration {}
  | soul => .soul {}
  | attributes => .attributes {}
  | drunk =>
      .drunk (if param.toUInt32.toUInt8 ≠ 0 then { drunkenness := param.toUInt32.toUInt8 } else {})
  | generic => .generic

namespace Condition

/-- The constructor of a damage condition has no ticks. -/
def initialTicks (ticks : Int32) : ConditionClass → Int32
  | .damage => 0
  | _ => ticks

def createCondition (id : Int8) (type : UInt32) (ticks param : Int32) (buff : Bool)
    (subId : UInt32) (aggressive : Bool) : Option Condition :=
  (ConditionType.ofCode type).map fun t =>
    let ticks := initialTicks ticks t.cls
    { endTime := if ticks = -1 then Int64.maxValue else 0
      subId := subId
      ticks := ticks
      conditionType := type
      isBuff := buff
      aggressive := aggressive
      id := id
      derived := t.cls.create param }

variable (c : Condition)

def setEndTime (newEndTime : Int64) : Condition := { c with endTime := newEndTime }

def setTicks (now : Int64) (newTicks : Int32) : Condition :=
  { c with ticks := newTicks, endTime := newTicks.toInt64 + now }

def setConstant (constant : Bool) : Condition := { c with constant := constant }

def isPersistent : Bool :=
  if c.ticks = -1 then false
  else c.id = CONDITIONID_DEFAULT || c.id = CONDITIONID_COMBAT ||
    c.conditionType = ConditionType.muted.code

end Condition

theorem ConditionType.ofCode_code (t : ConditionType) : ofCode t.code = some t := by
  cases t <;> decide +kernel

end Bruxo.Conditions
