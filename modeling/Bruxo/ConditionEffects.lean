import Bruxo.Condition
import Bruxo.Lib.Runs

/-!
# Effects of conditions

What attributes and speed conditions change of a player: `startCondition`, `addCondition` and
`endCondition` of their classes (`condition.cpp`), and the operations of a creature that call
them (`creature.cpp`). The other classes change none of it.

An `int32_t` wraps. What a condition reads of the player and of the server is a `Reading`, with
the multiplication of a float by a percentage and the random number as its fields.
-/

namespace Bruxo.Conditions

/-! ## Effects -/

structure Effects where
  varSkills : Vector Int32 7
  varSpecialSkills : Vector Int32 6
  varStats : Vector Int32 4
  experienceRate : Vector Int32 5
  varSpeed : Int32
  canUseDefense : Bool
  deriving DecidableEq, Repr

structure Reading where
  now : Int64
  walkDelay : Int64
  isSuppress : UInt32 → Bool
  healthMax : Int32
  manaMax : Int32
  magLevel : Int32
  skills : Vector Int32 7
  baseSpeed : Int32
  /-- `uniform_random` between the values of the formula. -/
  drawn : Int32
  /-- `static_cast<int32_t>(v * ((percent - 100) / 100.f))` -/
  scale : Int32 → Int32 → Int32

/-- The setter of each entry is called with the modifier, if that is not zero. -/
def addEach {n : Nat} (var mods : Vector Int32 n) : Vector Int32 n :=
  Vector.zipWith (fun v m => if m ≠ 0 then v + m else v) var mods

/-- And with the modifier negated. -/
def subEach {n : Nat} (var mods : Vector Int32 n) : Vector Int32 n :=
  Vector.zipWith (fun v m => if m ≠ 0 then v + -m else v) var mods

/-- `setExperienceRate`, for the rates of a condition that are not 1; the entry of no type is
left out. -/
def setRates (var rates : Vector Int32 5) (f : Int32 → Int32) : Vector Int32 5 :=
  Vector.ofFn fun i =>
    if i.val ≠ 0 ∧ rates.get i ≠ 1 then f (rates.get i) else var.get i

/-- `Game::changeSpeed` -/
def Effects.changeSpeed (e : Effects) (baseSpeed varSpeedDelta : Int32) : Effects :=
  let varSpeed := baseSpeed + e.varSpeed - baseSpeed
  { e with varSpeed := varSpeed + varSpeedDelta }

/-! ## Attributes -/

namespace ConditionAttributes

variable (r : Reading) (e : Effects) (d : ConditionAttributes)

def updatePercentSkills : ConditionAttributes :=
  { d with
    skills := Vector.ofFn fun i =>
      if d.skillsPercent.get i = 0 then d.skills.get i
      else r.scale (r.skills.get i) (d.skillsPercent.get i) }

/-- What a percentage is of; there is none for soul points. -/
def statBase : Nat → Option Int32
  | 0 => some (max 1 (r.healthMax + e.varStats[0]))
  | 1 => some (max 0 (r.manaMax + e.varStats[1]))
  | 3 => some r.magLevel
  | _ => none

def updatePercentStats : ConditionAttributes :=
  { d with
    stats := Vector.ofFn fun i =>
      if d.statsPercent.get i = 0 then d.stats.get i
      else
        match statBase r e i.val with
        | some v => r.scale v (d.statsPercent.get i)
        | none => d.stats.get i }

def updateSkills : Effects :=
  { e with
    varSkills := addEach e.varSkills d.skills
    varSpecialSkills := addEach e.varSpecialSkills d.specialSkills }

def updateStats : Effects := { e with varStats := addEach e.varStats d.stats }

def updateExperienceRate : Effects :=
  { e with experienceRate := setRates e.experienceRate d.experienceRate id }

/-- The updates that start and merge have in common. -/
def update : Effects × ConditionAttributes :=
  let d := updatePercentSkills r d
  let e := updateSkills e d
  let d := updatePercentStats r e d
  (updateStats e d, d)

def startCondition : Effects × ConditionAttributes :=
  let e := { e with canUseDefense := !d.disableDefense }
  let (e, d) := update r e d
  (updateExperienceRate e d, d)

def endCondition : Effects where
  varSkills := Vector.ofFn fun i =>
    if d.skills.get i ≠ 0 ∨ d.skillsPercent.get i ≠ 0 then e.varSkills.get i + -d.skills.get i
    else e.varSkills.get i
  varSpecialSkills := subEach e.varSpecialSkills d.specialSkills
  varStats := subEach e.varStats d.stats
  experienceRate := setRates e.experienceRate d.experienceRate fun v => -v
  varSpeed := e.varSpeed
  canUseDefense := if d.disableDefense then true else e.canUseDefense

/-- `addCondition`, when the condition is to be updated. -/
def addCondition (conditionAttrs : ConditionAttributes) : Effects × ConditionAttributes :=
  update r (endCondition e d)
    { d with
      skills := conditionAttrs.skills
      specialSkills := conditionAttrs.specialSkills
      skillsPercent := conditionAttrs.skillsPercent
      stats := conditionAttrs.stats
      statsPercent := conditionAttrs.statsPercent
      experienceRate := conditionAttrs.experienceRate
      disableDefense := conditionAttrs.disableDefense }

end ConditionAttributes

/-! ## Speed -/

namespace ConditionSpeed

variable (r : Reading) (e : Effects) (d : ConditionSpeed)

/-- A condition without a change of its own gets one by its formula. -/
def draw : ConditionSpeed :=
  if d.speedDelta = 0 then { d with speedDelta := r.drawn } else d

def startCondition : Effects × ConditionSpeed :=
  let d := draw r d
  (e.changeSpeed r.baseSpeed d.speedDelta, d)

def endCondition : Effects := e.changeSpeed r.baseSpeed (-d.speedDelta)

def addCondition (conditionSpeed : ConditionSpeed) : Effects × ConditionSpeed :=
  let oldSpeedDelta := d.speedDelta
  let d := draw r conditionSpeed
  let newSpeedChange := d.speedDelta - oldSpeedDelta
  (if newSpeedChange ≠ 0 then e.changeSpeed r.baseSpeed newSpeedChange else e, d)

end ConditionSpeed

/-! ## Conditions -/

namespace Condition

variable (r : Reading) (e : Effects) (c : Condition)

def updateCondition (now : Int64) (c addCondition : Condition) : Bool :=
  if c.conditionType ≠ addCondition.conditionType then false
  else if c.ticks = -1 ∧ 0 < addCondition.ticks then false
  else if 0 ≤ addCondition.ticks ∧ now + addCondition.ticks.toInt64 < c.endTime then false
  else true

/-- `Condition::startCondition` -/
def startBase : Condition :=
  if 0 < c.ticks ∧ c.endTime = 0 then c.setEndTime (c.ticks.toInt64 + r.now) else c

def startCondition : Effects × Condition :=
  let c := c.startBase r
  match c.derived with
  | .attributes d =>
      let (e, d) := d.startCondition r e
      (e, { c with derived := .attributes d })
  | .speed d =>
      let (e, d) := d.startCondition r e
      (e, { c with derived := .speed d })
  | _ => (e, c)

def endCondition : Effects :=
  match c.derived with
  | .attributes d => d.endCondition e
  | .speed d => d.endCondition r e
  | _ => e

/-- The new condition is merged into this one. -/
def addCondition (condition : Condition) : Effects × Condition :=
  match c.derived, condition.derived with
  | .attributes d, .attributes d' =>
      if updateCondition r.now c condition then
        let c := c.setTicks r.now condition.ticks
        let (e, d) := d.addCondition r e d'
        (e, { c with derived := .attributes d })
      else (e, c)
  | .speed d, .speed d' =>
      if c.conditionType ≠ condition.conditionType then (e, c)
      else if c.ticks = -1 ∧ 0 < condition.ticks then (e, c)
      else
        let c := c.setTicks r.now condition.ticks
        let (e, d) := d.addCondition r e d'
        (e, { c with derived := .speed d })
  | _, _ => (e, c)

/-- Whether the condition goes on, and the condition. -/
def executeCondition (interval : Int32) : Bool × Condition :=
  if c.ticks = -1 then (true, c)
  else
    let c := { c with ticks := max 0 (c.ticks - interval) }
    (r.now ≤ c.endTime, c)

end Condition

/-! ## Players -/

structure Player where
  effects : Effects
  conditions : List Condition

/-- An attributes or a speed condition. -/
def Condition.Modifies (c : Condition) : Prop :=
  c.WellTyped ∧ (c.derived.cls = .attributes ∨ c.derived.cls = .speed)

inductive Event where
  /-- `Creature::addCondition`, up to `onAddCondition`. -/
  | add (c : Condition) (modifies : c.Modifies) (force : Bool) (r : Reading)
  /-- The turn of one condition in `executeConditions`. -/
  | execute (k : Nat) (interval : Int32) (r : Reading)
  /-- One condition is taken out by a `removeCondition`; also the haste or the paralysis that
  `onAddCondition` takes out. -/
  | remove (k : Nat) (r : Reading)

namespace Player

variable (p : Player)

def hasCondition (r : Reading) (type : UInt32) : Bool :=
  !r.isSuppress type &&
    p.conditions.any fun c =>
      c.conditionType = type && c.subId = 0 && (r.now ≤ c.endTime || c.ticks = -1)

/-- A haste waits until a paralysed player has made its step. -/
def isDelayed (c : Condition) (force : Bool) (r : Reading) : Bool :=
  !force && c.conditionType = ConditionType.haste.code &&
    p.hasCondition r ConditionType.paralyze.code && 0 < r.walkDelay

/-- The condition that `getCondition` finds, by its place. -/
def getCondition (c : Condition) : Option Nat :=
  p.conditions.findIdx? fun prev =>
    prev.conditionType = c.conditionType && prev.id = c.id && prev.subId = c.subId

def addCondition (c : Condition) (force : Bool) (r : Reading) : Player :=
  if p.isDelayed c force r then p
  else
    match (p.getCondition c).bind fun k => p.conditions[k]?.map (k, ·) with
    | some (k, prevCond) =>
        let (e, prevCond) := prevCond.addCondition r p.effects c
        ⟨e, p.conditions.set k prevCond⟩
    | none =>
        let (e, c) := c.startCondition r p.effects
        ⟨e, p.conditions ++ [c]⟩

def removeCondition (k : Nat) (r : Reading) : Player :=
  match p.conditions[k]? with
  | none => p
  | some c => ⟨c.endCondition r p.effects, p.conditions.eraseIdx k⟩

def executeCondition (k : Nat) (interval : Int32) (r : Reading) : Player :=
  match p.conditions[k]? with
  | none => p
  | some c =>
      let (goesOn, c) := c.executeCondition r interval
      if goesOn then ⟨p.effects, p.conditions.set k c⟩
      else ⟨c.endCondition r p.effects, p.conditions.eraseIdx k⟩

def step (p : Player) : Event → Player
  | .add c _ force r => p.addCondition c force r
  | .execute k interval r => p.executeCondition k interval r
  | .remove k r => p.removeCondition k r

end Player

end Bruxo.Conditions
