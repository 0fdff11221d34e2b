import Bruxo.Condition
import Bruxo.PropStream

/-!
# Reading and writing conditions

`serialize`, `unserializeProp` and `unserialize` of the condition classes (`condition.cpp`),
and the loops over the conditions of a player (`iologindata.cpp`).

The arrays of an attributes condition are filled one entry for each tag. A tag too many writes
outside the array: `overrun`, of which nothing more is said.
-/

namespace Bruxo.Conditions

open Bytes

/-! ## Tags -/

/-- `ConditionAttr_t` -/
inductive ConditionAttr where
  | type | id | ticks | healthTicks | healthGain | manaTicks | manaGain | delayed | owner
  | intervalData | speedDelta | formulaMinA | formulaMinB | formulaMaxA | formulaMaxB | lightColor
  | lightLevel | lightTicks | lightInterval | soulTicks | soulGain | skills | stats | outfit
  | periodDamage | isBuff | subId | isAggressive | disableDefense | specialSkills | experienceRate
  | healthGainPercent | manaGainPercent | constant | endTime | endAttr
  deriving DecidableEq, Repr

namespace ConditionAttr

/-- The tags in their order, the first one being 1. -/
def all : List ConditionAttr :=
  [type, id, ticks, healthTicks, healthGain, manaTicks, manaGain, delayed, owner, intervalData,
    speedDelta, formulaMinA, formulaMinB, formulaMaxA, formulaMaxB, lightColor, lightLevel,
    lightTicks, lightInterval, soulTicks, soulGain, skills, stats, outfit, periodDamage, isBuff,
    subId, isAggressive, disableDefense, specialSkills, experienceRate, healthGainPercent,
    manaGainPercent, constant, endTime]

def code (attr : ConditionAttr) : Nat :=
  if attr = .endAttr then 254 else all.idxOf attr + 1

def ofCode (n : Nat) : Option ConditionAttr := (.endAttr :: all).find? fun attr => attr.code = n

theorem ofCode_code (attr : ConditionAttr) : ofCode attr.code = some attr := by
  cases attr <;> rfl

theorem code_lt (attr : ConditionAttr) : attr.code < 256 ^ 1 := by
  cases attr <;> decide

theorem code_injective {a b : ConditionAttr} (h : a.code = b.code) : a = b := by
  have := ofCode_code a
  rw [h, ofCode_code] at this
  exact (Option.some.inj this).symm

end ConditionAttr

/-! ## Writing -/

def writeProp (attr : ConditionAttr) (n v : Nat) (w : PropWriteStream) : PropWriteStream :=
  (w.write 1 attr.code).write n v

/-- `write<int32_t>` -/
def writeInt32 (attr : ConditionAttr) (v : Int32) : PropWriteStream → PropWriteStream :=
  writeProp attr 4 v.toUInt32.toNat

def writeUInt32 (attr : ConditionAttr) (v : UInt32) : PropWriteStream → PropWriteStream :=
  writeProp attr 4 v.toNat

def writeBool (attr : ConditionAttr) (v : Bool) : PropWriteStream → PropWriteStream :=
  writeProp attr 1 v.toNat

namespace Condition

variable (c : Condition)

/-- `Condition::serialize` -/
def serializeBase (w : PropWriteStream) : PropWriteStream :=
  let w := writeUInt32 .type c.conditionType w
  let w := writeUInt32 .id c.id.toInt32.toUInt32 w
  let w := writeInt32 .ticks c.ticks w
  let w := writeBool .isBuff c.isBuff w
  let w := writeUInt32 .subId c.subId w
  let w := writeBool .isAggressive c.aggressive w
  let w := writeBool .constant c.constant w
  if c.constant then writeProp .endTime 8 c.endTime.toUInt64.toNat w else w

end Condition

def IntervalInfo.write (w : PropWriteStream) (info : IntervalInfo) : PropWriteStream :=
  let w := writeInt32 .intervalData info.timeLeft w
  (w.write 4 info.value.toUInt32.toNat).write 4 info.interval.toUInt32.toNat

def ConditionDamage.serialize (d : ConditionDamage) (w : PropWriteStream) : PropWriteStream :=
  let w := writeBool .delayed d.delayed w
  let w := writeInt32 .periodDamage d.periodDamage w
  d.damageList.foldl IntervalInfo.write w

def ConditionSpeed.serialize (d : ConditionSpeed) (w : PropWriteStream) : PropWriteStream :=
  let w := writeInt32 .speedDelta d.speedDelta w
  let w := writeUInt32 .formulaMinA d.mina w
  let w := writeUInt32 .formulaMinB d.minb w
  let w := writeUInt32 .formulaMaxA d.maxa w
  writeUInt32 .formulaMaxB d.maxb w

/-- The bytes of the structure, of which the last one is padding. -/
def Outfit.serialize (d : Outfit) (w : PropWriteStream) : PropWriteStream :=
  let w := writeProp .outfit 2 d.lookType.toNat w
  let w := (w.write 2 d.lookTypeEx.toNat).write 2 d.lookMount.toNat
  let w := (w.write 1 d.lookHead.toNat).write 1 d.lookBody.toNat
  let w := (w.write 1 d.lookLegs.toNat).write 1 d.lookFeet.toNat
  (w.write 1 d.lookAddons.toNat).write 1 0

/-- Colour and level are written with the width of the others. -/
def ConditionLight.serialize (d : ConditionLight) (w : PropWriteStream) : PropWriteStream :=
  let w := writeUInt32 .lightColor d.lightInfo.color.toUInt32 w
  let w := writeUInt32 .lightLevel d.lightInfo.level.toUInt32 w
  let w := writeUInt32 .lightTicks d.internalLightTicks w
  writeUInt32 .lightInterval d.lightChangeInterval w

def ConditionRegeneration.serialize (d : ConditionRegeneration) (w : PropWriteStream) :
    PropWriteStream :=
  let w := writeUInt32 .healthTicks d.healthTicks w
  let w := writeUInt32 .healthGain d.healthGain w
  let w := writeUInt32 .healthGainPercent d.healthGainPercent w
  let w := writeUInt32 .manaTicks d.manaTicks w
  let w := writeUInt32 .manaGain d.manaGain w
  writeUInt32 .manaGainPercent d.manaGainPercent w

def ConditionSoul.serialize (d : ConditionSoul) (w : PropWriteStream) : PropWriteStream :=
  let w := writeUInt32 .soulGain d.soulGain w
  writeUInt32 .soulTicks d.soulTicks w

/-- The entries of an array, each with the tag. -/
def writeArray (attr : ConditionAttr) (vs : List Int32) (w : PropWriteStream) : PropWriteStream :=
  vs.foldl (fun w v => writeInt32 attr v w) w

/-- The rates of experience get the tag of the special skills. -/
def ConditionAttributes.serialize (d : ConditionAttributes) (w : PropWriteStream) :
    PropWriteStream :=
  let w := writeArray .skills d.skills.toList w
  let w := writeArray .stats d.stats.toList w
  let w := writeBool .disableDefense d.disableDefense w
  let w := writeArray .specialSkills d.specialSkills.toList w
  writeArray .specialSkills d.experienceRate.toList.tail w

def Derived.serialize : Derived → PropWriteStream → PropWriteStream
  | damage d => d.serialize
  | speed d => d.serialize
  | outfit d => d.serialize
  | light d => d.serialize
  | regeneration d => d.serialize
  | soul d => d.serialize
  | attributes d => d.serialize
  | invisible | drunk _ | generic => id

def Condition.serialize (c : Condition) (w : PropWriteStream) : PropWriteStream :=
  c.derived.serialize (c.serializeBase w)

/-- One turn of the loop of `savePlayer`. -/
def Condition.save (w : PropWriteStream) (c : Condition) : PropWriteStream :=
  (c.serialize w).write 1 ConditionAttr.endAttr.code

/-- The column for a list of conditions. -/
def writeConditions (cs : List Condition) : List UInt8 := (cs.foldl Condition.save .empty).buffer

/-! ## Reading a property -/

def int32 (n : Nat) : Int32 := (UInt32.ofNat n).toInt32

inductive PropResult where
  | ok (c : Condition) (rest : PropStream)
  | failed (rest : PropStream)
  | overrun

/-- `read<T>` into a field. -/
def readInto (n : Nat) (s : PropStream) (f : Nat → Condition) : PropResult :=
  match s.read n with
  | none => .failed s
  | some (v, rest) => .ok (f v) rest

section

variable (c : Condition) (attr : Option ConditionAttr) (s : PropStream)

/-- `Condition::unserializeProp`, for a byte that may be no tag. -/
def Condition.unserializeBase : PropResult :=
  match attr with
  | some .type => readInto 4 s fun v => { c with conditionType := UInt32.ofNat v }
  | some .id => readInto 4 s fun v => { c with id := (int32 v).toInt8 }
  | some .ticks => readInto 4 s fun v => { c with ticks := int32 v }
  | some .isBuff => readInto 1 s fun v => { c with isBuff := v ≠ 0 }
  | some .subId => readInto 4 s fun v => { c with subId := UInt32.ofNat v }
  | some .isAggressive => readInto 1 s fun v => { c with aggressive := v ≠ 0 }
  | some .constant => readInto 1 s fun v => { c with constant := v ≠ 0 }
  | some .endTime => readInto 8 s fun v => { c with endTime := (UInt64.ofNat v).toInt64 }
  | some .endAttr => .ok c s
  | _ => .failed s

/-- `push_back` with the ticks of the round. -/
def Condition.pushDamage (now : Int64) (d : ConditionDamage) (info : IntervalInfo) : Condition :=
  let c := { c with derived := .damage { d with damageList := d.damageList ++ [info] } }
  if c.ticks ≠ -1 then c.setTicks now (c.ticks + info.interval) else c

/-- The structure from its bytes. -/
def IntervalInfo.ofNat (v : Nat) : IntervalInfo where
  timeLeft := int32 v
  value := int32 (v / 256 ^ 4)
  interval := int32 (v / 256 ^ 8)

def ConditionDamage.unserializeProp (now : Int64) (d : ConditionDamage) : PropResult :=
  match attr with
  | some .delayed =>
      readInto 1 s fun v => { c with derived := .damage { d with delayed := v ≠ 0 } }
  | some .periodDamage =>
      readInto 4 s fun v => { c with derived := .damage { d with periodDamage := int32 v } }
  | some .owner =>
      match s.skip 4 with
      | none => .failed s
      | some rest => .ok c rest
  | some .intervalData =>
      readInto 12 s fun v => c.pushDamage now d (.ofNat v)
  | attr => c.unserializeBase attr s

def ConditionSpeed.unserializeProp (d : ConditionSpeed) : PropResult :=
  match attr with
  | some .speedDelta =>
      readInto 4 s fun v => { c with derived := .speed { d with speedDelta := int32 v } }
  | some .formulaMinA =>
      readInto 4 s fun v => { c with derived := .speed { d with mina := UInt32.ofNat v } }
  | some .formulaMinB =>
      readInto 4 s fun v => { c with derived := .speed { d with minb := UInt32.ofNat v } }
  | some .formulaMaxA =>
      readInto 4 s fun v => { c with derived := .speed { d with maxa := UInt32.ofNat v } }
  | some .formulaMaxB =>
      readInto 4 s fun v => { c with derived := .speed { d with maxb := UInt32.ofNat v } }
  | attr => c.unserializeBase attr s

def Outfit.ofNat (v : Nat) : Outfit where
  lookType := UInt16.ofNat v
  lookTypeEx := UInt16.ofNat (v / 256 ^ 2)
  lookMount := UInt16.ofNat (v / 256 ^ 4)
  lookHead := UInt8.ofNat (v / 256 ^ 6)
  lookBody := UInt8.ofNat (v / 256 ^ 7)
  lookLegs := UInt8.ofNat (v / 256 ^ 8)
  lookFeet := UInt8.ofNat (v / 256 ^ 9)
  lookAddons := UInt8.ofNat (v / 256 ^ 10)

def Outfit.unserializeProp : PropResult :=
  match attr with
  | some .outfit => readInto 12 s fun v => { c with derived := .outfit (.ofNat v) }
  | attr => c.unserializeBase attr s

def ConditionLight.unserializeProp (d : ConditionLight) : PropResult :=
  match attr with
  | some .lightColor =>
      readInto 1 s fun v =>
        { c with derived := .light { d with lightInfo := ⟨d.lightInfo.level, UInt8.ofNat v⟩ } }
  | some .lightLevel =>
      readInto 1 s fun v =>
        { c with derived := .light { d with lightInfo := ⟨UInt8.ofNat v, d.lightInfo.color⟩ } }
  | some .lightTicks =>
      readInto 4 s fun v =>
        { c with derived := .light { d with internalLightTicks := UInt32.ofNat v } }
  | some .lightInterval =>
      readInto 4 s fun v =>
        { c with derived := .light { d with lightChangeInterval := UInt32.ofNat v } }
  | attr => c.unserializeBase attr s

def ConditionRegeneration.unserializeProp (d : ConditionRegeneration) : PropResult :=
  match attr with
  | some .healthTicks =>
      readInto 4 s fun v => { c with derived := .regeneration { d with healthTicks := UInt32.ofNat v } }
  | some .healthGain =>
      readInto 4 s fun v => { c with derived := .regeneration { d with healthGain := UInt32.ofNat v } }
  | some .healthGainPercent =>
      readInto 4 s fun v =>
        { c with derived := .regeneration { d with healthGainPercent := UInt32.ofNat v } }
  | some .manaTicks =>
      readInto 4 s fun v => { c with derived := .regeneration { d with manaTicks := UInt32.ofNat v } }
  | some .manaGain =>
      readInto 4 s fun v => { c with derived := .regeneration { d with manaGain := UInt32.ofNat v } }
  | some .manaGainPercent =>
      readInto 4 s fun v =>
        { c with derived := .regeneration { d with manaGainPercent := UInt32.ofNat v } }
  | attr => c.unserializeBase attr s

def ConditionSoul.unserializeProp (d : ConditionSoul) : PropResult :=
  match attr with
  | some .soulGain =>
      readInto 4 s fun v => { c with derived := .soul { d with soulGain := UInt32.ofNat v } }
  | some .soulTicks =>
      readInto 4 s fun v => { c with derived := .soul { d with soulTicks := UInt32.ofNat v } }
  | attr => c.unserializeBase attr s

/-- `read<int32_t>(array[current++])`, where the caller has the condition for the new array. -/
def readEntry {n : Nat} (s : PropStream) (array : Vector Int32 n) (current : Nat)
    (f : Vector Int32 n → Condition) : PropResult :=
  match s.read 4 with
  | none => .failed s
  | some (v, rest) =>
      if h : current < n then .ok (f (array.set current (int32 v) h)) rest else .overrun

def ConditionAttributes.unserializeProp (d : ConditionAttributes) : PropResult :=
  match attr with
  | some .skills =>
      readEntry s d.skills d.currentSkill fun a =>
        { c with derived := .attributes { d with skills := a, currentSkill := d.currentSkill + 1 } }
  | some .specialSkills =>
      readEntry s d.specialSkills d.currentSpecialSkill fun a =>
        { c with
          derived := .attributes
            { d with specialSkills := a, currentSpecialSkill := d.currentSpecialSkill + 1 } }
  | some .stats =>
      readEntry s d.stats d.currentStat fun a =>
        { c with derived := .attributes { d with stats := a, currentStat := d.currentStat + 1 } }
  | some .experienceRate =>
      readEntry s d.experienceRate d.currentExperienceRate fun a =>
        { c with
          derived := .attributes
            { d with experienceRate := a, currentExperienceRate := d.currentExperienceRate + 1 } }
  | some .disableDefense =>
      readInto 1 s fun v => { c with derived := .attributes { d with disableDefense := v ≠ 0 } }
  | attr => c.unserializeBase attr s

def Condition.unserializeProp (now : Int64) : PropResult :=
  match c.derived with
  | .damage d => d.unserializeProp c attr s now
  | .speed d => d.unserializeProp c attr s
  | .outfit _ => Outfit.unserializeProp c attr s
  | .light d => d.unserializeProp c attr s
  | .regeneration d => d.unserializeProp c attr s
  | .soul d => d.unserializeProp c attr s
  | .attributes d => d.unserializeProp c attr s
  | .invisible | .drunk _ | .generic => c.unserializeBase attr s

end

/-! ## Reading a condition -/

/-- A tag that must be the next one, and its value. -/
def readTagged (attr : ConditionAttr) (n : Nat) (s : PropStream) : Option (Nat × PropStream) :=
  match s.read 1 with
  | none => none
  | some (tag, rest) => if tag ≠ attr.code then none else rest.read n

/-- `createCondition` of a stream. -/
def createFrom (s : PropStream) : Option (Condition × PropStream) := do
  let (type, s) ← readTagged .type 4 s
  let (id, s) ← readTagged .id 4 s
  let (ticks, s) ← readTagged .ticks 4 s
  let (buff, s) ← readTagged .isBuff 1 s
  let (subId, s) ← readTagged .subId 4 s
  let (aggressive, s) ← readTagged .isAggressive 1 s
  let (constant, s) ← readTagged .constant 1 s
  let condition ← Condition.createCondition (int32 id).toInt8 (UInt32.ofNat type) (int32 ticks) 0
    (buff ≠ 0) (UInt32.ofNat subId) (aggressive ≠ 0)
  let condition := condition.setConstant (constant ≠ 0)
  if condition.constant then
    let (endTime, s) ← readTagged .endTime 8 s
    some (condition.setEndTime (UInt64.ofNat endTime).toInt64, s)
  else some (condition, s)

/-! A reader takes bytes from the front of the stream. -/

def PropResult.WithinSize (n : Nat) : PropResult → Prop
  | ok _ rest => rest.size ≤ n
  | failed rest => rest.size ≤ n
  | overrun => True

theorem readInto_withinSize (n : Nat) (s : PropStream) (f : Nat → Condition) :
    (readInto n s f).WithinSize s.size := by
  rw [readInto]
  cases h : s.read n with
  | none => exact Nat.le_refl _
  | some r => exact Nat.le.intro (PropStream.size_read h).symm

theorem readEntry_withinSize {n : Nat} (s : PropStream) (array : Vector Int32 n) (current : Nat)
    (f : Vector Int32 n → Condition) : (readEntry s array current f).WithinSize s.size := by
  rw [readEntry]
  cases h : s.read 4 with
  | none => exact Nat.le_refl _
  | some r =>
      dsimp only
      split
      · exact Nat.le.intro (PropStream.size_read h).symm
      · trivial

theorem unserializeBase_withinSize (c : Condition) (attr : Option ConditionAttr) (s : PropStream) :
    (c.unserializeBase attr s).WithinSize s.size := by
  unfold Condition.unserializeBase
  split
  all_goals first
    | exact readInto_withinSize _ _ _
    | exact Nat.le_refl _

theorem skip_withinSize (c : Condition) (s : PropStream) (n : Nat) :
    (match s.skip n with
      | none => PropResult.failed s
      | some rest => .ok c rest).WithinSize s.size := by
  cases h : s.skip n with
  | none => exact Nat.le_refl _
  | some rest =>
      rw [PropStream.skip] at h
      split at h
      · cases h
      · cases h
        simp only [PropResult.WithinSize, PropStream.size, List.length_drop]
        omega

theorem unserializeProp_withinSize (c : Condition) (attr : Option ConditionAttr) (s : PropStream)
    (now : Int64) : (c.unserializeProp attr s now).WithinSize s.size := by
  have base := unserializeBase_withinSize c attr s
  unfold Condition.unserializeProp
  cases c.derived with
  | damage d =>
      dsimp only
      unfold ConditionDamage.unserializeProp
      split
      · exact readInto_withinSize _ _ _
      · exact readInto_withinSize _ _ _
      · exact skip_withinSize c s 4
      · exact readInto_withinSize _ _ _
      · exact base
  | speed d =>
      dsimp only
      unfold ConditionSpeed.unserializeProp
      split
      case h_6 => exact base
      all_goals exact readInto_withinSize _ _ _
  | outfit d =>
      dsimp only
      unfold Outfit.unserializeProp
      split
      · exact readInto_withinSize _ _ _
      · exact base
  | light d =>
      dsimp only
      unfold ConditionLight.unserializeProp
      split
      case h_5 => exact base
      all_goals exact readInto_withinSize _ _ _
  | regeneration d =>
      dsimp only
      unfold ConditionRegeneration.unserializeProp
      split
      case h_7 => exact base
      all_goals exact readInto_withinSize _ _ _
  | soul d =>
      dsimp only
      unfold ConditionSoul.unserializeProp
      split
      · exact readInto_withinSize _ _ _
      · exact readInto_withinSize _ _ _
      · exact base
  | attributes d =>
      dsimp only
      unfold ConditionAttributes.unserializeProp
      split
      case h_5 => exact readInto_withinSize _ _ _
      case h_6 => exact base
      all_goals exact readEntry_withinSize _ _ _ _
  | invisible => exact base
  | drunk d => exact base
  | generic => exact base

/-- `Condition::unserialize`; a stream that ends early ends the condition. -/
def Condition.unserialize (now : Int64) (c : Condition) (s : PropStream) : PropResult :=
  match _h : s.read 1 with
  | none => .ok c s
  | some (tag, rest) =>
      if tag = ConditionAttr.endAttr.code then .ok c rest
      else
        match _hr : c.unserializeProp (ConditionAttr.ofCode tag) rest now with
        | .ok c' rest' => Condition.unserialize now c' rest'
        | r => r
termination_by s.size
decreasing_by
  have hread := PropStream.size_read _h
  have hprop := unserializeProp_withinSize c (ConditionAttr.ofCode tag) rest now
  rw [_hr] at hprop
  dsimp only [PropResult.WithinSize] at hprop
  omega

theorem unserialize_withinSize (now : Int64) (c : Condition) (s : PropStream) :
    (c.unserialize now s).WithinSize s.size := by
  fun_induction Condition.unserialize now c s with
  | case1 c s h => exact Nat.le_refl _
  | case2 c s rest h => exact Nat.le.intro (PropStream.size_read h).symm
  | case3 c s tag rest h htag c' rest' hr ih =>
      have hread := PropStream.size_read h
      have hprop := unserializeProp_withinSize c (ConditionAttr.ofCode tag) rest now
      rw [hr] at hprop
      have hle : rest'.size ≤ s.size := by
        dsimp only [PropResult.WithinSize] at hprop
        omega
      revert ih
      cases Condition.unserialize now c' rest' with
      | ok c'' rest'' => exact fun ih => Nat.le_trans ih hle
      | failed rest'' => exact fun ih => Nat.le_trans ih hle
      | overrun => exact fun ih => ih
  | case4 c s tag rest h htag hr =>
      have hread := PropStream.size_read h
      have hprop := unserializeProp_withinSize c (ConditionAttr.ofCode tag) rest now
      revert hprop
      cases c.unserializeProp (ConditionAttr.ofCode tag) rest now with
      | ok c'' rest'' => exact fun hprop => Nat.le_trans hprop (Nat.le.intro hread.symm)
      | failed rest'' => exact fun hprop => Nat.le_trans hprop (Nat.le.intro hread.symm)
      | overrun => exact fun hprop => hprop

theorem size_readTagged {attr : ConditionAttr} {n v : Nat} {s s' : PropStream}
    (h : readTagged attr n s = some (v, s')) : s'.size < s.size := by
  rw [readTagged] at h
  cases htag : s.read 1 with
  | none =>
      rw [htag] at h
      cases h
  | some r =>
      rw [htag] at h
      dsimp only at h
      split at h
      · cases h
      · have htag := PropStream.size_read htag
        have := PropStream.size_read h
        omega

theorem size_createFrom {c : Condition} {s s' : PropStream} (h : createFrom s = some (c, s')) :
    s'.size < s.size := by
  simp only [createFrom, Option.bind_eq_bind, Option.bind_eq_some_iff, Prod.exists] at h
  obtain ⟨type, s₁, h₁, id, s₂, h₂, ticks, s₃, h₃, buff, s₄, h₄, subId, s₅, h₅, aggressive, s₆, h₆,
    constant, s₇, h₇, condition, -, h⟩ := h
  have h₁ := size_readTagged h₁
  have h₂ := size_readTagged h₂
  have h₃ := size_readTagged h₃
  have h₄ := size_readTagged h₄
  have h₅ := size_readTagged h₅
  have h₆ := size_readTagged h₆
  have h₇ := size_readTagged h₇
  split at h
  · simp only [Option.bind_eq_some_iff, Prod.exists] at h
    obtain ⟨endTime, s₈, h₈, h⟩ := h
    have h₈ := size_readTagged h₈
    cases h
    omega
  · cases h
    omega

/-- The loop of `loadPlayer`: the conditions in the order in which they are read. A condition
that fails is left out, and the next one is looked for where it failed. -/
def readConditions (now : Int64) (s : PropStream) : Option (List Condition) :=
  match _h : createFrom s with
  | none => some []
  | some (c, rest) =>
      match _hr : c.unserialize now rest with
      | .ok c' rest' => (readConditions now rest').map (c' :: ·)
      | .failed rest' => readConditions now rest'
      | .overrun => none
termination_by s.size
decreasing_by
  all_goals
    have hcreate := size_createFrom _h
    have hread := unserialize_withinSize now c rest
    rw [_hr] at hread
    dsimp only [PropResult.WithinSize] at hread
    omega

end Bruxo.Conditions
