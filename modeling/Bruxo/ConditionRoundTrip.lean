import Bruxo.ConditionSerialize

/-!
# Round trip of conditions

What `readConditions` makes of the bytes of `writeConditions`. The conditions of most classes
come back. One of light has its colour written wider than it is read, so that the reader loses
the tags and stops there; the rates of an attributes condition are read as special skills, which
are more than the array holds; the strength of a drunk one is not written.
-/

namespace Bruxo.Conditions

open Bytes

/-! ## What is to come back -/

/-- The parameters: without the counters of a running condition and what only its start needs. -/
def Derived.parameters : Derived → Derived
  | damage d =>
      .damage { periodDamage := d.periodDamage, delayed := d.delayed, damageList := d.damageList }
  | speed d => .speed d
  | invisible => .invisible
  | outfit d => .outfit d
  | light d => .light { lightInfo := d.lightInfo }
  | regeneration d =>
      .regeneration
        { d with internalHealthTicks := 0, internalManaTicks := 0 }
  | soul d => .soul { d with internalSoulTicks := 0 }
  | attributes d =>
      .attributes
        { skills := d.skills, specialSkills := d.specialSkills, stats := d.stats,
          experienceRate := d.experienceRate, disableDefense := d.disableDefense }
  | drunk d => .drunk d
  | generic => .generic

structure Condition.SameKind (c c' : Condition) : Prop where
  conditionType : c'.conditionType = c.conditionType
  id : c'.id = c.id
  subId : c'.subId = c.subId
  isBuff : c'.isBuff = c.isBuff
  aggressive : c'.aggressive = c.aggressive
  constant : c'.constant = c.constant

theorem Condition.SameKind.trans {c c' c'' : Condition} (h : SameKind c c')
    (h' : SameKind c' c'') : SameKind c c'' :=
  ⟨h'.conditionType.trans h.conditionType, h'.id.trans h.id, h'.subId.trans h.subId,
    h'.isBuff.trans h.isBuff, h'.aggressive.trans h.aggressive, h'.constant.trans h.constant⟩

/-- A damage condition lasts as long as its rounds do. -/
structure Condition.Same (c c' : Condition) : Prop extends SameKind c c' where
  ticks : c.derived.cls ≠ .damage → c'.ticks = c.ticks
  endTime : c.derived.cls ≠ .damage → c.constant = true → c'.endTime = c.endTime
  parameters : c'.derived.parameters = c.derived.parameters

/-- Every condition is read back, in its place, and nothing is written outside of an array. -/
def RoundTrips (now : Int64) (cs : List Condition) : Prop :=
  ∃ cs', readConditions now (.init (writeConditions cs)) = some cs' ∧
    List.Forall₂ Condition.Same cs cs'

/-- The condition is no light and no attributes one, and if a drunk one, of the default
strength. -/
def Condition.Storable (c : Condition) : Prop :=
  match c.derived with
  | .light _ | .attributes _ => False
  | .drunk d => d.drunkenness = 25
  | _ => True

/-! ## Steps of writing and reading -/

section

variable (now : Int64)

/-- What is written takes the reader from one condition to the other. -/
def Restores (f : PropWriteStream → PropWriteStream) (c c' : Condition) : Prop :=
  ∃ bs, (∀ w, (f w).buffer = w.buffer ++ bs) ∧
    ∀ rest, c.unserialize now ⟨bs ++ rest⟩ = c'.unserialize now ⟨rest⟩

variable {now}

theorem Restores.refl (c : Condition) : Restores now id c c :=
  ⟨[], fun _ => (List.append_nil _).symm, fun _ => rfl⟩

theorem Restores.trans {f g : PropWriteStream → PropWriteStream} {c c' c'' : Condition}
    (hf : Restores now f c c') (hg : Restores now g c' c'') :
    Restores now (fun w => g (f w)) c c'' := by
  obtain ⟨bs, hw, hread⟩ := hf
  obtain ⟨bs', hw', hread'⟩ := hg
  refine ⟨bs ++ bs', fun w => ?_, fun rest => ?_⟩
  · rw [hw', hw, List.append_assoc]
  · rw [List.append_assoc, hread, hread']

/-- One turn of the loop. -/
theorem unserialize_tag (now : Int64) (tag : Nat) (htag : tag < 256 ^ 1)
    (hend : tag ≠ ConditionAttr.endAttr.code) (c : Condition) (bs : List UInt8) :
    c.unserialize now ⟨leBytes 1 tag ++ bs⟩ =
      match c.unserializeProp (ConditionAttr.ofCode tag) ⟨bs⟩ now with
      | .ok c' rest => c'.unserialize now rest
      | r => r := by
  rw [Condition.unserialize]
  split
  · next hread =>
      rw [PropStream.read_write htag] at hread
      cases hread
  · next hread =>
      rw [PropStream.read_write htag] at hread
      cases hread
      rw [if_neg hend]
      split
      · next heq => rw [heq]
      · next hother =>
          split
          · next heq => exact (hother _ _ heq).elim
          · rfl

theorem unserialize_attr {attr : ConditionAttr} (hend : attr ≠ .endAttr) (c : Condition)
    (bs : List UInt8) :
    c.unserialize now ⟨leBytes 1 attr.code ++ bs⟩ =
      match c.unserializeProp (some attr) ⟨bs⟩ now with
      | .ok c' rest => c'.unserialize now rest
      | r => r := by
  have hne : attr.code ≠ ConditionAttr.endAttr.code := fun heq =>
    hend (ConditionAttr.code_injective heq)
  rw [unserialize_tag now _ attr.code_lt hne, ConditionAttr.ofCode_code]

theorem unserialize_end (c : Condition) (rest : List UInt8) :
    c.unserialize now ⟨leBytes 1 ConditionAttr.endAttr.code ++ rest⟩ = .ok c ⟨rest⟩ := by
  rw [Condition.unserialize]
  split
  · next hread =>
      rw [PropStream.read_write ConditionAttr.endAttr.code_lt] at hread
      cases hread
  · next hread =>
      rw [PropStream.read_write ConditionAttr.endAttr.code_lt] at hread
      cases hread
      rw [if_pos rfl]

theorem Restores.payload {f : PropWriteStream → PropWriteStream} {c c' : Condition}
    (attr : ConditionAttr) (bs : List UInt8) (hend : attr ≠ .endAttr)
    (hw : ∀ w, (f w).buffer = w.buffer ++ (leBytes 1 attr.code ++ bs))
    (h : ∀ s rest, s.read bs.length = some (leNat bs, rest) →
      c.unserializeProp (some attr) s now = .ok c' rest) :
    Restores now f c c' :=
  ⟨_, hw, fun rest => by
    rw [List.append_assoc, unserialize_attr hend, h _ _ (PropStream.read_append rfl rest)]⟩

theorem Restores.prop {attr : ConditionAttr} {n v : Nat} {c c' : Condition}
    (hend : attr ≠ .endAttr) (hv : v < 256 ^ n)
    (h : ∀ s rest, s.read n = some (v, rest) →
      c.unserializeProp (some attr) s now = .ok c' rest) :
    Restores now (writeProp attr n v) c c' := by
  refine Restores.payload attr (leBytes n v) hend (fun w => List.append_assoc ..)
    fun s rest hread => ?_
  rw [length_leBytes, leNat_leBytes_of_lt hv] at hread
  exact h s rest hread

end

/-! ## The base class -/

@[simp] theorem int32_toNat (v : Int32) : int32 v.toUInt32.toNat = v := by
  simp [int32]

theorem toNat_ne_zero (b : Bool) : (decide (b.toNat ≠ 0)) = b := by
  cases b <;> rfl

theorem bool_lt (b : Bool) : b.toNat < 256 ^ 1 := by
  cases b <;> decide

/-- The bytes of `writeProp`. -/
def propBytes (attr : ConditionAttr) (n v : Nat) : List UInt8 :=
  leBytes 1 attr.code ++ leBytes n v

theorem readTagged_propBytes {attr : ConditionAttr} {n v : Nat} (hv : v < 256 ^ n)
    (rest : List UInt8) :
    readTagged attr n ⟨propBytes attr n v ++ rest⟩ = some (v, ⟨rest⟩) := by
  rw [readTagged, propBytes, List.append_assoc, PropStream.read_write attr.code_lt]
  simp only [ne_eq, not_true_eq_false, if_false]
  exact PropStream.read_write hv rest

/-- What `createCondition` makes of the fields of the base class. -/
def Condition.fresh (c : Condition) : Condition where
  endTime :=
    if c.constant then c.endTime
    else if initialTicks c.ticks c.derived.cls = -1 then Int64.maxValue else 0
  subId := c.subId
  ticks := initialTicks c.ticks c.derived.cls
  conditionType := c.conditionType
  isBuff := c.isBuff
  aggressive := c.aggressive
  constant := c.constant
  id := c.id
  derived := c.derived.cls.create 0

theorem createCondition_fresh {c : Condition} (h : c.WellTyped) (endTime : Int64)
    (hend : c.constant = true → endTime = c.endTime) :
    ∃ c₀, Condition.createCondition c.id c.conditionType c.ticks 0 c.isBuff c.subId c.aggressive =
        some c₀ ∧
      (if c.constant then (c₀.setConstant c.constant).setEndTime endTime
        else c₀.setConstant c.constant) = c.fresh := by
  obtain ⟨t, htype, hcls⟩ := Option.map_eq_some_iff.mp h
  refine ⟨_, by rw [Condition.createCondition, htype, Option.map_some], ?_⟩
  rw [hcls]
  cases hconstant : c.constant with
  | true =>
      rw [hend hconstant]
      simp [Condition.fresh, Condition.setConstant, Condition.setEndTime, hconstant]
  | false => simp [Condition.fresh, Condition.setConstant, hconstant]

/-- The bytes of `serializeBase`. -/
def Condition.baseBytes (c : Condition) : List UInt8 :=
  propBytes .type 4 c.conditionType.toNat ++ (propBytes .id 4 c.id.toInt32.toUInt32.toNat ++
    (propBytes .ticks 4 c.ticks.toUInt32.toNat ++ (propBytes .isBuff 1 c.isBuff.toNat ++
    (propBytes .subId 4 c.subId.toNat ++ (propBytes .isAggressive 1 c.aggressive.toNat ++
    (propBytes .constant 1 c.constant.toNat ++
    (if c.constant then propBytes .endTime 8 c.endTime.toUInt64.toNat else [])))))))

theorem serializeBase_buffer (c : Condition) (w : PropWriteStream) :
    (c.serializeBase w).buffer = w.buffer ++ c.baseBytes := by
  cases hconstant : c.constant <;>
    simp [Condition.serializeBase, Condition.baseBytes, writeUInt32, writeInt32, writeBool,
      writeProp, propBytes, PropWriteStream.write, hconstant]

theorem createFrom_baseBytes {c : Condition} (h : c.WellTyped) (rest : List UInt8) :
    createFrom ⟨c.baseBytes ++ rest⟩ = some (c.fresh, ⟨rest⟩) := by
  obtain ⟨c₀, hcreate, hfresh⟩ := createCondition_fresh h c.endTime fun _ => rfl
  simp only [Condition.baseBytes, List.append_assoc, createFrom, Option.bind_eq_bind,
    readTagged_propBytes (n := 4) c.conditionType.toNat_lt,
    readTagged_propBytes (n := 4) c.id.toInt32.toUInt32.toNat_lt,
    readTagged_propBytes (n := 4) c.ticks.toUInt32.toNat_lt,
    readTagged_propBytes (bool_lt c.isBuff), readTagged_propBytes (n := 4) c.subId.toNat_lt,
    readTagged_propBytes (bool_lt c.aggressive), readTagged_propBytes (bool_lt c.constant),
    Option.bind_some, int32_toNat, Int8.toInt8_toInt32, UInt32.ofNat_toNat, toNat_ne_zero, hcreate]
  cases hconstant : c.constant with
  | true =>
      rw [hconstant] at hfresh
      simp only [Condition.setConstant, if_true,
        readTagged_propBytes (n := 8) c.endTime.toUInt64.toNat_lt, Option.bind_some,
        UInt64.ofNat_toNat, Int64.toInt64_toUInt64]
      exact congrArg (fun c => some (c, (⟨rest⟩ : PropStream))) hfresh
  | false =>
      rw [hconstant] at hfresh
      exact congrArg (fun c => some (c, (⟨rest⟩ : PropStream))) hfresh

/-! ## The derived classes -/

section

variable {now : Int64}

theorem Restores.int32 {attr : ConditionAttr} {c : Condition} (f : Int32 → Condition) (v : Int32)
    (hend : attr ≠ .endAttr)
    (h : ∀ s, c.unserializeProp (some attr) s now =
      readInto 4 s fun v => f (Conditions.int32 v)) :
    Restores now (writeInt32 attr v) c (f v) := by
  refine Restores.prop hend v.toUInt32.toNat_lt fun s rest hread => ?_
  rw [h, readInto, hread]
  simp only [int32_toNat]

theorem Restores.uint32 {attr : ConditionAttr} {c : Condition} (f : UInt32 → Condition)
    (v : UInt32) (hend : attr ≠ .endAttr)
    (h : ∀ s, c.unserializeProp (some attr) s now = readInto 4 s fun v => f (UInt32.ofNat v)) :
    Restores now (writeUInt32 attr v) c (f v) := by
  refine Restores.prop hend v.toNat_lt fun s rest hread => ?_
  rw [h, readInto, hread]
  simp only [UInt32.ofNat_toNat]

theorem Restores.bool {attr : ConditionAttr} {c : Condition} (f : Bool → Condition) (v : Bool)
    (hend : attr ≠ .endAttr)
    (h : ∀ s, c.unserializeProp (some attr) s now =
      readInto 1 s fun v => f (decide (v ≠ 0))) :
    Restores now (writeBool attr v) c (f v) := by
  refine Restores.prop hend (bool_lt v) fun s rest hread => ?_
  rw [h, readInto, hread]
  simp only [toNat_ne_zero]

variable (now) (c : Condition)

theorem speed_restores (d d₀ : ConditionSpeed) :
    Restores now d.serialize { c with derived := .speed d₀ } { c with derived := .speed d } := by
  let put (d : ConditionSpeed) : Condition := { c with derived := .speed d }
  have delta : Restores now (writeInt32 .speedDelta d.speedDelta) (put d₀)
      (put { d₀ with speedDelta := d.speedDelta }) :=
    .int32 (fun v => put { d₀ with speedDelta := v }) _ (by decide) fun _ => rfl
  have mina (d₀) : Restores now (writeUInt32 .formulaMinA d.mina) (put d₀)
      (put { d₀ with mina := d.mina }) :=
    .uint32 (fun v => put { d₀ with mina := v }) _ (by decide) fun _ => rfl
  have minb (d₀) : Restores now (writeUInt32 .formulaMinB d.minb) (put d₀)
      (put { d₀ with minb := d.minb }) :=
    .uint32 (fun v => put { d₀ with minb := v }) _ (by decide) fun _ => rfl
  have maxa (d₀) : Restores now (writeUInt32 .formulaMaxA d.maxa) (put d₀)
      (put { d₀ with maxa := d.maxa }) :=
    .uint32 (fun v => put { d₀ with maxa := v }) _ (by decide) fun _ => rfl
  have maxb (d₀) : Restores now (writeUInt32 .formulaMaxB d.maxb) (put d₀)
      (put { d₀ with maxb := d.maxb }) :=
    .uint32 (fun v => put { d₀ with maxb := v }) _ (by decide) fun _ => rfl
  exact (((delta.trans (mina _)).trans (minb _)).trans (maxa _)).trans (maxb _)

theorem regeneration_restores (d d₀ : ConditionRegeneration) :
    Restores now d.serialize { c with derived := .regeneration d₀ }
      { c with
        derived := .regeneration
          { d with
            internalHealthTicks := d₀.internalHealthTicks
            internalManaTicks := d₀.internalManaTicks } } := by
  let put (d : ConditionRegeneration) : Condition := { c with derived := .regeneration d }
  have healthTicks : Restores now (writeUInt32 .healthTicks d.healthTicks) (put d₀)
      (put { d₀ with healthTicks := d.healthTicks }) :=
    .uint32 (fun v => put { d₀ with healthTicks := v }) _ (by decide) fun _ => rfl
  have healthGain (d₀) : Restores now (writeUInt32 .healthGain d.healthGain) (put d₀)
      (put { d₀ with healthGain := d.healthGain }) :=
    .uint32 (fun v => put { d₀ with healthGain := v }) _ (by decide) fun _ => rfl
  have healthGainPercent (d₀) : Restores now (writeUInt32 .healthGainPercent d.healthGainPercent)
      (put d₀) (put { d₀ with healthGainPercent := d.healthGainPercent }) :=
    .uint32 (fun v => put { d₀ with healthGainPercent := v }) _ (by decide) fun _ => rfl
  have manaTicks (d₀) : Restores now (writeUInt32 .manaTicks d.manaTicks) (put d₀)
      (put { d₀ with manaTicks := d.manaTicks }) :=
    .uint32 (fun v => put { d₀ with manaTicks := v }) _ (by decide) fun _ => rfl
  have manaGain (d₀) : Restores now (writeUInt32 .manaGain d.manaGain) (put d₀)
      (put { d₀ with manaGain := d.manaGain }) :=
    .uint32 (fun v => put { d₀ with manaGain := v }) _ (by decide) fun _ => rfl
  have manaGainPercent (d₀) : Restores now (writeUInt32 .manaGainPercent d.manaGainPercent)
      (put d₀) (put { d₀ with manaGainPercent := d.manaGainPercent }) :=
    .uint32 (fun v => put { d₀ with manaGainPercent := v }) _ (by decide) fun _ => rfl
  exact ((((healthTicks.trans (healthGain _)).trans (healthGainPercent _)).trans
    (manaTicks _)).trans (manaGain _)).trans (manaGainPercent _)

theorem soul_restores (d d₀ : ConditionSoul) :
    Restores now d.serialize { c with derived := .soul d₀ }
      { c with derived := .soul { d with internalSoulTicks := d₀.internalSoulTicks } } := by
  let put (d : ConditionSoul) : Condition := { c with derived := .soul d }
  have soulGain : Restores now (writeUInt32 .soulGain d.soulGain) (put d₀)
      (put { d₀ with soulGain := d.soulGain }) :=
    .uint32 (fun v => put { d₀ with soulGain := v }) _ (by decide) fun _ => rfl
  have soulTicks (d₀) : Restores now (writeUInt32 .soulTicks d.soulTicks) (put d₀)
      (put { d₀ with soulTicks := d.soulTicks }) :=
    .uint32 (fun v => put { d₀ with soulTicks := v }) _ (by decide) fun _ => rfl
  exact soulGain.trans (soulTicks _)

def Outfit.bytes (d : Outfit) : List UInt8 :=
  leBytes 2 d.lookType.toNat ++ (leBytes 2 d.lookTypeEx.toNat ++ (leBytes 2 d.lookMount.toNat ++
    (leBytes 1 d.lookHead.toNat ++ (leBytes 1 d.lookBody.toNat ++ (leBytes 1 d.lookLegs.toNat ++
    (leBytes 1 d.lookFeet.toNat ++ (leBytes 1 d.lookAddons.toNat ++ leBytes 1 0)))))))

theorem Outfit.ofNat_bytes (d : Outfit) : Outfit.ofNat (leNat d.bytes) = d := by
  have byte (v : UInt8) : leNat (leBytes 1 v.toNat) = v.toNat :=
    leNat_leBytes_of_lt (n := 1) v.toNat_lt
  have padding : leNat (leBytes 1 0) = 0 := rfl
  simp only [Outfit.ofNat, Outfit.bytes, leNat_append, length_leBytes, leNat_leBytes_uint16, byte,
    padding]
  have h₁ := d.lookType.toNat_lt
  have h₂ := d.lookTypeEx.toNat_lt
  have h₃ := d.lookMount.toNat_lt
  have h₄ := d.lookHead.toNat_lt
  have h₅ := d.lookBody.toNat_lt
  have h₆ := d.lookLegs.toNat_lt
  have h₇ := d.lookFeet.toNat_lt
  have h₈ := d.lookAddons.toNat_lt
  cases d
  simp only [Outfit.mk.injEq]
  refine ⟨UInt16.toNat.inj ?_, UInt16.toNat.inj ?_, UInt16.toNat.inj ?_, UInt8.toNat.inj ?_,
    UInt8.toNat.inj ?_, UInt8.toNat.inj ?_, UInt8.toNat.inj ?_, UInt8.toNat.inj ?_⟩
  all_goals
    simp only [UInt16.toNat_ofNat', UInt8.toNat_ofNat'] at *
    omega

theorem outfit_restores (d d₀ : Outfit) :
    Restores now d.serialize { c with derived := .outfit d₀ } { c with derived := .outfit d } := by
  refine Restores.payload .outfit d.bytes (by decide) (fun w => ?_) fun s rest hread => ?_
  · simp only [Outfit.serialize, writeProp, Outfit.bytes, PropWriteStream.write, List.append_assoc]
  · have hprop : ({ c with derived := .outfit d₀ } : Condition).unserializeProp (some .outfit) s now =
      readInto 12 s fun v => { c with derived := .outfit (.ofNat v) } := rfl
    have hlength : d.bytes.length = 12 := by
      simp only [Outfit.bytes, List.length_append, length_leBytes]
    rw [hlength] at hread
    rw [hprop, readInto, hread]
    dsimp only
    rw [Outfit.ofNat_bytes]

def IntervalInfo.bytes (info : IntervalInfo) : List UInt8 :=
  leBytes 4 info.timeLeft.toUInt32.toNat ++ (leBytes 4 info.value.toUInt32.toNat ++
    leBytes 4 info.interval.toUInt32.toNat)

theorem IntervalInfo.ofNat_bytes (info : IntervalInfo) :
    IntervalInfo.ofNat (leNat info.bytes) = info := by
  have h₁ := info.timeLeft.toUInt32.toNat_lt
  have h₂ := info.value.toUInt32.toNat_lt
  have h₃ := info.interval.toUInt32.toNat_lt
  have low {n : Nat} {v : Int32} (h : n % 2 ^ 32 = v.toUInt32.toNat) : int32 n = v := by
    have : UInt32.ofNat n = v.toUInt32 := UInt32.toNat.inj (by rw [UInt32.toNat_ofNat', h])
    rw [int32, this, Int32.toInt32_toUInt32]
  simp only [IntervalInfo.ofNat, IntervalInfo.bytes, leNat_append, length_leBytes,
    leNat_leBytes_uint32]
  cases info
  simp only [IntervalInfo.mk.injEq]
  refine ⟨low ?_, low ?_, low ?_⟩
  all_goals
    simp only at *
    omega

theorem intervalInfo_restores (d : ConditionDamage) (info : IntervalInfo)
    (h : c.derived = .damage d) :
    Restores now (fun w => info.write w) c (c.pushDamage now d info) := by
  refine Restores.payload .intervalData info.bytes (by decide) (fun w => ?_) fun s rest hread => ?_
  · simp only [IntervalInfo.write, writeInt32, writeProp, IntervalInfo.bytes,
      PropWriteStream.write, List.append_assoc]
  · have hprop : c.unserializeProp (some .intervalData) s now =
        readInto 12 s fun v => c.pushDamage now d (.ofNat v) := by
      unfold Condition.unserializeProp
      rw [h]
      rfl
    have hlength : info.bytes.length = 12 := by
      simp only [IntervalInfo.bytes, List.length_append, length_leBytes]
    rw [hlength] at hread
    rw [hprop, readInto, hread]
    dsimp only
    rw [IntervalInfo.ofNat_bytes]

theorem sameKind_pushDamage (d : ConditionDamage) (info : IntervalInfo) :
    c.SameKind (c.pushDamage now d info) ∧
      (c.pushDamage now d info).derived = .damage { d with damageList := d.damageList ++ [info] } := by
  unfold Condition.pushDamage
  dsimp only
  split
  · exact ⟨⟨rfl, rfl, rfl, rfl, rfl, rfl⟩, rfl⟩
  · exact ⟨⟨rfl, rfl, rfl, rfl, rfl, rfl⟩, rfl⟩

theorem damageList_restores (infos : List IntervalInfo) (d : ConditionDamage)
    (h : c.derived = .damage d) :
    ∃ c', Restores now (fun w => infos.foldl IntervalInfo.write w) c c' ∧ c.SameKind c' ∧
      c'.derived = .damage { d with damageList := d.damageList ++ infos } := by
  induction infos generalizing c d with
  | nil => exact ⟨c, .refl c, ⟨rfl, rfl, rfl, rfl, rfl, rfl⟩, by rw [h, List.append_nil]⟩
  | cons info infos ih =>
      obtain ⟨hkind, hderived⟩ := sameKind_pushDamage now c d info
      obtain ⟨c', hrest, hkind', hderived'⟩ := ih _ _ hderived
      refine ⟨c', (intervalInfo_restores now c d info h).trans hrest, hkind.trans hkind', ?_⟩
      rw [hderived', List.append_assoc]
      rfl

theorem damage_restores (d d₀ : ConditionDamage) (h : d₀.damageList = []) :
    ∃ c', Restores now d.serialize { c with derived := .damage d₀ } c' ∧ c.SameKind c' ∧
      c'.derived = .damage
        { d₀ with
          periodDamage := d.periodDamage, delayed := d.delayed, damageList := d.damageList } := by
  let put (d : ConditionDamage) : Condition := { c with derived := .damage d }
  have delayed : Restores now (writeBool .delayed d.delayed) (put d₀)
      (put { d₀ with delayed := d.delayed }) :=
    .bool (fun v => put { d₀ with delayed := v }) _ (by decide) fun _ => rfl
  have periodDamage (d₀) : Restores now (writeInt32 .periodDamage d.periodDamage) (put d₀)
      (put { d₀ with periodDamage := d.periodDamage }) :=
    .int32 (fun v => put { d₀ with periodDamage := v }) _ (by decide) fun _ => rfl
  obtain ⟨c', hlist, hkind, hderived⟩ := damageList_restores now
    (put { d₀ with delayed := d.delayed, periodDamage := d.periodDamage }) d.damageList _ rfl
  refine ⟨c', (delayed.trans (periodDamage _)).trans hlist, ?_, ?_⟩
  · exact ⟨hkind.conditionType, hkind.id, hkind.subId, hkind.isBuff, hkind.aggressive,
      hkind.constant⟩
  · rw [hderived]
    dsimp only
    rw [h, List.nil_append]

/-- The parameters that are read. -/
def Derived.restored : Derived → Derived
  | drunk _ => .drunk {}
  | d => d.parameters

/-- A condition that is read back by what its class writes. -/
theorem derived_restores (d : Derived) (hlight : d.cls ≠ .light)
    (hattributes : d.cls ≠ .attributes) :
    ∃ c', Restores now d.serialize { c with derived := d.cls.create 0 } c' ∧ c.SameKind c' ∧
      (d.cls ≠ .damage → c'.ticks = c.ticks ∧ c'.endTime = c.endTime) ∧
      c'.derived.parameters = d.restored := by
  have same (d : Derived) : c.SameKind { c with derived := d } := ⟨rfl, rfl, rfl, rfl, rfl, rfl⟩
  cases d with
  | damage d =>
      obtain ⟨c', hread, hkind, hderived⟩ := damage_restores now c d {} rfl
      exact ⟨c', hread, hkind, fun h => absurd rfl h, by rw [hderived]; rfl⟩
  | speed d =>
      exact ⟨_, speed_restores now c d { speedDelta := 0 }, same _, fun _ => ⟨rfl, rfl⟩, rfl⟩
  | invisible => exact ⟨_, .refl _, same _, fun _ => ⟨rfl, rfl⟩, rfl⟩
  | outfit d => exact ⟨_, outfit_restores now c d {}, same _, fun _ => ⟨rfl, rfl⟩, rfl⟩
  | light d => exact absurd rfl hlight
  | regeneration d =>
      exact ⟨_, regeneration_restores now c d {}, same _, fun _ => ⟨rfl, rfl⟩, rfl⟩
  | soul d => exact ⟨_, soul_restores now c d {}, same _, fun _ => ⟨rfl, rfl⟩, rfl⟩
  | attributes d => exact absurd rfl hattributes
  | drunk d => exact ⟨_, .refl _, same _, fun _ => ⟨rfl, rfl⟩, rfl⟩
  | generic => exact ⟨_, .refl _, same _, fun _ => ⟨rfl, rfl⟩, rfl⟩

/-! ## Light

The colour is read as one byte; the three that are left of it are taken for a tag, which there is
not, and for the next condition. -/

theorem createFrom_zero (rest : List UInt8) : createFrom ⟨0 :: rest⟩ = none := by
  have : readTagged .type 4 ⟨0 :: rest⟩ = none := by
    rw [readTagged]
    have hread : (⟨0 :: rest⟩ : PropStream).read 1 = some (0, ⟨rest⟩) :=
      PropStream.read_append (show [0].length = 1 from rfl) rest
    rw [hread]
    rfl
  rw [createFrom, this]
  rfl

theorem light_bytes (d : ConditionLight) :
    ∃ bs, ∀ w, (d.serialize w).buffer = w.buffer ++ (leBytes 1 ConditionAttr.lightColor.code ++
      [d.lightInfo.color] ++ (0 :: 0 :: 0 :: bs)) := by
  have hcolor : leBytes 4 d.lightInfo.color.toUInt32.toNat = [d.lightInfo.color, 0, 0, 0] := by
    have h := d.lightInfo.color.toNat_lt
    rw [UInt8.toNat_toUInt32]
    simp only [leBytes, Nat.div_eq_of_lt h, UInt8.ofNat_toNat]
    rfl
  refine ⟨propBytes .lightLevel 4 d.lightInfo.level.toUInt32.toNat ++
    (propBytes .lightTicks 4 d.internalLightTicks.toNat ++
    propBytes .lightInterval 4 d.lightChangeInterval.toNat), fun w => ?_⟩
  simp only [ConditionLight.serialize, writeUInt32, writeProp, PropWriteStream.write, propBytes,
    hcolor, List.append_assoc]
  rfl

theorem unserialize_zero (rest : List UInt8) :
    c.unserialize now ⟨0 :: rest⟩ = .failed ⟨rest⟩ := by
  have hprop : c.unserializeProp (ConditionAttr.ofCode 0) ⟨rest⟩ now = .failed ⟨rest⟩ := by
    unfold Condition.unserializeProp
    cases c.derived <;> rfl
  have hturn := unserialize_tag now 0 (by decide) (by decide) c rest
  rw [hprop] at hturn
  exact hturn

theorem unserialize_light (d d₀ : ConditionLight) (h : c.derived = .light d₀) :
    ∃ bs, (∀ w, (d.serialize w).buffer = w.buffer ++ bs) ∧
      ∀ rest, ∃ rest', c.unserialize now ⟨bs ++ rest⟩ = .failed ⟨0 :: rest'⟩ := by
  obtain ⟨bs, hw⟩ := light_bytes d
  refine ⟨_, hw, fun rest => ⟨0 :: (bs ++ rest), ?_⟩⟩
  have hprop (s) : c.unserializeProp (some .lightColor) s now = readInto 1 s fun v =>
      { c with derived := .light { d₀ with lightInfo := ⟨d₀.lightInfo.level, UInt8.ofNat v⟩ } } := by
    unfold Condition.unserializeProp
    rw [h]
    rfl
  have hcolor := hprop ⟨[d.lightInfo.color] ++ (0 :: 0 :: 0 :: bs ++ rest)⟩
  rw [readInto, PropStream.read_append (n := 1) rfl] at hcolor
  rw [List.append_assoc, List.append_assoc, unserialize_attr (by decide), hcolor]
  exact unserialize_zero now _ _

/-! ## Attributes

The array of the special skills is full when the rates come. -/

variable {n : Nat} {attr : ConditionAttr} {put : Vector Int32 n → Nat → Condition}

/-- The tag fills the array of the condition that `put` gives, from the entry on. -/
def Fills (attr : ConditionAttr) (put : Vector Int32 n → Nat → Condition) : Prop :=
  attr ≠ .endAttr ∧ ∀ a k s, (put a k).unserializeProp (some attr) s now =
    readEntry s a k fun a => put a (k + 1)

theorem fills_room (h : Fills now attr put) {a : Vector Int32 n} {k : Nat} (hk : k < n)
    (v : Int32) :
    Restores now (writeInt32 attr v) (put a k) (put (a.set k v hk) (k + 1)) := by
  obtain ⟨hend, hprop⟩ := h
  refine Restores.prop hend v.toUInt32.toNat_lt fun s rest hread => ?_
  rw [hprop, readEntry, hread]
  dsimp only
  rw [dif_pos hk, int32_toNat]

theorem writeArray_restores (h : Fills now attr put) (vs : List Int32) (a : Vector Int32 n) (k : Nat)
    (hroom : k + vs.length ≤ n) :
    ∃ a', Restores now (writeArray attr vs) (put a k) (put a' (k + vs.length)) := by
  induction vs generalizing a k with
  | nil => exact ⟨a, .refl _⟩
  | cons v vs ih =>
      rw [List.length_cons] at hroom ⊢
      have hk : k < n := by omega
      obtain ⟨a', hrest⟩ := ih (a.set k v hk) (k + 1) (by omega)
      rw [Nat.add_assoc, Nat.add_comm 1] at hrest
      exact ⟨a', (fills_room now h hk v).trans hrest⟩

theorem writeArray_buffer (attr : ConditionAttr) (vs : List Int32) (w : PropWriteStream) :
    (writeArray attr vs w).buffer =
      w.buffer ++ vs.flatMap fun v => propBytes attr 4 v.toUInt32.toNat := by
  induction vs generalizing w with
  | nil => exact (List.append_nil _).symm
  | cons v vs ih =>
      rw [writeArray, List.foldl_cons, ← writeArray, ih, List.flatMap_cons]
      simp only [writeInt32, writeProp, propBytes, PropWriteStream.write, List.append_assoc]

/-- There is no entry for one more value. -/
theorem unserialize_overrun (h : Fills now attr put) (a : Vector Int32 n) (v : Int32)
    (rest : List UInt8) :
    (put a n).unserialize now ⟨propBytes attr 4 v.toUInt32.toNat ++ rest⟩ = .overrun := by
  obtain ⟨hend, hprop⟩ := h
  rw [propBytes, List.append_assoc, unserialize_attr hend, hprop, readEntry,
    PropStream.read_write v.toUInt32.toNat_lt]
  dsimp only
  rw [dif_neg (Nat.lt_irrefl n)]

theorem unserialize_attributes (d : ConditionAttributes) :
    ∃ bs, (∀ w, (d.serialize w).buffer = w.buffer ++ bs) ∧
      ∀ rest, ({ c with derived := .attributes {} } : Condition).unserialize now ⟨bs ++ rest⟩ =
        .overrun := by
  let put (d : ConditionAttributes) : Condition := { c with derived := .attributes d }
  have hfillsSkills : Fills now .skills fun (a : Vector Int32 7) k =>
      put { skills := a, currentSkill := k } := ⟨by decide, fun _ _ _ => rfl⟩
  obtain ⟨skills, hskills⟩ := writeArray_restores now hfillsSkills d.skills.toList
    (Vector.replicate 7 0) 0 (by simp)
  have hfillsStats : Fills now .stats fun (a : Vector Int32 4) k =>
      put { skills, currentSkill := 7, stats := a, currentStat := k } :=
    ⟨by decide, fun _ _ _ => rfl⟩
  obtain ⟨stats, hstats⟩ := writeArray_restores now hfillsStats d.stats.toList
    (Vector.replicate 4 0) 0 (by simp)
  have hdefense : Restores now (writeBool .disableDefense d.disableDefense)
      (put { skills, currentSkill := 7, stats, currentStat := 4 })
      (put { skills, currentSkill := 7, stats, currentStat := 4,
             disableDefense := d.disableDefense }) :=
    .bool (fun v => put { skills, currentSkill := 7, stats, currentStat := 4, disableDefense := v })
      _ (by decide) fun _ => rfl
  let full (a : Vector Int32 6) (k : Nat) : Condition :=
    put { skills, currentSkill := 7, stats, currentStat := 4, disableDefense := d.disableDefense,
          specialSkills := a, currentSpecialSkill := k }
  have hfills : Fills now .specialSkills full := ⟨by decide, fun _ _ _ => rfl⟩
  obtain ⟨specialSkills, hspecial⟩ := writeArray_restores now hfills d.specialSkills.toList
    (Vector.replicate 6 0) 0 (by simp)
  simp only [Vector.length_toList, Nat.zero_add] at hskills hstats hspecial
  obtain ⟨bs, hw, hread⟩ := ((hskills.trans hstats).trans hdefense).trans hspecial
  obtain ⟨v, vs, htail⟩ : ∃ v vs, d.experienceRate.toList.tail = v :: vs :=
    List.exists_cons_of_length_pos (by simp)
  refine ⟨bs ++ (v :: vs).flatMap fun v => propBytes .specialSkills 4 v.toUInt32.toNat,
    fun w => ?_, fun rest => ?_⟩
  · rw [ConditionAttributes.serialize, htail, writeArray_buffer, ← List.append_assoc, ← hw]
  · rw [List.append_assoc, hread, List.flatMap_cons, List.append_assoc]
    exact unserialize_overrun now hfills specialSkills v _

/-! ## One condition of the list -/

theorem readConditions_baseBytes {c : Condition} (h : c.WellTyped) (rest : List UInt8) :
    readConditions now ⟨c.baseBytes ++ rest⟩ =
      match c.fresh.unserialize now ⟨rest⟩ with
      | .ok c' rest' => (readConditions now rest').map (c' :: ·)
      | .failed rest' => readConditions now rest'
      | .overrun => none := by
  rw [readConditions]
  split
  · next hcreate =>
      rw [createFrom_baseBytes h] at hcreate
      cases hcreate
  · next hcreate =>
      rw [createFrom_baseBytes h] at hcreate
      cases hcreate
      split
      · next heq => rw [heq]
      · next heq => rw [heq]
      · next heq => rw [heq]

theorem save_buffer {f : PropWriteStream → PropWriteStream} {c : Condition} {bs : List UInt8}
    (hf : c.derived.serialize = f) (hw : ∀ w, (f w).buffer = w.buffer ++ bs) (w : PropWriteStream) :
    (c.save w).buffer =
      w.buffer ++ (c.baseBytes ++ (bs ++ leBytes 1 ConditionAttr.endAttr.code)) := by
  rw [Condition.save, PropWriteStream.write, Condition.serialize, hf, hw, serializeBase_buffer]
  simp only [List.append_assoc]

/-- What becomes of the conditions that are stored from this one on. -/
inductive Outcome (c : Condition) (bs : List UInt8) : Prop
  | back (c' : Condition) (same : c.Same c' ↔ c.Storable)
      (read : ∀ rest, readConditions now ⟨bs ++ rest⟩ =
        (readConditions now ⟨rest⟩).map (c' :: ·))
  | stops (lost : ¬c.Storable) (read : ∀ rest, readConditions now ⟨bs ++ rest⟩ = some [])
  | overruns (lost : ¬c.Storable) (read : ∀ rest, readConditions now ⟨bs ++ rest⟩ = none)

theorem save_back {c : Condition} (h : c.WellTyped) (hlight : c.derived.cls ≠ .light)
    (hattributes : c.derived.cls ≠ .attributes) :
    ∃ bs, (∀ w, (c.save w).buffer = w.buffer ++ bs) ∧ Outcome now c bs := by
  obtain ⟨c', ⟨bs, hw, hread⟩, hkind, htime, hparameters⟩ :=
    derived_restores now c.fresh c.derived hlight hattributes
  refine ⟨_, save_buffer rfl hw, .back c' ⟨fun hsame => ?_, fun hstorable => ?_⟩ fun rest => ?_⟩
  · have hsame := hsame.parameters
    rw [hparameters] at hsame
    unfold Condition.Storable
    cases hderived : c.derived with
    | light d => exact absurd (congrArg Derived.cls hderived) hlight
    | attributes d => exact absurd (congrArg Derived.cls hderived) hattributes
    | drunk d =>
        rw [hderived] at hsame
        cases hsame
        rfl
    | _ => trivial
  · have htimes (hdamage : c.derived.cls ≠ .damage) :
        c.fresh.ticks = c.ticks ∧ (c.constant = true → c.fresh.endTime = c.endTime) := by
      constructor
      · cases hcls : c.derived.cls <;>
          simp_all [Condition.fresh, Condition.initialTicks]
      · intro hconstant
        simp [Condition.fresh, hconstant]
    refine ⟨⟨hkind.conditionType, hkind.id, hkind.subId, hkind.isBuff, hkind.aggressive,
      hkind.constant⟩, fun hdamage => ?_, fun hdamage hconstant => ?_, ?_⟩
    · rw [(htime hdamage).1, (htimes hdamage).1]
    · rw [(htime hdamage).2, (htimes hdamage).2 hconstant]
    · rw [hparameters]
      unfold Condition.Storable at hstorable
      cases hderived : c.derived with
      | drunk d =>
          rw [hderived] at hstorable
          have : d = {} := by
            cases d
            exact congrArg ConditionDrunk.mk hstorable
          rw [this]
          rfl
      | _ => rfl
  · rw [List.append_assoc, readConditions_baseBytes now h, List.append_assoc]
    have hfresh : c.fresh.unserialize now
        ⟨bs ++ (leBytes 1 ConditionAttr.endAttr.code ++ rest)⟩ = .ok c' ⟨rest⟩ :=
      (hread _).trans (unserialize_end c' rest)
    rw [hfresh]

theorem save_outcome {c : Condition} (h : c.WellTyped) :
    ∃ bs, (∀ w, (c.save w).buffer = w.buffer ++ bs) ∧ Outcome now c bs := by
  cases hderived : c.derived with
  | light d =>
      have hlost : ¬c.Storable := by
        unfold Condition.Storable
        rw [hderived]
        exact id
      obtain ⟨bs, hw, hread⟩ := unserialize_light now c.fresh d _
        (show c.fresh.derived = .light _ by rw [Condition.fresh, hderived]; rfl)
      refine ⟨_, save_buffer (by rw [hderived]; rfl) hw, .stops hlost fun rest => ?_⟩
      rw [List.append_assoc, readConditions_baseBytes now h, List.append_assoc]
      obtain ⟨rest', hfailed⟩ := hread (leBytes 1 ConditionAttr.endAttr.code ++ rest)
      rw [hfailed]
      dsimp only
      rw [readConditions]
      split
      · rfl
      · next hcreate =>
          rw [createFrom_zero] at hcreate
          cases hcreate
  | attributes d =>
      have hlost : ¬c.Storable := by
        unfold Condition.Storable
        rw [hderived]
        exact id
      obtain ⟨bs, hw, hread⟩ := unserialize_attributes now c.fresh d
      refine ⟨_, save_buffer (by rw [hderived]; rfl) hw, .overruns hlost fun rest => ?_⟩
      have hfresh : c.fresh = { c.fresh with derived := .attributes {} } := by
        rw [Condition.fresh, hderived]
        rfl
      rw [List.append_assoc, readConditions_baseBytes now h, List.append_assoc, hfresh, hread]
  | _ =>
      exact save_back now h (fun hcls => by rw [hderived] at hcls; cases hcls)
        (fun hcls => by rw [hderived] at hcls; cases hcls)

/-! ## The list -/

theorem readConditions_nil : readConditions now ⟨[]⟩ = some [] := by
  rw [readConditions]
  split
  · rfl
  · next hcreate => cases hcreate

theorem foldl_save_roundTrip {cs : List Condition} (h : ∀ c ∈ cs, c.WellTyped) :
    ∃ bs, (∀ w, (cs.foldl Condition.save w).buffer = w.buffer ++ bs) ∧
      ((∃ cs', readConditions now ⟨bs⟩ = some cs' ∧ List.Forall₂ Condition.Same cs cs') ↔
        ∀ c ∈ cs, c.Storable) := by
  induction cs with
  | nil =>
      refine ⟨[], fun w => (List.append_nil _).symm, ?_⟩
      exact ⟨fun _ c hc => absurd hc List.not_mem_nil, fun _ => ⟨[], readConditions_nil now, .nil⟩⟩
  | cons c cs ih =>
      obtain ⟨bs, hw, hiff⟩ := ih fun c' hc' => h c' (List.mem_cons_of_mem _ hc')
      obtain ⟨bs₀, hw₀, houtcome⟩ := save_outcome now (h c List.mem_cons_self)
      refine ⟨bs₀ ++ bs, fun w => by rw [List.foldl_cons, hw, hw₀, List.append_assoc], ?_⟩
      rw [List.forall_mem_cons]
      cases houtcome with
      | back c' same read =>
          rw [read, ← same, ← hiff]
          constructor
          · rintro ⟨cs', hread, hsame⟩
            obtain ⟨cs'', hread', rfl⟩ := Option.map_eq_some_iff.mp hread
            obtain ⟨hfirst, hrest⟩ := List.forall₂_cons.mp hsame
            exact ⟨hfirst, cs'', hread', hrest⟩
          · rintro ⟨hfirst, cs'', hread, hrest⟩
            exact ⟨c' :: cs'', by rw [hread]; rfl, .cons hfirst hrest⟩
      | stops lost read =>
          rw [read]
          constructor
          · rintro ⟨cs', hread, hsame⟩
            cases hread
            cases hsame
          · rintro ⟨hstorable, _⟩
            exact absurd hstorable lost
      | overruns lost read =>
          rw [read]
          constructor
          · rintro ⟨cs', hread, _⟩
            cases hread
          · rintro ⟨hstorable, _⟩
            exact absurd hstorable lost

/-- The conditions of a player come back if and only if there is no light and no attributes one
among them, and no drunk one but of the default strength. -/
theorem conditions_roundTrip {cs : List Condition} (h : ∀ c ∈ cs, c.WellTyped) :
    RoundTrips now cs ↔ ∀ c ∈ cs, c.Storable := by
  obtain ⟨bs, hw, hiff⟩ := foldl_save_roundTrip now h
  have hbytes : writeConditions cs = bs := hw .empty
  rw [RoundTrips, hbytes]
  exact hiff

end

/-! ## A torch -/

/-- Light of a torch spell that a player has when it is saved. -/
def torch : Condition where
  endTime := 0
  subId := 0
  ticks := 60000
  conditionType := ConditionType.light.code
  isBuff := false
  aggressive := false
  id := CONDITIONID_COMBAT
  derived := .light { lightInfo := ⟨6, 215⟩ }

/-- An infight condition stored after it. -/
def infight : Condition where
  endTime := 0
  subId := 0
  ticks := 60000
  conditionType := ConditionType.infight.code
  isBuff := false
  aggressive := false
  id := CONDITIONID_DEFAULT
  derived := .generic

theorem torch_wellTyped : torch.WellTyped := by
  rw [Condition.WellTyped, torch, ConditionType.ofCode_code]
  rfl

theorem infight_wellTyped : infight.WellTyped := by
  rw [Condition.WellTyped, infight, ConditionType.ofCode_code]
  rfl

theorem infight_roundTrip : infight.WellTyped ∧ RoundTrips 0 [infight] :=
  ⟨infight_wellTyped,
    (conditions_roundTrip 0 (List.forall_mem_singleton.mpr infight_wellTyped)).mpr
      (List.forall_mem_singleton.mpr trivial)⟩

/-- Neither comes back. -/
theorem torch_lost :
    ¬∀ (now : Int64) (cs : List Condition), (∀ c ∈ cs, c.WellTyped) → RoundTrips now cs := by
  intro h
  have hw : ∀ c ∈ [torch, infight], c.WellTyped :=
    List.forall_mem_cons.mpr ⟨torch_wellTyped, List.forall_mem_singleton.mpr infight_wellTyped⟩
  obtain ⟨bs, hbytes, hiff⟩ := foldl_save_roundTrip 0 hw
  have htrip := h 0 [torch, infight] hw
  have : writeConditions [torch, infight] = bs := hbytes .empty
  rw [RoundTrips, this] at htrip
  exact hiff.mp htrip torch List.mem_cons_self

end Bruxo.Conditions
