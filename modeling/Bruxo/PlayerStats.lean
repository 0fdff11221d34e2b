import Bruxo.ConditionEffects
import Bruxo.Lib.Saturate
import Bruxo.NetworkMessage
import Mathlib.Data.List.Forall2

/-!
# The numbers of a player

`AddPlayerStats` and `AddPlayerSkills` (`protocolgame.cpp`), with what they read of a player. Each
number is cast to the width of its field, and most have a largest number that is shown; the minimum
is taken before the cast or after it.

A sum of two `int32_t` that does not fit is undefined, and so is then the field.
-/

namespace Bruxo.PlayerStats

/-! ## The player -/

structure Skill where
  level : UInt16
  percent : UInt8

structure Player where
  cannotPickupItem : Bool
  hasInfiniteCapacity : Bool
  health : Int32
  healthMax : Int32
  capacity : UInt32
  inventoryWeight : UInt32
  experience : UInt64
  level : UInt32
  levelPercent : UInt8
  mana : UInt32
  manaMax : UInt32
  magLevel : UInt32
  magLevelPercent : UInt8
  soul : UInt8
  staminaMinutes : UInt16
  baseSpeed : UInt32
  skills : Vector Skill 7
  effects : Conditions.Effects

/-- The sum of two `int32_t`, where it fits. -/
def add32 (a b : Int32) : Option Int32 :=
  if -2 ^ 31 ≤ a.toInt + b.toInt ∧ a.toInt + b.toInt < 2 ^ 31 then some (a + b) else none

namespace Player

variable (player : Player)

def varMaxHitPoints : Int32 := player.effects.varStats.getD 0 0

def varMaxManaPoints : Int32 := player.effects.varStats.getD 1 0

def varMagicPoints : Int32 := player.effects.varStats.getD 3 0

def getMaxHealth : Option Int32 := (add32 player.healthMax player.varMaxHitPoints).map (max 1)

def getFreeCapacity : UInt32 :=
  if player.cannotPickupItem then 0
  else if player.hasInfiniteCapacity then 0xFFFFFFFF
  else (max 0 (player.capacity - player.inventoryWeight).toInt32).toUInt32

/-- The sum is one of `uint32_t`. -/
def getMaxMana : UInt32 :=
  (max 0 (player.manaMax + player.varMaxManaPoints.toUInt32).toInt32).toUInt32

def getMagicLevel : UInt32 :=
  (max 0 (player.magLevel + player.varMagicPoints.toUInt32).toInt32).toUInt32

def getBaseSkill (skill : Fin 7) : UInt16 := (player.skills.get skill).level

def getSkillPercent (skill : Fin 7) : UInt8 := (player.skills.get skill).percent

def getSkillLevel (skill : Fin 7) : Option UInt16 :=
  (add32 (player.getBaseSkill skill).toUInt32.toInt32 (player.effects.varSkills.get skill)).map
    fun level => (max 0 level).toUInt32.toUInt16

end Player

/-! ## What is written -/

variable (isOTCv8 : Bool) (player : Player)

/-- The fields of the message, none where it is undefined. -/
def addPlayerStats : List (Option NetworkMessage.Field) :=
  [some (.byte 0xA0),
    some (.uint16 (min player.health.toUInt32 0xFFFF).toUInt16),
    player.getMaxHealth.map fun health => .uint16 (min health.toUInt32 0xFFFF).toUInt16,
    some (.uint32 (if player.hasInfiniteCapacity then 1000000 else player.getFreeCapacity)),
    some (.uint32 (min player.experience.toUInt32 0x7FFFFFFF)),
    some (.uint16 player.level.toUInt16),
    some (.byte player.levelPercent),
    some (.uint16 (min player.mana 0xFFFF).toUInt16),
    some (.uint16 (min player.getMaxMana 0xFFFF).toUInt16),
    some (.byte (min player.getMagicLevel 0xFF).toUInt8)] ++
  (if isOTCv8 then [some (.byte (min player.magLevel 0xFF).toUInt8)] else []) ++
  [some (.byte player.magLevelPercent),
    some (.byte player.soul),
    some (.uint16 player.staminaMinutes)] ++
  if isOTCv8 then [some (.uint16 (player.baseSpeed / 2).toUInt16)] else []

def skillFields (skill : Fin 7) : List (Option NetworkMessage.Field) :=
  if isOTCv8 then
    [(player.getSkillLevel skill).map fun level => .uint16 (min level 0xFFFF),
      some (.uint16 (player.getBaseSkill skill)),
      some (.byte (player.getSkillPercent skill))]
  else
    [(player.getSkillLevel skill).map fun level => .byte (min level.toUInt8 0xFF),
      some (.byte (player.getSkillPercent skill))]

def specialSkillFields (skill : Fin 6) : List (Option NetworkMessage.Field) :=
  [some (.uint16 (min 100 (player.effects.varSpecialSkills.get skill)).toUInt32.toUInt16),
    some (.uint16 0)]

def addPlayerSkills : List (Option NetworkMessage.Field) :=
  some (.byte 0xA1) ::
    ((List.finRange 7).flatMap (skillFields isOTCv8 player) ++
      if isOTCv8 then (List.finRange 6).flatMap (specialSkillFields player) else [])

/-! ## What is meant -/

/-- The number in a field. -/
def number : NetworkMessage.Field → Int
  | .byte v => v.toNat
  | .uint16 v => v.toNat
  | .uint32 v => v.toNat
  | .uint64 v => v.toNat
  | .string _ => 0
  | .bytes _ => 0

/-- A value of the player, and the largest number that its field shows. -/
structure Meant where
  value : Int
  largest : Int

/-- The field shows the value, or the largest number for one that is larger. -/
def Shows (field : Option NetworkMessage.Field) (meant : Meant) : Prop :=
  field.map number = some (min meant.value meant.largest)

namespace Player

def trueMaxHealth : Int := max 1 (player.healthMax.toInt + player.varMaxHitPoints.toInt)

/-- A player with infinite capacity shows one of its own. -/
def trueFreeCapacity : Int :=
  if player.hasInfiniteCapacity then 1000000
  else if player.cannotPickupItem then 0
  else max 0 ((player.capacity.toNat : Int) - player.inventoryWeight.toNat)

def manaPoints : Int := player.manaMax.toNat + player.varMaxManaPoints.toInt

def magicPoints : Int := player.magLevel.toNat + player.varMagicPoints.toInt

def skillPoints (skill : Fin 7) : Int :=
  (player.getBaseSkill skill).toNat + (player.effects.varSkills.get skill).toInt

end Player

def meantStats : List Meant :=
  [⟨player.health.toInt, 0xFFFF⟩,
    ⟨player.trueMaxHealth, 0xFFFF⟩,
    ⟨player.trueFreeCapacity, 0xFFFFFFFF⟩,
    ⟨player.experience.toNat, 0x7FFFFFFF⟩,
    ⟨player.level.toNat, 0xFFFF⟩,
    ⟨player.levelPercent.toNat, 0xFF⟩,
    ⟨player.mana.toNat, 0xFFFF⟩,
    ⟨max 0 player.manaPoints, 0xFFFF⟩,
    ⟨max 0 player.magicPoints, 0xFF⟩] ++
  (if isOTCv8 then [⟨player.magLevel.toNat, 0xFF⟩] else []) ++
  [⟨player.magLevelPercent.toNat, 0xFF⟩,
    ⟨player.soul.toNat, 0xFF⟩,
    ⟨player.staminaMinutes.toNat, 0xFFFF⟩] ++
  if isOTCv8 then [⟨(player.baseSpeed / 2).toNat, 0xFFFF⟩] else []

def meantSkill (skill : Fin 7) : List Meant :=
  if isOTCv8 then
    [⟨max 0 (player.skillPoints skill), 0xFFFF⟩,
      ⟨(player.getBaseSkill skill).toNat, 0xFFFF⟩,
      ⟨(player.getSkillPercent skill).toNat, 0xFF⟩]
  else
    [⟨max 0 (player.skillPoints skill), 0xFF⟩,
      ⟨(player.getSkillPercent skill).toNat, 0xFF⟩]

/-- A special skill is a percentage. -/
def meantSpecialSkill (skill : Fin 6) : List Meant :=
  [⟨(player.effects.varSpecialSkills.get skill).toInt, 100⟩, ⟨0, 0xFFFF⟩]

def meantSkills : List Meant :=
  (List.finRange 7).flatMap (meantSkill isOTCv8 player) ++
    if isOTCv8 then (List.finRange 6).flatMap (meantSpecialSkill player) else []

/-- After the byte of the message each field shows what is meant. -/
def Saturated (byte : UInt8) (fields : List (Option NetworkMessage.Field)) (meant : List Meant) :
    Prop :=
  ∃ rest, fields = some (.byte byte) :: rest ∧ List.Forall₂ Shows rest meant

/-! ## Where the numbers fit -/

/-- Not larger than `w` bits, or with the largest number in those that are left. -/
def Fits (w x : Nat) : Prop := x < 2 ^ w ∨ x % 2 ^ w = 2 ^ w - 1

/-- A sum of `uint32_t` that is not taken for a smaller number. -/
def SumFits (sum largest : Int) : Prop := sum < 2 ^ 31 ∨ 2 ^ 32 + largest ≤ sum

structure StatsFit : Prop where
  health : 0 ≤ player.health.toInt
  maxHealth : -2 ^ 31 ≤ player.healthMax.toInt + player.varMaxHitPoints.toInt ∧
    player.healthMax.toInt + player.varMaxHitPoints.toInt < 2 ^ 31
  capacity : player.hasInfiniteCapacity = false → player.cannotPickupItem = false →
    -2 ^ 31 ≤ (player.capacity.toNat : Int) - player.inventoryWeight.toNat ∧
      (player.capacity.toNat : Int) - player.inventoryWeight.toNat < 2 ^ 31
  experience : player.experience.toNat < 2 ^ 32 ∨ 2 ^ 31 - 1 ≤ player.experience.toNat % 2 ^ 32
  level : Fits 16 player.level.toNat
  manaPoints : SumFits player.manaPoints 0xFFFF
  magicPoints : SumFits player.magicPoints 0xFF
  baseSpeed : isOTCv8 = true → Fits 16 (player.baseSpeed / 2).toNat

structure SkillsFit : Prop where
  sum : ∀ skill, player.skillPoints skill < 2 ^ 31
  skill : ∀ skill, Fits (if isOTCv8 then 16 else 8) (player.skillPoints skill).toNat
  specialSkill : isOTCv8 = true → ∀ skill, 0 ≤ (player.effects.varSpecialSkills.get skill).toInt

/-! ## Casts -/

section Casts

theorem toNat_min8 (a b : UInt8) : (min a b).toNat = min a.toNat b.toNat :=
  Saturate.map_min_of_le UInt8.toNat (fun _ _ => UInt8.le_iff_toNat_le) a b

theorem toNat_min16 (a b : UInt16) : (min a b).toNat = min a.toNat b.toNat :=
  Saturate.map_min_of_le UInt16.toNat (fun _ _ => UInt16.le_iff_toNat_le) a b

theorem toNat_min32 (a b : UInt32) : (min a b).toNat = min a.toNat b.toNat :=
  Saturate.map_min_of_le UInt32.toNat (fun _ _ => UInt32.le_iff_toNat_le) a b

theorem toInt_min32 (a b : Int32) : (min a b).toInt = min a.toInt b.toInt :=
  Saturate.map_min_of_le Int32.toInt (fun _ _ => Int32.le_iff_toInt_le) a b

theorem toInt_max32 (a b : Int32) : (max a b).toInt = max a.toInt b.toInt :=
  Saturate.map_max_of_le Int32.toInt (fun _ _ => Int32.le_iff_toInt_le) a b

theorem toNat_toUInt32 (x : Int32) : (x.toUInt32.toNat : Int) = x.toInt % 2 ^ 32 := by
  have hcond := BitVec.toInt_eq_toNat_cond x.toBitVec
  have hlt := x.toBitVec.isLt
  rw [Int32.toInt_toBitVec] at hcond
  change (x.toBitVec.toNat : Int) = _
  split at hcond
  · omega
  · omega

theorem toNat_toUInt32_of_nonneg {x : Int32} (h : 0 ≤ x.toInt) :
    (x.toUInt32.toNat : Int) = x.toInt := by
  have hlt := x.toInt_lt
  rw [toNat_toUInt32]
  omega

theorem toInt_toInt32 (x : UInt32) : x.toInt32.toInt = (x.toNat : Int).bmod (2 * 2 ^ 31) :=
  BitVec.toInt_eq_toNat_bmod x.toBitVec

theorem toInt_add (a : UInt32) (b : Int32) :
    (a + b.toUInt32).toInt32.toInt = ((a.toNat : Int) + b.toInt).bmod (2 * 2 ^ 31) := by
  have hrange : (2 : Int) ^ 32 = ((2 * 2 ^ 31 : Nat) : Int) := by norm_num
  have hrange' : ((2 ^ 32 : Nat) : Int) = ((2 * 2 ^ 31 : Nat) : Int) := by norm_num
  rw [toInt_toInt32, UInt32.toNat_add, Int.natCast_emod, Int.natCast_add, toNat_toUInt32 b, hrange,
    hrange', Int.emod_bmod, Int.add_emod_bmod]

theorem toInt_sub (a b : UInt32) :
    (a - b).toInt32.toInt = ((a.toNat : Int) - b.toNat).bmod (2 * 2 ^ 31) := by
  have hlt := b.toNat_lt
  rw [toInt_toInt32, UInt32.toNat_sub, Int.natCast_emod]
  refine (Int.emod_bmod _ _).trans ?_
  have hcast : ((2 ^ 32 - b.toNat + a.toNat : Nat) : Int) =
      (a.toNat : Int) - b.toNat + ((2 * 2 ^ 31 : Nat) : Int) := by omega
  rw [hcast]
  exact Int.add_bmod_right _ _

theorem toNat_max0 (x : Int32) : ((max 0 x).toUInt32.toNat : Int) = max 0 x.toInt := by
  rw [toNat_toUInt32_of_nonneg, toInt_max32]
  · rfl
  · rw [toInt_max32]
    exact le_max_left _ _

end Casts

/-! ## Lists of fields -/

section Lists

variable {ι α β : Type} {R : α → β → Prop}

theorem forall₂_append_iff {l₁ l₂ : List α} {m₁ m₂ : List β} (hlength : l₁.length = m₁.length) :
    List.Forall₂ R (l₁ ++ l₂) (m₁ ++ m₂) ↔ List.Forall₂ R l₁ m₁ ∧ List.Forall₂ R l₂ m₂ := by
  constructor
  · intro h
    have htake := List.forall₂_take_append _ _ _ h
    have hdrop := List.forall₂_drop_append _ _ _ h
    rw [← hlength] at htake hdrop
    rw [List.take_left] at htake
    rw [List.drop_left] at hdrop
    exact ⟨htake, hdrop⟩
  · rintro ⟨hfirst, hlast⟩
    exact List.rel_append hfirst hlast

theorem forall₂_flatMap_iff {l : List ι} {f : ι → List α} {g : ι → List β}
    (hlength : ∀ i, (f i).length = (g i).length) :
    List.Forall₂ R (l.flatMap f) (l.flatMap g) ↔ ∀ i ∈ l, List.Forall₂ R (f i) (g i) := by
  induction l with
  | nil => exact iff_of_true .nil fun _ h => by cases h
  | cons i l ih =>
      rw [List.flatMap_cons, List.flatMap_cons, forall₂_append_iff (hlength i), ih,
        List.forall_mem_cons]

theorem forall₂_if_iff {c : Bool} {l : List α} {m : List β} :
    List.Forall₂ R (if c then l else []) (if c then m else []) ↔
      (c = true → List.Forall₂ R l m) := by
  cases c with
  | false => exact iff_of_true .nil fun h => by cases h
  | true => exact ⟨fun h _ => h, fun h => h rfl⟩

theorem forall₂_singleton_iff {a : α} {b : β} : List.Forall₂ R [a] [b] ↔ R a b := by
  rw [List.forall₂_cons, and_iff_left List.Forall₂.nil]

end Lists

/-! ## Fields -/

section Fields

variable {value : Int}

theorem shows_some {field : NetworkMessage.Field} {largest : Int} :
    Shows (some field) ⟨value, largest⟩ ↔ number field = min value largest :=
  Option.some_inj

/-- What is written as it is fits its field. -/
theorem shows_self {field : NetworkMessage.Field} {largest : Int} (h : number field ≤ largest) :
    Shows (some field) ⟨number field, largest⟩ :=
  shows_some.mpr (min_eq_left h).symm

theorem shows_min16 (x : UInt32) :
    Shows (some (.uint16 (min x 0xFFFF).toUInt16)) ⟨value, 0xFFFF⟩ ↔
      min (x.toNat : Int) 0xFFFF = min value 0xFFFF := by
  have hnumber : number (.uint16 (min x 0xFFFF).toUInt16) = min (x.toNat : Int) 0xFFFF := by
    change (((min x 0xFFFF).toUInt16.toNat : Nat) : Int) = _
    rw [UInt32.toNat_toUInt16, toNat_min32]
    change ((min x.toNat 0xFFFF % 2 ^ 16 : Nat) : Int) = _
    omega
  rw [shows_some, hnumber]

theorem shows_min8 (x : UInt32) :
    Shows (some (.byte (min x 0xFF).toUInt8)) ⟨value, 0xFF⟩ ↔
      min (x.toNat : Int) 0xFF = min value 0xFF := by
  have hnumber : number (.byte (min x 0xFF).toUInt8) = min (x.toNat : Int) 0xFF := by
    change (((min x 0xFF).toUInt8.toNat : Nat) : Int) = _
    rw [UInt32.toNat_toUInt8, toNat_min32]
    change ((min x.toNat 0xFF % 2 ^ 8 : Nat) : Int) = _
    omega
  rw [shows_some, hnumber]

theorem shows_byte (v : UInt8) : Shows (some (.byte v)) ⟨v.toNat, 0xFF⟩ := by
  have hlt := v.toNat_lt
  exact shows_self (by change (v.toNat : Int) ≤ _; omega)

theorem shows_uint16 (v : UInt16) : Shows (some (.uint16 v)) ⟨v.toNat, 0xFFFF⟩ := by
  have hlt := v.toNat_lt
  exact shows_self (by change (v.toNat : Int) ≤ _; omega)

/-- A number that is cut to the width of its field. -/
theorem shows_cut {field : NetworkMessage.Field} {w x : Nat} {largest : Int}
    (hlargest : largest = (2 ^ w - 1 : Nat)) (hfield : number field = (x % 2 ^ w : Nat)) :
    Shows (some field) ⟨x, largest⟩ ↔ Fits w x := by
  rw [shows_some, Fits, ← Saturate.mod_eq_min_iff, hfield, hlargest]
  omega

theorem not_shows_none {meant : Meant} : ¬ Shows none meant := fun h => by cases h

theorem shows_health (x : Int32) :
    Shows (some (.uint16 (min x.toUInt32 0xFFFF).toUInt16)) ⟨x.toInt, 0xFFFF⟩ ↔ 0 ≤ x.toInt := by
  have hlow := x.le_toInt
  have hhigh := x.toInt_lt
  rw [shows_min16, toNat_toUInt32]
  omega

theorem add32_eq_none {a b : Int32}
    (h : ¬ (-2 ^ 31 ≤ a.toInt + b.toInt ∧ a.toInt + b.toInt < 2 ^ 31)) : add32 a b = none :=
  if_neg h

theorem add32_eq_some {a b : Int32} (hlow : -2 ^ 31 ≤ a.toInt + b.toInt)
    (hhigh : a.toInt + b.toInt < 2 ^ 31) :
    ∃ c, add32 a b = some c ∧ c.toInt = a.toInt + b.toInt := by
  refine ⟨a + b, if_pos ⟨hlow, hhigh⟩, ?_⟩
  rw [Int32.toInt_add]
  exact @Saturate.bmod_of_mem (a.toInt + b.toInt) (2 ^ 31) hlow hhigh

end Fields

section Player

variable {isOTCv8 : Bool} {player : Player}

theorem shows_maxHealth :
    Shows (player.getMaxHealth.map fun health => .uint16 (min health.toUInt32 0xFFFF).toUInt16)
        ⟨player.trueMaxHealth, 0xFFFF⟩ ↔
      -2 ^ 31 ≤ player.healthMax.toInt + player.varMaxHitPoints.toInt ∧
        player.healthMax.toInt + player.varMaxHitPoints.toInt < 2 ^ 31 := by
  rw [Player.getMaxHealth, Player.trueMaxHealth]
  by_cases hfits : -2 ^ 31 ≤ player.healthMax.toInt + player.varMaxHitPoints.toInt ∧
      player.healthMax.toInt + player.varMaxHitPoints.toInt < 2 ^ 31
  · obtain ⟨sum, hsum, htoInt⟩ := add32_eq_some hfits.1 hfits.2
    have hmax : (max 1 sum).toInt =
        max 1 (player.healthMax.toInt + player.varMaxHitPoints.toInt) := by
      rw [toInt_max32, htoInt]
      rfl
    rw [hsum, ← hmax]
    refine iff_of_true ((shows_health (max 1 sum)).mpr ?_) hfits
    rw [hmax]
    exact zero_le_one.trans (le_max_left 1 _)
  · rw [add32_eq_none hfits]
    exact iff_of_false not_shows_none hfits

theorem shows_capacity :
    Shows (some (.uint32 (if player.hasInfiniteCapacity then 1000000 else player.getFreeCapacity)))
        ⟨player.trueFreeCapacity, 0xFFFFFFFF⟩ ↔
      (player.hasInfiniteCapacity = false → player.cannotPickupItem = false →
        -2 ^ 31 ≤ (player.capacity.toNat : Int) - player.inventoryWeight.toNat ∧
          (player.capacity.toNat : Int) - player.inventoryWeight.toNat < 2 ^ 31) := by
  have hcapacity := player.capacity.toNat_lt
  have hweight := player.inventoryWeight.toNat_lt
  rw [shows_some, Player.trueFreeCapacity, Player.getFreeCapacity]
  cases player.hasInfiniteCapacity with
  | true => exact iff_of_true rfl fun h => by cases h
  | false =>
      cases player.cannotPickupItem with
      | true => exact iff_of_true rfl fun _ h => by cases h
      | false =>
          have hfree := toNat_max0 (player.capacity - player.inventoryWeight).toInt32
          rw [toInt_sub] at hfree
          have hiff := @Saturate.max_bmod_eq_iff
            ((player.capacity.toNat : Int) - player.inventoryWeight.toNat) (2 ^ 31)
            (by omega) (by omega)
          rw [← hfree] at hiff
          simp only [Bool.false_eq_true, if_false, forall_const]
          refine Iff.trans ?_ hiff
          rw [min_eq_left (by omega)]
          exact Iff.rfl

theorem shows_experience :
    Shows (some (.uint32 (min player.experience.toUInt32 0x7FFFFFFF)))
        ⟨player.experience.toNat, 0x7FFFFFFF⟩ ↔
      player.experience.toNat < 2 ^ 32 ∨ 2 ^ 31 - 1 ≤ player.experience.toNat % 2 ^ 32 := by
  have hnumber : number (.uint32 (min player.experience.toUInt32 0x7FFFFFFF)) =
      (min (player.experience.toNat % 2 ^ 32) (2 ^ 31 - 1) : Nat) := by
    change ((min player.experience.toUInt32 0x7FFFFFFF).toNat : Int) = _
    rw [toNat_min32, UInt64.toNat_toUInt32]
    rfl
  have hiff := @Saturate.min_mod_eq_min_iff player.experience.toNat 32 (2 ^ 31 - 1) (by decide)
  rw [shows_some, hnumber, ← hiff]
  omega

/-- The sum is taken for a negative number from `2 ^ 31` on. -/
theorem min_sum_eq_iff (a : UInt32) (b : Int32) {largest : Int} (hlow : 0 < largest)
    (hhigh : largest < 2 ^ 31) :
    min ((max 0 (a + b.toUInt32).toInt32).toUInt32.toNat : Int) largest =
        min (max 0 (a.toNat + b.toInt)) largest ↔ SumFits (a.toNat + b.toInt) largest := by
  have hlt := a.toNat_lt
  have hlowb := b.le_toInt
  have hhighb := b.toInt_lt
  rw [toNat_max0, toInt_add]
  exact @Saturate.min_bmod_eq_iff _ largest (2 ^ 31) hlow hhigh (by omega) (by omega)

theorem shows_sum16 (a : UInt32) (b : Int32) :
    Shows (some (.uint16 (min (max 0 (a + b.toUInt32).toInt32).toUInt32 0xFFFF).toUInt16))
        ⟨max 0 (a.toNat + b.toInt), 0xFFFF⟩ ↔ SumFits (a.toNat + b.toInt) 0xFFFF :=
  (shows_min16 _).trans (min_sum_eq_iff a b (by decide) (by decide))

theorem shows_sum8 (a : UInt32) (b : Int32) :
    Shows (some (.byte (min (max 0 (a + b.toUInt32).toInt32).toUInt32 0xFF).toUInt8))
        ⟨max 0 (a.toNat + b.toInt), 0xFF⟩ ↔ SumFits (a.toNat + b.toInt) 0xFF :=
  (shows_min8 _).trans (min_sum_eq_iff a b (by decide) (by decide))

theorem shows_specialSkill (x : Int32) :
    Shows (some (.uint16 (min 100 x).toUInt32.toUInt16)) ⟨x.toInt, 100⟩ ↔ 0 ≤ x.toInt := by
  have hlow := x.le_toInt
  have hnumber : number (.uint16 (min 100 x).toUInt32.toUInt16) =
      (min 100 x.toInt) % 2 ^ 32 % 2 ^ 16 := by
    have hmin : (min 100 x).toInt = min 100 x.toInt := toInt_min32 100 x
    change (((min 100 x).toUInt32.toUInt16.toNat : Nat) : Int) = _
    rw [UInt32.toNat_toUInt16, Int.natCast_emod, toNat_toUInt32, hmin]
    rfl
  rw [shows_some, hnumber]
  omega

/-! ## Skills -/

theorem toInt_baseSkill (level : UInt16) : level.toUInt32.toInt32.toInt = level.toNat := by
  have hlt := level.toNat_lt
  rw [toInt_toInt32, UInt16.toNat_toUInt32]
  exact @Saturate.bmod_of_mem level.toNat (2 ^ 31) (by omega) (by omega)

theorem getSkillLevel_eq_none {skill : Fin 7} (h : ¬ player.skillPoints skill < 2 ^ 31) :
    player.getSkillLevel skill = none := by
  rw [Player.skillPoints, ← toInt_baseSkill] at h
  rw [Player.getSkillLevel, add32_eq_none fun hfits => h hfits.2]
  rfl

theorem getSkillLevel_eq_some {skill : Fin 7} (h : player.skillPoints skill < 2 ^ 31) :
    ∃ v, player.getSkillLevel skill = some v ∧
      v.toNat = (player.skillPoints skill).toNat % 2 ^ 16 := by
  have hlow := (player.effects.varSkills.get skill).le_toInt
  rw [Player.skillPoints, ← toInt_baseSkill] at h ⊢
  have hbase := toInt_baseSkill (player.getBaseSkill skill)
  obtain ⟨level, hlevel, htoInt⟩ := add32_eq_some (by omega) h
  refine ⟨(max 0 level).toUInt32.toUInt16, by rw [Player.getSkillLevel, hlevel]; rfl, ?_⟩
  have hmax := toNat_max0 level
  rw [UInt32.toNat_toUInt16, ← htoInt]
  omega

/-- The level is cut to 16 bits, and then to those of its field. -/
theorem shows_skill {toField : UInt16 → NetworkMessage.Field} {w : Nat} {largest : Int}
    {skill : Fin 7} (hw : w ≤ 16) (hlargest : largest = (2 ^ w - 1 : Nat))
    (hfield : ∀ level, number (toField level) = (level.toNat % 2 ^ w : Nat)) :
    Shows ((player.getSkillLevel skill).map toField)
        ⟨max 0 (player.skillPoints skill), largest⟩ ↔
      player.skillPoints skill < 2 ^ 31 ∧ Fits w (player.skillPoints skill).toNat := by
  by_cases hsum : player.skillPoints skill < 2 ^ 31
  · obtain ⟨v, hv, htoNat⟩ := getSkillLevel_eq_some hsum
    have hcut : number (toField v) = ((player.skillPoints skill).toNat % 2 ^ w : Nat) := by
      rw [hfield, htoNat, Nat.mod_mod_of_dvd _ (Nat.pow_dvd_pow 2 hw)]
    rw [hv, and_iff_right hsum, max_comm, ← Int.ofNat_toNat]
    exact shows_cut hlargest hcut
  · rw [getSkillLevel_eq_none hsum]
    exact iff_of_false not_shows_none fun h => hsum h.1

theorem number_uint16 (level : UInt16) :
    number (.uint16 (min level 0xFFFF)) = (level.toNat % 2 ^ 16 : Nat) := by
  have hlt := level.toNat_lt
  change ((min level 0xFFFF).toNat : Int) = _
  rw [toNat_min16]
  change ((min level.toNat 0xFFFF : Nat) : Int) = _
  omega

theorem number_byte (level : UInt16) :
    number (.byte (min level.toUInt8 0xFF)) = (level.toNat % 2 ^ 8 : Nat) := by
  change ((min level.toUInt8 0xFF).toNat : Int) = _
  rw [toNat_min8, UInt16.toNat_toUInt8]
  change ((min (level.toNat % 2 ^ 8) 0xFF : Nat) : Int) = _
  omega

theorem skillFields_iff (skill : Fin 7) :
    List.Forall₂ Shows (skillFields isOTCv8 player skill) (meantSkill isOTCv8 player skill) ↔
      player.skillPoints skill < 2 ^ 31 ∧
        Fits (if isOTCv8 then 16 else 8) (player.skillPoints skill).toNat := by
  have hpercent := shows_byte (player.getSkillPercent skill)
  have hbase := shows_uint16 (player.getBaseSkill skill)
  cases isOTCv8 with
  | true =>
      change List.Forall₂ Shows [_, _, _] [_, _, _] ↔ _
      rw [List.forall₂_cons, List.forall₂_cons, forall₂_singleton_iff,
        and_iff_left ⟨hbase, hpercent⟩]
      exact shows_skill le_rfl rfl number_uint16
  | false =>
      change List.Forall₂ Shows [_, _] [_, _] ↔ _
      rw [List.forall₂_cons, forall₂_singleton_iff, and_iff_left hpercent]
      exact shows_skill (by decide) rfl number_byte

theorem specialSkillFields_iff (skill : Fin 6) :
    List.Forall₂ Shows (specialSkillFields player skill) (meantSpecialSkill player skill) ↔
      0 ≤ (player.effects.varSpecialSkills.get skill).toInt := by
  rw [specialSkillFields, meantSpecialSkill, List.forall₂_cons, forall₂_singleton_iff,
    shows_specialSkill]
  exact and_iff_left rfl

theorem saturated_cons {byte : UInt8} {rest : List (Option NetworkMessage.Field)}
    {meant : List Meant} :
    Saturated byte (some (.byte byte) :: rest) meant ↔ List.Forall₂ Shows rest meant := by
  constructor
  · rintro ⟨rest', hrest, hshows⟩
    obtain rfl := (List.cons.inj hrest).2
    exact hshows
  · intro hshows
    exact ⟨rest, rfl, hshows⟩

theorem saturated_skills :
    Saturated 0xA1 (addPlayerSkills isOTCv8 player) (meantSkills isOTCv8 player) ↔
      SkillsFit isOTCv8 player := by
  have hlength (skill : Fin 7) :
      (skillFields isOTCv8 player skill).length = (meantSkill isOTCv8 player skill).length := by
    cases isOTCv8 <;> rfl
  have hspecial (skill : Fin 6) : (specialSkillFields player skill).length =
      (meantSpecialSkill player skill).length := rfl
  have hblocks : List.Forall₂ Shows
      ((List.finRange 7).flatMap (skillFields isOTCv8 player) ++
        if isOTCv8 then (List.finRange 6).flatMap (specialSkillFields player) else [])
      (meantSkills isOTCv8 player) ↔ SkillsFit isOTCv8 player := by
    rw [meantSkills, forall₂_append_iff, forall₂_if_iff, forall₂_flatMap_iff hlength,
      forall₂_flatMap_iff hspecial]
    · simp only [skillFields_iff, specialSkillFields_iff, List.mem_finRange, forall_const]
      constructor
      · rintro ⟨hskills, hspecial⟩
        exact ⟨fun skill => (hskills skill).1, fun skill => (hskills skill).2, hspecial⟩
      · intro h
        exact ⟨fun skill => ⟨h.sum skill, h.skill skill⟩, h.specialSkill⟩
    · rw [List.length_flatMap, List.length_flatMap]
      exact congrArg List.sum (List.map_congr_left fun skill _ => hlength skill)
  exact saturated_cons.trans hblocks

/-! ## Stats -/

theorem saturated_stats :
    Saturated 0xA0 (addPlayerStats isOTCv8 player) (meantStats isOTCv8 player) ↔
      StatsFit isOTCv8 player := by
  have hlevel : Shows (some (.uint16 player.level.toUInt16)) ⟨player.level.toNat, 0xFFFF⟩ ↔
      Fits 16 player.level.toNat :=
    shows_cut rfl (congrArg Nat.cast player.level.toNat_toUInt16)
  have hspeed : Shows (some (.uint16 (player.baseSpeed / 2).toUInt16))
      ⟨(player.baseSpeed / 2).toNat, 0xFFFF⟩ ↔ Fits 16 (player.baseSpeed / 2).toNat :=
    shows_cut rfl (congrArg Nat.cast (player.baseSpeed / 2).toNat_toUInt16)
  have hmana : Shows (some (.uint16 (min player.mana 0xFFFF).toUInt16))
      ⟨player.mana.toNat, 0xFFFF⟩ := (shows_min16 player.mana).mpr rfl
  have hmagLevel : Shows (some (.byte (min player.magLevel 0xFF).toUInt8))
      ⟨player.magLevel.toNat, 0xFF⟩ := (shows_min8 player.magLevel).mpr rfl
  have hmanaPoints : Shows (some (.uint16 (min player.getMaxMana 0xFFFF).toUInt16))
      ⟨max 0 player.manaPoints, 0xFFFF⟩ ↔ SumFits player.manaPoints 0xFFFF :=
    shows_sum16 player.manaMax player.varMaxManaPoints
  have hmagicPoints : Shows (some (.byte (min player.getMagicLevel 0xFF).toUInt8))
      ⟨max 0 player.magicPoints, 0xFF⟩ ↔ SumFits player.magicPoints 0xFF :=
    shows_sum8 player.magLevel player.varMagicPoints
  rw [addPlayerStats, List.cons_append, List.cons_append, List.cons_append]
  refine saturated_cons.trans ?_
  rw [meantStats, forall₂_append_iff (by cases isOTCv8 <;> rfl),
    forall₂_append_iff (by cases isOTCv8 <;> rfl), forall₂_append_iff (by rfl), forall₂_if_iff,
    forall₂_if_iff]
  simp only [List.forall₂_cons, List.Forall₂.nil, shows_health,
    shows_maxHealth, shows_capacity, shows_experience, hlevel, shows_byte, shows_uint16, hmana,
    hmanaPoints, hmagicPoints, hmagLevel, hspeed, true_and, and_true, implies_true]
  constructor
  · rintro ⟨⟨hhealth, hmaxHealth, hcapacity, hexperience, hfits, hpoints, hmagic⟩, hbaseSpeed⟩
    exact ⟨hhealth, hmaxHealth, hcapacity, hexperience, hfits, hpoints, hmagic, hbaseSpeed⟩
  · intro h
    exact ⟨⟨h.health, h.maxHealth, h.capacity, h.experience, h.level, h.manaPoints,
      h.magicPoints⟩, h.baseSpeed⟩

end Player

/-- Both messages show the numbers of a player, or their largest ones, exactly where these fit: a
cast before the minimum, and one without a minimum, is seen in larger values. -/
theorem status_fields (isOTCv8 : Bool) (player : Player) :
    (Saturated 0xA0 (addPlayerStats isOTCv8 player) (meantStats isOTCv8 player) ∧
        Saturated 0xA1 (addPlayerSkills isOTCv8 player) (meantSkills isOTCv8 player)) ↔
      StatsFit isOTCv8 player ∧ SkillsFit isOTCv8 player :=
  and_congr saturated_stats saturated_skills

/-- A player of level 638 with an experience of 2^32 and a ring that brings its first skill to
256. -/
def veteran : Player where
  cannotPickupItem := false
  hasInfiniteCapacity := false
  health := 3335
  healthMax := 3335
  capacity := 677000
  inventoryWeight := 0
  experience := 4294967296
  level := 638
  levelPercent := 35
  mana := 3190
  manaMax := 3190
  magLevel := 10
  magLevelPercent := 0
  soul := 100
  staminaMinutes := 2520
  baseSpeed := 1494
  skills := Vector.replicate 7 ⟨246, 0⟩
  effects :=
    { varSkills := Vector.ofFn fun i => if i.val = 0 then 10 else 0
      varSpecialSkills := Vector.replicate 6 0
      varStats := Vector.replicate 4 0
      experienceRate := Vector.replicate 5 100
      varSpeed := 0
      canUseDefense := true }

/-- It is shown an experience of 0 and, by a plain client, a skill of 0. -/
theorem status_fields_veteran :
    ¬ Saturated 0xA0 (addPlayerStats false veteran) (meantStats false veteran) ∧
      ¬ Saturated 0xA1 (addPlayerSkills false veteran) (meantSkills false veteran) ∧
      (addPlayerStats false veteran)[4]? = some (some (.uint32 0)) ∧
      (addPlayerSkills false veteran)[1]? = some (some (.byte 0)) := by
  refine ⟨fun h => ?_, fun h => ?_, rfl, rfl⟩
  · exact absurd (saturated_stats.mp h).experience (by decide)
  · exact absurd ((saturated_skills.mp h).skill 0) (by unfold Fits; decide)

end Bruxo.PlayerStats
