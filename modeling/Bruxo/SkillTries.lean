import Bruxo.LevelProgress
import Bruxo.Lib.Runs
import Mathlib.Logic.Function.Basic

/-!
# Skill levels

`Player::addSkillAdvance` and `removeSkillTries` (`player.cpp`) with `Vocation::getReqSkillTries`
(`vocation.cpp`). Adding is exact until the requirement stops growing, but for a first sum that
wraps around. Taking away narrows what is left at the level that is reached to a signed number of 32
bits, and keeps nothing of it where that is negative.

The events, the messages and the percent that the client shows are left out.
-/

namespace Bruxo.SkillTries

open LevelProgress Runs

inductive Skills where
  | fist
  | club
  | sword
  | axe
  | distance
  | shield
  | fishing
  deriving DecidableEq

/-- The lowest level of a skill, `MINIMUM_SKILL_LEVEL`. -/
abbrev minimum : Nat := 10

/-- The base of a skill times the powers of its multiplier, cut to numbers of 64 bits. They grow
from one exponent to the next, or fall. -/
structure Vocation where
  scaled : Skills → Int → Nat
  lt : ∀ skill n, scaled skill n < 2 ^ 64
  powers : ∀ skill, scaled skill (-11) ≤ scaled skill (-1) ∨ scaled skill 0 ≤ scaled skill (-1)

def Vocation.getReqSkillTries (vocation : Vocation) (skill : Skills) (level : Nat) : Nat :=
  vocation.scaled skill ((level : Int) - (minimum + 1))

/-- `std::max<int32_t>(0, value)` of a number of 64 bits. -/
def maxInt32 (value : Nat) : Nat := if value % 2 ^ 32 < 2 ^ 31 then value % 2 ^ 32 else 0

section Skill

variable (req : Nat → Nat)

/-- `addSkillAdvance`, of the count that the event gives back. -/
def addSkillAdvance (s : Progress) (count : Nat) : Option Progress :=
  if req ((s.level + 1) % 2 ^ 16) ≤ req s.level then some s
  else if count = 0 then some s
  else climb req (2 ^ 16) (2 ^ 64 + 1) s count

def removeSkillTries (s : Progress) (count : Nat) : Progress :=
  match descend req minimum s.level s.points count with
  | (level, tries, count) =>
      if tries < count then ⟨minimum, maxInt32 0⟩ else ⟨level, maxInt32 (tries - count)⟩

end Skill

/-! ## The skills of a player -/

abbrev Player := Skills → Progress

inductive Op where
  | add (skill : Skills) (count : UInt64)
  | remove (skill : Skills) (count : UInt64)

section Ops

variable (vocation : Vocation)

def step (p : Player) : Op → Player
  | .add skill count =>
      Function.update p skill
        ((addSkillAdvance (vocation.getReqSkillTries skill) (p skill) count.toNat).getD (p skill))
  | .remove skill count =>
      Function.update p skill
        (removeSkillTries (vocation.getReqSkillTries skill) (p skill) count.toNat)

def totalTries (p : Player) (skill : Skills) : Nat :=
  total (vocation.getReqSkillTries skill) minimum (p skill)

/-- Adding comes to an end with all of the count, as long as it stays below where the requirement
stops growing; taking away takes the count, or all there is above the lowest level. Neither changes
another skill. -/
def Accounts (p : Player) (op : Op) : Prop :=
  match op with
  | .add skill count =>
      (addSkillAdvance (vocation.getReqSkillTries skill) (p skill) count.toNat).isSome = true ∧
        (∀ other, other ≠ skill → step vocation p op other = p other) ∧
        (BelowCap (vocation.getReqSkillTries skill) (2 ^ 16) minimum (p skill) count.toNat →
          totalTries vocation (step vocation p op) skill =
            totalTries vocation p skill + count.toNat)
  | .remove skill count =>
      (∀ other, other ≠ skill → step vocation p op other = p other) ∧
        totalTries vocation (step vocation p op) skill =
          totalTries vocation p skill - count.toNat

/-- What is left of a total at the level that is reached, at most `level`, is less than `2 ^ 31`. -/
def LeavesFew (req : Nat → Nat) (level rest : Nat) : Prop :=
  ∀ l, minimum ≤ l → l ≤ level → gained req minimum l ≤ rest →
    (l < level → rest < gained req minimum (l + 1)) → rest - gained req minimum l < 2 ^ 31

/-- Below the cap the first sum does not wrap around to less than the next level asks for; what is
left after taking away is a number of 31 bits. -/
def Meets (p : Player) : Op → Prop
  | .add skill count =>
      BelowCap (vocation.getReqSkillTries skill) (2 ^ 16) minimum (p skill) count.toNat →
        ¬ Wraps (vocation.getReqSkillTries skill) (p skill) count.toNat
  | .remove skill count =>
      LeavesFew (vocation.getReqSkillTries skill) (p skill).level
        (totalTries vocation p skill - count.toNat)

end Ops

section Steps

variable {req : Nat → Nat} {s : Progress}

abbrev Kind (req : Nat → Nat) : Prop := Fits req (2 ^ 16) minimum

theorem getReqSkillTries_fits (vocation : Vocation) (skill : Skills) :
    Kind (vocation.getReqSkillTries skill) where
  lt _ := vocation.lt skill _
  room := by decide
  zero := vocation.powers skill

theorem maxInt32_le (value : Nat) : maxInt32 value ≤ value := by
  unfold maxInt32
  split
  · exact Nat.mod_le _ _
  · exact Nat.zero_le _

theorem maxInt32_eq_iff {value : Nat} : maxInt32 value = value ↔ value < 2 ^ 31 := by
  unfold maxInt32
  split <;> omega

theorem addSkillAdvance_spec (hfits : Kind req) (hs : Sound req (2 ^ 16) minimum s)
    (count : UInt64) :
    ∃ s', addSkillAdvance req s count.toNat = some s' ∧ Sound req (2 ^ 16) minimum s' ∧
      (BelowCap req (2 ^ 16) minimum s count.toNat →
        (total req minimum s' = total req minimum s + count.toNat ↔
          ¬ Wraps req s count.toNat)) := by
  have hsmall := points_lt hfits hs
  have hnothing : ∀ k, k = 0 → ¬ Wraps req s k := by
    rintro k rfl ⟨hmany, -⟩
    omega
  unfold addSkillAdvance
  by_cases hcap : req ((s.level + 1) % 2 ^ 16) ≤ req s.level
  · rw [if_pos hcap]
    refine ⟨s, rfl, hs, fun hbelow => ?_⟩
    have hall := belowCap_of_cap hcap hbelow
    have hzero : count.toNat = 0 := by
      unfold total at hall
      omega
    rw [hzero]
    exact iff_of_true rfl (hnothing 0 rfl)
  rw [if_neg hcap]
  by_cases hzero : count.toNat = 0
  · rw [if_pos hzero, hzero]
    exact ⟨s, rfl, hs, fun _ => iff_of_true rfl (hnothing 0 rfl)⟩
  rw [if_neg hzero]
  have hlt := count.toNat_lt
  obtain ⟨s', hs', hsound, -, hwraps, hexact⟩ := climb_spec (n := 2 ^ 64 + 1) hfits hs
    (Nat.not_le.mp hcap) hlt (by omega)
  refine ⟨s', hs', hsound, fun hbelow => ⟨fun htotal hwrap => ?_, fun hno => hexact hno hbelow⟩⟩
  obtain rfl := hwraps hwrap
  have hmany := hwrap.1
  unfold total at htotal
  dsimp only at htotal
  omega

/-- The level that a total reaches is the only one of its kind. -/
theorem leavesFew_iff {level l rest : Nat} (hlow : minimum ≤ l) (hle : l ≤ level)
    (hrest : gained req minimum l ≤ rest)
    (hnext : l < level → rest < gained req minimum (l + 1)) :
    LeavesFew req level rest ↔ rest - gained req minimum l < 2 ^ 31 := by
  refine ⟨fun h => h l hlow hle hrest hnext, fun hfew l' _ hle' hrest' hnext' => ?_⟩
  rcases Nat.lt_trichotomy l l' with hlt | rfl | hlt
  · have hmono : gained req minimum (l + 1) ≤ gained req minimum l' := gained_mono hlt
    have hless := hnext (by omega)
    omega
  · exact hfew
  · have hmono : gained req minimum (l' + 1) ≤ gained req minimum l := gained_mono hlt
    have hless := hnext' (by omega)
    omega

theorem removeSkillTries_spec (hfits : Kind req) (hs : Sound req (2 ^ 16) minimum s)
    (count : Nat) :
    Sound req (2 ^ 16) minimum (removeSkillTries req s count) ∧
      (total req minimum (removeSkillTries req s count) = total req minimum s - count ↔
        LeavesFew req s.level (total req minimum s - count)) := by
  obtain ⟨⟨level, tries, left⟩, hdescend⟩ :
      ∃ r, descend req minimum s.level s.points count = r := ⟨_, rfl⟩
  obtain ⟨hlow, hlevel, hsum, hlast, hhow⟩ := descend_spec hs.lowest_le hdescend
  unfold removeSkillTries
  rw [hdescend]
  dsimp only
  by_cases henough : tries < left
  · rw [if_pos henough]
    obtain rfl := hlast henough
    refine ⟨Sound.base hfits, ?_⟩
    have hnothing : gained req minimum minimum = 0 := gained_lowest
    have hrest : total req minimum s - count = 0 := by
      unfold total
      omega
    rw [hrest]
    refine iff_of_true ?_ ?_
    · unfold total
      dsimp only
      rw [hnothing]
      rfl
    · intro l _ _ _ _
      rw [Nat.zero_sub]
      exact Nat.two_pow_pos 31
  · rw [if_neg henough]
    have hfewer := hs.descend hdescend (Nat.not_lt.mp henough)
    refine ⟨hfewer.fewer (maxInt32_le _), ?_⟩
    have hrest : total req minimum s - count = gained req minimum level + (tries - left) := by
      unfold total
      omega
    have hnext : level < s.level →
        gained req minimum level + (tries - left) < gained req minimum (level + 1) := by
      intro hless
      rw [gained_succ hlow]
      rcases hhow with ⟨rfl, -, -⟩ | ⟨rfl, hpos, -⟩
      · omega
      · omega
    rw [hrest, leavesFew_iff hlow hlevel (Nat.le_add_right _ _) hnext, Nat.add_sub_cancel_left,
      ← maxInt32_eq_iff]
    unfold total
    exact Nat.add_left_cancel_iff

end Steps

section Runs

variable {vocation : Vocation} {p : Player}

theorem step_add (skill : Skills) (count : UInt64) :
    step vocation p (.add skill count) skill =
      (addSkillAdvance (vocation.getReqSkillTries skill) (p skill) count.toNat).getD (p skill) :=
  Function.update_self _ _ _

theorem step_remove (skill : Skills) (count : UInt64) :
    step vocation p (.remove skill count) skill =
      removeSkillTries (vocation.getReqSkillTries skill) (p skill) count.toNat :=
  Function.update_self _ _ _

def Inv (vocation : Vocation) (p : Player) : Prop :=
  ∀ skill, Sound (vocation.getReqSkillTries skill) (2 ^ 16) minimum (p skill)

theorem Inv.update {skill : Skills} {s : Progress} (hp : Inv vocation p)
    (hs : Sound (vocation.getReqSkillTries skill) (2 ^ 16) minimum s) :
    Inv vocation (Function.update p skill s) := by
  intro other
  by_cases hother : other = skill
  · subst hother
    rwa [Function.update_self]
  · rw [Function.update_of_ne hother]
    exact hp other

/-- Every step keeps the invariant, and its condition is that of its account. -/
theorem step_spec (hp : Inv vocation p) (op : Op) :
    Inv vocation (step vocation p op) ∧ (Accounts vocation p op ↔ Meets vocation p op) := by
  cases op with
  | add skill count =>
      obtain ⟨s', hs', hsound, hexact⟩ :=
        addSkillAdvance_spec (getReqSkillTries_fits vocation skill) (hp skill) count
      have hstep : step vocation p (.add skill count) = Function.update p skill s' := by
        rw [step, hs']
        rfl
      have htotal : totalTries vocation (Function.update p skill s') skill =
          total (vocation.getReqSkillTries skill) minimum s' := by
        rw [totalTries, Function.update_self]
      unfold Accounts Meets
      dsimp only
      rw [hstep, htotal]
      refine ⟨hp.update hsound, ?_, ?_⟩
      · rintro ⟨-, -, hadded⟩ hbelow
        exact (hexact hbelow).mp (hadded hbelow)
      · intro hno
        refine ⟨?_, fun other hother => Function.update_of_ne hother _ _,
          fun hbelow => (hexact hbelow).mpr (hno hbelow)⟩
        rw [hs']
        rfl
  | remove skill count =>
      obtain ⟨hsound, hexact⟩ :=
        removeSkillTries_spec (getReqSkillTries_fits vocation skill) (hp skill) count.toNat
      refine ⟨hp.update hsound, ?_⟩
      have htotal : totalTries vocation (step vocation p (.remove skill count)) skill =
          total (vocation.getReqSkillTries skill) minimum
            (removeSkillTries (vocation.getReqSkillTries skill) (p skill) count.toNat) := by
        rw [totalTries, step_remove]
      unfold Accounts Meets
      dsimp only
      rw [htotal]
      refine ⟨fun h => hexact.mp h.2, fun hfew => ⟨fun other hother => ?_, hexact.mpr hfew⟩⟩
      exact Function.update_of_ne hother _ _

end Runs

/-- A new player has the lowest level of each skill, and no tries. -/
def newPlayer : Player := fun _ => ⟨minimum, 0⟩

theorem newPlayer_sound {vocation : Vocation} : Inv vocation newPlayer :=
  fun skill => Sound.base (getReqSkillTries_fits vocation skill)

/-- Every step of a player's life accounts for what it adds or takes away exactly if each of them
meets its condition. -/
theorem tries_account (vocation : Vocation) (ops : List Op) :
    Throughout (step vocation) (Accounts vocation) newPlayer ops ↔
      Throughout (step vocation) (Meets vocation) newPlayer ops := by
  have hkeep : ∀ p op, Inv vocation p → Meets vocation p op → Inv vocation (step vocation p op) :=
    fun _ op hp _ => (step_spec hp op).1
  have hiff : ∀ p op, Inv vocation p → (Accounts vocation p op ↔ Meets vocation p op) :=
    fun _ op hp => (step_spec hp op).2
  exact throughout_iff hkeep hiff newPlayer_sound ops

/-- A vocation with a base of 50 and a multiplier of two for each skill. -/
def twofold : Vocation where
  scaled _ n := if 0 ≤ n then 50 * 2 ^ n.toNat % 2 ^ 64 else 50 / 2 ^ (-n).toNat
  lt _ n := by
    split
    · exact Nat.mod_lt _ (Nat.two_pow_pos 64)
    · exact Nat.lt_of_le_of_lt (Nat.div_le_self _ _) (by decide)
  powers _ := by decide

/-- One try less than `2 ^ 31 + 1` at level 36 is none. -/
theorem tries_account_narrowed :
    ¬ ∀ (vocation : Vocation) (ops : List Op),
      Throughout (step vocation) (Accounts vocation) newPlayer ops := by
  intro h
  have hrun := throughout_cons.mp (h twofold [.add .club 5502926799, .remove .club 1])
  obtain ⟨-, hless⟩ := (throughout_cons.mp hrun.2).1
  have hclimb : addSkillAdvance (twofold.getReqSkillTries .club) (newPlayer .club)
      (5502926799 : UInt64).toNat = some ⟨36, 2147483649⟩ := by decide +kernel
  have hadd : step twofold newPlayer (.add .club 5502926799) .club = ⟨36, 2147483649⟩ := by
    rw [step_add, hclimb, Option.getD_some]
  have hdescend : removeSkillTries (twofold.getReqSkillTries .club) ⟨36, 2147483649⟩
      (1 : UInt64).toNat = ⟨36, 0⟩ := by decide +kernel
  have hremove : step twofold (step twofold newPlayer (.add .club 5502926799)) (.remove .club 1)
      .club = ⟨36, 0⟩ := by
    rw [step_remove, hadd, hdescend]
  unfold totalTries at hless
  rw [hremove, hadd] at hless
  unfold total at hless
  have hone : (1 : UInt64).toNat = 1 := rfl
  rw [hone] at hless
  dsimp only at hless
  omega

end Bruxo.SkillTries
