import Bruxo.Lib.Runs
import Mathlib.Data.Nat.Choose.Basic
import Mathlib.Tactic.Ring

/-!
# Levels and experience

`Player::addExperience`, `removeExperience` and the loss of `death` (`player.cpp`) with
`getExpForLevel` (`player.h`). The experience that a level asks for is a hundred times a sum of
binomials, so it grows with the level as long as it is a number of 64 bits; and every level adds the
gains of the vocation to the maximum health, the maximum mana and the capacity, and takes them away
again.

What is taken away is cut to signed numbers: the experience that is left to 64 bits, the maximum
mana and the capacity to 32 bits. Events, messages, speeds, the party, the current health and mana
and the percent that the client shows are left out.
-/

namespace Bruxo.Experience

open Runs

/-! ## Experience of a level -/

/-- Sums, differences and products of 64 bits wrap around. -/
def getExpForLevel (lv : Nat) : Nat :=
  (((lv + 2 ^ 64 - 6) * lv + 17) * lv + 2 ^ 64 - 12) % 2 ^ 64 / 6 * 100 % 2 ^ 64

/-- What the level after `n` others asks for. -/
def expAfter (n : Nat) : Nat := 100 * (n.choose 3 + n)

theorem expAfter_succ (n : Nat) : expAfter n + 100 ≤ expAfter (n + 1) := by
  have hchoose : n.choose 3 ≤ (n + 1).choose 3 := Nat.choose_le_succ n 3
  unfold expAfter
  omega

theorem expAfter_mono {n k : Nat} (h : n ≤ k) : expAfter n ≤ expAfter k := by
  induction k, h using Nat.le_induction with
  | base => exact Nat.le_refl _
  | succ k _ ih => exact Nat.le_trans ih (Nat.le_of_add_right_le (expAfter_succ k))

theorem lt_of_expAfter_lt {n k : Nat} (h : expAfter n < expAfter k) : n < k := by
  by_contra hle
  exact Nat.not_lt.mpr (expAfter_mono (Nat.not_lt.mp hle)) h

theorem six_mul_choose (n : Nat) : n * n * n + 8 * n = 6 * (n.choose 3 + n) + 3 * (n * n) := by
  have hfactorial : 6 * n.choose 3 = n.descFactorial 3 :=
    (Nat.descFactorial_eq_factorial_mul_choose n 3).symm
  rw [Nat.mul_add, hfactorial]
  rcases n with _ | _ | n
  · rfl
  · rfl
  · have hdesc : (n + 1 + 1).descFactorial 3 = n * ((n + 1) * (n + 2)) := by
      simp [Nat.descFactorial]
    rw [hdesc]
    ring

theorem getExpForLevel_eq {n : Nat} (h : expAfter n < 2 ^ 64) :
    getExpForLevel (n + 1) = expAfter n := by
  have hpoly : ((n + 1 + 2 ^ 64 - 6) * (n + 1) + 17) * (n + 1) + 2 ^ 64 - 12 =
      6 * (n.choose 3 + n) + 2 ^ 64 * ((n + 1) * (n + 1) + 1) := by
    have hsix := six_mul_choose n
    have hfirst : n + 1 + 2 ^ 64 - 6 = n + (2 ^ 64 - 5) := by omega
    rw [hfirst]
    have hring : ((n + (2 ^ 64 - 5)) * (n + 1) + 17) * (n + 1) + 2 ^ 64 + 3 * (n * n) =
        n * n * n + 8 * n + 2 ^ 64 * ((n + 1) * (n + 1) + 1) + 12 := by
      norm_num
      ring
    omega
  unfold expAfter at h ⊢
  have hsmall : 6 * (n.choose 3 + n) < 2 ^ 64 := by omega
  rw [getExpForLevel, hpoly, Nat.add_mul_mod_self_left, Nat.mod_eq_of_lt hsmall,
    Nat.mul_div_cancel_left _ (by omega), Nat.mul_comm, Nat.mod_eq_of_lt h]

/-- A level that asks for a number of 64 bits is one of 32 bits. -/
theorem level_lt {n : Nat} (h : expAfter n < 2 ^ 64) : n + 1 < 2 ^ 32 := by
  by_contra hmany
  obtain ⟨k, hk⟩ : ∃ k, k = 2 ^ 22 := ⟨_, rfl⟩
  have hmono : expAfter k ≤ expAfter n := expAfter_mono (by omega)
  have hsix := six_mul_choose k
  unfold expAfter at hmono h
  generalize k.choose 3 = few at hmono hsix
  subst hk
  omega

/-! ## Maximum health, maximum mana and capacity -/

structure Stats where
  healthMax : Nat
  manaMax : Nat
  capacity : Nat

namespace Stats

/-- With the gains of `n` levels. -/
def after (base gains : Stats) (n : Nat) : Stats where
  healthMax := base.healthMax + n * gains.healthMax
  manaMax := base.manaMax + n * gains.manaMax
  capacity := base.capacity + n * gains.capacity

/-- Numbers of 32 bits. -/
def raise (s gains : Stats) : Stats where
  healthMax := (s.healthMax + gains.healthMax) % 2 ^ 32
  manaMax := (s.manaMax + gains.manaMax) % 2 ^ 32
  capacity := (s.capacity + gains.capacity) % 2 ^ 32

/-- `std::max<int32_t>(0, stat - gain)` of numbers of 32 bits. -/
def lowered (stat gain : Nat) : Nat :=
  if (stat + 2 ^ 32 - gain) % 2 ^ 32 < 2 ^ 31 then (stat + 2 ^ 32 - gain) % 2 ^ 32 else 0

def lower (s gains : Stats) : Stats where
  healthMax := lowered s.healthMax gains.healthMax
  manaMax := lowered s.manaMax gains.manaMax
  capacity := lowered s.capacity gains.capacity

/-- The maximum health is a signed number of 32 bits, and the others are unsigned. -/
structure Fits (s : Stats) : Prop where
  healthMax : s.healthMax < 2 ^ 31
  manaMax : s.manaMax < 2 ^ 32
  capacity : s.capacity < 2 ^ 32

/-- Numbers that are the same when they are cut to signed ones. -/
structure FitsSigned (s : Stats) : Prop where
  manaMax : s.manaMax < 2 ^ 31
  capacity : s.capacity < 2 ^ 31

variable {base gains s : Stats} {n : Nat}

theorem after_zero : base.after gains 0 = base := by
  unfold after
  simp only [Nat.zero_mul, Nat.add_zero]

theorem after_succ : base.after gains (n + 1) =
    ⟨(base.after gains n).healthMax + gains.healthMax,
      (base.after gains n).manaMax + gains.manaMax,
      (base.after gains n).capacity + gains.capacity⟩ := by
  unfold after
  simp only [Nat.succ_mul, Nat.add_assoc]

theorem raise_after (h : (base.after gains (n + 1)).Fits) :
    (base.after gains n).raise gains = base.after gains (n + 1) := by
  obtain ⟨hhealth, hmana, hcapacity⟩ := h
  rw [after_succ] at hhealth hmana hcapacity ⊢
  unfold raise
  rw [Nat.mod_eq_of_lt (Nat.lt_trans hhealth (by omega)), Nat.mod_eq_of_lt hmana,
    Nat.mod_eq_of_lt hcapacity]

theorem lowered_add {rest gain : Nat} (h : rest < 2 ^ 31) : lowered (rest + gain) gain = rest := by
  have hback : (rest + gain + 2 ^ 32 - gain) % 2 ^ 32 = rest := by omega
  unfold lowered
  rw [hback, if_pos h]

theorem lower_after (hhealth : (base.after gains n).healthMax < 2 ^ 31)
    (h : (base.after gains n).FitsSigned) :
    (base.after gains (n + 1)).lower gains = base.after gains n := by
  rw [after_succ, lower, lowered_add hhealth, lowered_add h.manaMax, lowered_add h.capacity]

theorem FitsSigned.of_succ (h : (base.after gains (n + 1)).FitsSigned) :
    (base.after gains n).FitsSigned := by
  obtain ⟨hmana, hcapacity⟩ := h
  rw [after_succ] at hmana hcapacity
  exact ⟨Nat.lt_of_le_of_lt (Nat.le_add_right _ _) hmana,
    Nat.lt_of_le_of_lt (Nat.le_add_right _ _) hcapacity⟩

theorem Fits.of_succ (h : (base.after gains (n + 1)).Fits) : (base.after gains n).Fits := by
  obtain ⟨hhealth, hmana, hcapacity⟩ := h
  rw [after_succ] at hhealth hmana hcapacity
  exact ⟨Nat.lt_of_le_of_lt (Nat.le_add_right _ _) hhealth,
    Nat.lt_of_le_of_lt (Nat.le_add_right _ _) hmana,
    Nat.lt_of_le_of_lt (Nat.le_add_right _ _) hcapacity⟩

end Stats

/-! ## Players -/

structure Vocation where
  isNone : Bool
  gainHP : UInt32
  gainMana : UInt32
  gainCap : UInt32

def Vocation.gains (vocation : Vocation) : Stats :=
  ⟨vocation.gainHP.toNat, vocation.gainMana.toNat, vocation.gainCap.toNat⟩

structure Player where
  level : Nat
  experience : Nat
  stats : Stats

section Loops

variable (vocation : Vocation)

/-- `while (experience >= nextLevelExp)` -/
def levelUp : Nat → Player → Nat → Option Player
  | 0, _, _ => none
  | k + 1, p, nextLevelExp =>
      if p.experience < nextLevelExp then some p
      else
        let p := { p with
          level := (p.level + 1) % 2 ^ 32
          stats := p.stats.raise vocation.gains }
        let currLevelExp := nextLevelExp
        let nextLevelExp := getExpForLevel ((p.level + 1) % 2 ^ 32)
        if nextLevelExp ≤ currLevelExp then some p else levelUp k p nextLevelExp

/-- `addExperience`, of the experience that the event gives back. A turn is for a level of 32
bits. -/
def addExperience (p : Player) (exp : Nat) : Option Player :=
  let currLevelExp := getExpForLevel p.level
  let nextLevelExp := getExpForLevel ((p.level + 1) % 2 ^ 32)
  if nextLevelExp ≤ currLevelExp then some p
  else if exp = 0 then some p
  else
    levelUp vocation (2 ^ 32) { p with experience := (p.experience + exp) % 2 ^ 64 } nextLevelExp

/-- `while (level > 1 && experience < getExpForLevel(level))` -/
def levelDown : Nat → Player → Player
  | 0, p => p
  | k + 1, p =>
      if 1 < p.level ∧ p.experience < getExpForLevel p.level then
        levelDown k { p with
          level := p.level - 1
          stats := p.stats.lower vocation.gains }
      else p

/-- `std::max<int64_t>(0, experience - exp)` of numbers of 64 bits. -/
def lostExperience (experience exp : Nat) : Nat :=
  if (experience + 2 ^ 64 - exp) % 2 ^ 64 < 2 ^ 63 then (experience + 2 ^ 64 - exp) % 2 ^ 64 else 0

def removeExperience (p : Player) (exp : Nat) : Player :=
  if p.experience = 0 ∨ exp = 0 then p
  else levelDown vocation p.level { p with experience := lostExperience p.experience exp }

/-- What `death` takes, of the experience that the event gives back. -/
def death (p : Player) (skillLoss : Bool) (expLoss : Nat) : Player :=
  if skillLoss = true ∧ expLoss ≠ 0 then
    levelDown vocation p.level { p with
      experience :=
        if vocation.isNone = true ∨ 7 < p.level then (p.experience + 2 ^ 64 - expLoss) % 2 ^ 64
        else p.experience }
  else p

inductive Op where
  | add (exp : UInt64)
  | remove (exp : UInt64)
  | death (skillLoss : Bool) (expLoss : UInt64)

def step (p : Player) : Op → Player
  | .add exp => (addExperience vocation p exp.toNat).getD p
  | .remove exp => removeExperience vocation p exp.toNat
  | .death skillLoss expLoss => death vocation p skillLoss expLoss.toNat

end Loops

/-! ## Levels and what they have gained -/

/-- A player of the level after `n` others, with the experience and the gains of it. -/
structure AtLevel (base gains : Stats) (n : Nat) (p : Player) : Prop where
  level : p.level = n + 1
  le : expAfter n ≤ p.experience
  lt : p.experience < expAfter (n + 1)
  range : expAfter (n + 1) < 2 ^ 64
  stats : p.stats = base.after gains n
  fits : (base.after gains n).Fits

section Steps

variable {vocation : Vocation} {base : Stats} {p : Player} {n k top exp : Nat}

theorem levelUp_spec (hlevel : p.level = n + 1) (hle : expAfter n ≤ p.experience)
    (hstats : p.stats = base.after vocation.gains n)
    (hfits : ∀ l, expAfter l ≤ p.experience → (base.after vocation.gains l).Fits)
    (hrange : expAfter top < 2 ^ 64) (htop : p.experience < expAfter top) (hk : top < n + k) :
    ∃ p', levelUp vocation k p (expAfter (n + 1)) = some p' ∧ p'.experience = p.experience ∧
      ∃ l, AtLevel base vocation.gains l p' := by
  have hn : n < top := lt_of_expAfter_lt (Nat.lt_of_le_of_lt hle htop)
  induction k generalizing p n with
  | zero => omega
  | succ k ih =>
      rw [levelUp]
      have hnext : expAfter (n + 1) < 2 ^ 64 := Nat.lt_of_le_of_lt (expAfter_mono hn) hrange
      by_cases hstay : p.experience < expAfter (n + 1)
      · rw [if_pos hstay]
        exact ⟨p, rfl, rfl, n, hlevel, hle, hstay, hnext, hstats, hfits n hle⟩
      · rw [if_neg hstay]
        have hle' : expAfter (n + 1) ≤ p.experience := Nat.not_lt.mp hstay
        have hn' : n + 1 < top := lt_of_expAfter_lt (Nat.lt_of_le_of_lt hle' htop)
        have hafter : expAfter (n + 2) < 2 ^ 64 := Nat.lt_of_le_of_lt (expAfter_mono hn') hrange
        have hlt := level_lt hafter
        have hlevel' : (p.level + 1) % 2 ^ 32 = n + 2 := by omega
        have hlevel'' : (n + 2 + 1) % 2 ^ 32 = n + 2 + 1 := Nat.mod_eq_of_lt hlt
        have hgrows : expAfter (n + 1) + 100 ≤ expAfter (n + 2) := expAfter_succ (n + 1)
        have hnot : ¬ expAfter (n + 2) ≤ expAfter (n + 1) := by omega
        have hraise : p.stats.raise vocation.gains = base.after vocation.gains (n + 1) := by
          rw [hstats]
          exact Stats.raise_after (hfits (n + 1) hle')
        dsimp only
        rw [hlevel', hlevel'', getExpForLevel_eq hafter, if_neg hnot, hraise]
        have hk' : top < n + 1 + k := by omega
        exact ih rfl hle' rfl hfits htop hk' hn'

theorem levelDown_spec (hlevel : p.level = n + 1) (hlt : p.experience < expAfter (n + 1))
    (hrange : expAfter (n + 1) < 2 ^ 64) (hstats : p.stats = base.after vocation.gains n)
    (hfits : (base.after vocation.gains n).Fits)
    (hsigned : expAfter n ≤ p.experience ∨ (base.after vocation.gains (n - 1)).FitsSigned) :
    ∃ l, AtLevel base vocation.gains l (levelDown vocation (n + 1) p) := by
  induction n generalizing p with
  | zero =>
      have hstop : ¬ (1 < p.level ∧ p.experience < getExpForLevel p.level) := by omega
      rw [levelDown, if_neg hstop]
      exact ⟨0, hlevel, Nat.zero_le _, hlt, hrange, hstats, hfits⟩
  | succ n ih =>
      have hn : expAfter (n + 1) < 2 ^ 64 :=
        Nat.lt_of_le_of_lt (expAfter_mono (Nat.le_succ _)) hrange
      rw [levelDown, hlevel, getExpForLevel_eq hn]
      by_cases hless : p.experience < expAfter (n + 1)
      · rw [if_pos ⟨by omega, hless⟩]
        rcases hsigned with hle | hsigned
        · exact absurd hless (Nat.not_lt.mpr hle)
        · have hlower : p.stats.lower vocation.gains = base.after vocation.gains n := by
            rw [hstats]
            exact Stats.lower_after hfits.of_succ.healthMax hsigned
          refine ih rfl hless hn hlower hfits.of_succ ?_
          cases n with
          | zero => exact .inl (Nat.zero_le _)
          | succ n => exact .inr hsigned.of_succ
      · rw [if_neg (fun h => hless h.2)]
        exact ⟨n + 1, hlevel, Nat.not_lt.mp hless, hlt, hrange, hstats, hfits⟩

theorem addExperience_spec (h : AtLevel base vocation.gains n p)
    (hrange : expAfter top < 2 ^ 64) (htop : p.experience + exp < expAfter top)
    (hfits : ∀ l, expAfter l ≤ p.experience + exp → (base.after vocation.gains l).Fits) :
    ∃ p', addExperience vocation p exp = some p' ∧ ∃ l, AtLevel base vocation.gains l p' := by
  have hn : expAfter n < 2 ^ 64 := Nat.lt_of_le_of_lt (expAfter_mono (Nat.le_succ n)) h.range
  have hlevel : (p.level + 1) % 2 ^ 32 = n + 1 + 1 := by
    rw [h.level]
    exact Nat.mod_eq_of_lt (level_lt h.range)
  unfold addExperience
  rw [hlevel, h.level, getExpForLevel_eq hn, getExpForLevel_eq h.range]
  have hgrows := expAfter_succ n
  dsimp only
  rw [if_neg (by omega)]
  by_cases hzero : exp = 0
  · rw [if_pos hzero]
    exact ⟨p, rfl, n, h⟩
  · rw [if_neg hzero, Nat.mod_eq_of_lt (Nat.lt_trans htop hrange)]
    have hle : expAfter n ≤ p.experience + exp := Nat.le_trans h.le (Nat.le_add_right _ _)
    have hlt := level_lt hrange
    have hk : top < n + 2 ^ 32 := by omega
    obtain ⟨p', hp', -, hl⟩ := levelUp_spec (p := { p with experience := p.experience + exp })
      h.level hle h.stats hfits hrange htop hk
    rw [h.level] at hp'
    exact ⟨p', hp', hl⟩

/-- Experience that is not more than before, where a level that is lost is of signed numbers. -/
theorem levelDown_less {experience : Nat} (h : AtLevel base vocation.gains n p)
    (hless : experience ≤ p.experience)
    (hsigned : expAfter n ≤ experience ∨ (base.after vocation.gains (n - 1)).FitsSigned) :
    ∃ l, AtLevel base vocation.gains l
      (levelDown vocation p.level { p with experience := experience }) := by
  have hdown := levelDown_spec (p := { p with experience := experience }) h.level
    (Nat.lt_of_le_of_lt hless h.lt) h.range h.stats h.fits hsigned
  rwa [← h.level] at hdown

theorem lostExperience_le {experience : Nat} (hsmall : experience < 2 ^ 64)
    (hexp : exp ≤ experience + 2 ^ 63) : lostExperience experience exp ≤ experience := by
  unfold lostExperience
  split <;> omega

theorem lostExperience_eq {experience : Nat} (hle : exp ≤ experience)
    (hlt : experience < exp + 2 ^ 63) : lostExperience experience exp = experience - exp := by
  unfold lostExperience
  have hdiff : (experience + 2 ^ 64 - exp) % 2 ^ 64 = experience - exp := by omega
  rw [hdiff, if_pos (by omega)]

end Steps

/-! ## Runs -/

section Runs

variable (vocation : Vocation) (base : Stats)

/-- The value of a signed number of 32 bits. -/
def int32 (value : Nat) : Int := if value < 2 ^ 31 then value else value - 2 ^ 32

/-- The experience is that of the level, and the maximum health, the maximum mana and the capacity
are those of level 1 with the gains of the levels since. -/
structure Consistent (p : Player) : Prop where
  le : getExpForLevel p.level ≤ p.experience
  lt : p.experience < getExpForLevel (p.level + 1)
  healthMax : int32 p.stats.healthMax = (base.after vocation.gains (p.level - 1)).healthMax
  manaMax : p.stats.manaMax = (base.after vocation.gains (p.level - 1)).manaMax
  capacity : p.stats.capacity = (base.after vocation.gains (p.level - 1)).capacity

/-- Adding comes to an end, and every operation leaves a player consistent. -/
def Keeps (p : Player) (op : Op) : Prop :=
  (∀ exp, op = .add exp → (addExperience vocation p exp.toNat).isSome = true) ∧
    Consistent vocation base (step vocation p op)

/-- The experience stays below what a level asks for whose number has 64 bits. -/
def InRange (p : Player) : Op → Prop
  | .add exp => ∃ top, expAfter top < 2 ^ 64 ∧ p.experience + exp.toNat < expAfter top
  | _ => True

/-- With a level less the maximum mana and the capacity are numbers of 31 bits. -/
def LosesSigned (p : Player) : Prop := (base.after vocation.gains (p.level - 2)).FitsSigned

/-- The levels that are reached have gains of 32 bits. Not more is lost than there is, but that
`removeExperience` takes up to `2 ^ 63` more; and a level is only lost, which it also is where
`2 ^ 63` or more would be left, for numbers of 31 bits. -/
def Meets (p : Player) : Op → Prop
  | .add exp =>
      ∀ l, expAfter l ≤ p.experience + exp.toNat → (base.after vocation.gains l).Fits
  | .remove exp =>
      exp.toNat ≤ p.experience + 2 ^ 63 ∧
        (exp.toNat = 0 ∨ LosesSigned vocation base p ∨
          getExpForLevel p.level + exp.toNat ≤ p.experience ∧ p.experience < exp.toNat + 2 ^ 63)
  | .death skillLoss expLoss =>
      skillLoss = true → vocation.isNone = true ∨ 7 < p.level →
        expLoss.toNat ≤ p.experience ∧
          (LosesSigned vocation base p ∨ getExpForLevel p.level + expLoss.toNat ≤ p.experience)

/-- A player of level 1. -/
def newPlayer : Player := ⟨1, 0, base⟩

variable {vocation base} {p : Player}

theorem AtLevel.getExpForLevel {n : Nat} (h : AtLevel base vocation.gains n p) :
    getExpForLevel p.level = expAfter n := by
  rw [h.level]
  exact getExpForLevel_eq (Nat.lt_of_le_of_lt (expAfter_mono (Nat.le_succ n)) h.range)

theorem AtLevel.consistent {n : Nat} (h : AtLevel base vocation.gains n p) :
    Consistent vocation base p := by
  have hlevel : p.level - 1 = n := by
    rw [h.level]
    rfl
  refine ⟨?_, ?_, ?_, ?_, ?_⟩
  · rw [h.getExpForLevel]
    exact h.le
  · rw [h.level, getExpForLevel_eq h.range]
    exact h.lt
  · rw [h.stats, hlevel, int32, if_pos h.fits.healthMax]
  · rw [h.stats, hlevel]
  · rw [h.stats, hlevel]

theorem step_at {op : Op} (hp : ∃ n, AtLevel base vocation.gains n p) (hrange : InRange p op)
    (hmeets : Meets vocation base p op) :
    (∀ exp, op = .add exp → (addExperience vocation p exp.toNat).isSome = true) ∧
      ∃ n, AtLevel base vocation.gains n (step vocation p op) := by
  obtain ⟨n, h⟩ := hp
  have hlevel : p.level - 2 = n - 1 := by
    rw [h.level]
    rfl
  have hsmall : p.experience < 2 ^ 64 := Nat.lt_trans h.lt h.range
  cases op with
  | add exp =>
      obtain ⟨top, htop, hlt⟩ := hrange
      obtain ⟨p', hp', hl⟩ := addExperience_spec h htop hlt hmeets
      refine ⟨fun exp' heq => ?_, ?_⟩
      · obtain rfl := Op.add.inj heq
        rw [hp']
        rfl
      · rw [step, hp']
        exact hl
  | remove exp =>
      refine ⟨fun exp' heq => (by cases heq), ?_⟩
      obtain ⟨hmost, hfew⟩ := hmeets
      rw [step, removeExperience]
      by_cases hnone : p.experience = 0 ∨ exp.toNat = 0
      · rw [if_pos hnone]
        exact ⟨n, h⟩
      · rw [if_neg hnone]
        refine levelDown_less h (lostExperience_le hsmall hmost) ?_
        rcases hfew with hzero | hsigned | ⟨hstays, hlt⟩
        · exact absurd (.inr hzero) hnone
        · exact .inr (hlevel ▸ hsigned)
        · rw [h.getExpForLevel] at hstays
          rw [lostExperience_eq (Nat.le_of_add_left_le hstays) hlt]
          exact .inl (Nat.le_sub_of_add_le hstays)
  | death skillLoss expLoss =>
      refine ⟨fun exp' heq => (by cases heq), ?_⟩
      rw [step, death]
      by_cases hloss : skillLoss = true ∧ expLoss.toNat ≠ 0
      · rw [if_pos hloss]
        by_cases htaken : vocation.isNone = true ∨ 7 < p.level
        · obtain ⟨hle, hfew⟩ := hmeets hloss.1 htaken
          have hdiff : (p.experience + 2 ^ 64 - expLoss.toNat) % 2 ^ 64 =
              p.experience - expLoss.toNat := by omega
          rw [if_pos htaken, hdiff]
          refine levelDown_less h (Nat.sub_le _ _) ?_
          rcases hfew with hsigned | hstays
          · exact .inr (hlevel ▸ hsigned)
          · rw [h.getExpForLevel] at hstays
            exact .inl (Nat.le_sub_of_add_le hstays)
        · rw [if_neg htaken]
          exact levelDown_less h (Nat.le_refl _) (.inl h.le)
      · rw [if_neg hloss]
        exact ⟨n, h⟩

theorem newPlayer_at (hbase : base.Fits) : AtLevel base vocation.gains 0 (newPlayer base) := by
  have hfirst : 0 < expAfter 1 := by decide
  refine ⟨rfl, Nat.le_refl _, hfirst, by decide, ?_, ?_⟩
  · rw [Stats.after_zero]
    rfl
  · rwa [Stats.after_zero]

/-- In every run of which the experience stays in range and the steps meet their condition, each
operation leaves the player consistent. -/
theorem levels_consistent (vocation : Vocation) (base : Stats) (hbase : base.Fits) (ops : List Op)
    (h : Throughout (step vocation) (fun p op => InRange p op ∧ Meets vocation base p op)
      (newPlayer base) ops) :
    Throughout (step vocation) (Keeps vocation base) (newPlayer base) ops := by
  have hstep : ∀ p op, (∃ n, AtLevel base vocation.gains n p) →
      InRange p op ∧ Meets vocation base p op →
      ∃ n, AtLevel base vocation.gains n (step vocation p op) :=
    fun p op hp hop => (step_at hp hop.1 hop.2).2
  have hof : ∀ p op, (∃ n, AtLevel base vocation.gains n p) →
      InRange p op ∧ Meets vocation base p op → Keeps vocation base p op := by
    intro p op hp hop
    obtain ⟨hsome, n, hn⟩ := step_at hp hop.1 hop.2
    exact ⟨hsome, hn.consistent⟩
  exact throughout_of_inv hstep hof ⟨0, newPlayer_at hbase⟩ h

/-- A vocation with gains of 5, 5 and 500. -/
def rookie : Vocation := ⟨true, 5, 5, 500⟩

def rookieBase : Stats := ⟨150, 50, 40000⟩

theorem rookie_fits : rookieBase.Fits := ⟨by decide, by decide, by decide⟩

/-- Four levels up, two down, and a death. -/
theorem levels_consistent_rookie :
    Throughout (step rookie) (Keeps rookie rookieBase) (newPlayer rookieBase)
      [.add 1000, .remove 700, .death true 250] := by
  have hgains : ∀ l, expAfter l ≤ 1000 → (rookieBase.after rookie.gains l).Fits := by
    intro l hl
    have hfew : l ≤ 10 := by
      unfold expAfter at hl
      omega
    have hfive : rookie.gains = ⟨5, 5, 500⟩ := rfl
    unfold Stats.after rookieBase
    rw [hfive]
    refine ⟨?_, ?_, ?_⟩ <;> dsimp only <;> omega
  refine levels_consistent rookie rookieBase rookie_fits _ ?_
  refine throughout_cons.mpr ⟨⟨⟨5, by decide, by decide⟩, hgains⟩, ?_⟩
  refine throughout_cons.mpr ⟨⟨trivial, by decide, .inr (.inl ⟨by decide, by decide⟩)⟩, ?_⟩
  refine throughout_cons.mpr ⟨⟨trivial, fun _ _ => ⟨by decide, .inl ?_⟩⟩, throughout_nil⟩
  exact ⟨by decide, by decide⟩

/-- One point of experience, and a hundred less than none. -/
theorem levels_consistent_wrapped :
    ¬ ∀ (vocation : Vocation) (base : Stats), base.Fits → ∀ ops : List Op,
      Throughout (step vocation) InRange (newPlayer base) ops →
      Throughout (step vocation) (Keeps vocation base) (newPlayer base) ops := by
  intro h
  have hrange : Throughout (step rookie) InRange (newPlayer rookieBase)
      [.add 1, .remove 18446744073709551516] :=
    throughout_cons.mpr ⟨⟨2, by decide, by decide⟩,
      throughout_cons.mpr ⟨trivial, throughout_nil⟩⟩
  have hkeeps := h rookie rookieBase rookie_fits _ hrange
  have hlast := (throughout_cons.mp (throughout_cons.mp hkeeps).2).1
  have hlt := hlast.2.lt
  exact absurd hlt (by decide)

end Runs

end Bruxo.Experience
