import Bruxo.LevelProgress
import Bruxo.Lib.Runs

/-!
# Magic levels

`Player::addManaSpent` and `removeManaSpent` (`player.cpp`) with `Vocation::getReqMana`
(`vocation.cpp`). Adding is exact below the level cap, but for a first sum that wraps around, and
taking away is exact as long as there is as much as is taken: at level 0 the rest is subtracted
from what is stored, whatever that is.

The events, the messages and the percent that the client shows are left out.
-/

namespace Bruxo.ManaSpent

open LevelProgress Runs

/-- What a vocation asks for at the magic levels from 1 on: 1600 times the powers of its multiplier,
as numbers of 64 bits. -/
structure Vocation where
  power : Nat → Nat
  lt : ∀ n, power n < 2 ^ 64

def Vocation.getReqMana (vocation : Vocation) (magLevel : Nat) : Nat :=
  if magLevel = 0 then 0 else vocation.power (magLevel - 1)

section Player

variable (vocation : Vocation)

/-- `addManaSpent`, of the amount that the event gives back. A turn takes something off the amount,
but for the first one. -/
def addManaSpent (notGainMana : Bool) (s : Progress) (amount : Nat) : Option Progress :=
  if notGainMana then some s
  else if vocation.getReqMana ((s.level + 1) % 2 ^ 32) ≤ vocation.getReqMana s.level then some s
  else if amount = 0 then some s
  else climb vocation.getReqMana (2 ^ 32) (2 ^ 64 + 1) s amount

def removeManaSpent (s : Progress) (amount : Nat) : Progress :=
  if amount = 0 then s
  else
    match descend vocation.getReqMana 0 s.level s.points amount with
    | (magLevel, manaSpent, amount) => ⟨magLevel, (manaSpent + 2 ^ 64 - amount) % 2 ^ 64⟩

inductive Op where
  | add (notGainMana : Bool) (amount : UInt64)
  | remove (amount : UInt64)

def step (s : Progress) : Op → Progress
  | .add notGainMana amount => (addManaSpent vocation notGainMana s amount.toNat).getD s
  | .remove amount => removeManaSpent vocation s amount.toNat

/-! ## The account of a step -/

def totalMana (s : Progress) : Nat := total vocation.getReqMana 0 s

/-- What a player gains of an amount. -/
def rated (notGainMana : Bool) (amount : UInt64) : Nat := if notGainMana then 0 else amount.toNat

/-- Adding comes to an end with all of the amount, as long as it stays below the cap; taking away
takes the amount, or all there is. Both keep less than the next level asks for. -/
def Accounts (s : Progress) (op : Op) : Prop :=
  Kept vocation.getReqMana (2 ^ 32) (step vocation s op) ∧
    match op with
    | .add notGainMana amount =>
        (addManaSpent vocation notGainMana s amount.toNat).isSome = true ∧
          s.level ≤ (step vocation s op).level ∧
          (BelowCap vocation.getReqMana (2 ^ 32) 0 s (rated notGainMana amount) →
            totalMana vocation (step vocation s op) =
              totalMana vocation s + rated notGainMana amount)
    | .remove amount =>
        (step vocation s op).level ≤ s.level ∧
          totalMana vocation (step vocation s op) = totalMana vocation s - amount.toNat

/-- Below the cap the first sum does not wrap around to less than the next level asks for, and no
more is taken away than there is. -/
def Meets (s : Progress) : Op → Prop
  | .add notGainMana amount =>
      BelowCap vocation.getReqMana (2 ^ 32) 0 s (rated notGainMana amount) →
        ¬ Wraps vocation.getReqMana s (rated notGainMana amount)
  | .remove amount => amount.toNat ≤ totalMana vocation s

end Player

section Steps

variable {vocation : Vocation} {s : Progress}

abbrev Inv (vocation : Vocation) (s : Progress) : Prop := Sound vocation.getReqMana (2 ^ 32) 0 s

theorem getReqMana_fits : Fits vocation.getReqMana (2 ^ 32) 0 where
  lt l := by
    unfold Vocation.getReqMana
    split
    · exact Nat.two_pow_pos 64
    · exact vocation.lt _
  room := by decide
  zero := .inl (Nat.le_refl _)

theorem addManaSpent_spec (hs : Inv vocation s) (notGainMana : Bool) (amount : UInt64) :
    ∃ s', addManaSpent vocation notGainMana s amount.toNat = some s' ∧ Inv vocation s' ∧
      s.level ≤ s'.level ∧
      (BelowCap vocation.getReqMana (2 ^ 32) 0 s (rated notGainMana amount) →
        (totalMana vocation s' = totalMana vocation s + rated notGainMana amount ↔
          ¬ Wraps vocation.getReqMana s (rated notGainMana amount))) := by
  have hsmall := points_lt getReqMana_fits hs
  have hnothing : ∀ k, k = 0 → ¬ Wraps vocation.getReqMana s k := by
    rintro k rfl ⟨hmany, -⟩
    omega
  unfold addManaSpent rated
  by_cases hflag : notGainMana = true
  · rw [if_pos hflag, if_pos hflag]
    exact ⟨s, rfl, hs, Nat.le_refl _, fun _ => iff_of_true rfl (hnothing 0 rfl)⟩
  rw [if_neg hflag, if_neg hflag]
  by_cases hcap : vocation.getReqMana ((s.level + 1) % 2 ^ 32) ≤ vocation.getReqMana s.level
  · rw [if_pos hcap]
    refine ⟨s, rfl, hs, Nat.le_refl _, fun hbelow => ?_⟩
    have hall := belowCap_of_cap hcap hbelow
    have hzero : amount.toNat = 0 := by
      unfold total at hall
      omega
    rw [hzero]
    exact iff_of_true rfl (hnothing 0 rfl)
  rw [if_neg hcap]
  by_cases hzero : amount.toNat = 0
  · rw [if_pos hzero, hzero]
    exact ⟨s, rfl, hs, Nat.le_refl _, fun _ => iff_of_true rfl (hnothing 0 rfl)⟩
  rw [if_neg hzero]
  have hlt := amount.toNat_lt
  obtain ⟨s', hs', hsound, hle, hwraps, hexact⟩ := climb_spec (n := 2 ^ 64 + 1) getReqMana_fits hs
    (Nat.not_le.mp hcap) hlt (by omega)
  refine ⟨s', hs', hsound, hle, fun hbelow => ⟨fun htotal hwrap => ?_, fun hno => hexact hno hbelow⟩⟩
  obtain rfl := hwraps hwrap
  have hmany := hwrap.1
  unfold totalMana total at htotal
  dsimp only at htotal
  omega

theorem removeManaSpent_spec (hs : Inv vocation s) (amount : UInt64) :
    (amount.toNat ≤ totalMana vocation s →
      Inv vocation (removeManaSpent vocation s amount.toNat) ∧
        (removeManaSpent vocation s amount.toNat).level ≤ s.level ∧
        totalMana vocation (removeManaSpent vocation s amount.toNat) =
          totalMana vocation s - amount.toNat) ∧
      (totalMana vocation (removeManaSpent vocation s amount.toNat) =
        totalMana vocation s - amount.toNat → amount.toNat ≤ totalMana vocation s) := by
  unfold removeManaSpent
  by_cases hzero : amount.toNat = 0
  · rw [if_pos hzero, hzero]
    exact ⟨fun _ => ⟨hs, Nat.le_refl _, rfl⟩, fun _ => Nat.zero_le _⟩
  rw [if_neg hzero]
  have hlt := amount.toNat_lt
  obtain ⟨⟨magLevel, manaSpent, left⟩, hdescend⟩ :
      ∃ r, descend vocation.getReqMana 0 s.level s.points amount.toNat = r := ⟨_, rfl⟩
  obtain ⟨-, hlevel, hsum, hlast, hhow⟩ := descend_spec hs.lowest_le hdescend
  rw [hdescend]
  dsimp only
  have hpoints : manaSpent < 2 ^ 64 := by
    rcases hhow with ⟨-, rfl, -⟩ | ⟨rfl, -, -⟩
    · exact points_lt getReqMana_fits hs
    · exact getReqMana_fits.lt _
  unfold totalMana total
  dsimp only
  by_cases henough : left ≤ manaSpent
  · have hdiff : (manaSpent + 2 ^ 64 - left) % 2 ^ 64 = manaSpent - left := by omega
    rw [hdiff]
    refine ⟨fun _ => ⟨hs.descend hdescend henough, hlevel, ?_⟩, fun _ => ?_⟩
    · omega
    · omega
  · obtain rfl := hlast (Nat.not_le.mp henough)
    have hnothing : gained vocation.getReqMana 0 0 = 0 := gained_lowest
    rw [hnothing] at hsum ⊢
    refine ⟨fun hfew => ?_, fun htotal => ?_⟩
    · omega
    · omega

/-- A step that meets its condition keeps the invariant, and the condition is that of its
account. -/
theorem step_spec (hs : Inv vocation s) (op : Op) :
    (Meets vocation s op → Inv vocation (step vocation s op)) ∧
      (Accounts vocation s op ↔ Meets vocation s op) := by
  cases op with
  | add notGainMana amount =>
      obtain ⟨s', hs', hsound, hle, hexact⟩ := addManaSpent_spec hs notGainMana amount
      have hstep : step vocation s (.add notGainMana amount) = s' := by
        rw [step, hs']
        rfl
      unfold Accounts Meets
      rw [hstep]
      refine ⟨fun _ => hsound, ?_, ?_⟩
      · rintro ⟨-, -, -, htotal⟩ hbelow
        exact (hexact hbelow).mp (htotal hbelow)
      · intro hno
        refine ⟨hsound.kept, ?_, hle, fun hbelow => (hexact hbelow).mpr (hno hbelow)⟩
        rw [hs']
        rfl
  | remove amount =>
      obtain ⟨hfew, hmany⟩ := removeManaSpent_spec hs amount
      refine ⟨fun hmeets => (hfew hmeets).1, ?_, ?_⟩
      · rintro ⟨-, -, htotal⟩
        exact hmany htotal
      · intro hmeets
        obtain ⟨hsound, hlevel, htotal⟩ := hfew hmeets
        exact ⟨hsound.kept, hlevel, htotal⟩

end Steps

/-- A new player has no magic level, and no mana spent. -/
def newPlayer : Progress := ⟨0, 0⟩

theorem newPlayer_sound {vocation : Vocation} : Inv vocation newPlayer :=
  Sound.base getReqMana_fits

/-- Every step of a player's life accounts for what it adds or takes away exactly if each of them
meets its condition. -/
theorem mana_accounts (vocation : Vocation) (ops : List Op) :
    Throughout (step vocation) (Accounts vocation) newPlayer ops ↔
      Throughout (step vocation) (Meets vocation) newPlayer ops := by
  have hkeep : ∀ s op, Inv vocation s → Meets vocation s op → Inv vocation (step vocation s op) :=
    fun _ op hs => (step_spec hs op).1
  have hiff : ∀ s op, Inv vocation s → (Accounts vocation s op ↔ Meets vocation s op) :=
    fun _ op hs => (step_spec hs op).2
  exact throughout_iff hkeep hiff newPlayer_sound ops

/-- A vocation that asks for 1600 times the powers of four, as far as 64 bits go. -/
def fourfold : Vocation where
  power n := 1600 * 4 ^ n % 2 ^ 64
  lt _ := Nat.mod_lt _ (Nat.two_pow_pos 64)

/-- One point of mana less than nothing. -/
theorem mana_accounts_nothing :
    ¬ ∀ (vocation : Vocation) (ops : List Op),
      Throughout (step vocation) (Accounts vocation) newPlayer ops := by
  intro h
  have hfirst := (throughout_cons.mp (h fourfold [.remove 1])).1
  have hfew : (1 : UInt64).toNat ≤ totalMana fourfold newPlayer :=
    (step_spec newPlayer_sound (.remove 1)).2.mp hfirst
  have hnone : totalMana fourfold newPlayer = 0 := gained_lowest
  rw [hnone] at hfew
  exact absurd hfew (by decide)

end Bruxo.ManaSpent
