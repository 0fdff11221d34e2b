import Mathlib.Algebra.BigOperators.Intervals
import Mathlib.Algebra.Order.BigOperators.Group.Finset
import Mathlib.Algebra.Group.Nat.Defs

/-!
# Levels and what is gathered for the next one

The loops of `Player::addManaSpent` and `addSkillAdvance`, and those of `removeManaSpent` and
`removeSkillTries` (`player.cpp`): every level asks for a number of points, of which those above the
level that is reached are stored. All of them, with those of the levels below, are the total.

A sum of 64 bits that wraps around can be mistaken for one that does not reach the next level
(`Wraps`).
-/

namespace Bruxo.LevelProgress

open Finset (Ioc)

structure Progress where
  level : Nat
  points : Nat
  deriving DecidableEq

section Defs

variable (req : Nat → Nat)

/-- Adding points, level by level, where levels are counted modulo `levels`. At the level that is
the last to ask for more than the one before, the rest of the amount is dropped. -/
def climb (levels : Nat) : Nat → Progress → Nat → Option Progress
  | 0, _, _ => none
  | n + 1, s, amount =>
      let nextReq := req ((s.level + 1) % levels)
      if (s.points + amount) % 2 ^ 64 < nextReq then
        some ⟨s.level, (s.points + amount) % 2 ^ 64⟩
      else
        let level := (s.level + 1) % levels
        if req ((level + 1) % levels) ≤ nextReq then some ⟨level, 0⟩
        else
          climb levels n ⟨level, 0⟩ ((amount + 2 ^ 64 - (nextReq + 2 ^ 64 - s.points) % 2 ^ 64) % 2 ^ 64)

/-- Taking points away, level by level: the level, what is stored at it, and what is still to be
taken. -/
def descend (lowest : Nat) : Nat → Nat → Nat → Nat × Nat × Nat
  | 0, points, amount => (0, points, amount)
  | level + 1, points, amount =>
      if points < amount ∧ lowest < level + 1 then
        descend lowest level (req (level + 1)) (amount - points)
      else (level + 1, points, amount)

/-! ## Totals -/

/-- What the levels up to `level` have asked for. -/
def gained (lowest level : Nat) : Nat := ∑ i ∈ Ioc lowest level, req i

def total (lowest : Nat) (s : Progress) : Nat := gained req lowest s.level + s.points

/-- Each level up to some level asks for more than the one before, and the total does not get
above that level. -/
def BelowCap (levels lowest : Nat) (s : Progress) (amount : Nat) : Prop :=
  ∃ top < levels, (∀ l, s.level ≤ l → l < top → req l < req (l + 1)) ∧
    total req lowest s + amount ≤ gained req lowest top

/-- The sum wraps around and seems not to reach the next level. -/
def Wraps (s : Progress) (amount : Nat) : Prop :=
  2 ^ 64 ≤ s.points + amount ∧ s.points + amount - 2 ^ 64 < req (s.level + 1)

/-- What is stored is less than the next level asks for; at a level after which nothing more is
asked for it is nothing. -/
def Kept (levels : Nat) (s : Progress) : Prop :=
  s.points < req ((s.level + 1) % levels) ∨
    req ((s.level + 1) % levels) ≤ req s.level ∧ s.points = 0

/-- Each level below asks for more than the one before. -/
structure Sound (levels lowest : Nat) (s : Progress) : Prop where
  lowest_le : lowest ≤ s.level
  lt : s.level < levels
  grows : ∀ l, lowest ≤ l → l < s.level → req l < req (l + 1)
  kept : Kept req levels s

/-- What a level asks for is a number of 64 bits, and around the end of the numbers nothing more is
asked for: level 0 asks for no more than the lowest one, or the second for no more than it. -/
structure Fits (levels lowest : Nat) : Prop where
  lt : ∀ l, req l < 2 ^ 64
  room : lowest + 1 < levels
  zero : req 0 ≤ req lowest ∨ req (lowest + 1) ≤ req lowest

end Defs

section Lemmas

variable {req : Nat → Nat} {levels lowest : Nat} {s s' : Progress} {amount n : Nat}

theorem gained_succ {level : Nat} (h : lowest ≤ level) :
    gained req lowest (level + 1) = gained req lowest level + req (level + 1) :=
  Finset.sum_Ioc_succ_top h req

theorem gained_lowest : gained req lowest lowest = 0 := by
  unfold gained
  rw [Finset.Ioc_self, Finset.sum_empty]

theorem gained_mono {level level' : Nat} (h : level ≤ level') :
    gained req lowest level ≤ gained req lowest level' := by
  refine Finset.sum_le_sum_of_subset ?_
  exact Finset.Ioc_subset_Ioc_right h

theorem Sound.req_le (hs : Sound req levels lowest s) {l : Nat} (hl : lowest ≤ l)
    (hlevel : l ≤ s.level) : req lowest ≤ req l := by
  induction l, hl using Nat.le_induction with
  | base => exact Nat.le_refl _
  | succ l hl ih =>
      have hstep := hs.grows l hl (by omega)
      exact Nat.le_of_lt (Nat.lt_of_le_of_lt (ih (by omega)) hstep)

/-- Nothing stored is less than what any level asks for. -/
theorem kept_zero (level : Nat) : Kept req levels ⟨level, 0⟩ := by
  by_cases hcap : req ((level + 1) % levels) ≤ req level
  · exact .inr ⟨hcap, rfl⟩
  · exact .inl (Nat.lt_of_le_of_lt (Nat.zero_le _) (Nat.not_le.mp hcap))

/-- Nothing is stored at the lowest level. -/
theorem Sound.base (hfits : Fits req levels lowest) : Sound req levels lowest ⟨lowest, 0⟩ := by
  have hlt : lowest < levels := Nat.lt_of_succ_lt hfits.room
  exact ⟨Nat.le_refl _, hlt, fun l hl hless => absurd hl (Nat.not_le.mpr hless), kept_zero lowest⟩

/-- The next level, as it is reached. -/
theorem Sound.next (hs : Sound req levels lowest s) (hsucc : s.level + 1 < levels)
    (hgrows : req s.level < req (s.level + 1)) :
    Sound req levels lowest ⟨s.level + 1, 0⟩ := by
  refine ⟨Nat.le_succ_of_le hs.lowest_le, hsucc, fun l hl hlt => ?_, kept_zero _⟩
  rcases Nat.lt_succ_iff_lt_or_eq.mp hlt with hlt | rfl
  · exact hs.grows l hl hlt
  · exact hgrows

theorem Sound.fewer {level points points' : Nat} (hs : Sound req levels lowest ⟨level, points⟩)
    (hle : points' ≤ points) : Sound req levels lowest ⟨level, points'⟩ := by
  refine ⟨hs.lowest_le, hs.lt, hs.grows, ?_⟩
  rcases hs.kept with hless | ⟨hcap, hnone⟩
  · exact .inl (Nat.lt_of_le_of_lt hle hless)
  · refine .inr ⟨hcap, ?_⟩
    exact Nat.eq_zero_of_le_zero (hnone ▸ hle)

/-- Below the last level there is another one. -/
theorem Sound.succ_lt (hfits : Fits req levels lowest) (hs : Sound req levels lowest s)
    (hgrows : req s.level < req ((s.level + 1) % levels)) : s.level + 1 < levels := by
  by_contra hlast
  have hlt := hs.lt
  have hroom := hfits.room
  have htop : s.level + 1 = levels := by omega
  rw [htop, Nat.mod_self] at hgrows
  rcases hfits.zero with hzero | hsecond
  · have hlow := hs.req_le hs.lowest_le (Nat.le_refl _)
    omega
  · have hfirst := hs.grows lowest (Nat.le_refl _) (by omega)
    omega

/-- At the cap there is nothing more to be gained below it. -/
theorem belowCap_of_cap (hcap : req ((s.level + 1) % levels) ≤ req s.level)
    (h : BelowCap req levels lowest s amount) :
    total req lowest s + amount = gained req lowest s.level := by
  obtain ⟨top, htop, hgrows, hle⟩ := h
  have htopLe : top ≤ s.level := by
    by_contra hmore
    have hmod : (s.level + 1) % levels = s.level + 1 := Nat.mod_eq_of_lt (by omega)
    have hgrow := hgrows s.level (Nat.le_refl _) (by omega)
    rw [hmod] at hcap
    omega
  have hmost : gained req lowest top ≤ gained req lowest s.level := gained_mono htopLe
  unfold total at hle ⊢
  omega

theorem belowCap_next {points : Nat} (hlow : lowest ≤ s.level)
    (h : BelowCap req levels lowest s amount)
    (hmore : s.points + amount = req (s.level + 1) + points) :
    BelowCap req levels lowest ⟨s.level + 1, 0⟩ points := by
  obtain ⟨top, htop, hgrows, hle⟩ := h
  refine ⟨top, htop, fun l hl => hgrows l (Nat.le_of_succ_le hl), ?_⟩
  unfold total at hle ⊢
  dsimp only
  rw [gained_succ hlow]
  omega

theorem points_lt (hfits : Fits req levels lowest) (hs : Sound req levels lowest s) :
    s.points < 2 ^ 64 := by
  rcases hs.kept with hless | ⟨-, hnone⟩
  · exact Nat.lt_trans hless (hfits.lt _)
  · rw [hnone]
    exact Nat.two_pow_pos 64

/-- Adding points keeps what is stored below what the next level asks for, and below the cap it
adds all of them, if the first sum does not wrap around. -/
theorem climb_spec (hfits : Fits req levels lowest) (hs : Sound req levels lowest s)
    (hgrows : req s.level < req ((s.level + 1) % levels)) (hamount : amount < 2 ^ 64)
    (hn : amount < n) :
    ∃ s', climb req levels n s amount = some s' ∧ Sound req levels lowest s' ∧
      s.level ≤ s'.level ∧
      (Wraps req s amount → s' = ⟨s.level, s.points + amount - 2 ^ 64⟩) ∧
      (¬ Wraps req s amount → BelowCap req levels lowest s amount →
        total req lowest s' = total req lowest s + amount) := by
  induction n generalizing s amount with
  | zero => omega
  | succ n ih =>
      have hsucc := hs.succ_lt hfits hgrows
      have hmod : (s.level + 1) % levels = s.level + 1 := Nat.mod_eq_of_lt hsucc
      rw [hmod] at hgrows
      have hpoints : s.points < req (s.level + 1) := by
        rcases hs.kept with hless | ⟨hcap, -⟩
        · rwa [hmod] at hless
        · rw [hmod] at hcap
          omega
      have hreq := hfits.lt (s.level + 1)
      rw [climb]
      dsimp only
      rw [hmod]
      by_cases hstay : (s.points + amount) % 2 ^ 64 < req (s.level + 1)
      · rw [if_pos hstay]
        refine ⟨_, rfl, ⟨hs.lowest_le, hs.lt, hs.grows, .inl ?_⟩, Nat.le_refl _, ?_, ?_⟩
        · rwa [hmod]
        · rintro ⟨hmany, -⟩
          have hwrap : (s.points + amount) % 2 ^ 64 = s.points + amount - 2 ^ 64 := by omega
          rw [hwrap]
        · intro hno _
          have hfew : s.points + amount < 2 ^ 64 := by
            by_contra hmany
            exact hno ⟨by omega, by omega⟩
          rw [Nat.mod_eq_of_lt hfew]
          unfold total
          dsimp only
          omega
      · rw [if_neg hstay]
        have hnot : ¬ Wraps req s amount := by
          rintro ⟨hmany, hless⟩
          omega
        obtain ⟨rest, hrest⟩ : ∃ rest, s.points + amount = req (s.level + 1) + rest :=
          ⟨s.points + amount - req (s.level + 1), by omega⟩
        have hless : rest < amount := by omega
        have hsub : (amount + 2 ^ 64 - (req (s.level + 1) + 2 ^ 64 - s.points) % 2 ^ 64) % 2 ^ 64 =
            rest := by
          have hdiff : (req (s.level + 1) + 2 ^ 64 - s.points) % 2 ^ 64 =
              req (s.level + 1) - s.points := by omega
          omega
        have hlow := hs.lowest_le
        have hnext : Sound req levels lowest ⟨s.level + 1, 0⟩ := hs.next hsucc hgrows
        have hbelow : BelowCap req levels lowest s amount →
            BelowCap req levels lowest ⟨s.level + 1, 0⟩ rest := fun h =>
          belowCap_next hlow h hrest
        have htotal : total req lowest ⟨s.level + 1, 0⟩ + rest = total req lowest s + amount := by
          unfold total
          dsimp only
          rw [gained_succ hlow]
          omega
        by_cases hcap : req ((s.level + 1 + 1) % levels) ≤ req (s.level + 1)
        · rw [if_pos hcap]
          refine ⟨_, rfl, hnext, Nat.le_succ _, fun h => absurd h hnot, fun _ h => ?_⟩
          have hall := belowCap_of_cap hcap (hbelow h)
          rw [← htotal, hall]
          rfl
        · rw [if_neg hcap, hsub]
          have hgrows' : req (Progress.mk (s.level + 1) 0).level <
              req (((Progress.mk (s.level + 1) 0).level + 1) % levels) := Nat.not_le.mp hcap
          have hrestLt : rest < 2 ^ 64 := by omega
          have hn' : rest < n := by omega
          obtain ⟨s', hs', hsound, hle, -, hexact⟩ := ih hnext hgrows' hrestLt hn'
          refine ⟨s', hs', hsound, Nat.le_of_succ_le hle, fun h => absurd h hnot, fun _ h => ?_⟩
          rw [← htotal]
          refine hexact (fun hwraps => ?_) (hbelow h)
          have hmany : 2 ^ 64 ≤ 0 + rest := hwraps.1
          omega

/-- A step down leaves what is still to be taken of the total, and what was taken was all of the
points of the levels that are left. -/
theorem descend_spec {level points level' points' amount' : Nat} (hlow : lowest ≤ level)
    (h : descend req lowest level points amount = (level', points', amount')) :
    lowest ≤ level' ∧ level' ≤ level ∧
      gained req lowest level + points + amount' = gained req lowest level' + points' + amount ∧
      (points' < amount' → level' = lowest) ∧
      (level' = level ∧ points' = points ∧ amount' = amount ∨
        points' = req (level' + 1) ∧ 0 < amount' ∧ level' < level) := by
  induction level generalizing points amount with
  | zero =>
      cases h
      exact ⟨hlow, Nat.le_refl _, rfl, fun _ => by omega, .inl ⟨rfl, rfl, rfl⟩⟩
  | succ level ih =>
      rw [descend] at h
      by_cases hmore : points < amount ∧ lowest < level + 1
      · rw [if_pos hmore] at h
        have hlow' : lowest ≤ level := by omega
        obtain ⟨hlowest, hle, hsum, hlast, hhow⟩ := ih hlow' h
        have hsucc : gained req lowest (level + 1) = gained req lowest level + req (level + 1) :=
          gained_succ hlow'
        refine ⟨hlowest, Nat.le_succ_of_le hle, by omega, hlast, .inr ?_⟩
        rcases hhow with ⟨rfl, rfl, rfl⟩ | ⟨hpoints, hpos, hlt⟩
        · exact ⟨rfl, by omega, Nat.lt_succ_self _⟩
        · exact ⟨hpoints, hpos, Nat.lt_succ_of_lt hlt⟩
      · rw [if_neg hmore] at h
        cases h
        exact ⟨hlow, Nat.le_refl _, rfl, fun hless => by omega, .inl ⟨rfl, rfl, rfl⟩⟩

/-- What is left at the level that is reached is less than the next one asks for. -/
theorem Sound.descend (hs : Sound req levels lowest s) {level' points' amount' : Nat}
    (h : descend req lowest s.level s.points amount = (level', points', amount'))
    (hle : amount' ≤ points') : Sound req levels lowest ⟨level', points' - amount'⟩ := by
  obtain ⟨hlow, hlevel, -, -, hhow⟩ := descend_spec hs.lowest_le h
  have hlt := hs.lt
  refine ⟨hlow, Nat.lt_of_le_of_lt hlevel hlt, fun l hl hl' =>
    hs.grows l hl (Nat.lt_of_lt_of_le hl' hlevel), ?_⟩
  rcases hhow with ⟨rfl, rfl, rfl⟩ | ⟨hpoints, hpos, hless⟩
  · rcases hs.kept with hkept | ⟨hcap, hnone⟩
    · exact .inl (Nat.lt_of_le_of_lt (Nat.sub_le _ _) hkept)
    · refine .inr ⟨hcap, ?_⟩
      rw [hnone, Nat.zero_sub]
  · refine .inl ?_
    have hmod : (level' + 1) % levels = level' + 1 := Nat.mod_eq_of_lt (by omega)
    dsimp only
    rw [hmod, hpoints]
    omega

end Lemmas

end Bruxo.LevelProgress
