import Bruxo.Lib.Tally
import Bruxo.Lib.Shares

/-!
# Experience of a death

What `Creature::onDeath` (`creature.cpp`) collects for those that have damaged a creature, each by
its part of the damage that `addDamagePoints` has counted, with `Player::getGainedExperience`
(`player.cpp`) where a player has died. Numbers are exact: the counters have no width and a ratio is
a rational number. The creature that has dealt the most damage, the times of the damage and what is
done with the collected experience are left out.
-/

namespace Bruxo.ExperienceSplit

open AssocList

structure Party where
  leader : Option Nat
  sharedExpActive : Bool
  sharedExpEnabled : Bool

structure AttackerPlayer where
  level : UInt32
  party : Option Party

structure Attacker where
  player : Option AttackerPlayer

structure VictimPlayer where
  level : UInt32
  skillLoss : Bool

structure Victim where
  id : Nat
  lostExperience : Nat
  player : Option VictimPlayer

structure Config where
  experienceFromPlayers : Bool
  expFromPlayersLevelRange : Int

/-- `getCreatureByID` -/
abbrev Creatures := Nat → Option Attacker

abbrev DamageMap := List (Nat × Int)

abbrev ExperienceMap := List (Nat × Nat)

def addDamagePoints (m : DamageMap) (attackerId : Nat) (damagePoints : Int) : DamageMap :=
  if damagePoints ≤ 0 then m
  else AssocList.set attackerId ((find attackerId m).getD 0 + damagePoints) m

def getDamageRatio (m : DamageMap) (attackerId : Nat) : ℚ :=
  let totalDamage := (m.map Prod.snd).sum
  let attackerDamage := ((m.filter fun e => e.1 = attackerId).map Prod.snd).sum
  if totalDamage = 0 then 0 else attackerDamage / totalDamage

/-- Whether a player gets experience of a player that dies. The difference of the levels has no
sign. -/
def rewards (config : Config) (v : Victim) (player : VictimPlayer) (attackerId : Nat)
    (attacker : Attacker) : Bool :=
  config.experienceFromPlayers &&
    match attacker.player with
    | some attackerPlayer =>
        attackerId ≠ v.id && player.skillLoss &&
          ((attackerPlayer.level - player.level).toNat : Int) ≤ config.expFromPlayersLevelRange
    | none => false

/-- `Creature::getGainedExperience` and what a player has instead. -/
def getGainedExperience (config : Config) (v : Victim) (m : DamageMap) (attackerId : Nat)
    (attacker : Attacker) : Nat :=
  match v.player with
  | none => ⌊getDamageRatio m attackerId * v.lostExperience⌋₊
  | some player =>
      if rewards config v player attackerId attacker then
        ⌊v.lostExperience * getDamageRatio m attackerId * (3 / 4)⌋₊
      else 0

/-- The leader of a party that shares experience gets what its members gain. -/
def receiver (attackerId : Nat) (attacker : Attacker) : Nat :=
  match attacker.player with
  | none => attackerId
  | some attackerPlayer =>
      match attackerPlayer.party with
      | none => attackerId
      | some party =>
          match party.leader with
          | none => attackerId
          | some leader =>
              if party.sharedExpActive && party.sharedExpEnabled then leader else attackerId

section Collect

variable (config : Config) (creatures : Creatures) (v : Victim)

def collect (m : DamageMap) (experienceMap : ExperienceMap) (e : Nat × Int) : ExperienceMap :=
  match creatures e.1 with
  | none => experienceMap
  | some attacker =>
      if e.1 = v.id then experienceMap
      else
        let gainExp := getGainedExperience config v m e.1 attacker
        let key := receiver e.1 attacker
        match find key experienceMap with
        | none => AssocList.set key gainExp experienceMap
        | some experience => AssocList.set key (experience + gainExp) experienceMap

/-- The experience map of `onDeath`. -/
def experienceMap (m : DamageMap) : ExperienceMap := m.foldl (collect config creatures v m) []

end Collect

/-! ## The damage -/

def damaged (history : List (Nat × Int)) : DamageMap :=
  history.foldl (fun m e => addDamagePoints m e.1 e.2) []

/-- The damage of an attacker in all. -/
def damageOf (history : List (Nat × Int)) (attackerId : Nat) : Int :=
  ((history.filter fun e => e.1 = attackerId ∧ 0 < e.2).map Prod.snd).sum

def attackers (history : List (Nat × Int)) : Finset Nat :=
  ((history.filter fun e => 0 < e.2).map Prod.fst).toFinset

section Damage

variable {history : List (Nat × Int)}

theorem damaged_eq : damaged history = (history.filter fun e => 0 < e.2).foldl Tally.credit [] := by
  unfold damaged
  generalize ([] : DamageMap) = m
  induction history generalizing m with
  | nil => rfl
  | cons e history ih =>
      rw [List.foldl_cons, ih]
      unfold addDamagePoints
      by_cases h : 0 < e.2
      · rw [if_neg (by omega), List.filter_cons_of_pos (by simpa using h), List.foldl_cons]
        rfl
      · rw [if_pos (by omega), List.filter_cons_of_neg (by simpa using h)]

theorem damaged_sorted : Sorted (damaged history) := by
  rw [damaged_eq]
  exact Tally.Sorted.credits List.Pairwise.nil _

theorem keys_damaged : Tally.keys (damaged history) = attackers history := by
  rw [damaged_eq, Tally.keys_credits]
  exact Finset.empty_union _

theorem held_damaged (i : Nat) : Tally.held i (damaged history) = damageOf history i := by
  rw [damaged_eq, Tally.held_credits]
  unfold Tally.deposited damageOf
  rw [List.filter_filter]
  simp only [Bool.decide_and]
  exact zero_add (_ : Int)

theorem damageOf_nonneg (i : Nat) : 0 ≤ damageOf history i := by
  apply List.sum_nonneg
  intro x hx
  obtain ⟨e, he, rfl⟩ := List.mem_map.mp hx
  have hpos := (of_decide_eq_true (List.mem_filter.mp he).2).2
  exact Int.le_of_lt hpos

theorem damageOf_eq_zero {i : Nat} (hi : i ∉ attackers history) : damageOf history i = 0 := by
  have hnone : (history.filter fun e => e.1 = i ∧ 0 < e.2) = [] := by
    refine List.filter_eq_nil_iff.mpr fun e he hmem => ?_
    obtain ⟨rfl, hpos⟩ := of_decide_eq_true hmem
    refine hi (List.mem_toFinset.mpr (List.mem_map_of_mem ?_))
    exact List.mem_filter.mpr ⟨he, decide_eq_true hpos⟩
  rw [damageOf, hnone]
  rfl

theorem getDamageRatio_damaged (i : Nat) :
    getDamageRatio (damaged history) i =
      Shares.part (attackers history) (fun j => (damageOf history j : ℚ)) i := by
  have htotal : ((damaged history).map Prod.snd).sum = ∑ j ∈ attackers history, damageOf history j := by
    rw [← keys_damaged]
    refine (Tally.total_eq_sum damaged_sorted).trans (Finset.sum_congr rfl fun j _ => ?_)
    exact held_damaged j
  have hown : (((damaged history).filter fun e => e.1 = i).map Prod.snd).sum =
      damageOf history i :=
    (Tally.deposited_eq_held damaged_sorted i).trans (held_damaged i)
  unfold getDamageRatio Shares.part
  rw [htotal, hown, ← Int.cast_sum]
  by_cases hzero : ∑ j ∈ attackers history, damageOf history j = 0
  · rw [if_pos hzero, hzero, Int.cast_zero, div_zero]
  · rw [if_neg hzero]

end Damage

/-! ## The experience -/

/-- Who gets what an attacker gains: nobody for one that is not in the game any more, and for the
creature itself. -/
def receiverOf (creatures : Creatures) (v : Victim) (attackerId : Nat) : Option Nat :=
  match creatures attackerId with
  | none => none
  | some attacker => if attackerId = v.id then none else some (receiver attackerId attacker)

/-- How much of its part the kind of the creature leaves an attacker. -/
def rate (config : Config) (creatures : Creatures) (v : Victim) (attackerId : Nat) : ℚ :=
  match creatures attackerId with
  | none => 0
  | some attacker =>
      match v.player with
      | none => 1
      | some player => if rewards config v player attackerId attacker then 3 / 4 else 0

/-- The floor of the part of an attacker. -/
def gain (config : Config) (creatures : Creatures) (v : Victim) (history : List (Nat × Int))
    (attackerId : Nat) : Nat :=
  ⌊(damageOf history attackerId : ℚ) / (∑ j ∈ attackers history, damageOf history j : Int) *
    v.lostExperience * rate config creatures v attackerId⌋₊

section Experience

variable {config : Config} {creatures : Creatures} {v : Victim} {history : List (Nat × Int)}

theorem part_eq (i : Nat) :
    Shares.part (attackers history) (fun j => (damageOf history j : ℚ)) i =
      (damageOf history i : ℚ) / (∑ j ∈ attackers history, damageOf history j : Int) := by
  unfold Shares.part
  rw [Int.cast_sum]

theorem getGainedExperience_damaged {i : Nat} {attacker : Attacker}
    (h : creatures i = some attacker) :
    getGainedExperience config v (damaged history) i attacker =
      gain config creatures v history i := by
  unfold getGainedExperience gain rate
  rw [getDamageRatio_damaged, part_eq, h]
  cases v.player with
  | none =>
      dsimp only
      rw [mul_one]
  | some player =>
      dsimp only
      split
      · rw [mul_comm (v.lostExperience : ℚ)]
      · rw [mul_zero, Nat.floor_zero]

/-- What the loop over the damage takes to whom. -/
def deposits (config : Config) (creatures : Creatures) (v : Victim) (history : List (Nat × Int))
    (m : DamageMap) : List (Nat × Nat) :=
  m.filterMap fun e =>
    (receiverOf creatures v e.1).map fun c => (c, gain config creatures v history e.1)

theorem collect_damaged (map : ExperienceMap) (e : Nat × Int) :
    collect config creatures v (damaged history) map e =
      match receiverOf creatures v e.1 with
      | none => map
      | some c => Tally.credit map (c, gain config creatures v history e.1) := by
  unfold collect receiverOf
  cases h : creatures e.1 with
  | none => rfl
  | some attacker =>
      dsimp only
      rw [getGainedExperience_damaged h]
      by_cases hself : e.1 = v.id
      · rw [if_pos hself, if_pos hself]
      · rw [if_neg hself, if_neg hself]
        dsimp only
        unfold Tally.credit Tally.held
        dsimp only
        cases hfind : find (receiver e.1 attacker) map with
        | none =>
            dsimp only
            rw [Option.getD_none, Nat.zero_add]
        | some experience => rfl

theorem experienceMap_damaged :
    experienceMap config creatures v (damaged history) =
      (deposits config creatures v history (damaged history)).foldl Tally.credit [] := by
  unfold experienceMap deposits
  generalize ([] : ExperienceMap) = map
  generalize hm : damaged history = m
  have hcollect : ∀ map e, collect config creatures v m map e =
      match receiverOf creatures v e.1 with
      | none => map
      | some c => Tally.credit map (c, gain config creatures v history e.1) := by
    rw [← hm]
    exact collect_damaged
  clear hm
  generalize collect config creatures v m = step at hcollect ⊢
  induction m generalizing map with
  | nil => rfl
  | cons e m ih =>
      rw [List.foldl_cons, ih, hcollect, List.filterMap_cons]
      cases receiverOf creatures v e.1 with
      | none => rfl
      | some c => rfl

theorem experience_at (c : Nat) :
    Tally.held c (experienceMap config creatures v (damaged history)) =
      ∑ i ∈ attackers history with receiverOf creatures v i = some c,
        gain config creatures v history i := by
  have hdeposited : ∀ m : DamageMap,
      Tally.deposited c (deposits config creatures v history m) =
        (m.map fun e => if receiverOf creatures v e.1 = some c then
          gain config creatures v history e.1 else 0).sum := by
    intro m
    induction m with
    | nil => rfl
    | cons e m ih =>
        rw [List.map_cons, List.sum_cons, ← ih]
        unfold deposits
        rw [List.filterMap_cons]
        cases receiverOf creatures v e.1 with
        | none =>
            rw [if_neg (Option.some_ne_none c).symm, Nat.zero_add]
            rfl
        | some c' =>
            rw [Option.map_some, Tally.deposited_cons]
            congr 1
            exact if_congr Option.some_inj.symm rfl rfl
  rw [experienceMap_damaged, Tally.held_credits, hdeposited, Finset.sum_filter, ← keys_damaged,
    Tally.sum_entries damaged_sorted fun i => if receiverOf creatures v i = some c then
      gain config creatures v history i else 0]
  exact Nat.zero_add _

theorem total_experience :
    Tally.total (experienceMap config creatures v (damaged history)) =
      ∑ i ∈ attackers history with (receiverOf creatures v i).isSome,
        gain config creatures v history i := by
  have htotal : ∀ m : DamageMap,
      Tally.total (deposits config creatures v history m) =
        (m.map fun e => if (receiverOf creatures v e.1).isSome then
          gain config creatures v history e.1 else 0).sum := by
    intro m
    induction m with
    | nil => rfl
    | cons e m ih =>
        rw [List.map_cons, List.sum_cons, ← ih]
        unfold deposits
        rw [List.filterMap_cons]
        cases receiverOf creatures v e.1 with
        | none => exact (Nat.zero_add _).symm
        | some c' => exact List.sum_cons
  rw [experienceMap_damaged, Tally.total_credits List.Pairwise.nil, htotal, Finset.sum_filter,
    ← keys_damaged, Tally.sum_entries damaged_sorted fun i =>
      if (receiverOf creatures v i).isSome then gain config creatures v history i else 0]
  exact Nat.zero_add _

theorem rate_spec (i : Nat) :
    0 ≤ rate config creatures v i ∧ rate config creatures v i ≤ 1 := by
  unfold rate
  split
  · norm_num
  · split
    · norm_num
    · split <;> norm_num

theorem part_damaged_nonneg (history : List (Nat × Int)) (i : Nat) :
    0 ≤ (damageOf history i : ℚ) / (∑ j ∈ attackers history, damageOf history j : Int) := by
  rw [← part_eq]
  exact Shares.part_nonneg (fun j _ => Int.cast_nonneg (damageOf_nonneg j))
    (Int.cast_nonneg (damageOf_nonneg i))

theorem gain_le_share (i : Nat) :
    gain config creatures v history i ≤
      Shares.share (attackers history) (fun j => (damageOf history j : ℚ)) v.lostExperience i := by
  unfold gain Shares.share
  rw [part_eq]
  apply Nat.floor_le_floor
  have hpart := part_damaged_nonneg history i
  exact mul_le_of_le_one_right (mul_nonneg hpart (Nat.cast_nonneg _)) (rate_spec i).2

theorem gain_le_gain {history' : List (Nat × Int)} {i j : Nat}
    (hpart : (damageOf history i : ℚ) / (∑ k ∈ attackers history, damageOf history k : Int) ≤
      (damageOf history' j : ℚ) / (∑ k ∈ attackers history', damageOf history' k : Int))
    (hrate : rate config creatures v i ≤ rate config creatures v j) :
    gain config creatures v history i ≤ gain config creatures v history' j := by
  have hnonneg := part_damaged_nonneg history' j
  apply Nat.floor_le_floor
  have hlost : (0 : ℚ) ≤ v.lostExperience := Nat.cast_nonneg _
  exact mul_le_mul (mul_le_mul_of_nonneg_right hpart hlost) hrate (rate_spec i).1
    (mul_nonneg hnonneg hlost)

theorem sum_damageOf {s : Finset Nat} (hsub : attackers history ⊆ s) :
    ∑ j ∈ attackers history, damageOf history j = ∑ j ∈ s, damageOf history j :=
  Finset.sum_subset hsub fun _ _ hj => damageOf_eq_zero hj

/-- More damage of one attacker, and of no other. -/
theorem part_le_of_more {history' : List (Nat × Int)} {i : Nat}
    (hle : damageOf history i ≤ damageOf history' i)
    (hothers : ∀ j, j ≠ i → damageOf history' j = damageOf history j) :
    (damageOf history i : ℚ) / (∑ k ∈ attackers history, damageOf history k : Int) ≤
      (damageOf history' i : ℚ) / (∑ k ∈ attackers history', damageOf history' k : Int) := by
  have hsub : attackers history ⊆ insert i (attackers history ∪ attackers history') :=
    Finset.subset_union_left.trans (Finset.subset_insert _ _)
  have hsub' : attackers history' ⊆ insert i (attackers history ∪ attackers history') :=
    Finset.subset_union_right.trans (Finset.subset_insert _ _)
  have hgrown := Shares.part_le_of_grown (s := insert i (attackers history ∪ attackers history'))
    (fun j => (damageOf history j : ℚ)) (fun j => (damageOf history' j : ℚ))
    (fun j _ => Int.cast_nonneg (damageOf_nonneg j)) (Finset.mem_insert_self _ _)
    (Int.cast_le.mpr hle) fun j _ hj => congrArg Int.cast (hothers j hj)
  unfold Shares.part at hgrown
  rw [← Int.cast_sum, ← Int.cast_sum] at hgrown
  rwa [sum_damageOf hsub, sum_damageOf hsub']

end Experience

/-- The collected experience is at most what is lost: every attacker in the game gives its receiver
the floor of what the kind of the creature leaves of its part, once, and more damage gives not
less. -/
theorem experience_split (config : Config) (creatures : Creatures) (v : Victim)
    (history : List (Nat × Int)) :
    ((experienceMap config creatures v (damaged history)).map Prod.snd).sum ≤ v.lostExperience ∧
    (∀ c, (find c (experienceMap config creatures v (damaged history))).getD 0 =
      ∑ i ∈ attackers history with receiverOf creatures v i = some c,
        gain config creatures v history i) ∧
    (∀ i j, damageOf history i ≤ damageOf history j →
      rate config creatures v i ≤ rate config creatures v j →
      gain config creatures v history i ≤ gain config creatures v history j) ∧
    ∀ history' i, damageOf history i ≤ damageOf history' i →
      (∀ j, j ≠ i → damageOf history' j = damageOf history j) →
      gain config creatures v history i ≤ gain config creatures v history' i := by
  refine ⟨?_, experience_at, fun i j hij hrate => ?_, fun history' i hle hothers => ?_⟩
  · refine Nat.le_trans (Nat.le_of_eq total_experience) ?_
    exact Shares.sum_le_pool (fun j _ => Int.cast_nonneg (damageOf_nonneg j))
      (Finset.filter_subset _ _) fun i _ => gain_le_share i
  · have hpart := Shares.part_mono (s := attackers history) (i := i) (j := j)
      (w := fun k => (damageOf history k : ℚ)) (fun k _ => Int.cast_nonneg (damageOf_nonneg k))
      (Int.cast_le.mpr hij)
    rw [part_eq, part_eq] at hpart
    exact gain_le_gain hpart hrate
  · exact gain_le_gain (part_le_of_more hle hothers) le_rfl

/-- A player that dies leaves nothing where players give no experience, and a monster that has dealt
itself half of the damage does not get the half of it. -/
theorem experience_split_differ :
    ((find 7 (experienceMap ⟨false, 0⟩ (fun _ => some ⟨none⟩) ⟨1, 100, some ⟨8, true⟩⟩
        (damaged [(7, 10)]))).getD 0 ≠
      ⌊(damageOf [(7, 10)] 7 : ℚ) / (damageOf [(7, 10)] 7 : Int) * (100 : Nat)⌋₊) ∧
    (find 1 (experienceMap ⟨false, 0⟩ (fun _ => some ⟨none⟩) ⟨1, 100, none⟩
        (damaged [(7, 10), (1, 10)]))).getD 0 ≠
      ⌊(damageOf [(7, 10), (1, 10)] 1 : ℚ) /
        (damageOf [(7, 10), (1, 10)] 7 + damageOf [(7, 10), (1, 10)] 1 : Int) * (100 : Nat)⌋₊ := by
  decide +kernel

end Bruxo.ExperienceSplit
