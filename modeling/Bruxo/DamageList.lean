import Bruxo.ConditionSerialize
import Mathlib.Data.Rat.Lemmas
import Mathlib.Tactic.FieldSimp
import Mathlib.Tactic.Linarith
import Mathlib.Algebra.Order.Field.Basic

/-!
# Damage lists

`ConditionDamage::generateDamageList` and `init` (`condition.cpp`): the amount of a damage condition
as a list of values that starts at a value and goes down to one, each value as often as it brings
the sum nearer to its part of the amount. Divisions of floats are exact. A sum or a product that
does not fit a signed number of 32 bits has no meaning, and there is no list then.
-/

namespace Bruxo.DamageList

open Conditions

/-- The values are not negative. -/
def fits (value : Nat) : Prop := value < 2 ^ 31

instance (value : Nat) : Decidable (fits value) := inferInstanceAs (Decidable (_ < _))

/-- `x1 < x2`. Nothing is nearer to no amount. -/
def closer (med sum i : Nat) : Prop :=
  |1 - ((sum : ℚ) + i) / med| < |1 - (sum : ℚ) / med|

instance (med sum i : Nat) : Decidable (closer med sum i) := inferInstanceAs (Decidable (_ < _))

/-- The inner loop, with the sum and what it has pushed. -/
def dealLevel (i : Nat) (hi : 0 < i) (med sum : Nat) : Option (Nat × List Nat) :=
  if _h : fits (sum + i) then
    if closer med (sum + i) i then
      (dealLevel i hi med (sum + i)).map fun r => (r.1, i :: r.2)
    else some (sum + i, [i])
  else none
termination_by 2 ^ 31 - sum
decreasing_by
  unfold fits at _h
  omega

/-- The outer loop, down from `i`. -/
def dealLevels (amount start : Nat) : Nat → Nat → Option (List Nat)
  | 0, _ => some []
  | i + 1, sum =>
      let n := start + 1 - (i + 1)
      if fits (start + 1) ∧ fits (n * amount) then
        match dealLevel (i + 1) (Nat.succ_pos i) (n * amount / start) sum with
        | none => none
        | some (sum, list) => (dealLevels amount start i sum).map (list ++ ·)
      else none

def generateDamageList (amount : Int) (start : Nat) : Option (List Nat) :=
  dealLevels amount.natAbs start start 0

/-! ## `init` -/

def EVENT_CREATURE_THINK_INTERVAL : Int32 := 250

def push (now : Int64) (info : IntervalInfo) (c : Condition) : Condition :=
  match c.derived with
  | .damage d => c.pushDamage now d info
  | _ => c

/-- `rounds = -1` is damage without end. -/
def addDamage (now : Int64) (rounds time value : Int32) (c : Condition) : Bool × Condition :=
  match c.derived with
  | .damage d =>
      let time := max time EVENT_CREATURE_THINK_INTERVAL
      if rounds = -1 then
        (true, { c with
          ticks := -1
          derived := .damage { d with periodDamage := value, tickInterval := time.abs } })
      else if 0 < d.periodDamage then (false, c)
      else (true, (push now ⟨time, value, time⟩)^[rounds.toInt.toNat] c)
  | _ => (false, c)

/-- The start damage that `init` takes for an amount. -/
def startOf (d : ConditionDamage) (amount : Int32) : Int32 :=
  if d.maxDamage < d.startDamage then d.maxDamage
  else if d.startDamage = 0 then Int32.ofInt (max 1 ((amount.toInt + 19) / 20))
  else d.startDamage

/-- With the amount that `uniform_random` has found. -/
def init (now : Int64) (c : Condition) (d : ConditionDamage) (amount : Int32) :
    Option (Bool × Condition) :=
  if d.periodDamage ≠ 0 then some (true, c)
  else if d.damageList ≠ [] then some (true, c)
  else
    let c := c.setTicks now 0
    if amount = 0 then some (false, c)
    else
      let start := startOf d amount
      match generateDamageList amount.toInt start.toInt.toNat with
      | none => none
      | some list =>
          let c := { c with derived := .damage { d with startDamage := start } }
          some (!list.isEmpty, list.foldl (fun c (value : Nat) =>
            (addDamage now 1 d.tickInterval (Int32.ofInt (-value)) c).2) c)

def getTotalDamage (d : ConditionDamage) : Int :=
  if d.damageList ≠ [] then
    ((d.damageList.map fun (info : IntervalInfo) => info.value.toInt).sum).natAbs
  else (d.minDamage.toInt + (d.maxDamage.toInt - d.minDamage.toInt).tdiv 2).natAbs

/-! ## A level -/

theorem closer_iff {med sum i : Nat} (hi : 0 < i) :
    closer med sum i ↔ 2 * sum + i < 2 * med := by
  unfold closer
  rcases Nat.eq_zero_or_pos med with rfl | hmed
  · rw [Nat.cast_zero, div_zero, div_zero]
    exact iff_of_false (lt_irrefl _) (by omega)
  · have hmed' : (0 : ℚ) < med := Nat.cast_pos.mpr hmed
    have hi' : (0 : ℚ) < i := Nat.cast_pos.mpr hi
    have hleft : 1 - ((sum : ℚ) + i) / med = (med - (sum + i)) / med := by
      rw [sub_div, div_self hmed'.ne']
    have hright : 1 - (sum : ℚ) / med = (med - sum) / med := by
      rw [sub_div, div_self hmed'.ne']
    rw [hleft, hright, abs_div, abs_div, div_lt_div_iff_of_pos_right (abs_pos.mpr hmed'.ne'),
      ← sq_lt_sq]
    have hsquares : ((med : ℚ) - sum) ^ 2 - (med - (sum + i)) ^ 2 = i * (2 * med - (2 * sum + i)) := by
      ring
    rw [← sub_pos, hsquares, mul_pos_iff_of_pos_left hi', sub_pos]
    exact_mod_cast Iff.rfl

/-- A level pushes its value at least once. -/
theorem dealLevel_shape {i med sum : Nat} (hi : 0 < i) {s : Nat} {list : List Nat}
    (h : dealLevel i hi med sum = some (s, list)) :
    s = sum + list.sum ∧ ∃ count, list = List.replicate (count + 1) i := by
  induction sum using dealLevel.induct i hi med generalizing s list with
  | case1 sum hfits hcloser ih =>
      rw [dealLevel, dif_pos hfits, if_pos hcloser] at h
      obtain ⟨⟨s', list'⟩, hrest, heq⟩ := Option.map_eq_some_iff.mp h
      cases heq
      obtain ⟨hsum, count, rfl⟩ := ih hrest
      refine ⟨?_, count + 1, rfl⟩
      rw [hsum, List.sum_cons, Nat.add_assoc]
  | case2 sum hfits hcloser =>
      rw [dealLevel, dif_pos hfits, if_neg hcloser] at h
      cases h
      exact ⟨rfl, 0, rfl⟩
  | case3 sum hfits =>
      rw [dealLevel, dif_neg hfits] at h
      cases h

/-- Where there is room for the level and all below it once each, there still is for those below
afterwards, and no part of the amount is left that a value could bring the sum nearer to. -/
theorem dealLevel_spec {amount i med sum : Nat} (hi : 0 < i) (hamount : fits amount)
    (hmed : 2 * med + i * i ≤ 2 * amount + 1) (hroom : 2 * sum + i * i + i ≤ 2 * amount) :
    ∃ s list, dealLevel i hi med sum = some (s, list) ∧ 2 * s + i * i ≤ 2 * amount + i ∧
      2 * med ≤ 2 * s + i := by
  have hsquare : i ≤ i * i := Nat.le_mul_of_pos_left i hi
  unfold fits at hamount
  induction sum using dealLevel.induct i hi med with
  | case1 sum hfits hcloser ih =>
      have hless := (closer_iff hi).mp hcloser
      obtain ⟨s, list, hlevel, hspec⟩ := ih (by omega)
      refine ⟨s, i :: list, ?_, hspec⟩
      rw [dealLevel, dif_pos hfits, if_pos hcloser, hlevel]
      rfl
  | case2 sum hfits hcloser =>
      have hmore := mt (closer_iff hi).mpr hcloser
      refine ⟨sum + i, [i], ?_, by omega, by omega⟩
      rw [dealLevel, dif_pos hfits, if_neg hcloser]
  | case3 sum hfits =>
      unfold fits at hfits
      omega

/-! ## The list -/

/-- The part of the amount that a level is for leaves the amount of the levels below. -/
theorem part_le {amount start j : Nat} (hj : j < start)
    (hstart : start * (start + 1) ≤ 2 * amount) :
    2 * ((start - j) * amount / start) + (j + 1) * (j + 1) ≤ 2 * amount + 1 := by
  obtain ⟨n, rfl⟩ := Nat.exists_eq_add_of_lt hj
  have hn : j + n + 1 - j = n + 1 := by omega
  rw [hn]
  generalize hmed : (n + 1) * amount / (j + n + 1) = med
  have hle : med * (j + n + 1) ≤ (n + 1) * amount := hmed ▸ Nat.div_mul_le_self _ _
  have hmul : (2 * med + j * j + 2 * j) * (j + n + 1) ≤ 2 * amount * (j + n + 1) := by
    have hlevel : j * ((j + n + 1) * (j + n + 1 + 1)) ≤ j * (2 * amount) :=
      Nat.mul_le_mul_left j hstart
    nlinarith [Nat.zero_le (j * n * (j + n + 1))]
  have hle' := Nat.le_of_mul_le_mul_right hmul (Nat.succ_pos _)
  have hsquare : (j + 1) * (j + 1) = j * j + 2 * j + 1 := by ring
  omega

theorem fits_start {amount start : Nat} (hamount : fits amount)
    (hstart : start * (start + 1) ≤ 2 * amount) : fits (start + 1) := by
  unfold fits at hamount ⊢
  by_contra hnot
  have hmul : (2 ^ 31 - 1) * 2 ^ 31 ≤ start * (start + 1) :=
    Nat.mul_le_mul (by omega) (Nat.le_of_not_lt hnot)
  omega

theorem dealLevels_spec {amount start i sum : Nat} (hamount : fits amount)
    (hstart : start * (start + 1) ≤ 2 * amount) (hproduct : fits (start * amount)) (hi : i ≤ start)
    (hroom : 2 * sum + i * i + i ≤ 2 * amount) (hreached : i = 0 → amount ≤ sum) :
    ∃ list, dealLevels amount start i sum = some list ∧ sum + list.sum = amount := by
  induction i generalizing sum with
  | zero =>
      have hall := hreached rfl
      exact ⟨[], rfl, by rw [List.sum_nil]; omega⟩
  | succ i ih =>
      have hn : start + 1 - (i + 1) = start - i := by omega
      have hpart := part_le (show i < start by omega) hstart
      obtain ⟨s, list, hlevel, hroom', hpart'⟩ := dealLevel_spec (Nat.succ_pos i) hamount hpart hroom
      obtain ⟨hs, -⟩ := dealLevel_shape (Nat.succ_pos i) hlevel
      have hsquare : (i + 1) * (i + 1) = i * i + 2 * i + 1 := by ring
      rw [hsquare] at hroom'
      have hlast : i = 0 → amount ≤ s := by
        rintro rfl
        have hwhole : (start - 0) * amount / start = amount :=
          Nat.mul_div_cancel_left amount (by omega)
        rw [hwhole] at hpart'
        omega
      have hbelow : 2 * s + i * i + i ≤ 2 * amount := by omega
      obtain ⟨rest, hrest, hsum⟩ := ih (by omega) hbelow hlast
      have hfits : fits (start + 1) ∧ fits ((start - i) * amount) :=
        ⟨fits_start hamount hstart,
          Nat.lt_of_le_of_lt (Nat.mul_le_mul_right _ (Nat.sub_le _ _)) hproduct⟩
      refine ⟨list ++ rest, ?_, by rw [List.sum_append]; omega⟩
      rw [dealLevels, hn]
      rw [if_pos hfits, hlevel]
      dsimp only
      rw [hrest]
      rfl

/-- A list goes down to one from its first value, in which there is each value at least once. -/
structure Falls (i : Nat) (list : List Nat) : Prop where
  positive : ∀ x ∈ list, 0 < x
  bounded : ∀ x ∈ list, x ≤ i
  falls : list.Pairwise (· ≥ ·)
  starts : 0 < i → list.head? = some i
  sum_ge : i * (i + 1) ≤ 2 * list.sum

theorem dealLevels_falls {amount start i sum : Nat} {list : List Nat}
    (h : dealLevels amount start i sum = some list) : Falls i list := by
  induction i generalizing sum list with
  | zero =>
      cases h
      refine ⟨?_, ?_, List.Pairwise.nil, fun h => absurd h (Nat.lt_irrefl 0), ?_⟩
      · intro x hx
        cases hx
      · intro x hx
        cases hx
      · exact Nat.le_of_eq (Nat.zero_mul _)
  | succ i ih =>
      rw [dealLevels] at h
      split at h
      case isFalse => cases h
      cases hlevel : dealLevel (i + 1) (Nat.succ_pos i) ((start + 1 - (i + 1)) * amount / start) sum with
      | none =>
          rw [hlevel] at h
          cases h
      | some r =>
          obtain ⟨s, level⟩ := r
          rw [hlevel] at h
          obtain ⟨rest, hrest, rfl⟩ := Option.map_eq_some_iff.mp h
          obtain ⟨hpositive, hbounded, hfalls, -, hsum⟩ := ih hrest
          obtain ⟨-, count, rfl⟩ := dealLevel_shape (Nat.succ_pos i) hlevel
          refine ⟨?_, ?_, ?_, fun _ => rfl, ?_⟩
          · intro x hx
            rcases List.mem_append.mp hx with hx | hx
            · rw [List.eq_of_mem_replicate hx]
              exact Nat.succ_pos i
            · exact hpositive x hx
          · intro x hx
            rcases List.mem_append.mp hx with hx | hx
            · exact Nat.le_of_eq (List.eq_of_mem_replicate hx)
            · exact Nat.le_succ_of_le (hbounded x hx)
          · refine List.pairwise_append.mpr ⟨?_, hfalls, ?_⟩
            · exact List.pairwise_replicate.mpr (.inr le_rfl)
            · intro x hx y hy
              rw [List.eq_of_mem_replicate hx]
              exact Nat.le_succ_of_le (hbounded y hy)
          · rw [List.sum_append, List.sum_replicate_nat]
            nlinarith

theorem fits_of_dealLevels {amount start i sum : Nat} {list : List Nat} (hi : 0 < i)
    (h : dealLevels amount start i sum = some list) : fits (start * amount) := by
  induction i generalizing sum list with
  | zero => exact absurd hi (Nat.lt_irrefl 0)
  | succ i ih =>
      rw [dealLevels] at h
      split at h
      case isFalse => cases h
      next hfits =>
        rcases Nat.eq_zero_or_pos i with rfl | hpos
        · exact hfits.2
        · split at h
          · cases h
          · obtain ⟨rest, hrest, -⟩ := Option.map_eq_some_iff.mp h
            exact ih hpos hrest

/-- When the list of an amount goes down from the start and has the amount as its sum. -/
theorem generateDamageList_iff {amount : Int} (start : Nat) (hamount : 1 ≤ amount)
    (hlt : amount < 2 ^ 31) :
    (∃ list, generateDamageList amount start = some list ∧ list.head? = some start ∧
      (∀ x ∈ list, 0 < x) ∧ list.Pairwise (· ≥ ·) ∧ (list.sum : Int) = amount) ↔
    0 < start ∧ start * (start + 1) ≤ 2 * amount ∧ start * amount < 2 ^ 31 := by
  obtain ⟨n, rfl⟩ := Int.eq_ofNat_of_zero_le (by omega : 0 ≤ amount)
  have hcast : ((start * (start + 1) : Int) ≤ 2 * (n : Int) ↔ start * (start + 1) ≤ 2 * n) ∧
      ((start * (n : Int) : Int) < 2 ^ 31 ↔ fits (start * n)) := by
    unfold fits
    constructor
    · exact_mod_cast Iff.rfl
    · exact_mod_cast Iff.rfl
  rw [hcast.1, hcast.2]
  unfold generateDamageList
  rw [Int.natAbs_natCast]
  constructor
  · rintro ⟨list, hlist, hstarts, -, -, hsum⟩
    have hpos : 0 < start := by
      rcases Nat.eq_zero_or_pos start with rfl | hpos
      · cases hlist
        cases hstarts
      · exact hpos
    have hfalls := dealLevels_falls hlist
    have hle := hfalls.sum_ge
    exact ⟨hpos, by omega, fits_of_dealLevels hpos hlist⟩
  · rintro ⟨hpos, hstart, hproduct⟩
    have hn : fits n := by
      unfold fits
      omega
    have hroom : 2 * 0 + start * start + start ≤ 2 * n := by nlinarith
    obtain ⟨list, hlist, hsum⟩ := dealLevels_spec hn hstart hproduct le_rfl hroom (by omega)
    obtain ⟨hpositive, -, hfalls, hstarts, -⟩ := dealLevels_falls hlist
    exact ⟨list, hlist, hstarts hpos, hpositive, hfalls, by omega⟩

/-! ## The damage of a condition -/

theorem push_derived {now : Int64} {info : IntervalInfo} {c : Condition} {d : ConditionDamage}
    (h : c.derived = .damage d) :
    (push now info c).derived = .damage { d with damageList := d.damageList ++ [info] } := by
  unfold push
  rw [h]
  dsimp only
  unfold Condition.pushDamage
  dsimp only
  split <;> rfl

/-- Values added one by one are the values of the list. -/
theorem addDamage_all (now : Int64) (time : Int32) {list : List Nat} {c : Condition}
    {d : ConditionDamage} (h : c.derived = .damage d) (hperiod : d.periodDamage = 0)
    (hlist : ∀ x ∈ list, x < 2 ^ 31) :
    ∃ infos, (list.foldl (fun c (value : Nat) =>
        (addDamage now 1 time (Int32.ofInt (-value)) c).2) c).derived =
          .damage { d with damageList := d.damageList ++ infos } ∧
      infos.map (fun (info : IntervalInfo) => info.value.toInt) =
        list.map fun (x : Nat) => -(x : Int) := by
  induction list generalizing c d with
  | nil =>
      refine ⟨[], ?_, rfl⟩
      rw [List.append_nil]
      exact h
  | cons x list ih =>
      have hx := hlist x List.mem_cons_self
      have hvalue : (Int32.ofInt (-x)).toInt = -(x : Int) :=
        Int32.toInt_ofInt_of_le (by omega) (by omega)
      have hadd : (addDamage now 1 time (Int32.ofInt (-x)) c).2 =
          push now ⟨max time EVENT_CREATURE_THINK_INTERVAL, Int32.ofInt (-x),
            max time EVENT_CREATURE_THINK_INTERVAL⟩ c := by
        unfold addDamage
        rw [h]
        dsimp only
        rw [if_neg (by decide), hperiod, if_neg (by decide)]
        rfl
      rw [List.foldl_cons, hadd]
      obtain ⟨infos, hderived, hinfos⟩ := ih (push_derived h) hperiod
        fun y hy => hlist y (List.mem_cons_of_mem _ hy)
      refine ⟨⟨max time EVENT_CREATURE_THINK_INTERVAL, Int32.ofInt (-x),
        max time EVENT_CREATURE_THINK_INTERVAL⟩ :: infos, ?_, ?_⟩
      · rw [hderived, List.append_assoc]
        rfl
      · rw [List.map_cons, List.map_cons, hinfos, hvalue]

/-- `init` gives a condition the amount as its damage where the list has it as its sum. -/
theorem init_deals (now : Int64) (c : Condition) {d : ConditionDamage} {amount : Int32}
    {list : List Nat} (hperiod : d.periodDamage = 0) (hempty : d.damageList = [])
    (hamount : 1 ≤ amount.toInt)
    (hlist : generateDamageList amount.toInt (startOf d amount).toInt.toNat = some list)
    (hsum : (list.sum : Int) = amount.toInt) :
    ∃ c' d', init now c d amount = some (true, c') ∧ c'.derived = .damage d' ∧
      getTotalDamage d' = amount.toInt := by
  have hsmall : ∀ x ∈ list, x < 2 ^ 31 := by
    intro x hx
    have hle := List.le_sum_of_mem hx
    have hlt := amount.toInt_lt
    omega
  have hne : amount ≠ 0 := by
    rintro rfl
    exact absurd hamount (by decide)
  have hlist_ne : list ≠ [] := by
    rintro rfl
    rw [List.sum_nil] at hsum
    omega
  obtain ⟨infos, hderived, hinfos⟩ := addDamage_all now d.tickInterval (c := { c.setTicks now 0 with
    derived := .damage { d with startDamage := startOf d amount } }) rfl hperiod hsmall
  have hinfos_ne : infos ≠ [] := by
    rintro rfl
    exact hlist_ne (List.map_eq_nil_iff.mp hinfos.symm)
  have htotal : (list.map fun (x : Nat) => -(x : Int)).sum = -(list.sum : Int) := by
    clear hlist hsum hsmall hlist_ne hinfos hderived
    induction list with
    | nil => rfl
    | cons x list ih =>
        rw [List.map_cons, List.sum_cons, List.sum_cons, ih]
        omega
  have happend : d.damageList ++ infos = infos := by rw [hempty, List.nil_append]
  refine ⟨_, _, ?_, hderived, ?_⟩
  · have hnotEmpty : (!list.isEmpty) = true := by
      cases list with
      | nil => exact absurd rfl hlist_ne
      | cons => rfl
    have hnoPeriod : ¬ d.periodDamage ≠ 0 := fun h => h hperiod
    have hnoList : ¬ d.damageList ≠ [] := fun h => h hempty
    unfold init
    rw [if_neg hnoPeriod, if_neg hnoList]
    dsimp only
    rw [if_neg hne, hlist]
    dsimp only
    rw [hnotEmpty]
  · unfold getTotalDamage
    dsimp only
    rw [happend, if_pos hinfos_ne, hinfos, htotal]
    omega

/-- When the list of a condition goes down from the start and its sum is the amount, which is then
the damage of the condition: when the values from the start to one, once each, are not more than
it. -/
theorem damage_list_deals (now : Int64) (c : Condition) (d : ConditionDamage) (amount : Int32)
    (hperiod : d.periodDamage = 0) (hempty : d.damageList = []) (hamount : 1 ≤ amount.toInt) :
    (∃ list c' d', generateDamageList amount.toInt (startOf d amount).toInt.toNat = some list ∧
      list.head? = some (startOf d amount).toInt.toNat ∧ (∀ x ∈ list, 0 < x) ∧
      list.Pairwise (· ≥ ·) ∧ (list.sum : Int) = amount.toInt ∧
      init now c d amount = some (true, c') ∧ c'.derived = .damage d' ∧
      getTotalDamage d' = amount.toInt) ↔
    0 < (startOf d amount).toInt ∧
      (startOf d amount).toInt * ((startOf d amount).toInt + 1) ≤ 2 * amount.toInt ∧
      (startOf d amount).toInt * amount.toInt < 2 ^ 31 := by
  have hiff := generateDamageList_iff (startOf d amount).toInt.toNat hamount amount.toInt_lt
  constructor
  · rintro ⟨list, c', d', hlist, hstarts, hpositive, hfalls, hsum, -⟩
    obtain ⟨hpos, hrest⟩ := hiff.mp ⟨list, hlist, hstarts, hpositive, hfalls, hsum⟩
    rw [Int.toNat_of_nonneg (by omega)] at hrest
    exact ⟨by omega, hrest⟩
  · rintro ⟨hpos, hrest⟩
    obtain ⟨list, hlist, hstarts, hpositive, hfalls, hsum⟩ := hiff.mpr
      ⟨by omega, by rwa [Int.toNat_of_nonneg (by omega)]⟩
    obtain ⟨c', d', hinit, hderived, htotal⟩ := init_deals now c hperiod hempty hamount hlist
      hsum
    exact ⟨list, c', d', hlist, hstarts, hpositive, hfalls, hsum, hinit, hderived, htotal⟩

/-- A poison of 100 that starts with 5. -/
def poison : ConditionDamage := { minDamage := 100, maxDamage := 100 }

theorem damage_list_deals_poison :
    ∃ list c' d', generateDamageList 100 5 = some list ∧ list.head? = some 5 ∧ (∀ x ∈ list, 0 < x) ∧
      list.Pairwise (· ≥ ·) ∧ (list.sum : Int) = 100 ∧
      init 0 ⟨0, 0, 0, 1, false, true, false, 0, .damage poison⟩ poison 100 = some (true, c') ∧
      c'.derived = .damage d' ∧ getTotalDamage d' = 100 := by
  have hamount : (100 : Int32).toInt = 100 := by decide
  have hstart : (startOf poison 100).toInt = 5 := by decide
  have hdeals := damage_list_deals 0 ⟨0, 0, 0, 1, false, true, false, 0, .damage poison⟩
    poison 100 rfl rfl (by decide)
  rw [hstart, hamount] at hdeals
  exact hdeals.mpr ⟨by decide, by decide, by decide⟩

/-- An amount of 761 starts with 39, and one of each value down from there is 780. -/
theorem damage_list_deals_more :
    startOf { minDamage := 761, maxDamage := 761 } 761 = 39 ∧
      ¬ ∃ list, generateDamageList 761 39 = some list ∧ (list.sum : Int) = 761 := by
  refine ⟨by decide, ?_⟩
  rintro ⟨list, hlist, hsum⟩
  have hge := (dealLevels_falls hlist).sum_ge
  omega

end Bruxo.DamageList
