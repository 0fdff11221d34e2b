import Bruxo.ConditionEffects

/-!
# Residue of conditions

Skills, special skills, stats and speed of a player always differ from those without conditions
by the sum of what the active conditions have stored. The rates of experience and the defence do
so only where the step happens to assign the right value: a rate is set to that of the condition,
or to its negation, and the defence to what the condition says, whatever the other conditions
say.
-/

namespace Bruxo.Conditions

/-! ## Sums -/

def total {α : Type*} (f : α → Int32) : List α → Int32
  | [] => 0
  | a :: as => f a + total f as

theorem total_append {α : Type*} (f : α → Int32) (as bs : List α) :
    total f (as ++ bs) = total f as + total f bs := by
  induction as with
  | nil => exact (Int32.zero_add _).symm
  | cons a as ih => rw [List.cons_append, total, total, ih, Int32.add_assoc]

theorem total_middle {α : Type*} (f : α → Int32) (a : α) (as bs : List α) :
    total f (as ++ a :: bs) = f a + total f (as ++ bs) := by
  rw [total_append, total_append, total]
  grind

/-- A list around one of its entries, with the lists that replace it and leave it out. -/
theorem exists_around {α : Type*} {l : List α} {k : Nat} {a : α} (h : l[k]? = some a) :
    ∃ as bs, l = as ++ a :: bs ∧ l.eraseIdx k = as ++ bs ∧ ∀ b, l.set k b = as ++ b :: bs := by
  obtain ⟨hk, rfl⟩ := List.getElem?_eq_some_iff.mp h
  refine ⟨l.take k, l.drop (k + 1), ?_, List.eraseIdx_eq_take_drop_succ .., fun b => ?_⟩
  · rw [List.getElem_cons_drop, List.take_append_drop]
  · rw [List.set_eq_take_append_cons_drop, if_pos hk]

/-! ## What is to balance -/

/-- The fields that are changed by addition. -/
inductive Field where
  | skill (i : Fin 7)
  | specialSkill (i : Fin 6)
  | stat (i : Fin 4)
  | speed
  deriving DecidableEq

def Effects.value (f : Field) (e : Effects) : Int32 :=
  match f with
  | .skill i => e.varSkills.get i
  | .specialSkill i => e.varSpecialSkills.get i
  | .stat i => e.varStats.get i
  | .speed => e.varSpeed

namespace Condition

variable (c : Condition)

/-- The modifier that a condition has stored. -/
def modifier (f : Field) : Int32 :=
  match c.derived, f with
  | .attributes d, .skill i => d.skills.get i
  | .attributes d, .specialSkill i => d.specialSkills.get i
  | .attributes d, .stat i => d.stats.get i
  | .speed d, .speed => d.speedDelta
  | _, _ => 0

def rate (i : Fin 5) : Int32 :=
  match c.derived with
  | .attributes d => d.experienceRate.get i
  | _ => 0

def disablesDefense : Bool :=
  match c.derived with
  | .attributes d => d.disableDefense
  | _ => false

end Condition

def Effects.rate (e : Effects) (i : Fin 5) : Int32 := e.experienceRate.get i

/-- The rates and the defence of a player with these conditions. -/
structure Assigned (base e : Effects) (cs : List Condition) : Prop where
  rates : ∀ i : Fin 5, i.val ≠ 0 → e.rate i = base.rate i + total (·.rate i) cs
  defense : e.canUseDefense = !cs.any (·.disablesDefense)

structure Balanced (base : Effects) (p : Player) : Prop
    extends Assigned base p.effects p.conditions where
  sums : ∀ f, p.effects.value f = base.value f + total (·.modifier f) p.conditions

/-! ## The fields that are added -/

theorem get_ofFn {α : Type*} {n : Nat} (f : Fin n → α) (i : Fin n) :
    (Vector.ofFn f).get i = f i :=
  Vector.getElem_ofFn i.isLt

theorem get_zipWith {n : Nat} (f : Int32 → Int32 → Int32) (v w : Vector Int32 n) (i : Fin n) :
    (Vector.zipWith f v w).get i = f (v.get i) (w.get i) :=
  Vector.getElem_zipWith i.isLt

theorem get_addEach {n : Nat} (var mods : Vector Int32 n) (i : Fin n) :
    (addEach var mods).get i = var.get i + mods.get i := by
  rw [addEach, get_zipWith]
  grind

theorem get_subEach {n : Nat} (var mods : Vector Int32 n) (i : Fin n) :
    (subEach var mods).get i = var.get i - mods.get i := by
  rw [subEach, get_zipWith]
  grind

theorem varSpeed_changeSpeed (e : Effects) (baseSpeed delta : Int32) :
    (e.changeSpeed baseSpeed delta).varSpeed = e.varSpeed + delta := by
  simp only [Effects.changeSpeed]
  grind

variable (r : Reading) (e : Effects)

/-- The part of the modifiers that is in the arrays. -/
def ConditionAttributes.modifier (d : ConditionAttributes) : Field → Int32
  | .skill i => d.skills.get i
  | .specialSkill i => d.specialSkills.get i
  | .stat i => d.stats.get i
  | .speed => 0

theorem ConditionAttributes.value_update (d : ConditionAttributes) (f : Field) :
    (d.update r e).1.value f = e.value f + (d.update r e).2.modifier f := by
  cases f with
  | skill i => exact get_addEach _ _ i
  | specialSkill i => exact get_addEach _ _ i
  | stat i => exact get_addEach _ _ i
  | speed => exact (Int32.add_zero _).symm

theorem ConditionAttributes.value_startCondition (d : ConditionAttributes) (f : Field) :
    (d.startCondition r e).1.value f = e.value f + (d.startCondition r e).2.modifier f := by
  have h := ConditionAttributes.value_update r { e with canUseDefense := !d.disableDefense } d f
  cases f <;> exact h

theorem ConditionAttributes.value_endCondition (d : ConditionAttributes) (f : Field) :
    (d.endCondition e).value f = e.value f - d.modifier f := by
  cases f with
  | skill i =>
      simp only [Effects.value, ConditionAttributes.endCondition, ConditionAttributes.modifier,
        get_ofFn]
      grind
  | specialSkill i => exact get_subEach _ _ i
  | stat i => exact get_subEach _ _ i
  | speed => exact (Int32.sub_zero _).symm

theorem ConditionAttributes.value_addCondition (d d' : ConditionAttributes) (f : Field) :
    (d.addCondition r e d').1.value f =
      e.value f - d.modifier f + (d.addCondition r e d').2.modifier f := by
  rw [← ConditionAttributes.value_endCondition]
  exact ConditionAttributes.value_update r _ _ f

namespace Condition

variable (c condition : Condition)

theorem derived_startBase : (c.startBase r).derived = c.derived := by
  unfold startBase
  split <;> rfl

theorem value_startCondition (f : Field) :
    (c.startCondition r e).1.value f = e.value f + (c.startCondition r e).2.modifier f := by
  unfold startCondition
  dsimp only
  rw [derived_startBase]
  cases hderived : c.derived with
  | attributes d =>
      have h := d.value_startCondition r e f
      cases f <;> exact h
  | speed d =>
      cases f with
      | speed => exact varSpeed_changeSpeed ..
      | _ => exact (Int32.add_zero _).symm
  | _ =>
      have hzero : (c.startBase r).modifier f = 0 := by
        simp only [modifier, derived_startBase, hderived]
      rw [hzero, Int32.add_zero]

theorem value_endCondition (f : Field) :
    (c.endCondition r e).value f = e.value f - c.modifier f := by
  unfold endCondition modifier
  cases c.derived with
  | attributes d =>
      have h := d.value_endCondition e f
      cases f <;> exact h
  | speed d =>
      cases f with
      | speed => exact (varSpeed_changeSpeed ..).trans (Int32.sub_eq_add_neg ..).symm
      | _ => exact (Int32.sub_zero _).symm
  | _ => exact (Int32.sub_zero _).symm

theorem value_addCondition (f : Field) :
    (c.addCondition r e condition).1.value f =
      e.value f - c.modifier f + (c.addCondition r e condition).2.modifier f := by
  have same : e.value f = e.value f - c.modifier f + c.modifier f := by grind
  unfold addCondition
  cases hderived : c.derived with
  | attributes d =>
      cases condition.derived with
      | attributes d' =>
          dsimp only
          split
          · have h := d.value_addCondition r e d' f
            simp only [modifier, hderived]
            cases f <;> exact h
          · exact same
      | _ => exact same
  | speed d =>
      cases condition.derived with
      | speed d' =>
          dsimp only
          split
          · exact same
          · split
            · exact same
            · simp only [modifier, hderived]
              cases f with
              | speed =>
                  simp only [Effects.value, ConditionSpeed.addCondition]
                  split
                  · rw [varSpeed_changeSpeed]
                    grind
                  · grind
              | _ =>
                  simp only [ConditionSpeed.addCondition]
                  split <;> simp only [Effects.value, Effects.changeSpeed] <;> grind
      | _ => exact same
  | _ => exact same

end Condition

/-! ## The fields that are assigned -/

theorem rate_setRates (var rates : Vector Int32 5) (f : Int32 → Int32) (i : Fin 5)
    (hi : i.val ≠ 0) :
    (setRates var rates f).get i = if rates.get i = 1 then var.get i else f (rates.get i) := by
  rw [setRates, get_ofFn]
  by_cases h : rates.get i = 1
  · rw [if_neg (fun hand => hand.2 h), if_pos h]
  · rw [if_pos ⟨hi, h⟩, if_neg h]

/-- The player has no rate at all, and no rate of the condition is the one that is left out. -/
def ConditionAttributes.Neutral (e : Effects) (d : ConditionAttributes) : Prop :=
  ∀ i : Fin 5, i.val ≠ 0 → d.experienceRate.get i ≠ 1 ∧ e.rate i = 0

namespace Condition

/-- To start the condition among the others gives the right values. -/
def StartsRight (e : Effects) (others : List Condition) (c : Condition) : Prop :=
  match c.derived with
  | .attributes d =>
      d.Neutral e ∧ (d.disableDefense = false → others.any (·.disablesDefense) = false)
  | _ => True

def EndsRight (e : Effects) (others : List Condition) (c : Condition) : Prop :=
  match c.derived with
  | .attributes d =>
      d.Neutral e ∧ (d.disableDefense = true → others.any (·.disablesDefense) = false)
  | _ => True

/-- To merge the new condition into this one gives the right values. -/
def MergesRight (now : Int64) (e : Effects) (others : List Condition) (c condition : Condition) :
    Prop :=
  match c.derived, condition.derived with
  | .attributes d, .attributes d' =>
      updateCondition now c condition = true →
        (∀ i : Fin 5, i.val ≠ 0 →
          if d.experienceRate.get i = 1 then d'.experienceRate.get i = 1
          else e.rate i = -d'.experienceRate.get i) ∧
        (if d.disableDefense then others.any (·.disablesDefense) = false ∧ d'.disableDefense = false
          else d'.disableDefense = true → others.any (·.disablesDefense) = true)
  | _, _ => True

end Condition

/-- The values after a step that changes the sum of the rates. -/
theorem assigned_iff {base e e' : Effects} {cs cs' : List Condition} (h : Assigned base e cs)
    (delta : Fin 5 → Int32) (hdelta : ∀ i, total (·.rate i) cs' = total (·.rate i) cs + delta i) :
    Assigned base e' cs' ↔
      (∀ i : Fin 5, i.val ≠ 0 → e'.rate i = e.rate i + delta i) ∧
        e'.canUseDefense = !cs'.any (·.disablesDefense) := by
  have hrates : ∀ i : Fin 5, i.val ≠ 0 →
      base.rate i + total (·.rate i) cs' = e.rate i + delta i := by
    intro i hi
    rw [hdelta, h.rates i hi]
    exact (Int32.add_assoc ..).symm
  constructor
  · rintro ⟨hrate, hdefense⟩
    exact ⟨fun i hi => (hrate i hi).trans (hrates i hi), hdefense⟩
  · rintro ⟨hrate, hdefense⟩
    exact ⟨fun i hi => (hrate i hi).trans (hrates i hi).symm, hdefense⟩

section

variable {base e : Effects} {cs as bs : List Condition}

/-- A rate that is set instead of added to. -/
theorem set_eq_add {rate v : Int32} :
    (if v = 1 then rate else v) = rate + v ↔ v ≠ 1 ∧ rate = 0 := by
  have hone : (1 : Int32) ≠ 0 := by decide
  by_cases h : v = 1
  · rw [if_pos h]
    grind
  · rw [if_neg h]
    grind

/-- And one that is set to the negation. -/
theorem set_eq_sub {rate v : Int32} :
    (if v = 1 then rate else -v) = rate + -v ↔ v ≠ 1 ∧ rate = 0 := by
  have hone : (1 : Int32) ≠ 0 := by decide
  by_cases h : v = 1
  · rw [if_pos h]
    grind
  · rw [if_neg h]
    grind

theorem set_eq_merge {rate v v' : Int32} :
    (if v = 1 then rate else -v) = rate + (v' - v) ↔ if v = 1 then v' = 1 else rate = -v' := by
  by_cases h : v = 1
  · rw [if_pos h, if_pos h]
    grind
  · rw [if_neg h, if_neg h]
    grind

theorem any_middle (f : Condition → Bool) (c : Condition) :
    (as ++ c :: bs).any f = (f c || (as ++ bs).any f) := by
  rw [List.any_append, List.any_cons, List.any_append, Bool.or_left_comm]

/-- A condition of another class: it assigns nothing. -/
def Condition.Plain (c : Condition) : Prop := ∀ d, c.derived ≠ .attributes d

theorem Condition.Plain.rate {c : Condition} (h : c.Plain) (i : Fin 5) : c.rate i = 0 := by
  unfold Condition.rate
  cases hderived : c.derived with
  | attributes d => exact absurd hderived (h d)
  | _ => rfl

theorem Condition.Plain.disablesDefense {c : Condition} (h : c.Plain) :
    c.disablesDefense = false := by
  unfold Condition.disablesDefense
  cases hderived : c.derived with
  | attributes d => exact absurd hderived (h d)
  | _ => rfl

theorem Condition.attributes_or_plain (c : Condition) :
    (∃ d, c.derived = .attributes d) ∨ c.Plain := by
  cases hderived : c.derived with
  | attributes d => exact .inl ⟨d, rfl⟩
  | _ => exact .inr fun d hd => by rw [hderived] at hd; cases hd

theorem Condition.Plain.startCondition {c : Condition} (h : c.Plain) :
    (c.startCondition r e).2.Plain ∧
      (c.startCondition r e).1.experienceRate = e.experienceRate ∧
      (c.startCondition r e).1.canUseDefense = e.canUseDefense := by
  have hplain : (c.startBase r).Plain := fun d hd => h d ((c.derived_startBase r).symm.trans hd)
  unfold Condition.startCondition
  dsimp only
  rw [c.derived_startBase r]
  cases hderived : c.derived with
  | attributes d => exact absurd hderived (h d)
  | speed d => exact ⟨fun _ hd => (by cases hd), rfl, rfl⟩
  | _ => exact ⟨hplain, rfl, rfl⟩

theorem Condition.Plain.endCondition {c : Condition} (h : c.Plain) :
    (c.endCondition r e).experienceRate = e.experienceRate ∧
      (c.endCondition r e).canUseDefense = e.canUseDefense := by
  unfold Condition.endCondition
  cases hderived : c.derived with
  | attributes d => exact absurd hderived (h d)
  | _ => exact ⟨rfl, rfl⟩

/-- A step that assigns nothing, and leaves the sums of what is assigned. -/
theorem Assigned.plain {e' : Effects} {cs' : List Condition} (h : Assigned base e cs)
    (hrate : e'.experienceRate = e.experienceRate) (hdefense : e'.canUseDefense = e.canUseDefense)
    (htotal : ∀ i, total (·.rate i) cs' = total (·.rate i) cs)
    (hany : cs'.any (·.disablesDefense) = cs.any (·.disablesDefense)) :
    Assigned base e' cs' where
  rates i hi := by
    have := h.rates i hi
    rw [Effects.rate] at this
    rw [Effects.rate, hrate, this, htotal]
  defense := by rw [hdefense, h.defense, hany]

theorem assigned_startCondition (h : Assigned base e cs) (c : Condition) :
    Assigned base (c.startCondition r e).1 (cs ++ [(c.startCondition r e).2]) ↔
      c.StartsRight e cs := by
  rcases c.attributes_or_plain with ⟨d, hderived⟩ | hplain
  · have hstart : c.startCondition r e =
        ((d.startCondition r e).1,
          { c.startBase r with derived := .attributes (d.startCondition r e).2 }) := by
      unfold Condition.startCondition
      dsimp only
      rw [c.derived_startBase r, hderived]
    have hrate (i : Fin 5) (hi : i.val ≠ 0) : (d.startCondition r e).1.rate i =
        if d.experienceRate.get i = 1 then e.rate i else d.experienceRate.get i :=
      rate_setRates _ _ id i hi
    rw [assigned_iff h (d.experienceRate.get ·) fun i => ?_, hstart]
    · unfold Condition.StartsRight
      rw [hderived, List.any_append]
      refine and_congr (forall₂_congr fun i hi => ?_) ?_
      · rw [hrate i hi, set_eq_add]
      · show (!d.disableDefense) = !(_ || (d.disableDefense || false)) ↔ _
        cases d.disableDefense <;> simp
    · rw [total_append, hstart]
      exact congrArg _ (Int32.add_zero _)
  · obtain ⟨hplain', hrate, hdefense⟩ := hplain.startCondition r
    refine iff_of_true (h.plain hrate hdefense (fun i => ?_) ?_) ?_
    · rw [total_append, total, hplain'.rate, total, Int32.add_zero, Int32.add_zero]
    · rw [List.any_append, List.any_cons, hplain'.disablesDefense, List.any_nil, Bool.or_false,
        Bool.or_false]
    · unfold Condition.StartsRight
      split
      · next d hderived => exact absurd hderived (hplain d)
      · trivial

theorem assigned_endCondition {c : Condition} (h : Assigned base e (as ++ c :: bs)) :
    Assigned base (c.endCondition r e) (as ++ bs) ↔ c.EndsRight e (as ++ bs) := by
  rcases c.attributes_or_plain with ⟨d, hderived⟩ | hplain
  · have hend : c.endCondition r e = d.endCondition e := by
      unfold Condition.endCondition
      rw [hderived]
    have hrate (i : Fin 5) (hi : i.val ≠ 0) : (d.endCondition e).rate i =
        if d.experienceRate.get i = 1 then e.rate i else -d.experienceRate.get i :=
      rate_setRates _ _ (fun v => -v) i hi
    have hdisables : c.disablesDefense = d.disableDefense := by
      unfold Condition.disablesDefense
      rw [hderived]
    have hdefense := h.defense
    rw [any_middle, hdisables] at hdefense
    rw [assigned_iff h (-d.experienceRate.get ·) fun i => ?_, hend]
    · unfold Condition.EndsRight
      rw [hderived]
      refine and_congr (forall₂_congr fun i hi => ?_) ?_
      · rw [hrate i hi, set_eq_sub]
      · show (if d.disableDefense = true then true else e.canUseDefense) = _ ↔ _
        rw [hdefense]
        cases d.disableDefense <;> simp
    · have hrate : c.rate i = d.experienceRate.get i := by
        unfold Condition.rate
        rw [hderived]
      rw [total_middle, hrate]
      grind
  · obtain ⟨hrate, hdefense⟩ := hplain.endCondition r
    refine iff_of_true (h.plain hrate hdefense (fun i => ?_) ?_) ?_
    · rw [total_middle, hplain.rate, Int32.zero_add]
    · rw [any_middle, hplain.disablesDefense, Bool.false_or]
    · unfold Condition.EndsRight
      split
      · next d hderived => exact absurd hderived (hplain d)
      · trivial

/-- The new condition takes the place of the values of this one. -/
def Condition.Updates (now : Int64) (c condition : Condition) : Prop :=
  ∃ d d', c.derived = .attributes d ∧ condition.derived = .attributes d' ∧
    Condition.updateCondition now c condition = true

theorem addCondition_plain {c condition : Condition}
    (hplain : ¬Condition.Updates r.now c condition) :
    (c.addCondition r e condition).1.experienceRate = e.experienceRate ∧
      (c.addCondition r e condition).1.canUseDefense = e.canUseDefense ∧
      (∀ i, (c.addCondition r e condition).2.rate i = c.rate i) ∧
      (c.addCondition r e condition).2.disablesDefense = c.disablesDefense := by
  unfold Condition.addCondition
  split
  · next d d' hd hd' =>
      rw [if_neg fun hupdate => hplain ⟨d, d', hd, hd', hupdate⟩]
      exact ⟨rfl, rfl, fun _ => rfl, rfl⟩
  · next d d' hd hd' =>
      split
      · exact ⟨rfl, rfl, fun _ => rfl, rfl⟩
      · split
        · exact ⟨rfl, rfl, fun _ => rfl, rfl⟩
        · simp only [ConditionSpeed.addCondition, Condition.rate, Condition.disablesDefense, hd,
            Effects.changeSpeed]
          split <;> exact ⟨rfl, rfl, fun _ => trivial, trivial⟩
  · exact ⟨rfl, rfl, fun _ => rfl, rfl⟩

theorem assigned_addCondition {c : Condition} (h : Assigned base e (as ++ c :: bs))
    (condition : Condition) :
    Assigned base (c.addCondition r e condition).1
        (as ++ (c.addCondition r e condition).2 :: bs) ↔
      c.MergesRight r.now e (as ++ bs) condition := by
  by_cases hupdates : Condition.Updates r.now c condition
  · obtain ⟨d, d', hd, hd', hupdate⟩ := hupdates
    have hadd : c.addCondition r e condition = ((d.addCondition r e d').1,
        { c.setTicks r.now condition.ticks with
          derived := .attributes (d.addCondition r e d').2 }) := by
      unfold Condition.addCondition
      rw [hd, hd']
      exact if_pos hupdate
    have hrate (i : Fin 5) (hi : i.val ≠ 0) : (d.addCondition r e d').1.rate i =
        if d.experienceRate.get i = 1 then e.rate i else -d.experienceRate.get i :=
      rate_setRates _ _ (fun v => -v) i hi
    have hold (i : Fin 5) : c.rate i = d.experienceRate.get i := by
      unfold Condition.rate
      rw [hd]
    have hdisables : c.disablesDefense = d.disableDefense := by
      unfold Condition.disablesDefense
      rw [hd]
    have hdefense := h.defense
    rw [any_middle, hdisables] at hdefense
    rw [hadd, assigned_iff h
      (fun i => d'.experienceRate.get i - d.experienceRate.get i) fun i => ?_]
    · unfold Condition.MergesRight
      rw [hd, hd', any_middle]
      refine Iff.trans (and_congr (forall₂_congr fun i hi => ?_) ?_) ⟨fun h _ => h, fun h => h hupdate⟩
      · rw [hrate i hi, set_eq_merge]
      · show (if d.disableDefense = true then true else e.canUseDefense) =
          !(d'.disableDefense || _) ↔ _
        rw [hdefense]
        generalize (as ++ bs).any (·.disablesDefense) = others
        cases d.disableDefense <;> cases d'.disableDefense <;> cases others <;> simp
    · rw [total_middle, total_middle, hold]
      show d'.experienceRate.get i + _ = _
      grind
  · obtain ⟨hrate, hdefense, hsame, hdisables⟩ := addCondition_plain r (e := e) hupdates
    refine iff_of_true (h.plain hrate hdefense (fun i => ?_) ?_) ?_
    · rw [total_middle, total_middle, hsame]
    · rw [any_middle, any_middle, hdisables]
    · unfold Condition.MergesRight
      split
      · next d d' hd hd' => exact fun hupdate => absurd ⟨d, d', hd, hd', hupdate⟩ hupdates
      · trivial

end

/-! ## Steps of a player -/

namespace Player

variable (p : Player)

/-- The active condition that a new one is merged into, with its place. -/
def merged (c : Condition) : Option (Nat × Condition) :=
  (p.getCondition c).bind fun k => p.conditions[k]?.map (k, ·)

/-- What a step assigns is right, by the conditions and the values before it. -/
def StepRight (p : Player) : Event → Prop
  | .add c _ force r =>
      p.isDelayed c force r = false →
        match p.merged c with
        | some (k, prevCond) =>
            prevCond.MergesRight r.now p.effects (p.conditions.eraseIdx k) c
        | none => c.StartsRight p.effects p.conditions
  | .execute k interval r =>
      ∀ c ∈ p.conditions[k]?, (c.executeCondition r interval).1 = false →
        c.EndsRight p.effects (p.conditions.eraseIdx k)
  | .remove k _ => ∀ c ∈ p.conditions[k]?, c.EndsRight p.effects (p.conditions.eraseIdx k)

/-- The fields that are added are right. -/
def Sums (base : Effects) (p : Player) : Prop :=
  ∀ f, p.effects.value f = base.value f + total (·.modifier f) p.conditions

variable {p} {base : Effects}

theorem merged_eq_some {c prevCond : Condition} {k : Nat} (h : p.merged c = some (k, prevCond)) :
    p.conditions[k]? = some prevCond := by
  obtain ⟨k', _, hmap⟩ := Option.bind_eq_some_iff.mp h
  obtain ⟨c', hc', heq⟩ := Option.map_eq_some_iff.mp hmap
  cases heq
  exact hc'

theorem addCondition_cases (p : Player) (c : Condition) (force : Bool) (r : Reading) :
    (p.isDelayed c force r = true ∧ p.addCondition c force r = p) ∨
    (p.isDelayed c force r = false ∧ ∃ k prevCond, p.merged c = some (k, prevCond) ∧
      p.addCondition c force r =
        ⟨(prevCond.addCondition r p.effects c).1,
          p.conditions.set k (prevCond.addCondition r p.effects c).2⟩) ∨
    (p.isDelayed c force r = false ∧ p.merged c = none ∧
      p.addCondition c force r =
        ⟨(c.startCondition r p.effects).1,
          p.conditions ++ [(c.startCondition r p.effects).2]⟩) := by
  unfold addCondition
  cases hdelayed : p.isDelayed c force r with
  | true => exact .inl ⟨rfl, rfl⟩
  | false =>
      right
      cases hmerged : p.merged c with
      | some found =>
          refine .inl ⟨rfl, found.1, found.2, rfl, ?_⟩
          rw [merged] at hmerged
          rw [hmerged]
          rfl
      | none =>
          refine .inr ⟨rfl, rfl, ?_⟩
          rw [merged] at hmerged
          rw [hmerged]
          rfl

theorem derived_executeCondition (c : Condition) (r : Reading) (interval : Int32) :
    (c.executeCondition r interval).2.derived = c.derived := by
  unfold Condition.executeCondition
  split <;> rfl

/-- The ways through a step. -/
theorem step_cases (p : Player) (event : Event) :
    (p.step event = p ∧ p.StepRight event) ∨
    (∃ (r : Reading) (c condition : Condition) (as bs : List Condition),
      p.conditions = as ++ c :: bs ∧
      p.step event =
        ⟨(c.addCondition r p.effects condition).1,
          as ++ (c.addCondition r p.effects condition).2 :: bs⟩ ∧
      (p.StepRight event ↔ c.MergesRight r.now p.effects (as ++ bs) condition)) ∨
    (∃ (r : Reading) (c : Condition),
      p.step event = ⟨(c.startCondition r p.effects).1,
        p.conditions ++ [(c.startCondition r p.effects).2]⟩ ∧
      (p.StepRight event ↔ c.StartsRight p.effects p.conditions)) ∨
    (∃ (c c' : Condition) (as bs : List Condition),
      p.conditions = as ++ c :: bs ∧ c'.derived = c.derived ∧
      p.step event = ⟨p.effects, as ++ c' :: bs⟩ ∧ p.StepRight event) ∨
    (∃ (r : Reading) (c c' : Condition) (as bs : List Condition),
      p.conditions = as ++ c :: bs ∧ c'.derived = c.derived ∧
      p.step event = ⟨c'.endCondition r p.effects, as ++ bs⟩ ∧
      (p.StepRight event ↔ c.EndsRight p.effects (as ++ bs))) := by
  cases event with
  | add c modifies force r =>
      rcases p.addCondition_cases c force r with
        ⟨hdelayed, heq⟩ | ⟨hdelayed, k, prevCond, hmerged, heq⟩ | ⟨hdelayed, hmerged, heq⟩
      · exact .inl ⟨heq, fun h => absurd (hdelayed.symm.trans h) (by decide)⟩
      · obtain ⟨as, bs, hconditions, herase, hset⟩ := exists_around (merged_eq_some hmerged)
        refine .inr (.inl ⟨r, prevCond, c, as, bs, hconditions, ?_, ?_⟩)
        · rw [← hset]
          exact heq
        · simp only [StepRight, hdelayed, hmerged, herase, true_imp_iff]
      · refine .inr (.inr (.inl ⟨r, c, heq, ?_⟩))
        simp only [StepRight, hdelayed, hmerged, true_imp_iff]
  | execute k interval r =>
      cases hk : p.conditions[k]? with
      | none =>
          refine .inl ⟨?_, fun c hc => ?_⟩
          · simp only [step, executeCondition, hk]
          · rw [hk] at hc
            cases hc
      | some c =>
          obtain ⟨as, bs, hconditions, herase, hset⟩ := exists_around hk
          have hderived := derived_executeCondition c r interval
          right; right; right
          cases hgoes : (c.executeCondition r interval).1 with
          | true =>
              refine .inl ⟨c, _, as, bs, hconditions, hderived, ?_, fun c' hc' hends => ?_⟩
              · simp only [step, executeCondition, hk, hgoes, hset, if_true]
              · rw [hk] at hc'
                cases hc'
                rw [hgoes] at hends
                cases hends
          | false =>
              refine .inr ⟨r, c, _, as, bs, hconditions, hderived, ?_, ?_⟩
              · simp only [step, executeCondition, hk, hgoes, herase]
                rfl
              · simp [StepRight, hk, hgoes, herase]
  | remove k r =>
      cases hk : p.conditions[k]? with
      | none =>
          refine .inl ⟨?_, fun c hc => ?_⟩
          · simp only [step, removeCondition, hk]
          · rw [hk] at hc
            cases hc
      | some c =>
          obtain ⟨as, bs, hconditions, herase, _⟩ := exists_around hk
          refine .inr (.inr (.inr (.inr ⟨r, c, c, as, bs, hconditions, rfl, ?_, ?_⟩)))
          · simp only [step, removeCondition, hk, herase]
          · simp [StepRight, hk, herase]

theorem modifier_congr {c c' : Condition} (h : c'.derived = c.derived) (f : Field) :
    c'.modifier f = c.modifier f := by
  unfold Condition.modifier
  rw [h]

/-- A condition with other ticks assigns the same. -/
theorem assigned_congr {e : Effects} {c c' : Condition} {as bs : List Condition}
    (h : Assigned base e (as ++ c :: bs)) (hderived : c'.derived = c.derived) :
    Assigned base e (as ++ c' :: bs) := by
  refine h.plain rfl rfl (fun i => ?_) ?_
  · rw [total_middle, total_middle]
    unfold Condition.rate
    rw [hderived]
  · rw [any_middle, any_middle]
    unfold Condition.disablesDefense
    rw [hderived]

theorem sums_step (h : p.Sums base) (event : Event) : (p.step event).Sums base := by
  intro f
  have hf := h f
  rcases p.step_cases event with ⟨heq, _⟩ | ⟨r, c, condition, as, bs, hconditions, heq, _⟩ |
    ⟨r, c, heq, _⟩ | ⟨c, c', as, bs, hconditions, hderived, heq, _⟩ |
    ⟨r, c, c', as, bs, hconditions, hderived, heq, _⟩
  · rw [heq]
    exact hf
  · rw [hconditions, total_middle] at hf
    rw [heq, Condition.value_addCondition, total_middle, hf]
    grind
  · rw [heq, Condition.value_startCondition, total_append, total, total, Int32.add_zero, hf,
      Int32.add_assoc]
  · rw [hconditions, total_middle] at hf
    rw [heq, total_middle, modifier_congr hderived]
    exact hf
  · rw [hconditions, total_middle] at hf
    rw [heq, Condition.value_endCondition, modifier_congr hderived, hf]
    grind

theorem assigned_step (h : Assigned base p.effects p.conditions) (event : Event) :
    Assigned base (p.step event).effects (p.step event).conditions ↔ p.StepRight event := by
  rcases p.step_cases event with ⟨heq, hright⟩ |
    ⟨r, c, condition, as, bs, hconditions, heq, hright⟩ | ⟨r, c, heq, hright⟩ |
    ⟨c, c', as, bs, hconditions, hderived, heq, hright⟩ |
    ⟨r, c, c', as, bs, hconditions, hderived, heq, hright⟩
  · rw [heq]
    exact iff_of_true h hright
  · rw [hconditions] at h
    rw [heq, hright]
    exact assigned_addCondition r h condition
  · rw [heq, hright]
    exact assigned_startCondition r h c
  · rw [hconditions] at h
    rw [heq]
    exact iff_of_true (assigned_congr h hderived) hright
  · rw [hconditions] at h
    rw [heq, hright]
    refine (assigned_endCondition r (assigned_congr h hderived)).trans ?_
    unfold Condition.EndsRight
    rw [hderived]

/-! ## Runs -/

/-- A player without conditions. -/
def start (base : Effects) : Player := ⟨{ base with canUseDefense := true }, []⟩

theorem balanced_start (base : Effects) : Balanced base (start base) where
  rates _ _ := (Int32.add_zero _).symm
  defense := rfl
  sums f := by
    rw [start, total, Int32.add_zero]
    cases f <;> rfl

/-- Skills, special skills, stats and speed leave no residue, whatever the steps. -/
theorem sums_run (base : Effects) (events : List Event) :
    Sums base (Runs.run step (start base) events) := by
  have hstep : ∀ p event, Sums base p → True → Sums base (p.step event) :=
    fun _ event h _ => sums_step h event
  exact Runs.run_inv hstep (balanced_start base).sums fun _ _ _ _ => trivial

/-- The player is balanced after every step of a run if and only if every step finds values of
the player and conditions by which what it assigns is right. -/
theorem no_residue (base : Effects) (events : List Event) :
    Runs.Throughout step (fun p event => Balanced base (p.step event)) (start base) events ↔
      Runs.Throughout step StepRight (start base) events := by
  have hiff : ∀ p event, Balanced base p →
      (Balanced base (p.step event) ↔ p.StepRight event) := by
    intro p event h
    rw [← assigned_step h.toAssigned event]
    constructor
    · exact Balanced.toAssigned
    · intro hassigned
      exact ⟨hassigned, sums_step h.sums event⟩
  exact Runs.throughout_iff (fun p event h hright => (hiff p event h).mpr hright) hiff
    (balanced_start base) events

/-! ## A ring of experience -/

/-- The values of a new player. -/
def newPlayer : Effects where
  varSkills := Vector.replicate 7 0
  varSpecialSkills := Vector.replicate 6 0
  varStats := Vector.replicate 4 0
  experienceRate := Vector.replicate 5 100
  varSpeed := 0
  canUseDefense := true

/-- A condition that is to raise the fist skill. -/
def fistSkill : Condition where
  endTime := 0
  subId := 0
  ticks := 10000
  conditionType := ConditionType.attributes.code
  isBuff := false
  aggressive := false
  id := CONDITIONID_COMBAT
  derived := .attributes { skills := (Vector.replicate 7 0).set 0 10 }

theorem fistSkill_modifies : fistSkill.Modifies := by
  refine ⟨?_, .inl rfl⟩
  rw [Condition.WellTyped, fistSkill, ConditionType.ofCode_code]
  rfl

def anyReading : Reading where
  now := 1
  walkDelay := 0
  isSuppress _ := false
  healthMax := 150
  manaMax := 0
  magLevel := 0
  skills := Vector.replicate 7 10
  baseSpeed := 220
  drawn := 0
  scale v _ := v

/-- The condition, whose rates are zero, sets those of the player to zero. -/
theorem rates_lost :
    ¬∀ (base : Effects) (events : List Event),
      Runs.Throughout step (fun p event => Balanced base (p.step event)) (start base) events := by
  intro h
  have hfirst := h newPlayer [.add fistSkill fistSkill_modifies false anyReading] [] _ [] rfl
  have hrate := hfirst.rates ⟨1, by decide⟩ (by decide)
  exact absurd hrate (by decide +kernel)

end Player

end Bruxo.Conditions
