import Bruxo.Lib.Runs
import Mathlib.Logic.Function.Basic
import Mathlib.Data.List.Count

/-!
# Masters and their summons

`Creature::setMaster` and `removeMaster` (`creature.cpp`, `creature.h`), and what calls them: the
death of a creature (`creature.cpp`, `monster.cpp`), `Game::removeCreature` and the destructor. A
creature knows its master, and the master has it in its list with a reference of its own.

`removeMaster` only does the creature's half, and its callers drop the whole list behind it. All
that keep the two halves together keep `Good`.
-/

namespace Bruxo.Summons

open Runs

variable {κ : Type} [DecidableEq κ]

structure State (κ : Type) where
  master : κ → Option κ
  summons : κ → List κ
  referenceCounter : κ → Int
  isRemoved : κ → Bool
  destroyed : κ → Bool
  /-- The summons that `removeCreature` has not come to yet. -/
  removing : List κ
  /-- The references that others than the lists of summons hold. -/
  others : κ → Nat

namespace State

def init : State κ where
  master _ := none
  summons _ := []
  referenceCounter _ := 0
  isRemoved _ := false
  destroyed _ := false
  removing := []
  others _ := 0

def incrementReferenceCounter (s : State κ) (c : κ) : State κ :=
  { s with referenceCounter := Function.update s.referenceCounter c (s.referenceCounter c + 1) }

/-- The creature whose last reference this was is destroyed by a step of its own. -/
def decrementReferenceCounter (s : State κ) (c : κ) : State κ :=
  { s with referenceCounter := Function.update s.referenceCounter c (s.referenceCounter c - 1) }

def setSummons (s : State κ) (m : κ) (summons : List κ) : State κ :=
  { s with summons := Function.update s.summons m summons }

def putMaster (s : State κ) (c : κ) (master : Option κ) : State κ :=
  { s with master := Function.update s.master c master }

/-- `newMaster->summons.push_back` -/
def pushSummon (s : State κ) (c : κ) : Option κ → State κ
  | none => s
  | some m => (s.incrementReferenceCounter c).setSummons m (s.summons m ++ [c])

def eraseSummon (s : State κ) (c : κ) : Option κ → State κ
  | none => s
  | some m =>
      if c ∈ s.summons m then
        (s.setSummons m ((s.summons m).erase c)).decrementReferenceCounter c
      else s

def setMaster (s : State κ) (c : κ) (newMaster : Option κ) : State κ :=
  if newMaster = none ∧ s.master c = none then s
  else ((s.pushSummon c newMaster).putMaster c newMaster).eraseSummon c (s.master c)

def removeMaster (s : State κ) (c : κ) : State κ :=
  if s.master c ≠ none then (s.putMaster c none).decrementReferenceCounter c else s

/-- The loop of `Monster::death` and of `~Creature`, and the end of the list -/
def dropSummons (s : State κ) (m : κ) : State κ :=
  ((s.summons m).foldl removeMaster s).setSummons m []

/-- `onDeath`; only the `death` of a monster drops its summons. -/
def onDeath (s : State κ) (c : κ) (monster : Bool) : State κ :=
  let s := if monster then s.dropSummons c else s
  if s.master c ≠ none then s.setMaster c none else s

/-- What `onRemoveCreature` of the creature itself does -/
def onRemoveCreature (s : State κ) (c : κ) : State κ :=
  match s.master c with
  | some m => if s.isRemoved m then s else s.setMaster c none
  | none => s

/-- `Game::removeCreature`; the calls for the summons are steps of their own. -/
def removeCreature (s : State κ) (c : κ) : State κ :=
  if s.isRemoved c then s
  else
    let s := s.onRemoveCreature c
    { s with
      isRemoved := Function.update s.isRemoved c true
      removing := s.summons c ++ s.removing }

/-- `~Creature`, when no reference is left -/
def destroy (s : State κ) (c : κ) : State κ :=
  if s.referenceCounter c = 0 then
    { s.dropSummons c with destroyed := Function.update s.destroyed c true }
  else s

inductive Action (κ : Type) where
  | setMaster (c : κ) (newMaster : Option κ)
  | removeMaster (c : κ)
  | onDeath (c : κ) (monster : Bool)
  | removeCreature (c : κ)
  /-- `removeCreature` comes to the next summon. -/
  | removeSummon
  | destroy (c : κ)
  /-- Another part takes a reference, or gives one back. -/
  | hold (c : κ)
  | release (c : κ)

/-- Nothing is done with a creature that was destroyed. -/
def step (s : State κ) : Action κ → State κ
  | .setMaster c newMaster =>
      if s.destroyed c ∨ newMaster.any s.destroyed then s else s.setMaster c newMaster
  | .removeMaster c => if s.destroyed c then s else s.removeMaster c
  | .onDeath c monster => if s.destroyed c then s else s.onDeath c monster
  | .removeCreature c => if s.destroyed c then s else s.removeCreature c
  | .removeSummon =>
      match s.removing with
      | [] => s
      | c :: removing =>
          let s := { s with removing := removing }
          if s.destroyed c then s else s.removeCreature c
  | .destroy c => if s.destroyed c then s else s.destroy c
  | .hold c =>
      if s.destroyed c then s
      else { s.incrementReferenceCounter c with
        others := Function.update s.others c (s.others c + 1) }
  | .release c =>
      if s.others c = 0 then s
      else { s.decrementReferenceCounter c with
        others := Function.update s.others c (s.others c - 1) }

/-! ## What is to hold -/

/-- A creature is in the list of its master, once, and in no other; it has a reference for that, and
its master is not destroyed. -/
structure Good (s : State κ) : Prop where
  linked : ∀ c m, (s.summons m).count c = if s.master c = some m then 1 else 0
  counted : ∀ c, s.referenceCounter c = s.others c + if s.master c = none then 0 else 1
  lives : ∀ c m, s.master c = some m → s.destroyed m = false

variable {s : State κ}

/-! ## What a push and an erase change -/

theorem pushSummon_count (s : State κ) (c : κ) (newMaster : Option κ) (c' m' : κ) :
    ((s.pushSummon c newMaster).summons m').count c' =
      (s.summons m').count c' + if newMaster = some m' ∧ c' = c then 1 else 0 := by
  cases newMaster with
  | none => simp [pushSummon]
  | some m =>
      rcases eq_or_ne m' m with rfl | hne
      · rcases eq_or_ne c' c with rfl | hne
        · simp [pushSummon, setSummons, incrementReferenceCounter]
        · simp [pushSummon, setSummons, incrementReferenceCounter, hne, hne.symm]
      · simp [pushSummon, setSummons, incrementReferenceCounter, hne, hne.symm]

theorem pushSummon_counter (s : State κ) (c : κ) (newMaster : Option κ) (c' : κ) :
    (s.pushSummon c newMaster).referenceCounter c' =
      s.referenceCounter c' + if newMaster ≠ none ∧ c' = c then 1 else 0 := by
  cases newMaster with
  | none => simp [pushSummon]
  | some m =>
      rcases eq_or_ne c' c with rfl | hne
      · simp [pushSummon, setSummons, incrementReferenceCounter]
      · simp [pushSummon, setSummons, incrementReferenceCounter, hne]

theorem pushSummon_frame (s : State κ) (c : κ) (newMaster : Option κ) :
    (s.pushSummon c newMaster).master = s.master ∧
      (s.pushSummon c newMaster).destroyed = s.destroyed ∧
      (s.pushSummon c newMaster).others = s.others := by
  cases newMaster <;> exact ⟨rfl, rfl, rfl⟩

theorem eraseSummon_count (s : State κ) (c : κ) (oldMaster : Option κ) (c' m' : κ) :
    ((s.eraseSummon c oldMaster).summons m').count c' =
      (s.summons m').count c' - if oldMaster = some m' ∧ c' = c then 1 else 0 := by
  cases oldMaster with
  | none => simp [eraseSummon]
  | some m =>
      rw [eraseSummon]
      split
      · rcases eq_or_ne m' m with rfl | hne
        · rcases eq_or_ne c' c with rfl | hne
          · simp [setSummons, decrementReferenceCounter]
          · simp [setSummons, decrementReferenceCounter, hne]
        · simp [setSummons, decrementReferenceCounter, hne, hne.symm]
      · next hnot =>
          by_cases heq : some m = some m' ∧ c' = c
          · obtain ⟨hm, rfl⟩ := heq
            obtain rfl := Option.some.inj hm
            rw [List.count_eq_zero.mpr hnot, Nat.zero_sub]
          · rw [if_neg heq, Nat.sub_zero]

theorem eraseSummon_counter (s : State κ) (c : κ) {oldMaster : Option κ}
    (hmem : ∀ m, oldMaster = some m → c ∈ s.summons m) (c' : κ) :
    (s.eraseSummon c oldMaster).referenceCounter c' =
      s.referenceCounter c' - if oldMaster ≠ none ∧ c' = c then 1 else 0 := by
  cases oldMaster with
  | none => simp [eraseSummon]
  | some m =>
      rw [eraseSummon, if_pos (hmem m rfl)]
      rcases eq_or_ne c' c with rfl | hne
      · simp [setSummons, decrementReferenceCounter]
      · simp [setSummons, decrementReferenceCounter, hne]

theorem eraseSummon_frame (s : State κ) (c : κ) (oldMaster : Option κ) :
    (s.eraseSummon c oldMaster).master = s.master ∧
      (s.eraseSummon c oldMaster).destroyed = s.destroyed ∧
      (s.eraseSummon c oldMaster).others = s.others := by
  cases oldMaster with
  | none => exact ⟨rfl, rfl, rfl⟩
  | some m =>
      rw [eraseSummon]
      split <;> exact ⟨rfl, rfl, rfl⟩

/-! ## The operations -/

namespace Good

theorem init : Good (init : State κ) where
  linked _ _ := rfl
  counted _ := rfl
  lives _ _ h := by cases h

theorem mem_iff (h : Good s) {c m : κ} : c ∈ s.summons m ↔ s.master c = some m := by
  rw [← List.count_pos_iff, h.linked]
  split <;> simp_all

theorem setMaster (h : Good s) {c : κ} {newMaster : Option κ}
    (hlives : ∀ m, newMaster = some m → s.destroyed m = false) :
    Good (s.setMaster c newMaster) := by
  rw [State.setMaster]
  split
  · exact h
  · obtain ⟨hmaster, hdestroyed, hothers⟩ := s.pushSummon_frame c newMaster
    have hmem : ∀ m, s.master c = some m →
        c ∈ ((s.pushSummon c newMaster).putMaster c newMaster).summons m := by
      intro m hm
      refine List.count_pos_iff.mp ?_
      have hcount := s.pushSummon_count c newMaster c m
      have hone := h.linked c m
      rw [if_pos hm] at hone
      exact lt_of_lt_of_eq (by omega) hcount.symm
    obtain ⟨hmaster', hdestroyed', hothers'⟩ :=
      ((s.pushSummon c newMaster).putMaster c newMaster).eraseSummon_frame c (s.master c)
    have hput : ((s.pushSummon c newMaster).putMaster c newMaster).master =
        Function.update s.master c newMaster := by rw [putMaster, hmaster]
    refine ⟨fun c' m' => ?_, fun c' => ?_, fun c' m' => ?_⟩
    · rw [eraseSummon_count, hmaster', hput]
      refine (congrArg (· - _) (s.pushSummon_count c newMaster c' m')).trans ?_
      rw [h.linked]
      rcases eq_or_ne c' c with rfl | hne
      · rw [Function.update_self]
        simp only [and_true]
        omega
      · rw [Function.update_of_ne hne]
        simp [hne]
    · rw [eraseSummon_counter _ _ hmem, hmaster', hothers', hput]
      refine (congrArg (· - _) (s.pushSummon_counter c newMaster c')).trans ?_
      have hput' : ((s.pushSummon c newMaster).putMaster c newMaster).others = s.others := hothers
      rw [h.counted, hput']
      rcases eq_or_ne c' c with rfl | hne
      · rw [Function.update_self]
        by_cases hnew : newMaster = none <;> by_cases hold : s.master c' = none <;>
          simp [hnew, hold]
      · rw [Function.update_of_ne hne]
        simp [hne]
    · have hput' : ((s.pushSummon c newMaster).putMaster c newMaster).destroyed = s.destroyed :=
        hdestroyed
      rw [hmaster', hput, hdestroyed', hput']
      rcases eq_or_ne c' c with rfl | hne
      · rw [Function.update_self]
        exact hlives m'
      · rw [Function.update_of_ne hne]
        exact h.lives c' m'

end Good

theorem removeMaster_spec (s : State κ) (c c' : κ) :
    (s.removeMaster c).master c' = (if c' = c then none else s.master c') ∧
      (s.removeMaster c).referenceCounter c' = s.referenceCounter c' -
        (if c' = c ∧ s.master c' ≠ none then 1 else 0) := by
  rw [removeMaster]
  split
  · next hmaster =>
      rcases eq_or_ne c' c with rfl | hne
      · simp [putMaster, decrementReferenceCounter, hmaster]
      · simp [putMaster, decrementReferenceCounter, hne]
  · next hnone =>
      rcases eq_or_ne c' c with rfl | hne
      · simp_all
      · simp [hne]

/-- The loop takes its master from each creature of the list. -/
theorem foldl_removeMaster (s : State κ) (creatures : List κ) (c : κ) :
    (creatures.foldl removeMaster s).master c = (if c ∈ creatures then none else s.master c) ∧
      (creatures.foldl removeMaster s).referenceCounter c = s.referenceCounter c -
        (if c ∈ creatures ∧ s.master c ≠ none then 1 else 0) := by
  induction creatures generalizing s with
  | nil => simp
  | cons first creatures ih =>
      obtain ⟨hmaster, hcounter⟩ := s.removeMaster_spec first c
      rw [List.foldl_cons, (ih _).1, (ih _).2, hmaster, hcounter]
      rcases eq_or_ne c first with rfl | hne
      · simp
      · simp [hne]

theorem foldl_removeMaster_frame (s : State κ) (creatures : List κ) :
    (creatures.foldl removeMaster s).summons = s.summons ∧
      (creatures.foldl removeMaster s).destroyed = s.destroyed ∧
      (creatures.foldl removeMaster s).others = s.others := by
  induction creatures generalizing s with
  | nil => exact ⟨rfl, rfl, rfl⟩
  | cons first creatures ih =>
      obtain ⟨hsummons, hdestroyed, hothers⟩ := ih (s.removeMaster first)
      rw [List.foldl_cons, hsummons, hdestroyed, hothers, removeMaster]
      split <;> exact ⟨rfl, rfl, rfl⟩

namespace Good

/-- Whoever was in the list has no master afterwards. -/
theorem dropSummons_master (h : Good s) (m c : κ) :
    (s.dropSummons m).master c = if s.master c = some m then none else s.master c :=
  ((s.foldl_removeMaster (s.summons m) c).1).trans (if_congr h.mem_iff rfl rfl)

theorem dropSummons (h : Good s) (m : κ) : Good (s.dropSummons m) := by
  obtain ⟨hsummons, hdestroyed, hothers⟩ := s.foldl_removeMaster_frame (s.summons m)
  have hmaster := h.dropSummons_master m
  refine ⟨fun c m' => ?_, fun c => ?_, fun c m' => ?_⟩
  · rw [hmaster]
    rcases eq_or_ne m' m with rfl | hne
    · have hnil : (s.dropSummons m').summons m' = [] := Function.update_self _ _ _
      rw [hnil]
      split <;> simp_all
    · have hsame : (s.dropSummons m).summons m' = s.summons m' := by
        rw [State.dropSummons, setSummons, hsummons]
        exact Function.update_of_ne hne _ _
      rw [hsame, h.linked]
      by_cases heq : s.master c = some m
      · simp [heq, hne.symm]
      · simp [heq]
  · rw [hmaster]
    refine ((s.foldl_removeMaster (s.summons m) c).2).trans ?_
    have hothers' : (s.dropSummons m).others = s.others := hothers
    have hmem := h.mem_iff (c := c) (m := m)
    rw [h.counted, hothers']
    by_cases heq : s.master c = some m
    · simp [heq, hmem.mpr heq]
    · simp [heq, mt hmem.mp heq]
  · have hdestroyed' : (s.dropSummons m).destroyed = s.destroyed := hdestroyed
    rw [hmaster, hdestroyed']
    split
    · rintro ⟨⟩
    · exact h.lives c m'

theorem onDeath (h : Good s) (c : κ) (monster : Bool) : Good (s.onDeath c monster) := by
  have hdrop : Good (if monster then s.dropSummons c else s) := by
    split
    · exact h.dropSummons c
    · exact h
  rw [State.onDeath]
  generalize (if monster then s.dropSummons c else s) = dropped at hdrop ⊢
  split
  · exact hdrop.setMaster (by rintro _ ⟨⟩)
  · exact hdrop

theorem removeCreature (h : Good s) (c : κ) : Good (s.removeCreature c) := by
  have hself : Good (s.onRemoveCreature c) := by
    rw [onRemoveCreature]
    split
    · split
      · exact h
      · exact h.setMaster (by rintro _ ⟨⟩)
    · exact h
  rw [State.removeCreature]
  split
  · exact h
  · exact ⟨hself.linked, hself.counted, hself.lives⟩

/-- The creature has no summons any more when it is destroyed. -/
theorem destroy (h : Good s) (c : κ) : Good (s.destroy c) := by
  rw [State.destroy]
  split
  · have hdrop := h.dropSummons c
    refine ⟨hdrop.linked, hdrop.counted, fun c' m hmaster => ?_⟩
    have hne : m ≠ c := by
      rintro rfl
      have hnone := h.dropSummons_master m c'
      rw [hmaster] at hnone
      split at hnone
      · cases hnone
      · next hnot => exact hnot hnone.symm
    exact (Function.update_of_ne hne _ _).trans
      ((congrFun (s.foldl_removeMaster_frame (s.summons c)).2.1 m).symm.trans
        (hdrop.lives c' m hmaster))
  · exact h

theorem step (h : Good s) {action : Action κ} (hnot : ∀ c, action ≠ .removeMaster c) :
    Good (s.step action) := by
  cases action with
  | setMaster c newMaster =>
      rw [State.step]
      split
      · exact h
      · next hlive =>
          refine h.setMaster ?_
          rintro m rfl
          exact Bool.eq_false_iff.mpr fun hdestroyed => hlive (.inr hdestroyed)
  | removeMaster c => exact absurd rfl (hnot c)
  | onDeath c monster =>
      rw [State.step]
      split
      · exact h
      · exact h.onDeath c monster
  | removeCreature c =>
      rw [State.step]
      split
      · exact h
      · exact h.removeCreature c
  | removeSummon =>
      rw [State.step]
      split
      · exact h
      · next c removing _ =>
          have hrest : Good { s with removing := removing } := ⟨h.linked, h.counted, h.lives⟩
          dsimp only
          split
          · exact hrest
          · exact hrest.removeCreature c
  | destroy c =>
      rw [State.step]
      split
      · exact h
      · exact h.destroy c
  | hold c =>
      rw [State.step]
      split
      · exact h
      · refine ⟨h.linked, fun c' => ?_, h.lives⟩
        have hcounted := h.counted c'
        show Function.update s.referenceCounter c (s.referenceCounter c + 1) c' =
          (Function.update s.others c (s.others c + 1) c' : Nat) +
            if s.master c' = none then 0 else 1
        rcases eq_or_ne c' c with rfl | hne
        · rw [Function.update_self, Function.update_self]
          omega
        · rw [Function.update_of_ne hne, Function.update_of_ne hne]
          exact hcounted
  | release c =>
      rw [State.step]
      split
      · exact h
      · next hheld =>
          refine ⟨h.linked, fun c' => ?_, h.lives⟩
          have hcounted := h.counted c'
          show Function.update s.referenceCounter c (s.referenceCounter c - 1) c' =
            (Function.update s.others c (s.others c - 1) c' : Nat) +
              if s.master c' = none then 0 else 1
          rcases eq_or_ne c' c with rfl | hne
          · rw [Function.update_self, Function.update_self]
            omega
          · rw [Function.update_of_ne hne, Function.update_of_ne hne]
            exact hcounted

end Good

/-! ## The relation over runs -/

/-- In every run in which `removeMaster` is only called with the whole list, the list of each
creature has those whose master it is. -/
theorem good_run (actions : List (Action κ)) (hnot : ∀ c, .removeMaster c ∉ actions) :
    Good (run step init actions) := by
  have hstep : ∀ (s : State κ) (action : Action κ), Good s → (∀ c, action ≠ .removeMaster c) →
      Good (s.step action) := fun s action h hc => h.step hc
  refine run_inv (C := fun _ action => ∀ c, action ≠ .removeMaster c) hstep .init ?_
  rintro before action behind rfl c rfl
  exact hnot c (List.mem_append_right _ List.mem_cons_self)

/-- A master and its summon, which dies with it. -/
theorem good_run_death :
    Good (run step init [.hold 0, .hold 1, .setMaster 1 (some 0), .setMaster 1 (some 0),
      .onDeath 0 true, .removeCreature 0, .removeSummon, .release 0, .destroy (0 : Nat)]) :=
  good_run _ (by simp)

/-- `removeMaster` by itself leaves the creature in the list. -/
theorem removeMaster_leaves :
    ¬ ∀ actions : List (Action Nat), Good (run step init actions) := by
  intro hall
  have hgood := hall [.hold 0, .hold 1, .setMaster 1 (some 0), .removeMaster 1]
  have hlinked : 1 = 0 := hgood.linked 1 0
  cases hlinked

end State

end Bruxo.Summons
