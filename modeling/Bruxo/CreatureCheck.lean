import Bruxo.Lib.Runs
import Mathlib.Logic.Function.Basic
import Mathlib.Data.Nat.Count
import Mathlib.Data.List.Nodup
import Mathlib.Data.List.Count
import Mathlib.Tactic.IntervalCases

/-!
# The lists of creatures that are checked

`addCreatureCheck`, `removeCreatureCheck` and `checkCreatures` (`game.cpp`). The creatures are dealt
out to lists, one of which is walked in each tick. To remove a creature only clears a flag; the walk
that comes by takes it out and gives its reference back.

An iteration of the walk is a step of its own, so that what a creature does when it thinks comes
between two of them. A list that is walked grows at its end only, and loses only what the walk
itself takes out (`Inv`).
-/

namespace Bruxo.CreatureCheck

open Runs

variable {κ : Type} [DecidableEq κ]

def EVENT_CREATURECOUNT : Nat := 10

structure State (κ : Type) where
  creatureCheck : κ → Bool
  inCheckCreaturesVector : κ → Bool
  isDead : κ → Bool
  /-- The references that are counted for the lists. -/
  referenceCounter : κ → Int
  checkCreatureLists : Nat → List κ
  ToReleaseCreatures : List κ
  /-- The ticks that are over. -/
  ticks : Nat
  /-- How far the walk of this tick has come. -/
  walk : Option Nat
  /-- The creatures that thought, in their order. -/
  thoughts : List κ

namespace State

def init (isDead : κ → Bool) : State κ where
  creatureCheck _ := false
  inCheckCreaturesVector _ := false
  isDead := isDead
  referenceCounter _ := 0
  checkCreatureLists _ := []
  ToReleaseCreatures := []
  ticks := 0
  walk := none
  thoughts := []

/-- The list that is walked in this tick. -/
def index (s : State κ) : Nat := s.ticks % EVENT_CREATURECOUNT

def addCreatureCheck (s : State κ) (creature : κ) (random : Nat) : State κ :=
  let s := { s with creatureCheck := Function.update s.creatureCheck creature true }
  if s.inCheckCreaturesVector creature then s
  else
    let index := random % EVENT_CREATURECOUNT
    { s with
      inCheckCreaturesVector := Function.update s.inCheckCreaturesVector creature true
      checkCreatureLists := Function.update s.checkCreatureLists index
        (s.checkCreatureLists index ++ [creature])
      referenceCounter := Function.update s.referenceCounter creature
        (s.referenceCounter creature + 1) }

def removeCreatureCheck (s : State κ) (creature : κ) : State κ :=
  if s.inCheckCreaturesVector creature then
    { s with creatureCheck := Function.update s.creatureCheck creature false }
  else s

def cleanup (s : State κ) : State κ :=
  { s with
    referenceCounter := s.ToReleaseCreatures.foldl
      (fun counter creature => Function.update counter creature (counter creature - 1))
      s.referenceCounter
    ToReleaseCreatures := [] }

/-- The walk comes to a creature. -/
def check (s : State κ) (position : Nat) (creature : κ) : State κ :=
  if s.creatureCheck creature then
    let s := if s.isDead creature then s else { s with thoughts := s.thoughts ++ [creature] }
    { s with walk := some (position + 1) }
  else
    { s with
      inCheckCreaturesVector := Function.update s.inCheckCreaturesVector creature false
      checkCreatureLists := Function.update s.checkCreatureLists s.index
        ((s.checkCreatureLists s.index).eraseIdx position)
      ToReleaseCreatures := s.ToReleaseCreatures ++ [creature] }

/-- The loop of `checkCreatures`, and its end -/
def iterate (s : State κ) : State κ :=
  match s.walk with
  | none => s
  | some position =>
      match (s.checkCreatureLists s.index)[position]? with
      | some creature => s.check position creature
      | none => { s.cleanup with ticks := s.ticks + 1, walk := none }

inductive Action (κ : Type) where
  | add (creature : κ) (random : Nat)
  | remove (creature : κ)
  | setDead (creature : κ) (dead : Bool)
  /-- The next tick begins. -/
  | checkCreatures
  | iterate
  | cleanup

def step (s : State κ) : Action κ → State κ
  | .add creature random => s.addCreatureCheck creature random
  | .remove creature => s.removeCreatureCheck creature
  | .setDead creature dead => { s with isDead := Function.update s.isDead creature dead }
  | .checkCreatures =>
      match s.walk with
      | none => { s with walk := some 0 }
      | some _ => s
  | .iterate => s.iterate
  | .cleanup => s.cleanup

/-! ## What is to hold -/

/-- A creature is in one list at most, and there once, exactly if its flag says so; it has a
reference for its place, and one for each place it lost that was not given back yet. -/
structure Good (s : State κ) : Prop where
  once : ∀ index, (s.checkCreatureLists index).Nodup
  one : ∀ creature index index', creature ∈ s.checkCreatureLists index →
    creature ∈ s.checkCreatureLists index' → index = index'
  listed : ∀ creature, s.inCheckCreaturesVector creature = true ↔
    ∃ index < EVENT_CREATURECOUNT, creature ∈ s.checkCreatureLists index
  references : ∀ creature, s.referenceCounter creature =
    (if s.inCheckCreaturesVector creature then 1 else 0) + s.ToReleaseCreatures.count creature

structure Inv (s : State κ) : Prop extends Good s where
  bounded : ∀ creature index, creature ∈ s.checkCreatureLists index → index < EVENT_CREATURECOUNT
  checked : ∀ creature, s.creatureCheck creature = true →
    s.inCheckCreaturesVector creature = true
  within : ∀ position, s.walk = some position → position ≤ (s.checkCreatureLists s.index).length

variable {s : State κ}

namespace Inv

theorem init (isDead : κ → Bool) : Inv (init isDead) where
  once _ := .nil
  one _ _ _ h := by cases h
  listed _ := iff_of_false Bool.false_ne_true (by rintro ⟨_, _, ⟨⟩⟩)
  references _ := rfl
  bounded _ _ h := by cases h
  checked _ h := by cases h
  within _ h := by cases h

theorem addCreatureCheck (h : Inv s) (creature : κ) (random : Nat) :
    Inv (s.addCreatureCheck creature random) := by
  rw [State.addCreatureCheck]
  split
  case isTrue hin =>
    refine ⟨⟨h.once, h.one, h.listed, h.references⟩, h.bounded, fun other hcheck => ?_, h.within⟩
    rcases eq_or_ne other creature with rfl | hne
    · exact hin
    · exact h.checked other ((Function.update_of_ne hne _ _).symm.trans hcheck)
  case isFalse hout =>
    have hlt : random % EVENT_CREATURECOUNT < EVENT_CREATURECOUNT :=
      Nat.mod_lt _ (Nat.succ_pos _)
    generalize random % EVENT_CREATURECOUNT = index at hlt
    have hnowhere : ∀ index, creature ∉ s.checkCreatureLists index := fun index hmem =>
      hout ((h.listed creature).mpr ⟨index, h.bounded creature index hmem, hmem⟩)
    have hmem : ∀ other index', other ∈ Function.update s.checkCreatureLists index
        (s.checkCreatureLists index ++ [creature]) index' ↔
        other ∈ s.checkCreatureLists index' ∨ other = creature ∧ index' = index := by
      intro other index'
      rcases eq_or_ne index' index with rfl | hne
      · simp
      · simp [hne]
    refine ⟨⟨fun index' => ?_, fun other index' index'' => ?_, fun other => ?_, fun other => ?_⟩,
      fun other index' => ?_, fun other hcheck => ?_, fun position hwalk => ?_⟩
    · rcases eq_or_ne index' index with rfl | hne
      · dsimp only
        rw [Function.update_self]
        exact List.concat_eq_append ▸ (h.once index').concat (hnowhere index')
      · dsimp only
        rw [Function.update_of_ne hne]
        exact h.once index'
    · rw [hmem, hmem]
      rintro (hmem' | ⟨rfl, rfl⟩) (hmem'' | ⟨heq, rfl⟩)
      · exact h.one other index' index'' hmem' hmem''
      · exact absurd hmem' (heq ▸ hnowhere index')
      · exact absurd hmem'' (hnowhere index'')
      · rfl
    · dsimp only
      simp only [hmem]
      rcases eq_or_ne other creature with rfl | hne
      · rw [Function.update_self]
        exact iff_of_true rfl ⟨index, hlt, .inr ⟨rfl, rfl⟩⟩
      · rw [Function.update_of_ne hne, h.listed other]
        simp [hne]
    · have hreferences := h.references other
      rcases eq_or_ne other creature with rfl | hne
      · rw [if_neg hout] at hreferences
        simp [hreferences]
        omega
      · simpa [hne] using hreferences
    · rw [hmem]
      rintro (hmem' | ⟨rfl, rfl⟩)
      · exact h.bounded other index' hmem'
      · exact hlt
    · rcases eq_or_ne other creature with rfl | hne
      · exact Function.update_self _ _ _
      · dsimp only at hcheck ⊢
        rw [Function.update_of_ne hne] at hcheck ⊢
        exact h.checked other hcheck
    · have hwithin := h.within position hwalk
      rcases eq_or_ne s.index index with heq | hne
      · have hlength : (s.checkCreatureLists s.index).length ≤
            (Function.update s.checkCreatureLists index
              (s.checkCreatureLists index ++ [creature]) s.index).length := by
          rw [heq, Function.update_self, List.length_append]
          exact Nat.le_add_right _ _
        exact hwithin.trans hlength
      · have hsame : Function.update s.checkCreatureLists index
            (s.checkCreatureLists index ++ [creature]) s.index = s.checkCreatureLists s.index :=
          Function.update_of_ne hne _ _
        exact hwithin.trans (le_of_eq (congrArg List.length hsame.symm))

theorem removeCreatureCheck (h : Inv s) (creature : κ) : Inv (s.removeCreatureCheck creature) := by
  rw [State.removeCreatureCheck]
  split
  · refine ⟨⟨h.once, h.one, h.listed, h.references⟩, h.bounded, fun other hcheck => ?_, h.within⟩
    rcases eq_or_ne other creature with rfl | hne
    · dsimp only at hcheck
      rw [Function.update_self] at hcheck
      cases hcheck
    · exact h.checked other ((Function.update_of_ne hne _ _).symm.trans hcheck)
  · exact h

/-- The references of the creatures that were taken out are given back. -/
theorem release (counter : κ → Int) (creatures : List κ) (creature : κ) :
    creatures.foldl (fun counter creature => Function.update counter creature
      (counter creature - 1)) counter creature = counter creature - creatures.count creature := by
  induction creatures generalizing counter with
  | nil => simp
  | cons first creatures ih =>
      rw [List.foldl_cons, ih]
      rcases eq_or_ne creature first with rfl | hne
      · rw [Function.update_self, List.count_cons_self]
        omega
      · rw [Function.update_of_ne hne, List.count_cons_of_ne hne.symm]

theorem cleanup (h : Inv s) : Inv s.cleanup := by
  refine ⟨⟨h.once, h.one, h.listed, fun creature => ?_⟩, h.bounded, h.checked, h.within⟩
  have hreferences := h.references creature
  rw [State.cleanup]
  dsimp only
  rw [release, List.count_nil, hreferences]
  omega

theorem check (h : Inv s) {position : Nat} (hwalk : s.walk = some position) {creature : κ}
    (hat : (s.checkCreatureLists s.index)[position]? = some creature) :
    Inv (s.check position creature) := by
  obtain ⟨hlt, hget⟩ := List.getElem?_eq_some_iff.mp hat
  rw [State.check]
  split
  case isTrue hcheck =>
    dsimp only
    split
    · refine ⟨⟨h.once, h.one, h.listed, h.references⟩, h.bounded, h.checked, ?_⟩
      rintro _ ⟨⟩
      exact hlt
    · refine ⟨⟨h.once, h.one, h.listed, h.references⟩, h.bounded, h.checked, ?_⟩
      rintro _ ⟨⟩
      exact hlt
  case isFalse hcheck =>
    have hin : s.inCheckCreaturesVector creature = true := (h.listed creature).mpr
      ⟨s.index, h.bounded creature s.index (List.mem_of_getElem? hat), List.mem_of_getElem? hat⟩
    have herase : (s.checkCreatureLists s.index).eraseIdx position =
        (s.checkCreatureLists s.index).erase creature := by
      rw [← hget, (h.once s.index).erase_getElem]
    rw [herase]
    have hmem : ∀ other index, other ∈ Function.update s.checkCreatureLists s.index
        ((s.checkCreatureLists s.index).erase creature) index ↔
        other ≠ creature ∧ other ∈ s.checkCreatureLists index := by
      intro other index
      rcases eq_or_ne index s.index with rfl | hne
      · rw [Function.update_self, (h.once _).mem_erase_iff]
      · rw [Function.update_of_ne hne]
        refine (and_iff_right_of_imp ?_).symm
        rintro hother rfl
        exact hne (h.one other _ _ hother (List.mem_of_getElem? hat))
    refine ⟨⟨fun index => ?_, fun other index index' => ?_, fun other => ?_, fun other => ?_⟩,
      fun other index => ?_, fun other hcheck' => ?_, fun position' hwalk' => ?_⟩
    · dsimp only
      rcases eq_or_ne index s.index with rfl | hne
      · rw [Function.update_self]
        exact (h.once _).erase creature
      · rw [Function.update_of_ne hne]
        exact h.once index
    · dsimp only
      rw [hmem, hmem]
      exact fun hother hother' => h.one other index index' hother.2 hother'.2
    · dsimp only
      simp only [hmem]
      rcases eq_or_ne other creature with rfl | hne
      · simp
      · rw [Function.update_of_ne hne, h.listed other]
        simp [hne]
    · have hreferences := h.references other
      rcases eq_or_ne other creature with rfl | hne
      · rw [if_pos hin] at hreferences
        simp [hreferences]
        omega
      · simpa [hne, List.count_singleton, hne.symm] using hreferences
    · dsimp only
      rw [hmem]
      exact fun hother => h.bounded other index hother.2
    · dsimp only at hcheck' ⊢
      rcases eq_or_ne other creature with rfl | hne
      · exact absurd hcheck' hcheck
      · rw [Function.update_of_ne hne]
        exact h.checked other hcheck'
    · have hposition : position' = position := Option.some.inj (hwalk'.symm.trans hwalk)
      have hlist : Function.update s.checkCreatureLists s.index
          ((s.checkCreatureLists s.index).erase creature) s.index =
          (s.checkCreatureLists s.index).erase creature := Function.update_self _ _ _
      rw [hposition]
      refine le_trans ?_ (le_of_eq (congrArg List.length hlist.symm))
      rw [List.length_erase_of_mem (List.mem_of_getElem? hat)]
      exact Nat.le_sub_one_of_lt hlt

theorem iterate (h : Inv s) : Inv s.iterate := by
  rw [State.iterate]
  split
  · exact h
  · next position hwalk =>
      split
      · next creature hat => exact h.check hwalk hat
      · have hcleanup := h.cleanup
        refine ⟨⟨hcleanup.once, hcleanup.one, hcleanup.listed, hcleanup.references⟩,
          hcleanup.bounded, hcleanup.checked, ?_⟩
        rintro _ ⟨⟩

theorem step (h : Inv s) (action : Action κ) : Inv (s.step action) := by
  cases action with
  | add creature random => exact h.addCreatureCheck creature random
  | remove creature => exact h.removeCreatureCheck creature
  | setDead creature dead =>
      exact ⟨⟨h.once, h.one, h.listed, h.references⟩, h.bounded, h.checked, h.within⟩
  | checkCreatures =>
      rw [State.step]
      split
      · refine ⟨⟨h.once, h.one, h.listed, h.references⟩, h.bounded, h.checked, ?_⟩
        rintro _ ⟨⟩
        exact Nat.zero_le _
      · exact h
  | iterate => exact h.iterate
  | cleanup => exact h.cleanup

theorem run (h : Inv s) (actions : List (Action κ)) : Inv (run State.step s actions) := by
  induction actions generalizing s with
  | nil => exact h
  | cons action actions ih => exact ih (h.step action)

end Inv

/-! ## A full cycle -/

/-- Whether the walk of this tick has passed the creature. -/
def passed (s : State κ) (creature : κ) : Nat :=
  match s.walk with
  | none => 0
  | some position => if creature ∈ (s.checkCreatureLists s.index).take position then 1 else 0

/-- How many of the first ticks walk the list. -/
def turns (index ticks : Nat) : Nat :=
  Nat.count (fun tick => tick % EVENT_CREATURECOUNT = index) ticks

theorem turns_succ (index ticks : Nat) :
    turns index (ticks + 1) =
      turns index ticks + if ticks % EVENT_CREATURECOUNT = index then 1 else 0 :=
  Nat.count_succ _ _

/-- A creature whose last call was `addCreatureCheck`, and how often it has thought. -/
structure Tracked (creature : κ) (index thoughts before : Nat) (s : State κ) : Prop where
  inv : Inv s
  listed : creature ∈ s.checkCreatureLists index
  checked : s.creatureCheck creature = true
  alive : s.isDead creature = false
  counted : s.thoughts.count creature + before =
    thoughts + turns index s.ticks + s.passed creature

namespace Tracked

variable {creature : κ} {index thoughts before : Nat}

/-- Lists that grow at their ends only. -/
theorem passed_append (h : Inv s) {lists : Nat → List κ}
    (hlist : ∀ index, s.checkCreatureLists index <+: lists index) (creature : κ) :
    State.passed { s with checkCreatureLists := lists } creature = s.passed creature := by
  rw [passed, passed]
  dsimp only
  split
  · rfl
  · next position hat =>
      obtain ⟨rest, hrest⟩ := hlist s.index
      have htake : (lists s.index).take position =
          (s.checkCreatureLists s.index).take position := by
        rw [← hrest, List.take_append_of_le_length (h.within position hat)]
      exact if_congr (iff_of_eq (congrArg _ htake)) rfl rfl

theorem addCreatureCheck (h : Tracked creature index thoughts before s) (other : κ)
    (random : Nat) : Tracked creature index thoughts before (s.addCreatureCheck other random) := by
  have hinv := h.inv.addCreatureCheck other random
  have hchecked : Function.update s.creatureCheck other true creature = true := by
    rcases eq_or_ne creature other with rfl | hne
    · exact Function.update_self _ _ _
    · rw [Function.update_of_ne hne]
      exact h.checked
  rw [State.addCreatureCheck] at hinv ⊢
  split
  case isTrue hin =>
    rw [if_pos hin] at hinv
    exact ⟨hinv, h.listed, hchecked, h.alive, h.counted⟩
  case isFalse hout =>
    rw [if_neg hout] at hinv
    have hlist : ∀ index', s.checkCreatureLists index' <+:
        Function.update s.checkCreatureLists (random % EVENT_CREATURECOUNT)
          (s.checkCreatureLists (random % EVENT_CREATURECOUNT) ++ [other]) index' := by
      intro index'
      rcases eq_or_ne index' (random % EVENT_CREATURECOUNT) with heq | hne
      · rw [heq, Function.update_self]
        exact List.prefix_append _ _
      · rw [Function.update_of_ne hne]
    refine ⟨hinv, (hlist index).subset h.listed, hchecked, h.alive, ?_⟩
    exact h.counted.trans (congrArg _ (passed_append h.inv hlist creature).symm)

omit [DecidableEq κ] in
/-- The walk passes one creature more. -/
theorem mem_take_succ {position : Nat} {other : κ}
    (hat : (s.checkCreatureLists s.index)[position]? = some other) :
    creature ∈ (s.checkCreatureLists s.index).take (position + 1) ↔
      creature ∈ (s.checkCreatureLists s.index).take position ∨ creature = other := by
  rw [List.take_add_one, hat, List.mem_append, Option.toList_some, List.mem_singleton]

theorem check (h : Tracked creature index thoughts before s) {position : Nat}
    (hwalk : s.walk = some position) {other : κ}
    (hat : (s.checkCreatureLists s.index)[position]? = some other) :
    Tracked creature index thoughts before (s.check position other) := by
  have hinv := h.inv.check hwalk hat
  obtain ⟨hlt, hget⟩ := List.getElem?_eq_some_iff.mp hat
  have hcounted := h.counted
  rw [passed, hwalk] at hcounted
  dsimp only at hcounted
  rw [State.check] at hinv ⊢
  split
  case isTrue hcheck =>
    rw [if_pos hcheck] at hinv
    dsimp only at hinv ⊢
    split
    case isTrue hdead =>
      rw [if_pos hdead] at hinv
      -- A creature that is dead is another one.
      have hne : creature ≠ other := by
        rintro rfl
        rw [h.alive] at hdead
        cases hdead
      refine ⟨hinv, h.listed, h.checked, h.alive, hcounted.trans ?_⟩
      refine congrArg _ (if_congr ?_ rfl rfl)
      exact ((mem_take_succ hat).trans (or_iff_left hne)).symm
    case isFalse halive =>
      rw [if_neg halive] at hinv
      refine ⟨hinv, h.listed, h.checked, h.alive, ?_⟩
      have hpassed : State.passed { s with
          thoughts := s.thoughts ++ [other]
          walk := some (position + 1) } creature =
          if creature ∈ (s.checkCreatureLists s.index).take (position + 1) then 1 else 0 := rfl
      refine Eq.trans ?_ (congrArg _ hpassed.symm)
      dsimp only
      rw [List.count_append, List.count_singleton]
      rcases eq_or_ne creature other with rfl | hne
      · -- Its own turn: the walk was not yet past it.
        have hnot : creature ∉ (s.checkCreatureLists s.index).take position := by
          intro hmem
          obtain ⟨i, hi, heq⟩ := List.getElem_of_mem hmem
          rw [List.getElem_take, ← hget] at heq
          have := (List.Nodup.getElem_inj_iff (h.inv.once s.index)).mp heq
          rw [List.length_take] at hi
          omega
        rw [if_neg hnot] at hcounted
        rw [if_pos (beq_self_eq_true _), if_pos ((mem_take_succ hat).mpr (.inr rfl))]
        omega
      · rw [if_neg (by simpa using hne.symm), add_zero, hcounted]
        refine congrArg _ (if_congr ?_ rfl rfl)
        exact ((mem_take_succ hat).trans (or_iff_left hne)).symm
  case isFalse hcheck =>
    rw [if_neg hcheck] at hinv
    have hne : creature ≠ other := by
      rintro rfl
      exact hcheck h.checked
    refine ⟨hinv, ?_, h.checked, h.alive, ?_⟩
    · dsimp only
      rcases eq_or_ne index s.index with rfl | hindex
      · rw [Function.update_self]
        refine List.mem_eraseIdx_iff_getElem?.mpr ?_
        obtain ⟨i, hi, heq⟩ := List.getElem_of_mem h.listed
        refine ⟨i, ?_, by rw [List.getElem?_eq_getElem hi, heq]⟩
        rintro rfl
        exact hne (heq.symm.trans hget)
      · rw [Function.update_of_ne hindex]
        exact h.listed
    · have htake : (Function.update s.checkCreatureLists s.index
          ((s.checkCreatureLists s.index).eraseIdx position) s.index).take position =
          (s.checkCreatureLists s.index).take position := by
        rw [Function.update_self, List.eraseIdx_eq_take_drop_succ,
          List.take_append_of_le_length (by rw [List.length_take]; omega), List.take_take,
          Nat.min_self]
      have hpassed : State.passed { s with
          checkCreatureLists := Function.update s.checkCreatureLists s.index
            ((s.checkCreatureLists s.index).eraseIdx position) } creature =
          if creature ∈ (s.checkCreatureLists s.index).take position then 1 else 0 := by
        rw [passed, ← htake]
        dsimp only
        rw [hwalk]
        rfl
      exact hcounted.trans (congrArg _ hpassed.symm)

theorem step (h : Tracked creature index thoughts before s) (action : Action κ)
    (hremove : action ≠ .remove creature) (hdead : action ≠ .setDead creature true) :
    Tracked creature index thoughts before (s.step action) := by
  cases action with
  | add other random => exact h.addCreatureCheck other random
  | remove other =>
      have hne : creature ≠ other := fun heq => hremove (by rw [heq])
      have hinv := h.inv.removeCreatureCheck other
      rw [State.step, State.removeCreatureCheck] at *
      split
      · next hin =>
          rw [if_pos hin] at hinv
          exact ⟨hinv, h.listed, (Function.update_of_ne hne _ _).trans h.checked, h.alive, h.counted⟩
      · exact h
  | setDead other dead =>
      have hinv := h.inv.step (.setDead other dead)
      refine ⟨hinv, h.listed, h.checked, ?_, h.counted⟩
      rcases eq_or_ne creature other with rfl | hne
      · cases dead with
        | false => exact Function.update_self _ _ _
        | true => exact absurd rfl hdead
      · exact (Function.update_of_ne hne _ _).trans h.alive
  | checkCreatures =>
      have hinv := h.inv.step .checkCreatures
      rw [State.step] at hinv ⊢
      split
      · next hwalk =>
          rw [hwalk] at hinv
          have hcounted := h.counted
          rw [passed, hwalk] at hcounted
          exact ⟨hinv, h.listed, h.checked, h.alive, hcounted⟩
      · exact h
  | iterate =>
      have hinv := h.inv.iterate
      rw [State.step, State.iterate] at *
      split
      · exact h
      · next position hwalk =>
          split
          · next other hat => exact h.check hwalk hat
          · next hend =>
              rw [hwalk] at hinv
              dsimp only at hinv
              rw [hend] at hinv
              refine ⟨hinv, h.listed, h.checked, h.alive, ?_⟩
              have hcounted := h.counted
              rw [passed, hwalk] at hcounted
              dsimp only at hcounted
              rw [List.take_of_length_le (List.getElem?_eq_none_iff.mp hend)] at hcounted
              have hpassed : creature ∈ s.checkCreatureLists s.index ↔
                  s.ticks % EVENT_CREATURECOUNT = index :=
                ⟨fun hmem => h.inv.one creature _ _ hmem h.listed, fun heq => by rw [State.index, heq]; exact h.listed⟩
              refine hcounted.trans ?_
              rw [if_congr hpassed rfl rfl, add_assoc, ← turns_succ]
              rfl
  | cleanup =>
      exact ⟨h.inv.cleanup, h.listed, h.checked, h.alive, h.counted⟩

theorem run (h : Tracked creature index thoughts before s) {actions : List (Action κ)}
    (hremove : .remove creature ∉ actions) (hdead : .setDead creature true ∉ actions) :
    Tracked creature index thoughts before (run State.step s actions) := by
  induction actions generalizing s with
  | nil => exact h
  | cons action actions ih =>
      rw [List.mem_cons, not_or] at hremove hdead
      exact ih (h.step action (fun heq => hremove.1 heq.symm) (fun heq => hdead.1 heq.symm))
        hremove.2 hdead.2

end Tracked

end State

end Bruxo.CreatureCheck
