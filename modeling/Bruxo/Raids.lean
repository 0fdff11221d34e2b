import Bruxo.Lib.Runs
import Mathlib.Logic.Function.Basic
import Mathlib.Data.List.Basic
import Mathlib.Data.List.Sort
import Mathlib.Data.Option.Basic

/-!
# Raids

`Raids` and `Raid` (`raids.cpp`). A check once a minute starts at most one raid, whose events then
follow one another in the scheduler. `running`, the state of the raid and its event go together
(`Inv`), if a raid that starts has an event at all.

A raid that is not repeated leaves `raidList` when it starts, so `clear` does not reach its event;
nor does it reach one that is in the queue of the dispatcher.
-/

namespace Bruxo.Raids

open Runs

structure RaidEvent where
  delay : UInt32
  deriving DecidableEq

inductive RaidState where
  | idle | executing
  deriving DecidableEq

structure Raid where
  name : String
  interval : UInt32
  margin : UInt32
  «repeat» : Bool
  raidEvents : List RaidEvent
  nextEvent : Nat
  state : RaidState
  nextEventEvent : Nat

/-- Raids are named by their addresses. -/
inductive Task where
  | checkRaids
  | executeRaidEvent (raid : Nat) (raidEvent : RaidEvent)
  deriving DecidableEq

/-- An event of the scheduler. Once its time has come it is due, and no longer stopped. -/
structure Event where
  eventId : Nat
  delay : UInt32
  task : Task
  due : Bool
  deriving DecidableEq

/-- A `raid` node, with the delays of the events in its file if that was read. -/
structure RaidNode where
  name : Option String
  interval2 : UInt32
  margin : Option UInt32
  «repeat» : Bool
  file : Option (List UInt32)

structure State where
  raid : Nat → Raid
  allocated : Nat
  raidList : List Nat
  running : Option Nat
  lastRaidEnd : Nat
  checkRaidsEvent : Nat
  loaded : Bool
  started : Bool
  events : List Event
  lastEventId : Nat
  /-- The raids below this address were loaded before the last `clear`. -/
  cleared : Nat

def RAID_MINTICKS : UInt32 := 1000
def CHECK_RAIDS_INTERVAL : UInt32 := 60
def MAX_RAND_RANGE : UInt32 := 10000000

namespace Raid

def getNextRaidEvent (raid : Raid) : Option RaidEvent := raid.raidEvents[raid.nextEvent]?

/-- `Raid::loadFromXml`, of the delays that `configureRaidEvent` finds -/
def loadFromXml (raid : Raid) (delays : List UInt32) : Raid :=
  { raid with
    raidEvents := (delays.map fun delay => ⟨max RAID_MINTICKS delay⟩).insertionSort
      fun lhs rhs => lhs.delay ≤ rhs.delay }

end Raid

namespace State

/-- An object that no raid was made at. -/
def nowhere : Raid := ⟨"", 0, 0, false, [], 0, .idle, 0⟩

def init : State where
  raid _ := nowhere
  allocated := 0
  raidList := []
  running := none
  lastRaidEnd := 0
  checkRaidsEvent := 0
  loaded := false
  started := false
  events := []
  lastEventId := 0
  cleared := 0

def addEvent (s : State) (delay : UInt32) (task : Task) : State :=
  { s with
    lastEventId := s.lastEventId + 1
    events := s.events ++ [⟨s.lastEventId + 1, delay, task, false⟩] }

def stopEvent (s : State) (eventId : Nat) : State :=
  { s with events := s.events.filter fun event => event.eventId ≠ eventId ∨ event.due }

def setRaid (s : State) (r : Nat) (raid : Raid) : State :=
  { s with raid := Function.update s.raid r raid }

/-! ## Raid -/

/-- The event of the raid is added, and the raid keeps its id. -/
def addRaidEvent (s : State) (r : Nat) (ticks : UInt32) (raidEvent : RaidEvent) : State :=
  let s := s.addEvent ticks (.executeRaidEvent r raidEvent)
  s.setRaid r { s.raid r with nextEventEvent := s.lastEventId }

/-- `Raid::startRaid` -/
def startRaid (s : State) (r : Nat) : State :=
  match (s.raid r).getNextRaidEvent with
  | none => s
  | some raidEvent =>
      (s.setRaid r { s.raid r with state := .executing }).addRaidEvent r raidEvent.delay raidEvent

def resetRaid (s : State) (r : Nat) (now : Nat) : State :=
  { s.setRaid r { s.raid r with nextEvent := 0, state := .idle } with
    running := none
    lastRaidEnd := now }

def ticks (raidEvent newRaidEvent : RaidEvent) : UInt32 :=
  (max RAID_MINTICKS.toInt32 (newRaidEvent.delay - raidEvent.delay).toInt32).toUInt32

/-- `success` is what `executeEvent` returns. -/
def executeRaidEvent (s : State) (r : Nat) (raidEvent : RaidEvent) (now : Nat) (success : Bool) :
    State :=
  if success then
    let s := s.setRaid r { s.raid r with nextEvent := (s.raid r).nextEvent + 1 }
    match (s.raid r).getNextRaidEvent with
    | some newRaidEvent => s.addRaidEvent r (ticks raidEvent newRaidEvent) newRaidEvent
    | none => s.resetRaid r now
  else s.resetRaid r now

def stopEvents (s : State) (r : Nat) : State :=
  if (s.raid r).nextEventEvent ≠ 0 then
    (s.stopEvent (s.raid r).nextEventEvent).setRaid r { s.raid r with nextEventEvent := 0 }
  else s

/-! ## Raids -/

/-- A raid of a node that is complete, under the next address. -/
def addRaid (s : State) (node : RaidNode) : State :=
  match node.name, node.file with
  | some name, some delays =>
      if node.interval2 * 60 = 0 then s
      else
        let raid : Raid := ⟨name, node.interval2 * 60, node.margin.getD 0 * 60 * 1000, node.repeat,
          [], 0, .idle, 0⟩
        { s.setRaid s.allocated (raid.loadFromXml delays) with
          allocated := s.allocated + 1
          raidList := s.raidList ++ [s.allocated] }
  | _, _ => s

/-- `Raids::loadFromXml`, of the nodes if the file was read -/
def loadFromXml (s : State) (file : Option (List RaidNode)) : State :=
  if s.loaded then s
  else
    match file with
    | none => s
    | some nodes => { nodes.foldl addRaid s with loaded := true }

/-- The next check is added. -/
def addCheckRaids (s : State) : State :=
  let s := s.addEvent (CHECK_RAIDS_INTERVAL * 1000) .checkRaids
  { s with checkRaidsEvent := s.lastEventId }

def startup (s : State) (now : Nat) : State :=
  if ¬ s.loaded ∨ s.started then s
  else { { s with lastRaidEnd := now }.addCheckRaids with started := true }

/-- The raid that a check starts, if its turn comes; `random` draws for each one. -/
def chosen (s : State) (now : Nat) (random : Nat → UInt32) : Option Nat :=
  s.raidList.find? fun r =>
    s.lastRaidEnd + (s.raid r).margin.toNat ≤ now ∧
      random r ≤ MAX_RAND_RANGE * CHECK_RAIDS_INTERVAL / (s.raid r).interval

def checkRaids (s : State) (now : Nat) (random : Nat → UInt32) : State :=
  let s :=
    match s.running with
    | some _ => s
    | none =>
        match s.chosen now random with
        | none => s
        | some r =>
            let s := { s with running := some r }.startRaid r
            if (s.raid r).repeat then s else { s with raidList := s.raidList.erase r }
  s.addCheckRaids

def clear (s : State) : State :=
  let s := s.raidList.foldl stopEvents { s.stopEvent s.checkRaidsEvent with checkRaidsEvent := 0 }
  { s with
    raidList := []
    loaded := false
    started := false
    running := none
    lastRaidEnd := 0
    cleared := s.allocated }

def reload (s : State) (file : Option (List RaidNode)) : State := s.clear.loadFromXml file

def getRaidByName (s : State) (name : String) : Option Nat :=
  s.raidList.find? fun r => (s.raid r).name.toLower = name.toLower

/-- `Game.startRaid` of the scripts -/
def luaGameStartRaid (s : State) (name : String) : State :=
  match s.getRaidByName name, s.running with
  | some r, none => { s with running := some r }.startRaid r
  | _, _ => s

/-- The event that the dispatcher runs next, if it has one with this id. -/
def dueEvent (s : State) (eventId : Nat) : Option Event :=
  s.events.find? fun event => event.eventId = eventId ∧ event.due

inductive Action where
  | loadFromXml (file : Option (List RaidNode))
  | startup (now : Nat)
  | clear
  | reload (file : Option (List RaidNode))
  | startRaid (name : String)
  /-- The time of an event has come. -/
  | expire (eventId : Nat)
  /-- The dispatcher runs an event that is due. -/
  | execute (eventId : Nat) (now : Nat) (random : Nat → UInt32) (success : Bool)

def step (s : State) : Action → State
  | .loadFromXml file => s.loadFromXml file
  | .startup now => s.startup now
  | .clear => s.clear
  | .reload file => s.reload file
  | .startRaid name => s.luaGameStartRaid name
  | .expire eventId =>
      { s with events := s.events.map fun event =>
          if event.eventId = eventId then { event with due := true } else event }
  | .execute eventId now random success =>
      match s.dueEvent eventId with
      | none => s
      | some event =>
          let s := { s with events := s.events.erase event }
          match event.task with
          | .checkRaids => s.checkRaids now random
          | .executeRaidEvent r raidEvent => s.executeRaidEvent r raidEvent now success

end State

/-! ## What is to hold -/

/-- The raid an event belongs to. -/
def Event.raid? (event : Event) : Option Nat :=
  match event.task with
  | .checkRaids => none
  | .executeRaidEvent r _ => some r

namespace State

/-- The raids that have an event pending. -/
def pending (s : State) : List Nat := s.events.filterMap Event.raid?

/-- At most one raid executes; it is the one that `running` points to and the only one that has an
event, and it was loaded after the last `clear`. -/
structure Good (s : State) : Prop where
  pending : s.pending = s.running.toList
  executing : ∀ r, s.cleared ≤ r → r < s.allocated →
    ((s.raid r).state = .executing ↔ s.running = some r)
  current : ∀ r, s.running = some r → s.cleared ≤ r

/-- A raid that starts has an event. -/
def Begins (s : State) (r : Nat) : Prop := s.running = none → (s.raid r).raidEvents ≠ []

/-- The raid that runs is in the list, and its event waits for its time. -/
def Stoppable (s : State) : Prop :=
  ∀ r, s.running = some r →
    r ∈ s.raidList ∧ ∀ event ∈ s.events, event.raid? = some r → event.due = false

/-- The actions the source means to be taken. -/
def Proper (s : State) : Action → Prop
  | .clear => s.Stoppable
  | .reload _ => s.Stoppable
  | .startRaid name => ∀ r, s.getRaidByName name = some r → s.Begins r
  | .execute eventId now random _ =>
      ∀ event, s.dueEvent eventId = some event → event.task = .checkRaids →
        ∀ r, s.chosen now random = some r → s.Begins r
  | _ => True

variable {s : State}

/-! ## The fields that a step changes -/

@[simp] theorem setRaid_self (r : Nat) (raid : Raid) : (s.setRaid r raid).raid r = raid :=
  Function.update_self _ _ _

theorem setRaid_of_ne {r r' : Nat} (hne : r' ≠ r) (raid : Raid) :
    (s.setRaid r raid).raid r' = s.raid r' :=
  Function.update_of_ne hne _ _

theorem pending_addEvent (delay : UInt32) (task : Task) :
    (s.addEvent delay task).pending =
      s.pending ++ (Event.raid? ⟨s.lastEventId + 1, delay, task, false⟩).toList := by
  rw [pending, addEvent, List.filterMap_append]
  cases hraid : Event.raid? ⟨s.lastEventId + 1, delay, task, false⟩ <;> simp [hraid, pending]

/-- What does not concern the events. -/
structure Frame (s : State) : Prop where
  executing : ∀ r, s.cleared ≤ r → r < s.allocated →
    ((s.raid r).state = .executing ↔ s.running = some r)
  runs : ∀ r, s.running = some r → s.cleared ≤ r ∧ r < s.allocated
  listed : ∀ r ∈ s.raidList, s.cleared ≤ r ∧ r < s.allocated
  first : ∀ r ∈ s.raidList, s.running ≠ some r → (s.raid r).nextEvent = 0
  cleared : s.cleared ≤ s.allocated

/-- The event of the raid that runs is the one that the raid knows. -/
structure Inv (s : State) : Prop extends Frame s where
  pending : s.pending = s.running.toList
  kept : ∀ event ∈ s.events, ∀ r, event.raid? = some r →
    event.eventId = (s.raid r).nextEventEvent ∧ event.eventId ≠ 0

namespace Frame

/-- The raid that runs keeps its state. -/
theorem setRaid (h : Frame s) {r : Nat} (hr : s.running = some r) (raid : Raid)
    (hstate : raid.state = (s.raid r).state) : Frame (s.setRaid r raid) where
  executing r' hle hlt := by
    rcases eq_or_ne r' r with rfl | hne
    · rw [setRaid_self, hstate]
      exact h.executing r' hle hlt
    · rw [setRaid_of_ne hne]
      exact h.executing r' hle hlt
  runs := h.runs
  listed := h.listed
  first r' hmem hne := by
    have hne' : r' ≠ r := fun heq => hne (heq ▸ hr)
    rw [setRaid_of_ne hne']
    exact h.first r' hmem hne
  cleared := h.cleared

/-- A raid of the list starts to run. -/
theorem start (h : Frame s) (hnone : s.running = none) {r : Nat} (hmem : r ∈ s.raidList)
    {raid : Raid} (hstate : raid.state = .executing) :
    Frame ({ s with running := some r }.setRaid r raid) where
  executing r' hle hlt := by
    rcases eq_or_ne r' r with rfl | hne
    · rw [setRaid_self, hstate]
      exact iff_of_true rfl rfl
    · have hidle := h.executing r' hle hlt
      rw [hnone] at hidle
      rw [setRaid_of_ne hne]
      exact hidle.trans (iff_of_false (by simp) (fun heq => hne (Option.some.inj heq).symm))
  runs r' heq := Option.some.inj heq ▸ h.listed r hmem
  listed := h.listed
  first r' hmem' hne := by
    have hne' : r' ≠ r := fun heq => hne (congrArg some heq.symm)
    rw [setRaid_of_ne hne']
    exact h.first r' hmem' (by simp [hnone])
  cleared := h.cleared

/-- The raid that runs gets an event, when none is pending. -/
theorem addRaidEvent (h : Frame s) (hnone : s.pending = []) {r : Nat} (hr : s.running = some r)
    (ticks : UInt32) (raidEvent : RaidEvent) : Inv (s.addRaidEvent r ticks raidEvent) := by
  have hframe : Frame (s.addRaidEvent r ticks raidEvent) :=
    Frame.setRaid (s := s.addEvent ticks (.executeRaidEvent r raidEvent))
      ⟨h.executing, h.runs, h.listed, h.first, h.cleared⟩ hr _ rfl
  refine ⟨hframe, ?_, fun event hmem r' hr' => ?_⟩
  · have hadd := pending_addEvent (s := s) ticks (.executeRaidEvent r raidEvent)
    rw [hnone] at hadd
    have hrun : (s.addRaidEvent r ticks raidEvent).running.toList = [r] := by
      rw [State.addRaidEvent]
      exact congrArg Option.toList hr
    rw [hrun]
    exact hadd
  · rcases List.mem_append.mp hmem with hmem | hmem
    · have hpending : r' ∈ s.pending := List.mem_filterMap.mpr ⟨event, hmem, hr'⟩
      rw [hnone] at hpending
      cases hpending
    · rw [List.mem_singleton.mp hmem] at hr' ⊢
      obtain rfl : r = r' := Option.some.inj hr'
      rw [State.addRaidEvent, setRaid_self]
      exact ⟨rfl, Nat.succ_ne_zero _⟩

theorem resetRaid (h : Frame s) (hnone : s.pending = []) {r : Nat} (hr : s.running = some r)
    (now : Nat) : Inv (s.resetRaid r now) := by
  have hother : ∀ r', r' ≠ r → s.running ≠ some r' :=
    fun r' hne heq => hne (Option.some.inj (heq.symm.trans hr))
  refine ⟨⟨fun r' hle hlt => ?_, fun r' heq => ?_, h.listed, fun r' hmem _ => ?_, h.cleared⟩,
    hnone, fun event hmem r' hr' => ?_⟩
  · refine iff_of_false ?_ (by rintro ⟨⟩)
    rcases eq_or_ne r' r with rfl | hne
    · rw [State.resetRaid]
      dsimp only
      rw [setRaid_self]
      rintro ⟨⟩
    · rw [State.resetRaid]
      dsimp only
      rw [setRaid_of_ne hne, h.executing r' hle hlt]
      exact hother r' hne
  · cases heq
  · rcases eq_or_ne r' r with rfl | hne
    · rw [State.resetRaid]
      dsimp only
      rw [setRaid_self]
    · rw [State.resetRaid]
      dsimp only
      rw [setRaid_of_ne hne]
      exact h.first r' hmem (hother r' hne)
  · have hpending : r' ∈ s.pending := List.mem_filterMap.mpr ⟨event, hmem, hr'⟩
    rw [hnone] at hpending
    cases hpending

theorem executeRaidEvent (h : Frame s) (hnone : s.pending = []) {r : Nat}
    (hr : s.running = some r) (raidEvent : RaidEvent) (now : Nat) (success : Bool) :
    Inv (s.executeRaidEvent r raidEvent now success) := by
  rw [State.executeRaidEvent]
  split
  · have hnext := h.setRaid hr { s.raid r with nextEvent := (s.raid r).nextEvent + 1 } rfl
    dsimp only
    split
    · exact hnext.addRaidEvent hnone hr _ _
    · exact hnext.resetRaid hnone hr now
  · exact h.resetRaid hnone hr now

end Frame

namespace Inv

theorem init : Inv init where
  pending := rfl
  executing _ _ hlt := absurd hlt (Nat.not_lt_zero _)
  runs _ h := by cases h
  listed _ h := by cases h
  first _ h := by cases h
  kept _ h := by cases h
  cleared := le_rfl

theorem good (h : Inv s) : Good s := ⟨h.pending, h.executing, fun r hr => (h.runs r hr).1⟩

/-- A raid that has an event is the one that runs. -/
theorem running (h : Inv s) {event : Event} (hmem : event ∈ s.events) {r : Nat}
    (hr : event.raid? = some r) : s.running = some r := by
  have hpending : r ∈ s.pending := List.mem_filterMap.mpr ⟨event, hmem, hr⟩
  rw [h.pending, Option.mem_toList] at hpending
  exact hpending

theorem addCheckRaids (h : Inv s) : Inv s.addCheckRaids where
  pending := (pending_addEvent _ _).trans ((List.append_nil _).trans h.pending)
  executing := h.executing
  runs := h.runs
  listed := h.listed
  first := h.first
  kept event hmem r hr := by
    rcases List.mem_append.mp hmem with hmem | hmem
    · exact h.kept event hmem r hr
    · rw [List.mem_singleton.mp hmem] at hr
      cases hr
  cleared := h.cleared

/-- A raid of the list starts, which has an event. -/
theorem startRaid (h : Inv s) (hnone : s.running = none) {r : Nat} (hmem : r ∈ s.raidList)
    (hevents : (s.raid r).raidEvents ≠ []) : Inv ({ s with running := some r }.startRaid r) := by
  have hfirst := h.first r hmem (by simp [hnone])
  have hpending : s.pending = [] := by rw [h.pending, hnone]; rfl
  rw [State.startRaid]
  split
  · next hno =>
      have hget : (s.raid r).raidEvents[(s.raid r).nextEvent]? = none := hno
      rw [hfirst, List.getElem?_eq_none_iff, Nat.le_zero, List.length_eq_zero_iff] at hget
      exact absurd hget hevents
  · exact (h.toFrame.start hnone hmem rfl).addRaidEvent hpending rfl _ _

theorem erase (h : Inv s) (r : Nat) : Inv { s with raidList := s.raidList.erase r } where
  pending := h.pending
  executing := h.executing
  runs := h.runs
  listed r' hmem := h.listed r' (List.mem_of_mem_erase hmem)
  first r' hmem := h.first r' (List.mem_of_mem_erase hmem)
  kept := h.kept
  cleared := h.cleared

theorem checkRaids (h : Inv s) (now : Nat) (random : Nat → UInt32)
    (hbegins : ∀ r, s.chosen now random = some r → s.Begins r) :
    Inv (s.checkRaids now random) := by
  rw [State.checkRaids]
  refine addCheckRaids ?_
  split
  · exact h
  · next hnone =>
      split
      · exact h
      · next r hchosen =>
          have hstart := h.startRaid hnone (List.mem_of_find?_eq_some hchosen)
            (hbegins r hchosen hnone)
          dsimp only
          split
          · exact hstart
          · exact hstart.erase r

theorem luaGameStartRaid (h : Inv s) (name : String)
    (hbegins : ∀ r, s.getRaidByName name = some r → s.Begins r) :
    Inv (s.luaGameStartRaid name) := by
  rw [State.luaGameStartRaid]
  split
  · next r hfound hnone =>
      exact h.startRaid hnone (List.mem_of_find?_eq_some hfound) (hbegins r hfound hnone)
  · exact h

theorem addRaid (h : Inv s) (node : RaidNode) : Inv (s.addRaid node) := by
  rw [State.addRaid]
  split
  case h_2 => exact h
  case h_1 name delays _ _ =>
    split
    · exact h
    · -- The address is new, so no raid that is known changes.
      have hne : ∀ r, r < s.allocated → r ≠ s.allocated := fun r hlt => Nat.ne_of_lt hlt
      have hruns : ∀ r, s.running = some r → r ≠ s.allocated :=
        fun r hr => hne r (h.runs r hr).2
      refine ⟨⟨fun r hle hlt => ?_, fun r hr => ?_, fun r hmem => ?_, fun r hmem hnot => ?_, ?_⟩,
        h.pending, fun event hmem r hr => ?_⟩
      · rcases Nat.lt_succ_iff_lt_or_eq.mp hlt with hlt | rfl
        · exact (iff_of_eq (by rw [setRaid_of_ne (hne r hlt)])).trans (h.executing r hle hlt)
        · refine iff_of_false ?_ (fun hr => hruns _ hr rfl)
          rw [setRaid_self]
          rintro ⟨⟩
      · obtain ⟨hle, hlt⟩ := h.runs r hr
        exact ⟨hle, Nat.lt_succ_of_lt hlt⟩
      · rcases List.mem_append.mp hmem with hmem | hmem
        · obtain ⟨hle, hlt⟩ := h.listed r hmem
          exact ⟨hle, Nat.lt_succ_of_lt hlt⟩
        · rw [List.mem_singleton.mp hmem]
          exact ⟨h.cleared, Nat.lt_succ_self _⟩
      · rcases List.mem_append.mp hmem with hmem | hmem
        · dsimp only
          rw [setRaid_of_ne (hne r (h.listed r hmem).2)]
          exact h.first r hmem hnot
        · rw [List.mem_singleton.mp hmem]
          dsimp only
          rw [setRaid_self]
          rfl
      · exact Nat.le_succ_of_le h.cleared
      · dsimp only
        rw [setRaid_of_ne (hruns r (h.running hmem hr))]
        exact h.kept event hmem r hr

theorem addRaids (h : Inv s) (nodes : List RaidNode) : Inv (nodes.foldl State.addRaid s) := by
  induction nodes generalizing s with
  | nil => exact h
  | cons node nodes ih => exact ih (h.addRaid node)

theorem loadFromXml (h : Inv s) (file : Option (List RaidNode)) : Inv (s.loadFromXml file) := by
  unfold State.loadFromXml
  split
  · exact h
  · cases file with
    | none => exact h
    | some nodes =>
        have hfold := h.addRaids nodes
        exact ⟨⟨hfold.executing, hfold.runs, hfold.listed, hfold.first, hfold.cleared⟩,
          hfold.pending, hfold.kept⟩

theorem startup (h : Inv s) (now : Nat) : Inv (s.startup now) := by
  rw [State.startup]
  split
  · exact h
  · have hend : Inv { s with lastRaidEnd := now } :=
      ⟨⟨h.executing, h.runs, h.listed, h.first, h.cleared⟩, h.pending, h.kept⟩
    have hcheck := hend.addCheckRaids
    exact ⟨⟨hcheck.executing, hcheck.runs, hcheck.listed, hcheck.first, hcheck.cleared⟩,
      hcheck.pending, hcheck.kept⟩

theorem expire (h : Inv s) (eventId : Nat) : Inv (s.step (.expire eventId)) := by
  refine ⟨⟨h.executing, h.runs, h.listed, h.first, h.cleared⟩, ?_, fun event hmem r hr => ?_⟩
  · refine Eq.trans ?_ h.pending
    rw [State.pending, State.step, List.filterMap_map]
    refine List.filterMap_congr fun event _ => ?_
    rw [Function.comp_apply]
    split <;> rfl
  · obtain ⟨event, hmem', rfl⟩ := List.mem_map.mp hmem
    have hkept := h.kept event hmem' r
    split at hr <;> split <;> exact hkept hr

/-- `stopEvents` takes the event of each raid away that is not due. -/
theorem mem_stopEvents (raids : List Nat) {event : Event}
    (hmem : event ∈ (raids.foldl State.stopEvents s).events) :
    event ∈ s.events ∧ ∀ r ∈ raids, (s.raid r).nextEventEvent ≠ 0 →
      event.eventId = (s.raid r).nextEventEvent → event.due = true := by
  induction raids generalizing s with
  | nil => exact ⟨hmem, fun r hr => by cases hr⟩
  | cons first raids ih =>
      obtain ⟨hstopped, hrest⟩ := ih hmem
      rw [stopEvents] at hstopped hrest
      split at hstopped
      · next hne =>
          rw [if_pos hne] at hrest
          obtain ⟨hevents, hdue⟩ := List.mem_filter.mp hstopped
          have hfirst : event.eventId = (s.raid first).nextEventEvent → event.due = true := by
            intro heq
            exact (of_decide_eq_true hdue).resolve_left (fun hneq => hneq heq)
          refine ⟨hevents, fun r hr hne' heq => ?_⟩
          rcases eq_or_ne r first with rfl | hother
          · exact hfirst heq
          · have hr' := (List.mem_cons.mp hr).resolve_left hother
            have hsame := hrest r hr'
            rw [setRaid_of_ne hother] at hsame
            exact hsame hne' heq
      · next hzero =>
          rw [if_neg hzero] at hrest
          refine ⟨hstopped, fun r hr hne' heq => ?_⟩
          rcases List.mem_cons.mp hr with rfl | hr
          · exact absurd hne' hzero
          · exact hrest r hr hne' heq

theorem clear (h : Inv s) (hstop : s.Stoppable) : Inv s.clear := by
  have hnone : s.clear.pending = [] := by
    refine List.filterMap_eq_nil_iff.mpr fun event hmem => ?_
    by_contra hsome
    obtain ⟨r, hr⟩ := Option.ne_none_iff_exists'.mp hsome
    obtain ⟨hstopped, hraids⟩ := mem_stopEvents s.raidList hmem
    have hevents : event ∈ s.events := List.mem_of_mem_filter hstopped
    obtain ⟨hlisted, hwaits⟩ := hstop r (h.running hevents hr)
    obtain ⟨hid, hne⟩ := h.kept event hevents r hr
    have hdue : event.due = true := hraids r hlisted (hid ▸ hne) hid
    rw [hwaits event hevents hr] at hdue
    cases hdue
  refine ⟨⟨fun r hle hlt => ?_, fun r hr => ?_, fun r hmem => ?_, fun r hmem => ?_, Nat.le_refl _⟩, hnone,
    fun event hmem r hr => ?_⟩
  · exact absurd hlt (Nat.not_lt.mpr hle)
  · cases hr
  · cases hmem
  · cases hmem
  · have hpending : r ∈ s.clear.pending := List.mem_filterMap.mpr ⟨event, hmem, hr⟩
    rw [hnone] at hpending
    cases hpending

theorem run_checkRaids (h : Inv s) {event : Event} (hmem : event ∈ s.events)
    (hnone : event.raid? = none) : Inv { s with events := s.events.erase event } := by
  refine ⟨⟨h.executing, h.runs, h.listed, h.first, h.cleared⟩, ?_,
    fun other hother => h.kept other (List.mem_of_mem_erase hother)⟩
  refine Eq.trans ?_ h.pending
  obtain ⟨before, behind, _, hevents, herase⟩ := List.exists_erase_eq hmem
  simp only [State.pending]
  rw [herase, hevents, List.filterMap_append, List.filterMap_append,
    List.filterMap_cons_none hnone]

/-- The event of a raid that is run is the only one that was pending. -/
theorem run_raidEvent (h : Inv s) {event : Event} (hmem : event ∈ s.events) {r : Nat}
    (hr : event.raid? = some r) :
    State.pending { s with events := s.events.erase event } = [] := by
  obtain ⟨before, behind, _, hevents, herase⟩ := List.exists_erase_eq hmem
  have hpending := h.pending
  rw [h.running hmem hr, State.pending, hevents, List.filterMap_append,
    List.filterMap_cons_some hr, Option.toList_some] at hpending
  have hlength := congrArg List.length hpending
  rw [List.length_append, List.length_cons, List.length_singleton] at hlength
  have hbefore : before.filterMap Event.raid? = [] := List.eq_nil_of_length_eq_zero (by omega)
  have hbehind : behind.filterMap Event.raid? = [] := List.eq_nil_of_length_eq_zero (by omega)
  simp only [State.pending]
  rw [herase, List.filterMap_append, hbefore, hbehind, List.append_nil]

theorem execute (h : Inv s) (eventId now : Nat) (random : Nat → UInt32) (success : Bool)
    (hin : s.Proper (.execute eventId now random success)) :
    Inv (s.step (.execute eventId now random success)) := by
  rw [State.step]
  split
  · exact h
  · next event hdue =>
      have hmem : event ∈ s.events := List.mem_of_find?_eq_some hdue
      dsimp only
      split
      · next htask =>
          have hnone : event.raid? = none := by rw [Event.raid?, htask]
          exact (h.run_checkRaids hmem hnone).checkRaids now random (hin event hdue htask)
      · next r raidEvent htask =>
          have hr : event.raid? = some r := by rw [Event.raid?, htask]
          have hframe : Frame { s with events := s.events.erase event } :=
            ⟨h.executing, h.runs, h.listed, h.first, h.cleared⟩
          exact hframe.executeRaidEvent (h.run_raidEvent hmem hr) (h.running hmem hr) raidEvent now
            success

theorem step (h : Inv s) (action : Action) (hin : s.Proper action) : Inv (s.step action) := by
  cases action with
  | loadFromXml file => exact h.loadFromXml file
  | startup now => exact h.startup now
  | clear => exact h.clear hin
  | reload file => exact (h.clear hin).loadFromXml file
  | startRaid name => exact h.luaGameStartRaid name hin
  | expire eventId => exact h.expire eventId
  | execute eventId now random success => exact h.execute eventId now random success hin

end Inv

/-! ## Raids over runs -/

/-- Where raids that start have events, and none is cleared that cannot be stopped, every run keeps
`running`, the raid that executes and its event together. -/
theorem raids_good_throughout (actions : List Action) (hin : Throughout step Proper init actions) :
    Throughout step (fun s action => Good (s.step action)) init actions := by
  have hstep : ∀ (s : State) (action : Action), Inv s → s.Proper action → Inv (s.step action) :=
    fun s action h hc => h.step action hc
  exact throughout_of_inv hstep (fun s action h hc => (h.step action hc).good) Inv.init hin

/-- A raid of one event, which is repeated. -/
def rat : RaidNode := ⟨some "rat", 1, none, true, some [1000]⟩

/-- The raid starts and ends, and then all are loaded again. -/
theorem good_throughout_rat :
    Throughout step (fun s action => Good (s.step action)) init
      [.loadFromXml (some [rat]), .startup 0, .expire 1, .execute 1 0 (fun _ => 0) true,
        .expire 2, .execute 2 5 (fun _ => 0) true, .reload (some [rat])] := by
  have hfirst : (run step init [.loadFromXml (some [rat]), .startup 0, .expire 1]).Proper
      (.execute 1 0 (fun _ => 0) true) := by
    rintro event - - r hr -
    obtain rfl : 0 = r := Option.some.inj hr
    exact List.cons_ne_nil _ _
  have hsecond : (run step init [.loadFromXml (some [rat]), .startup 0, .expire 1,
      .execute 1 0 (fun _ => 0) true, .expire 2]).Proper (.execute 2 5 (fun _ => 0) true) := by
    intro event hdue htask
    obtain rfl : ⟨2, 1000, .executeRaidEvent 0 ⟨1000⟩, true⟩ = event := Option.some.inj hdue
    cases htask
  have hreload : (run step init [.loadFromXml (some [rat]), .startup 0, .expire 1,
      .execute 1 0 (fun _ => 0) true, .expire 2, .execute 2 5 (fun _ => 0) true]).Proper
      (.reload (some [rat])) := by
    rintro r ⟨⟩
  refine raids_good_throughout _ ?_
  repeat' refine throughout_cons.mpr ⟨?_, ?_⟩
  all_goals first | exact trivial | exact throughout_nil | skip
  · exact hfirst
  · exact hsecond
  · exact hreload

/-- The raid is not repeated: `clear` does not find it. -/
theorem raid_outlives_clear :
    ¬ ∀ actions : List Action,
      Throughout step (fun s action => Good (s.step action)) init actions := by
  intro hall
  have hgood := hall [.loadFromXml (some [⟨some "orc", 1, none, false, some [1000, 2000]⟩]),
      .startup 0, .expire 1, .execute 1 0 (fun _ => 0) true, .clear]
    [.loadFromXml (some [⟨some "orc", 1, none, false, some [1000, 2000]⟩]),
      .startup 0, .expire 1, .execute 1 0 (fun _ => 0) true] .clear [] rfl
  have hpending : [0] = [] := hgood.pending
  cases hpending

end State

end Bruxo.Raids
