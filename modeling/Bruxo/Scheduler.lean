import Bruxo.Lib.Runs
import Mathlib.Logic.Function.Basic
import Mathlib.Data.List.Count
import Mathlib.Data.List.Nodup

/-!
# Events of the scheduler

`Scheduler::addEvent` and `stopEvent` (`scheduler.cpp`) only post a handler to the thread of the
scheduler, which sets or cancels a timer; a timer that expires hands the task to the dispatcher
(`tasks.cpp`), whose thread runs it. So a request to stop an event follows it through two queues.

No event is lost or run twice. One that was stopped is dead if the request overtakes nothing: it
came before the timer expired, and no timer expires while it is on its way.
-/

namespace Bruxo.Scheduler

open Runs

/-- `number` tells the tasks apart. -/
structure SchedulerTask where
  eventId : UInt32
  number : Nat
  deriving DecidableEq

/-- The entry of `eventIdTimerMap` for an id. A timer that has expired or was cancelled has nothing
that waits for it, but stays in the map until its handler is run. -/
inductive Timer where
  | absent
  | idle
  | waiting (task : SchedulerTask)
  deriving DecidableEq

/-- What is posted to `io_context`. -/
inductive Handler where
  /-- Of `addEvent`. -/
  | insert (task : SchedulerTask)
  /-- Of `stopEvent`. -/
  | cancel (eventId : UInt32)
  /-- Of `async_wait`. -/
  | done (task : SchedulerTask) (aborted : Bool)
  deriving DecidableEq

structure State where
  lastEventId : UInt32
  posted : List Handler
  timers : UInt32 → Timer
  taskList : List SchedulerTask
  /-- What the dispatcher has swapped out of `taskList`. -/
  tmpTaskList : List SchedulerTask
  executed : List SchedulerTask
  deleted : List SchedulerTask
  added : List SchedulerTask
  /-- The events for which `stopEvent` was called before they began to run. -/
  stopped : List SchedulerTask

namespace Timer

/-- A timer that is cancelled, set anew or destroyed posts the handler that waits for it. -/
def abort : Timer → List Handler
  | waiting task => [.done task true]
  | _ => []

def cancel : Timer → Timer
  | absent => absent
  | _ => idle

end Timer

namespace State

def init : State where
  lastEventId := 0
  posted := []
  timers _ := .absent
  taskList := []
  tmpTaskList := []
  executed := []
  deleted := []
  added := []
  stopped := []

def addEvent (s : State) : State :=
  let task := ⟨s.lastEventId + 1, s.added.length⟩
  { s with
    lastEventId := s.lastEventId + 1
    posted := s.posted ++ [.insert task]
    added := s.added ++ [task] }

def stopEvent (s : State) (eventId : UInt32) : State :=
  let s := { s with
    stopped := s.stopped ++
      s.added.filter fun task => task.eventId = eventId ∧ task ∉ s.executed }
  if eventId = 0 then s else { s with posted := s.posted ++ [.cancel eventId] }

/-- The thread of the scheduler runs a handler. -/
def handle (s : State) : Handler → State
  | .insert task =>
      { s with
        posted := s.posted ++ (s.timers task.eventId).abort
        timers := Function.update s.timers task.eventId (.waiting task) }
  | .cancel eventId =>
      { s with
        posted := s.posted ++ (s.timers eventId).abort
        timers := Function.update s.timers eventId (s.timers eventId).cancel }
  | .done task aborted =>
      let s := { s with
        posted := s.posted ++ (s.timers task.eventId).abort
        timers := Function.update s.timers task.eventId .absent }
      if aborted then { s with deleted := s.deleted ++ [task] }
      else { s with taskList := s.taskList ++ [task] }

inductive Action where
  | addEvent
  | stopEvent (eventId : UInt32)
  /-- The next handler. -/
  | handle
  /-- The time of a timer has come. -/
  | expire (eventId : UInt32)
  /-- The dispatcher takes what is in its queue. -/
  | swap
  /-- The dispatcher runs the next task of those that it took. -/
  | execute

def step (s : State) : Action → State
  | .addEvent => s.addEvent
  | .stopEvent eventId => s.stopEvent eventId
  | .handle =>
      match s.posted with
      | [] => s
      | handler :: posted => { s with posted := posted }.handle handler
  | .expire eventId =>
      match s.timers eventId with
      | .waiting task =>
          { s with
            posted := s.posted ++ [.done task false]
            timers := Function.update s.timers eventId .idle }
      | _ => s
  | .swap =>
      match s.tmpTaskList with
      | [] => { s with tmpTaskList := s.taskList, taskList := [] }
      | _ => s
  | .execute =>
      match s.tmpTaskList with
      | [] => s
      | task :: tasks => { s with tmpTaskList := tasks, executed := s.executed ++ [task] }

/-! ## What is to hold -/

/-- The task is on its way to the dispatcher, or in its queue. -/
def Pending (s : State) (task : SchedulerTask) : Prop :=
  .insert task ∈ s.posted ∨ s.timers task.eventId = .waiting task ∨
    .done task false ∈ s.posted ∨ task ∈ s.taskList ∨ task ∈ s.tmpTaskList

/-- No event that was stopped is executed; every other one is, once, or is on its way. -/
structure Good (s : State) : Prop where
  dead : ∀ task ∈ s.stopped, task ∉ s.executed
  once : s.executed.Nodup
  kept : ∀ task ∈ s.added, task ∉ s.stopped → (s.Pending task ↔ task ∉ s.executed)

/-- The timer has expired and the task has not begun to run. -/
def Expired (s : State) (task : SchedulerTask) : Prop :=
  .done task false ∈ s.posted ∨ task ∈ s.taskList ∨ task ∈ s.tmpTaskList

/-- A new id is free. An event is stopped by an id that is not zero, before its timer expires; and
no timer expires while the request to stop it is on its way. -/
def InTime (s : State) : Action → Prop
  | .addEvent =>
      s.timers (s.lastEventId + 1) = .absent ∧
        ∀ task, task.eventId = s.lastEventId + 1 →
          .insert task ∉ s.posted ∧ ∀ aborted, .done task aborted ∉ s.posted
  | .stopEvent eventId =>
      ∀ task ∈ s.added, task.eventId = eventId → task ∉ s.executed →
        eventId ≠ 0 ∧ ¬ s.Expired task
  | .expire eventId => .cancel eventId ∉ s.posted
  | _ => True

end State

/-! ## Counting -/

namespace Handler

def inserts (eventId : UInt32) : Handler → Bool
  | insert task => task.eventId = eventId
  | _ => false

def dones (eventId : UInt32) : Handler → Bool
  | done task _ => task.eventId = eventId
  | _ => false

end Handler

namespace Timer

/-- Whether the map has an entry. -/
def present : Timer → Nat
  | absent => 0
  | _ => 1

/-- Whether a handler waits for the timer. -/
def waits : Timer → Nat
  | waiting _ => 1
  | _ => 0

def count (task : SchedulerTask) (timer : Timer) : Nat :=
  if timer = waiting task then 1 else 0

@[simp] theorem present_absent : absent.present = 0 := rfl
@[simp] theorem present_idle : idle.present = 1 := rfl
@[simp] theorem present_waiting (task : SchedulerTask) : (waiting task).present = 1 := rfl
@[simp] theorem waits_absent : absent.waits = 0 := rfl
@[simp] theorem waits_idle : idle.waits = 0 := rfl
@[simp] theorem waits_waiting (task : SchedulerTask) : (waiting task).waits = 1 := rfl
@[simp] theorem abort_absent : absent.abort = [] := rfl
@[simp] theorem abort_idle : idle.abort = [] := rfl
@[simp] theorem abort_waiting (task : SchedulerTask) :
    (waiting task).abort = [.done task true] := rfl
@[simp] theorem cancel_absent : absent.cancel = absent := rfl
@[simp] theorem cancel_idle : idle.cancel = idle := rfl
@[simp] theorem cancel_waiting (task : SchedulerTask) : (waiting task).cancel = idle := rfl

variable (task : SchedulerTask)

@[simp] theorem count_absent : absent.count task = 0 := rfl
@[simp] theorem count_idle : idle.count task = 0 := rfl
@[simp] theorem count_waiting (task' : SchedulerTask) :
    (waiting task').count task = if task' = task then 1 else 0 := by
  simp [count]

end Timer

namespace State

variable {s : State}

/-- Where the task is, if it was not cancelled. -/
def places (s : State) (task : SchedulerTask) : Nat :=
  s.posted.count (.insert task) + (s.timers task.eventId).count task +
    s.posted.count (.done task false) + s.taskList.count task + s.tmpTaskList.count task +
      s.executed.count task

def cancelled (s : State) (task : SchedulerTask) : Nat :=
  s.posted.count (.done task true) + s.deleted.count task

/-- A task is in one place, and an id belongs to one event whose timer is there. -/
structure Flow (s : State) : Prop where
  conserved : ∀ task, s.places task + s.cancelled task = s.added.count task
  numbered : ∀ task ∈ s.added, task.number < s.added.length
  nodup : s.added.Nodup
  timer : ∀ eventId, s.posted.countP (Handler.dones eventId) + (s.timers eventId).waits =
    (s.timers eventId).present
  single : ∀ eventId, s.posted.countP (Handler.inserts eventId) + (s.timers eventId).present ≤ 1
  named : ∀ eventId task, s.timers eventId = .waiting task → task.eventId = eventId

/-- Behind the handler that starts an event there is a request to stop it, if it was stopped. -/
def Behind (stopped : List SchedulerTask) : List Handler → Prop
  | [] => True
  | .insert task :: posted =>
      (task ∈ stopped ↔ .cancel task.eventId ∈ posted) ∧ Behind stopped posted
  | _ :: posted => Behind stopped posted

structure Stops (s : State) : Prop where
  spared : ∀ task, task ∉ s.stopped → s.cancelled task = 0
  known : ∀ task ∈ s.stopped, task ∈ s.added
  halted : ∀ task ∈ s.stopped, task ∉ s.executed ∧ ¬ s.Expired task
  requested : ∀ task, s.timers task.eventId = .waiting task →
    (task ∈ s.stopped ↔ .cancel task.eventId ∈ s.posted)
  behind : Behind s.stopped s.posted

theorem Behind.snoc {stopped stopped' : List SchedulerTask} {posted : List Handler}
    {handler : Handler} (h : Behind stopped posted)
    (hstopped : ∀ task, .insert task ∈ posted →
      (task ∈ stopped' ↔ task ∈ stopped ∨ handler = .cancel task.eventId))
    (hlast : ∀ task, handler = .insert task → task ∉ stopped') :
    Behind stopped' (posted ++ [handler]) := by
  induction posted with
  | nil =>
      cases handler with
      | insert task => exact ⟨by simp [hlast task rfl], trivial⟩
      | cancel eventId => trivial
      | done task aborted => trivial
  | cons first posted ih =>
      have hrest : ∀ task, .insert task ∈ posted →
          (task ∈ stopped' ↔ task ∈ stopped ∨ handler = .cancel task.eventId) :=
        fun task hmem => hstopped task (List.mem_cons_of_mem _ hmem)
      cases first with
      | insert task =>
          refine ⟨?_, ih h.2 hrest⟩
          have hmem : .cancel task.eventId ∈ posted ++ [handler] ↔
              .cancel task.eventId ∈ posted ∨ handler = .cancel task.eventId := by
            rw [List.mem_append, List.mem_singleton, eq_comm (b := handler)]
          exact (hstopped task List.mem_cons_self).trans ((or_congr_left h.1).trans hmem.symm)
      | cancel eventId => exact ih h hrest
      | done task aborted => exact ih h hrest

theorem Behind.append_abort {stopped : List SchedulerTask} {posted : List Handler}
    (h : Behind stopped posted) (timer : Timer) : Behind stopped (posted ++ timer.abort) := by
  cases timer with
  | absent => rwa [Timer.abort_absent, List.append_nil]
  | idle => rwa [Timer.abort_idle, List.append_nil]
  | waiting task =>
      exact h.snoc (fun task' _ => by simp) (by rintro task' ⟨⟩)

theorem Behind.tail {stopped : List SchedulerTask} {handler : Handler} {posted : List Handler}
    (h : Behind stopped (handler :: posted)) : Behind stopped posted := by
  cases handler with
  | insert task => exact h.2
  | cancel eventId => exact h
  | done task aborted => exact h

namespace Flow

theorem init : Flow init where
  conserved _ := rfl
  numbered _ h := by cases h
  nodup := .nil
  timer _ := rfl
  single _ := Nat.zero_le 1
  named _ _ h := by cases h

/-- The task of the next event is new. -/
theorem fresh (h : Flow s) (eventId : UInt32) : ⟨eventId, s.added.length⟩ ∉ s.added :=
  fun hmem => Nat.lt_irrefl _ (h.numbered _ hmem)

/-- A task that is somewhere was added, and is nowhere else. -/
theorem count_added (h : Flow s) (task : SchedulerTask) :
    s.places task + s.cancelled task = if task ∈ s.added then 1 else 0 := by
  rw [h.conserved task]
  split
  · next hmem => exact List.count_eq_one_of_mem h.nodup hmem
  · next hmem => exact List.count_eq_zero.mpr hmem

theorem addEvent (h : Flow s) (hfree : s.InTime .addEvent) : Flow s.addEvent := by
  obtain ⟨habsent, hposted⟩ := hfree
  have hfresh := h.fresh (s.lastEventId + 1)
  rw [State.addEvent]
  refine ⟨fun task => ?_, fun task hmem => ?_, ?_, fun eventId => ?_, fun eventId => ?_, h.named⟩
  · have hconserved := h.conserved task
    simp only [places, cancelled] at hconserved ⊢
    simp only [List.count_append, List.count_singleton]
    simp
    omega
  · rw [List.length_append]
    rcases List.mem_append.mp hmem with hmem | hmem
    · exact Nat.lt_succ_of_lt (h.numbered task hmem)
    · rw [List.mem_singleton.mp hmem]
      exact Nat.lt_succ_self _
  · exact List.nodup_append.mpr ⟨h.nodup, List.nodup_singleton _,
      fun a ha b hb heq => hfresh (by rw [← List.mem_singleton.mp hb, ← heq]; exact ha)⟩
  · have htimer := h.timer eventId
    rw [List.countP_append, List.countP_singleton]
    simp [Handler.dones]
    exact htimer
  · have hsingle := h.single eventId
    rw [List.countP_append, List.countP_singleton]
    by_cases heq : s.lastEventId + 1 = eventId
    · have hnone : s.posted.countP (Handler.inserts eventId) = 0 := by
        rw [List.countP_eq_zero]
        rintro (task | _ | _) hmem hid
        · exact (hposted task ((of_decide_eq_true hid).trans heq.symm)).1 hmem
        · cases hid
        · cases hid
      rw [← heq] at hnone ⊢
      simp [Handler.inserts, hnone, habsent]
    · simp [Handler.inserts, heq]
      exact hsingle

theorem stopEvent (h : Flow s) (eventId : UInt32) : Flow (s.stopEvent eventId) := by
  rw [State.stopEvent]
  dsimp only
  split
  · exact ⟨h.conserved, h.numbered, h.nodup, h.timer, h.single, h.named⟩
  · refine ⟨fun task => ?_, h.numbered, h.nodup, fun eventId' => ?_, fun eventId' => ?_, h.named⟩
    · have hconserved := h.conserved task
      simp only [places, cancelled] at hconserved ⊢
      simp
      omega
    · simpa [List.countP_append, Handler.dones] using h.timer eventId'
    · simpa [List.countP_append, Handler.inserts] using h.single eventId'

/-- An event that is to be started has no timer yet. -/
theorem absent (h : Flow s) {task : SchedulerTask} {posted : List Handler}
    (hposted : s.posted = .insert task :: posted) : s.timers task.eventId = .absent := by
  have hsingle := h.single task.eventId
  rw [hposted, List.countP_cons_of_pos (by simp [Handler.inserts])] at hsingle
  cases htimer : s.timers task.eventId with
  | absent => rfl
  | idle => rw [htimer, Timer.present_idle] at hsingle; omega
  | waiting task' => rw [htimer, Timer.present_waiting] at hsingle; omega

/-- Where a handler of a timer is to be run nothing waits for the timer. -/
theorem idle (h : Flow s) {task : SchedulerTask} {aborted : Bool} {posted : List Handler}
    (hposted : s.posted = .done task aborted :: posted) : s.timers task.eventId = .idle := by
  have hdone := h.timer task.eventId
  rw [hposted, List.countP_cons_of_pos (by simp [Handler.dones])] at hdone
  cases htimer : s.timers task.eventId with
  | absent => rw [htimer, Timer.present_absent] at hdone; omega
  | idle => rfl
  | waiting task' => rw [htimer, Timer.present_waiting, Timer.waits_waiting] at hdone; omega

/-- A step of one timer. -/
theorem retime (h : Flow s) {s' : State} {eventId : UInt32} {timer : Timer}
    (hadded : s'.added = s.added) (htimers : s'.timers = Function.update s.timers eventId timer)
    (hconserved : ∀ task, s'.places task + s'.cancelled task = s.places task + s.cancelled task)
    (hothers : ∀ other, other ≠ eventId →
      s'.posted.countP (Handler.dones other) = s.posted.countP (Handler.dones other) ∧
        s'.posted.countP (Handler.inserts other) = s.posted.countP (Handler.inserts other))
    (htimer : s'.posted.countP (Handler.dones eventId) + timer.waits = timer.present)
    (hsingle : s'.posted.countP (Handler.inserts eventId) + timer.present ≤ 1)
    (hnamed : ∀ task, timer = .waiting task → task.eventId = eventId) : Flow s' := by
  refine ⟨fun task => ?_, ?_, ?_, fun other => ?_, fun other => ?_, fun other task heq => ?_⟩
  · rw [hconserved, hadded]
    exact h.conserved task
  · rw [hadded]
    exact h.numbered
  · rw [hadded]
    exact h.nodup
  · rw [htimers]
    rcases eq_or_ne other eventId with rfl | hne
    · rw [Function.update_self]
      exact htimer
    · rw [Function.update_of_ne hne, (hothers other hne).1]
      exact h.timer other
  · rw [htimers]
    rcases eq_or_ne other eventId with rfl | hne
    · rw [Function.update_self]
      exact hsingle
    · rw [Function.update_of_ne hne, (hothers other hne).2]
      exact h.single other
  · rw [htimers] at heq
    rcases eq_or_ne other eventId with rfl | hne
    · rw [Function.update_self] at heq
      exact hnamed task heq
    · rw [Function.update_of_ne hne] at heq
      exact h.named other task heq

theorem handle_insert (h : Flow s) {task : SchedulerTask} {posted : List Handler}
    (hposted : s.posted = .insert task :: posted) :
    Flow ({ s with posted := posted }.handle (.insert task)) := by
  have habsent := h.absent hposted
  have htimer := h.timer task.eventId
  have hsingle := h.single task.eventId
  rw [handle]
  dsimp only
  rw [habsent, Timer.abort_absent, List.append_nil]
  rw [hposted, List.countP_cons_of_neg (by simp [Handler.dones]), habsent] at htimer
  rw [hposted, List.countP_cons_of_pos (by simp [Handler.inserts]), habsent] at hsingle
  refine h.retime rfl rfl (fun task' => ?_) (fun other hne => ?_) ?_ ?_ ?_
  · simp only [places, cancelled, hposted]
    rcases eq_or_ne task'.eventId task.eventId with heq | hne
    · rw [heq, habsent, Function.update_self]
      simp [List.count_cons]
    · have hne' : task ≠ task' := fun heq => hne (by rw [heq])
      rw [Function.update_of_ne hne]
      simp [hne']
  · rw [hposted]
    exact ⟨(List.countP_cons_of_neg (by simp [Handler.dones])).symm,
      (List.countP_cons_of_neg (by simp [Handler.inserts, hne.symm])).symm⟩
  · simpa using htimer
  · simpa using hsingle
  · rintro task' ⟨⟩
    rfl

theorem handle_cancel (h : Flow s) {eventId : UInt32} {posted : List Handler}
    (hposted : s.posted = .cancel eventId :: posted) :
    Flow ({ s with posted := posted }.handle (.cancel eventId)) := by
  have htimer := h.timer eventId
  have hsingle := h.single eventId
  rw [handle]
  dsimp only
  rw [hposted, List.countP_cons_of_neg (by simp [Handler.dones])] at htimer
  rw [hposted, List.countP_cons_of_neg (by simp [Handler.inserts])] at hsingle
  cases hat : s.timers eventId with
  | waiting task =>
      have hid := h.named eventId task hat
      rw [hat] at htimer hsingle
      refine h.retime rfl rfl (fun task' => ?_) (fun other hne => ?_) ?_ ?_ ?_
      · simp only [places, cancelled, hposted]
        rcases eq_or_ne task'.eventId eventId with heq | hne
        · rw [heq, hat, Function.update_self]
          simp [List.count_cons]
          omega
        · have hne' : task ≠ task' := fun heq => hne (by rw [← heq, hid])
          rw [Function.update_of_ne hne]
          simp [hne']
      · simp [hposted, Handler.dones, Handler.inserts, hid, hne.symm]
      · simpa [List.countP_cons, Handler.dones, hid] using htimer
      · simpa [List.countP_cons, Handler.inserts] using hsingle
      · rintro task' ⟨⟩
  | _ =>
      -- The timer is not set, and stays as it is.
      have hcancel : (s.timers eventId).cancel = s.timers eventId := by rw [hat]; rfl
      have habort : (s.timers eventId).abort = [] := by rw [hat]; rfl
      rw [← hat, habort, List.append_nil]
      refine h.retime rfl rfl (fun task' => ?_) (fun other hne => ?_) ?_ ?_ ?_
      · simp [places, cancelled, hposted, hcancel]
      · simp [hposted, Handler.dones, Handler.inserts]
      · rw [hcancel]
        exact htimer
      · rw [hcancel]
        exact hsingle
      · rw [hcancel, hat]
        rintro task' ⟨⟩

theorem handle_done (h : Flow s) {task : SchedulerTask} {aborted : Bool} {posted : List Handler}
    (hposted : s.posted = .done task aborted :: posted) :
    Flow ({ s with posted := posted }.handle (.done task aborted)) := by
  have hidle := h.idle hposted
  have htimer := h.timer task.eventId
  have hsingle := h.single task.eventId
  rw [handle]
  dsimp only
  rw [hidle, Timer.abort_idle, List.append_nil]
  rw [hposted, List.countP_cons_of_pos (by simp [Handler.dones]), hidle] at htimer
  rw [hposted, List.countP_cons_of_neg (by simp [Handler.inserts]), hidle] at hsingle
  have hothers : ∀ other, other ≠ task.eventId →
      posted.countP (Handler.dones other) = s.posted.countP (Handler.dones other) ∧
        posted.countP (Handler.inserts other) = s.posted.countP (Handler.inserts other) := by
    intro other hne
    rw [hposted]
    exact ⟨(List.countP_cons_of_neg (by simp [Handler.dones, hne.symm])).symm,
      (List.countP_cons_of_neg (by simp [Handler.inserts])).symm⟩
  have hempty : posted.countP (Handler.dones task.eventId) + Timer.absent.waits =
      Timer.absent.present := by simpa using htimer
  have hnone : posted.countP (Handler.inserts task.eventId) + Timer.absent.present ≤ 1 := by
    rw [Timer.present_idle] at hsingle
    rw [Timer.present_absent]
    omega
  have hupdate : ∀ task' : SchedulerTask,
      (Function.update s.timers task.eventId .absent task'.eventId).count task' =
        (s.timers task'.eventId).count task' := by
    intro task'
    rcases eq_or_ne task'.eventId task.eventId with heq | hne
    · rw [heq, hidle, Function.update_self]
      rfl
    · rw [Function.update_of_ne hne]
  cases aborted with
  | false =>
      rw [if_neg Bool.false_ne_true]
      refine h.retime rfl rfl (fun task' => ?_) hothers hempty hnone (by rintro _ ⟨⟩)
      simp only [places, cancelled, hposted, hupdate]
      simp [List.count_cons]
      omega
  | true =>
      rw [if_pos rfl]
      refine h.retime rfl rfl (fun task' => ?_) hothers hempty hnone (by rintro _ ⟨⟩)
      simp only [places, cancelled, hposted, hupdate]
      simp [List.count_cons]
      omega

theorem expire (h : Flow s) {eventId : UInt32} {task : SchedulerTask}
    (hat : s.timers eventId = .waiting task) :
    Flow { s with
      posted := s.posted ++ [.done task false]
      timers := Function.update s.timers eventId .idle } := by
  have htimer := h.timer eventId
  have hsingle := h.single eventId
  have hid := h.named eventId task hat
  rw [hat] at htimer hsingle
  refine h.retime rfl rfl (fun task' => ?_) (fun other hne => ?_) ?_ ?_ (by rintro _ ⟨⟩)
  · simp only [places, cancelled]
    rcases eq_or_ne task'.eventId eventId with heq | hne
    · rw [heq, hat, Function.update_self]
      simp [List.count_cons]
      omega
    · have hne' : task ≠ task' := fun heq => hne (by rw [← heq, hid])
      rw [Function.update_of_ne hne]
      simp [hne']
  · simp [Handler.dones, Handler.inserts, hid, hne.symm]
  · simpa [List.countP_cons, Handler.dones, hid] using htimer
  · simpa [List.countP_cons, Handler.inserts] using hsingle

/-- Only a new id has to be free. -/
theorem step_of_free (h : Flow s) (action : Action) (hfree : action = .addEvent → s.InTime action) :
    Flow (s.step action) := by
  cases action with
  | addEvent => exact h.addEvent (hfree rfl)
  | stopEvent eventId => exact h.stopEvent eventId
  | handle =>
      rw [State.step]
      split
      · exact h
      · next handler posted hposted =>
          cases handler with
          | insert task => exact h.handle_insert hposted
          | cancel eventId => exact h.handle_cancel hposted
          | done task aborted => exact h.handle_done hposted
  | expire eventId =>
      rw [State.step]
      split
      · next task hat => exact h.expire hat
      · exact h
  | swap =>
      rw [State.step]
      split
      · next hempty =>
          refine ⟨fun task => ?_, h.numbered, h.nodup, h.timer, h.single, h.named⟩
          have hconserved := h.conserved task
          simp only [places, cancelled, hempty] at hconserved ⊢
          simp at hconserved ⊢
          exact hconserved
      · exact h
  | execute =>
      rw [State.step]
      split
      · exact h
      · next task tasks htasks =>
          refine ⟨fun task' => ?_, h.numbered, h.nodup, h.timer, h.single, h.named⟩
          have hconserved := h.conserved task'
          simp only [places, cancelled, htasks] at hconserved ⊢
          simp [List.count_cons] at hconserved ⊢
          omega

theorem step (h : Flow s) (action : Action) (hin : s.InTime action) : Flow (s.step action) :=
  h.step_of_free action fun _ => hin

/-- An event that is to be started, or whose timer is set, does not run yet. -/
theorem not_executed (h : Flow s) {task : SchedulerTask}
    (hlive : .insert task ∈ s.posted ∨ s.timers task.eventId = .waiting task) :
    task ∈ s.added ∧ task ∉ s.executed := by
  have hcount := h.count_added task
  have hpos : 0 < s.posted.count (.insert task) + (s.timers task.eventId).count task := by
    rcases hlive with hmem | hat
    · exact Nat.add_pos_left (List.count_pos_iff.mpr hmem) _
    · rw [hat]
      simp
  rw [places] at hcount
  constructor
  · by_contra hnot
    rw [if_neg hnot] at hcount
    omega
  · intro hmem
    have hexecuted := List.count_pos_iff.mpr hmem
    split at hcount <;> omega

end Flow

namespace Stops

theorem init : Stops init where
  spared _ _ := rfl
  known _ h := by cases h
  halted _ h := by cases h
  requested _ h := by cases h
  behind := trivial

theorem addEvent (h : Stops s) (hflow : Flow s) : Stops s.addEvent := by
  have hfresh := hflow.fresh (s.lastEventId + 1)
  rw [State.addEvent]
  refine ⟨fun task hnot => ?_, fun task hmem => ?_, fun task hmem => ?_, fun task hat => ?_, ?_⟩
  · have hspared := h.spared task hnot
    simp only [cancelled] at hspared ⊢
    simpa using hspared
  · exact List.mem_append_left _ (h.known task hmem)
  · have hhalted := h.halted task hmem
    simp only [Expired] at hhalted ⊢
    simpa using hhalted
  · rw [h.requested task hat]
    simp
  · refine h.behind.snoc (fun task _ => by simp) ?_
    rintro task ⟨⟩ hmem
    exact hfresh (h.known _ hmem)

theorem stopEvent (h : Stops s) (hflow : Flow s) {eventId : UInt32}
    (hin : s.InTime (.stopEvent eventId)) : Stops (s.stopEvent eventId) := by
  have hfilter : ∀ task, task ∈ s.added.filter
        (fun task => task.eventId = eventId ∧ task ∉ s.executed) ↔
      task ∈ s.added ∧ task.eventId = eventId ∧ task ∉ s.executed := by
    simp
  rw [State.stopEvent]
  dsimp only
  split
  · next hzero =>
      have hnil : s.added.filter (fun task => task.eventId = eventId ∧ task ∉ s.executed) = [] := by
        rw [List.eq_nil_iff_forall_not_mem]
        intro task hmem
        obtain ⟨hadded, hid, hnot⟩ := (hfilter task).mp hmem
        exact (hin task hadded hid hnot).1 hzero
      rw [hnil, List.append_nil]
      exact h
  · refine ⟨fun task hnot => ?_, fun task hmem => ?_, fun task hmem => ?_, fun task hat => ?_, ?_⟩
    · have hspared := h.spared task (fun hmem => hnot (List.mem_append_left _ hmem))
      simp only [cancelled] at hspared ⊢
      simpa using hspared
    · rcases List.mem_append.mp hmem with hmem | hmem
      · exact h.known task hmem
      · exact ((hfilter task).mp hmem).1
    · have hhalted : task ∉ s.executed ∧ ¬ s.Expired task := by
        rcases List.mem_append.mp hmem with hmem | hmem
        · exact h.halted task hmem
        · obtain ⟨hadded, hid, hnot⟩ := (hfilter task).mp hmem
          exact ⟨hnot, (hin task hadded hid hnot).2⟩
      simp only [Expired] at hhalted ⊢
      simpa using hhalted
    · obtain ⟨hadded, hnot⟩ := hflow.not_executed (.inr hat)
      have hrequested := h.requested task hat
      rw [List.mem_append, hfilter, List.mem_append, hrequested]
      simp [hadded, hnot]
    · refine h.behind.snoc (fun task hmem => ?_) (by rintro task ⟨⟩)
      obtain ⟨hadded, hnot⟩ := hflow.not_executed (.inl hmem)
      rw [List.mem_append, hfilter]
      simp [hadded, hnot, eq_comm]

theorem handle_insert (h : Stops s) (hflow : Flow s) {task : SchedulerTask}
    {posted : List Handler} (hposted : s.posted = .insert task :: posted) :
    Stops ({ s with posted := posted }.handle (.insert task)) := by
  have habsent := hflow.absent hposted
  have hbehind := h.behind
  rw [hposted] at hbehind
  rw [handle]
  dsimp only
  rw [habsent, Timer.abort_absent, List.append_nil]
  refine ⟨fun task' hnot => ?_, h.known, fun task' hmem => ?_, fun task' hat => ?_, hbehind.2⟩
  · have hspared := h.spared task' hnot
    simp only [cancelled, hposted] at hspared ⊢
    simpa using hspared
  · have hhalted := h.halted task' hmem
    simp only [Expired, hposted] at hhalted ⊢
    simpa using hhalted
  · dsimp only at hat
    rcases eq_or_ne task'.eventId task.eventId with heq | hne
    · rw [heq, Function.update_self] at hat
      cases hat
      exact hbehind.1
    · rw [Function.update_of_ne hne] at hat
      rw [h.requested task' hat, hposted]
      simp

theorem handle_cancel (h : Stops s) (hflow : Flow s) {eventId : UInt32}
    {posted : List Handler} (hposted : s.posted = .cancel eventId :: posted) :
    Stops ({ s with posted := posted }.handle (.cancel eventId)) := by
  have hbehind := h.behind
  rw [hposted] at hbehind
  rw [handle]
  dsimp only
  refine ⟨fun task hnot => ?_, h.known, fun task hmem => ?_, fun task hat => ?_,
    hbehind.tail.append_abort _⟩
  · have hspared := h.spared task hnot
    have habort : (s.timers eventId).abort.count (.done task true) = 0 := by
      rw [List.count_eq_zero]
      intro hmem
      cases hat : s.timers eventId with
      | waiting task' =>
          rw [hat, Timer.abort_waiting, List.mem_singleton] at hmem
          cases hmem
          have hid := hflow.named eventId task hat
          subst hid
          exact hnot ((h.requested task hat).mpr (by rw [hposted]; exact List.mem_cons_self))
      | _ =>
          rw [hat] at hmem
          cases hmem
    simp only [cancelled, hposted] at hspared ⊢
    rw [List.count_append, habort]
    simpa using hspared
  · have hhalted := h.halted task hmem
    have habort : .done task false ∉ (s.timers eventId).abort := by
      cases s.timers eventId <;> simp
    simp only [Expired, hposted] at hhalted ⊢
    rw [List.mem_append, or_iff_left habort]
    simpa using hhalted
  · dsimp only at hat
    have habort : .cancel task.eventId ∉ (s.timers eventId).abort := by
      cases s.timers eventId <;> simp
    rcases eq_or_ne task.eventId eventId with heq | hne
    · rw [heq, Function.update_self] at hat
      cases hat' : s.timers eventId <;> rw [hat'] at hat <;> cases hat
    · rw [Function.update_of_ne hne] at hat
      rw [h.requested task hat, hposted, List.mem_append, or_iff_left habort]
      simp [hne]

theorem handle_done (h : Stops s) (hflow : Flow s) {task : SchedulerTask} {aborted : Bool}
    {posted : List Handler} (hposted : s.posted = .done task aborted :: posted) :
    Stops ({ s with posted := posted }.handle (.done task aborted)) := by
  have hidle := hflow.idle hposted
  have hbehind := h.behind
  rw [hposted] at hbehind
  have hrequested : ∀ task', Function.update s.timers task.eventId .absent task'.eventId =
      .waiting task' → (task' ∈ s.stopped ↔ .cancel task'.eventId ∈ posted) := by
    intro task' hat
    rcases eq_or_ne task'.eventId task.eventId with heq | hne
    · rw [heq, Function.update_self] at hat
      cases hat
    · rw [Function.update_of_ne hne] at hat
      rw [h.requested task' hat, hposted]
      simp
  rw [handle]
  dsimp only
  rw [hidle, Timer.abort_idle, List.append_nil]
  cases aborted with
  | false =>
      rw [if_neg Bool.false_ne_true]
      refine ⟨fun task' hnot => ?_, h.known, fun task' hmem => ?_, hrequested, hbehind.tail⟩
      · have hspared := h.spared task' hnot
        simp only [cancelled, hposted] at hspared ⊢
        simpa using hspared
      · obtain ⟨hnot, hexpired⟩ := h.halted task' hmem
        refine ⟨hnot, fun hexpired' => hexpired ?_⟩
        simp only [Expired, hposted, List.mem_append, List.mem_singleton] at hexpired' ⊢
        rcases hexpired' with hdone | (hlist | rfl) | htmp
        · exact .inl (List.mem_cons_of_mem _ hdone)
        · exact .inr (.inl hlist)
        · exact .inl List.mem_cons_self
        · exact .inr (.inr htmp)
  | true =>
      rw [if_pos rfl]
      refine ⟨fun task' hnot => ?_, h.known, fun task' hmem => ?_, hrequested, hbehind.tail⟩
      · have hspared := h.spared task' hnot
        simp only [cancelled, hposted] at hspared ⊢
        rcases eq_or_ne task task' with rfl | hne
        · rw [List.count_cons_self] at hspared
          omega
        · simpa [List.count_append, hne] using hspared
      · have hhalted := h.halted task' hmem
        simp only [Expired, hposted] at hhalted ⊢
        simpa using hhalted

theorem expire (h : Stops s) (hflow : Flow s) {eventId : UInt32} {task : SchedulerTask}
    (hat : s.timers eventId = .waiting task) (hin : s.InTime (.expire eventId)) :
    Stops { s with
      posted := s.posted ++ [.done task false]
      timers := Function.update s.timers eventId .idle } := by
  have hid := hflow.named eventId task hat
  have hrunning : task ∉ s.stopped := by
    subst hid
    exact fun hmem => hin ((h.requested task hat).mp hmem)
  refine ⟨fun task' hnot => ?_, h.known, fun task' hmem => ?_, fun task' hat' => ?_, ?_⟩
  · have hspared := h.spared task' hnot
    simp only [cancelled] at hspared ⊢
    simpa using hspared
  · have hhalted := h.halted task' hmem
    have hne : task' ≠ task := fun heq => hrunning (heq ▸ hmem)
    simp only [Expired] at hhalted ⊢
    simpa [hne] using hhalted
  · dsimp only at hat'
    rcases eq_or_ne task'.eventId eventId with heq | hne
    · rw [heq, Function.update_self] at hat'
      cases hat'
    · rw [Function.update_of_ne hne] at hat'
      rw [h.requested task' hat']
      simp
  · exact h.behind.snoc (fun task' _ => by simp) (by rintro task' ⟨⟩)

theorem step (h : Stops s) (hflow : Flow s) (action : Action) (hin : s.InTime action) :
    Stops (s.step action) := by
  cases action with
  | addEvent => exact h.addEvent hflow
  | stopEvent eventId => exact h.stopEvent hflow hin
  | handle =>
      rw [State.step]
      split
      · exact h
      · next handler posted hposted =>
          cases handler with
          | insert task => exact h.handle_insert hflow hposted
          | cancel eventId => exact h.handle_cancel hflow hposted
          | done task aborted => exact h.handle_done hflow hposted
  | expire eventId =>
      rw [State.step]
      split
      · next task hat => exact h.expire hflow hat hin
      · exact h
  | swap =>
      rw [State.step]
      split
      · next hempty =>
          refine ⟨h.spared, h.known, fun task hmem => ?_, h.requested, h.behind⟩
          have hhalted := h.halted task hmem
          simp only [Expired, hempty] at hhalted ⊢
          simpa using hhalted
      · exact h
  | execute =>
      rw [State.step]
      split
      · exact h
      · next task tasks htasks =>
          refine ⟨h.spared, h.known, fun task' hmem => ?_, h.requested, h.behind⟩
          obtain ⟨hnot, hexpired⟩ := h.halted task' hmem
          simp only [Expired, htasks] at hexpired ⊢
          simp only [List.mem_cons, not_or] at hexpired
          simp [hnot, hexpired]

end Stops

theorem good (hflow : Flow s) (hstops : Stops s) : Good s where
  dead task hmem := (hstops.halted task hmem).1
  once := by
    rw [List.nodup_iff_count_le_one]
    intro task
    have hcount := hflow.count_added task
    rw [places] at hcount
    split at hcount <;> omega
  kept task hadded hnot := by
    have hcount := hflow.count_added task
    rw [if_pos hadded, hstops.spared task hnot, places] at hcount
    have hwaiting : s.timers task.eventId = .waiting task ↔
        0 < (s.timers task.eventId).count task := by
      rw [Timer.count]
      split <;> simp_all
    rw [Pending, hwaiting, ← List.count_pos_iff, ← List.count_pos_iff, ← List.count_pos_iff,
      ← List.count_pos_iff, ← List.count_eq_zero]
    omega

/-! ## Stopped events over runs -/

/-- While ids are free and no request to stop an event comes too late, every run executes each
event that is not stopped once, and no other. -/
theorem scheduler_good_throughout (actions : List Action) (hin : Throughout step InTime init actions) :
    Throughout step (fun s action => Good (s.step action)) init actions := by
  have hstep : ∀ (s : State) (action : Action), Flow s ∧ Stops s → s.InTime action →
      Flow (s.step action) ∧ Stops (s.step action) :=
    fun s action h hc => ⟨h.1.step action hc, h.2.step h.1 action hc⟩
  exact throughout_of_inv hstep (fun s action h hc => good (hstep s action h hc).1
    (hstep s action h hc).2) ⟨.init, .init⟩ hin

/-- Two events, of which the first is stopped before its time. -/
theorem good_throughout_two :
    Throughout step (fun s action => Good (s.step action)) init
      [.addEvent, .handle, .addEvent, .stopEvent 1, .handle, .handle, .handle, .expire 2, .handle,
        .swap, .execute] := by
  refine scheduler_good_throughout _ ?_
  have hfirst : init.InTime .addEvent :=
    ⟨rfl, fun _ _ => ⟨List.not_mem_nil, fun _ => List.not_mem_nil⟩⟩
  have hsecond : (run step init [.addEvent, .handle]).InTime .addEvent :=
    ⟨rfl, fun _ _ => ⟨List.not_mem_nil, fun _ => List.not_mem_nil⟩⟩
  have hstop : (run step init [.addEvent, .handle, .addEvent]).InTime (.stopEvent 1) := by
    refine fun task _ _ _ => ⟨by decide, ?_⟩
    rintro (hdone | hlist | htmp)
    · cases List.mem_singleton.mp hdone
    · cases hlist
    · cases htmp
  have hexpire : (run step init [.addEvent, .handle, .addEvent, .stopEvent 1, .handle, .handle,
      .handle]).InTime (.expire 2) := List.not_mem_nil
  repeat' refine throughout_cons.mpr ⟨?_, ?_⟩
  all_goals first | exact trivial | exact throughout_nil | skip
  · exact hfirst
  · exact hsecond
  · exact hstop
  · exact hexpire

/-- The timer expires before the request to stop the event has come to its thread. -/
theorem stopped_runs :
    ¬ ∀ actions : List Action,
      Throughout step (fun s action => Good (s.step action)) init actions := by
  intro hall
  have hgood := hall [.addEvent, .handle, .expire 1, .stopEvent 1, .handle, .handle, .swap,
    .execute] [.addEvent, .handle, .expire 1, .stopEvent 1, .handle, .handle, .swap] .execute [] rfl
  have hstopped : (⟨1, 0⟩ : SchedulerTask) ∈ [(⟨1, 0⟩ : SchedulerTask)] := List.mem_singleton_self _
  exact hgood.dead ⟨1, 0⟩ hstopped hstopped

/-! ## Late requests -/

/-- However late an event is stopped, it is not lost and not executed twice: every event that was
added is in one place, or cancelled, or executed, once, and no other event is anywhere. -/
theorem events_conserved (actions : List Action)
    (hfree : Throughout step (fun s action => action = .addEvent → s.InTime action) init actions)
    (task : SchedulerTask) :
    (run step init actions).places task + (run step init actions).cancelled task =
      if task ∈ (run step init actions).added then 1 else 0 := by
  have hstep : ∀ (s : State) (action : Action), Flow s →
      (action = .addEvent → s.InTime action) → Flow (s.step action) :=
    fun s action h hfree => h.step_of_free action hfree
  exact (run_inv hstep .init hfree).count_added task

/-- The event is stopped when its timer has expired, and is executed. -/
theorem events_conserved_late :
    let s := run step init
      [.addEvent, .handle, .expire 1, .stopEvent 1, .handle, .handle, .swap, .execute]
    s.places ⟨1, 0⟩ + s.cancelled ⟨1, 0⟩ =
      if (⟨1, 0⟩ : SchedulerTask) ∈ s.added then 1 else 0 := by
  refine events_conserved _ ?_ ⟨1, 0⟩
  repeat' refine throughout_cons.mpr ⟨?_, ?_⟩
  · exact fun _ => ⟨rfl, fun _ _ => ⟨List.not_mem_nil, fun _ => List.not_mem_nil⟩⟩
  all_goals first | exact throughout_nil | simp

end State

end Bruxo.Scheduler
