import Bruxo.Lib.Runs
import Mathlib.Logic.Function.Basic

/-!
# The queue of database tasks

`DatabaseTasks` (`databasetasks.cpp`) as two threads over one queue: the worker, and the thread
that flushes, at a save or at the shutdown. What is done under the lock of the queue is one step;
a query runs under the lock of the database.

A thread takes a task out before it runs it. While only one of them has taken a task the queries
run in the order of the queue (`Inv`), and nothing is left behind. `flush` does not wait for the
worker, which may have an earlier task in its hand; the order is lost then, but no task (`Kept`).
-/

namespace Bruxo.DatabaseTasks

open Runs

variable {τ : Type}

/-! ## The threads -/

inductive Thread where
  | worker | flusher
  deriving DecidableEq

def Thread.other : Thread → Thread
  | worker => flusher
  | flusher => worker

inductive ThreadState where
  | running | closing | terminated
  deriving DecidableEq

/-- Where a thread is in `runTask`. -/
inductive Hand (τ : Type) where
  | empty
  | taken (task : τ)
  | querying (task : τ)
  | queried (task : τ)

/-- Where the worker is in `threadMain`. -/
inductive WorkerAt where
  | top
  | lock
  | waiting (notified : Bool)
  | run
  | ended

/-- Where the other thread is in `flush`, and whether `shutdown` called it. -/
inductive FlusherAt where
  | idle
  | flush (last : Bool)
  | run (last : Bool)
  | ended

structure State (τ : Type) where
  threadState : ThreadState
  tasks : List τ
  worker : WorkerAt
  flusher : FlusherAt
  hand : Thread → Hand τ
  /-- What `addTask` took. -/
  accepted : List τ
  executed : List τ
  /-- The tasks whose callbacks were handed to the dispatcher. -/
  callbacks : List τ

namespace State

def init : State τ where
  threadState := .running
  tasks := []
  worker := .top
  flusher := .idle
  hand _ := .empty
  accepted := []
  executed := []
  callbacks := []

def notify (s : State τ) : State τ :=
  match s.worker with
  | .waiting _ => { s with worker := .waiting true }
  | _ => s

def addTask (s : State τ) (task : τ) : State τ :=
  if s.threadState = .running then
    let signal := s.tasks.isEmpty
    let s := { s with tasks := s.tasks ++ [task], accepted := s.accepted ++ [task] }
    if signal then s.notify else s
  else s

/-- `std::move(tasks.front())` and `pop_front`. -/
def take (s : State τ) (thread : Thread) (task : τ) (tasks : List τ) : State τ :=
  { s with tasks := tasks, hand := Function.update s.hand thread (.taken task) }

/-- A step of `runTask`: the query begins when the other one has ended, it ends, and the callback
is handed on. -/
def runTask (callback : τ → Bool) (s : State τ) (thread : Thread) : State τ :=
  match s.hand thread with
  | .empty => s
  | .taken task =>
      match s.hand thread.other with
      | .querying _ => s
      | _ =>
          { s with
            executed := s.executed ++ [task]
            hand := Function.update s.hand thread (.querying task) }
  | .querying task => { s with hand := Function.update s.hand thread (.queried task) }
  | .queried task =>
      { s with
        callbacks := if callback task then s.callbacks ++ [task] else s.callbacks
        hand := Function.update s.hand thread .empty }

inductive Action (τ : Type) where
  | add (task : τ)
  /-- `stop`: nothing is accepted any more. -/
  | stop
  /-- The worker's next step. -/
  | worker
  /-- The worker's wait ends with no signal. -/
  | wake
  | flush
  | shutdown
  /-- The next step of the thread that flushes. -/
  | flusher

/-- What the worker does with the lock of the queue, where there is no task for it. -/
def workerTakes (s : State τ) (otherwise : WorkerAt) : State τ :=
  match s.tasks with
  | [] => { s with worker := otherwise }
  | task :: tasks => { s.take .worker task tasks with worker := .run }

/-- `threadMain` -/
def threadMain (callback : τ → Bool) (s : State τ) : State τ :=
  match s.worker with
  | .top => { s with worker := if s.threadState = .terminated then .ended else .lock }
  | .lock => s.workerTakes (.waiting false)
  | .waiting false => s
  | .waiting true => s.workerTakes .top
  | .run =>
      match (s.runTask callback .worker).hand .worker with
      | .empty => { s.runTask callback .worker with worker := .top }
      | _ => s.runTask callback .worker
  | .ended => s

/-- `flush`, and the end of `shutdown`. -/
def flushStep (callback : τ → Bool) (s : State τ) : State τ :=
  match s.flusher with
  | .idle => s
  | .flush last =>
      match s.tasks with
      | [] => if last then { s.notify with flusher := .ended } else { s with flusher := .idle }
      | task :: tasks => { s.take .flusher task tasks with flusher := .run last }
  | .run last =>
      match (s.runTask callback .flusher).hand .flusher with
      | .empty => { s.runTask callback .flusher with flusher := .flush last }
      | _ => s.runTask callback .flusher
  | .ended => s

def step (callback : τ → Bool) (s : State τ) : Action τ → State τ
  | .add task => s.addTask task
  | .stop => if s.threadState = .running then { s with threadState := .closing } else s
  | .worker => s.threadMain callback
  | .wake => s.notify
  | .flush =>
      match s.flusher with
      | .idle => { s with flusher := .flush false }
      | _ => s
  | .shutdown =>
      match s.flusher with
      | .idle => { s with threadState := .terminated, flusher := .flush true }
      | _ => s
  | .flusher => s.flushStep callback

/-! ## What is to hold -/

/-- The queries that were executed are the first that were accepted, in their order, and so are the
callbacks; where no task is left these are all. While there is a task a thread is on its way to it,
and after the shutdown there is none. -/
structure Good (callback : τ → Bool) (s : State τ) : Prop where
  executed : s.executed <+: s.accepted
  single : ∀ task task', s.hand .worker = .querying task → s.hand .flusher ≠ .querying task'
  callbacks : s.callbacks <+: s.accepted.filter callback
  complete : s.tasks = [] → (∀ thread, s.hand thread = .empty) →
    s.executed = s.accepted ∧ s.callbacks = s.accepted.filter callback
  live : s.tasks ≠ [] → (s.worker ≠ .waiting false ∧ s.worker ≠ .ended) ∨
    s.flusher = .flush true ∨ s.flusher = .run true
  drained : s.flusher = .ended → s.tasks = []

/-- A task is taken out only while the other thread has none in its hand. -/
def Alone (s : State τ) : Action τ → Prop
  | .worker =>
      s.worker = .lock ∨ s.worker = .waiting true → s.tasks ≠ [] → s.hand .flusher = .empty
  | .flusher => (∃ last, s.flusher = .flush last) → s.tasks ≠ [] → s.hand .worker = .empty
  | _ => True

end State

namespace Hand

/-- A task whose query is to come. -/
def todo : Hand τ → List τ
  | taken task => [task]
  | _ => []

/-- A callback that is to come, of a query that has begun. -/
def due (callback : τ → Bool) : Hand τ → List τ
  | querying task | queried task => [task].filter callback
  | _ => []

@[simp] theorem todo_empty : (empty : Hand τ).todo = [] := rfl
@[simp] theorem todo_taken (task : τ) : (taken task).todo = [task] := rfl
@[simp] theorem todo_querying (task : τ) : (querying task).todo = [] := rfl

variable (callback : τ → Bool)

@[simp] theorem due_empty : (empty : Hand τ).due callback = [] := rfl
@[simp] theorem due_taken (task : τ) : (taken task).due callback = [] := rfl
@[simp] theorem due_querying (task : τ) :
    (querying task).due callback = [task].filter callback := rfl
@[simp] theorem due_queried (task : τ) :
    (queried task).due callback = [task].filter callback := rfl

end Hand

namespace State

variable {callback : τ → Bool} {s : State τ}

theorem notify_frame (s : State τ) :
    s.notify.tasks = s.tasks ∧ s.notify.flusher = s.flusher ∧ s.notify.hand = s.hand := by
  rw [notify]
  split <;> exact ⟨rfl, rfl, rfl⟩

/-- What is kept of the queue, and of the tasks in the hands. -/
structure Queue (callback : τ → Bool) (s : State τ) : Prop where
  alone : s.hand .worker = .empty ∨ s.hand .flusher = .empty
  queue : s.executed ++ ((s.hand .worker).todo ++ (s.hand .flusher).todo) ++ s.tasks = s.accepted
  handed : s.callbacks ++ ((s.hand .worker).due callback ++ (s.hand .flusher).due callback) =
    s.executed.filter callback

/-- The queue as one thread sees it, when the other has nothing in its hand. -/
theorem queue_iff {thread : Thread} (hother : s.hand thread.other = .empty) :
    Queue callback s ↔
      s.executed ++ (s.hand thread).todo ++ s.tasks = s.accepted ∧
        s.callbacks ++ (s.hand thread).due callback = s.executed.filter callback := by
  cases thread with
  | worker =>
      have hflusher : s.hand .flusher = .empty := hother
      constructor
      · rintro ⟨_, hqueue, hhanded⟩
        simp only [hflusher, Hand.todo_empty, Hand.due_empty, List.append_nil] at hqueue hhanded
        exact ⟨hqueue, hhanded⟩
      · rintro ⟨hqueue, hhanded⟩
        refine ⟨.inr hflusher, ?_, ?_⟩
        · simpa only [hflusher, Hand.todo_empty, List.append_nil] using hqueue
        · simpa only [hflusher, Hand.due_empty, List.append_nil] using hhanded
  | flusher =>
      have hworker : s.hand .worker = .empty := hother
      constructor
      · rintro ⟨_, hqueue, hhanded⟩
        simp only [hworker, Hand.todo_empty, Hand.due_empty, List.nil_append] at hqueue hhanded
        exact ⟨hqueue, hhanded⟩
      · rintro ⟨hqueue, hhanded⟩
        refine ⟨.inl hworker, ?_, ?_⟩
        · simpa only [hworker, Hand.todo_empty, List.nil_append] using hqueue
        · simpa only [hworker, Hand.due_empty, List.nil_append] using hhanded

theorem other_ne (thread : Thread) : thread.other ≠ thread := by cases thread <;> decide

/-- A step of `runTask` changes neither the queue nor the other thread. -/
theorem runTask_frame (callback : τ → Bool) (s : State τ) (thread : Thread) :
    (s.runTask callback thread).threadState = s.threadState ∧
      (s.runTask callback thread).tasks = s.tasks ∧
      (s.runTask callback thread).worker = s.worker ∧
      (s.runTask callback thread).flusher = s.flusher ∧
      (s.runTask callback thread).hand thread.other = s.hand thread.other := by
  have hne := other_ne thread
  rw [runTask]
  split
  · exact ⟨rfl, rfl, rfl, rfl, rfl⟩
  · split
    · exact ⟨rfl, rfl, rfl, rfl, rfl⟩
    · exact ⟨rfl, rfl, rfl, rfl, Function.update_of_ne hne _ _⟩
  · exact ⟨rfl, rfl, rfl, rfl, Function.update_of_ne hne _ _⟩
  · exact ⟨rfl, rfl, rfl, rfl, Function.update_of_ne hne _ _⟩

/-- The same after a step that puts something else into the hand. -/
theorem queue_update {thread : Thread} (hother : s.hand thread.other = .empty) {s' : State τ}
    (hand : Hand τ) (hs : s'.hand = Function.update s.hand thread hand) :
    Queue callback s' ↔
      s'.executed ++ hand.todo ++ s'.tasks = s'.accepted ∧
        s'.callbacks ++ hand.due callback = s'.executed.filter callback := by
  have hother' : s'.hand thread.other = .empty := by
    rw [hs, Function.update_of_ne (other_ne thread), hother]
  rw [queue_iff hother', hs, Function.update_self]

namespace Queue

theorem init : Queue callback (init : State τ) where
  alone := .inl rfl
  queue := rfl
  handed := rfl

theorem other (h : Queue callback s) {thread : Thread} (hne : s.hand thread ≠ .empty) :
    s.hand thread.other = .empty := by
  cases thread with
  | worker => exact h.alone.resolve_left hne
  | flusher => exact h.alone.resolve_right hne

theorem take (h : Queue callback s) {thread : Thread} (hthread : s.hand thread = .empty)
    (hother : s.hand thread.other = .empty) {task : τ} {tasks : List τ}
    (htasks : s.tasks = task :: tasks) : Queue callback (s.take thread task tasks) := by
  obtain ⟨hqueue, hhanded⟩ := (queue_iff hother).mp h
  rw [hthread, htasks, Hand.todo_empty, List.append_nil] at hqueue
  rw [hthread, Hand.due_empty] at hhanded
  have hs : (s.take thread task tasks).hand = Function.update s.hand thread (.taken task) := rfl
  refine (queue_update hother _ hs).mpr ⟨?_, hhanded⟩
  rw [Hand.todo_taken, List.append_assoc]
  exact hqueue

theorem runTask (h : Queue callback s) (thread : Thread) :
    Queue callback (s.runTask callback thread) := by
  cases hhand : s.hand thread with
  | empty =>
      rw [State.runTask, hhand]
      exact h
  | taken task =>
      have hother := h.other (fun hempty => by rw [hhand] at hempty; cases hempty)
      obtain ⟨hqueue, hhanded⟩ := (queue_iff hother).mp h
      rw [hhand] at hqueue hhanded
      rw [State.runTask, hhand, hother]
      refine (queue_update hother (.querying task) rfl).mpr ⟨?_, ?_⟩
      · rw [Hand.todo_querying, List.append_nil]
        exact hqueue
      · rw [Hand.due_querying, List.filter_append, ← hhanded, Hand.due_taken, List.append_nil]
  | querying task =>
      have hother := h.other (fun hempty => by rw [hhand] at hempty; cases hempty)
      obtain ⟨hqueue, hhanded⟩ := (queue_iff hother).mp h
      rw [hhand] at hqueue hhanded
      rw [State.runTask, hhand]
      dsimp only
      exact (queue_update hother (.queried task) rfl).mpr ⟨hqueue, hhanded⟩
  | queried task =>
      have hother := h.other (fun hempty => by rw [hhand] at hempty; cases hempty)
      obtain ⟨hqueue, hhanded⟩ := (queue_iff hother).mp h
      rw [hhand] at hqueue hhanded
      rw [State.runTask, hhand]
      dsimp only
      refine (queue_update hother .empty rfl).mpr ⟨hqueue, ?_⟩
      rw [Hand.due_queried, List.filter_singleton] at hhanded
      rw [Hand.due_empty, List.append_nil, ← hhanded]
      cases callback task with
      | false => exact (List.append_nil _).symm
      | true => rfl

theorem push (h : Queue callback s) (task : τ) : Queue callback
    { s with tasks := s.tasks ++ [task], accepted := s.accepted ++ [task] } where
  alone := h.alone
  queue := by
    dsimp only
    rw [← List.append_assoc, h.queue]
  handed := h.handed

end Queue

/-! ## Where the threads are -/

/-- What is kept of the threads, whatever they have in their hands. -/
structure Located (s : State τ) : Prop where
  working : s.hand .worker ≠ .empty → s.worker = .run
  flushing : s.hand .flusher ≠ .empty → ∃ last, s.flusher = .run last
  woken : s.worker = .waiting false → s.tasks = []
  terminated : s.flusher = .flush true ∨ s.flusher = .run true ∨ s.flusher = .ended ↔
    s.threadState = .terminated
  drained : s.flusher = .ended → s.tasks = []
  ended : s.worker = .ended → s.threadState = .terminated

namespace Located

theorem init : Located (init : State τ) where
  working h := absurd rfl h
  flushing h := absurd rfl h
  woken _ := rfl
  terminated := by simp [State.init]
  drained _ := rfl
  ended h := by cases h

/-- A thread that takes a task out had none before. -/
theorem worker_hand (h : Located s) (hat : s.worker ≠ .run) : s.hand .worker = .empty :=
  by_contra fun hne => hat (h.working hne)

theorem flusher_hand (h : Located s) (hat : ∀ last, s.flusher ≠ .run last) :
    s.hand .flusher = .empty :=
  by_contra fun hne => (h.flushing hne).elim hat

theorem live (h : Located s) (htasks : s.tasks ≠ []) :
    (s.worker ≠ .waiting false ∧ s.worker ≠ .ended) ∨
      s.flusher = .flush true ∨ s.flusher = .run true := by
  have hwaiting : s.worker ≠ .waiting false := fun hwaiting => htasks (h.woken hwaiting)
  by_cases hended : s.worker = .ended
  · rcases h.terminated.mpr (h.ended hended) with hlast | hlast | hlast
    · exact .inr (.inl hlast)
    · exact .inr (.inr hlast)
    · exact absurd (h.drained hlast) htasks
  · exact .inl ⟨hwaiting, hended⟩

theorem notify (h : Located s) : Located s.notify := by
  rw [State.notify]
  split
  · next hwaiting =>
      refine ⟨fun hne => ?_, h.flushing, fun hfalse => (by cases hfalse), h.terminated, h.drained,
        fun hended => (by cases hended)⟩
      rw [h.working hne] at hwaiting
      cases hwaiting
  · exact h

theorem addTask (h : Located s) (task : τ) : Located (s.addTask task) := by
  rw [State.addTask]
  split
  case isFalse => exact h
  case isTrue hrunning =>
    have hended : s.flusher ≠ .ended := by
      intro hended
      have hterminated := h.terminated.mp (.inr (.inr hended))
      rw [hrunning] at hterminated
      cases hterminated
    dsimp only
    cases htasks : s.tasks with
    | nil =>
        rw [List.isEmpty_nil, if_pos rfl, State.notify]
        split
        · next hwaiting =>
            refine ⟨fun hne => ?_, h.flushing, fun hfalse => (by cases hfalse), h.terminated,
              fun heq => absurd heq hended, fun heq => (by cases heq)⟩
            exact absurd (h.working hne) (by rw [hwaiting]; rintro ⟨⟩)
        · next hnot =>
            exact ⟨h.working, h.flushing, fun hwaiting => absurd hwaiting (hnot false),
              h.terminated, fun heq => absurd heq hended, h.ended⟩
    | cons first rest =>
        refine ⟨h.working, h.flushing, fun hwaiting => ?_, h.terminated,
          fun heq => absurd heq hended, h.ended⟩
        have hnil := h.woken hwaiting
        rw [htasks] at hnil
        cases hnil

theorem workerTakes (h : Located s) (hat : s.worker ≠ .run) {otherwise : WorkerAt}
    (hnot : otherwise ≠ .ended) : Located (s.workerTakes otherwise) := by
  have hhand := h.worker_hand hat
  rw [State.workerTakes]
  split
  · next hnil =>
      exact ⟨fun hne => absurd hhand hne, h.flushing, fun _ => hnil, h.terminated, h.drained,
        fun hended => absurd hended hnot⟩
  · next task tasks htasks =>
      refine ⟨fun _ => rfl, h.flushing, fun hfalse => (by cases hfalse), h.terminated,
        fun hended => ?_, fun hended => (by cases hended)⟩
      have := h.drained hended
      rw [htasks] at this
      cases this

theorem flusherTakes (h : Located s) {last : Bool} (hat : s.flusher = .flush last)
    {task : τ} {tasks : List τ} (htasks : s.tasks = task :: tasks) :
    Located { s.take .flusher task tasks with flusher := .run last } := by
  refine ⟨h.working, fun _ => ⟨last, rfl⟩, fun hwaiting => ?_, ?_,
    fun hended => (by cases hended), h.ended⟩
  · have hnil := h.woken hwaiting
    rw [htasks] at hnil
    cases hnil
  · refine Iff.trans ?_ h.terminated
    simp [hat]

/-- A step of `runTask` is one of the thread that runs the task. -/
theorem runTask (h : Located s) (thread : Thread) (hworker : thread = .worker → s.worker = .run)
    (hflusher : thread = .flusher → ∃ last, s.flusher = .run last) :
    Located (s.runTask callback thread) := by
  obtain ⟨hstate, htasks, hat, hat', hother⟩ := s.runTask_frame callback thread
  refine ⟨fun hne => ?_, fun hne => ?_, ?_, ?_, ?_, ?_⟩
  · rw [hat]
    cases thread with
    | worker => exact hworker rfl
    | flusher =>
        refine h.working fun hempty => hne ?_
        rw [← hempty]
        exact hother
  · rw [hat']
    cases thread with
    | worker =>
        refine h.flushing fun hempty => hne ?_
        rw [← hempty]
        exact hother
    | flusher => exact hflusher rfl
  · rw [hat, htasks]
    exact h.woken
  · rw [hat', hstate]
    exact h.terminated
  · rw [hat', htasks]
    exact h.drained
  · rw [hat, hstate]
    exact h.ended

theorem threadMain (h : Located s) : Located (s.threadMain callback) := by
  rw [State.threadMain]
  split
  case h_1 hat =>
    refine ⟨fun hne => ?_, h.flushing, fun hwaiting => ?_, h.terminated, h.drained,
      fun hended => ?_⟩
    · rw [h.working hne] at hat
      cases hat
    · dsimp only at hwaiting
      split at hwaiting <;> cases hwaiting
    · dsimp only at hended
      split at hended
      · next hterminated => exact hterminated
      · cases hended
  case h_2 hat => exact h.workerTakes (by rw [hat]; rintro ⟨⟩) (by rintro ⟨⟩)
  case h_3 => exact h
  case h_4 hat => exact h.workerTakes (by rw [hat]; rintro ⟨⟩) (by rintro ⟨⟩)
  case h_5 hat =>
    have hrun : Located (s.runTask callback .worker) :=
      h.runTask .worker (fun _ => hat) (by rintro ⟨⟩)
    split
    · next hempty =>
        exact ⟨fun hne => absurd hempty hne, hrun.flushing, fun hwaiting => (by cases hwaiting),
          hrun.terminated, hrun.drained, fun hended => (by cases hended)⟩
    · exact hrun
  case h_6 => exact h

theorem flushStep (h : Located s) : Located (s.flushStep callback) := by
  rw [State.flushStep]
  split
  case h_1 => exact h
  case h_2 last hat =>
    have hhand : s.hand .flusher = .empty :=
      h.flusher_hand (fun last' hrun => by rw [hat] at hrun; cases hrun)
    split
    · next hnil =>
        cases last with
        | false =>
            refine ⟨h.working, fun hne => absurd hhand hne, h.woken, ?_,
              fun hended => (by cases hended), h.ended⟩
            refine Iff.trans ?_ h.terminated
            simp [hat]
        | true =>
            have hnotify := h.notify
            obtain ⟨htasks, hflusher, hhand'⟩ := s.notify_frame
            refine ⟨hnotify.working, fun hne => ?_, hnotify.woken, ?_, fun _ => ?_,
              hnotify.ended⟩
            · refine absurd hhand ?_
              rw [← hhand']
              exact hne
            · refine Iff.trans ?_ hnotify.terminated
              simp [hflusher, hat]
            · exact htasks.trans hnil
    · next task tasks htasks => exact h.flusherTakes hat htasks
  case h_3 last hat =>
    have hrun : Located (s.runTask callback .flusher) :=
      h.runTask .flusher (by rintro ⟨⟩) (fun _ => ⟨last, hat⟩)
    have hflusher : (s.runTask callback .flusher).flusher = .run last := by
      rw [(s.runTask_frame callback .flusher).2.2.2.1, hat]
    split
    · next hempty =>
        refine ⟨hrun.working, fun hne => absurd hempty hne, hrun.woken, ?_,
          fun hended => (by cases hended), hrun.ended⟩
        refine Iff.trans ?_ hrun.terminated
        simp [hflusher]
    · exact hrun
  case h_4 => exact h

theorem step (h : Located s) (action : Action τ) : Located (s.step callback action) := by
  cases action with
  | add task => exact h.addTask task
  | stop =>
      rw [State.step]
      split
      · next hrunning =>
          refine ⟨h.working, h.flushing, h.woken, ?_, h.drained, fun hended => ?_⟩
          · refine h.terminated.trans ?_
            simp [hrunning]
          · have hterminated := h.ended hended
            rw [hrunning] at hterminated
            cases hterminated
      · exact h
  | worker => exact h.threadMain
  | wake => exact h.notify
  | flush =>
      rw [State.step]
      split
      · next hat =>
          have hhand := h.flusher_hand (fun last hrun => by rw [hat] at hrun; cases hrun)
          refine ⟨h.working, fun hne => absurd hhand hne, h.woken, ?_,
            fun hended => (by cases hended), h.ended⟩
          refine Iff.trans ?_ h.terminated
          simp [hat]
      · exact h
  | shutdown =>
      rw [State.step]
      split
      · next hat =>
          have hhand := h.flusher_hand (fun last hrun => by rw [hat] at hrun; cases hrun)
          exact ⟨h.working, fun hne => absurd hhand hne, h.woken,
            ⟨fun _ => rfl, fun _ => .inl rfl⟩, fun hended => (by cases hended), fun _ => rfl⟩
      · exact h
  | flusher => exact h.flushStep

end Located

/-! ## What a step does to the tasks -/

/-- The tasks of `s'` are where those of `s` are. -/
structure SameTasks (s' s : State τ) : Prop where
  tasks : s'.tasks = s.tasks
  hand : s'.hand = s.hand
  accepted : s'.accepted = s.accepted
  executed : s'.executed = s.executed
  callbacks : s'.callbacks = s.callbacks

theorem SameTasks.refl (s : State τ) : SameTasks s s := ⟨rfl, rfl, rfl, rfl, rfl⟩

theorem sameTasks_notify (s : State τ) : SameTasks s.notify s := by
  rw [notify]
  split <;> exact ⟨rfl, rfl, rfl, rfl, rfl⟩

inductive Moves (callback : τ → Bool) (s : State τ) (action : Action τ) (s' : State τ) : Prop where
  | rest (same : SameTasks s' s)
  | push (task : τ)
      (same : SameTasks s' { s with tasks := s.tasks ++ [task], accepted := s.accepted ++ [task] })
  | take (thread : Thread) (task : τ) (tasks : List τ) (htasks : s.tasks = task :: tasks)
      (hthread : s.hand thread = .empty) (alone : s.Alone action → s.hand thread.other = .empty)
      (same : SameTasks s' (s.take thread task tasks))
  | run (thread : Thread) (same : SameTasks s' (s.runTask callback thread))

namespace Moves

theorem workerTakes (h : Located s) (hat : s.worker = .lock ∨ s.worker = .waiting true)
    (otherwise : WorkerAt) : Moves callback s .worker (s.workerTakes otherwise) := by
  have hhand : s.hand .worker = .empty :=
    h.worker_hand (by rcases hat with hat | hat <;> (rw [hat]; rintro ⟨⟩))
  rw [State.workerTakes]
  split
  · exact .rest ⟨rfl, rfl, rfl, rfl, rfl⟩
  · next task tasks htasks =>
      have halone : s.Alone .worker → s.hand .flusher = .empty := fun halone =>
        halone hat (by rw [htasks]; exact List.cons_ne_nil _ _)
      exact .take .worker task tasks htasks hhand halone ⟨rfl, rfl, rfl, rfl, rfl⟩

theorem threadMain (h : Located s) : Moves callback s .worker (s.threadMain callback) := by
  rw [State.threadMain]
  split
  case h_1 => exact .rest ⟨rfl, rfl, rfl, rfl, rfl⟩
  case h_2 hat => exact .workerTakes h (.inl hat) _
  case h_3 => exact .rest (.refl s)
  case h_4 hat => exact .workerTakes h (.inr hat) _
  case h_5 => split <;> exact .run .worker ⟨rfl, rfl, rfl, rfl, rfl⟩
  case h_6 => exact .rest (.refl s)

theorem flushStep (h : Located s) : Moves callback s .flusher (s.flushStep callback) := by
  rw [State.flushStep]
  split
  case h_1 => exact .rest (.refl s)
  case h_2 last hat =>
    split
    · obtain ⟨htasks, hhand, haccepted, hexecuted, hcallbacks⟩ := sameTasks_notify s
      split
      · exact .rest ⟨htasks, hhand, haccepted, hexecuted, hcallbacks⟩
      · exact .rest ⟨rfl, rfl, rfl, rfl, rfl⟩
    · next task tasks htasks =>
        have hhand : s.hand .flusher = .empty :=
          h.flusher_hand (fun last' hrun => by rw [hat] at hrun; cases hrun)
        have halone : s.Alone .flusher → s.hand .worker = .empty := fun halone =>
          halone ⟨last, hat⟩ (by rw [htasks]; exact List.cons_ne_nil _ _)
        exact .take .flusher task tasks htasks hhand halone ⟨rfl, rfl, rfl, rfl, rfl⟩
  case h_3 => split <;> exact .run .flusher ⟨rfl, rfl, rfl, rfl, rfl⟩
  case h_4 => exact .rest (.refl s)

theorem addTask (s : State τ) (task : τ) : Moves callback s (.add task) (s.addTask task) := by
  rw [State.addTask]
  split
  · dsimp only
    split
    · exact .push task (sameTasks_notify _)
    · exact .push task (.refl _)
  · exact .rest (.refl s)

theorem of_step (callback : τ → Bool) (h : Located s) (action : Action τ) :
    Moves callback s action (s.step callback action) := by
  cases action with
  | add task => exact addTask s task
  | worker => exact threadMain h
  | wake => exact .rest (sameTasks_notify s)
  | flusher => exact flushStep h
  | stop | flush | shutdown =>
      rw [State.step]
      split <;> exact .rest ⟨rfl, rfl, rfl, rfl, rfl⟩

end Moves

namespace Queue

theorem congr {s' : State τ} (h : Queue callback s) (same : SameTasks s' s) : Queue callback s' := by
  obtain ⟨htasks, hhand, haccepted, hexecuted, hcallbacks⟩ := same
  refine ⟨?_, ?_, ?_⟩
  · rw [hhand]
    exact h.alone
  · rw [hhand, hexecuted, htasks, haccepted]
    exact h.queue
  · rw [hhand, hexecuted, hcallbacks]
    exact h.handed

theorem step (h : Queue callback s) (located : Located s) (action : Action τ)
    (halone : s.Alone action) : Queue callback (s.step callback action) := by
  cases Moves.of_step callback located action with
  | rest same => exact h.congr same
  | push task same => exact (h.push task).congr same
  | take thread task tasks htasks hthread alone same =>
      exact (h.take hthread (alone halone) htasks).congr same
  | run thread same => exact (h.runTask thread).congr same

end Queue

/-! ## The run -/

/-- Where the threads are, and the queue while only one of them has a task. -/
structure Inv (callback : τ → Bool) (s : State τ) : Prop where
  queue : Queue callback s
  working : s.hand .worker ≠ .empty → s.worker = .run
  flushing : s.hand .flusher ≠ .empty → ∃ last, s.flusher = .run last
  woken : s.worker = .waiting false → s.tasks = []
  terminated : s.flusher = .flush true ∨ s.flusher = .run true ∨ s.flusher = .ended ↔
    s.threadState = .terminated
  drained : s.flusher = .ended → s.tasks = []
  ended : s.worker = .ended → s.threadState = .terminated

namespace Inv

theorem located (h : Inv callback s) : Located s :=
  ⟨h.working, h.flushing, h.woken, h.terminated, h.drained, h.ended⟩

theorem of_located (hqueue : Queue callback s) (h : Located s) : Inv callback s :=
  ⟨hqueue, h.working, h.flushing, h.woken, h.terminated, h.drained, h.ended⟩

theorem init : Inv callback (init : State τ) := of_located .init .init

theorem good (h : Inv callback s) : Good callback s where
  executed := ⟨_, by rw [← List.append_assoc]; exact h.queue.queue⟩
  single task task' hworker hflusher := by
    rcases h.queue.alone with halone | halone
    · rw [halone] at hworker
      cases hworker
    · rw [halone] at hflusher
      cases hflusher
  callbacks := by
    have hexecuted : s.executed <+: s.accepted :=
      ⟨_, by rw [← List.append_assoc]; exact h.queue.queue⟩
    exact List.IsPrefix.trans ⟨_, h.queue.handed⟩ (hexecuted.filter callback)
  complete htasks hhands := by
    have hqueue := h.queue.queue
    have hhanded := h.queue.handed
    simp only [hhands, htasks, Hand.todo_empty, Hand.due_empty, List.append_nil] at hqueue hhanded
    exact ⟨hqueue, by rw [hhanded, hqueue]⟩
  live := h.located.live
  drained := h.drained

theorem step (h : Inv callback s) (action : Action τ) (halone : s.Alone action) :
    Inv callback (s.step callback action) :=
  of_located (h.queue.step h.located action halone) (h.located.step action)

end Inv

/-! ## Order and exclusion over runs -/

/-- While neither thread takes a task out over the other's, every run keeps the order of the queue,
runs one query at a time and loses none. -/
theorem tasks_good_throughout (callback : τ → Bool) (actions : List (Action τ))
    (halone : Throughout (step callback) Alone init actions) :
    Throughout (step callback) (fun s action => Good callback (s.step callback action)) init
      actions := by
  have hstep : ∀ (s : State τ) (action : Action τ), Inv callback s → s.Alone action →
      Inv callback (s.step callback action) := fun s action h hc => h.step action hc
  exact throughout_of_inv hstep (fun s action h hc => (h.step action hc).good) Inv.init halone

/-- Two tasks, which the worker takes, and then a shutdown. -/
theorem good_throughout_drained :
    Throughout (step fun task : Nat => task == 2)
      (fun s action => Good (fun task => task == 2) (s.step (fun task => task == 2) action)) init
      [.add 1, .add 2, .worker, .worker, .worker, .worker, .worker, .worker, .shutdown,
        .flusher, .flusher, .flusher, .flusher, .flusher, .worker] := by
  refine tasks_good_throughout _ _ ?_
  repeat' refine throughout_cons.mpr ⟨?_, ?_⟩
  all_goals first | exact trivial | exact throughout_nil | exact fun _ _ => rfl

/-- The worker takes the first task; the shutdown takes the second one and runs it before. -/
theorem flush_overtakes :
    ¬ ∀ (callback : Nat → Bool) (actions : List (Action Nat)),
      Throughout (step callback) (fun s action => Good callback (s.step callback action)) init
        actions := by
  intro hall
  have hgood := hall (fun _ => true)
    [.add 1, .add 2, .worker, .worker, .shutdown, .flusher, .flusher]
    [.add 1, .add 2, .worker, .worker, .shutdown, .flusher] .flusher [] rfl
  have hexecuted : [2] <+: [1, 2] := hgood.executed
  exact absurd hexecuted (by decide)

/-! ## Two threads with tasks in their hands -/

/-- However the threads take turns: each accepted task is in the queue, in a hand or executed, and
its callback is to come or handed on, once; and one query runs at a time. -/
structure Kept (callback : τ → Bool) (s : State τ) : Prop where
  queue : (s.executed ++ ((s.hand .worker).todo ++ (s.hand .flusher).todo) ++ s.tasks).Perm
    s.accepted
  handed : (s.callbacks ++
    ((s.hand .worker).due callback ++ (s.hand .flusher).due callback)).Perm
      (s.executed.filter callback)
  single : ∀ task task', s.hand .worker = .querying task → s.hand .flusher ≠ .querying task'

/-- No signal is lost either, and when both threads have ended every task was run. -/
structure Conserved (callback : τ → Bool) (s : State τ) : Prop extends Kept callback s where
  live : s.tasks ≠ [] → (s.worker ≠ .waiting false ∧ s.worker ≠ .ended) ∨
    s.flusher = .flush true ∨ s.flusher = .run true
  finished : s.worker = .ended → s.flusher = .ended →
    s.executed.Perm s.accepted ∧ s.callbacks.Perm (s.accepted.filter callback)

/-- What is kept, as one of the threads sees it. -/
theorem kept_iff (thread : Thread) :
    Kept callback s ↔
      (s.executed ++ ((s.hand thread).todo ++ (s.hand thread.other).todo) ++ s.tasks).Perm
          s.accepted ∧
        (s.callbacks ++ ((s.hand thread).due callback ++ (s.hand thread.other).due callback)).Perm
          (s.executed.filter callback) ∧
        ∀ task task', s.hand thread = .querying task → s.hand thread.other ≠ .querying task' := by
  cases thread with
  | worker => exact ⟨fun h => ⟨h.queue, h.handed, h.single⟩, fun h => ⟨h.1, h.2.1, h.2.2⟩⟩
  | flusher =>
      have hqueue : (s.executed ++ ((s.hand .flusher).todo ++ (s.hand .worker).todo) ++
          s.tasks).Perm (s.executed ++ ((s.hand .worker).todo ++ (s.hand .flusher).todo) ++
            s.tasks) := (List.perm_append_comm.append_left _).append_right _
      have hhanded : (s.callbacks ++
          ((s.hand .flusher).due callback ++ (s.hand .worker).due callback)).Perm (s.callbacks ++
            ((s.hand .worker).due callback ++ (s.hand .flusher).due callback)) :=
        List.perm_append_comm.append_left _
      constructor
      · exact fun h => ⟨hqueue.trans h.queue, hhanded.trans h.handed,
          fun task task' hflusher hworker => h.single task' task hworker hflusher⟩
      · exact fun h => ⟨hqueue.symm.trans h.1, hhanded.symm.trans h.2.1,
          fun task task' hworker hflusher => h.2.2 task' task hflusher hworker⟩

/-- The same after a step that puts something else into the hand. -/
theorem kept_update (thread : Thread) {s' : State τ} (hand : Hand τ)
    (hs : s'.hand = Function.update s.hand thread hand) :
    Kept callback s' ↔
      (s'.executed ++ (hand.todo ++ (s.hand thread.other).todo) ++ s'.tasks).Perm s'.accepted ∧
        (s'.callbacks ++ (hand.due callback ++ (s.hand thread.other).due callback)).Perm
          (s'.executed.filter callback) ∧
        ∀ task task', hand = .querying task → s.hand thread.other ≠ .querying task' := by
  rw [kept_iff thread, hs, Function.update_self, Function.update_of_ne (other_ne thread)]

namespace Kept

theorem init : Kept callback (init : State τ) where
  queue := .refl _
  handed := .refl _
  single _ _ hworker := by cases hworker

theorem congr {s' : State τ} (h : Kept callback s) (same : SameTasks s' s) : Kept callback s' := by
  obtain ⟨htasks, hhand, haccepted, hexecuted, hcallbacks⟩ := same
  refine ⟨?_, ?_, ?_⟩
  · rw [hhand, hexecuted, htasks, haccepted]
    exact h.queue
  · rw [hhand, hexecuted, hcallbacks]
    exact h.handed
  · rw [hhand]
    exact h.single

theorem push (h : Kept callback s) (task : τ) : Kept callback
    { s with tasks := s.tasks ++ [task], accepted := s.accepted ++ [task] } where
  queue := by
    dsimp only
    rw [← List.append_assoc]
    exact h.queue.append_right [task]
  handed := h.handed
  single := h.single

theorem take (h : Kept callback s) {thread : Thread} (hthread : s.hand thread = .empty)
    {task : τ} {tasks : List τ} (htasks : s.tasks = task :: tasks) :
    Kept callback (s.take thread task tasks) := by
  obtain ⟨hqueue, hhanded, -⟩ := (kept_iff thread).mp h
  rw [hthread, htasks, Hand.todo_empty, List.nil_append] at hqueue
  rw [hthread, Hand.due_empty] at hhanded
  refine (kept_update thread (.taken task) rfl).mpr ⟨?_, hhanded, fun _ _ hand => by cases hand⟩
  -- The task leaves the front of the queue and is in the hand.
  refine List.Perm.trans ?_ hqueue
  rw [Hand.todo_taken, List.append_assoc, List.append_assoc, List.append_assoc,
    List.singleton_append]
  exact List.perm_middle.symm.append_left _

theorem runTask (h : Kept callback s) (thread : Thread) :
    Kept callback (s.runTask callback thread) := by
  obtain ⟨hqueue, hhanded, hsingle⟩ := (kept_iff thread).mp h
  cases hhand : s.hand thread with
  | empty =>
      rw [State.runTask, hhand]
      exact h
  | taken task =>
      rw [hhand] at hqueue hhanded
      rw [State.runTask, hhand]
      dsimp only
      split
      · exact h
      · next hother =>
          refine (kept_update thread (.querying task) rfl).mpr
            ⟨?_, ?_, fun _ task' _ => hother task'⟩
          · rw [Hand.todo_taken, ← List.append_assoc] at hqueue
            exact hqueue
          · rw [Hand.due_taken, List.nil_append] at hhanded
            rw [Hand.due_querying, List.filter_append]
            exact (List.perm_append_comm.append_left _).trans
              (by rw [← List.append_assoc]; exact hhanded.append_right _)
  | querying task =>
      rw [hhand] at hqueue hhanded
      rw [State.runTask, hhand]
      dsimp only
      exact (kept_update thread (.queried task) rfl).mpr
        ⟨hqueue, hhanded, fun _ _ hand => by cases hand⟩
  | queried task =>
      rw [hhand] at hqueue hhanded
      rw [State.runTask, hhand]
      dsimp only
      refine (kept_update thread .empty rfl).mpr ⟨hqueue, ?_, fun _ _ hand => by cases hand⟩
      rw [Hand.due_queried, List.filter_singleton] at hhanded
      cases hcallback : callback task with
      | false =>
          rw [hcallback] at hhanded
          exact hhanded
      | true =>
          rw [hcallback, ← List.append_assoc] at hhanded
          exact hhanded

theorem step (h : Kept callback s) (located : Located s) (action : Action τ) :
    Kept callback (s.step callback action) := by
  cases Moves.of_step callback located action with
  | rest same => exact h.congr same
  | push task same => exact (h.push task).congr same
  | take thread task tasks htasks hthread alone same => exact (h.take hthread htasks).congr same
  | run thread same => exact (h.runTask thread).congr same

/-- Threads that have ended have nothing in their hands. -/
theorem conserved (h : Kept callback s) (located : Located s) : Conserved callback s where
  toKept := h
  live := located.live
  finished hworker hflusher := by
    have hhand : s.hand .worker = .empty := located.worker_hand (by rw [hworker]; rintro ⟨⟩)
    have hhand' : s.hand .flusher = .empty :=
      located.flusher_hand (fun last hrun => by rw [hflusher] at hrun; cases hrun)
    have hqueue := h.queue
    have hhanded := h.handed
    rw [hhand, hhand', located.drained hflusher] at hqueue
    rw [hhand, hhand'] at hhanded
    simp only [Hand.todo_empty, Hand.due_empty, List.append_nil] at hqueue hhanded
    exact ⟨hqueue, hhanded.trans (hqueue.filter callback)⟩

end Kept

/-- In whatever order the two threads step, and with spurious wakes, no task is lost or run twice,
and after the shutdown all of them were run. -/
theorem tasks_conserved (callback : τ → Bool) (actions : List (Action τ)) :
    Conserved callback (run (step callback) init actions) := by
  have hstep : ∀ (s : State τ) (action : Action τ), Kept callback s ∧ Located s → True →
      Kept callback (s.step callback action) ∧ Located (s.step callback action) :=
    fun s action h _ => ⟨h.1.step h.2 action, h.2.step action⟩
  have hinv := run_inv hstep ⟨Kept.init, Located.init⟩ (fun _ _ _ (_ : actions = _) => trivial)
  exact hinv.1.conserved hinv.2

/-- The flush overtakes the worker, and both tasks are run. -/
example : (run (step fun _ : Nat => true) init [.add 1, .add 2, .worker, .worker, .shutdown,
    .flusher, .flusher, .worker, .flusher, .worker, .flusher, .worker, .worker, .flusher,
      .worker]).executed = [2, 1] := rfl

end State

end Bruxo.DatabaseTasks
