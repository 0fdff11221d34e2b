import Bruxo.Lib.Runs
import Mathlib.Logic.Function.Basic

/-!
# The heartbeat of the output messages

`addProtocolToAutosend`, `removeProtocolFromAutosend` and `sendAll` (`outputmessage.cpp`). An
event of the scheduler sends the buffers of all protocols in the list, and schedules the next one
if there are any.

No message waits longer than a period (`Inv.inTime`). The list must not empty and fill again before
the event that is pending has come, for then there are two, and both go on
(`autosend_heartbeat_iff`).
-/

namespace Bruxo.Autosend

variable {π μ : Type}

/-- `OUTPUTMESSAGE_AUTOSEND_DELAY` -/
def delay : Nat := 10

/-! ## The pool -/

structure Pool (π μ : Type) where
  now : Nat
  bufferedProtocols : List π
  /-- What is in the output buffer of a protocol, and since when it waits to be sent. -/
  buffer : π → List (μ × Nat)
  /-- When the pending events are due, the next one first. -/
  events : List Nat
  sent : List (π × μ)

namespace Pool

def init : Pool π μ where
  now := 0
  bufferedProtocols := []
  buffer _ := []
  events := []
  sent := []

def scheduleSendAll (pool : Pool π μ) : Pool π μ :=
  { pool with events := pool.events ++ [pool.now + delay] }

/-! ## The heartbeat -/

/-- No message of a protocol in the list has waited for more than a period. -/
def InTime (pool : Pool π μ) : Prop :=
  ∀ protocol ∈ pool.bufferedProtocols, ∀ msg ∈ pool.buffer protocol, pool.now ≤ msg.2 + delay

/-- One event is pending while there are protocols, and no more than one otherwise. -/
def Heartbeat (pool : Pool π μ) : Prop :=
  (pool.bufferedProtocols ≠ [] → pool.events.length = 1) ∧ pool.events.length ≤ 1 ∧ pool.InTime

structure Inv (pool : Pool π μ) : Prop where
  armed : pool.bufferedProtocols ≠ [] → pool.events ≠ []
  single : pool.events.length ≤ 1
  due : ∀ due ∈ pool.events, pool.now ≤ due ∧ due ≤ pool.now + delay
  waits : ∀ protocol ∈ pool.bufferedProtocols, ∀ msg ∈ pool.buffer protocol,
    ∃ due ∈ pool.events, due ≤ msg.2 + delay

variable {pool : Pool π μ}

namespace Inv

theorem init : Inv (init : Pool π μ) where
  armed h := absurd rfl h
  single := Nat.zero_le 1
  due _ h := by cases h
  waits _ h := by cases h

theorem inTime (h : Inv pool) : pool.InTime := by
  intro protocol hprotocol msg hmsg
  obtain ⟨due, hdue, hle⟩ := h.waits protocol hprotocol msg hmsg
  exact Nat.le_trans (h.due due hdue).1 hle

theorem heartbeat (h : Inv pool) : pool.Heartbeat := by
  refine ⟨fun hne => ?_, h.single, h.inTime⟩
  have := List.length_pos_iff.mpr (h.armed hne)
  have := h.single
  omega

/-- What is written now is sent by the event that is pending. -/
theorem soon (h : Inv pool) (hne : pool.bufferedProtocols ≠ []) :
    ∃ due ∈ pool.events, due ≤ pool.now + delay := by
  obtain ⟨due, hdue⟩ := List.exists_mem_of_ne_nil _ (h.armed hne)
  exact ⟨due, hdue, (h.due due hdue).2⟩

theorem wait (h : Inv pool) (hdue : ∀ due ∈ pool.events, pool.now < due) :
    Inv { pool with now := pool.now + 1 } where
  armed := h.armed
  single := h.single
  due due hmem := ⟨hdue due hmem, Nat.le_succ_of_le (h.due due hmem).2⟩
  waits := h.waits

end Inv

/-! ## The operations -/

variable [DecidableEq π]

/-- `protocol->send(std::move(msg))` -/
def send (pool : Pool π μ) (protocol : π) : Pool π μ :=
  { pool with
    buffer := Function.update pool.buffer protocol []
    sent := pool.sent ++ (pool.buffer protocol).map fun msg => (protocol, msg.1) }

def sendAll (pool : Pool π μ) : Pool π μ :=
  let pool := pool.bufferedProtocols.foldl send pool
  if pool.bufferedProtocols = [] then pool else pool.scheduleSendAll

/-- A message of a protocol that was not in the list waits from now on. -/
def addProtocolToAutosend (pool : Pool π μ) (protocol : π) : Pool π μ :=
  let pool := if pool.bufferedProtocols = [] then pool.scheduleSendAll else pool
  { pool with
    bufferedProtocols := pool.bufferedProtocols ++ [protocol]
    buffer := if protocol ∈ pool.bufferedProtocols then pool.buffer
      else Function.update pool.buffer protocol
        ((pool.buffer protocol).map fun msg => (msg.1, pool.now)) }

/-- `std::swap` with the last one, and `pop_back`. -/
def swapRemove (protocol : π) (protocols : List π) : List π :=
  match protocols.getLast? with
  | none => protocols
  | some last =>
      if protocol ∈ protocols then
        (protocols.set (protocols.idxOf protocol) last).dropLast
      else protocols

def removeProtocolFromAutosend (pool : Pool π μ) (protocol : π) : Pool π μ :=
  { pool with bufferedProtocols := swapRemove protocol pool.bufferedProtocols }

/-- A message that is written by `getOutputBuffer`, which sends a buffer that is full. -/
def write (pool : Pool π μ) (protocol : π) (msg : μ) (full : Bool) : Pool π μ :=
  let pool := if full then pool.send protocol else pool
  { pool with
    buffer := Function.update pool.buffer protocol
      (pool.buffer protocol ++ [(msg, pool.now)]) }

inductive Action (π μ : Type) where
  | add (protocol : π)
  | remove (protocol : π)
  | write (protocol : π) (msg : μ) (full : Bool)
  /-- the next event, if it is due -/
  | tick
  /-- a millisecond in which nothing is due -/
  | wait

def step (pool : Pool π μ) : Action π μ → Pool π μ
  | .add protocol => pool.addProtocolToAutosend protocol
  | .remove protocol => pool.removeProtocolFromAutosend protocol
  | .write protocol msg full => pool.write protocol msg full
  | .tick =>
      match pool.events with
      | [] => pool
      | due :: events =>
          if due ≤ pool.now then sendAll { pool with events := events } else pool
  | .wait => if ∀ due ∈ pool.events, pool.now < due then { pool with now := pool.now + 1 } else pool

/-- The first protocol finds no event pending. -/
def Quiet (pool : Pool π μ) : Action π μ → Prop
  | .add _ => pool.bufferedProtocols = [] → pool.events = []
  | _ => True

/-! ## What they keep -/

theorem mem_send {protocol p : π} {msg : μ × Nat} (h : msg ∈ (pool.send protocol).buffer p) :
    msg ∈ pool.buffer p := by
  rw [send] at h
  dsimp only at h
  by_cases heq : p = protocol
  · subst heq
    rw [Function.update_self] at h
    cases h
  · rw [Function.update_of_ne heq] at h
    exact h

theorem foldl_send (protocols : List π) (pool : Pool π μ) :
    (protocols.foldl send pool).now = pool.now ∧
      (protocols.foldl send pool).bufferedProtocols = pool.bufferedProtocols ∧
      (protocols.foldl send pool).events = pool.events ∧
      ∀ protocol, (protocols.foldl send pool).buffer protocol =
        if protocol ∈ protocols then [] else pool.buffer protocol := by
  induction protocols generalizing pool with
  | nil => exact ⟨rfl, rfl, rfl, fun _ => rfl⟩
  | cons first protocols ih =>
      obtain ⟨hnow, hlist, hevents, hbuffer⟩ := ih (pool.send first)
      refine ⟨hnow, hlist, hevents, fun protocol => ?_⟩
      rw [List.foldl_cons, hbuffer, send]
      by_cases hfirst : protocol = first
      · subst hfirst
        simp
      · simp [hfirst]

theorem swapRemove_subset (protocol : π) (protocols : List π) :
    swapRemove protocol protocols ⊆ protocols := by
  intro p hp
  rw [swapRemove] at hp
  split at hp
  · exact hp
  · next last hlast =>
      split at hp
      · rcases List.mem_or_eq_of_mem_set (List.dropLast_subset _ hp) with hp | heq
        · exact hp
        · exact heq ▸ List.mem_of_getLast? hlast
      · exact hp

namespace Inv

theorem add (h : Inv pool) {protocol : π} (hquiet : pool.Quiet (.add protocol)) :
    Inv (pool.addProtocolToAutosend protocol) := by
  rw [addProtocolToAutosend]
  by_cases hnil : pool.bufferedProtocols = []
  · have hevents : pool.events = [] := hquiet hnil
    simp only [hnil, if_true, scheduleSendAll, hevents, List.not_mem_nil, if_false,
      List.nil_append]
    refine ⟨fun _ => List.cons_ne_nil _ _, Nat.le_refl 1, fun due hdue => ?_,
      fun p hp msg hmsg => ?_⟩
    · obtain rfl := List.mem_singleton.mp hdue
      exact ⟨Nat.le_add_right _ _, Nat.le_refl _⟩
    · obtain rfl := List.mem_singleton.mp hp
      dsimp only at hmsg
      rw [Function.update_self] at hmsg
      obtain ⟨_, _, rfl⟩ := List.mem_map.mp hmsg
      exact ⟨_, List.mem_singleton_self _, Nat.le_refl _⟩
  · simp only [if_neg hnil]
    refine ⟨fun _ => h.armed hnil, h.single, h.due, fun p hp msg hmsg => ?_⟩
    dsimp only at hmsg
    rcases List.mem_append.mp hp with hp | hp
    · split at hmsg
      · exact h.waits p hp msg hmsg
      · next hnot =>
          have hne : p ≠ protocol := fun heq => hnot (heq ▸ hp)
          rw [Function.update_of_ne hne] at hmsg
          exact h.waits p hp msg hmsg
    · obtain rfl := List.mem_singleton.mp hp
      split at hmsg
      · next hmem => exact h.waits p hmem msg hmsg
      · rw [Function.update_self] at hmsg
        obtain ⟨_, _, rfl⟩ := List.mem_map.mp hmsg
        exact h.soon hnil

theorem remove (h : Inv pool) (protocol : π) :
    Inv (pool.removeProtocolFromAutosend protocol) where
  armed hne := h.armed fun hnil => hne
    (List.eq_nil_of_subset_nil (hnil ▸ swapRemove_subset protocol pool.bufferedProtocols))
  single := h.single
  due := h.due
  waits p hp := h.waits p (swapRemove_subset protocol _ hp)

theorem send (h : Inv pool) (protocol : π) : Inv (pool.send protocol) where
  armed := h.armed
  single := h.single
  due := h.due
  waits p hp msg hmsg := h.waits p hp msg (mem_send hmsg)

theorem write (h : Inv pool) (protocol : π) (msg : μ) (full : Bool) :
    Inv (pool.write protocol msg full) := by
  have hsent : Inv (if full then pool.send protocol else pool) := by
    split
    · exact h.send protocol
    · exact h
  rw [Pool.write]
  refine ⟨hsent.armed, hsent.single, hsent.due, fun p hp new hnew => ?_⟩
  dsimp only at hp hnew
  by_cases heq : p = protocol
  · subst heq
    rw [Function.update_self] at hnew
    rcases List.mem_append.mp hnew with hnew | hnew
    · exact hsent.waits p hp new hnew
    · obtain rfl := List.mem_singleton.mp hnew
      exact hsent.soon (List.ne_nil_of_mem hp)
  · rw [Function.update_of_ne heq] at hnew
    exact hsent.waits p hp new hnew

theorem sendAll (h : Inv pool) {due : Nat} {events : List Nat}
    (hevents : pool.events = due :: events) : Inv (sendAll { pool with events := events }) := by
  have hsingle := h.single
  rw [hevents, List.length_cons] at hsingle
  have hnone : events = [] := List.eq_nil_of_length_eq_zero (by omega)
  subst hnone
  obtain ⟨hnow, hlist, hpending, hbuffer⟩ :=
    foldl_send pool.bufferedProtocols { pool with events := [] }
  rw [Pool.sendAll]
  dsimp only at hnow hlist hpending hbuffer ⊢
  rw [hlist]
  split
  · next hnil =>
      refine ⟨fun hne => absurd (hlist.trans hnil) hne, by rw [hpending]; exact Nat.zero_le 1,
        fun due hdue => ?_, fun p hp => ?_⟩
      · rw [hpending] at hdue
        cases hdue
      · rw [hlist, hnil] at hp
        cases hp
  · rw [scheduleSendAll, hpending, hnow, List.nil_append]
    refine ⟨fun _ => List.cons_ne_nil _ _, Nat.le_refl 1, fun due hdue => ?_,
      fun p hp msg hmsg => ?_⟩
    · obtain rfl := List.mem_singleton.mp hdue
      exact ⟨Nat.le_add_right _ _, Nat.le_refl _⟩
    · dsimp only at hp hmsg
      rw [hlist] at hp
      rw [hbuffer, if_pos hp] at hmsg
      cases hmsg

theorem step (h : Inv pool) (action : Action π μ) (hquiet : pool.Quiet action) :
    Inv (pool.step action) := by
  cases action with
  | add protocol => exact h.add hquiet
  | remove protocol => exact h.remove protocol
  | write protocol msg full => exact h.write protocol msg full
  | tick =>
      rw [Pool.step]
      split
      · exact h
      · next due events hevents =>
          split
          · exact h.sendAll hevents
          · exact h
  | wait =>
      rw [Pool.step]
      split
      · next hdue => exact h.wait hdue
      · exact h

end Inv

/-- A second event is pending when a protocol is added to an empty list and one is pending still. -/
theorem not_heartbeat_add {protocol : π} (hnil : pool.bufferedProtocols = [])
    (hevents : pool.events ≠ []) : ¬ (pool.addProtocolToAutosend protocol).Heartbeat := by
  rintro ⟨_, hsingle, _⟩
  have hpos := List.length_pos_iff.mpr hevents
  simp only [addProtocolToAutosend, if_pos hnil, scheduleSendAll, List.length_append,
    List.length_singleton] at hsingle
  omega

theorem heartbeat_step_iff (h : Inv pool) (action : Action π μ) :
    (pool.step action).Heartbeat ↔ pool.Quiet action := by
  refine ⟨fun hbeat => ?_, fun hquiet => (h.step action hquiet).heartbeat⟩
  cases action with
  | add protocol =>
      intro hnil
      by_contra hevents
      exact not_heartbeat_add hnil hevents hbeat
  | _ => trivial

end Pool

open Pool Runs

variable [DecidableEq π]

/-- Every state of a run has its heartbeat exactly where no protocol comes into an empty list while
an event is pending. -/
theorem autosend_heartbeat_iff (actions : List (Action π μ)) :
    Throughout step (fun pool action => (pool.step action).Heartbeat) init actions ↔
      Throughout step Quiet init actions := by
  have hstep : ∀ (pool : Pool π μ) action, pool.Inv → pool.Quiet action → (pool.step action).Inv :=
    fun _ action h => h.step action
  exact throughout_iff hstep (fun _ action h => heartbeat_step_iff h action) Inv.init actions

/-- A session ends and another begins before the next event. -/
theorem two_heartbeats :
    ¬ Throughout step (fun pool action => (pool.step action).Heartbeat) (init : Pool Nat Nat)
      [.add 0, .remove 0, .add 1] := by
  intro h
  exact not_heartbeat_add rfl (by decide) (h [.add 0, .remove 0] (.add 1) [] rfl)

end Bruxo.Autosend
