import Bruxo.Database
import Bruxo.Lib.Runs

/-!
# The lock of the database

`DBTransaction` (`database.h`) over `Database` (`database.cpp`). A transaction holds the lock of
the database from `begin` to its end, and the end of its scope rolls back what was not committed.

If each `START TRANSACTION` succeeds, and each `COMMIT` and `ROLLBACK` that has something to end,
the lock is held once for each transaction that runs (`Session.Inv`). `begin` takes the state for
started before it knows, and so the scope of a transaction that was not started gives back a lock
that is not held.
-/

namespace Bruxo

variable {ρ : Type}

namespace TransactionState

/-- `DBTransaction::begin` -/
def begin (db : Database ρ) : Bool × TransactionState × Database ρ :=
  match db.beginTransaction with
  | (ok, db) => (ok, .start, db)

/-- `DBTransaction::commit` -/
def commitTransaction (state : TransactionState) (db : Database ρ) :
    Bool × TransactionState × Database ρ :=
  match state with
  | .start =>
      match db.commit with
      | (ok, db) => (ok, .commit, db)
  | state => (false, state, db)

def isStart : TransactionState → Bool
  | .start => true
  | _ => false

end TransactionState

/-! ## Sessions -/

/-- The transactions in scope, the innermost last, and which of them started the one that is open
on the server. -/
structure Session (ρ : Type) where
  db : Database ρ
  objects : List TransactionState
  opener : Option Nat

namespace Session

def init (db : Database ρ) : Session ρ := ⟨db, [], none⟩

/-- Who started what is open still. -/
def stillOpen (s : Session ρ) (db : Database ρ) : Option Nat :=
  if db.server.saved.isSome then s.opener else none

inductive Op (ρ : Type) where
  | construct
  | begin (i : Nat)
  | commit (i : Nat)
  | destroy
  | delete
  | insert (rows : List ρ)

def step (s : Session ρ) : Op ρ → Session ρ
  | .construct => { s with objects := s.objects ++ [.noStart] }
  | .begin i =>
      match s.objects[i]? with
      | none => s
      | some _ =>
          match TransactionState.begin s.db with
          | (ok, state, db) =>
              { db := db
                objects := s.objects.set i state
                opener := if ok then some i else s.opener }
  | .commit i =>
      match s.objects[i]? with
      | none => s
      | some state =>
          match state.commitTransaction s.db with
          | (_, state, db) =>
              { db := db, objects := s.objects.set i state, opener := s.stillOpen db }
  | .destroy =>
      match s.objects.getLast? with
      | none => s
      | some state =>
          let db := state.destroy s.db
          { db := db, objects := s.objects.dropLast, opener := s.stillOpen db }
  | .delete => { s with db := (s.db.executeQuery .delete).2 }
  | .insert rows => { s with db := (s.db.executeQuery (.insert rows)).2 }

/-- How many transactions run. -/
def running (s : Session ρ) : Nat := s.objects.countP TransactionState.isStart

/-- What a step is to leave: the lock was not given back while it was not held, and is free when no
transaction is in scope; what a transaction started on the server has ended with it. -/
def Balanced (s : Session ρ) (op : Op ρ) : Prop :=
  0 ≤ (s.step op).db.locks ∧ ((s.step op).objects = [] → (s.step op).db.locks = 0) ∧
    ∀ i, (s.step op).opener = some i → i < (s.step op).objects.length

/-- No transaction is begun twice, and the statements that begin one and that end one which is
open succeed. -/
def Succeeds (s : Session ρ) : Op ρ → Prop
  | .begin i => s.objects[i]? ≠ some .start ∧ s.db.outcomes 0 = true
  | .commit i =>
      s.objects[i]? = some .start → s.db.server.saved.isSome → s.db.outcomes 0 = true
  | .destroy =>
      s.objects.getLast? = some .start → s.db.server.saved.isSome → s.db.outcomes 0 = true
  | _ => True

/-- The lock is held by each transaction that runs, and one of them started what is open. -/
structure Inv (s : Session ρ) : Prop where
  locks : s.db.locks = s.running
  opened : s.opener.isSome = s.db.server.saved.isSome
  opener : ∀ i, s.opener = some i → s.objects[i]? = some .start

/-! ## What the methods do -/

theorem begin_spec {db : Database ρ} (h : db.outcomes 0 = true) :
    (TransactionState.begin db).1 = true ∧ (TransactionState.begin db).2.1 = .start ∧
      (TransactionState.begin db).2.2.locks = db.locks + 1 ∧
      (TransactionState.begin db).2.2.server.saved.isSome = true := by
  rw [TransactionState.begin, Database.beginTransaction, Database.executeQuery]
  simp only [h, if_true]
  exact ⟨trivial, trivial, trivial, rfl⟩

/-- `COMMIT` and `ROLLBACK` give the lock back, whether they succeed or not. -/
theorem commit_spec {db : Database ρ}
    (h : db.server.saved.isSome = true → db.outcomes 0 = true) :
    db.commit.2.locks = db.locks - 1 ∧ db.commit.2.server.saved = none := by
  rw [Database.commit, Database.executeQuery]
  cases hok : db.outcomes 0 with
  | true => exact ⟨rfl, rfl⟩
  | false =>
      refine ⟨rfl, ?_⟩
      rw [hok] at h
      exact Option.not_isSome_iff_eq_none.mp fun hsome => Bool.false_ne_true (h hsome)

theorem rollback_spec {db : Database ρ}
    (h : db.server.saved.isSome = true → db.outcomes 0 = true) :
    db.rollback.2.locks = db.locks - 1 ∧ db.rollback.2.server.saved = none := by
  rw [Database.rollback, Database.executeQuery]
  cases hok : db.outcomes 0 with
  | true => exact ⟨rfl, rfl⟩
  | false =>
      refine ⟨rfl, ?_⟩
      rw [hok] at h
      exact Option.not_isSome_iff_eq_none.mp fun hsome => Bool.false_ne_true (h hsome)

theorem executeQuery_data {db : Database ρ} {q : Query ρ}
    (hq : ∀ server, (q.effect server).saved = server.saved) :
    (db.executeQuery q).2.locks = db.locks ∧
      (db.executeQuery q).2.server.saved = db.server.saved := by
  rw [Database.executeQuery]
  split
  · exact ⟨rfl, hq db.server⟩
  · exact ⟨rfl, rfl⟩

/-! ## The invariant -/

theorem set_self {objects : List TransactionState} {i : Nat} {state : TransactionState}
    (h : objects[i]? = some state) : objects.set i state = objects := by
  obtain ⟨hlt, rfl⟩ := List.getElem?_eq_some_iff.mp h
  exact List.set_getElem_self hlt

theorem countP_set {objects : List TransactionState} {i : Nat} {old : TransactionState}
    (h : objects[i]? = some old) (new : TransactionState) :
    (objects.set i new).countP TransactionState.isStart + old.isStart.toNat =
      objects.countP TransactionState.isStart + new.isStart.toNat := by
  obtain ⟨hlt, rfl⟩ := List.getElem?_eq_some_iff.mp h
  have hpos : objects[i].isStart = true → 0 < objects.countP TransactionState.isStart :=
    fun hstart => List.countP_pos_iff.mpr ⟨_, List.getElem_mem hlt, hstart⟩
  rw [List.countP_set hlt]
  cases hold : objects[i].isStart with
  | true =>
      have := hpos hold
      cases new <;> simp [TransactionState.isStart] <;> omega
  | false => cases new <;> simp [TransactionState.isStart]

theorem inv_init {db : Database ρ} (hlocks : db.locks = 0) (hsaved : db.server.saved = none) :
    Inv (init db) where
  locks := hlocks
  opened := by
    rw [init, hsaved]
    rfl
  opener := by
    intro i h
    cases h

theorem Inv.data {s : Session ρ} (h : Inv s) {q : Query ρ}
    (hq : ∀ server, (q.effect server).saved = server.saved) :
    Inv { s with db := (s.db.executeQuery q).2 } where
  locks := (executeQuery_data hq).1.trans h.locks
  opened := by
    show _ = (s.db.executeQuery q).2.server.saved.isSome
    rw [(executeQuery_data hq).2]
    exact h.opened
  opener := h.opener

theorem Inv.construct {s : Session ρ} (h : Inv s) : Inv (s.step .construct) where
  locks := by
    show s.db.locks =
      ((s.objects ++ [TransactionState.noStart]).countP TransactionState.isStart : Int)
    rw [List.countP_append]
    exact h.locks
  opened := h.opened
  opener := by
    intro i hi
    have hstart := h.opener i hi
    exact (List.getElem?_append_left (List.getElem?_eq_some_iff.mp hstart).1).trans hstart

theorem Inv.begin {s : Session ρ} (h : Inv s) {i : Nat} (hnot : s.objects[i]? ≠ some .start)
    (hok : s.db.outcomes 0 = true) : Inv (s.step (.begin i)) := by
  rw [Session.step]
  cases hget : s.objects[i]? with
  | none => exact h
  | some old =>
      obtain ⟨htrue, hstart, hlocks, hsaved⟩ := begin_spec hok
      have hcount := countP_set hget .start
      have hold : old.isStart = false := by
        cases old with
        | start => exact absurd hget hnot
        | noStart | commit => rfl
      simp only [htrue, hstart, if_true]
      refine ⟨?_, by simp [hsaved], ?_⟩
      · have hafter : ((s.objects.set i .start).countP TransactionState.isStart : Int) =
            s.objects.countP TransactionState.isStart + 1 := by
          rw [hold] at hcount
          simp only [Bool.toNat_false, TransactionState.isStart, Bool.toNat_true] at hcount
          omega
        show _ = ((s.objects.set i .start).countP TransactionState.isStart : Int)
        rw [hafter, hlocks, h.locks]
        rfl
      · intro j hj
        obtain rfl := Option.some.inj hj
        exact List.getElem?_set_self (List.getElem?_eq_some_iff.mp hget).1

theorem Inv.commit {s : Session ρ} (h : Inv s) {i : Nat}
    (hc : s.Succeeds (.commit i)) : Inv (s.step (.commit i)) := by
  rw [Session.step]
  cases hget : s.objects[i]? with
  | none => exact h
  | some state =>
      have hidle : ∀ opener, opener = s.stillOpen s.db →
          Inv ⟨s.db, s.objects.set i state, opener⟩ := by
        rintro _ rfl
        rw [set_self hget]
        refine ⟨h.locks, ?_, fun j hj => ?_⟩
        · rw [stillOpen]
          split
          · exact h.opened
          · next hnone =>
              simpa using hnone
        · rw [stillOpen] at hj
          split at hj
          · exact h.opener j hj
          · cases hj
      cases state with
      | start =>
          obtain ⟨hlocks, hsaved⟩ := commit_spec (hc hget)
          have hcount := countP_set hget .commit
          have hafter : ((s.objects.set i .commit).countP TransactionState.isStart : Int) =
              s.objects.countP TransactionState.isStart - 1 := by
            simp only [TransactionState.isStart, Bool.toNat_true, Bool.toNat_false] at hcount
            omega
          simp only [TransactionState.commitTransaction]
          refine ⟨?_, by simp [stillOpen, hsaved], fun j hj => ?_⟩
          · show _ = ((s.objects.set i .commit).countP TransactionState.isStart : Int)
            rw [hafter, hlocks, h.locks]
            rfl
          · simp [stillOpen, hsaved] at hj
      | noStart => exact hidle _ rfl
      | commit => exact hidle _ rfl

theorem Inv.destroy {s : Session ρ} (h : Inv s) (hc : s.Succeeds .destroy) :
    Inv (s.step .destroy) := by
  rw [Session.step]
  cases hlast : s.objects.getLast? with
  | none => exact h
  | some state =>
      obtain ⟨before, hobjects⟩ := List.getLast?_eq_some_iff.mp hlast
      have hdrop : s.objects.dropLast = before := by
        rw [hobjects, List.dropLast_concat]
      have hcount : s.objects.countP TransactionState.isStart =
          before.countP TransactionState.isStart + state.isStart.toNat := by
        rw [hobjects, List.countP_append, List.countP_singleton]
        cases state <;> rfl
      have hidle : state.isStart = false → ∀ opener, opener = s.stillOpen s.db →
          Inv ⟨s.db, before, opener⟩ := by
        rintro hstate _ rfl
        rw [hstate] at hcount
        refine ⟨?_, ?_, fun j hj => ?_⟩
        · rw [h.locks, running, hcount]
          rfl
        · rw [stillOpen]
          split
          · exact h.opened
          · next hnone =>
              simpa using hnone
        · rw [stillOpen] at hj
          split at hj
          · have hstart := h.opener j hj
            rw [hobjects, List.getElem?_append] at hstart
            split at hstart
            · exact hstart
            · obtain rfl := List.mem_singleton.mp (List.mem_of_getElem? hstart)
              cases hstate
          · cases hj
      cases state with
      | start =>
          obtain ⟨hlocks, hsaved⟩ := rollback_spec (hc hlast)
          simp only [TransactionState.destroy, hdrop]
          refine ⟨?_, by simp [stillOpen, hsaved], fun j hj => ?_⟩
          · show _ = (before.countP TransactionState.isStart : Int)
            rw [hlocks, h.locks, running, hcount]
            simp only [TransactionState.isStart, Bool.toNat_true]
            omega
          · simp [stillOpen, hsaved] at hj
      | noStart =>
          simp only [TransactionState.destroy, hdrop]
          exact hidle rfl _ rfl
      | commit =>
          simp only [TransactionState.destroy, hdrop]
          exact hidle rfl _ rfl

theorem Inv.step {s : Session ρ} (h : Inv s) {op : Op ρ} (hc : s.Succeeds op) :
    Inv (s.step op) := by
  cases op with
  | construct => exact h.construct
  | begin i => exact h.begin hc.1 hc.2
  | commit i => exact h.commit hc
  | destroy => exact h.destroy hc
  | delete => exact h.data fun _ => rfl
  | insert rows => exact h.data fun _ => rfl

theorem Inv.balanced {s : Session ρ} {op : Op ρ} (h : Inv (s.step op)) : s.Balanced op := by
  refine ⟨?_, fun hnil => ?_, fun i hi => ?_⟩
  · rw [h.locks]
    exact Int.natCast_nonneg _
  · rw [h.locks, running, hnil]
    rfl
  · exact (List.getElem?_eq_some_iff.mp (h.opener i hi)).1

/-! ## Runs -/

theorem transaction_lock_balanced {db : Database ρ} (hlocks : db.locks = 0)
    (hsaved : db.server.saved = none) {ops : List (Op ρ)}
    (hc : Runs.Throughout step Succeeds (init db) ops) :
    Runs.Throughout step Balanced (init db) ops :=
  Runs.throughout_of_inv (fun _ _ h hc => h.step hc) (fun _ _ h hc => (h.step hc).balanced)
    (inv_init hlocks hsaved) hc

/-- A database that answers every statement so. -/
def answering (ok : Bool) : Database Unit :=
  { server := ⟨[], none⟩, outcomes := fun _ => ok, retryQueries := true, locks := 0,
    maxPacketSize := 1048576 }

/-- A transaction in another, each with a row. -/
def nested : List (Op Unit) :=
  [.construct, .begin 0, .insert [()], .construct, .begin 1, .insert [()], .commit 1, .destroy,
    .commit 0, .destroy]

theorem transaction_lock_balanced_nested :
    Runs.Throughout step Balanced (init (answering true)) nested := by
  refine transaction_lock_balanced rfl rfl ?_
  simp only [nested, Runs.throughout_cons]
  refine ⟨trivial, ⟨?_, rfl⟩, trivial, trivial, ⟨?_, rfl⟩, trivial, fun _ _ => rfl, fun _ _ => rfl,
    fun _ _ => rfl, fun _ _ => rfl, Runs.throughout_nil⟩
  · intro h
    cases h
  · intro h
    cases h

/-- The scope of a transaction that was not started gives back a lock that it does not hold, and
one whose `COMMIT` fails leaves its transaction open. -/
theorem transaction_lock_not_balanced :
    (Runs.run step (init (answering false)) [.construct, .begin 0, .destroy]).db.locks = -1 ∧
    (Runs.run step (init { answering true with outcomes := fun n => n = 0 })
      [.construct, .begin 0, .commit 0, .destroy]).opener = some 0 ∧
    ¬ ∀ (db : Database Unit) (ops : List (Op Unit)), db.locks = 0 → db.server.saved = none →
      Runs.Throughout step Balanced (init db) ops := by
  refine ⟨rfl, rfl, fun hclaim => ?_⟩
  have hrun := hclaim (answering false) [.construct, .begin 0, .destroy] rfl rfl
  obtain ⟨hlocks, -⟩ := hrun [.construct, .begin 0] .destroy [] rfl
  exact absurd hlocks (by decide)

end Session

end Bruxo
