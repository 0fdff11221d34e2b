import Mathlib.Data.List.Basic

/-!
# The database connection

`database.cpp` seen from its callers: statements that succeed or fail,
transactions, and the batching `DBInsert`. The server is a table of rows
and the snapshot an open transaction would roll back to; which statements
fail is the environment's choice (`outcomes`, one answer per statement),
so a result about a run of statements is about every such choice.

A row is whatever the caller stores; `text` is what it prints into the
statement, and only its length matters here: it decides when `DBInsert`
flushes. Wherever it flushes, the rows already on the server followed by
the rows still buffered grow by exactly the rows added
(`addRows_true`, `execute_true`).
-/

namespace Bruxo

/-! ## The server -/

/-- The statements the modelled callers send. -/
inductive Query (ρ : Type) where
  | startTransaction
  | commit
  | rollback
  | delete
  | insert (rows : List ρ)

/-- The rows the connection sees and, inside a transaction, the rows a
rollback would restore. -/
structure Server (ρ : Type) where
  table : List ρ
  saved : Option (List ρ)

def Query.effect {ρ : Type} : Query ρ → Server ρ → Server ρ
  | .startTransaction, s => { s with saved := some s.table }
  | .commit, s => { s with saved := none }
  | .rollback, s => { table := s.saved.getD s.table, saved := none }
  | .delete, s => { s with table := [] }
  | .insert rows, s => { s with table := s.table ++ rows }

/-! ## `Database` -/

structure Database (ρ : Type) where
  server : Server ρ
  /-- Whether the `n`-th statement sent from now on succeeds. -/
  outcomes : Nat → Bool
  retryQueries : Bool
  /-- How often `databaseLock` is held by transactions. -/
  locks : Int
  maxPacketSize : Nat

namespace Database

variable {ρ : Type}

/-- `Database::executeQuery`. -/
def executeQuery (q : Query ρ) (db : Database ρ) : Bool × Database ρ :=
  let db' := { db with outcomes := fun n => db.outcomes (n + 1) }
  if db.outcomes 0 then (true, { db' with server := q.effect db.server }) else (false, db')

/-- `Database::beginTransaction`. -/
def beginTransaction (db : Database ρ) : Bool × Database ρ :=
  match executeQuery .startTransaction { db with locks := db.locks + 1 } with
  | (true, db) => (true, { db with retryQueries := false })
  | (false, db) => (false, { db with retryQueries := true, locks := db.locks - 1 })

/-- `Database::rollback`. -/
def rollback (db : Database ρ) : Bool × Database ρ :=
  match executeQuery .rollback db with
  | (ok, db) => (ok, { db with retryQueries := true, locks := db.locks - 1 })

/-- `Database::commit`. -/
def commit (db : Database ρ) : Bool × Database ρ :=
  match executeQuery .commit db with
  | (ok, db) => (ok, { db with retryQueries := true, locks := db.locks - 1 })

theorem executeQuery_true {q : Query ρ} {db db' : Database ρ}
    (h : executeQuery q db = (true, db')) :
    db'.server = q.effect db.server ∧ db'.maxPacketSize = db.maxPacketSize := by
  unfold executeQuery at h
  split at h
  · cases h
    exact ⟨rfl, rfl⟩
  · cases h

theorem commit_true {db db' : Database ρ} (h : commit db = (true, db')) :
    db'.server.table = db.server.table := by
  unfold commit at h
  rcases hq : executeQuery .commit db with ⟨ok, db₁⟩
  rw [hq] at h
  cases h
  show db₁.server.table = db.server.table
  rw [(executeQuery_true hq).1]
  rfl

end Database

/-! ## `DBTransaction` -/

/-- `DBTransaction::TransactionStates_t`. -/
inductive TransactionState where
  | noStart
  | start
  | commit

/-- The end of a `DBTransaction`'s scope: its destructor. -/
def TransactionState.destroy {ρ : Type} (state : TransactionState) (db : Database ρ) :
    Database ρ :=
  match state with
  | .start => db.rollback.2
  | _ => db

/-! ## `DBInsert` -/

structure DBInsert (ρ : Type) where
  query : String
  values : List ρ
  length : Nat

namespace DBInsert

variable {ρ : Type}

def new (query : String) : DBInsert ρ :=
  { query := query, values := [], length := query.utf8ByteSize }

/-- `DBInsert::execute`. -/
def execute (ins : DBInsert ρ) (db : Database ρ) : Bool × DBInsert ρ × Database ρ :=
  if ins.values = [] then (true, ins, db)
  else
    match db.executeQuery (.insert ins.values) with
    | (res, db) => (res, { ins with values := [], length := ins.query.utf8ByteSize }, db)

/-- `DBInsert::addRow`. -/
def addRow (text : ρ → String) (row : ρ) (ins : DBInsert ρ) (db : Database ρ) :
    Bool × DBInsert ρ × Database ρ :=
  let ins := { ins with length := ins.length + (text row).utf8ByteSize }
  if db.maxPacketSize < ins.length then
    match ins.execute db with
    | (true, ins, db) => (true, { ins with values := ins.values ++ [row] }, db)
    | (false, ins, db) => (false, ins, db)
  else (true, { ins with values := ins.values ++ [row] }, db)

/-- A caller's loop of `addRow`, left at the first failure. -/
def addRows (text : ρ → String) : List ρ → DBInsert ρ → Database ρ → Bool × DBInsert ρ × Database ρ
  | [], ins, db => (true, ins, db)
  | row :: rows, ins, db =>
      match ins.addRow text row db with
      | (true, ins, db) => addRows text rows ins db
      | (false, ins, db) => (false, ins, db)

/-- The rows on the server followed by the rows still buffered. -/
def pending (ins : DBInsert ρ) (db : Database ρ) : List ρ := db.server.table ++ ins.values

theorem execute_true {ins ins' : DBInsert ρ} {db db' : Database ρ}
    (h : ins.execute db = (true, ins', db')) :
    ins'.values = [] ∧ db'.server.table = ins.pending db := by
  unfold execute at h
  split at h
  · rename_i hnil
    cases h
    exact ⟨hnil, by rw [pending, hnil, List.append_nil]⟩
  · rcases hq : db.executeQuery (.insert ins.values) with ⟨res, db₁⟩
    rw [hq] at h
    cases h
    exact ⟨rfl, congrArg Server.table (Database.executeQuery_true hq).1⟩

theorem addRow_true {text : ρ → String} {row : ρ} {ins ins' : DBInsert ρ} {db db' : Database ρ}
    (h : ins.addRow text row db = (true, ins', db')) :
    ins'.pending db' = ins.pending db ++ [row] := by
  unfold addRow at h
  dsimp only at h
  split at h
  · rcases hx : DBInsert.execute { ins with length := ins.length + (text row).utf8ByteSize } db
      with ⟨res, ins₁, db₁⟩
    rw [hx] at h
    cases res with
    | false => cases h
    | true =>
        cases h
        obtain ⟨hvals, htable⟩ := execute_true hx
        simp only [pending] at htable ⊢
        rw [hvals, htable, List.nil_append]
  · cases h
    simp only [pending, List.append_assoc]

theorem addRows_true {text : ρ → String} {rows : List ρ} {ins ins' : DBInsert ρ}
    {db db' : Database ρ} (h : addRows text rows ins db = (true, ins', db')) :
    ins'.pending db' = ins.pending db ++ rows := by
  induction rows generalizing ins db with
  | nil =>
      cases h
      rw [List.append_nil]
  | cons row rows ih =>
      rw [addRows] at h
      rcases hx : ins.addRow text row db with ⟨res, ins₁, db₁⟩
      rw [hx] at h
      cases res with
      | false => cases h
      | true => rw [ih h, addRow_true hx, List.append_assoc, List.singleton_append]

end DBInsert

end Bruxo
