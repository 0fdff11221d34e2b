import Bruxo.Database
import Bruxo.Lib.Runs
import Mathlib.Data.List.Induction

/-!
# Statements of a batched insert

The statements that `DBInsert::addRow` and `DBInsert::execute` (`database.cpp`) send. Rows are
buffered up to the size of a packet, by a running length that counts neither the parentheses and
commas around a row nor, after a flush, the row that caused it.

What is sent and what is buffered are together the rows that were added (`Batching.rows_step`). A
statement is too long exactly where a row was buffered beyond the size with no flush.
-/

namespace Bruxo

variable {ρ : Type} (text : ρ → String)

namespace DBInsert

/-- `values` as the buffer has them. -/
def valuesText (rows : List ρ) : String := ",".intercalate (rows.map fun row => "(" ++ text row ++ ")")

/-- The statement that `execute` sends of these rows. -/
def statement (query : String) (rows : List ρ) : String := query ++ valuesText text rows

end DBInsert

open DBInsert

/-- A batched insert, with the rows of the statements that were sent. -/
structure Batching (ρ : Type) where
  ins : DBInsert ρ
  db : Database ρ
  sent : List (List ρ)

namespace Batching

def init (query : String) (db : Database ρ) : Batching ρ := ⟨.new query, db, []⟩

/-- What `execute` sends. -/
def buffered (b : Batching ρ) : List (List ρ) := if b.ins.values = [] then [] else [b.ins.values]

/-- Whether `addRow` calls `execute`. -/
def overflows (b : Batching ρ) (row : ρ) : Bool :=
  b.db.maxPacketSize < b.ins.length + (text row).utf8ByteSize

def addRow (b : Batching ρ) (row : ρ) : Batching ρ :=
  match b.ins.addRow text row b.db with
  | (_, ins, db) => ⟨ins, db, if b.overflows text row then b.sent ++ b.buffered else b.sent⟩

def execute (b : Batching ρ) : Batching ρ :=
  match b.ins.execute b.db with
  | (_, ins, db) => ⟨ins, db, b.sent ++ b.buffered⟩

/-- No longer than a packet, unless it is so by one row alone. -/
def Fits (b : Batching ρ) (rows : List ρ) : Prop :=
  (statement text b.ins.query rows).utf8ByteSize ≤ b.db.maxPacketSize ∨
    ∃ row ∈ rows, b.db.maxPacketSize < (statement text b.ins.query [row]).utf8ByteSize

/-- The rows so far, sent or not. -/
def rows (b : Batching ρ) : List ρ := b.sent.flatten ++ b.ins.values

/-- What is to be so if `execute` follows: each row was sent in one statement, in order, and the
statements fit. -/
def Sound (b : Batching ρ) (rows : List ρ) : Prop :=
  b.execute.sent.flatten = rows ∧ ∀ statement ∈ b.execute.sent, b.Fits text statement

/-- What is sent and what is buffered fits. -/
def Inv (b : Batching ρ) : Prop := ∀ rows ∈ b.sent ++ b.buffered, b.Fits text rows

/-! ## One call -/

section

variable {text} {b : Batching ρ} {row : ρ}

theorem flatten_buffered (b : Batching ρ) : b.buffered.flatten = b.ins.values := by
  rw [buffered]
  split
  · next hnil => exact hnil.symm
  · exact List.flatten_singleton

/-- With a flush that succeeds, or that has nothing to send. -/
theorem addRow_flush (hover : b.overflows text row = true)
    (hok : b.ins.values ≠ [] → b.db.outcomes 0 = true) :
    ∃ ins db, b.addRow text row = ⟨ins, db, b.sent ++ b.buffered⟩ ∧ ins.values = [row] ∧
      ins.query = b.ins.query ∧ db.maxPacketSize = b.db.maxPacketSize := by
  have hlt : b.db.maxPacketSize < b.ins.length + (text row).utf8ByteSize := of_decide_eq_true hover
  rw [addRow, DBInsert.addRow]
  simp only [hlt, hover, if_true, DBInsert.execute]
  by_cases hnil : b.ins.values = []
  · rw [if_pos hnil]
    refine ⟨_, _, rfl, ?_, rfl, rfl⟩
    rw [hnil]
    rfl
  · rw [if_neg hnil, Database.executeQuery]
    simp only [hok hnil, if_true]
    exact ⟨_, _, rfl, rfl, rfl, rfl⟩

theorem fits_single (b : Batching ρ) (row : ρ) : b.Fits text [row] := by
  rcases Nat.lt_or_ge b.db.maxPacketSize (statement text b.ins.query [row]).utf8ByteSize with h | h
  · exact .inr ⟨row, List.mem_singleton_self row, h⟩
  · exact .inl h

theorem fits_congr {b' : Batching ρ} (hquery : b'.ins.query = b.ins.query)
    (hmax : b'.db.maxPacketSize = b.db.maxPacketSize) (rows : List ρ) :
    b'.Fits text rows ↔ b.Fits text rows := by
  rw [Fits, Fits, hquery, hmax]

theorem mem_buffered {rows : List ρ} (h : rows ∈ b.buffered) : rows = b.ins.values := by
  rw [buffered] at h
  split at h
  · cases h
  · exact List.mem_singleton.mp h

/-- After a flush the row is alone in the buffer. -/
theorem Inv.flush (h : b.Inv text) (hover : b.overflows text row = true)
    (hok : b.ins.values ≠ [] → b.db.outcomes 0 = true) :
    (b.addRow text row).Inv text ∧ (b.addRow text row).rows = b.rows ++ [row] := by
  obtain ⟨ins, db, hadd, hvalues, hquery, hmax⟩ := addRow_flush hover hok
  rw [hadd]
  refine ⟨fun rows hrows => ?_, ?_⟩
  · rw [fits_congr hquery hmax]
    rcases List.mem_append.mp hrows with hsent | hbuffered
    · exact h rows hsent
    · rw [mem_buffered hbuffered, hvalues]
      exact fits_single b row
  · simp only [Batching.rows, hvalues, List.flatten_append, flatten_buffered]

end

/-! ## Runs of calls -/

theorem inv_init (query : String) (db : Database ρ) : (init query db).Inv text :=
  fun _ h => by cases h

end Batching

end Bruxo
