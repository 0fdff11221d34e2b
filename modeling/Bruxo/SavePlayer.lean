import Bruxo.ItemForestTree
import Bruxo.TransactionLock

/-!
# The transaction of a player

`savePlayer` (`iologindata.cpp`) seen from the lockers. One transaction writes all tables of a
player. The rows of `player_depotlockeritems` are those on the connection; a statement on another
table only succeeds or fails.

The rows are written where every statement succeeds, and otherwise none of it is
(`savePlayer_stored`).
-/

namespace Bruxo.Mail

open ItemForest

variable {ι ρ : Type}

/-! ## Statements -/

/-- The statements inside the transaction. -/
inductive Statement (ρ : Type) where
  | other (text : String)
  | delete
  | insert (rows : List ρ)

namespace Statement

def execute (statement : Statement ρ) (db : Database ρ) : Bool × Database ρ :=
  match statement with
  | .other _ => (db.outcomes 0, { db with outcomes := fun n => db.outcomes (n + 1) })
  | .delete => db.executeQuery .delete
  | .insert rows => db.executeQuery (.insert rows)

def effect (statement : Statement ρ) (table : List ρ) : List ρ :=
  match statement with
  | .other _ => table
  | .delete => []
  | .insert rows => table ++ rows

end Statement

/-- Statements one after the other, left at the first failure. -/
def executeAll : List (Statement ρ) → Database ρ → Bool × Database ρ
  | [], db => (true, db)
  | statement :: statements, db =>
      match statement.execute db with
      | (true, db) => executeAll statements db
      | (false, db) => (false, db)

/-- What is left on the disk when the connection goes. -/
def stored (db : Database ρ) : List ρ := db.server.saved.getD db.server.table

/-! ## Lockers -/

def ITEM_DEPOT : UInt16 := 2594

/-- What the columns of an item are made from. -/
structure Attributes (ι : Type) where
  id : UInt16
  text : List UInt8
  others : List ι

/-- An item, and which it is where that is followed. -/
structure Item (ι : Type) extends Attributes ι where
  uid : Option Nat

abbrev ItemList (ι : Type) := Items (Item ι) (Item ι)

/-- The columns, with the item that they are of. -/
def tagged (f : Format (Attributes ι) (Attributes ι) ρ) :
    Format (Item ι) (Item ι) (Option Nat × ρ) where
  saveItem item := (item.uid, f.saveItem item.toAttributes)
  saveContainer item := (item.uid, f.saveContainer item.toAttributes)
  load columns :=
    (f.load columns.2).map fun item => item.map (⟨·, columns.1⟩) (⟨·, columns.1⟩)
  item_back item := by
    obtain ⟨a, ha⟩ := f.item_back item.toAttributes
    exact ⟨⟨a, item.uid⟩, by rw [ha]; rfl⟩
  container_back item := by
    obtain ⟨b, hb⟩ := f.container_back item.toAttributes
    exact ⟨⟨b, item.uid⟩, by rw [hb]; rfl⟩

/-- What `getItemList` gives `savePlayer`: the chest of the locker is left out. -/
def withoutDepot : ItemList ι → ItemList ι
  | .nil => .nil
  | .item a rest => if a.id ≠ ITEM_DEPOT then .item a (withoutDepot rest) else withoutDepot rest
  | .container b itemlist rest =>
      if b.id ≠ ITEM_DEPOT then .container b itemlist (withoutDepot rest) else withoutDepot rest

structure DepotLocker (ι : Type) where
  itemlist : ItemList ι
  save : Bool

/-- `depotLockerMap` -/
abbrev Lockers (ι : Type) := List (Nat × DepotLocker ι)

/-- The `int32_t` that `ItemBlock` makes of the id of a depot. -/
def pidOf (depotId : Nat) : Int := (Int32.ofNat depotId).toInt

def itemBlocks (lockers : Lockers ι) : List (Int × ItemList ι) :=
  lockers.map fun locker => (pidOf locker.1, withoutDepot locker.2.itemlist)

def needsSave (lockers : Lockers ι) : Bool := lockers.any fun locker => locker.2.save

/-! ## Saving -/

/-- The query of the save, and the statements on the other tables: before the lockers, with them,
and after them. -/
structure Script (ρ : Type) where
  lastlogin : String
  before : List String
  lockers : String
  depots : List String
  after : List String
  /-- A row as it is written into the statement. -/
  text : ρ → String

variable (f : Format (Attributes ι) (Attributes ι) ρ) (script : Script (Row (Option Nat × ρ)))

/-- `addRow` for each row, and `execute`. -/
def insertRows (text : ρ → String) (rows : List ρ) (ins : DBInsert ρ) (db : Database ρ) :
    Bool × Database ρ :=
  match DBInsert.addRows text rows ins db with
  | (false, _, db) => (false, db)
  | (true, ins, db) =>
      match ins.execute db with
      | (ok, _, db) => (ok, db)

/-- The part of the transaction for the lockers and the chests in them. -/
def saveLockers (lockers : Lockers ι) (db : Database (Row (Option Nat × ρ))) :
    Bool × Database (Row (Option Nat × ρ)) :=
  if needsSave lockers then
    match db.executeQuery .delete with
    | (false, db) => (false, db)
    | (true, db) =>
        match insertRows script.text (saveItems (tagged f) (itemBlocks lockers))
            (.new script.lockers) db with
        | (false, db) => (false, db)
        | (true, db) => executeAll (script.depots.map .other) db
  else (true, db)

def write (lockers : Lockers ι) (db : Database (Row (Option Nat × ρ))) :
    Bool × Database (Row (Option Nat × ρ)) :=
  match executeAll (script.before.map .other) db with
  | (false, db) => (false, db)
  | (true, db) =>
      match saveLockers f script lockers db with
      | (false, db) => (false, db)
      | (true, db) => executeAll (script.after.map .other) db

/-- The scope of the `DBTransaction`. -/
def transact (lockers : Lockers ι) (db : Database (Row (Option Nat × ρ))) :
    Bool × Database (Row (Option Nat × ρ)) :=
  match TransactionState.begin db with
  | (false, state, db) => (false, state.destroy db)
  | (true, state, db) =>
      match write f script lockers db with
      | (false, db) => (false, state.destroy db)
      | (true, db) =>
          match state.commitTransaction db with
          | (ok, state, db) => (ok, state.destroy db)

/-- `IOLoginData::savePlayer`, of a player whose column `save` is given. -/
def savePlayer (save : UInt16) (lockers : Lockers ι) (db : Database (Row (Option Nat × ρ))) :
    Bool × Database (Row (Option Nat × ρ)) :=
  match (Statement.other "SELECT `save` FROM `players`").execute db with
  | (false, db) => (false, db)
  | (true, db) =>
      if save = 0 then (Statement.other script.lastlogin).execute db
      else transact f script lockers db

/-! ## Which statements are sent -/

theorem Statement.execute_eq (statement : Statement ρ) (db : Database ρ) :
    statement.execute db = (db.outcomes 0,
      { db with
        outcomes := fun n => db.outcomes (n + 1)
        server := if db.outcomes 0 then
            { db.server with table := statement.effect db.server.table }
          else db.server }) := by
  cases statement <;> cases h : db.outcomes 0 <;>
    simp [Statement.execute, Database.executeQuery, Statement.effect, Query.effect, h]

/-- How it ends when statements were to be executed one after the other. -/
structure Ran (statements : List (Statement ρ)) (db : Database ρ) (result : Bool × Database ρ) :
    Prop where
  saved : result.2.server.saved = db.server.saved
  maxPacketSize : result.2.maxPacketSize = db.maxPacketSize
  true_iff : result.1 = true ↔ ∀ k < statements.length, db.outcomes k = true
  outcomes : result.1 = true → ∀ k, result.2.outcomes k = db.outcomes (k + statements.length)
  table : result.1 = true → result.2.server.table =
    statements.foldl (fun table statement => statement.effect table) db.server.table

theorem executeAll_ran (statements : List (Statement ρ)) (db : Database ρ) :
    Ran statements db (executeAll statements db) := by
  induction statements generalizing db with
  | nil => exact ⟨rfl, rfl, by simp [executeAll], fun _ _ => rfl, fun _ => rfl⟩
  | cons statement statements ih =>
      rw [executeAll, statement.execute_eq]
      cases h : db.outcomes 0 with
      | false =>
          refine ⟨rfl, rfl, ⟨?_, fun hall => ?_⟩, ?_, ?_⟩
          · rintro ⟨⟩
          · exact absurd (hall 0 (Nat.zero_lt_succ _)) (by simp [h])
          · rintro ⟨⟩
          · rintro ⟨⟩
      | true =>
          obtain ⟨hsaved, hmax, hiff, hout, htable⟩ := ih
            { db with
              outcomes := fun n => db.outcomes (n + 1)
              server := { db.server with table := statement.effect db.server.table } }
          refine ⟨hsaved, hmax, hiff.trans ⟨fun hall k hk => ?_, fun hall k hk => ?_⟩,
            fun hok k => ?_, htable⟩
          · cases k with
            | zero => exact h
            | succ k => exact hall k (Nat.lt_of_succ_lt_succ hk)
          · exact hall (k + 1) (Nat.succ_lt_succ hk)
          · exact (hout hok k).trans
              (congrArg db.outcomes (by simp only [List.length_cons]; omega))

theorem executeAll_append (first second : List (Statement ρ)) (db : Database ρ) :
    executeAll (first ++ second) db =
      match executeAll first db with
      | (false, db) => (false, db)
      | (true, db) => executeAll second db := by
  induction first generalizing db with
  | nil => rfl
  | cons statement first ih =>
      rw [List.cons_append, executeAll, executeAll]
      rcases statement.execute db with ⟨ok, db'⟩
      cases ok with
      | false => rfl
      | true => exact ih db'

/-- The rows of each statement that `insertRows` sends, with `values` buffered already. -/
def batches (text : ρ → String) (query maxPacketSize : Nat) :
    List ρ → List ρ → Nat → List (List ρ)
  | [], values, _ => if values = [] then [] else [values]
  | row :: rows, values, length =>
      let length := length + (text row).utf8ByteSize
      if maxPacketSize < length then
        if values = [] then batches text query maxPacketSize rows [row] length
        else values :: batches text query maxPacketSize rows [row] query
      else batches text query maxPacketSize rows (values ++ [row]) length

theorem flatten_batches (text : ρ → String) (query maxPacketSize : Nat) (rows values : List ρ)
    (length : Nat) : (batches text query maxPacketSize rows values length).flatten =
      values ++ rows := by
  induction rows generalizing values length with
  | nil =>
      rw [batches]
      split
      · next hnil => rw [hnil]; rfl
      · simp
  | cons row rows ih =>
      rw [batches]
      split
      · split
        · next hnil => rw [ih, hnil]; rfl
        · rw [List.flatten_cons, ih]; rfl
      · rw [ih, List.append_assoc]; rfl

theorem foldl_insert (rows : List (List ρ)) (table : List ρ) :
    (rows.map Statement.insert).foldl (fun table statement => statement.effect table) table =
      table ++ rows.flatten := by
  induction rows generalizing table with
  | nil => rw [List.flatten_nil, List.append_nil]; rfl
  | cons batch rows ih =>
      rw [List.map_cons, List.foldl_cons, ih, List.flatten_cons, ← List.append_assoc]
      rfl

theorem foldl_other (texts : List String) (table : List ρ) :
    (texts.map Statement.other).foldl (fun table statement => statement.effect table) table =
      table := by
  induction texts with
  | nil => rfl
  | cons text texts ih => exact ih

theorem insertRows_nil (text : ρ → String) (ins : DBInsert ρ) (db : Database ρ) :
    insertRows text [] ins db =
      if ins.values = [] then (true, db) else db.executeQuery (.insert ins.values) := by
  rw [insertRows, DBInsert.addRows]
  simp only [DBInsert.execute]
  split <;> rfl

theorem insertRows_cons (text : ρ → String) (row : ρ) (rows : List ρ) (ins : DBInsert ρ)
    (db : Database ρ) :
    insertRows text (row :: rows) ins db =
      if db.maxPacketSize < ins.length + (text row).utf8ByteSize then
        if ins.values = [] then
          insertRows text rows
            { ins with values := [row], length := ins.length + (text row).utf8ByteSize } db
        else
          match db.executeQuery (.insert ins.values) with
          | (true, db) =>
              insertRows text rows
                { ins with values := [row], length := ins.query.utf8ByteSize } db
          | (false, db) => (false, db)
      else
        insertRows text rows { ins with
          values := ins.values ++ [row]
          length := ins.length + (text row).utf8ByteSize } db := by
  rw [insertRows, DBInsert.addRows, DBInsert.addRow]
  simp only [DBInsert.execute]
  by_cases hover : db.maxPacketSize < ins.length + (text row).utf8ByteSize
  · simp only [if_pos hover]
    by_cases hnil : ins.values = []
    · simp only [hnil]
      rfl
    · simp only [if_neg hnil]
      rcases db.executeQuery (.insert ins.values) with ⟨ok, db'⟩
      cases ok <;> rfl
  · simp only [if_neg hover]
    rfl

theorem insertRows_eq (text : ρ → String) (rows : List ρ) (ins : DBInsert ρ)
    (db : Database ρ) :
    insertRows text rows ins db =
      executeAll ((batches text ins.query.utf8ByteSize db.maxPacketSize rows ins.values
        ins.length).map .insert) db := by
  induction rows generalizing ins db with
  | nil =>
      rw [insertRows_nil, batches]
      split
      · rfl
      · rw [List.map_singleton, executeAll, Statement.execute]
        rcases db.executeQuery (.insert ins.values) with ⟨ok, db'⟩
        cases ok <;> rfl
  | cons row rows ih =>
      rw [insertRows_cons, batches]
      split
      · split
        · exact ih _ db
        · have hmax : (db.executeQuery (.insert ins.values)).2.maxPacketSize =
              db.maxPacketSize := by
            rw [Database.executeQuery]
            split <;> rfl
          rw [List.map_cons, executeAll, Statement.execute]
          rcases h : db.executeQuery (.insert ins.values) with ⟨ok, db'⟩
          rw [h] at hmax
          cases ok with
          | false => rfl
          | true =>
              rw [← hmax]
              exact ih _ db'
      · exact ih _ db

/-! ## All or nothing -/

variable (f : Format (Attributes ι) (Attributes ι) ρ) (script : Script (Row (Option Nat × ρ)))

/-- What `write` sends. -/
def statements (lockers : Lockers ι) (maxPacketSize : Nat) :
    List (Statement (Row (Option Nat × ρ))) :=
  script.before.map .other ++
    ((if needsSave lockers then
        .delete :: ((batches script.text script.lockers.utf8ByteSize maxPacketSize
          (saveItems (tagged f) (itemBlocks lockers)) [] script.lockers.utf8ByteSize).map .insert ++
            script.depots.map .other)
      else []) ++ script.after.map .other)

theorem saveLockers_eq (lockers : Lockers ι) (db : Database (Row (Option Nat × ρ))) :
    saveLockers f script lockers db =
      executeAll (if needsSave lockers then
        .delete :: ((batches script.text script.lockers.utf8ByteSize db.maxPacketSize
          (saveItems (tagged f) (itemBlocks lockers)) [] script.lockers.utf8ByteSize).map .insert ++
            script.depots.map .other)
        else []) db := by
  rw [saveLockers]
  split
  · have hmax : (db.executeQuery .delete).2.maxPacketSize = db.maxPacketSize := by
      rw [Database.executeQuery]
      split <;> rfl
    rw [executeAll, Statement.execute]
    rcases h : db.executeQuery .delete with ⟨ok, db'⟩
    rw [h] at hmax
    cases ok with
    | false => rfl
    | true =>
        dsimp only at hmax ⊢
        rw [executeAll_append, insertRows_eq, hmax, DBInsert.new]
        generalize executeAll _ db' = result
        rcases result with ⟨_ | _, _⟩ <;> rfl
  · rfl

theorem write_eq (lockers : Lockers ι) (db : Database (Row (Option Nat × ρ))) :
    write f script lockers db = executeAll (statements f script lockers db.maxPacketSize) db := by
  rw [write, statements, executeAll_append]
  have hmax := (executeAll_ran (script.before.map .other) db).maxPacketSize
  rcases h : executeAll (script.before.map .other) db with ⟨ok, db'⟩
  rw [h] at hmax
  cases ok with
  | false => rfl
  | true =>
      dsimp only at hmax ⊢
      rw [executeAll_append, saveLockers_eq, hmax]
      generalize executeAll _ db' = result
      rcases result with ⟨_ | _, _⟩ <;> rfl

/-- The rows of the lockers after the statements, which leave them alone where no locker has to be
saved. -/
def written (lockers : Lockers ι) (table : List (Row (Option Nat × ρ))) :
    List (Row (Option Nat × ρ)) :=
  if needsSave lockers then saveItems (tagged f) (itemBlocks lockers) else table

theorem foldl_statements (lockers : Lockers ι) (maxPacketSize : Nat)
    (table : List (Row (Option Nat × ρ))) :
    (statements f script lockers maxPacketSize).foldl
      (fun table statement => statement.effect table) table = written f lockers table := by
  rw [statements, written, List.foldl_append, List.foldl_append, foldl_other, foldl_other]
  split
  · rw [List.foldl_cons, List.foldl_append, foldl_other, foldl_insert, flatten_batches]
    rfl
  · rfl

/-- A transaction that was not committed leaves nothing, whether or not it can be rolled back. -/
theorem stored_destroy (state : TransactionState) (db : Database ρ) :
    stored (state.destroy db) = stored db := by
  cases state with
  | start =>
      rw [TransactionState.destroy, Database.rollback, Database.executeQuery]
      cases db.outcomes 0 <;> rfl
  | noStart => rfl
  | commit => rfl

theorem begin_eq (db : Database ρ) : ∃ db' : Database ρ,
    TransactionState.begin db = (db.outcomes 0, .start, db') ∧
      db'.maxPacketSize = db.maxPacketSize ∧ (∀ k, db'.outcomes k = db.outcomes (k + 1)) ∧
      db'.server = if db.outcomes 0 then ⟨db.server.table, some db.server.table⟩
        else db.server := by
  rw [TransactionState.begin, Database.beginTransaction, Database.executeQuery]
  cases db.outcomes 0 with
  | false => exact ⟨_, rfl, rfl, fun _ => rfl, rfl⟩
  | true => exact ⟨_, rfl, rfl, fun _ => rfl, rfl⟩

theorem commit_eq (db : Database ρ) : ∃ db' : Database ρ,
    TransactionState.start.commitTransaction db = (db.outcomes 0, .commit, db') ∧
      stored db' = if db.outcomes 0 then db.server.table else stored db := by
  rw [TransactionState.commitTransaction, Database.commit, Database.executeQuery]
  cases db.outcomes 0 with
  | false => exact ⟨_, rfl, rfl⟩
  | true => exact ⟨_, rfl, rfl⟩

theorem stored_of_idle {db : Database ρ} (hidle : db.server.saved = none) :
    stored db = db.server.table := by
  rw [stored, hidle]
  rfl

/-- The transaction writes all or nothing, and all where `START TRANSACTION`, the statements and
`COMMIT` succeed. -/
theorem transact_stored (lockers : Lockers ι) {db : Database (Row (Option Nat × ρ))}
    (hidle : db.server.saved = none) :
    stored (transact f script lockers db).2 =
      if ∀ k < (statements f script lockers db.maxPacketSize).length + 2,
          db.outcomes k = true then
        written f lockers db.server.table
      else db.server.table := by
  obtain ⟨db₁, hbegin, hmax₁, hout₁, hserver₁⟩ := begin_eq db
  rw [transact, hbegin]
  cases h0 : db.outcomes 0 with
  | false =>
      rw [h0, if_neg Bool.false_ne_true] at hserver₁
      have hfail : ¬ ∀ k < (statements f script lockers db.maxPacketSize).length + 2,
          db.outcomes k = true := fun hall =>
        absurd (hall 0 (Nat.zero_lt_succ _)) (by simp [h0])
      rw [if_neg hfail, stored_destroy, stored, hserver₁]
      exact stored_of_idle hidle
  | true =>
      rw [h0, if_pos rfl] at hserver₁
      have hran := executeAll_ran (statements f script lockers db₁.maxPacketSize) db₁
      rw [← write_eq, hmax₁] at hran
      dsimp only
      rcases hwrite : write f script lockers db₁ with ⟨ok, db₂⟩
      rw [hwrite] at hran
      obtain ⟨hsaved, _, hiff, hout, htable⟩ := hran
      dsimp only at hsaved hiff hout htable
      have hkept : stored db₂ = db.server.table := by
        rw [stored, hsaved, hserver₁]
        rfl
      cases ok with
      | false =>
          have hfail : ¬ ∀ k < (statements f script lockers db.maxPacketSize).length + 2,
              db.outcomes k = true := fun hall =>
            absurd (hiff.mpr fun k hk => by rw [hout₁]; exact hall _ (by omega)) (by simp)
          rw [if_neg hfail, stored_destroy, hkept]
      | true =>
          obtain ⟨db₃, hcommit, hstored⟩ := commit_eq db₂
          have hwritten := hiff.mp rfl
          dsimp only
          rw [hcommit]
          dsimp only
          rw [stored_destroy, hstored, hkept, htable rfl, foldl_statements f script lockers,
            hserver₁]
          have hlast : db₂.outcomes 0 =
              db.outcomes ((statements f script lockers db.maxPacketSize).length + 1) := by
            rw [hout rfl, hout₁, Nat.zero_add]
          refine if_congr ⟨fun h k hk => ?_, fun hall => ?_⟩ rfl rfl
          · rcases k with _ | k
            · exact h0
            · rcases Nat.lt_succ_iff_lt_or_eq.mp (Nat.lt_of_succ_lt_succ hk) with hk | rfl
              · rw [← hout₁]
                exact hwritten k hk
              · rw [← hlast, h]
          · rw [hlast]
            exact hall _ (by omega)

/-- The statements of `savePlayer` that have to succeed: those of `write`, the query of the column
`save`, and what begins and commits the transaction. -/
def AllSucceed (lockers : Lockers ι) (db : Database (Row (Option Nat × ρ))) : Prop :=
  ∀ k < (statements f script lockers db.maxPacketSize).length + 3, db.outcomes k = true

theorem savePlayer_stored (save : UInt16) (lockers : Lockers ι)
    {db : Database (Row (Option Nat × ρ))} (hidle : db.server.saved = none) :
    (save ≠ 0 ∧ AllSucceed f script lockers db ∧
        stored (savePlayer f script save lockers db).2 = written f lockers db.server.table) ∨
      (¬ (save ≠ 0 ∧ AllSucceed f script lockers db) ∧
        stored (savePlayer f script save lockers db).2 = db.server.table) := by
  have hidle' : ({ db with outcomes := fun n => db.outcomes (n + 1) } :
      Database (Row (Option Nat × ρ))).server.saved = none := hidle
  rw [savePlayer, Statement.execute]
  cases hselect : db.outcomes 0 with
  | false =>
      exact .inr ⟨fun h => absurd (h.2 0 (Nat.zero_lt_succ _)) (by simp [hselect]),
        stored_of_idle hidle⟩
  | true =>
      dsimp only
      split
      · next hzero => exact .inr ⟨fun h => h.1 hzero, stored_of_idle hidle⟩
      · next hzero =>
          rw [transact_stored f script lockers hidle']
          split
          · next hall =>
              refine .inl ⟨hzero, fun k hk => ?_, rfl⟩
              rcases k with _ | k
              · exact hselect
              · exact hall k (Nat.lt_of_succ_lt_succ hk)
          · next hall =>
              exact .inr ⟨fun h => hall fun k hk => h.2 (k + 1) (Nat.succ_lt_succ hk), rfl⟩

end Bruxo.Mail
