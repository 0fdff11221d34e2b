import Bruxo.Database
import Bruxo.PlayerRow
import Mathlib.Data.List.AList
import Mathlib.Data.List.Perm.Basic

/-!
# Game storage

`Game::storageMap`, and saving it to and loading it from the table `game_storage`. A value has 64
bits when it is written and is read as a number of 32 bits: `getNumber` takes zero for the text of
one that has more (`readValue_eq_iff`).

A save works inside a transaction. Whatever fails in it, the rows that are committed stay
(`Quiet.stored`); only what an earlier transaction had left open is committed with the beginning
of the next one.
-/

namespace Bruxo.GameStorage

open Decimal PlayerRow

/-! ## The map -/

/-- `Game::storageMap`, in the order of the iteration. -/
abbrev StorageMap := AList (fun _ : UInt32 => Int64)

def setStorageValue (storageMap : StorageMap) (key : UInt32) (value : Option Int64) : StorageMap :=
  match value with
  | some value => storageMap.insert key value
  | none => storageMap.erase key

def getStorageValue (storageMap : StorageMap) (key : UInt32) : Option Int64 := storageMap.lookup key

/-! ## Saving -/

/-- The columns `key` and `value`, as text. -/
abbrev Row := Text × Text

def Row.text (row : Row) : String := String.ofList (row.1 ++ [',', ' '] ++ row.2)

def insertQuery : String := "INSERT INTO `game_storage` (`key`, `value`) VALUES"

/-- The loop of `saveGameStorageValues`, with an insert for each entry. -/
def saveEntries : List (Σ _ : UInt32, Int64) → Database Row → Bool × Database Row
  | [], db => (true, db)
  | entry :: entries, db =>
      match (DBInsert.new insertQuery).addRow Row.text (storageRow entry) db with
      | (false, _, db) => (false, db)
      | (true, gameStorageQuery, db) =>
          match gameStorageQuery.execute db with
          | (false, _, db) => (false, db)
          | (true, _, db) => saveEntries entries db

/-- `Game::saveGameStorageValues`; the end of the scope destroys the transaction. -/
def saveGameStorageValues (storageMap : StorageMap) (db : Database Row) : Bool × Database Row :=
  match db.beginTransaction with
  | (false, db) => (false, TransactionState.start.destroy db)
  | (true, db) =>
      match db.executeQuery .delete with
      | (false, db) => (false, TransactionState.start.destroy db)
      | (true, db) =>
          match saveEntries storageMap.entries db with
          | (false, db) => (false, TransactionState.start.destroy db)
          | (true, db) =>
              match db.commit with
              | (ok, db) => (ok, TransactionState.commit.destroy db)

/-! ## Loading -/

def readKey (row : Row) : UInt32 := getNumber toUInt32 (some row.1)

/-- The value is read as an `int32_t`. -/
def readValue (row : Row) : Int64 := (getNumber toInt32 (some row.2) : Int32).toInt64

/-- `Game::loadGameStorageValues`, over the rows of the `SELECT`. -/
def loadGameStorageValues (rows : List Row) (storageMap : StorageMap) : StorageMap :=
  rows.foldl (fun storageMap row => setStorageValue storageMap (readKey row) (some (readValue row)))
    storageMap

/-! ## What is read back -/

/-- The value is one of 32 bits. -/
def Narrow (value : Int64) : Prop := -2 ^ 31 ≤ value.toInt ∧ value.toInt < 2 ^ 31

instance (value : Int64) : Decidable (Narrow value) := inferInstanceAs (Decidable (_ ∧ _))

theorem readKey_storageRow (entry : Σ _ : UInt32, Int64) :
    readKey (storageRow entry) = entry.1 :=
  getNumber_uint32 entry.1

theorem readValue_narrow {entry : Σ _ : UInt32, Int64} (h : Narrow entry.2) :
    readValue (storageRow entry) = entry.2 := by
  have hread : readSigned 32 (ofInt entry.2.toInt) = some entry.2.toInt :=
    readSigned_ofInt h.1 h.2
  rw [readValue, storageRow, getNumber, Option.bind_some, toInt32, hread]
  refine Int64.toInt_inj.mp ?_
  show (Int32.ofInt entry.2.toInt).toInt64.toInt = entry.2.toInt
  rw [Int32.toInt_toInt64]
  exact Int32.toInt_ofInt_of_le h.1 h.2

/-- A value of more bits is read as zero. -/
theorem readValue_wide {entry : Σ _ : UInt32, Int64} (h : ¬ Narrow entry.2) :
    readValue (storageRow entry) = 0 := by
  have hread : readSigned 32 (ofInt entry.2.toInt) = none := readSigned_ofInt_none h
  rw [readValue, storageRow, getNumber, Option.bind_some, toInt32, hread]
  rfl

theorem readValue_eq_iff (entry : Σ _ : UInt32, Int64) :
    readValue (storageRow entry) = entry.2 ↔ Narrow entry.2 := by
  constructor
  · intro heq
    by_contra hwide
    rw [readValue_wide hwide] at heq
    rw [← heq] at hwide
    exact hwide (by decide)
  · exact readValue_narrow

theorem getStorageValue_load_of_not_mem {rows : List Row} {storageMap : StorageMap} {key : UInt32}
    (h : key ∉ rows.map readKey) :
    getStorageValue (loadGameStorageValues rows storageMap) key
      = getStorageValue storageMap key := by
  induction rows generalizing storageMap with
  | nil => rfl
  | cons row rows ih =>
      rw [List.map_cons, List.mem_cons, not_or] at h
      rw [loadGameStorageValues, List.foldl_cons, ← loadGameStorageValues, ih h.2]
      exact AList.lookup_insert_ne h.1

/-- A table without duplicate keys is read back row by row, in whatever order the rows come. -/
theorem getStorageValue_load_of_mem {rows : List Row} {storageMap : StorageMap} {row : Row}
    (hnodup : (rows.map readKey).Nodup) (hrow : row ∈ rows) :
    getStorageValue (loadGameStorageValues rows storageMap) (readKey row)
      = some (readValue row) := by
  induction rows generalizing storageMap with
  | nil => cases hrow
  | cons row' rows ih =>
      obtain ⟨hfresh, hnodup⟩ := List.nodup_cons.mp hnodup
      rw [loadGameStorageValues, List.foldl_cons, ← loadGameStorageValues]
      rcases List.mem_cons.mp hrow with rfl | hrow
      · rw [getStorageValue_load_of_not_mem hfresh]
        exact AList.lookup_insert _
      · exact ih hnodup hrow

/-- Loading what was written gives every value back if and only if they all have 32 bits. -/
theorem load_rows_iff (storageMap : StorageMap) {rows : List Row}
    (hrows : rows.Perm (storageMap.entries.map storageRow)) :
    (∀ key, getStorageValue (loadGameStorageValues rows ∅) key = getStorageValue storageMap key)
      ↔ ∀ entry ∈ storageMap.entries, Narrow entry.2 := by
  have hkeys : (rows.map readKey).Perm storageMap.keys := by
    have hmap := hrows.map readKey
    rw [List.map_map] at hmap
    exact hmap.trans (List.Perm.of_eq (List.map_congr_left fun entry _ => readKey_storageRow entry))
  have hnodup : (rows.map readKey).Nodup := hkeys.nodup_iff.mpr storageMap.nodupKeys
  have hload : ∀ entry ∈ storageMap.entries,
      getStorageValue (loadGameStorageValues rows ∅) entry.1
        = some (readValue (storageRow entry)) := by
    intro entry hentry
    have hrow := hrows.symm.subset (List.mem_map_of_mem hentry)
    rw [← readKey_storageRow entry]
    exact getStorageValue_load_of_mem hnodup hrow
  constructor
  · intro h entry hentry
    have hvalue := h entry.1
    rw [hload entry hentry, getStorageValue, AList.mem_lookup_iff.mpr hentry] at hvalue
    exact (readValue_eq_iff entry).mp (Option.some.inj hvalue)
  · intro hnarrow key
    cases hlookup : getStorageValue storageMap key with
    | none =>
        have habsent : key ∉ rows.map readKey := fun hmem =>
          AList.lookup_eq_none.mp hlookup (hkeys.subset hmem)
        rw [getStorageValue_load_of_not_mem habsent]
        rfl
    | some value =>
        have hentry : ⟨key, value⟩ ∈ storageMap.entries := AList.mem_lookup_iff.mp hlookup
        rw [hload _ hentry, readValue_narrow (hnarrow _ hentry)]

/-! ## What a save does to the table -/

theorem saveEntries_true {entries : List (Σ _ : UInt32, Int64)} {db db' : Database Row}
    (h : saveEntries entries db = (true, db')) :
    db'.server.table = db.server.table ++ entries.map storageRow := by
  induction entries generalizing db with
  | nil =>
      cases h
      rw [List.map_nil, List.append_nil]
  | cons entry entries ih =>
      rw [saveEntries] at h
      split at h
      · cases h
      · next gameStorageQuery db₁ hadd =>
          split at h
          · cases h
          · next gameStorageQuery' db₂ hexecute =>
              have hpending := DBInsert.addRow_true hadd
              have htable := (DBInsert.execute_true hexecute).2
              rw [ih h, htable, hpending, List.map_cons, List.append_assoc]
              simp [DBInsert.pending, DBInsert.new]

/-- What a successful save leaves in the table. -/
theorem saveGameStorageValues_true {storageMap : StorageMap} {db : Database Row}
    (h : (saveGameStorageValues storageMap db).1 = true) :
    (saveGameStorageValues storageMap db).2.server.table = storageMap.entries.map storageRow := by
  revert h
  rw [saveGameStorageValues]
  split
  · rintro ⟨⟩
  · next db₁ hbegin =>
      split
      · rintro ⟨⟩
      · next db₂ hdelete =>
          split
          · rintro ⟨⟩
          · next db₃ hsave =>
              rcases hcommit : db₃.commit with ⟨ok, db₄⟩
              rintro ⟨⟩
              have hempty : db₂.server.table = [] := by
                rw [(Database.executeQuery_true hdelete).1]
                rfl
              show db₄.server.table = _
              rw [Database.commit_true hcommit, saveEntries_true hsave, hempty, List.nil_append]

/-! ## A save that fails -/

/-- The rows that are committed. -/
def stored (server : Server Row) : List Row := server.saved.getD server.table

/-- The transaction that is open stays so. -/
def SameSaved (db db' : Database Row) : Prop := db'.server.saved = db.server.saved

theorem executeQuery_delete_saved (db : Database Row) :
    SameSaved db (db.executeQuery .delete).2 := by
  rw [SameSaved, Database.executeQuery]
  dsimp only
  split <;> rfl

theorem executeQuery_insert_saved (rows : List Row) (db : Database Row) :
    SameSaved db (db.executeQuery (.insert rows)).2 := by
  rw [SameSaved, Database.executeQuery]
  dsimp only
  split <;> rfl

theorem execute_saved (ins : DBInsert Row) (db : Database Row) :
    SameSaved db (ins.execute db).2.2 := by
  rw [DBInsert.execute]
  split
  · exact rfl
  · exact executeQuery_insert_saved ins.values db

theorem addRow_saved (ins : DBInsert Row) (row : Row) (db : Database Row) :
    SameSaved db (ins.addRow Row.text row db).2.2 := by
  have hflush := execute_saved { ins with length := ins.length + row.text.utf8ByteSize } db
  rw [DBInsert.addRow]
  dsimp only
  split
  · revert hflush
    rcases DBInsert.execute { ins with length := ins.length + row.text.utf8ByteSize } db
      with ⟨ok, ins', db'⟩
    intro hflush
    cases ok with
    | false => exact hflush
    | true => exact hflush
  · exact rfl

theorem saveEntries_saved (entries : List (Σ _ : UInt32, Int64)) (db : Database Row) :
    SameSaved db (saveEntries entries db).2 := by
  induction entries generalizing db with
  | nil => exact rfl
  | cons entry entries ih =>
      have hadd := addRow_saved (DBInsert.new insertQuery) (storageRow entry) db
      rw [saveEntries]
      split
      · next heq =>
          rw [heq] at hadd
          exact hadd
      · next gameStorageQuery db₁ heq =>
          rw [heq] at hadd
          have hexecute := execute_saved gameStorageQuery db₁
          split
          · next heq' =>
              rw [heq'] at hexecute
              exact hexecute.trans hadd
          · next db₂ heq' =>
              rw [heq'] at hexecute
              exact (ih db₂).trans (hexecute.trans hadd)

/-- The end of the scope rolls back to what is committed, or leaves it so. -/
theorem stored_rollback (db : Database Row) : stored db.rollback.2.server = stored db.server := by
  rw [Database.rollback, Database.executeQuery]
  cases db.outcomes 0 with
  | false => rfl
  | true => rfl

theorem stored_destroy (state : TransactionState) (db : Database Row) :
    stored (state.destroy db).server = stored db.server := by
  cases state with
  | start => exact stored_rollback db
  | noStart => rfl
  | commit => rfl

/-- What is committed when the transaction has begun, which ends the one that was open. -/
theorem beginTransaction_stored (db : Database Row) :
    (db.beginTransaction.1 = false ∧ db.outcomes 0 = false ∧
        stored db.beginTransaction.2.server = stored db.server) ∨
      (db.beginTransaction.1 = true ∧ db.outcomes 0 = true ∧
        db.beginTransaction.2.server.saved = some db.server.table) := by
  rw [Database.beginTransaction, Database.executeQuery]
  cases db.outcomes 0 with
  | false => exact .inl ⟨rfl, rfl, rfl⟩
  | true => exact .inr ⟨rfl, rfl, rfl⟩

/-- The save of which a statement after the beginning fails. -/
theorem stored_of_begun {storageMap : StorageMap} {db db₁ : Database Row}
    (hbegin : db.beginTransaction = (true, db₁))
    (hsaved : db₁.server.saved = some db.server.table)
    (hfail : (saveGameStorageValues storageMap db).1 = false) :
    stored (saveGameStorageValues storageMap db).2.server = db.server.table := by
  have hstored : ∀ {db' : Database Row}, SameSaved db₁ db' →
      stored db'.server = db.server.table := by
    intro db' hsame
    rw [stored, show db'.server.saved = _ from hsame, hsaved]
    rfl
  have hdelete := executeQuery_delete_saved db₁
  rw [saveGameStorageValues, hbegin] at hfail ⊢
  dsimp only at hfail ⊢
  rcases hquery : db₁.executeQuery .delete with ⟨ok, db₂⟩
  rw [hquery] at hdelete hfail
  cases ok with
  | false => exact (stored_destroy _ _).trans (hstored hdelete)
  | true =>
      have hsave := saveEntries_saved storageMap.entries db₂
      dsimp only at hfail ⊢
      rcases hentries : saveEntries storageMap.entries db₂ with ⟨ok, db₃⟩
      rw [hentries] at hsave hfail
      cases ok with
      | false => exact (stored_destroy _ _).trans (hstored (hsave.trans hdelete))
      | true =>
          refine (stored_destroy _ _).trans ?_
          dsimp only at hfail
          rw [Database.commit, Database.executeQuery] at hfail ⊢
          cases hok : db₃.outcomes 0 with
          | true =>
              rw [hok] at hfail
              cases hfail
          | false => exact hstored (hsave.trans hdelete)

theorem failed_save_iff {storageMap : StorageMap} {db : Database Row}
    (hfail : (saveGameStorageValues storageMap db).1 = false) :
    stored (saveGameStorageValues storageMap db).2.server = stored db.server
      ↔ (db.outcomes 0 = true → stored db.server = db.server.table) := by
  rcases beginTransaction_stored db with ⟨hbegin, hok, hstored⟩ | ⟨hbegin, hok, hsaved⟩
  · have hkept : stored (saveGameStorageValues storageMap db).2.server = stored db.server := by
      rw [saveGameStorageValues]
      rcases hpair : db.beginTransaction with ⟨ok, db₁⟩
      rw [hpair] at hbegin hstored
      obtain rfl : ok = false := hbegin
      exact (stored_destroy _ _).trans hstored
    refine iff_of_true hkept fun htrue => ?_
    rw [hok] at htrue
    cases htrue
  · rcases hpair : db.beginTransaction with ⟨ok, db₁⟩
    rw [hpair] at hbegin hsaved
    obtain rfl : ok = true := hbegin
    rw [stored_of_begun hpair hsaved hfail]
    constructor
    · intro heq _
      exact heq.symm
    · intro heq
      exact (heq hok).symm

/-! ## The round trip -/

/-- A save that succeeds is loaded back in whatever order the rows come if and only if every value
has 32 bits. One that fails leaves what is committed if and only if there is nothing open that the
beginning of the transaction commits. -/
theorem game_storage_round_trip_iff (storageMap : StorageMap) (db : Database Row) :
    ((saveGameStorageValues storageMap db).1 = true →
      ∀ rows, rows.Perm (saveGameStorageValues storageMap db).2.server.table →
        ((∀ key, getStorageValue (loadGameStorageValues rows ∅) key
            = getStorageValue storageMap key)
          ↔ ∀ entry ∈ storageMap.entries, Narrow entry.2)) ∧
    ((saveGameStorageValues storageMap db).1 = false →
      (stored (saveGameStorageValues storageMap db).2.server = stored db.server
        ↔ (db.outcomes 0 = true → stored db.server = db.server.table))) := by
  refine ⟨fun hsave rows hrows => ?_, failed_save_iff⟩
  rw [saveGameStorageValues_true hsave] at hrows
  exact load_rows_iff storageMap hrows

/-- A server on which every statement succeeds. -/
def freshDatabase : Database Row :=
  { server := { table := [], saved := none }, outcomes := fun _ => true, retryQueries := true,
    locks := 0, maxPacketSize := 1048576 }

/-- A time in milliseconds. -/
def lastTime : StorageMap := setStorageValue ∅ 7 (some 5000000000)

/-- It is loaded as zero. -/
theorem game_storage_lost :
    ¬ ∀ (storageMap : StorageMap) (db : Database Row),
      (saveGameStorageValues storageMap db).1 = true →
        ∀ key, getStorageValue
            (loadGameStorageValues (saveGameStorageValues storageMap db).2.server.table ∅) key
          = getStorageValue storageMap key := by
  intro hall
  have hsave : (saveGameStorageValues lastTime freshDatabase).1 = true := by decide +kernel
  have hkept := hall lastTime freshDatabase hsave
  have hrows := saveGameStorageValues_true hsave
  have hnarrow := (load_rows_iff lastTime (List.Perm.of_eq hrows)).mp hkept
  exact absurd (hnarrow ⟨7, 5000000000⟩ (by decide +kernel)) (by decide)

end Bruxo.GameStorage
