import Bruxo.Database
import Mathlib.Data.List.AList
import Mathlib.Data.List.Perm.Basic

/-!
# Account storage

`Game::accountStorageMap` and its three operations, with saving to and
loading from the `account_storage` table. The map is an `unordered_map`
of `unordered_map`s: an association list in its iteration order, which
nothing below assumes anything about.

Saving walks the accounts in that order and stops at the first account
whose inner map is empty (`savedAccounts`); such an account is what
setting the last value of an account to `-1` leaves behind. So a save and
a load give every value back exactly when the empty accounts come last
(`emptiesLast`, `account_storage_round_trip_iff`).
-/

namespace Bruxo

namespace AccountStorage

/-! ## The map -/

/-- The storages of one account. -/
abbrev Storages := AList (fun _ : UInt32 => Int32)

/-- `Game::accountStorageMap`. The value `-1` stands for "not set" and is
never stored. Where an entry stands in the iteration order is the hash
table's business; here a written entry comes first. -/
structure Storage where
  accounts : AList (fun _ : UInt32 => Storages)
  ne_neg_one : ∀ a ∈ accounts.entries, ∀ kv ∈ a.2.entries, kv.2 ≠ -1

def Storage.empty : Storage :=
  { accounts := ∅, ne_neg_one := by simp }

/-- The inner map that `accountStorageMap[accountId]` refers to; the operator
inserts an empty one where there is none. -/
def Storage.inner (s : Storage) (accountId : UInt32) : Storages :=
  (s.accounts.lookup accountId).getD ∅

theorem Storage.inner_ne_neg_one (s : Storage) (accountId : UInt32) :
    ∀ kv ∈ (s.inner accountId).entries, kv.2 ≠ -1 := by
  intro kv hkv
  unfold Storage.inner at hkv
  cases hl : s.accounts.lookup accountId with
  | none =>
      rw [hl] at hkv
      cases hkv
  | some m =>
      rw [hl] at hkv
      exact s.ne_neg_one ⟨accountId, m⟩ (AList.mem_lookup_iff.mp hl) kv hkv

/-- The map with `accountId`'s inner map replaced. -/
def Storage.store (s : Storage) (accountId : UInt32) (m : Storages)
    (hm : ∀ kv ∈ m.entries, kv.2 ≠ -1) : Storage where
  accounts := s.accounts.insert accountId m
  ne_neg_one := by
    intro a ha
    rw [AList.entries_insert, List.mem_cons] at ha
    rcases ha with rfl | ha
    · exact hm
    · exact s.ne_neg_one a (List.kerase_sublist _ _ |>.subset ha)

/-- `Game::setAccountStorageValue`. -/
def setAccountStorageValue (s : Storage) (accountId key : UInt32) (value : Int32) : Storage :=
  if hv : value = -1 then
    s.store accountId ((s.inner accountId).erase key) fun kv hkv =>
      s.inner_ne_neg_one accountId kv (List.kerase_sublist _ _ |>.subset hkv)
  else
    s.store accountId ((s.inner accountId).insert key value) fun kv hkv => by
      rw [AList.entries_insert, List.mem_cons] at hkv
      rcases hkv with rfl | hkv
      · exact hv
      · exact s.inner_ne_neg_one accountId kv (List.kerase_sublist _ _ |>.subset hkv)

/-- `Game::getAccountStorageValue`. -/
def getAccountStorageValue (s : Storage) (accountId key : UInt32) : Int32 :=
  match s.accounts.lookup accountId with
  | some m => (m.lookup key).getD (-1)
  | none => -1

theorem getAccountStorageValue_eq (s : Storage) (a k : UInt32) :
    getAccountStorageValue s a k = ((s.inner a).lookup k).getD (-1) := by
  unfold getAccountStorageValue Storage.inner
  cases s.accounts.lookup a <;> rfl

theorem inner_store (s : Storage) (a b : UInt32) (m : Storages)
    (hm : ∀ kv ∈ m.entries, kv.2 ≠ -1) :
    (s.store a m hm).inner b = if b = a then m else s.inner b := by
  unfold Storage.inner Storage.store
  by_cases hba : b = a
  · subst hba
    rw [if_pos rfl, AList.lookup_insert]
    rfl
  · rw [if_neg hba, AList.lookup_insert_ne hba]

/-- What is read after a value is set, at any account and key. -/
theorem get_setAccountStorageValue (s : Storage) (a k a' k' : UInt32) (v : Int32) :
    getAccountStorageValue (setAccountStorageValue s a k v) a' k'
      = if a' = a ∧ k' = k then v else getAccountStorageValue s a' k' := by
  simp only [getAccountStorageValue_eq, setAccountStorageValue]
  by_cases ha : a' = a
  · subst ha
    by_cases hk : k' = k
    · subst hk
      split
      · rename_i hv
        simp [inner_store, hv, AList.lookup_erase]
      · simp [inner_store]
    · split
      · simp [inner_store, hk, AList.lookup_erase_ne hk]
      · simp [inner_store, hk, AList.lookup_insert_ne hk]
  · split <;> simp [inner_store, ha]

theorem get_of_mem (s : Storage) {a k : UInt32} {m : Storages} {v : Int32}
    (hm : ⟨a, m⟩ ∈ s.accounts.entries) (hv : ⟨k, v⟩ ∈ m.entries) :
    getAccountStorageValue s a k = v := by
  unfold getAccountStorageValue
  rw [AList.mem_lookup_iff.mpr hm]
  show (m.lookup k).getD (-1) = v
  rw [AList.mem_lookup_iff.mpr hv]
  rfl

theorem get_of_not_mem (s : Storage) {a k : UInt32}
    (h : ∀ m, ⟨a, m⟩ ∈ s.accounts.entries → ∀ v, ⟨k, v⟩ ∉ m.entries) :
    getAccountStorageValue s a k = -1 := by
  unfold getAccountStorageValue
  cases hl : s.accounts.lookup a with
  | none => rfl
  | some m =>
      show (m.lookup k).getD (-1) = -1
      cases hk : m.lookup k with
      | none => rfl
      | some v => exact absurd (AList.mem_lookup_iff.mp hk) (h m (AList.mem_lookup_iff.mp hl) v)

/-! ## Saving -/

/-- A row of `account_storage`. -/
structure Row where
  accountId : UInt32
  key : UInt32
  value : Int32

/-- The primary key. -/
def Row.id (r : Row) : UInt32 × UInt32 := (r.accountId, r.key)

def Row.text (r : Row) : String :=
  toString r.accountId ++ ", " ++ toString r.key ++ ", " ++ toString r.value

/-- An account's entries as rows, in iteration order. -/
def rowsOf (a : (_ : UInt32) × Storages) : List Row :=
  a.2.entries.map fun kv => { accountId := a.1, key := kv.1, value := kv.2 }

def insertQuery : String :=
  "INSERT INTO `account_storage` (`account_id`, `key`, `value`) VALUES"

/-- The loop of `Game::saveAccountStorageValues`. -/
def saveAccounts : List ((_ : UInt32) × Storages) → Database Row → Bool × Database Row
  | [], db => (true, db)
  | a :: accounts, db =>
      -- `break`: the accounts after an empty one are not looked at
      if a.2.entries.isEmpty then (true, db)
      else
        match DBInsert.addRows Row.text (rowsOf a) (DBInsert.new insertQuery) db with
        | (false, _, db) => (false, db)
        | (true, ins, db) =>
            match ins.execute db with
            | (false, _, db) => (false, db)
            | (true, _, db) => saveAccounts accounts db

/-- `Game::saveAccountStorageValues`. -/
def saveAccountStorageValues (s : Storage) (db : Database Row) : Bool × Database Row :=
  match db.beginTransaction with
  | (false, db) => (false, TransactionState.start.destroy db)
  | (true, db) =>
      match db.executeQuery .delete with
      | (false, db) => (false, TransactionState.start.destroy db)
      | (true, db) =>
          match saveAccounts s.accounts.entries db with
          | (false, db) => (false, TransactionState.start.destroy db)
          | (true, db) =>
              match db.commit with
              | (ok, db) => (ok, TransactionState.commit.destroy db)

/-- The accounts the loop gets to. -/
def savedAccounts (s : Storage) : List ((_ : UInt32) × Storages) :=
  s.accounts.entries.takeWhile fun a => !a.2.entries.isEmpty

theorem saveAccounts_true {accounts : List ((_ : UInt32) × Storages)} {db db' : Database Row}
    (h : saveAccounts accounts db = (true, db')) :
    db'.server.table = db.server.table
      ++ (accounts.takeWhile fun a => !a.2.entries.isEmpty).flatMap rowsOf := by
  induction accounts generalizing db with
  | nil =>
      cases h
      simp
  | cons a accounts ih =>
      rw [saveAccounts] at h
      split at h
      · rename_i hempty
        cases h
        simp [hempty]
      · rename_i hne
        split at h
        · cases h
        · rename_i ins db₁ hrows
          split at h
          · cases h
          · rename_i ins₁ db₂ hexec
            have hpend := DBInsert.addRows_true hrows
            have htable := (DBInsert.execute_true hexec).2
            rw [ih h, htable, hpend, List.takeWhile_cons_of_pos (by simpa using hne)]
            simp [DBInsert.pending, DBInsert.new]

/-- What a successful save leaves in the table. -/
theorem saveAccountStorageValues_true {s : Storage} {db db' : Database Row}
    (h : saveAccountStorageValues s db = (true, db')) :
    db'.server.table = (savedAccounts s).flatMap rowsOf := by
  unfold saveAccountStorageValues at h
  split at h
  · cases h
  · split at h
    · cases h
    · rename_i db₁ hdelete
      split at h
      · cases h
      · rename_i db₂ hsave
        rcases hcommit : db₂.commit with ⟨ok, db₃⟩
        rw [hcommit] at h
        cases h
        have hempty : db₁.server.table = [] := by
          rw [(Database.executeQuery_true hdelete).1]
          rfl
        show db₃.server.table = _
        rw [Database.commit_true hcommit, saveAccounts_true hsave, hempty]
        rfl

/-! ## Loading -/

/-- `Game::loadAccountStorageValues` over the rows the `SELECT` returns. -/
def loadAccountStorageValues (rows : List Row) (s : Storage) : Storage :=
  rows.foldl (fun s r => setAccountStorageValue s r.accountId r.key r.value) s

theorem get_load_of_not_mem {rows : List Row} {s : Storage} {a k : UInt32}
    (h : ∀ r ∈ rows, ¬ (a = r.accountId ∧ k = r.key)) :
    getAccountStorageValue (loadAccountStorageValues rows s) a k
      = getAccountStorageValue s a k := by
  induction rows generalizing s with
  | nil => rfl
  | cons r rows ih =>
      have htail := ih (s := setAccountStorageValue s r.accountId r.key r.value)
        fun r' hr' => h r' (List.mem_cons_of_mem r hr')
      rw [loadAccountStorageValues, List.foldl_cons, ← loadAccountStorageValues, htail,
        get_setAccountStorageValue, if_neg (h r (by simp))]

/-- Each row of a table without duplicate keys is read back, in whatever order
the rows come. -/
theorem get_load_of_mem {rows : List Row} {s : Storage} {r : Row}
    (hnd : (rows.map Row.id).Nodup) (hr : r ∈ rows) :
    getAccountStorageValue (loadAccountStorageValues rows s) r.accountId r.key = r.value := by
  induction rows generalizing s with
  | nil => cases hr
  | cons r' rows ih =>
      obtain ⟨hfresh, hnd'⟩ := List.nodup_cons.mp hnd
      rw [loadAccountStorageValues, List.foldl_cons, ← loadAccountStorageValues]
      rcases List.mem_cons.mp hr with rfl | hr'
      · have hother : ∀ r' ∈ rows, ¬ (r.accountId = r'.accountId ∧ r.key = r'.key) := by
          rintro r' hr' ⟨ha, hk⟩
          exact hfresh (List.mem_map.mpr ⟨r', hr', by rw [Row.id, Row.id, ha, hk]⟩)
        rw [get_load_of_not_mem hother, get_setAccountStorageValue, if_pos ⟨rfl, rfl⟩]
      · exact ih hnd' hr'

/-! ## The round trip -/

/-- In iteration order, no account with an empty inner map stands before one
with a non-empty inner map. -/
def emptiesLast (s : Storage) : Prop :=
  s.accounts.entries.Pairwise fun a b => a.2.entries = [] → b.2.entries = []

theorem nodup_rowsOf (a : (_ : UInt32) × Storages) : ((rowsOf a).map Row.id).Nodup := by
  have hkeys : (a.2.entries.map fun kv => kv.1).Nodup := a.2.nodupKeys
  have hmap : (rowsOf a).map Row.id = (a.2.entries.map fun kv => kv.1).map fun k => (a.1, k) := by
    simp only [rowsOf, List.map_map]
    rfl
  rw [hmap]
  exact hkeys.map fun _ _ h => (Prod.mk.inj h).2

theorem nodup_saved (s : Storage) : (((savedAccounts s).flatMap rowsOf).map Row.id).Nodup := by
  have hkeys : (s.accounts.entries.map fun a => a.1).Nodup := s.accounts.nodupKeys
  have hpair : (savedAccounts s).Pairwise fun a b => a.1 ≠ b.1 :=
    (List.pairwise_map.mp hkeys).sublist (List.takeWhile_sublist _)
  rw [List.map_flatMap, List.nodup_flatMap]
  refine ⟨fun a _ => nodup_rowsOf a, hpair.imp ?_⟩
  intro a b hab id ha hb
  obtain ⟨r, hr, rfl⟩ := List.mem_map.mp ha
  obtain ⟨r', hr', hid⟩ := List.mem_map.mp hb
  obtain ⟨kv, -, rfl⟩ := List.mem_map.mp hr
  obtain ⟨kv', -, rfl⟩ := List.mem_map.mp hr'
  exact hab (Prod.mk.inj hid).1.symm

theorem mem_saved_rows {s : Storage} {r : Row} (h : r ∈ (savedAccounts s).flatMap rowsOf) :
    ∃ m : Storages, ⟨r.accountId, m⟩ ∈ savedAccounts s ∧ ⟨r.key, r.value⟩ ∈ m.entries := by
  obtain ⟨⟨a, m⟩, ha, hr⟩ := List.mem_flatMap.mp h
  obtain ⟨⟨k, v⟩, hkv, rfl⟩ := List.mem_map.mp hr
  exact ⟨m, ha, hkv⟩

/-- What is read after a save and a load: the accounts the loop got to keep
their values, every other account has lost all of them. -/
theorem get_load_saved (s : Storage) {rows : List Row}
    (hrows : rows.Perm ((savedAccounts s).flatMap rowsOf)) (a k : UInt32) :
    getAccountStorageValue (loadAccountStorageValues rows .empty) a k
      = if a ∈ (savedAccounts s).map Sigma.fst then getAccountStorageValue s a k else -1 := by
  have hnd : (rows.map Row.id).Nodup := ((hrows.map Row.id).nodup_iff).mpr (nodup_saved s)
  have hsub : ∀ {x}, x ∈ savedAccounts s → x ∈ s.accounts.entries := fun hx =>
    (List.takeWhile_sublist _).subset hx
  by_cases hrow : ∃ r ∈ rows, a = r.accountId ∧ k = r.key
  · obtain ⟨r, hr, rfl, rfl⟩ := hrow
    obtain ⟨m, hm, hkv⟩ := mem_saved_rows (hrows.subset hr)
    rw [get_load_of_mem hnd hr, if_pos (List.mem_map.mpr ⟨_, hm, rfl⟩), get_of_mem s (hsub hm) hkv]
  · have hload : getAccountStorageValue (loadAccountStorageValues rows .empty) a k = -1 :=
      get_load_of_not_mem fun r hr h => hrow ⟨r, hr, h⟩
    rw [hload]
    split
    · rename_i hmem
      obtain ⟨⟨a', m⟩, hm, rfl⟩ := List.mem_map.mp hmem
      refine (get_of_not_mem s ?_).symm
      intro m' hm' v hv
      have hmm : some m = some m' := by
        rw [← AList.mem_lookup_iff.mpr (hsub hm), ← AList.mem_lookup_iff.mpr hm']
      cases hmm
      refine hrow ⟨{ accountId := a', key := k, value := v }, hrows.symm.subset ?_, rfl, rfl⟩
      exact List.mem_flatMap.mpr ⟨_, hm, List.mem_map.mpr ⟨_, hv, rfl⟩⟩
    · rfl

/-- Whether the prefix a `takeWhile` keeps holds everything that satisfies the
test, read off the order alone. -/
theorem takeWhile_complete_iff {α : Type} {p : α → Bool} {l : List α} (hnd : l.Nodup) :
    (∀ x ∈ l, p x = true → x ∈ l.takeWhile p)
      ↔ l.Pairwise fun x y => p x = false → p y = false := by
  induction l with
  | nil => simp
  | cons x l ih =>
      obtain ⟨hx, hnd'⟩ := List.nodup_cons.mp hnd
      rw [List.pairwise_cons]
      cases hpx : p x with
      | false =>
          rw [List.takeWhile_cons_of_neg (by simp [hpx])]
          constructor
          · intro h
            have hall : ∀ y ∈ l, p y = false := fun y hy =>
              Bool.eq_false_iff.mpr fun hpy => by cases h y (List.mem_cons_of_mem x hy) hpy
            exact ⟨fun y hy _ => hall y hy, List.pairwise_of_forall_mem_list
              fun _ _ y hy _ => hall y hy⟩
          · rintro ⟨hall, -⟩ y hy hpy
            rcases List.mem_cons.mp hy with rfl | hy
            · rw [hpx] at hpy
              cases hpy
            · rw [hall y hy rfl] at hpy
              cases hpy
      | true =>
          rw [List.takeWhile_cons_of_pos hpx, ← ih hnd']
          constructor
          · intro h
            refine ⟨fun y _ hf => (Bool.noConfusion hf), fun y hy hpy => ?_⟩
            rcases List.mem_cons.mp (h y (List.mem_cons_of_mem x hy) hpy) with rfl | hmem
            · exact absurd hy hx
            · exact hmem
          · rintro ⟨-, h⟩ y hy hpy
            rcases List.mem_cons.mp hy with rfl | hy
            · exact List.mem_cons_self
            · exact List.mem_cons_of_mem x (h y hy hpy)

theorem emptiesLast_iff (s : Storage) :
    emptiesLast s
      ↔ ∀ a ∈ s.accounts.entries, a.2.entries ≠ [] → a ∈ savedAccounts s := by
  have h := takeWhile_complete_iff (p := fun a => !a.2.entries.isEmpty) s.accounts.nodupKeys.nodup
  simp only [Bool.not_eq_eq_eq_not, Bool.not_true, Bool.not_false, List.isEmpty_eq_false_iff,
    List.isEmpty_iff] at h
  exact h.symm

/-- Saving and loading gives every value back exactly when the accounts whose
inner map has become empty come last in the iteration order. -/
theorem account_storage_round_trip_iff (s : Storage) {db db' : Database Row}
    (hsave : saveAccountStorageValues s db = (true, db')) {rows : List Row}
    (hrows : rows.Perm db'.server.table) :
    (∀ a k, getAccountStorageValue (loadAccountStorageValues rows .empty) a k
        = getAccountStorageValue s a k)
      ↔ emptiesLast s := by
  rw [saveAccountStorageValues_true hsave] at hrows
  rw [emptiesLast_iff]
  constructor
  · rintro h ⟨a, m⟩ ha hne
    obtain ⟨⟨k, v⟩, hkv⟩ := List.exists_mem_of_ne_nil m.entries hne
    have hget := get_of_mem s ha hkv
    have hv : v ≠ -1 := s.ne_neg_one _ ha _ hkv
    have hload := h a k
    rw [get_load_saved s hrows, hget] at hload
    split at hload
    · rename_i hmem
      obtain ⟨⟨a', m'⟩, hm', rfl⟩ := List.mem_map.mp hmem
      have hmem' := (List.takeWhile_sublist _).subset hm'
      rwa [s.accounts.nodupKeys.eq_of_fst_eq ha hmem' rfl]
    · exact absurd hload.symm hv
  · intro h a k
    rw [get_load_saved s hrows]
    split
    · rfl
    · rename_i hmem
      refine (get_of_not_mem s ?_).symm
      intro m hm v hv
      exact hmem (List.mem_map.mpr ⟨_, h _ hm (List.ne_nil_of_mem hv), rfl⟩)

/-- A server with an empty table on which every statement succeeds. -/
def freshDatabase : Database Row :=
  { server := { table := [], saved := none }, outcomes := fun _ => true, retryQueries := true,
    locks := 0, maxPacketSize := 1048576 }

/-- Account 2 holds a value and account 1 has had its only value removed. -/
def emptiedStorage : Storage :=
  setAccountStorageValue (setAccountStorageValue (setAccountStorageValue .empty 2 5 7) 1 3 9)
    1 3 (-1)

theorem account_storage_round_trip_one_account :
    (∀ a k, getAccountStorageValue (loadAccountStorageValues
        (saveAccountStorageValues (setAccountStorageValue .empty 2 5 7) freshDatabase).2.server.table
        .empty) a k = getAccountStorageValue (setAccountStorageValue .empty 2 5 7) a k)
      ↔ emptiesLast (setAccountStorageValue .empty 2 5 7) := by
  have hok : (saveAccountStorageValues (setAccountStorageValue .empty 2 5 7) freshDatabase).1
      = true := by
    decide +kernel
  exact account_storage_round_trip_iff _ (Prod.ext hok rfl) (List.Perm.refl _)

/-- The value of account 2 is lost: the save stops at account 1. -/
theorem account_storage_lost :
    ¬ ∀ (s : Storage) (db db' : Database Row), saveAccountStorageValues s db = (true, db') →
        ∀ a k, getAccountStorageValue (loadAccountStorageValues db'.server.table .empty) a k
          = getAccountStorageValue s a k := by
  intro h
  have hok : (saveAccountStorageValues emptiedStorage freshDatabase).1 = true := by
    decide +kernel
  have hsave : saveAccountStorageValues emptiedStorage freshDatabase
      = (true, (saveAccountStorageValues emptiedStorage freshDatabase).2) := Prod.ext hok rfl
  have hlost := h emptiedStorage freshDatabase _ hsave 2 5
  have hloaded : getAccountStorageValue (loadAccountStorageValues
      (saveAccountStorageValues emptiedStorage freshDatabase).2.server.table .empty) 2 5 = -1 := by
    decide +kernel
  have hbefore : getAccountStorageValue emptiedStorage 2 5 = 7 := by
    decide +kernel
  rw [hloaded, hbefore] at hlost
  exact absurd hlost (by decide)

end AccountStorage

end Bruxo
