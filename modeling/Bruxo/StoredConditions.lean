import Bruxo.ConditionRoundTrip
import Bruxo.Lib.Runs
import Mathlib.Data.List.Perm.Basic

/-!
# The list of stored conditions

`storedConditionList` is one static list for all players. `loadPlayer` (`iologindata.cpp`) puts
the conditions of the row on it; `onCreatureAppear` (`player.cpp`) gives all that is on it to the
player who logs in, and clears it. A player who is loaded to pay the rent, for the depot of a
house or for mail never appears: its conditions stay on the list, and `savePlayer` writes the
conditions that the loaded player has, which are none.

How conditions stand in a column does not matter here: a `Format` reads and writes them.
-/

namespace Bruxo.StoredConditions

/-- The column `conditions`. -/
structure Format (γ Column : Type*) where
  /-- The loop of `loadPlayer`, at a time. -/
  read : Int64 → Column → List γ
  /-- The loop of `savePlayer`. -/
  write : List γ → Column
  read_write_nil : ∀ now, read now (write []) = []

/-- What is on the server for a row to refer to. -/
structure Server where
  getGroup : UInt16 → Bool
  getVocation : UInt16 → Bool
  getTown : UInt32 → Bool

structure Row (Column : Type*) where
  group_id : UInt16
  vocation : UInt16
  town_id : UInt32
  save : UInt16
  conditions : Column

structure State (γ Column : Type*) where
  rows : UInt32 → Option (Row Column)
  storedConditionList : List γ

inductive Event (γ : Type*) where
  /-- `loadPlayerById` of a connection; `placed` if `placeCreature` finds a place. -/
  | login (guid : UInt32) (now : Int64) (placed : Bool)
  /-- The player is loaded and not placed; `saves` if `savePlayer` is then called, and its
  queries do not fail. -/
  | offline (guid : UInt32) (now : Int64) (saves : Bool)
  /-- `savePlayer` of a player who is online. -/
  | save (guid : UInt32) (conditions : List γ)

variable {γ Column : Type*} (f : Format γ Column) (server : Server)

/-- The result of `loadPlayer`, and the list after it. A group that does not exist is found
before the conditions are read, a vocation or a town only after. -/
def loadPlayer (now : Int64) (row : Option (Row Column)) (stored : List γ) : Bool × List γ :=
  match row with
  | none => (false, stored)
  | some row =>
      if !server.getGroup row.group_id then (false, stored)
      else
        let stored := (f.read now row.conditions).foldl (fun l c => c :: l) stored
        if !server.getVocation row.vocation then (false, stored)
        else if !server.getTown row.town_id then (false, stored)
        else (true, stored)

/-- The row after `savePlayer` of a player with these conditions. -/
def Row.saved (row : Row Column) (conditions : List γ) : Row Column :=
  if row.save = 0 then row else { row with conditions := f.write conditions }

namespace State

variable (s : State γ Column)

def savePlayer (guid : UInt32) (conditions : List γ) : State γ Column :=
  { s with
    rows := Function.update s.rows guid ((s.rows guid).map (Row.saved f · conditions)) }

/-- The conditions that `onCreatureAppear` gives to the player, when it gets there. -/
def received : Event γ → Option (List γ)
  | .login guid now placed =>
      let (loaded, stored) := loadPlayer f server now (s.rows guid) s.storedConditionList
      if loaded && placed then some stored else none
  | _ => none

def step (s : State γ Column) : Event γ → State γ Column
  | .login guid now placed =>
      let (loaded, stored) := loadPlayer f server now (s.rows guid) s.storedConditionList
      { s with storedConditionList := if loaded && placed then [] else stored }
  | .offline guid now saves =>
      let (loaded, stored) := loadPlayer f server now (s.rows guid) s.storedConditionList
      let s := { s with storedConditionList := stored }
      if loaded && saves then s.savePlayer f guid [] else s
  | .save guid conditions => s.savePlayer f guid conditions

/-- A player who logs in receives what its own row has, and a row keeps what it has when its
player is loaded offline. -/
def OwnConditions (s : State γ Column) : Event γ → Prop
  | .login guid now placed =>
      ∀ l ∈ s.received f server (.login guid now placed), ∃ row ∈ s.rows guid,
        l.Perm (f.read now row.conditions)
  | .offline guid now saves =>
      ∀ row ∈ s.rows guid, ∀ row' ∈ (s.step f server (.offline guid now saves)).rows guid,
        ∀ time, f.read time row'.conditions = f.read time row.conditions
  | .save _ _ => True

/-- The row refers to what there is. -/
def Loads (row : Row Column) : Prop :=
  server.getGroup row.group_id ∧ server.getVocation row.vocation ∧ server.getTown row.town_id

/-- The list is empty when a player logs in, and a row that is saved offline has no
conditions. -/
def NothingStored (s : State γ Column) : Event γ → Prop
  | .login guid _ placed =>
      ∀ row ∈ s.rows guid, Loads server row → placed → s.storedConditionList = []
  | .offline guid _ saves =>
      ∀ row ∈ s.rows guid, Loads server row → saves → row.save ≠ 0 →
        ∀ time, f.read time row.conditions = []
  | .save _ _ => True

end State

variable {f server} {s : State γ Column}

theorem loadPlayer_some (now : Int64) (row : Row Column) (stored : List γ) :
    State.Loads server row ∧
      loadPlayer f server now (some row) stored =
        (true, (f.read now row.conditions).reverse ++ stored) ∨
    ¬State.Loads server row ∧ (loadPlayer f server now (some row) stored).1 = false := by
  have hfold : (f.read now row.conditions).foldl (fun l c => c :: l) stored =
      (f.read now row.conditions).reverse ++ stored := List.foldl_flip_cons_eq_append'
  unfold loadPlayer State.Loads
  dsimp only
  rw [hfold]
  cases hgroup : server.getGroup row.group_id with
  | false => exact .inr ⟨fun h => Bool.noConfusion h.1, rfl⟩
  | true =>
      cases hvocation : server.getVocation row.vocation with
      | false => exact .inr ⟨fun h => Bool.noConfusion h.2.1, rfl⟩
      | true =>
          cases htown : server.getTown row.town_id with
          | false => exact .inr ⟨fun h => Bool.noConfusion h.2.2, rfl⟩
          | true => exact .inl ⟨⟨rfl, rfl, rfl⟩, rfl⟩

theorem mem_received_login {guid : UInt32} {now : Int64} {placed : Bool} {l : List γ} :
    l ∈ s.received f server (.login guid now placed) ↔
      ∃ row ∈ s.rows guid, State.Loads server row ∧ placed = true ∧
        l = (f.read now row.conditions).reverse ++ s.storedConditionList := by
  unfold State.received
  dsimp only
  cases hrow : s.rows guid with
  | none =>
      constructor
      · intro h
        cases h
      · rintro ⟨row, hrow, _⟩
        cases hrow
  | some row =>
      rcases loadPlayer_some now row s.storedConditionList with ⟨hloads, heq⟩ | ⟨hfails, heq⟩
      · rw [heq]
        cases placed with
        | false =>
            constructor
            · intro h
              cases h
            · rintro ⟨_, _, _, h, _⟩
              cases h
        | true =>
            constructor
            · intro h
              cases h
              exact ⟨row, rfl, hloads, rfl, rfl⟩
            · rintro ⟨row', hrow', _, _, rfl⟩
              cases hrow'
              rfl
      · rw [heq]
        constructor
        · intro h
          cases h
        · rintro ⟨row', hrow', hloads, _⟩
          cases hrow'
          exact absurd hloads hfails

/-- The row of a player that was loaded offline. -/
theorem rows_offline {guid : UInt32} (now : Int64) (saves : Bool) {row : Row Column}
    (hrow : s.rows guid = some row) :
    (State.Loads server row ∧ saves = true ∧
      (s.step f server (.offline guid now saves)).rows guid = some (row.saved f [])) ∨
    (¬(State.Loads server row ∧ saves = true) ∧
      (s.step f server (.offline guid now saves)).rows guid = some row) := by
  unfold State.step
  dsimp only
  rw [hrow]
  rcases loadPlayer_some now row s.storedConditionList with ⟨hloads, heq⟩ | ⟨hfails, heq⟩
  · rw [heq]
    cases saves with
    | false => exact .inr ⟨fun h => Bool.noConfusion h.2, hrow⟩
    | true =>
        refine .inl ⟨hloads, rfl, ?_⟩
        simp [State.savePlayer, hrow]
  · rw [heq]
    exact .inr ⟨fun h => hfails h.1, hrow⟩

theorem ownConditions_iff (e : Event γ) :
    s.OwnConditions f server e ↔ s.NothingStored f server e := by
  cases e with
  | login guid now placed =>
      constructor
      · intro h row hrow hloads hplaced
        obtain ⟨row', hrow', hperm⟩ :=
          h _ (mem_received_login.mpr ⟨row, hrow, hloads, hplaced, rfl⟩)
        obtain rfl : row = row' := Option.some.inj (hrow.symm.trans hrow')
        have := hperm.length_eq
        rw [List.length_append, List.length_reverse] at this
        exact List.eq_nil_of_length_eq_zero (by omega)
      · intro h l hl
        obtain ⟨row, hrow, hloads, hplaced, rfl⟩ := mem_received_login.mp hl
        refine ⟨row, hrow, ?_⟩
        rw [h row hrow hloads hplaced, List.append_nil]
        exact List.reverse_perm _
  | offline guid now saves =>
      constructor
      · intro h row hrow hloads hsaves hsave time
        rcases rows_offline now saves hrow with ⟨_, _, hrow'⟩ | ⟨hnot, _⟩
        · have := h row hrow _ hrow' time
          rw [Row.saved, if_neg hsave, f.read_write_nil] at this
          exact this.symm
        · exact absurd ⟨hloads, hsaves⟩ hnot
      · intro h row hrow row' hrow' time
        rcases rows_offline now saves hrow with
          ⟨hloads, hsaves, heq⟩ | ⟨_, heq⟩
        · obtain rfl : row' = row.saved f [] := Option.some.inj (hrow'.symm.trans heq)
          unfold Row.saved
          split
          · rfl
          · next hsave => rw [f.read_write_nil, h row hrow hloads hsaves hsave]
        · obtain rfl : row' = row := Option.some.inj (hrow'.symm.trans heq)
          rfl
  | save guid conditions => exact Iff.rfl

/-- Conditions reach their owner only, and stay in their rows, throughout a run of logins,
offline loads and saves, if and only if the list is empty whenever a player logs in and no row
with conditions is saved offline. -/
theorem conditions_reach_owner (s : State γ Column) (es : List (Event γ)) :
    Runs.Throughout (State.step f server) (State.OwnConditions f server) s es ↔
      Runs.Throughout (State.step f server) (State.NothingStored f server) s es := by
  have hiff : ∀ s e, True → (State.OwnConditions f server s e ↔ State.NothingStored f server s e) :=
    fun _ e _ => ownConditions_iff e
  exact Runs.throughout_iff (fun _ _ _ _ => trivial) hiff trivial es

/-! ## The conditions of a house owner -/

/-- The columns of the database. Of a column that makes the reader write outside of an array,
nothing is taken. -/
def conditionFormat : Format Conditions.Condition (List UInt8) where
  read now column := (Conditions.readConditions now (.init column)).getD []
  write := Conditions.writeConditions
  read_write_nil now := by
    rw [Conditions.writeConditions, List.foldl_nil]
    exact congrArg (Option.getD · []) (Conditions.readConditions_nil now)

def anyServer : Server := ⟨fun _ => true, fun _ => true, fun _ => true⟩

/-- The owner of a house, with the conditions of a fight. -/
def owner : Row (List UInt8) := ⟨1, 1, 1, 1, Conditions.writeConditions [Conditions.infight]⟩

def other : Row (List UInt8) := ⟨1, 1, 1, 1, Conditions.writeConditions []⟩

def twoPlayers : State Conditions.Condition (List UInt8) where
  rows guid := if guid = 1 then some owner else if guid = 2 then some other else none
  storedConditionList := []

/-- The owner is loaded for the rent, then the other one logs in. -/
def rentThenLogin : List (Event Conditions.Condition) := [.offline 1 0 true, .login 2 0 true]

theorem owner_has_conditions : conditionFormat.read 0 owner.conditions ≠ [] := by
  obtain ⟨bs, hw, hiff⟩ := Conditions.foldl_save_roundTrip 0
    (List.forall_mem_singleton.mpr Conditions.infight_wellTyped)
  obtain ⟨cs, hread, hsame⟩ := hiff.mpr (List.forall_mem_singleton.mpr trivial)
  have hbytes : Conditions.writeConditions [Conditions.infight] = bs := hw .empty
  have hcolumn : conditionFormat.read 0 owner.conditions = cs := by
    show (Conditions.readConditions 0 (.init (Conditions.writeConditions _))).getD [] = cs
    rw [hbytes]
    exact congrArg (Option.getD · []) hread
  rw [hcolumn]
  rintro rfl
  cases hsame

/-- The owner loses its conditions, and the other one gets them. -/
theorem rent_leaks_conditions :
    ¬∀ (s : State Conditions.Condition (List UInt8)) (es : List (Event Conditions.Condition)),
      Runs.Throughout (State.step conditionFormat anyServer)
        (State.OwnConditions conditionFormat anyServer) s es := by
  intro h
  have hfirst := (Runs.throughout_cons.mp (h twoPlayers rentThenLogin)).1
  exact owner_has_conditions
    (ownConditions_iff _ |>.mp hfirst owner rfl ⟨rfl, rfl, rfl⟩ rfl (by decide) 0)

end Bruxo.StoredConditions
