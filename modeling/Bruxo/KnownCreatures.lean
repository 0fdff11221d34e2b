import Bruxo.Lib.Runs
import Bruxo.Position
import Mathlib.Data.Finset.Basic
import Mathlib.Data.List.Nodup
import Mathlib.Data.List.Perm.Basic

/-!
# The creatures that a client knows

`ProtocolGame::isKnownCreature` keeps the set of the creatures that were described to the
client in full. A creature of the set is sent by its id alone (`0x62`); another one is sent
in full (`0x61`), with the id of a creature that the client is to forget.

The place that an element gets in the `std::unordered_set` is left open, and so is what is
read of an element after its node was freed: `isKnownCreature` erases the creature to
forget and reads its id from the set afterwards.
-/

namespace Bruxo.KnownCreatures

/-! ## Sight -/

def maxClientViewportX : Int := 8

def maxClientViewportY : Int := 6

/-- What `canSee` asks of a creature; `canSeeCreature` is the answer of the player. -/
structure Watched where
  isRemoved : Bool
  canSeeCreature : Bool
  position : Position

/-- `player` is the position of the player, if there is one. -/
structure View where
  player : Option Position
  getCreatureByID : UInt32 → Option Watched

namespace View

variable (v : View)

def canSeePosition (pos : Position) : Bool :=
  match v.player with
  | none => false
  | some myPos =>
      let x : Int := pos.x.toNat
      let y : Int := pos.y.toNat
      let z : Int := pos.z.toNat
      let myX : Int := myPos.x.toNat
      let myY : Int := myPos.y.toNat
      let myZ : Int := myPos.z.toNat
      if (if myZ ≤ 7 then z > 7 else (myZ - z).natAbs > 2) then false
      else
        let offsetz := myZ - z
        x ≥ myX - maxClientViewportX + offsetz && x ≤ myX + (maxClientViewportX + 1) + offsetz &&
          y ≥ myY - maxClientViewportY + offsetz && y ≤ myY + (maxClientViewportY + 1) + offsetz

def canSee (id : UInt32) : Bool :=
  match v.getCreatureByID id with
  | none => false
  | some c =>
      if v.player.isNone || c.isRemoved then false
      else if !c.canSeeCreature then false
      else v.canSeePosition c.position

end View

/-! ## The set -/

/-- The elements of a `std::unordered_set<uint32_t>` in the order of its iteration. -/
structure IdSet where
  ids : List UInt32
  nodup : ids.Nodup

/-- How the set puts its elements in order when one is inserted. -/
structure Arrangement where
  order : List UInt32 → List UInt32
  perm (l : List UInt32) : (order l).Perm l

namespace IdSet

def empty : IdSet := ⟨[], List.nodup_nil⟩

instance : Membership UInt32 IdSet where
  mem s id := id ∈ s.ids

theorem mem_def {s : IdSet} {id : UInt32} : id ∈ s ↔ id ∈ s.ids := Iff.rfl

instance (s : IdSet) (id : UInt32) : Decidable (id ∈ s) :=
  inferInstanceAs (Decidable (id ∈ s.ids))

def size (s : IdSet) : Nat := s.ids.length

/-- `insert` of an element that the set does not have. -/
def insert (a : Arrangement) (s : IdSet) (id : UInt32) (h : id ∉ s) : IdSet where
  ids := a.order (id :: s.ids)
  nodup := (a.perm _).nodup_iff.mpr (List.nodup_cons.mpr ⟨h, s.nodup⟩)

def erase (s : IdSet) (id : UInt32) : IdSet where
  ids := s.ids.erase id
  nodup := s.nodup.erase id

theorem not_mem_empty (id : UInt32) : id ∉ empty := by
  simp [mem_def, empty]

@[simp] theorem mem_insert {a : Arrangement} {s : IdSet} {id c : UInt32} (h : id ∉ s) :
    c ∈ s.insert a id h ↔ c = id ∨ c ∈ s := by
  simp only [mem_def, insert, (a.perm _).mem_iff, List.mem_cons]

@[simp] theorem size_insert {a : Arrangement} {s : IdSet} {id : UInt32} (h : id ∉ s) :
    (s.insert a id h).size = s.size + 1 := by
  simp only [size, insert, (a.perm _).length_eq, List.length_cons]

@[simp] theorem mem_erase {s : IdSet} {id c : UInt32} : c ∈ s.erase id ↔ c ≠ id ∧ c ∈ s := by
  simp only [mem_def, erase, s.nodup.mem_erase_iff]

theorem size_erase {s : IdSet} {id : UInt32} (h : id ∈ s) :
    (s.erase id).size = s.size - 1 := by
  simp only [size, erase]
  exact List.length_erase_of_mem h

end IdSet

/-! ## What is sent -/

/-- The head of what `AddCreature` writes. -/
inductive CreatureMessage where
  /-- `0x62` -/
  | known (id : UInt32)
  /-- `0x61` -/
  | unknown (remove id : UInt32)
  deriving DecidableEq, Repr

def addCreature (id : UInt32) (known : Bool) (remove : UInt32) : CreatureMessage :=
  if known then .known id else .unknown remove id

/-- The functions that send a creature. -/
inductive Sender where
  | getTileDescription | sendAddCreature | sendUpdateTileCreature
  deriving DecidableEq

/-- A creature that is sent. `freed` is what is read of the element of an id after it was
erased; `setID` gives no creature the id 0. -/
structure Description where
  id : UInt32
  id_ne : id ≠ 0
  sender : Sender
  view : View
  arrangement : Arrangement
  freed : UInt32 → UInt32

namespace Description

variable (d : Description)

/-- "Bad situation. Let's just remove anyone." -/
def anyone : List UInt32 → Option UInt32
  | [] => none
  | first :: rest => if first = d.id then rest.head? else some first

/-- The creature that the set gives up for the new one. -/
def evicted (ids : List UInt32) : Option UInt32 :=
  match ids.find? fun creatureId => !d.view.canSee creatureId with
  | some creatureId => some creatureId
  | none => d.anyone ids

/-- `isKnownCreature`, and the set after it. -/
def isKnownCreature (s : IdSet) : (Bool × UInt32) × IdSet :=
  if h : d.id ∈ s then ((true, 0), s)
  else
    let s := s.insert d.arrangement d.id h
    if s.size > 250 then
      match d.evicted s.ids with
      | some creatureId => ((false, d.freed creatureId), s.erase creatureId)
      | none => ((false, 0), s)
    else ((false, 0), s)

theorem mem_of_evicted {ids : List UInt32} {c : UInt32} (h : d.evicted ids = some c) :
    c ∈ ids := by
  unfold evicted at h
  split at h
  · next found =>
      obtain rfl := Option.some.inj h
      exact List.mem_of_find?_eq_some found
  · cases ids with
    | nil => cases h
    | cons first rest =>
        rw [anyone] at h
        split at h
        · exact List.mem_cons_of_mem _ (List.mem_of_mem_head? h)
        · obtain rfl := Option.some.inj h
          exact List.mem_cons_self ..

/-- Of two creatures at least, one can be given up. -/
theorem exists_evicted {ids : List UInt32} (h : 2 ≤ ids.length) : ∃ c, d.evicted ids = some c := by
  unfold evicted
  split
  · exact ⟨_, rfl⟩
  · match ids, h with
    | first :: second :: rest, _ =>
        rw [anyone, List.head?_cons]
        split
        · exact ⟨_, rfl⟩
        · exact ⟨_, rfl⟩

/-- The three ways through `isKnownCreature`. -/
theorem isKnownCreature_cases (s : IdSet) :
    (d.id ∈ s ∧ d.isKnownCreature s = ((true, 0), s)) ∨
    (∃ h : d.id ∉ s, s.size < 250 ∧
      d.isKnownCreature s = ((false, 0), s.insert d.arrangement d.id h)) ∨
    (∃ (h : d.id ∉ s) (c : UInt32), 250 ≤ s.size ∧
      d.evicted (s.insert d.arrangement d.id h).ids = some c ∧
      d.isKnownCreature s = ((false, d.freed c), (s.insert d.arrangement d.id h).erase c)) := by
  by_cases known : d.id ∈ s
  · exact .inl ⟨known, dif_pos known⟩
  · by_cases room : s.size < 250
    · refine .inr (.inl ⟨known, room, ?_⟩)
      have : ¬(s.insert d.arrangement d.id known).size > 250 := by
        rw [IdSet.size_insert]
        omega
      rw [isKnownCreature, dif_neg known, if_neg this]
    · have full : (s.insert d.arrangement d.id known).size > 250 := by
        rw [IdSet.size_insert]
        omega
      obtain ⟨c, hc⟩ := d.exists_evicted (Nat.le_of_lt (Nat.lt_of_lt_of_le (by decide) full.le))
      refine .inr (.inr ⟨known, c, Nat.le_of_not_lt room, hc, ?_⟩)
      rw [isKnownCreature, dif_neg known, if_pos full, hc]

/-- The message to the client; `sendUpdateTileCreature` sends the creature in full. -/
def message (s : IdSet) : CreatureMessage :=
  let (known, removedKnown) := (d.isKnownCreature s).1
  match d.sender with
  | .getTileDescription | .sendAddCreature => addCreature d.id known removedKnown
  | .sendUpdateTileCreature => addCreature d.id false removedKnown

/-- A creature sent as known is one of the set. -/
theorem mem_of_message_known {s : IdSet} {id : UInt32} (h : d.message s = .known id) :
    id ∈ s := by
  have named : ∀ {known remove}, (addCreature d.id known remove = .known id) →
      known = true ∧ d.id = id := by
    intro known remove hadd
    cases known with
    | false => cases hadd
    | true => exact ⟨rfl, CreatureMessage.known.inj hadd⟩
  have hknown : (d.isKnownCreature s).1.1 = true ∧ d.id = id := by
    simp only [message] at h
    cases hs : d.sender <;> rw [hs] at h
    · exact named h
    · exact named h
    · exact absurd (named h).1 (by decide)
  obtain ⟨first, rfl⟩ := hknown
  rcases d.isKnownCreature_cases s with ⟨hmem, _⟩ | ⟨_, _, heq⟩ | ⟨_, _, _, _, heq⟩
  · exact hmem
  · rw [heq] at first
    cases first
  · rw [heq] at first
    cases first

/-- A creature that is new to the set is sent in full. -/
theorem message_of_unknown {s s' : IdSet} {remove : UInt32}
    (h : d.isKnownCreature s = ((false, remove), s')) :
    d.message s = .unknown remove d.id := by
  unfold message
  rw [h]
  cases d.sender <;> rfl

end Description

/-- The creatures of a client after a message. -/
def receive (client : Finset UInt32) : CreatureMessage → Finset UInt32
  | .known _ => client
  | .unknown remove id => insert id (client.erase remove)

structure Session where
  knownCreatureSet : IdSet
  client : Finset UInt32

namespace Session

def start : Session := ⟨IdSet.empty, ∅⟩

def send (s : Session) (d : Description) : Session where
  knownCreatureSet := (d.isKnownCreature s.knownCreatureSet).2
  client := receive s.client (d.message s.knownCreatureSet)

def run (s : Session) (ds : List Description) : Session := Runs.run send s ds

/-- The set is small and the client has what is in it. -/
structure Agrees (s : Session) : Prop where
  size_le : s.knownCreatureSet.size ≤ 250
  subset : ∀ id ∈ s.knownCreatureSet, id ∈ s.client

/-- A creature that is sent as known is one that the client has. -/
def SendsKnown (s : Session) (d : Description) : Prop :=
  ∀ id, d.message s.knownCreatureSet = .known id → id ∈ s.client

/-- If a creature is given up, the id read after that is its own, or at least not that of
another creature of the set. -/
def ReadsBack (s : Session) (d : Description) : Prop :=
  ∀ (h : d.id ∉ s.knownCreatureSet) (c : UInt32),
    250 ≤ s.knownCreatureSet.size →
    d.evicted (s.knownCreatureSet.insert d.arrangement d.id h).ids = some c →
    d.freed c = c ∨ d.freed c ∉ s.knownCreatureSet

/-! ## Agreement -/

/-- The agreement, with 0 for no creature. -/
structure Inv (s : Session) : Prop extends Agrees s where
  zero_not_mem : (0 : UInt32) ∉ s.knownCreatureSet

theorem inv_start : Inv start where
  size_le := Nat.zero_le _
  subset id hid := absurd hid (IdSet.not_mem_empty id)
  zero_not_mem := IdSet.not_mem_empty 0

theorem SendsKnown.of_agrees {s : Session} (h : Agrees s) (d : Description) : SendsKnown s d :=
  fun id hid => h.subset id (d.mem_of_message_known hid)

theorem receive_known {s : Session} {d : Description} (inv : Inv s)
    (heq : d.isKnownCreature s.knownCreatureSet = ((true, 0), s.knownCreatureSet)) :
    ∀ id ∈ s.knownCreatureSet, id ∈ receive s.client (d.message s.knownCreatureSet) := by
  intro id hid
  have hne : id ≠ 0 := fun h => inv.zero_not_mem (h ▸ hid)
  have forced : id ∈ receive s.client (.unknown 0 d.id) :=
    Finset.mem_insert_of_mem (Finset.mem_erase.mpr ⟨hne, inv.subset id hid⟩)
  unfold Description.message
  rw [heq]
  cases d.sender with
  | getTileDescription => exact inv.subset id hid
  | sendAddCreature => exact inv.subset id hid
  | sendUpdateTileCreature => exact forced

/-- One description keeps the agreement if the id of the creature that is given up is read
back. -/
theorem Inv.send {s : Session} (inv : Inv s) {d : Description} (hread : ReadsBack s d) :
    Inv (s.send d) := by
  have zero_ne : (0 : UInt32) ≠ d.id := fun h => d.id_ne h.symm
  rcases d.isKnownCreature_cases s.knownCreatureSet with
    ⟨_, heq⟩ | ⟨hnew, room, heq⟩ | ⟨hnew, c, full, hc, heq⟩
  · have hset : (s.send d).knownCreatureSet = s.knownCreatureSet := congrArg Prod.snd heq
    exact
      { size_le := hset ▸ inv.size_le
        subset := hset ▸ receive_known inv heq
        zero_not_mem := hset ▸ inv.zero_not_mem }
  · have hset := congrArg Prod.snd heq
    have hclient : (s.send d).client = Insert.insert d.id (s.client.erase 0) := by
      rw [Session.send, d.message_of_unknown heq, receive]
    refine ⟨⟨?_, ?_⟩, ?_⟩ <;> simp only [Session.send] at hclient ⊢ <;> rw [hset]
    · rw [IdSet.size_insert]
      omega
    · intro id hid
      rw [hclient, Finset.mem_insert, Finset.mem_erase]
      rcases (IdSet.mem_insert hnew).mp hid with rfl | hid
      · exact .inl rfl
      · exact .inr ⟨fun h => inv.zero_not_mem (h ▸ hid), inv.subset id hid⟩
    · rw [IdSet.mem_insert]
      rintro (h | h)
      · exact zero_ne h
      · exact inv.zero_not_mem h
  · have hset := congrArg Prod.snd heq
    have hclient : (s.send d).client = Insert.insert d.id (s.client.erase (d.freed c)) := by
      rw [Session.send, d.message_of_unknown heq, receive]
    refine ⟨⟨?_, ?_⟩, ?_⟩ <;> simp only [Session.send] at hclient ⊢ <;> rw [hset]
    · have hmem : c ∈ s.knownCreatureSet.insert d.arrangement d.id hnew := d.mem_of_evicted hc
      rw [IdSet.size_erase hmem, IdSet.size_insert]
      exact inv.size_le
    · intro id hid
      obtain ⟨hne, hid⟩ := IdSet.mem_erase.mp hid
      rw [hclient, Finset.mem_insert, Finset.mem_erase]
      rcases (IdSet.mem_insert hnew).mp hid with rfl | hid
      · exact .inl rfl
      · refine .inr ⟨?_, inv.subset id hid⟩
        rintro rfl
        rcases hread hnew c full hc with h | h
        · exact hne h
        · exact h hid
    · rw [IdSet.mem_erase, IdSet.mem_insert]
      rintro ⟨_, h | h⟩
      · exact zero_ne h
      · exact inv.zero_not_mem h

/-- And only then. -/
theorem ReadsBack.of_agrees {s : Session} {d : Description} (h : Agrees (s.send d)) :
    ReadsBack s d := by
  intro hnew c full hc
  rcases d.isKnownCreature_cases s.knownCreatureSet with
    ⟨hmem, _⟩ | ⟨_, room, _⟩ | ⟨_, c', _, hc', heq⟩
  · exact absurd hmem hnew
  · exact absurd room (Nat.not_lt.mpr full)
  · obtain rfl : c = c' := Option.some.inj (hc.symm.trans hc')
    by_contra hcon
    push Not at hcon
    obtain ⟨hne, hmem⟩ := hcon
    have hstays : d.freed c ∈ (s.send d).knownCreatureSet := by
      rw [Session.send, heq]
      exact IdSet.mem_erase.mpr ⟨hne, (IdSet.mem_insert hnew).mpr (.inr hmem)⟩
    have hclient := h.subset _ hstays
    rw [Session.send, d.message_of_unknown heq, receive, Finset.mem_insert,
      Finset.mem_erase] at hclient
    rcases hclient with heq | ⟨hne, _⟩
    · exact hnew (heq ▸ hmem)
    · exact hne rfl

/-- The client knows what the server takes it to know at every description of a run, if and
only if the id of each creature that was given up is read back from the freed element. -/
theorem known_creature_agreement (ds : List Description) :
    (∀ pre d post, ds = pre ++ d :: post →
      SendsKnown (start.run pre) d ∧ Agrees (start.run (pre ++ [d]))) ↔
    ∀ pre d post, ds = pre ++ d :: post → ReadsBack (start.run pre) d := by
  simp only [run, Runs.run_snoc]
  have hiff : ∀ s d, Inv s → (SendsKnown s d ∧ Agrees (s.send d) ↔ ReadsBack s d) := by
    intro s d inv
    constructor
    · rintro ⟨_, hagrees⟩
      exact .of_agrees hagrees
    · intro hread
      exact ⟨.of_agrees inv.toAgrees d, (inv.send hread).toAgrees⟩
  exact Runs.throughout_iff (fun _ _ inv hread => inv.send hread) hiff inv_start ds

/-! ## A creature that is read wrong -/

theorem send_new {s : Session} {d : Description} (hnew : d.id ∉ s.knownCreatureSet)
    (room : s.knownCreatureSet.size < 250) :
    (s.send d).knownCreatureSet = s.knownCreatureSet.insert d.arrangement d.id hnew := by
  rcases d.isKnownCreature_cases s.knownCreatureSet with ⟨h, _⟩ | ⟨_, _, heq⟩ | ⟨_, _, full, _⟩
  · exact absurd h hnew
  · exact congrArg Prod.snd heq
  · omega

/-- While there is room, the set has what was described. -/
theorem run_new {s : Session} {ds : List Description}
    (hfresh : ∀ d ∈ ds, d.id ∉ s.knownCreatureSet) (hnodup : (ds.map (·.id)).Nodup)
    (room : s.knownCreatureSet.size + ds.length ≤ 250) :
    (s.run ds).knownCreatureSet.size = s.knownCreatureSet.size + ds.length ∧
      ∀ c, c ∈ (s.run ds).knownCreatureSet ↔ c ∈ s.knownCreatureSet ∨ c ∈ ds.map (·.id) := by
  induction ds generalizing s with
  | nil => simp [run]
  | cons d ds ih =>
      rw [List.length_cons] at room
      rw [List.map_cons, List.nodup_cons] at hnodup
      have hnew := hfresh d (List.mem_cons_self ..)
      have hset := send_new hnew (by omega)
      have hfresh' : ∀ e ∈ ds, e.id ∉ (s.send d).knownCreatureSet := by
        intro e he hmem
        rw [hset, IdSet.mem_insert] at hmem
        rcases hmem with heq | hmem
        · exact hnodup.1 (List.mem_map.mpr ⟨e, he, heq⟩)
        · exact hfresh e (List.mem_cons_of_mem _ he) hmem
      have room' : (s.send d).knownCreatureSet.size + ds.length ≤ 250 := by
        rw [hset, IdSet.size_insert]
        omega
      obtain ⟨hsize, hmem⟩ := ih hfresh' hnodup.2 room'
      rw [hset, IdSet.size_insert] at hsize
      refine ⟨?_, fun c => ?_⟩
      · rw [run, Runs.run_cons, ← run, List.length_cons]
        omega
      · rw [run, Runs.run_cons, ← run, hmem, hset, IdSet.mem_insert, List.map_cons, List.mem_cons]
        tauto

def monsterId (k : Nat) : UInt32 := 0x40000000 + UInt32.ofNat (k % 1000)

theorem monsterId_toNat (k : Nat) : (monsterId k).toNat = 0x40000000 + k % 1000 := by
  have : k % 1000 < 1000 := Nat.mod_lt _ (by decide)
  rw [monsterId, UInt32.toNat_add, UInt32.toNat_ofNat_of_lt' (Nat.lt_trans this (by decide))]
  rw [show (0x40000000 : UInt32).toNat = 0x40000000 from rfl]
  exact Nat.mod_eq_of_lt (by omega)

/-- A monster that left the game when the next one is described; its freed element reads as
the id of the first monster. -/
def monster (k : Nat) : Description where
  id := monsterId k
  id_ne h := by
    have := monsterId_toNat k
    rw [h] at this
    exact absurd this (by rw [UInt32.toNat_zero]; omega)
  sender := .sendAddCreature
  view := { player := some ⟨1000, 1000, 7⟩, getCreatureByID := fun _ => none }
  arrangement := ⟨fun l => l, fun l => List.Perm.refl l⟩
  freed _ := monsterId 0

def monsters : List Description := (List.range 250).map monster

theorem monsters_known :
    (start.run monsters).knownCreatureSet.size = 250 ∧
      ∀ c, c ∈ (start.run monsters).knownCreatureSet ↔ ∃ k < 250, monsterId k = c := by
  have hnodup : (monsters.map (·.id)).Nodup := by
    rw [monsters, List.map_map]
    refine List.Nodup.map_on (fun a ha b hb heq => ?_) List.nodup_range
    have heq := congrArg UInt32.toNat heq
    simp only [Function.comp_apply, monster, monsterId_toNat] at heq
    have := List.mem_range.mp ha
    have := List.mem_range.mp hb
    omega
  have hfresh : ∀ d ∈ monsters, d.id ∉ start.knownCreatureSet :=
    fun d _ => IdSet.not_mem_empty d.id
  have hlength : start.knownCreatureSet.size + monsters.length = 250 := by
    simp [start, IdSet.empty, IdSet.size, monsters]
  obtain ⟨hsize, hmem⟩ := run_new hfresh hnodup hlength.le
  refine ⟨hsize.trans hlength, fun c => (hmem c).trans ?_⟩
  simp [monsters, monster, start, IdSet.not_mem_empty]

/-- The client is told to forget the first monster, which stays in the set, when the 251st is
described. -/
theorem first_monster_forgotten :
    ¬∀ (ds pre : List Description) (d : Description) (post : List Description),
      ds = pre ++ d :: post →
      SendsKnown (start.run pre) d ∧ Agrees (start.run (pre ++ [d])) := by
  intro h
  obtain ⟨hsize, hmem⟩ := monsters_known
  have hagrees := (h (monsters ++ [monster 250]) monsters (monster 250) [] rfl).2
  rw [run, Runs.run_snoc] at hagrees
  have hnew : (monster 250).id ∉ (start.run monsters).knownCreatureSet := by
    rw [hmem]
    rintro ⟨k, hk, heq⟩
    have heq := congrArg UInt32.toNat heq
    simp only [monster, monsterId_toNat] at heq
    omega
  rcases ReadsBack.of_agrees hagrees hnew (monsterId 250) hsize.ge rfl with heq | hgone
  · exact absurd (congrArg UInt32.toNat heq) (by decide)
  · exact hgone ((hmem _).mpr ⟨0, by decide, rfl⟩)

end Session

end Bruxo.KnownCreatures
