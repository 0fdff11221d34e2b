import Bruxo.Decay
import Bruxo.HouseTileRoundTrip
import Bruxo.ItemRoundTrip

/-!
# The attributes of the items of a house

The classes that a house tile has: `Item`, `Container`, `Door` (`house.cpp`) and `BedItem`
(`bed.cpp`). Each reads its own tags and leaves the others to `Item::readAttr`; a door writes
nothing, and a bed nothing but who sleeps there. What they write and read meets `Attributes`.
-/

namespace Bruxo.MapSerialize

open Bytes
open Decay (setDefaultSubtype)

/-- An item, and what it has besides if it is a bed. -/
structure HouseAttributes where
  item : Bruxo.Item
  sleeperGUID : Nat
  sleepStart : Nat

/-- What the attributes depend on: the types, the names of the players, whether a unique id is
taken, and the duration that is drawn for an item of a type. -/
structure Surroundings where
  items : UInt16 → HouseItemType
  getNameByGuid : Nat → List UInt8
  idTaken : Bool
  newDuration : UInt16 → Nat

/-- `" is sleeping there."` -/
def isSleepingThere : List UInt8 := " is sleeping there.".toUTF8.toList

namespace HouseAttributes

variable (env : Surroundings) (id : UInt16)

def create : HouseAttributes where
  item := Item.create (env.items id).toItemType (env.newDuration id)
  sleeperGUID := 0
  sleepStart := 0

def serializeAttr (a : HouseAttributes) : List UInt8 :=
  if (env.items id).getBed then
    (if a.sleeperGUID ≠ 0 then leBytes 1 AttrType.sleeperGuid.code ++ leBytes 4 a.sleeperGUID
      else []) ++
    (if a.sleepStart ≠ 0 then
      leBytes 1 AttrType.sleepStart.code ++ leBytes 4 (a.sleepStart % 256 ^ 4)
    else [])
  else if (env.items id).getDoor then []
  else (a.item.serializeAttr (env.items id).toItemType .empty).buffer

def setSleeper (a : HouseAttributes) (guid : Nat) : HouseAttributes :=
  if guid ≠ 0 ∧ env.getNameByGuid guid ≠ [] then
    { a with
      item := a.item.setStrAttr .description (env.getNameByGuid guid ++ isSleepingThere)
      sleeperGUID := guid }
  else a

/-- What `readAttr` of the class answers: `ATTR_READ_CONTINUE`, `ATTR_READ_END` with the number of
items, or `ATTR_READ_ERROR`. -/
inductive AttrRead where
  | readOn (a : HouseAttributes) (rest : PropStream)
  | readEnd (serializationCount : Nat) (rest : PropStream)
  | readError (a : HouseAttributes) (rest : PropStream)

def readAttr (a : HouseAttributes) (attr : AttrType) (s : PropStream) : AttrRead :=
  let it := env.items id
  if it.getContainer ∧ attr = .containerItems then
    match s.read 4 with
    | none => .readError a s
    | some (serializationCount, s) => .readEnd serializationCount s
  else if it.getBed ∧ attr = .sleeperGuid then
    match s.read 4 with
    | none => .readError a s
    | some (guid, s) => .readOn (a.setSleeper env guid) s
  else if it.getBed ∧ attr = .sleepStart then
    match s.read 4 with
    | none => .readError a s
    | some (sleepStart, s) => .readOn { a with sleepStart := sleepStart } s
  else if it.getDoor ∧ attr = .houseDoorId then
    match s.read 1 with
    | none => .readError a s
    | some (doorId, s) => .readOn { a with item := a.item.setIntAttr .doorId doorId } s
  else
    let r := a.item.readAttr env.idTaken it.toItemType attr s
    if r.ok then .readOn { a with item := r.item } r.rest
    else .readError { a with item := r.item } r.rest

theorem size_readAttr {a a' : HouseAttributes} {attr : AttrType} {s s' : PropStream}
    (h : a.readAttr env id attr s = .readOn a' s') : s'.size ≤ s.size := by
  have hread : ∀ {n v : Nat} {s'' : PropStream}, s.read n = some (v, s'') → s''.size ≤ s.size := by
    intro n v s'' hr
    have := PropStream.size_read hr
    omega
  have hitem := Item.size_readAttr env.idTaken (env.items id).toItemType a.item attr s
  rw [readAttr] at h
  dsimp only at h
  split at h
  · split at h <;> cases h
  split at h
  · split at h
    · cases h
    · next hr =>
        cases h
        exact hread hr
  split at h
  · split at h
    · cases h
    · next hr =>
        cases h
        exact hread hr
  split at h
  · split at h
    · cases h
    · next hr =>
        cases h
        exact hread hr
  · split at h
    · cases h
      exact hitem
    · cases h

def unserializeAttr (a : HouseAttributes) (s : PropStream) : ReadAttrs HouseAttributes :=
  match _h : s.read 1 with
  | none => ⟨true, a, 0, s⟩
  | some (attrType, s') =>
      if attrType = 0 then ⟨true, a, 0, s'⟩
      else
        match AttrType.ofCode attrType with
        | none => ⟨false, a, 0, s'⟩
        | some attr =>
            match _h' : a.readAttr env id attr s' with
            | .readOn a' s'' => a'.unserializeAttr s''
            | .readEnd serializationCount s'' => ⟨true, a, serializationCount, s''⟩
            | .readError a' s'' => ⟨false, a', 0, s''⟩
termination_by s.size
decreasing_by
  have hread := PropStream.size_read _h
  have hattr := size_readAttr env id _h'
  omega

/-! ## The loop on what was written -/

section

variable {env id} {a a' : HouseAttributes}

theorem unserializeAttr_end (a : HouseAttributes) (rest : List UInt8) :
    a.unserializeAttr env id ⟨leBytes 1 0 ++ rest⟩ = ⟨true, a, 0, ⟨rest⟩⟩ := by
  have hread := PropStream.read_write (n := 1) (v := 0) (by decide) rest
  rw [unserializeAttr]
  split
  · next hnone =>
      rw [hread] at hnone
      cases hnone
  · next hsome =>
      rw [hread] at hsome
      cases hsome
      rfl

/-- What the loop makes of a tag. -/
theorem unserializeAttr_tag (a : HouseAttributes) (attr : AttrType) (rest : List UInt8) :
    a.unserializeAttr env id ⟨leBytes 1 attr.code ++ rest⟩ =
      match a.readAttr env id attr ⟨rest⟩ with
      | .readOn a' s => a'.unserializeAttr env id s
      | .readEnd serializationCount s => ⟨true, a, serializationCount, s⟩
      | .readError a' s => ⟨false, a', 0, s⟩ := by
  have hread := PropStream.read_write (n := 1) (AttrType.code_lt attr) rest
  rw [unserializeAttr]
  split
  · next hnone =>
      rw [hread] at hnone
      cases hnone
  · next hsome =>
      rw [hread] at hsome
      cases hsome
      rw [if_neg (AttrType.code_pos attr).ne', AttrType.ofCode_code]
      dsimp only
      split <;> simp_all only

theorem unserializeAttr_turn {attr : AttrType} {bs rest : List UInt8}
    (h : a.readAttr env id attr ⟨bs ++ rest⟩ = .readOn a' ⟨rest⟩) :
    a.unserializeAttr env id ⟨leBytes 1 attr.code ++ bs ++ rest⟩ =
      a'.unserializeAttr env id ⟨rest⟩ := by
  rw [List.append_assoc, unserializeAttr_tag, h]

theorem unserializeAttr_items (hcontainer : (env.items id).getContainer = true) {size : Nat}
    (hsize : size < 256 ^ 4) (a : HouseAttributes) (rest : List UInt8) :
    a.unserializeAttr env id ⟨leBytes 1 containerItems ++ leBytes 4 size ++ rest⟩ =
      ⟨true, a, size, ⟨rest⟩⟩ := by
  have hread : a.readAttr env id .containerItems ⟨leBytes 4 size ++ rest⟩ =
      .readEnd size ⟨rest⟩ := by
    rw [readAttr]
    simp only [hcontainer, true_and, if_true]
    rw [PropStream.read_write hsize]
  rw [List.append_assoc]
  refine (unserializeAttr_tag a .containerItems (leBytes 4 size ++ rest)).trans ?_
  rw [hread]

/-- Tags that are those of every item. -/
theorem unserializeAttr_turns (hbed : (env.items id).getBed = false)
    (hdoor : (env.items id).getDoor = false) {bs : List UInt8} {item item' : Bruxo.Item}
    (h : Item.Turns env.idTaken (env.items id).toItemType bs item item') (guid start : Nat)
    (rest : List UInt8) :
    (⟨item, guid, start⟩ : HouseAttributes).unserializeAttr env id ⟨bs ++ rest⟩ =
      (⟨item', guid, start⟩ : HouseAttributes).unserializeAttr env id ⟨rest⟩ := by
  induction h with
  | nil item => rfl
  | @turn attr bs bs' item item' item'' hread _ ih =>
      have hnot : attr ≠ .containerItems := by
        rintro rfl
        have := congrArg ReadResult.ok (hread [])
        cases this
      rw [List.append_assoc, unserializeAttr_turn ?_]
      · exact ih
      · rw [readAttr]
        simp only [hbed, hdoor, hnot, hread, Bool.false_eq_true, false_and, and_false, if_false,
          if_true]

/-- A bed of the other id is a bed, and so with a door. -/
theorem kind_cases {items : UInt16 → HouseItemType} {id id' : UInt16}
    (h : SameKind items id id') :
    ((items id).getBed = true ∧ (items id').getBed = true) ∨
      ((items id).getBed = false ∧ (items id').getBed = false ∧
        (items id).getDoor = true ∧ (items id').getDoor = true) ∨
      (id' = id ∧ (items id).getBed = false ∧ (items id).getDoor = false) := by
  have hnot : ∀ id, (items id).getDoor = true → (items id).getBed = false := by
    intro id hdoor
    simp only [HouseItemType.getDoor, HouseItemType.getBed, ItemType.isDoor, ItemType.isBed,
      Bool.and_eq_true, decide_eq_true_eq] at hdoor ⊢
    simp [hdoor.2]
  rcases h with rfl | ⟨hdoor', hdoor⟩ | ⟨hbed', hbed⟩
  · cases hbed : (items id').getBed with
    | true => exact .inl ⟨rfl, rfl⟩
    | false =>
        cases hdoor : (items id').getDoor with
        | true => exact .inr (.inl ⟨rfl, rfl, rfl, rfl⟩)
        | false => exact .inr (.inr ⟨rfl, rfl, rfl⟩)
  · exact .inr (.inl ⟨hnot id hdoor, hnot id' hdoor', hdoor, hdoor'⟩)
  · exact .inl ⟨hbed, hbed'⟩

end

/-! ## What is restored -/

def Storable (a : HouseAttributes) : Prop := a.sleeperGUID < 256 ^ 4 ∧ a.item.CustomStorable

/-- What becomes of `a` when the state of `saved` is read into it. -/
def restore (a saved : HouseAttributes) : HouseAttributes :=
  if (env.items id).getBed then
    let a' := if saved.sleeperGUID ≠ 0 then a.setSleeper env saved.sleeperGUID else a
    if saved.sleepStart ≠ 0 then { a' with sleepStart := saved.sleepStart % 256 ^ 4 } else a'
  else if (env.items id).getDoor then a
  else { a with item := saved.item.restore (env.items id).toItemType a.item }

/-- `setID`, and in its place on the tile `updateThing` with the old sub-type. -/
def transform (newId : UInt16) (a : HouseAttributes) : HouseAttributes :=
  let curType := env.items id
  let newType := env.items newId
  let setID := Item.setID curType.toItemType newType.toItemType (env.newDuration newId)
  if curType.alwaysOnTop ≠ newType.alwaysOnTop then { a with item := setID a.item }
  else
    let count := a.item.getSubType curType.toItemType
    let item :=
      if newType.group ≠ curType.group then setDefaultSubtype curType.toItemType a.item else a.item
    { a with item := (setID item).setSubType newType.toItemType (castInt 2 false count) }

variable {env}

theorem bed_turns (hbed : (env.items id).getBed = true) {saved : HouseAttributes}
    (hguid : saved.sleeperGUID < 256 ^ 4) (a : HouseAttributes) (rest : List UInt8) :
    a.unserializeAttr env id
        ⟨(if saved.sleeperGUID ≠ 0 then
            leBytes 1 AttrType.sleeperGuid.code ++ leBytes 4 saved.sleeperGUID else []) ++
          ((if saved.sleepStart ≠ 0 then
            leBytes 1 AttrType.sleepStart.code ++ leBytes 4 (saved.sleepStart % 256 ^ 4)
          else []) ++ rest)⟩ =
      (a.restore env id saved).unserializeAttr env id ⟨rest⟩ := by
  have hcontainer : (env.items id).getContainer = false := by
    simp only [HouseItemType.getBed, Bool.and_eq_true, Bool.not_eq_true'] at hbed
    exact hbed.1
  have hstart : ∀ a : HouseAttributes, a.unserializeAttr env id
      ⟨(if saved.sleepStart ≠ 0 then
          leBytes 1 AttrType.sleepStart.code ++ leBytes 4 (saved.sleepStart % 256 ^ 4)
        else []) ++ rest⟩ =
      (if saved.sleepStart ≠ 0 then { a with sleepStart := saved.sleepStart % 256 ^ 4 }
        else a).unserializeAttr env id ⟨rest⟩ := by
    intro a
    split
    · refine unserializeAttr_turn ?_
      rw [readAttr]
      simp only [hcontainer, hbed, Bool.false_eq_true, false_and, if_false, true_and, if_true,
        reduceCtorEq]
      rw [PropStream.read_write (Nat.mod_lt _ (by decide))]
    · rfl
  rw [restore, if_pos hbed]
  dsimp only
  rw [← hstart]
  split
  · refine unserializeAttr_turn ?_
    rw [readAttr]
    simp only [hcontainer, hbed, Bool.false_eq_true, false_and, if_false, true_and, if_true]
    rw [PropStream.read_write hguid]
  · rfl

theorem unserializeAttr_serializeAttr {id id' : UInt16} (hkind : SameKind env.items id id')
    {saved : HouseAttributes} (h : saved.Storable) (a : HouseAttributes) (rest : List UInt8) :
    a.unserializeAttr env id' ⟨saved.serializeAttr env id ++ rest⟩ =
      (a.restore env id' saved).unserializeAttr env id' ⟨rest⟩ := by
  rcases kind_cases hkind with ⟨hbed, hbed'⟩ | ⟨hbed, hbed', hdoor, hdoor'⟩ | ⟨rfl, hbed, hdoor⟩
  · rw [serializeAttr, if_pos hbed, List.append_assoc]
    exact bed_turns id' hbed' h.1 a rest
  · rw [serializeAttr, restore]
    simp only [hbed, hbed', hdoor, hdoor', Bool.false_eq_true, if_false, if_true,
      List.nil_append]
  · obtain ⟨bs, hW, hf⟩ := saved.item.steps_serializeAttr env.idTaken (env.items id').toItemType h.2
    rw [serializeAttr, restore]
    simp only [hbed, hdoor, Bool.false_eq_true, if_false, hW, PropWriteStream.empty,
      List.nil_append]
    exact unserializeAttr_turns hbed hdoor (hf a.item) a.sleeperGUID a.sleepStart rest

end HouseAttributes

/-- The attributes as the classes write and read them. -/
def houseAttributes (env : Surroundings) : Attributes env.items HouseAttributes where
  create := HouseAttributes.create env
  serializeAttr := fun id a => a.serializeAttr env id
  unserializeAttr := fun id a => a.unserializeAttr env id
  Storable := fun _ a => a.Storable
  restore := fun id a saved => a.restore env id saved
  transform := fun id newId a => a.transform env id newId
  read_end := by
    intro id id' hkind saved h a rest
    rw [List.append_assoc, HouseAttributes.unserializeAttr_serializeAttr hkind h,
      HouseAttributes.unserializeAttr_end]
  read_items := by
    intro id hcontainer saved h size hsize a rest
    rw [List.append_assoc, List.append_assoc,
      HouseAttributes.unserializeAttr_serializeAttr (sameKind_self id) h, ← List.append_assoc,
      HouseAttributes.unserializeAttr_items hcontainer hsize]

/-! ## House tiles

Saved at one start of the server, and loaded at the next, where the types may have changed. -/

theorem house_tile_round_trip (env env' : Surroundings) (t : HouseTile env'.items HouseAttributes)
    (position : Position)
    (htypes : ∀ item ∈ t.now, ∀ id ∈ item.ids, env.items id = env'.items id)
    (h : t.Restorable (houseAttributes env')) :
    RoundTrip (houseAttributes env) (houseAttributes env') t position := by
  refine roundTrip_of_restorable _ _ t position (fun item hitem id hid => ?_) h
  have htype := htypes item hitem id hid
  refine ⟨htype, funext fun a => ?_⟩
  simp only [houseAttributes, HouseAttributes.serializeAttr, htype]

def coinType : HouseItemType := { id := 100, moveable := true }

def relicType : HouseItemType := { id := 200, moveable := true }

def bookcaseType : HouseItemType := { id := 300, group := .container }

def closedDoorType : HouseItemType := { id := 400, type := .door }

def openDoorType : HouseItemType :=
  { id := 401, type := .door, alwaysOnTop := true, alwaysOnTopOrder := 3 }

def bagType : HouseItemType := { id := 500, group := .container, moveable := true }

def types (id : UInt16) : HouseItemType :=
  if id = 100 then coinType
  else if id = 200 then relicType
  else if id = 300 then bookcaseType
  else if id = 400 then closedDoorType
  else if id = 401 then openDoorType
  else if id = 500 then bagType
  else {}

def server : Surroundings := ⟨types, fun _ => [], false, fun _ => 0⟩

/-- There are no relics any more. -/
def laterServer : Surroundings :=
  ⟨fun id => if id = 200 then {} else types id, fun _ => [], false, fun _ => 0⟩

def plain (id : UInt16) : HouseAttributes := HouseAttributes.create server id

def holding (id : UInt16) (contents : List UInt16) : Item HouseAttributes :=
  ⟨id, plain id, contents.foldr (fun id list => .cons id (plain id) .nil list) .nil⟩

theorem savable_holding {id : UInt16} (hid : CreateItem types id = some id) {contents : List UInt16}
    (hcontainer : contents = [] ∨ (types id).getContainer = true)
    (hcontents : contents.all fun id => CreateItem types id = some id)
    (hsize : contents.length ≤ 1) : (holding id contents).Savable (houseAttributes server) := by
  have hplain : ∀ id, (houseAttributes server).Storable id (plain id) := by
    refine fun id => ⟨(by decide : 0 < 256 ^ 4), fun m hm => ?_⟩
    rw [plain, HouseAttributes.create, Item.create_custom] at hm
    cases hm
  have hlength : (holding id contents).itemlist.length = contents.length := by
    clear hcontainer hcontents hsize
    induction contents with
    | nil => rfl
    | cons id contents ih => exact congrArg Nat.succ ih
  refine ⟨⟨hid, hplain id, fun hnot => ?_, by omega⟩, ?_⟩
  · rcases hcontainer with rfl | hcontainer
    · rfl
    · cases hcontainer.symm.trans hnot
  · clear hcontainer hsize hlength
    induction contents with
    | nil => trivial
    | cons id contents ih =>
        simp only [List.all_cons, Bool.and_eq_true, decide_eq_true_eq] at hcontents
        exact ⟨⟨hcontents.1, hplain id, fun _ => rfl, by decide⟩, trivial, ih hcontents.2⟩

/-- A bag with a coin on a bookcase of the map with a relic in it, and a door of the map that has
been opened. -/
def furnished : HouseTile server.items HouseAttributes where
  down := [.new (holding 500 [100]), .stays (holding 300 [200]) (holding 300 []),
    .leaves (holding 400 []) 0]
  top := [.comes (holding 401 []) (holding 400 [])]
  fresh := ⟨[holding 300 [], holding 400 []], 2⟩
  down_type := by decide
  top_type := by decide
  no_ground := by decide
  down_matched := by
    rintro (_ | k)
    · rfl
    · rfl
  top_matched := by
    rintro (_ | _ | _ | k)
    · rfl
    · rfl
    · rfl
    · rfl
  length_le := by decide

theorem furnished_restorable : furnished.Restorable (houseAttributes server) where
  fresh := rfl
  top := by
    intro before c behind heq
    rcases before with _ | ⟨door, before⟩
    · obtain ⟨rfl, rfl⟩ := List.cons.inj heq
      exact .comes _ _ rfl (savable_holding (by decide) (.inl rfl) (by decide) (by decide)) rfl
        (by decide) (.inr (.inl ⟨rfl, rfl⟩)) rfl (by decide) ⟨by decide, by decide⟩
    · have := congrArg List.length heq
      simp [furnished] at this
  down := by
    intro before c behind heq
    rcases before with _ | ⟨bag, _ | ⟨bookcase, _ | ⟨door, before⟩⟩⟩
    · obtain ⟨rfl, rfl⟩ := List.cons.inj heq
      exact .new _ (savable_holding (by decide) (.inr rfl) (by decide) (by decide)) rfl rfl
    · obtain ⟨rfl, hrest⟩ := List.cons.inj heq
      obtain ⟨rfl, rfl⟩ := List.cons.inj hrest
      exact .stays _ _ rfl (savable_holding (by decide) (.inr rfl) (by decide) (by decide)) rfl
        (fun _ h => absurd h List.not_mem_nil) (.inl rfl) rfl rfl
    · obtain ⟨-, hrest⟩ := List.cons.inj heq
      obtain ⟨-, hlast⟩ := List.cons.inj hrest
      obtain ⟨rfl, rfl⟩ := List.cons.inj hlast
      exact .leaves _ _
    · have := congrArg List.length heq
      simp [furnished] at this

theorem house_tile_round_trip_furnished :
    RoundTrip (houseAttributes server) (houseAttributes server) furnished ⟨1000, 1000, 7⟩ :=
  house_tile_round_trip server server furnished ⟨1000, 1000, 7⟩ (fun _ _ _ _ => rfl)
    furnished_restorable

/-- Two bookcases of the map, with something in each. -/
def twoBookcases : HouseTile server.items HouseAttributes where
  down := [.stays (holding 300 [100]) (holding 300 []), .stays (holding 300 [200]) (holding 300 [])]
  top := []
  fresh := ⟨[holding 300 [], holding 300 []], 2⟩
  down_type := by decide
  top_type := by decide
  no_ground := by decide
  down_matched := fun k => rfl
  top_matched := by
    rintro (_ | _ | k)
    · rfl
    · rfl
    · rfl
  length_le := by decide

/-- What is read for a bookcase goes to the first that is there. -/
theorem loadTileItem_bookcase {fuel : Nat} (hfuel : 2 ≤ fuel) {id : UInt16}
    (hid : CreateItem server.items id = some id) (bookcase : Item HouseAttributes)
    (hbookcase : bookcase.id = 300) (others : List (Item HouseAttributes)) (rest : List UInt8) :
    ∃ attrs first, loadTileItem (houseAttributes server) fuel
        ⟨(holding 300 [id]).save (houseAttributes server) ++ rest⟩ ⟨bookcase :: others, 2⟩ =
      some (true, ⟨⟨300, attrs, .cons id first .nil bookcase.itemlist⟩ :: others, 2⟩, ⟨rest⟩) := by
  have hsavable : (holding 300 [id]).Savable (houseAttributes server) := by
    refine savable_holding (by decide) (.inr (by decide)) ?_ (by simp)
    have hid : CreateItem types id = some id := hid
    simpa using hid
  obtain ⟨id', attrs, itemlist⟩ := bookcase
  obtain rfl : id' = 300 := hbookcase
  have htile : (⟨⟨300, attrs, itemlist⟩ :: others, 2⟩ : Tile HouseAttributes).items =
    [] ++ ⟨300, attrs, itemlist⟩ :: others := rfl
  have hload := loadTileItem_found hsavable hfuel rfl htile (fun _ h => absurd h List.not_mem_nil)
    (.inl rfl) (fun h => absurd h Bool.true_eq_false.mp) rest
  exact ⟨_, _, hload⟩

theorem reload_twoBookcases :
    ∃ attrs contents, contents.length = 2 ∧
      reload (houseAttributes server) ⟨1000, 1000, 7⟩
          (saveTile (houseAttributes server) ⟨1000, 1000, 7⟩ twoBookcases.now)
          twoBookcases.fresh =
        some (⟨[⟨300, attrs, contents⟩, holding 300 []], 2⟩, ⟨[]⟩) := by
  obtain ⟨fuel, hfuel, hreload⟩ := reload_eq (houseAttributes server) twoBookcases
    ⟨1000, 1000, 7⟩ (List.cons_ne_nil _ _)
  have hfuel : 2 ≤ fuel := by
    have hlength : (bytesOf (houseAttributes server)
      (twoBookcases.down ++ twoBookcases.top)).length = 22 := rfl
    omega
  have hrelic : CreateItem server.items 200 = some 200 := by decide
  have hcoin : CreateItem server.items 100 = some 100 := by decide
  obtain ⟨attrs, relic, hsecond⟩ := loadTileItem_bookcase hfuel hrelic (holding 300 []) rfl
    [holding 300 []] ((holding 300 [100]).save (houseAttributes server) ++ [])
  obtain ⟨attrs', coin, hfirst⟩ := loadTileItem_bookcase hfuel hcoin
    ⟨300, attrs, .cons 200 relic .nil .nil⟩ rfl [holding 300 []] []
  refine ⟨attrs', .cons 100 coin .nil (.cons 200 relic .nil .nil), rfl, hreload.trans ?_⟩
  change loadItems (houseAttributes server) fuel 2
    ⟨(holding 300 [200]).save (houseAttributes server) ++
      ((holding 300 [100]).save (houseAttributes server) ++ [])⟩
    ⟨holding 300 [] :: [holding 300 []], 2⟩ = _
  rw [loadItems, hsecond]
  dsimp only
  rw [loadItems]
  have hempty : (holding 300 []).itemlist = .nil := rfl
  rw [hempty, hfirst]
  rfl

/-- A coin on a relic is lost with it where there are no relics any more. Of two bookcases the
first gets what was in both. -/
theorem house_tile_not_restored :
    reload (houseAttributes laterServer) ⟨1000, 1000, 7⟩
        (saveTile (houseAttributes server) ⟨1000, 1000, 7⟩ [holding 100 [], holding 200 []])
        ⟨[], 0⟩ = some (⟨[], 0⟩, ⟨[0, 0]⟩) ∧
    ¬ RoundTrip (houseAttributes server) (houseAttributes server) twoBookcases
        ⟨1000, 1000, 7⟩ := by
  refine ⟨rfl, fun h => ?_⟩
  obtain ⟨attrs, contents, hlength, hreload⟩ := reload_twoBookcases
  have htile := Option.some.inj (hreload.symm.trans h)
  have hitems := congrArg (fun r : Tile HouseAttributes × PropStream =>
    r.1.items.head?.map fun item => item.itemlist.length) htile
  have hone : (twoBookcases.restored (houseAttributes server)).items.head?.map
      (fun item => item.itemlist.length) = some 1 := rfl
  have hlength' : contents.length = 1 := Option.some.inj (hitems.trans hone)
  omega

end Bruxo.MapSerialize
