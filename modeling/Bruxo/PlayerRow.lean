import Bruxo.Lib.Decimal
import Bruxo.Lib.Entries
import Bruxo.Position

/-!
# The row of a player

`IOLoginData::savePlayer` and `IOLoginData::loadPlayer` (`iologindata.cpp`): the columns of
`players`, and the tables of storages, outfits and mounts. Every value passes through decimal text;
`DBResult::getNumber` (`database.h`) reads it back as a type of some width, and takes zero for text
that is no number of the type.

Loading checks what it reads against tables of the server, so that some states do not come back
(`round_trips_iff`). `randomizemount` is read as a type of characters: the text `0` is read as the
code of its digit, which is not zero.

The conditions, the items, the guild and the spells of the player are not in this module, nor the
percentages to the next level, which are computed from the rest.
-/

namespace Bruxo.PlayerRow

open Decimal

/-! ## Columns -/

inductive Skill where
  | fist | club | sword | axe | distance | shield | fishing
  deriving DecidableEq, Repr

inductive Column where
  | level | group_id | vocation | health | healthmax | experience
  | lookbody | lookfeet | lookhead | looklegs | looktype | lookaddons
  | currentmount | randomizemount | maglevel | mana | manamax | manaspent | soul | town_id
  | posx | posy | posz | cap | sex | lastlogin | lastip | skulltime | skull
  | lastlogout | balance | stamina | skill (s : Skill) | skillTries (s : Skill)
  | direction | blessings | save
  deriving DecidableEq, Repr

/-- A row of `players`; `none` is `NULL`. -/
abbrev Row := Column → Option Text

def toUInt8 (text : Text) : Option UInt8 := (readChar text).map UInt8.ofNat
def toUInt16 (text : Text) : Option UInt16 := (readUnsigned 16 text).map UInt16.ofNat
def toUInt32 (text : Text) : Option UInt32 := (readUnsigned 32 text).map UInt32.ofNat
def toUInt64 (text : Text) : Option UInt64 := (readUnsigned 64 text).map UInt64.ofNat
def toInt32 (text : Text) : Option Int32 := (readSigned 32 text).map Int32.ofInt
def toInt64 (text : Text) : Option Int64 := (readSigned 64 text).map Int64.ofInt

/-- `DBResult::getNumber`, with `boost::lexical_cast` for the type. -/
def getNumber {α : Type} [OfNat α 0] (lexical_cast : Text → Option α) (field : Option Text) : α :=
  (field.bind lexical_cast).getD 0

theorem getNumber_uint16 (n : UInt16) : getNumber toUInt16 (some (ofNat n.toNat)) = n := by
  rw [getNumber, Option.bind_some, toUInt16, readUnsigned_ofNat n.toNat_lt]
  exact UInt16.ofNat_toNat

theorem getNumber_uint32 (n : UInt32) : getNumber toUInt32 (some (ofNat n.toNat)) = n := by
  rw [getNumber, Option.bind_some, toUInt32, readUnsigned_ofNat n.toNat_lt]
  exact UInt32.ofNat_toNat

theorem getNumber_uint64 (n : UInt64) : getNumber toUInt64 (some (ofNat n.toNat)) = n := by
  rw [getNumber, Option.bind_some, toUInt64, readUnsigned_ofNat n.toNat_lt]
  exact UInt64.ofNat_toNat

theorem getNumber_int32 (i : Int32) : getNumber toInt32 (some (ofInt i.toInt)) = i := by
  rw [getNumber, Option.bind_some, toInt32, readSigned_ofInt i.le_toInt i.toInt_lt]
  exact Int32.ofInt_toInt i

theorem getNumber_int64 (i : Int64) : getNumber toInt64 (some (ofInt i.toInt)) = i := by
  rw [getNumber, Option.bind_some, toInt64, readSigned_ofInt i.le_toInt i.toInt_lt]
  exact Int64.ofInt_toInt i

/-- A byte that is written as a number and read as a wider one. -/
theorem getNumber_byte (n : UInt8) : (getNumber toUInt16 (some (ofNat n.toNat))).toUInt8 = n := by
  have hwide := getNumber_uint16 n.toUInt16
  rw [UInt8.toNat_toUInt16] at hwide
  rw [hwide]
  exact UInt8.toUInt8_toUInt16 n

/-- The code of a digit is never zero. -/
theorem getNumber_flag (b : Bool) :
    decide ((getNumber toUInt8 (some (ofNat b.toNat)) : UInt8) ≠ 0) = true := by
  cases b with
  | false => rfl
  | true => rfl

/-! ## The server and the player -/

structure Group where
  id : UInt16
  access : Bool
  alwaysPremium : Bool

/-- What the next level costs is computed with powers of floating-point factors; the magic level
zero, which an overflow of the level after the last one is, costs nothing. -/
structure Vocation where
  id : UInt16
  manaCost : UInt32 → UInt64
  skillCost : Skill → UInt16 → UInt64

def Vocation.getReqMana (vocation : Vocation) (magLevel : UInt32) : UInt64 :=
  if magLevel = 0 then 0 else vocation.manaCost magLevel

def Vocation.getReqSkillTries (vocation : Vocation) (skill : Skill) (level : UInt16) : UInt64 :=
  vocation.skillCost skill level

structure Town where
  id : UInt32
  templePosition : Position

structure Mount where
  id : UInt16
  premium : Bool

/-- What `loadPlayer` finds on the server. -/
structure Server where
  getGroup : UInt16 → Option Group
  getVocation : UInt16 → Option Vocation
  getTown : UInt32 → Option Town
  getMountByID : UInt16 → Option Mount
  getMountByID_id : ∀ id mount, getMountByID id = some mount → mount.id = id
  pvpEnforced : Bool
  freePremium : Bool
  /-- The column `premium_ends_at` of the account. -/
  premiumEndsAt : Int64
  time : Int64

structure SkillLevel where
  level : UInt16
  tries : UInt64
  deriving DecidableEq, Repr

structure Outfit where
  lookType : UInt16
  lookHead : UInt8
  lookBody : UInt8
  lookLegs : UInt8
  lookFeet : UInt8
  lookAddons : UInt8
  deriving DecidableEq, Repr

/-- What the row is to keep of a player. -/
structure Character where
  group : Group
  bankBalance : UInt64
  sex : UInt8
  level : UInt32
  experience : UInt64
  soul : UInt8
  blessings : BitVec 6
  vocation : Vocation
  mana : UInt32
  manaMax : UInt32
  magLevel : UInt32
  manaSpent : UInt64
  health : Int32
  healthMax : Int32
  defaultOutfit : Outfit
  currentMount : UInt16
  direction : UInt8
  randomizeMount : Bool
  town : Town
  staminaMinutes : UInt16
  skills : Skill → SkillLevel
  storageMap : Finmap fun _ : UInt32 => Int64
  outfits : Finmap fun _ : UInt16 => UInt8
  mounts : Finset UInt16

inductive Skull where
  | none | yellow | green | white | red | black
  deriving DecidableEq, Repr

/-- The rest of a player: the capacity is written in whole units, the ticks of a skull as the time
of their end, and the position and the times only as far as the branches of the two functions
say. -/
structure Player extends Character where
  capacity : UInt32
  skull : Skull
  skullTicks : Int64
  loginPosition : Position
  lastLoginSaved : Int64
  lastLogout : Int64
  lastIP : UInt32
  varMaxHitPoints : Int32

/-- A player whose group, vocation and town are those of the server. -/
structure Server.Player (server : Server) extends PlayerRow.Player where
  group_known : server.getGroup group.id = some group
  vocation_known : server.getVocation vocation.id = some vocation
  town_known : server.getTown town.id = some town

/-! ## Saving -/

/-- `Player::getMaxHealth`. -/
def Player.getMaxHealth (player : Player) : Int32 :=
  max 1 (player.healthMax + player.varMaxHitPoints)

/-- `Creature::changeHealth`. -/
def Player.changeHealth (player : Player) (healthChange : Int32) : Player :=
  { player with
    health :=
      if 0 < healthChange then
        player.health + min healthChange (player.getMaxHealth - player.health)
      else max 0 (player.health + healthChange) }

/-- What `savePlayer` does first to the player itself. -/
def Player.revived (player : Player) : Player :=
  if player.health ≤ 0 then player.changeHealth 1 else player

def Skull.saved : Skull → Nat
  | red => 4
  | black => 5
  | _ => 0

/-- The tables of a player: its row, and the rows of the other tables in any order. -/
structure Tables where
  players : Row
  storage : List (Text × Text)
  outfits : List (Text × Text)
  mounts : List Text

/-- The columns that the `UPDATE` writes. -/
def Player.columns (server : Server) (player : Player) : Column → Option Text
  | .level => ofNat player.level.toNat
  | .group_id => ofNat player.group.id.toNat
  | .vocation => ofNat player.vocation.id.toNat
  | .health => ofInt player.health.toInt
  | .healthmax => ofInt player.healthMax.toInt
  | .experience => ofNat player.experience.toNat
  | .lookbody => ofNat player.defaultOutfit.lookBody.toNat
  | .lookfeet => ofNat player.defaultOutfit.lookFeet.toNat
  | .lookhead => ofNat player.defaultOutfit.lookHead.toNat
  | .looklegs => ofNat player.defaultOutfit.lookLegs.toNat
  | .looktype => ofNat player.defaultOutfit.lookType.toNat
  | .lookaddons => ofNat player.defaultOutfit.lookAddons.toNat
  | .currentmount => ofNat player.currentMount.toNat
  | .randomizemount => ofNat player.randomizeMount.toNat
  | .maglevel => ofNat player.magLevel.toNat
  | .mana => ofNat player.mana.toNat
  | .manamax => ofNat player.manaMax.toNat
  | .manaspent => ofNat player.manaSpent.toNat
  | .soul => ofNat player.soul.toNat
  | .town_id => ofNat player.town.id.toNat
  | .posx => ofNat player.loginPosition.x.toNat
  | .posy => ofNat player.loginPosition.y.toNat
  | .posz => ofNat player.loginPosition.z.toNat
  | .cap => ofNat (player.capacity / 100).toNat
  | .sex => ofNat player.sex.toNat
  | .lastlogin => if player.lastLoginSaved ≠ 0 then ofInt player.lastLoginSaved.toInt else none
  | .lastip => if player.lastIP ≠ 0 then ofNat player.lastIP.toNat else none
  | .skulltime =>
      if server.pvpEnforced then none
      else if 0 < player.skullTicks then ofInt (server.time + player.skullTicks).toInt
      else ofInt 0
  | .skull => if server.pvpEnforced then none else ofNat player.skull.saved
  | .lastlogout => ofInt player.lastLogout.toInt
  | .balance => ofNat player.bankBalance.toNat
  | .stamina => ofNat player.staminaMinutes.toNat
  | .skill s => ofNat (player.skills s).level.toNat
  | .skillTries s => ofNat (player.skills s).tries.toNat
  | .direction => ofNat player.direction.toNat
  | .blessings => ofNat player.blessings.toNat
  | .save => none

def storageRow (entry : Σ _ : UInt32, Int64) : Text × Text :=
  (ofNat entry.1.toNat, ofInt entry.2.toInt)

def outfitRow (entry : Σ _ : UInt16, UInt8) : Text × Text :=
  (ofNat entry.1.toNat, ofNat entry.2.toNat)

def mountRow (mount : UInt16) : Text := ofNat mount.toNat

/-- The tables after `savePlayer`, all of whose queries succeed; the rows of a table come in any
order. Of a player whose column `save` is zero only the last login is written. -/
def Player.Saved (server : Server) (player : Player) (before after : Tables) : Prop :=
  if (getNumber toUInt16 (before.players .save) : UInt16) = 0 then
    after = { before with
      players := fun column =>
        match column with
        | .lastlogin => ofInt player.lastLoginSaved.toInt
        | .lastip => ofNat player.lastIP.toNat
        | column => before.players column }
  else
    (after.players = fun column =>
      (player.revived.columns server column).or (before.players column)) ∧
    (after.storage : Multiset (Text × Text)) = player.storageMap.entries.map storageRow ∧
    (after.outfits : Multiset (Text × Text)) = player.outfits.entries.map outfitRow ∧
    (after.mounts : Multiset Text) = player.mounts.val.map mountRow

/-! ## Loading -/

/-- `Player::getExpForLevel`. -/
def getExpForLevel (lv : UInt64) : UInt64 :=
  (((lv - 6) * lv + 17) * lv - 12) / 6 * 100

/-- `Player::isPremium`. -/
def isPremium (server : Server) (group : Group) : Bool :=
  server.freePremium || group.alwaysPremium || server.time < server.premiumEndsAt

/-- `Player::setStorageValue` with a value. -/
def setStorageValue (storageMap : Finmap fun _ : UInt32 => Int64) (key : UInt32) (value : Int64) :
    Finmap fun _ : UInt32 => Int64 :=
  storageMap.insert key value

/-- `Player::addOutfit`. -/
def addOutfit (outfits : Finmap fun _ : UInt16 => UInt8) (lookType : UInt16) (addons : UInt8) :
    Finmap fun _ : UInt16 => UInt8 :=
  match outfits.lookup lookType with
  | some addon => outfits.insert lookType (addon ||| addons)
  | none => outfits.insert lookType addons

/-- `Player::hasMount`. -/
def hasMount (server : Server) (group : Group) (mounts : Finset UInt16) (mount : Mount) : Bool :=
  group.access || (!(mount.premium && !isPremium server group) && decide (mount.id ∈ mounts))

/-- `Player::tameMount`. -/
def tameMount (server : Server) (group : Group) (mounts : Finset UInt16) (mountId : UInt16) :
    Finset UInt16 :=
  match server.getMountByID mountId with
  | none => mounts
  | some mount => if hasMount server group mounts mount then mounts else insert mountId mounts

def readStorageRow (row : Text × Text) : Σ _ : UInt32, Int64 :=
  ⟨getNumber toUInt32 (some row.1), getNumber toInt64 (some row.2)⟩

def loadStorage (rows : List (Text × Text)) : Finmap fun _ : UInt32 => Int64 :=
  rows.foldl (fun storageMap row =>
    setStorageValue storageMap (readStorageRow row).1 (readStorageRow row).2) ∅

def readOutfitRow (row : Text × Text) : Σ _ : UInt16, UInt8 :=
  ⟨getNumber toUInt16 (some row.1), (getNumber toUInt16 (some row.2) : UInt16).toUInt8⟩

def loadOutfits (rows : List (Text × Text)) : Finmap fun _ : UInt16 => UInt8 :=
  rows.foldl (fun outfits row => addOutfit outfits (readOutfitRow row).1 (readOutfitRow row).2) ∅

def loadMounts (server : Server) (group : Group) (rows : List Text) : Finset UInt16 :=
  rows.foldl (fun mounts row => tameMount server group mounts (getNumber toUInt16 (some row))) ∅

/-- The experience of a level: one that is not between the level and the next is dropped. -/
def checkedExperience (level : UInt32) (experience : UInt64) : UInt64 :=
  let currExpCount := getExpForLevel level.toUInt64
  let nextExpCount := getExpForLevel (level + 1).toUInt64
  if experience < currExpCount ∨ nextExpCount < experience then currExpCount else experience

/-- What was spent or tried for the next level, dropped where it is more than the level costs. -/
def checkedProgress (cost progress : UInt64) : UInt64 := if cost < progress then 0 else progress

def loadSkill (vocation : Vocation) (row : Row) (s : Skill) : SkillLevel :=
  let skillLevel : UInt16 := getNumber toUInt16 (row (.skill s))
  { level := skillLevel
    tries := checkedProgress (vocation.getReqSkillTries s (skillLevel + 1))
      (getNumber toUInt64 (row (.skillTries s))) }

/-- The skull and its ticks, which are rounded up. -/
def loadSkull (server : Server) (row : Row) : Skull × Int64 :=
  let skullSeconds : Int64 := getNumber toInt64 (row .skulltime) - server.time
  if server.pvpEnforced = false ∧ 0 < skullSeconds then
    let skull : UInt16 := getNumber toUInt16 (row .skull)
    (if skull = 4 then .red else if skull = 5 then .black else .none, skullSeconds + 2)
  else (.none, 0)

/-- A player who left at no position logs in at the temple. -/
def loadPosition (row : Row) (town : Town) : Position :=
  let position : Position :=
    { x := getNumber toUInt16 (row .posx)
      y := getNumber toUInt16 (row .posy)
      z := (getNumber toUInt16 (row .posz) : UInt16).toUInt8 }
  if position.x = 0 ∧ position.y = 0 ∧ position.z = 0 then town.templePosition else position

def getByte (row : Row) (column : Column) : UInt8 :=
  (getNumber toUInt16 (row column) : UInt16).toUInt8

/-- `IOLoginData::loadPlayer`. -/
def loadPlayer (server : Server) (tables : Tables) : Option Player :=
  let row := tables.players
  match server.getGroup (getNumber toUInt16 (row .group_id)) with
  | none => none
  | some group =>
  match server.getVocation (getNumber toUInt16 (row .vocation)) with
  | none => none
  | some vocation =>
  match server.getTown (getNumber toUInt32 (row .town_id)) with
  | none => none
  | some town =>
  let level : UInt32 := max 1 (getNumber toUInt32 (row .level))
  let magLevel : UInt32 := getNumber toUInt32 (row .maglevel)
  some {
    group := group
    bankBalance := getNumber toUInt64 (row .balance)
    sex := getByte row .sex
    level := level
    experience := checkedExperience level (getNumber toUInt64 (row .experience))
    soul := getByte row .soul
    capacity := getNumber toUInt32 (row .cap) * 100
    blessings := BitVec.ofNat 6 (getNumber toUInt16 (row .blessings) : UInt16).toNat
    vocation := vocation
    mana := getNumber toUInt32 (row .mana)
    manaMax := getNumber toUInt32 (row .manamax)
    magLevel := magLevel
    manaSpent := checkedProgress (vocation.getReqMana (magLevel + 1))
      (getNumber toUInt64 (row .manaspent))
    health := getNumber toInt32 (row .health)
    healthMax := getNumber toInt32 (row .healthmax)
    defaultOutfit :=
      { lookType := getNumber toUInt16 (row .looktype)
        lookHead := getByte row .lookhead
        lookBody := getByte row .lookbody
        lookLegs := getByte row .looklegs
        lookFeet := getByte row .lookfeet
        lookAddons := getByte row .lookaddons }
    currentMount := getNumber toUInt16 (row .currentmount)
    direction := getByte row .direction
    randomizeMount := decide ((getNumber toUInt8 (row .randomizemount) : UInt8) ≠ 0)
    skull := (loadSkull server row).1
    skullTicks := (loadSkull server row).2
    loginPosition := loadPosition row town
    lastLoginSaved := getNumber toInt64 (row .lastlogin)
    lastLogout := getNumber toInt64 (row .lastlogout)
    town := town
    staminaMinutes := getNumber toUInt16 (row .stamina)
    skills := loadSkill vocation row
    storageMap := loadStorage tables.storage
    outfits := loadOutfits tables.outfits
    mounts := loadMounts server group tables.mounts
    lastIP := 0
    varMaxHitPoints := 0 }

/-! ## The other tables -/

theorem addOutfit_fresh {outfits : Finmap fun _ : UInt16 => UInt8} {lookType : UInt16}
    (h : lookType ∉ outfits) (addons : UInt8) :
    addOutfit outfits lookType addons = outfits.insert lookType addons := by
  rw [addOutfit, Finmap.lookup_eq_none.mpr h]

theorem readStorageRow_row (entry : Σ _ : UInt32, Int64) :
    readStorageRow (storageRow entry) = entry :=
  congrArg₂ Sigma.mk (getNumber_uint32 entry.1) (getNumber_int64 entry.2)

theorem readOutfitRow_row (entry : Σ _ : UInt16, UInt8) :
    readOutfitRow (outfitRow entry) = entry :=
  congrArg₂ Sigma.mk (getNumber_uint16 entry.1) (getNumber_byte entry.2)

theorem loadStorage_saved {rows : List (Text × Text)} {storageMap : Finmap fun _ : UInt32 => Int64}
    (h : (rows : Multiset _) = storageMap.entries.map storageRow) :
    loadStorage rows = storageMap :=
  Entries.foldl_rows readStorageRow storageRow
    (fun storageMap entry => setStorageValue storageMap entry.1 entry.2) readStorageRow_row
    (fun _ _ _ => rfl) h

theorem loadOutfits_saved {rows : List (Text × Text)} {outfits : Finmap fun _ : UInt16 => UInt8}
    (h : (rows : Multiset _) = outfits.entries.map outfitRow) : loadOutfits rows = outfits :=
  Entries.foldl_rows readOutfitRow outfitRow
    (fun outfits entry => addOutfit outfits entry.1 entry.2) readOutfitRow_row
    (fun _ entry hfresh => addOutfit_fresh hfresh entry.2) h

theorem tameMount_access {server : Server} {group : Group} (haccess : group.access = true)
    (mounts : Finset UInt16) (mountId : UInt16) :
    tameMount server group mounts mountId = mounts := by
  rw [tameMount]
  split
  · rfl
  · rw [if_pos]
    rw [hasMount, haccess, Bool.true_or]

theorem tameMount_eq {server : Server} {group : Group} (haccess : group.access = false)
    (mounts : Finset UInt16) (mountId : UInt16) :
    tameMount server group mounts mountId
      = if (server.getMountByID mountId).isSome then insert mountId mounts else mounts := by
  rw [tameMount]
  split
  · next hnone =>
      rw [hnone]
      exact (if_neg Bool.false_ne_true).symm
  · next mount hmount =>
      rw [hmount, if_pos Option.isSome_some]
      split
      · next hhas =>
          rw [hasMount, haccess, Bool.false_or, Bool.and_eq_true] at hhas
          have hmem := of_decide_eq_true hhas.2
          rw [server.getMountByID_id mountId mount hmount] at hmem
          exact (Finset.insert_eq_self.mpr hmem).symm
      · rfl

/-- A player of a group with access is taken to have every mount, and none is put into the set. -/
theorem loadMounts_access {server : Server} {group : Group} (haccess : group.access = true)
    (rows : List Text) : loadMounts server group rows = ∅ := by
  have hfix : ∀ mounts : Finset UInt16, rows.foldl (fun mounts row =>
      tameMount server group mounts (getNumber toUInt16 (some row))) mounts = mounts := by
    induction rows with
    | nil => exact fun _ => rfl
    | cons row rows ih =>
        intro mounts
        rw [List.foldl_cons, tameMount_access haccess]
        exact ih mounts
  exact hfix ∅

theorem mem_loadMounts_saved (server : Server) {group : Group} (haccess : group.access = false)
    {rows : List Text} {mounts : Finset UInt16} (h : (rows : Multiset _) = mounts.val.map mountRow)
    (mountId : UInt16) :
    mountId ∈ loadMounts server group rows
      ↔ mountId ∈ mounts ∧ (server.getMountByID mountId).isSome := by
  let read (row : Text) : UInt16 := getNumber toUInt16 (some row)
  have hmembers : ((rows.map read : List _) : Multiset _) = mounts.val := by
    rw [← Multiset.map_coe, h, Multiset.map_map]
    exact (Multiset.map_congr rfl fun m _ => getNumber_uint16 m).trans (Multiset.map_id' _)
  have hmem : mountId ∈ rows.map read ↔ mountId ∈ mounts := by
    rw [← Multiset.mem_coe, hmembers]
    rfl
  have hload : loadMounts server group rows = (rows.map read).foldl (tameMount server group) ∅ :=
    List.foldl_map.symm
  rw [hload, Entries.mem_foldl_insert (tameMount_eq haccess), hmem]
  simp only [Finset.notMem_empty, false_or]

/-- The mounts come back if there are none, or if the group has no access and the server knows
every mount. -/
theorem loadMounts_eq_iff {server : Server} {group : Group} {rows : List Text}
    {mounts : Finset UInt16} (h : (rows : Multiset _) = mounts.val.map mountRow) :
    loadMounts server group rows = mounts ↔
      mounts = ∅ ∨ group.access = false ∧ ∀ m ∈ mounts, (server.getMountByID m).isSome := by
  cases haccess : group.access with
  | true =>
      rw [loadMounts_access haccess]
      constructor
      · intro hempty
        exact .inl hempty.symm
      · rintro (hempty | ⟨hfalse, -⟩)
        · exact hempty.symm
        · cases hfalse
  | false =>
      have hmem := mem_loadMounts_saved server haccess h
      constructor
      · intro heq
        rw [heq] at hmem
        exact .inr ⟨rfl, fun m hm => ((hmem m).mp hm).2⟩
      · rintro (rfl | ⟨-, hknown⟩)
        · exact Finset.eq_empty_of_forall_notMem fun m hm =>
            Finset.notMem_empty m ((hmem m).mp hm).1
        · exact Finset.ext fun m => (hmem m).trans ⟨fun hm => hm.1, fun hm => ⟨hm, hknown m hm⟩⟩

/-! ## What comes back -/

theorem blessings_saved (blessings : BitVec 6) :
    BitVec.ofNat 6 (getNumber toUInt16 (some (ofNat blessings.toNat)) : UInt16).toNat
      = blessings := by
  have hlt : blessings.toNat < 2 ^ 16 := lt_trans blessings.isLt (by decide)
  rw [getNumber, Option.bind_some, toUInt16, readUnsigned_ofNat hlt, Option.map_some,
    Option.getD_some, UInt16.toNat_ofNat_of_lt' hlt, BitVec.ofNat_toNat, BitVec.setWidth_eq]

/-- The state that `loadPlayer` makes of what was saved. -/
def Character.reloaded (character : Character) (mounts : Finset UInt16) : Character :=
  let level := max 1 character.level
  { character with
    level := level
    experience := checkedExperience level character.experience
    manaSpent := checkedProgress (character.vocation.getReqMana (character.magLevel + 1))
      character.manaSpent
    randomizeMount := true
    skills := fun s =>
      { level := (character.skills s).level
        tries := checkedProgress
          (character.vocation.getReqSkillTries s ((character.skills s).level + 1))
          (character.skills s).tries }
    mounts := mounts }

theorem loadPlayer_saved {server : Server} (player : Player)
    (hgroup : server.getGroup player.group.id = some player.group)
    (hvocation : server.getVocation player.vocation.id = some player.vocation)
    (htown : server.getTown player.town.id = some player.town) {row : Row} {tables : Tables}
    (hplayers : tables.players = fun column => (player.columns server column).or (row column))
    (hstorage : (tables.storage : Multiset _) = player.storageMap.entries.map storageRow)
    (houtfits : (tables.outfits : Multiset _) = player.outfits.entries.map outfitRow) :
    (loadPlayer server tables).map Player.toCharacter
      = some (player.toCharacter.reloaded (loadMounts server player.group tables.mounts)) := by
  have hskills : loadSkill player.vocation tables.players = fun s =>
      { level := (player.skills s).level
        tries := checkedProgress
          (player.vocation.getReqSkillTries s ((player.skills s).level + 1))
          (player.skills s).tries } := by
    funext s
    simp only [loadSkill, hplayers, Player.columns, Option.some_or, getNumber_uint16,
      getNumber_uint64]
  rw [loadPlayer]
  simp only [hplayers, Player.columns, Option.some_or, getNumber_uint16, getNumber_uint32,
    getNumber_uint64, getNumber_int32, getNumber_byte, getByte, blessings_saved, hgroup, hvocation,
    htown, getNumber_flag, loadStorage_saved hstorage, loadOutfits_saved houtfits, Option.map_some]
  rw [hplayers] at hskills
  simp only [Player.columns] at hskills
  rw [hskills]
  rfl

theorem checkedProgress_eq_iff (cost progress : UInt64) :
    checkedProgress cost progress = progress ↔ progress ≤ cost := by
  rw [checkedProgress]
  split
  · next hlt =>
      constructor
      · intro hzero
        rw [← hzero] at hlt
        exact absurd hlt (UInt64.not_lt_zero)
      · intro hle
        exact absurd hlt (UInt64.not_lt.mpr hle)
  · next hlt => exact ⟨fun _ => UInt64.not_lt.mp hlt, fun _ => rfl⟩

/-- The experience of a level that is kept: from the level's own to the next level's. -/
def ExperienceOf (level : UInt32) (experience : UInt64) : Prop :=
  experience = getExpForLevel level.toUInt64 ∨
    getExpForLevel level.toUInt64 ≤ experience ∧ experience ≤ getExpForLevel (level + 1).toUInt64

theorem checkedExperience_eq_iff (level : UInt32) (experience : UInt64) :
    checkedExperience level experience = experience ↔ ExperienceOf level experience := by
  simp only [checkedExperience, ExperienceOf]
  split
  · next hout =>
      constructor
      · intro heq
        exact .inl heq.symm
      · rintro (heq | ⟨hlow, hhigh⟩)
        · exact heq.symm
        · rcases hout with hlt | hlt
          · exact absurd hlt (UInt64.not_lt.mpr hlow)
          · exact absurd hlt (UInt64.not_lt.mpr hhigh)
  · next hout =>
      obtain ⟨hlow, hhigh⟩ := not_or.mp hout
      exact ⟨fun _ => .inr ⟨UInt64.not_lt.mp hlow, UInt64.not_lt.mp hhigh⟩, fun _ => rfl⟩

theorem max_one_eq_iff (level : UInt32) : max 1 level = level ↔ 1 ≤ level := by
  change (if 1 ≤ level then level else 1) = level ↔ 1 ≤ level
  split
  · next hle => exact ⟨fun _ => hle, fun _ => rfl⟩
  · next hle => exact ⟨fun heq => absurd (UInt32.le_of_eq heq) hle, fun h => absurd h hle⟩

/-- The states that come back. -/
structure Kept (server : Server) (character : Character) : Prop where
  level : 1 ≤ character.level
  experience : ExperienceOf character.level character.experience
  manaSpent : character.manaSpent ≤ character.vocation.getReqMana (character.magLevel + 1)
  tries : ∀ s, (character.skills s).tries
    ≤ character.vocation.getReqSkillTries s ((character.skills s).level + 1)
  mounts : character.mounts = ∅ ∨
    character.group.access = false ∧ ∀ m ∈ character.mounts, (server.getMountByID m).isSome
  randomizeMount : character.randomizeMount = true

theorem reloaded_eq_iff (character : Character) (mounts : Finset UInt16) :
    character.reloaded mounts = character ↔
      1 ≤ character.level ∧ ExperienceOf character.level character.experience ∧
      character.manaSpent ≤ character.vocation.getReqMana (character.magLevel + 1) ∧
      (∀ s, (character.skills s).tries
        ≤ character.vocation.getReqSkillTries s ((character.skills s).level + 1)) ∧
      mounts = character.mounts ∧ character.randomizeMount = true := by
  constructor
  · intro h
    have hlevel : max 1 character.level = character.level := congrArg Character.level h
    have hexperience := congrArg Character.experience h
    have hmana := congrArg Character.manaSpent h
    have hskills := congrArg Character.skills h
    simp only [Character.reloaded, hlevel] at hexperience hmana hskills
    refine ⟨(max_one_eq_iff _).mp hlevel, (checkedExperience_eq_iff _ _).mp hexperience,
      (checkedProgress_eq_iff _ _).mp hmana, fun s => ?_, congrArg Character.mounts h,
      (congrArg Character.randomizeMount h).symm⟩
    exact (checkedProgress_eq_iff _ _).mp (congrArg SkillLevel.tries (congrFun hskills s))
  · rintro ⟨hlevel, hexperience, hmana, htries, rfl, hrandomize⟩
    have hskills : (character.reloaded character.mounts).skills = character.skills := by
      funext s
      exact congrArg (SkillLevel.mk _) ((checkedProgress_eq_iff _ _).mpr (htries s))
    have hmax := (max_one_eq_iff _).mpr hlevel
    simp only [Character.reloaded] at hskills ⊢
    rw [hmax, (checkedExperience_eq_iff _ _).mpr hexperience,
      (checkedProgress_eq_iff _ _).mpr hmana, hskills, ← hrandomize]

theorem revived_eq (player : Player) :
    player.revived = { player with health := player.revived.health } := by
  rw [Player.revived]
  split <;> rfl

/-- `loadPlayer` gives back the state of which `savePlayer` was called, a dead player's health
being raised first. -/
def RoundTrips (server : Server) (player : Player) (before : Tables) : Prop :=
  ∀ after, player.Saved server before after →
    (loadPlayer server after).map Player.toCharacter = some player.revived.toCharacter

theorem exists_saved (server : Server) (player : Player) {before : Tables}
    (hsave : (getNumber toUInt16 (before.players .save) : UInt16) ≠ 0) :
    ∃ after, player.Saved server before after := by
  obtain ⟨storage, hstorage⟩ := Quot.exists_rep (player.storageMap.entries.map storageRow)
  obtain ⟨outfits, houtfits⟩ := Quot.exists_rep (player.outfits.entries.map outfitRow)
  obtain ⟨mounts, hmounts⟩ := Quot.exists_rep (player.mounts.val.map mountRow)
  let row : Row := fun column =>
    (player.revived.columns server column).or (before.players column)
  refine ⟨⟨row, storage, outfits, mounts⟩, ?_⟩
  rw [Player.Saved, if_neg hsave]
  exact ⟨rfl, hstorage, houtfits, hmounts⟩

/-- What is loaded after a save. -/
theorem loaded_eq {server : Server} (player : server.Player) {before after : Tables}
    (hsave : (getNumber toUInt16 (before.players .save) : UInt16) ≠ 0)
    (h : player.Saved server before after) :
    (loadPlayer server after).map Player.toCharacter
      = some (player.revived.toCharacter.reloaded
          (loadMounts server player.group after.mounts)) ∧
    (after.mounts : Multiset Text) = player.mounts.val.map mountRow := by
  rw [Player.Saved, if_neg hsave] at h
  obtain ⟨hplayers, hstorage, houtfits, hmounts⟩ := h
  refine ⟨?_, hmounts⟩
  rw [revived_eq] at hplayers ⊢
  exact loadPlayer_saved { player.toPlayer with health := player.revived.health }
    player.group_known player.vocation_known player.town_known hplayers hstorage houtfits

theorem player_row_iff (server : Server) (player : server.Player) (before : Tables)
    (hsave : (getNumber toUInt16 (before.players .save) : UInt16) ≠ 0) :
    RoundTrips server player.toPlayer before ↔ Kept server player.toCharacter := by
  have hstate : ∀ {after : Tables}, (after.mounts : Multiset Text) = player.mounts.val.map mountRow →
      (player.revived.toCharacter.reloaded (loadMounts server player.group after.mounts)
        = player.revived.toCharacter ↔ Kept server player.toCharacter) := by
    intro after hmounts
    rw [reloaded_eq_iff, revived_eq]
    constructor
    · rintro ⟨hlevel, hexperience, hmana, htries, hloaded, hrandomize⟩
      exact ⟨hlevel, hexperience, hmana, htries, (loadMounts_eq_iff hmounts).mp hloaded, hrandomize⟩
    · intro h
      exact ⟨h.level, h.experience, h.manaSpent, h.tries, (loadMounts_eq_iff hmounts).mpr h.mounts,
        h.randomizeMount⟩
  constructor
  · intro h
    obtain ⟨after, hsaved⟩ := exists_saved server player.toPlayer hsave
    obtain ⟨hloaded, hmounts⟩ := loaded_eq player hsave hsaved
    exact (hstate hmounts).mp (Option.some.inj (hloaded.symm.trans (h after hsaved)))
  · intro h after hsaved
    obtain ⟨hloaded, hmounts⟩ := loaded_eq player hsave hsaved
    rw [hloaded, (hstate hmounts).mpr h]

/-! ## A player of level eight -/

def villagers : Group := { id := 1, access := false, alwaysPremium := false }
def knights : Vocation := { id := 4, manaCost := fun _ => 1600, skillCost := fun _ _ => 50 }
def thais : Town := { id := 2, templePosition := { x := 95, y := 117, z := 7 } }

def village : Server where
  getGroup id := if id = 1 then some villagers else none
  getVocation id := if id = 4 then some knights else none
  getTown id := if id = 2 then some thais else none
  getMountByID _ := none
  getMountByID_id _ _ h := by cases h
  pvpEnforced := false
  freePremium := false
  premiumEndsAt := 0
  time := 1700000000

theorem village_getTown : village.getTown thais.id = some thais := by
  simp only [village, thais, if_true]

def knight (randomizeMount : Bool) : village.Player where
  group := villagers
  bankBalance := 250
  sex := 1
  level := 8
  experience := 4500
  soul := 100
  blessings := 3
  vocation := knights
  mana := 35
  manaMax := 90
  magLevel := 1
  manaSpent := 700
  health := 150
  healthMax := 185
  defaultOutfit :=
    { lookType := 131, lookHead := 95, lookBody := 38, lookLegs := 94, lookFeet := 115,
      lookAddons := 1 }
  currentMount := 0
  direction := 2
  randomizeMount := randomizeMount
  town := thais
  staminaMinutes := 2520
  skills _ := { level := 10, tries := 12 }
  storageMap := (∅ : Finmap fun _ : UInt32 => Int64).insert 30001 (-1)
  outfits := (∅ : Finmap fun _ : UInt16 => UInt8).insert 131 1
  mounts := ∅
  capacity := 47000
  skull := .none
  skullTicks := 0
  loginPosition := { x := 100, y := 100, z := 7 }
  lastLoginSaved := 1690000000
  lastLogout := 1680000000
  lastIP := 0
  varMaxHitPoints := 0
  group_known := rfl
  vocation_known := rfl
  town_known := village_getTown

def newTables : Tables where
  players column := if column = .save then some (ofNat 1) else some (ofNat 0)
  storage := []
  outfits := []
  mounts := []

theorem player_row_iff_knight : RoundTrips village (knight true).toPlayer newTables :=
  (player_row_iff village (knight true) newTables (by decide)).mpr
    { level := by decide
      experience := .inr (by decide)
      manaSpent := by decide
      tries := fun s => show (12 : UInt64) ≤ 50 by decide
      mounts := .inl rfl
      randomizeMount := rfl }

/-- A player who has turned the random mounts off has them on after the next login. -/
theorem random_mounts_come_back : ¬ RoundTrips village (knight false).toPlayer newTables := by
  intro h
  have hsave : (getNumber toUInt16 (newTables.players .save) : UInt16) ≠ 0 := by decide
  obtain ⟨after, hsaved⟩ := exists_saved village (knight false).toPlayer hsave
  have hloaded := (loaded_eq (knight false) hsave hsaved).1
  have hflag := congrArg Character.randomizeMount
    (Option.some.inj (hloaded.symm.trans (h after hsaved)))
  rw [revived_eq] at hflag
  cases hflag

end Bruxo.PlayerRow
