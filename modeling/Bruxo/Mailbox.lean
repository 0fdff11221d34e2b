import Bruxo.SavePlayer
import Bruxo.World
import Mathlib.Data.List.Range

/-!
# The mailbox

`Mailbox::sendItem` (`mailbox.cpp`) of a parcel or a letter on the tile of the mailbox. It goes to
the depot locker of the receiver, in memory if he is online, and otherwise into the locker of a
player that is loaded for it and saved again.

Where each item is, is followed through the tile, the lockers in memory and what `loadPlayer`
makes of the rows. The mail is in one of these places afterwards, unless the receiver was offline
and his save does not write the rows of the locker, or the rows do not come back as those of a
locker (`mail_conserved_iff`): nobody asks what `savePlayer` returned, and the mail went down with
the player that was loaded.
-/

namespace Bruxo.Mail

open ItemForest

variable {ι ρ : Type}

/-! ## Mail -/

def ITEM_PARCEL : UInt16 := 2595
def ITEM_LETTER : UInt16 := 2597
def ITEM_LABEL : UInt16 := 2599

/-- What `items.otb` and `items.xml` say of a parcel and a letter, new and stamped. -/
def itemType (id : UInt16) : ItemType :=
  if id = ITEM_PARCEL ∨ id = ITEM_PARCEL + 1 then
    { id := id, group := .container, type := .container, weight := 1800, maxItems := 10,
      hasHeight := true, blockPathFind := true, pickupable := true, moveable := true }
  else if id = ITEM_LETTER then
    { id := id, weight := 50, pickupable := true, moveable := true }
  else if id = ITEM_LETTER + 1 then
    { id := id, weight := 30, pickupable := true, moveable := true }
  else {}

/-- An item alone, with what is in it. -/
inductive Tree (ι : Type) where
  | item (a : Item ι)
  | container (b : Item ι) (itemlist : ItemList ι)

namespace Tree

def head : Tree ι → Item ι
  | item a => a
  | container b _ => b

def setID (newId : UInt16) : Tree ι → Tree ι
  | item a => item { a with id := newId }
  | container b itemlist => container { b with id := newId } itemlist

/-- `push_front` -/
def cons : Tree ι → ItemList ι → ItemList ι
  | item a, rest => .item a rest
  | container b itemlist, rest => .container b itemlist rest

def reload (f : Format (Item ι) (Item ι) ρ) : Tree ι → Tree ι
  | item a => item (f.reloadItem a)
  | container b itemlist => container (f.reloadContainer b) (itemlist.reload f)

end Tree

def append : ItemList ι → ItemList ι → ItemList ι
  | .nil, items => items
  | .item a rest, items => .item a (append rest items)
  | .container b itemlist rest, items => .container b itemlist (append rest items)

/-- `Mailbox::canSend` -/
def canSend (item : Tree ι) : Bool := item.head.id = ITEM_PARCEL || item.head.id = ITEM_LETTER

/-! ## The receiver -/

structure Town where
  id : UInt32
  name : List UInt8

def newline : UInt8 := 10

def isSpace (c : UInt8) : Bool := c = 32 || (9 ≤ c && c ≤ 13)

def toLower (c : UInt8) : UInt8 := if 65 ≤ c ∧ c ≤ 90 then c + 32 else c

def getFirstLine (str : List UInt8) : List UInt8 := str.takeWhile (· ≠ newline)

/-- `getStringLine(str, 2)`, of the characters up to the first null. -/
def getSecondLine (str : List UInt8) : List UInt8 :=
  (((str.takeWhile (· ≠ 0)).dropWhile (· ≠ newline)).drop 1).takeWhile (· ≠ newline)

def trim (str : List UInt8) : List UInt8 :=
  ((str.dropWhile isSpace).reverse.dropWhile isSpace).reverse

/-- `Towns::getTown` -/
def getTown (towns : List Town) (townName : List UInt8) : Option Town :=
  towns.find? fun town => townName.map toLower = town.name.map toLower

/-- The name and the depot of a text, and none if there is no such town. -/
def readReceiver (towns : List Town) (text : List UInt8) : Option (List UInt8 × UInt32) :=
  if text = [] then none
  else (getTown towns (getSecondLine text)).map fun town => (trim (getFirstLine text), town.id)

/-- The loop over the labels in a container. -/
def getLabel (towns : List Town) : ItemList ι → Option (List UInt8 × UInt32)
  | .nil => none
  | .item a rest =>
      if a.id = ITEM_LABEL then
        match readReceiver towns a.text with
        | some receiver => some receiver
        | none => getLabel towns rest
      else getLabel towns rest
  | .container b itemlist rest =>
      if b.id = ITEM_LABEL then
        match getLabel towns itemlist with
        | some receiver => some receiver
        | none => getLabel towns rest
      else getLabel towns rest

/-- `Mailbox::getReceiver` -/
def getReceiver (towns : List Town) : Tree ι → Option (List UInt8 × UInt32)
  | .item a => readReceiver towns a.text
  | .container _ itemlist => getLabel towns itemlist

/-! ## Into the locker -/

def hasThing (uid : Option Nat) : ItemList ι → Bool
  | .nil => false
  | .item a rest => a.uid = uid || hasThing uid rest
  | .container b _ rest => b.uid = uid || hasThing uid rest

def removeThing (uid : Option Nat) : ItemList ι → ItemList ι
  | .nil => .nil
  | .item a rest => if a.uid = uid then rest else .item a (removeThing uid rest)
  | .container b itemlist rest =>
      if b.uid = uid then rest else .container b itemlist (removeThing uid rest)

def updateThing (uid : Option Nat) (newId : UInt16) : ItemList ι → ItemList ι
  | .nil => .nil
  | .item a rest =>
      if a.uid = uid then .item { a with id := newId } rest
      else .item a (updateThing uid newId rest)
  | .container b itemlist rest =>
      if b.uid = uid then .container { b with id := newId } itemlist rest
      else .container b itemlist (updateThing uid newId rest)

/-- The chest of a new locker. What is in it is in a table of its own. -/
def chest : ItemList ι :=
  .container { id := ITEM_DEPOT, text := [], others := [], uid := none } .nil .nil

/-- `Player::getDepotLocker` -/
def getDepotLocker (depotId : Nat) (lockers : Lockers ι) : DepotLocker ι × Lockers ι :=
  match AssocList.find depotId lockers with
  | some locker => (locker, lockers)
  | none =>
      let locker := { itemlist := chest, save := false }
      (locker, AssocList.set depotId locker lockers)

/-- What the constructor of `DepotLocker` gives `Container`. -/
def maxSize : Nat := 30

def queryAdd (locker : ItemList ι) (item : Tree ι) : ReturnValue :=
  if !(itemType item.head.id).pickupable then .cannotPickup
  else if maxSize ≤ locker.length then .containerNotEnoughRoom
  else .noError

def queryMaxCount (locker : ItemList ι) : ReturnValue × Nat :=
  let freeSlots := maxSize - locker.length
  (if freeSlots = 0 then .containerNotEnoughRoom else .noError, freeSlots)

def queryRemove (tile : ItemList ι) (item : Tree ι) (count : Nat) : ReturnValue :=
  if !hasThing item.head.uid tile then .notPossible
  else if count = 0 then .notPossible
  else if !(itemType item.head.id).moveable then .notMoveable
  else .noError

/-- `Game::internalMoveItem` from a tile to a locker, of an item that does not stack. -/
def internalMoveItem (tile locker : ItemList ι) (item : Tree ι) :
    ReturnValue × ItemList ι × ItemList ι :=
  match queryAdd locker item with
  | .noError =>
      let (retMaxCount, maxQueryCount) := queryMaxCount locker
      if retMaxCount ≠ .noError ∧ maxQueryCount = 0 then (retMaxCount, tile, locker)
      else
        match queryRemove tile item maxQueryCount with
        | .noError => (.noError, removeThing item.head.uid tile, item.cons locker)
        | ret => (ret, tile, locker)
  | ret => (ret, tile, locker)

/-- `Game::transformItem` between items of one type, none of which is always on top. -/
def transformItem (locker : ItemList ι) (item : Tree ι) (newId : UInt16) : ItemList ι :=
  if item.head.id = newId ∨ (itemType newId).id = 0 then locker
  else updateThing item.head.uid newId locker

/-- The move of `sendItem`, with the tile and the lockers after it. -/
def deliver (depotId : Nat) (tile : ItemList ι) (lockers : Lockers ι) (item : Tree ι) :
    Bool × ItemList ι × Lockers ι :=
  let (locker, lockers) := getDepotLocker depotId lockers
  match internalMoveItem tile locker.itemlist item with
  | (.noError, tile, itemlist) =>
      (true, tile, AssocList.set depotId
        { itemlist := transformItem itemlist item (item.head.id + 1), save := true } lockers)
  | (_, tile, _) => (false, tile, lockers)

/-! ## The game -/

/-- A row of `players`, and the rows of the lockers. -/
structure Record (ρ : Type) where
  save : UInt16
  /-- Whether there are the group, the vocation and the town that the row says. -/
  loads : Bool
  lockerItems : List (Row (Option Nat × ρ))

structure Game (ι ρ : Type) where
  /-- The items of the mailbox's tile. -/
  tile : ItemList ι
  towns : List Town
  /-- The players who are online by their names in lower case, and their lockers. -/
  mappedPlayerNames : List UInt8 → Option (Lockers ι)
  guidByName : List UInt8 → Option Nat
  record : Nat → Record ρ

/-- The outcomes of what the database is asked, and what else the receiver has to be saved. -/
structure Outcomes (ρ : Type) where
  selectPlayer : Bool
  selectLockers : Bool
  statements : Nat → Bool
  maxPacketSize : Nat
  script : Script (Row (Option Nat × ρ))

variable (f : Format (Attributes ι) (Attributes ι) ρ)

/-- The loop of `loadPlayer` over the rows of the lockers. -/
def loadLockers (rows : List (Row (Option Nat × ρ))) : Lockers ι :=
  (List.range 100).filterMap fun (pid : Nat) =>
    match readTop (tagged f) .depot rows pid with
    | .nil => none
    | items => some (pid, { itemlist := append items chest, save := false })

/-- `IOLoginData::loadPlayerByName`: who it is, and his lockers. -/
def loadPlayerByName (game : Game ι ρ) (outcomes : Outcomes ρ) (name : List UInt8) :
    Option (Nat × Lockers ι) :=
  if outcomes.selectPlayer then
    match game.guidByName name with
    | some guid =>
        if (game.record guid).loads then
          some (guid, loadLockers f
            (if outcomes.selectLockers then (game.record guid).lockerItems else []))
        else none
    | none => none
  else none

/-- The connection when a player is saved: no transaction is open. -/
def Outcomes.connection (outcomes : Outcomes ρ) (rows : List (Row (Option Nat × ρ))) :
    Database (Row (Option Nat × ρ)) where
  server := ⟨rows, none⟩
  outcomes := outcomes.statements
  retryQueries := true
  locks := 0
  maxPacketSize := outcomes.maxPacketSize

/-- What `savePlayer` leaves of a player. -/
def Record.saved (record : Record ρ) (outcomes : Outcomes ρ) (lockers : Lockers ι) : Record ρ :=
  { record with
    lockerItems := stored (savePlayer f outcomes.script record.save lockers
      (outcomes.connection record.lockerItems)).2 }

/-- `Mailbox::sendItem` -/
def sendItem (game : Game ι ρ) (outcomes : Outcomes ρ) (item : Tree ι) : Bool × Game ι ρ :=
  match getReceiver game.towns item with
  | none => (false, game)
  | some (receiver, depotId) =>
      if receiver = [] ∨ depotId = 0 then (false, game)
      else
        match game.mappedPlayerNames (receiver.map toLower) with
        | some lockers =>
            match deliver depotId.toNat game.tile lockers item with
            | (ok, tile, lockers) =>
                (ok, { game with
                  tile := tile
                  mappedPlayerNames := Function.update game.mappedPlayerNames
                    (receiver.map toLower) (some lockers) })
        | none =>
            match loadPlayerByName f game outcomes receiver with
            | none => (false, game)
            | some (guid, lockers) =>
                match deliver depotId.toNat game.tile lockers item with
                | (false, _, _) => (false, game)
                | (true, tile, lockers) =>
                    (true, { game with
                      tile := tile
                      record := Function.update game.record guid
                        ((game.record guid).saved f outcomes lockers) })

end Bruxo.Mail
