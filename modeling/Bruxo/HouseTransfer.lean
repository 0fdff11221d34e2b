import Bruxo.MailDelivery

/-!
# The transfer of a house

`House::setOwner` and `House::transferToDepot` (`house.cpp`), with the part of
`Game::internalMoveItem` (`game.cpp`) and of `Container` that a move into a depot locker takes. All
that can be picked up on the tiles of the house, or lies in a container there that cannot, goes to
the locker of the owner before: in memory if that player is in the game, and otherwise into the
locker of a player that is loaded for it and saved again.

An item of a stack is known by the units that it counts, and any other by its identity, so that a
stack can be followed when it is put together with another. The columns of an item are kept as
they are (`verbatim`).
-/

namespace Bruxo.HouseTransfer

open Mail ItemForest

variable {κ : Type}

/-! ## Items -/

/-- One of the units of a stack, or another attribute. -/
inductive Attr (κ : Type) where
  | unit (n : Nat)
  | attribute (k : κ)

abbrev Item (κ : Type) := Mail.Item (Attr κ)
abbrev Tree (κ : Type) := Mail.Tree (Attr κ)
abbrev ItemList (κ : Type) := Mail.ItemList (Attr κ)

def units (item : Item κ) : List Nat :=
  item.others.filterMap fun
    | .unit n => some n
    | .attribute _ => none

def attributes (item : Item κ) : List κ :=
  item.others.filterMap fun
    | .unit _ => none
    | .attribute k => some k

def getItemCount (item : Item κ) : Nat := (units item).length

def setUnits (l : List Nat) (item : Item κ) : Item κ :=
  { item with others := l.map .unit ++ (attributes item).map .attribute }

/-- `Item::equals`, which leaves the count out -/
def equals [DecidableEq κ] (item otherItem : Item κ) : Bool :=
  item.id = otherItem.id && item.text = otherItem.text && attributes item = attributes otherItem

def trees : ItemList κ → List (Tree κ)
  | .nil => []
  | .item a rest => .item a :: trees rest
  | .container b itemlist rest => .container b itemlist :: trees rest

/-- The columns are the item. -/
def verbatim : Format (Attributes (Attr κ)) (Attributes (Attr κ))
    (Attributes (Attr κ) ⊕ Attributes (Attr κ)) where
  saveItem := .inl
  saveContainer := .inr
  load := some
  item_back a := ⟨a, rfl⟩
  container_back b := ⟨b, rfl⟩

/-! ## The move of an item -/

section Move

variable (types : UInt16 → ItemType)

def isPickupable (item : Item κ) : Bool := (types item.id).isPickupable

def isMoveable (item : Item κ) : Bool := (types item.id).moveable

/-- No container is stackable. -/
def isStackable : Tree κ → Bool
  | .item a => (types a.id).stackable
  | .container _ _ => false

/-- The top of a list without what the test turns down. -/
def keep (test : Item κ → Bool) : ItemList κ → ItemList κ
  | .nil => .nil
  | .item a rest => if test a then .item a (keep test rest) else keep test rest
  | .container b itemlist rest =>
      if test b then .container b itemlist (keep test rest) else keep test rest

/-- A tile, and the containers on it that cannot be picked up, without what the test turns down. -/
def keepOn (test : Item κ → Bool) : ItemList κ → ItemList κ
  | .nil => .nil
  | .item a rest => if test a then .item a (keepOn test rest) else keepOn test rest
  | .container b itemlist rest =>
      if test b then
        .container b (if isPickupable types b then itemlist else keep test itemlist)
          (keepOn test rest)
      else keepOn test rest

/-- `fromCylinder->removeThing`, of the tile or container that the item is in -/
def removeThing (item : Tree κ) (tiles : List (ItemList κ)) : List (ItemList κ) :=
  tiles.map (keepOn types fun a => a.uid ≠ item.head.uid)

/-- The capacity of a locker, which `FLAG_NOLIMIT` passes over but for `addThing`. -/
def capacity : Nat := 30

/-- The loop of `Container::queryDestination`: the first stack that has room for more. -/
def findStack [DecidableEq κ] (item : Item κ) : ItemList κ → Option Nat
  | .nil => none
  | .item a rest =>
      if equals a item ∧ getItemCount a < (types a.id).stackSize.toNat then some 0
      else (findStack item rest).map (· + 1)
  | .container _ _ rest => (findStack item rest).map (· + 1)

def queryDestination [DecidableEq κ] (item : Tree κ) (locker : ItemList κ) : Option Nat :=
  match item with
  | .item a => if isStackable types item then findStack types a locker else none
  | .container _ _ => none

/-- What a stack that has `room` takes of the units of `item`: the list, and what is left over. -/
def updateThing (item : Item κ) : Nat → ItemList κ → ItemList κ × List Nat
  | 0, .item a rest =>
      let room := (types a.id).stackSize.toNat - getItemCount a
      (.item (setUnits (units a ++ (units item).take room) a) rest, (units item).drop room)
  | index + 1, .item a rest =>
      let (rest, left) := updateThing item index rest
      (.item a rest, left)
  | index + 1, .container b itemlist rest =>
      let (rest, left) := updateThing item index rest
      (.container b itemlist rest, left)
  | _, locker => (locker, units item)

/-- `Container::addThing`, which leaves without a word what is to go behind the capacity. -/
def addThing (index : Nat) (item : Tree κ) (locker : ItemList κ) : ItemList κ :=
  if capacity ≤ index then locker else item.cons locker

/-- The part of `internalMoveItem` that adds: `updateThing` and then a clone of what is left over,
at the index of the stack. -/
def add [DecidableEq κ] (locker : ItemList κ) (item : Tree κ) : ItemList κ :=
  match item, queryDestination types item locker with
  | .item a, some index =>
      let (locker, left) := updateThing types a index locker
      if 0 < left.length then addThing index (.item (setUnits left a)) locker else locker
  | _, none => item.cons locker
  | _, some _ => item.cons locker

/-- `queryAdd`, `queryMaxCount` and `queryRemove`: the locker takes all that can be picked up, and
the item can be moved; a stack has to count something. -/
def moves (item : Tree κ) : Bool :=
  isPickupable types item.head && isMoveable types item.head &&
    (!isStackable types item || decide (0 < getItemCount item.head))

/-- `Game::internalMoveItem` to a locker, with `INDEX_WHEREEVER` and `FLAG_NOLIMIT` -/
def internalMoveItem [DecidableEq κ] (state : List (ItemList κ) × DepotLocker (Attr κ))
    (item : Tree κ) : List (ItemList κ) × DepotLocker (Attr κ) :=
  if moves types item then
    (removeThing types item state.1, { itemlist := add types state.2.itemlist item, save := true })
  else state

end Move

/-! ## The house -/

structure House (κ : Type) where
  owner : Nat
  townId : UInt32
  /-- The items of each tile -/
  tiles : List (ItemList κ)

section Transfer

variable (types : UInt16 → ItemType)

/-- What is collected on a tile -/
def collect : ItemList κ → List (Tree κ)
  | .nil => []
  | .item a rest => if isPickupable types a then .item a :: collect rest else collect rest
  | .container b itemlist rest =>
      if isPickupable types b then .container b itemlist :: collect rest
      else trees itemlist ++ collect rest

def moveItemList (tiles : List (ItemList κ)) : List (Tree κ) := tiles.flatMap (collect types)

variable [DecidableEq κ]

/-- `House::transferToDepot(Player*)`: the tiles and the lockers of the player after it -/
def transferToPlayer (house : House κ) (lockers : Lockers (Attr κ)) :
    List (ItemList κ) × Lockers (Attr κ) :=
  if house.townId = 0 ∨ house.owner = 0 then (house.tiles, lockers)
  else
    let (depot, lockers) := getDepotLocker house.townId.toNat lockers
    let (tiles, depot) :=
      (moveItemList types house.tiles).foldl (internalMoveItem types) (house.tiles, depot)
    (tiles, AssocList.set house.townId.toNat depot lockers)

abbrev Columns (κ : Type) := Attributes (Attr κ) ⊕ Attributes (Attr κ)

/-- The owner before: in the game, or given to `setOwner`, with the lockers; or only in the
database. -/
inductive Owner (κ : Type) where
  | online (lockers : Lockers (Attr κ))
  | offline (record : Record (Columns κ))

/-- `IOLoginData::loadPlayerById`, of the lockers -/
def loadPlayerById (record : Record (Columns κ)) (outcomes : Outcomes (Columns κ)) :
    Option (Lockers (Attr κ)) :=
  if outcomes.selectPlayer ∧ record.loads then
    some (loadLockers verbatim (if outcomes.selectLockers then record.lockerItems else []))
  else none

/-- `House::transferToDepot()` -/
def transferToDepot (house : House κ) (player : Owner κ) (outcomes : Outcomes (Columns κ)) :
    List (ItemList κ) × Owner κ :=
  if house.townId = 0 ∨ house.owner = 0 then (house.tiles, player)
  else
    match player with
    | .online lockers =>
        let (tiles, lockers) := transferToPlayer types house lockers
        (tiles, .online lockers)
    | .offline record =>
        match loadPlayerById record outcomes with
        | none => (house.tiles, player)
        | some lockers =>
            let (tiles, lockers) := transferToPlayer types house lockers
            (tiles, .offline (record.saved verbatim outcomes lockers))

/-- `House::setOwner`, of a house that is loaded; what the transfer answers is not looked at. -/
def setOwner (house : House κ) (player : Owner κ) (outcomes : Outcomes (Columns κ)) (guid : Nat)
    (nameFound : Bool) : House κ × Owner κ :=
  if house.owner = guid then (house, player)
  else if house.owner ≠ 0 then
    let (tiles, player) := transferToDepot types house player outcomes
    ({ house with owner := if guid ≠ 0 ∧ nameFound then guid else 0, tiles := tiles }, player)
  else ({ house with owner := if guid ≠ 0 ∧ nameFound then guid else 0 }, player)

end Transfer

end Bruxo.HouseTransfer
