import Bruxo.ItemType
import Bruxo.Position
import Bruxo.PropStream

/-!
# The items of house tiles

`saveTile`, `saveItem`, `loadItem`, `loadContainer` and `loadHouseItems` (`iomapserialize.cpp`),
with `Item::CreateItem` and `Tile::internalAddThing`.

A tile is saved from its end to its front, and so is a container; what is loaded is put in front.
An item that the map gives the tile is not created but looked for, by its id or as the door or
the bed.
-/

namespace Bruxo.MapSerialize

open Bytes

structure HouseItemType extends ItemType where
  forceSerialize : Bool := false
  canWriteText : Bool := false

namespace HouseItemType

variable (it : HouseItemType)

/-- `CreateItem` makes a `Container`, and so `getContainer` finds one. -/
def getContainer : Bool := it.isDepot || it.isContainer

def getDoor : Bool := !it.getContainer && it.isDoor

def getBed : Bool := !it.getContainer && it.isBed

end HouseItemType

/-- Magic rings and boots that `CreateItem` makes in their unworn kind. -/
def createdId (type : UInt16) : UInt16 :=
  if 2210 ≤ type ∧ type ≤ 2212 then type - 3
  else if type = 2215 ∨ type = 2216 then type - 2
  else if 2202 ≤ type ∧ type ≤ 2206 then type - 37
  else if type = 2640 then 6132
  else if type = 6301 then 6300
  else type

/-- `ATTR_CONTAINER_ITEMS` -/
def containerItems : Nat := 23

section Items

variable (items : UInt16 → HouseItemType)

/-- The id of the item that is created. -/
def CreateItem (type : UInt16) : Option UInt16 :=
  let it := items type
  if it.group = .deprecated then none
  else if it.id ≠ 0 then
    if it.getContainer || it.isTeleport || it.isMagicField || it.isDoor || it.isTrashHolder ||
        it.isMailbox || it.isBed then
      some type
    else some (createdId type)
  else none

/-- Items of one class: of one id, or both doors, or both beds. -/
def SameKind (id id' : UInt16) : Prop :=
  id' = id ∨ ((items id').getDoor ∧ (items id).getDoor) ∨ ((items id').getBed ∧ (items id).getBed)

/-- An item list, with what is in the containers. -/
inductive Items (α : Type) where
  | nil
  | cons (id : UInt16) (attrs : α) (itemlist rest : Items α)

/-- What `unserializeAttr` answers, and leaves. -/
structure ReadAttrs (α : Type) where
  ok : Bool
  attrs : α
  serializationCount : Nat
  rest : PropStream

/-- The attributes of the items, as `serializeAttr` writes and `unserializeAttr` reads them. The
tag that ends them is 0, or in a container the one of its items. -/
structure Attributes (α : Type) where
  create : UInt16 → α
  serializeAttr : UInt16 → α → List UInt8
  unserializeAttr : UInt16 → α → PropStream → ReadAttrs α
  Storable : UInt16 → α → Prop
  /-- What becomes of an item that these attributes are read into. -/
  restore : UInt16 → α → α → α
  /-- What `transformItem` makes of them where an item of the one id takes the other. -/
  transform : UInt16 → UInt16 → α → α
  read_end : ∀ {id id'}, SameKind items id id' → ∀ {saved}, Storable id saved → ∀ attrs rest,
    unserializeAttr id' attrs ⟨serializeAttr id saved ++ leBytes 1 0 ++ rest⟩ =
      ⟨true, restore id' attrs saved, 0, ⟨rest⟩⟩
  read_items : ∀ {id}, (items id).getContainer = true → ∀ {saved}, Storable id saved →
    ∀ {size}, size < 256 ^ 4 → ∀ attrs rest,
    unserializeAttr id attrs
        ⟨serializeAttr id saved ++ leBytes 1 containerItems ++ leBytes 4 size ++ rest⟩ =
      ⟨true, restore id attrs saved, size, ⟨rest⟩⟩

end Items

namespace Items

variable {α : Type}

def length : Items α → Nat
  | nil => 0
  | cons _ _ _ rest => rest.length + 1

def append : Items α → Items α → Items α
  | nil, other => other
  | cons id attrs itemlist rest, other => cons id attrs itemlist (rest.append other)

def isEmpty : Items α → Bool
  | nil => true
  | cons .. => false

end Items

structure Item (α : Type) where
  id : UInt16
  attrs : α
  itemlist : Items α

/-- The item vector of a tile: first the down items, then those that are always on top. -/
structure Tile (α : Type) where
  items : List (Item α)
  downItemCount : Nat

section Serialize

variable {items : UInt16 → HouseItemType} {α : Type} (A : Attributes items α)

/-! ## Saving -/

/-- What `saveItem` writes, with the bytes of what is in the container. -/
def saveItem (id : UInt16) (attrs : α) (size : Nat) (contents : List UInt8) : List UInt8 :=
  leBytes 2 id.toNat ++ A.serializeAttr id attrs ++
    (if (items id).getContainer then
      leBytes 1 containerItems ++ leBytes 4 size ++ contents
    else []) ++
    leBytes 1 0

/-- From the end to the front. -/
def Items.save : Items α → List UInt8
  | .nil => []
  | .cons id attrs itemlist rest =>
      rest.save ++ saveItem A id attrs itemlist.length itemlist.save

def Item.save (item : Item α) : List UInt8 :=
  saveItem A item.id item.attrs item.itemlist.length (item.itemlist.save A)

variable (items) in
/-- Which items of a tile are saved. -/
def Item.isSaved (item : Item α) : Bool :=
  let it := items item.id
  it.moveable || it.forceSerialize || it.getDoor || (it.getContainer && !item.itemlist.isEmpty) ||
    it.canWriteText || it.getBed

def saveTile (position : Position) (tileItems : List (Item α)) : List UInt8 :=
  let saved := tileItems.filter (Item.isSaved items)
  if saved = [] then []
  else
    leBytes 2 position.x.toNat ++ leBytes 2 position.y.toNat ++ leBytes 1 position.z.toNat ++
      leBytes 4 saved.length ++ saved.reverse.flatMap (Item.save A)

/-! ## Loading

The loops have fuel, and are `none` without it. -/

mutual

/-- `loadItem` into a container: whether it went well, the item list, and the stream. -/
def loadItem : Nat → PropStream → Items α → Option (Bool × Items α × PropStream)
  | 0, _, _ => none
  | fuel + 1, propStream, itemlist =>
      match propStream.read 2 with
      | none => some (false, itemlist, propStream)
      | some (type, rest) =>
          match CreateItem items (UInt16.ofNat type) with
          | none => some (true, itemlist, rest)
          | some id =>
              let r := A.unserializeAttr id (A.create id) rest
              if !r.ok then some (false, itemlist, r.rest)
              else if (items id).getContainer then
                match loadContainer fuel r.serializationCount r.rest .nil with
                | none => none
                | some (ok, contents, rest) =>
                    some (ok, if ok then .cons id r.attrs contents itemlist else itemlist, rest)
              else some (true, .cons id r.attrs .nil itemlist, r.rest)

def loadContainer : Nat → Nat → PropStream → Items α → Option (Bool × Items α × PropStream)
  | _, 0, propStream, itemlist =>
      match propStream.read 1 with
      | none => some (false, itemlist, propStream)
      | some (endAttr, rest) => some (endAttr = 0, itemlist, rest)
  | 0, _ + 1, _, _ => none
  | fuel + 1, serializationCount + 1, propStream, itemlist =>
      match loadItem fuel propStream itemlist with
      | none => none
      | some (ok, itemlist, rest) =>
          if ok then loadContainer fuel serializationCount rest itemlist
          else some (false, itemlist, rest)

end

variable (items) in
/-- The place of an item that is always on top. -/
def insertTop (item : Item α) : List (Item α) → List (Item α)
  | [] => [item]
  | other :: rest =>
      if (items other.id).alwaysOnTopOrder > (items item.id).alwaysOnTopOrder then
        item :: other :: rest
      else other :: insertTop item rest

variable (items) in
/-- `Tile::internalAddThing`; a house tile has a ground already. -/
def Tile.internalAddThing (tile : Tile α) (item : Item α) : Tile α :=
  let itemType := items item.id
  if itemType.isGroundTile then tile
  else if tile.items.length ≥ 0xFFFF then tile
  else if itemType.alwaysOnTop then
    { tile with
      items := tile.items.take tile.downItemCount ++
        insertTop items item (tile.items.drop tile.downItemCount) }
  else ⟨item :: tile.items, tile.downItemCount + 1⟩

variable (items) in
/-- `Tile::addThing` of a door or a bed that `transformItem` took off the tile. -/
def Tile.addThing (tile : Tile α) (item : Item α) : Tile α :=
  let itemType := items item.id
  if itemType.alwaysOnTop then
    let (before, behind) := (tile.items.drop tile.downItemCount).span fun other =>
      (items other.id).alwaysOnTopOrder < itemType.alwaysOnTopOrder
    { tile with items := tile.items.take tile.downItemCount ++ before ++ item :: behind }
  else ⟨item :: tile.items, tile.downItemCount + 1⟩

variable (items) in
/-- The item that the map gave the tile. -/
def isFound (id : UInt16) (findItem : Item α) : Bool :=
  findItem.id = id ||
    ((items id).isDoor && (items findItem.id).getDoor) ||
    ((items id).isBed && (items findItem.id).getBed)

/-- The items before the first that is found, it, and those behind it. -/
def find (p : Item α → Bool) : List (Item α) → Option (List (Item α) × Item α × List (Item α))
  | [] => none
  | item :: rest =>
      if p item then some ([], item, rest)
      else (find p rest).map fun (before, found, behind) => (item :: before, found, behind)

/-- `transformItem` of the item that was found between these others, which is of the kind of
the new id: it takes the id in its place, or goes to the items that are always on top or from
them. -/
def Tile.transformItem (tile : Tile α) (before behind : List (Item α)) (item : Item α)
    (newId : UInt16) : Tile α :=
  if item.id = newId ∨ (items newId).id = 0 then { tile with items := before ++ item :: behind }
  else
    let newItem : Item α := ⟨newId, A.transform item.id newId item.attrs, item.itemlist⟩
    if (items item.id).alwaysOnTop ≠ (items newId).alwaysOnTop then
      let rest : Tile α := ⟨before ++ behind,
        if (items item.id).alwaysOnTop then tile.downItemCount else tile.downItemCount - 1⟩
      rest.addThing items newItem
    else { tile with items := before ++ newItem :: behind }

/-- `loadItem` onto a tile. -/
def loadTileItem (fuel : Nat) (propStream : PropStream) (tile : Tile α) :
    Option (Bool × Tile α × PropStream) :=
  match propStream.read 2 with
  | none => some (false, tile, propStream)
  | some (type, rest) =>
      let id := UInt16.ofNat type
      if (items id).moveable || (items id).forceSerialize then
        match loadItem A (fuel + 1) propStream .nil with
        | none => none
        | some (ok, .cons id attrs itemlist _, rest) =>
            some (ok, tile.internalAddThing items ⟨id, attrs, itemlist⟩, rest)
        | some (ok, .nil, rest) => some (ok, tile, rest)
      else
        match find (isFound items id) tile.items with
        | some (before, item, behind) =>
            let r := A.unserializeAttr item.id item.attrs rest
            let item' : Item α := { item with attrs := r.attrs }
            if !r.ok then some (true, { tile with items := before ++ item' :: behind }, r.rest)
            else if (items item.id).getContainer then
              match loadContainer A fuel r.serializationCount r.rest item.itemlist with
              | none => none
              | some (ok, itemlist, rest) =>
                  let item'' : Item α := { item' with itemlist := itemlist }
                  some (ok,
                    if ok then tile.transformItem A before behind item'' id
                    else { tile with items := before ++ item'' :: behind }, rest)
            else
              some (true, tile.transformItem A before behind item' id, r.rest)
        | none =>
            -- The map changed since the last save, just read the attributes.
            match CreateItem items id with
            | none => some (true, tile, rest)
            | some id =>
                let r := A.unserializeAttr id (A.create id) rest
                if (items id).getContainer then
                  match loadContainer A fuel r.serializationCount r.rest .nil with
                  | none => none
                  | some (ok, _, rest) => some (ok, tile, rest)
                else some (true, tile, r.rest)

/-- The loop of `loadHouseItems`, which goes on whatever `loadItem` answers. -/
def loadItems (fuel : Nat) : Nat → PropStream → Tile α → Option (Tile α × PropStream)
  | 0, propStream, tile => some (tile, propStream)
  | itemCount + 1, propStream, tile =>
      match loadTileItem A fuel propStream tile with
      | none => none
      | some (_, tile, rest) => loadItems fuel itemCount rest tile

/-- `loadHouseItems` of the row of a tile; every turn of the loops takes a byte of it. -/
def loadTile (position : Position) (propStream : PropStream) (tile : Tile α) :
    Option (Tile α × PropStream) :=
  match propStream.read 2 with
  | none => some (tile, propStream)
  | some (x, s) =>
      match s.read 2 with
      | none => some (tile, s)
      | some (y, s) =>
          match s.read 1 with
          | none => some (tile, s)
          | some (z, s) =>
              if (⟨UInt16.ofNat x, UInt16.ofNat y, UInt8.ofNat z⟩ : Position) ≠ position then
                some (tile, s)
              else
                match s.read 4 with
                | none => some (tile, s)
                | some (itemCount, s) => loadItems A propStream.size itemCount s tile

/-- A tile without saved items has no row. -/
def reload (position : Position) (data : List UInt8) (tile : Tile α) :
    Option (Tile α × PropStream) :=
  if data = [] then some (tile, ⟨[]⟩) else loadTile A position (.init data) tile

end Serialize

end Bruxo.MapSerialize
