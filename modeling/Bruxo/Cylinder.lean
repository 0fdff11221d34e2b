import Bruxo.World

/-!
# Queries on cylinders

`queryAdd`, `queryMaxCount`, `queryRemove` and `queryDestination` of tiles
(`tile.cpp`), containers (`container.cpp`) and players (`player.cpp`), for
items. None of them changes the world; a reference parameter is part of the
result.
-/

namespace Bruxo

namespace World

variable (env : Env) (w : World)

/-! ## Adding -/

def inventoryWeight (p : Nat) : Nat :=
  ((w.contents (.player p)).map (w.getWeight env env.depth)).sum

def getFreeCapacity (p : Nat) : Nat :=
  if (w.player p).cannotPickupItem then 0
  else if (w.player p).hasInfiniteCapacity then 2 ^ 32 - 1
  else ((w.player p).capacity - w.inventoryWeight env p).toNat

def hasCapacity (p : Nat) (item : ThingId) (count : Nat) : Bool :=
  if (w.player p).cannotPickupItem then false
  else if (w.player p).hasInfiniteCapacity ∨ w.getTopParent env item = some (.player p) then true
  else
    let itemWeight :=
      if (w.thing item).isContainer then w.getWeight env env.depth item
      else w.getBaseWeight env item
    let itemWeight :=
      if (w.typeOf env item).stackable then itemWeight * count % 2 ^ 32 else itemWeight
    decide (itemWeight ≤ w.getFreeCapacity env p)

/-- The value of `ret` before the `switch` of `Player::queryAdd`. -/
def dressReturn (it : ItemType) : ReturnValue :=
  let s := it.slotPosition
  if s.head ∨ s.necklace ∨ s.backpack ∨ s.armor ∨ s.legs ∨ s.feet ∨ s.ring then .cannotBeDressed
  else if s.twoHand then .putThisObjectInBothHands
  else if s.right ∨ s.left then
    if ¬ env.classicEquipmentSlots then .cannotBeDressed else .putThisObjectInYourHand
  else .noError

/-- Two items in the hands, with classic equipment slots: `type` is to be added
next to `otherType`. -/
def weaponsReturn (same : Bool) (type otherType : WeaponType) : ReturnValue :=
  if same then .noError
  else if otherType = .shield ∧ type = .shield then .canOnlyUseOneShield
  else if otherType = .none ∨ type = .none ∨ otherType = .shield ∨ otherType = .ammo ∨
      type = .shield ∨ type = .ammo then .noError
  else .canOnlyUseOneWeapon

/-- The cases for the hands, with the item in the other hand. -/
def classicHandReturn (other : Option ThingId) (item : ThingId) (count : Nat) : ReturnValue :=
  let it := w.typeOf env item
  match other with
  | none => .noError
  | some otherItem =>
      if it.slotPosition.twoHand then
        if otherItem ≠ item then .bothHandsNeedToBeFree else .noError
      else if (w.typeOf env otherItem).slotPosition.twoHand then .dropTwoHandedItem
      else
        weaponsReturn (item = otherItem ∧ count = w.count item) it.weaponType
          (w.typeOf env otherItem).weaponType

def rightHandReturn (left : Option ThingId) (item : ThingId) (count : Nat) : ReturnValue :=
  let it := w.typeOf env item
  if ¬ env.classicEquipmentSlots then
    if it.weaponType ≠ .shield then .cannotBeDressed
    else
      match left with
      | none => .noError
      | some leftItem =>
          if (w.typeOf env leftItem).slotPosition.twoHand ∨ it.slotPosition.twoHand then
            .bothHandsNeedToBeFree
          else .noError
  else w.classicHandReturn env left item count

def leftHandReturn (right : Option ThingId) (item : ThingId) (count : Nat) : ReturnValue :=
  let it := w.typeOf env item
  if ¬ env.classicEquipmentSlots then
    if it.weaponType = .none ∨ it.weaponType = .shield then .cannotBeDressed
    else if right.isSome ∧ it.slotPosition.twoHand then .bothHandsNeedToBeFree
    else .noError
  else w.classicHandReturn env right item count

/-- The `switch` of `Player::queryAdd` over the slots. -/
def slotReturn (p : Nat) (index : Int) (item : ThingId) (count : Nat) : ReturnValue :=
  let s := (w.typeOf env item).slotPosition
  let inventory := (w.player p).inventory
  let ret := dressReturn env (w.typeOf env item)
  match index with
  | 1 => if s.head then .noError else ret
  | 2 => if s.necklace then .noError else ret
  | 3 => if s.backpack then .noError else ret
  | 4 => if s.armor then .noError else ret
  | 5 => if s.right then w.rightHandReturn env (inventory 6) item count else ret
  | 6 => if s.left then w.leftHandReturn env (inventory 5) item count else ret
  | 7 => if s.legs then .noError else ret
  | 8 => if s.feet then .noError else ret
  | 9 => if s.ring then .noError else ret
  | 10 => if s.ammo ∨ env.classicEquipmentSlots then .noError else ret
  | 0 => .notEnoughRoom
  | -1 => .notEnoughRoom
  | _ => .notPossible

/-- `getInventoryItem` -/
def inventoryItem (p : Nat) (index : Int) : Option ThingId :=
  if 1 ≤ index ∧ index ≤ 10 then (w.player p).inventory index.toNat else none

def playerQueryAdd (p : Nat) (index : Int) (item : ThingId) (count : Nat)
    (flags : CylinderFlags) : ReturnValue :=
  if flags.childIsOwner then
    if flags.noLimit ∨ w.hasCapacity env p item count then .noError else .notEnoughCapacity
  else if ¬ (w.typeOf env item).isPickupable then .cannotPickup
  else
    let ret := w.slotReturn env p index item count
    if ret ≠ .noError ∧ ret ≠ .notEnoughRoom then ret
    else if ¬ w.hasCapacity env p item count then .notEnoughCapacity
    else
      let ret := env.onPlayerEquip w p item index
      if ret ≠ .noError then ret
      else
        match w.inventoryItem p index with
        | none => ret
        | some inventoryItem =>
            if ¬ (w.typeOf env inventoryItem).stackable ∨
                (w.thing inventoryItem).id ≠ (w.thing item).id then
              match w.getTopParent env item with
              | some (.player _) => .needExchange
              | some (.container k) =>
                  if (w.thing k).maxDepotItems.isSome then .needExchange else .notEnoughRoom
              | _ => .notEnoughRoom
            else ret

/-- What `DepotChest::queryAdd` checks first. -/
def depotIsFull (c item : ThingId) (count : Nat) (flags : CylinderFlags) : Bool :=
  match (w.thing c).maxDepotItems with
  | none => false
  | some maxDepotItems =>
      let addCount := if (w.typeOf env item).stackable ∧ w.count item ≠ count then 1 else 0
      let addCount :=
        if w.getTopParent env item ≠ some (.container c) then
          if (w.thing item).isContainer then w.itemHoldingCount env item + 1 else 1
        else addCount
      !flags.noLimit && maxDepotItems < w.itemHoldingCount env c + addCount

def containerQueryAdd (c : ThingId) (index : Int) (item : ThingId) (count : Nat)
    (flags : CylinderFlags) (actor : Bool) : ReturnValue :=
  if w.depotIsFull env c item count flags then .depotIsFull
  else if flags.childIsOwner then .noError
  else if ¬ (w.typeOf env item).isPickupable then .cannotPickup
  else if item = c then .thisIsImpossible
  else if .container item ∈ w.parents env.depth (w.thing c).parent then .thisIsImpossible
  else if ¬ flags.noLimit ∧ index = indexWhereever ∧
      (w.thing c).maxSize ≤ (w.thing c).itemlist.length then .containerNotEnoughRoom
  else
    match w.getTopParent env c with
    | none => .noError
    | some topParent =>
        if actor ∧ env.notInvited w topParent then .playerIsNotInvited
        else
          match topParent with
          | .player p =>
              w.playerQueryAdd env p indexWhereever item count { flags with childIsOwner := true }
          | .container k => if w.depotIsFull env k item count flags then .depotIsFull else .noError
          -- the top parent of a container is never a tile
          | .tile _ => .noError

/-- What stands in the way of an item on a tile that is not hung up. -/
def blocks (tileItem item : ThingId) : Bool :=
  let iiType := w.typeOf env tileItem
  let it := w.typeOf env item
  iiType.blockSolid && (!iiType.allowPickupable || it.isMagicField || it.blockSolid) &&
    (!it.isPickupable || !iiType.hasHeight || iiType.pickupable || iiType.isBed)

def tileQueryAdd (pos : Position) (item : ThingId) (flags : CylinderFlags) : ReturnValue :=
  match w.tile pos with
  | none => .notPossible
  | some t =>
      let it := w.typeOf env item
      let items := t.downItems ++ t.topItems
      if 0xFFFF ≤ items.length then .notPossible
      else if flags.noLimit then .noError
      else if t.ground = none ∧ ¬ it.isHangable then .notPossible
      else if it.blockSolid ∧ ¬ flags.ignoreBlockCreature ∧ t.creatures.any (!·) then
        .notEnoughRoom
      else if it.isHangable ∧ (env.tileFlags w pos).supportsHangable then
        if items.any fun i => (w.typeOf env i).isHangable then .needExchange else .noError
      else if (t.ground.toList ++ items).any fun i => w.blocks env i item then .notEnoughRoom
      else .noError

def queryAdd (c : Cylinder) (index : Int) (item : ThingId) (count : Nat) (flags : CylinderFlags)
    (actor : Bool) : ReturnValue :=
  match c with
  | .tile pos => w.tileQueryAdd env pos item flags
  | .container c => w.containerQueryAdd env c index item count flags actor
  | .player p => w.playerQueryAdd env p index item count flags

/-! ## How much can be added -/

/-- Room on the stacks of a container. -/
def stackRoom (c item : ThingId) (count : Nat) (flags : CylinderFlags) (items : List ThingId) :
    Nat :=
  (items.map fun i =>
    if i ≠ item ∧ w.equals i (some item) ∧ w.count i < w.stackSize env i ∧
        w.containerQueryAdd env c 0 item count flags false = .noError then
      w.stackSize env i - w.count i
    else 0).sum

def containerQueryMaxCount (c : ThingId) (index : Int) (item : ThingId) (count : Nat)
    (flags : CylinderFlags) : Nat × ReturnValue :=
  if flags.noLimit then (max 1 count, .noError)
  else
    let freeSlots := (w.thing c).maxSize - (w.thing c).itemlist.length
    if (w.typeOf env item).stackable then
      let n :=
        if index = indexWhereever then w.stackRoom env c item count flags (w.thing c).itemlist
        else if index < 0 then 0
        else
          match (w.thing c).itemlist[index.toNat]? with
          | none => 0
          | some destItem =>
              if w.equals item (some destItem) ∧ w.count destItem < w.stackSize env destItem ∧
                  w.containerQueryAdd env c index item count flags false = .noError then
                w.stackSize env destItem - w.count destItem
              else 0
      let maxQueryCount := freeSlots * w.stackSize env item + n
      (maxQueryCount, if maxQueryCount < count then .containerNotEnoughRoom else .noError)
    else (freeSlots, if freeSlots = 0 then .containerNotEnoughRoom else .noError)

/-- What `Player::queryMaxCount` counts for one slot when any will do. -/
def slotRoom (p : Nat) (item : ThingId) (flags : CylinderFlags) (slot : Nat) : Nat :=
  match (w.player p).inventory slot with
  | some inventoryItem =>
      if (w.thing inventoryItem).isContainer then
        ((w.containersIn env.depth [inventoryItem]).map fun c =>
          (w.containerQueryMaxCount env c indexWhereever item (w.count item) flags).1).sum
      else if (w.typeOf env inventoryItem).stackable ∧ w.equals item (some inventoryItem) ∧
          w.count inventoryItem < w.stackSize env inventoryItem then
        let remainder := w.stackSize env inventoryItem - w.count inventoryItem
        if w.playerQueryAdd env p slot item remainder flags = .noError then remainder else 0
      else 0
  | none =>
      if w.playerQueryAdd env p slot item (w.count item) flags = .noError then
        if (w.typeOf env item).stackable then w.stackSize env item else 1
      else 0

def playerQueryMaxCount (p : Nat) (index : Int) (item : ThingId) (count : Nat)
    (flags : CylinderFlags) : Nat × ReturnValue :=
  let atMost (maxQueryCount : Nat) : Nat × ReturnValue :=
    (maxQueryCount, if maxQueryCount < count then .notEnoughRoom else .noError)
  if index = indexWhereever then atMost (slots.map (w.slotRoom env p item flags)).sum
  else
    match w.inventoryItem p index with
    | some destItem =>
        if (w.typeOf env destItem).stackable ∧ w.equals item (some destItem) ∧
            w.count destItem < 100 then
          atMost (100 - w.count destItem)
        else atMost 0
    | none =>
        if w.playerQueryAdd env p index item count flags = .noError then
          (if (w.typeOf env item).stackable then 100 else 1, .noError)
        else atMost 0

def queryMaxCount (c : Cylinder) (index : Int) (item : ThingId) (count : Nat)
    (flags : CylinderFlags) : Nat × ReturnValue :=
  match c with
  | .tile _ => (max 1 count, .noError)
  | .container c => w.containerQueryMaxCount env c index item count flags
  | .player p => w.playerQueryMaxCount env p index item count flags

/-! ## Removing -/

/-- Whether `getThingIndex` finds the item. -/
def isHolding (c : Cylinder) (item : ThingId) : Bool :=
  match c with
  | .tile pos =>
      match w.tile pos with
      | none => false
      | some t =>
          t.ground = some item ||
            (if (w.typeOf env item).alwaysOnTop then t.topItems else t.downItems).contains item
  | .container c => (w.thing c).itemlist.contains item
  | .player p => slots.any fun slot => (w.player p).inventory slot = some item

def queryRemove (c : Cylinder) (item : ThingId) (count : Nat) (flags : CylinderFlags)
    (actor : Bool) : ReturnValue :=
  if ¬ w.isHolding env c item then .notPossible
  else if count = 0 ∨ (w.typeOf env item).stackable ∧ w.count item < count then .notPossible
  else if ¬ (w.typeOf env item).moveable ∧ ¬ flags.ignoreNotMoveable then .notMoveable
  else
    match c with
    | .container c =>
        if actor ∧ (w.getTopParent env c).any (env.notInvited w) then .playerIsNotInvited
        else .noError
    | _ => .noError

/-! ## Where a thing goes -/

/-- The reference parameters of `queryDestination`, with the cylinder it returns. -/
structure Destination where
  cylinder : Cylinder
  index : Int
  destItem : Option ThingId
  flags : CylinderFlags

/-- The tile that the floor change of a tile leads to. -/
def floorChangeTile (pos : Position) : Option Position :=
  let flagsAt (p : Position) : Option TileFlags := (w.tile p).map fun _ => env.tileFlags w p
  let existing (p : Position) : Option Position := (w.tile p).map fun _ => p
  let here := env.tileFlags w pos
  if here.floorChangeDown then
    let dz := pos.z + 1
    if (flagsAt ⟨pos.x, pos.y - 1, dz⟩).any (·.floorChangeSouthAlt) then
      existing ⟨pos.x, pos.y - 2, dz⟩
    else if (flagsAt ⟨pos.x - 1, pos.y, dz⟩).any (·.floorChangeEastAlt) then
      existing ⟨pos.x - 2, pos.y, dz⟩
    else
      match flagsAt ⟨pos.x, pos.y, dz⟩ with
      | none => none
      | some down =>
          let dy := pos.y + (if down.floorChangeNorth then 1 else 0) -
            (if down.floorChangeSouth then 1 else 0) - (if down.floorChangeSouthAlt then 2 else 0)
          let dx := pos.x - (if down.floorChangeEast then 1 else 0) -
            (if down.floorChangeEastAlt then 2 else 0) + (if down.floorChangeWest then 1 else 0)
          existing ⟨dx, dy, dz⟩
  else if here.floorChange then
    let dy := pos.y - (if here.floorChangeNorth then 1 else 0) +
      (if here.floorChangeSouth then 1 else 0) + (if here.floorChangeSouthAlt then 2 else 0)
    let dx := pos.x + (if here.floorChangeEast then 1 else 0) -
      (if here.floorChangeWest then 1 else 0) + (if here.floorChangeEastAlt then 2 else 0)
    existing ⟨dx, dy, pos.z - 1⟩
  else none

def tileQueryDestination (pos : Position) (index : Int) (flags : CylinderFlags) : Destination :=
  let (dest, flags) :=
    match w.floorChangeTile env pos with
    | none => (pos, flags)
    | some dest => (dest, { flags with noLimit := true })
  ⟨.tile dest, index, (w.tile dest).bind fun t => t.downItems.head?, flags⟩

/-- The stack in a container that an item is put on, with its index. -/
def findStack (item : ThingId) : Nat → List ThingId → Option (Nat × ThingId)
  | _, [] => none
  | n, i :: items =>
      if i ≠ item ∧ w.equals i (some item) ∧ w.count i < w.stackSize env i then some (n, i)
      else findStack item (n + 1) items

def containerQueryDestination (c : ThingId) (index : Int) (item : ThingId)
    (destItem : Option ThingId) (flags : CylinderFlags) : Destination :=
  if index = 254 then
    match (w.thing c).parent with
    | some (.container parent) => ⟨.container parent, indexWhereever, none, flags⟩
    | _ => ⟨.container c, indexWhereever, none, flags⟩
  else
    let (index, destItem) :=
      if index = 255 ∨ (w.thing c).maxSize ≤ index then (indexWhereever, none)
      else (index, destItem)
    let destItem :=
      if index < 0 then destItem else ((w.thing c).itemlist[index.toNat]?).or destItem
    match (if index ≠ indexWhereever then destItem.filter fun i => (w.thing i).isContainer
        else none) with
    | some sub => ⟨.container sub, indexWhereever, none, flags⟩
    | none =>
        let here : Destination := ⟨.container c, index, destItem, flags⟩
        if ¬ flags.ignoreAutoStack ∧ (w.typeOf env item).stackable ∧
            (w.thing item).parent ≠ some (.container c) then
          if destItem.any fun i =>
              w.equals i (some item) ∧ w.count i < w.stackSize env i then here
          else
            match w.findStack env item 0 (w.thing c).itemlist with
            | some (n, stack) => ⟨.container c, n, some stack, flags⟩
            | none => here
        else here

/-- The first loop of `Player::queryDestination`: a slot, or the containers to look into. -/
def searchSlots (p : Nat) (item : ThingId) (flags : CylinderFlags) :
    List Nat → List ThingId → Destination ⊕ List ThingId
  | [], containers => .inr containers
  | slot :: rest, containers =>
      match (w.player p).inventory slot with
      | some inventoryItem =>
          let containers' :=
            if (w.thing inventoryItem).isContainer then containers ++ [inventoryItem]
            else containers
          if (w.player p).tradeItem = some inventoryItem ∨ inventoryItem = item then
            searchSlots p item flags rest containers
          else if ¬ flags.ignoreAutoStack ∧ (w.typeOf env item).stackable ∧
              w.playerQueryAdd env p slot item (w.count item) {} = .noError ∧
              w.equals inventoryItem (some item) ∧
              w.count inventoryItem < w.stackSize env inventoryItem then
            .inl ⟨.player p, slot, some inventoryItem, flags⟩
          else searchSlots p item flags rest containers'
      | none =>
          if w.playerQueryAdd env p slot item (w.count item) flags = .noError then
            .inl ⟨.player p, slot, none, flags⟩
          else searchSlots p item flags rest containers

/-- A free place of a container, tried from the first one on. -/
def findFree (c item : ThingId) (flags : CylinderFlags) : Nat → Option Int
  | 0 => none
  | n + 1 =>
      let index : Int := (w.thing c).maxSize - (n + 1)
      if w.containerQueryAdd env c index item (w.count item) flags false = .noError then some index
      else findFree c item flags n

/-- The items of a container when a stack is looked for: a stack with its index, or
the containers among them and how many items were counted. -/
def searchStack (p : Nat) (item : ThingId) :
    Nat → List ThingId → List ThingId → (Nat × ThingId) ⊕ (Nat × List ThingId)
  | n, found, [] => .inr (n, found)
  | n, found, i :: items =>
      if (w.player p).tradeItem = some i ∨ i = item then searchStack p item n found items
      else if w.equals i (some item) ∧ w.count i < w.stackSize env i then .inl (n, i)
      else
        searchStack p item (n + 1) (if (w.thing i).isContainer then found ++ [i] else found) items

/-- The second loop of `Player::queryDestination`, over the containers. -/
def searchContainers (p : Nat) (item : ThingId) (flags : CylinderFlags) :
    Nat → List ThingId → Option Destination
  | 0, _ => none
  | _, [] => none
  | fuel + 1, c :: rest =>
      if flags.ignoreAutoStack ∨ ¬ (w.typeOf env item).stackable then
        match w.findFree env c item flags ((w.thing c).maxSize - (w.thing c).itemlist.length) with
        | some index => some ⟨.container c, index, none, flags⟩
        | none =>
            searchContainers p item flags fuel
              (rest ++ (w.thing c).itemlist.filter fun i => (w.thing i).isContainer)
      else
        match w.searchStack env p item 0 [] (w.thing c).itemlist with
        | .inl (n, stack) => some ⟨.container c, n, some stack, flags⟩
        | .inr (n, found) =>
            if n < (w.thing c).maxSize ∧
                w.containerQueryAdd env c n item (w.count item) flags false = .noError then
              some ⟨.container c, n, none, flags⟩
            else searchContainers p item flags fuel (rest ++ found)

def playerQueryDestination (p : Nat) (index : Int) (item : ThingId) (destItem : Option ThingId)
    (flags : CylinderFlags) : Destination :=
  if index = 0 ∨ index = indexWhereever then
    match w.searchSlots env p item flags slots [] with
    | .inl dest => dest
    | .inr containers =>
        (w.searchContainers env p item flags env.depth containers).getD
          ⟨.player p, index, none, flags⟩
  else
    match w.inventoryItem p index with
    | none => ⟨.player p, index, destItem, flags⟩
    | some destThing =>
        if (w.thing destThing).isContainer then ⟨.container destThing, indexWhereever, none, flags⟩
        else ⟨.player p, index, some destThing, flags⟩

def queryDestination (c : Cylinder) (index : Int) (item : ThingId) (destItem : Option ThingId)
    (flags : CylinderFlags) : Destination :=
  match c with
  | .tile pos => w.tileQueryDestination env pos index flags
  | .container c => w.containerQueryDestination env c index item destItem flags
  | .player p => w.playerQueryDestination env p index item destItem flags

/-- The loop of `Game::internalMoveItem` around `queryDestination`, for at most that
many redirections. -/
def redirect (item : ThingId) : Nat → Destination → Destination
  | 0, d => d
  | n + 1, d =>
      let d' := w.queryDestination env d.cylinder d.index item d.destItem d.flags
      if d'.cylinder = d.cylinder then d' else redirect item n { d' with flags := {} }

end World

end Bruxo
