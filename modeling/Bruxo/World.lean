import Bruxo.ItemAttributes
import Bruxo.Position
import Mathlib.Data.List.Perm.Basic

/-!
# The world of items

Items as objects on a heap, and the cylinders that hold them: tiles, containers
and the inventories of players. The tiles of houses, which add checks of their own,
are not described.

What is not a matter of items is asked of an `Env`: the type table, the flags
of the tiles, the rights in houses and the equip scripts.
-/

namespace Bruxo

/-- The address of an item. -/
abbrev ThingId := Nat

inductive Cylinder where
  | tile (pos : Position)
  | container (i : ThingId)
  | player (p : Nat)
  deriving DecidableEq

/-- An `Item`, with what a `Container` has besides; `maxDepotItems` is what a `DepotChest` has. -/
structure Thing where
  id : UInt16
  data : Item
  parent : Option Cylinder
  isContainer : Bool
  itemlist : List ThingId
  maxSize : Nat
  maxDepotItems : Option Nat := none

structure Tile where
  ground : Option ThingId
  topItems : List ThingId
  downItems : List ThingId
  /-- the creatures on the tile, by whether they are in ghost mode -/
  creatures : List Bool

structure PlayerThings where
  inventory : Nat → Option ThingId
  tradeItem : Option ThingId
  position : Position
  capacity : Int
  cannotPickupItem : Bool
  hasInfiniteCapacity : Bool

structure World where
  thing : ThingId → Thing
  tile : Position → Option Tile
  player : Nat → PlayerThings
  nextId : ThingId

/-- The values of `ReturnValue` that the cylinders use. -/
inductive ReturnValue where
  | noError | notPossible | notEnoughRoom | playerIsNotInvited | notMoveable | dropTwoHandedItem
  | bothHandsNeedToBeFree | canOnlyUseOneWeapon | needExchange | cannotBeDressed
  | putThisObjectInYourHand | putThisObjectInBothHands | containerNotEnoughRoom
  | notEnoughCapacity | cannotPickup | thisIsImpossible | canOnlyUseOneShield | depotIsFull
  deriving DecidableEq

/-- The `cylinderflags_t` that matter for items. -/
structure CylinderFlags where
  noLimit : Bool := false
  ignoreBlockCreature : Bool := false
  childIsOwner : Bool := false
  ignoreNotMoveable : Bool := false
  ignoreAutoStack : Bool := false
  deriving DecidableEq

structure TileFlags where
  floorChange : Bool := false
  floorChangeDown : Bool := false
  floorChangeNorth : Bool := false
  floorChangeSouth : Bool := false
  floorChangeEast : Bool := false
  floorChangeWest : Bool := false
  floorChangeSouthAlt : Bool := false
  floorChangeEastAlt : Bool := false
  supportsHangable : Bool := false
  /-- a teleport, a trash holder or a mailbox, which passes things on -/
  passesOn : Bool := false

/-- What the operations ask besides the items. -/
structure Env where
  items : UInt16 → ItemType
  tileFlags : World → Position → TileFlags
  classicEquipmentSlots : Bool
  /-- `g_moveEvents->onPlayerEquip(player, item, slot, true)` -/
  onPlayerEquip : World → Nat → ThingId → Int → ReturnValue
  /-- only invited players may move the things of the house, and the actor is not -/
  notInvited : World → Cylinder → Bool
  /-- `normal_random(decayTimeMin, decayTimeMax) * 1000` -/
  newDuration : UInt16 → Nat
  /-- a bound for walks up and down the containers -/
  depth : Nat

/-- `INDEX_WHEREEVER` -/
def indexWhereever : Int := -1

/-- `CONST_SLOT_FIRST` to `CONST_SLOT_LAST` -/
def slots : List Nat := List.range' 1 10

namespace World

/-! ## Looking at things -/

variable (env : Env) (w : World)

def typeOf (i : ThingId) : ItemType := env.items (w.thing i).id

def count (i : ThingId) : Nat := (w.thing i).data.count.toNat

def stackSize (i : ThingId) : Nat :=
  if (w.typeOf env i).stackable then (w.typeOf env i).stackSize.toNat else 1

/-- `item->equals(other)` for a pointer that may be null. The maps of custom attributes are compared
by their addresses, and no two items share one. -/
def equals (i : ThingId) (other : Option ThingId) : Bool :=
  match other with
  | none => false
  | some j =>
      (w.thing i).id = (w.thing j).id &&
        Item.sameAttributes (w.thing i).data (w.thing j).data &&
        (i = j || (w.thing j).data.custom.isNone)

/-- The items that a cylinder holds itself. -/
def contents : Cylinder → List ThingId
  | .tile pos =>
      match w.tile pos with
      | none => []
      | some t => t.ground.toList ++ t.topItems ++ t.downItems
  | .container i => (w.thing i).itemlist
  | .player p => slots.filterMap (w.player p).inventory

def getParent : Cylinder → Option Cylinder
  | .tile _ => none
  | .container i => (w.thing i).parent
  | .player p => some (.tile (w.player p).position)

/-- The chain of parents, from a cylinder on. -/
def parents : Nat → Option Cylinder → List Cylinder
  | 0, _ => []
  | _, none => []
  | n + 1, some c => c :: parents n (w.getParent c)

/-- The loop of `Item::getTopParent`, with `prevaux` and `aux`. -/
def topFrom : Nat → Option Cylinder → Cylinder → Cylinder
  | 0, prevaux, aux => prevaux.getD aux
  | n + 1, prevaux, aux =>
      match w.getParent aux with
      | none => prevaux.getD aux
      | some up => topFrom n (some aux) up

def getTopParent (i : ThingId) : Option Cylinder :=
  let self := if (w.thing i).isContainer then some (Cylinder.container i) else none
  match (w.thing i).parent with
  | none => self
  | some aux => some (w.topFrom env.depth self aux)

def getBaseWeight (i : ThingId) : Nat :=
  match (w.thing i).data.intAttrs .weight with
  | some v => (castInt 4 false v).toNat
  | none => (w.typeOf env i).weight

/-- `getWeight`, with the weights in a container added up. -/
def getWeight : Nat → ThingId → Nat
  | 0, i => w.getBaseWeight env i
  | n + 1, i =>
      let weight := w.getBaseWeight env i
      let own := if (w.typeOf env i).stackable then weight * max 1 (w.count i) else weight
      own + ((w.thing i).itemlist.map (getWeight n)).sum

/-- The containers that are read when everything in a list of containers is visited. -/
def containersIn : Nat → List ThingId → List ThingId
  | 0, _ => []
  | _, [] => []
  | n + 1, c :: queue =>
      c :: containersIn n (queue ++ (w.thing c).itemlist.filter fun i => (w.thing i).isContainer)

/-- `getItemHoldingCount` -/
def itemHoldingCount (c : ThingId) : Nat :=
  ((w.containersIn env.depth [c]).map fun c => (w.thing c).itemlist.length).sum

/-! ## Counting -/

/-- How many items of a type a cylinder holds itself. -/
def amount (c : Cylinder) (id : UInt16) : Nat :=
  ((w.contents c).map fun i => if (w.thing i).id = id then w.count i else 0).sum

end World

end Bruxo
