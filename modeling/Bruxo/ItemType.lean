import Mathlib.Tactic.TypeStar

/-!
# Item types

The part of `ItemType` (`items.h`) that items and the cylinders that hold them
look at, with the defaults of the declaration.
-/

namespace Bruxo

/-- `itemgroup_t` -/
inductive ItemGroup where
  | none | ground | container | weapon | ammunition | armor | charges | teleport | magicField
  | writeable | key | splash | fluid | door | deprecated
  deriving DecidableEq

/-- `ItemTypes_t` -/
inductive ItemKind where
  | none | depot | mailbox | trashHolder | container | door | magicField | teleport | bed | key
  | rune | podium
  deriving DecidableEq

/-- `WeaponType_t` -/
inductive WeaponType where
  | none | sword | club | axe | shield | distance | wand | ammo | quiver
  deriving DecidableEq

/-- The bits of `TILESTATE_FLOORCHANGE`. -/
inductive FloorChange where
  | down | north | south | east | west | southAlt | eastAlt
  deriving DecidableEq

def FloorChange.all : List FloorChange := [.down, .north, .south, .east, .west, .southAlt, .eastAlt]

/-- The bits of `slotPosition`. -/
structure SlotPosition where
  head : Bool := false
  necklace : Bool := false
  backpack : Bool := false
  armor : Bool := false
  right : Bool := true
  left : Bool := true
  legs : Bool := false
  feet : Bool := false
  ring : Bool := false
  ammo : Bool := false
  twoHand : Bool := false

structure ItemType where
  id : UInt16 := 0
  clientId : UInt16 := 0
  group : ItemGroup := .none
  type : ItemKind := .none
  stackable : Bool := false
  weight : Nat := 0
  maxItems : Nat := 8
  decayTimeMin : Nat := 0
  decayTimeMax : Nat := 0
  charges : Nat := 0
  decayTo : Int := -1
  slotPosition : SlotPosition := {}
  weaponType : WeaponType := .none
  stackSize : UInt8 := 100
  alwaysOnTopOrder : UInt8 := 0
  hasHeight : Bool := false
  floorChange : FloorChange → Bool := fun _ => false
  blockSolid : Bool := false
  blockPathFind : Bool := false
  isVertical : Bool := false
  isHorizontal : Bool := false
  allowPickupable : Bool := false
  replaceable : Bool := true
  pickupable : Bool := false
  moveable : Bool := false
  alwaysOnTop : Bool := false
  isHangable : Bool := false
  stopTime : Bool := false

namespace ItemType

def isGroundTile (it : ItemType) : Bool := it.group = .ground

def isSplash (it : ItemType) : Bool := it.group = .splash

def isFluidContainer (it : ItemType) : Bool := it.group = .fluid

def isContainer (it : ItemType) : Bool := it.group = .container

def isDepot (it : ItemType) : Bool := it.type = .depot

def isMailbox (it : ItemType) : Bool := it.type = .mailbox

def isTrashHolder (it : ItemType) : Bool := it.type = .trashHolder

def isDoor (it : ItemType) : Bool := it.type = .door

def isTeleport (it : ItemType) : Bool := it.type = .teleport

def isMagicField (it : ItemType) : Bool := it.type = .magicField

def isBed (it : ItemType) : Bool := it.type = .bed

def isPickupable (it : ItemType) : Bool := it.allowPickupable || it.pickupable

/-- The types whose sub-type is a fluid. -/
def fluid (it : ItemType) : Bool := it.isFluidContainer || it.isSplash

def hasSubType (it : ItemType) : Bool := it.fluid || it.stackable || it.charges ≠ 0

end ItemType

end Bruxo
