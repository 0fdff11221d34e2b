import Bruxo.Things

/-!
# Moving items

`Game::internalMoveItem` (`game.cpp`). What it asks scripts and the player who moves
the item for is left out, and so are the notifications, but for the one that lets a
teleport, a trash holder or a mailbox take what it gets.
-/

namespace Bruxo

namespace World

/-! ## The pieces of `internalMoveItem` -/

/-- `getThingIndex` -/
def getThingIndex (env : Env) (w : World) (c : Cylinder) (item : ThingId) : Int :=
  match c with
  | .tile pos =>
      match w.tile pos with
      | none => -1
      | some t =>
          let first := t.ground.toList.length
          if t.ground = some item then 0
          else if (w.typeOf env item).alwaysOnTop then
            if item ∈ t.topItems then first + t.topItems.idxOf item else -1
          else if item ∈ t.downItems then
            first + t.topItems.length + t.creatures.length + t.downItems.idxOf item
          else -1
  | .container c =>
      if item ∈ (w.thing c).itemlist then (w.thing c).itemlist.idxOf item else -1
  | .player p =>
      match slots.find? fun slot => (w.player p).inventory slot = some item with
      | none => -1
      | some slot => slot

variable (env : Env) (w : World)

/-- What `postAddNotification` makes of the tile. -/
def passesOn (c : Cylinder) : Bool :=
  match c with
  | .tile pos => (env.tileFlags w pos).passesOn
  | _ => false

/-- The exchange with the item in the way: the return value so far, the world, and the
`toItem` that is left. -/
def exchange (fromCylinder : Cylinder) (item : ThingId) (count : Nat) (toCylinder : Cylinder)
    (index : Int) (toItem : ThingId) (flags : CylinderFlags) (actor : Bool) :
    ReturnValue × World × Option ThingId :=
  let toCount := w.count toItem
  let ret := w.queryAdd env fromCylinder (w.getThingIndex env fromCylinder item) toItem toCount {}
    false
  if ret ≠ .noError then (ret, w, some toItem)
  else
    let (maxExchangeQueryCount, retExchangeMaxCount) :=
      w.queryMaxCount env fromCylinder indexWhereever toItem toCount {}
    if retExchangeMaxCount ≠ .noError ∧ maxExchangeQueryCount = 0 then
      (retExchangeMaxCount, w, some toItem)
    else if w.queryRemove env toCylinder toItem toCount flags actor = .noError then
      let w' := (w.removeThing env toCylinder toItem toCount).addThingAnywhere env fromCylinder toItem
      (w'.queryAdd env toCylinder index item count flags actor, w', none)
    else (.noError, w, some toItem)

/-- How many of `m` items a stack takes; the difference is unsigned. -/
def mergeCount (item : ThingId) (toItem : Option ThingId) (m : Nat) : Nat :=
  match toItem with
  | none => 0
  | some j =>
      if w.equals item toItem then
        if w.stackSize env j < w.count j then m else min (w.stackSize env j - w.count j) m
      else 0

/-- The `updateThing` of the stack that takes some of the items. -/
def mergeInto (toCylinder : Cylinder) (item : ThingId) (toItem : Option ThingId) (n : Nat) : World :=
  match toItem with
  | none => w
  | some j => if w.equals item toItem then w.updateThing env toCylinder j (w.count j + n) else w

/-- From the `removeThing` to the `addThing`, with the item that was added. -/
def transfer (fromCylinder toCylinder : Cylinder) (index : Int) (item : ThingId)
    (toItem : Option ThingId) (m : Nat) : World × Option ThingId :=
  let w := w.removeThing env fromCylinder item m
  if (w.typeOf env item).stackable then
    let n := w.mergeCount env item toItem m
    let w := w.mergeInto env toCylinder item toItem n
    if 0 < m - n then
      ((w.clone item (m - n)).addThing env toCylinder index w.nextId, some w.nextId)
    else (w, none)
  else (w.addThing env toCylinder index item, some item)

/-- An item with a duration starts to decay. -/
def startDecaying (moveItem : Option ThingId) : World :=
  match moveItem with
  | none => w
  | some i =>
      let data := (w.thing i).data
      if 0 < castInt 4 false (data.getIntAttr .duration) ∧ data.getDecaying ≠ 1 then
        w.setData i (data.setIntAttr .decayState 1)
      else w

inductive MoveOutcome where
  | done (ret : ReturnValue) (w : World)
  /-- a teleport, a trash holder or a mailbox has the item now -/
  | passedOn (w : World)
  /-- a null pointer is followed -/
  | nullItem

/-- `internalMoveItem` from `queryMaxCount` on. -/
def moveToPlace (fromCylinder : Cylinder) (item : ThingId) (count : Nat) (toCylinder : Cylinder)
    (index : Int) (toItem : Option ThingId) (flags : CylinderFlags) (actor : Bool)
    (tradeItem : Option ThingId) : MoveOutcome :=
  let (maxQueryCount, retMaxCount) := w.queryMaxCount env toCylinder index item count flags
  if retMaxCount ≠ .noError ∧ maxQueryCount = 0 then .done retMaxCount w
  else
    let stackable := (w.typeOf env item).stackable
    let m := if stackable then min count maxQueryCount else maxQueryCount
    let ret := w.queryRemove env fromCylinder item m flags actor
    if ret ≠ .noError then .done ret w
    else if tradeItem.any fun t => .container t ∈ w.parents env.depth (some toCylinder) then
      .done .notEnoughRoom w
    else
      let (w', moveItem) := w.transfer env fromCylinder toCylinder index item toItem m
      if w'.passesOn env toCylinder then .passedOn w'
      else if stackable ∧ maxQueryCount < count then .done retMaxCount w'
      else .done ret (w'.startDecaying moveItem)

def internalMoveItem (fromCylinder toCylinder : Cylinder) (index : Int) (item : ThingId)
    (count : Nat) (flags : CylinderFlags) (actor : Bool) (tradeItem : Option ThingId) :
    MoveOutcome :=
  let d := w.redirect env item 16 ⟨toCylinder, index, none, flags⟩
  if d.destItem = some item then .done .noError w
  else
    let ret := w.queryAdd env d.cylinder d.index item count d.flags actor
    if ret = .needExchange then
      match d.destItem with
      | none => .nullItem
      | some toItem =>
          let (ret, w', toItem') :=
            w.exchange env fromCylinder item count d.cylinder d.index toItem d.flags actor
          if toItem' = none ∧ w'.passesOn env fromCylinder then .passedOn w'
          else if ret ≠ .noError then .done ret w'
          else
            w'.moveToPlace env fromCylinder item count d.cylinder d.index toItem' d.flags actor
              tradeItem
    else if ret ≠ .noError then .done ret w
    else
      w.moveToPlace env fromCylinder item count d.cylinder d.index d.destItem d.flags actor tradeItem

end World

end Bruxo
