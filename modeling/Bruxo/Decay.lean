import Bruxo.ContainerWeight

/-!
# Items that decay

`Game::startDecay`, `internalDecayItem`, `checkDecay` and `cleanup`, with what lists an item
for decay besides: `Game::internalAddItem`, `Game::transformItem` and `Item::clone`. An item
waits in `toDecayItems` and then in one of the buckets of `decayItems`; each listing counts a
reference on it.

What the cylinders and the random numbers say to a call is told by an `Answer`. The clone of a
container is a clone of it and one of each thing in it. `onRemoved`, which gives a unique id
back, and the notifications are left out.
-/

namespace Bruxo.Decay

open ContainerWeight (substitute newCount)

abbrev ItemId := Nat

/-- `EVENT_DECAY_BUCKETS` -/
def decayBuckets : Nat := 4

instance : NeZero decayBuckets := ⟨by decide⟩

/-- `parent` is whether a cylinder holds the item, `parentRemoved` what that says to `isRemoved`,
`isVirtual` whether the virtual cylinder is the parent instead, and `hasAttributes` whether
`attributes` is set. -/
structure DecayItem where
  id : UInt16
  data : Item
  hasAttributes : Bool
  parent : Bool
  parentRemoved : Bool
  isVirtual : Bool

/-- What a cylinder does with an item that `addThing` gives it: it keeps it, does nothing, or
releases it, as a tile does with a field where there is one that cannot be replaced. -/
inductive AddThing where
  | kept (removed : Bool)
  | refused
  | released
  deriving DecidableEq, Inhabited

structure Answer where
  /-- `normal_random` of the decay times of a type, times 1000 -/
  duration : Nat
  /-- `getThingIndex(item) != -1` -/
  hasIndex : Bool
  canTransform : Bool
  /-- `addThing` of an item that `transformItem` removed before -/
  backThing : AddThing
  queryRemove : Bool
  canRemove : Bool
  /-- a thing that is taken as a whole, whatever the count -/
  whole : Bool
  queryAdd : Bool
  /-- what `queryDestination` found, where the item equals it -/
  toItem : Option ItemId
  maxQueryCount : Nat
  addThing : AddThing
  deriving Inhabited

/-- `owned` is whether the reference that `CreateItem` counted is still held. -/
structure Game where
  item : ItemId → DecayItem
  nextId : ItemId
  referenceCounter : ItemId → Int
  owned : ItemId → Bool
  toDecayItems : List ItemId
  decayItems : Fin decayBuckets → List ItemId
  lastBucket : Fin decayBuckets
  toReleaseItems : List ItemId
  answers : Nat → Answer

/-- `EVENT_DECAYINTERVAL` -/
def decayInterval : Int := 250

/-- `EVENT_DECAYINTERVAL * EVENT_DECAY_BUCKETS` -/
def decayRound : Int := decayInterval * decayBuckets

/-! ## Items -/

variable (items : UInt16 → ItemType)

/-- The attributes that the constructor sets. -/
def newData (type count : UInt16) (duration : Nat) : Item :=
  let it := items type
  let data := { Item.bare with count := newCount it count }
  let data :=
    if it.fluid then data.setFluidType count.toNat
    else if !it.stackable && it.charges ≠ 0 then
      data.setCharges (if count ≠ 0 then count.toNat else castInt 2 false it.charges)
    else data
  if duration ≠ 0 then data.setDuration duration else data

/-- An integer attribute that is set makes `attributes`. -/
def DecayItem.put (t : DecayItem) (data : Item) : DecayItem :=
  { t with
    data := data
    hasAttributes := t.hasAttributes || IntAttr.all.any fun a => (data.intAttrs a).isSome }

def newItem (type count : UInt16) (duration : Nat) : DecayItem :=
  ({ id := type, data := Item.bare, hasAttributes := false, parent := false,
     parentRemoved := false, isVirtual := false } : DecayItem).put (newData items type count duration)

/-- `Item::CreateItem` -/
def createItem (type count : UInt16) (duration : Nat) : Option DecayItem :=
  let it := items type
  if it.group = .deprecated then none
  else
    let count := if it.stackable && count == 0 then 1 else count
    if it.id ≠ 0 then
      if it.isDepot || it.isContainer || it.isTeleport || it.isMagicField || it.isDoor ||
          it.isTrashHolder || it.isMailbox || it.isBed then
        some (newItem items type 0 duration)
      else some (newItem items (substitute it type) count duration)
    else none

def setDefaultSubtype (it : ItemType) (data : Item) : Item :=
  let data := data.setItemCount 1
  if it.charges ≠ 0 then
    if it.stackable then data.setItemCount it.charges
    else data.setCharges (castInt 2 false it.charges)
  else data

namespace Game

variable (s : Game)

def typeOf (i : ItemId) : ItemType := items (s.item i).id

def setItem (i : ItemId) (t : DecayItem) : Game := { s with item := Function.update s.item i t }

def setData (i : ItemId) (data : Item) : Game := s.setItem i ((s.item i).put data)

def setParent (i : ItemId) (parent removed : Bool) : Game :=
  s.setItem i { s.item i with parent := parent, parentRemoved := removed, isVirtual := false }

def getDuration (i : ItemId) : Int := castInt 4 false ((s.item i).data.getIntAttr .duration)

/-- `getDecaying() == DECAYING_TRUE` -/
def decaying (i : ItemId) : Bool := (s.item i).data.getDecaying = 1

def setDecaying (i : ItemId) (state : Int) : Game :=
  s.setData i ((s.item i).data.setIntAttr .decayState state)

def getDecayTo (i : ItemId) : Int :=
  match (s.item i).data.intAttrs .decayTo with
  | some v => castInt 4 true v
  | none => (s.typeOf items i).decayTo

def isRemoved (i : ItemId) : Bool :=
  if (s.item i).parent then (s.item i).parentRemoved else !(s.item i).isVirtual

def canDecay (i : ItemId) : Bool :=
  !s.isRemoved i &&
    !(s.getDecayTo items i < 0 ||
      (s.typeOf items i).decayTimeMin = 0 && (s.typeOf items i).decayTimeMax = 0) &&
    ((s.item i).data.intAttrs .uniqueId).isNone

def setID (i : ItemId) (newId : UInt16) (duration : Nat) : Game :=
  let t := s.item i
  s.setItem i ({ t with id := newId }.put
    (t.data.setID (items t.id) (items newId) duration))

def setSubType (i : ItemId) (n : Int) : Game :=
  s.setData i ((s.item i).data.setSubType (s.typeOf items i) n)

def nextAnswer : Game := { s with answers := fun n => s.answers (n + 1) }

@[simp] theorem nextAnswer_item : s.nextAnswer.item = s.item := rfl

@[simp] theorem setItem_item (i : ItemId) (t : DecayItem) :
    (s.setItem i t).item = Function.update s.item i t := rfl

/-! ## References -/

/-- A new item, on which one reference is counted. -/
def create (t : DecayItem) : Game :=
  { s.setItem s.nextId t with
    nextId := s.nextId + 1
    referenceCounter := Function.update s.referenceCounter s.nextId 1
    owned := Function.update s.owned s.nextId true }

/-- `ReleaseItem` -/
def release (i : ItemId) : Game := { s with toReleaseItems := s.toReleaseItems ++ [i] }

/-- `ReleaseItem` by who held the item. -/
def letGo (i : ItemId) : Game := { s.release i with owned := Function.update s.owned i false }

/-- The three lines that list an item for decay. -/
def register (i : ItemId) : Game :=
  { s.setDecaying i 1 with
    referenceCounter := Function.update s.referenceCounter i (s.referenceCounter i + 1)
    toDecayItems := i :: s.toDecayItems }

/-- `cylinder->addThing(item)` -/
def addThing (i : ItemId) : AddThing → Game
  | .kept removed => s.setParent i true removed
  | .refused => s
  | .released => (s.setParent i false false).letGo i

/-- `cylinder->replaceThing(index, newItem)` and the release of the old item. -/
def replaceThing (i newItem : ItemId) : Game :=
  ((s.setParent newItem true (s.item i).parentRemoved).setParent i false false).letGo i

/-- `Item::clone`; a type that gives no item gives no clone. -/
def clone (i : ItemId) : Option (ItemId × Game) :=
  let t := s.item i
  match createItem items t.id (UInt16.ofNat t.data.count.toNat) (s.answers 0).duration with
  | none => none
  | some new =>
      let j := s.nextId
      let s := s.nextAnswer.create new
      if t.hasAttributes then
        let s := s.setItem j
          { new with data := { t.data with count := new.data.count }, hasAttributes := true }
        some (j, if 0 < s.getDuration j then s.register j else s)
      else some (j, s)

/-! ## Removing and transforming -/

/-- A part of a stack is taken, and the rest stays where it is. -/
def takesPart (i : ItemId) (count : Nat) (whole : Bool) : Bool :=
  (s.typeOf items i).stackable && count ≠ (s.item i).data.count.toNat && !whole

/-- `cylinder->removeThing(item, count)` -/
def removeThing (i : ItemId) (count : Nat) (whole : Bool) : Game :=
  if s.takesPart items i count whole then
    s.setData i ((s.item i).data.setItemCount ((s.item i).data.count.toNat - count))
  else s.setParent i false false

/-- `internalRemoveItem`; `count` is `getItemCount()` where none is given. -/
def internalRemoveItem (i : ItemId) (count : Nat) : Game :=
  let a := s.answers 0
  let s := s.nextAnswer
  if !(s.item i).parent then s
  else if !a.queryRemove then s
  else if !a.canRemove then s
  else
    let s := s.removeThing items i count a.whole
    if s.isRemoved i then
      let s :=
        if s.canDecay items i then
          { s with decayItems := Function.update s.decayItems 0 ((s.decayItems 0).filter (· ≠ i)) }
        else s
      s.letGo i
    else s

/-- `transformItem` from a type that is always on top to one that is not, or back. -/
def changeLayer (i : ItemId) (newId : UInt16) (newCount : Int) (a : Answer) :
    Game × Option ItemId :=
  let s := (s.setParent i false false).setID items i newId a.duration
  let s := if newCount ≠ -1 then s.setSubType items i (castInt 2 false newCount) else s
  let s := s.addThing i a.backThing
  if !(s.item i).parent then (s.letGo i, none) else (s, some i)

/-- `transformItem` of a stack or of charges to none. -/
def transformEmpty (again : Game → ItemId → UInt16 → Game × Option ItemId) (i : ItemId)
    (newId : UInt16) (a : Answer) : Game × Option ItemId :=
  let t := s.item i
  if (items t.id).stackable then (s.internalRemoveItem items i t.data.count.toNat, none)
  else
    let newItemId := if (items t.id).id = (items newId).id then s.getDecayTo items i else newId.toNat
    if newItemId < 0 then (s.internalRemoveItem items i t.data.count.toNat, none)
    else if newItemId ≠ newId.toNat then
      match createItem items (UInt16.ofNat newItemId.toNat) 1 a.duration with
      | none => (s, none)
      | some new => ((s.create new).replaceThing i s.nextId, some s.nextId)
    else again s i newId

/-- `transformItem` where the item stays. -/
def transformUpdate (i : ItemId) (newId : UInt16) (newCount : Int) (a : Answer) : Game :=
  let t := s.item i
  let newType := items newId
  let curType := items t.id
  let subType := Item.getSubType (items t.id) t.data
  let s :=
    if curType.id ≠ newType.id ∧ newType.group ≠ curType.group then
      s.setData i (setDefaultSubtype curType (s.item i).data)
    else s
  let itemId := if curType.id ≠ newType.id then newId else t.id
  let count := if newCount ≠ -1 ∧ newType.hasSubType then newCount else subType
  (s.setID items i itemId a.duration).setSubType items i (castInt 2 false count)

/-- `transformItem` where a new item replaces the old one. -/
def transformReplace (i : ItemId) (newId : UInt16) (newCount : Int) (a : Answer) :
    Game × Option ItemId :=
  let count := if newCount = -1 then 0 else UInt16.ofNat (castInt 2 false newCount).toNat
  match createItem items newId count a.duration with
  | none => (s, none)
  | some new =>
      let j := s.nextId
      let s := (s.create new).replaceThing i j
      (if 0 < s.getDuration j ∧ ¬ s.decaying j then s.register j else s, some j)

/-- `transformItem`, with what it does where it calls itself. -/
def transformStep (again : Game → ItemId → UInt16 → Game × Option ItemId) (i : ItemId)
    (newId : UInt16) (newCount : Int) : Game × Option ItemId :=
  let a := s.answers 0
  let s := s.nextAnswer
  let t := s.item i
  let subType := Item.getSubType (items t.id) t.data
  if t.id = newId ∧ (newCount = -1 ∨ (newCount = subType ∧ newCount ≠ 0)) then (s, some i)
  else if !t.parent then (s, if t.isVirtual then some i else none)
  else if !a.hasIndex then (s, some i)
  else if !a.canTransform then (s, some i)
  else
    let newType := items newId
    let curType := items t.id
    if newType.id = 0 then (s, some i)
    else if curType.alwaysOnTop ≠ newType.alwaysOnTop then s.changeLayer items i newId newCount a
    else if curType.type = newType.type then
      if newCount = 0 ∧ (curType.stackable ∨ (t.data.intAttrs .charges).isSome) then
        s.transformEmpty items again i newId a
      else (s.transformUpdate items i newId newCount a, some i)
    else s.transformReplace items i newId newCount a

/-- Without a count `transformItem` does not come to call itself. -/
def transformPlain (i : ItemId) (newId : UInt16) : Game × Option ItemId :=
  s.transformStep items (fun s i _ => (s, some i)) i newId (-1)

def transformItem (i : ItemId) (newId : UInt16) (newCount : Int) : Game × Option ItemId :=
  s.transformStep items (transformPlain items) i newId newCount

/-! ## Adding -/

def getStackSize (i : ItemId) : Int :=
  if (s.typeOf items i).stackable then (s.typeOf items i).stackSize.toNat else 1

/-- The stack `t` takes what it can, and how many there are to add then. -/
def mergeInto (i t : ItemId) (a : Answer) : Game × Int :=
  let count : Int := (s.item t).data.count.toNat
  let m : Int := min (s.item i).data.count.toNat a.maxQueryCount
  let n := min (castInt 4 false (s.getStackSize items t - count)) m
  ((s.setID items t (s.item t).id a.duration).setSubType items t (castInt 2 false (count + n)),
    castInt 4 true (m - n))

/-- The clone for what a stack did not take. -/
def splitOff (i : ItemId) (count : Int) : Option (ItemId × Game) :=
  (s.clone items i).map fun (j, s) =>
    (j, s.setData j ((s.item j).data.setItemCount (castInt 1 false count).toNat))

/-- The last lines of `internalAddItem`. -/
def registerAdded (i : ItemId) : Game := if 0 < s.getDuration i then s.register i else s

/-- `internalAddItem`, and whether it gave no error; the number bounds how deep it calls
itself. -/
def internalAddItem : Nat → Game → ItemId → Option (Game × Bool)
  | 0, _, _ => none
  | n + 1, s, i =>
      let a := s.answers 0
      let s := s.nextAnswer
      if !a.queryAdd then some (s, false)
      else
        match (if (s.typeOf items i).stackable then a.toItem else none) with
        | none => some ((s.addThing i a.addThing).registerAdded i, true)
        | some t =>
            let merged := s.mergeInto items i t a
            if 0 < merged.2 then
              if ((s.item i).data.count.toNat : Int) ≠ merged.2 then
                match merged.1.splitOff items i merged.2 with
                | none => some (merged.1.registerAdded i, true)
                | some (j, s) =>
                    match internalAddItem n s j with
                    | none => none
                    | some (s, true) => some (s.registerAdded i, true)
                    | some (s, false) => some ((s.letGo j).registerAdded i, true)
              else some ((merged.1.addThing i a.addThing).registerAdded i, true)
            else some ((merged.1.letGo i).registerAdded i, true)

/-! ## Decay -/

/-- `internalDecayItem`, with the `startDecay` that it calls. -/
def internalDecayItem (startDecay : Game → Option ItemId → Option Game) (i : ItemId) :
    Option Game :=
  let decayTo := s.getDecayTo items i
  if 0 < decayTo then
    let (s, newItem) := s.transformItem items i (UInt16.ofNat (castInt 2 false decayTo).toNat) (-1)
    startDecay s newItem
  else some (s.internalRemoveItem items i (s.item i).data.count.toNat)

/-- `startDecay`; the number bounds how deep it calls itself. -/
def startDecay : Nat → Game → Option ItemId → Option Game
  | 0, _, _ => none
  | _ + 1, s, none => some s
  | n + 1, s, some i =>
      if !s.canDecay items i then some s
      else if s.decaying i then some s
      else if 0 < s.getDuration i then some (s.register i)
      else s.internalDecayItem items (startDecay n) i

def setBucket (bucket : Fin decayBuckets) (l : List ItemId) : Game :=
  { s with decayItems := Function.update s.decayItems bucket l }

/-- `decayItems[bucket].push_back(item)` -/
def pushBack (bucket : Fin decayBuckets) (i : ItemId) : Game := s.setBucket bucket (s.decayItems bucket ++ [i])

def decrementReferenceCounter (i : ItemId) : Game :=
  { s with referenceCounter := Function.update s.referenceCounter i (s.referenceCounter i - 1) }

/-- Where `cleanup` lists a pending item. -/
def enqueue (i : ItemId) : Game :=
  let dur := s.getDuration i
  if decayRound ≤ dur then s.pushBack s.lastBucket i
  else s.pushBack (s.lastBucket + 1 + Fin.ofNat decayBuckets (dur / 1000).toNat) i

/-- The loop of `cleanup` over `ToReleaseItems`. -/
def decrementReleased : Game :=
  { s.toReleaseItems.foldl decrementReferenceCounter s with toReleaseItems := [] }

/-- The loop of `cleanup` over `toDecayItems`. -/
def enqueuePending : Game := { s.toDecayItems.foldl enqueue s with toDecayItems := [] }

def cleanup : Game := s.decrementReleased.enqueuePending

/-- The loop of `checkDecay` over the rest of the bucket, behind what it passed over. -/
def checkBucket (n : Nat) (bucket : Fin decayBuckets) : List ItemId → List ItemId → Game → Option Game
  | [], _, s => some s
  | i :: rest, passed, s =>
      if !s.canDecay items i then
        checkBucket n bucket rest passed
          (((s.setDecaying i 0).release i).setBucket bucket (passed ++ rest))
      else
        let duration : Int := castInt 4 true (s.getDuration i)
        let decreaseTime := min decayRound duration
        let duration := duration - decreaseTime
        let data := (s.item i).data
        let s := s.setData i
          (data.setIntAttr .duration (data.getIntAttr .duration - decreaseTime))
        if duration ≤ 0 then
          match (s.setBucket bucket (passed ++ rest)).internalDecayItem items (startDecay items n)
            i with
          | none => none
          | some s => checkBucket n bucket rest passed (s.release i)
        else if duration < decayRound then
          let s := s.setBucket bucket (passed ++ rest)
          let newBucket := bucket + Fin.ofNat decayBuckets ((duration + decayInterval / 2) / 1000).toNat
          if newBucket = bucket then
            match s.internalDecayItem items (startDecay items n) i with
            | none => none
            | some s => checkBucket n bucket rest passed (s.release i)
          else
            checkBucket n bucket rest passed (s.pushBack newBucket i)
        else checkBucket n bucket rest (passed ++ [i]) s

def checkDecay (n : Nat) : Option Game :=
  let bucket := s.lastBucket + 1
  match checkBucket items n bucket (s.decayItems bucket) [] s with
  | none => none
  | some s => some { s with lastBucket := bucket }.cleanup

/-! ## What happens to items -/

/-- The functions above, with what other code does: it makes items, changes them, and lets go of
those that a cylinder held. The numbers bound how deep a function calls itself. -/
inductive Op where
  | createItem (type count : UInt16) (duration : Nat)
  | answers (f : Nat → Answer)
  | change (i : ItemId) (t : DecayItem)
  | letGo (i : ItemId)
  | drop (i : ItemId)
  | clone (i : ItemId)
  | startDecay (n : Nat) (i : ItemId)
  | internalAddItem (n : Nat) (i : ItemId)
  | transformItem (i : ItemId) (newId : UInt16) (newCount : Int)
  | internalRemoveItem (i : ItemId) (count : Nat)
  | checkDecay (n : Nat)
  | cleanup

/-- The destructor of a container lets go of an item. -/
def drop (s : Game) (i : ItemId) : Game :=
  { (s.setParent i false false).decrementReferenceCounter i with
    owned := Function.update s.owned i false }

def Op.run (items : UInt16 → ItemType) (s : Game) : Op → Option Game
  | .createItem type count duration => (Decay.createItem items type count duration).map s.create
  | .answers f => some { s with answers := f }
  | .change i t => some (s.setItem i t)
  | .letGo i => some ((s.setParent i false false).letGo i)
  | .drop i => some (s.drop i)
  | .clone i => (s.clone items i).map Prod.snd
  | .startDecay n i => s.startDecay items n (some i)
  | .internalAddItem n i => (Game.internalAddItem items n s i).map Prod.fst
  | .transformItem i newId newCount => some (s.transformItem items i newId newCount).1
  | .internalRemoveItem i count => some (s.internalRemoveItem items i count)
  | .checkDecay n => s.checkDecay items n
  | .cleanup => some s.cleanup

/-- What the callers see to: a cylinder holds an item only with the first reference on it, and
`internalAddItem` is given an item that no cylinder holds. -/
def Op.Called (s : Game) : Op → Prop
  | .change i t => t.parent = true → s.owned i = true
  | .letGo i | .drop i => s.owned i = true
  | .startDecay _ i => i < s.nextId
  | .internalAddItem _ i => s.owned i = true ∧ (s.item i).parent = false ∧
      ∀ n t, (s.answers n).toItem = some t → (s.item t).parent = true
  | _ => True

/-- No items yet. -/
def start (item : ItemId → DecayItem) : Game where
  item := item
  nextId := 0
  referenceCounter _ := 0
  owned _ := false
  toDecayItems := []
  decayItems _ := []
  lastBucket := 0
  toReleaseItems := []
  answers _ := default

/-- The states that runs from no items reach by steps with a property. -/
inductive Reachable (items : UInt16 → ItemType) (P : Game → Op → Prop) : Game → Prop where
  | start (item : ItemId → DecayItem) (hitem : ∀ i, (item i).parent = false) :
      Reachable items P (start item)
  | step {s s' : Game} (op : Op) (h : Reachable items P s) (hcalled : op.Called s)
      (hp : P s op) (hrun : op.run items s = some s') : Reachable items P s'

end Game

end Bruxo.Decay
