import Bruxo.Lib.Rollup
import Bruxo.World
import Mathlib.Data.UInt

/-!
# The weight of containers

`Container` (`container.cpp`) keeps the weight of what it holds: every operation that
changes what an item in it weighs adds the difference here and to every container around
it. `Item::getWeight` and `Container::clone` are those of `item.cpp` and `container.cpp`;
weights are `uint32_t` and wrap around.
-/

namespace Bruxo.ContainerWeight

/-- The items, `totalWeight` of those that are containers, and the next free address. -/
structure Store where
  thing : ThingId → Thing
  totalWeight : ThingId → UInt32
  nextId : ThingId

/-! ## Weights -/

variable (items : UInt16 → ItemType)

def getBaseWeight (t : Thing) : UInt32 :=
  match t.data.intAttrs .weight with
  | some v => UInt32.ofNat (castInt 4 false v).toNat
  | none => UInt32.ofNat (items t.id).weight

/-- `Item::getWeight` -/
def ownWeight (t : Thing) : UInt32 :=
  let weight := getBaseWeight items t
  if (items t.id).stackable then weight * UInt32.ofNat (max 1 t.data.count.toNat) else weight

/-- The virtual `getWeight`, of a container with what is in it. -/
def Store.getWeight (s : Store) (i : ThingId) : UInt32 :=
  if (s.thing i).isContainer then ownWeight items (s.thing i) + s.totalWeight i
  else ownWeight items (s.thing i)

/-! ## Items of a type -/

/-- The type that `CreateItem` takes instead for what is worn or used up. -/
def substitute (it : ItemType) (type : UInt16) : UInt16 :=
  if 2210 ≤ it.id ∧ it.id ≤ 2212 then type - 3
  else if it.id = 2215 ∨ it.id = 2216 then type - 2
  else if 2202 ≤ it.id ∧ it.id ≤ 2206 then type - 37
  else if it.id = 2640 then 6132
  else if it.id = 6301 then 6300
  else type

/-- The count that the constructor of `Item` sets. -/
def newCount (it : ItemType) (count : UInt16) : UInt8 :=
  if it.isFluidContainer || it.isSplash then 1
  else if it.stackable then
    if count ≠ 0 then UInt8.ofNat count.toNat
    else if it.charges ≠ 0 then UInt8.ofNat it.charges
    else 1
  else 1

def newItem (type count : UInt16) : Thing :=
  { id := type, data := { Item.bare with count := newCount (items type) count }, parent := none,
    isContainer := false, itemlist := [], maxSize := 0 }

def newContainer (type : UInt16) (size : Nat) : Thing :=
  { newItem items type 0 with isContainer := true, maxSize := size }

/-- `Item::CreateItem`; of the attributes that the constructor sets none weighs anything. -/
def createItem (type count : UInt16) : Option Thing :=
  let it := items type
  if it.group = .deprecated then none
  else
    let count := if it.stackable && count == 0 then 1 else count
    if it.id ≠ 0 then
      if it.isDepot then some (newContainer items type 30)
      else if it.isContainer then some (newContainer items type it.maxItems)
      else if it.isTeleport || it.isMagicField || it.isDoor || it.isTrashHolder || it.isMailbox ||
          it.isBed then
        some (newItem items type 0)
      else some (newItem items (substitute it type) count)
    else none

/-! ## The operations of `Container` -/

namespace Store

variable (s : Store)

def setThing (i : ThingId) (t : Thing) : Store :=
  { s with thing := Function.update s.thing i t }

def setParent (i : ThingId) (parent : Option Cylinder) : Store :=
  s.setThing i { s.thing i with parent := parent }

def setItems (c : ThingId) (itemlist : List ThingId) : Store :=
  s.setThing c { s.thing c with itemlist := itemlist }

/-- `getParentContainer` -/
def parentOf (i : ThingId) : Option ThingId :=
  match (s.thing i).parent with
  | some (.container c) => some c
  | _ => none

/-- `updateItemWeight`, which goes on with the container around this one; there are no more
of them than items. -/
def updateItemWeight (c : ThingId) (diff : UInt32) : Store :=
  { s with totalWeight := Rollup.bumpUp s.parentOf diff (s.nextId + 1) c s.totalWeight }

def addItem (c item : ThingId) : Store :=
  (s.setItems c ((s.thing c).itemlist ++ [item])).setParent item (some (.container c))

def pushFront (c item : ThingId) : Store :=
  (s.setParent item (some (.container c))).setItems c (item :: (s.thing c).itemlist)

def internalAddThing (c item : ThingId) : Store :=
  let s := s.pushFront c item
  s.updateItemWeight c (s.getWeight items item)

def addThing (c : ThingId) (index : Int) (item : ThingId) : Store :=
  if (s.thing c).maxSize ≤ index then s
  else
    let s := s.pushFront c item
    s.updateItemWeight c (s.getWeight items item)

def addItemBack (c item : ThingId) : Store :=
  let s := s.addItem c item
  s.updateItemWeight c (s.getWeight items item)

/-- `duration` is what `normal_random` gives for the decay times of the new type. -/
def updateThing (c item : ThingId) (itemId : UInt16) (count : UInt32) (duration : Nat) : Store :=
  if item ∈ (s.thing c).itemlist then
    let oldWeight := s.getWeight items item
    let t := s.thing item
    let data := t.data.setID (items t.id) (items itemId) duration
    let s := s.setThing item
      { t with id := itemId, data := data.setSubType (items itemId) (count.toNat % 65536) }
    s.updateItemWeight c (-oldWeight + s.getWeight items item)
  else s

def replaceThing (c : ThingId) (index : Nat) (item : ThingId) : Store :=
  match (s.thing c).itemlist[index]? with
  | none => s
  | some replacedItem =>
      let s := (s.setItems c ((s.thing c).itemlist.set index item)).setParent item
        (some (.container c))
      let s := s.updateItemWeight c
        (-s.getWeight items replacedItem + s.getWeight items item)
      s.setParent replacedItem none

def removeThing (c item : ThingId) (count : UInt32) : Store :=
  if item ∈ (s.thing c).itemlist then
    let t := s.thing item
    if (items t.id).stackable ∧ count.toNat ≠ t.data.count.toNat then
      let newCount := (max 0 (castInt 4 true (t.data.count.toNat - count.toNat))).toNat
      let oldWeight := s.getWeight items item
      let s := s.setThing item { t with data := t.data.setItemCount newCount }
      s.updateItemWeight c (-oldWeight + s.getWeight items item)
    else
      let s := s.updateItemWeight c (-s.getWeight items item)
      let s := s.setParent item none
      s.setItems c ((s.thing c).itemlist.erase item)
  else s

/-- A new object at the next address. -/
def push (t : Thing) : ThingId × Store :=
  (s.nextId,
    { thing := Function.update s.thing s.nextId t
      totalWeight := Function.update s.totalWeight s.nextId 0
      nextId := s.nextId + 1 })

/-- `Item::clone`: the attributes are copied over those of the constructor. -/
def itemClone (i : ThingId) : Option (ThingId × Store) :=
  let t := s.thing i
  (createItem items t.id t.data.count.toUInt16).map fun new =>
    s.push { new with data := { t.data.cloned with count := new.data.count } }

/-- The virtual `clone`, of a container with clones of everything in it, down `n` levels.
Where `CreateItem` makes nothing, or no container, the source goes astray. -/
def clone : Nat → ThingId → Store → Option (ThingId × Store)
  | 0, _, _ => none
  | n + 1, i, s =>
      match s.itemClone items i with
      | none => none
      | some (c, s) =>
          if ¬ (s.thing i).isContainer then some (c, s)
          else if ¬ (s.thing c).isContainer then none
          else
            let fill := (s.thing i).itemlist.foldlM (fun s k =>
              (clone n k s).map fun (k', s) => s.addItem c k') s
            fill.map fun s =>
              (c, { s with totalWeight := Function.update s.totalWeight c (s.totalWeight i) })

end Store

inductive Op where
  | create (type count : UInt16)
  | addThing (c : ThingId) (index : Int) (item : ThingId)
  | addItemBack (c item : ThingId)
  | internalAddThing (c item : ThingId)
  | updateThing (c item : ThingId) (itemId : UInt16) (count : UInt32) (duration : Nat)
  | replaceThing (c : ThingId) (index : Nat) (item : ThingId)
  | removeThing (c item : ThingId) (count : UInt32)
  | clone (i : ThingId)

def Store.step (s : Store) : Op → Store
  | .create type count => ((createItem items type count).map fun t => (s.push t).2).getD s
  | .addThing c index item => s.addThing items c index item
  | .addItemBack c item => s.addItemBack items c item
  | .internalAddThing c item => s.internalAddThing items c item
  | .updateThing c item itemId count duration => s.updateThing items c item itemId count duration
  | .replaceThing c index item => s.replaceThing items c index item
  | .removeThing c item count => s.removeThing items c item count
  | .clone i => ((Store.clone items (s.nextId + 1) i s).map Prod.snd).getD s

namespace Store

/-! ## Reading a store after a write -/

section Reading

variable {s : Store} {i j c item : ThingId} {l : List ThingId} {parent : Option Cylinder}

theorem setThing_thing (t : Thing) :
    (s.setThing i t).thing j = if j = i then t else s.thing j := by
  simp only [setThing, Function.update_apply]

@[simp] theorem setParent_itemlist :
    ((s.setParent i parent).thing j).itemlist = (s.thing j).itemlist := by
  simp only [setParent, setThing_thing]
  split
  · next h => rw [h]
  · rfl

@[simp] theorem setParent_isContainer :
    ((s.setParent i parent).thing j).isContainer = (s.thing j).isContainer := by
  simp only [setParent, setThing_thing]
  split
  · next h => rw [h]
  · rfl

@[simp] theorem setParent_ownWeight :
    ownWeight items ((s.setParent i parent).thing j) = ownWeight items (s.thing j) := by
  simp only [setParent, setThing_thing]
  split
  · next h => rw [h]; rfl
  · rfl

theorem setParent_parentOf :
    (s.setParent item (some (.container c))).parentOf =
      Function.update s.parentOf item (some c) := by
  funext k
  by_cases hk : k = item <;>
    simp only [parentOf, setParent, setThing_thing, Function.update_apply, hk, if_true, if_false]

theorem setParent_none_parentOf :
    (s.setParent item none).parentOf = Function.update s.parentOf item none := by
  funext k
  by_cases hk : k = item <;>
    simp only [parentOf, setParent, setThing_thing, Function.update_apply, hk, if_true, if_false]

@[simp] theorem setItems_itemlist :
    ((s.setItems c l).thing j).itemlist = if j = c then l else (s.thing j).itemlist := by
  simp only [setItems, setThing_thing]
  split <;> rfl

@[simp] theorem setItems_isContainer :
    ((s.setItems c l).thing j).isContainer = (s.thing j).isContainer := by
  simp only [setItems, setThing_thing]
  split
  · next h => rw [h]
  · rfl

@[simp] theorem setItems_ownWeight :
    ownWeight items ((s.setItems c l).thing j) = ownWeight items (s.thing j) := by
  simp only [setItems, setThing_thing]
  split
  · next h => rw [h]; rfl
  · rfl

theorem setThing_parentOf {t : Thing} (h : t.parent = (s.thing i).parent) :
    (s.setThing i t).parentOf = s.parentOf := by
  funext k
  by_cases hk : k = i
  · simp only [parentOf, setThing_thing, hk, if_true, h]
  · simp only [parentOf, setThing_thing, hk, if_false]

theorem setItems_parentOf : (s.setItems c l).parentOf = s.parentOf := setThing_parentOf rfl

end Reading

/-! ## The invariant -/

def itemlists (s : Store) (c : ThingId) : List ThingId := (s.thing c).itemlist

def own (s : Store) (i : ThingId) : UInt32 := ownWeight items (s.thing i)

/-- The items are a forest of containers. -/
structure Forest (s : Store) : Prop where
  linked : Rollup.Linked s.parentOf s.itemlists
  plain : ∀ i, (s.thing i).isContainer = false → (s.thing i).itemlist = [] ∧ s.totalWeight i = 0
  blank : ∀ i, s.nextId ≤ i → (s.thing i).isContainer = false ∧ s.parentOf i = none

/-- Every container keeps the weight of what is directly in it. -/
def Weighed (s : Store) : Prop :=
  ∀ c, s.totalWeight c = ((s.thing c).itemlist.map (s.getWeight items)).sum

structure Inv (s : Store) : Prop extends Forest s where
  weighed : s.Weighed items

section Preserved

variable {items} {s s' : Store} {i c item : ThingId}

theorem Forest.getWeight_eq (h : s.Forest) (i : ThingId) :
    s.getWeight items i = s.own items i + s.totalWeight i := by
  cases hc : (s.thing i).isContainer with
  | true => simp only [getWeight, hc, if_true, own]
  | false => simp only [getWeight, hc, Bool.false_eq_true, if_false, own, (h.plain i hc).2, add_zero]

theorem Forest.weighed_iff (h : s.Forest) :
    s.Weighed items ↔ Rollup.Cached s.itemlists (s.own items) s.totalWeight := by
  have hweight : s.getWeight items = fun i => s.own items i + s.totalWeight i :=
    funext h.getWeight_eq
  rw [Weighed, hweight]
  rfl

theorem Forest.mem_iff (h : s.Forest) : item ∈ (s.thing c).itemlist ↔ s.parentOf item = some c :=
  h.linked.mem_iff c item

theorem Forest.lt_nextId (h : s.Forest) (hp : s.parentOf item = some c) : item < s.nextId := by
  by_contra hlt
  rw [(h.blank item (Nat.le_of_not_lt hlt)).2] at hp
  cases hp

theorem Forest.container (h : s.Forest) (hp : s.parentOf item = some c) :
    (s.thing c).isContainer = true := by
  by_contra hc
  have hmem := h.mem_iff.mpr hp
  rw [(h.plain c (by simpa using hc)).1] at hmem
  cases hmem

theorem Forest.short (h : s.Forest) (c : ThingId) :
    Rollup.Short s.parentOf (s.nextId + 1) c := by
  have hshort := Rollup.short_of_card h.linked.acyclic (Finset.range s.nextId) (c := c)
    fun y p _ hp => Finset.mem_range.mpr (h.lt_nextId hp)
  rwa [Finset.card_range] at hshort

/-- `updateItemWeight` makes up for what was changed in one container. The walk may go by
other parents than before, as long as they are the same ones from that container up. -/
theorem Inv.updateItemWeight (h : s.Inv items) {d : UInt32}
    (hparent : ∀ y, Rollup.Above s.parentOf c y → s.parentOf y = s'.parentOf y)
    (htotal : s'.totalWeight = s.totalWeight) (hnext : s'.nextId = s.nextId)
    (hne : ∀ y, y ≠ c → (s'.thing y).itemlist = (s.thing y).itemlist)
    (hnodup : (s'.thing c).itemlist.Nodup)
    (hself : ∀ k ∈ (s'.thing c).itemlist, ¬ Rollup.Above s.parentOf c k)
    (hoff : ∀ k, (∀ p, s.parentOf k = some p → p ≠ c) → s'.own items k = s.own items k)
    (hc : s.totalWeight c + d =
      ((s'.thing c).itemlist.map fun i => s'.own items i + s.totalWeight i).sum) :
    Rollup.Cached s'.itemlists (s'.own items) (s'.updateItemWeight c d).totalWeight := by
  simp only [Store.updateItemWeight, htotal, hnext]
  rw [← Rollup.bumpUp_congr hparent]
  refine Rollup.Cached.bump h.linked (h.short c) hne hnodup hself (fun y hy => ?_) hc
  rw [h.weighed_iff.mp h.weighed y]
  refine congrArg List.sum (List.map_congr_left fun k hk => ?_)
  rw [hoff k fun p hp => ?_]
  rw [(h.linked.mem_iff y k).mp hk] at hp
  cases hp
  exact hy

theorem Forest.above_container (h : s.Forest) {y : ThingId}
    (hc : (s.thing c).isContainer = true) (hy : Rollup.Above s.parentOf c y) :
    (s.thing y).isContainer = true := by
  induction hy with
  | refl => exact hc
  | tail _ hp _ => exact h.container hp

theorem Forest.updateItemWeight_plain (h : s.Forest) {d : UInt32}
    (hc : (s.thing c).isContainer = true) (hi : (s.thing i).isContainer = false) :
    (s.updateItemWeight c d).totalWeight i = s.totalWeight i := by
  simp only [Store.updateItemWeight]
  rw [Rollup.bumpUp_apply h.linked.acyclic (h.short c), if_neg]
  intro hup
  rw [h.above_container hc hup] at hi
  cases hi

/-- The walk changes nothing but the totals of containers. -/
theorem Forest.updateItemWeight (h : s.Forest) {d : UInt32}
    (hc : (s.thing c).isContainer = true) : (s.updateItemWeight c d).Forest where
  linked := h.linked
  plain i hi := ⟨(h.plain i hi).1, (h.updateItemWeight_plain hc hi).trans (h.plain i hi).2⟩
  blank := h.blank

/-! ## Putting in -/

/-- `item` was put into `c`, at one end or the other. -/
structure Attached (items : UInt16 → ItemType) (s s' : Store) (c item : ThingId) : Prop where
  parent : s'.parentOf = Function.update s.parentOf item (some c)
  perm : (s'.thing c).itemlist.Perm (item :: (s.thing c).itemlist)
  itemlist_ne : ∀ j, j ≠ c → (s'.thing j).itemlist = (s.thing j).itemlist
  isContainer : ∀ j, (s'.thing j).isContainer = (s.thing j).isContainer
  own : ∀ j, s'.own items j = s.own items j
  totalWeight : s'.totalWeight = s.totalWeight
  nextId : s'.nextId = s.nextId

theorem pushFront_attached : Attached items s (s.pushFront c item) c item where
  parent := by rw [pushFront, setItems_parentOf, setParent_parentOf]
  perm := by simp only [pushFront, setItems_itemlist, if_true, List.Perm.refl]
  itemlist_ne j hj := by simp only [pushFront, setItems_itemlist, hj, if_false, setParent_itemlist]
  isContainer j := by simp only [pushFront, setItems_isContainer, setParent_isContainer]
  own j := by simp only [Store.own, pushFront, setItems_ownWeight, setParent_ownWeight]
  totalWeight := rfl
  nextId := rfl

theorem addItem_attached : Attached items s (s.addItem c item) c item where
  parent := by rw [addItem, setParent_parentOf, setItems_parentOf]
  perm := by
    simp only [addItem, setParent_itemlist, setItems_itemlist, if_true]
    exact List.perm_append_singleton item _
  itemlist_ne j hj := by simp only [addItem, setItems_itemlist, hj, if_false, setParent_itemlist]
  isContainer j := by simp only [addItem, setItems_isContainer, setParent_isContainer]
  own j := by simp only [Store.own, addItem, setItems_ownWeight, setParent_ownWeight]
  totalWeight := rfl
  nextId := rfl

/-- What callers of the operations that put `item` into `c` see to: the item is in no
container, and `c` is not in the item. -/
structure Fits (s : Store) (c item : ThingId) : Prop where
  container : (s.thing c).isContainer = true
  allocated : item < s.nextId
  loose : s.parentOf item = none
  acyclic : ¬ Rollup.Above s.parentOf c item

theorem Forest.attach (h : s.Forest) (hfit : Fits s c item) (ha : Attached items s s' c item) :
    s'.Forest where
  linked := by
    rw [ha.parent]
    exact h.linked.attach hfit.loose hfit.acyclic ha.itemlist_ne ha.perm
  plain i hi := by
    rw [ha.isContainer] at hi
    have hne : i ≠ c := by
      rintro rfl
      rw [hfit.container] at hi
      cases hi
    rw [ha.itemlist_ne i hne, ha.totalWeight]
    exact h.plain i hi
  blank i hi := by
    rw [ha.nextId] at hi
    rw [ha.isContainer, ha.parent,
      Function.update_of_ne (Nat.ne_of_gt (Nat.lt_of_lt_of_le hfit.allocated hi))]
    exact h.blank i hi

theorem Inv.attach (h : s.Inv items) (hfit : Fits s c item) (ha : Attached items s s' c item) :
    (s'.updateItemWeight c (s'.getWeight items item)).Inv items := by
  have hforest := h.toForest.attach hfit ha
  have hc : (s'.thing c).isContainer = true := by rw [ha.isContainer]; exact hfit.container
  have hup := hforest.updateItemWeight (d := s'.getWeight items item) hc
  refine ⟨hup, hup.weighed_iff.mpr ?_⟩
  refine h.updateItemWeight (fun y hy => ?_) ha.totalWeight ha.nextId ha.itemlist_ne
    (hforest.linked.nodup c) (fun k hk => ?_) (fun k _ => ha.own k) ?_
  · have hne : y ≠ item := fun heq => hfit.acyclic (heq ▸ hy)
    rw [ha.parent, Function.update_of_ne hne]
  · rcases List.mem_cons.mp (ha.perm.mem_iff.mp hk) with rfl | hk
    · exact hfit.acyclic
    · exact h.linked.not_above_child (h.mem_iff.mp hk)
  · rw [(ha.perm.map _).sum_eq, List.map_cons, List.sum_cons, hforest.getWeight_eq,
      ha.totalWeight, h.weighed_iff.mp h.weighed c, add_comm]
    simp only [ha.own, itemlists]

theorem internalAddThing_inv (h : s.Inv items) (hfit : Fits s c item) :
    (s.internalAddThing items c item).Inv items :=
  h.attach hfit pushFront_attached

theorem addThing_inv {index : Int} (h : s.Inv items) (hfit : Fits s c item) :
    (s.addThing items c index item).Inv items := by
  rw [addThing]
  split
  · exact h
  · exact h.attach hfit pushFront_attached

theorem addItemBack_inv (h : s.Inv items) (hfit : Fits s c item) :
    (s.addItemBack items c item).Inv items :=
  h.attach hfit addItem_attached

/-! ## Changing what is in -/

/-- An item of `c` was given another id or count. -/
theorem Inv.setThing (h : s.Inv items) (hmem : item ∈ (s.thing c).itemlist) {t : Thing}
    (hparent : t.parent = (s.thing item).parent) (hlist : t.itemlist = (s.thing item).itemlist)
    (hclass : t.isContainer = (s.thing item).isContainer) :
    ((s.setThing item t).updateItemWeight c
      (-s.getWeight items item + (s.setThing item t).getWeight items item)).Inv items := by
  have hp : (s.setThing item t).parentOf = s.parentOf := setThing_parentOf hparent
  have hl : ∀ j, ((s.setThing item t).thing j).itemlist = (s.thing j).itemlist := by
    intro j
    rw [setThing_thing]
    split
    · next hj => rw [hj, hlist]
    · rfl
  have hi : ∀ j, ((s.setThing item t).thing j).isContainer = (s.thing j).isContainer := by
    intro j
    rw [setThing_thing]
    split
    · next hj => rw [hj, hclass]
    · rfl
  have hown : ∀ j, j ≠ item → (s.setThing item t).own items j = s.own items j := by
    intro j hj
    rw [Store.own, setThing_thing, if_neg hj, Store.own]
  have hforest : (s.setThing item t).Forest := by
    refine ⟨?_, fun j hj => ?_, fun j hj => ?_⟩
    · have hlists : (s.setThing item t).itemlists = s.itemlists := funext hl
      rw [hp, hlists]
      exact h.linked
    · rw [hi] at hj
      rw [hl]
      exact h.plain j hj
    · rw [hi, hp]
      exact h.blank j hj
  have hpc := h.mem_iff.mp hmem
  have hup := hforest.updateItemWeight (c := c)
    (d := -s.getWeight items item + (s.setThing item t).getWeight items item)
    (by rw [hi]; exact h.container hpc)
  refine ⟨hup, hup.weighed_iff.mpr ?_⟩
  refine h.updateItemWeight (fun y _ => by rw [hp]) rfl rfl (fun y _ => hl y)
    (hforest.linked.nodup c) (fun k hk => ?_) (fun k hk => hown k fun heq => ?_) ?_
  · rw [hl] at hk
    exact h.linked.not_above_child (h.mem_iff.mp hk)
  · exact hk c (heq ▸ hpc) rfl
  · -- the summand of `item` is the only one that differs
    obtain ⟨l, hperm⟩ : ∃ l, (s.thing c).itemlist.Perm (item :: l) :=
      ⟨_, List.perm_cons_erase hmem⟩
    have hnot := (List.nodup_cons.mp (hperm.nodup_iff.mp (h.linked.nodup c))).1
    have hrest : (l.map fun i => (s.setThing item t).own items i + s.totalWeight i) =
        l.map fun i => s.own items i + s.totalWeight i :=
      List.map_congr_left fun k hk => by rw [hown k fun heq => hnot (heq ▸ hk)]
    rw [hl, (hperm.map _).sum_eq, List.map_cons, List.sum_cons, hrest,
      h.weighed_iff.mp h.weighed c]
    simp only [itemlists]
    rw [(hperm.map _).sum_eq, List.map_cons, List.sum_cons, h.getWeight_eq, hforest.getWeight_eq]
    have htotal : (s.setThing item t).totalWeight = s.totalWeight := rfl
    rw [htotal]
    abel

theorem updateThing_inv {itemId : UInt16} {count : UInt32} {duration : Nat} (h : s.Inv items) :
    (s.updateThing items c item itemId count duration).Inv items := by
  rw [updateThing]
  split
  · next hmem => exact h.setThing hmem rfl rfl rfl
  · exact h

/-! ## Taking out -/

/-- `item` was taken out of `c`. -/
structure Detached (items : UInt16 → ItemType) (s s' : Store) (c item : ThingId) : Prop where
  parent : s'.parentOf = Function.update s.parentOf item none
  perm : (s.thing c).itemlist.Perm (item :: (s'.thing c).itemlist)
  itemlist_ne : ∀ j, j ≠ c → (s'.thing j).itemlist = (s.thing j).itemlist
  isContainer : ∀ j, (s'.thing j).isContainer = (s.thing j).isContainer
  own : ∀ j, s'.own items j = s.own items j
  totalWeight : s'.totalWeight = s.totalWeight
  nextId : s'.nextId = s.nextId

theorem setItems_detached {l : List ThingId} (hperm : (s.thing c).itemlist.Perm (item :: l)) :
    Detached items s ((s.setParent item none).setItems c l) c item where
  parent := by rw [setItems_parentOf, setParent_none_parentOf]
  perm := by simpa only [setItems_itemlist, if_true] using hperm
  itemlist_ne j hj := by simp only [setItems_itemlist, hj, if_false, setParent_itemlist]
  isContainer j := by simp only [setItems_isContainer, setParent_isContainer]
  own j := by simp only [Store.own, setItems_ownWeight, setParent_ownWeight]
  totalWeight := rfl
  nextId := rfl

theorem Forest.detach (h : s.Forest) (hp : s.parentOf item = some c)
    (hd : Detached items s s' c item) : s'.Forest where
  linked := by
    rw [hd.parent]
    exact h.linked.detach hp hd.itemlist_ne hd.perm
  plain i hi := by
    rw [hd.isContainer] at hi
    have hne : i ≠ c := by
      rintro rfl
      rw [h.container hp] at hi
      cases hi
    rw [hd.itemlist_ne i hne, hd.totalWeight]
    exact h.plain i hi
  blank i hi := by
    rw [hd.nextId] at hi
    rw [hd.isContainer, hd.parent, Function.update_apply]
    refine ⟨(h.blank i hi).1, ?_⟩
    split
    · rfl
    · exact (h.blank i hi).2

theorem Inv.detach (h : s.Inv items) (hp : s.parentOf item = some c)
    (hd : Detached items s s' c item) :
    (s'.updateItemWeight c (-s.getWeight items item)).Inv items := by
  have hforest := h.toForest.detach hp hd
  have hup := hforest.updateItemWeight (d := -s.getWeight items item)
    (by rw [hd.isContainer]; exact h.container hp)
  refine ⟨hup, hup.weighed_iff.mpr ?_⟩
  refine h.updateItemWeight (fun y hy => ?_) hd.totalWeight hd.nextId hd.itemlist_ne
    (hforest.linked.nodup c) (fun k hk => ?_) (fun k _ => hd.own k) ?_
  · have hne : y ≠ item := fun heq => h.linked.not_above_child hp (heq ▸ hy)
    rw [hd.parent, Function.update_of_ne hne]
  · exact h.linked.not_above_child (h.mem_iff.mp (hd.perm.mem_iff.mpr (.tail _ hk)))
  · simp only [hd.own]
    rw [h.weighed_iff.mp h.weighed c, itemlists, (hd.perm.map _).sum_eq, List.map_cons,
      List.sum_cons, h.getWeight_eq]
    abel

/-- The weight is taken off before the item goes, which does not matter. -/
theorem updateItemWeight_setParent {d : UInt32} (h : s.Forest) (hp : s.parentOf item = some c) :
    (s.updateItemWeight c d).setParent item none =
      (s.setParent item none).updateItemWeight c d := by
  have hwalk : Rollup.bumpUp s.parentOf d (s.nextId + 1) c s.totalWeight =
      Rollup.bumpUp (s.setParent item none).parentOf d (s.nextId + 1) c s.totalWeight := by
    refine Rollup.bumpUp_congr fun y hy => ?_
    have hne : y ≠ item := fun heq => h.linked.not_above_child hp (heq ▸ hy)
    rw [setParent_none_parentOf, Function.update_of_ne hne]
  simp only [Store.updateItemWeight, setParent, Store.setThing] at hwalk ⊢
  rw [hwalk]

theorem updateItemWeight_setItems {d : UInt32} {l : List ThingId} :
    (s.updateItemWeight c d).setItems c l = (s.setItems c l).updateItemWeight c d := by
  have hwalk := setItems_parentOf (s := s) (c := c) (l := l)
  simp only [Store.updateItemWeight, setItems, Store.setThing] at hwalk ⊢
  rw [hwalk]

theorem removeThing_inv {count : UInt32} (h : s.Inv items) :
    (s.removeThing items c item count).Inv items := by
  rw [removeThing]
  split
  · next hmem =>
      simp only
      split
      · exact h.setThing hmem rfl rfl rfl
      · have hp := h.mem_iff.mp hmem
        rw [updateItemWeight_setParent h.toForest hp, updateItemWeight_setItems]
        refine h.detach hp (setItems_detached ?_)
        have hlist : (((s.setParent item none).updateItemWeight c
            (-s.getWeight items item)).thing c).itemlist = (s.thing c).itemlist :=
          setParent_itemlist
        rw [hlist]
        exact List.perm_cons_erase hmem
  · exact h

variable (items) in
/-- What was replaced is gone before the new item comes, as far as the forest goes. -/
theorem replace_forest {index : Nat} {replacedItem : ThingId} (h : s.Forest)
    (hfit : Fits s c item) (hget : (s.thing c).itemlist[index]? = some replacedItem)
    {s' : Store} (hs' : s' = (((s.setItems c ((s.thing c).itemlist.set index item)).setParent item
      (some (.container c))).setParent replacedItem none)) :
    s'.Forest ∧ s'.parentOf =
        Function.update (Function.update s.parentOf item (some c)) replacedItem none ∧
      (s'.thing c).itemlist.Perm (item :: (s.thing c).itemlist.eraseIdx index) ∧
      (s.thing c).itemlist.Perm (replacedItem :: (s.thing c).itemlist.eraseIdx index) ∧
      (∀ j, j ≠ c → (s'.thing j).itemlist = (s.thing j).itemlist) ∧
      (∀ j, (s'.thing j).isContainer = (s.thing j).isContainer) ∧
      ∀ j, s'.own items j = s.own items j := by
  obtain ⟨hlt, hget⟩ := List.getElem?_eq_some_iff.mp hget
  have hp : s.parentOf replacedItem = some c :=
    h.mem_iff.mp (hget ▸ List.getElem_mem hlt)
  have hne : item ≠ replacedItem := by
    rintro rfl
    rw [hfit.loose] at hp
    cases hp
  have hold : (s.thing c).itemlist.Perm (replacedItem :: (s.thing c).itemlist.eraseIdx index) := by
    rw [← hget]
    exact (List.getElem_cons_eraseIdx_perm hlt).symm
  have hnew : (s'.thing c).itemlist.Perm (item :: (s.thing c).itemlist.eraseIdx index) := by
    subst hs'
    simp only [setParent_itemlist, setItems_itemlist, if_true]
    exact List.set_perm_cons_eraseIdx hlt item
  have hparent : s'.parentOf =
      Function.update (Function.update s.parentOf item (some c)) replacedItem none := by
    subst hs'
    rw [setParent_none_parentOf, setParent_parentOf, setItems_parentOf]
  have hlists : ∀ j, j ≠ c → (s'.thing j).itemlist = (s.thing j).itemlist := by
    subst hs'
    intro j hj
    simp only [setParent_itemlist, setItems_itemlist, hj, if_false]
  have hclass : ∀ j, (s'.thing j).isContainer = (s.thing j).isContainer := by
    subst hs'
    intro j
    simp only [setParent_isContainer, setItems_isContainer]
  have hown : ∀ j, s'.own items j = s.own items j := by
    subst hs'
    intro j
    simp only [Store.own, setParent_ownWeight, setItems_ownWeight]
  refine ⟨?_, hparent, hnew, hold, hlists, hclass, hown⟩
  obtain ⟨mid, hd⟩ : ∃ mid, Detached items s mid c replacedItem := ⟨_, setItems_detached hold⟩
  have hmid := h.detach hp hd
  have hchain : ∀ y, Rollup.Above s.parentOf c y → y ≠ replacedItem :=
    fun y hy heq => h.linked.not_above_child hp (heq ▸ hy)
  have hmidlist := List.Perm.cons_inv (hd.perm.symm.trans hold)
  have hfit' : mid.Fits c item := by
    refine ⟨?_, hd.nextId ▸ hfit.allocated, ?_, fun hup => hfit.acyclic ?_⟩
    · rw [hd.isContainer]
      exact hfit.container
    · rw [hd.parent, Function.update_of_ne hne]
      exact hfit.loose
    · refine (Rollup.above_congr fun y hy => ?_).mpr hup
      rw [hd.parent, Function.update_of_ne (hchain y hy)]
  have hattached : Attached items mid s' c item := by
    refine ⟨?_, hnew.trans (hmidlist.symm.cons item),
      fun j hj => (hlists j hj).trans (hd.itemlist_ne j hj).symm,
      fun j => (hclass j).trans (hd.isContainer j).symm,
      fun j => (hown j).trans (hd.own j).symm, ?_, ?_⟩
    · rw [hparent, hd.parent, Function.update_comm hne]
    · subst hs'
      exact hd.totalWeight.symm
    · subst hs'
      exact hd.nextId.symm
  exact hmid.attach hfit' hattached

theorem replaceThing_inv {index : Nat} (h : s.Inv items) (hfit : Fits s c item) :
    (s.replaceThing items c index item).Inv items := by
  rw [replaceThing]
  split
  · exact h
  · next replacedItem hget =>
      obtain ⟨hforest, hparent, hnew, hold, hlists, hclass, hown⟩ :=
        replace_forest items h.toForest hfit hget rfl
      generalize hs0 : (s.setItems c ((s.thing c).itemlist.set index item)).setParent item
        (some (.container c)) = s0 at *
      have hweight : ∀ j, s0.getWeight items j = s.getWeight items j := by
        subst hs0
        intro j
        simp only [getWeight, setParent_isContainer, setItems_isContainer, setParent_ownWeight,
          setItems_ownWeight]
        rfl
      have hp := h.mem_iff.mp (hold.mem_iff.mpr (.head _))
      have hchain : ∀ y, Rollup.Above s.parentOf c y → y ≠ item ∧ y ≠ replacedItem :=
        fun y hy => ⟨fun heq => hfit.acyclic (heq ▸ hy),
          fun heq => h.linked.not_above_child hp (heq ▸ hy)⟩
      have hfinal : ∀ y, Rollup.Above s.parentOf c y →
          s.parentOf y = (s0.setParent replacedItem none).parentOf y := by
        intro y hy
        rw [hparent, Function.update_of_ne (hchain y hy).2, Function.update_of_ne (hchain y hy).1]
      have hwalk (d : UInt32) : (s0.updateItemWeight c d).setParent replacedItem none =
          (s0.setParent replacedItem none).updateItemWeight c d := by
        have hfirst : ∀ y, Rollup.Above s.parentOf c y → s.parentOf y = s0.parentOf y := by
          intro y hy
          rw [← hs0, setParent_parentOf, setItems_parentOf,
            Function.update_of_ne (hchain y hy).1]
        have hbump : Rollup.bumpUp s0.parentOf d (s0.nextId + 1) c s0.totalWeight =
            Rollup.bumpUp (s0.setParent replacedItem none).parentOf d (s0.nextId + 1) c
              s0.totalWeight :=
          (Rollup.bumpUp_congr hfirst).symm.trans (Rollup.bumpUp_congr hfinal)
        simp only [Store.updateItemWeight, setParent, Store.setThing] at hbump ⊢
        rw [hbump]
      rw [hwalk, hweight, hweight]
      have hup := hforest.updateItemWeight (c := c)
        (d := -s.getWeight items replacedItem + s.getWeight items item)
        (by rw [hclass]; exact hfit.container)
      refine ⟨hup, hup.weighed_iff.mpr ?_⟩
      refine h.updateItemWeight hfinal (by subst hs0; rfl) (by subst hs0; rfl) hlists
        (hforest.linked.nodup c) (fun k hk => ?_) (fun k _ => hown k) ?_
      · rcases List.mem_cons.mp (hnew.mem_iff.mp hk) with rfl | hk
        · exact hfit.acyclic
        · exact h.linked.not_above_child (h.mem_iff.mp (hold.mem_iff.mpr (.tail _ hk)))
      · simp only [hown]
        rw [(hnew.map _).sum_eq, h.weighed_iff.mp h.weighed c, itemlists, (hold.map _).sum_eq,
          List.map_cons, List.map_cons, List.sum_cons, List.sum_cons, h.getWeight_eq,
          h.getWeight_eq]
        abel

/-! ## New objects -/

/-- What there was is as it was. -/
structure Extends (s s' : Store) : Prop where
  nextId : s.nextId ≤ s'.nextId
  thing : ∀ x, x < s.nextId → s'.thing x = s.thing x
  totalWeight : ∀ x, x < s.nextId → s'.totalWeight x = s.totalWeight x

theorem Extends.trans {s'' : Store} (h : Extends s s') (h' : Extends s' s'') : Extends s s'' where
  nextId := Nat.le_trans h.nextId h'.nextId
  thing x hx := (h'.thing x (Nat.lt_of_lt_of_le hx h.nextId)).trans (h.thing x hx)
  totalWeight x hx :=
    (h'.totalWeight x (Nat.lt_of_lt_of_le hx h.nextId)).trans (h.totalWeight x hx)

theorem Extends.getWeight (h : Extends s s') {x : ThingId} (hx : x < s.nextId) :
    s'.getWeight items x = s.getWeight items x := by
  simp only [Store.getWeight, h.thing x hx, h.totalWeight x hx]

theorem Extends.parentOf (h : Extends s s') {x : ThingId} (hx : x < s.nextId) :
    s'.parentOf x = s.parentOf x := by
  simp only [Store.parentOf, h.thing x hx]

/-- The weights are right but in `X`. -/
def WeighedBut (items : UInt16 → ItemType) (X : Set ThingId) (s : Store) : Prop :=
  ∀ y, y ∉ X → s.totalWeight y = ((s.thing y).itemlist.map (s.getWeight items)).sum

theorem Forest.blank_itemlist (h : s.Forest) : (s.thing s.nextId).itemlist = [] :=
  (h.plain _ (h.blank _ (Nat.le_refl _)).1).1

theorem Forest.itemlist_lt (h : s.Forest) {y k : ThingId} (hk : k ∈ (s.thing y).itemlist) :
    k < s.nextId :=
  h.lt_nextId (h.mem_iff.mp hk)

variable {t : Thing} {X : Set ThingId}

theorem push_thing (x : ThingId) :
    (s.push t).2.thing x = if x = s.nextId then t else s.thing x := by
  simp only [push, Function.update_apply]

theorem push_totalWeight (x : ThingId) :
    (s.push t).2.totalWeight x = if x = s.nextId then 0 else s.totalWeight x := by
  simp only [push, Function.update_apply]

theorem push_extends : Extends s (s.push t).2 where
  nextId := Nat.le_succ _
  thing x hx := by rw [push_thing, if_neg (Nat.ne_of_lt hx)]
  totalWeight x hx := by rw [push_totalWeight, if_neg (Nat.ne_of_lt hx)]

theorem Forest.push_parentOf (h : s.Forest) (hparent : t.parent = none) :
    (s.push t).2.parentOf = s.parentOf := by
  funext x
  by_cases hx : x = s.nextId
  · rw [hx, (h.blank _ (Nat.le_refl _)).2]
    simp only [parentOf, push_thing, if_true, hparent]
  · simp only [parentOf, push_thing, hx, if_false]

theorem Forest.push_itemlists (h : s.Forest) (hlist : t.itemlist = []) :
    (s.push t).2.itemlists = s.itemlists := by
  funext x
  simp only [itemlists, push_thing]
  split
  · next hx => rw [hx, h.blank_itemlist, hlist]
  · rfl

theorem Forest.push (h : s.Forest) (hparent : t.parent = none) (hlist : t.itemlist = []) :
    (s.push t).2.Forest where
  linked := by
    rw [h.push_parentOf hparent, h.push_itemlists hlist]
    exact h.linked
  plain x hx := by
    rw [push_thing] at hx
    rw [push_thing, push_totalWeight]
    split
    · exact ⟨hlist, rfl⟩
    · next hne =>
        rw [if_neg hne] at hx
        exact h.plain x hx
  blank x hx := by
    have hlt : s.nextId < x := hx
    rw [h.push_parentOf hparent, push_thing, if_neg (Nat.ne_of_gt hlt)]
    exact h.blank x (Nat.le_of_lt hlt)

theorem Forest.push_weighed (h : s.Forest) (hlist : t.itemlist = [])
    (hw : s.WeighedBut items X) : (s.push t).2.WeighedBut items X := by
  intro y hy
  have hlists := congrFun (h.push_itemlists hlist) y
  simp only [itemlists] at hlists
  rw [hlists, push_totalWeight]
  split
  · next hnext =>
      rw [hnext, h.blank_itemlist]
      rfl
  · rw [hw y hy]
    refine congrArg List.sum (List.map_congr_left fun k hk => ?_)
    exact (push_extends.getWeight (h.itemlist_lt hk)).symm

/-! ## What `CreateItem` makes -/

/-- Of stackable types only plain items are made, and what is taken instead of a type weighs
the same. -/
structure Sound (items : UInt16 → ItemType) : Prop where
  plain : ∀ type, (items type).stackable = true →
    (items type).type = .none ∧ (items type).group ≠ .container ∧
      (items type).group ≠ .fluid ∧ (items type).group ≠ .splash
  weight : ∀ type, (items (substitute (items type) type)).weight = (items type).weight
  stackable : ∀ type, (items (substitute (items type) type)).stackable = (items type).stackable

theorem createItem_blank {type count : UInt16} (h : createItem items type count = some t) :
    t.parent = none ∧ t.itemlist = [] := by
  simp only [createItem] at h
  split at h
  · cases h
  · split at h
    · repeat' split at h
      all_goals
        cases h
        exact ⟨rfl, rfl⟩
    · cases h

/-- Whether a copy of the item can be made, of the same class. -/
def Copies (items : UInt16 → ItemType) (t : Thing) : Prop :=
  ∃ new, createItem items t.id t.data.count.toUInt16 = some new ∧ new.isContainer = t.isContainer

end Preserved

end Store

/-- The count of a stack survives its way through `CreateItem`, but that there is no stack of
none. -/
theorem newCount_stack {it : ItemType} {count : UInt8} (hstack : it.stackable = true)
    (hfluid : it.group ≠ .fluid) (hsplash : it.group ≠ .splash) :
    max 1 (newCount it (if count.toUInt16 == 0 then 1 else count.toUInt16)).toNat =
      max 1 count.toNat := by
  have hplain : (it.isFluidContainer || it.isSplash) = false := by
    simp [ItemType.isFluidContainer, ItemType.isSplash, hfluid, hsplash]
  simp only [newCount, hplain, hstack, Bool.false_eq_true, if_false, if_true]
  by_cases hzero : count.toUInt16 = 0
  · have hcount : count.toNat = 0 := by
      have := congrArg UInt16.toNat hzero
      simpa using this
    simp [hzero, hcount]
  · simp [hzero]

namespace Store

section Clones

variable {items} {s s' : Store} {i c item : ThingId} {t new : Thing} {X : Set ThingId}

/-- The clone of an item weighs what the item weighs itself. -/
theorem ownWeight_clone (hsound : Sound items)
    (h : createItem items t.id t.data.count.toUInt16 = some new) :
    ownWeight items { new with data := { t.data.cloned with count := new.data.count } } =
      ownWeight items t := by
  have hattr : t.data.cloned.intAttrs .weight = t.data.intAttrs .weight := by
    simp only [Item.cloned]
    split
    · simp only [Item.setIntAttr, Function.update_of_ne (by decide : IntAttr.weight ≠ .decayState)]
    · rfl
  -- whatever the branch, the new type weighs the same
  have htype : (items new.id).weight = (items t.id).weight ∧
      (items new.id).stackable = (items t.id).stackable := by
    simp only [createItem] at h
    split at h
    · cases h
    · split at h
      · repeat' split at h
        all_goals cases h
        any_goals exact ⟨rfl, rfl⟩
        all_goals exact ⟨hsound.weight t.id, hsound.stackable t.id⟩
      · cases h
  have hbase : getBaseWeight items { new with
      data := { t.data.cloned with count := new.data.count } } = getBaseWeight items t := by
    simp only [getBaseWeight, hattr, htype.1]
  simp only [ownWeight, hbase, htype.2]
  cases hstack : (items t.id).stackable with
  | false => rfl
  | true =>
      obtain ⟨hkind, hcontainer, _⟩ := hsound.plain t.id hstack
      obtain ⟨_, _, hfluid, hsplash⟩ := hsound.plain (substitute (items t.id) t.id)
        ((hsound.stackable t.id).trans hstack)
      have hcount : new.data.count = newCount (items (substitute (items t.id) t.id))
          (if t.data.count.toUInt16 == 0 then 1 else t.data.count.toUInt16) := by
        simp only [createItem, hstack, Bool.true_and, ItemType.isDepot, ItemType.isContainer,
          ItemType.isTeleport, ItemType.isMagicField, ItemType.isDoor, ItemType.isTrashHolder,
          ItemType.isMailbox, ItemType.isBed, hkind, hcontainer, reduceCtorEq, decide_false,
          Bool.or_self, Bool.false_eq_true, if_false] at h
        split at h
        · cases h
        · split at h
          · cases h
            rfl
          · cases h
      simp only [if_true, hcount,
        newCount_stack ((hsound.stackable t.id).trans hstack) hfluid hsplash]

/-- What is in an old container is old. -/
theorem Extends.under (h : Extends s s') (hs : s.Forest) (hs' : s'.Forest) {x y : ThingId}
    (hy : y < s.nextId) : s'.parentOf x = some y ↔ s.parentOf x = some y := by
  rw [← hs'.mem_iff, ← hs.mem_iff, h.thing y hy]

theorem Extends.above (h : Extends s s') (hs : s.Forest) (hs' : s'.Forest) (hi : i < s.nextId)
    {x : ThingId} :
    Rollup.Above s'.parentOf x i ↔ Rollup.Above s.parentOf x i := by
  constructor
  · intro hx
    have hboth : Rollup.Above s.parentOf x i ∧ x < s.nextId := by
      refine Relation.ReflTransGen.head_induction_on hx ⟨.refl, hi⟩ fun {y z} hyz _ ih => ?_
      have hp := (h.under hs hs' ih.2).mp hyz
      exact ⟨.head hp ih.1, hs.lt_nextId hp⟩
    exact hboth.1
  · intro hx
    have hboth : Rollup.Above s'.parentOf x i ∧ x < s.nextId := by
      refine Relation.ReflTransGen.head_induction_on hx ⟨.refl, hi⟩ fun {y z} hyz _ ih => ?_
      exact ⟨.head ((h.under hs hs' ih.2).mpr hyz) ih.1, hs.lt_nextId hyz⟩
    exact hboth.1

theorem Forest.above_lt (h : s.Forest) (hi : i < s.nextId) {x : ThingId}
    (hx : Rollup.Above s.parentOf x i) : x < s.nextId := by
  rcases Rollup.above_iff.mp hx with rfl | ⟨p, hp, _⟩
  · exact hi
  · exact h.lt_nextId hp

/-- What is in `i`, at any depth. -/
noncomputable def nested (s : Store) (i : ThingId) : Finset ThingId :=
  Rollup.below s.parentOf (Finset.range s.nextId) i

theorem Forest.parent_mem (h : s.Forest) (x p : ThingId) (hp : s.parentOf x = some p) :
    x ∈ Finset.range s.nextId :=
  Finset.mem_range.mpr (h.lt_nextId hp)

theorem Forest.mem_nested (h : s.Forest) {x : ThingId} :
    x ∈ s.nested i ↔ ∃ p, s.parentOf x = some p ∧ Rollup.Above s.parentOf p i := by
  rw [nested, Rollup.mem_below h.parent_mem]
  exact Relation.TransGen.head'_iff

theorem Extends.nested (h : Extends s s') (hs : s.Forest) (hs' : s'.Forest)
    (hi : i < s.nextId) : s'.nested i = s.nested i := by
  ext x
  rw [hs'.mem_nested, hs.mem_nested]
  simp only [h.above hs hs' hi]
  constructor
  · rintro ⟨p, hp, hpi⟩
    exact ⟨p, (h.under hs hs' (hs.above_lt hi hpi)).mp hp, hpi⟩
  · rintro ⟨p, hp, hpi⟩
    exact ⟨p, (h.under hs hs' (hs.above_lt hi hpi)).mpr hp, hpi⟩

/-! ## Clones

The weights of a clone are right before it is done but for the containers that are still
being filled, `X`. -/

/-- What `clone` gives. -/
structure Cloned (items : UInt16 → ItemType) (X : Set ThingId) (s s' : Store) (i j : ThingId) :
    Prop where
  forest : s'.Forest
  extends_ : Extends s s'
  new : s.nextId ≤ j ∧ j < s'.nextId
  loose : s'.parentOf j = none
  weight : s'.getWeight items j = s.getWeight items i
  weighed : s'.WeighedBut items X

/-- While `c`, the clone of `i`, is filled: it holds clones of the items `done`. -/
structure Filling (items : UInt16 → ItemType) (X : Set ThingId) (s t : Store) (i c : ThingId)
    (done : List ThingId) : Prop where
  forest : t.Forest
  extends_ : Extends s t
  new : s.nextId ≤ c ∧ c < t.nextId
  loose : t.parentOf c = none
  container : (t.thing c).isContainer = true
  own : t.own items c = s.own items i
  weighed : t.WeighedBut items (insert c X)
  sum : ((t.thing c).itemlist.map (t.getWeight items)).sum =
    (done.map (s.getWeight items)).sum

theorem itemClone_spec (hsound : Sound items) (hs : s.Forest) (hcopy : Copies items (s.thing i))
    (hw : s.WeighedBut items X) :
    ∃ t, s.itemClone items i = some (s.nextId, t) ∧ t.Forest ∧ Extends s t ∧
      t.nextId = s.nextId + 1 ∧ t.parentOf s.nextId = none ∧
      (t.thing s.nextId).isContainer = (s.thing i).isContainer ∧
      (t.thing s.nextId).itemlist = [] ∧ t.totalWeight s.nextId = 0 ∧
      t.own items s.nextId = s.own items i ∧ t.WeighedBut items X := by
  obtain ⟨new, hnew, hclass⟩ := hcopy
  obtain ⟨hparent, hlist⟩ := createItem_blank hnew
  let copy : Thing := { new with
    data := { (s.thing i).data.cloned with count := new.data.count } }
  have hpush : (s.push copy).2.parentOf = s.parentOf := hs.push_parentOf hparent
  refine ⟨(s.push copy).2, ?_, hs.push hparent hlist, push_extends, rfl, ?_, ?_, ?_, ?_, ?_,
    hs.push_weighed hlist hw⟩
  · simp only [itemClone, hnew, Option.map_some]
    rfl
  · rw [hpush]
    exact (hs.blank _ (Nat.le_refl _)).2
  · rw [push_thing, if_pos rfl]
    exact hclass
  · rw [push_thing, if_pos rfl]
    exact hlist
  · rw [push_totalWeight, if_pos rfl]
  · rw [Store.own, push_thing, if_pos rfl]
    exact ownWeight_clone hsound hnew

/-- One more clone is put into `c`. -/
theorem Filling.addItem {t t' : Store} {done : List ThingId} {k j : ThingId}
    (hf : Filling items X s t i c done) (hk : k < s.nextId)
    (hc : Cloned items (insert c X) t t' k j) :
    Filling items X s (t'.addItem c j) i c (done ++ [k]) := by
  have hlt := hf.new.2
  have hne : c ≠ j := Nat.ne_of_lt (Nat.lt_of_lt_of_le hlt hc.new.1)
  have hparent : t'.parentOf c = none := (hc.extends_.parentOf hlt).trans hf.loose
  have hthing : t'.thing c = t.thing c := hc.extends_.thing c hlt
  have ha : Attached items t' (t'.addItem c j) c j := addItem_attached
  have hfit : Fits t' c j := by
    refine ⟨by rw [hthing]; exact hf.container, hc.new.2, hc.loose, ?_⟩
    rw [Rollup.above_root hparent]
    exact hne
  have hweight : ∀ m, (t'.addItem c j).getWeight items m = t'.getWeight items m := by
    intro m
    have hown := ha.own m
    simp only [Store.own] at hown
    simp only [getWeight, hown, ha.isContainer, ha.totalWeight]
  have hold : ∀ x, x < s.nextId → (t'.addItem c j).thing x = t'.thing x := by
    intro x hx
    have hxc : x ≠ c := Nat.ne_of_lt (Nat.lt_of_lt_of_le hx hf.new.1)
    have hxj : x ≠ j := Nat.ne_of_lt (Nat.lt_of_lt_of_le hx
      (Nat.le_trans hf.extends_.nextId hc.new.1))
    simp only [Store.addItem, setParent, setItems, setThing_thing, hxc, hxj, if_false]
  have hst := hf.extends_.trans hc.extends_
  refine ⟨hc.forest.attach hfit ha, ⟨hst.nextId, fun x hx => ?_, hst.totalWeight⟩,
    ⟨hf.new.1, Nat.lt_of_lt_of_le hlt hc.extends_.nextId⟩, ?_, ?_, ?_, fun y hy => ?_, ?_⟩
  · exact (hold x hx).trans (hst.thing x hx)
  · rw [ha.parent, Function.update_of_ne hne]
    exact hparent
  · rw [ha.isContainer, hthing]
    exact hf.container
  · rw [ha.own, Store.own, hthing]
    exact hf.own
  · have hyc : y ≠ c := fun heq => hy (.inl heq)
    rw [ha.itemlist_ne y hyc, ha.totalWeight, hc.weighed y hy]
    exact congrArg List.sum (List.map_congr_left fun m _ => (hweight m).symm)
  · rw [(ha.perm.map _).sum_eq, List.map_cons, List.sum_cons, hweight, hc.weight, hthing,
      List.map_append, List.sum_append, ← hf.sum]
    have hmap : (t.thing c).itemlist.map ((t'.addItem c j).getWeight items) =
        (t.thing c).itemlist.map (t.getWeight items) :=
      List.map_congr_left fun m hm =>
        (hweight m).trans (hc.extends_.getWeight (hf.forest.itemlist_lt hm))
    rw [hmap, hf.extends_.getWeight hk, add_comm]
    simp

/-- At last `c` is given the weight that `i` has noted down. -/
theorem Filling.finish {t : Store} (hi : i < s.nextId)
    (hcontainer : (s.thing i).isContainer = true)
    (hin : s.totalWeight i = ((s.thing i).itemlist.map (s.getWeight items)).sum)
    (hf : Filling items X s t i c (s.thing i).itemlist) :
    Cloned items X s { t with totalWeight := Function.update t.totalWeight c (t.totalWeight i) }
      i c := by
  have htotal := hf.extends_.totalWeight i hi
  have hne : ∀ y m, m ∈ (t.thing y).itemlist → m ≠ c := by
    rintro y m hm rfl
    rw [hf.forest.mem_iff, hf.loose] at hm
    cases hm
  have hweight : ∀ y, ((t.thing y).itemlist.map (Store.getWeight items
      { t with totalWeight := Function.update t.totalWeight c (t.totalWeight i) })).sum =
      ((t.thing y).itemlist.map (t.getWeight items)).sum := by
    intro y
    refine congrArg List.sum (List.map_congr_left fun m hm => ?_)
    simp only [getWeight, Function.update_of_ne (hne y m hm)]
  refine ⟨⟨hf.forest.linked, fun x hx => ?_, hf.forest.blank⟩,
    ⟨hf.extends_.nextId, hf.extends_.thing, fun x hx => ?_⟩, hf.new, hf.loose, ?_, fun y hy => ?_⟩
  · have hxc : x ≠ c := by
      rintro rfl
      rw [hf.container] at hx
      cases hx
    simp only [Function.update_of_ne hxc]
    exact hf.forest.plain x hx
  · have hxc : x ≠ c := Nat.ne_of_lt (Nat.lt_of_lt_of_le hx hf.new.1)
    simp only [Function.update_of_ne hxc]
    exact hf.extends_.totalWeight x hx
  · have hown := hf.own
    simp only [Store.own] at hown
    simp only [getWeight, hf.container, hcontainer, if_true, Function.update_self, hown, htotal]
  · rw [hweight]
    by_cases hyc : y = c
    · subst hyc
      simp only [Function.update_self]
      rw [htotal, hin, hf.sum]
    · simp only [Function.update_of_ne hyc]
      exact hf.weighed y fun h => h.elim hyc hy

theorem clone_spec (hsound : Sound items) {n : Nat} (hs : s.Forest) (hi : i < s.nextId)
    (hn : (s.nested i).card < n)
    (hcopy : ∀ x, Rollup.Above s.parentOf x i → Copies items (s.thing x))
    (hin : ∀ x, Rollup.Above s.parentOf x i → s.totalWeight x =
      ((s.thing x).itemlist.map (s.getWeight items)).sum)
    (hw : s.WeighedBut items X) :
    ∃ j s', Store.clone items n i s = some (j, s') ∧ Cloned items X s s' i j := by
  induction n generalizing s i X with
  | zero => exact absurd hn (Nat.not_lt_zero _)
  | succ n ih =>
      obtain ⟨t, hclone, ht, hext, hnext, hloose, hclass, hlist, htotal, hown, hwt⟩ :=
        itemClone_spec hsound hs (hcopy i .refl) hw
      have hold : t.thing i = s.thing i := hext.thing i hi
      have hlt : s.nextId < t.nextId := by rw [hnext]; exact Nat.lt_succ_self _
      cases hcontainer : (s.thing i).isContainer with
      | false =>
          refine ⟨s.nextId, t, ?_, ht, hext, ⟨Nat.le_refl _, hlt⟩, hloose, ?_, hwt⟩
          · simp only [Store.clone, hclone, hold, hcontainer, Bool.false_eq_true,
              not_false_eq_true, if_true]
          · simp only [Store.own] at hown
            simp only [getWeight, hclass, hcontainer, Bool.false_eq_true, if_false, hown]
      | true =>
          -- the loop over the items of the container
          have hfill : ∀ (rest done : List ThingId) (t : Store),
              done ++ rest = (s.thing i).itemlist → Filling items X s t i s.nextId done →
              ∃ t', rest.foldlM (fun s' k => (Store.clone items n k s').map
                  fun (k', s') => s'.addItem s.nextId k') t = some t' ∧
                Filling items X s t' i s.nextId (done ++ rest) := by
            intro rest
            induction rest with
            | nil =>
                intro done t _ hf
                exact ⟨t, rfl, by rwa [List.append_nil]⟩
            | cons k rest ihrest =>
                intro done t hsplit hf
                have hk : k ∈ (s.thing i).itemlist := by
                  rw [← hsplit]
                  exact List.mem_append_right _ (.head _)
                have hp := hs.mem_iff.mp hk
                have hklt := hs.lt_nextId hp
                have hchain : ∀ x, Rollup.Above t.parentOf x k →
                    Rollup.Above s.parentOf x i ∧ x < s.nextId := by
                  intro x hx
                  have hx' := (hf.extends_.above hs hf.forest hklt).mp hx
                  exact ⟨hx'.tail hp, hs.above_lt hklt hx'⟩
                have hcard : (t.nested k).card < n := by
                  rw [hf.extends_.nested hs hf.forest hklt]
                  have hlt := Finset.card_lt_card
                    (Rollup.below_ssubset hs.linked hs.parent_mem hk)
                  simp only [nested] at hn ⊢
                  omega
                obtain ⟨j, t', hj, hcloned⟩ := ih (X := insert s.nextId X) hf.forest
                  (Nat.lt_of_lt_of_le hklt hf.extends_.nextId) hcard
                  (fun x hx => by
                    obtain ⟨hup, hxlt⟩ := hchain x hx
                    rw [hf.extends_.thing x hxlt]
                    exact hcopy x hup)
                  (fun x hx => by
                    obtain ⟨hup, hxlt⟩ := hchain x hx
                    rw [hf.extends_.thing x hxlt, hf.extends_.totalWeight x hxlt, hin x hup]
                    exact congrArg List.sum (List.map_congr_left fun m hm =>
                      (hf.extends_.getWeight (hs.itemlist_lt hm)).symm))
                  hf.weighed
                have hstep := hf.addItem hklt hcloned
                obtain ⟨t'', ht'', hf''⟩ := ihrest (done ++ [k]) _
                  (by rw [List.append_assoc]; exact hsplit) hstep
                refine ⟨t'', ?_, by rwa [List.append_assoc] at hf''⟩
                rw [List.foldlM_cons, hj]
                exact ht''
          have hstart : Filling items X s t i s.nextId [] :=
            ⟨ht, hext, ⟨Nat.le_refl _, hlt⟩, hloose, hclass.trans hcontainer, hown,
              fun y hy => hwt y fun h => hy (.inr h), by rw [hlist]; rfl⟩
          obtain ⟨t', ht', hf'⟩ := hfill (s.thing i).itemlist [] t rfl hstart
          refine ⟨s.nextId, _, ?_, hf'.finish hi hcontainer (hin i .refl)⟩
          simp only [Store.clone, hclone, hold, hclass, hcontainer, not_true, if_false, ht',
            Option.map_some]

/-- With as many levels as there are items nothing stops `clone`. -/
theorem Inv.clone (hsound : Sound items) (h : s.Inv items) (hi : i < s.nextId)
    (hcopy : ∀ x, Rollup.Above s.parentOf x i → Copies items (s.thing x)) :
    ∃ j s', Store.clone items (s.nextId + 1) i s = some (j, s') ∧ s'.Inv items ∧
      s'.getWeight items j = s.getWeight items i := by
  have hcard : (s.nested i).card < s.nextId + 1 := by
    have hsub : s.nested i ⊆ Finset.range s.nextId := Rollup.below_subset
    have hle := Finset.card_le_card hsub
    rw [Finset.card_range] at hle
    exact Nat.lt_succ_of_le hle
  obtain ⟨j, s', hclone, hc⟩ := clone_spec (X := ∅) hsound h.toForest hi hcard hcopy
    (fun x _ => h.weighed x) fun y _ => h.weighed y
  exact ⟨j, s', hclone, ⟨hc.forest, fun y => hc.weighed y id⟩, hc.weight⟩

theorem create_inv {type count : UInt16} (h : s.Inv items) :
    (s.step items (.create type count)).Inv items := by
  simp only [step]
  cases hnew : createItem items type count with
  | none => exact h
  | some t =>
      obtain ⟨hparent, hlist⟩ := createItem_blank hnew
      exact ⟨h.toForest.push hparent hlist, fun y =>
        h.toForest.push_weighed (X := ∅) hlist (fun y _ => h.weighed y) y id⟩

end Clones

/-! ## Runs -/

/-- What the callers of an operation see to: the containers stay a forest, and what is cloned
is of the classes that its types are created as. -/
def Allowed (s : Store) : Op → Prop
  | .addThing c _ item | .addItemBack c item | .internalAddThing c item
  | .replaceThing c _ item => s.Fits c item
  | .clone i =>
      i < s.nextId ∧ ∀ x, Rollup.Above s.parentOf x i → Copies items (s.thing x)
  | .create .. | .updateThing .. | .removeThing .. => True

def AllowedRun (s : Store) : List Op → Prop
  | [] => True
  | op :: ops => s.Allowed items op ∧ AllowedRun (s.step items op) ops

def run (s : Store) (ops : List Op) : Store := ops.foldl (fun s op => s.step items op) s

/-- There is nothing yet. -/
def init : Store :=
  { thing := fun _ =>
      { id := 0, data := Item.bare, parent := none, isContainer := false, itemlist := [],
        maxSize := 0 }
    totalWeight := fun _ => 0
    nextId := 0 }

variable {items} {s : Store}

theorem init_inv : init.Inv items where
  linked := ⟨fun _ _ => ⟨nofun, nofun⟩, fun _ => List.nodup_nil, fun _ => ⟨1, nofun⟩⟩
  plain := fun _ _ => ⟨rfl, rfl⟩
  blank := fun _ _ => ⟨rfl, rfl⟩
  weighed := fun _ => rfl

theorem step_inv (hsound : Sound items) (h : s.Inv items) {op : Op} (hop : s.Allowed items op) :
    (s.step items op).Inv items := by
  cases op with
  | create type count => exact create_inv h
  | addThing c index item => exact addThing_inv h hop
  | addItemBack c item => exact addItemBack_inv h hop
  | internalAddThing c item => exact internalAddThing_inv h hop
  | updateThing c item itemId count duration => exact updateThing_inv h
  | replaceThing c index item => exact replaceThing_inv h hop
  | removeThing c item count => exact removeThing_inv h
  | clone i =>
      obtain ⟨j, s', hclone, hinv, _⟩ := h.clone hsound hop.1 hop.2
      simp only [step, hclone, Option.map_some, Option.getD_some]
      exact hinv

theorem run_inv (hsound : Sound items) (h : s.Inv items) {ops : List Op}
    (hops : AllowedRun items s ops) : (s.run items ops).Inv items := by
  induction ops generalizing s with
  | nil => exact h
  | cons op ops ih => exact ih (step_inv hsound h hops.1) hops.2

/-- Bags and coins. -/
def bagsAndCoins (type : UInt16) : ItemType :=
  if type = 1 then { id := 1, group := .container, weight := 800 }
  else if type = 2 then { id := 2, stackable := true, weight := 10 }
  else {}

end Store

end Bruxo.ContainerWeight
