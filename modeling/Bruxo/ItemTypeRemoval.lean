import Bruxo.ItemDeque

/-!
# Counting items of a type, and removing them

`Player::getItemTypeCount` and `Player::removeItemOfType` (`player.cpp`). Both go over the slots
and what is in them, but the second does not look into an equipped container that has the wanted
type itself. The items that it finds first are given to `Game::internalRemoveItems`, which cuts
the last one down if the type is stackable and removes whole items, with what is inside them,
otherwise.
-/

namespace Bruxo.ItemTypeRemoval

open ItemForest TileStack

/-! ## The inventory -/

/-- An item as a pointer names it. -/
structure Held where
  address : Nat
  item : TileItem

/-- The items of the slots in their order, with what is in them. -/
structure Inventory where
  slots : Items Held Held
  distinct : (slots.flatten.map Held.address).Nodup

/-- The slots without the addresses. -/
def slotItems : Items Held Held → SaleList.Inventory
  | .nil => []
  | .item h rest => some ⟨h.item, none⟩ :: slotItems rest
  | .container h itemlist rest =>
      some ⟨h.item, some (itemlist.map Held.item)⟩ :: slotItems rest

variable (items : UInt16 → ItemType)

def getItemTypeCount (inventory : Inventory) (itemId : UInt16) (subType : Int) : UInt32 :=
  SaleList.getItemTypeCount items (slotItems inventory.slots) itemId subType

/-! ## Removing one item -/

/-- What is left of an item after `internalRemoveItem`, with `count` as `none` for -1:
`queryRemove` comes first and then `canRemove`, which is false for a locker. A bed in an inventory
belongs to no house. -/
def removeThing (count : Option Nat) (h : Held) : Option Held :=
  let n := count.getD h.item.data.count.toNat
  let it := items h.item.id
  if n = 0 ∨ it.stackable ∧ h.item.data.count.toNat < n then some h
  else if it.isDepot then some h
  else if it.stackable ∧ n ≠ h.item.data.count.toNat then
    some { h with
      item := { h.item with
        data := h.item.data.setItemCount (h.item.data.count.toNat - n) } }
  else none

/-- The step that removes the item at one address. -/
def removeAt (h : Held) (count : Option Nat) (x : Held) : Option Held :=
  if x.address = h.address then removeThing items count x else some x

theorem removeThing_address {count : Option Nat} {h h' : Held}
    (hr : removeThing items count h = some h') : h'.address = h.address := by
  unfold removeThing at hr
  dsimp only at hr
  split at hr
  · rw [Option.some.inj hr]
  split at hr
  · rw [Option.some.inj hr]
  split at hr
  · rw [← Option.some.inj hr]
  · cases hr

theorem removeAt_address {h x x' : Held} {count : Option Nat}
    (hr : removeAt items h count x = some x') : x'.address = x.address := by
  rw [removeAt] at hr
  split at hr
  · exact removeThing_address items hr
  · rw [Option.some.inj hr]

theorem map_address_sublist {f : Held → Option Held}
    (hf : ∀ x x', f x = some x' → x'.address = x.address) (l : List Held) :
    ((l.filterMap f).map Held.address).Sublist (l.map Held.address) := by
  induction l with
  | nil => exact .slnil
  | cons x l ih =>
      cases h : f x with
      | none =>
          rw [List.filterMap_cons_none h]
          exact ih.cons _
      | some x' =>
          rw [List.filterMap_cons_some h, List.map_cons, List.map_cons, hf x x' h]
          exact ih.cons_cons _

/-- The items that are left are still at different addresses. -/
theorem distinct_filterMap {slots : Items Held Held} {f : Held → Option Held}
    (hf : ∀ x x', f x = some x' → x'.address = x.address)
    (hdistinct : (slots.flatten.map Held.address).Nodup) :
    ((slots.filterMap f).flatten.map Held.address).Nodup := by
  have hperm := ((slots.flatten_perm f).map Held.address).nodup_iff.mp hdistinct
  rw [List.map_append] at hperm
  rw [Items.flatten_filterMap]
  exact hperm.of_append_right.sublist (map_address_sublist hf _)

def internalRemoveItem (inventory : Inventory) (h : Held) (count : Option Nat) : Inventory where
  slots := inventory.slots.filterMap (removeAt items h count)
  distinct := distinct_filterMap (fun _ _ => removeAt_address items) inventory.distinct

/-! ## Removing items of a type -/

/-- The items that `removeItemOfType` comes upon with something to count. -/
def found (itemId : UInt16) (subType : Int) (ignoreEquipped : Bool) : Items Held Held → List Held
  | .nil => []
  | .item h rest =>
      (if !ignoreEquipped && h.item.id = itemId then
        if SaleList.countByType items h.item subType = 0 then [] else [h]
      else []) ++ found itemId subType ignoreEquipped rest
  | .container h itemlist rest =>
      (if !ignoreEquipped && h.item.id = itemId then
        if SaleList.countByType items h.item subType = 0 then [] else [h]
      else (Items.iterated [itemlist]).filter fun x =>
        x.item.id = itemId && SaleList.countByType items x.item subType ≠ 0) ++
        found itemId subType ignoreEquipped rest

/-- The `itemList` when the count reaches the amount. -/
def collect (subType : Int) (amount : UInt32) : List Held → UInt32 → Option (List Held)
  | [], _ => none
  | h :: rest, count =>
      let count := count + SaleList.countByType items h.item subType
      if count ≥ amount then some [h] else (collect subType amount rest count).map (h :: ·)

def internalRemoveItems (stackable : Bool) : List Held → UInt32 → Inventory → Inventory
  | [], _, inventory => inventory
  | h :: rest, amount, inventory =>
      if stackable then
        if h.item.data.count.toUInt32 > amount then
          internalRemoveItem items inventory h (some amount.toNat)
        else
          internalRemoveItems stackable rest (amount - h.item.data.count.toUInt32)
            (internalRemoveItem items inventory h none)
      else internalRemoveItems stackable rest amount (internalRemoveItem items inventory h none)

def removeItemOfType (inventory : Inventory) (itemId : UInt16) (amount : UInt32) (subType : Int)
    (ignoreEquipped : Bool) : Bool × Inventory :=
  if amount = 0 then (true, inventory)
  else
    match collect items subType amount (found items itemId subType ignoreEquipped inventory.slots)
        0 with
    | none => (false, inventory)
    | some itemList =>
        (true, internalRemoveItems items (items itemId).stackable itemList amount inventory)

/-- It returns true when there is as much to count, and the count is then lower by the amount;
otherwise nothing is changed. -/
structure Agrees (inventory : Inventory) (itemId : UInt16) (amount : UInt32)
    (subType : Int) : Prop where
  returns : (removeItemOfType items inventory itemId amount subType false).1 = true ↔
    amount ≤ getItemTypeCount items inventory itemId subType
  lowers : (removeItemOfType items inventory itemId amount subType false).1 = true →
    getItemTypeCount items (removeItemOfType items inventory itemId amount subType false).2 itemId
      subType = getItemTypeCount items inventory itemId subType - amount
  unchanged : (removeItemOfType items inventory itemId amount subType false).1 = false →
    (removeItemOfType items inventory itemId amount subType false).2 = inventory

/-! ## The counts as numbers -/

/-- What an item adds to the count. -/
def weight (itemId : UInt16) (subType : Int) (h : Held) : Nat :=
  if h.item.id = itemId then (SaleList.countByType items h.item subType).toNat else 0

def total (itemId : UInt16) (subType : Int) (l : List Held) : Nat :=
  (l.map (weight items itemId subType)).sum

/-- The sub type is not the count of the item, or does not matter. -/
def CountsParts (itemId : UInt16) (subType : Int) : Prop :=
  (items itemId).stackable = true ∧ (subType = -1 ∨ (items itemId).fluid = true)

variable (itemId : UInt16) (subType : Int)

/-- The items that are removed in full when an amount is removed from a list. -/
def whole (amount : Nat) : List Held → List Held
  | [] => []
  | h :: rest =>
      let n := weight items itemId subType h
      if n < amount then h :: whole (amount - n) rest
      else if (items itemId).stackable ∧ amount < n then []
      else [h]

/-- The items of a list, and what is inside them. -/
def inside (inventory : Inventory) (l : List Held) : List Held :=
  inventory.slots.gone fun x => if x.address ∈ l.map Held.address then none else some x

/-- There is nothing to remove, or not enough to count, or what is found first is right. -/
def Removable (inventory : Inventory) (amount : Nat) : Prop :=
  let list := found items itemId subType false inventory.slots
  amount = 0 ∨ total items itemId subType inventory.slots.flatten < amount ∨
    amount ≤ total items itemId subType list ∧ (items itemId).isDepot = false ∧
      (total items itemId subType (whole items itemId subType amount list) = amount ∨
        CountsParts items itemId subType) ∧
      ∀ x ∈ inside inventory (whole items itemId subType amount list),
        weight items itemId subType x ≠ 0 → x ∈ whole items itemId subType amount list

/-! ## Counting -/

theorem iterator_items (lists : List (Items TileItem TileItem)) :
    SaleList.ContainerIterator.items lists = Items.iterated lists := by
  induction lists using Items.iterated.induct with
  | case1 => rw [SaleList.ContainerIterator.items, Items.iterated]
  | case2 lists ih => rw [SaleList.ContainerIterator.items, Items.iterated, ih]
  | case3 a rest lists ih => rw [SaleList.ContainerIterator.items, Items.iterated, ih]
  | case4 a itemlist rest lists ih =>
      rw [SaleList.ContainerIterator.items, Items.iterated]
      exact congrArg (a :: ·) ih

/-- The count goes over every item once. -/
theorem things_slotItems (slots : Items Held Held) :
    (SaleList.things (slotItems slots)).Perm (slots.flatten.map Held.item) := by
  induction slots with
  | nil => exact .refl _
  | item h rest ih => exact ih.cons h.item
  | container h itemlist rest ihlist ih =>
      have hlist : (SaleList.ContainerIterator.items [itemlist.map Held.item]).Perm
          (itemlist.flatten.map Held.item) := by
        rw [iterator_items, ← Items.flatten_map]
        exact Items.iterated_singleton _
      rw [Items.flatten, List.map_cons, List.map_append]
      exact (hlist.append ih).cons h.item

theorem getItemTypeCount_toNat (inventory : Inventory) :
    (getItemTypeCount items inventory itemId subType).toNat =
      total items itemId subType inventory.slots.flatten % 2 ^ 32 := by
  have hfold : ∀ (l : List TileItem) (count : UInt32),
      (l.foldl (fun count item =>
        if item.id = itemId then count + SaleList.countByType items item subType
        else count) count).toNat =
      (count.toNat + (l.map fun item =>
        if item.id = itemId then (SaleList.countByType items item subType).toNat
        else 0).sum) % 2 ^ 32 := by
    intro l
    induction l with
    | nil =>
        intro count
        rw [List.foldl_nil, List.map_nil, List.sum_nil, Nat.add_zero,
          Nat.mod_eq_of_lt count.toNat_lt]
    | cons item l ih =>
        intro count
        rw [List.foldl_cons, ih, List.map_cons, List.sum_cons]
        split
        · rw [UInt32.toNat_add, ← Nat.add_assoc, Nat.mod_add_mod]
        · rw [Nat.zero_add]
  rw [getItemTypeCount, SaleList.getItemTypeCount, hfold]
  have hperm := ((things_slotItems inventory.slots).map fun item =>
    if item.id = itemId then (SaleList.countByType items item subType).toNat else 0).sum_eq
  rw [hperm, List.map_map]
  exact congrArg (· % 2 ^ 32) (Nat.zero_add _)

/-! ## What is found -/

variable {items} {itemId} {subType}

theorem mem_found {slots : Items Held Held} {h : Held}
    (hmem : h ∈ found items itemId subType false slots) :
    h.item.id = itemId ∧ SaleList.countByType items h.item subType ≠ 0 := by
  have hown : ∀ h' : Held, h ∈ (if !false && h'.item.id = itemId then
      if SaleList.countByType items h'.item subType = 0 then [] else [h'] else []) →
      h.item.id = itemId ∧ SaleList.countByType items h.item subType ≠ 0 := by
    intro h' hmem
    split at hmem
    · next hid =>
      split at hmem
      · cases hmem
      · next hcount =>
        obtain rfl := List.mem_singleton.mp hmem
        exact ⟨by simpa using hid, hcount⟩
    · cases hmem
  induction slots with
  | nil => cases hmem
  | item h' rest ih =>
      rw [found, List.mem_append] at hmem
      exact hmem.elim (hown h') ih
  | container h' itemlist rest _ ih =>
      rw [found, List.mem_append] at hmem
      rcases hmem with hmem | hmem
      · split at hmem
        · next hid => exact hown h' (by rw [if_pos hid]; exact hmem)
        · have hfilter := (List.mem_filter.mp hmem).2
          simpa using hfilter
      · exact ih hmem

/-- It finds every item once at most. -/
theorem found_subperm (slots : Items Held Held) :
    List.Subperm (found items itemId subType false slots) slots.flatten := by
  have hown : ∀ (h : Held) (l : List Held), List.Subperm
      (if SaleList.countByType items h.item subType = 0 then [] else [h]) (h :: l) := by
    intro h l
    split
    · exact List.nil_subperm
    · exact (List.singleton_sublist.mpr List.mem_cons_self).subperm
  induction slots with
  | nil => exact List.nil_subperm
  | item h rest ih =>
      have hhead : List.Subperm (if !false && h.item.id = itemId then
          if SaleList.countByType items h.item subType = 0 then [] else [h] else []) [h] := by
        split
        · exact hown h []
        · exact List.nil_subperm
      exact hhead.append ih
  | container h itemlist rest _ ih =>
      rw [found, Items.flatten, ← List.cons_append]
      refine List.Subperm.append ?_ ih
      split
      · exact hown h _
      · exact (List.filter_sublist.subperm.trans (Items.iterated_singleton itemlist).subperm).trans
          (List.sublist_cons_self h _).subperm

theorem weight_found {slots : Items Held Held} {h : Held}
    (hmem : h ∈ found items itemId subType false slots) :
    weight items itemId subType h = h.item.data.count.toNat ∧ h.item.data.count.toNat ≠ 0 := by
  obtain ⟨hid, hcount⟩ := mem_found hmem
  rw [weight, if_pos hid]
  unfold SaleList.countByType at hcount ⊢
  split at hcount
  · next hsub =>
    rw [if_pos hsub, UInt8.toNat_toUInt32]
    refine ⟨rfl, fun hzero => hcount ?_⟩
    rw [show h.item.data.count = 0 from UInt8.toNat_inj.mp hzero]
    rfl
  · exact absurd rfl hcount

/-- The items that are found up to the one that reaches the amount. -/
def choose (items : UInt16 → ItemType) (itemId : UInt16) (subType : Int) (amount : Nat) :
    List Held → List Held
  | [] => []
  | h :: rest =>
      let n := weight items itemId subType h
      if amount ≤ n then [h] else h :: choose items itemId subType (amount - n) rest

theorem countByType_toNat {h : Held} (hid : h.item.id = itemId) :
    (SaleList.countByType items h.item subType).toNat = weight items itemId subType h := by
  rw [weight, if_pos hid]

theorem collect_eq {amount : UInt32} {l : List Held} (hid : ∀ h ∈ l, h.item.id = itemId)
    {count : UInt32} (hcount : count < amount)
    (hsmall : count.toNat + total items itemId subType l < 2 ^ 32) :
    collect items subType amount l count =
      if amount.toNat ≤ count.toNat + total items itemId subType l then
        some (choose items itemId subType (amount.toNat - count.toNat) l)
      else none := by
  induction l generalizing count with
  | nil =>
      have hlt := UInt32.lt_iff_toNat_lt.mp hcount
      rw [collect, total, List.map_nil, List.sum_nil, Nat.add_zero, if_neg (Nat.not_le.mpr hlt)]
  | cons h rest ih =>
      rw [List.forall_mem_cons] at hid
      have htotal : total items itemId subType (h :: rest)
          = weight items itemId subType h + total items itemId subType rest := List.sum_cons
      rw [htotal] at hsmall ⊢
      have hw : (SaleList.countByType items h.item subType).toNat
          = weight items itemId subType h := countByType_toNat hid.1
      have hnew : (count + SaleList.countByType items h.item subType).toNat
          = count.toNat + weight items itemId subType h := by
        rw [UInt32.toNat_add, hw, Nat.mod_eq_of_lt (by omega)]
      rw [collect, choose]
      by_cases hreach : amount ≤ count + SaleList.countByType items h.item subType
      · have hle := UInt32.le_iff_toNat_le.mp hreach
        rw [if_pos hreach, if_pos (by omega), if_pos (by omega)]
      · have hlt : count + SaleList.countByType items h.item subType < amount :=
          UInt32.not_le.mp hreach
        have hlt' := UInt32.lt_iff_toNat_lt.mp hlt
        rw [if_neg hreach, ih hid.2 hlt (by omega), hnew, Nat.add_assoc]
        split
        · rw [if_neg (by omega), Option.map_some, Nat.sub_add_eq]
        · rfl

/-! ## The removal as one change -/

/-- An item with `n` fewer. -/
def cut (h : Held) (n : Nat) : Held :=
  { h with
    item := { h.item with data := h.item.data.setItemCount (h.item.data.count.toNat - n) } }

/-- What the calls of `internalRemoveItem` together do to an item. -/
def effect (items : UInt16 → ItemType) (itemId : UInt16) (subType : Int) (amount : Nat) :
    List Held → Held → Option Held
  | [], x => some x
  | h :: rest, x =>
      let n := weight items itemId subType h
      if n < amount then (removeAt items h none x).bind (effect items itemId subType (amount - n) rest)
      else removeAt items h (if (items itemId).stackable ∧ amount < n then some amount else none) x

/-- The item that is cut down, and by how much. -/
def splits (items : UInt16 → ItemType) (itemId : UInt16) (subType : Int) (amount : Nat) :
    List Held → Option (Held × Nat)
  | [] => none
  | h :: rest =>
      let n := weight items itemId subType h
      if n < amount then splits items itemId subType (amount - n) rest
      else if (items itemId).stackable ∧ amount < n then some (h, amount)
      else none

theorem internalRemoveItems_slots {l : List Held}
    (hw : ∀ h ∈ l, weight items itemId subType h = h.item.data.count.toNat) {n : Nat}
    {amount : UInt32} (hamount : (items itemId).stackable = true → amount.toNat = n)
    (inventory : Inventory) :
    (internalRemoveItems items (items itemId).stackable (choose items itemId subType n l) amount
      inventory).slots = inventory.slots.filterMap (effect items itemId subType n l) := by
  induction l generalizing n amount inventory with
  | nil => exact (Items.filterMap_some _).symm
  | cons h rest ih =>
      rw [List.forall_mem_cons] at hw
      have hone : ∀ count : Option Nat, (internalRemoveItem items inventory h count).slots
          = inventory.slots.filterMap (removeAt items h count) := fun _ => rfl
      have hcount : h.item.data.count.toUInt32.toNat = weight items itemId subType h := by
        rw [hw.1, UInt8.toNat_toUInt32]
      rw [choose]
      by_cases hreach : n ≤ weight items itemId subType h
      · have heffect : effect items itemId subType n (h :: rest) = removeAt items h
            (if (items itemId).stackable ∧ n < weight items itemId subType h then some n
              else none) := by
          funext x
          rw [effect]
          exact if_neg (Nat.not_lt.mpr hreach)
        rw [if_pos hreach, heffect, internalRemoveItems]
        split
        · next hstack =>
          have hn := hamount hstack
          split
          · next hlt =>
            have hlt := UInt32.lt_iff_toNat_lt.mp hlt
            rw [if_pos ⟨hstack, by omega⟩, hone, hn]
          · next hnot =>
            have hle := mt UInt32.lt_iff_toNat_lt.mpr hnot
            rw [if_neg (by omega)]
            exact hone none
        · next hstack =>
          rw [if_neg fun h => hstack h.1]
          exact hone none
      · have heffect : effect items itemId subType n (h :: rest) = fun x =>
            (removeAt items h none x).bind
              (effect items itemId subType (n - weight items itemId subType h) rest) := by
          funext x
          rw [effect]
          exact if_pos (Nat.not_le.mp hreach)
        rw [if_neg hreach, heffect, ← Items.filterMap_filterMap, ← hone, internalRemoveItems]
        split
        · next hstack =>
          have hn := hamount hstack
          have hnot : ¬ amount < h.item.data.count.toUInt32 := by
            rw [UInt32.lt_iff_toNat_lt]
            omega
          rw [if_neg hnot]
          refine ih hw.2 (fun _ => ?_) _
          rw [UInt32.toNat_sub_of_le _ _ (UInt32.not_lt.mp hnot), hn, hcount]
        · next hstack => exact ih hw.2 (fun h => absurd h hstack) _

theorem removeThing_whole {h : Held} (hcount : h.item.data.count.toNat ≠ 0)
    (hdepot : (items h.item.id).isDepot = false) : removeThing items none h = none := by
  unfold removeThing
  rw [Option.getD_none]
  dsimp only
  rw [if_neg (by rintro (hzero | ⟨-, hlt⟩); exacts [hcount hzero, absurd hlt (Nat.lt_irrefl _)]),
    hdepot, if_neg Bool.false_ne_true, if_neg fun h => h.2 rfl]

theorem removeThing_cut {h : Held} {n : Nat} (hpos : 0 < n) (hlt : n < h.item.data.count.toNat)
    (hstack : (items h.item.id).stackable = true) (hdepot : (items h.item.id).isDepot = false) :
    removeThing items (some n) h = some (cut h n) := by
  unfold removeThing
  rw [Option.getD_some]
  dsimp only
  rw [if_neg (by rintro (hzero | ⟨-, hmore⟩) <;> omega), hdepot, if_neg Bool.false_ne_true,
    if_pos ⟨hstack, Nat.ne_of_lt hlt⟩]
  rfl

theorem removeThing_depot {h : Held} (hdepot : (items h.item.id).isDepot = true)
    (count : Option Nat) : removeThing items count h = some h := by
  unfold removeThing
  dsimp only
  rw [hdepot, if_pos rfl]
  split
  · rfl
  · rfl

/-- Items of the type with something to count, among those of an inventory. -/
structure Wanted (items : UInt16 → ItemType) (itemId : UInt16) (subType : Int)
    (carried l : List Held) : Prop where
  carried : ∀ h ∈ l, h ∈ carried
  id : ∀ h ∈ l, h.item.id = itemId
  weight : ∀ h ∈ l, ItemTypeRemoval.weight items itemId subType h = h.item.data.count.toNat
  pos : ∀ h ∈ l, h.item.data.count.toNat ≠ 0

variable {carried l : List Held} {h x : Held} {amount : Nat}

theorem Wanted.tail (hl : Wanted items itemId subType carried (h :: l)) :
    Wanted items itemId subType carried l where
  carried h' hmem := hl.carried h' (List.mem_cons_of_mem h hmem)
  id h' hmem := hl.id h' (List.mem_cons_of_mem h hmem)
  weight h' hmem := hl.weight h' (List.mem_cons_of_mem h hmem)
  pos h' hmem := hl.pos h' (List.mem_cons_of_mem h hmem)

theorem eq_of_address (hdistinct : (carried.map Held.address).Nodup) (hx : x ∈ carried)
    (hh : h ∈ carried) (haddress : x.address = h.address) : x = h :=
  List.inj_on_of_nodup_map hdistinct hx hh haddress

theorem removeAt_ne {count : Option Nat} (hne : x.address ≠ h.address) :
    removeAt items h count x = some x := if_neg hne

theorem effect_depot (hdistinct : (carried.map Held.address).Nodup)
    (hl : Wanted items itemId subType carried l) (hdepot : (items itemId).isDepot = true)
    (hx : x ∈ carried) : effect items itemId subType amount l x = some x := by
  induction l generalizing amount with
  | nil => rfl
  | cons h rest ih =>
      have hstep : ∀ count, removeAt items h count x = some x := by
        intro count
        by_cases haddress : x.address = h.address
        · obtain rfl := eq_of_address hdistinct hx (hl.carried h List.mem_cons_self) haddress
          rw [removeAt, if_pos rfl]
          exact removeThing_depot (by rw [hl.id x List.mem_cons_self]; exact hdepot) count
        · exact removeAt_ne haddress
      rw [effect]
      split
      · rw [hstep, Option.bind_some, ih hl.tail]
      · exact hstep _

/-- An item is removed in full, or it is cut down, or nothing happens to it. -/
theorem effect_cases (hdistinct : (carried.map Held.address).Nodup)
    (hl : Wanted items itemId subType carried l) (hdepot : (items itemId).isDepot = false)
    (hpos : 0 < amount) (hx : x ∈ carried) :
    x ∈ whole items itemId subType amount l ∧ effect items itemId subType amount l x = none ∨
      (∃ r, splits items itemId subType amount l = some (x, r) ∧
        effect items itemId subType amount l x = some (cut x r)) ∨
      x ∉ whole items itemId subType amount l ∧
        (∀ r, splits items itemId subType amount l ≠ some (x, r)) ∧
        effect items itemId subType amount l x = some x := by
  induction l generalizing amount with
  | nil => exact .inr (.inr ⟨List.not_mem_nil, fun r hr => (by cases hr), rfl⟩)
  | cons h rest ih =>
      have hid := hl.id h List.mem_cons_self
      have hw := hl.weight h List.mem_cons_self
      have hcount := hl.pos h List.mem_cons_self
      have hdepot' : (items h.item.id).isDepot = false := by rw [hid, hdepot]
      rw [whole, splits, effect]
      by_cases haddress : x.address = h.address
      · -- The item itself.
        obtain rfl := eq_of_address hdistinct hx (hl.carried h List.mem_cons_self) haddress
        have hremove : ∀ count, removeAt items x count x = removeThing items count x :=
          fun count => if_pos rfl
        have hnone := removeThing_whole hcount hdepot'
        split
        · refine .inl ⟨List.mem_cons_self, ?_⟩
          rw [hremove, hnone, Option.bind_none]
        · split
          · next hsplit =>
            refine .inr (.inl ⟨amount, rfl, ?_⟩)
            rw [hremove]
            exact removeThing_cut hpos (hw ▸ hsplit.2) (by rw [hid]; exact hsplit.1) hdepot'
          · refine .inl ⟨List.mem_singleton_self x, ?_⟩
            rw [hremove, hnone]
      · have hne : x ≠ h := fun heq => haddress (congrArg Held.address heq)
        rw [removeAt_ne haddress, removeAt_ne haddress, Option.bind_some]
        split
        · next hless =>
          rcases ih hl.tail (Nat.sub_pos_of_lt hless) with
            ⟨hmem, heffect⟩ | ⟨r, hr, heffect⟩ | ⟨hmem, hr, heffect⟩
          · exact .inl ⟨List.mem_cons_of_mem h hmem, heffect⟩
          · exact .inr (.inl ⟨r, hr, heffect⟩)
          · refine .inr (.inr ⟨fun hin => ?_, hr, heffect⟩)
            exact (List.mem_cons.mp hin).elim hne hmem
        · refine .inr (.inr ?_)
          split
          · refine ⟨List.not_mem_nil, fun r hr => ?_, rfl⟩
            exact hne (Prod.mk.inj (Option.some.inj hr)).1.symm
          · exact ⟨fun hin => hne (List.mem_singleton.mp hin), fun r hr => (by cases hr), rfl⟩

/-- What is removed in full and what is cut off make up the amount. -/
theorem splits_spec {r : Nat} (hpos : 0 < amount)
    (hs : splits items itemId subType amount l = some (h, r)) :
    (whole items itemId subType amount l ++ [h]).Sublist l ∧
      total items itemId subType (whole items itemId subType amount l) + r = amount ∧ 0 < r ∧
      r < weight items itemId subType h ∧ (items itemId).stackable = true := by
  induction l generalizing amount with
  | nil => cases hs
  | cons h' rest ih =>
      rw [splits] at hs
      rw [whole]
      split at hs
      · next hless =>
        obtain ⟨hsub, htotal, hr, hlt, hstack⟩ := ih (Nat.sub_pos_of_lt hless) hs
        rw [if_pos hless]
        refine ⟨hsub.cons_cons h', ?_, hr, hlt, hstack⟩
        have hsum : total items itemId subType
            (h' :: whole items itemId subType (amount - weight items itemId subType h') rest)
          = weight items itemId subType h' + total items itemId subType
            (whole items itemId subType (amount - weight items itemId subType h') rest) :=
          List.sum_cons
        omega
      · next hless =>
        split at hs
        · next hsplit =>
          obtain ⟨rfl, rfl⟩ := Prod.mk.inj (Option.some.inj hs)
          rw [if_neg hless, if_pos hsplit]
          exact ⟨List.singleton_sublist.mpr List.mem_cons_self, Nat.zero_add _, hpos, hsplit.2,
            hsplit.1⟩
        · cases hs

/-- When nothing is cut down, what is removed in full reaches the amount. -/
theorem whole_spec (hs : splits items itemId subType amount l = none)
    (henough : amount ≤ total items itemId subType l) :
    amount ≤ total items itemId subType (whole items itemId subType amount l) ∧
      ((items itemId).stackable = true →
        total items itemId subType (whole items itemId subType amount l) = amount) := by
  induction l generalizing amount with
  | nil =>
      obtain rfl : amount = 0 := Nat.le_zero.mp henough
      exact ⟨Nat.le_refl 0, fun _ => rfl⟩
  | cons h rest ih =>
      have hcons : ∀ l', total items itemId subType (h :: l')
          = weight items itemId subType h + total items itemId subType l' := fun l' => List.sum_cons
      rw [hcons] at henough
      rw [splits] at hs
      rw [whole]
      split at hs
      · next hless =>
        obtain ⟨hreach, hexact⟩ := ih hs (by omega)
        rw [if_pos hless, hcons]
        refine ⟨by omega, fun hstack => ?_⟩
        have := hexact hstack
        omega
      · next hless =>
        split at hs
        · cases hs
        · next hsplit =>
          have hone : total items itemId subType [h] = weight items itemId subType h := by
            rw [hcons]
            rfl
          rw [if_neg hless, if_neg hsplit, hone]
          refine ⟨Nat.not_lt.mp hless, fun hstack => ?_⟩
          have := mt (And.intro hstack) hsplit
          omega

theorem whole_sublist (amount : Nat) (l : List Held) :
    (whole items itemId subType amount l).Sublist l := by
  induction l generalizing amount with
  | nil => exact .slnil
  | cons h rest ih =>
      rw [whole]
      split
      · exact (ih _).cons_cons h
      split
      · exact List.nil_sublist _
      · exact List.singleton_sublist.mpr List.mem_cons_self

/-! ## The balance -/

theorem total_perm {l l' : List Held} (h : l.Perm l') :
    total items itemId subType l = total items itemId subType l' :=
  (h.map _).sum_eq

theorem total_append (l l' : List Held) :
    total items itemId subType (l ++ l')
      = total items itemId subType l + total items itemId subType l' := by
  rw [total, List.map_append, List.sum_append]
  rfl

theorem total_cons (h : Held) (l : List Held) :
    total items itemId subType (h :: l) = weight items itemId subType h
      + total items itemId subType l := List.sum_cons

theorem total_eq_zero (l : List Held) :
    total items itemId subType l = 0 ↔ ∀ x ∈ l, weight items itemId subType x = 0 := by
  rw [total, List.sum_eq_zero_iff]
  exact List.forall_mem_map

/-- What of a stack is still counted after it was cut down. -/
theorem weight_cut (hid : h.item.id = itemId)
    (hweight : weight items itemId subType h = h.item.data.count.toNat)
    (hstack : (items itemId).stackable = true) {n : Nat} (hpos : 0 < n)
    (hlt : n < h.item.data.count.toNat) :
    weight items itemId subType (cut h n)
      = if subType = -1 ∨ (items itemId).fluid = true then weight items itemId subType h - n
        else 0 := by
  have hcount : (cut h n).item.data.count.toNat = h.item.data.count.toNat - n := by
    have := h.item.data.count.toNat_lt
    rw [cut, Item.setItemCount]
    exact UInt8.toNat_ofNat_of_lt' (show _ < 256 by omega)
  have hid' : (cut h n).item.id = itemId := hid
  have hcounted : ∀ x : Held, x.item.id = itemId → weight items itemId subType x
      = if subType = -1 ∨ subType = x.item.data.getSubType (items itemId) then
          x.item.data.count.toNat else 0 := by
    intro x hx
    rw [weight, if_pos hx, SaleList.countByType, hx]
    split
    · exact UInt8.toNat_toUInt32 _
    · rfl
  by_cases hall : subType = -1
  · rw [hcounted _ hid', if_pos (.inl hall), if_pos (.inl hall), hcount, hweight]
  · have hsub : subType = h.item.data.getSubType (items itemId) := by
      have h₁ := hcounted h hid
      by_contra hother
      rw [if_neg (by rintro (h | h); exacts [hall h, hother h])] at h₁
      omega
    cases hfluid : (items itemId).fluid with
    | true =>
        have hsame : (cut h n).item.data.getSubType (items itemId)
            = h.item.data.getSubType (items itemId) := by
          rw [Item.getSubType, Item.getSubType, if_pos hfluid, if_pos hfluid]
          rfl
        rw [hcounted _ hid', hsame, if_pos (.inr hsub), if_pos (.inr rfl), hcount, hweight]
    | false =>
        have hnot : (items itemId).fluid ≠ true := by rw [hfluid]; exact Bool.false_ne_true
        have hother : subType ≠ (cut h n).item.data.getSubType (items itemId) := by
          rw [hsub, Item.getSubType, Item.getSubType, if_neg hnot, if_neg hnot, if_pos hstack,
            if_pos hstack, hcount]
          omega
        rw [hcounted _ hid', if_neg (by rintro (h | h); exacts [hall h, hother h]),
          if_neg (by rintro (h | h); exacts [hall h, Bool.false_ne_true h])]

section Balance

variable {inventory : Inventory}

theorem effect_isNone (hl : Wanted items itemId subType inventory.slots.flatten l)
    (hnodup : l.Nodup) (hdepot : (items itemId).isDepot = false) (hpos : 0 < amount)
    (hx : x ∈ inventory.slots.flatten) :
    (effect items itemId subType amount l x).isNone = true ↔
      x ∈ whole items itemId subType amount l := by
  rw [Option.isNone_iff_eq_none]
  rcases effect_cases inventory.distinct hl hdepot hpos hx with
    ⟨hmem, heffect⟩ | ⟨r, hr, heffect⟩ | ⟨hmem, -, heffect⟩
  · exact ⟨fun _ => hmem, fun _ => heffect⟩
  · refine ⟨fun h => ?_, fun hmem => ?_⟩
    · rw [heffect] at h
      cases h
    · have hsub := (splits_spec hpos hr).1
      have hnot := (List.nodup_append.mp (hsub.nodup hnodup)).2.2 x hmem x
        (List.mem_singleton_self x)
      exact absurd rfl hnot
  · refine ⟨fun h => ?_, fun h => absurd h hmem⟩
    rw [heffect] at h
    cases h

theorem inside_eq (hl : Wanted items itemId subType inventory.slots.flatten l)
    (hnodup : l.Nodup) (hdepot : (items itemId).isDepot = false) (hpos : 0 < amount) :
    inside inventory (whole items itemId subType amount l)
      = inventory.slots.gone (effect items itemId subType amount l) := by
  refine Items.gone_congr fun x hx => ?_
  rw [Bool.eq_iff_iff, effect_isNone hl hnodup hdepot hpos hx]
  have haddress : x.address ∈ (whole items itemId subType amount l).map Held.address ↔
      x ∈ whole items itemId subType amount l := by
    constructor
    · intro h
      obtain ⟨y, hy, heq⟩ := List.mem_map.mp h
      have hcarried := hl.carried y ((whole_sublist amount l).subset hy)
      rwa [eq_of_address inventory.distinct hx hcarried heq.symm]
    · exact List.mem_map_of_mem
  rw [← haddress]
  split
  · next h => exact ⟨fun _ => h, fun _ => rfl⟩
  · next h => exact ⟨fun hsome => (by cases hsome), fun hmem => absurd hmem h⟩

/-- What goes is what is removed in full, and what is inside that. -/
theorem total_gone (hl : Wanted items itemId subType inventory.slots.flatten l) (hnodup : l.Nodup)
    (hdepot : (items itemId).isDepot = false) (hpos : 0 < amount) :
    ∃ rest : List Held,
      total items itemId subType (inventory.slots.gone (effect items itemId subType amount l))
        = total items itemId subType (whole items itemId subType amount l)
          + total items itemId subType rest ∧
      ∀ x, x ∈ rest ↔ x ∈ inventory.slots.gone (effect items itemId subType amount l) ∧
        x ∉ whole items itemId subType amount l := by
  have hnone : ∀ x ∈ inventory.slots.flatten,
      ((effect items itemId subType amount l x).isNone = true ↔
        x ∈ whole items itemId subType amount l) :=
    fun x hx => effect_isNone hl hnodup hdepot hpos hx
  have hflat : inventory.slots.flatten.Nodup := inventory.distinct.of_map _
  have hwhole : (inventory.slots.flatten.filter fun x =>
      (effect items itemId subType amount l x).isNone).Perm
        (whole items itemId subType amount l) := by
    refine (List.perm_ext_iff_of_nodup (hflat.filter _)
      ((whole_sublist amount l).nodup hnodup)).mpr fun x => ?_
    rw [List.mem_filter]
    constructor
    · rintro ⟨hx, h⟩
      exact (hnone x hx).mp h
    · intro hmem
      have hx := hl.carried x ((whole_sublist amount l).subset hmem)
      exact ⟨hx, (hnone x hx).mpr hmem⟩
  let gone := inventory.slots.gone (effect items itemId subType amount l)
  let isNone := fun x => (effect items itemId subType amount l x).isNone
  refine ⟨gone.filter fun x => !isNone x, ?_, fun x => ?_⟩
  · rw [← total_perm hwhole, ← Items.filter_gone, ← total_append]
    exact total_perm (List.filter_append_perm isNone gone).symm
  · rw [List.mem_filter]
    refine and_congr_right fun hx => ?_
    rw [← hnone x (Items.mem_flatten_of_mem_gone hx), Bool.not_eq_true', ← Bool.not_eq_true]

/-- Nothing happens to the items that stay, but for the one that is cut down. -/
theorem filterMap_kept (hl : Wanted items itemId subType inventory.slots.flatten l)
    (hdepot : (items itemId).isDepot = false) (hpos : 0 < amount) {kept : List Held}
    (hkept : kept.Subperm (inventory.slots.kept (effect items itemId subType amount l)))
    (hother : ∀ x ∈ kept, ∀ r, splits items itemId subType amount l ≠ some (x, r)) :
    kept.filterMap (effect items itemId subType amount l) = kept := by
  induction kept with
  | nil => rfl
  | cons x kept ih =>
      rw [List.forall_mem_cons] at hother
      have hmem := hkept.subset List.mem_cons_self
      have hsome := Items.isSome_of_mem_kept hmem
      have hx := Items.mem_flatten_of_mem_kept hmem
      have heffect : effect items itemId subType amount l x = some x := by
        rcases effect_cases inventory.distinct hl hdepot hpos hx with
          ⟨-, heffect⟩ | ⟨r, hr, -⟩ | ⟨-, -, heffect⟩
        · rw [heffect] at hsome
          cases hsome
        · exact absurd hr (hother.1 r)
        · exact heffect
      have htail := (List.sublist_cons_self x kept).subperm.trans hkept
      rw [List.filterMap_cons_some heffect, ih htail hother.2]

/-- No item counts for more afterwards. -/
theorem total_filterMap_le (hl : Wanted items itemId subType inventory.slots.flatten l)
    (hdepot : (items itemId).isDepot = false) (hpos : 0 < amount) :
    total items itemId subType
        (inventory.slots.filterMap (effect items itemId subType amount l)).flatten
      ≤ total items itemId subType inventory.slots.flatten := by
  have hstep : ∀ x ∈ inventory.slots.flatten, ∀ x',
      effect items itemId subType amount l x = some x' →
        weight items itemId subType x' ≤ weight items itemId subType x := by
    intro x hx x' hx'
    rcases effect_cases inventory.distinct hl hdepot hpos hx with
      ⟨-, heffect⟩ | ⟨r, hr, heffect⟩ | ⟨-, -, heffect⟩
    · rw [heffect] at hx'
      cases hx'
    · obtain ⟨hsub, -, hr, hlt, hstack⟩ := splits_spec hpos hr
      have hmem : x ∈ l := hsub.subset (List.mem_append_right _ (List.mem_singleton_self x))
      rw [heffect] at hx'
      rw [← Option.some.inj hx', weight_cut (hl.id x hmem) (hl.weight x hmem) hstack hr
        (hl.weight x hmem ▸ hlt)]
      split
      · exact Nat.sub_le _ _
      · exact Nat.zero_le _
    · rw [heffect] at hx'
      rw [Option.some.inj hx']
  have hlist : ∀ kept : List Held, (∀ x ∈ kept, x ∈ inventory.slots.flatten) →
      total items itemId subType (kept.filterMap (effect items itemId subType amount l))
        ≤ total items itemId subType kept := by
    intro kept
    induction kept with
    | nil => exact fun _ => Nat.le_refl 0
    | cons x kept ih =>
        intro hkept
        rw [List.forall_mem_cons] at hkept
        have htail := ih hkept.2
        rw [total_cons]
        cases hx : effect items itemId subType amount l x with
        | none =>
            rw [List.filterMap_cons_none hx]
            exact Nat.le_add_left_of_le htail
        | some x' =>
            rw [List.filterMap_cons_some hx, total_cons]
            exact Nat.add_le_add (hstep x hkept.1 x' hx) htail
  rw [Items.flatten_filterMap, total_perm (inventory.slots.flatten_perm
    (effect items itemId subType amount l)), total_append]
  exact Nat.le_add_left_of_le (hlist _ fun x => Items.mem_flatten_of_mem_kept)

theorem removed_amount_iff (hl : Wanted items itemId subType inventory.slots.flatten l)
    (hnodup : l.Nodup) (hdepot : (items itemId).isDepot = false) (hpos : 0 < amount)
    (henough : amount ≤ total items itemId subType l) :
    total items itemId subType
        (inventory.slots.filterMap (effect items itemId subType amount l)).flatten + amount
      = total items itemId subType inventory.slots.flatten ↔
    (total items itemId subType (whole items itemId subType amount l) = amount ∨
        CountsParts items itemId subType) ∧
      ∀ x ∈ inventory.slots.gone (effect items itemId subType amount l),
        weight items itemId subType x ≠ 0 → x ∈ whole items itemId subType amount l := by
  obtain ⟨rest, hgone, hrest⟩ := total_gone hl hnodup hdepot hpos
  have hflat : total items itemId subType inventory.slots.flatten = _ :=
    total_perm (inventory.slots.flatten_perm (effect items itemId subType amount l))
  rw [total_append, hgone] at hflat
  have hinside : (∀ x ∈ inventory.slots.gone (effect items itemId subType amount l),
      weight items itemId subType x ≠ 0 → x ∈ whole items itemId subType amount l) ↔
        total items itemId subType rest = 0 := by
    rw [total_eq_zero]
    constructor
    · intro h x hx
      obtain ⟨hx, hnot⟩ := (hrest x).mp hx
      by_contra hne
      exact hnot (h x hx hne)
    · intro h x hx hne
      by_contra hnot
      exact hne (h x ((hrest x).mpr ⟨hx, hnot⟩))
  rw [hinside, Items.flatten_filterMap, hflat]
  let kept := inventory.slots.kept (effect items itemId subType amount l)
  cases hs : splits items itemId subType amount l with
  | none =>
      obtain ⟨hreach, hexact⟩ := whole_spec hs henough
      rw [filterMap_kept hl hdepot hpos (List.Subperm.refl _) fun x _ r hr => by
        rw [hs] at hr
        cases hr]
      constructor
      · intro h
        exact ⟨.inl (by omega), by omega⟩
      · rintro ⟨heq | hparts, hzero⟩
        · omega
        · have := hexact hparts.1
          omega
  | some split =>
      obtain ⟨h, r⟩ := split
      obtain ⟨hsub, hsum, hr, hlt, hstack⟩ := splits_spec hpos hs
      have hmem : h ∈ l := hsub.subset (List.mem_append_right _ (List.mem_singleton_self h))
      have hnot : h ∉ whole items itemId subType amount l := fun hwhole =>
        (List.nodup_append.mp (hsub.nodup hnodup)).2.2 h hwhole h (List.mem_singleton_self h) rfl
      by_cases hkept : h ∈ kept
      · -- The item stays, with `r` fewer.
        obtain ⟨others, hperm⟩ : ∃ others, kept.Perm (h :: others) := by
          obtain ⟨a, b, heq⟩ := List.append_of_mem hkept
          exact ⟨a ++ b, heq ▸ List.perm_middle⟩
        have hflat : inventory.slots.flatten.Nodup := inventory.distinct.of_map _
        have hcarried : (h :: others).Nodup := hperm.nodup_iff.mp (List.nodup_append.mp
          ((inventory.slots.flatten_perm _).nodup_iff.mp hflat)).2.1
        have hothers : ∀ x ∈ others, ∀ r', splits items itemId subType amount l ≠ some (x, r') := by
          intro x hx r' hsplit
          rw [hs] at hsplit
          obtain ⟨rfl, -⟩ := Prod.mk.inj (Option.some.inj hsplit)
          exact (List.nodup_cons.mp hcarried).1 hx
        have hcut : effect items itemId subType amount l h = some (cut h r) := by
          rcases effect_cases inventory.distinct hl hdepot hpos (hl.carried h hmem) with
            ⟨hwhole, -⟩ | ⟨r', hr', heffect⟩ | ⟨-, hnone, -⟩
          · exact absurd hwhole hnot
          · rw [hs] at hr'
            obtain ⟨-, rfl⟩ := Prod.mk.inj (Option.some.inj hr')
            exact heffect
          · exact absurd hs (hnone r)
        have hafter : (kept.filterMap (effect items itemId subType amount l)).Perm
            (cut h r :: others) := by
          refine (hperm.filterMap _).trans (.of_eq ?_)
          rw [List.filterMap_cons_some hcut, filterMap_kept hl hdepot hpos
            ((List.sublist_cons_self h others).subperm.trans hperm.symm.subperm) hothers]
        have hkeptTotal : total items itemId subType kept = weight items itemId subType h
            + total items itemId subType others := by
          rw [total_perm hperm, total_cons]
        have hafterTotal : total items itemId subType
            (kept.filterMap (effect items itemId subType amount l))
              = weight items itemId subType (cut h r) + total items itemId subType others := by
          rw [total_perm hafter, total_cons]
        have hweight := weight_cut (hl.id h hmem) (hl.weight h hmem) hstack hr
          (hl.weight h hmem ▸ hlt)
        change total items itemId subType (kept.filterMap _) + amount
          = _ + total items itemId subType kept ↔ _
        rw [hafterTotal, hkeptTotal, hweight]
        split
        · next hparts =>
          constructor
          · intro heq
            exact ⟨.inr ⟨hstack, hparts⟩, by omega⟩
          · rintro ⟨-, hzero⟩
            omega
        · next hparts =>
          constructor
          · intro heq
            omega
          · rintro ⟨heq | hparts', -⟩
            · omega
            · exact absurd hparts'.2 hparts
      · -- It goes with a container that it is in.
        have hin : h ∈ inventory.slots.gone (effect items itemId subType amount l) :=
          (List.mem_append.mp ((inventory.slots.flatten_perm _).mem_iff.mp
            (hl.carried h hmem))).resolve_right hkept
        have hle : weight items itemId subType h ≤ total items itemId subType rest :=
          List.single_le_sum (fun _ _ => Nat.zero_le _) _
            (List.mem_map_of_mem ((hrest h).mpr ⟨hin, hnot⟩))
        have hothers : ∀ x ∈ kept, ∀ r', splits items itemId subType amount l ≠ some (x, r') := by
          intro x hx r' hsplit
          rw [hs] at hsplit
          obtain ⟨rfl, -⟩ := Prod.mk.inj (Option.some.inj hsplit)
          exact hkept hx
        have hsame : kept.filterMap (effect items itemId subType amount l) = kept :=
          filterMap_kept hl hdepot hpos (List.Subperm.refl _) hothers
        change total items itemId subType (kept.filterMap _) + amount
          = _ + total items itemId subType kept ↔ _
        rw [hsame]
        constructor
        · intro heq
          omega
        · rintro ⟨-, hzero⟩
          omega

theorem wanted_found (slots : Items Held Held) :
    Wanted items itemId subType slots.flatten (found items itemId subType false slots) where
  carried _ hmem := (found_subperm slots).subset hmem
  id _ hmem := (mem_found hmem).1
  weight _ hmem := (weight_found hmem).1
  pos _ hmem := (weight_found hmem).2

theorem total_found_le (slots : Items Held Held) :
    total items itemId subType (found items itemId subType false slots)
      ≤ total items itemId subType slots.flatten := by
  obtain ⟨l, hperm, hsub⟩ : List.Subperm (found items itemId subType false slots) slots.flatten :=
    found_subperm slots
  rw [← total_perm hperm]
  exact (hsub.map _).sum_le_sum fun _ _ => Nat.zero_le _

theorem found_nodup (inventory : Inventory) :
    (found items itemId subType false inventory.slots).Nodup := by
  obtain ⟨l, hperm, hsub⟩ : List.Subperm (found items itemId subType false inventory.slots)
    inventory.slots.flatten := found_subperm inventory.slots
  exact hperm.nodup_iff.mp (hsub.nodup (inventory.distinct.of_map _))

/-- Without what would not fit the count, it removes the amount if it finds enough outside the
equipped containers of the type, what it finds first is right for the amount or can be cut down, and
nothing else of the type is inside what it removes. -/
theorem item_type_removal_iff (items : UInt16 → ItemType) (inventory : Inventory)
    (itemId : UInt16) (amount : UInt32) (subType : Int)
    (hsmall : total items itemId subType inventory.slots.flatten < 2 ^ 32) :
    Agrees items inventory itemId amount subType ↔
      Removable items itemId subType inventory amount.toNat := by
  have hcount : (getItemTypeCount items inventory itemId subType).toNat
      = total items itemId subType inventory.slots.flatten := by
    rw [getItemTypeCount_toNat, Nat.mod_eq_of_lt hsmall]
  by_cases hzero : amount = 0
  · have hremove : removeItemOfType items inventory itemId amount subType false
        = (true, inventory) := if_pos hzero
    refine ⟨fun _ => .inl (by rw [hzero]; rfl), fun _ => ?_⟩
    refine ⟨?_, fun _ => ?_, fun _ => by rw [hremove]⟩
    · rw [hremove, hzero]
      exact ⟨fun _ => UInt32.zero_le, fun _ => rfl⟩
    · rw [hremove, hzero, UInt32.sub_zero]
  have hpos : 0 < amount.toNat :=
    Nat.pos_of_ne_zero fun h => hzero (UInt32.toNat_inj.mp h)
  let list := found items itemId subType false inventory.slots
  have hl : Wanted items itemId subType inventory.slots.flatten list := wanted_found _
  have hle : total items itemId subType list
      ≤ total items itemId subType inventory.slots.flatten := total_found_le _
  have hnodup : list.Nodup := found_nodup inventory
  have hcollect : collect items subType amount list 0 =
      if amount.toNat ≤ (0 : UInt32).toNat + total items itemId subType list then
        some (choose items itemId subType (amount.toNat - (0 : UInt32).toNat) list)
      else none := by
    refine collect_eq hl.id (UInt32.lt_iff_toNat_lt.mpr hpos) ?_
    rw [UInt32.toNat_zero, Nat.zero_add]
    exact Nat.lt_of_le_of_lt hle hsmall
  rw [UInt32.toNat_zero, Nat.zero_add, Nat.sub_zero] at hcollect
  by_cases henough : amount.toNat ≤ total items itemId subType list
  · rw [if_pos henough] at hcollect
    have hremove : removeItemOfType items inventory itemId amount subType false
        = (true, internalRemoveItems items (items itemId).stackable
            (choose items itemId subType amount.toNat list) amount inventory) := by
      rw [removeItemOfType, if_neg hzero, hcollect]
    have hslots : (internalRemoveItems items (items itemId).stackable
        (choose items itemId subType amount.toNat list) amount inventory).slots
          = inventory.slots.filterMap (effect items itemId subType amount.toNat list) :=
      internalRemoveItems_slots hl.weight (fun _ => rfl) inventory
    have hreach : amount ≤ getItemTypeCount items inventory itemId subType :=
      UInt32.le_iff_toNat_le.mpr (by rw [hcount]; exact Nat.le_trans henough hle)
    cases hdepot : (items itemId).isDepot with
    | true =>
        have hsame : inventory.slots.filterMap (effect items itemId subType amount.toNat list)
            = inventory.slots := by
          rw [Items.filterMap_congr fun x hx => effect_depot inventory.distinct hl hdepot hx,
            Items.filterMap_some]
        constructor
        · intro h
          have hlowers := congrArg UInt32.toNat (h.lowers (by rw [hremove]))
          rw [hremove, getItemTypeCount_toNat, hslots, hsame, ← getItemTypeCount_toNat,
            UInt32.toNat_sub_of_le _ _ hreach] at hlowers
          omega
        · rintro (h | hfew | ⟨-, hnot, -⟩)
          · exact absurd h (Nat.ne_of_gt hpos)
          · exact absurd hfew (Nat.not_lt.mpr (Nat.le_trans henough hle))
          · rw [hdepot] at hnot
            cases hnot
    | false =>
        have hsmall' := Nat.lt_of_le_of_lt (total_filterMap_le hl hdepot hpos) hsmall
        have hiff := removed_amount_iff hl hnodup hdepot hpos henough
        rw [← inside_eq hl hnodup hdepot hpos] at hiff
        have hcount' : (getItemTypeCount items
            (removeItemOfType items inventory itemId amount subType false).2 itemId subType).toNat
              = total items itemId subType
                (inventory.slots.filterMap (effect items itemId subType amount.toNat list)).flatten := by
          rw [hremove, getItemTypeCount_toNat, hslots, Nat.mod_eq_of_lt hsmall']
        constructor
        · intro h
          have hlowers := congrArg UInt32.toNat (h.lowers (by rw [hremove]))
          rw [hcount', UInt32.toNat_sub_of_le _ _ hreach, hcount] at hlowers
          exact .inr (.inr ⟨henough, hdepot, hiff.mp (by omega)⟩)
        · rintro (h | hfew | ⟨-, -, hright⟩)
          · exact absurd h (Nat.ne_of_gt hpos)
          · exact absurd hfew (Nat.not_lt.mpr (Nat.le_trans henough hle))
          · have hsum := hiff.mpr hright
            refine ⟨?_, fun _ => ?_, fun h => ?_⟩
            · rw [hremove]
              exact ⟨fun _ => hreach, fun _ => rfl⟩
            · refine UInt32.toNat_inj.mp ?_
              rw [hcount', UInt32.toNat_sub_of_le _ _ hreach, hcount]
              omega
            · rw [hremove] at h
              cases h
  · rw [if_neg henough] at hcollect
    have hremove : removeItemOfType items inventory itemId amount subType false
        = (false, inventory) := by
      rw [removeItemOfType, if_neg hzero, hcollect]
    constructor
    · intro h
      have hnot : ¬ amount ≤ getItemTypeCount items inventory itemId subType := by
        intro hreach
        have htrue := h.returns.mpr hreach
        rw [hremove] at htrue
        cases htrue
      rw [UInt32.le_iff_toNat_le, hcount, Nat.not_le] at hnot
      exact .inr (.inl hnot)
    · rintro (h | hfew | ⟨h, -⟩)
      · exact absurd h (Nat.ne_of_gt hpos)
      · refine ⟨?_, fun h => ?_, fun _ => by rw [hremove]⟩
        · rw [hremove, UInt32.le_iff_toNat_le, hcount]
          exact ⟨fun h => (by cases h), fun h => absurd h (Nat.not_le.mpr hfew)⟩
        · rw [hremove] at h
          cases h
      · exact absurd h henough

end Balance

/-! ## Bags -/

/-- Bags, and coins that are stacked. -/
def bagsAndCoins (id : UInt16) : ItemType := { stackable := id = 2148 }

def stack (address : Nat) (id : UInt16) (count : UInt8) : Held where
  address := address
  item := { Tile.plainItem id with data := { (Tile.plainItem id).data with count := count } }

/-- A bag in a slot with another bag in it, and a hundred coins in that one. -/
def twoBags : Inventory where
  slots := .container (stack 0 1987 1)
    (.container (stack 1 1987 1) (.item (stack 2 2148 100) .nil) .nil) .nil
  distinct := by decide

/-- There are two bags, but only the equipped one is found. -/
theorem item_type_removal_bags :
    ¬ ∀ (items : UInt16 → ItemType) (inventory : Inventory) (itemId : UInt16) (amount : UInt32)
      (subType : Int), Agrees items inventory itemId amount subType := by
  intro h
  have hbags := (h bagsAndCoins twoBags 1987 2 (-1)).returns
  have hcount : getItemTypeCount bagsAndCoins twoBags 1987 (-1) = 2 := by decide +kernel
  have hremove : (removeItemOfType bagsAndCoins twoBags 1987 2 (-1) false).1 = false := by
    decide +kernel
  rw [hcount, hremove] at hbags
  cases hbags.mpr UInt32.le_rfl

/-- Thirty of the coins are removed. -/
theorem item_type_removal_coins : Agrees bagsAndCoins twoBags 2148 30 (-1) := by
  have htotal : total bagsAndCoins 2148 (-1) twoBags.slots.flatten = 100 := by decide +kernel
  refine (item_type_removal_iff bagsAndCoins twoBags 2148 30 (-1) (by rw [htotal]; decide)).mpr ?_
  have hfound : total bagsAndCoins 2148 (-1)
      (found bagsAndCoins 2148 (-1) false twoBags.slots) = 100 := by decide +kernel
  have hlength : (whole bagsAndCoins 2148 (-1) 30
      (found bagsAndCoins 2148 (-1) false twoBags.slots)).length = 0 := by decide +kernel
  have hwhole := List.length_eq_zero_iff.mp hlength
  refine .inr (.inr ⟨by rw [hfound]; decide, rfl, .inr ⟨rfl, .inl rfl⟩, fun x hx => ?_⟩)
  rw [show (30 : UInt32).toNat = 30 from rfl, hwhole] at hx
  cases hx

end Bruxo.ItemTypeRemoval
