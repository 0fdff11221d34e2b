import Bruxo.HouseTile

/-!
# House tiles read back

A container is read back whole (`loadContainer_save`): its end is the byte that the attributes of
a container leave. A tile is read back from its end: before each step the items to come are as on
the map and those behind them are restored, and the step restores one more in its place.

It is so if every type still exists, no other item is found before the one of the map, and every
new item comes to its place (`HouseTile.Restorable`).
-/

namespace Bruxo.MapSerialize

open Bytes

variable {items : UInt16 → HouseItemType} {α : Type} (A : Attributes items α)

/-! ## Containers -/

/-- Its type exists and is created as itself, and its attributes can be stored. -/
structure SavableItem (id : UInt16) (attrs : α) (itemlist : Items α) : Prop where
  created : CreateItem items id = some id
  storable : A.Storable id attrs
  container : (items id).getContainer = false → itemlist = .nil
  size : itemlist.length < 256 ^ 4

def Items.Savable : Items α → Prop
  | .nil => True
  | .cons id attrs itemlist rest =>
      SavableItem A id attrs itemlist ∧ itemlist.Savable ∧ rest.Savable

def Items.restored : Items α → Items α
  | .nil => .nil
  | .cons id attrs itemlist rest =>
      .cons id (A.restore id (A.create id) attrs) itemlist.restored rest.restored

/-- The turns of the loops. -/
def Items.turns : Items α → Nat
  | .nil => 0
  | .cons _ _ itemlist rest => itemlist.turns + rest.turns + 2

theorem Items.length_le_turns (list : Items α) : 2 * list.length ≤ list.turns := by
  induction list with
  | nil => exact Nat.le_refl 0
  | cons id attrs itemlist rest _ ih =>
      simp only [Items.length, Items.turns]
      omega

theorem Items.append_nil (list : Items α) : list.append .nil = list := by
  induction list with
  | nil => rfl
  | cons id attrs itemlist rest _ ih => rw [Items.append, ih]

theorem sameKind_self (id : UInt16) : SameKind items id id := .inl rfl

theorem read_id (id : UInt16) (rest : List UInt8) :
    (⟨leBytes 2 id.toNat ++ rest⟩ : PropStream).read 2 = some (id.toNat, ⟨rest⟩) :=
  PropStream.read_write id.toNat_lt rest

theorem loadContainer_end (fuel : Nat) (rest : List UInt8) (list : Items α) :
    loadContainer A fuel 0 ⟨leBytes 1 0 ++ rest⟩ list = some (true, list, ⟨rest⟩) := by
  rw [loadContainer, PropStream.read_write (by decide)]
  rfl

/-- One item, where its item list is read back. -/
theorem loadItem_saveItem {id : UInt16} {attrs : α} {itemlist : Items α}
    (h : SavableItem A id attrs itemlist) {fuel : Nat}
    (hin : ∀ rest, loadContainer A fuel itemlist.length ⟨itemlist.save A ++ (leBytes 1 0 ++ rest)⟩
      .nil = some (true, itemlist.restored A, ⟨rest⟩)) (rest : List UInt8) (list : Items α) :
    loadItem A (fuel + 1) ⟨saveItem A id attrs itemlist.length (itemlist.save A) ++ rest⟩ list =
      some (true, .cons id (A.restore id (A.create id) attrs) (itemlist.restored A) list,
        ⟨rest⟩) := by
  cases hcontainer : (items id).getContainer with
  | true =>
      have hread := A.read_items hcontainer h.storable h.size (A.create id)
        (itemlist.save A ++ (leBytes 1 0 ++ rest))
      rw [saveItem, if_pos hcontainer]
      simp only [List.append_assoc] at hread ⊢
      simp only [loadItem, read_id, UInt16.ofNat_toNat, h.created, hread, hin, hcontainer,
        Bool.not_true, Bool.false_eq_true, if_false, if_true]
  | false =>
      obtain rfl := h.container hcontainer
      have hread := A.read_end (sameKind_self id) h.storable (A.create id) rest
      rw [saveItem, hcontainer]
      simp only [List.append_assoc, List.nil_append, Bool.false_eq_true, if_false] at hread ⊢
      simp only [loadItem, read_id, UInt16.ofNat_toNat, h.created, hread, hcontainer,
        Bool.not_true, Bool.false_eq_true, if_false, Items.restored]

/-- The items of a container are read from the last to the first, and put in front. -/
theorem loadContainer_items {list : Items α} (h : list.Savable A) {fuel : Nat}
    (hfuel : list.turns ≤ fuel) (count : Nat) (rest : List UInt8) (acc : Items α) :
    loadContainer A fuel (list.length + count) ⟨list.save A ++ rest⟩ acc =
      loadContainer A (fuel - list.length) count ⟨rest⟩ ((list.restored A).append acc) := by
  induction list generalizing fuel count rest acc with
  | nil =>
      rw [Items.length, Nat.zero_add]
      rfl
  | cons id attrs itemlist others ihin ih =>
      obtain ⟨hitem, hin, hothers⟩ := h
      simp only [Items.turns] at hfuel
      have hlen := others.length_le_turns
      obtain ⟨fuel', hfuel'⟩ : ∃ fuel', fuel - others.length = fuel' + 1 + 1 :=
        ⟨fuel - others.length - 2, by omega⟩
      have hcontents : ∀ rest, loadContainer A fuel' itemlist.length
          ⟨itemlist.save A ++ (leBytes 1 0 ++ rest)⟩ .nil =
            some (true, itemlist.restored A, ⟨rest⟩) := by
        intro rest
        have hfuelin : itemlist.turns ≤ fuel' := by omega
        have := ihin hin hfuelin 0 (leBytes 1 0 ++ rest) .nil
        rw [Nat.add_zero] at this
        rw [this, loadContainer_end, Items.append_nil]
      have hcount : others.length + 1 + count = others.length + (count + 1) := by omega
      rw [Items.length, hcount, Items.save, List.append_assoc, ih hothers (by omega), hfuel',
        loadContainer, loadItem_saveItem A hitem hcontents]
      have hrest : fuel - (others.length + 1) = fuel' + 1 := by omega
      rw [hrest]
      rfl

theorem loadContainer_save {list : Items α} (h : list.Savable A) {fuel : Nat}
    (hfuel : list.turns ≤ fuel) (rest : List UInt8) :
    loadContainer A fuel list.length ⟨list.save A ++ (leBytes 1 0 ++ rest)⟩ .nil =
      some (true, list.restored A, ⟨rest⟩) := by
  have := loadContainer_items A h hfuel 0 (leBytes 1 0 ++ rest) .nil
  rw [Nat.add_zero] at this
  rw [this, loadContainer_end, Items.append_nil]

theorem length_saveItem_le (id : UInt16) (attrs : α) (itemlist : Items α)
    (h : (items id).getContainer = false → itemlist = .nil) :
    (itemlist.save A).length + 2 ≤
      (saveItem A id attrs itemlist.length (itemlist.save A)).length := by
  rw [saveItem]
  simp only [List.length_append, length_leBytes]
  cases hcontainer : (items id).getContainer with
  | true =>
      simp only [if_true, List.length_append, length_leBytes]
      omega
  | false =>
      obtain rfl := h hcontainer
      simp only [Items.save, List.length_nil]
      omega

/-- Every turn takes a byte at least. -/
theorem Items.turns_le_save {list : Items α} (h : list.Savable A) :
    list.turns ≤ (list.save A).length := by
  induction list with
  | nil => exact Nat.le_refl 0
  | cons id attrs itemlist others ihin ih =>
      obtain ⟨hitem, hin, hothers⟩ := h
      have hfirst := ihin hin
      have hrest := ih hothers
      have hbytes := length_saveItem_le A id attrs itemlist hitem.container
      simp only [Items.turns, Items.save, List.length_append]
      omega

/-! ## Items of a tile -/

/-- A place in the items of a tile: what is there now, and what the map gives for it. -/
inductive Cell (α : Type) where
  /-- Not of the map. -/
  | new (now : Item α)
  /-- Of the map, and in this layer there too. -/
  | stays (now item : Item α)
  /-- Of the map, but in the other layer there, as the closed door of an open one. -/
  | comes (now item : Item α)
  /-- There on the map only: it comes to the cell of the other layer with so many behind it. -/
  | leaves (item : Item α) (behind : Nat)

def Item.Savable (item : Item α) : Prop :=
  SavableItem A item.id item.attrs item.itemlist ∧ item.itemlist.Savable A

/-- The item of the map that takes another id. -/
def Attributes.retype (id newId : UInt16) (attrs : α) : α :=
  if id = newId then attrs else A.transform id newId attrs

/-- The item of the map with the saved state of `now`. -/
def Item.restored (now item : Item α) : Item α :=
  ⟨now.id, A.retype item.id now.id (A.restore item.id item.attrs now.attrs),
    now.itemlist.restored A⟩

/-- A new item with the saved state of `now`. -/
def Item.restoredNew (now : Item α) : Item α :=
  ⟨now.id, A.restore now.id (A.create now.id) now.attrs, now.itemlist.restored A⟩

namespace Cell

def now : Cell α → Option (Item α)
  | new now => some now
  | stays now _ => some now
  | comes now _ => some now
  | leaves .. => none

/-- The item of the other layer that comes here. -/
def arrival : Cell α → Option (Item α)
  | comes _ item => some item
  | _ => none

/-- The item that comes to the cell of the other layer with so many behind it. -/
def departure (k : Nat) : Cell α → Option (Item α)
  | leaves item behind => if behind = k then some item else none
  | _ => none

variable (items) in
/-- What is written. -/
def saved (c : Cell α) : Option (Item α) := c.now.filter (Item.isSaved items)

/-- What is to be there after the load. What is not saved is to be as it was. -/
def restored : Cell α → Option (Item α)
  | new now => some (now.restoredNew A)
  | stays now item => some (if now.isSaved items then now.restored A item else now)
  | comes now item => some (now.restored A item)
  | leaves .. => none

/-- What is there before and after the load of the cell, when the last `taken` cells of the other
layer are loaded. -/
def shows (loaded : Bool) (taken : Nat) : Cell α → Option (Item α)
  | leaves item behind => if behind < taken then none else some item
  | stays now item => if loaded then restored A (stays now item) else some item
  | c => if loaded then restored A c else none

/-- When a cell gets its item back: the one of the map is the first that is found, behind `above`
or where it comes from behind `ahead`, and a new one comes to its place. -/
inductive Restorable (above ahead : List (Item α)) (newPlace place : Item α → Prop) :
    Cell α → Prop where
  /-- As on the map. -/
  | unsaved (item : Item α) (hsaved : item.isSaved items = false) :
      Restorable above ahead newPlace place (stays item item)
  | new (now : Item α) (hsavable : now.Savable A)
      (hloose : ((items now.id).moveable || (items now.id).forceSerialize) = true)
      (hplace : newPlace now) : Restorable above ahead newPlace place (new now)
  /-- On the map there is nothing in it, if it is a container. -/
  | stays (now item : Item α) (hsaved : now.isSaved items = true) (hsavable : now.Savable A)
      (hfixed : ((items now.id).moveable || (items now.id).forceSerialize) = false)
      (hfirst : ∀ other ∈ above, isFound items now.id other = false)
      (hkind : SameKind items now.id item.id) (hempty : item.itemlist = .nil)
      (htop : (items item.id).alwaysOnTop = (items now.id).alwaysOnTop) :
      Restorable above ahead newPlace place (stays now item)
  | comes (now item : Item α) (hsaved : now.isSaved items = true) (hsavable : now.Savable A)
      (hfixed : ((items now.id).moveable || (items now.id).forceSerialize) = false)
      (hfirst : ∀ other ∈ ahead, isFound items now.id other = false)
      (hkind : SameKind items now.id item.id) (hempty : item.itemlist = .nil)
      (htop : (items item.id).alwaysOnTop ≠ (items now.id).alwaysOnTop) (hplace : place now) :
      Restorable above ahead newPlace place (comes now item)
  | leaves (item : Item α) (behind : Nat) :
      Restorable above ahead newPlace place (leaves item behind)

end Cell

/-! ## The items of a layer -/

/-- The items that are there. -/
def shown (loaded : Bool) (taken : Nat) (cells : List (Cell α)) : List (Item α) :=
  cells.filterMap (Cell.shows A loaded taken)

/-- The cells before the one from which the item comes to the other layer. -/
def aheadOf (k : Nat) (cells : List (Cell α)) : List (Cell α) :=
  cells.takeWhile fun c => (c.departure k).isNone

theorem shown_append (loaded : Bool) (taken : Nat) (before behind : List (Cell α)) :
    shown A loaded taken (before ++ behind) =
      shown A loaded taken before ++ shown A loaded taken behind :=
  List.filterMap_append

theorem shown_snoc (loaded : Bool) (taken : Nat) (before : List (Cell α)) (c : Cell α) :
    shown A loaded taken (before ++ [c]) =
      shown A loaded taken before ++ (c.shows A loaded taken).toList := by
  rw [shown_append, shown, shown, List.filterMap_cons]
  cases c.shows A loaded taken <;> rfl

theorem shown_cons (loaded : Bool) (taken : Nat) (c : Cell α) (behind : List (Cell α)) :
    shown A loaded taken (c :: behind) =
      (c.shows A loaded taken).toList ++ shown A loaded taken behind := by
  rw [shown, List.filterMap_cons]
  cases c.shows A loaded taken <;> rfl

theorem shows_succ {k : Nat} {c : Cell α} (h : c.departure k = none) (loaded : Bool) :
    c.shows A loaded (k + 1) = c.shows A loaded k := by
  cases c with
  | leaves item behind =>
      have hne : behind ≠ k := by
        rintro rfl
        simp [Cell.departure] at h
      have hiff : behind < k + 1 ↔ behind < k := by omega
      simp only [Cell.shows, hiff]
  | new | stays | comes => rfl

theorem shown_succ {k : Nat} {cells : List (Cell α)}
    (h : cells.filterMap (Cell.departure k) = []) (loaded : Bool) :
    shown A loaded (k + 1) cells = shown A loaded k cells := by
  rw [List.filterMap_eq_nil_iff] at h
  exact List.filterMap_congr fun c hc => shows_succ A (h c hc) loaded

/-- The item that comes to the other layer, with what stands before it and behind it. -/
theorem shown_departure {k : Nat} {cells : List (Cell α)} {item : Item α}
    (h : cells.filterMap (Cell.departure k) = [item]) (loaded : Bool) :
    ∃ behind, shown A loaded k cells = shown A loaded k (aheadOf k cells) ++ item :: behind ∧
      shown A loaded (k + 1) cells = shown A loaded k (aheadOf k cells) ++ behind := by
  obtain ⟨before, c, after, rfl, hbefore, hc, hafter⟩ := List.filterMap_eq_cons_iff.mp h
  have hahead : aheadOf k (before ++ c :: after) = before := by
    rw [aheadOf, List.takeWhile_append_of_pos (by simpa using hbefore), List.takeWhile_cons]
    simp [hc]
  have hbefore' : before.filterMap (Cell.departure k) = [] := List.filterMap_eq_nil_iff.mpr hbefore
  have hshows : c.shows A loaded k = some item ∧ c.shows A loaded (k + 1) = none := by
    cases c with
    | leaves item' behind =>
        simp only [Cell.departure] at hc
        split at hc
        · next heq =>
            subst heq
            simp [Cell.shows, Option.some.inj hc]
        · cases hc
    | new | stays | comes => cases hc
  refine ⟨shown A loaded k after, ?_, ?_⟩
  · rw [hahead, shown_append, shown_cons, hshows.1]
    rfl
  · rw [hahead, shown_append, shown_cons, hshows.2, shown_succ A hbefore', shown_succ A hafter]
    rfl

/-- Before the load of a layer the other one shows what the map gives, after it nothing that
left. -/
theorem shown_length {cells : List (Cell α)} {n : Nat}
    (h : ∀ k, n ≤ k → cells.filterMap (Cell.departure k) = []) :
    shown A true n cells = cells.filterMap (Cell.restored A) := by
  refine List.filterMap_congr fun c hc => ?_
  cases c with
  | leaves item behind =>
      have hlt : behind < n := by
        by_contra hle
        have := List.filterMap_eq_nil_iff.mp (h behind (Nat.le_of_not_lt hle)) _ hc
        simp [Cell.departure] at this
      simp only [Cell.shows, hlt, if_true]
      rfl
  | new | stays | comes => rfl

theorem length_shown_le (loaded : Bool) (taken : Nat) (cells : List (Cell α)) :
    (shown A loaded taken cells).length ≤ cells.length :=
  List.length_filterMap_le _ _

/-! ## The load of an item -/

theorem SameKind.getContainer {id id' : UInt16} (h : SameKind items id id') :
    (items id').getContainer = (items id).getContainer ∧
      ((items id').getContainer = true → id' = id) := by
  rcases h with rfl | ⟨h', h⟩ | ⟨h', h⟩
  · exact ⟨rfl, fun _ => rfl⟩
  · simp only [HouseItemType.getDoor, Bool.and_eq_true, Bool.not_eq_true'] at h h'
    refine ⟨by rw [h.1, h'.1], fun hc => ?_⟩
    rw [h'.1] at hc
    cases hc
  · simp only [HouseItemType.getBed, Bool.and_eq_true, Bool.not_eq_true'] at h h'
    refine ⟨by rw [h.1, h'.1], fun hc => ?_⟩
    rw [h'.1] at hc
    cases hc

theorem SameKind.isFound {id : UInt16} {item : Item α} (h : SameKind items id item.id) :
    isFound items id item = true := by
  rcases h with h | ⟨h', h⟩ | ⟨h', h⟩
  · simp [MapSerialize.isFound, h]
  · simp only [HouseItemType.getDoor, Bool.and_eq_true] at h
    simp [MapSerialize.isFound, h.2, h']
  · simp only [HouseItemType.getBed, Bool.and_eq_true] at h
    simp [MapSerialize.isFound, h.2, h']

theorem find_eq {p : Item α → Bool} {before behind : List (Item α)} {item : Item α}
    (hbefore : ∀ other ∈ before, p other = false) (hitem : p item = true) :
    find p (before ++ item :: behind) = some (before, item, behind) := by
  induction before with
  | nil => rw [List.nil_append, find, if_pos hitem]
  | cons other before ih =>
      have hother := hbefore other List.mem_cons_self
      rw [List.cons_append, find, hother, if_neg Bool.false_ne_true,
        ih fun other h => hbefore other (List.mem_cons_of_mem _ h)]
      rfl

theorem id_ne_zero_of_createItem {id : UInt16} (h : CreateItem items id = some id) :
    (items id).id ≠ 0 := by
  intro hzero
  simp only [CreateItem, hzero, ne_eq, not_true, if_false] at h
  split at h <;> cases h

section Step

variable {A} {fuel : Nat} {item : Item α} {tile : Tile α}

theorem loadTileItem_loose (h : item.Savable A) (hfuel : item.itemlist.turns ≤ fuel)
    (hloose : ((items item.id).moveable || (items item.id).forceSerialize) = true)
    (rest : List UInt8) :
    loadTileItem A fuel ⟨item.save A ++ rest⟩ tile =
      some (true, tile.internalAddThing items (item.restoredNew A), ⟨rest⟩) := by
  obtain ⟨hitem, hin⟩ := h
  have hload := loadItem_saveItem A hitem (loadContainer_save A hin hfuel) rest .nil
  have hread : (⟨item.save A ++ rest⟩ : PropStream).read 2 =
      some (item.id.toNat, ⟨(A.serializeAttr item.id item.attrs ++
        (if (items item.id).getContainer then
          leBytes 1 containerItems ++ leBytes 4 item.itemlist.length ++ item.itemlist.save A
        else []) ++ leBytes 1 0) ++ rest⟩) := by
    rw [Item.save, saveItem]
    simp only [List.append_assoc]
    exact read_id ..
  rw [loadTileItem, hread]
  simp only [UInt16.ofNat_toNat, hloose, if_true]
  rw [Item.save, hload]
  rfl

/-- In the place where it was found. -/
theorem transformItem_stays (item : Item α) {before behind : List (Item α)} {newId : UInt16}
    (hid : (items newId).id ≠ 0)
    (htop : (items item.id).alwaysOnTop = (items newId).alwaysOnTop) :
    tile.transformItem A before behind item newId =
      { tile with
        items := before ++ ⟨newId, A.retype item.id newId item.attrs, item.itemlist⟩ :: behind } := by
  rw [Tile.transformItem, Attributes.retype]
  by_cases h : item.id = newId
  · rw [if_pos (.inl h), if_pos h, ← h]
  · rw [if_neg (by simp [h, hid]), if_neg (not_not.mpr htop), if_neg h]

/-- What is found takes the state, and the contents in front of what it has. -/
theorem loadTileItem_found {now : Item α} (h : now.Savable A)
    (hfuel : now.itemlist.turns ≤ fuel)
    (hfixed : ((items now.id).moveable || (items now.id).forceSerialize) = false)
    {before behind : List (Item α)} (htile : tile.items = before ++ item :: behind)
    (hfirst : ∀ other ∈ before, isFound items now.id other = false)
    (hkind : SameKind items now.id item.id)
    (hcontents : (items item.id).getContainer = false → item.itemlist = .nil)
    (rest : List UInt8) :
    loadTileItem A fuel ⟨now.save A ++ rest⟩ tile =
      some (true, tile.transformItem A before behind
        ⟨item.id, A.restore item.id item.attrs now.attrs,
          (now.itemlist.restored A).append item.itemlist⟩ now.id, ⟨rest⟩) := by
  obtain ⟨hitem, hin⟩ := h
  have hfind : find (isFound items now.id) tile.items = some (before, item, behind) := by
    rw [htile]
    exact find_eq hfirst hkind.isFound
  obtain ⟨hsame, hid'⟩ := hkind.getContainer
  rw [loadTileItem, Item.save, saveItem]
  simp only [List.append_assoc, read_id, UInt16.ofNat_toNat, hfixed, Bool.false_eq_true, if_false,
    hfind]
  cases hcontainer : (items now.id).getContainer with
  | true =>
      have hcontainer' : (items item.id).getContainer = true := hsame.trans hcontainer
      have hread := A.read_items hcontainer hitem.storable hitem.size item.attrs
        (now.itemlist.save A ++ (leBytes 1 0 ++ rest))
      have hload := loadContainer_items A hin hfuel 0 (leBytes 1 0 ++ rest) item.itemlist
      have hid'' := hid' hcontainer'
      rw [Nat.add_zero, loadContainer_end] at hload
      simp only [List.append_assoc] at hread
      simp only [hid'', hcontainer, hread, hload, if_true, Bool.not_true, Bool.false_eq_true,
        if_false, List.append_assoc]
  | false =>
      have hcontainer' : (items item.id).getContainer = false := hsame.trans hcontainer
      have hread := A.read_end hkind hitem.storable item.attrs rest
      simp only [List.append_assoc] at hread
      simp only [hcontainer', hread, Bool.not_true, Bool.false_eq_true, if_false, List.nil_append]
      rw [hitem.container hcontainer, hcontents hcontainer']
      rfl

theorem loadTileItem_stays {now : Item α} (h : now.Savable A)
    (hfuel : now.itemlist.turns ≤ fuel)
    (hfixed : ((items now.id).moveable || (items now.id).forceSerialize) = false)
    {before behind : List (Item α)} (htile : tile.items = before ++ item :: behind)
    (hfirst : ∀ other ∈ before, isFound items now.id other = false)
    (hkind : SameKind items now.id item.id) (hempty : item.itemlist = .nil)
    (htop : (items item.id).alwaysOnTop = (items now.id).alwaysOnTop) (rest : List UInt8) :
    loadTileItem A fuel ⟨now.save A ++ rest⟩ tile =
      some (true, { tile with items := before ++ now.restored A item :: behind }, ⟨rest⟩) := by
  have hstays : tile.transformItem A before behind
      ⟨item.id, A.restore item.id item.attrs now.attrs, now.itemlist.restored A⟩ now.id = _ :=
    transformItem_stays _ (id_ne_zero_of_createItem h.1.created) htop
  rw [loadTileItem_found h hfuel hfixed htile hfirst hkind (fun _ => hempty), hempty,
    Items.append_nil, hstays]
  rfl

end Step

/-! ## The place of an item that comes -/

def arrange (down top : List (Item α)) : Tile α := ⟨down ++ top, down.length⟩

theorem insertTop_eq {item : Item α} {before behind : List (Item α)}
    (hbefore : ∀ other ∈ before,
      (items other.id).alwaysOnTopOrder ≤ (items item.id).alwaysOnTopOrder)
    (hbehind : ∀ other ∈ behind.head?,
      (items item.id).alwaysOnTopOrder < (items other.id).alwaysOnTopOrder) :
    insertTop items item (before ++ behind) = before ++ item :: behind := by
  induction before with
  | nil =>
      cases behind with
      | nil => rfl
      | cons other behind => exact if_pos (hbehind other rfl)
  | cons other before ih =>
      have hle := hbefore other List.mem_cons_self
      rw [List.cons_append, insertTop, if_neg (by simpa using hle),
        ih fun other h => hbefore other (List.mem_cons_of_mem _ h)]
      rfl

theorem internalAddThing_down {item : Item α} {down top : List (Item α)}
    (hground : (items item.id).isGroundTile = false)
    (htop : (items item.id).alwaysOnTop = false) (hlen : (down ++ top).length < 0xFFFF) :
    (arrange down top).internalAddThing items item = arrange (item :: down) top := by
  rw [Tile.internalAddThing]
  simp only [hground, htop, Bool.false_eq_true, if_false]
  exact if_neg (Nat.not_le.mpr hlen)

theorem internalAddThing_top {item : Item α} {down before behind : List (Item α)}
    (hground : (items item.id).isGroundTile = false)
    (htop : (items item.id).alwaysOnTop = true)
    (hlen : (down ++ (before ++ behind)).length < 0xFFFF)
    (hbefore : ∀ other ∈ before,
      (items other.id).alwaysOnTopOrder ≤ (items item.id).alwaysOnTopOrder)
    (hbehind : ∀ other ∈ behind.head?,
      (items item.id).alwaysOnTopOrder < (items other.id).alwaysOnTopOrder) :
    (arrange down (before ++ behind)).internalAddThing items item =
      arrange down (before ++ item :: behind) := by
  rw [Tile.internalAddThing]
  simp only [hground, htop, Bool.false_eq_true, if_false, if_true]
  refine (if_neg (Nat.not_le.mpr hlen)).trans ?_
  simp only [arrange, List.take_left, List.drop_left, insertTop_eq hbefore hbehind]

/-- A down item goes to the items that are always on top, before those of its order. -/
theorem transformItem_rises (item : Item α) {ahead others before behind : List (Item α)}
    {newId : UInt16} {tile : Tile α} (hcount : tile.downItemCount = (ahead ++ item :: others).length)
    (hid : (items newId).id ≠ 0) (hdown : (items item.id).alwaysOnTop = false)
    (htop : (items newId).alwaysOnTop = true)
    (hbefore : ∀ other ∈ before,
      (items other.id).alwaysOnTopOrder < (items newId).alwaysOnTopOrder)
    (hbehind : ∀ other ∈ behind.head?,
      (items newId).alwaysOnTopOrder ≤ (items other.id).alwaysOnTopOrder) :
    tile.transformItem A ahead (others ++ (before ++ behind)) item newId =
      arrange (ahead ++ others)
        (before ++ ⟨newId, A.retype item.id newId item.attrs, item.itemlist⟩ :: behind) := by
  have hne : item.id ≠ newId := by
    intro h
    rw [h, htop] at hdown
    cases hdown
  have hspan : (before ++ behind).span (fun other =>
      (items other.id).alwaysOnTopOrder < (items newId).alwaysOnTopOrder) = (before, behind) := by
    have hbehind' : behind.takeWhile (fun other =>
        decide ((items other.id).alwaysOnTopOrder < (items newId).alwaysOnTopOrder)) = [] := by
      cases behind with
      | nil => rfl
      | cons other behind =>
          have hle := hbehind other rfl
          rw [List.takeWhile_cons, if_neg (by simpa using hle)]
    have hdrop : behind.dropWhile (fun other =>
        decide ((items other.id).alwaysOnTopOrder < (items newId).alwaysOnTopOrder)) = behind := by
      have := List.takeWhile_append_dropWhile (p := fun other : Item α =>
        decide ((items other.id).alwaysOnTopOrder < (items newId).alwaysOnTopOrder)) (l := behind)
      rw [hbehind', List.nil_append] at this
      exact this
    rw [List.span_eq_takeWhile_dropWhile, List.takeWhile_append_of_pos (by simpa using hbefore),
      List.dropWhile_append_of_pos (by simpa using hbefore), hbehind', hdrop, List.append_nil]
  have hlength : tile.downItemCount - 1 = (ahead ++ others).length := by
    rw [hcount]
    simp only [List.length_append, List.length_cons]
    omega
  rw [Tile.transformItem, if_neg (by simp [hne, hid]), Attributes.retype, if_neg hne]
  have hitems : ahead ++ (others ++ (before ++ behind)) = (ahead ++ others) ++ (before ++ behind) :=
    (List.append_assoc ..).symm
  simp only [hdown, htop, ne_eq, Bool.false_eq_true, not_false_eq_true, if_true, if_false,
    Tile.addThing, arrange, hlength, hitems, List.take_left, List.drop_left, hspan]
  rw [List.append_assoc (ahead ++ others)]

/-- An item that was always on top goes before the down items. -/
theorem transformItem_falls (item : Item α) {down ahead others : List (Item α)}
    {newId : UInt16} {tile : Tile α} (hcount : tile.downItemCount = down.length)
    (hid : (items newId).id ≠ 0) (htop : (items item.id).alwaysOnTop = true)
    (hdown : (items newId).alwaysOnTop = false) :
    tile.transformItem A (down ++ ahead) others item newId =
      arrange (⟨newId, A.retype item.id newId item.attrs, item.itemlist⟩ :: down)
        (ahead ++ others) := by
  have hne : item.id ≠ newId := by
    intro h
    rw [h, hdown] at htop
    cases htop
  rw [Tile.transformItem, if_neg (by simp [hne, hid]), Attributes.retype, if_neg hne]
  simp only [hdown, htop, ne_eq, Bool.true_eq_false, not_false_eq_true, if_true,
    Bool.false_eq_true, if_false, Tile.addThing, arrange, hcount, List.append_assoc, List.cons_append,
    List.length_cons]

/-! ## A tile -/

/-- In the cells of the one layer are the items that come to the cells of the other. -/
def Matched (cells others : List (Cell α)) : Prop :=
  ∀ k, cells.filterMap (Cell.departure k) = (others.reverse[k]?.bind Cell.arrival).toList

/-- The items of a house tile in their order, and the tile as the map is loaded. -/
structure HouseTile (items : UInt16 → HouseItemType) (α : Type) where
  down : List (Cell α)
  top : List (Cell α)
  fresh : Tile α
  down_type : ∀ now ∈ down.filterMap Cell.now, (items now.id).alwaysOnTop = false
  top_type : ∀ now ∈ top.filterMap Cell.now, (items now.id).alwaysOnTop = true
  no_ground : ∀ now ∈ (down ++ top).filterMap Cell.now, (items now.id).isGroundTile = false
  down_matched : Matched down top
  top_matched : Matched top down
  length_le : (down ++ top).length ≤ 0xFFFF

def HouseTile.now (t : HouseTile items α) : List (Item α) := (t.down ++ t.top).filterMap Cell.now

def HouseTile.restored (t : HouseTile items α) : Tile α :=
  arrange (t.down.filterMap (Cell.restored A)) (t.top.filterMap (Cell.restored A))

variable (items) in
/-- A new item comes behind those of no greater order, and before those of a greater one. -/
def NewTopPlace (before behind : List (Item α)) (now : Item α) : Prop :=
  (∀ other ∈ before, (items other.id).alwaysOnTopOrder ≤ (items now.id).alwaysOnTopOrder) ∧
  ∀ other ∈ behind.head?, (items now.id).alwaysOnTopOrder < (items other.id).alwaysOnTopOrder

variable (items) in
/-- One from the down items comes before those of its order too. -/
def TopPlace (before behind : List (Item α)) (now : Item α) : Prop :=
  (∀ other ∈ before, (items other.id).alwaysOnTopOrder < (items now.id).alwaysOnTopOrder) ∧
  ∀ other ∈ behind.head?, (items now.id).alwaysOnTopOrder ≤ (items other.id).alwaysOnTopOrder

/-- The map gives the tile its items in the order that they have, and each item that is saved
gets back its state and its place. What comes to the down items lies on those of the map. -/
structure HouseTile.Restorable (t : HouseTile items α) : Prop where
  fresh : t.fresh = arrange (shown A false 0 t.down) (shown A false 0 t.top)
  top : ∀ before c behind, t.top = before ++ c :: behind →
    c.Restorable A
      (shown A false behind.length t.down ++ shown A false 0 before)
      (shown A false behind.length (aheadOf behind.length t.down))
      (NewTopPlace items (shown A false 0 before) (shown A true 0 behind))
      (TopPlace items (shown A false 0 before) (shown A true 0 behind))
  down : ∀ before c behind, t.down = before ++ c :: behind →
    c.Restorable A
      (shown A false t.top.length before)
      (shown A false t.top.length before ++ shown A true t.top.length behind ++
        shown A true behind.length (aheadOf behind.length t.top))
      (fun _ => shown A false t.top.length before = [])
      (fun _ => shown A false t.top.length before = [])

theorem Matched.at_split {cells others : List (Cell α)} (h : Matched cells others)
    {before behind : List (Cell α)} {c : Cell α} (heq : others = before ++ c :: behind) :
    cells.filterMap (Cell.departure behind.length) = c.arrival.toList := by
  have hget : others.reverse[behind.length]? = some c := by
    rw [heq, List.reverse_append, List.reverse_cons, List.append_assoc,
      List.getElem?_append_right (by simp)]
    simp
  rw [h, hget]
  rfl

theorem Matched.behind {cells others : List (Cell α)} (h : Matched cells others) {k : Nat}
    (hk : others.length ≤ k) : cells.filterMap (Cell.departure k) = [] := by
  rw [h, List.getElem?_eq_none (by rwa [List.length_reverse])]
  rfl

/-! ## The loop over the items -/

variable (items) in
/-- The items that are written. -/
def savedOf (cells : List (Cell α)) : List (Item α) := cells.filterMap (Cell.saved items)

/-- What is written of them, from the last on. -/
def bytesOf (cells : List (Cell α)) : List UInt8 :=
  (savedOf items cells).reverse.flatMap (Item.save A)

/-- The load of what is written of a cell makes this tile of that one. -/
def Loads (fuel : Nat) (c : Cell α) (tile tile' : Tile α) : Prop :=
  match c.saved items with
  | none => tile = tile'
  | some now => ∀ rest,
      loadTileItem A fuel ⟨now.save A ++ rest⟩ tile = some (true, tile', ⟨rest⟩)

theorem savedOf_snoc (cells : List (Cell α)) (c : Cell α) :
    savedOf items (cells ++ [c]) = savedOf items cells ++ (c.saved items).toList := by
  rw [savedOf, List.filterMap_append, List.filterMap_cons]
  cases c.saved items <;> rfl

theorem bytesOf_snoc (cells : List (Cell α)) (c : Cell α) :
    bytesOf A (cells ++ [c]) = (c.saved items).toList.flatMap (Item.save A) ++ bytesOf A cells := by
  rw [bytesOf, savedOf_snoc, List.reverse_append, List.flatMap_append]
  cases c.saved items <;> rfl

/-- `T before behind` is the tile where the cells `before` are to come. -/
theorem loadItems_run {fuel : Nat} {T : List (Cell α) → List (Cell α) → Tile α}
    {cells : List (Cell α)}
    (hstep : ∀ before c behind, cells = before ++ c :: behind →
      Loads A fuel c (T (before ++ [c]) behind) (T before (c :: behind)))
    (before behind : List (Cell α)) (h : cells = before ++ behind)
    (count : Nat) (rest : List UInt8) :
    loadItems A fuel ((savedOf items before).length + count) ⟨bytesOf A before ++ rest⟩
        (T before behind) =
      loadItems A fuel count ⟨rest⟩ (T [] cells) := by
  induction before using List.reverseRecOn generalizing behind count with
  | nil =>
      rw [h, savedOf, bytesOf, savedOf]
      simp only [List.filterMap_nil, List.length_nil, Nat.zero_add, List.nil_append,
        List.reverse_nil, List.flatMap_nil]
  | append_singleton before c ih =>
      rw [List.append_assoc, List.singleton_append] at h
      have hstep := hstep before c behind h
      rw [savedOf_snoc, bytesOf_snoc]
      rw [Loads] at hstep
      split at hstep
      · next hsaved =>
          rw [hsaved, Option.toList_none, List.append_nil, List.flatMap_nil, List.nil_append, hstep]
          exact ih _ h count
      · next now hsaved =>
          have hcount : (savedOf items before ++ [now]).length + count =
              (savedOf items before).length + count + 1 := by
            rw [List.length_append, List.length_singleton]
            omega
          rw [hsaved, Option.toList_some, hcount, List.flatMap_singleton, List.append_assoc,
            loadItems, hstep]
          exact ih _ h count

theorem isSaved_of_loose {item : Item α}
    (h : ((items item.id).moveable || (items item.id).forceSerialize) = true) :
    item.isSaved items = true := by
  simp only [Item.isSaved, h, Bool.true_or]

theorem saved_eq {c : Cell α} {now : Item α} (h : c.now = some now)
    (hsaved : now.isSaved items = true) : c.saved items = some now := by
  rw [Cell.saved, h, Option.filter_some, if_pos hsaved]

theorem mem_savedOf {cells : List (Cell α)} {c : Cell α} {now : Item α} (hc : c ∈ cells)
    (h : c.saved items = some now) : now ∈ savedOf items cells :=
  List.mem_filterMap.mpr ⟨c, hc, h⟩

section Phases

variable {A} {t : HouseTile items α} {fuel : Nat}

/-- The cells that are always on top come first: before the cell all is as on the map, behind it
all is restored but for what still goes to the down items. -/
theorem top_step (h : t.Restorable A)
    (hfuel : ∀ now ∈ savedOf items (t.down ++ t.top), now.Savable A → now.itemlist.turns ≤ fuel)
    (before : List (Cell α)) (c : Cell α) (behind : List (Cell α))
    (heq : t.top = before ++ c :: behind) :
    Loads A fuel c
      (arrange (shown A false behind.length t.down)
        (shown A false 0 (before ++ [c]) ++ shown A true 0 behind))
      (arrange (shown A false (c :: behind).length t.down)
        (shown A false 0 before ++ shown A true 0 (c :: behind))) := by
  have hmem : c ∈ t.top := heq ▸ List.mem_append_right _ List.mem_cons_self
  have hdeparture := t.down_matched.at_split heq
  have hlen := t.length_le
  rw [heq] at hlen
  simp only [List.length_append, List.length_cons] at hlen
  have hdown := length_shown_le A false behind.length t.down
  have hbefore := length_shown_le A false 0 before
  have hbehind := length_shown_le A true 0 behind
  have hnow : ∀ {now}, c.now = some now →
      (items now.id).alwaysOnTop = true ∧ (items now.id).isGroundTile = false := by
    intro now hnow
    exact ⟨t.top_type now (List.mem_filterMap.mpr ⟨c, hmem, hnow⟩),
      t.no_ground now (List.mem_filterMap.mpr ⟨c, List.mem_append_right _ hmem, hnow⟩)⟩
  have hturns : ∀ {now}, c.saved items = some now → now.Savable A →
      now.itemlist.turns ≤ fuel :=
    fun h => hfuel _ (mem_savedOf (List.mem_append_right _ hmem) h)
  rw [shown_snoc, shown_cons, List.length_cons]
  cases h.top before c behind heq with
  | unsaved item hsaved =>
      have hnone : (Cell.stays item item).saved items = none := by
        simp [Cell.saved, Cell.now, hsaved]
      rw [Loads, hnone, shown_succ A hdeparture]
      simp only [Cell.shows, Cell.restored, hsaved, Bool.false_eq_true, if_false, if_true,
        List.append_assoc]
  | leaves item k =>
      have hnone : (Cell.leaves item k).saved items = none := rfl
      rw [Loads, hnone, shown_succ A hdeparture]
      simp only [Cell.shows, Nat.not_lt_zero, if_false, List.append_assoc]
  | new now hsavable hloose hplace =>
      have hsaved := saved_eq (c := .new now) rfl (isSaved_of_loose hloose)
      obtain ⟨htop, hground⟩ := hnow rfl
      rw [Loads, hsaved, shown_succ A hdeparture]
      intro rest
      simp only [Cell.shows, Cell.restored, Bool.false_eq_true, if_false, if_true,
        Option.toList_none, Option.toList_some, List.append_nil, List.singleton_append]
      rw [loadTileItem_loose hsavable (hturns hsaved hsavable) hloose]
      refine congrArg (fun tile => some (true, tile, (⟨rest⟩ : PropStream))) ?_
      refine internalAddThing_top hground htop ?_ hplace.1 hplace.2
      simp only [List.length_append]
      omega
  | stays now item hsaved hsavable hfixed hfirst hkind hempty htop =>
      have hsaved' := saved_eq (c := .stays now item) rfl hsaved
      rw [Loads, hsaved', shown_succ A hdeparture]
      intro rest
      simp only [Cell.shows, Cell.restored, hsaved, Bool.false_eq_true, if_false, if_true,
        Option.toList_some]
      have htile : (arrange (shown A false behind.length t.down)
          (shown A false 0 before ++ [item] ++ shown A true 0 behind)).items =
            (shown A false behind.length t.down ++ shown A false 0 before) ++
              item :: shown A true 0 behind := by
        simp only [arrange, List.append_assoc, List.singleton_append]
      rw [loadTileItem_stays hsavable (hturns hsaved' hsavable) hfixed htile hfirst hkind hempty
        htop]
      simp only [arrange, List.append_assoc, List.singleton_append]
  | comes now item hsaved hsavable hfixed hfirst hkind hempty htop hplace =>
      have hsaved' := saved_eq (c := .comes now item) rfl hsaved
      obtain ⟨htop', -⟩ := hnow rfl
      have hdown' : (items item.id).alwaysOnTop = false := by
        rw [htop'] at htop
        simpa using htop
      obtain ⟨others, hshown, hshown'⟩ := shown_departure A hdeparture false
      rw [Loads, hsaved', hshown, hshown']
      intro rest
      simp only [Cell.shows, Cell.restored, Bool.false_eq_true, if_false, if_true,
        Option.toList_none, Option.toList_some, List.append_nil, List.singleton_append]
      have htile : (arrange (shown A false behind.length (aheadOf behind.length t.down) ++
          item :: others) (shown A false 0 before ++ shown A true 0 behind)).items =
            shown A false behind.length (aheadOf behind.length t.down) ++
              item :: (others ++ (shown A false 0 before ++ shown A true 0 behind)) := by
        simp only [arrange, List.append_assoc, List.cons_append]
      rw [loadTileItem_found hsavable (hturns hsaved' hsavable) hfixed htile hfirst hkind
        (fun _ => hempty), hempty, Items.append_nil]
      refine congrArg (fun tile => some (true, tile, (⟨rest⟩ : PropStream))) ?_
      exact transformItem_rises A
        ⟨item.id, A.restore item.id item.attrs now.attrs, now.itemlist.restored A⟩
        (by simp only [arrange, List.length_append, List.length_cons])
        (id_ne_zero_of_createItem hsavable.1.created) hdown' htop' hplace.1 hplace.2

/-- Then the down items: of those that were always on top the last are gone. -/
theorem down_step (h : t.Restorable A)
    (hfuel : ∀ now ∈ savedOf items (t.down ++ t.top), now.Savable A → now.itemlist.turns ≤ fuel)
    (before : List (Cell α)) (c : Cell α) (behind : List (Cell α))
    (heq : t.down = before ++ c :: behind) :
    Loads A fuel c
      (arrange (shown A false t.top.length (before ++ [c]) ++ shown A true t.top.length behind)
        (shown A true behind.length t.top))
      (arrange (shown A false t.top.length before ++ shown A true t.top.length (c :: behind))
        (shown A true (c :: behind).length t.top)) := by
  have hmem : c ∈ t.down := heq ▸ List.mem_append_right _ List.mem_cons_self
  have hdeparture := t.top_matched.at_split heq
  have hlen := t.length_le
  rw [heq] at hlen
  simp only [List.length_append, List.length_cons] at hlen
  have hbefore := length_shown_le A false t.top.length before
  have hbehind := length_shown_le A true t.top.length behind
  have htops := length_shown_le A true behind.length t.top
  have hnow : ∀ {now}, c.now = some now →
      (items now.id).alwaysOnTop = false ∧ (items now.id).isGroundTile = false := by
    intro now hnow
    exact ⟨t.down_type now (List.mem_filterMap.mpr ⟨c, hmem, hnow⟩),
      t.no_ground now (List.mem_filterMap.mpr ⟨c, List.mem_append_left _ hmem, hnow⟩)⟩
  have hturns : ∀ {now}, c.saved items = some now → now.Savable A →
      now.itemlist.turns ≤ fuel :=
    fun h => hfuel _ (mem_savedOf (List.mem_append_left _ hmem) h)
  rw [shown_snoc, shown_cons, List.length_cons]
  cases h.down before c behind heq with
  | unsaved item hsaved =>
      have hnone : (Cell.stays item item).saved items = none := by
        simp [Cell.saved, Cell.now, hsaved]
      rw [Loads, hnone, shown_succ A hdeparture]
      simp only [Cell.shows, Cell.restored, hsaved, Bool.false_eq_true, if_false, if_true,
        List.append_assoc]
  | leaves item k =>
      have hnone : (Cell.leaves item k).saved items = none := rfl
      rw [Loads, hnone, shown_succ A hdeparture]
      simp only [Cell.shows, List.append_assoc]
  | new now hsavable hloose hplace =>
      have hsaved := saved_eq (c := .new now) rfl (isSaved_of_loose hloose)
      obtain ⟨hdown, hground⟩ := hnow rfl
      rw [Loads, hsaved, shown_succ A hdeparture]
      intro rest
      simp only [Cell.shows, Cell.restored, Bool.false_eq_true, if_false, if_true,
        Option.toList_none, Option.toList_some, List.append_nil, List.singleton_append]
      rw [loadTileItem_loose hsavable (hturns hsaved hsavable) hloose, hplace]
      refine congrArg (fun tile => some (true, tile, (⟨rest⟩ : PropStream))) ?_
      refine internalAddThing_down hground hdown ?_
      simp only [List.nil_append, List.length_append]
      omega
  | stays now item hsaved hsavable hfixed hfirst hkind hempty htop =>
      have hsaved' := saved_eq (c := .stays now item) rfl hsaved
      rw [Loads, hsaved', shown_succ A hdeparture]
      intro rest
      simp only [Cell.shows, Cell.restored, hsaved, Bool.false_eq_true, if_false, if_true,
        Option.toList_some]
      have htile : (arrange (shown A false t.top.length before ++ [item] ++
          shown A true t.top.length behind) (shown A true behind.length t.top)).items =
            shown A false t.top.length before ++ item :: (shown A true t.top.length behind ++
              shown A true behind.length t.top) := by
        simp only [arrange, List.append_assoc, List.singleton_append]
        rfl
      rw [loadTileItem_stays hsavable (hturns hsaved' hsavable) hfixed htile hfirst hkind hempty
        htop]
      simp only [arrange, List.append_assoc, List.length_append, List.length_cons,
        List.cons_append, List.nil_append]
  | comes now item hsaved hsavable hfixed hfirst hkind hempty htop hplace =>
      have hsaved' := saved_eq (c := .comes now item) rfl hsaved
      obtain ⟨hdown, -⟩ := hnow rfl
      have htop' : (items item.id).alwaysOnTop = true := by
        rw [hdown] at htop
        simpa using htop
      obtain ⟨others, hshown, hshown'⟩ := shown_departure A hdeparture true
      rw [Loads, hsaved', hshown, hshown']
      intro rest
      simp only [Cell.shows, Cell.restored, Bool.false_eq_true, if_false, if_true,
        Option.toList_none, Option.toList_some, List.append_nil, List.singleton_append]
      have htile : (arrange (shown A false t.top.length before ++ shown A true t.top.length behind)
          (shown A true behind.length (aheadOf behind.length t.top) ++ item :: others)).items =
            (shown A false t.top.length before ++ shown A true t.top.length behind ++
              shown A true behind.length (aheadOf behind.length t.top)) ++ item :: others := by
        simp only [arrange, List.append_assoc]
      rw [loadTileItem_found hsavable (hturns hsaved' hsavable) hfixed htile hfirst hkind
        (fun _ => hempty), hempty, Items.append_nil, hplace]
      refine congrArg (fun tile => some (true, tile, (⟨rest⟩ : PropStream))) ?_
      exact transformItem_falls A
        ⟨item.id, A.restore item.id item.attrs now.attrs, now.itemlist.restored A⟩
        (by rw [List.nil_append]; rfl) (id_ne_zero_of_createItem hsavable.1.created) htop' hdown

theorem loadItems_tile (h : t.Restorable A)
    (hfuel : ∀ now ∈ savedOf items (t.down ++ t.top), now.Savable A → now.itemlist.turns ≤ fuel) :
    loadItems A fuel (savedOf items (t.down ++ t.top)).length
        ⟨bytesOf A (t.down ++ t.top)⟩ t.fresh = some (t.restored A, ⟨[]⟩) := by
  have hcount : (savedOf items (t.down ++ t.top)).length =
      (savedOf items t.top).length + ((savedOf items t.down).length + 0) := by
    rw [savedOf, List.filterMap_append, List.length_append, Nat.add_comm]
    rfl
  have hbytes : bytesOf A (t.down ++ t.top) = bytesOf A t.top ++ (bytesOf A t.down ++ []) := by
    rw [bytesOf, savedOf, List.filterMap_append, List.reverse_append, List.flatMap_append,
      List.append_nil]
    rfl
  have htop := loadItems_run A
    (T := fun before behind => arrange (shown A false behind.length t.down)
      (shown A false 0 before ++ shown A true 0 behind))
    (top_step h hfuel) t.top [] (List.append_nil _).symm
  have hdown := loadItems_run A
    (T := fun before behind =>
      arrange (shown A false t.top.length before ++ shown A true t.top.length behind)
        (shown A true behind.length t.top))
    (down_step h hfuel) t.down [] (List.append_nil _).symm
  have hfresh : t.fresh = arrange (shown A false ([] : List (Cell α)).length t.down)
      (shown A false 0 t.top ++ shown A true 0 []) := by
    rw [h.fresh, shown, shown, shown, shown, List.filterMap_nil, List.append_nil]
    rfl
  have hmiddle : arrange (shown A false t.top.length t.down)
      (shown A false 0 [] ++ shown A true 0 t.top) =
      arrange (shown A false t.top.length t.down ++ shown A true t.top.length [])
        (shown A true ([] : List (Cell α)).length t.top) := by
    rw [shown, shown, shown, shown, shown, List.filterMap_nil, List.filterMap_nil, List.append_nil]
    rfl
  have hend : arrange (shown A false t.top.length [] ++ shown A true t.top.length t.down)
      (shown A true t.down.length t.top) = t.restored A := by
    rw [shown_length A fun k hk => t.down_matched.behind hk,
      shown_length A fun k hk => t.top_matched.behind hk]
    rfl
  rw [hfresh, hcount, hbytes, htop, hmiddle, hdown, hend, loadItems]

end Phases

/-! ## The row of a tile -/

theorem length_save_le {item : Item α} {list : List (Item α)} (h : item ∈ list) :
    (item.save A).length ≤ (list.flatMap (Item.save A)).length := by
  obtain ⟨before, behind, rfl⟩ := List.append_of_mem h
  rw [List.flatMap_append, List.flatMap_cons, List.length_append, List.length_append]
  omega

theorem filter_now (t : HouseTile items α) :
    t.now.filter (Item.isSaved items) = savedOf items (t.down ++ t.top) :=
  List.filter_filterMap

/-- A tile with saved items has a row, of its position, their number and themselves. -/
theorem reload_eq (t : HouseTile items α) (position : Position)
    (hsome : savedOf items (t.down ++ t.top) ≠ []) :
    ∃ fuel, (bytesOf A (t.down ++ t.top)).length ≤ fuel ∧
      reload A position (saveTile A position t.now) t.fresh =
        loadItems A fuel (savedOf items (t.down ++ t.top)).length
          ⟨bytesOf A (t.down ++ t.top)⟩ t.fresh := by
  have hlen : (savedOf items (t.down ++ t.top)).length < 256 ^ 4 := by
    have := List.length_filterMap_le (Cell.saved items) (t.down ++ t.top)
    have := t.length_le
    rw [savedOf]
    omega
  have hrow : saveTile A position t.now =
      leBytes 2 position.x.toNat ++ leBytes 2 position.y.toNat ++ leBytes 1 position.z.toNat ++
        leBytes 4 (savedOf items (t.down ++ t.top)).length ++ bytesOf A (t.down ++ t.top) := by
    rw [saveTile]
    simp only [filter_now]
    rw [if_neg hsome]
    rfl
  refine ⟨(saveTile A position t.now).length, ?_, ?_⟩
  · rw [hrow, List.length_append]
    omega
  · rw [hrow, reload, if_neg (by simp [leBytes]), loadTile, PropStream.init]
    simp only [List.append_assoc, read_id]
    rw [PropStream.read_write (by exact position.z.toNat_lt)]
    simp only [UInt16.ofNat_toNat, UInt8.ofNat_toNat, ne_eq, not_true, if_false]
    rw [PropStream.read_write hlen]
    rfl

theorem reload_saveTile (t : HouseTile items α) (h : t.Restorable A) (position : Position) :
    reload A position (saveTile A position t.now) t.fresh = some (t.restored A, ⟨[]⟩) := by
  by_cases hnone : savedOf items (t.down ++ t.top) = []
  · -- There is no row, and all is as on the map.
    have hload : loadItems A 0 (savedOf items (t.down ++ t.top)).length
        ⟨bytesOf A (t.down ++ t.top)⟩ t.fresh = some (t.restored A, ⟨[]⟩) := by
      refine loadItems_tile h fun now hnow => ?_
      rw [hnone] at hnow
      cases hnow
    rw [bytesOf, hnone] at hload
    rw [saveTile]
    simp only [filter_now, hnone, if_true]
    exact hload
  · obtain ⟨fuel, hfuel, hreload⟩ := reload_eq A t position hnone
    rw [hreload]
    refine loadItems_tile h fun now hnow hsavable => ?_
    have hturns := Items.turns_le_save A hsavable.2
    have hitem := length_saveItem_le A now.id now.attrs now.itemlist hsavable.1.container
    have hrow := length_save_le A (List.mem_reverse.mpr hnow)
    rw [bytesOf] at hfuel
    rw [Item.save] at hrow
    omega

/-! ## The types of another start

A tile is saved with the types of one start of the server and loaded with those of the next. -/

def Items.ids : Items α → List UInt16
  | .nil => []
  | .cons id _ itemlist rest => id :: (itemlist.ids ++ rest.ids)

def Item.ids (item : Item α) : List UInt16 := item.id :: item.itemlist.ids

section Types

variable {A} {items' : UInt16 → HouseItemType} {A' : Attributes items' α}

/-- The types of these ids are the same still. -/
def SameTypes (A : Attributes items α) (A' : Attributes items' α) (ids : List UInt16) : Prop :=
  ∀ id ∈ ids, items id = items' id ∧ A.serializeAttr id = A'.serializeAttr id

theorem saveItem_congr {id : UInt16} (h : items id = items' id ∧
    A.serializeAttr id = A'.serializeAttr id) (attrs : α) (size : Nat) (contents : List UInt8) :
    saveItem A id attrs size contents = saveItem A' id attrs size contents := by
  rw [saveItem, saveItem, h.1, h.2]

theorem Items.save_congr {list : Items α} (h : SameTypes A A' list.ids) :
    list.save A = list.save A' := by
  induction list with
  | nil => rfl
  | cons id attrs itemlist others ihin ih =>
      have hself := h id List.mem_cons_self
      have hin := ihin fun id hid =>
        h id (List.mem_cons_of_mem _ (List.mem_append_left _ hid))
      have hothers := ih fun id hid =>
        h id (List.mem_cons_of_mem _ (List.mem_append_right _ hid))
      rw [Items.save, Items.save, hin, hothers, saveItem_congr hself]

theorem saveTile_congr {tileItems : List (Item α)} (position : Position)
    (h : ∀ item ∈ tileItems, SameTypes A A' item.ids) :
    saveTile A position tileItems = saveTile A' position tileItems := by
  have hfilter : tileItems.filter (Item.isSaved items) = tileItems.filter (Item.isSaved items') := by
    refine List.filter_congr fun item hitem => ?_
    have hself := h item hitem item.id List.mem_cons_self
    rw [Item.isSaved, Item.isSaved, hself.1]
  have hbytes : (tileItems.filter (Item.isSaved items')).reverse.flatMap (Item.save A) =
      (tileItems.filter (Item.isSaved items')).reverse.flatMap (Item.save A') := by
    refine List.flatMap_congr fun item hitem => ?_
    have hitem := h item (List.mem_filter.mp (List.mem_reverse.mp hitem)).1
    have hself := hitem item.id List.mem_cons_self
    rw [Item.save, Item.save, saveItem_congr hself,
      Items.save_congr fun id hid => hitem id (List.mem_cons_of_mem _ hid)]
  rw [saveTile, saveTile]
  simp only [hfilter, hbytes]

end Types

/-- What the load is to bring back: every item that is saved, and nothing left of the bytes. -/
def RoundTrip {items items' : UInt16 → HouseItemType} (A : Attributes items α)
    (A' : Attributes items' α) (t : HouseTile items' α) (position : Position) : Prop :=
  reload A' position (saveTile A position t.now) t.fresh = some (t.restored A', ⟨[]⟩)

theorem roundTrip_of_restorable {items items' : UInt16 → HouseItemType} (A : Attributes items α)
    (A' : Attributes items' α) (t : HouseTile items' α) (position : Position)
    (htypes : ∀ item ∈ t.now, SameTypes A A' item.ids) (h : t.Restorable A') :
    RoundTrip A A' t position := by
  rw [RoundTrip, saveTile_congr position htypes]
  exact reload_saveTile A' t h position

end Bruxo.MapSerialize
