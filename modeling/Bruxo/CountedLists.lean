import Bruxo.SaleList
import Bruxo.TileDescription

/-!
# Counted lists

The lists that `sendShop`, `sendContainer`, `sendSaleItemList` and `sendTradeItemRequest`
(`protocolgame.cpp`) write with a count byte before them. Each of the senders has its own count and
its own bound of the loop.

A field for which the message has no room is left out, so what follows the count byte is taken
from what is stored (`ListMessage.Counted`). Only the records of a shop can fill a message.
-/

namespace Bruxo.CountedLists

open NetworkMessage ItemForest SaleList TileDescription TileStack

/-- What is written up to the count, the count, and the fields of each record. -/
structure ListMessage where
  header : List Field
  count : UInt8
  records : List (List Field)

def ListMessage.fields (m : ListMessage) : List Field :=
  m.header ++ .byte m.count :: m.records.flatten

/-- After the count byte the message has as many records as it says. -/
def ListMessage.Counted (m : ListMessage) : Prop :=
  m.count.toNat ≤ m.records.length ∧
    storedFrom new.position m.fields =
      storedFrom new.position m.header ++
        .byte m.count :: (m.records.take m.count.toNat).flatten

/-! ## The senders -/

def clientToServerFluidMap : List UInt8 :=
  [0, 1, 7, 3, 19, 2, 4, 27, 5, 6, 15, 10, 13, 11, 21, 14, 35, 43]

def serverFluidToClient (serverFluid : UInt8) : UInt8 :=
  match clientToServerFluidMap.idxOf? serverFluid with
  | some i => UInt8.ofNat i
  | none => 0

structure Container where
  item : TileItem
  getName : List UInt8
  capacity : UInt32
  itemlist : ItemDeque

/-- The items of a list, without those in containers. -/
def getItemList : ItemDeque → List TileItem
  | .nil => []
  | .item item rest => item :: getItemList rest
  | .container item _ rest => item :: getItemList rest

def containersOf : ItemDeque → List ItemDeque
  | .nil => []
  | .item _ rest => containersOf rest
  | .container _ itemlist rest => itemlist :: containersOf rest

theorem size_containersOf (container : ItemDeque) :
    (getItemList container).length + ((containersOf container).map Items.size).sum =
      container.size := by
  induction container with
  | nil => rfl
  | item item rest ih =>
      simp only [getItemList, containersOf, List.length_cons, Items.size]
      omega
  | container item itemlist rest _ ih =>
      simp only [getItemList, containersOf, List.length_cons, List.map_cons, List.sum_cons,
        Items.size]
      omega

theorem length_containersOf (container : ItemDeque) :
    (containersOf container).length ≤ (getItemList container).length := by
  induction container with
  | nil => exact Nat.le_refl 0
  | item item rest ih => exact Nat.le_succ_of_le ih
  | container item itemlist rest _ ih => exact Nat.succ_le_succ ih

theorem sum_succ (lists : List ItemDeque) :
    (lists.map fun list => list.size + 1).sum = (lists.map Items.size).sum + lists.length := by
  induction lists with
  | nil => rfl
  | cons list lists ih =>
      simp only [List.map_cons, List.sum_cons, List.length_cons]
      omega

/-- The loop over `listContainer`. -/
def listItems : List ItemDeque → List TileItem
  | [] => []
  | container :: listContainer =>
      getItemList container ++ listItems (listContainer ++ containersOf container)
termination_by listContainer => (listContainer.map fun list => list.size + 1).sum
decreasing_by
  have hsize := size_containersOf container
  have hlength := length_containersOf container
  simp only [List.map_append, List.map_cons, List.sum_append, List.sum_cons, sum_succ]
  omega

section Senders

variable {κ : Type} (o : Observer κ)

def addShopItem (shopInfo : ShopInfo) : List Field :=
  let it := o.items shopInfo.itemId
  [.uint16 it.clientId,
    .byte (if it.isSplash || it.isFluidContainer then
      serverFluidToClient (UInt8.ofInt shopInfo.subType) else 0x00),
    .string shopInfo.realName, .uint32 (UInt32.ofNat it.weight), .uint32 shopInfo.buyPrice,
    .uint32 shopInfo.sellPrice]

def sendShop (itemList : List ShopInfo) : ListMessage :=
  let itemsToSend := UInt16.ofNat (min itemList.length 65535)
  { header := [.byte 0x7A]
    count := itemsToSend.toUInt8
    records := (itemList.take itemsToSend.toNat).map (addShopItem o) }

/-- An iterator behind the end is not one to go on from. -/
def sendContainer (cid : UInt8) (container : Container) (hasParent : Bool) (firstIndex : UInt16) :
    Option ListMessage :=
  let itemList := getItemList container.itemlist
  if itemList.length < firstIndex.toNat then none
  else some
    { header := [.byte 0x6E, .byte cid] ++ o.addItem container.item ++
        [.string container.getName, .byte container.capacity.toUInt8,
          .byte (if hasParent then 0x01 else 0x00)]
      count := UInt8.ofNat (min 0xFF itemList.length)
      records := ((itemList.drop firstIndex.toNat).take 0xFF).map o.addItem }

def sendSaleItemList (getMoney : UInt64) (inventory : Inventory) (shop : List ShopInfo) :
    ListMessage :=
  let saleMap := saleMap o.items inventory shop
  let itemsToSend := UInt8.ofNat (min saleMap.length 255)
  { header := [.byte 0x7B, .uint32 getMoney.toUInt32]
    count := itemsToSend
    records := (saleMap.take itemsToSend.toNat).map fun it =>
      o.addItemId (UInt16.ofNat it.1) ++ [.byte (min it.2 255).toUInt8] }

def sendTradeItemRequest (traderName : List UInt8) (item : ItemTree) (ack : Bool) : ListMessage :=
  let header : List Field := [.byte (if ack then 0x7D else 0x7E), .string traderName]
  match item.getContainer with
  | some tradeContainer =>
      let itemList := item.item :: listItems [tradeContainer]
      { header
        count := UInt8.ofNat itemList.length
        records := itemList.map o.addItem }
  | none => { header, count := 0x01, records := [o.addItem item.item] }

/-- A call of one of the senders. -/
inductive ListCall where
  | shop (itemList : List ShopInfo)
  | container (cid : UInt8) (page : Container) (hasParent : Bool) (firstIndex : UInt16)
  | saleItemList (getMoney : UInt64) (inventory : Inventory) (itemList : List ShopInfo)
  | tradeItemRequest (traderName : List UInt8) (item : ItemTree) (ack : Bool)

def ListCall.message : ListCall → Option ListMessage
  | shop itemList => some (sendShop o itemList)
  | container cid page hasParent firstIndex => sendContainer o cid page hasParent firstIndex
  | saleItemList getMoney inventory itemList =>
      some (sendSaleItemList o getMoney inventory itemList)
  | tradeItemRequest traderName item ack => some (sendTradeItemRequest o traderName item ack)

end Senders

/-! ## When the count is right -/

/-- The bytes of the records of a shop. -/
def shopLength (itemList : List ShopInfo) : Nat :=
  (itemList.map fun shopInfo => shopInfo.realName.length + 17).sum

/-- The items that the count byte stands for are stored as they are, and there are no others, or
there is no room for a byte more. -/
def ShopFits (itemList : List ShopInfo) : Prop :=
  let itemsToSend := min itemList.length 65535
  let counted := itemList.take (itemsToSend % 256)
  (∀ shopInfo ∈ counted, shopInfo.realName.length ≤ 8192) ∧
    if itemsToSend ≤ 255 then shopLength counted ≤ 24565 else shopLength counted = 24565

def treeSize (item : ItemTree) : Nat :=
  match item.getContainer with
  | some tradeContainer => tradeContainer.size + 1
  | none => 1

def ListCall.Within : ListCall → Prop
  | shop itemList => ShopFits itemList
  | container _ page _ firstIndex =>
      min 255 (getItemList page.itemlist).length =
        min 255 ((getItemList page.itemlist).length - firstIndex.toNat)
  | saleItemList .. => True
  | tradeItemRequest _ item _ => treeSize item ≤ 255

/-! ## What is stored after the count -/

/-- A field that is stored later would have fitted now. -/
theorem fits_of_mem {f : Field} {position : Nat} {fs : List Field}
    (h : f ∈ storedFrom position fs) : f.fits position = true := by
  induction fs generalizing position with
  | nil => cases h
  | cons g fs ih =>
      rw [storedFrom] at h
      split at h
      · next hfit =>
          rcases List.mem_cons.mp h with rfl | h
          · exact hfit
          · obtain ⟨hroom, hblock⟩ := Bool.and_eq_true_iff.mp (ih h)
            have hroom := of_decide_eq_true hroom
            exact Bool.and_eq_true_iff.mpr ⟨decide_eq_true (by omega), hblock⟩
      · exact ih h

theorem storedFrom_append (position : Nat) (fs gs : List Field) :
    storedFrom position (fs ++ gs) =
      storedFrom position fs ++
        storedFrom (position + ((storedFrom position fs).flatMap Field.encode).length) gs := by
  induction fs generalizing position with
  | nil => rfl
  | cons f fs ih =>
      rw [List.cons_append, storedFrom, storedFrom]
      split
      · rw [ih, List.cons_append, List.flatMap_cons, List.length_append, Nat.add_assoc]
      · exact ih position

/-- Of two runs just the first is stored. -/
theorem storedFrom_append_eq_iff {position : Nat} {fs gs : List Field}
    (hpos : position < maxBodyLength) :
    storedFrom position (fs ++ gs) = fs ↔
      (∀ f ∈ fs, f.blockLength ≤ 8192) ∧
        position + (fs.flatMap Field.encode).length < maxBodyLength ∧
        storedFrom (position + (fs.flatMap Field.encode).length) gs = [] := by
  constructor
  · intro h
    have hfs : storedFrom position fs = fs := by
      induction fs generalizing position with
      | nil => rfl
      | cons f fs ih =>
          rw [List.cons_append, storedFrom] at h
          split at h
          · next hfit =>
              have hroom := of_decide_eq_true (Bool.and_eq_true_iff.mp hfit).1
              rw [storedFrom, if_pos hfit, ih (by omega) (List.cons.inj h).2]
          · next hfit =>
              exact absurd (fits_of_mem (h ▸ List.mem_cons_self)) hfit
    rw [storedFrom_append, hfs] at h
    refine ⟨fun f hf => storedFrom_bounds (hfs.symm ▸ hf), ?_, List.append_right_eq_self.mp h⟩
    have hlength := storedFrom_length fs hpos
    rwa [hfs] at hlength
  · rintro ⟨hblock, hroom, hrest⟩
    rw [storedFrom_append, storedFrom_eq_self hblock hroom, hrest, List.append_nil]

theorem counted_iff {m : ListMessage} (hheader : (m.header.map Field.size).sum < 20000) :
    m.Counted ↔
      m.count.toNat ≤ m.records.length ∧
        (∀ f ∈ (m.records.take m.count.toNat).flatten, f.blockLength ≤ 8192) ∧
        (m.header.map Field.size).sum + 9 +
            ((m.records.take m.count.toNat).flatten.flatMap Field.encode).length <
          maxBodyLength ∧
        storedFrom ((m.header.map Field.size).sum + 9 +
            ((m.records.take m.count.toNat).flatten.flatMap Field.encode).length)
          (m.records.drop m.count.toNat).flatten = [] := by
  have hlength : ((storedFrom new.position m.header).flatMap Field.encode).length =
      (m.header.map Field.size).sum := by
    rw [storedFrom_new (by omega), length_filter]
  have hpos : (m.header.map Field.size).sum + 9 < maxBodyLength := by
    simp only [maxBodyLength, networkMessageMaxSize]
    omega
  have hcount : (Field.byte m.count).fits (new.position + (m.header.map Field.size).sum) = true := by
    refine Bool.and_eq_true_iff.mpr ⟨decide_eq_true ?_, rfl⟩
    simp only [new, initialBufferPosition, Field.encode, List.length_singleton]
    omega
  have hsplit : m.records.flatten =
      (m.records.take m.count.toNat).flatten ++ (m.records.drop m.count.toNat).flatten := by
    rw [← List.flatten_append, List.take_append_drop]
  have hnext : new.position + (m.header.map Field.size).sum + (Field.byte m.count).encode.length =
      (m.header.map Field.size).sum + 9 := by
    simp only [new, initialBufferPosition, Field.encode, List.length_singleton]
    omega
  refine and_congr_right fun _ => ?_
  rw [ListMessage.fields, storedFrom_append, hlength, List.append_cancel_left_eq, storedFrom,
    if_pos hcount, hnext, List.cons_inj_right, hsplit]
  exact storedFrom_append_eq_iff hpos

theorem storedFrom_eq_nil_iff {position : Nat} {fs : List Field} :
    storedFrom position fs = [] ↔ ∀ f ∈ fs, f.fits position = false := by
  induction fs with
  | nil => simp [storedFrom]
  | cons f fs ih =>
      rw [storedFrom, List.forall_mem_cons, ← ih]
      cases hfit : f.fits position with
      | true => simp
      | false => simp

/-! ## Items -/

/-- What `addItem` writes. -/
def IsItem (record : List Field) : Prop :=
  ∃ clientId, record = [.uint16 clientId] ∨ ∃ v, record = [.uint16 clientId, .byte v]

theorem isItem_addItem {κ : Type} (o : Observer κ) (item : TileItem) : IsItem (o.addItem item) := by
  refine ⟨o.clientId item.id, ?_⟩
  rw [Observer.addItem]
  split
  · exact .inr ⟨_, rfl⟩
  split
  · exact .inr ⟨_, rfl⟩
  · exact .inl rfl

theorem IsItem.blockLength {record : List Field} (h : IsItem record) :
    ∀ f ∈ record, f.blockLength ≤ 8192 := by
  obtain ⟨clientId, rfl | ⟨v, rfl⟩⟩ := h <;> simp [Field.blockLength]

theorem IsItem.length {record : List Field} (h : IsItem record) :
    (record.flatMap Field.encode).length ≤ 3 := by
  obtain ⟨clientId, rfl | ⟨v, rfl⟩⟩ := h <;>
    simp [Field.encode, Bytes.length_leBytes]

theorem IsItem.sum_size {record : List Field} (h : IsItem record) :
    (record.map Field.size).sum ≤ 3 := by
  rw [← length_encode h.blockLength]
  exact h.length

theorem length_records {records : List (List Field)} (h : ∀ record ∈ records, IsItem record) :
    (records.flatten.flatMap Field.encode).length ≤ 3 * records.length := by
  induction records with
  | nil => exact Nat.le_refl 0
  | cons record records ih =>
      have hrecord := (h record List.mem_cons_self).length
      have hrecords := ih fun r hr => h r (List.mem_cons_of_mem _ hr)
      rw [List.flatten_cons, List.flatMap_append, List.length_append, List.length_cons]
      omega

/-- A message of items has room for those of the count and one more. -/
theorem counted_items_iff {m : ListMessage} (hheader : (m.header.map Field.size).sum < 20000)
    (hitems : ∀ record ∈ m.records, IsItem record) :
    m.Counted ↔ m.count.toNat = m.records.length := by
  have hlength : ((m.records.take m.count.toNat).flatten.flatMap Field.encode).length ≤ 765 := by
    have hle := length_records fun record (hr : record ∈ m.records.take m.count.toNat) =>
      hitems record (List.mem_of_mem_take hr)
    have hlt := UInt8.toNat_lt m.count
    rw [List.length_take] at hle
    omega
  rw [counted_iff hheader]
  constructor
  · rintro ⟨hcount, -, -, hrest⟩
    by_contra hne
    cases hdrop : m.records.drop m.count.toNat with
    | nil =>
        have := List.drop_eq_nil_iff.mp hdrop
        omega
    | cons record rest =>
        have hmem : record ∈ m.records := List.mem_of_mem_drop (hdrop ▸ List.mem_cons_self)
        obtain ⟨clientId, hrecord⟩ := hitems record hmem
        have hclient : Field.uint16 clientId ∈ (m.records.drop m.count.toNat).flatten := by
          rw [hdrop, List.flatten_cons]
          refine List.mem_append_left _ ?_
          rcases hrecord with rfl | ⟨v, rfl⟩ <;> exact List.mem_cons_self
        have hfit := storedFrom_eq_nil_iff.mp hrest _ hclient
        simp only [Field.fits, Field.encode, Field.blockLength, Bytes.length_leBytes, maxBodyLength,
          networkMessageMaxSize, Nat.zero_le, decide_true, Bool.and_true, decide_eq_false_iff_not]
          at hfit
        omega
  · intro heq
    refine ⟨heq.le, fun f hf => ?_, ?_, ?_⟩
    · obtain ⟨record, hrecord, hf⟩ := List.mem_flatten.mp hf
      exact (hitems record (List.mem_of_mem_take hrecord)).blockLength f hf
    · simp only [maxBodyLength, networkMessageMaxSize]
      omega
    · rw [heq, List.drop_length]
      rfl

/-! ## Shops -/

section Shop

variable {κ : Type} (o : Observer κ)

theorem length_addShopItem (shopInfo : ShopInfo) :
    ((addShopItem o shopInfo).flatMap Field.encode).length = shopInfo.realName.length + 17 := by
  simp only [addShopItem, List.flatMap_cons, List.flatMap_nil, List.length_append, Field.encode,
    Bytes.length_leBytes, List.length_cons, List.length_nil]
  omega

theorem length_shop (itemList : List ShopInfo) :
    ((itemList.map (addShopItem o)).flatten.flatMap Field.encode).length = shopLength itemList := by
  induction itemList with
  | nil => rfl
  | cons shopInfo itemList ih =>
      rw [List.map_cons, List.flatten_cons, List.flatMap_append, List.length_append, ih,
        length_addShopItem]
      rfl

theorem block_shop_iff (itemList : List ShopInfo) :
    (∀ f ∈ (itemList.map (addShopItem o)).flatten, f.blockLength ≤ 8192) ↔
      ∀ shopInfo ∈ itemList, shopInfo.realName.length ≤ 8192 := by
  induction itemList with
  | nil => simp
  | cons shopInfo itemList ih =>
      rw [List.map_cons, List.flatten_cons, List.forall_mem_append, ih, List.forall_mem_cons]
      simp [addShopItem, Field.blockLength]

theorem byte_refused_iff {v : UInt8} {position : Nat} :
    (Field.byte v).fits position = false ↔ maxBodyLength ≤ position + 1 := by
  have hfits : (Field.byte v).fits position = decide (1 + position < maxBodyLength) :=
    Bool.and_true _
  rw [hfits, decide_eq_false_iff_not]
  omega

/-- The byte of the fluid fits wherever there is room for one. -/
theorem shop_refused_iff {itemList : List ShopInfo} (h : itemList ≠ []) (position : Nat) :
    storedFrom position (itemList.map (addShopItem o)).flatten = [] ↔
      maxBodyLength ≤ position + 1 := by
  rw [storedFrom_eq_nil_iff]
  constructor
  · intro hnone
    obtain ⟨shopInfo, itemList, rfl⟩ := List.exists_cons_of_ne_nil h
    exact byte_refused_iff.mp
      (hnone _ (List.mem_append_left _ (List.mem_cons_of_mem _ List.mem_cons_self)))
  · intro hfull f hf
    have hpos : 1 ≤ f.encode.length := by
      obtain ⟨record, hrecord, hf⟩ := List.mem_flatten.mp hf
      obtain ⟨shopInfo, -, rfl⟩ := List.mem_map.mp hrecord
      simp only [addShopItem, List.mem_cons, List.not_mem_nil, or_false] at hf
      rcases hf with rfl | rfl | rfl | rfl | rfl | rfl <;>
        simp only [Field.encode, Bytes.length_leBytes, List.length_append, List.length_singleton] <;>
        omega
    have hroom : ¬ f.encode.length + position < maxBodyLength := by omega
    rw [Field.fits, decide_eq_false hroom, Bool.false_and]

theorem counted_shop_iff (itemList : List ShopInfo) :
    (sendShop o itemList).Counted ↔ ShopFits itemList := by
  have hsend : (UInt16.ofNat (min itemList.length 65535)).toNat = min itemList.length 65535 :=
    Bytes.toNat_ofNat_uint16 (by omega)
  have hcount : (sendShop o itemList).count.toNat = min itemList.length 65535 % 256 := by
    show (UInt16.ofNat (min itemList.length 65535)).toNat % 256 = _
    rw [hsend]
  have hrecords : (sendShop o itemList).records =
      (itemList.take (min itemList.length 65535)).map (addShopItem o) := by
    show (itemList.take (UInt16.ofNat _).toNat).map _ = _
    rw [hsend]
  have hheader : ((sendShop o itemList).header.map Field.size).sum = 1 := rfl
  have htake : (sendShop o itemList).records.take (sendShop o itemList).count.toNat =
      (itemList.take (min itemList.length 65535 % 256)).map (addShopItem o) := by
    rw [hcount, hrecords, ← List.map_take, List.take_take]
    congr 2
    omega
  have hdrop : (sendShop o itemList).records.drop (sendShop o itemList).count.toNat =
      ((itemList.take (min itemList.length 65535)).drop
        (min itemList.length 65535 % 256)).map (addShopItem o) := by
    rw [hcount, hrecords, List.map_drop]
  rw [counted_iff (by rw [hheader]; omega), ShopFits, htake, hdrop, hheader, length_shop,
    block_shop_iff, hcount, hrecords, List.length_map, List.length_take]
  by_cases hfew : min itemList.length 65535 ≤ 255
  · have hall : (itemList.take (min itemList.length 65535)).drop
        (min itemList.length 65535 % 256) = [] := by
      rw [List.drop_eq_nil_iff, List.length_take]
      omega
    simp only [hall, if_pos hfew, List.map_nil, List.flatten_nil, storedFrom, and_true,
      maxBodyLength, networkMessageMaxSize]
    constructor
    · rintro ⟨-, hblock, hroom⟩
      exact ⟨hblock, by omega⟩
    · rintro ⟨hblock, hroom⟩
      exact ⟨by omega, hblock, by omega⟩
  · have hmore : (itemList.take (min itemList.length 65535)).drop
        (min itemList.length 65535 % 256) ≠ [] := by
      rw [ne_eq, List.drop_eq_nil_iff, List.length_take]
      omega
    simp only [shop_refused_iff o hmore, if_neg hfew, maxBodyLength, networkMessageMaxSize]
    constructor
    · rintro ⟨-, hblock, hroom, hfull⟩
      exact ⟨hblock, by omega⟩
    · rintro ⟨hblock, hfull⟩
      exact ⟨by omega, hblock, by omega, by omega⟩

end Shop

/-! ## The lists of items -/

section Lists

variable {κ : Type} (o : Observer κ)

theorem size_string_le (s : List UInt8) : Field.size (.string s) ≤ 8194 := by
  rw [Field.size_string]
  split <;> omega

theorem isItem_of_mem_map {items : List TileItem} {record : List Field}
    (h : record ∈ items.map o.addItem) : IsItem record := by
  obtain ⟨item, -, rfl⟩ := List.mem_map.mp h
  exact isItem_addItem o item

theorem length_listItems (listContainer : List ItemDeque) :
    (listItems listContainer).length = (listContainer.map Items.size).sum := by
  fun_induction listItems with
  | case1 => rfl
  | case2 container listContainer ih =>
      have hsize := size_containersOf container
      rw [List.map_append, List.sum_append] at ih
      rw [List.length_append, ih, List.map_cons, List.sum_cons]
      omega

theorem toNat_ofNat_uint8 {n : Nat} (h : n ≤ 255) : (UInt8.ofNat n).toNat = n := by
  rw [UInt8.toNat_ofNat']
  omega

theorem counted_container_iff {cid : UInt8} {container : Container} {hasParent : Bool}
    {firstIndex : UInt16} {m : ListMessage}
    (h : sendContainer o cid container hasParent firstIndex = some m) :
    m.Counted ↔
      min 255 (getItemList container.itemlist).length =
        min 255 ((getItemList container.itemlist).length - firstIndex.toNat) := by
  rw [sendContainer] at h
  split at h
  · cases h
  obtain rfl := (Option.some.inj h).symm
  have hcount : (UInt8.ofNat (min 0xFF (getItemList container.itemlist).length)).toNat =
      min 255 (getItemList container.itemlist).length := toNat_ofNat_uint8 (by omega)
  have hlength : ((((getItemList container.itemlist).drop firstIndex.toNat).take 0xFF).map
      o.addItem).length = min 255 ((getItemList container.itemlist).length - firstIndex.toNat) := by
    rw [List.length_map, List.length_take, List.length_drop]
  have hname := size_string_le container.getName
  have hitem := (isItem_addItem o container.item).sum_size
  refine (counted_items_iff ?_ fun record => isItem_of_mem_map o).trans ?_
  · simp only [List.map_append, List.map_cons, List.map_nil, List.sum_append, List.sum_cons,
      List.sum_nil, Field.size_byte]
    omega
  · show (UInt8.ofNat _).toNat = (List.map _ _).length ↔ _
    rw [hcount, hlength]

theorem counted_saleItemList (getMoney : UInt64) (inventory : Inventory) (shop : List ShopInfo) :
    (sendSaleItemList o getMoney inventory shop).Counted := by
  have hcount : (UInt8.ofNat (min (saleMap o.items inventory shop).length 255)).toNat =
      min (saleMap o.items inventory shop).length 255 := toNat_ofNat_uint8 (by omega)
  have hlength : (sendSaleItemList o getMoney inventory shop).records.length =
      (sendSaleItemList o getMoney inventory shop).count.toNat := by
    simp only [sendSaleItemList, List.length_map, List.length_take, hcount]
    omega
  refine (counted_items_iff ?_ fun record hrecord => ?_).mpr hlength.symm
  · show 1 + (4 + 0) < 20000
    omega
  · obtain ⟨it, -, rfl⟩ := List.mem_map.mp hrecord
    exact ⟨_, .inr ⟨_, rfl⟩⟩

theorem treeSize_eq (item : ItemTree) (tradeContainer : ItemDeque)
    (h : item.getContainer = some tradeContainer) :
    (item.item :: listItems [tradeContainer]).length = treeSize item := by
  rw [List.length_cons, length_listItems, List.map_singleton, List.sum_singleton, treeSize, h]

theorem counted_tradeItemRequest_iff (traderName : List UInt8) (item : ItemTree) (ack : Bool) :
    (sendTradeItemRequest o traderName item ack).Counted ↔ treeSize item ≤ 255 := by
  have hheader : (([.byte (if ack then 0x7D else 0x7E), .string traderName] : List Field).map
      Field.size).sum < 20000 := by
    have hname := size_string_le traderName
    simp only [List.map_cons, List.map_nil, List.sum_cons, List.sum_nil, Field.size_byte]
    omega
  rw [sendTradeItemRequest]
  cases htree : item.getContainer with
  | none =>
      have hone : treeSize item = 1 := by rw [treeSize, htree]
      refine iff_of_true ((counted_items_iff hheader fun record hrecord => ?_).mpr rfl) (by omega)
      rw [List.mem_singleton.mp hrecord]
      exact isItem_addItem o item.item
  | some tradeContainer =>
      have hsize := treeSize_eq item tradeContainer htree
      have hcount : (UInt8.ofNat (item.item :: listItems [tradeContainer]).length).toNat =
          treeSize item % 256 := by rw [hsize, UInt8.toNat_ofNat']
      have hlength : ((item.item :: listItems [tradeContainer]).map o.addItem).length =
          treeSize item := by rw [List.length_map, hsize]
      refine (counted_items_iff hheader fun record => isItem_of_mem_map o).trans ?_
      show (UInt8.ofNat _).toNat = (List.map _ _).length ↔ _
      rw [hcount, hlength]
      omega

end Lists

theorem counted_lists_iff {κ : Type} {o : Observer κ} {call : ListCall} {m : ListMessage}
    (h : call.message o = some m) : m.Counted ↔ call.Within := by
  cases call with
  | shop itemList =>
      obtain rfl := (Option.some.inj h).symm
      exact counted_shop_iff o itemList
  | container cid page hasParent firstIndex => exact counted_container_iff o h
  | saleItemList getMoney inventory itemList =>
      obtain rfl := (Option.some.inj h).symm
      exact iff_of_true (counted_saleItemList o getMoney inventory itemList) trivial
  | tradeItemRequest traderName item ack =>
      obtain rfl := (Option.some.inj h).symm
      exact counted_tradeItemRequest_iff o traderName item ack

/-- A shop of 256 runes. -/
def largeShop : List ShopInfo := List.replicate 256 ⟨2268, 5, 10, 0, []⟩

/-- A shop with one of them. -/
theorem counted_lists_iff_shop :
    (sendShop (Observer.onlooker false) (largeShop.take 1)).Counted := by
  have hmessage : (ListCall.shop (largeShop.take 1)).message (Observer.onlooker false)
      = some (sendShop (Observer.onlooker false) (largeShop.take 1)) := rfl
  exact (counted_lists_iff hmessage).mpr ⟨by decide, by decide⟩

theorem not_shopFits_largeShop : ¬ ShopFits largeShop := by
  rw [ShopFits, largeShop, List.length_replicate, if_neg (by decide)]
  exact fun hfull => absurd hfull.2 (by decide)

theorem list_not_counted :
    ¬ ∀ (o : Observer Unit) (call : ListCall) (m : ListMessage), call.message o = some m →
      m.Counted := by
  intro hclaim
  have hshop := hclaim (Observer.onlooker false) (.shop largeShop) _ rfl
  exact not_shopFits_largeShop ((counted_shop_iff (Observer.onlooker false) largeShop).mp hshop)

end Bruxo.CountedLists
