import Bruxo.ItemForest
import Bruxo.TileStack

/-!
# Counts for the sale list

The counts of `ProtocolGame::sendSaleItemList`: for a small shop each by
`Player::getItemTypeCount`, for a large one from the map of `Player::getAllItemTypeCount`. Both
go over the inventory with a `ContainerIterator`, and so agree on what is counted without a sub
type (`find_getAllItemTypeCount`). For an item sold by its charges the large branch takes the sub
type itself for the count.
-/

namespace Bruxo.SaleList

open ItemForest TileStack

/-- The items of a container, with what is in the containers among them. -/
abbrev ItemDeque := Items TileItem TileItem

/-- An item, and if it is a container what is in it. -/
structure ItemTree where
  item : TileItem
  getContainer : Option ItemDeque

/-- `ContainerIterator`, whose lists begin where `cur` stands in the first: what it goes over. -/
def ContainerIterator.items : List ItemDeque → List TileItem
  | [] => []
  | .nil :: lists => items lists
  | .item item rest :: lists => item :: items (rest :: lists)
  | .container item itemlist rest :: lists =>
      item :: items (rest :: lists ++ if itemlist.length = 0 then [] else [itemlist])
termination_by lists => (lists.map fun list => 2 * list.size + 1).sum
decreasing_by
  · simp only [List.map_cons, List.sum_cons, Items.size]
    omega
  · simp only [List.map_cons, List.sum_cons, Items.size]
    omega
  · split <;> simp only [List.map_append, List.map_cons, List.map_nil, List.sum_append,
      List.sum_cons, List.sum_nil, List.append_nil, Items.size] <;> omega

abbrev Inventory := List (Option ItemTree)

/-- The items of the slots, each with what is in it. -/
def things (inventory : Inventory) : List TileItem :=
  inventory.flatMap fun
    | none => []
    | some item => item.item ::
        match item.getContainer with
        | none => []
        | some itemlist => ContainerIterator.items [itemlist]

section Counts

variable (items : UInt16 → ItemType)

def countByType (item : TileItem) (subType : Int) : UInt32 :=
  if subType = -1 ∨ subType = item.data.getSubType (items item.id) then item.data.count.toUInt32
  else 0

def getItemTypeCount (inventory : Inventory) (itemId : UInt16) (subType : Int) : UInt32 :=
  (things inventory).foldl (fun count item =>
    if item.id = itemId then count + countByType items item subType else count) 0

/-- The keys are ids. -/
abbrev CountMap := List (Nat × UInt32)

/-- `operator[]` -/
def at? (map : CountMap) (id : UInt16) : UInt32 := (AssocList.find id.toNat map).getD 0

def getAllItemTypeCount (inventory : Inventory) : CountMap :=
  (things inventory).foldl (fun countMap item =>
    AssocList.set item.id.toNat (at? countMap item.id + countByType items item (-1)) countMap) []

structure ShopInfo where
  itemId : UInt16
  subType : Int
  buyPrice : UInt32
  sellPrice : UInt32
  realName : List UInt8

/-- `int8_t subtype` -/
def ShopInfo.subtype (shopInfo : ShopInfo) : Int :=
  let itemType := items shopInfo.itemId
  if itemType.hasSubType && !itemType.stackable then
    if shopInfo.subType = 0 then -1 else castInt 1 true shopInfo.subType
  else -1

/-- The count of a small shop. -/
def smallCount (inventory : Inventory) (shopInfo : ShopInfo) : UInt32 :=
  getItemTypeCount items inventory shopInfo.itemId (shopInfo.subtype items)

/-- The count of a large shop. -/
def largeCount (inventory : Inventory) (shopInfo : ShopInfo) : UInt32 :=
  let subtype := shopInfo.subtype items
  if subtype ≠ -1 then
    if (items shopInfo.itemId).fluid then getItemTypeCount items inventory shopInfo.itemId subtype
    else UInt32.ofInt subtype
  else at? (getAllItemTypeCount items inventory) shopInfo.itemId

/-- The loop over the shop with the counts of a branch. -/
def fillSaleMap (count : ShopInfo → UInt32) (shop : List ShopInfo) : CountMap :=
  shop.foldl (fun saleMap shopInfo =>
    if shopInfo.sellPrice = 0 then saleMap
    else if count shopInfo > 0 then
      AssocList.set shopInfo.itemId.toNat (count shopInfo) saleMap
    else saleMap) []

def saleMap (inventory : Inventory) (shop : List ShopInfo) : CountMap :=
  if shop.length ≤ 5 then fillSaleMap (smallCount items inventory) shop
  else fillSaleMap (largeCount items inventory) shop

/-! ## The branches -/

/-- Whether the large branch takes the sub type for the count. -/
def ShopInfo.byCharges (shopInfo : ShopInfo) : Bool :=
  shopInfo.subtype items ≠ -1 && !(items shopInfo.itemId).fluid

/-- What is sold by its charges is carried as often as the sub type says. -/
def Countable (inventory : Inventory) (shopInfo : ShopInfo) : Prop :=
  shopInfo.byCharges items = true →
    getItemTypeCount items inventory shopInfo.itemId (shopInfo.subtype items) =
      UInt32.ofInt (shopInfo.subtype items)

/-- The cached map has for each id what is counted of it. -/
theorem find_getAllItemTypeCount (inventory : Inventory) (itemId : UInt16) :
    at? (getAllItemTypeCount items inventory) itemId =
      getItemTypeCount items inventory itemId (-1) := by
  have hrun : ∀ (list : List TileItem) (countMap : CountMap),
      at? (list.foldl (fun countMap item => AssocList.set item.id.toNat
          (at? countMap item.id + countByType items item (-1)) countMap) countMap) itemId =
        list.foldl (fun count item =>
          if item.id = itemId then count + countByType items item (-1) else count)
          (at? countMap itemId) := by
    intro list
    induction list with
    | nil => exact fun _ => rfl
    | cons item list ih =>
        intro countMap
        rw [List.foldl_cons, List.foldl_cons, ih]
        congr 1
        rw [at?, AssocList.find_set]
        by_cases hid : item.id = itemId
        · rw [if_pos hid, hid, if_pos rfl]
          rfl
        · have hne : itemId.toNat ≠ item.id.toNat :=
            fun h => hid (UInt16.toNat_inj.mp h).symm
          rw [if_neg hid, if_neg hne]
          rfl
  exact hrun (things inventory) []

theorem largeCount_eq_iff (inventory : Inventory) (shopInfo : ShopInfo) :
    largeCount items inventory shopInfo = smallCount items inventory shopInfo ↔
      Countable items inventory shopInfo := by
  rw [largeCount, smallCount, Countable, ShopInfo.byCharges]
  by_cases hnone : shopInfo.subtype items = -1
  · simp only [hnone, ne_eq, not_true, if_false, find_getAllItemTypeCount, decide_false,
      Bool.false_and, Bool.false_eq_true, false_implies]
  · cases hfluid : (items shopInfo.itemId).fluid with
    | true => simp [hnone]
    | false => simp [hnone, eq_comm]

theorem fillSaleMap_congr {count count' : ShopInfo → UInt32} {shop : List ShopInfo}
    (h : ∀ shopInfo ∈ shop, shopInfo.sellPrice ≠ 0 → count shopInfo = count' shopInfo) :
    fillSaleMap count shop = fillSaleMap count' shop := by
  refine List.foldl_ext _ _ _ fun saleMap shopInfo hmem => ?_
  by_cases hprice : shopInfo.sellPrice = 0
  · rw [if_pos hprice, if_pos hprice]
  · rw [if_neg hprice, if_neg hprice, h shopInfo hmem hprice]

theorem sale_list_fast_path_iff (inventory : Inventory) (shop : List ShopInfo) :
    ((∀ shopInfo ∈ shop, shopInfo.sellPrice ≠ 0 →
        largeCount items inventory shopInfo = smallCount items inventory shopInfo) ↔
      ∀ shopInfo ∈ shop, shopInfo.sellPrice ≠ 0 → Countable items inventory shopInfo) ∧
    ((∀ shopInfo ∈ shop, shopInfo.sellPrice ≠ 0 → Countable items inventory shopInfo) →
      fillSaleMap (largeCount items inventory) shop =
        fillSaleMap (smallCount items inventory) shop) := by
  refine ⟨⟨fun h shopInfo hmem hprice => ?_, fun h shopInfo hmem hprice => ?_⟩, fun h => ?_⟩
  · exact (largeCount_eq_iff items inventory shopInfo).mp (h shopInfo hmem hprice)
  · exact (largeCount_eq_iff items inventory shopInfo).mpr (h shopInfo hmem hprice)
  · refine fillSaleMap_congr fun shopInfo hmem hprice => ?_
    exact (largeCount_eq_iff items inventory shopInfo).mpr (h shopInfo hmem hprice)

end Counts

/-- A rune of five charges that is bought for one gold coin, and that the player has none of. -/
def runes (_ : UInt16) : ItemType := { charges := 5 }

theorem sale_list_differs :
    ¬ ∀ (items : UInt16 → ItemType) (inventory : Inventory) (shop : List ShopInfo),
      saleMap items inventory shop = fillSaleMap (smallCount items inventory) shop := by
  intro hclaim
  have heq := hclaim runes [] (List.replicate 6 ⟨2268, 5, 0, 1, []⟩)
  revert heq
  decide

end Bruxo.SaleList
