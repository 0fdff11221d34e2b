import Bruxo.Lib.AssocList
import Mathlib.Algebra.GroupWithZero.Nat
import Mathlib.Data.List.Nodup
import Mathlib.Logic.Function.Basic
import Mathlib.Tactic.Tauto

/-!
# The items of a player in the database

`saveItems`, `loadItems` and the loops of `loadPlayer` (`iologindata.cpp`). The items of the
slots, of the lockers and of the depots are written breadth first, each with a running id and
the id of its parent, which for an item of the top is a slot or a depot. They are read from the
greatest id down, and pushed to the front.

Slots and depots share their numbers with the running ids, which begin after 100.
-/

namespace Bruxo.ItemForest

variable {α β ρ : Type}

/-! ## Saving -/

/-- An item list, of items and of containers with what is in them. -/
inductive Items (α β : Type) where
  | nil
  | item (a : α) (rest : Items α β)
  | container (b : β) (itemlist rest : Items α β)

/-- The columns of an item, and the item that `CreateItem` and `unserializeAttr` make of them,
which is again a container if it was one. -/
structure Format (α β ρ : Type) where
  saveItem : α → ρ
  saveContainer : β → ρ
  load : ρ → Option (α ⊕ β)
  item_back : ∀ a, ∃ a', load (saveItem a) = some (.inl a')
  container_back : ∀ b, ∃ b', load (saveContainer b) = some (.inr b')

structure Row (ρ : Type) where
  pid : Int
  sid : Int
  columns : ρ

namespace Items

def length : Items α β → Nat
  | nil => 0
  | item _ rest => rest.length + 1
  | container _ _ rest => rest.length + 1

/-- The number of items, of those in containers too. -/
def size : Items α β → Nat
  | nil => 0
  | item _ rest => rest.size + 1
  | container _ itemlist rest => itemlist.size + rest.size + 1

/-- The rows of a list that is in one place. -/
def rows (f : Format α β ρ) (pid : Int) : Items α β → Int → List (Row ρ)
  | nil, _ => []
  | item a rest, runningId => ⟨pid, runningId + 1, f.saveItem a⟩ :: rest.rows f pid (runningId + 1)
  | container b _ rest, runningId =>
      ⟨pid, runningId + 1, f.saveContainer b⟩ :: rest.rows f pid (runningId + 1)

/-- The containers of the list, with their ids. -/
def containers : Items α β → Int → List (Int × Items α β)
  | nil, _ => []
  | item _ rest, runningId => rest.containers (runningId + 1)
  | container _ itemlist rest, runningId =>
      (runningId + 1, itemlist) :: rest.containers (runningId + 1)

theorem size_containers (items : Items α β) (runningId : Int) :
    ((items.containers runningId).map fun c => c.2.size + 1).sum ≤ items.size := by
  induction items generalizing runningId with
  | nil => exact Nat.le_refl 0
  | item a rest ih => exact Nat.le_succ_of_le (ih _)
  | container b itemlist rest _ ih =>
      have := ih (runningId + 1)
      simp only [containers, List.map_cons, List.sum_cons, size]
      omega

end Items

variable (f : Format α β ρ)

/-- The first loop, over a list of items in blocks of those that have one slot or depot. -/
def saveTop : List (Int × Items α β) → Int → List (Row ρ) × List (Int × Items α β) × Int
  | [], runningId => ([], [], runningId)
  | (pid, items) :: itemList, runningId =>
      let (rows, containers, lastId) := saveTop itemList (runningId + items.length)
      (items.rows f pid runningId ++ rows, items.containers runningId ++ containers, lastId)

/-- The second loop, over the containers that are left. -/
def saveContainers : List (Int × Items α β) → Int → List (Row ρ)
  | [], _ => []
  | (parentId, items) :: containers, runningId =>
      items.rows f parentId runningId ++
        saveContainers (containers ++ items.containers runningId) (runningId + items.length)
termination_by containers => (containers.map fun c => c.2.size + 1).sum
decreasing_by
  have := items.size_containers runningId
  simp only [List.map_append, List.map_cons, List.sum_append, List.sum_cons]
  omega

def saveItems (itemList : List (Int × Items α β)) : List (Row ρ) :=
  let (rows, containers, runningId) := saveTop f itemList 100
  rows ++ saveContainers f containers runningId

/-! ## Loading -/

/-- Where an item can be: in a slot or a depot, or in the container of an id. -/
inductive Place where
  | top (id : Int)
  | container (sid : Int)
  deriving DecidableEq

/-- What was loaded: the items by their ids, the item lists, of the slots and the depots too,
and the parents. -/
structure Loaded (α β : Type) where
  item : Int → Option (α ⊕ β)
  itemlist : Place → List Int
  parent : Int → Option Place

abbrev ItemMap (α β : Type) := List (Int × (α ⊕ β) × Int)

def loadItems (rows : List (Row ρ)) : ItemMap α β :=
  rows.foldl (fun itemMap row =>
    match f.load row.columns with
    | some item => AssocList.set row.sid (item, row.pid) itemMap
    | none => itemMap) []

/-- The tables of the slots, and of the lockers and depots. -/
inductive Table where
  | inventory | depot
  deriving DecidableEq

def Table.isTop : Table → Int → Bool
  | inventory, pid => 1 ≤ pid && pid ≤ 10
  | depot, pid => 0 ≤ pid && pid < 100

namespace Loaded

variable (l : Loaded α β)

def internalAddThing (place : Place) (sid : Int) : Loaded α β where
  item := l.item
  itemlist := Function.update l.itemlist place (sid :: l.itemlist place)
  parent := Function.update l.parent sid (some place)

/-- `internalAddThing` of the player leaves a slot that is taken. -/
def addTop (table : Table) (pid sid : Int) : Loaded α β :=
  match table with
  | .inventory => if l.itemlist (.top pid) = [] then l.internalAddThing (.top pid) sid else l
  | .depot => l.internalAddThing (.top pid) sid

/-- One turn of the loop of `loadPlayer`. -/
def place (table : Table) (itemMap : ItemMap α β) (entry : Int × (α ⊕ β) × Int) : Loaded α β :=
  let (sid, _, pid) := entry
  if table.isTop pid then l.addTop table pid sid
  else
    match AssocList.find pid itemMap with
    | some (.inr _, _) => l.internalAddThing (.container pid) sid
    | _ => l

end Loaded

def loadForest (table : Table) (itemMap : ItemMap α β) : Loaded α β :=
  itemMap.reverse.foldl (fun l entry => l.place table itemMap entry)
    { item := fun sid => (AssocList.find sid itemMap).map Prod.fst
      itemlist := fun _ => []
      parent := fun _ => none }

/-- The query gives the rows from the greatest id down. -/
def loadTable (table : Table) (rows : List (Row ρ)) : Loaded α β :=
  loadForest table (loadItems f rows.reverse)

/-! ## The same forest -/

/-- The ids are those of the items of the list, in their order, and so in each container. -/
def Loaded.Holds (l : Loaded α β) : Items α β → List Int → Prop
  | .nil, sids => sids = []
  | .item a rest, sids =>
      ∃ sid sids', sids = sid :: sids' ∧
        (l.item sid).isSome ∧ l.item sid = f.load (f.saveItem a) ∧ l.Holds rest sids'
  | .container b itemlist rest, sids =>
      ∃ sid sids', sids = sid :: sids' ∧
        (l.item sid).isSome ∧ l.item sid = f.load (f.saveContainer b) ∧
        l.Holds itemlist (l.itemlist (.container sid)) ∧ l.Holds rest sids'

structure Loaded.SameForest (l : Loaded α β) (itemList : List (Int × Items α β)) : Prop where
  top : ∀ b ∈ itemList, l.Holds f b.2 (l.itemlist (.top b.1))
  rest : ∀ id, id ∉ itemList.map Prod.fst → l.itemlist (.top id) = []
  /-- Every item is in one place, once. -/
  nodup : ∀ place, (l.itemlist place).Nodup
  parent : ∀ place, ∀ sid ∈ l.itemlist place, l.parent sid = some place

/-- What a table is written from: blocks of different slots or depots, of one item for each
slot. -/
structure Blocks (table : Table) (α β : Type) where
  list : List (Int × Items α β)
  nodup : (list.map Prod.fst).Nodup
  slots : table = .inventory → ∀ b ∈ list, table.isTop b.1 ∧ b.2.length ≤ 1

end Bruxo.ItemForest
