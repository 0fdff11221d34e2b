import Bruxo.ItemForestLoad
import Mathlib.Algebra.Order.BigOperators.Group.List
import Mathlib.Algebra.Order.Group.Nat

/-!
# The lists that were loaded

The item list of a slot or a depot as it hangs together after `loadPlayer`. What was saved comes
back with all that was in it (`readTop_saveItems`), each item as its own columns give it back.
-/

namespace Bruxo.ItemForest

variable {α β ρ : Type}

/-- The items of the ids, with what is in them. Each is in one place, so the fuel has to count
them only once. -/
def Loaded.tree (l : Loaded α β) : Nat → List Int → Items α β
  | 0, _ => .nil
  | _ + 1, [] => .nil
  | fuel + 1, sid :: sids =>
      match l.item sid with
      | some (.inl a) => .item a (l.tree fuel sids)
      | some (.inr b) =>
          .container b (l.tree fuel (l.itemlist (.container sid))) (l.tree fuel sids)
      | none => l.tree fuel sids

/-- The list that `loadPlayer` makes of a slot or a depot. -/
def readTop (f : Format α β ρ) (table : Table) (rows : List (Row ρ)) (id : Int) : Items α β :=
  let l := loadTable f table rows
  l.tree (rows.length + 1) (l.itemlist (.top id))

/-! ## Items that come back -/

def Format.reloadItem (f : Format α β ρ) (a : α) : α :=
  match f.load (f.saveItem a) with
  | some (.inl a') => a'
  | _ => a

def Format.reloadContainer (f : Format α β ρ) (b : β) : β :=
  match f.load (f.saveContainer b) with
  | some (.inr b') => b'
  | _ => b

def Items.reload (f : Format α β ρ) : Items α β → Items α β
  | .nil => .nil
  | .item a rest => .item (f.reloadItem a) (rest.reload f)
  | .container b itemlist rest =>
      .container (f.reloadContainer b) (itemlist.reload f) (rest.reload f)

variable {f : Format α β ρ}

theorem load_saveItem (a : α) : f.load (f.saveItem a) = some (.inl (f.reloadItem a)) := by
  obtain ⟨a', ha⟩ := f.item_back a
  rw [Format.reloadItem, ha]

theorem load_saveContainer (b : β) :
    f.load (f.saveContainer b) = some (.inr (f.reloadContainer b)) := by
  obtain ⟨b', hb⟩ := f.container_back b
  rw [Format.reloadContainer, hb]

theorem tree_of_holds {l : Loaded α β} {items : Items α β} {sids : List Int} {fuel : Nat}
    (h : l.Holds f items sids) (hfuel : items.size < fuel) :
    l.tree fuel sids = items.reload f := by
  induction items generalizing sids fuel with
  | nil =>
      subst h
      cases fuel <;> rfl
  | item a rest ih =>
      obtain ⟨sid, sids', rfl, _, hitem, hrest⟩ := h
      obtain ⟨fuel, rfl⟩ := Nat.exists_eq_add_of_lt hfuel
      rw [Items.size] at hfuel ⊢
      simp only [Loaded.tree, hitem, load_saveItem, Items.reload]
      rw [ih hrest (by omega)]
  | container b itemlist rest ihc ih =>
      obtain ⟨sid, sids', rfl, _, hitem, hin, hrest⟩ := h
      obtain ⟨fuel, rfl⟩ := Nat.exists_eq_add_of_lt hfuel
      rw [Items.size] at hfuel ⊢
      simp only [Loaded.tree, hitem, load_saveContainer, Items.reload]
      rw [ihc hin (by omega), ih hrest (by omega)]

/-! ## One row for each item -/

theorem length_rows (items : Items α β) (pid n : Int) :
    (items.rows f pid n).length = items.length := by
  induction items generalizing n with
  | nil => rfl
  | item a rest ih => rw [Items.rows, List.length_cons, ih, Items.length]
  | container b itemlist rest _ ih => rw [Items.rows, List.length_cons, ih, Items.length]

theorem size_eq (items : Items α β) (n : Int) :
    items.size = items.length + ((items.containers n).map fun c => c.2.size).sum := by
  induction items generalizing n with
  | nil => rfl
  | item a rest ih =>
      rw [Items.size, Items.length, Items.containers, ih (n + 1)]
      omega
  | container b itemlist rest _ ih =>
      simp only [Items.size, Items.length, Items.containers, List.map_cons, List.sum_cons]
      rw [ih (n + 1)]
      omega

theorem length_saveContainers (queue : List (Int × Items α β)) (n : Int) :
    (saveContainers f queue n).length = (queue.map fun c => c.2.size).sum := by
  induction queue, n using saveContainers.induct with
  | case1 n => simp [saveContainers]
  | case2 pid items queue n ih =>
      rw [saveContainers, List.length_append, length_rows, ih, List.map_append, List.sum_append,
        List.map_cons, List.sum_cons, size_eq items n]
      omega

theorem size_le_length_saveItems {list : List (Int × Items α β)} {b : Int × Items α β}
    (hb : b ∈ list) : b.2.size ≤ (saveItems f list).length := by
  rw [saveItems_eq, length_saveContainers]
  exact List.le_sum_of_mem (List.mem_map_of_mem hb)

/-! ## What was saved -/

variable {table : Table} (bs : Blocks table α β)

theorem readTop_saveItems (htop : ∀ b ∈ bs.list, b.2 ≠ .nil → table.isTop b.1)
    {b : Int × Items α β} (hb : b ∈ bs.list) :
    readTop f table (saveItems f bs.list) b.1 = b.2.reload f :=
  tree_of_holds (((loadTable_sameForest_iff bs).mpr htop).top b hb)
    (Nat.lt_succ_of_le (size_le_length_saveItems hb))

theorem readTop_saveItems_of_notMem (htop : ∀ b ∈ bs.list, b.2 ≠ .nil → table.isTop b.1)
    {id : Int} (hid : id ∉ bs.list.map Prod.fst) :
    readTop f table (saveItems f bs.list) id = .nil := by
  rw [readTop, ((loadTable_sameForest_iff bs).mpr htop).rest id hid]
  rfl

end Bruxo.ItemForest
