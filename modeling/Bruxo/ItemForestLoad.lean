import Bruxo.ItemForestSave

/-!
# The forest read back

From rows of ascending ids the map is the rows in their order (`loadItems_reverse`), and the
item lists that the loop leaves are the ids, in their order, of the rows whose parent is found
there (`loadForest_itemlist`). A parent is found if it is a slot, a depot below 100 or a
container of the map, so the forest is the one that was saved exactly when no item was in a depot
from 100 on (`loadTable_sameForest_iff`).
-/

namespace Bruxo.ItemForest

variable {α β ρ : Type} {f : Format α β ρ}

/-! ## The map of the items -/

def entries (f : Format α β ρ) (rows : List (Row ρ)) : ItemMap α β :=
  rows.filterMap fun row => (f.load row.columns).map fun item => (row.sid, item, row.pid)

theorem entries_cons (row : Row ρ) (rows : List (Row ρ)) :
    entries f (row :: rows) =
      match f.load row.columns with
      | some item => (row.sid, item, row.pid) :: entries f rows
      | none => entries f rows := by
  rw [entries, List.filterMap_cons]
  cases f.load row.columns <;> rfl

theorem mem_entries {rows : List (Row ρ)} {e : Int × (α ⊕ β) × Int} :
    e ∈ entries f rows ↔
      ∃ row ∈ rows, f.load row.columns = some e.2.1 ∧ row.sid = e.1 ∧ row.pid = e.2.2 := by
  simp only [entries, List.mem_filterMap, Option.map_eq_some_iff]
  constructor
  · rintro ⟨row, hrow, item, hload, rfl⟩
    exact ⟨row, hrow, hload, rfl, rfl⟩
  · rintro ⟨row, hrow, hload, hsid, hpid⟩
    exact ⟨row, hrow, e.2.1, hload, by rw [hsid, hpid]⟩

theorem entries_sorted {rows : List (Row ρ)} (h : rows.Pairwise fun r r' => r.sid < r'.sid) :
    AssocList.Sorted (entries f rows) := by
  induction rows with
  | nil => exact List.Pairwise.nil
  | cons row rows ih =>
      obtain ⟨hlt, hrows⟩ := List.pairwise_cons.mp h
      rw [entries_cons]
      split
      · next item hload =>
          refine List.pairwise_cons.mpr ⟨fun e he => ?_, ih hrows⟩
          obtain ⟨row', hrow', _, hsid, _⟩ := mem_entries.mp he
          exact hsid ▸ hlt row' hrow'
      · exact ih hrows

theorem loadItems_reverse {rows : List (Row ρ)} (h : rows.Pairwise fun r r' => r.sid < r'.sid) :
    loadItems f rows.reverse = entries f rows := by
  induction rows with
  | nil => rfl
  | cons row rows ih =>
      obtain ⟨hlt, hrows⟩ := List.pairwise_cons.mp h
      have := ih hrows
      rw [loadItems] at this
      rw [loadItems, List.reverse_cons, List.foldl_append, this, List.foldl_cons, List.foldl_nil,
        entries_cons]
      cases hload : f.load row.columns with
      | none => rfl
      | some item =>
          refine AssocList.set_of_lt (fun e he => ?_) _
          obtain ⟨row', hrow', _, hsid, _⟩ := mem_entries.mp he
          exact hsid ▸ hlt row' hrow'

/-! ## The loop -/

/-- Where an item of this parent goes. -/
def parentPlace (table : Table) (itemMap : ItemMap α β) (pid : Int) : Option Place :=
  if table.isTop pid then some (.top pid)
  else
    match AssocList.find pid itemMap with
    | some (.inr _, _) => some (.container pid)
    | _ => none

/-- The rest of the map, from a point of the loop on, has one item at most for a slot. -/
def OnePerSlot (table : Table) (rest : ItemMap α β) : Prop :=
  table = .inventory → ∀ pid, table.isTop pid → (rest.filter fun e => e.2.2 = pid).length ≤ 1

theorem OnePerSlot.tail {table : Table} {e : Int × (α ⊕ β) × Int} {rest : ItemMap α β}
    (h : OnePerSlot table (e :: rest)) : OnePerSlot table rest := by
  intro htable pid htop
  have := h htable pid htop
  rw [List.filter_cons] at this
  split at this
  · exact Nat.le_of_succ_le this
  · exact this

def placed (table : Table) (itemMap rest : ItemMap α β) (place : Place) : List Int :=
  (rest.filter fun e => parentPlace table itemMap e.2.2 = some place).map Prod.fst

theorem placed_cons (table : Table) (itemMap rest : ItemMap α β) (place : Place)
    (e : Int × (α ⊕ β) × Int) :
    placed table itemMap (e :: rest) place =
      if parentPlace table itemMap e.2.2 = some place then
        e.1 :: placed table itemMap rest place
      else placed table itemMap rest place := by
  rw [placed, List.filter_cons]
  split <;> simp_all [placed]

theorem placed_top {table : Table} {itemMap : ItemMap α β} {pid : Int} (h : table.isTop pid)
    (rest : ItemMap α β) :
    placed table itemMap rest (.top pid) =
      (rest.filter fun e => e.2.2 = pid).map Prod.fst := by
  rw [placed]
  congr 2
  funext e
  rw [parentPlace]
  split
  · simp
  · next htop =>
      have : e.2.2 ≠ pid := fun heq => htop (heq ▸ h)
      split <;> simp [this]

theorem placed_container {table : Table} {itemMap : ItemMap α β} {sid pid : Int} {b : β}
    (htop : table.isTop sid = false) (h : AssocList.find sid itemMap = some (.inr b, pid))
    (rest : ItemMap α β) :
    placed table itemMap rest (.container sid) =
      (rest.filter fun e => e.2.2 = sid).map Prod.fst := by
  rw [placed]
  congr 2
  funext e
  by_cases heq : e.2.2 = sid
  · simp [parentPlace, heq, htop, h]
  · rw [parentPlace]
    split
    · simp [heq]
    · split <;> simp [heq]

theorem internalAddThing_itemlist_self (l : Loaded α β) (place : Place) (sid : Int) :
    (l.internalAddThing place sid).itemlist place = sid :: l.itemlist place :=
  Function.update_self ..

theorem internalAddThing_itemlist_of_ne (l : Loaded α β) {place place' : Place}
    (h : place' ≠ place) (sid : Int) :
    (l.internalAddThing place sid).itemlist place' = l.itemlist place' :=
  Function.update_of_ne h ..

/-- The loop, begun at the end of the map: every item it came to is in the list of its place,
and what it did not come to is nowhere. -/
structure Placed (table : Table) (itemMap rest : ItemMap α β) (l : Loaded α β) : Prop where
  item : ∀ sid, l.item sid = (AssocList.find sid itemMap).map Prod.fst
  itemlist : ∀ place, l.itemlist place = placed table itemMap rest place
  parent : ∀ place, ∀ sid ∈ l.itemlist place, l.parent sid = some place

theorem Placed.add {table : Table} {itemMap rest : ItemMap α β} {l : Loaded α β} {place : Place}
    {e : Int × (α ⊕ β) × Int} (h : Placed table itemMap rest l) (hnew : ∀ e' ∈ rest, e.1 < e'.1)
    (hplace : parentPlace table itemMap e.2.2 = some place) :
    Placed table itemMap (e :: rest) (l.internalAddThing place e.1) where
  item := h.item
  itemlist := by
    intro place'
    rw [placed_cons, hplace]
    by_cases heq : place' = place
    · subst heq
      rw [if_pos rfl, internalAddThing_itemlist_self, h.itemlist]
    · rw [if_neg fun h => heq (Option.some.inj h).symm,
        internalAddThing_itemlist_of_ne l heq, h.itemlist]
  parent := by
    intro place' sid hsid
    by_cases heq : sid = e.1
    · subst heq
      have : place' = place := by
        by_contra hne
        rw [internalAddThing_itemlist_of_ne l hne, h.itemlist] at hsid
        obtain ⟨e', he', heq⟩ := List.mem_map.mp hsid
        exact absurd (hnew e' (List.mem_filter.mp he').1) (heq ▸ lt_irrefl _)
      exact this ▸ Function.update_self ..
    · refine (Function.update_of_ne heq ..).trans (h.parent place' sid ?_)
      by_cases hplace' : place' = place
      · subst hplace'
        rw [internalAddThing_itemlist_self] at hsid
        exact (List.mem_cons.mp hsid).resolve_left heq
      · rwa [internalAddThing_itemlist_of_ne l hplace'] at hsid

theorem Placed.step {table : Table} {itemMap rest : ItemMap α β} {l : Loaded α β}
    {e : Int × (α ⊕ β) × Int} (h : Placed table itemMap rest l) (hnew : ∀ e' ∈ rest, e.1 < e'.1)
    (hslots : OnePerSlot table (e :: rest)) :
    Placed table itemMap (e :: rest) (l.place table itemMap e) := by
  obtain ⟨sid, item, pid⟩ := e
  rw [Loaded.place]
  split
  · next htop =>
      have hadd : Placed table itemMap ((sid, item, pid) :: rest)
          (l.internalAddThing (.top pid) sid) := h.add hnew (if_pos htop)
      cases table with
      | depot => exact hadd
      | inventory =>
          -- The slot is not taken: no other item of the map is for it.
          have hfree : l.itemlist (.top pid) = [] := by
            have := hslots rfl pid htop
            rw [List.filter_cons_of_pos (by simp), List.length_cons] at this
            rw [h.itemlist, placed_top htop, List.map_eq_nil_iff]
            exact List.length_eq_zero_iff.mp (by omega)
          rw [Loaded.addTop, if_pos hfree]
          exact hadd
  · next htop =>
      have hparent : parentPlace table itemMap pid =
          match AssocList.find pid itemMap with
          | some (.inr _, _) => some (.container pid)
          | _ => none := if_neg htop
      split
      · next b pid' hfind =>
          rw [hfind] at hparent
          exact h.add hnew hparent
      · next hother =>
          have hnone : parentPlace table itemMap pid = none := by
            rw [hparent]
            split
            · next b pid' hfind => exact absurd hfind (hother b pid')
            · rfl
          refine ⟨h.item, fun place => ?_, h.parent⟩
          rw [placed_cons, hnone, if_neg (by simp)]
          exact h.itemlist place

theorem loadForest_placed {table : Table} {itemMap : ItemMap α β} (hs : AssocList.Sorted itemMap)
    (hslots : OnePerSlot table itemMap) :
    Placed table itemMap itemMap (loadForest table itemMap) := by
  rw [loadForest, List.foldl_reverse]
  suffices ∀ rest : ItemMap α β, AssocList.Sorted rest → OnePerSlot table rest →
      Placed table itemMap rest (rest.foldr (fun e l => l.place table itemMap e)
        { item := fun sid => (AssocList.find sid itemMap).map Prod.fst
          itemlist := fun _ => []
          parent := fun _ => none }) from this itemMap hs hslots
  intro rest hs hslots
  induction rest with
  | nil => exact ⟨fun _ => rfl, fun _ => rfl, fun place sid hsid => absurd hsid List.not_mem_nil⟩
  | cons e rest ih =>
      obtain ⟨hlt, hs⟩ := List.pairwise_cons.mp hs
      exact (ih hs hslots.tail).step hlt hslots

/-! ## From the numbering to the forest -/

theorem kids_eq {rows : List (Row ρ)}
    (hload : ∀ r ∈ rows, ∃ item, f.load r.columns = some item) (pid : Int) :
    kids rows pid = ((entries f rows).filter fun e => e.2.2 = pid).map Prod.fst := by
  induction rows with
  | nil => rfl
  | cons row rows ih =>
      obtain ⟨item, hrow⟩ := hload row List.mem_cons_self
      have ih := ih fun r hr => hload r (List.mem_cons_of_mem _ hr)
      rw [kids] at ih
      rw [entries_cons, hrow, kids, List.filter_cons, List.filter_cons]
      dsimp only
      split
      · rw [List.map_cons, List.map_cons, ih]
      · exact ih

theorem Numbered.length {rows : List (Row ρ)} {items : Items α β} {sids : List Int}
    (h : Numbered f rows items sids) : sids.length = items.length := by
  induction items generalizing sids with
  | nil => exact congrArg List.length h
  | item a rest ih =>
      obtain ⟨sid, sids', pid, rfl, _, hrest⟩ := h
      exact congrArg Nat.succ (ih hrest)
  | container b itemlist rest _ ih =>
      obtain ⟨sid, sids', pid, rfl, _, _, hrest⟩ := h
      exact congrArg Nat.succ (ih hrest)

theorem isTop_le {table : Table} {pid : Int} (h : table.isTop pid) : pid ≤ 100 := by
  cases table with
  | inventory =>
      simp only [Table.isTop, Bool.and_eq_true, decide_eq_true_eq] at h
      omega
  | depot =>
      simp only [Table.isTop, Bool.and_eq_true, decide_eq_true_eq] at h
      omega

section Saved

variable {table : Table} (f) (itemList : List (Int × Items α β))

abbrev savedEntries : ItemMap α β := entries f (saveItems f itemList)

theorem saveItems_ascending : (saveItems f itemList).Pairwise fun r r' => r.sid < r'.sid :=
  saveItems_eq (f := f) itemList ▸ saveContainers_ascending itemList 100

theorem load_saveItems : ∀ r ∈ saveItems f itemList, ∃ item, f.load r.columns = some item :=
  fun _ hr => load_saveContainers (saveItems_eq (f := f) itemList ▸ hr)

variable {itemList}

theorem mem_saveItems {r : Row ρ} (hr : r ∈ saveItems f itemList) :
    100 < r.sid ∧ (r.pid ∈ itemList.map Prod.fst ∨ 100 < r.pid) :=
  mem_saveContainers (saveItems_eq (f := f) itemList ▸ hr)

theorem find_savedEntries {r : Row ρ} {item : α ⊕ β} (hr : r ∈ saveItems f itemList)
    (hload : f.load r.columns = some item) :
    AssocList.find r.sid (savedEntries f itemList) = some (item, r.pid) :=
  (entries_sorted (saveItems_ascending f itemList)).find_of_mem
    (mem_entries.mpr ⟨r, hr, hload, rfl, rfl⟩ : (r.sid, item, r.pid) ∈ _)

/-- An id is no slot and no depot: the container of it is found. -/
theorem placed_saved {sid pid : Int} {b : β}
    (hr : ⟨pid, sid, f.saveContainer b⟩ ∈ saveItems f itemList) :
    placed table (savedEntries f itemList) (savedEntries f itemList) (.container sid) =
      kids (saveItems f itemList) sid := by
  obtain ⟨b', hb⟩ := f.container_back b
  have hsid : table.isTop sid = false := by
    rw [← Bool.not_eq_true]
    exact fun htop => absurd (mem_saveItems f hr).1 (not_lt.mpr (isTop_le htop))
  rw [placed_container hsid (find_savedEntries f hr hb), kids_eq (load_saveItems f itemList)]

theorem Numbered.holds {l : Loaded α β}
    (h : Placed table (savedEntries f itemList) (savedEntries f itemList) l)
    {items : Items α β} {sids : List Int} (hn : Numbered f (saveItems f itemList) items sids) :
    l.Holds f items sids := by
  induction items generalizing sids with
  | nil => exact hn
  | item a rest ih =>
      obtain ⟨sid, sids', pid, rfl, hmem, hrest⟩ := hn
      obtain ⟨a', ha⟩ := f.item_back a
      have hitem : l.item sid = some (.inl a') := by
        rw [h.item, find_savedEntries f hmem ha]
        rfl
      exact ⟨sid, sids', rfl, by rw [hitem]; rfl, by rw [hitem, ha], ih hrest⟩
  | container b itemlist rest ihc ih =>
      obtain ⟨sid, sids', pid, rfl, hmem, hin, hrest⟩ := hn
      obtain ⟨b', hb⟩ := f.container_back b
      have hitem : l.item sid = some (.inr b') := by
        rw [h.item, find_savedEntries f hmem hb]
        rfl
      refine ⟨sid, sids', rfl, by rw [hitem]; rfl, by rw [hitem, hb], ?_, ih hrest⟩
      rw [h.itemlist, placed_saved f hmem]
      exact ihc hin

end Saved

/-! ## The tables -/

def nonempty (itemList : List (Int × Items α β)) : List (Int × Items α β) :=
  itemList.filter fun b => b.2.length ≠ 0

theorem Items.length_eq_zero {items : Items α β} : items.length = 0 ↔ items = .nil := by
  cases items <;> simp [Items.length]

theorem saveTop_nonempty (itemList : List (Int × Items α β)) (runningId : Int) :
    saveTop f (nonempty itemList) runningId = saveTop f itemList runningId := by
  induction itemList generalizing runningId with
  | nil => rfl
  | cons b itemList ih =>
      obtain ⟨pid, items⟩ := b
      rw [nonempty] at ih ⊢
      rw [List.filter_cons]
      split
      · simp only [saveTop, ih]
      · next hnil =>
          obtain rfl : items = .nil := Items.length_eq_zero.mp (by simpa using hnil)
          simp only [ih, saveTop, Items.rows, Items.containers, Items.length, List.nil_append,
            Int.natCast_zero, Int.add_zero]

theorem saveItems_nonempty (itemList : List (Int × Items α β)) :
    saveItems f (nonempty itemList) = saveItems f itemList := by
  simp only [saveItems, saveTop_nonempty]

section Blocks

variable {table : Table} (bs : Blocks table α β)

theorem Blocks.nonempty_nodup : ((nonempty bs.list).map Prod.fst).Nodup :=
  bs.nodup.sublist (List.filter_sublist.map _)

theorem Blocks.numbered (hle : ∀ b ∈ nonempty bs.list, b.1 ≤ 100) :
    ∀ b ∈ nonempty bs.list,
      Numbered f (saveItems f bs.list) b.2 (kids (saveItems f bs.list) b.1) := by
  rw [← saveItems_nonempty, saveItems_eq]
  exact numbered_saveContainers ⟨bs.nonempty_nodup, hle⟩

theorem kids_saveItems_eq_nil {itemList : List (Int × Items α β)} {pid : Int} (hle : pid ≤ 100)
    (hpid : pid ∉ (nonempty itemList).map Prod.fst) : kids (saveItems f itemList) pid = [] := by
  refine kids_eq_nil fun r hr => ?_
  rintro rfl
  rcases (mem_saveItems f (saveItems_nonempty (f := f) itemList ▸ hr)).2 with hmem | hlt
  · exact hpid hmem
  · omega

theorem Blocks.onePerSlot (hle : ∀ b ∈ nonempty bs.list, b.1 ≤ 100) :
    OnePerSlot table (savedEntries f bs.list) := by
  intro htable pid htop
  rw [← List.length_map (f := Prod.fst), ← kids_eq (load_saveItems f bs.list)]
  by_cases hpid : pid ∈ (nonempty bs.list).map Prod.fst
  · obtain ⟨b, hb, rfl⟩ := List.mem_map.mp hpid
    rw [(bs.numbered hle b hb).length]
    exact (bs.slots htable b (List.mem_filter.mp hb).1).2
  · rw [kids_saveItems_eq_nil (isTop_le htop) hpid]
    exact Nat.zero_le 1

theorem loadTable_placed (hle : ∀ b ∈ nonempty bs.list, b.1 ≤ 100) :
    Placed table (savedEntries f bs.list) (savedEntries f bs.list)
      (loadTable f table (saveItems f bs.list)) := by
  rw [loadTable, loadItems_reverse (saveItems_ascending f bs.list)]
  exact loadForest_placed (entries_sorted (saveItems_ascending f bs.list)) (bs.onePerSlot hle)

theorem placed_top_eq_nil {itemMap : ItemMap α β} {id : Int} (h : table.isTop id = false)
    (rest : ItemMap α β) : placed table itemMap rest (.top id) = [] := by
  rw [placed, List.map_eq_nil_iff, List.filter_eq_nil_iff]
  intro e _
  rw [parentPlace]
  split
  · next htop =>
      have : e.2.2 ≠ id := by
        rintro rfl
        rw [h] at htop
        cases htop
      simpa using this
  · split <;> simp

theorem itemlist_top {id : Int} (hle : ∀ b ∈ nonempty bs.list, b.1 ≤ 100)
    (h : table.isTop id) :
    (loadTable f table (saveItems f bs.list)).itemlist (.top id) =
      kids (saveItems f bs.list) id := by
  rw [(loadTable_placed bs hle).itemlist, placed_top h, kids_eq (load_saveItems f bs.list)]

theorem itemlist_top_eq_nil {id : Int} (hle : ∀ b ∈ nonempty bs.list, b.1 ≤ 100)
    (h : id ∉ (nonempty bs.list).map Prod.fst) :
    (loadTable f table (saveItems f bs.list)).itemlist (.top id) = [] := by
  by_cases htop : table.isTop id
  · rw [itemlist_top bs hle htop, kids_saveItems_eq_nil (isTop_le htop) h]
  · rw [(loadTable_placed bs hle).itemlist, placed_top_eq_nil (Bool.not_eq_true _ ▸ htop)]

theorem placed_nodup {itemMap rest : ItemMap α β} (hs : AssocList.Sorted rest) (place : Place) :
    (placed table itemMap rest place).Nodup := by
  rw [placed, List.nodup_iff_pairwise_ne, List.pairwise_map]
  exact (hs.filter _).imp fun h => ne_of_lt h

theorem loadTable_sameForest (htop : ∀ b ∈ nonempty bs.list, table.isTop b.1) :
    (loadTable f table (saveItems f bs.list)).SameForest f bs.list := by
  have hle : ∀ b ∈ nonempty bs.list, b.1 ≤ 100 := fun b hb => isTop_le (htop b hb)
  have hplaced := loadTable_placed (f := f) bs hle
  refine ⟨fun b hb => ?_, fun id hid => ?_, fun place => ?_, hplaced.parent⟩
  · by_cases hnil : b.2 = .nil
    · -- What is empty is not written, and its id is that of no other block.
      have hid : b.1 ∉ (nonempty bs.list).map Prod.fst := by
        intro hmem
        obtain ⟨b', hb', heq⟩ := List.mem_map.mp hmem
        obtain ⟨hb', hlen⟩ := List.mem_filter.mp hb'
        obtain rfl := List.inj_on_of_nodup_map bs.nodup hb' hb heq
        simp [hnil, Items.length] at hlen
      rw [itemlist_top_eq_nil bs hle hid, hnil]
      rfl
    · have hb' : b ∈ nonempty bs.list :=
        List.mem_filter.mpr ⟨hb, by simpa using mt Items.length_eq_zero.mp hnil⟩
      rw [itemlist_top bs hle (htop b hb')]
      exact (bs.numbered hle b hb').holds f hplaced
  · refine itemlist_top_eq_nil bs hle fun hmem => hid ?_
    exact (List.filter_sublist.map Prod.fst).subset hmem
  · rw [hplaced.itemlist]
    exact placed_nodup (entries_sorted (saveItems_ascending f bs.list)) place

theorem itemlist_top_of_not_isTop {id : Int} (htable : table ≠ .inventory)
    (h : table.isTop id = false) :
    (loadTable f table (saveItems f bs.list)).itemlist (.top id) = [] := by
  have hsorted : AssocList.Sorted (savedEntries f bs.list) :=
    entries_sorted (saveItems_ascending f bs.list)
  rw [loadTable, loadItems_reverse (saveItems_ascending f bs.list),
    (loadForest_placed hsorted fun hinv => absurd hinv htable).itemlist, placed_top_eq_nil h]

theorem Loaded.Holds.eq_nil {l : Loaded α β} {items : Items α β} (h : l.Holds f items []) :
    items = .nil := by
  cases items with
  | nil => rfl
  | item a rest =>
      obtain ⟨sid, sids, heq, _⟩ := h
      cases heq
  | container b itemlist rest =>
      obtain ⟨sid, sids, heq, _⟩ := h
      cases heq

theorem loadTable_sameForest_iff :
    (loadTable f table (saveItems f bs.list)).SameForest f bs.list ↔
      ∀ b ∈ bs.list, b.2 ≠ .nil → table.isTop b.1 := by
  constructor
  · intro h b hb hnil
    cases table with
    | inventory => exact (bs.slots rfl b hb).1
    | depot =>
        by_contra htop
        have hholds := h.top b hb
        rw [itemlist_top_of_not_isTop bs (by simp) (Bool.not_eq_true _ ▸ htop)] at hholds
        exact hnil hholds.eq_nil
  · intro h
    refine loadTable_sameForest bs fun b hb => ?_
    obtain ⟨hb, hlen⟩ := List.mem_filter.mp hb
    exact h b hb fun hnil => by simp [hnil, Items.length] at hlen

end Blocks

/-! ## The player -/

/-- The chest in a locker is not written; it comes with the locker, after what is read. -/
structure Player (α β : Type) where
  inventory : Blocks .inventory α β
  depotLockerMap : Blocks .depot α β
  depotChests : Blocks .depot α β

def Player.SameForest (f : Format α β ρ) (p : Player α β) : Prop :=
  (loadTable f .inventory (saveItems f p.inventory.list)).SameForest f p.inventory.list ∧
  (loadTable f .depot (saveItems f p.depotLockerMap.list)).SameForest f p.depotLockerMap.list ∧
  (loadTable f .depot (saveItems f p.depotChests.list)).SameForest f p.depotChests.list

theorem Player.sameForest_iff (f : Format α β ρ) (p : Player α β) :
    p.SameForest f ↔
      ∀ b ∈ p.depotLockerMap.list ++ p.depotChests.list,
        b.2 ≠ .nil → 0 ≤ b.1 ∧ b.1 < 100 := by
  have hdepot : ∀ bs : Blocks .depot α β,
      (loadTable f .depot (saveItems f bs.list)).SameForest f bs.list ↔
        ∀ b ∈ bs.list, b.2 ≠ .nil → 0 ≤ b.1 ∧ b.1 < 100 := by
    intro bs
    rw [loadTable_sameForest_iff]
    simp only [Table.isTop, Bool.and_eq_true, decide_eq_true_eq]
  have hinventory : (loadTable f .inventory (saveItems f p.inventory.list)).SameForest f
      p.inventory.list :=
    (loadTable_sameForest_iff p.inventory).mpr fun b hb _ => (p.inventory.slots rfl b hb).1
  rw [Player.SameForest, hdepot, hdepot]
  constructor
  · rintro ⟨_, hlockers, hchests⟩ b hb
    rcases List.mem_append.mp hb with hb | hb
    · exact hlockers b hb
    · exact hchests b hb
  · intro h
    exact ⟨hinventory, fun b hb => h b (List.mem_append_left _ hb),
      fun b hb => h b (List.mem_append_right _ hb)⟩

/-- A bag in the depot of town 101 gets the running id 101: it is its own parent. -/
theorem Player.not_sameForest_town_101 :
    ∃ (f : Format Unit Unit (Unit ⊕ Unit)) (p : Player Unit Unit),
      p.depotChests.list = [(101, .container () .nil .nil)] ∧
      (loadTable f .depot (saveItems f p.depotChests.list)).itemlist (.container 101) = [101] ∧
      ¬ p.SameForest f := by
  refine ⟨⟨.inl, .inr, some, fun a => ⟨a, rfl⟩, fun b => ⟨b, rfl⟩⟩,
    ⟨⟨[], List.nodup_nil, by simp⟩, ⟨[], List.nodup_nil, by simp⟩,
      ⟨[(101, .container () .nil .nil)], List.nodup_singleton _, by simp⟩⟩, rfl, ?_, ?_⟩
  · simp [saveItems, saveTop, saveContainers, Items.rows, Items.containers, Items.length,
      loadTable, loadItems, loadForest, AssocList.set, AssocList.find, Loaded.place, Table.isTop,
      Loaded.internalAddThing]
  · rintro ⟨_, _, hchests⟩
    have := (loadTable_sameForest_iff _).mp hchests (101, .container () .nil .nil)
    simp [Table.isTop] at this

end Bruxo.ItemForest
