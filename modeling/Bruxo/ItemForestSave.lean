import Bruxo.ItemForest

/-!
# The numbering of the saved items

Both loops of `saveItems` are one breadth-first walk over a queue of item lists
(`saveItems_eq`). Its ids ascend, a parent is written before what is in it, and so the rows of a
parent are, in their order, the items of its list (`numbered_saveContainers`).
-/

namespace Bruxo.ItemForest

variable {α β ρ : Type} {f : Format α β ρ}

/-! ## The rows of one list -/

namespace Items

theorem mem_rows {items : Items α β} {pid n : Int} {r : Row ρ} (hr : r ∈ items.rows f pid n) :
    r.pid = pid ∧ n < r.sid ∧ r.sid ≤ n + items.length := by
  induction items generalizing n with
  | nil => cases hr
  | item a rest ih =>
      simp only [length, Int.natCast_add, Int.cast_ofNat_Int]
      rcases List.mem_cons.mp hr with rfl | hr
      · exact ⟨rfl, by simp only; omega, by simp only; omega⟩
      · obtain ⟨hpid, hlt, hle⟩ := ih hr
        exact ⟨hpid, by omega, by omega⟩
  | container b itemlist rest _ ih =>
      simp only [length, Int.natCast_add, Int.cast_ofNat_Int]
      rcases List.mem_cons.mp hr with rfl | hr
      · exact ⟨rfl, by simp only; omega, by simp only; omega⟩
      · obtain ⟨hpid, hlt, hle⟩ := ih hr
        exact ⟨hpid, by omega, by omega⟩

theorem rows_ascending (items : Items α β) (pid n : Int) :
    (items.rows f pid n).Pairwise fun r r' => r.sid < r'.sid := by
  induction items generalizing n with
  | nil => exact List.Pairwise.nil
  | item a rest ih =>
      exact List.pairwise_cons.mpr ⟨fun r hr => (mem_rows hr).2.1, ih _⟩
  | container b itemlist rest _ ih =>
      exact List.pairwise_cons.mpr ⟨fun r hr => (mem_rows hr).2.1, ih _⟩

theorem load_rows {items : Items α β} {pid n : Int} {r : Row ρ} (hr : r ∈ items.rows f pid n) :
    ∃ item, f.load r.columns = some item := by
  induction items generalizing n with
  | nil => cases hr
  | item a rest ih =>
      rcases List.mem_cons.mp hr with rfl | hr
      · obtain ⟨a', ha⟩ := f.item_back a
        exact ⟨_, ha⟩
      · exact ih hr
  | container b itemlist rest _ ih =>
      rcases List.mem_cons.mp hr with rfl | hr
      · obtain ⟨b', hb⟩ := f.container_back b
        exact ⟨_, hb⟩
      · exact ih hr

theorem mem_containers {items : Items α β} {n : Int} {c : Int × Items α β}
    (hc : c ∈ items.containers n) : n < c.1 ∧ c.1 ≤ n + items.length := by
  induction items generalizing n with
  | nil => cases hc
  | item a rest ih =>
      simp only [length, Int.natCast_add, Int.cast_ofNat_Int]
      obtain ⟨hlt, hle⟩ := ih hc
      exact ⟨by omega, by omega⟩
  | container b itemlist rest _ ih =>
      simp only [length, Int.natCast_add, Int.cast_ofNat_Int]
      rcases List.mem_cons.mp hc with rfl | hc
      · exact ⟨by simp only; omega, by simp only; omega⟩
      · obtain ⟨hlt, hle⟩ := ih hc
        exact ⟨by omega, by omega⟩

theorem containers_nodup (items : Items α β) (n : Int) :
    ((items.containers n).map Prod.fst).Nodup := by
  induction items generalizing n with
  | nil => exact List.nodup_nil
  | item a rest ih => exact ih _
  | container b itemlist rest _ ih =>
      refine List.nodup_cons.mpr ⟨fun h => ?_, ih _⟩
      obtain ⟨c, hc, heq⟩ := List.mem_map.mp h
      have := (mem_containers hc).1
      omega

end Items

/-! ## One walk -/

theorem saveContainers_append (itemList containers : List (Int × Items α β)) (runningId : Int) :
    saveContainers f (itemList ++ containers) runningId =
      (saveTop f itemList runningId).1 ++
        saveContainers f (containers ++ (saveTop f itemList runningId).2.1)
          (saveTop f itemList runningId).2.2 := by
  induction itemList generalizing containers runningId with
  | nil => simp only [saveTop, List.nil_append, List.append_nil]
  | cons b itemList ih =>
      obtain ⟨pid, items⟩ := b
      simp only [List.cons_append, saveContainers, saveTop]
      rw [List.append_assoc, ih, List.append_assoc, List.append_assoc]

theorem saveItems_eq (itemList : List (Int × Items α β)) :
    saveItems f itemList = saveContainers f itemList 100 := by
  have := saveContainers_append (f := f) itemList [] 100
  rw [List.append_nil, List.nil_append] at this
  exact this.symm

/-- What the walk keeps of its queue: the ids in it are different, and were given before. -/
structure Given (queue : List (Int × Items α β)) (runningId : Int) : Prop where
  nodup : (queue.map Prod.fst).Nodup
  le : ∀ q ∈ queue, q.1 ≤ runningId

theorem Given.step {parentId runningId : Int} {items : Items α β}
    {containers : List (Int × Items α β)} (h : Given ((parentId, items) :: containers) runningId) :
    Given (containers ++ items.containers runningId) (runningId + items.length) where
  nodup := by
    rw [List.map_append]
    refine List.Nodup.append (List.nodup_cons.mp h.nodup).2 (items.containers_nodup _) ?_
    intro id hid hid'
    obtain ⟨q, hq, rfl⟩ := List.mem_map.mp hid
    obtain ⟨c, hc, heq⟩ := List.mem_map.mp hid'
    have := h.le q (List.mem_cons_of_mem _ hq)
    have := (Items.mem_containers hc).1
    omega
  le := by
    intro q hq
    rcases List.mem_append.mp hq with hq | hq
    · have := h.le q (List.mem_cons_of_mem _ hq)
      omega
    · exact (Items.mem_containers hq).2

theorem mem_saveContainers {queue : List (Int × Items α β)} {n : Int} {r : Row ρ}
    (hr : r ∈ saveContainers f queue n) :
    n < r.sid ∧ (r.pid ∈ queue.map Prod.fst ∨ n < r.pid) := by
  induction queue, n using saveContainers.induct with
  | case1 => simp only [saveContainers, List.not_mem_nil] at hr
  | case2 parentId items containers n ih =>
      rw [saveContainers] at hr
      rcases List.mem_append.mp hr with hr | hr
      · obtain ⟨hpid, hlt, _⟩ := Items.mem_rows hr
        exact ⟨hlt, .inl (hpid ▸ List.mem_cons_self)⟩
      · obtain ⟨hlt, hpid⟩ := ih hr
        refine ⟨by omega, ?_⟩
        rcases hpid with hpid | hpid
        · rw [List.map_append] at hpid
          rcases List.mem_append.mp hpid with hpid | hpid
          · exact .inl (List.mem_cons_of_mem _ hpid)
          · obtain ⟨c, hc, heq⟩ := List.mem_map.mp hpid
            have := (Items.mem_containers hc).1
            exact .inr (by omega)
        · exact .inr (by omega)

theorem saveContainers_ascending (queue : List (Int × Items α β)) (n : Int) :
    (saveContainers f queue n).Pairwise fun r r' => r.sid < r'.sid := by
  induction queue, n using saveContainers.induct with
  | case1 => simp only [saveContainers, List.Pairwise.nil]
  | case2 parentId items containers n ih =>
      rw [saveContainers]
      refine List.pairwise_append.mpr ⟨items.rows_ascending _ _, ih, fun r hr r' hr' => ?_⟩
      have := (Items.mem_rows hr).2.2
      have := (mem_saveContainers hr').1
      omega

theorem load_saveContainers {queue : List (Int × Items α β)} {n : Int} {r : Row ρ}
    (hr : r ∈ saveContainers f queue n) : ∃ item, f.load r.columns = some item := by
  induction queue, n using saveContainers.induct with
  | case1 => simp only [saveContainers, List.not_mem_nil] at hr
  | case2 parentId items containers n ih =>
      rw [saveContainers] at hr
      rcases List.mem_append.mp hr with hr | hr
      · exact Items.load_rows hr
      · exact ih hr

/-! ## The rows of a parent -/

def kids (rows : List (Row ρ)) (pid : Int) : List Int :=
  (rows.filter fun r => r.pid = pid).map Row.sid

theorem kids_append (rows rows' : List (Row ρ)) (pid : Int) :
    kids (rows ++ rows') pid = kids rows pid ++ kids rows' pid := by
  rw [kids, List.filter_append, List.map_append]
  rfl

theorem kids_eq_nil {rows : List (Row ρ)} {pid : Int} (h : ∀ r ∈ rows, r.pid ≠ pid) :
    kids rows pid = [] := by
  rw [kids, List.map_eq_nil_iff, List.filter_eq_nil_iff]
  exact fun r hr => by simpa using h r hr

theorem kids_rows (items : Items α β) (pid n : Int) :
    kids (items.rows f pid n) pid = (items.rows f pid n).map Row.sid := by
  rw [kids, List.filter_eq_self.mpr fun r hr => decide_eq_true (Items.mem_rows hr).1]

/-- The ids of a list of items, and of what is in them, in the rows. -/
def Numbered (f : Format α β ρ) (rows : List (Row ρ)) : Items α β → List Int → Prop
  | .nil, sids => sids = []
  | .item a rest, sids =>
      ∃ sid sids' pid, sids = sid :: sids' ∧ ⟨pid, sid, f.saveItem a⟩ ∈ rows ∧
        Numbered f rows rest sids'
  | .container b itemlist rest, sids =>
      ∃ sid sids' pid, sids = sid :: sids' ∧ ⟨pid, sid, f.saveContainer b⟩ ∈ rows ∧
        Numbered f rows itemlist (kids rows sid) ∧ Numbered f rows rest sids'

/-- Rows that are written before have no later parent. -/
theorem Numbered.after {rows rows' : List (Row ρ)} {items : Items α β} {sids : List Int}
    (h : Numbered f rows' items sids) (hpid : ∀ r ∈ rows, ∀ r' ∈ rows', r.pid ≠ r'.sid) :
    Numbered f (rows ++ rows') items sids := by
  induction items generalizing sids with
  | nil => exact h
  | item a rest ih =>
      obtain ⟨sid, sids', pid, rfl, hmem, hrest⟩ := h
      exact ⟨sid, sids', pid, rfl, List.mem_append_right _ hmem, ih hrest⟩
  | container b itemlist rest ihc ih =>
      obtain ⟨sid, sids', pid, rfl, hmem, hin, hrest⟩ := h
      refine ⟨sid, sids', pid, rfl, List.mem_append_right _ hmem, ?_, ih hrest⟩
      rw [kids_append, kids_eq_nil fun r hr => hpid r hr _ hmem, List.nil_append]
      exact ihc hin

theorem numbered_rows {rows : List (Row ρ)} {items : Items α β} {pid n : Int}
    (hrows : ∀ r ∈ items.rows f pid n, r ∈ rows)
    (hin : ∀ c ∈ items.containers n, Numbered f rows c.2 (kids rows c.1)) :
    Numbered f rows items ((items.rows f pid n).map Row.sid) := by
  induction items generalizing n with
  | nil => rfl
  | item a rest ih =>
      exact ⟨_, _, pid, rfl, hrows _ List.mem_cons_self,
        ih (fun r hr => hrows r (List.mem_cons_of_mem _ hr)) hin⟩
  | container b itemlist rest _ ih =>
      exact ⟨_, _, pid, rfl, hrows _ List.mem_cons_self, hin _ List.mem_cons_self,
        ih (fun r hr => hrows r (List.mem_cons_of_mem _ hr))
          fun c hc => hin c (List.mem_cons_of_mem _ hc)⟩

theorem numbered_saveContainers {queue : List (Int × Items α β)} {n : Int} (h : Given queue n) :
    ∀ q ∈ queue,
      Numbered f (saveContainers f queue n) q.2 (kids (saveContainers f queue n) q.1) := by
  induction queue, n using saveContainers.induct with
  | case1 => exact fun q hq => absurd hq List.not_mem_nil
  | case2 parentId items containers n ih =>
      -- The rows of the list at the head come first, and theirs is a parent of before.
      have hlater : ∀ q ∈ containers ++ items.containers n,
          Numbered f (saveContainers f ((parentId, items) :: containers) n) q.2
            (kids (saveContainers f ((parentId, items) :: containers) n) q.1) := by
        intro q hq
        have hne : parentId ≠ q.1 := by
          intro heq
          rcases List.mem_append.mp hq with hq | hq
          · exact (List.nodup_cons.mp h.nodup).1 (List.mem_map.mpr ⟨q, hq, heq.symm⟩)
          · have := h.le _ List.mem_cons_self
            have := (Items.mem_containers hq).1
            omega
        rw [saveContainers, kids_append,
          kids_eq_nil fun r hr => (Items.mem_rows hr).1 ▸ hne, List.nil_append]
        refine (ih h.step q hq).after fun r hr r' hr' => ?_
        have := h.le _ List.mem_cons_self
        have := (Items.mem_rows hr).1
        have := (mem_saveContainers hr').1
        omega
      intro q hq
      rcases List.mem_cons.mp hq with rfl | hq
      · have hnone : kids (saveContainers f (containers ++ items.containers n) (n + items.length))
            parentId = [] := by
          refine kids_eq_nil fun r hr => ?_
          rintro rfl
          have := h.le _ List.mem_cons_self
          rcases (mem_saveContainers hr).2 with hpid | hlt
          · rw [List.map_append] at hpid
            rcases List.mem_append.mp hpid with hpid | hpid
            · exact (List.nodup_cons.mp h.nodup).1 hpid
            · obtain ⟨c, hc, heq⟩ := List.mem_map.mp hpid
              have := (Items.mem_containers hc).1
              omega
          · omega
        have hkids : kids (saveContainers f ((parentId, items) :: containers) n) parentId =
            (items.rows f parentId n).map Row.sid := by
          rw [saveContainers, kids_append, hnone, List.append_nil, kids_rows]
        simp only [hkids]
        refine numbered_rows (fun r hr => ?_) fun c hc => hlater c (List.mem_append_right _ hc)
        rw [saveContainers]
        exact List.mem_append_left _ hr
      · exact hlater q (List.mem_append_left _ hq)

end Bruxo.ItemForest
