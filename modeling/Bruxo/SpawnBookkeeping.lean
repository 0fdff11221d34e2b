import Bruxo.Spawn
import Mathlib.Data.List.Induction

/-!
# The bookkeeping of spawns

Every entry of the multimap is for a block or for a monster that wandered off, a block has at most
one, and a monster has one and a reference with it (`Kept`), whatever happens. That no block is
forgotten needs more: a startup that places no monster leaves nothing behind that would ask for a
check (`spawn_bookkeeping`).
-/

namespace Bruxo.Spawns

variable {σ MonsterType : Type} {game : Game σ MonsterType}

theorem insert_perm (entry : Nat × MonsterId) (spawnedMap : SpawnedMap) :
    (insert entry spawnedMap).Perm (entry :: spawnedMap) := by
  have hsplit := List.takeWhile_append_dropWhile (p := (·.1 ≤ entry.1)) (l := spawnedMap)
  rw [insert]
  conv_rhs => rw [← hsplit]
  exact List.perm_middle

/-! ## The blocks -/

theorem keys_set {β : Type} {l : List (Nat × β)} (hs : AssocList.Sorted l) {k : Nat}
    (h : k ∈ l.map Prod.fst) (b : β) : (AssocList.set k b l).map Prod.fst = l.map Prod.fst := by
  induction l with
  | nil => cases h
  | cons e l ih =>
      obtain ⟨hlt, hs⟩ := List.pairwise_cons.mp hs
      rw [AssocList.set]
      rcases List.mem_cons.mp h with rfl | h
      · rw [if_neg (lt_irrefl _), if_pos rfl]
        rfl
      · obtain ⟨e', he', rfl⟩ := List.mem_map.mp h
        have hk := hlt e' he'
        rw [if_neg (by omega), if_neg (by omega), List.map_cons, ih hs h, List.map_cons]

theorem keys_touch {spawnMap : List (Nat × SpawnBlock MonsterType)}
    (hs : AssocList.Sorted spawnMap) {spawnId : Nat} (h : spawnId ∈ spawnMap.map Prod.fst)
    (time : Int) : (touch spawnId time spawnMap).map Prod.fst = spawnMap.map Prod.fst :=
  keys_set hs h _

namespace State

/-! ## What a try does -/

/-- A try leaves the spawn as it is, or registers a new monster. -/
def Tried (game : Game σ MonsterType) (spawnId : Nat) (s : State σ MonsterType)
    (r : Bool × State σ MonsterType) : Prop :=
  ∃ g n, s.nextMonster ≤ n ∧ (r = (false, s.attempted g n) ∨
    ∃ position, r = (true, (s.attempted g (n + 1)).register game spawnId n position))

variable {s t : State σ MonsterType} {spawnId : Nat}

theorem Tried.after {g : σ} {n : MonsterId} {r : Bool × State σ MonsterType}
    (hn : s.nextMonster ≤ n) (h : Tried game spawnId (s.attempted g n) r) :
    Tried game spawnId s r := by
  obtain ⟨g', n', hn', hr⟩ := h
  exact ⟨g', n', Nat.le_trans hn hn', hr⟩

variable (game s spawnId) in
theorem spawnMonsterType_tried (mType : MonsterType) (pos : Position) (startup : Bool) :
    Tried game spawnId s (s.spawnMonsterType game spawnId mType pos startup) := by
  rw [spawnMonsterType]
  rcases game.eventMonsterOnSpawn s.nextMonster mType pos startup s.game with ⟨ok, g⟩
  cases ok with
  | false => exact ⟨g, s.nextMonster + 1, Nat.le_succ _, .inl rfl⟩
  | true =>
      simp only [Bool.not_true, Bool.false_eq_true, if_false]
      rcases game.placeCreature s.nextMonster pos startup g with ⟨place, g'⟩
      cases place with
      | none => exact ⟨g', s.nextMonster + 1, Nat.le_succ _, .inl rfl⟩
      | some position => exact ⟨g', s.nextMonster, Nat.le_refl _, .inr ⟨position, rfl⟩⟩

variable (game spawnId) in
theorem spawnFunc_tried (pos : Position) (startup isBlocked roll : Bool)
    (mTypes : List (MonsterType × UInt16)) (blockedMonsters : Nat) (s : State σ MonsterType) :
    Tried game spawnId s
      ((spawnFunc game spawnId pos startup isBlocked roll mTypes blockedMonsters s).1,
        (spawnFunc game spawnId pos startup isBlocked roll mTypes blockedMonsters s).2.2) := by
  induction mTypes generalizing blockedMonsters s with
  | nil => exact ⟨s.game, s.nextMonster, Nat.le_refl _, .inl rfl⟩
  | cons entry mTypes ih =>
      obtain ⟨mType, chance⟩ := entry
      rw [spawnFunc]
      split
      · exact ih _ s
      split
      · exact spawnMonsterType_tried game s spawnId mType pos startup
      · rcases game.normalRandom s.game with ⟨number, g⟩
        simp only
        split
        · have htried := (spawnMonsterType_tried game (s.attempted g s.nextMonster) spawnId mType pos
            startup).after (Nat.le_refl _)
          obtain ⟨g', n, hn, heq | ⟨position, heq⟩⟩ := htried
          · rw [heq]
            exact (ih _ _).after (Nat.le_trans hn (Nat.le_refl _))
          · rw [heq]
            exact ⟨g', n, hn, .inr ⟨position, rfl⟩⟩
        · exact (ih _ _).after (Nat.le_refl _)

variable (game s spawnId) in
theorem spawnMonster_tried (sb : SpawnBlock MonsterType) (startup : Bool) :
    Tried game spawnId s (s.spawnMonster game spawnId sb startup) := by
  have hfirst := spawnFunc_tried game spawnId sb.pos startup
    (!startup && game.findPlayer s.game sb.pos) (sb.mTypes.length > 1) sb.mTypes 0 s
  rw [spawnMonster]
  revert hfirst
  rcases spawnFunc game spawnId sb.pos startup (!startup && game.findPlayer s.game sb.pos)
    (sb.mTypes.length > 1) sb.mTypes 0 s with ⟨ok, blockedMonsters, t⟩
  intro hfirst
  cases ok with
  | true => exact hfirst
  | false =>
      simp only [Bool.false_eq_true, if_false]
      split
      · exact hfirst
      · obtain ⟨g, n, hn, heq | ⟨position, heq⟩⟩ := hfirst
        · obtain rfl : t = s.attempted g n := (Prod.mk.inj heq).2
          exact (spawnFunc_tried game spawnId sb.pos startup _ false sb.mTypes blockedMonsters
            _).after hn
        · cases (Prod.mk.inj heq).1

/-! ## What holds in every run -/

def ids (s : State σ MonsterType) : List Nat := s.spawnedMap.map Prod.fst

def monsters (s : State σ MonsterType) : List MonsterId := s.spawnedMap.map Prod.snd

def blocks (s : State σ MonsterType) : List Nat := s.spawnMap.map Prod.fst

structure Kept (s : State σ MonsterType) : Prop where
  sorted : AssocList.Sorted s.spawnMap
  positive : 0 ∉ s.blocks
  ofBlock : ∀ spawnId ∈ s.ids, spawnId ≠ 0 → spawnId ∈ s.blocks
  nodup_ids : (s.ids.filter (· ≠ 0)).Nodup
  nodup_monsters : s.monsters.Nodup
  known : ∀ id ∈ s.monsters, id < s.nextMonster ∧ (s.monster id).spawn = true
  references : ∀ id, (s.monster id).references = if id ∈ s.monsters then 1 else 0

/-- The multimap has monsters that are on the map only, as after a cleanup. -/
def Live (s : State σ MonsterType) : Prop := ∀ id ∈ s.monsters, (s.monster id).isRemoved = false

/-- No monster has wandered off. -/
def Homed (s : State σ MonsterType) : Prop := 0 ∉ s.ids

/-- What spawning keeps. -/
structure Grown (s t : State σ MonsterType) : Prop where
  kept : Kept t
  blocks : t.blocks = s.blocks
  event : t.checkSpawnEvent = s.checkSpawnEvent
  live : Live s → Live t
  homed : Homed s → Homed t

theorem Grown.trans {u : State σ MonsterType} (h : Grown s t) (h' : Grown t u) : Grown s u where
  kept := h'.kept
  blocks := h'.blocks.trans h.blocks
  event := h'.event.trans h.event
  live hs := h'.live (h.live hs)
  homed hs := h'.homed (h.homed hs)

theorem Kept.grown (h : Kept s) : Grown s s := ⟨h, rfl, rfl, id, id⟩

theorem Kept.attempted (h : Kept s) (g : σ) {n : MonsterId} (hn : s.nextMonster ≤ n) :
    Kept (s.attempted g n) :=
  { h with known := fun id hid => ⟨Nat.lt_of_lt_of_le (h.known id hid).1 hn, (h.known id hid).2⟩ }

theorem Kept.touch (h : Kept s) (hid : spawnId ∈ s.blocks) (time : Int) :
    Kept { s with spawnMap := Spawns.touch spawnId time s.spawnMap } ∧
      (Spawns.touch spawnId time s.spawnMap).map Prod.fst = s.blocks := by
  have hkeys := keys_touch h.sorted hid time
  refine ⟨{ h with sorted := h.sorted.set _ _, positive := ?_, ofBlock := ?_ }, hkeys⟩
  · show 0 ∉ (Spawns.touch spawnId time s.spawnMap).map Prod.fst
    rw [hkeys]
    exact h.positive
  · show ∀ id ∈ s.ids, id ≠ 0 → id ∈ (Spawns.touch spawnId time s.spawnMap).map Prod.fst
    rw [hkeys]
    exact h.ofBlock

variable (game s spawnId) in
theorem ids_register (n : MonsterId) (position : Position) :
    (s.register game spawnId n position).ids.Perm (spawnId :: s.ids) :=
  (insert_perm (spawnId, n) s.spawnedMap).map Prod.fst

variable (game s spawnId) in
theorem monsters_register (n : MonsterId) (position : Position) :
    (s.register game spawnId n position).monsters.Perm (n :: s.monsters) :=
  (insert_perm (spawnId, n) s.spawnedMap).map Prod.snd

theorem Kept.register (h : Kept s) (hid : spawnId ∈ s.blocks) (hnew : spawnId ∉ s.ids)
    (g : σ) {n : MonsterId} (hn : s.nextMonster ≤ n) (position : Position) :
    Grown s ((s.attempted g (n + 1)).register game spawnId n position) := by
  have hattempted : Kept (s.attempted g (n + 1)) := h.attempted g (Nat.le_succ_of_le hn)
  have hids := ids_register game (s.attempted g (n + 1)) spawnId n position
  have hmonsters := monsters_register game (s.attempted g (n + 1)) spawnId n position
  have hfresh : n ∉ s.monsters := fun hmem => absurd (h.known n hmem).1 (Nat.not_lt_of_le hn)
  have hpositive : spawnId ≠ 0 := fun hzero => h.positive (hzero ▸ hid)
  obtain ⟨htouch, hblocks⟩ := hattempted.touch hid (game.time g)
  have hblocks : ((s.attempted g (n + 1)).register game spawnId n position).blocks = s.blocks :=
    hblocks
  have hmonster : ∀ id, id ≠ n → ((s.attempted g (n + 1)).register game spawnId n
      position).monster id = s.monster id := fun id hne => Function.update_of_ne hne _ _
  have hnew' : ((s.attempted g (n + 1)).register game spawnId n position).monster n =
      ⟨false, position, true, 1⟩ := Function.update_self _ _ _
  have hmem : ∀ id, id ∈ ((s.attempted g (n + 1)).register game spawnId n position).monsters ↔
      id = n ∨ id ∈ s.monsters := fun id => hmonsters.mem_iff.trans List.mem_cons
  constructor
  · constructor
    · exact htouch.sorted
    · exact htouch.positive
    · intro id hmem hne
      rcases List.mem_cons.mp (hids.mem_iff.mp hmem) with rfl | hold
      · rw [hblocks]
        exact hid
      · exact htouch.ofBlock id hold hne
    · refine ((hids.filter _).nodup_iff).mpr ?_
      rw [List.filter_cons, if_pos (decide_eq_true hpositive)]
      exact List.nodup_cons.mpr ⟨fun hold => hnew (List.mem_of_mem_filter hold), h.nodup_ids⟩
    · exact hmonsters.nodup_iff.mpr (List.nodup_cons.mpr ⟨hfresh, h.nodup_monsters⟩)
    · intro id hid
      rcases (hmem id).mp hid with rfl | hold
      · rw [hnew']
        exact ⟨Nat.lt_succ_self _, rfl⟩
      · rw [hmonster id fun heq => hfresh (heq ▸ hold)]
        exact hattempted.known id hold
    · intro id
      simp only [hmem]
      by_cases heq : id = n
      · rw [heq, hnew', if_pos (.inl rfl)]
      · rw [hmonster id heq, h.references id]
        simp only [heq, false_or]
  · exact hblocks
  · rfl
  · intro hlive id hid
    rcases (hmem id).mp hid with rfl | hold
    · rw [hnew']
    · rw [hmonster id fun heq => hfresh (heq ▸ hold)]
      exact hlive id hold
  · intro hhomed hzero
    rcases List.mem_cons.mp (hids.mem_iff.mp hzero) with hzero | hold
    · exact hpositive hzero.symm
    · exact hhomed hold

theorem Tried.grown {ok : Bool} (htried : Tried game spawnId s (ok, t)) (h : Kept s)
    (hid : spawnId ∈ s.blocks) (hnew : spawnId ∉ s.ids) :
    Grown s t ∧ t.ids.Perm (if ok then spawnId :: s.ids else s.ids) := by
  obtain ⟨g, n, hn, heq | ⟨position, heq⟩⟩ := htried
  · obtain ⟨rfl, rfl⟩ := Prod.mk.inj heq
    exact ⟨⟨h.attempted g hn, rfl, rfl, id, id⟩, List.Perm.refl _⟩
  · obtain ⟨rfl, rfl⟩ := Prod.mk.inj heq
    exact ⟨h.register hid hnew g hn position, ids_register game _ spawnId n position⟩

/-! ## The startup -/

variable (game) in
theorem spawnAll_spec {list : List (Nat × SpawnBlock MonsterType)} (h : Kept s)
    (hnodup : (list.map Prod.fst).Nodup) (hblocks : ∀ id ∈ list.map Prod.fst, id ∈ s.blocks)
    (hnew : ∀ id ∈ list.map Prod.fst, id ∉ s.ids) :
    Grown s (spawnAll game list s).2 ∧
      (spawnAll game list s).2.ids.Perm ((spawnAll game list s).1 ++ s.ids) := by
  induction list generalizing s with
  | nil => exact ⟨h.grown, List.Perm.refl _⟩
  | cons entry list ih =>
      obtain ⟨spawnId, sb⟩ := entry
      obtain ⟨hfirst, hnodup⟩ := List.nodup_cons.mp hnodup
      obtain ⟨hblock, hblocks⟩ := List.forall_mem_cons.mp hblocks
      obtain ⟨hid, hnew⟩ := List.forall_mem_cons.mp hnew
      have htried := spawnMonster_tried game s spawnId sb true
      rw [spawnAll]
      revert htried
      rcases s.spawnMonster game spawnId sb true with ⟨ok, t⟩
      intro htried
      obtain ⟨hgrown, hids⟩ := htried.grown h hblock hid
      have hnew' : ∀ id ∈ list.map Prod.fst, id ∉ t.ids := by
        intro id hmem hold
        rw [hids.mem_iff] at hold
        split at hold
        · rcases List.mem_cons.mp hold with rfl | hold
          · exact hfirst hmem
          · exact hnew id hmem hold
        · exact hnew id hmem hold
      obtain ⟨hrest, hperm⟩ := ih hgrown.kept hnodup
        (fun id hmem => hgrown.blocks.symm ▸ hblocks id hmem) hnew'
      refine ⟨hgrown.trans hrest, hperm.trans ?_⟩
      cases ok with
      | true => exact (hids.append_left _).trans List.perm_middle
      | false => exact hids.append_left _

/-! ## The cleanup -/

/-- A monster that was removed is erased. -/
theorem Kept.erase {visited rest : SpawnedMap} {id : MonsterId}
    (h : Kept { s with spawnedMap := visited ++ (spawnId, id) :: rest }) :
    Kept { s with
      spawnedMap := visited ++ rest
      monster := Function.update s.monster id
        { s.monster id with references := (s.monster id).references - 1 } } := by
  have hsub : (visited ++ rest).Sublist (visited ++ (spawnId, id) :: rest) :=
    (List.sublist_cons_self _ _).append_left _
  have hmonsters : ((visited ++ (spawnId, id) :: rest).map Prod.snd).Perm
      (id :: (visited ++ rest).map Prod.snd) := List.perm_middle.map Prod.snd
  obtain ⟨hout, hnodup⟩ := List.nodup_cons.mp (hmonsters.nodup_iff.mp h.nodup_monsters)
  have hin : id ∈ (visited ++ (spawnId, id) :: rest).map Prod.snd :=
    hmonsters.mem_iff.mpr List.mem_cons_self
  refine ⟨h.sorted, h.positive, fun k hk => h.ofBlock k ((hsub.map Prod.fst).subset hk),
    List.Nodup.sublist ((hsub.map Prod.fst).filter _) h.nodup_ids, hnodup, fun m hm => ?_,
    fun m => ?_⟩
  · have hne : m ≠ id := fun heq => hout (heq ▸ hm)
    simp only [Function.update_of_ne hne]
    exact h.known m ((hsub.map Prod.snd).subset hm)
  · by_cases heq : m = id
    · have hone : (s.monster id).references = 1 := (h.references id).trans (if_pos hin)
      subst heq
      simp only [Function.update_self, hone]
      exact (if_neg hout).symm
    · have hold := h.references m
      simp only [Function.update_of_ne heq]
      rw [show (s.monster m).references = _ from hold]
      refine if_congr ?_ rfl rfl
      exact hmonsters.mem_iff.trans (List.mem_cons.trans (or_iff_right heq))

variable (game) in
theorem Kept.release {visited rest : SpawnedMap} {id : MonsterId}
    (h : Kept { s with spawnedMap := visited ++ (spawnId, id) :: rest }) :
    Kept { s.release game spawnId id with spawnedMap := visited ++ rest } ∧
      (s.release game spawnId id).blocks = s.blocks := by
  rw [State.release, State.blocks]
  by_cases hspawn : spawnId ≠ 0
  · rw [if_pos hspawn]
    have hblock : spawnId ∈ s.blocks := h.ofBlock spawnId
      (List.mem_map_of_mem (List.mem_append_right _ List.mem_cons_self)) hspawn
    exact h.erase.touch hblock _
  · rw [if_neg hspawn]
    exact ⟨h.erase, rfl⟩

/-- A monster that wandered off gets the id 0. -/
theorem Kept.rekey {visited rest : SpawnedMap} {id : MonsterId}
    (h : Kept { s with spawnedMap := visited ++ (spawnId, id) :: rest }) :
    Kept { s with spawnedMap := insert (0, id) visited ++ rest } := by
  have hperm : (insert (0, id) visited ++ rest).Perm ((0, id) :: (visited ++ rest)) :=
    (insert_perm (0, id) visited).append_right rest
  have hold : (visited ++ (spawnId, id) :: rest).Perm ((spawnId, id) :: (visited ++ rest)) :=
    List.perm_middle
  have hmonsters : ((insert (0, id) visited ++ rest).map Prod.snd).Perm
      ((visited ++ (spawnId, id) :: rest).map Prod.snd) :=
    (hperm.map Prod.snd).trans (hold.map Prod.snd).symm
  have hids := hperm.map Prod.fst
  have hsub : ((visited ++ rest).map Prod.fst).Sublist
      ((visited ++ (spawnId, id) :: rest).map Prod.fst) :=
    ((List.sublist_cons_self _ _).append_left _).map Prod.fst
  refine ⟨h.sorted, h.positive, fun k hk hne => ?_, ?_,
    hmonsters.nodup_iff.mpr h.nodup_monsters, fun m hm => h.known m (hmonsters.mem_iff.mp hm),
    fun m => ?_⟩
  · rcases List.mem_cons.mp (hids.mem_iff.mp hk) with rfl | hk
    · exact absurd rfl hne
    · exact h.ofBlock k (hsub.subset hk) hne
  · refine ((hids.filter _).nodup_iff).mpr ?_
    exact List.Nodup.sublist (hsub.filter _) h.nodup_ids
  · rw [show (s.monster m).references = _ from h.references m]
    exact if_congr hmonsters.mem_iff.symm rfl rfl

/-- What a cleanup leaves. -/
structure Cleaned (s t : State σ MonsterType) : Prop where
  kept : Kept t
  blocks : t.blocks = s.blocks
  event : t.checkSpawnEvent = s.checkSpawnEvent
  live : Live t

variable (game) in
theorem cleanupFrom_spec (visited rest : SpawnedMap)
    (h : Kept { s with spawnedMap := visited ++ rest })
    (hlive : ∀ id ∈ visited.map Prod.snd, (s.monster id).isRemoved = false) :
    Cleaned s (cleanupFrom game visited rest s) ∧
      (0 ∉ (visited ++ rest).map Prod.fst →
        (∀ id ∈ rest.map Prod.snd, (s.monster id).isRemoved = false →
          s.isInSpawnZone (s.monster id).position = true) →
        Homed (cleanupFrom game visited rest s)) := by
  induction rest generalizing visited s with
  | nil =>
      rw [List.append_nil] at h
      exact ⟨⟨h, rfl, rfl, hlive⟩, fun hzero _ => by rwa [List.append_nil] at hzero⟩
  | cons entry rest ih =>
      obtain ⟨spawnId, id⟩ := entry
      have hperm : ((visited ++ (spawnId, id) :: rest).map Prod.snd).Perm
          (id :: (visited ++ rest).map Prod.snd) := List.perm_middle.map Prod.snd
      obtain ⟨hout, -⟩ := List.nodup_cons.mp (hperm.nodup_iff.mp h.nodup_monsters)
      rw [List.map_append, List.mem_append, not_or] at hout
      rw [cleanupFrom]
      split
      · obtain ⟨hkept, hblocks⟩ := h.release game
        have hsame : ∀ m ∈ visited.map Prod.snd ++ rest.map Prod.snd,
            (s.release game spawnId id).monster m = s.monster m := by
          intro m hm
          refine Function.update_of_ne ?_ _ _
          rintro rfl
          exact (List.mem_append.mp hm).elim hout.1 hout.2
        have hzero : 0 ∉ (visited ++ (spawnId, id) :: rest).map Prod.fst →
            0 ∉ (visited ++ rest).map Prod.fst := fun hzero hmem =>
          hzero ((((List.sublist_cons_self _ _).append_left _).map Prod.fst).subset hmem)
        obtain ⟨hcleaned, hhomed⟩ := ih _ hkept fun m hm => by
          rw [hsame m (List.mem_append_left _ hm)]
          exact hlive m hm
        refine ⟨{ hcleaned with blocks := hcleaned.blocks.trans hblocks }, fun hnot hzone => ?_⟩
        refine hhomed (hzero hnot) fun m hm => ?_
        rw [hsame m (List.mem_append_right _ hm)]
        exact hzone m (List.mem_cons_of_mem _ hm)
      next hremoved =>
      rw [Bool.not_eq_true] at hremoved
      split
      · next houtside =>
          obtain ⟨hcleaned, hhomed⟩ := ih _ h.rekey fun m hm => by
            rcases List.mem_cons.mp
              (((insert_perm (0, id) visited).map Prod.snd).mem_iff.mp hm) with rfl | hm
            · exact hremoved
            · exact hlive m hm
          refine ⟨hcleaned, fun _ hzone => ?_⟩
          rw [hzone id List.mem_cons_self hremoved] at houtside
          cases houtside
      · have hassoc : visited ++ [(spawnId, id)] ++ rest = visited ++ (spawnId, id) :: rest :=
          List.append_cons .. |>.symm
        obtain ⟨hcleaned, hhomed⟩ := ih (visited ++ [(spawnId, id)])
          (by rw [hassoc]; exact h) fun m hm => by
            rw [List.map_append, List.mem_append] at hm
            rcases hm with hm | hm
            · exact hlive m hm
            · rw [List.mem_singleton.mp hm]
              exact hremoved
        rw [hassoc] at hhomed
        exact ⟨hcleaned, fun hnot hzone => hhomed hnot fun m hm =>
          hzone m (List.mem_cons_of_mem _ hm)⟩

/-! ## The check -/

theorem Kept.touched (h : Kept s) (hid : spawnId ∈ s.blocks) (time : Int) :
    Grown s { s with spawnMap := Spawns.touch spawnId time s.spawnMap } :=
  ⟨(h.touch hid time).1, (h.touch hid time).2, rfl, id, id⟩

theorem checkBlocks_grown {list : List (Nat × SpawnBlock MonsterType)} (h : Kept s)
    (hblocks : ∀ id ∈ list.map Prod.fst, id ∈ s.blocks) (spawnCount : UInt32) :
    Grown s (checkBlocks game list spawnCount s) := by
  induction list generalizing s spawnCount with
  | nil => exact h.grown
  | cons entry list ih =>
      obtain ⟨spawnId, sb⟩ := entry
      obtain ⟨hblock, hblocks⟩ := List.forall_mem_cons.mp hblocks
      rw [checkBlocks]
      split
      · exact ih h hblocks spawnCount
      next hany =>
      have hnew : spawnId ∉ s.ids := by
        intro hid
        obtain ⟨e, he, heq⟩ := List.mem_map.mp hid
        exact hany (List.any_eq_true.mpr ⟨e, he, decide_eq_true heq⟩)
      split
      · have htried := spawnMonster_tried game s spawnId sb false
        revert htried
        rcases s.spawnMonster game spawnId sb false with ⟨ok, t⟩
        intro htried
        obtain ⟨hgrown, -⟩ := htried.grown h hblock hnew
        have hrest : ∀ id ∈ list.map Prod.fst, id ∈ t.blocks := by
          rw [hgrown.blocks]
          exact hblocks
        cases ok with
        | true =>
            simp only [Bool.not_true, Bool.false_eq_true, if_false]
            split
            · exact hgrown
            · exact hgrown.trans (ih hgrown.kept hrest _)
        | false =>
            simp only [Bool.not_false, if_true]
            have htouched := hgrown.trans (hgrown.kept.touched
              (hgrown.blocks.symm ▸ hblock) (game.time t.game))
            refine htouched.trans (ih htouched.kept ?_ spawnCount)
            rw [htouched.blocks]
            exact hblocks
      · exact ih h hblocks spawnCount

/-- Where a check finds the monsters that are left. -/
def AllNear (s : State σ MonsterType) : Prop :=
  ∀ id ∈ s.monsters, (s.monster id).isRemoved = false →
    s.isInSpawnZone (s.monster id).position = true

/-- What a check leaves. -/
structure AfterCheck (s t : State σ MonsterType) : Prop where
  kept : Kept t
  blocks : t.blocks = s.blocks
  live : Live t
  event : t.ids.length < t.blocks.length → t.checkSpawnEvent.isSome = true
  homed : Homed s → AllNear s → Homed t

variable (game) in
theorem checkSpawn_spec (h : Kept s) : AfterCheck s (s.checkSpawn game) := by
  obtain ⟨hcleaned, hhomed⟩ := cleanupFrom_spec game
    (s := { s with checkSpawnEvent := none }) [] s.spawnedMap { h with } (fun _ hid => nomatch hid)
  have hgrown : Grown _ (checkBlocks game (({ s with checkSpawnEvent := none }).cleanup
    game).spawnMap 0 (({ s with checkSpawnEvent := none }).cleanup game)) :=
    checkBlocks_grown hcleaned.kept (fun _ hid => hid) 0
  have hblocks := hgrown.blocks.trans hcleaned.blocks
  rw [checkSpawn]
  split
  · next hless =>
      exact ⟨{ hgrown.kept with }, hblocks, hgrown.live hcleaned.live, fun _ => rfl,
        fun hs hnear => hgrown.homed (hhomed hs hnear)⟩
  · next hless =>
      refine ⟨hgrown.kept, hblocks, hgrown.live hcleaned.live, fun hlt => absurd ?_ hless,
        fun hs hnear => hgrown.homed (hhomed hs hnear)⟩
      simpa only [State.ids, State.blocks, List.length_map] using hlt

/-! ## Steps -/

theorem startSpawnCheck_frame (s : State σ MonsterType) :
    ∃ event, s.startSpawnCheck = { s with checkSpawnEvent := some event } := by
  rw [startSpawnCheck]
  split
  · exact ⟨s.interval, rfl⟩
  · next hsome =>
      obtain ⟨event, hevent⟩ := Option.ne_none_iff_exists'.mp hsome
      exact ⟨event, by rw [← hevent]⟩

/-- A removal marks the monster, and asks for a check if the monster is of the spawn. -/
theorem removeCreature_cases (s : State σ MonsterType) (id : MonsterId) (handled : Bool) :
    s.removeCreature id handled = s ∨
      ∃ event, s.removeCreature id handled = { s with
          checkSpawnEvent := event
          monster := Function.update s.monster id { s.monster id with isRemoved := true } } ∧
        (s.checkSpawnEvent.isSome = true → event.isSome = true) ∧
        (handled = false → (s.monster id).spawn = true → event.isSome = true) := by
  rw [removeCreature]
  by_cases hremoved : (s.monster id).isRemoved = true
  · exact .inl (if_pos hremoved)
  simp only [hremoved, Bool.false_eq_true, if_false]
  right
  by_cases hask : (!handled && (s.monster id).spawn) = true
  · obtain ⟨event, hevent⟩ := startSpawnCheck_frame s
    rw [if_pos hask, hevent]
    exact ⟨some event, rfl, fun _ => rfl, fun _ _ => rfl⟩
  · rw [if_neg hask]
    refine ⟨s.checkSpawnEvent, rfl, fun h => h, fun hhandled hspawn => ?_⟩
    rw [hhandled, hspawn] at hask
    exact absurd rfl hask

theorem Kept.update (h : Kept s) (id : MonsterId) (monster : Monster)
    (hspawn : monster.spawn = (s.monster id).spawn)
    (hreferences : monster.references = (s.monster id).references) (event : Option UInt32) :
    Kept { s with checkSpawnEvent := event, monster := Function.update s.monster id monster } := by
  refine { h with known := fun m hm => ?_, references := fun m => ?_ }
  · refine ⟨(h.known m hm).1, ?_⟩
    simp only [Function.update_apply]
    split
    · next heq => rw [hspawn, ← heq, (h.known m hm).2]
    · exact (h.known m hm).2
  · simp only [Function.update_apply]
    split
    · next heq =>
        rw [hreferences, ← heq]
        exact h.references m
    · exact h.references m

theorem Kept.step (h : Kept s) (op : Op σ) : Kept (s.step game op) := by
  cases op with
  | checkSpawn =>
      rw [State.step]
      split
      · exact (checkSpawn_spec game h).kept
      · exact h
  | removeCreature id handled =>
      rcases removeCreature_cases s id handled with heq | ⟨event, heq, -, -⟩
      · rw [State.step, heq]
        exact h
      · rw [State.step, heq]
        exact h.update id { s.monster id with isRemoved := true } rfl rfl event
  | moveCreature id position =>
      exact h.update id { s.monster id with position } rfl rfl s.checkSpawnEvent
  | game g => exact { h with }

/-! ## No block is forgotten -/

/-- A block without a monster waits for a check that is pending, or that a monster of the spawn
asks for when it is removed. -/
def NotForgotten (s : State σ MonsterType) : Prop :=
  ∀ spawnId ∈ s.blocks, spawnId ∉ s.ids →
    s.checkSpawnEvent.isSome = true ∨ ∃ id ∈ s.monsters, (s.monster id).isRemoved = false

/-- It waits for one that is pending. -/
def Awaited (s : State σ MonsterType) : Prop :=
  ∀ spawnId ∈ s.blocks, spawnId ∉ s.ids → s.checkSpawnEvent.isSome = true

/-- No script keeps the spawn from learning of a removal. -/
def Unhandled (_ : State σ MonsterType) (op : Op σ) : Prop := ∀ id, op ≠ .removeCreature id true

/-- A check finds every monster in the zone. -/
def Near (s : State σ MonsterType) (op : Op σ) : Prop := op = .checkSpawn → AllNear s

theorem NotForgotten.step {op : Op σ} (h : Kept s) (hnot : NotForgotten s) (hop : Unhandled s op) :
    NotForgotten (s.step game op) := by
  cases op with
  | checkSpawn =>
      rw [State.step]
      split
      · obtain ⟨-, -, hlive, hevent, -⟩ := checkSpawn_spec game h
        intro spawnId hblock hnone
        by_cases hless : (s.checkSpawn game).ids.length < (s.checkSpawn game).blocks.length
        · exact .inl (hevent hless)
        · have hpos := List.length_pos_of_mem hblock
          have hmonsters : 0 < (s.checkSpawn game).monsters.length := by
            simp only [State.ids, State.monsters, List.length_map] at hless ⊢
            omega
          obtain ⟨id, hid⟩ := List.exists_mem_of_length_pos hmonsters
          exact .inr ⟨id, hid, hlive id hid⟩
      · exact hnot
  | removeCreature id handled =>
      cases handled with
      | true => exact absurd rfl (hop id)
      | false =>
          rcases removeCreature_cases s id false with heq | ⟨event, heq, hold, hnew⟩
          · rw [State.step, heq]
            exact hnot
          · rw [State.step, heq]
            intro spawnId hblock hnone
            rcases hnot spawnId hblock hnone with hevent | ⟨m, hm, hlive⟩
            · exact .inl (hold hevent)
            · by_cases hne : m = id
              · exact .inl (hnew rfl (hne ▸ (h.known m hm).2))
              · refine .inr ⟨m, hm, ?_⟩
                simp only [Function.update_of_ne hne]
                exact hlive
  | moveCreature id position =>
      intro spawnId hblock hnone
      refine (hnot spawnId hblock hnone).imp_right ?_
      rintro ⟨m, hm, hlive⟩
      refine ⟨m, hm, ?_⟩
      simp only [State.step, Function.update_apply]
      split
      · next heq => exact heq ▸ hlive
      · exact hlive
  | game g => exact hnot

/-- The ids of a spawn that nobody has left are those of blocks, each once. -/
theorem Kept.length_ids (h : Kept s) (hhomed : Homed s) (hblock : spawnId ∈ s.blocks)
    (hnone : spawnId ∉ s.ids) : s.ids.length < s.blocks.length := by
  have hall : s.ids.filter (· ≠ 0) = s.ids := List.filter_eq_self.mpr fun k hk =>
    decide_eq_true fun hzero => hhomed (hzero ▸ hk)
  have hnodup : (spawnId :: s.ids).Nodup :=
    List.nodup_cons.mpr ⟨hnone, hall ▸ h.nodup_ids⟩
  have hsub : spawnId :: s.ids ⊆ s.blocks := by
    intro k hk
    rcases List.mem_cons.mp hk with rfl | hk
    · exact hblock
    · exact h.ofBlock k hk fun hzero => hhomed (hzero ▸ hk)
  exact (List.subperm_of_subset hnodup hsub).length_le

theorem Awaited.step {op : Op σ} (h : Kept s) (hhomed : Homed s) (hawaited : Awaited s)
    (hop : Near s op) : Homed (s.step game op) ∧ Awaited (s.step game op) := by
  cases op with
  | checkSpawn =>
      rw [State.step]
      split
      · obtain ⟨hkept, -, -, hevent, hhome⟩ := checkSpawn_spec game h
        have hhomed := hhome hhomed (hop rfl)
        exact ⟨hhomed, fun spawnId hblock hnone =>
          hevent (hkept.length_ids hhomed hblock hnone)⟩
      · exact ⟨hhomed, hawaited⟩
  | removeCreature id handled =>
      rcases removeCreature_cases s id handled with heq | ⟨event, heq, hold, -⟩
      · rw [State.step, heq]
        exact ⟨hhomed, hawaited⟩
      · rw [State.step, heq]
        exact ⟨hhomed, fun spawnId hblock hnone => hold (hawaited spawnId hblock hnone)⟩
  | moveCreature id position => exact ⟨hhomed, hawaited⟩
  | game g => exact ⟨hhomed, hawaited⟩

/-! ## Runs -/

/-- A spawn with its blocks, as it was loaded. -/
def loaded (g : σ) (centerPos : Position) (radius : Int) (sbs : List (SpawnBlock MonsterType)) :
    State σ MonsterType :=
  sbs.foldl addBlock { centerPos, radius, game := g }

/-- The blocks for which `startup` places a monster. -/
def started (game : Game σ MonsterType) (s : State σ MonsterType) : List Nat :=
  (spawnAll game s.spawnMap s).1

theorem set_last {β : Type} {l : List (Nat × β)} {k : Nat} (h : ∀ e ∈ l, e.1 < k) (b : β) :
    AssocList.set k b l = l ++ [(k, b)] := by
  induction l with
  | nil => rfl
  | cons e l ih =>
      obtain ⟨hlt, h⟩ := List.forall_mem_cons.mp h
      rw [AssocList.set, if_neg (by omega), if_neg (by omega), ih h]
      rfl

/-- Blocks get the ids from 1 up. -/
theorem loaded_spec (g : σ) (centerPos : Position) (radius : Int)
    (sbs : List (SpawnBlock MonsterType)) :
    (loaded g centerPos radius sbs).spawnedMap = [] ∧
      (loaded g centerPos radius sbs).checkSpawnEvent = none ∧
      (∀ id, ((loaded g centerPos radius sbs).monster id).references = 0) ∧
      (loaded g centerPos radius sbs).blocks = List.range' 1 sbs.length := by
  induction sbs using List.reverseRecOn with
  | nil => exact ⟨rfl, rfl, fun _ => rfl, rfl⟩
  | append_singleton sbs sb ih =>
      obtain ⟨hmap, hevent, hmonster, hblocks⟩ := ih
      have hlength : (loaded g centerPos radius sbs).spawnMap.length = sbs.length := by
        have hlen := congrArg List.length hblocks
        rwa [State.blocks, List.length_map, List.length_range'] at hlen
      have hbelow : ∀ e ∈ (loaded g centerPos radius sbs).spawnMap, e.1 < sbs.length + 1 := by
        intro e he
        have hmem : e.1 ∈ (loaded g centerPos radius sbs).blocks := List.mem_map_of_mem he
        rw [hblocks, List.mem_range'_1] at hmem
        omega
      rw [loaded, List.foldl_append]
      refine ⟨hmap, hevent, hmonster, ?_⟩
      show (AssocList.set ((loaded g centerPos radius sbs).spawnMap.length + 1) sb
        (loaded g centerPos radius sbs).spawnMap).map Prod.fst = _
      rw [hlength, set_last hbelow, List.map_append, List.length_append, List.length_singleton,
        List.range'_1_concat]
      exact congrArg₂ (· ++ ·) hblocks (by rw [Nat.add_comm]; rfl)

theorem loaded_kept (g : σ) (centerPos : Position) (radius : Int)
    (sbs : List (SpawnBlock MonsterType)) : Kept (loaded g centerPos radius sbs) := by
  obtain ⟨hmap, -, hmonster, hblocks⟩ := loaded_spec g centerPos radius sbs
  have hids : (loaded g centerPos radius sbs).ids = [] := by rw [State.ids, hmap, List.map_nil]
  have hmonsters : (loaded g centerPos radius sbs).monsters = [] := by
    rw [State.monsters, hmap, List.map_nil]
  refine ⟨?_, ?_, ?_, ?_, ?_, ?_, ?_⟩
  · have hsorted : (loaded g centerPos radius sbs).blocks.Pairwise (· < ·) := by
      rw [hblocks]
      exact List.pairwise_lt_range'
    exact List.pairwise_map.mp hsorted
  · rw [hblocks, List.mem_range'_1]
    omega
  · rw [hids]
    exact fun _ hid => nomatch hid
  · rw [hids]
    exact List.nodup_nil
  · rw [hmonsters]
    exact List.nodup_nil
  · rw [hmonsters]
    exact fun _ hid => nomatch hid
  · intro id
    rw [hmonster, hmonsters, if_neg List.not_mem_nil]

/-- The state after the startup, whose monsters are those of the blocks that were started. -/
theorem startup_spec (game : Game σ MonsterType) (g : σ) (centerPos : Position) (radius : Int)
    (sbs : List (SpawnBlock MonsterType)) :
    Grown (loaded g centerPos radius sbs) ((loaded g centerPos radius sbs).startup game) ∧
      ((loaded g centerPos radius sbs).startup game).ids.Perm
        ((loaded g centerPos radius sbs).started game) := by
  obtain ⟨hmap, -, -, hblocks⟩ := loaded_spec g centerPos radius sbs
  have hids : (loaded g centerPos radius sbs).ids = [] := by rw [State.ids, hmap, List.map_nil]
  have hnodup : (loaded g centerPos radius sbs).blocks.Nodup := by
    rw [hblocks]
    exact List.nodup_range'
  have hspec := spawnAll_spec game (loaded_kept g centerPos radius sbs) hnodup
    (fun _ hid => hid) (by rw [hids]; exact fun _ _ hid => nomatch hid)
  rwa [hids, List.append_nil] at hspec

/-- Each block has one entry at most; each monster has one, and a reference with it. -/
structure Booked (s : State σ MonsterType) : Prop where
  ids : ∀ spawnId, 1 ≤ spawnId → s.ids.count spawnId ≤ 1
  monsters : ∀ id ∈ s.monsters, s.monsters.count id = 1 ∧ (s.monster id).references = 1

theorem Kept.booked (h : Kept s) : Booked s := by
  refine ⟨fun spawnId hpos => ?_, fun id hid => ⟨?_, ?_⟩⟩
  · have hcount := List.nodup_iff_count_le_one.mp h.nodup_ids spawnId
    have hsame : (s.ids.filter (· ≠ 0)).count spawnId = s.ids.count spawnId :=
      List.count_filter (decide_eq_true (by omega))
    rwa [hsame] at hcount
  · exact List.count_eq_one_of_mem h.nodup_monsters hid
  · rw [h.references, if_pos hid]

theorem startup_notForgotten_iff (game : Game σ MonsterType) (g : σ) (centerPos : Position)
    (radius : Int) (sbs : List (SpawnBlock MonsterType)) :
    NotForgotten ((loaded g centerPos radius sbs).startup game) ↔
      sbs = [] ∨ (loaded g centerPos radius sbs).started game ≠ [] := by
  obtain ⟨hgrown, hids⟩ := startup_spec game g centerPos radius sbs
  obtain ⟨hmap, hevent, -, hblocks⟩ := loaded_spec g centerPos radius sbs
  rw [← hgrown.blocks] at hblocks
  rw [← hgrown.event] at hevent
  have hlive := hgrown.live (by rw [Live, State.monsters, hmap]; exact fun _ hid => nomatch hid)
  have hlength : ((loaded g centerPos radius sbs).startup game).monsters.length =
      ((loaded g centerPos radius sbs).started game).length := by
    rw [← hids.length_eq, State.monsters, State.ids, List.length_map, List.length_map]
  constructor
  · intro h
    by_contra hnot
    obtain ⟨hsome, hnone⟩ := not_or.mp hnot
    rw [not_not] at hnone
    have hfirst : 1 ∈ ((loaded g centerPos radius sbs).startup game).blocks := by
      rw [hblocks, List.mem_range'_1]
      have := List.length_pos_iff.mpr hsome
      omega
    rcases h 1 hfirst (by rw [hids.mem_iff, hnone]; exact List.not_mem_nil) with hpending | hmonster
    · rw [hevent] at hpending
      cases hpending
    · obtain ⟨id, hid, -⟩ := hmonster
      have hpos := List.length_pos_of_mem hid
      rw [hlength, hnone] at hpos
      exact absurd hpos (Nat.lt_irrefl 0)
  · rintro (rfl | hsome)
    · intro spawnId hblock
      rw [hblocks] at hblock
      cases hblock
    · intro spawnId _ _
      obtain ⟨id, hid⟩ := List.exists_mem_of_length_pos
        (hlength ▸ List.length_pos_iff.mpr hsome)
      exact .inr ⟨id, hid, hlive id hid⟩

theorem startup_awaited_iff (game : Game σ MonsterType) (g : σ) (centerPos : Position)
    (radius : Int) (sbs : List (SpawnBlock MonsterType)) :
    Awaited ((loaded g centerPos radius sbs).startup game) ↔
      ∀ spawnId ∈ (loaded g centerPos radius sbs).blocks,
        spawnId ∈ (loaded g centerPos radius sbs).started game := by
  obtain ⟨hgrown, hids⟩ := startup_spec game g centerPos radius sbs
  obtain ⟨-, hevent, -, -⟩ := loaded_spec g centerPos radius sbs
  rw [Awaited, hgrown.blocks, hgrown.event, hevent]
  refine forall₂_congr fun spawnId _ => ?_
  rw [hids.mem_iff]
  simp

theorem startup_homed (game : Game σ MonsterType) (g : σ) (centerPos : Position) (radius : Int)
    (sbs : List (SpawnBlock MonsterType)) :
    Homed ((loaded g centerPos radius sbs).startup game) := by
  obtain ⟨hgrown, -⟩ := startup_spec game g centerPos radius sbs
  obtain ⟨hmap, -, -, -⟩ := loaded_spec g centerPos radius sbs
  exact hgrown.homed (by rw [Homed, State.ids, hmap]; exact List.not_mem_nil)

/-- In every state after the startup the entries and the references are in order. No block is
forgotten, as long as no script keeps a removal from the spawn, if and only if the startup places
a monster for some block; and a check is always pending for a block without a monster, as long as
the checks find every monster in the zone, if and only if it places one for each. -/
theorem spawn_bookkeeping (game : Game σ MonsterType) (g : σ) (centerPos : Position) (radius : Int)
    (sbs : List (SpawnBlock MonsterType)) :
    let s := loaded g centerPos radius sbs
    (∀ ops, Booked (Runs.run (step game) (s.startup game) ops)) ∧
      ((∀ ops, Runs.Throughout (step game) Unhandled (s.startup game) ops →
          NotForgotten (Runs.run (step game) (s.startup game) ops)) ↔
        sbs = [] ∨ s.started game ≠ []) ∧
      ((∀ ops, Runs.Throughout (step game) Near (s.startup game) ops →
          Awaited (Runs.run (step game) (s.startup game) ops)) ↔
        ∀ spawnId ∈ s.blocks, spawnId ∈ s.started game) := by
  intro s
  have hkept : Kept (s.startup game) := (startup_spec game g centerPos radius sbs).1.kept
  refine ⟨fun ops => ?_, ⟨fun h => ?_, fun h ops hops => ?_⟩, ⟨fun h => ?_, fun h ops hops => ?_⟩⟩
  · refine Kept.booked (Runs.run_inv (C := fun _ _ => True) (fun s op hs _ => hs.step op) hkept ?_)
    exact fun _ _ _ _ => trivial
  · exact (startup_notForgotten_iff game g centerPos radius sbs).mp (h [] Runs.throughout_nil)
  · have hstart := (startup_notForgotten_iff game g centerPos radius sbs).mpr h
    have hstep : ∀ (s : State σ MonsterType) op, Kept s ∧ NotForgotten s → Unhandled s op →
        Kept (s.step game op) ∧ NotForgotten (s.step game op) :=
      fun s op hs hop => ⟨hs.1.step op, hs.2.step hs.1 hop⟩
    exact (Runs.run_inv hstep ⟨hkept, hstart⟩ hops).2
  · exact (startup_awaited_iff game g centerPos radius sbs).mp (h [] Runs.throughout_nil)
  · have hstart := (startup_awaited_iff game g centerPos radius sbs).mpr h
    have hhomed := startup_homed game g centerPos radius sbs
    have hstep : ∀ (s : State σ MonsterType) op, Kept s ∧ Homed s ∧ Awaited s → Near s op →
        Kept (s.step game op) ∧ Homed (s.step game op) ∧ Awaited (s.step game op) :=
      fun s op hs hop => ⟨hs.1.step op, hs.2.2.step hs.1 hs.2.1 hop⟩
    exact (Runs.run_inv hstep ⟨hkept, hhomed, hstart⟩ hops).2.2

/-- No monster finds a place. -/
def noRoom : Game Unit Unit where
  time _ := 0
  findPlayer _ _ := false
  isIgnoringSpawnBlock _ := false
  normalRandom _ := (1, ())
  eventMonsterOnSpawn _ _ _ _ _ := (true, ())
  placeCreature _ _ _ _ := (none, ())
  rateSpawn := 1

/-- A block that got no monster at the startup, in a spawn without others. -/
theorem spawn_forgets :
    ¬ ∀ (game : Game Unit Unit) (sbs : List (SpawnBlock Unit)) (ops : List (Op Unit)),
      NotForgotten (Runs.run (step game)
        ((loaded () ⟨100, 100, 7⟩ 5 sbs).startup game) ops) := by
  intro hclaim
  have hstart := hclaim noRoom [{ mTypes := [((), 100)] }] []
  rcases hstart 1 (by decide) (by decide) with hpending | ⟨id, hid, -⟩
  · exact absurd hpending (by decide)
  · exact nomatch (show id ∈ ([] : List MonsterId) from hid)

end State

end Bruxo.Spawns
