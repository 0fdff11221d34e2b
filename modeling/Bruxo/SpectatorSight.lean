import Bruxo.KnownCreatures
import Bruxo.SpectatorCache

/-!
# What a client sees and who is told of it

`ProtocolGame::canSee` compares a position with that of the player, shifted by the difference of
the floors, and `Map::getSpectators` the position of the player with the one that is asked about.
The floors and the squares of the first are among those of the second (`Sees.inRange`).

An answer may come from a cache, and a cache may have been filled with creatures that a caller
had before. So what is kept need not be what a search would find, but it is never less
(`Complete`).
-/

namespace Bruxo.Spectators

namespace CachedMap

open CreatureMap KnownCreatures

variable {α : Type} {isPlayer : CreatureId → Bool} {s : CachedMap α} {pos centerPos : Position}
  {spectators : List CreatureId} {c : CreatureId}

/-! ## The floors and the squares -/

/-- The tests of `canSee`. -/
structure Sees (myPos pos : Position) : Prop where
  above : myPos.z.toNat ≤ 7 → pos.z.toNat ≤ 7
  below : 7 < myPos.z.toNat → (myPos.z.toNat - pos.z.toNat : Int).natAbs ≤ 2
  x : (myPos.x.toNat - 8 + (myPos.z.toNat - pos.z.toNat) : Int) ≤ pos.x.toNat ∧
    (pos.x.toNat : Int) ≤ myPos.x.toNat + 9 + (myPos.z.toNat - pos.z.toNat)
  y : (myPos.y.toNat - 6 + (myPos.z.toNat - pos.z.toNat) : Int) ≤ pos.y.toNat ∧
    (pos.y.toNat : Int) ≤ myPos.y.toNat + 7 + (myPos.z.toNat - pos.z.toNat)

theorem sees_of_canSee {v : View} {myPos : Position} (hplayer : v.player = some myPos)
    (h : v.canSeePosition pos = true) : Sees myPos pos := by
  simp only [View.canSeePosition, hplayer] at h
  have hfloor : ¬ (if (myPos.z.toNat : Int) ≤ 7 then (pos.z.toNat : Int) > 7
      else (myPos.z.toNat - pos.z.toNat : Int).natAbs > 2) := by
    intro hfar
    rw [if_pos hfar] at h
    cases h
  rw [if_neg hfloor] at h
  simp only [Bool.and_eq_true] at h
  obtain ⟨⟨⟨hwest, heast⟩, hnorth⟩, hsouth⟩ := h
  have hwest := of_decide_eq_true hwest
  have heast := of_decide_eq_true heast
  have hnorth := of_decide_eq_true hnorth
  have hsouth := of_decide_eq_true hsouth
  simp only [maxClientViewportX, maxClientViewportY] at hwest heast hnorth hsouth
  refine ⟨fun hmine => ?_, fun hmine => ?_, ⟨by omega, by omega⟩, ⟨by omega, by omega⟩⟩
  · rw [if_pos (by omega)] at hfloor
    omega
  · rw [if_neg (by omega)] at hfloor
    omega

/-- The floors that a player sees are searched for the player. -/
theorem Sees.floors {myPos : Position} (h : Sees myPos pos) (hz : pos.z.toNat < mapMaxLayers)
    (hmine : myPos.z.toNat < mapMaxLayers) :
    (floors pos true).1 ≤ myPos.z.toNat ∧ (myPos.z.toNat : Int) ≤ (floors pos true).2 := by
  have habove := h.above
  have hbelow := h.below
  simp only [CachedMap.floors, if_true, mapMaxLayers] at hz hmine ⊢
  split
  · exact ⟨by omega, by omega⟩
  split
  · exact ⟨by omega, by omega⟩
  split <;> exact ⟨by omega, by omega⟩

theorem Sees.inRange {myPos : Position} {multifloor onlyPlayers : Bool} (h : Sees myPos pos)
    (hfloor : (CachedMap.floors pos multifloor).1 ≤ myPos.z.toNat ∧
      (myPos.z.toNat : Int) ≤ (CachedMap.floors pos multifloor).2) :
    InRange pos (Query.range ⟨multifloor, onlyPlayers, 0, 0, 0, 0⟩ pos) myPos := by
  obtain ⟨-, -, ⟨hwest, heast⟩, hnorth, hsouth⟩ := h
  refine ⟨hfloor, ?_, ?_⟩ <;> simp only [Query.range, if_true, maxViewport] <;>
    exact ⟨by omega, by omega⟩

/-! ## Complete caches -/

/-- Nobody in sight is missing. -/
def Holds (isPlayer : CreatureId → Bool) (m : CreatureMap α) (pos : Position) (onlyPlayers : Bool)
    (v : List CreatureId) : Prop :=
  ∀ c p, (onlyPlayers = true → isPlayer c = true) → c ∈ m.creatures p →
    InRange pos (sight.range pos) p → c ∈ v

structure Complete (isPlayer : CreatureId → Bool) (s : CachedMap α) : Prop where
  placed : Placed isPlayer s.toCreatureMap
  floor : ∀ c p, s.tile c = some p → p.z.toNat < mapMaxLayers
  all : ∀ pos v, s.spectatorCache pos = some v → Holds isPlayer s.toCreatureMap pos false v
  players : ∀ pos v, s.playersSpectatorCache pos = some v →
    Holds isPlayer s.toCreatureMap pos true v

theorem mem_addSpectators {v : List CreatureId} :
    c ∈ addSpectators spectators v ↔ c ∈ spectators ∨ c ∈ v := by
  induction v generalizing spectators with
  | nil => simp [addSpectators]
  | cons d v ih =>
      simp only [addSpectators] at ih ⊢
      rw [List.foldl_cons, ih, List.mem_cons]
      split
      · next hd =>
          constructor
          · exact fun h => h.imp_right .inr
          · rintro (h | rfl | h)
            · exact .inl h
            · exact .inl hd
            · exact .inr h
      · rw [List.mem_append, List.mem_singleton, or_assoc]

theorem mem_of_cached {v : List CreatureId} (h : c ∈ v) :
    c ∈ (if spectators ≠ [] then addSpectators spectators v else v) := by
  split
  · exact mem_addSpectators.mpr (.inr h)
  · exact h

theorem Complete.answered (h : Complete isPlayer s) {answer : List CreatureId} {q : Query}
    (hanswer : s.answered isPlayer spectators pos q = some answer) :
    q.range pos = sight.range pos ∧ Holds isPlayer s.toCreatureMap pos q.onlyPlayers answer := by
  rw [CachedMap.answered] at hanswer
  split at hanswer
  · next hcacheable =>
      refine ⟨range_of_cacheable hcacheable, fun c p honly hc hrange => ?_⟩
      rw [fromCache] at hanswer
      split at hanswer
      · next v hv =>
          obtain rfl := (Option.some.inj hanswer).symm
          split at hv
          · next hplayers => exact mem_of_cached (h.players pos v hv c p (fun _ => honly hplayers)
              hc hrange)
          · cases hv
      · split at hanswer
        · next v hv =>
            have hmem := h.all pos v hv c p (fun hfalse => by cases hfalse) hc hrange
            split at hanswer
            · next hplayers =>
                obtain rfl := (Option.some.inj hanswer).symm
                exact List.mem_append_right _ (List.mem_filter.mpr ⟨hmem, honly hplayers⟩)
            · obtain rfl := (Option.some.inj hanswer).symm
              exact mem_of_cached hmem
        · cases hanswer
  · cases hanswer

/-- Everybody in range is among the spectators. -/
theorem Complete.finds (h : Complete isPlayer s) {q : Query} {p : Position}
    (hz : centerPos.z.toNat < mapMaxLayers) (honly : q.onlyPlayers = true → isPlayer c = true)
    (hc : c ∈ s.creatures p) (hrange : InRange centerPos (q.range centerPos) p) :
    c ∈ (s.getSpectators isPlayer spectators centerPos q).1 := by
  rw [CachedMap.getSpectators, if_neg (Nat.not_le_of_lt hz)]
  split
  · next answer hanswer =>
      obtain ⟨hsight, hholds⟩ := h.answered hanswer
      exact hholds c p honly hc (hsight ▸ hrange)
  · obtain ⟨added, hadded, hexact⟩ :=
      h.placed.search centerPos (q.range centerPos) q.onlyPlayers spectators
    simp only [hadded]
    exact List.mem_append_right _ ((hexact.mem c).mpr ⟨honly, p, hc, hrange⟩)

/-! ## What a step keeps -/

theorem Complete.fill {onlyPlayers : Bool} {w : List CreatureId} (h : Complete isPlayer s)
    (hw : Holds isPlayer s.toCreatureMap pos onlyPlayers w) :
    Complete isPlayer (s.fill pos onlyPlayers w) := by
  rw [CachedMap.fill]
  cases onlyPlayers with
  | true =>
      refine ⟨h.placed, h.floor, h.all, fun p v hv => ?_⟩
      rcases cached_fill hv with ⟨rfl, rfl⟩ | hold
      · exact hw
      · exact h.players p v hold
  | false =>
      refine ⟨h.placed, h.floor, fun p v hv => ?_, h.players⟩
      rcases cached_fill hv with ⟨rfl, rfl⟩ | hold
      · exact hw
      · exact h.all p v hold

theorem Complete.getSpectators (h : Complete isPlayer s) (spectators : List CreatureId)
    (pos : Position) (q : Query) :
    Complete isPlayer (s.getSpectators isPlayer spectators pos q).2 := by
  rw [CachedMap.getSpectators]
  split
  · exact h
  split
  · exact h
  simp only
  split
  · next hcacheable =>
      obtain ⟨added, hadded, hexact⟩ :=
        h.placed.search pos (q.range pos) q.onlyPlayers spectators
      rw [hadded]
      refine h.fill fun c p honly hc hrange => List.mem_append_right _ ((hexact.mem c).mpr ?_)
      exact ⟨honly, p, hc, range_of_cacheable hcacheable ▸ hrange⟩
  · exact h

theorem floor_of_getTile {m : Map α} (h : (m.getTile pos.x pos.y pos.z).isSome = true) :
    pos.z.toNat < mapMaxLayers := by
  by_contra hz
  rw [Map.getTile_of_invalid _ _ _ hz] at h
  cases h

/-- The tile of a creature that was set on one. -/
theorem addThing_tile {m : CreatureMap α} {d : CreatureId} {p : Position}
    (hz : pos.z.toNat < mapMaxLayers) (h : (m.addThing pos c).tile d = some p) :
    m.tile d = some p ∨ p.z.toNat < mapMaxLayers := by
  simp only [addThing, Function.update_apply] at h
  split at h
  · exact .inr (Option.some.inj h ▸ hz)
  · exact .inl h

theorem placeCreature_tile {m : CreatureMap α} (h : (m.map.getTile pos.x pos.y pos.z).isSome = true)
    (d : CreatureId) (p : Position) (hd : (m.placeCreature isPlayer pos c).tile d = some p) :
    m.tile d = some p ∨ p.z.toNat < mapMaxLayers := by
  rw [CreatureMap.placeCreature] at hd
  split at hd
  · exact .inl hd
  split at hd
  · exact .inl hd
  · exact addThing_tile (floor_of_getTile h) hd

theorem moveCreature_tile {m : CreatureMap α} {n : Map α}
    (h : (n.getTile pos.x pos.y pos.z).isSome = true)
    (d : CreatureId) (p : Position) (hd : (m.moveCreature isPlayer c pos).tile d = some p) :
    m.tile d = some p ∨ p.z.toNat < mapMaxLayers := by
  rw [CreatureMap.moveCreature] at hd
  split at hd
  · exact .inl hd
  · next oldPos _ =>
      split at hd
      · exact .inl hd
      split at hd
      · next leaf newLeaf _ _ =>
          obtain ⟨_, htile, _, _⟩ :=
            switchLeaf_frame isPlayer (m.removeThing oldPos c) leaf newLeaf c
          refine (addThing_tile (floor_of_getTile h) hd).imp_left fun hold => ?_
          rwa [htile] at hold
      · exact .inl hd

theorem takeCreature_tile {m : CreatureMap α} {d : CreatureId} {p : Position}
    (hd : (m.takeCreature isPlayer c).tile d = some p) : m.tile d = some p := by
  rw [CreatureMap.takeCreature] at hd
  split at hd
  · exact hd
  split at hd
  · exact hd
  split at hd <;> exact hd

/-- What a creature that comes or leaves clears is all that it could be missing from. -/
theorem Complete.clearFor {t : CreatureMap α} (h : Complete isPlayer s)
    (hplaced : Placed isPlayer t)
    (hfloor : ∀ d p, t.tile d = some p → s.tile d = some p ∨ p.z.toNat < mapMaxLayers)
    (hsame : ∀ p d, d ≠ c → (d ∈ t.creatures p ↔ d ∈ s.creatures p)) :
    Complete isPlayer { s.clearFor isPlayer c with toCreatureMap := t } := by
  refine ⟨hplaced, fun d p hd => (hfloor d p hd).elim (h.floor d p) id, fun pos v hv => ?_,
    fun pos v hv => ?_⟩
  · simp only [CachedMap.clearFor] at hv
    split at hv <;> cases hv
  · simp only [CachedMap.clearFor] at hv
    split at hv
    · cases hv
    · next hplayer =>
        intro d p honly hd hrange
        have hne : d ≠ c := by
          rintro rfl
          exact hplayer (honly rfl)
        exact h.players pos v hv d p honly ((hsame p d hne).mp hd) hrange

theorem Complete.placeCreature (h : Complete isPlayer s)
    (hdest : (s.map.getTile pos.x pos.y pos.z).isSome = true) :
    Complete isPlayer (s.placeCreature isPlayer pos c) := by
  rw [CachedMap.placeCreature]
  split
  · exact h
  · obtain ⟨leaf, hleaf⟩ := getLeaf_of_getTile hdest
    exact h.clearFor (h.placed.placeCreature hleaf) (placeCreature_tile hdest)
      fun p d hd => placeCreature_creatures hd

theorem Complete.moveCreature (h : Complete isPlayer s)
    (hnew : (s.map.getTile pos.x pos.y pos.z).isSome = true) :
    Complete isPlayer (s.moveCreature isPlayer c pos) := by
  rw [CachedMap.moveCreature]
  split
  · exact h
  · next oldPos _ =>
      split
      · exact h
      · obtain ⟨leaf, hleaf⟩ := getLeaf_of_getTile hnew
        have hboth := (h.getSpectators [] oldPos sight).getSpectators [] pos sight
        have hleaf' : ((s.getSpectators isPlayer [] oldPos sight).2.getSpectators isPlayer []
            pos sight).2.map.getLeaf pos.x pos.y = some leaf := by
          rw [getSpectators_toCreatureMap, getSpectators_toCreatureMap]
          exact hleaf
        exact hboth.clearFor (hboth.placed.moveCreature hleaf') (moveCreature_tile hnew)
          fun p d hd => moveCreature_creatures hd

theorem Complete.takeCreature (h : Complete isPlayer s) :
    Complete isPlayer (s.takeCreature isPlayer c) := by
  rw [CachedMap.takeCreature]
  split
  · exact h
  · next hremoved =>
      split
      · exact h
      · next oldPos htile =>
          rw [Bool.not_eq_true] at hremoved
          have hc : c ∈ s.creatures oldPos := (h.placed.onTile oldPos c).mpr ⟨htile, hremoved⟩
          rw [if_pos hc]
          exact h.clearFor h.placed.takeCreature (fun d p hd => .inl (takeCreature_tile hd))
            fun p d hd => takeCreature_creatures hd

theorem Complete.step {op : Op α} (h : Complete isPlayer s) (hallowed : s.Allowed op) :
    Complete isPlayer (s.step isPlayer op) := by
  cases op with
  | setTile x y z newTile => exact ⟨h.placed.setTile, h.floor, h.all, h.players⟩
  | placeCreature dest c => exact h.placeCreature hallowed
  | moveCreature c newPos => exact h.moveCreature hallowed
  | takeCreature c => exact h.takeCreature
  | getSpectators spectators centerPos q => exact h.getSpectators spectators centerPos q

theorem empty_complete : Complete isPlayer (empty : CachedMap α) :=
  ⟨empty_placed isPlayer, nofun, nofun, nofun⟩

theorem Reachable.complete (h : Reachable isPlayer (fun s op => s.Allowed op) s) :
    Complete isPlayer s := by
  induction h with
  | empty => exact empty_complete
  | step op _ hop ih => exact ih.step hop

/-! ## No event is missed -/

/-- A player who can see a position is among its spectators on all floors, and if the player is on
its floor among those of the floor, whatever was kept before and whatever the caller had. -/
theorem seen_by_spectators (h : Reachable isPlayer (fun s op => s.Allowed op) s)
    {v : View} {myPos : Position} (hposition : v.player = some myPos) (hc : c ∈ s.creatures myPos)
    (hplayer : isPlayer c = true) (hz : centerPos.z.toNat < mapMaxLayers)
    (hsee : v.canSeePosition centerPos = true) (onlyPlayers : Bool)
    (spectators : List CreatureId) :
    c ∈ (s.getSpectators isPlayer spectators centerPos ⟨true, onlyPlayers, 0, 0, 0, 0⟩).1 ∧
      (myPos.z = centerPos.z →
        c ∈ (s.getSpectators isPlayer spectators centerPos ⟨false, onlyPlayers, 0, 0, 0, 0⟩).1) := by
  have hcomplete := h.complete
  have hmine := hcomplete.floor c myPos ((hcomplete.placed.onTile myPos c).mp hc).1
  have hsees := sees_of_canSee hposition hsee
  refine ⟨?_, fun hsame => ?_⟩
  · exact hcomplete.finds hz (fun _ => hplayer) hc (hsees.inRange (hsees.floors hz hmine))
  · refine hcomplete.finds hz (fun _ => hplayer) hc (hsees.inRange ?_)
    rw [hsame]
    exact ⟨Int.le_refl _, Int.le_refl _⟩

/-- The player of `onePlayer` sees the square to the east. -/
theorem seen_by_spectators_one :
    1 ∈ (onePlayer.getSpectators (fun _ => true) [] ⟨101, 100, 7⟩ sight).1 :=
  (seen_by_spectators (onePlayer_reachable fun _ _ hallowed _ => hallowed)
    (v := ⟨some ⟨100, 100, 7⟩, fun _ => none⟩) rfl (by decide +kernel) rfl
    (by decide) (by decide) false []).1

/-- No query is answered with less than a search of the map finds, also where callers' vectors have
gone into the caches. -/
theorem answer_covers_search (h : Reachable isPlayer (fun s op => s.Allowed op) s)
    (hz : centerPos.z.toNat < mapMaxLayers) (spectators : List CreatureId) (q : Query) :
    s.getSpectatorsInternal centerPos (q.range centerPos) q.onlyPlayers [] ⊆
      (s.getSpectators isPlayer spectators centerPos q).1 := by
  intro c hc
  obtain ⟨added, hadded, hexact⟩ :=
    h.complete.placed.search centerPos (q.range centerPos) q.onlyPlayers []
  rw [hadded, List.nil_append] at hc
  obtain ⟨honly, p, hp, hrange⟩ := (hexact.mem c).mp hc
  exact h.complete.finds hz honly hp hrange

/-- A vector that is not empty has gone into the cache for the square to the east. -/
theorem answer_covers_search_one :
    1 ∈ ((onePlayer.step (fun _ => true) (.getSpectators [5] ⟨101, 100, 7⟩ sight)).getSpectators
      (fun _ => true) [] ⟨101, 100, 7⟩ sight).1 :=
  answer_covers_search (.step (.getSpectators [5] ⟨101, 100, 7⟩ sight)
    (onePlayer_reachable fun _ _ hallowed _ => hallowed) trivial) (by decide) [] sight
    (by decide +kernel)

end CachedMap

end Bruxo.Spectators
