import Bruxo.Lib.Runs
import Bruxo.SpectatorSight
import Mathlib.Data.Finset.Lattice.Lemmas

/-!
# The audience of an npc

`Npc::spectators` (`npc.cpp`). When the npc appears, it takes all players that a search around it
finds; a player who appears where a search finds the npc is added; a player who moves is added or
erased by what its client sees of the npc, and a player who is removed is erased. The npc itself
moves without a look at the players.

Who is told of an event is what `Map::getSpectators` answers, from the caches too. The scripts of
the npc and its shop windows are left out, and so is its health: none of this takes any.
-/

namespace Bruxo.NpcAudience

open Spectators KnownCreatures CachedMap CreatureMap

/-- The map with its creatures, the players that have a client, and what the npc keeps. -/
structure Game (α : Type) where
  map : CachedMap α
  client : CreatureId → Bool
  spectators : Finset CreatureId
  isIdle : Bool

namespace Game

variable {α : Type} (isPlayer : CreatureId → Bool) (npc : CreatureId) (g : Game α)

/-- `Player::canSee` -/
def canSee (player : CreatureId) (pos : Position) : Bool :=
  g.client player && View.canSeePosition ⟨g.map.tile player, fun _ => none⟩ pos

def setIdle (idle : Bool) : Game α :=
  if g.map.removed npc then g else { g with isIdle := idle }

def onCreatureAppear (c : CreatureId) : Game α :=
  if c = npc then
    let (players, map) :=
      g.map.getSpectators isPlayer [] (g.map.getPosition npc) ⟨true, true, 0, 0, 0, 0⟩
    let spectators := g.spectators ∪ players.toFinset
    { g with map := map, spectators := spectators }.setIdle npc (spectators = ∅)
  else if isPlayer c then { g with spectators := insert c g.spectators }.setIdle npc false
  else g

def onRemoveCreature (c : CreatureId) : Game α :=
  if c = npc then g
  else if isPlayer c then
    let spectators := g.spectators.erase c
    { g with spectators := spectators }.setIdle npc (spectators = ∅)
  else g

def onCreatureMove (c : CreatureId) : Game α :=
  if c = npc then g
  else if isPlayer c then
    let spectators :=
      if g.canSee c (g.map.getPosition npc) then insert c g.spectators else g.spectators.erase c
    { g with spectators := spectators }.setIdle npc (spectators = ∅)
  else g

/-! ## The operations -/

/-- `Game::placeCreature`, where `dest` is the tile that was found. -/
def placeCreature (dest : Position) (c : CreatureId) : Game α :=
  if (g.map.tile c).isSome then g
  else
    let (spectators, map) :=
      (g.map.placeCreature isPlayer dest c).getSpectators isPlayer [] dest sight
    let g := { g with map := map }
    if npc ∈ spectators then g.onCreatureAppear isPlayer npc c else g

/-- `Map::moveCreature`, on foot or by a teleport. -/
def moveCreature (c : CreatureId) (newPos : Position) : Game α :=
  match g.map.tile c with
  | none => g
  | some oldPos =>
      if c ∉ g.map.creatures oldPos then g
      else
        let (spectators, map) := g.map.getSpectators isPlayer [] oldPos sight
        let (newPosSpectators, _) := map.getSpectators isPlayer [] newPos sight
        let g := { g with map := g.map.moveCreature isPlayer c newPos }
        if npc ∈ addSpectators spectators newPosSpectators then g.onCreatureMove isPlayer npc c
        else g

/-- `Game::removeCreature` -/
def removeCreature (c : CreatureId) : Game α :=
  if g.map.removed c then g
  else
    match g.map.tile c with
    | none => g
    | some pos =>
        let (spectators, map) := g.map.getSpectators isPlayer [] pos sight
        let g := { g with map := map.takeCreature isPlayer c }
        if npc ∈ spectators then g.onRemoveCreature isPlayer npc c else g

inductive Op (α : Type) where
  | setTile (x y : UInt16) (z : UInt8) (newTile : α)
  | placeCreature (dest : Position) (c : CreatureId)
  | moveCreature (c : CreatureId) (newPos : Position)
  | removeCreature (c : CreatureId)
  | getSpectators (spectators : List CreatureId) (centerPos : Position) (q : CachedMap.Query)
  /-- the client of a player comes or goes -/
  | setClient (c : CreatureId) (client : Bool)

def step (g : Game α) : Op α → Game α
  | .setTile x y z newTile => { g with map := g.map.setTile x y z newTile }
  | .placeCreature dest c => g.placeCreature isPlayer npc dest c
  | .moveCreature c newPos => g.moveCreature isPlayer npc c newPos
  | .removeCreature c => g.removeCreature isPlayer npc c
  | .getSpectators spectators centerPos q =>
      { g with map := (g.map.getSpectators isPlayer spectators centerPos q).2 }
  | .setClient c client => { g with client := Function.update g.client c client }

/-- The map is there and empty, and the npc is made. -/
def start (client : CreatureId → Bool) : Game α where
  map := CachedMap.empty
  client := client
  spectators := ∅
  isIdle := true

/-- Creatures are set on tiles of the map, and a caller of `getSpectators` has none in its vector
that never was on one. -/
def Allowed (g : Game α) : Op α → Prop
  | .placeCreature dest _ => (g.map.map.getTile dest.x dest.y dest.z).isSome = true
  | .moveCreature _ newPos => (g.map.map.getTile newPos.x newPos.y newPos.z).isSome = true
  | .getSpectators spectators _ _ => ∀ c ∈ spectators, (g.map.tile c).isSome = true
  | _ => True

/-! ## The audience -/

def Online (c : CreatureId) : Prop :=
  isPlayer c = true ∧ (g.map.tile c).isSome = true ∧ g.map.removed c = false

/-- The players in the game whose clients see the npc, and it is idle if there are none. -/
structure Audience (pos : Position) : Prop where
  mem : ∀ p, p ∈ g.spectators ↔ g.Online isPlayer p ∧ g.canSee p pos = true
  idle : g.isIdle = true ↔ g.spectators = ∅

/-- What is claimed, for as long as the npc is in the game. -/
def Attended : Prop :=
  ∀ pos, g.map.tile npc = some pos → g.map.removed npc = false → g.Audience isPlayer pos

/-- When the npc appears, all whom its search finds see it; a player who appears near the npc sees
it; when the npc moves, the same players see it as before; and a client comes or goes where the npc
is not seen. -/
def Meets (g : Game α) : Op α → Prop
  | .placeCreature dest c =>
      let placed := (g.map.placeCreature isPlayer dest c).getSpectators isPlayer [] dest sight
      let g' : Game α := { g with map := placed.2 }
      (g.map.tile c).isSome = false →
        (c = npc → ∀ p ∈ (placed.2.getSpectators isPlayer [] dest ⟨true, true, 0, 0, 0, 0⟩).1,
          g'.Online isPlayer p ∧ g'.canSee p dest = true) ∧
        (isPlayer c = true → ∀ pos, g.map.tile npc = some pos → g.map.removed npc = false →
          npc ∈ placed.1 → g'.canSee c pos = true)
  | .moveCreature c newPos =>
      c = npc → ∀ oldPos, g.map.tile npc = some oldPos → g.map.removed npc = false →
        ∀ p, g.Online isPlayer p → g.canSee p newPos = g.canSee p oldPos
  | .setClient c _ =>
      ∀ pos, g.map.tile npc = some pos → g.map.removed npc = false → g.Online isPlayer c →
        View.canSeePosition ⟨g.map.tile c, fun _ => none⟩ pos = false
  | _ => True

end Game

/-! ## Where the creatures are -/

section Places

variable {α : Type} {isPlayer : CreatureId → Bool} {s : CachedMap α} {c : CreatureId}
  {pos oldPos : Position} {q : CachedMap.Query} {l : List CreatureId}

theorem getSpectators_tile : (s.getSpectators isPlayer l pos q).2.tile = s.tile := by
  have h : (s.getSpectators isPlayer l pos q).2.toCreatureMap = s.toCreatureMap :=
    getSpectators_toCreatureMap
  rw [h]

theorem getSpectators_removed : (s.getSpectators isPlayer l pos q).2.removed = s.removed := by
  have h : (s.getSpectators isPlayer l pos q).2.toCreatureMap = s.toCreatureMap :=
    getSpectators_toCreatureMap
  rw [h]

theorem placeCreature_places (hnone : s.tile c = none)
    (hdest : (s.map.getTile pos.x pos.y pos.z).isSome = true) :
    (s.placeCreature isPlayer pos c).tile = Function.update s.tile c (some pos) ∧
      (s.placeCreature isPlayer pos c).removed = s.removed := by
  obtain ⟨leaf, hleaf⟩ := getLeaf_of_getTile hdest
  have hnot : ¬ (s.tile c).isSome = true := by rw [hnone]; exact Bool.false_ne_true
  rw [CachedMap.placeCreature, if_neg hnot]
  dsimp only
  rw [CreatureMap.placeCreature, if_neg hnot, getQTNode_eq, hleaf]
  exact ⟨rfl, rfl⟩

theorem moveCreature_places (hplaced : Placed isPlayer s.toCreatureMap)
    (htile : s.tile c = some oldPos) (hc : c ∈ s.creatures oldPos)
    (hnew : (s.map.getTile pos.x pos.y pos.z).isSome = true) :
    (s.moveCreature isPlayer c pos).tile = Function.update s.tile c (some pos) ∧
      (s.moveCreature isPlayer c pos).removed = s.removed := by
  obtain ⟨newLeaf, hnewLeaf⟩ := getLeaf_of_getTile hnew
  obtain ⟨leaf, hleaf⟩ := hplaced.leafed c oldPos htile
  have hcreatures : (s.toCreatureMap.moveCreature isPlayer c pos).tile
      = Function.update s.tile c (some pos) ∧
      (s.toCreatureMap.moveCreature isPlayer c pos).removed = s.removed := by
    obtain ⟨-, hstay, hremoved, -⟩ :=
      switchLeaf_frame isPlayer (s.removeThing oldPos c) leaf newLeaf c
    rw [CreatureMap.moveCreature, htile]
    dsimp only
    rw [if_neg (not_not_intro hc), getQTNode_eq, hleaf, getQTNode_eq, hnewLeaf]
    dsimp only
    refine ⟨?_, hremoved⟩
    rw [addThing, hstay]
    rfl
  rw [CachedMap.moveCreature, htile]
  dsimp only
  rw [if_neg (not_not_intro hc), getSpectators_toCreatureMap, getSpectators_toCreatureMap]
  exact hcreatures

theorem takeCreature_places (hplaced : Placed isPlayer s.toCreatureMap)
    (htile : s.tile c = some oldPos) (hremoved : s.removed c = false) :
    (s.takeCreature isPlayer c).tile = s.tile ∧
      (s.takeCreature isPlayer c).removed = Function.update s.removed c true := by
  obtain ⟨leaf, hleaf⟩ := hplaced.leafed c oldPos htile
  have hnot : ¬ s.removed c = true := by rw [hremoved]; exact Bool.false_ne_true
  rw [CachedMap.takeCreature, if_neg hnot, htile]
  dsimp only
  rw [CreatureMap.takeCreature, if_neg hnot, htile]
  dsimp only
  rw [getQTNode_eq, hleaf]
  exact ⟨rfl, rfl⟩

/-! ## Nobody is told of who never was there -/

/-- What is kept was on a tile once. -/
def Known (s : CachedMap α) : Prop :=
  ∀ pos v, s.spectatorCache pos = some v ∨ s.playersSpectatorCache pos = some v →
    ∀ c ∈ v, (s.tile c).isSome = true

theorem Known.answer (h : Known s) (hplaced : Placed isPlayer s.toCreatureMap)
    (hl : ∀ c ∈ l, (s.tile c).isSome = true) :
    ∀ c ∈ (s.getSpectators isPlayer l pos q).1, (s.tile c).isSome = true := by
  intro c hc
  have hadd : ∀ v : List CreatureId, (∀ c ∈ v, (s.tile c).isSome = true) →
      c ∈ (if l ≠ [] then addSpectators l v else v) → (s.tile c).isSome = true := by
    intro v hv hmem
    split at hmem
    · exact (mem_addSpectators.mp hmem).elim (hl c) (hv c)
    · exact hv c hmem
  rw [CachedMap.getSpectators] at hc
  split at hc
  · exact hl c hc
  split at hc
  · next answer hanswer =>
    rw [CachedMap.answered] at hanswer
    split at hanswer
    · rw [CachedMap.fromCache] at hanswer
      split at hanswer
      · next v hv =>
        obtain rfl := Option.some.inj hanswer
        split at hv
        · exact hadd v (h pos v (.inr hv)) hc
        · cases hv
      split at hanswer
      · next v hv =>
        split at hanswer
        · obtain rfl := Option.some.inj hanswer
          rcases List.mem_append.mp hc with hc | hc
          · exact hl c hc
          · exact h pos v (.inl hv) c (List.mem_filter.mp hc).1
        · obtain rfl := Option.some.inj hanswer
          exact hadd v (h pos v (.inl hv)) hc
      · cases hanswer
    · cases hanswer
  · obtain ⟨added, hadded, hexact⟩ := hplaced.search pos (q.range pos) q.onlyPlayers l
    dsimp only at hc
    rw [hadded] at hc
    rcases List.mem_append.mp hc with hc | hc
    · exact hl c hc
    · obtain ⟨-, p, hp, -⟩ := (hexact.mem c).mp hc
      rw [((hplaced.onTile p c).mp hp).1]
      rfl

theorem Known.fill (h : Known s) {onlyPlayers : Bool}
    (hl : ∀ c ∈ l, (s.tile c).isSome = true) : Known (s.fill pos onlyPlayers l) := by
  rw [CachedMap.fill]
  cases onlyPlayers with
  | true =>
      rintro p v (hv | hv)
      · exact h p v (.inl hv)
      · rcases CachedMap.cached_fill hv with ⟨-, rfl⟩ | hv
        · exact hl
        · exact h p v (.inr hv)
  | false =>
      rintro p v (hv | hv)
      · rcases CachedMap.cached_fill hv with ⟨-, rfl⟩ | hv
        · exact hl
        · exact h p v (.inl hv)
      · exact h p v (.inr hv)

theorem Known.getSpectators (h : Known s) (hplaced : Placed isPlayer s.toCreatureMap)
    (hl : ∀ c ∈ l, (s.tile c).isSome = true) :
    Known (s.getSpectators isPlayer l pos q).2 := by
  have hanswer : ∀ c ∈ (s.getSpectators isPlayer l pos q).1, (s.tile c).isSome = true :=
    h.answer hplaced hl
  rw [CachedMap.getSpectators] at hanswer ⊢
  split
  · exact h
  split
  · exact h
  · next hnone =>
    rw [if_neg (by assumption), hnone] at hanswer
    dsimp only at hanswer ⊢
    split
    · exact h.fill hanswer
    · exact h

theorem Known.clearFor {t : CreatureMap α} (h : Known s)
    (htile : ∀ d, (s.tile d).isSome = true → (t.tile d).isSome = true) :
    Known { s.clearFor isPlayer c with toCreatureMap := t } := by
  rintro pos v (hv | hv) d hd
  · simp only [CachedMap.clearFor] at hv
    split at hv <;> cases hv
  · simp only [CachedMap.clearFor] at hv
    split at hv
    · cases hv
    · exact htile d (h pos v (.inr hv) d hd)

theorem isSome_update {tile : CreatureId → Option Position} (d : CreatureId)
    (h : (tile d).isSome = true) : (Function.update tile c (some pos) d).isSome = true := by
  rw [Function.update_apply]
  split
  · rfl
  · exact h

theorem Known.placeCreature (h : Known s) : Known (s.placeCreature isPlayer pos c) := by
  rw [CachedMap.placeCreature]
  split
  · exact h
  refine h.clearFor fun d hd => ?_
  rw [CreatureMap.placeCreature]
  split
  · exact hd
  split
  · exact hd
  · exact isSome_update d hd

theorem Known.moveCreature (h : Known s) (hplaced : Placed isPlayer s.toCreatureMap) :
    Known (s.moveCreature isPlayer c pos) := by
  rw [CachedMap.moveCreature]
  split
  · exact h
  next oldPos _ =>
  split
  · exact h
  have hnobody : ∀ s : CachedMap α, ∀ d ∈ ([] : List CreatureId), (s.tile d).isSome = true :=
    fun s d hd => by cases hd
  have hplaced' : Placed isPlayer (s.getSpectators isPlayer [] oldPos sight).2.toCreatureMap := by
    rw [getSpectators_toCreatureMap]
    exact hplaced
  have hfirst : Known (s.getSpectators isPlayer [] oldPos sight).2 :=
    h.getSpectators hplaced (hnobody _)
  have hknown : Known ((s.getSpectators isPlayer [] oldPos sight).2.getSpectators isPlayer [] pos
      sight).2 := hfirst.getSpectators hplaced' (hnobody _)
  refine hknown.clearFor fun d hd => ?_
  rw [getSpectators_tile, getSpectators_tile] at hd
  rw [getSpectators_toCreatureMap, getSpectators_toCreatureMap, CreatureMap.moveCreature]
  split
  · exact hd
  next leftPos _ =>
  split
  · exact hd
  split
  · next leaf newLeaf _ _ =>
    obtain ⟨-, hstay, -, -⟩ := switchLeaf_frame isPlayer (s.removeThing leftPos c) leaf newLeaf c
    rw [addThing, hstay]
    exact isSome_update d hd
  · exact hd

theorem Known.takeCreature (h : Known s) : Known (s.takeCreature isPlayer c) := by
  have htile : (s.toCreatureMap.takeCreature isPlayer c).tile = s.tile := by
    rw [CreatureMap.takeCreature]
    split
    · rfl
    split
    · rfl
    split <;> rfl
  rw [CachedMap.takeCreature]
  split
  · exact h
  split
  · exact h
  dsimp only
  have hstay : ∀ d, (s.tile d).isSome = true →
      ((s.toCreatureMap.takeCreature isPlayer c).tile d).isSome = true := by
    intro d hd
    rwa [htile]
  split
  · exact h.clearFor hstay
  · exact fun p v hv d hd => hstay d (h p v hv d hd)

theorem sees_self (pos : Position) : Sees pos pos :=
  ⟨fun h => h, fun _ => by omega, ⟨by omega, by omega⟩, by omega, by omega⟩

/-- A creature that a player sees is told of what the player does. -/
theorem told_near (h : Complete isPlayer s) (htile : s.tile c = some pos)
    (hremoved : s.removed c = false) {myPos : Position} (hz : myPos.z.toNat < mapMaxLayers)
    (hsees : Sees myPos pos) : c ∈ (s.getSpectators isPlayer l myPos sight).1 := by
  have honTile : c ∈ s.creatures pos := (h.placed.onTile pos c).mpr ⟨htile, hremoved⟩
  have hpos := h.floor c pos htile
  refine h.finds hz (fun hfalse => by cases hfalse) honTile ?_
  obtain ⟨habove, hbelow, ⟨hwest, heast⟩, hnorth, hsouth⟩ := hsees
  refine ⟨?_, ?_, ?_⟩
  · simp only [CachedMap.Query.range, CachedMap.floors, sight, if_true, mapMaxLayers] at hz hpos ⊢
    split
    · exact ⟨by omega, by omega⟩
    split
    · exact ⟨by omega, by omega⟩
    split <;> exact ⟨by omega, by omega⟩
  · simp only [CachedMap.Query.range, sight, if_true, maxViewport]
    exact ⟨by omega, by omega⟩
  · simp only [CachedMap.Query.range, sight, if_true, maxViewport]
    exact ⟨by omega, by omega⟩

end Places

/-! ## What every operation keeps -/

namespace Game

section Steps

variable {α : Type} {isPlayer : CreatureId → Bool} {npc : CreatureId} {g g' : Game α}
  {c p : CreatureId} {pos newPos : Position}

/-- A player in the game who sees the position. -/
def Watches (isPlayer : CreatureId → Bool) (g : Game α) (pos : Position) (p : CreatureId) : Prop :=
  g.Online isPlayer p ∧ g.canSee p pos = true

structure Inv (isPlayer : CreatureId → Bool) (npc : CreatureId) (g : Game α) : Prop where
  complete : Complete isPlayer g.map
  known : Known g.map
  absent : g.map.tile npc = none → g.spectators = ∅ ∧ g.isIdle = true
  attended : g.Attended isPlayer npc

theorem watches_congr (htile : g'.map.tile p = g.map.tile p)
    (hremoved : g'.map.removed p = g.map.removed p) (hclient : g'.client p = g.client p) :
    Watches isPlayer g' pos p ↔ Watches isPlayer g pos p := by
  rw [Watches, Watches, Online, Online, canSee, canSee, htile, hremoved, hclient]

theorem sees_of_watches (h : Watches isPlayer g pos p) :
    ∃ myPos, g.map.tile p = some myPos ∧ Sees myPos pos := by
  obtain ⟨⟨-, htile, -⟩, hsee⟩ := h
  obtain ⟨myPos, htile⟩ := Option.isSome_iff_exists.mp htile
  rw [canSee, Bool.and_eq_true, htile] at hsee
  exact ⟨myPos, htile, sees_of_canSee rfl hsee.2⟩

/-- The audience stays when the same players watch. -/
theorem Audience.congr {pos' : Position} (h : g.Audience isPlayer pos)
    (hspectators : g'.spectators = g.spectators) (hidle : g'.isIdle = g.isIdle)
    (hwatches : ∀ p, Watches isPlayer g' pos' p ↔ Watches isPlayer g pos p) :
    g'.Audience isPlayer pos' where
  mem p := by
    rw [hspectators, h.mem]
    exact (hwatches p).symm
  idle := by rw [hspectators, hidle, h.idle]

theorem setIdle_eq (hremoved : g.map.removed npc = false) (idle : Bool) :
    g.setIdle npc idle = { g with isIdle := idle } := by
  rw [setIdle, hremoved, if_neg Bool.false_ne_true]

theorem setIdle_map (idle : Bool) : (g.setIdle npc idle).map = g.map := by
  rw [setIdle]
  split <;> rfl

/-- What the npc makes of a player whom it is told of. -/
theorem audience_of_told {spectators : Finset CreatureId} {idle : Bool}
    (hremoved : g.map.removed npc = false)
    (hmem : ∀ p, p ∈ spectators ↔ Watches isPlayer g pos p)
    (hidle : idle = true ↔ spectators = ∅) :
    ({ g with spectators := spectators }.setIdle npc idle).Audience isPlayer pos := by
  have hsame : ({ g with spectators := spectators } : Game α).map.removed npc = false := hremoved
  rw [setIdle_eq hsame]
  exact ⟨hmem, hidle⟩

/-- Only `c` did something, and it is no player. -/
theorem Audience.other (h : g.Audience isPlayer pos) (hplayer : isPlayer c = false)
    (hspectators : g'.spectators = g.spectators) (hidle : g'.isIdle = g.isIdle)
    (hclient : g'.client = g.client)
    (hplaces : ∀ d, d ≠ c → g'.map.tile d = g.map.tile d ∧ g'.map.removed d = g.map.removed d) :
    g'.Audience isPlayer pos := by
  refine h.congr hspectators hidle fun p => ?_
  by_cases heq : p = c
  · have hnot : ∀ g : Game α, ¬ Watches isPlayer g pos p := by
      rintro g ⟨⟨hp, -⟩, -⟩
      rw [heq, hplayer] at hp
      cases hp
    exact iff_of_false (hnot g') (hnot g)
  · obtain ⟨htile, hremoved⟩ := hplaces p heq
    exact watches_congr htile hremoved (congrFun hclient p)

/-- Only the player `c` did something, and the npc made of it what it sees. -/
theorem mem_of_others {spectators : Finset CreatureId} (h : g.Audience isPlayer pos)
    (hclient : g'.client = g.client)
    (hplaces : ∀ d, d ≠ c → g'.map.tile d = g.map.tile d ∧ g'.map.removed d = g.map.removed d)
    (hothers : ∀ d, d ≠ c → (d ∈ spectators ↔ d ∈ g.spectators))
    (hself : c ∈ spectators ↔ Watches isPlayer g' pos c) :
    ∀ p, p ∈ spectators ↔ Watches isPlayer g' pos p := by
  intro p
  by_cases heq : p = c
  · rw [heq]
    exact hself
  · obtain ⟨htile, hremoved⟩ := hplaces p heq
    rw [hothers p heq, h.mem]
    exact (watches_congr htile hremoved (congrFun hclient p)).symm

theorem start_inv (client : CreatureId → Bool) : Inv isPlayer npc (start client : Game α) where
  complete := empty_complete
  known := by
    rintro pos v (hv | hv)
    · cases hv
    · cases hv
  absent _ := ⟨rfl, rfl⟩
  attended := by
    intro pos htile
    cases htile

/-- An npc that is not there is told of nothing. -/
theorem not_told {s : CachedMap α} (hknown : Known s) (hplaced : Placed isPlayer s.toCreatureMap)
    (hnone : s.tile npc = none) : npc ∉ (s.getSpectators isPlayer [] pos sight).1 := by
  intro hmem
  have hsome := hknown.answer hplaced (fun d hd => by cases hd) npc hmem
  rw [hnone] at hsome
  cases hsome

/-- After something that `c` did, of which the npc is told or not. -/
theorem Inv.react (h : Inv isPlayer npc g) {map : CachedMap α} {spectators : Finset CreatureId}
    {told : Prop} [Decidable told] (hcomplete : Complete isPlayer map) (hknown : Known map)
    (hplaces : ∀ d, d ≠ c → map.tile d = g.map.tile d ∧ map.removed d = g.map.removed d)
    (hothers : ∀ d, d ≠ c → (d ∈ spectators ↔ d ∈ g.spectators))
    (hnone : g.map.tile npc = none → c ≠ npc → ¬ told)
    (hself : ∀ pos, isPlayer c = true → g.map.tile npc = some pos → g.map.removed npc = false →
      (told → (c ∈ spectators ↔ Watches isPlayer { g with map := map } pos c)) ∧
        (¬ told → ¬ Watches isPlayer g pos c ∧ ¬ Watches isPlayer { g with map := map } pos c))
    (hnpc : c = npc → Inv isPlayer npc { g with map := map }) :
    Inv isPlayer npc
      (if told then
        if c = npc then { g with map := map }
        else if isPlayer c then
          ({ g with map := map, spectators := spectators } : Game α).setIdle npc (spectators = ∅)
        else { g with map := map }
      else { g with map := map }) := by
  by_cases hc : c = npc
  · rw [if_pos hc, ite_self]
    exact hnpc hc
  obtain ⟨hstay, hstayIn⟩ := hplaces npc (Ne.symm hc)
  rw [if_neg hc]
  cases hplayer : isPlayer c with
  | false =>
      rw [if_neg Bool.false_ne_true, ite_self]
      refine ⟨hcomplete, hknown, fun hno => h.absent (hstay ▸ hno), fun pos htile hin => ?_⟩
      exact (h.attended pos (hstay ▸ htile) (hstayIn ▸ hin)).other hplayer rfl rfl rfl hplaces
  | true =>
      rw [if_pos rfl]
      by_cases htold : told
      · rw [if_pos htold]
        refine ⟨?_, ?_, fun hno => ?_, fun pos htile hin => ?_⟩
        · rw [setIdle_map]
          exact hcomplete
        · rw [setIdle_map]
          exact hknown
        · rw [setIdle_map] at hno
          exact absurd htold (hnone (hstay ▸ hno) hc)
        · rw [setIdle_map] at htile hin
          have haudience := h.attended pos (hstay ▸ htile) (hstayIn ▸ hin)
          have hmine := (hself pos hplayer (hstay ▸ htile) (hstayIn ▸ hin)).1 htold
          exact audience_of_told (g := { g with map := map }) hin
            (mem_of_others haudience rfl hplaces hothers hmine) (by rw [decide_eq_true_eq])
      · rw [if_neg htold]
        refine ⟨hcomplete, hknown, fun hno => h.absent (hstay ▸ hno), fun pos htile hin => ?_⟩
        have haudience := h.attended pos (hstay ▸ htile) (hstayIn ▸ hin)
        obtain ⟨hbefore, hafter⟩ := (hself pos hplayer (hstay ▸ htile) (hstayIn ▸ hin)).2 htold
        have hmine : c ∈ g.spectators ↔ Watches isPlayer { g with map := map } pos c :=
          iff_of_false (fun hmem => hbefore ((haudience.mem c).mp hmem)) hafter
        exact ⟨mem_of_others haudience rfl hplaces (fun _ _ => Iff.rfl) hmine, haudience.idle⟩

theorem Inv.removeCreature (h : Inv isPlayer npc g) :
    Inv isPlayer npc (g.removeCreature isPlayer npc c) := by
  unfold Game.removeCreature
  split
  · exact h
  next hremoved =>
  have hremoved : g.map.removed c = false := Bool.eq_false_of_not_eq_true hremoved
  cases htile : g.map.tile c with
  | none => exact h
  | some oldPos =>
  dsimp only
  have hcomplete := h.complete.getSpectators [] oldPos sight
  have hknown : Known (g.map.getSpectators isPlayer [] oldPos sight).2 :=
    h.known.getSpectators h.complete.placed fun d hd => by cases hd
  obtain ⟨htake, hgone⟩ := takeCreature_places hcomplete.placed
    (by rw [getSpectators_tile]; exact htile) (by rw [getSpectators_removed]; exact hremoved)
  rw [getSpectators_tile] at htake
  rw [getSpectators_removed] at hgone
  have hself : ∀ pos, ¬ Watches isPlayer
      { g with map := (g.map.getSpectators isPlayer [] oldPos sight).2.takeCreature isPlayer c }
      pos c := by
    rintro pos ⟨⟨-, -, hnot⟩, -⟩
    dsimp only at hnot
    rw [hgone, Function.update_self] at hnot
    cases hnot
  refine h.react hcomplete.takeCreature hknown.takeCreature (fun d hd => ?_) (fun d hd => ?_)
    (fun hno _ => ?_) (fun pos hplayer hnpc hin => ⟨fun _ => ?_, fun hnot => ⟨fun hwatch => ?_, ?_⟩⟩)
    (fun hc => ?_)
  · exact ⟨congrFun htake d, by rw [hgone, Function.update_of_ne hd]⟩
  · rw [Finset.mem_erase, and_iff_right hd]
  · exact not_told h.known h.complete.placed hno
  · exact iff_of_false (Finset.notMem_erase c g.spectators) (hself pos)
  · obtain ⟨myPos, hmine, hsees⟩ := sees_of_watches hwatch
    obtain rfl : oldPos = myPos := Option.some.inj (htile.symm.trans hmine)
    exact hnot (told_near h.complete hnpc hin (h.complete.floor c oldPos htile) hsees)
  · exact hself pos
  · refine ⟨hcomplete.takeCreature, hknown.takeCreature, fun hno => ?_, fun pos _ hin => ?_⟩
    · dsimp only at hno
      rw [htake, ← hc, htile] at hno
      cases hno
    · dsimp only at hin
      rw [hgone, ← hc, Function.update_self] at hin
      cases hin

theorem Inv.moveCreature (h : Inv isPlayer npc g) (hnpc : isPlayer npc = false)
    (hallowed : g.Allowed (.moveCreature c newPos))
    (hmeets : g.Meets isPlayer npc (.moveCreature c newPos)) :
    Inv isPlayer npc (g.moveCreature isPlayer npc c newPos) := by
  unfold Game.moveCreature
  cases htile : g.map.tile c with
  | none => exact h
  | some oldPos =>
  dsimp only
  split
  · exact h
  next hc =>
  have hc : c ∈ g.map.creatures oldPos := not_not.mp hc
  have hremoved := ((h.complete.placed.onTile oldPos c).mp hc).2
  obtain ⟨hmove, hstay⟩ := moveCreature_places h.complete.placed htile hc hallowed
  have hcomplete : Complete isPlayer (g.map.moveCreature isPlayer c newPos) :=
    h.complete.moveCreature hallowed
  have hknown : Known (g.map.moveCreature isPlayer c newPos) :=
    h.known.moveCreature h.complete.placed
  have hplaces : ∀ d, d ≠ c → (g.map.moveCreature isPlayer c newPos).tile d = g.map.tile d ∧
      (g.map.moveCreature isPlayer c newPos).removed d = g.map.removed d := by
    intro d hd
    exact ⟨by rw [hmove, Function.update_of_ne hd], congrFun hstay d⟩
  have hnewTile : (g.map.moveCreature isPlayer c newPos).tile c = some newPos := by
    rw [hmove, Function.update_self]
  have hfirst := h.complete.getSpectators [] oldPos sight
  refine h.react hcomplete hknown hplaces (fun d hd => ?_) (fun hno _ htold => ?_)
    (fun pos hplayer hpos hin => ⟨fun _ => ?_, fun hnot => ⟨fun hwatch => hnot ?_,
      fun hwatch => hnot ?_⟩⟩) (fun heq => ?_)
  · split
    · rw [Finset.mem_insert, or_iff_right hd]
    · rw [Finset.mem_erase, and_iff_right hd]
  · rcases mem_addSpectators.mp htold with hold | hnew
    · exact not_told h.known h.complete.placed hno hold
    · refine not_told (h.known.getSpectators h.complete.placed fun d hd => by cases hd)
        hfirst.placed ?_ hnew
      rw [getSpectators_tile]
      exact hno
  · -- The npc looks at what the player sees now.
    have hne : npc ≠ c := by
      rintro rfl
      rw [hnpc] at hplayer
      cases hplayer
    have hposition : (g.map.moveCreature isPlayer c newPos).getPosition npc = pos := by
      rw [getPosition, (hplaces npc hne).1, hpos]
      rfl
    have honline : Online isPlayer { g with map := g.map.moveCreature isPlayer c newPos } c := by
      refine ⟨hplayer, ?_, ?_⟩
      · dsimp only
        rw [hnewTile]
        rfl
      · dsimp only
        rw [hstay]
        exact hremoved
    dsimp only
    rw [hposition]
    split
    · next hsee => exact iff_of_true (Finset.mem_insert_self c g.spectators) ⟨honline, hsee⟩
    · next hsee => exact iff_of_false (Finset.notMem_erase c g.spectators) fun hw => hsee hw.2
  · obtain ⟨myPos, hmine, hsees⟩ := sees_of_watches hwatch
    obtain rfl : oldPos = myPos := Option.some.inj (htile.symm.trans hmine)
    refine mem_addSpectators.mpr (.inl ?_)
    exact told_near h.complete hpos hin (h.complete.floor c oldPos htile) hsees
  · obtain ⟨myPos, hmine, hsees⟩ := sees_of_watches hwatch
    obtain rfl : newPos = myPos := Option.some.inj (hnewTile.symm.trans hmine)
    refine mem_addSpectators.mpr (.inr ?_)
    refine told_near hfirst ?_ ?_ (hcomplete.floor c newPos hnewTile) hsees
    · rw [getSpectators_tile]
      exact hpos
    · rw [getSpectators_removed]
      exact hin
  · refine ⟨hcomplete, hknown, fun hno => ?_, fun pos hpos hin => ?_⟩
    · dsimp only at hno
      rw [← heq, hnewTile] at hno
      cases hno
    · dsimp only at hpos hin
      rw [← heq, hnewTile] at hpos
      obtain rfl := Option.some.inj hpos
      have hbefore := h.attended oldPos (heq ▸ htile) (heq ▸ hremoved)
      refine hbefore.congr rfl rfl fun p => ?_
      by_cases hp : p = c
      · have hnobody : ∀ (g : Game α) pos, ¬ Watches isPlayer g pos p := by
          rintro g pos ⟨⟨hplayer, -⟩, -⟩
          rw [hp, heq, hnpc] at hplayer
          cases hplayer
        exact iff_of_false (hnobody _ _) (hnobody _ _)
      · obtain ⟨hsame, hsameIn⟩ := hplaces p hp
        have hcongr : Watches isPlayer { g with map := g.map.moveCreature isPlayer c newPos }
            newPos p ↔ Watches isPlayer g newPos p := watches_congr hsame hsameIn rfl
        rw [hcongr]
        refine and_congr_right fun honline => ?_
        rw [hmeets heq oldPos (heq ▸ htile) (heq ▸ hremoved) p honline]

/-- The npc appears, and takes the players that its search finds. -/
theorem Inv.appear (h : Inv isPlayer npc g) (hnone : g.map.tile npc = none) {dest : Position}
    (hallowed : g.Allowed (.placeCreature dest npc))
    (hmeets : g.Meets isPlayer npc (.placeCreature dest npc)) :
    Inv isPlayer npc (g.placeCreature isPlayer npc dest npc) := by
  obtain ⟨hspectators, -⟩ := h.absent hnone
  obtain ⟨hplace, hstay⟩ :
      (g.map.placeCreature isPlayer dest npc).tile = Function.update g.map.tile npc (some dest) ∧
        (g.map.placeCreature isPlayer dest npc).removed = g.map.removed :=
    placeCreature_places hnone hallowed
  have hremoved := h.complete.placed.fresh npc hnone
  have hnot : ¬ (g.map.tile npc).isSome = true := by rw [hnone]; exact Bool.false_ne_true
  have hplaced : Complete isPlayer (g.map.placeCreature isPlayer dest npc) :=
    h.complete.placeCreature hallowed
  have hknown : Known (g.map.placeCreature isPlayer dest npc) := h.known.placeCreature
  have hnobody : ∀ s : CachedMap α, ∀ d ∈ ([] : List CreatureId), (s.tile d).isSome = true :=
    fun s d hd => by cases hd
  have htile : (g.map.placeCreature isPlayer dest npc).tile npc = some dest := by
    rw [hplace, Function.update_self]
  have hin : (g.map.placeCreature isPlayer dest npc).removed npc = false := by
    rw [hstay]
    exact hremoved
  have hz := hplaced.floor npc dest htile
  have htold := told_near (l := []) hplaced htile hin hz (sees_self dest)
  unfold Game.placeCreature
  rw [if_neg hnot]
  dsimp only
  rw [if_pos htold, onCreatureAppear, if_pos rfl]
  dsimp only
  let seen := (g.map.placeCreature isPlayer dest npc).getSpectators isPlayer [] dest sight
  have hcomplete : Complete isPlayer seen.2 := hplaced.getSpectators [] dest sight
  have hseenTile : seen.2.tile = Function.update g.map.tile npc (some dest) := by
    rw [getSpectators_tile, hplace]
  have hseenRemoved : seen.2.removed = g.map.removed := by rw [getSpectators_removed, hstay]
  have hposition : seen.2.getPosition npc = dest := by
    rw [getPosition, hseenTile, Function.update_self]
    rfl
  have hfound := (hmeets (Bool.eq_false_of_not_eq_true hnot)).1 rfl
  change Inv isPlayer npc (setIdle npc
    { g with
      map := (seen.2.getSpectators isPlayer [] (seen.2.getPosition npc) _).2
      spectators := g.spectators ∪
        (seen.2.getSpectators isPlayer [] (seen.2.getPosition npc) _).1.toFinset }
    (decide (g.spectators ∪
      (seen.2.getSpectators isPlayer [] (seen.2.getPosition npc) _).1.toFinset = ∅)))
  rw [hposition, hspectators, Finset.empty_union]
  let found := seen.2.getSpectators isPlayer [] dest ⟨true, true, 0, 0, 0, 0⟩
  have hfoundTile : found.2.tile = seen.2.tile := getSpectators_tile
  have hfoundRemoved : found.2.removed = seen.2.removed := getSpectators_removed
  have hfoundIn : found.2.removed npc = false := by
    rw [hfoundRemoved, hseenRemoved]
    exact hremoved
  refine ⟨?_, ?_, fun hno => ?_, fun pos hpos _ => ?_⟩
  · rw [setIdle_map]
    exact hcomplete.getSpectators [] dest _
  · rw [setIdle_map]
    exact (hknown.getSpectators hplaced.placed (hnobody _)).getSpectators hcomplete.placed
      (hnobody _)
  · rw [setIdle_map] at hno
    have hsome : found.2.tile npc = some dest := by
      rw [hfoundTile, hseenTile, Function.update_self]
    cases hsome.symm.trans hno
  · rw [setIdle_map] at hpos
    have hsome : found.2.tile npc = some dest := by
      rw [hfoundTile, hseenTile, Function.update_self]
    obtain rfl : dest = pos := Option.some.inj (hsome.symm.trans hpos)
    refine audience_of_told (g := { g with map := found.2 }) hfoundIn (fun p => ?_)
      (by rw [decide_eq_true_eq])
    have hcongr : Watches isPlayer { g with map := found.2 } dest p ↔
        Watches isPlayer { g with map := seen.2 } dest p :=
      watches_congr (congrFun hfoundTile p) (congrFun hfoundRemoved p) rfl
    rw [List.mem_toFinset, hcongr]
    constructor
    · exact hfound p
    · intro hwatch
      obtain ⟨myPos, hmine, hsees⟩ := sees_of_watches hwatch
      have honTile : p ∈ seen.2.creatures myPos :=
        (hcomplete.placed.onTile myPos p).mpr ⟨hmine, hwatch.1.2.2⟩
      have hfloors := hsees.floors hz (hcomplete.floor p myPos hmine)
      exact hcomplete.finds hz (fun _ => hwatch.1.1) honTile (hsees.inRange hfloors)

theorem Inv.placeCreature (h : Inv isPlayer npc g) {dest : Position}
    (hallowed : g.Allowed (.placeCreature dest c))
    (hmeets : g.Meets isPlayer npc (.placeCreature dest c)) :
    Inv isPlayer npc (g.placeCreature isPlayer npc dest c) := by
  by_cases hsome : (g.map.tile c).isSome = true
  · unfold Game.placeCreature
    rw [if_pos hsome]
    exact h
  have hnone : g.map.tile c = none := by
    cases htile : g.map.tile c with
    | none => rfl
    | some pos =>
        rw [htile] at hsome
        exact absurd rfl hsome
  by_cases hc : c = npc
  · subst hc
    exact h.appear hnone hallowed hmeets
  obtain ⟨hplace, hstay⟩ :
      (g.map.placeCreature isPlayer dest c).tile = Function.update g.map.tile c (some dest) ∧
        (g.map.placeCreature isPlayer dest c).removed = g.map.removed :=
    placeCreature_places hnone hallowed
  have hplaced : Complete isPlayer (g.map.placeCreature isPlayer dest c) :=
    h.complete.placeCreature hallowed
  have hknown : Known (g.map.placeCreature isPlayer dest c) := h.known.placeCreature
  let seen := (g.map.placeCreature isPlayer dest c).getSpectators isPlayer [] dest sight
  have hcomplete : Complete isPlayer seen.2 := hplaced.getSpectators [] dest sight
  have hseenKnown : Known seen.2 :=
    hknown.getSpectators hplaced.placed fun d hd => by cases hd
  have hseenTile : seen.2.tile = Function.update g.map.tile c (some dest) := by
    rw [getSpectators_tile, hplace]
  have hseenRemoved : seen.2.removed = g.map.removed := by rw [getSpectators_removed, hstay]
  obtain ⟨-, hplayerMeets⟩ := hmeets (Bool.eq_false_of_not_eq_true hsome)
  have hnever : decide (insert c g.spectators = ∅) = false :=
    decide_eq_false (Finset.insert_ne_empty c g.spectators)
  have hform : g.placeCreature isPlayer npc dest c =
      if npc ∈ seen.1 then
        if c = npc then { g with map := seen.2 }
        else if isPlayer c then
          ({ g with map := seen.2, spectators := insert c g.spectators } : Game α).setIdle npc
            (insert c g.spectators = ∅)
        else { g with map := seen.2 }
      else { g with map := seen.2 } := by
    rw [hnever, if_neg hc]
    unfold Game.placeCreature
    rw [if_neg hsome]
    dsimp only
    rw [onCreatureAppear, if_neg hc]
  rw [hform]
  refine h.react hcomplete hseenKnown (fun d hd => ?_) (fun d hd => ?_) (fun hno hne htold => ?_)
    (fun pos hplayer hpos hin => ⟨fun htold => ?_, fun hnot => ⟨fun hwatch => ?_,
      fun hwatch => hnot ?_⟩⟩) (fun heq => absurd heq hc)
  · exact ⟨by rw [hseenTile, Function.update_of_ne hd], congrFun hseenRemoved d⟩
  · rw [Finset.mem_insert, or_iff_right hd]
  · refine not_told hknown hplaced.placed ?_ htold
    rw [hplace, Function.update_of_ne (Ne.symm hne)]
    exact hno
  · have hsee := hplayerMeets hplayer pos hpos hin htold
    have honline : Online isPlayer { g with map := seen.2 } c := by
      refine ⟨hplayer, ?_, ?_⟩
      · dsimp only
        rw [hseenTile, Function.update_self]
        rfl
      · dsimp only
        rw [hseenRemoved]
        exact h.complete.placed.fresh c hnone
    exact iff_of_true (Finset.mem_insert_self c g.spectators) ⟨honline, hsee⟩
  · obtain ⟨myPos, hmine, -⟩ := sees_of_watches hwatch
    cases hnone.symm.trans hmine
  · obtain ⟨myPos, hmine, hsees⟩ := sees_of_watches hwatch
    have hmyTile : seen.2.tile c = some dest := by rw [hseenTile, Function.update_self]
    obtain rfl : dest = myPos := Option.some.inj (hmyTile.symm.trans hmine)
    refine told_near hplaced ?_ ?_ (hcomplete.floor c dest hmyTile) hsees
    · rw [hplace, Function.update_of_ne (Ne.symm hc)]
      exact hpos
    · rw [hstay]
      exact hin

theorem Inv.step (hnpc : isPlayer npc = false) (g : Game α) (op : Op α)
    (h : Inv isPlayer npc g) (hop : g.Allowed op ∧ g.Meets isPlayer npc op) :
    Inv isPlayer npc (g.step isPlayer npc op) := by
  obtain ⟨hallowed, hmeets⟩ := hop
  cases op with
  | setTile x y z newTile =>
      refine ⟨⟨h.complete.placed.setTile, h.complete.floor, h.complete.all, h.complete.players⟩,
        h.known, h.absent, fun pos hpos hin => ?_⟩
      exact (h.attended pos hpos hin).congr rfl rfl fun p => watches_congr rfl rfl rfl
  | placeCreature dest c => exact h.placeCreature hallowed hmeets
  | moveCreature c newPos => exact h.moveCreature hnpc hallowed hmeets
  | removeCreature c => exact h.removeCreature
  | getSpectators spectators centerPos q =>
      have htile : (g.map.getSpectators isPlayer spectators centerPos q).2.tile = g.map.tile :=
        getSpectators_tile
      have hremoved : (g.map.getSpectators isPlayer spectators centerPos q).2.removed
          = g.map.removed := getSpectators_removed
      refine ⟨h.complete.getSpectators spectators centerPos q,
        h.known.getSpectators h.complete.placed hallowed, fun hno => ?_, fun pos hpos hin => ?_⟩
      · exact h.absent ((congrFun htile npc).symm.trans hno)
      · refine (h.attended pos ((congrFun htile npc).symm.trans hpos)
          ((congrFun hremoved npc).symm.trans hin)).congr rfl rfl fun p => ?_
        exact watches_congr (congrFun htile p) (congrFun hremoved p) rfl
  | setClient c client =>
      refine ⟨h.complete, h.known, h.absent, fun pos hpos hin => ?_⟩
      refine (h.attended pos hpos hin).congr rfl rfl fun p => ?_
      by_cases hp : p = c
      · subst hp
        refine and_congr_right fun honline => ?_
        have hunseen := hmeets pos hpos hin honline
        have hblind : ∀ client : CreatureId → Bool,
            (client p && View.canSeePosition ⟨g.map.tile p, fun _ => none⟩ pos) = false := by
          intro client
          rw [hunseen, Bool.and_false]
        exact iff_of_eq (congrArg (· = true) ((hblind _).trans (hblind _).symm))
      · refine watches_congr rfl rfl ?_
        show Function.update g.client c client p = g.client p
        rw [Function.update_of_ne hp]

end Steps

/-- In a run whose steps all meet the condition, the npc has its audience in every state. -/
theorem npc_audience {α : Type} (isPlayer : CreatureId → Bool) (npc : CreatureId)
    (hnpc : isPlayer npc = false) (client : CreatureId → Bool) (ops : List (Op α))
    (hops : Runs.Throughout (step isPlayer npc)
      (fun g op => g.Allowed op ∧ g.Meets isPlayer npc op) (start client) ops) :
    (Runs.run (step isPlayer npc) (start client) ops).Attended isPlayer npc :=
  (Runs.run_inv (Inv.step hnpc) (start_inv client) hops).attended

/-! ## A player and an npc -/

/-- Creature 1 is a player. -/
def onePlayer (c : CreatureId) : Bool := c = 1

/-- Two tiles. -/
def twoTiles : List (Op Unit) := [.setTile 100 100 7 (), .setTile 1000 1000 7 ()]

def emptyTiles : Game Unit := Runs.run (step onePlayer 0) (start fun _ => true) twoTiles

def withPlayer : Game Unit := emptyTiles.step onePlayer 0 (.placeCreature ⟨100, 100, 7⟩ 1)

def withNpc : Game Unit := withPlayer.step onePlayer 0 (.placeCreature ⟨100, 100, 7⟩ 0)

def afterTeleport : Game Unit := withNpc.step onePlayer 0 (.moveCreature 0 ⟨1000, 1000, 7⟩)


theorem twoTiles_throughout {P : Game Unit → Op Unit → Prop}
    (h : ∀ g x y z, P g (.setTile x y z ())) :
    Runs.Throughout (step onePlayer 0) P (start fun _ => true) twoTiles := by
  unfold twoTiles
  exact Runs.throughout_cons.mpr ⟨h _ _ _ _,
    Runs.throughout_cons.mpr ⟨h _ _ _ _, Runs.throughout_nil⟩⟩

theorem emptyTiles_allowed : emptyTiles.Allowed (.placeCreature ⟨100, 100, 7⟩ 1) := by
  show (emptyTiles.map.map.getTile 100 100 7).isSome = true
  decide +kernel

theorem withPlayer_allowed : withPlayer.Allowed (.placeCreature ⟨100, 100, 7⟩ 0) := by
  show (withPlayer.map.map.getTile 100 100 7).isSome = true
  decide +kernel

/-- The npc is sent to the other tile, and keeps the player. -/
theorem npc_audience_teleport :
    ¬ ∀ (isPlayer : CreatureId → Bool) (npc : CreatureId), isPlayer npc = false →
      ∀ (client : CreatureId → Bool) (ops : List (Op Unit)),
        Runs.Throughout (step isPlayer npc) Allowed (start client) ops →
          (Runs.run (step isPlayer npc) (start client) ops).Attended isPlayer npc := by
  intro h
  have hfar : withNpc.Allowed (.moveCreature 0 ⟨1000, 1000, 7⟩) := by
    show (withNpc.map.map.getTile 1000 1000 7).isSome = true
    decide +kernel
  have hallowed : Runs.Throughout (step onePlayer 0) Allowed (start fun _ => true) (twoTiles
      ++ [.placeCreature ⟨100, 100, 7⟩ 1] ++ [.placeCreature ⟨100, 100, 7⟩ 0]
      ++ [.moveCreature 0 ⟨1000, 1000, 7⟩]) := by
    simp only [Runs.throughout_snoc, Runs.run_snoc]
    exact ⟨⟨⟨twoTiles_throughout fun _ _ _ _ => trivial, emptyTiles_allowed⟩,
      withPlayer_allowed⟩, hfar⟩
  have hattended := h onePlayer 0 rfl _ _ hallowed
  simp only [Runs.run_snoc] at hattended
  change afterTeleport.Attended onePlayer 0 at hattended
  have hpos : afterTeleport.map.tile 0 = some ⟨1000, 1000, 7⟩ := by decide +kernel
  have hin : afterTeleport.map.removed 0 = false := by decide +kernel
  have hmem : 1 ∈ afterTeleport.spectators := by decide +kernel
  have hunseen : afterTeleport.canSee 1 ⟨1000, 1000, 7⟩ = false := by decide +kernel
  rw [(hattended ⟨1000, 1000, 7⟩ hpos hin).mem 1] at hmem
  obtain ⟨-, hsee⟩ := hmem
  cases hunseen.symm.trans hsee

/-- Who is near when the npc comes, and the map that remembers it. -/
def nearNpc : List CreatureId × CachedMap Unit :=
  (withPlayer.map.placeCreature onePlayer ⟨100, 100, 7⟩ 0).getSpectators onePlayer []
    ⟨100, 100, 7⟩ sight

/-- They meet. -/
theorem npc_audience_meeting : withNpc.Attended onePlayer 0 := by
  have hplayer : emptyTiles.Meets onePlayer 0 (.placeCreature ⟨100, 100, 7⟩ 1) := by
    refine fun _ => ⟨fun hc => (by cases hc), fun _ pos hpos => ?_⟩
    have hnone : emptyTiles.map.tile 0 = none := by decide +kernel
    cases hnone.symm.trans hpos
  have hnpc : withPlayer.Meets onePlayer 0 (.placeCreature ⟨100, 100, 7⟩ 0) := by
    refine fun _ => ⟨fun _ p hp => ?_, fun hno => (by cases hno)⟩
    have hfound : (nearNpc.2.getSpectators onePlayer [] ⟨100, 100, 7⟩
        ⟨true, true, 0, 0, 0, 0⟩).1 = [1] := by
      decide +kernel
    obtain rfl : p = 1 := List.mem_singleton.mp (hfound ▸ hp)
    have htile : nearNpc.2.tile 1 = some ⟨100, 100, 7⟩ := by decide +kernel
    have hremoved : nearNpc.2.removed 1 = false := by decide +kernel
    have hsees : ({ withPlayer with map := nearNpc.2 } : Game Unit).canSee 1 ⟨100, 100, 7⟩
        = true := by
      decide +kernel
    have hplaced : (nearNpc.2.tile 1).isSome = true := by rw [htile]; rfl
    exact ⟨⟨rfl, hplaced, hremoved⟩, hsees⟩
  have hmeets : Runs.Throughout (step onePlayer 0)
      (fun g op => g.Allowed op ∧ g.Meets onePlayer 0 op) (start fun _ => true) (twoTiles
        ++ [.placeCreature ⟨100, 100, 7⟩ 1] ++ [.placeCreature ⟨100, 100, 7⟩ 0]) := by
    simp only [Runs.throughout_snoc, Runs.run_snoc]
    exact ⟨⟨twoTiles_throughout fun _ _ _ _ => ⟨trivial, trivial⟩, emptyTiles_allowed, hplayer⟩,
      withPlayer_allowed, hnpc⟩
  have hattended := npc_audience onePlayer 0 rfl (fun _ => true) _ hmeets
  simp only [Runs.run_snoc] at hattended
  exact hattended

end Game

end Bruxo.NpcAudience
