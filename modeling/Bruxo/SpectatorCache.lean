import Bruxo.SpectatorSearch

/-!
# The spectator caches

`Map::getSpectators` keeps what it finds for the default ranges over all floors in sight, by
the centre: `spectatorCache` the creatures, `playersSpectatorCache` the players alone. A
creature that comes to a tile or leaves one clears the first, a player both
(`Tile::addThing`, `Tile::internalAddThing`, `Tile::removeThing`).

What is kept is the result vector, with what the caller had in it. So the caches are right as
long as nobody fills them from a vector that was not empty.
-/

namespace Bruxo.Spectators

/-- `SpectatorVec::addSpectators` -/
def addSpectators (vec spectators : List CreatureId) : List CreatureId :=
  spectators.foldl (fun vec c => if c ∈ vec then vec else vec ++ [c]) vec

def maxViewport : Int := 11

structure CachedMap (α : Type) extends CreatureMap α where
  spectatorCache : Position → Option (List CreatureId)
  playersSpectatorCache : Position → Option (List CreatureId)

namespace CachedMap

open CreatureMap

variable {α : Type} (isPlayer : CreatureId → Bool) (s : CachedMap α)

/-! ## Queries -/

/-- The arguments of `getSpectators` behind the centre. -/
structure Query where
  multifloor : Bool
  onlyPlayers : Bool
  minRangeX : Int
  maxRangeX : Int
  minRangeY : Int
  maxRangeY : Int

/-- `minRangeZ` and `maxRangeZ` -/
def floors (centerPos : Position) (multifloor : Bool) : Int × Int :=
  let z : Int := centerPos.z.toNat
  if multifloor then
    if z > 7 then (max (z - 2) 0, min (z + 2) (mapMaxLayers - 1))
    else if z = 6 then (0, 8)
    else if z = 7 then (0, 9)
    else (0, 7)
  else (z, z)

/-- The ranges after the defaults are put in. -/
def Query.range (q : Query) (centerPos : Position) : Range where
  minX := if q.minRangeX = 0 then -maxViewport else -q.minRangeX
  maxX := if q.maxRangeX = 0 then maxViewport else q.maxRangeX
  minY := if q.minRangeY = 0 then -maxViewport else -q.minRangeY
  maxY := if q.maxRangeY = 0 then maxViewport else q.maxRangeY
  minZ := (floors centerPos q.multifloor).1
  maxZ := (floors centerPos q.multifloor).2

/-- Whether the caches are asked for an answer. -/
def Query.cacheable (q : Query) (centerPos : Position) : Bool :=
  let r := q.range centerPos
  r.minX = -maxViewport && r.maxX = maxViewport && r.minY = -maxViewport && r.maxY = maxViewport &&
    q.multifloor

/-- The answer of the caches. -/
def fromCache (spectators : List CreatureId) (centerPos : Position) (onlyPlayers : Bool) :
    Option (List CreatureId) :=
  match (if onlyPlayers then s.playersSpectatorCache centerPos else none) with
  | some cached =>
      some (if spectators ≠ [] then addSpectators spectators cached else cached)
  | none =>
      match s.spectatorCache centerPos with
      | some cached =>
          if onlyPlayers then some (spectators ++ cached.filter isPlayer)
          else some (if spectators ≠ [] then addSpectators spectators cached else cached)
      | none => none

def fill (centerPos : Position) (onlyPlayers : Bool) (spectators : List CreatureId) : CachedMap α :=
  if onlyPlayers then
    { s with playersSpectatorCache :=
        Function.update s.playersSpectatorCache centerPos (some spectators) }
  else { s with spectatorCache := Function.update s.spectatorCache centerPos (some spectators) }

/-- What a query gets from the caches, if it does. -/
def answered (spectators : List CreatureId) (centerPos : Position) (q : Query) :
    Option (List CreatureId) :=
  if q.cacheable centerPos then s.fromCache isPlayer spectators centerPos q.onlyPlayers else none

def getSpectators (spectators : List CreatureId) (centerPos : Position) (q : Query) :
    List CreatureId × CachedMap α :=
  if mapMaxLayers ≤ centerPos.z.toNat then (spectators, s)
  else
    match s.answered isPlayer spectators centerPos q with
    | some answer => (answer, s)
    | none =>
        let spectators :=
          s.getSpectatorsInternal centerPos (q.range centerPos) q.onlyPlayers spectators
        (spectators, if q.cacheable centerPos then s.fill centerPos q.onlyPlayers spectators else s)

/-! ## Creatures -/

def clearSpectatorCache : CachedMap α := { s with spectatorCache := fun _ => none }

def clearPlayersSpectatorCache : CachedMap α := { s with playersSpectatorCache := fun _ => none }

/-- What a tile clears when a creature comes or leaves. -/
def clearFor (c : CreatureId) : CachedMap α :=
  if isPlayer c then s.clearSpectatorCache.clearPlayersSpectatorCache else s.clearSpectatorCache

def placeCreature (dest : Position) (c : CreatureId) : CachedMap α :=
  if (s.tile c).isSome then s
  else { s.clearFor isPlayer c with
    toCreatureMap := s.toCreatureMap.placeCreature isPlayer dest c }

/-- The query for the spectators of a position that `moveCreature` makes. -/
def sight : Query := ⟨true, false, 0, 0, 0, 0⟩

def moveCreature (c : CreatureId) (newPos : Position) : CachedMap α :=
  match s.tile c with
  | none => s
  | some oldPos =>
      if c ∉ s.creatures oldPos then s
      else
        let s := (s.getSpectators isPlayer [] oldPos sight).2
        let s := (s.getSpectators isPlayer [] newPos sight).2
        { s.clearFor isPlayer c with
          toCreatureMap := s.toCreatureMap.moveCreature isPlayer c newPos }

def takeCreature (c : CreatureId) : CachedMap α :=
  if s.removed c then s
  else
    match s.tile c with
    | none => s
    | some pos =>
        let cleared := if c ∈ s.creatures pos then s.clearFor isPlayer c else s
        { cleared with toCreatureMap := s.toCreatureMap.takeCreature isPlayer c }

def setTile (x y : UInt16) (z : UInt8) (newTile : α) : CachedMap α :=
  { s with toCreatureMap := s.toCreatureMap.setTile x y z newTile }

inductive Op (α : Type) where
  | setTile (x y : UInt16) (z : UInt8) (newTile : α)
  | placeCreature (dest : Position) (c : CreatureId)
  | moveCreature (c : CreatureId) (newPos : Position)
  | takeCreature (c : CreatureId)
  | getSpectators (spectators : List CreatureId) (centerPos : Position) (q : Query)

def step (s : CachedMap α) : Op α → CachedMap α
  | .setTile x y z newTile => s.setTile x y z newTile
  | .placeCreature dest c => s.placeCreature isPlayer dest c
  | .moveCreature c newPos => s.moveCreature isPlayer c newPos
  | .takeCreature c => s.takeCreature isPlayer c
  | .getSpectators spectators centerPos q => (s.getSpectators isPlayer spectators centerPos q).2

/-- Creatures are set on tiles of the map. -/
def Allowed (s : CachedMap α) : Op α → Prop
  | .placeCreature dest _ => (s.map.getTile dest.x dest.y dest.z).isSome = true
  | .moveCreature _ newPos => (s.map.getTile newPos.x newPos.y newPos.z).isSome = true
  | _ => True

def empty : CachedMap α where
  toCreatureMap := .empty
  spectatorCache _ := none
  playersSpectatorCache _ := none

/-- The states that steps with a property lead to. -/
inductive Reachable (P : CachedMap α → Op α → Prop) : CachedMap α → Prop where
  | empty : Reachable P empty
  | step {s : CachedMap α} (op : Op α) : Reachable P s → P s op → Reachable P (s.step isPlayer op)

/-! ## Coherence -/

/-- The creatures are where the lists say, and what is kept is what a search would find. -/
structure Coherent (isPlayer : CreatureId → Bool) (s : CachedMap α) : Prop where
  placed : Placed isPlayer s.toCreatureMap
  all : ∀ pos v, s.spectatorCache pos = some v →
    Exact isPlayer s.toCreatureMap pos (sight.range pos) false v
  players : ∀ pos v, s.playersSpectatorCache pos = some v →
    Exact isPlayer s.toCreatureMap pos (sight.range pos) true v

section Steps

variable {isPlayer} {s : CachedMap α} {t : CreatureMap α} {c : CreatureId} {pos : Position}
  {range : Range} {onlyPlayers : Bool} {v : List CreatureId}

/-- A search depends on the creatures it asks for only. -/
theorem exact_congr {m : CreatureMap α} (h : Exact isPlayer m pos range onlyPlayers v)
    (hsame : ∀ p d, (onlyPlayers = true → isPlayer d = true) →
      (d ∈ t.creatures p ↔ d ∈ m.creatures p)) : Exact isPlayer t pos range onlyPlayers v := by
  refine ⟨h.nodup, fun d => (h.mem d).trans (and_congr_right fun hd => ?_)⟩
  exact exists_congr fun p => and_congr_left fun _ => (hsame p d hd).symm

theorem placeCreature_creatures {m : CreatureMap α} {d : CreatureId} {p : Position} (hd : d ≠ c) :
    d ∈ (m.placeCreature isPlayer pos c).creatures p ↔ d ∈ m.creatures p := by
  rw [CreatureMap.placeCreature]
  split
  · rfl
  · split
    · rfl
    · simp only [addCreature, addThing, Function.update_apply]
      split
      · next hp => rw [hp, List.mem_cons, or_iff_right hd]
      · rfl

theorem moveCreature_creatures {m : CreatureMap α} {d : CreatureId} {p : Position} (hd : d ≠ c) :
    d ∈ (m.moveCreature isPlayer c pos).creatures p ↔ d ∈ m.creatures p := by
  have hremoved : ∀ oldPos, d ∈ (m.removeThing oldPos c).creatures p ↔ d ∈ m.creatures p := by
    intro oldPos
    simp only [removeThing, Function.update_apply]
    split
    · next hp => rw [hp, List.mem_erase_of_ne hd]
    · rfl
  rw [CreatureMap.moveCreature]
  split
  · rfl
  · next oldPos _ =>
      split
      · rfl
      · split
        · next leaf newLeaf _ _ =>
            obtain ⟨_, _, _, hcreatures⟩ :=
              switchLeaf_frame isPlayer (m.removeThing oldPos c) leaf newLeaf c
            simp only [addThing, Function.update_apply, hcreatures]
            split
            · next hp => rw [List.mem_cons, or_iff_right hd, ← hp, hremoved]
            · exact hremoved oldPos
        · rfl

theorem takeCreature_creatures {m : CreatureMap α} {d : CreatureId} {p : Position} (hd : d ≠ c) :
    d ∈ (m.takeCreature isPlayer c).creatures p ↔ d ∈ m.creatures p := by
  rw [CreatureMap.takeCreature]
  split
  · rfl
  · split
    · rfl
    · split
      · rfl
      · simp only [removeThing, removeCreature, Function.update_apply]
        split
        · next hp => rw [hp, List.mem_erase_of_ne hd]
        · rfl

/-- Where only `c` changes its place, what is left in the caches is right. -/
theorem Coherent.clearFor (h : Coherent isPlayer s) (hplaced : Placed isPlayer t)
    (hsame : ∀ p d, d ≠ c → (d ∈ t.creatures p ↔ d ∈ s.creatures p)) :
    Coherent isPlayer { s.clearFor isPlayer c with toCreatureMap := t } := by
  refine ⟨hplaced, fun pos v hv => ?_, fun pos v hv => ?_⟩
  · simp only [CachedMap.clearFor] at hv
    split at hv <;> cases hv
  · simp only [CachedMap.clearFor] at hv
    split at hv
    · cases hv
    · next hc =>
        refine exact_congr (h.players pos v hv) fun p d hd => hsame p d ?_
        rintro rfl
        exact hc (hd rfl)

/-- A query keeps the creatures where they are. -/
theorem getSpectators_toCreatureMap {spectators : List CreatureId} {q : Query} :
    (s.getSpectators isPlayer spectators pos q).2.toCreatureMap = s.toCreatureMap := by
  rw [getSpectators]
  split
  · rfl
  · split
    · rfl
    · simp only
      split
      · rw [fill]
        split <;> rfl
      · rfl

theorem range_of_cacheable {q : Query} (h : q.cacheable pos = true) :
    q.range pos = sight.range pos := by
  simp only [Query.cacheable, Bool.and_eq_true, decide_eq_true_eq] at h
  obtain ⟨⟨⟨⟨hminX, hmaxX⟩, hminY⟩, hmaxY⟩, hfloors⟩ := h
  have hfields : q.range pos = ⟨(q.range pos).minX, (q.range pos).maxX, (q.range pos).minY,
    (q.range pos).maxY, (floors pos q.multifloor).1, (floors pos q.multifloor).2⟩ := rfl
  rw [hfields, hminX, hmaxX, hminY, hmaxY, hfloors]
  rfl

/-! ## Answers -/

theorem addSpectators_eq (hv : v.Nodup) (spectators : List CreatureId) :
    addSpectators spectators v = spectators ++ v.filter fun c => c ∉ spectators := by
  induction v generalizing spectators with
  | nil => rw [addSpectators, List.foldl_nil, List.filter_nil, List.append_nil]
  | cons c v ih =>
      obtain ⟨hc, hv⟩ := List.nodup_cons.mp hv
      have ih := ih hv
      simp only [addSpectators] at ih ⊢
      rw [List.foldl_cons]
      by_cases hmem : c ∈ spectators
      · rw [if_pos hmem, ih, List.filter_cons_of_neg (by simpa using hmem)]
      · rw [if_neg hmem, ih, List.filter_cons_of_pos (by simpa using hmem), List.append_assoc,
          List.singleton_append]
        refine congrArg (fun l => spectators ++ c :: l) (List.filter_congr fun d hd => ?_)
        have hne : d ≠ c := fun heq => hc (heq ▸ hd)
        simp only [List.mem_append, List.mem_singleton, hne, or_false]

/-- An answer for `found`: each creature is added once, and all are there. -/
structure Adds (spectators answer : List CreatureId) (found : CreatureId → Prop)
    (added : List CreatureId) : Prop where
  eq : answer = spectators ++ added
  nodup : added.Nodup
  mem : ∀ c, c ∈ answer ↔ c ∈ spectators ∨ found c

theorem adds_of_append {spectators : List CreatureId} {found : CreatureId → Prop}
    (hv : v.Nodup) (hmem : ∀ c, c ∈ v ↔ found c) :
    Adds spectators (spectators ++ v) found v :=
  ⟨rfl, hv, fun c => by rw [List.mem_append, hmem]⟩

theorem adds_of_addSpectators {spectators : List CreatureId} {found : CreatureId → Prop}
    (hv : v.Nodup) (hmem : ∀ c, c ∈ v ↔ found c) :
    Adds spectators (if spectators ≠ [] then addSpectators spectators v else v) found
      (v.filter fun c => c ∉ spectators) := by
  have heq : (if spectators ≠ [] then addSpectators spectators v else v) =
      spectators ++ v.filter fun c => c ∉ spectators := by
    split
    · exact addSpectators_eq hv spectators
    · next h =>
        rw [not_not] at h
        simp only [h, List.not_mem_nil, not_false_eq_true, decide_true, List.filter_true,
          List.nil_append]
  refine ⟨heq, hv.filter _, fun c => ?_⟩
  rw [heq, List.mem_append, List.mem_filter, hmem, decide_eq_true_eq]
  tauto

/-- A search without the caches, for the same arguments. -/
def uncached (s : CachedMap α) (centerPos : Position) (q : Query) : List CreatureId :=
  s.getSpectatorsInternal centerPos (q.range centerPos) q.onlyPlayers []

/-- The players are taken from the cache of all creatures. -/
def fromAll (s : CachedMap α) (centerPos : Position) (q : Query) : Prop :=
  q.onlyPlayers = true ∧ s.playersSpectatorCache centerPos = none

theorem uncached_exact (h : Placed isPlayer s.toCreatureMap) (centerPos : Position) (q : Query) :
    Exact isPlayer s.toCreatureMap centerPos (q.range centerPos) q.onlyPlayers
      (s.uncached centerPos q) := by
  obtain ⟨added, hadded, hexact⟩ := h.search centerPos (q.range centerPos) q.onlyPlayers []
  rw [uncached, hadded]
  exact hexact

theorem exact_mem {m : CreatureMap α} {w : List CreatureId}
    (hv : Exact isPlayer m pos range onlyPlayers v)
    (hw : Exact isPlayer m pos range onlyPlayers w) (c : CreatureId) : c ∈ v ↔ c ∈ w :=
  (hv.mem c).trans (hw.mem c).symm

/-- Of the cache of all creatures the players are what a search for players finds. -/
theorem filter_exact {m : CreatureMap α} (hv : Exact isPlayer m pos range false v) :
    Exact isPlayer m pos range true (v.filter isPlayer) := by
  refine ⟨hv.nodup.filter _, fun c => ?_⟩
  rw [List.mem_filter, hv.mem]
  simp only [Bool.false_eq_true, false_implies, true_and, true_implies]
  exact and_comm

/-- What the caches answer, and what is added twice with it. -/
theorem answered_adds (h : Coherent isPlayer s) {spectators answer : List CreatureId}
    {centerPos : Position} {q : Query}
    (hanswer : s.answered isPlayer spectators centerPos q = some answer) :
    ∃ added, Adds spectators answer (fun c => c ∈ s.uncached centerPos q) added ∧
      ((∀ c ∈ added, c ∉ spectators) ↔
        ¬ (s.fromAll centerPos q ∧ ∃ c ∈ spectators, c ∈ s.uncached centerPos q)) := by
  rw [answered] at hanswer
  split at hanswer
  · next hcacheable =>
      have hexact := uncached_exact h.placed centerPos q
      rw [range_of_cacheable hcacheable] at hexact
      have added : ∀ {v : List CreatureId},
          Exact isPlayer s.toCreatureMap centerPos (sight.range centerPos) q.onlyPlayers v →
          answer = (if spectators ≠ [] then addSpectators spectators v else v) →
          ¬ s.fromAll centerPos q →
          ∃ added, Adds spectators answer (fun c => c ∈ s.uncached centerPos q) added ∧
            ((∀ c ∈ added, c ∉ spectators) ↔
              ¬ (s.fromAll centerPos q ∧ ∃ c ∈ spectators, c ∈ s.uncached centerPos q)) := by
        rintro v hv rfl hnot
        refine ⟨_, adds_of_addSpectators hv.nodup (exact_mem hv hexact), ?_⟩
        refine iff_of_true (fun c hc => ?_) fun hall => hnot hall.1
        exact of_decide_eq_true (List.mem_filter.mp hc).2
      rw [fromCache] at hanswer
      split at hanswer
      · next v hv =>
          split at hv
          · next honly =>
              have hplayers := h.players centerPos v hv
              rw [← honly] at hplayers
              refine added hplayers (Option.some.inj hanswer).symm fun hall => ?_
              cases hv.symm.trans hall.2
          · cases hv
      · next hnone =>
          split at hanswer
          · next v hv =>
              split at hanswer
              · next honly =>
                  rw [if_pos honly] at hnone
                  have hplayers := filter_exact (h.all centerPos v hv)
                  rw [← honly] at hplayers
                  cases hanswer
                  refine ⟨_, adds_of_append hplayers.nodup (exact_mem hplayers hexact), ?_⟩
                  simp only [exact_mem hplayers hexact]
                  constructor
                  · rintro hdisj ⟨_, c, hc, hfound⟩
                    exact hdisj c hfound hc
                  · intro hnot c hfound hc
                    exact hnot ⟨⟨honly, hnone⟩, c, hc, hfound⟩
              · next honly =>
                  have hall := h.all centerPos v hv
                  rw [← Bool.eq_false_iff.mpr honly] at hall
                  exact added hall (Option.some.inj hanswer).symm fun hfrom => honly hfrom.1
          · cases hanswer
  · cases hanswer

/-! ## What a step keeps -/

/-- What a cache has after it was filled. -/
theorem cached_fill {cache : Position → Option (List CreatureId)} {p : Position}
    {v w : List CreatureId} (h : Function.update cache pos (some w) p = some v) :
    (p = pos ∧ v = w) ∨ cache p = some v := by
  rw [Function.update_apply] at h
  split at h
  · next hp => exact .inl ⟨hp, (Option.some.inj h).symm⟩
  · exact .inr h

theorem Coherent.fill {w : List CreatureId} (h : Coherent isPlayer s)
    (hw : Exact isPlayer s.toCreatureMap pos (sight.range pos) onlyPlayers w) :
    Coherent isPlayer (s.fill pos onlyPlayers w) := by
  rw [CachedMap.fill]
  cases onlyPlayers with
  | true =>
      refine ⟨h.placed, h.all, fun p v hv => ?_⟩
      rcases cached_fill hv with ⟨rfl, rfl⟩ | hold
      · exact hw
      · exact h.players p v hold
  | false =>
      refine ⟨h.placed, fun p v hv => ?_, h.players⟩
      rcases cached_fill hv with ⟨rfl, rfl⟩ | hold
      · exact hw
      · exact h.all p v hold

/-- A query that fills a cache is given an empty vector. -/
def FillsEmpty (isPlayer : CreatureId → Bool) (s : CachedMap α) : Op α → Prop
  | .getSpectators spectators centerPos q =>
      centerPos.z.toNat < mapMaxLayers → q.cacheable centerPos = true →
        s.answered isPlayer spectators centerPos q = none → spectators = []
  | _ => True

theorem Coherent.getSpectators (h : Coherent isPlayer s) {spectators : List CreatureId}
    {q : Query} (hempty : s.FillsEmpty isPlayer (.getSpectators spectators pos q)) :
    Coherent isPlayer (s.getSpectators isPlayer spectators pos q).2 := by
  rw [CachedMap.getSpectators]
  split
  · exact h
  · next hz =>
      split
      · exact h
      · next hnone =>
          simp only
          split
          · next hcacheable =>
              rw [hempty (Nat.lt_of_not_le hz) hcacheable hnone]
              have hexact := uncached_exact h.placed pos q
              rw [range_of_cacheable hcacheable] at hexact
              exact h.fill hexact
          · exact h

theorem Coherent.look (h : Coherent isPlayer s) (pos : Position) :
    Coherent isPlayer (s.getSpectators isPlayer [] pos sight).2 :=
  h.getSpectators fun _ _ _ => rfl

theorem Coherent.placeCreature (h : Coherent isPlayer s)
    (hdest : (s.map.getTile pos.x pos.y pos.z).isSome = true) :
    Coherent isPlayer (s.placeCreature isPlayer pos c) := by
  rw [CachedMap.placeCreature]
  split
  · exact h
  · obtain ⟨leaf, hleaf⟩ := getLeaf_of_getTile hdest
    exact h.clearFor (h.placed.placeCreature hleaf) fun p d hd => placeCreature_creatures hd

theorem Coherent.moveCreature (h : Coherent isPlayer s)
    (hnew : (s.map.getTile pos.x pos.y pos.z).isSome = true) :
    Coherent isPlayer (s.moveCreature isPlayer c pos) := by
  rw [CachedMap.moveCreature]
  split
  · exact h
  · next oldPos _ =>
      split
      · exact h
      · obtain ⟨leaf, hleaf⟩ := getLeaf_of_getTile hnew
        have hboth := (h.look oldPos).look pos
        have hleaf' : ((s.getSpectators isPlayer [] oldPos sight).2.getSpectators isPlayer []
            pos sight).2.map.getLeaf pos.x pos.y = some leaf := by
          rw [getSpectators_toCreatureMap, getSpectators_toCreatureMap]
          exact hleaf
        exact hboth.clearFor (hboth.placed.moveCreature hleaf') fun p d hd =>
          moveCreature_creatures hd

theorem Coherent.takeCreature (h : Coherent isPlayer s) :
    Coherent isPlayer (s.takeCreature isPlayer c) := by
  rw [CachedMap.takeCreature]
  split
  · exact h
  · next hremoved =>
      split
      · exact h
      · next oldPos htile =>
          rw [Bool.not_eq_true] at hremoved
          have hc : c ∈ s.creatures oldPos := (h.placed.onTile oldPos c).mpr ⟨htile, hremoved⟩
          rw [if_pos hc]
          exact h.clearFor h.placed.takeCreature fun p d hd => takeCreature_creatures hd

theorem Coherent.step {op : Op α} (h : Coherent isPlayer s) (hallowed : s.Allowed op)
    (hempty : s.FillsEmpty isPlayer op) : Coherent isPlayer (s.step isPlayer op) := by
  cases op with
  | setTile x y z newTile =>
      exact ⟨h.placed.setTile, fun pos v hv => ⟨(h.all pos v hv).nodup, (h.all pos v hv).mem⟩,
        fun pos v hv => ⟨(h.players pos v hv).nodup, (h.players pos v hv).mem⟩⟩
  | placeCreature dest c => exact h.placeCreature hallowed
  | moveCreature c newPos => exact h.moveCreature hallowed
  | takeCreature c => exact h.takeCreature
  | getSpectators spectators centerPos q => exact h.getSpectators hempty

theorem empty_coherent : Coherent isPlayer (empty : CachedMap α) :=
  ⟨empty_placed isPlayer, nofun, nofun⟩

theorem Reachable.coherent
    (h : Reachable isPlayer (fun s op => s.Allowed op ∧ s.FillsEmpty isPlayer op) s) :
    Coherent isPlayer s := by
  induction h with
  | empty => exact empty_coherent
  | step op _ hop ih => exact ih.step hop.1 hop.2

end Steps

/-- In a run that fills the caches from empty vectors only, a call that the caches answer adds
every creature of an uncached search once and no other one; it adds none that its caller had
in the vector, unless it takes the players from the cache of all creatures and the caller had
one of them. -/
theorem spectator_cache {s : CachedMap α}
    (h : Reachable isPlayer (fun s op => s.Allowed op ∧ s.FillsEmpty isPlayer op) s)
    {spectators : List CreatureId} {centerPos : Position} {q : Query}
    (hz : centerPos.z.toNat < mapMaxLayers)
    (hanswer : (s.answered isPlayer spectators centerPos q).isSome = true) :
    ∃ added, (s.getSpectators isPlayer spectators centerPos q).1 = spectators ++ added ∧
      added.Nodup ∧
      (∀ c, c ∈ spectators ++ added ↔ c ∈ spectators ∨
        c ∈ s.getSpectatorsInternal centerPos (q.range centerPos) q.onlyPlayers []) ∧
      ((∀ c ∈ added, c ∉ spectators) ↔
        ¬ (s.fromAll centerPos q ∧ ∃ c ∈ spectators,
          c ∈ s.getSpectatorsInternal centerPos (q.range centerPos) q.onlyPlayers [])) := by
  obtain ⟨answer, hanswer⟩ := Option.isSome_iff_exists.mp hanswer
  obtain ⟨added, hadds, htwice⟩ := answered_adds h.coherent hanswer
  have heq := hadds.eq
  subst heq
  refine ⟨added, ?_, hadds.nodup, hadds.mem, htwice⟩
  rw [getSpectators, if_neg (Nat.not_le_of_lt hz), hanswer]

/-! ## A vector that is not empty -/

/-- A tile, and a player on it. -/
def onePlayer : CachedMap Unit :=
  ((empty.step (fun _ => true) (.setTile 100 100 7 ())).step (fun _ => true)
    (.placeCreature ⟨100, 100, 7⟩ 1))

theorem onePlayer_reachable {P : CachedMap Unit → Op Unit → Prop}
    (hP : ∀ s op, s.Allowed op → s.FillsEmpty (fun _ => true) op → P s op) :
    Reachable (fun _ => true) P onePlayer := by
  refine .step (.placeCreature ⟨100, 100, 7⟩ 1) (.step (.setTile 100 100 7 ()) .empty ?_) ?_
  · exact hP _ _ trivial trivial
  · refine hP _ _ ?_ trivial
    show ((empty.step (fun _ => true) (.setTile 100 100 7 ())).map.getTile _ _ _).isSome = true
    decide +kernel

/-- The second query for the creatures in sight of the player is answered from the cache. -/
theorem spectator_cache_one :
    let s := onePlayer.step (fun _ => true) (.getSpectators [] ⟨101, 100, 7⟩ sight)
    s.spectatorCache ⟨101, 100, 7⟩ = some [1] ∧
      ∃ added, (s.getSpectators (fun _ => true) [5] ⟨101, 100, 7⟩ sight).1 = [5] ++ added ∧
        added.Nodup ∧
        (∀ c, c ∈ [5] ++ added ↔ c ∈ [5] ∨
          c ∈ s.getSpectatorsInternal ⟨101, 100, 7⟩ (sight.range ⟨101, 100, 7⟩) false []) ∧
        ((∀ c ∈ added, c ∉ [5]) ↔
          ¬ (s.fromAll ⟨101, 100, 7⟩ sight ∧ ∃ c ∈ [5],
            c ∈ s.getSpectatorsInternal ⟨101, 100, 7⟩ (sight.range ⟨101, 100, 7⟩) false [])) := by
  refine ⟨by decide +kernel, spectator_cache (fun _ => true) (.step
    (.getSpectators [] ⟨101, 100, 7⟩ sight) (onePlayer_reachable
    fun _ _ hallowed hempty => ⟨hallowed, hempty⟩) ⟨trivial, fun _ _ _ => rfl⟩)
    (by decide) (by decide +kernel)⟩

/-- What a caller had in the vector comes out of the cache for the next one, who had nothing. -/
theorem spectator_cache_fails :
    ¬ ∀ (s : CachedMap Unit) (spectators : List CreatureId) (centerPos : Position) (q : Query),
      Reachable (fun _ => true) (fun s op => s.Allowed op) s →
      centerPos.z.toNat < mapMaxLayers →
      (s.answered (fun _ => true) spectators centerPos q).isSome = true →
      ∀ c, c ∈ (s.getSpectators (fun _ => true) spectators centerPos q).1 →
        c ∈ spectators ∨ c ∈ s.getSpectatorsInternal centerPos (q.range centerPos) q.onlyPlayers []
    := by
  intro h
  have hreach : Reachable (fun _ => true) (fun s op => s.Allowed op)
      (onePlayer.step (fun _ => true) (.getSpectators [5] ⟨101, 100, 7⟩ sight)) :=
    .step (.getSpectators [5] ⟨101, 100, 7⟩ sight)
      (onePlayer_reachable fun _ _ hallowed _ => hallowed) trivial
  have hfive := h _ [] ⟨101, 100, 7⟩ sight hreach (by decide) (by decide +kernel) 5
    (by decide +kernel)
  exact absurd hfive (by decide +kernel)

end CachedMap

end Bruxo.Spectators
