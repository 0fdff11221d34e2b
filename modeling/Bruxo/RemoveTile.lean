import Bruxo.Lib.Sweep
import Bruxo.Position
import Bruxo.TileStack
import Mathlib.Logic.Function.Basic

/-!
# The removal of a tile

`Map::removeTile` sends the players of a tile to their temples, removes the other creatures with
`Game::removeCreature`, the items with `Game::internalRemoveItem`, and takes the ground away.
The creatures are gone through by indices from the last one on and the items from the first one on,
both in the vectors that the removals shorten; to read behind the end of one is not defined, and the
outcome is none.

A summon that is removed also leaves the list of its master, and the scripts that hear of the moves
and removals do nothing to the tile.
-/

namespace Bruxo.RemoveTile

open TileStack Sweep

/-- What is fixed while a tile is removed. -/
structure World where
  items : UInt16 → ItemType
  canRemove : ItemId → Bool
  isPlayer : CreatureId → Bool
  summons : CreatureId → List CreatureId
  summons_monster : ∀ c, ∀ d ∈ summons c, isPlayer d = false
  /-- `player->getTown()->getTemplePosition()` -/
  temple : CreatureId → Position
  /-- `map.getTile`; with `FLAG_NOLIMIT` a tile takes any creature. -/
  hasTile : Position → Bool
  /-- The squares to which teleports take the creature on when it is put on the tile of its
  temple. -/
  carriedOn : CreatureId → List Position

structure State where
  tile : Tile
  /-- The creatures that were not removed. -/
  live : Finset CreatureId
  position : CreatureId → Position
  /-- The items that were removed, the last one first. -/
  removed : List ItemId

variable (w : World) (here : Position)

namespace State

/-- `Game::removeCreature` of one creature after the other; behind each come its summons. -/
def removeCreatures : List CreatureId → State → State
  | [], s => s
  | c :: stack, s =>
      if c ∈ s.live then
        removeCreatures (w.summons c ++ stack)
          { s with live := s.live.erase c, tile := s.tile.removeThing w.items (.creature c) 0 }
      else
        removeCreatures stack s
termination_by stack s => (s.live.card, stack.length)
decreasing_by
  · next h => exact Prod.Lex.left _ _ (Finset.card_erase_lt_of_mem h)
  · exact Prod.Lex.right _ (Nat.lt_succ_self _)

/-- More than two floors or thirty squares away. -/
def outOfRange (newPos pos : Position) : Bool :=
  2 < ((newPos.z.toNat : Int) - pos.z.toNat).natAbs ||
    30 < max ((newPos.x.toNat : Int) - pos.x.toNat).natAbs ((newPos.y.toNat : Int) - pos.y.toNat).natAbs

/-- `Map::moveCreature`, with the summons that `Creature::onCreatureMove` removes. -/
def moveCreature (c : CreatureId) (s : State) (newPos : Position) : State :=
  let tile := s.tile.removeThing w.items (.creature c) 0
  let s : State :=
    { s with
      tile := if newPos = here then tile.addThing w.items (.creature c) else tile
      position := Function.update s.position c newPos }
  let despawnList := ((w.summons c).filter fun d => outOfRange newPos (s.position d)).reverse
  s.removeCreatures w despawnList

/-- `Game::internalTeleport` of a player to its temple, and where teleports take it from there. -/
def internalTeleport (s : State) (c : CreatureId) : State :=
  if w.temple c = s.position c then
    s
  else if c ∉ s.live then
    s
  else if ¬ w.hasTile (w.temple c) then
    s
  else
    (w.temple c :: w.carriedOn c).foldl (moveCreature w here c) s

def internalRemoveItem (s : State) (i : ItemId) : State :=
  let count := (s.tile.thing i).data.count.toNat
  if s.tile.getThingIndex w.items (.item i) = -1 ∨ count = 0 then
    s
  else if ¬ w.canRemove i then
    s
  else
    { s with tile := s.tile.removeThing w.items (.item i) count, removed := i :: s.removed }

/-- What is done with a creature of the tile. -/
def takeAway (s : State) (c : CreatureId) : State :=
  if w.isPlayer c then s.internalTeleport w here c else s.removeCreatures w [c]

/-- The loop over the creatures, from the one below an index on. -/
def removeCreaturesFrom : Nat → State → Option State
  | 0, s => some s
  | i + 1, s =>
      match s.tile.creatures[i]? with
      | none => none
      | some c => removeCreaturesFrom i (s.takeAway w here c)

/-- The loop over the items, from one on, with the number of those up to the end. -/
def removeItemsFrom (it : Nat) : Nat → State → Option State
  | 0, s => some s
  | n + 1, s =>
      match s.tile.items[it]? with
      | none => none
      | some i => removeItemsFrom (it + 1) n (s.internalRemoveItem w i)

def removeGround (s : State) : State :=
  match s.tile.ground with
  | none => s
  | some ground =>
      let s := s.internalRemoveItem w ground
      { s with tile := { s.tile with ground := none } }

def removeTile (s : State) : Option State :=
  match s.removeCreaturesFrom w here s.tile.creatures.length with
  | none => none
  | some s =>
      match s.removeItemsFrom w 0 s.tile.items.length with
      | none => none
      | some s => some (s.removeGround w)

section Removal

variable {w} {s₀ s : State} {stack : List CreatureId} {c d : CreatureId}

theorem live_removeCreatures (stack : List CreatureId) (s : State) :
    (s.removeCreatures w stack).live = sweep w.summons stack s.live := by
  induction stack, s using removeCreatures.induct w with
  | case1 s => rw [removeCreatures, sweep]
  | case2 c stack s hc ih => rw [removeCreatures, sweep, if_pos hc, if_pos hc, ih]
  | case3 c stack s hc ih => rw [removeCreatures, sweep, if_neg hc, if_neg hc, ih]

/-- Of the rest only the creatures of the tile change. -/
theorem rest_removeCreatures (stack : List CreatureId) (s : State) :
    (s.removeCreatures w stack).tile =
        { s.tile with creatures := (s.removeCreatures w stack).tile.creatures } ∧
      (s.removeCreatures w stack).position = s.position ∧
      (s.removeCreatures w stack).removed = s.removed := by
  induction stack, s using removeCreatures.induct w with
  | case1 s =>
      rw [removeCreatures]
      exact ⟨rfl, rfl, rfl⟩
  | case2 c stack s hc ih =>
      rw [removeCreatures, if_pos hc]
      exact ih
  | case3 c stack s hc ih =>
      rw [removeCreatures, if_neg hc]
      exact ih

/-- The creatures of the tile that are left are those that are not removed. -/
theorem creatures_removeCreatures (stack : List CreatureId) (hnodup : s.tile.creatures.Nodup)
    (hlive : ∀ c ∈ s.tile.creatures, c ∈ s.live) :
    (s.removeCreatures w stack).tile.creatures =
      s.tile.creatures.filter fun d => d ∈ sweep w.summons stack s.live := by
  induction stack, s using removeCreatures.induct w with
  | case1 s =>
      rw [removeCreatures, sweep]
      exact (List.filter_eq_self.mpr fun d hd => decide_eq_true (hlive d hd)).symm
  | case2 c stack s hc ih =>
      have herase : (s.tile.removeThing w.items (.creature c) 0).creatures =
          s.tile.creatures.erase c := rfl
      rw [removeCreatures, if_pos hc, ih (hnodup.erase c)]
      · rw [sweep, if_pos hc]
        dsimp only
        rw [herase, hnodup.erase_eq_filter, List.filter_filter]
        refine List.filter_congr fun d _ => ?_
        by_cases hd : d ∈ sweep w.summons (w.summons c ++ stack) (s.live.erase c)
        · have hne := (Finset.mem_erase.mp (sweep_subset _ _ hd)).1
          simp [hd, hne]
        · simp [hd]
      · intro d hd
        have hd : d ∈ s.tile.creatures.erase c := hd
        exact Finset.mem_erase.mpr ⟨(hnodup.mem_erase_iff.mp hd).1, hlive d (hnodup.mem_erase_iff.mp hd).2⟩
  | case3 c stack s hc ih => rw [removeCreatures, sweep, if_neg hc, if_neg hc, ih hnodup hlive]

/-- A player is not removed with another creature. -/
theorem player_mem_sweep {live : Finset CreatureId} (hplayer : w.isPlayer d = true)
    (hstack : d ∉ stack) (hd : d ∈ live) : d ∈ sweep w.summons stack live := by
  by_contra hnot
  obtain ⟨c, hc, -, hbelow⟩ := below_of_swept (Finset.Subset.refl live) hd hnot
  rcases Relation.ReflTransGen.cases_tail hbelow with rfl | ⟨e, -, hchild⟩
  · exact hstack hc
  · rw [w.summons_monster e d hchild.1] at hplayer
    cases hplayer

end Removal

/-! ## The creatures -/

/-- What holds while the creatures are removed, of the state and the one in the beginning. -/
structure Run (s₀ s : State) : Prop where
  tile : s.tile = { s₀.tile with creatures := s.tile.creatures }
  removed : s.removed = s₀.removed
  live : s.live ⊆ s₀.live
  closed : Closed w.summons s₀.live [] s.live
  nodup : s.tile.creatures.Nodup
  creatures : ∀ c ∈ s.tile.creatures, c ∈ s.live
  position : ∀ c, w.isPlayer c = false → s.position c = s₀.position c

/-- The creature is removed when the summons of another one are that are out of range of a
position. -/
def Despawns (s₀ : State) (c : CreatureId) (newPos : Position) (d : CreatureId) : Prop :=
  ∃ summon ∈ w.summons c, outOfRange newPos (s₀.position summon) = true ∧ summon ∈ s₀.live ∧
    Below w.summons s₀.live summon d

/-- What moves of a player to one position after the other do, up to the last one. -/
structure Carried (s₀ s s' : State) (c : CreatureId) (stops : List Position) (last : Position) :
    Prop where
  run : Run w s₀ s'
  live : s'.live ⊆ s.live
  players : ∀ d, w.isPlayer d = true → d ∈ s.live → d ∈ s'.live
  position : s'.position = Function.update s.position c last
  creatures : s'.tile.creatures = (if last = here then [c] else []) ++
    (s.tile.creatures.erase c).filter fun d => d ∈ s'.live
  despawned : ∀ d ∈ s.live, d ∉ s'.live ↔ ∃ newPos ∈ stops, Despawns w s₀ c newPos d

section Runs

variable {w here} {s₀ s : State} {stack : List CreatureId} {c d : CreatureId}

theorem Run.removeCreatures (h : Run w s₀ s) (stack : List CreatureId) :
    Run w s₀ (s.removeCreatures w stack) := by
  obtain ⟨htile, hposition, hremoved⟩ := rest_removeCreatures (w := w) stack s
  have hcreatures := creatures_removeCreatures (w := w) stack h.nodup h.creatures
  have hclosed : Closed w.summons s₀.live stack s.live := fun a ha hnot e hchild he =>
    absurd (h.closed a ha hnot e hchild he) List.not_mem_nil
  refine ⟨?_, hremoved.trans h.removed, ?_, ?_, ?_, fun d hd => ?_, fun d hd => ?_⟩
  · rw [htile, h.tile]
  · rw [live_removeCreatures]
    exact (sweep_subset _ _).trans h.live
  · rw [live_removeCreatures]
    exact (closed_sweep hclosed).1
  · rw [hcreatures]
    exact h.nodup.filter _
  · rw [hcreatures] at hd
    rw [live_removeCreatures]
    exact of_decide_eq_true (List.mem_filter.mp hd).2
  · rw [hposition]
    exact h.position d hd

/-- A player is taken off the tile, and put on it again if that is where the player goes. -/
theorem Run.relocate {s₁ : State} {newPos : Position} (h : Run w s₀ s)
    (hplayer : w.isPlayer c = true) (hc : c ∈ s.live)
    (htile : s₁.tile = { s.tile with
      creatures := (if newPos = here then [c] else []) ++ s.tile.creatures.erase c })
    (hposition : s₁.position = Function.update s.position c newPos) (hlive : s₁.live = s.live)
    (hremoved : s₁.removed = s.removed) : Run w s₀ s₁ := by
  have hmem : ∀ d ∈ s₁.tile.creatures, d = c ∨ d ∈ s.tile.creatures.erase c := by
    intro d hd
    rw [htile] at hd
    rcases List.mem_append.mp hd with hd | hd
    · split at hd
      · exact Or.inl (List.mem_singleton.mp hd)
      · cases hd
    · exact Or.inr hd
  refine ⟨?_, hremoved.trans h.removed, hlive ▸ h.live, hlive ▸ h.closed, ?_, fun d hd => ?_,
    fun d hd => ?_⟩
  · rw [htile, h.tile]
  · rw [htile]
    dsimp only
    split
    · exact List.nodup_cons.mpr ⟨h.nodup.not_mem_erase, h.nodup.erase c⟩
    · exact h.nodup.erase c
  · rw [hlive]
    rcases hmem d hd with rfl | hd
    · exact hc
    · exact h.creatures d (List.mem_of_mem_erase hd)
  · have hne : d ≠ c := by
      rintro rfl
      rw [hd] at hplayer
      cases hplayer
    rw [hposition, Function.update_of_ne hne]
    exact h.position d hd

theorem Run.moveCreature (h : Run w s₀ s) (hplayer : w.isPlayer c = true) (hc : c ∈ s.live)
    (newPos : Position) :
    Carried w here s₀ s (moveCreature w here c s newPos) c [newPos] newPos := by
  obtain ⟨s', hdef⟩ : ∃ s', s' = State.moveCreature w here c s newPos := ⟨_, rfl⟩
  rw [← hdef]
  obtain ⟨s₁, hs₁, hcreatures₁⟩ : ∃ s₁ : State,
      s₁ = { s with
        tile := if newPos = here then
            (s.tile.removeThing w.items (.creature c) 0).addThing w.items (.creature c)
          else
            s.tile.removeThing w.items (.creature c) 0
        position := Function.update s.position c newPos } ∧
      s₁.tile = { s.tile with
        creatures := (if newPos = here then [c] else []) ++ s.tile.creatures.erase c } := by
    refine ⟨_, rfl, ?_⟩
    dsimp only
    split <;> rfl
  have hlive : s₁.live = s.live := by rw [hs₁]
  have hposition : s₁.position = Function.update s.position c newPos := by rw [hs₁]
  have hrun₁ : Run w s₀ s₁ := h.relocate hplayer hc hcreatures₁ hposition hlive (by rw [hs₁])
  have hs' : s' = s₁.removeCreatures w
      ((w.summons c).filter fun d => outOfRange newPos (s₁.position d)).reverse := by
    rw [hdef, hs₁]
    rfl
  have hlive' : s'.live = sweep w.summons
      ((w.summons c).filter fun d => outOfRange newPos (s₁.position d)).reverse s.live := by
    rw [hs', live_removeCreatures, hlive]
  have hstack : ∀ d ∈ ((w.summons c).filter fun d => outOfRange newPos (s₁.position d)).reverse,
      w.isPlayer d = false := by
    intro d hd
    exact w.summons_monster c d (List.mem_of_mem_filter (List.mem_reverse.mp hd))
  have hplayers : ∀ d, w.isPlayer d = true → d ∈ s.live → d ∈ s'.live := by
    intro d hd hin
    rw [hlive']
    refine player_mem_sweep hd (fun hmem => ?_) hin
    rw [hstack d hmem] at hd
    cases hd
  refine ⟨hs' ▸ hrun₁.removeCreatures _, ?_, hplayers, ?_, ?_, fun d hd => ?_⟩
  · rw [hlive']
    exact sweep_subset _ _
  · rw [hs', (rest_removeCreatures _ s₁).2.1, hposition]
  · have hcreatures := creatures_removeCreatures (w := w)
      ((w.summons c).filter fun d => outOfRange newPos (s₁.position d)).reverse hrun₁.nodup
      hrun₁.creatures
    rw [hlive, ← hlive', ← hs', hcreatures₁, List.filter_append] at hcreatures
    rw [hcreatures]
    split
    · rw [List.filter_singleton, decide_eq_true (hplayers c hplayer hc), cond_true]
    · rw [List.filter_nil]
  · rw [hlive', not_mem_sweep_iff h.live h.closed hd]
    constructor
    · rintro ⟨e, he, hin, hbelow⟩
      obtain ⟨hsummon, hout⟩ := List.mem_filter.mp (List.mem_reverse.mp he)
      rw [hrun₁.position e (w.summons_monster c e hsummon)] at hout
      exact ⟨newPos, List.mem_singleton_self newPos, e, hsummon, hout, hin, hbelow⟩
    · rintro ⟨p, hp, e, hsummon, hout, hin, hbelow⟩
      obtain rfl := List.mem_singleton.mp hp
      refine ⟨e, List.mem_reverse.mpr (List.mem_filter.mpr ⟨hsummon, ?_⟩), hin, hbelow⟩
      rw [hrun₁.position e (w.summons_monster c e hsummon)]
      exact hout

theorem Carried.trans {s₁ s' : State} {stops stops' : List Position} {stop last : Position}
    (h : Carried w here s₀ s s₁ c stops stop) (hnodup : s.tile.creatures.Nodup)
    (h' : Carried w here s₀ s₁ s' c stops' last) :
    Carried w here s₀ s s' c (stops ++ stops') last := by
  have herase : s₁.tile.creatures.erase c =
      (s.tile.creatures.erase c).filter fun d => d ∈ s₁.live := by
    have hnot : c ∉ (s.tile.creatures.erase c).filter fun d => d ∈ s₁.live :=
      fun hc => hnodup.not_mem_erase (List.mem_of_mem_filter hc)
    rw [h.creatures]
    split
    · rw [List.singleton_append, List.erase_cons_head]
    · rw [List.nil_append, List.erase_of_not_mem hnot]
  refine ⟨h'.run, h'.live.trans h.live, fun d hd hin => h'.players d hd (h.players d hd hin), ?_, ?_,
    fun d hd => ?_⟩
  · rw [h'.position, h.position, Function.update_idem]
  · rw [h'.creatures, herase, List.filter_filter]
    refine congrArg (_ ++ ·) (List.filter_congr fun d _ => ?_)
    by_cases hd : d ∈ s'.live
    · simp [hd, h'.live hd]
    · simp [hd]
  · have hmem : (∃ newPos ∈ stops ++ stops', Despawns w s₀ c newPos d) ↔
        (∃ newPos ∈ stops, Despawns w s₀ c newPos d) ∨
          ∃ newPos ∈ stops', Despawns w s₀ c newPos d := by
      simp only [List.mem_append, or_and_right, exists_or]
    rw [hmem, ← h.despawned d hd]
    constructor
    · intro hnot
      by_cases hin : d ∈ s₁.live
      · exact Or.inr ((h'.despawned d hin).mp hnot)
      · exact Or.inl hin
    · rintro (hnot | hdespawn) hin
      · exact hnot (h'.live hin)
      · exact (h'.despawned d (h'.live hin)).mpr hdespawn hin

theorem Run.carry (hplayer : w.isPlayer c = true) {last : Position} :
    ∀ (stops : List Position) (s : State), stops.getLast? = some last → Run w s₀ s → c ∈ s.live →
      Carried w here s₀ s (stops.foldl (State.moveCreature w here c) s) c stops last
  | [], _, hlast, _, _ => by cases hlast
  | [p], s, hlast, h, hc => by
      obtain rfl := Option.some.inj hlast
      exact h.moveCreature hplayer hc p
  | p :: q :: stops, s, hlast, h, hc => by
      have hfirst : Carried w here s₀ s (State.moveCreature w here c s p) c [p] p :=
        h.moveCreature hplayer hc p
      have hrest := Run.carry hplayer (q :: stops) (State.moveCreature w here c s p)
        (by rwa [List.getLast?_cons_cons] at hlast) hfirst.run (hfirst.players c hplayer hc)
      exact hfirst.trans h.nodup hrest

end Runs

/-- The squares that a player comes to on the way to its temple and from there on. -/
def stops (c : CreatureId) : List Position := w.temple c :: w.carriedOn c

/-- A player that is sent to its temple leaves the tile and comes to stand there. -/
def Leaves (c : CreatureId) : Prop :=
  w.temple c ≠ here ∧ w.hasTile (w.temple c) = true ∧ (stops w c).getLast? = some (w.temple c)

/-- The removal of a creature of the tile, or what its way to the temple leaves behind, removes
another one. -/
def Takes (s₀ : State) (c d : CreatureId) : Prop :=
  if w.isPlayer c = true then ∃ newPos ∈ stops w c, Despawns w s₀ c newPos d
  else Below w.summons s₀.live c d

/-- A player is still on the tile, or stands where it was taken. -/
def Placed (s : State) (p : CreatureId) : Prop :=
  p ∈ s.tile.creatures ∧ s.position p = here ∨
    p ∉ s.tile.creatures ∧ w.temple p ≠ here ∧ w.hasTile (w.temple p) = true ∧
      s.position p ≠ here ∧ (stops w p).getLast? = some (s.position p)

/-- What holds of the players of the tile while the creatures are removed. -/
structure Players (s₀ s : State) : Prop where
  subset : ∀ c ∈ s.tile.creatures, c ∈ s₀.tile.creatures
  live : ∀ p ∈ s₀.tile.creatures, w.isPlayer p = true → p ∈ s.live
  placed : ∀ p ∈ s₀.tile.creatures, w.isPlayer p = true → Placed w here s p

section Steps

variable {w here} {s₀ s : State} {c d : CreatureId}

/-- A player on the tile stays there, or it is carried to its last stop. -/
theorem internalTeleport_cases (h : Run w s₀ s) (hplayer : w.isPlayer c = true) (hc : c ∈ s.live)
    (hposition : s.position c = here) :
    s.internalTeleport w here c = s ∧ ¬ (w.temple c ≠ here ∧ w.hasTile (w.temple c) = true) ∨
      (w.temple c ≠ here ∧ w.hasTile (w.temple c) = true) ∧
        ∃ last, (stops w c).getLast? = some last ∧
          Carried w here s₀ s (s.internalTeleport w here c) c (stops w c) last := by
  rw [internalTeleport, hposition]
  by_cases hhere : w.temple c = here
  · rw [if_pos hhere]
    exact Or.inl ⟨rfl, fun hleave => hleave.1 hhere⟩
  · rw [if_neg hhere, if_neg (not_not.mpr hc)]
    by_cases htile : w.hasTile (w.temple c) = true
    · rw [if_neg (not_not.mpr htile)]
      have hlast : (stops w c).getLast? = some ((stops w c).getLast (List.cons_ne_nil _ _)) :=
        List.getLast?_eq_some_getLast _
      exact Or.inr ⟨⟨hhere, htile⟩, _, hlast, Run.carry hplayer (stops w c) s hlast h hc⟩
    · rw [if_pos htile]
      exact Or.inl ⟨rfl, fun hleave => htile hleave.2⟩

theorem takeAway_run (h : Run w s₀ s) (hplayers : Players w here s₀ s)
    (hc : c ∈ s.tile.creatures) :
    Run w s₀ (s.takeAway w here c) ∧ Players w here s₀ (s.takeAway w here c) := by
  have hlive := h.creatures c hc
  rw [takeAway]
  by_cases hplayer : w.isPlayer c = true
  · rw [if_pos hplayer]
    have hposition : s.position c = here := by
      rcases hplayers.placed c (hplayers.subset c hc) hplayer with hin | hout
      · exact hin.2
      · exact absurd hc hout.1
    rcases internalTeleport_cases h hplayer hlive hposition with
      ⟨hstay, -⟩ | ⟨⟨hhere, htile⟩, last, hlast, hcarried⟩
    · rw [hstay]
      exact ⟨h, hplayers⟩
    · refine ⟨hcarried.run, fun d hd => ?_, fun p hp hplayer' => ?_, fun p hp hplayer' => ?_⟩
      · rw [hcarried.creatures] at hd
        rcases List.mem_append.mp hd with hd | hd
        · split at hd
          · obtain rfl := List.mem_singleton.mp hd
            exact hplayers.subset d hc
          · cases hd
        · exact hplayers.subset d (List.mem_of_mem_erase (List.mem_of_mem_filter hd))
      · exact hcarried.players p hplayer' (hplayers.live p hp hplayer')
      · by_cases hself : p = c
        · subst hself
          have hnot : p ∉ (s.tile.creatures.erase p).filter fun d =>
              d ∈ (s.internalTeleport w here p).live :=
            fun hp => h.nodup.not_mem_erase (List.mem_of_mem_filter hp)
          rw [Placed, hcarried.creatures, hcarried.position, Function.update_self]
          by_cases hback : last = here
          · rw [if_pos hback]
            exact Or.inl ⟨List.mem_append_left _ (List.mem_singleton_self p), hback⟩
          · rw [if_neg hback, List.nil_append]
            exact Or.inr ⟨hnot, hhere, htile, hback, hlast⟩
        · have hmem : p ∈ (s.internalTeleport w here c).tile.creatures ↔ p ∈ s.tile.creatures := by
            rw [hcarried.creatures, List.mem_append, List.mem_filter, List.mem_erase_of_ne hself]
            have hin := hcarried.players p hplayer' (hplayers.live p hp hplayer')
            constructor
            · rintro (hp | hp)
              · split at hp
                · exact absurd (List.mem_singleton.mp hp) hself
                · cases hp
              · exact hp.1
            · exact fun hp => Or.inr ⟨hp, decide_eq_true hin⟩
          rw [Placed, hmem, hcarried.position, Function.update_of_ne hself]
          exact hplayers.placed p hp hplayer'
  · rw [if_neg hplayer]
    have hcreatures := creatures_removeCreatures (w := w) [c] h.nodup h.creatures
    have hleft : ∀ p, w.isPlayer p = true → p ∈ s.live → p ∈ sweep w.summons [c] s.live := by
      intro p hp hin
      refine player_mem_sweep hp (fun hmem => ?_) hin
      rw [List.mem_singleton.mp hmem] at hp
      exact hplayer hp
    refine ⟨h.removeCreatures [c], fun d hd => ?_, fun p hp hplayer' => ?_, fun p hp hplayer' => ?_⟩
    · rw [hcreatures] at hd
      exact hplayers.subset d (List.mem_of_mem_filter hd)
    · rw [live_removeCreatures]
      exact hleft p hplayer' (hplayers.live p hp hplayer')
    · have hmem : p ∈ (s.removeCreatures w [c]).tile.creatures ↔ p ∈ s.tile.creatures := by
        rw [hcreatures, List.mem_filter]
        exact and_iff_left (decide_eq_true (hleft p hplayer' (hplayers.live p hp hplayer')))
      rw [Placed, hmem, (rest_removeCreatures [c] s).2.1]
      exact hplayers.placed p hp hplayer'

theorem removeCreaturesFrom_run {s' : State} : ∀ (i : Nat) (s : State), Run w s₀ s →
    Players w here s₀ s → s.removeCreaturesFrom w here i = some s' →
      Run w s₀ s' ∧ Players w here s₀ s'
  | 0, s, h, hplayers, hs' => by
      obtain rfl := Option.some.inj hs'
      exact ⟨h, hplayers⟩
  | i + 1, s, h, hplayers, hs' => by
      rw [removeCreaturesFrom] at hs'
      split at hs'
      · cases hs'
      · next c hc =>
          obtain ⟨hrun, hplayers'⟩ := takeAway_run h hplayers (List.mem_of_getElem? hc)
          exact removeCreaturesFrom_run i _ hrun hplayers' hs'

/-- If the players leave, the last creature goes, and the others of the tile that it takes. -/
theorem takeAway_last (h : Run w s₀ s) (hplayers : Players w here s₀ s)
    (hleaves : w.isPlayer c = true → Leaves w here c) {l : List CreatureId}
    (hl : s.tile.creatures = l ++ [c]) :
    (s.takeAway w here c).tile.creatures =
        l.filter (fun d => d ∈ (s.takeAway w here c).live) ∧
      ∀ d ∈ l, d ∉ (s.takeAway w here c).live ↔ Takes w s₀ c d := by
  have hc : c ∈ s.tile.creatures := by
    rw [hl]
    exact List.mem_append_right _ (List.mem_singleton_self c)
  have hlive : ∀ d ∈ l, d ∈ s.live := by
    intro d hd
    refine h.creatures d ?_
    rw [hl]
    exact List.mem_append_left _ hd
  have hnot : c ∉ l := by
    have hnodup := h.nodup
    rw [hl] at hnodup
    exact fun hin => (List.nodup_append.mp hnodup).2.2 c hin c (List.mem_singleton_self c) rfl
  rw [takeAway]
  by_cases hplayer : w.isPlayer c = true
  · rw [if_pos hplayer]
    have hposition : s.position c = here := by
      rcases hplayers.placed c (hplayers.subset c hc) hplayer with hin | hout
      · exact hin.2
      · exact absurd hc hout.1
    obtain ⟨hhere, htile, htemple⟩ := hleaves hplayer
    rcases internalTeleport_cases h hplayer (h.creatures c hc) hposition with
      ⟨-, hstay⟩ | ⟨-, last, hlast, hcarried⟩
    · exact absurd ⟨hhere, htile⟩ hstay
    · obtain rfl := Option.some.inj (hlast.symm.trans htemple)
      have herase : (l ++ [c]).erase c = l := by
        rw [List.erase_append_right _ hnot, List.erase_cons_head, List.append_nil]
      refine ⟨?_, fun d hd => ?_⟩
      · rw [hcarried.creatures, if_neg hhere, List.nil_append, hl, herase]
      · rw [hcarried.despawned d (hlive d hd), Takes, if_pos hplayer]
  · rw [if_neg hplayer]
    have hgone : c ∉ sweep w.summons [c] s.live := by
      refine (not_mem_sweep_iff h.live h.closed (h.creatures c hc)).mpr ?_
      exact ⟨c, List.mem_singleton_self c, h.live (h.creatures c hc), Relation.ReflTransGen.refl⟩
    rw [creatures_removeCreatures (w := w) [c] h.nodup h.creatures, live_removeCreatures, hl,
      List.filter_append]
    refine ⟨?_, fun d hd => ?_⟩
    · rw [List.filter_singleton, decide_eq_false hgone, cond_false, List.append_nil]
    · rw [not_mem_sweep_iff h.live h.closed (hlive d hd), Takes, if_neg hplayer]
      constructor
      · rintro ⟨e, he, -, hbelow⟩
        rwa [List.mem_singleton.mp he] at hbelow
      · exact fun hbelow => ⟨c, List.mem_singleton_self c, h.live (h.creatures c hc), hbelow⟩

/-- If the players leave, the loop comes to its end with no creature left exactly if no creature
takes one with it that has not had its turn. -/
theorem removeCreaturesFrom_iff (hleaves : ∀ c ∈ s₀.tile.creatures, w.isPlayer c = true →
    Leaves w here c) : ∀ (i : Nat) (s : State), Run w s₀ s → Players w here s₀ s →
      s.tile.creatures.length = i →
      ((∃ s', s.removeCreaturesFrom w here i = some s' ∧ s'.tile.creatures = []) ↔
        s.tile.creatures.Pairwise fun d c => ¬ Takes w s₀ c d)
  | 0, s, _, _, hlength => by
      have hnil := List.length_eq_zero_iff.mp hlength
      rw [hnil]
      exact iff_of_true ⟨s, rfl, hnil⟩ List.Pairwise.nil
  | i + 1, s, h, hplayers, hlength => by
      obtain ⟨l, c, hl⟩ : ∃ l c, s.tile.creatures = l ++ [c] := by
        rcases List.eq_nil_or_concat s.tile.creatures with hnil | ⟨l, c, hl⟩
        · rw [hnil] at hlength
          cases hlength
        · exact ⟨l, c, hl.trans (List.concat_eq_append ..)⟩
      have hlen : l.length = i := by
        rw [hl, List.length_append, List.length_singleton] at hlength
        exact Nat.succ.inj hlength
      have hc : s.tile.creatures[i]? = some c := by
        rw [hl, ← hlen]
        exact List.getElem?_concat_length
      have hmem := List.mem_of_getElem? hc
      obtain ⟨hrun, hplayers'⟩ := takeAway_run h hplayers hmem
      obtain ⟨hleft, htakes⟩ := takeAway_last h hplayers (hleaves c (hplayers.subset c hmem)) hl
      have hpairs : (l ++ [c]).Pairwise (fun d c => ¬ Takes w s₀ c d) ↔
          l.Pairwise (fun d c => ¬ Takes w s₀ c d) ∧ ∀ d ∈ l, ¬ Takes w s₀ c d := by
        rw [List.pairwise_append]
        simp
      rw [removeCreaturesFrom, hc, hl, hpairs]
      dsimp only
      by_cases hall : ∀ d ∈ l, ¬ Takes w s₀ c d
      · have hsame : (s.takeAway w here c).tile.creatures = l := by
          rw [hleft, List.filter_eq_self]
          intro d hd
          exact decide_eq_true (not_not.mp fun hnot => hall d hd ((htakes d hd).mp hnot))
        have ih := removeCreaturesFrom_iff hleaves i _ hrun hplayers' (by rw [hsame, hlen])
        rw [ih, hsame, and_iff_left hall]
      · refine iff_of_false ?_ fun hboth => hall hboth.2
        rintro ⟨s', hs', -⟩
        obtain ⟨d, hd, htaken⟩ : ∃ d ∈ l, Takes w s₀ c d := by
          simpa using hall
        -- one is missing when the next index is read
        have hshort : (s.takeAway w here c).tile.creatures.length < i := by
          have hsub : (l.filter fun d => d ∈ (s.takeAway w here c).live).length < l.length := by
            refine List.length_filter_lt_length_iff_exists.mpr ⟨d, hd, ?_⟩
            rw [decide_eq_true_eq]
            exact (htakes d hd).mpr htaken
          rw [hleft]
          omega
        cases i with
        | zero => exact Nat.not_lt_zero _ hshort
        | succ k =>
            rw [removeCreaturesFrom, List.getElem?_eq_none (Nat.le_of_lt_succ hshort)] at hs'
            cases hs'

end Steps

/-! ## The items -/

/-- The item is where `getThingIndex` looks for it. -/
def InPlace (t : Tile) (i : ItemId) : Prop :=
  t.ground = some i ∨
    if (t.typeOf w.items i).alwaysOnTop = true then i ∈ t.top else i ∈ t.down

/-- An item that `internalRemoveItem` removes. -/
structure Removable (t : Tile) (i : ItemId) : Prop where
  inPlace : InPlace w t i
  count : (t.thing i).data.count.toNat ≠ 0
  canRemove : w.canRemove i = true

section Items

variable {w} {s : State} {i : ItemId}

theorem getThingIndex_ne_iff (t : Tile) (i : ItemId) :
    t.getThingIndex w.items (.item i) ≠ -1 ↔ InPlace w t i := by
  have hmem (l : List ItemId) {k : Nat} (hk : l.idxOf? i = some k) : i ∈ l := by
    by_contra hnot
    rw [List.idxOf?_eq_none_iff.mpr hnot] at hk
    cases hk
  have hnot (l : List ItemId) (hk : l.idxOf? i = none) : i ∉ l := List.idxOf?_eq_none_iff.mp hk
  have hne (n : Int) : ¬ n ≠ n := fun h => h rfl
  rw [Tile.getThingIndex, InPlace]
  by_cases hground : t.ground = some i
  · rw [if_pos hground]
    exact iff_of_true (by decide) (Or.inl hground)
  · rw [if_neg hground, or_iff_right hground]
    by_cases htop : (t.typeOf w.items i).alwaysOnTop = true
    · rw [if_pos htop, if_pos htop]
      cases hk : t.top.idxOf? i with
      | some k => exact iff_of_true (by dsimp only; split <;> omega) (hmem t.top hk)
      | none => exact iff_of_false (hne _) (hnot t.top hk)
    · rw [if_neg htop, if_neg htop]
      cases hk : t.down.idxOf? i with
      | some k => exact iff_of_true (by dsimp only; split <;> omega) (hmem t.down hk)
      | none => exact iff_of_false (hne _) (hnot t.down hk)

theorem internalRemoveItem_of_not (h : ¬ Removable w s.tile i) : s.internalRemoveItem w i = s := by
  rw [internalRemoveItem]
  by_cases hquery : s.tile.getThingIndex w.items (.item i) = -1 ∨ (s.tile.thing i).data.count.toNat = 0
  · rw [if_pos hquery]
  · obtain ⟨hindex, hcount⟩ := not_or.mp hquery
    have hfixed : ¬ w.canRemove i = true := fun hcan =>
      h ⟨(getThingIndex_ne_iff s.tile i).mp hindex, hcount, hcan⟩
    rw [if_neg hquery, if_pos hfixed]

theorem internalRemoveItem_of (h : Removable w s.tile i) :
    s.internalRemoveItem w i =
      { s with
        tile := s.tile.removeItem w.items i (s.tile.thing i).data.count.toNat
        removed := i :: s.removed } := by
  have hquery : ¬ (s.tile.getThingIndex w.items (.item i) = -1 ∨
      (s.tile.thing i).data.count.toNat = 0) :=
    not_or.mpr ⟨(getThingIndex_ne_iff s.tile i).mpr h.inPlace, h.count⟩
  rw [internalRemoveItem, if_neg hquery, if_neg (not_not.mpr h.canRemove)]
  rfl

/-- An item that is removed is taken out of the vector. -/
theorem removeItem_items (h : Removable w s.tile i) (hground : s.tile.ground ≠ some i) :
    (s.internalRemoveItem w i).tile.items.length + 1 = s.tile.items.length ∧
      (s.internalRemoveItem w i).tile.ground = s.tile.ground ∧
      (s.internalRemoveItem w i).tile.thing = s.tile.thing := by
  have hindex := (getThingIndex_ne_iff s.tile i).mpr h.inPlace
  have hplace := h.inPlace.resolve_left hground
  have hparts : s.tile.items.length = s.tile.down.length + s.tile.top.length := by
    rw [← List.length_append, Tile.down_append_top]
  rw [internalRemoveItem_of h, Tile.removeItem, if_neg hindex, if_neg hground]
  by_cases htop : (s.tile.typeOf w.items i).alwaysOnTop = true
  · rw [if_pos htop] at hplace
    have hlength := List.length_erase_of_mem hplace
    have hpos := List.length_pos_of_mem hplace
    rw [if_pos htop, if_pos hplace]
    refine ⟨?_, rfl, rfl⟩
    show (s.tile.down ++ s.tile.top.erase i).length + 1 = _
    rw [List.length_append]
    omega
  · rw [if_neg htop] at hplace
    have hlength := List.length_erase_of_mem hplace
    have hpos := List.length_pos_of_mem hplace
    rw [if_neg htop, if_pos hplace]
    dsimp only
    rw [if_neg fun hpart => hpart.2 rfl]
    refine ⟨?_, rfl, rfl⟩
    show (s.tile.down.erase i ++ s.tile.top).length + 1 = _
    rw [List.length_append]
    omega

/-- The ground leaves the vector as it is. -/
theorem internalRemoveItem_ground (hground : s.tile.ground = some i) :
    (s.internalRemoveItem w i).tile.items = s.tile.items := by
  by_cases h : Removable w s.tile i
  · rw [internalRemoveItem_of h, Tile.removeItem,
      if_neg ((getThingIndex_ne_iff s.tile i).mpr h.inPlace), if_pos hground]
    rfl
  · rw [internalRemoveItem_of_not h]

theorem le_internalRemoveItem (s : State) (i : ItemId) :
    s.tile.items.length ≤ (s.internalRemoveItem w i).tile.items.length + 1 := by
  by_cases hground : s.tile.ground = some i
  · rw [internalRemoveItem_ground hground]
    exact Nat.le_succ _
  · by_cases h : Removable w s.tile i
    · exact (removeItem_items h hground).1.ge
    · rw [internalRemoveItem_of_not h]
      exact Nat.le_succ _

theorem internalRemoveItem_rest (s : State) (i : ItemId) :
    (s.internalRemoveItem w i).tile.creatures = s.tile.creatures ∧
      (s.internalRemoveItem w i).position = s.position := by
  by_cases h : Removable w s.tile i
  · rw [internalRemoveItem_of h]
    refine ⟨?_, rfl⟩
    dsimp only
    rw [Tile.removeItem]
    split
    · rfl
    · split
      · rfl
      · split
        · split <;> rfl
        · split
          · dsimp only
            split <;> rfl
          · rfl
  · rw [internalRemoveItem_of_not h]
    exact ⟨rfl, rfl⟩

/-- The last item that is read is still there, so at most that one is gone. -/
theorem le_removeItemsFrom {s' : State} : ∀ (n it : Nat) (s : State),
    s.removeItemsFrom w it (n + 1) = some s' → it + n ≤ s'.tile.items.length
  | 0, it, s, h => by
      rw [removeItemsFrom] at h
      split at h
      · cases h
      · next i hi =>
          obtain rfl := Option.some.inj h
          have hlt := (List.getElem?_eq_some_iff.mp hi).1
          have hle := le_internalRemoveItem (w := w) s i
          omega
  | n + 1, it, s, h => by
      rw [removeItemsFrom] at h
      split at h
      · cases h
      · next i hi =>
          have ih := le_removeItemsFrom n (it + 1) _ h
          omega

theorem removeItemsFrom_rest {s' : State} : ∀ (n it : Nat) (s : State),
    s.removeItemsFrom w it n = some s' →
      s'.tile.creatures = s.tile.creatures ∧ s'.position = s.position
  | 0, _, _, h => by
      obtain rfl := Option.some.inj h
      exact ⟨rfl, rfl⟩
  | n + 1, it, s, h => by
      rw [removeItemsFrom] at h
      split at h
      · cases h
      · next i hi =>
          obtain ⟨hcreatures, hposition⟩ := removeItemsFrom_rest n (it + 1) _ h
          obtain ⟨hcreatures', hposition'⟩ := internalRemoveItem_rest (w := w) s i
          exact ⟨hcreatures.trans hcreatures', hposition.trans hposition'⟩

theorem removeGround_rest (s : State) :
    (s.removeGround w).tile.items = s.tile.items ∧ (s.removeGround w).tile.ground = none ∧
      (s.removeGround w).tile.creatures = s.tile.creatures ∧
      (s.removeGround w).position = s.position := by
  rw [removeGround]
  split
  · next hground => exact ⟨rfl, hground, rfl, rfl⟩
  · next ground hground =>
      obtain ⟨hcreatures, hposition⟩ := internalRemoveItem_rest (w := w) s ground
      exact ⟨internalRemoveItem_ground hground, rfl, hcreatures, hposition⟩

theorem removed_removeGround {ground : ItemId} (hground : s.tile.ground = some ground) :
    (s.removeGround w).removed = (s.internalRemoveItem w ground).removed := by
  rw [removeGround, hground]

theorem removed_internalRemoveItem (h : Removable w s.tile i) :
    (s.internalRemoveItem w i).removed = i :: s.removed := by
  rw [internalRemoveItem_of h]

theorem count_removeGround {ground : ItemId} (hground : s.tile.ground = some ground)
    (hnot : ground ∉ s.removed) :
    (s.removeGround w).removed.count ground = 1 ↔ Removable w s.tile ground := by
  rw [removed_removeGround hground]
  by_cases h : Removable w s.tile ground
  · rw [removed_internalRemoveItem h, List.count_cons_self, List.count_eq_zero_of_not_mem hnot]
    exact iff_of_true rfl h
  · rw [internalRemoveItem_of_not h, List.count_eq_zero_of_not_mem hnot]
    exact iff_of_false Nat.zero_ne_one h

theorem count_removeGround_of_ne (hne : s.tile.ground ≠ some i) :
    (s.removeGround w).removed.count i = s.removed.count i := by
  cases hground : s.tile.ground with
  | none => rw [removeGround, hground]
  | some ground =>
      have hother : ground ≠ i := by
        rintro rfl
        exact hne hground
      rw [removed_removeGround hground]
      by_cases h : Removable w s.tile ground
      · rw [removed_internalRemoveItem h, List.count_cons_of_ne hother]
      · rw [internalRemoveItem_of_not h]

/-- After the one item the ground is removed as if the item had not been there. -/
theorem removeGround_after {item : ItemId} (hground : s.tile.ground ≠ some item)
    (hitems : s.tile.items = [item]) (hremoved : s.removed = []) (h : Removable w s.tile item) :
    (s.internalRemoveItem w item).tile.items = [] ∧
      ∀ i ∈ s.tile.contents,
        (((s.internalRemoveItem w item).removeGround w).removed.count i = 1 ↔
          Removable w s.tile i) := by
  obtain ⟨hlength, hsame, hthing⟩ := removeItem_items h hground
  have hempty : (s.internalRemoveItem w item).tile.items = [] := by
    rw [hitems, List.length_singleton] at hlength
    exact List.length_eq_zero_iff.mp (by omega)
  have hlog : (s.internalRemoveItem w item).removed = [item] := by
    rw [removed_internalRemoveItem h, hremoved]
  refine ⟨hempty, fun i hi => ?_⟩
  rw [Tile.mem_contents, hitems, List.mem_singleton] at hi
  rcases hi with hg | rfl
  · have hne : i ∉ (s.internalRemoveItem w item).removed := by
      rw [hlog]
      intro hmem
      rw [List.mem_singleton.mp hmem] at hg
      exact hground hg
    rw [count_removeGround (hsame.trans hg) hne]
    constructor
    · rintro ⟨-, hcount, hcan⟩
      exact ⟨Or.inl hg, hthing ▸ hcount, hcan⟩
    · rintro ⟨-, hcount, hcan⟩
      exact ⟨Or.inl (hsame.trans hg), hthing.symm ▸ hcount, hcan⟩
  · rw [count_removeGround_of_ne (fun hg => hground (hsame.symm.trans hg)), hlog]
    exact iff_of_true (List.count_singleton_self ..) h

/-- The items and the ground are removed once each exactly if there is one item at most and all of
them can be removed. -/
theorem removeItems_iff (hdistinct : s.tile.Distinct) (hremoved : s.removed = []) :
    (∃ s', s.removeItemsFrom w 0 s.tile.items.length = some s' ∧ s'.tile.items = [] ∧
      ∀ i ∈ s.tile.contents, (s'.removeGround w).removed.count i = 1) ↔
      s.tile.items.length ≤ 1 ∧ ∀ i ∈ s.tile.contents, Removable w s.tile i := by
  match hitems : s.tile.items with
  | [] =>
      have hcontents : ∀ i, i ∈ s.tile.contents ↔ s.tile.ground = some i := by
        intro i
        rw [Tile.mem_contents, hitems]
        exact or_iff_left List.not_mem_nil
      have hcount : ∀ i ∈ s.tile.contents,
          ((s.removeGround w).removed.count i = 1 ↔ Removable w s.tile i) := by
        intro i hi
        refine count_removeGround ((hcontents i).mp hi) ?_
        rw [hremoved]
        exact List.not_mem_nil
      constructor
      · rintro ⟨s', hs', -, hall⟩
        obtain rfl := Option.some.inj hs'
        exact ⟨Nat.zero_le _, fun i hi => (hcount i hi).mp (hall i hi)⟩
      · rintro ⟨-, hall⟩
        exact ⟨s, rfl, hitems, fun i hi => (hcount i hi).mpr (hall i hi)⟩
  | [item] =>
      have hground : s.tile.ground ≠ some item := by
        intro h
        refine hdistinct.ground item h ?_
        rw [hitems]
        exact List.mem_singleton_self item
      have hcontents : ∀ i, i ∈ s.tile.contents ↔ s.tile.ground = some i ∨ i = item := by
        intro i
        rw [Tile.mem_contents, hitems, List.mem_singleton]
      have hloop : s.removeItemsFrom w 0 1 = some (s.internalRemoveItem w item) := by
        rw [removeItemsFrom, hitems]
        rfl
      have hafter (h : Removable w s.tile item) := removeGround_after hground hitems hremoved h
      constructor
      · rintro ⟨s', hs', hempty, hall⟩
        obtain rfl := Option.some.inj (hloop.symm.trans hs')
        have hitem : Removable w s.tile item := by
          by_contra h
          rw [internalRemoveItem_of_not h, hitems] at hempty
          cases hempty
        exact ⟨Nat.le_refl _, fun i hi => ((hafter hitem).2 i hi).mp (hall i hi)⟩
      · rintro ⟨-, hall⟩
        obtain ⟨hempty, hcount⟩ := hafter (hall item ((hcontents item).mpr (Or.inr rfl)))
        exact ⟨_, hloop, hempty, fun i hi => (hcount i hi).mpr (hall i hi)⟩
  | first :: second :: rest =>
      refine iff_of_false ?_ fun h => absurd h.1 (by simp)
      rintro ⟨s', hs', hempty, -⟩
      have hle := le_removeItemsFrom _ _ _ hs'
      rw [hempty, List.length_cons, List.length_nil] at hle
      omega

end Items

/-! ## The tile -/

/-- A tile in the beginning: what is on it is there once, and its creatures stand there. -/
structure Standing (s : State) : Prop where
  distinct : s.tile.Distinct
  live : ∀ c ∈ s.tile.creatures, c ∈ s.live
  position : ∀ c ∈ s.tile.creatures, s.position c = here
  removed : s.removed = []

/-- Nothing is left on the tile, each item of it was removed once, and its players stand at their
temples. -/
structure Emptied (s s' : State) : Prop where
  creatures : s'.tile.creatures = []
  items : s'.tile.items = []
  ground : s'.tile.ground = none
  removed : ∀ i ∈ s.tile.contents, s'.removed.count i = 1
  players : ∀ c ∈ s.tile.creatures, w.isPlayer c = true → s'.position c = w.temple c

/-- The players can leave for their temples, no creature takes one with it that is in front of it,
and there is one item at most, which can be removed like the ground. -/
structure Clears (s : State) : Prop where
  leaves : ∀ c ∈ s.tile.creatures, w.isPlayer c = true → Leaves w here c
  takes : s.tile.creatures.Pairwise fun d c => ¬ Takes w s c d
  items : s.tile.items.length ≤ 1
  removable : ∀ i ∈ s.tile.contents, Removable w s.tile i

/-- Once no creature is left, only they have gone, and the players to their temples. -/
theorem Standing.after_removeCreaturesFrom {s s₁ : State} (h : Standing here s) (hrun : Run w s s)
    (hplayers : Players w here s s)
    (hs₁ : s.removeCreaturesFrom w here s.tile.creatures.length = some s₁)
    (hcreatures : s₁.tile.creatures = []) :
    s₁.tile = { s.tile with creatures := [] } ∧ s₁.removed = [] ∧
      ∀ p ∈ s.tile.creatures, w.isPlayer p = true → w.temple p ≠ here ∧
        w.hasTile (w.temple p) = true ∧ (stops w p).getLast? = some (s₁.position p) := by
  obtain ⟨hrun₁, hplayers₁⟩ := removeCreaturesFrom_run _ s hrun hplayers hs₁
  refine ⟨?_, hrun₁.removed.trans h.removed, fun p hp hplayer => ?_⟩
  · rw [hrun₁.tile, hcreatures]
  · rcases hplayers₁.placed p hp hplayer with hin | ⟨-, hhere, htile, -, hlast⟩
    · rw [hcreatures] at hin
      exact absurd hin.1 List.not_mem_nil
    · exact ⟨hhere, htile, hlast⟩

/-- The creatures make no difference to the items. -/
theorem Standing.removeItems_bare_iff {s s₁ : State} (h : Standing here s)
    (htile : s₁.tile = { s.tile with creatures := [] }) (hremoved : s₁.removed = []) :
    (∃ s', s₁.removeItemsFrom w 0 s₁.tile.items.length = some s' ∧ s'.tile.items = [] ∧
      ∀ i ∈ s.tile.contents, (s'.removeGround w).removed.count i = 1) ↔
      s.tile.items.length ≤ 1 ∧ ∀ i ∈ s.tile.contents, Removable w s.tile i := by
  have hdistinct : s₁.tile.Distinct := by
    rw [htile]
    exact ⟨h.distinct.count, h.distinct.small, h.distinct.nodup, h.distinct.ground, List.nodup_nil⟩
  have hsame : ∀ i, Removable w s₁.tile i ↔ Removable w s.tile i := by
    intro i
    rw [htile]
    exact ⟨fun hi => ⟨hi.inPlace, hi.count, hi.canRemove⟩,
      fun hi => ⟨hi.inPlace, hi.count, hi.canRemove⟩⟩
  have hcontents : s₁.tile.contents = s.tile.contents := by
    rw [htile]
    rfl
  have hlist : s₁.tile.items = s.tile.items := by rw [htile]
  have hiff := removeItems_iff (w := w) hdistinct hremoved
  simp only [hsame, hcontents, hlist] at hiff
  rw [hlist]
  exact hiff

/-- The tile is emptied as it should be if and only if its players can leave, its creatures take
none with them before its turn, and it has one item at most. -/
theorem removeTile_iff {s : State} (h : Standing here s) :
    (∃ s', s.removeTile w here = some s' ∧ Emptied w s s') ↔ Clears w here s := by
  have hrun : Run w s s :=
    ⟨rfl, rfl, Finset.Subset.refl _, closed_all, h.distinct.creatures, h.live, fun _ _ => rfl⟩
  have hplayers : Players w here s s :=
    ⟨fun _ hc => hc, fun p hp _ => h.live p hp, fun p hp _ => Or.inl ⟨hp, h.position p hp⟩⟩
  have hafter (s₁ : State) (hs₁ : s.removeCreaturesFrom w here s.tile.creatures.length = some s₁) :=
    h.after_removeCreaturesFrom w here hrun hplayers hs₁
  have hitems (s₁ : State) := @Standing.removeItems_bare_iff w here s s₁ h
  constructor
  · rintro ⟨s', hs', hemptied⟩
    rw [removeTile] at hs'
    split at hs'
    · cases hs'
    · next s₁ hs₁ =>
        split at hs'
        · cases hs'
        · next s₂ hs₂ =>
            obtain rfl := Option.some.inj hs'
            obtain ⟨hitemsGround, -, hcreaturesGround, hpositionGround⟩ := removeGround_rest (w := w) s₂
            obtain ⟨hcreaturesItems, hpositionItems⟩ := removeItemsFrom_rest _ _ _ hs₂
            have hnone : s₁.tile.creatures = [] := by
              rw [← hcreaturesItems, ← hcreaturesGround]
              exact hemptied.creatures
            obtain ⟨htile, hremoved, hplaced⟩ := hafter s₁ hs₁ hnone
            have hleaves : ∀ c ∈ s.tile.creatures, w.isPlayer c = true → Leaves w here c := by
              intro c hc hplayer
              obtain ⟨hhere, hhas, hlast⟩ := hplaced c hc hplayer
              have hposition := hemptied.players c hc hplayer
              rw [hpositionGround, hpositionItems] at hposition
              exact ⟨hhere, hhas, hposition ▸ hlast⟩
            have hloop := removeCreaturesFrom_iff hleaves _ s hrun hplayers rfl
            obtain ⟨hone, hall⟩ := (hitems s₁ htile hremoved).mp
              ⟨s₂, hs₂, hitemsGround.symm.trans hemptied.items, hemptied.removed⟩
            exact ⟨hleaves, hloop.mp ⟨s₁, hs₁, hnone⟩, hone, hall⟩
  · intro hclears
    have hloop := removeCreaturesFrom_iff hclears.leaves _ s hrun hplayers rfl
    obtain ⟨s₁, hs₁, hnone⟩ := hloop.mpr hclears.takes
    obtain ⟨htile, hremoved, hplaced⟩ := hafter s₁ hs₁ hnone
    obtain ⟨s₂, hs₂, hempty, hall⟩ :=
      (hitems s₁ htile hremoved).mpr ⟨hclears.items, hclears.removable⟩
    obtain ⟨hitemsGround, hground, hcreaturesGround, hpositionGround⟩ := removeGround_rest (w := w) s₂
    obtain ⟨hcreaturesItems, hpositionItems⟩ := removeItemsFrom_rest _ _ _ hs₂
    refine ⟨s₂.removeGround w, ?_, ?_⟩
    · rw [removeTile, hs₁]
      dsimp only
      rw [hs₂]
    · refine ⟨?_, hitemsGround.trans hempty, hground, hall, fun c hc hplayer => ?_⟩
      · rw [hcreaturesGround, hcreaturesItems, hnone]
      · obtain ⟨-, -, hlast⟩ := hplaced c hc hplayer
        have htemple := (hclears.leaves c hc hplayer).2.2
        rw [hpositionGround, hpositionItems]
        exact Option.some.inj (hlast.symm.trans htemple)

/-! ## Tiles that are not emptied -/

/-- A world of plain items, and of players whose temple is far away. -/
def plainWorld : World where
  items := fun _ => {}
  canRemove := fun _ => true
  isPlayer := fun _ => true
  summons := fun _ => []
  summons_monster := fun _ _ hd => absurd hd List.not_mem_nil
  temple := fun _ => ⟨1000, 1000, 7⟩
  hasTile := fun _ => true
  carriedOn := fun _ => []

/-- A tile with some plain items and creatures. -/
def plainTile (items : List ItemId) (creatures : List CreatureId) : State where
  tile :=
    { thing := fun _ => Tile.plainItem 5
      ground := none
      items := items
      downItemCount := items.length
      creatures := creatures
      floorChange := fun _ => false
      flags := fun _ => false }
  live := creatures.toFinset
  position := fun _ => ⟨100, 100, 7⟩
  removed := []

theorem plainTile_standing {items : List ItemId} {creatures : List CreatureId}
    (hitems : items.Nodup) (hsmall : items.length ≤ 0xFFFF) (hcreatures : creatures.Nodup) :
    Standing ⟨100, 100, 7⟩ (plainTile items creatures) where
  distinct := ⟨Nat.le_refl _, hsmall, hitems, fun _ hground => (by cases hground), hcreatures⟩
  live _ hc := List.mem_toFinset.mpr hc
  position _ _ := rfl
  removed := rfl

/-- A tile with a player and an item. -/
theorem removeTile_iff_one :
    (∃ s', (plainTile [1] [7]).removeTile plainWorld ⟨100, 100, 7⟩ = some s' ∧
      Emptied plainWorld (plainTile [1] [7]) s') ↔
      Clears plainWorld ⟨100, 100, 7⟩ (plainTile [1] [7]) :=
  removeTile_iff plainWorld ⟨100, 100, 7⟩ (plainTile_standing (by decide) (by decide) (by decide))

/-- Of three items the second one is left when the loop comes to the end of the vector, and it reads
on. -/
theorem removeTile_three :
    Standing ⟨100, 100, 7⟩ (plainTile [1, 2, 3] []) ∧
      ((plainTile [1, 2, 3] []).removeItemsFrom plainWorld 0 2).map (fun s => s.tile.items) =
        some [2] ∧
      (plainTile [1, 2, 3] []).removeTile plainWorld ⟨100, 100, 7⟩ = none :=
  ⟨plainTile_standing (by decide) (by decide) (by decide), by decide, rfl⟩

end State

end Bruxo.RemoveTile
