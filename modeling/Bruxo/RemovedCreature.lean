import Bruxo.TileDescription

/-!
# The place of a creature that is removed

`Game::removeCreature` (`game.cpp`) takes the index that the creature has on each client
before the creature leaves its tile, and sends the indices after that. It takes an index for
every player among the spectators, but takes the next one only for a player who can see the
creature: behind a player who cannot, every player is sent the index of another.

The calls for the summons, which come last, do the same for each of them.
-/

namespace Bruxo.RemovedCreature

open TileStack TileDescription

/-! ## The spectators -/

/-- What `Player::canSeeCreature` asks of a creature. -/
structure Creatures where
  isPlayer : CreatureId → Bool
  isInGhostMode : CreatureId → Bool
  isInvisible : CreatureId → Bool

/-- `Player::canSeeInvisibility`, with `PlayerFlag_CanSenseInvisibility`. -/
def canSeeInvisibility (access canSenseInvisibility : Bool) : Bool :=
  canSenseInvisibility || access

/-- `Player::canSeeCreature`; `canSeeGhostMode` is `group->access`. -/
def canSeeCreature (cs : Creatures) (player : CreatureId) (access canSenseInvisibility : Bool)
    (creature : CreatureId) : Bool :=
  if creature = player then true
  else if cs.isInGhostMode creature && !access then false
  else if !cs.isPlayer creature && !canSeeInvisibility access canSenseInvisibility &&
    cs.isInvisible creature then false
  else true

/-- A player, and what it sees of the creatures. -/
structure Player (κ : Type) (cs : Creatures) extends Observer κ where
  canSenseInvisibility : Bool
  sees : ∀ c, toObserver.canSeeCreature c =
    RemovedCreature.canSeeCreature cs player isAccessPlayer canSenseInvisibility c

inductive Spectator (κ : Type) (cs : Creatures) where
  | player (p : Player κ cs)
  | other (c : CreatureId)

section Removal

variable {κ : Type} {cs : Creatures}

def Spectator.getPlayer : Spectator κ cs → Option (Player κ cs)
  | .player p => some p
  | .other _ => none

/-! ## The removal -/

def oldStackPosVector (tile : Tile) (creature : CreatureId)
    (spectators : List (Spectator κ cs)) : List Int :=
  spectators.filterMap fun spectator => spectator.getPlayer.map fun player =>
    if player.canSeeCreature creature then player.getClientIndexOfCreature tile creature else -1

/-- The calls of `sendRemoveTileThing`, with `i` as the next index of the vector. -/
def sendRemoval (oldStackPosVector : List Int) (creature : CreatureId) :
    List (Spectator κ cs) → Nat → Option (List (Player κ cs × Int))
  | [], _ => some []
  | spectator :: rest, i =>
      match spectator.getPlayer with
      | none => sendRemoval oldStackPosVector creature rest i
      | some player =>
          if player.canSeeCreature creature then
            match oldStackPosVector[i]? with
            -- Behind the end of the vector.
            | none => none
            | some stackpos =>
                (sendRemoval oldStackPosVector creature rest (i + 1)).map ((player, stackpos) :: ·)
          else sendRemoval oldStackPosVector creature rest i

/-- What it returns, the tile behind it and what was sent. -/
def removeCreature (items : UInt16 → ItemType) (tile : Tile) (creature : CreatureId)
    (isRemoved : Bool) (spectators : List (Spectator κ cs)) :
    Option (Bool × Tile × List (Player κ cs × Int)) :=
  if isRemoved then some (false, tile, [])
  else
    let vector := oldStackPosVector tile creature spectators
    let tile' := tile.removeThing items (.creature creature) 0
    (sendRemoval vector creature spectators 0).map fun sent => (true, tile', sent)

def players (spectators : List (Spectator κ cs)) : List (Player κ cs) :=
  spectators.filterMap Spectator.getPlayer

/-- The players who can see the creature. -/
def seeing (creature : CreatureId) (spectators : List (Spectator κ cs)) : List (Player κ cs) :=
  (players spectators).filter fun player => player.canSeeCreature creature

/-- `n` is the place of the creature among what the player sees on the tile. -/
def Displayed (player : Player κ cs) (tile : Tile) (creature : CreatureId) (n : Int) : Prop :=
  ∃ k : Nat, n = k ∧ (player.view tile)[k]? = some (.creature creature)

/-- Every player who can see the creature is sent its place, and nobody else is. -/
structure RightPlaces (tile : Tile) (creature : CreatureId) (spectators : List (Spectator κ cs))
    (sent : List (Player κ cs × Int)) : Prop where
  recipients : sent.map Prod.fst = seeing creature spectators
  displayed : ∀ m ∈ sent, Displayed m.1 tile creature m.2

/-! ## Two passes over one list -/

section Passes

variable {α : Type} (sees : α → Bool) (f : α → Int)

/-- What the second pass takes from the vector of the first is right as long as nobody stands
behind one whose entry it passes over. -/
theorem zip_filter_iff (hf : ∀ a, sees a = true → f a ≠ -1) (l : List α) :
    (∀ m ∈ (l.filter sees).zip (l.map fun a => if sees a then f a else -1), m.2 = f m.1) ↔
      l.Pairwise fun a b => sees b = true → sees a = true := by
  induction l with
  | nil => exact ⟨fun _ => .nil, fun _ _ hm => by cases hm⟩
  | cons a l ih =>
      rw [List.pairwise_cons, ← ih, List.map_cons]
      cases ha : sees a with
      | true =>
          rw [List.filter_cons_of_pos ha, List.zip_cons_cons, List.forall_mem_cons]
          constructor
          · rintro ⟨-, hrest⟩
            exact ⟨fun _ _ _ => rfl, hrest⟩
          · rintro ⟨-, hrest⟩
            exact ⟨rfl, hrest⟩
      | false =>
          rw [List.filter_cons_of_neg (by rw [ha]; exact Bool.false_ne_true)]
          cases hseeing : l.filter sees with
          | nil =>
              rw [List.zip_nil_left, List.zip_nil_left]
              have hnone := List.filter_eq_nil_iff.mp hseeing
              exact ⟨fun h => ⟨fun b hb hsee => absurd hsee (hnone b hb), h⟩, fun h => h.2⟩
          | cons b seeing =>
              -- The entry of `a` goes to `b`.
              have hb : b ∈ l.filter sees := hseeing ▸ List.mem_cons_self
              obtain ⟨hmem, hsee⟩ := List.mem_filter.mp hb
              constructor
              · intro h
                have hfirst := h (b, -1) List.mem_cons_self
                exact absurd hfirst.symm (hf b hsee)
              · rintro ⟨h, -⟩
                cases h b hmem hsee

end Passes

/-! ## What is sent -/

variable {tile : Tile} {creature : CreatureId}

/-- The second pass never gets behind the end of the vector. -/
theorem sendRemoval_eq {vector : List Int} {spectators : List (Spectator κ cs)} {i : Nat}
    (h : i + (seeing creature spectators).length ≤ vector.length) :
    sendRemoval vector creature spectators i
      = some ((seeing creature spectators).zip (vector.drop i)) := by
  induction spectators generalizing i with
  | nil => rfl
  | cons spectator rest ih =>
      rw [sendRemoval]
      cases spectator with
      | other c => exact ih h
      | player p =>
          rw [Spectator.getPlayer]
          dsimp only
          by_cases hsee : p.canSeeCreature creature = true
          · have hseeing : seeing creature (.player p :: rest) = p :: seeing creature rest :=
              List.filter_cons_of_pos hsee
            rw [hseeing, List.length_cons] at h
            have hi : i < vector.length := by omega
            rw [hseeing, if_pos hsee, List.getElem?_eq_getElem hi, List.drop_eq_getElem_cons hi]
            dsimp only
            rw [ih (by omega)]
            rfl
          · have hseeing : seeing creature (.player p :: rest) = seeing creature rest :=
              List.filter_cons_of_neg hsee
            rw [hseeing] at h ⊢
            rw [if_neg hsee, ih h]

theorem seeing_length (creature : CreatureId) (spectators : List (Spectator κ cs)) :
    (seeing creature spectators).length ≤ (players spectators).length :=
  List.length_filter_le _ _

theorem oldStackPosVector_eq (spectators : List (Spectator κ cs)) :
    oldStackPosVector tile creature spectators
      = (players spectators).map fun player => if player.canSeeCreature creature then
          player.getClientIndexOfCreature tile creature else -1 := by
  rw [oldStackPosVector, players, List.map_filterMap]

theorem removeCreature_eq (items : UInt16 → ItemType) (tile : Tile) (creature : CreatureId)
    (spectators : List (Spectator κ cs)) :
    removeCreature items tile creature false spectators
      = some (true, tile.removeThing items (.creature creature) 0,
          (seeing creature spectators).zip (oldStackPosVector tile creature spectators)) := by
  have hlength : (oldStackPosVector tile creature spectators).length
      = (players spectators).length := by
    rw [oldStackPosVector_eq, List.length_map]
  have hroom := seeing_length creature spectators
  rw [removeCreature, if_neg Bool.false_ne_true]
  dsimp only
  rw [sendRemoval_eq (by omega)]
  rfl

/-! ## The place on a client -/

variable {o : Observer κ}

/-- A creature that the player sees on the tile has its place in the view as index. -/
theorem getClientIndexOfCreature_iff (hnodup : tile.creatures.Nodup)
    (hmem : creature ∈ tile.creatures) (hsee : o.canSeeCreature creature = true) (n : Int) :
    (∃ k : Nat, n = k ∧ (o.view tile)[k]? = some (.creature creature)) ↔
      n = o.getClientIndexOfCreature tile creature := by
  have hitem : ∀ (l : List ItemId) (i : Nat),
      (l.map TileThing.item)[i]? ≠ some (.creature creature) := by
    intro l i h
    rw [List.getElem?_map, Option.map_eq_some_iff] at h
    obtain ⟨_, _, ⟨⟩⟩ := h
  have hindex : ∀ k : Nat, (o.visible tile)[k]? = some creature →
      o.getClientIndexOfCreature tile creature
        = ((Observer.groundThings tile).length + tile.top.length + k : Nat) := by
    intro k hk
    rw [Observer.getClientIndexOfCreature,
      Observer.clientIndexFrom_eq (List.nodup_reverse.mpr hnodup) hk, Observer.length_groundThings]
  have hplace : ∀ k : Nat, (o.view tile)[k]? = some (.creature creature) →
      ∃ i, (o.visible tile)[i]? = some creature ∧
        k = (Observer.groundThings tile).length + tile.top.length + i := by
    intro k hk
    rw [Observer.view, List.append_assoc, List.getElem?_append] at hk
    split at hk
    · rw [Observer.groundThings, ← List.map_append] at hk
      exact absurd hk (hitem _ k)
    · next hge =>
      rw [List.length_append, List.length_map] at hk hge
      rw [List.getElem?_append] at hk
      split at hk
      · rw [List.getElem?_map, Option.map_eq_some_iff] at hk
        obtain ⟨c, hc, ⟨⟩⟩ := hk
        exact ⟨_, hc, by omega⟩
      · exact absurd hk (hitem _ _)
  have hvisible : creature ∈ o.visible tile :=
    List.mem_filter.mpr ⟨List.mem_reverse.mpr hmem, hsee⟩
  obtain ⟨i, hi⟩ := List.mem_iff_getElem?.mp hvisible
  constructor
  · rintro ⟨k, rfl, hk⟩
    obtain ⟨j, hj, rfl⟩ := hplace k hk
    exact (hindex j hj).symm
  · rintro rfl
    refine ⟨_, hindex i hi, ?_⟩
    obtain ⟨hlt, hget⟩ := List.getElem?_eq_some_iff.mp hi
    rw [Observer.view, List.append_assoc, List.getElem?_append_right (by
        rw [List.length_append, List.length_map]; exact Nat.le_add_right _ _),
      List.length_append, List.length_map, Nat.add_sub_cancel_left,
      List.getElem?_append_left (by rw [List.length_map]; exact hlt), List.getElem?_map, hi]
    rfl

/-- It is the place that the description of the tile gave the creature. -/
theorem displayed_of_described {p : Player κ cs} {pos : Position} {i : Nat}
    (hclient : if p.isOTCv8 then (Observer.groundThings tile).length + tile.top.length ≤ 10
      else p.position ≠ pos)
    (h : (p.described tile pos)[i]? = some (.creature creature)) :
    Displayed p tile creature i := by
  have htake : ∃ n, p.described tile pos = (p.view tile).take n := by
    split at hclient
    · next hnew =>
      obtain ⟨n, -, heq⟩ : ∃ n, 10 ≤ n ∧ p.described tile pos = (p.view tile).take n :=
        Observer.described_OTCv8 hnew (.inl hclient)
      exact ⟨n, heq⟩
    · next hold =>
      exact ⟨10, Observer.described_basic (Bool.eq_false_of_not_eq_true hold) hclient⟩
  obtain ⟨n, heq⟩ := htake
  rw [heq, List.getElem?_take] at h
  split at h
  · exact ⟨i, rfl, h⟩
  · cases h

/-- The right place is sent to every player who can see the creature, unless a player who cannot
comes before one who can. -/
theorem removal_stackpos_iff (items : UInt16 → ItemType) (tile : Tile) (creature : CreatureId)
    (hnodup : tile.creatures.Nodup) (hmem : creature ∈ tile.creatures)
    (spectators : List (Spectator κ cs)) :
    (∃ tile' sent, removeCreature items tile creature false spectators = some (true, tile', sent) ∧
        RightPlaces tile creature spectators sent) ↔
      (players spectators).Pairwise fun p q =>
        q.canSeeCreature creature = true → p.canSeeCreature creature = true := by
  have hindex : ∀ p : Player κ cs, p.canSeeCreature creature = true →
      p.getClientIndexOfCreature tile creature ≠ -1 := by
    intro p hsee
    obtain ⟨k, hk, -⟩ := (getClientIndexOfCreature_iff hnodup hmem hsee _).mpr rfl
    omega
  have hlength := seeing_length creature spectators
  rw [← zip_filter_iff _ _ hindex, removeCreature_eq, oldStackPosVector_eq]
  constructor
  · rintro ⟨_, sent, h, hright⟩ m hm
    obtain ⟨-, -, rfl⟩ := Prod.mk.inj (Option.some.inj h) |>.imp_right Prod.mk.inj
    have hsee := (List.mem_filter.mp (List.of_mem_zip hm).1).2
    exact (getClientIndexOfCreature_iff hnodup hmem hsee _).mp (hright.displayed m hm)
  · intro h
    refine ⟨_, _, rfl, ?_, fun m hm => ?_⟩
    · exact List.map_fst_zip (by rw [List.length_map]; exact hlength)
    · have hsee := (List.mem_filter.mp (List.of_mem_zip hm).1).2
      exact (getClientIndexOfCreature_iff hnodup hmem hsee _).mpr (h m hm)

/-- A player next to the tile. -/
def neighbor (cs : Creatures) (player : CreatureId) (access : Bool) : Player Unit cs where
  items := Tile.fewTypes
  isOTCv8 := false
  player := player
  position := ⟨1001, 1000, 7⟩
  isAccessPlayer := access
  canSeeCreature := canSeeCreature cs player access false
  creature := fun _ => Observer.plainCreature
  isKnownCreature := fun known _ => ((true, 0), known)
  sees_self := if_pos rfl
  canSenseInvisibility := false
  sees := fun _ => rfl

/-- Creatures 1 to 3 are players, and the third of them is a ghost. -/
def ghost : Creatures where
  isPlayer c := c ≤ 3
  isInGhostMode c := c = 3
  isInvisible _ := false

/-- The third creature, with another behind it. -/
def tileOfTwo : Tile := { Observer.crowdedTile 1 with creatures := [3, 4] }

/-- A game master is sent -1 for the ghost next to a player who cannot see it. -/
theorem removal_stackpos_behind :
    ¬ ∀ (tile : Tile) (creature : CreatureId), tile.creatures.Nodup → creature ∈ tile.creatures →
      ∀ spectators : List (Spectator Unit ghost), ∃ tile' sent,
        removeCreature Tile.fewTypes tile creature false spectators = some (true, tile', sent) ∧
          RightPlaces tile creature spectators sent := by
  intro h
  have hnodup : tileOfTwo.creatures.Nodup := by decide
  have hspectators := h tileOfTwo 3 hnodup List.mem_cons_self
    [.player (neighbor ghost 1 false), .other 4, .player (neighbor ghost 2 true)]
  obtain ⟨_, sent, hsent, hright⟩ := hspectators
  rw [removeCreature_eq] at hsent
  obtain ⟨-, hsent⟩ := Prod.mk.inj (Option.some.inj hsent)
  obtain ⟨-, rfl⟩ := Prod.mk.inj hsent
  obtain ⟨k, hk, -⟩ := hright.displayed (neighbor ghost 2 true, -1) List.mem_cons_self
  omega

/-- The player who cannot see the ghost comes last. -/
theorem removal_stackpos_before :
    ∃ tile' sent, removeCreature Tile.fewTypes tileOfTwo 3 false
        [.other 4, .player (neighbor ghost 2 true), .player (neighbor ghost 1 false)]
          = some (true, tile', sent) ∧
      RightPlaces tileOfTwo 3
        [.other 4, .player (neighbor ghost 2 true), .player (neighbor ghost 1 false)] sent := by
  refine (removal_stackpos_iff Tile.fewTypes tileOfTwo 3 (by decide) List.mem_cons_self _).mpr ?_
  refine .cons ?_ (.cons (fun _ h => by cases h) .nil)
  rintro q hq -
  rfl

end Removal

end Bruxo.RemovedCreature
