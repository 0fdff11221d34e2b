import Bruxo.KeptItems
import Bruxo.Teleport
import Bruxo.Lib.Follow

/-!
# Chains of teleports

The loop check of `Teleport::addThing` follows where the teleports lead to. That is where creatures
go, which always come to rest. `Game::internalMoveItem` puts an item where the floor changes of that
tile lead to, and the teleport there may bring it back to a tile that the check did not look at.
So what is put on a tile comes to rest exactly if following both, teleports and floor changes,
meets no tile twice and no teleport with a possible loop after the first one.
-/

namespace Bruxo

namespace TeleportMap

open World Follow

/-! ## Where items are brought to -/

section Graph

variable (m : TeleportMap)

/-- The environment of the map, with types of items. -/
def env (items : UInt16 → ItemType) : Env where
  items := items
  tileFlags _ pos := ((m.getTile pos).map (·.flags)).getD {}
  classicEquipmentSlots := false
  onPlayerEquip _ _ _ _ := .noError
  notInvited _ _ := false
  newDuration _ := 0
  depth := 0

/-- The map with nothing on it. -/
def bare : World where
  thing _ := ⟨0, Item.bare, none, false, [], 1, none⟩
  tile pos := (m.getTile pos).map fun _ => ⟨none, [], [], []⟩
  player _ :=
    { inventory := fun _ => none
      tradeItem := none
      position := ⟨0, 0, 0⟩
      capacity := 0
      cannotPickupItem := false
      hasInfiniteCapacity := false }
  nextId := 0

def floorChange (pos : Position) : Option Position :=
  m.bare.floorChangeTile (m.env fun id => { id := id }) pos

/-- The tile that the loop of `internalMoveItem` comes to. -/
def landing : Nat → Position → Position
  | 0, pos => pos
  | n + 1, pos =>
      match m.floorChange pos with
      | none => pos
      | some dest => if dest = pos then pos else landing n dest

/-- The tile that an item is brought to by the teleport of a tile. -/
def next (pos : Position) : Option Position :=
  (m.getTeleportItem pos).bind fun destPos =>
    (m.getTile destPos).bind fun destTile =>
      if m.possibleLoop pos destTile = some true then none else some (m.landing 16 destPos)

/-- The condition on a tile: following teleports and floor changes from it meets no tile twice,
and on the way no teleport with a possible loop. -/
structure Straight (pos : Position) : Prop where
  once : Once m.next pos
  passes : ∀ n q destPos destTile, 0 < n → after m.next n pos = some q →
    m.getTeleportItem q = some destPos → m.getTile destPos = some destTile →
    m.possibleLoop q destTile ≠ some true

/-- The flags of the tiles are those of the map. -/
structure Fits (env : Env) : Prop where
  sensible : env.Sensible
  flags : ∀ w pos tile, m.getTile pos = some tile → env.tileFlags w pos = tile.flags

/-- A stack that is not empty and not higher than its type allows. -/
def Sized (env : Env) (w : World) (i : ThingId) : Prop :=
  (w.typeOf env i).stackable = true → 0 < w.count i ∧ w.count i ≤ w.stackSize env i

/-- The tiles are those of the map, and the items are in their places. -/
structure Sound (env : Env) (w : World) : Prop where
  tile : ∀ pos, (w.tile pos).isSome = (m.getTile pos).isSome
  placed : Placed env w
  sized : ∀ c, ∀ i ∈ w.contents c, Sized env w i

/-- The teleport of the tile lets everything come to rest, whatever is on the map: each call of
`addThing` ends, and then what was moved, if anything was, has settled. -/
structure ComesToRest (pos : Position) : Prop where
  creature : ∀ destPos, m.getTeleportItem pos = some destPos →
    ∃ n r, m.addCreature (m.creatureNotification n) pos destPos = some r ∧
      ∀ a, r = .inr a → a.why.settled = true
  item : ∀ (env : Env) (w : World) (item : ThingId) (destPos : Position), m.Fits env →
    m.Sound env w → item ∈ w.contents (.tile pos) → m.getTeleportItem pos = some destPos →
    ∃ n r, m.addThing env (m.postAddNotification env n) w pos destPos item = some r ∧
      ∀ s ∈ r.rests, s.why.settled = true

end Graph

/-! ## Where the redirections of the code lead to -/

section Landing

variable {m : TeleportMap} {env : Env} {w : World} {pos : Position}

theorem isSome_of_floorChangeTile {q : Position} (h : w.floorChangeTile env pos = some q) :
    (w.tile q).isSome := by
  have hexisting (p : Position) (h : (w.tile p).map (fun _ => p) = some q) : (w.tile q).isSome := by
    obtain ⟨t, ht, rfl⟩ := Option.map_eq_some_iff.mp h
    rw [ht]
    rfl
  unfold floorChangeTile at h
  dsimp only at h
  split at h
  · split at h
    · exact hexisting _ h
    split at h
    · exact hexisting _ h
    split at h
    · cases h
    · exact hexisting _ h
  split at h
  · exact hexisting _ h
  · cases h

theorem map_const_congr {α β γ : Type} {x : Option α} {y : Option β} {a b : γ}
    (h : x.isSome = y.isSome) (hab : y.isSome → a = b) :
    x.map (fun _ => a) = y.map fun _ => b := by
  cases x with
  | none =>
      cases y with
      | none => rfl
      | some _ => cases h
  | some _ =>
      cases y with
      | none => cases h
      | some _ => rw [Option.map_some, Option.map_some, hab rfl]

theorem floorChangeTile_eq (hfits : m.Fits env)
    (htile : ∀ p, (w.tile p).isSome = (m.getTile p).isSome)
    (hpos : (m.getTile pos).isSome) : w.floorChangeTile env pos = m.floorChange pos := by
  have hflags (p : Position) : (w.tile p).map (fun _ => env.tileFlags w p) =
      (m.bare.tile p).map fun _ => (m.env fun id => { id := id }).tileFlags m.bare p := by
    simp only [bare, Option.map_map]
    refine map_const_congr (htile p) fun hp => ?_
    obtain ⟨tile, hget⟩ := Option.isSome_iff_exists.mp hp
    rw [hfits.flags w p tile hget]
    exact (congrArg (fun o => (o.map (·.flags)).getD {}) hget).symm
  have hexisting (p : Position) : (w.tile p).map (fun _ => p) = (m.bare.tile p).map fun _ => p := by
    simp only [bare, Option.map_map]
    exact map_const_congr (htile p) fun _ => rfl
  have hhere : env.tileFlags w pos = (m.env fun id => { id := id }).tileFlags m.bare pos := by
    obtain ⟨tile, htile⟩ := Option.isSome_iff_exists.mp hpos
    rw [hfits.flags w pos tile htile]
    exact (congrArg (fun o => (o.map (·.flags)).getD {}) htile).symm
  unfold floorChange floorChangeTile
  simp only [hflags, hexisting, hhere]

theorem landing_isSome (m : TeleportMap) (n : Nat) (hpos : (m.getTile pos).isSome) :
    (m.getTile (m.landing n pos)).isSome := by
  induction n generalizing pos with
  | zero => exact hpos
  | succ n ih =>
      rw [landing]
      cases hchange : m.floorChange pos with
      | none => exact hpos
      | some dest =>
          have hdest := isSome_of_floorChangeTile hchange
          simp only [bare, Option.isSome_map] at hdest
          dsimp only
          split
          · exact hpos
          · exact ih hdest

/-- The loop of `internalMoveItem`, from a tile of the map on. -/
theorem redirect_landing (item : ThingId) (n : Nat) (index : Int) {o : Option ThingId}
    {flags : CylinderFlags} (hfits : m.Fits env)
    (htile : ∀ p, (w.tile p).isSome = (m.getTile p).isSome) (hpos : (m.getTile pos).isSome)
    (hflags : flags.ignoreNotMoveable = false)
    (ho : n = 0 → o = (w.tile pos).bind fun t => t.downItems.head?) :
    ∃ flags' : CylinderFlags, flags'.ignoreNotMoveable = false ∧
      w.redirect env item n ⟨.tile pos, index, o, flags⟩ =
        ⟨.tile (m.landing n pos), index,
          (w.tile (m.landing n pos)).bind fun t => t.downItems.head?, flags'⟩ := by
  induction n generalizing pos o flags with
  | zero => exact ⟨flags, hflags, by rw [redirect, landing, ho rfl]⟩
  | succ n ih =>
      have hchange := floorChangeTile_eq hfits htile hpos
      rw [redirect, landing]
      simp only [queryDestination, tileQueryDestination, hchange]
      cases hdest : m.floorChange pos with
      | none => exact ⟨flags, hflags, by simp only [if_true]⟩
      | some dest =>
          dsimp only
          by_cases hsame : dest = pos
          · subst hsame
            exact ⟨{ flags with noLimit := true }, hflags, by simp only [if_true]⟩
          · have hne : Cylinder.tile dest ≠ .tile pos := fun heq => hsame (Cylinder.tile.inj heq)
            have hin := isSome_of_floorChangeTile hdest
            simp only [bare, Option.isSome_map] at hin
            rw [if_neg hne, if_neg hsame]
            exact ih hin rfl fun _ => rfl

theorem next_eq_some {q : Position} (h : m.next pos = some q) :
    ∃ destPos destTile, m.getTeleportItem pos = some destPos ∧ m.getTile destPos = some destTile ∧
      m.possibleLoop pos destTile = some false ∧ q = m.landing 16 destPos := by
  obtain ⟨destPos, hteleport, h⟩ := Option.bind_eq_some_iff.mp h
  obtain ⟨destTile, hdest, h⟩ := Option.bind_eq_some_iff.mp h
  split at h
  · cases h
  next hloop =>
  obtain ⟨loop, hsome⟩ := possibleLoop_isSome m pos destTile
  cases loop with
  | true => exact absurd hsome hloop
  | false => exact ⟨destPos, destTile, hteleport, hdest, hsome, (Option.some.inj h).symm⟩

end Landing

end TeleportMap

end Bruxo
