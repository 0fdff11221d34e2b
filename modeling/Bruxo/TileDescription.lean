import Bruxo.KnownCreatures
import Bruxo.NetworkMessage
import Bruxo.TileStack

/-!
# What a client is told of a tile

`ProtocolGame::GetTileDescription` describes the things of a tile to a client, the ground
and the top items first, then the creatures that the player can see, the last one first, and
the down items: ten things at most, and more creatures only to an OTCv8 client. Another client is
to have the player itself among the ten on the tile where the player stands. Later messages
name a thing by its place among those described, as `Tile::getStackposOfItem` and
`Tile::getClientIndexOfCreature` find it.

The answers of `isKnownCreature` are taken from a function of the set of known creatures,
and the percentage of the health is a number that the creature brings along.
-/

namespace Bruxo.TileDescription

open TileStack NetworkMessage

def MAX_STACKPOS_THINGS : Nat := 10

/-! ## What is sent of a thing -/

structure Outfit where
  lookType : UInt16 := 0
  lookTypeEx : UInt16 := 0
  lookMount : UInt16 := 0
  lookHead : UInt8 := 0
  lookBody : UInt8 := 0
  lookLegs : UInt8 := 0
  lookFeet : UInt8 := 0
  lookAddons : UInt8 := 0

/-- What `AddCreature` asks of a creature, and of the player about it. -/
structure CreatureView where
  id : UInt32
  name : List UInt8
  isHealthHidden : Bool
  healthPercent : UInt8
  direction : UInt8
  isInGhostMode : Bool
  isInvisible : Bool
  currentOutfit : Outfit
  lightLevel : UInt8
  lightColor : UInt8
  stepSpeed : UInt16
  skullClient : UInt8
  partyShield : UInt8
  guildEmblem : UInt8
  canWalkthroughEx : Bool

/-- The player of a client, the items and creatures as it sees them; `κ` is the set of known
creatures. A player can see itself. -/
structure Observer (κ : Type) where
  items : UInt16 → ItemType
  isOTCv8 : Bool
  player : CreatureId
  position : Position
  isAccessPlayer : Bool
  canSeeCreature : CreatureId → Bool
  creature : CreatureId → CreatureView
  isKnownCreature : κ → UInt32 → (Bool × UInt32) × κ
  sees_self : canSeeCreature player = true

/-- `CLIENTFLUID_EMPTY`, `BLUE`, `RED`, `BROWN_1`, `GREEN`, `YELLOW`, `WHITE`, `PURPLE` -/
def fluidMap : List UInt8 := [0, 1, 5, 3, 6, 8, 9, 2]

namespace Observer

variable {κ : Type} (o : Observer κ)

def clientId (itemId : UInt16) : UInt16 :=
  let it := o.items itemId
  if !o.isOTCv8 && itemId > 12660 then (if it.stackable then 3031 else 105) else it.clientId

def addItemId (itemId : UInt16) : List Field := [.uint16 (o.clientId itemId)]

def addItem (item : TileItem) : List Field :=
  let it := o.items item.id
  o.addItemId item.id ++
    if it.stackable then [.byte (min 0xFF item.data.count)]
    else if it.isSplash || it.isFluidContainer then
      [.byte (fluidMap.getD (item.data.getFluidType % 8).toNat 0)]
    else []

def addOutfit (outfit : Outfit) : List Field :=
  let lookType := if !o.isOTCv8 && outfit.lookType ≥ 367 then 128 else outfit.lookType
  [.uint16 lookType] ++
    (if lookType ≠ 0 then
      [.byte outfit.lookHead, .byte outfit.lookBody, .byte outfit.lookLegs, .byte outfit.lookFeet,
        .byte outfit.lookAddons]
    else o.addItemId outfit.lookTypeEx) ++
    if o.isOTCv8 then [.uint16 outfit.lookMount] else []

def addCreature (c : CreatureView) (known : Bool) (remove : UInt32) : List Field :=
  (if known then [.uint16 0x62, .uint32 c.id]
    else [.uint16 0x61, .uint32 remove, .uint32 c.id, .string c.name]) ++
  [.byte (if c.isHealthHidden then 0 else c.healthPercent), .byte c.direction] ++
  o.addOutfit (if !c.isInGhostMode && !c.isInvisible then c.currentOutfit else {}) ++
  [.byte (if o.isAccessPlayer then 0xFF else c.lightLevel), .byte c.lightColor,
    .uint16 c.stepSpeed, .byte c.skullClient, .byte c.partyShield] ++
  (if known then [] else [.byte c.guildEmblem]) ++
  [.byte (if c.canWalkthroughEx then 0x00 else 0x01)]

/-! ## The loops of the description

Each loop gives the things that it sends and the count behind it, if the description goes
on. -/

def describeTop (isStacked : Bool) : List ItemId → Nat → List TileThing × Option Nat
  | [], count => ([], some count)
  | i :: rest, count =>
      let next := describeTop isStacked rest (count + 1)
      if !o.isOTCv8 then
        if count + 1 = 9 && isStacked then ([.item i], some (count + 1))
        else if count + 1 = MAX_STACKPOS_THINGS then ([.item i], none)
        else (.item i :: next.1, next.2)
      else if count + 1 = MAX_STACKPOS_THINGS then ([.item i], some (count + 1))
      else (.item i :: next.1, next.2)

def describeCreatures (isStacked : Bool) : List CreatureId → Nat → List TileThing × Option Nat
  | [], count => ([], some count)
  | c :: rest, count =>
      let describe (c : CreatureId) : List TileThing × Option Nat :=
        if count + 1 = MAX_STACKPOS_THINGS && !o.isOTCv8 then ([.creature c], none)
        else
          let next := describeCreatures isStacked rest (count + 1)
          (.creature c :: next.1, next.2)
      if !o.isOTCv8 && count = 9 && isStacked then describe o.player
      else if !o.canSeeCreature c then describeCreatures isStacked rest count
      else describe c

def describeDown : List ItemId → Nat → List TileThing
  | [], _ => []
  | i :: rest, count =>
      if count + 1 = MAX_STACKPOS_THINGS then [.item i] else .item i :: describeDown rest (count + 1)

def groundThings (s : Tile) : List TileThing := s.ground.toList.map .item

/-- The things that `GetTileDescription` sends for the tile at `pos`. -/
def described (s : Tile) (pos : Position) : List TileThing :=
  let isStacked : Bool := o.position = pos
  let ground := groundThings s
  let (top, count) := o.describeTop isStacked s.top ground.length
  match count with
  | none => ground ++ top
  | some count =>
      let (creatures, count) := o.describeCreatures isStacked s.creatures.reverse count
      match count with
      | none => ground ++ top ++ creatures
      | some count =>
          ground ++ top ++ creatures ++
            if count < MAX_STACKPOS_THINGS then describeDown s.down count else []

end Observer

/-! ## The places of things -/

namespace Observer

variable {κ : Type} (o : Observer κ) (s : Tile)

def clientIndexFrom (creature : CreatureId) : List CreatureId → Nat → Int
  | [], _ => -1
  | c :: rest, n =>
      if c = creature then n
      else if o.canSeeCreature c then clientIndexFrom creature rest (n + 1)
      else clientIndexFrom creature rest n

def getClientIndexOfCreature (creature : CreatureId) : Int :=
  o.clientIndexFrom creature s.creatures.reverse
    ((if s.ground.isSome then 1 else 0) + s.top.length)

def getStackposOfItem (item : ItemId) : Int :=
  if s.ground = some item then 0
  else
    let n := if s.ground.isSome then 1 else 0
    if (s.typeOf o.items item).alwaysOnTop then
      match s.top.idxOf? item with
      | some k => (n + k : Nat)
      | none => -1
    else
      match s.down.idxOf? item with
      | some k => (n + s.top.length + s.creatures.countP o.canSeeCreature + k : Nat)
      | none => -1

def stackpos : TileThing → Int
  | .item i => o.getStackposOfItem s i
  | .creature c => o.getClientIndexOfCreature s c

/-- The creatures that the player sees, the last one first. -/
def visible : List CreatureId := s.creatures.reverse.filter o.canSeeCreature

/-- What the player sees on the tile, in the order of its description. -/
def view : List TileThing :=
  groundThings s ++ s.top.map .item ++ (o.visible s).map .creature ++ s.down.map .item

/-- What is in place `i` of the description is the thing with that index, and what is not
described has no index below ten. -/
structure Agrees (pos : Position) : Prop where
  place : ∀ (i : Nat) t, (o.described s pos)[i]? = some t → o.stackpos s t = i
  rest : ∀ t ∈ o.view s, t ∉ o.described s pos → ¬(0 ≤ o.stackpos s t ∧ o.stackpos s t < 10)

/-! ## The loops -/

section Loops

variable {κ : Type} {o : Observer κ} {count : Nat}

theorem describeTop_basic (hclient : o.isOTCv8 = false) (l : List ItemId) (hcount : count < 10) :
    o.describeTop false l count = ((l.map TileThing.item).take (10 - count),
      if count + l.length < 10 then some (count + l.length) else none) := by
  induction l generalizing count with
  | nil => simp [describeTop, hcount]
  | cons i l ih =>
      rw [describeTop, hclient, List.length_cons, List.map_cons]
      by_cases hlast : count + 1 = 10
      · obtain rfl : count = 9 := by omega
        simp [MAX_STACKPOS_THINGS]
        omega
      · have htake : 10 - count = (10 - (count + 1)) + 1 := by omega
        simp only [ih (show count + 1 < 10 by omega), MAX_STACKPOS_THINGS, hlast, htake,
          List.take_succ_cons, Nat.add_right_comm count 1, ← Nat.add_assoc]
        simp

theorem describeTop_stacked (hclient : o.isOTCv8 = false) (l : List ItemId) (hcount : count < 9) :
    o.describeTop true l count =
      ((l.map TileThing.item).take (9 - count), some (min 9 (count + l.length))) := by
  induction l generalizing count with
  | nil => simp [describeTop]; omega
  | cons i l ih =>
      rw [describeTop, hclient, List.length_cons, List.map_cons]
      by_cases hlast : count + 1 = 9
      · obtain rfl : count = 8 := by omega
        simp
        omega
      · have htake : 9 - count = (9 - (count + 1)) + 1 := by omega
        have hten : ¬ count + 1 = 10 := by omega
        simp only [ih (show count + 1 < 9 by omega), MAX_STACKPOS_THINGS, hlast, hten, htake,
          List.take_succ_cons, Nat.add_right_comm count 1, ← Nat.add_assoc]
        simp

theorem describeTop_OTCv8 (hclient : o.isOTCv8 = true) (isStacked : Bool) (l : List ItemId)
    (hcount : count < 10) :
    o.describeTop isStacked l count =
      ((l.map TileThing.item).take (10 - count), some (min 10 (count + l.length))) := by
  induction l generalizing count with
  | nil => simp [describeTop]; omega
  | cons i l ih =>
      rw [describeTop, hclient, List.length_cons, List.map_cons]
      by_cases hlast : count + 1 = 10
      · obtain rfl : count = 9 := by omega
        simp [MAX_STACKPOS_THINGS]
        omega
      · have htake : 10 - count = (10 - (count + 1)) + 1 := by omega
        simp only [ih (show count + 1 < 10 by omega), MAX_STACKPOS_THINGS, hlast, htake,
          List.take_succ_cons, Nat.add_right_comm count 1, ← Nat.add_assoc]
        simp

theorem describeCreatures_basic (hclient : o.isOTCv8 = false) (l : List CreatureId)
    (hcount : count < 10) :
    o.describeCreatures false l count =
      (((l.filter o.canSeeCreature).map TileThing.creature).take (10 - count),
        if count + (l.filter o.canSeeCreature).length < 10 then
          some (count + (l.filter o.canSeeCreature).length)
        else none) := by
  induction l generalizing count with
  | nil => simp [describeCreatures, hcount]
  | cons c l ih =>
      rw [describeCreatures, hclient]
      cases hsee : o.canSeeCreature c with
      | false => simp [hsee, ih hcount]
      | true =>
          rw [List.filter_cons_of_pos hsee, List.map_cons, List.length_cons]
          by_cases hlast : count + 1 = 10
          · obtain rfl : count = 9 := by omega
            simp [MAX_STACKPOS_THINGS]
            omega
          · have htake : 10 - count = (10 - (count + 1)) + 1 := by omega
            simp only [ih (show count + 1 < 10 by omega), MAX_STACKPOS_THINGS, hlast, htake,
              List.take_succ_cons, Nat.add_right_comm count 1, ← Nat.add_assoc]
            simp

theorem describeCreatures_OTCv8 (hclient : o.isOTCv8 = true) (isStacked : Bool)
    (l : List CreatureId) :
    o.describeCreatures isStacked l count =
      ((l.filter o.canSeeCreature).map TileThing.creature,
        some (count + (l.filter o.canSeeCreature).length)) := by
  induction l generalizing count with
  | nil => rfl
  | cons c l ih =>
      rw [describeCreatures, hclient]
      cases hsee : o.canSeeCreature c with
      | false => simp [hsee, ih]
      | true =>
          simp [hsee, ih]
          omega

/-- On the tile of the player, the player comes ninth if there is no place left before. -/
theorem describeCreatures_stacked (hclient : o.isOTCv8 = false) (l : List CreatureId)
    (hcount : count ≤ 9) :
    let v := l.filter o.canSeeCreature
    o.describeCreatures true l count = (v.map TileThing.creature, some (count + v.length)) ∧
        count + v.length ≤ 9 ∨
      o.describeCreatures true l count =
        ((v.map TileThing.creature).take (9 - count) ++ [.creature o.player], none) ∧
        9 ≤ count + v.length := by
  induction l generalizing count with
  | nil => exact .inl ⟨rfl, hcount⟩
  | cons c l ih =>
      rw [describeCreatures, hclient]
      by_cases hnine : count = 9
      · subst hnine
        right
        simp [MAX_STACKPOS_THINGS]
      · have hten : ¬ count + 1 = 10 := by omega
        cases hsee : o.canSeeCreature c with
        | false =>
            rw [List.filter_cons_of_neg (by simp [hsee])]
            simpa [hsee, hnine] using ih hcount
        | true =>
            rw [List.filter_cons_of_pos hsee]
            have htake : 9 - count = (9 - (count + 1)) + 1 := by omega
            rcases ih (show count + 1 ≤ 9 by omega) with ⟨heq, hle⟩ | ⟨heq, hle⟩
            · left
              simp [heq, hnine, MAX_STACKPOS_THINGS, hten]
              omega
            · right
              simp [heq, hnine, MAX_STACKPOS_THINGS, hten, htake]
              omega

theorem describeDown_eq (l : List ItemId) (hcount : count < 10) :
    describeDown l count = (l.map TileThing.item).take (10 - count) := by
  induction l generalizing count with
  | nil => simp [describeDown]
  | cons i l ih =>
      rw [describeDown, List.map_cons]
      by_cases hlast : count + 1 = 10
      · obtain rfl : count = 9 := by omega
        simp [MAX_STACKPOS_THINGS]
      · have htake : 10 - count = (10 - (count + 1)) + 1 := by omega
        rw [if_neg (show ¬ count + 1 = MAX_STACKPOS_THINGS from hlast), ih (by omega), htake,
          List.take_succ_cons]

end Loops

/-! ## The places in the view -/

section View

variable {κ : Type} {o : Observer κ} {s : Tile}

theorem clientIndexFrom_eq {l : List CreatureId} (hnodup : l.Nodup) {n k : Nat} {c : CreatureId}
    (h : (l.filter o.canSeeCreature)[k]? = some c) : o.clientIndexFrom c l n = (n + k : Nat) := by
  induction l generalizing n k with
  | nil => simp at h
  | cons d l ih =>
      obtain ⟨hd, hnodup⟩ := List.nodup_cons.mp hnodup
      rw [clientIndexFrom]
      cases hsee : o.canSeeCreature d with
      | false =>
          rw [List.filter_cons_of_neg (by simp [hsee])] at h
          have hmem := (List.mem_filter.mp (List.mem_of_getElem? h)).1
          have hne : d ≠ c := fun heq => hd (heq ▸ hmem)
          rw [if_neg hne, if_neg Bool.false_ne_true, ih hnodup h]
      | true =>
          rw [List.filter_cons_of_pos hsee] at h
          cases k with
          | zero => rw [if_pos (Option.some.inj h), Nat.add_zero]
          | succ k =>
              rw [List.getElem?_cons_succ] at h
              have hmem := (List.mem_filter.mp (List.mem_of_getElem? h)).1
              have hne : d ≠ c := fun heq => hd (heq ▸ hmem)
              rw [if_neg hne, if_pos rfl, ih hnodup h, Nat.add_right_comm, Nat.add_assoc]

theorem idxOf?_eq {l : List ItemId} (hnodup : l.Nodup) {k : Nat} {i : ItemId}
    (h : l[k]? = some i) : l.idxOf? i = some k := by
  obtain ⟨j, hj⟩ := Tile.idxOf?_ne_none (List.mem_of_getElem? h)
  obtain ⟨hk, _⟩ := List.getElem?_eq_some_iff.mp h
  rw [hj, (List.getElem?_inj hk hnodup).mp (h.trans (Tile.getElem?_of_idxOf? hj).symm)]

theorem length_visible : (o.visible s).length = s.creatures.countP o.canSeeCreature := by
  rw [visible, ← List.countP_eq_length_filter, List.countP_reverse]

theorem length_groundThings : (groundThings s).length = if s.ground.isSome then 1 else 0 := by
  cases h : s.ground <;> simp [groundThings, h]

/-- The index of what the player sees on a tile is its place in the view. -/
theorem stackpos_of_view (hd : s.Distinct) (hl : s.Layered o.items) {k : Nat} {t : TileThing}
    (h : (o.view s)[k]? = some t) : o.stackpos s t = k := by
  have above {i : ItemId} (hi : i ∈ s.items) : s.ground ≠ some i :=
    fun hground => hd.ground i hground hi
  have hnodup := hd.nodup
  rw [← Tile.down_append_top, List.nodup_append] at hnodup
  rw [view, List.getElem?_append] at h
  split at h
  · rw [List.getElem?_append] at h
    split at h
    · rw [List.getElem?_append] at h
      split at h
      · rw [groundThings] at h
        cases hground : s.ground with
        | none => simp [hground] at h
        | some g =>
            rw [hground] at h
            cases k with
            | zero =>
                obtain rfl := Option.some.inj h
                exact if_pos hground
            | succ k => simp at h
      · rw [List.getElem?_map, Option.map_eq_some_iff] at h
        obtain ⟨i, hi, rfl⟩ := h
        have hmem := List.mem_of_getElem? hi
        rw [stackpos, getStackposOfItem, if_neg (above (Tile.mem_items.mpr (.inr hmem))),
          if_pos (hl.top i hmem), idxOf?_eq hnodup.2.1 hi, ← length_groundThings]
        show (((groundThings s).length + (k - (groundThings s).length) : Nat) : Int) = k
        congr 1
        omega
    · rw [List.getElem?_map, Option.map_eq_some_iff] at h
      obtain ⟨c, hc, rfl⟩ := h
      rw [stackpos, getClientIndexOfCreature,
        clientIndexFrom_eq (List.nodup_reverse.mpr hd.creatures) hc, ← length_groundThings]
      simp only [List.length_append, List.length_map] at *
      congr 1
      omega
  · rw [List.getElem?_map, Option.map_eq_some_iff] at h
    obtain ⟨i, hi, rfl⟩ := h
    have hmem := List.mem_of_getElem? hi
    rw [stackpos, getStackposOfItem, if_neg (above (Tile.mem_items.mpr (.inl hmem))),
      if_neg (by rw [hl.down i hmem]; exact Bool.false_ne_true), idxOf?_eq hnodup.1 hi,
      ← length_groundThings, ← length_visible]
    simp only [List.length_append, List.length_map] at *
    congr 1
    omega

end View

/-! ## What is described -/

section Described

variable {κ : Type} {o : Observer κ} {s : Tile} {pos : Position}

theorem groundThings_le : (groundThings s).length ≤ 1 := by
  cases h : s.ground <;> simp [groundThings, h]

theorem take_view (n : Nat) :
    (o.view s).take n = (groundThings s).take n ++
      (s.top.map TileThing.item).take (n - (groundThings s).length) ++
      ((o.visible s).map TileThing.creature).take
        (n - ((groundThings s).length + s.top.length)) ++
      (s.down.map TileThing.item).take
        (n - ((groundThings s).length + s.top.length + (o.visible s).length)) := by
  simp only [view, List.take_append, List.length_append, List.length_map]

/-- On a tile away from the player, the first ten things are described. -/
theorem described_basic (hclient : o.isOTCv8 = false) (hpos : o.position ≠ pos) :
    o.described s pos = (o.view s).take 10 := by
  have hground := groundThings_le (s := s)
  have hfew : (groundThings s).take 10 = groundThings s :=
    List.take_of_length_le (Nat.le_trans hground (by decide))
  have htop := describeTop_basic hclient s.top (Nat.lt_of_le_of_lt hground (by decide))
  simp only [described, decide_eq_false hpos, htop, take_view, hfew]
  by_cases h₁ : (groundThings s).length + s.top.length < 10
  · have hcreatures := describeCreatures_basic hclient s.creatures.reverse h₁
    rw [show s.creatures.reverse.filter o.canSeeCreature = o.visible s from rfl] at hcreatures
    simp only [if_pos h₁, hcreatures]
    by_cases h₂ : (groundThings s).length + s.top.length + (o.visible s).length < 10
    · simp only [if_pos h₂, MAX_STACKPOS_THINGS, describeDown_eq _ h₂]
    · simp only [if_neg h₂, Nat.sub_eq_zero_of_le (Nat.le_of_not_lt h₂), List.take_zero,
        List.append_nil]
  · have hfull := Nat.le_of_not_lt h₁
    simp only [if_neg h₁, Nat.sub_eq_zero_of_le hfull,
      Nat.sub_eq_zero_of_le (Nat.le_trans hfull (Nat.le_add_right ..)), List.take_zero,
      List.append_nil]

/-- A description that has room for all the creatures. -/
theorem take_view_of_le {n : Nat}
    (h : (groundThings s).length + s.top.length + (o.visible s).length ≤ n) :
    (o.view s).take n = groundThings s ++ s.top.map TileThing.item ++
      (o.visible s).map TileThing.creature ++
      (s.down.map TileThing.item).take
        (n - ((groundThings s).length + s.top.length + (o.visible s).length)) := by
  rw [take_view, List.take_of_length_le (show (groundThings s).length ≤ n by omega),
    List.take_of_length_le (by rw [List.length_map]; omega),
    List.take_of_length_le (by rw [List.length_map]; omega)]

/-- To an OTCv8 client all creatures are described. -/
theorem described_OTCv8 (hclient : o.isOTCv8 = true)
    (hfew : (groundThings s).length + s.top.length ≤ 10 ∨ o.visible s = []) :
    ∃ n, 10 ≤ n ∧ o.described s pos = (o.view s).take n := by
  have hground := groundThings_le (s := s)
  have htop := describeTop_OTCv8 hclient (decide (o.position = pos)) s.top
    (Nat.lt_of_le_of_lt hground (by decide))
  have hcreatures (count : Nat) : o.describeCreatures (decide (o.position = pos))
      s.creatures.reverse count =
        ((o.visible s).map TileThing.creature, some (count + (o.visible s).length)) :=
    describeCreatures_OTCv8 hclient _ s.creatures.reverse
  simp only [described, htop, hcreatures]
  by_cases hle : (groundThings s).length + s.top.length ≤ 10
  · refine ⟨max 10 ((groundThings s).length + s.top.length + (o.visible s).length),
      Nat.le_max_left .., ?_⟩
    rw [take_view_of_le (Nat.le_max_right ..), Nat.min_eq_right hle,
      List.take_of_length_le (by rw [List.length_map]; omega)]
    congr 1
    split
    · next hroom => rw [describeDown_eq _ hroom, Nat.max_eq_left (show _ ≤ 10 from Nat.le_of_lt hroom)]
    · next hfull =>
        rw [Nat.max_eq_right (Nat.le_of_not_lt (show ¬_ < 10 from hfull)), Nat.sub_self,
          List.take_zero]
  · have hnone := hfew.resolve_left hle
    have hten := Nat.le_of_not_le hle
    refine ⟨10, Nat.le_refl _, ?_⟩
    rw [take_view, hnone, Nat.min_eq_left hten, List.length_nil, Nat.add_zero, Nat.add_zero,
      if_neg (show ¬10 < MAX_STACKPOS_THINGS from Nat.lt_irrefl 10), Nat.sub_eq_zero_of_le hten,
      List.take_of_length_le (show (groundThings s).length ≤ 10 by omega), List.map_nil,
      List.take_nil, List.take_zero]

/-- On the tile of the player, the player may be described in place nine. -/
theorem described_stacked (hclient : o.isOTCv8 = false) (hpos : o.position = pos)
    (hself : o.player ∈ s.creatures) :
    o.described s pos = (o.view s).take 10 ∨
      o.described s pos = (o.view s).take 9 ++ [.creature o.player] ∧
        9 ≤ (groundThings s).length + s.top.length + (o.visible s).length := by
  have hground := groundThings_le (s := s)
  have htop := describeTop_stacked hclient s.top (Nat.lt_of_le_of_lt hground (by decide))
  have hcount : min 9 ((groundThings s).length + s.top.length) ≤ 9 := Nat.min_le_left ..
  have hcreatures := describeCreatures_stacked hclient s.creatures.reverse hcount
  rw [show s.creatures.reverse.filter o.canSeeCreature = o.visible s from rfl] at hcreatures
  simp only [described, decide_eq_true hpos, htop]
  rcases hcreatures with ⟨heq, hle⟩ | ⟨heq, hge⟩
  · have hseen : 0 < (o.visible s).length :=
      List.length_pos_of_mem (List.mem_filter.mpr ⟨List.mem_reverse.mpr hself, o.sees_self⟩)
    have hroom : (groundThings s).length + s.top.length + (o.visible s).length < 10 := by omega
    left
    rw [take_view_of_le (Nat.le_of_lt hroom), List.take_of_length_le (by rw [List.length_map]; omega)]
    simp only [heq]
    rw [Nat.min_eq_right (show (groundThings s).length + s.top.length ≤ 9 by omega),
      if_pos (show _ < MAX_STACKPOS_THINGS from hroom), describeDown_eq _ hroom]
  · have hplayer : 9 ≤ (groundThings s).length + s.top.length + (o.visible s).length := by omega
    refine .inr ⟨?_, hplayer⟩
    have hrest : 9 - min 9 ((groundThings s).length + s.top.length) =
        9 - ((groundThings s).length + s.top.length) := by omega
    rw [take_view, List.take_of_length_le (show (groundThings s).length ≤ 9 by omega),
      Nat.sub_eq_zero_of_le hplayer, List.take_zero, List.append_nil]
    simp only [heq, hrest, List.append_assoc]

/-- What a client that is told the first `n` things makes of their places. -/
theorem agrees_of_take {n : Nat} (hd : s.Distinct) (hl : s.Layered o.items) (hn : 10 ≤ n)
    (h : o.described s pos = (o.view s).take n) : o.Agrees s pos where
  place i t ht := by
    rw [h, List.getElem?_take] at ht
    split at ht
    · exact stackpos_of_view hd hl ht
    · cases ht
  rest t ht hnot := by
    obtain ⟨k, hk⟩ := List.mem_iff_getElem?.mp ht
    rw [stackpos_of_view hd hl hk]
    rintro ⟨_, hlt⟩
    refine hnot (h ▸ List.mem_of_getElem? (i := k) ?_)
    rw [List.getElem?_take, if_pos (by omega), hk]

/-- The description that keeps the last place for the player. -/
structure AgreesBelow (o : Observer κ) (s : Tile) (pos : Position) : Prop where
  length_le : (o.described s pos).length ≤ 10
  place : ∀ i < 9, ∀ t, (o.described s pos)[i]? = some t → o.stackpos s t = (i : Nat)
  last : ∀ t, (o.described s pos)[9]? = some t → t = .creature o.player ∨ o.stackpos s t = 9
  rest : ∀ t ∈ o.view s, t ∉ o.described s pos → ¬(0 ≤ o.stackpos s t ∧ o.stackpos s t < 9)

theorem agreesBelow_of_take (hd : s.Distinct) (hl : s.Layered o.items)
    (h : o.described s pos = (o.view s).take 10) : o.AgreesBelow s pos := by
  have hagrees := agrees_of_take hd hl (Nat.le_refl 10) h
  exact
    { length_le := by
        rw [h]
        exact List.length_take_le ..
      place := fun i _ t ht => hagrees.place i t ht
      last := fun t ht => .inr (hagrees.place 9 t ht)
      rest := fun t ht hnot hplace => hagrees.rest t ht hnot ⟨hplace.1, by omega⟩ }

theorem agreesBelow_of_player (hd : s.Distinct) (hl : s.Layered o.items)
    (h : o.described s pos = (o.view s).take 9 ++ [.creature o.player])
    (hlength : 9 ≤ (o.view s).length) : o.AgreesBelow s pos where
  length_le := by
    rw [h, List.length_append, List.length_take, List.length_singleton]
    omega
  place i hi t ht := by
    rw [h, List.getElem?_append_left (by rw [List.length_take]; omega), List.getElem?_take,
      if_pos hi] at ht
    exact stackpos_of_view hd hl ht
  last t ht := by
    rw [h, List.getElem?_append_right (by rw [List.length_take]; omega), List.length_take,
      Nat.min_eq_left hlength] at ht
    exact .inl (Option.some.inj ht).symm
  rest t ht hnot := by
    obtain ⟨k, hk⟩ := List.mem_iff_getElem?.mp ht
    rw [stackpos_of_view hd hl hk]
    rintro ⟨_, hlt⟩
    refine hnot (h ▸ List.mem_append_left _ (List.mem_of_getElem? (i := k) ?_))
    rw [List.getElem?_take, if_pos (by omega), hk]

/-- Where nothing is cut off and no place is kept for the player. -/
def Ordinary (o : Observer κ) (s : Tile) (pos : Position) : Prop :=
  if o.isOTCv8 then (groundThings s).length + s.top.length ≤ 10 ∨ o.visible s = []
  else o.position ≠ pos ∨
    (groundThings s).length + s.top.length + (o.visible s).length < 9

/-- The places of a description are the indices that later messages use, but for the last
place on the tile of the player, which may be kept for the player. -/
theorem client_stackpos (hd : s.Distinct) (hl : s.Layered o.items)
    (hself : o.position = pos → o.player ∈ s.creatures) :
    (o.Ordinary s pos → o.Agrees s pos) ∧ (o.isOTCv8 = false → o.AgreesBelow s pos) := by
  have hview : (groundThings s).length + s.top.length + (o.visible s).length ≤
      (o.view s).length := by
    simp only [view, List.length_append, List.length_map]
    omega
  constructor
  · intro hordinary
    rw [Ordinary] at hordinary
    split at hordinary
    · next hclient =>
        obtain ⟨n, hn, h⟩ := described_OTCv8 hclient hordinary
        exact agrees_of_take hd hl hn h
    · next hclient =>
        have hclient := Bool.eq_false_of_not_eq_true hclient
        have htake : o.described s pos = (o.view s).take 10 := by
          by_cases hpos : o.position = pos
          · rcases described_stacked hclient hpos (hself hpos) with h | ⟨_, hge⟩
            · exact h
            · exact absurd (hordinary.resolve_left (not_not_intro hpos)) (Nat.not_lt.mpr hge)
          · exact described_basic hclient hpos
        exact agrees_of_take hd hl (Nat.le_refl 10) htake
  · intro hclient
    by_cases hpos : o.position = pos
    · rcases described_stacked hclient hpos (hself hpos) with h | ⟨h, hge⟩
      · exact agreesBelow_of_take hd hl h
      · exact agreesBelow_of_player hd hl h (Nat.le_trans hge hview)
    · exact agreesBelow_of_take hd hl (described_basic hclient hpos)

end Described

/-! ## Crowded tiles -/

def plainCreature : CreatureView where
  id := 0x10000000
  name := []
  isHealthHidden := false
  healthPercent := 100
  direction := 2
  isInGhostMode := false
  isInvisible := false
  currentOutfit := { lookType := 128 }
  lightLevel := 0
  lightColor := 0
  stepSpeed := 220
  skullClient := 0
  partyShield := 0
  guildEmblem := 0
  canWalkthroughEx := false

/-- A player, creature 1, who knows every creature. -/
def onlooker (isOTCv8 : Bool) : Observer Unit where
  items := Tile.fewTypes
  isOTCv8 := isOTCv8
  player := 1
  position := ⟨1000, 1000, 7⟩
  isAccessPlayer := false
  canSeeCreature := fun _ => true
  creature := fun _ => plainCreature
  isKnownCreature := fun known _ => ((true, 0), known)
  sees_self := rfl

/-- A ground with items that are always on top, the player and a creature that came later. -/
def crowdedTile (top : Nat) : Tile where
  thing i := Tile.plainItem (if i = 0 then 1 else 2)
  ground := some 0
  items := (List.range top).map (· + 1)
  downItemCount := 0
  creatures := [1, 2]
  floorChange := fun _ => false
  flags := fun _ => false

theorem crowdedTile_distinct {top : Nat} (h : top ≤ 0xFFFF) : (crowdedTile top).Distinct where
  count := Nat.zero_le _
  small := by simpa [crowdedTile] using h
  nodup := List.nodup_range.map fun _ _ => Nat.succ.inj
  ground g hg := by
    obtain rfl := Option.some.inj hg
    simp [crowdedTile]
  creatures := show [1, 2].Nodup by decide

theorem crowdedTile_layered (top : Nat) : (crowdedTile top).Layered Tile.fewTypes where
  down i hi := by simp [Tile.down, crowdedTile] at hi
  top i hi := by
    obtain ⟨k, _, rfl⟩ := List.mem_map.mp (List.mem_of_mem_drop hi)
    simp [Tile.typeOf, crowdedTile, Tile.plainItem, Tile.fewTypes]

/-- An item that turned into one that is always on top where it lay. -/
def turnedTile : Tile where
  thing _ := Tile.plainItem 2
  ground := none
  items := [1]
  downItemCount := 1
  creatures := []
  floorChange := fun _ => false
  flags := fun _ => false

theorem turnedTile_distinct : turnedTile.Distinct where
  count := Nat.le_refl _
  small := by decide
  nodup := by decide
  ground _ hg := by cases hg
  creatures := List.nodup_nil

/-- The player among five things on its own tile. -/
theorem client_stackpos_five :
    (onlooker false).Agrees (crowdedTile 2) ⟨1000, 1000, 7⟩ ∧
      (onlooker false).AgreesBelow (crowdedTile 2) ⟨1000, 1000, 7⟩ := by
  have hself : (onlooker false).position = ⟨1000, 1000, 7⟩ →
      (onlooker false).player ∈ (crowdedTile 2).creatures := fun _ => List.mem_cons_self ..
  have h := client_stackpos (crowdedTile_distinct (by decide)) (crowdedTile_layered 2) hself
  exact ⟨h.1 (.inr (by decide +kernel)), h.2 rfl⟩

/-- With nine things before the creatures on its own tile, the player is in place nine of
the description and another creature has that index; with eleven, creatures are described
to an OTCv8 client in places that are not their indices; and an item that turned into one that is
always on top has no index at all. -/
theorem client_stackpos_fails :
    (¬ ∀ (o : Observer Unit) (s : Tile) (pos : Position), s.Distinct → s.Layered o.items →
      (o.position = pos → o.player ∈ s.creatures) → o.isOTCv8 = false → o.Agrees s pos) ∧
    (¬ ∀ (o : Observer Unit) (s : Tile) (pos : Position), s.Distinct → s.Layered o.items →
      (o.position = pos → o.player ∈ s.creatures) → o.isOTCv8 = true → o.Agrees s pos) ∧
    ¬ ∀ (o : Observer Unit) (s : Tile) (pos : Position), s.Distinct →
      (o.position = pos → o.player ∈ s.creatures) → o.Ordinary s pos → o.Agrees s pos := by
  have hself {o : Observer Unit} (h : o.player = 1) (top : Nat) (pos : Position) :
      o.position = pos → o.player ∈ (crowdedTile top).creatures := by
    intro _
    rw [h]
    exact List.mem_cons_self ..
  refine ⟨fun h => ?_, fun h => ?_, fun h => ?_⟩
  · have hagrees := h (onlooker false) (crowdedTile 8) ⟨1000, 1000, 7⟩
      (crowdedTile_distinct (by decide)) (crowdedTile_layered 8) (hself rfl 8 _) rfl
    exact absurd (hagrees.place 9 (.creature 1) (by decide +kernel)) (by decide +kernel)
  · have hagrees := h (onlooker true) (crowdedTile 10) ⟨1000, 1000, 7⟩
      (crowdedTile_distinct (by decide)) (crowdedTile_layered 10) (hself rfl 10 _) rfl
    exact absurd (hagrees.place 10 (.creature 2) (by decide +kernel)) (by decide +kernel)
  · have hagrees := h (onlooker true) turnedTile ⟨1001, 1000, 7⟩ turnedTile_distinct
      (fun hpos => absurd hpos (by decide)) (.inr rfl)
    exact absurd (hagrees.place 0 (.item 1) (by decide +kernel)) (by decide +kernel)

end Observer

end Bruxo.TileDescription
