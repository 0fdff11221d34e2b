import Bruxo.Lib.Runs
import Bruxo.PathSearch
import Mathlib.Algebra.Group.Nat.Defs

/-!
# Beds

`BedItem` (`bed.cpp`), the use of a bed (`actions.cpp`), what `House::setOwner` does with the beds
of a house and how they are saved and loaded (`house.cpp`, `iomapserialize.cpp`). Who sleeps is
written in both halves of a bed and in `bedSleepersMap`, which has one bed for a player.

A player who lies down is only taken out of the game a little later, and `trySleep` does not ask
whether it already has a bed: the second bed takes the place of the first one in the map, and
nobody wakes the first one. The two halves also look at the clock one after the other.
-/

namespace Bruxo.Beds

open Runs PathSearch

/-- The id of a row of `players`, which starts at one -/
abbrev Guid := { guid : Nat // guid ≠ 0 }

abbrev HouseId := Nat

inductive PlayerSex where
  | PLAYERSEX_FEMALE | PLAYERSEX_MALE
  deriving DecidableEq

def HOUSE_OWNER : Nat := 3

/-- `bedPartnerDir` is `none` for `DIRECTION_NONE`. -/
structure ItemType where
  isBed : Bool := false
  bedPartnerDir : Option Direction := none
  transformToOnUse : PlayerSex → Nat := fun _ => 0
  transformToFree : Nat := 0

/-- The map: the id of the bed that a tile has, and the house that it belongs to. -/
structure Layout where
  items : Nat → ItemType
  bedId : Position → Option Nat
  house : Position → Option HouseId
  houseTiles : List Position
  mem_houseTiles : ∀ pos, pos ∈ houseTiles ↔ (house pos).isSome
  nodup : houseTiles.Nodup

structure BedItem where
  id : Nat := 0
  sleepStart : Nat := 0
  sleeperGUID : Nat := 0
  deriving DecidableEq

inductive BedAttr where
  | sleeperGUID (guid : Nat)
  | sleepStart (start : Nat)
  deriving DecidableEq

/-- A bed in the rows of `tile_store` -/
structure SavedBed where
  pos : Position
  id : Nat
  attrs : List BedAttr

/-- What an item of a tile that has no bed would be, no matter. -/
structure State where
  bed : Position → BedItem
  bedSleepersMap : Nat → Option Position
  owner : HouseId → Nat
  players : Guid → Bool
  saved : List SavedBed

namespace BedItem

def internalSetSleeper (guid now : Nat) (bed : BedItem) : BedItem :=
  { bed with sleeperGUID := guid, sleepStart := now }

def internalRemoveSleeper (bed : BedItem) : BedItem :=
  { bed with sleeperGUID := 0, sleepStart := 0 }

/-- `transformItem` to an id of the same type -/
def transformItem (items : Nat → ItemType) (bed : BedItem) (id : Nat) : BedItem :=
  if (items id).isBed then { bed with id := id } else bed

/-- The player is one of the sex, or none. -/
def updateAppearance (items : Nat → ItemType) (player : Option PlayerSex) (bed : BedItem) :
    BedItem :=
  let it := items bed.id
  let free := if it.transformToFree ≠ 0 then bed.transformItem items it.transformToFree else bed
  if it.isBed then
    match player with
    | some sex =>
        if it.transformToOnUse sex ≠ 0 then bed.transformItem items (it.transformToOnUse sex)
        else free
    | none => free
  else bed

/-- The start is cut to 32 bits. -/
def serializeAttr (bed : BedItem) : List BedAttr :=
  (if bed.sleeperGUID ≠ 0 then [.sleeperGUID bed.sleeperGUID] else []) ++
    if bed.sleepStart ≠ 0 then [.sleepStart (bed.sleepStart % 2 ^ 32)] else []

end BedItem

namespace State

variable (layout : Layout)

/-- The beds as the map has them. -/
def mapBed (pos : Position) : BedItem := { id := (layout.bedId pos).getD 0 }

def init : State :=
  { bed := mapBed layout, bedSleepersMap := fun _ => none, owner := fun _ => 0
    players := fun _ => false, saved := [] }

/-- `none` is the null pointer. -/
def onBed (s : State) (pos : Option Position) (f : BedItem → BedItem) : State :=
  match pos with
  | some pos => { s with bed := Function.update s.bed pos (f (s.bed pos)) }
  | none => s

def setBedSleeper (s : State) (pos : Position) (guid : Nat) : State :=
  { s with bedSleepersMap := Function.update s.bedSleepersMap guid (some pos) }

def removeBedSleeper (s : State) (guid : Nat) : State :=
  { s with bedSleepersMap := Function.update s.bedSleepersMap guid none }

/-- The bed on the tile next to `pos`, in the direction that the bed has -/
def partner (dir : Option Direction) (pos : Position) : Option Position :=
  let targetPos := dir.elim pos fun dir => getNextPosition dir pos
  if (layout.bedId targetPos).isSome then some targetPos else none

def getNextBedItem (s : State) (pos : Position) : Option Position :=
  partner layout (layout.items (s.bed pos).id).bedPartnerDir pos

/-- Who uses a bed, and when: `sleeperAccess` is of the player that is loaded for the sleeper. -/
structure Use where
  isPremium : Bool
  inProtectionZone : Bool
  accessLevel : Nat
  sleeperAccess : Option Nat
  sex : PlayerSex
  now : Nat
  nextNow : Nat

def canUse (s : State) (pos : Position) (use : Use) : Bool :=
  (layout.house pos).isSome && use.isPremium && use.inProtectionZone &&
    (decide ((s.bed pos).sleeperGUID = 0) || decide (use.accessLevel = HOUSE_OWNER) ||
      match use.sleeperAccess with
      | none => false
      | some access => decide (access ≤ use.accessLevel))

/-- What a bed does when a player lies down, to the two halves in turn -/
def sleep (s : State) (pos : Position) (guid : Guid) (use : Use) : State :=
  if (layout.house pos).isNone then s
  else if (s.bed pos).sleeperGUID ≠ 0 then s
  else
    let next := s.getNextBedItem layout pos
    let s := s.onBed (some pos) (BedItem.internalSetSleeper guid use.now)
    let s := s.onBed next (BedItem.internalSetSleeper guid use.nextNow)
    let s := s.setBedSleeper pos guid
    let s := s.onBed (some pos) (BedItem.updateAppearance layout.items (some use.sex))
    s.onBed next (BedItem.updateAppearance layout.items (some use.sex))

def wakeUp (s : State) (pos : Position) : State :=
  if (layout.house pos).isNone then s
  else
    let next := s.getNextBedItem layout pos
    let s := s.removeBedSleeper (s.bed pos).sleeperGUID
    let s := s.onBed (some pos) BedItem.internalRemoveSleeper
    let s := s.onBed next BedItem.internalRemoveSleeper
    let s := s.onBed (some pos) (BedItem.updateAppearance layout.items none)
    s.onBed next (BedItem.updateAppearance layout.items none)

def trySleep (s : State) (pos : Position) (guid : Guid) : State × Bool :=
  match layout.house pos with
  | none => (s, false)
  | some house =>
      if !s.players guid then (s, false)
      else if (s.bed pos).sleeperGUID ≠ 0 then
        if (layout.items (s.bed pos).id).transformToFree ≠ 0 ∧ s.owner house = guid then
          (s.wakeUp layout pos, false)
        else (s, false)
      else (s, true)

/-- The part of `internalUseItem` for a bed -/
def internalUseItem (s : State) (pos : Position) (guid : Guid) (use : Use) : State :=
  if (layout.bedId pos).isSome ∧ s.canUse layout pos use then
    match s.trySleep layout pos guid with
    | (s, true) => s.sleep layout pos guid use
    | (s, false) => s
  else s

/-- `onCreatureAppear` of the player that logs in -/
def onCreatureAppear (s : State) (guid : Guid) : State :=
  let s := { s with players := Function.update s.players guid true }
  match s.bedSleepersMap guid with
  | some pos => s.wakeUp layout pos
  | none => s

/-- The beds of a house, as `HouseTile::updateHouse` finds them -/
def bedsList (house : HouseId) : List Position :=
  layout.houseTiles.filter fun pos => layout.house pos = some house ∧ (layout.bedId pos).isSome

/-- `nameFound` tells whether there is a player of the id. -/
def setOwner (s : State) (house : HouseId) (guid : Nat) (nameFound : Bool) : State :=
  if s.owner house = guid then s
  else
    let s :=
      if s.owner house ≠ 0 then
        let s := (bedsList layout house).foldl (fun s pos =>
          if (s.bed pos).sleeperGUID ≠ 0 then s.wakeUp layout pos else s) s
        { s with owner := Function.update s.owner house 0 }
      else s
    if guid ≠ 0 ∧ nameFound then { s with owner := Function.update s.owner house guid } else s

/-! ## Saving and loading -/

def saveItem (bed : Position → BedItem) (pos : Position) : Option SavedBed :=
  (layout.bedId pos).map fun _ => ⟨pos, (bed pos).id, (bed pos).serializeAttr⟩

def saveHouseItems (s : State) : State :=
  { s with saved := layout.houseTiles.filterMap (saveItem layout s.bed) }

/-- `nameFound` tells for which ids `getNameByGuid` finds a name. -/
def readAttr (nameFound : Nat → Bool) (pos : Position) (s : State) : BedAttr → State
  | .sleeperGUID guid =>
      if guid ≠ 0 ∧ nameFound guid then
        (s.setBedSleeper pos guid).onBed (some pos) fun bed => { bed with sleeperGUID := guid }
      else s
  | .sleepStart start => s.onBed (some pos) fun bed => { bed with sleepStart := start }

/-- `loadItem` of a bed that the map has, as it has all that were saved -/
def loadItem (nameFound : Position → Nat → Bool) (s : State) (item : SavedBed) : State :=
  let s := item.attrs.foldl (readAttr (nameFound item.pos) item.pos) s
  s.onBed (some item.pos) fun bed => { bed with id := item.id }

/-- The server starts again: the map is read, the owners of the houses, and then the beds. -/
def loadHouseItems (s : State) (owner : HouseId → Nat) (nameFound : Position → Nat → Bool) :
    State :=
  s.saved.foldl (loadItem nameFound) { init layout with owner := owner, saved := s.saved }

end State

inductive Action where
  | login (guid : Guid)
  /-- Also when a player is kicked, as happens a little after it lies down. -/
  | logout (guid : Guid)
  | useBed (pos : Position) (guid : Guid) (use : State.Use)
  | setOwner (house : HouseId) (guid : Nat) (nameFound : Bool)
  | save
  | load (owner : HouseId → Nat) (nameFound : Position → Nat → Bool)

namespace State

variable (layout : Layout)

def step (s : State) : Action → State
  | .login guid => s.onCreatureAppear layout guid
  | .logout guid => { s with players := Function.update s.players guid false }
  | .useBed pos guid use => s.internalUseItem layout pos guid use
  | .setOwner house guid nameFound => s.setOwner layout house guid nameFound
  | .save => s.saveHouseItems layout
  | .load owner nameFound => s.loadHouseItems layout owner nameFound

end State

/-! ## What is to hold -/

namespace Layout

variable (layout : Layout)

def HouseBed (pos : Position) : Prop := (layout.bedId pos).isSome ∧ (layout.house pos).isSome

/-- Where the other half of a bed is, as the map has it -/
def other (pos : Position) : Option Position :=
  State.partner layout (layout.items (State.mapBed layout pos).id).bedPartnerDir pos

/-- The other half of a bed of a house has it as its other half, in a house as well. -/
def Paired : Prop :=
  ∀ pos pos', layout.HouseBed pos → layout.other pos = some pos' →
    layout.HouseBed pos' ∧ layout.other pos' = some pos

/-- A bed looks for the other half in the same direction whoever lies in it. -/
def Steady : Prop :=
  ∀ id id' : Nat, (∃ sex, id' = (layout.items id).transformToOnUse sex) ∨
      id' = (layout.items id).transformToFree →
    (layout.items id).isBed → (layout.items id').isBed →
      (layout.items id').bedPartnerDir = (layout.items id).bedPartnerDir

end Layout

namespace State

variable (layout : Layout)

/-- Who sleeps is told alike by the halves of the beds and by the map. -/
structure Good (s : State) : Prop where
  halves : ∀ pos pos', layout.HouseBed pos → s.getNextBedItem layout pos = some pos' →
    (s.bed pos').sleeperGUID = (s.bed pos).sleeperGUID ∧
      (s.bed pos').sleepStart = (s.bed pos).sleepStart
  one : ∀ pos pos', (s.bed pos).sleeperGUID ≠ 0 →
    (s.bed pos').sleeperGUID = (s.bed pos).sleeperGUID →
      pos' = pos ∨ s.getNextBedItem layout pos = some pos'
  sleepers : ∀ guid pos, s.bedSleepersMap guid = some pos →
    guid ≠ 0 ∧ (s.bed pos).sleeperGUID = guid
  mapped : ∀ pos, (s.bed pos).sleeperGUID ≠ 0 → ∃ pos',
    s.bedSleepersMap (s.bed pos).sleeperGUID = some pos' ∧
      (pos' = pos ∨ s.getNextBedItem layout pos = some pos')

/-- Who logs in has woken up, in every bed. -/
structure Kept (s : State) (action : Action) : Prop where
  good : Good layout (s.step layout action)
  woken : ∀ guid : Guid, action = .login guid →
    ∀ pos, ((s.step layout action).bed pos).sleeperGUID ≠ guid

/-- Who lies down sleeps nowhere, and the two halves are given the same time. The name of a sleeper
is found for both halves or for none. -/
def Reached (s : State) : Action → Prop
  | .useBed pos guid use => s.players guid → s.canUse layout pos use →
      (s.bed pos).sleeperGUID = 0 → s.bedSleepersMap guid = none ∧
        ((s.getNextBedItem layout pos).isSome → use.nextNow = use.now)
  | .load _ nameFound => ∀ item ∈ s.saved, ∀ guid, .sleeperGUID guid ∈ item.attrs →
      ∀ pos', layout.other item.pos = some pos' → nameFound pos' guid = nameFound item.pos guid
  | _ => True

/-! ## One bed -/

variable {layout} {s : State} {pos p : Position}

theorem onBed_bed (q : Option Position) (f : BedItem → BedItem) :
    (s.onBed q f).bed p = if q = some p then f (s.bed p) else s.bed p := by
  cases q with
  | none => rw [onBed, if_neg (by rintro ⟨⟩)]
  | some q =>
      rw [onBed]
      dsimp only
      rw [Function.update_apply]
      rcases eq_or_ne p q with rfl | hne
      · rw [if_pos rfl, if_pos rfl]
      · rw [if_neg hne, if_neg fun heq => hne (Option.some.inj heq).symm]

@[simp] theorem onBed_map (q : Option Position) (f : BedItem → BedItem) :
    (s.onBed q f).bedSleepersMap = s.bedSleepersMap := by
  cases q <;> rfl

@[simp] theorem onBed_saved (q : Option Position) (f : BedItem → BedItem) :
    (s.onBed q f).saved = s.saved := by
  cases q <;> rfl

section Appearance

variable {items : Nat → ItemType} (player : Option PlayerSex) (bed : BedItem)

@[simp] theorem transformItem_sleeperGUID (id : Nat) :
    (bed.transformItem items id).sleeperGUID = bed.sleeperGUID := by
  rw [BedItem.transformItem]
  split <;> rfl

@[simp] theorem transformItem_sleepStart (id : Nat) :
    (bed.transformItem items id).sleepStart = bed.sleepStart := by
  rw [BedItem.transformItem]
  split <;> rfl

@[simp] theorem updateAppearance_sleeperGUID :
    (bed.updateAppearance items player).sleeperGUID = bed.sleeperGUID := by
  simp only [BedItem.updateAppearance]
  repeat' split
  any_goals rfl
  all_goals exact transformItem_sleeperGUID bed _

@[simp] theorem updateAppearance_sleepStart :
    (bed.updateAppearance items player).sleepStart = bed.sleepStart := by
  simp only [BedItem.updateAppearance]
  repeat' split
  any_goals rfl
  all_goals exact transformItem_sleepStart bed _

end Appearance

/-- The direction that a bed looks in for its other half -/
def dir (layout : Layout) (bed : BedItem) : Option Direction := (layout.items bed.id).bedPartnerDir

theorem dir_transformItem {bed : BedItem} {id : Nat}
    (h : (layout.items id).isBed → (layout.items id).bedPartnerDir = dir layout bed) :
    dir layout (bed.transformItem layout.items id) = dir layout bed := by
  rw [BedItem.transformItem]
  split
  · next hbed => exact h hbed
  · rfl

theorem dir_updateAppearance (hsteady : layout.Steady) (player : Option PlayerSex)
    (bed : BedItem) : dir layout (bed.updateAppearance layout.items player) = dir layout bed := by
  simp only [BedItem.updateAppearance]
  split
  · next hbed =>
      have hfree : dir layout (bed.transformItem layout.items
          (layout.items bed.id).transformToFree) = dir layout bed :=
        dir_transformItem fun hid => hsteady _ _ (.inr rfl) hbed hid
      repeat' split
      any_goals rfl
      any_goals exact hfree
      next sex _ => exact dir_transformItem fun hid => hsteady _ _ (.inl ⟨sex, rfl⟩) hbed hid
  · rfl

/-! ## The invariant -/

/-- What the beds say, in the game or in what was saved of them. -/
structure Slept (layout : Layout) (bed : Position → BedItem) : Prop where
  dir : ∀ pos, dir layout (bed pos) = dir layout (mapBed layout pos)
  inHouse : ∀ pos, (bed pos).sleeperGUID ≠ 0 → layout.HouseBed pos
  halves : ∀ pos pos', layout.HouseBed pos → layout.other pos = some pos' →
    (bed pos').sleeperGUID = (bed pos).sleeperGUID ∧ (bed pos').sleepStart = (bed pos).sleepStart
  one : ∀ pos pos', (bed pos).sleeperGUID ≠ 0 → (bed pos').sleeperGUID = (bed pos).sleeperGUID →
    pos' = pos ∨ layout.other pos = some pos'

structure Inv (layout : Layout) (s : State) : Prop where
  slept : Slept layout s.bed
  sleepers : ∀ guid pos, s.bedSleepersMap guid = some pos →
    guid ≠ 0 ∧ (s.bed pos).sleeperGUID = guid
  mapped : ∀ pos, (s.bed pos).sleeperGUID ≠ 0 →
    ∃ pos', s.bedSleepersMap (s.bed pos).sleeperGUID = some pos'
  saved : s.saved = [] ∨ ∃ bed, Slept layout bed ∧
    s.saved = layout.houseTiles.filterMap (saveItem layout bed)

theorem Inv.next (h : Inv layout s) (pos : Position) :
    s.getNextBedItem layout pos = layout.other pos := by
  rw [getNextBedItem, Layout.other]
  exact congrArg (partner layout · pos) (h.slept.dir pos)

theorem Inv.good (h : Inv layout s) : Good layout s where
  halves pos pos' hpos hnext := by
    rw [h.next] at hnext
    exact h.slept.halves pos pos' hpos hnext
  one pos pos' hsleeper heq := by
    rw [h.next]
    exact h.slept.one pos pos' hsleeper heq
  sleepers := h.sleepers
  mapped pos hsleeper := by
    obtain ⟨pos', hpos'⟩ := h.mapped pos hsleeper
    rw [h.next]
    exact ⟨pos', hpos', h.slept.one pos pos' hsleeper (h.sleepers _ pos' hpos').2⟩

theorem slept_mapBed (layout : Layout) : Slept layout (mapBed layout) where
  dir _ := rfl
  inHouse _ h := absurd rfl h
  halves _ _ _ _ := ⟨rfl, rfl⟩
  one _ _ h _ := absurd rfl h

theorem Inv.init (layout : Layout) : Inv layout (init layout) where
  slept := slept_mapBed layout
  sleepers _ _ h := by cases h
  mapped _ h := absurd rfl h
  saved := .inl rfl

/-- The two halves of the bed at `pos` -/
def Half (layout : Layout) (pos p : Position) : Prop := p = pos ∨ layout.other pos = some p

/-- The two halves of the bed at `pos` are given a sleeper and a start, and all else stays. -/
structure Put (layout : Layout) (pos : Position) (guid start : Nat)
    (bed bed' : Position → BedItem) : Prop where
  dir : ∀ p, State.dir layout (bed' p) = State.dir layout (bed p)
  inside : ∀ p, Half layout pos p → (bed' p).sleeperGUID = guid ∧ (bed' p).sleepStart = start
  outside : ∀ p, ¬ Half layout pos p → (bed' p).sleeperGUID = (bed p).sleeperGUID ∧
    (bed' p).sleepStart = (bed p).sleepStart

/-- The sleeper has no bed, or there is none. -/
theorem Slept.put {bed bed' : Position → BedItem} {guid start : Nat} (h : Slept layout bed)
    (hpaired : layout.Paired) (hpos : layout.HouseBed pos)
    (hput : Put layout pos guid start bed bed')
    (hfree : guid ≠ 0 → ∀ p, (bed p).sleeperGUID ≠ guid) : Slept layout bed' := by
  obtain ⟨hdir, hin, hout⟩ := hput
  -- The other half of a half is a half.
  have hclosed : ∀ p p', layout.HouseBed p → layout.other p = some p' →
      (Half layout pos p' ↔ Half layout pos p) := by
    intro p p' hp hp'
    obtain ⟨_, hback⟩ := hpaired p p' hp hp'
    constructor
    · rintro (rfl | hother)
      · exact .inr hback
      · obtain ⟨_, hback'⟩ := hpaired pos p' hpos hother
        exact .inl (Option.some.inj (hback.symm.trans hback'))
    · rintro (rfl | hother)
      · exact .inr hp'
      · obtain ⟨_, hback'⟩ := hpaired pos p hpos hother
        exact .inl (Option.some.inj (hp'.symm.trans hback'))
  refine ⟨fun p => (hdir p).trans (h.dir p), fun p hp => ?_, fun p p' hp hp' => ?_,
    fun p p' hp heq => ?_⟩
  · by_cases hhalf : Half layout pos p
    · rcases hhalf with rfl | hother
      · exact hpos
      · exact (hpaired pos p hpos hother).1
    · rw [(hout p hhalf).1] at hp
      exact h.inHouse p hp
  · by_cases hhalf : Half layout pos p
    · have hhalf' := (hclosed p p' hp hp').mpr hhalf
      exact ⟨(hin p' hhalf').1.trans (hin p hhalf).1.symm,
        (hin p' hhalf').2.trans (hin p hhalf).2.symm⟩
    · have hhalf' : ¬ Half layout pos p' := fun hh => hhalf ((hclosed p p' hp hp').mp hh)
      rw [(hout p hhalf).1, (hout p hhalf).2, (hout p' hhalf').1, (hout p' hhalf').2]
      exact h.halves p p' hp hp'
  · by_cases hhalf : Half layout pos p
    · by_cases hhalf' : Half layout pos p'
      · rcases hhalf with rfl | hother
        · exact hhalf'
        · obtain ⟨_, hback⟩ := hpaired pos p hpos hother
          rcases hhalf' with rfl | hother'
          · exact .inr hback
          · exact .inl (Option.some.inj (hother'.symm.trans hother))
      · rw [(hin p hhalf).1] at hp heq
        rw [(hout p' hhalf').1] at heq
        exact absurd heq (hfree hp p')
    · rw [(hout p hhalf).1] at hp heq
      by_cases hhalf' : Half layout pos p'
      · rw [(hin p' hhalf').1] at heq
        exact absurd heq.symm (hfree (heq ▸ hp) p)
      · rw [(hout p' hhalf').1] at heq
        exact h.one p p' hp heq

/-! ## Lying down and waking up -/

theorem put_onBed (s : State) {f f' : BedItem → BedItem} {guid start : Nat}
    (hdir : ∀ bed, State.dir layout (f bed) = State.dir layout bed)
    (hdir' : ∀ bed, State.dir layout (f' bed) = State.dir layout bed)
    (hf : ∀ bed, (f bed).sleeperGUID = guid ∧ (f bed).sleepStart = start)
    (hf' : (layout.other pos).isSome → ∀ bed,
      (f' bed).sleeperGUID = guid ∧ (f' bed).sleepStart = start) :
    Put layout pos guid start s.bed ((s.onBed (some pos) f).onBed (layout.other pos) f').bed := by
  refine ⟨fun p => ?_, fun p hp => ?_, fun p hp => ?_⟩
  · rw [onBed_bed, onBed_bed]
    repeat' split
    · rw [hdir', hdir]
    · exact hdir' _
    · exact hdir _
    · rfl
  · rw [onBed_bed, onBed_bed]
    rcases hp with rfl | hother
    · rw [if_pos rfl]
      split
      · next hself => exact hf' (by rw [hself]; rfl) _
      · exact hf _
    · rw [if_pos hother]
      exact hf' (by rw [hother]; rfl) _
  · have hpos : ¬ some pos = some p := fun heq => hp (.inl (Option.some.inj heq).symm)
    have hother : ¬ layout.other pos = some p := fun heq => hp (.inr heq)
    rw [onBed_bed, onBed_bed, if_neg hother, if_neg hpos]
    exact ⟨rfl, rfl⟩

/-- How a bed looks says nothing about who sleeps there. -/
theorem Put.appearance {bed : Position → BedItem} {guid start : Nat} (hsteady : layout.Steady)
    (player : Option PlayerSex) (q : Option Position) (h : Put layout pos guid start bed s.bed) :
    Put layout pos guid start bed
      (s.onBed q (BedItem.updateAppearance layout.items player)).bed := by
  have hkept : ∀ p, ((s.onBed q (BedItem.updateAppearance layout.items player)).bed p).sleeperGUID =
        (s.bed p).sleeperGUID ∧
      ((s.onBed q (BedItem.updateAppearance layout.items player)).bed p).sleepStart =
        (s.bed p).sleepStart := by
    intro p
    rw [onBed_bed]
    split
    · exact ⟨updateAppearance_sleeperGUID player _, updateAppearance_sleepStart player _⟩
    · exact ⟨rfl, rfl⟩
  refine ⟨fun p => ?_, fun p hp => ?_, fun p hp => ?_⟩
  · rw [onBed_bed]
    split
    · exact (dir_updateAppearance hsteady player _).trans (h.dir p)
    · exact h.dir p
  · rw [(hkept p).1, (hkept p).2]
    exact h.inside p hp
  · rw [(hkept p).1, (hkept p).2]
    exact h.outside p hp

theorem Inv.put_wakeUp (h : Inv layout s) (hsteady : layout.Steady) (hpos : layout.HouseBed pos) :
    Put layout pos 0 0 s.bed (s.wakeUp layout pos).bed ∧
      (s.wakeUp layout pos).bedSleepersMap =
        Function.update s.bedSleepersMap (s.bed pos).sleeperGUID none ∧
      (s.wakeUp layout pos).saved = s.saved := by
  have hhouse : ¬ (layout.house pos).isNone := by
    rw [← Option.not_isSome]
    exact fun hnot => by rw [hpos.2] at hnot; cases hnot
  rw [wakeUp, if_neg hhouse]
  dsimp only
  rw [h.next]
  refine ⟨.appearance hsteady none _ (.appearance hsteady none _ ?_), ?_, ?_⟩
  · exact put_onBed (s.removeBedSleeper (s.bed pos).sleeperGUID) (fun _ => rfl) (fun _ => rfl)
      (fun _ => ⟨rfl, rfl⟩) fun _ _ => ⟨rfl, rfl⟩
  · simp only [onBed_map]
    rfl
  · simp only [onBed_saved]
    rfl

/-- Waking up leaves the sleeper nowhere. -/
theorem Inv.wakeUp (h : Inv layout s) (hpaired : layout.Paired) (hsteady : layout.Steady)
    (hpos : layout.HouseBed pos) : Inv layout (s.wakeUp layout pos) ∧
      ((s.bed pos).sleeperGUID ≠ 0 →
        ∀ p, ((s.wakeUp layout pos).bed p).sleeperGUID ≠ (s.bed pos).sleeperGUID) := by
  obtain ⟨hput, hmap, hsaved⟩ := h.put_wakeUp hsteady hpos
  have hgone : (s.bed pos).sleeperGUID ≠ 0 →
      ∀ p, ((s.wakeUp layout pos).bed p).sleeperGUID ≠ (s.bed pos).sleeperGUID := by
    intro hsleeper p
    by_cases hhalf : Half layout pos p
    · rw [(hput.inside p hhalf).1]
      exact hsleeper.symm
    · rw [(hput.outside p hhalf).1]
      exact fun heq => hhalf (h.slept.one pos p hsleeper heq)
  refine ⟨⟨h.slept.put hpaired hpos hput fun hne => absurd rfl hne, fun guid p hp => ?_,
    fun p hp => ?_, by rw [hsaved]; exact h.saved⟩, hgone⟩
  · rw [hmap, Function.update_apply] at hp
    split at hp
    · cases hp
    · next hne =>
        obtain ⟨hzero, hguid⟩ := h.sleepers guid p hp
        have hhalf : ¬ Half layout pos p := by
          rintro (rfl | hother)
          · exact hne hguid.symm
          · exact hne (hguid.symm.trans (h.slept.halves pos p hpos hother).1)
        rw [(hput.outside p hhalf).1]
        exact ⟨hzero, hguid⟩
  · by_cases hhalf : Half layout pos p
    · exact absurd (hput.inside p hhalf).1 hp
    · rw [(hput.outside p hhalf).1] at hp ⊢
      obtain ⟨p', hp'⟩ := h.mapped p hp
      refine ⟨p', ?_⟩
      rw [hmap, Function.update_of_ne, hp']
      exact fun heq => hhalf (h.slept.one pos p (heq ▸ hp) heq)

theorem Inv.sleep (h : Inv layout s) (hpaired : layout.Paired) (hsteady : layout.Steady)
    (hpos : layout.HouseBed pos) {guid : Guid} {use : Use} (hfree : (s.bed pos).sleeperGUID = 0)
    (hnone : s.bedSleepersMap guid = none)
    (hnow : (layout.other pos).isSome → use.nextNow = use.now) :
    Inv layout (s.sleep layout pos guid use) := by
  have hhouse : ¬ (layout.house pos).isNone := by
    rw [← Option.not_isSome]
    exact fun hnot => by rw [hpos.2] at hnot; cases hnot
  have hput : Put layout pos guid use.now s.bed (s.sleep layout pos guid use).bed := by
    rw [State.sleep, if_neg hhouse, if_neg (not_not.mpr hfree)]
    dsimp only
    rw [h.next]
    refine .appearance hsteady _ _ (.appearance hsteady _ _ ?_)
    exact put_onBed s (fun _ => rfl) (fun _ => rfl) (fun _ => ⟨rfl, rfl⟩)
      fun hsome _ => ⟨rfl, hnow hsome⟩
  have hmap : (s.sleep layout pos guid use).bedSleepersMap =
      Function.update s.bedSleepersMap guid (some pos) := by
    rw [State.sleep, if_neg hhouse, if_neg (not_not.mpr hfree)]
    simp only [onBed_map, setBedSleeper]
  have hsaved : (s.sleep layout pos guid use).saved = s.saved := by
    rw [State.sleep, if_neg hhouse, if_neg (not_not.mpr hfree)]
    simp only [onBed_saved, setBedSleeper]
  -- The map says that the player sleeps nowhere.
  have hnowhere : ∀ p, (s.bed p).sleeperGUID ≠ guid := by
    intro p heq
    obtain ⟨p', hp'⟩ := h.mapped p (heq ▸ guid.property)
    rw [heq, hnone] at hp'
    cases hp'
  refine ⟨h.slept.put hpaired hpos hput fun _ => hnowhere, fun guid' p hp => ?_, fun p hp => ?_,
    by rw [hsaved]; exact h.saved⟩
  · rw [hmap, Function.update_apply] at hp
    split at hp
    · next heq =>
        obtain rfl := Option.some.inj hp
        rw [heq]
        exact ⟨guid.property, (hput.inside pos (.inl rfl)).1⟩
    · obtain ⟨hzero, hguid⟩ := h.sleepers guid' p hp
      have hhalf : ¬ Half layout pos p := by
        rintro (rfl | hother)
        · exact hzero (hguid.symm.trans hfree)
        · exact hzero (hguid.symm.trans ((h.slept.halves pos p hpos hother).1.trans hfree))
      rw [(hput.outside p hhalf).1]
      exact ⟨hzero, hguid⟩
  · rw [hmap, Function.update_apply]
    split
    · exact ⟨pos, rfl⟩
    · next hne =>
        by_cases hhalf : Half layout pos p
        · exact absurd (hput.inside p hhalf).1 hne
        · rw [(hput.outside p hhalf).1] at hp ⊢
          exact h.mapped p hp

theorem Inv.trySleep (h : Inv layout s) (hpaired : layout.Paired) (hsteady : layout.Steady)
    (hbed : (layout.bedId pos).isSome) (guid : Guid) :
    Inv layout (s.trySleep layout pos guid).1 := by
  rw [State.trySleep]
  split
  · exact h
  · next house hhouse =>
      have hpos : layout.HouseBed pos := ⟨hbed, by rw [hhouse]; rfl⟩
      repeat' split
      any_goals exact h
      exact (h.wakeUp hpaired hsteady hpos).1

/-- Only a player in the game lies down, in a free bed. -/
theorem trySleep_true {guid : Guid} (h : (s.trySleep layout pos guid).2 = true) :
    (s.trySleep layout pos guid).1 = s ∧ (layout.house pos).isSome ∧ s.players guid = true ∧
      (s.bed pos).sleeperGUID = 0 := by
  rw [State.trySleep] at h ⊢
  split at h
  · cases h
  · next house hhouse =>
      split at h
      · cases h
      · next honline =>
          rw [Bool.not_eq_true, Bool.not_eq_false'] at honline
          split at h
          · split at h <;> cases h
          · next hfree =>
              rw [not_not] at hfree
              rw [honline, hfree]
              exact ⟨rfl, by rw [hhouse]; rfl, rfl, rfl⟩

theorem Inv.internalUseItem (h : Inv layout s) (hpaired : layout.Paired)
    (hsteady : layout.Steady) {guid : Guid} {use : Use}
    (hc : Reached layout s (.useBed pos guid use)) :
    Inv layout (s.internalUseItem layout pos guid use) := by
  rw [State.internalUseItem]
  split
  · next huse =>
      have htry := h.trySleep hpaired hsteady huse.1 guid
      have htrue : (s.trySleep layout pos guid).2 = true → (s.trySleep layout pos guid).1 = s ∧
          (layout.house pos).isSome ∧ s.players guid = true ∧ (s.bed pos).sleeperGUID = 0 :=
        trySleep_true
      generalize s.trySleep layout pos guid = tried at htry htrue
      obtain ⟨t, slept⟩ := tried
      cases slept with
      | false => exact htry
      | true =>
          obtain ⟨heq, hhouse, honline, hfree⟩ := htrue rfl
          dsimp only at heq
          rw [heq]
          obtain ⟨hnone, hnow⟩ := hc honline huse.2 hfree
          rw [h.next] at hnow
          exact h.sleep hpaired hsteady ⟨huse.1, hhouse⟩ hfree hnone hnow
  · exact h

theorem Inv.of_eq {t : State} (h : Inv layout s) (hbed : t.bed = s.bed)
    (hmap : t.bedSleepersMap = s.bedSleepersMap) (hsaved : t.saved = s.saved) : Inv layout t := by
  obtain ⟨hslept, hsleepers, hmapped, hold⟩ := h
  refine ⟨by rw [hbed]; exact hslept, ?_, ?_, by rw [hsaved]; exact hold⟩
  · rw [hbed, hmap]
    exact hsleepers
  · rw [hbed, hmap]
    exact hmapped

/-- The bed in the map is the one that the player sleeps in, and no other bed is. -/
theorem Inv.onCreatureAppear (h : Inv layout s) (hpaired : layout.Paired)
    (hsteady : layout.Steady) (guid : Guid) : Inv layout (s.onCreatureAppear layout guid) ∧
      ∀ p, ((s.onCreatureAppear layout guid).bed p).sleeperGUID ≠ guid := by
  have hplayers : Inv layout { s with players := Function.update s.players guid true } :=
    h.of_eq rfl rfl rfl
  rw [State.onCreatureAppear]
  dsimp only
  split
  · next pos hpos =>
      obtain ⟨hzero, hguid⟩ := h.sleepers guid pos hpos
      have hsleeper : (s.bed pos).sleeperGUID ≠ 0 := by
        rw [hguid]
        exact hzero
      obtain ⟨hwoken, hgone⟩ := hplayers.wakeUp hpaired hsteady (h.slept.inHouse pos hsleeper)
      refine ⟨hwoken, fun p => ?_⟩
      rw [← hguid]
      exact hgone hsleeper p
  · next hnone =>
      refine ⟨hplayers, fun p heq => ?_⟩
      obtain ⟨p', hp'⟩ := h.mapped p (heq ▸ guid.property)
      rw [heq, hnone] at hp'
      cases hp'

theorem Inv.wakeUp_all (hpaired : layout.Paired) (hsteady : layout.Steady) (l : List Position) :
    ∀ {s : State}, Inv layout s → Inv layout (l.foldl (fun s pos =>
      if (s.bed pos).sleeperGUID ≠ 0 then s.wakeUp layout pos else s) s) := by
  induction l with
  | nil => exact fun h => h
  | cons pos l ih =>
      intro s h
      refine ih ?_
      dsimp only
      split
      · next hsleeper => exact (h.wakeUp hpaired hsteady (h.slept.inHouse pos hsleeper)).1
      · exact h

theorem Inv.setOwner (h : Inv layout s) (hpaired : layout.Paired) (hsteady : layout.Steady)
    (house : HouseId) (guid : Nat) (nameFound : Bool) :
    Inv layout (s.setOwner layout house guid nameFound) := by
  have hwoken := Inv.wakeUp_all hpaired hsteady (bedsList layout house) h
  rw [State.setOwner]
  split
  · exact h
  · dsimp only
    split
    · split
      · exact hwoken.of_eq rfl rfl rfl
      · exact h.of_eq rfl rfl rfl
    · split
      · exact hwoken.of_eq rfl rfl rfl
      · exact h

theorem Inv.saveHouseItems (h : Inv layout s) : Inv layout (s.saveHouseItems layout) :=
  ⟨h.slept, h.sleepers, h.mapped, .inr ⟨s.bed, h.slept, rfl⟩⟩

/-! ## Loading -/

/-- The bed that is made of what was saved of a bed -/
def loaded (nameFound : Nat → Bool) (bed : BedItem) : BedItem :=
  { id := bed.id
    sleepStart := bed.sleepStart % 2 ^ 32
    sleeperGUID := if bed.sleeperGUID ≠ 0 ∧ nameFound bed.sleeperGUID then bed.sleeperGUID else 0 }

/-- A bed that nobody sleeps in is given what was saved. -/
theorem loadItem_serializeAttr (nameFound : Position → Nat → Bool) (bed : BedItem)
    (hfresh : (s.bed pos).sleeperGUID = 0 ∧ (s.bed pos).sleepStart = 0) :
    (loadItem nameFound s ⟨pos, bed.id, bed.serializeAttr⟩).bed =
        Function.update s.bed pos (loaded (nameFound pos) bed) ∧
      (loadItem nameFound s ⟨pos, bed.id, bed.serializeAttr⟩).bedSleepersMap =
        (if (loaded (nameFound pos) bed).sleeperGUID ≠ 0 then
          Function.update s.bedSleepersMap (loaded (nameFound pos) bed).sleeperGUID (some pos)
        else s.bedSleepersMap) ∧
      (loadItem nameFound s ⟨pos, bed.id, bed.serializeAttr⟩).saved = s.saved := by
  obtain ⟨hsleeper, hstart⟩ := hfresh
  have hfold : (loadItem nameFound s ⟨pos, bed.id, bed.serializeAttr⟩) =
      ((if (loaded (nameFound pos) bed).sleeperGUID ≠ 0 then
        s.setBedSleeper pos (loaded (nameFound pos) bed).sleeperGUID else s).onBed (some pos)
          fun _ => loaded (nameFound pos) bed) := by
    rw [loadItem, BedItem.serializeAttr, List.foldl_append]
    by_cases hguid : bed.sleeperGUID = 0
    · by_cases htime : bed.sleepStart = 0
      · simp [loaded, onBed, hguid, htime, hsleeper, hstart]
      · simp [readAttr, loaded, onBed, hguid, htime, hsleeper]
    · cases hname : nameFound pos bed.sleeperGUID
      · by_cases htime : bed.sleepStart = 0
        · simp [readAttr, loaded, onBed, hguid, hname, htime, hsleeper, hstart]
        · simp [readAttr, loaded, onBed, hguid, hname, htime, hsleeper]
      · by_cases htime : bed.sleepStart = 0
        · simp [readAttr, loaded, onBed, setBedSleeper, hguid, hname, htime, hstart]
        · simp [readAttr, loaded, onBed, setBedSleeper, hguid, hname, htime]
  rw [hfold]
  refine ⟨?_, ?_, ?_⟩
  · split <;> rfl
  · rw [onBed_map]
    split <;> rfl
  · rw [onBed_saved]
    split <;> rfl

/-- What the beds of the tiles read so far are, with the players that they put in the map. -/
structure Loaded (layout : Layout) (nameFound : Position → Nat → Bool) (bed : Position → BedItem)
    (tiles : List Position) (s s' : State) : Prop where
  read : ∀ p, s'.bed p =
    if p ∈ tiles ∧ (layout.bedId p).isSome then loaded (nameFound p) (bed p) else s.bed p
  sleepers : ∀ guid p, s'.bedSleepersMap guid = some p → s.bedSleepersMap guid = some p ∨
    (p ∈ tiles ∧ (layout.bedId p).isSome) ∧ guid ≠ 0 ∧
      (loaded (nameFound p) (bed p)).sleeperGUID = guid
  mapped : ∀ p ∈ tiles, (layout.bedId p).isSome → (loaded (nameFound p) (bed p)).sleeperGUID ≠ 0 →
    ∃ p', s'.bedSleepersMap (loaded (nameFound p) (bed p)).sleeperGUID = some p'
  stays : ∀ guid p, s.bedSleepersMap guid = some p → ∃ p', s'.bedSleepersMap guid = some p'
  saved : s'.saved = s.saved

variable (layout) in
theorem foldl_loadItem (nameFound : Position → Nat → Bool) (bed : Position → BedItem)
    (tiles : List Position) (hnodup : tiles.Nodup) :
    ∀ s : State, (∀ p ∈ tiles, (s.bed p).sleeperGUID = 0 ∧ (s.bed p).sleepStart = 0) →
      Loaded layout nameFound bed tiles s
        ((tiles.filterMap (saveItem layout bed)).foldl (loadItem nameFound) s) := by
  induction tiles with
  | nil =>
      exact fun s _ => ⟨fun p => (if_neg fun hp => (by cases hp.1)).symm, fun _ _ h => .inl h,
        fun _ hp => (by cases hp), fun _ p h => ⟨p, h⟩, rfl⟩
  | cons pos tiles ih =>
      obtain ⟨hpos, hnodup⟩ := List.nodup_cons.mp hnodup
      intro s hfresh
      cases hbed : layout.bedId pos with
      | none =>
          have hrest := ih hnodup s fun p hp => hfresh p (List.mem_cons_of_mem _ hp)
          have hnot : ∀ p, (layout.bedId p).isSome → p ≠ pos := by
            rintro p hp rfl
            rw [hbed] at hp
            cases hp
          rw [List.filterMap_cons, saveItem, hbed]
          dsimp only [Option.map_none]
          refine ⟨fun p => ?_, fun guid p hp => ?_, fun p hp hsome => ?_, hrest.stays, hrest.saved⟩
          · rw [hrest.read]
            refine if_congr ⟨fun h => ⟨List.mem_cons_of_mem _ h.1, h.2⟩, fun h => ⟨?_, h.2⟩⟩ rfl rfl
            exact (List.mem_cons.mp h.1).resolve_left (hnot p h.2)
          · rcases hrest.sleepers guid p hp with hold | ⟨hin, hguid⟩
            · exact .inl hold
            · exact .inr ⟨⟨List.mem_cons_of_mem _ hin.1, hin.2⟩, hguid⟩
          · exact hrest.mapped p ((List.mem_cons.mp hp).resolve_left (hnot p hsome)) hsome
      | some id =>
          have hitem := hfresh pos List.mem_cons_self
          obtain ⟨hbed', hmap, hsaved⟩ := loadItem_serializeAttr nameFound (bed pos) hitem
          rw [List.filterMap_cons, saveItem, hbed]
          dsimp only [Option.map_some, List.foldl_cons]
          generalize loadItem nameFound s ⟨pos, (bed pos).id, (bed pos).serializeAttr⟩ = t
            at hbed' hmap hsaved
          have hrest := ih hnodup t fun p hp => by
            have hne : p ≠ pos := fun heq => hpos (heq ▸ hp)
            rw [hbed', Function.update_of_ne hne]
            exact hfresh p (List.mem_cons_of_mem _ hp)
          refine ⟨fun p => ?_, fun guid p hp => ?_, fun p hp hsome hsleeper => ?_,
            fun guid p hp => ?_, hrest.saved.trans hsaved⟩
          · rw [hrest.read]
            rcases eq_or_ne p pos with rfl | hne
            · rw [if_neg fun h => hpos h.1, hbed', Function.update_self,
                if_pos ⟨List.mem_cons_self, by rw [hbed]; rfl⟩]
            · rw [hbed', Function.update_of_ne hne]
              exact if_congr (by rw [List.mem_cons, or_iff_right hne]) rfl rfl
          · rcases hrest.sleepers guid p hp with hold | ⟨hin, hguid⟩
            · rw [hmap] at hold
              split at hold
              · next hsleeper =>
                  rw [Function.update_apply] at hold
                  split at hold
                  · next heq =>
                      obtain rfl := Option.some.inj hold
                      exact .inr ⟨⟨List.mem_cons_self, by rw [hbed]; rfl⟩, heq ▸ hsleeper, heq.symm⟩
                  · exact .inl hold
              · exact .inl hold
            · exact .inr ⟨⟨List.mem_cons_of_mem _ hin.1, hin.2⟩, hguid⟩
          · rcases List.mem_cons.mp hp with rfl | hp
            · refine hrest.stays _ p ?_
              rw [hmap, if_pos hsleeper, Function.update_self]
            · exact hrest.mapped p hp hsome hsleeper
          · by_cases hsleeper : (loaded (nameFound pos) (bed pos)).sleeperGUID ≠ 0
            · rcases eq_or_ne guid (loaded (nameFound pos) (bed pos)).sleeperGUID with heq | hne
              · refine hrest.stays guid pos ?_
                rw [hmap, if_pos hsleeper, heq, Function.update_self]
              · refine hrest.stays guid p ?_
                rw [hmap, if_pos hsleeper, Function.update_of_ne hne, hp]
            · refine hrest.stays guid p ?_
              rw [hmap, if_neg hsleeper, hp]

/-- What is loaded tells of the same sleepers as what was saved, but for those who are gone. -/
theorem Inv.loadHouseItems (h : Inv layout s) (hpaired : layout.Paired) (owner : HouseId → Nat)
    {nameFound : Position → Nat → Bool} (hc : Reached layout s (.load owner nameFound)) :
    Inv layout (s.loadHouseItems layout owner nameFound) := by
  rw [State.loadHouseItems]
  rcases h.saved with hnil | ⟨bed, hslept, hsaved⟩
  · rw [hnil]
    exact (Inv.init layout).of_eq rfl rfl rfl
  · rw [hsaved]
    have hloaded := foldl_loadItem layout nameFound bed layout.houseTiles layout.nodup
      ({ State.init layout with
        owner := owner, saved := layout.houseTiles.filterMap (saveItem layout bed) } : State)
      fun _ _ => ⟨rfl, rfl⟩
    generalize (layout.houseTiles.filterMap (saveItem layout bed)).foldl (loadItem nameFound)
      ({ State.init layout with
        owner := owner, saved := layout.houseTiles.filterMap (saveItem layout bed) } : State) = t
      at hloaded
    have hread : ∀ p, layout.HouseBed p → t.bed p = loaded (nameFound p) (bed p) := fun p hp => by
      rw [hloaded.read]
      exact if_pos ⟨(layout.mem_houseTiles p).mpr hp.2, hp.1⟩
    have hnot : ∀ p, ¬ layout.HouseBed p → t.bed p = mapBed layout p := fun p hp => by
      rw [hloaded.read]
      exact if_neg fun hin => hp ⟨hin.2, (layout.mem_houseTiles p).mp hin.1⟩
    -- Whom a bed is given is who slept there.
    have hsleeper : ∀ p, (t.bed p).sleeperGUID ≠ 0 →
        layout.HouseBed p ∧ (t.bed p).sleeperGUID = (bed p).sleeperGUID := by
      intro p hp
      by_cases hhouse : layout.HouseBed p
      · refine ⟨hhouse, ?_⟩
        rw [hread p hhouse, loaded] at hp ⊢
        dsimp only at hp ⊢
        split at hp
        · next hfound => rw [if_pos hfound]
        · exact absurd rfl hp
      · rw [hnot p hhouse] at hp
        exact absurd rfl hp
    refine ⟨⟨fun p => ?_, fun p hp => (hsleeper p hp).1, fun p p' hp hp' => ?_,
      fun p p' hp heq => ?_⟩, fun guid p hp => ?_, fun p hp => ?_, ?_⟩
    · by_cases hhouse : layout.HouseBed p
      · rw [hread p hhouse]
        exact hslept.dir p
      · rw [hnot p hhouse]
    · obtain ⟨hguid, hstart⟩ := hslept.halves p p' hp hp'
      rw [hread p hp, hread p' (hpaired p p' hp hp').1, loaded, loaded, hguid, hstart]
      refine ⟨?_, rfl⟩
      rcases eq_or_ne (bed p).sleeperGUID 0 with hzero | hne
      · rw [hzero]
        rfl
      · -- The name of the sleeper is looked up for each half.
        obtain ⟨id, hid⟩ := Option.isSome_iff_exists.mp hp.1
        have hitem : ⟨p, (bed p).id, (bed p).serializeAttr⟩ ∈ s.saved := by
          rw [hsaved, List.mem_filterMap]
          exact ⟨p, (layout.mem_houseTiles p).mpr hp.2, by rw [saveItem, hid]; rfl⟩
        have hattr : BedAttr.sleeperGUID (bed p).sleeperGUID ∈ (bed p).serializeAttr := by
          rw [BedItem.serializeAttr, if_pos hne]
          exact List.mem_append_left _ List.mem_cons_self
        dsimp only
        rw [hc _ hitem _ hattr p' hp']
    · obtain ⟨_, hguid⟩ := hsleeper p hp
      have hne : (t.bed p').sleeperGUID ≠ 0 := heq ▸ hp
      obtain ⟨_, hguid'⟩ := hsleeper p' hne
      refine hslept.one p p' (hguid ▸ hp) ?_
      rw [← hguid, ← hguid', heq]
    · rcases hloaded.sleepers guid p hp with hold | ⟨hin, hzero, hguid⟩
      · cases hold
      · rw [hread p ⟨hin.2, (layout.mem_houseTiles p).mp hin.1⟩]
        exact ⟨hzero, hguid⟩
    · have hhouse := (hsleeper p hp).1
      rw [hread p hhouse] at hp ⊢
      exact hloaded.mapped p ((layout.mem_houseTiles p).mpr hhouse.2) hhouse.1 hp
    · exact .inr ⟨bed, hslept, hloaded.saved⟩

/-! ## Runs -/

theorem Inv.step (h : Inv layout s) (hpaired : layout.Paired) (hsteady : layout.Steady)
    {action : Action} (hc : Reached layout s action) : Inv layout (s.step layout action) := by
  cases action with
  | login guid => exact (h.onCreatureAppear hpaired hsteady guid).1
  | logout guid => exact h.of_eq rfl rfl rfl
  | useBed pos guid use => exact h.internalUseItem hpaired hsteady hc
  | setOwner house guid nameFound => exact h.setOwner hpaired hsteady house guid nameFound
  | save => exact h.saveHouseItems
  | load owner nameFound => exact h.loadHouseItems hpaired owner hc

/-- The beds and the map agree in every run in which nobody lies down twice, no second passes while
somebody lies down, and the two halves are loaded alike. -/
theorem beds_kept_throughout (hpaired : layout.Paired) (hsteady : layout.Steady)
    (actions : List Action) (hc : Throughout (step layout) (Reached layout) (init layout) actions) :
    Throughout (step layout) (Kept layout) (init layout) actions := by
  refine throughout_of_inv (fun s action h hc => h.step hpaired hsteady hc)
    (fun s action h hc => ⟨(h.step hpaired hsteady hc).good, ?_⟩) (Inv.init layout) hc
  rintro guid rfl
  exact (h.onCreatureAppear hpaired hsteady guid).2

/-! A house with a bed of two halves, and a half that has no other. -/

def head : Position := ⟨100, 100, 7⟩
def foot : Position := ⟨100, 101, 7⟩
def alone : Position := ⟨102, 100, 7⟩

def bedTypes : Nat → ItemType
  | 1754 => ⟨true, some .south, fun _ => 1762, 1762⟩
  | 1755 => ⟨true, some .north, fun _ => 1763, 1763⟩
  | 1762 => ⟨true, some .south, fun _ => 1754, 1754⟩
  | 1763 => ⟨true, some .north, fun _ => 1755, 1755⟩
  | _ => {}

def bedroom : Layout where
  items := bedTypes
  bedId pos :=
    if pos = head then some 1754 else if pos = foot then some 1755
    else if pos = alone then some 1754 else none
  house pos := if pos ∈ [head, foot, alone] then some 1 else none
  houseTiles := [head, foot, alone]
  mem_houseTiles pos := by
    split
    · next h => exact ⟨fun _ => rfl, fun _ => h⟩
    · next h => exact ⟨fun hin => absurd hin h, fun hin => (by cases hin)⟩
  nodup := by decide

theorem bedroom_paired : bedroom.Paired := by
  intro pos pos' hpos hother
  have hmem : pos ∈ [head, foot, alone] := (bedroom.mem_houseTiles pos).mpr hpos.2
  rw [List.mem_cons, List.mem_cons, List.mem_singleton] at hmem
  rcases hmem with rfl | rfl | rfl
  · obtain rfl : foot = pos' := Option.some.inj hother
    exact ⟨⟨rfl, rfl⟩, rfl⟩
  · obtain rfl : head = pos' := Option.some.inj hother
    exact ⟨⟨rfl, rfl⟩, rfl⟩
  · cases hother

theorem bedroom_steady : bedroom.Steady := by
  intro id id' hid hbed _
  change (bedTypes id).isBed at hbed
  unfold bedTypes at hbed
  split at hbed
  any_goals rcases hid with ⟨_, rfl⟩ | rfl <;> rfl
  cases hbed

/-- A player lies down and wakes up after the server has started again. -/
theorem beds_kept_throughout_one :
    Throughout (step bedroom) (Kept bedroom) (init bedroom)
      [.login ⟨1, by decide⟩,
        .useBed head ⟨1, by decide⟩ ⟨true, true, 0, none, .PLAYERSEX_MALE, 1000, 1000⟩,
        .logout ⟨1, by decide⟩, .save, .load (fun _ => 1) (fun _ _ => true),
        .login ⟨1, by decide⟩] := by
  refine beds_kept_throughout bedroom_paired bedroom_steady _ ?_
  refine throughout_cons.mpr ⟨trivial, ?_⟩
  refine throughout_cons.mpr ⟨fun _ _ _ => ⟨rfl, fun _ => rfl⟩, ?_⟩
  refine throughout_cons.mpr ⟨trivial, ?_⟩
  refine throughout_cons.mpr ⟨trivial, ?_⟩
  refine throughout_cons.mpr ⟨fun _ _ _ _ _ _ => rfl, ?_⟩
  exact throughout_cons.mpr ⟨trivial, throughout_nil⟩

/-- A player lies down twice before it is taken out of the game. -/
theorem sleeps_twice :
    ¬ ∀ (layout : Layout) (actions : List Action), layout.Paired → layout.Steady →
      Throughout (step layout) (Kept layout) (init layout) actions := by
  intro hall
  have hkept := hall bedroom
    [.login ⟨1, by decide⟩,
      .useBed head ⟨1, by decide⟩ ⟨true, true, 0, none, .PLAYERSEX_MALE, 1000, 1000⟩,
      .useBed alone ⟨1, by decide⟩ ⟨true, true, 0, none, .PLAYERSEX_MALE, 1000, 1000⟩]
    bedroom_paired bedroom_steady
    [.login ⟨1, by decide⟩,
      .useBed head ⟨1, by decide⟩ ⟨true, true, 0, none, .PLAYERSEX_MALE, 1000, 1000⟩]
    (.useBed alone ⟨1, by decide⟩ ⟨true, true, 0, none, .PLAYERSEX_MALE, 1000, 1000⟩) [] rfl
  have hone := hkept.good.one head alone (by decide) (by decide)
  rcases hone with heq | heq
  · cases heq
  · cases heq

end State

end Bruxo.Beds
