import Bruxo.MonsterTargetsLists
import Bruxo.SpectatorSight

/-!
# Monsters that are still to be told

In the middle of an operation an entry of a list may be stale, but then its monster is still to be
told (`Listed`): that the creature leaves, that it has moved, or that it is the monster that has.
When it is told, it looks at what it takes the creature for at that time. So an entry stays behind
where this has changed since: a monster forgets only whom it still counts (`Counts`). Where it does,
every call keeps `Inv`.
-/

namespace Bruxo.Targets

open Runs
open Spectators (CreatureId addSpectators)
open Spectators.CreatureMap (inRange inRange_iff)

/-! ## Who is told -/

namespace World

variable {w w' : World} {m c : CreatureId} {order : List CreatureId} {pos myPos : Position}

theorem mem_spectators : c ∈ w.spectators order pos ↔
    c ∈ w.onMap ∧ inRange pos (Spectators.CachedMap.sight.range pos) (w.position c) = true := by
  rw [spectators, List.mem_filter, List.mem_dedup, List.mem_append, Bool.and_eq_true,
    decide_eq_true_eq]
  constructor
  · rintro ⟨_, hmap, hrange⟩
    exact ⟨hmap, hrange⟩
  · rintro ⟨hmap, hrange⟩
    exact ⟨.inl hmap, hmap, hrange⟩

theorem canSeePosition_self (pos : Position) : canSeePosition pos pos = true := by
  rw [canSeePosition, KnownCreatures.maxClientViewportX, if_neg (by omega), if_neg (by omega)]
  simp only [Bool.and_eq_true, decide_eq_true_eq]
  exact ⟨⟨⟨by omega, by omega⟩, by omega⟩, by omega⟩

/-- Whoever sees a position is among its spectators. -/
theorem inRange_of_canSee (h : canSeePosition myPos pos = true) (hpos : pos.z.toNat < mapMaxLayers)
    (hmine : myPos.z.toNat < mapMaxLayers) :
    inRange pos (Spectators.CachedMap.sight.range pos) myPos = true := by
  rw [canSeePosition, KnownCreatures.maxClientViewportX] at h
  split at h
  · cases h
  split at h
  · cases h
  next habove hbelow =>
    simp only [Bool.and_eq_true, decide_eq_true_eq] at h
    obtain ⟨⟨⟨hwest, heast⟩, hnorth⟩, hsouth⟩ := h
    rw [mapMaxLayers] at hpos hmine
    have hfloor : (Spectators.CachedMap.floors pos true).1 ≤ myPos.z.toNat ∧
        (myPos.z.toNat : Int) ≤ (Spectators.CachedMap.floors pos true).2 := by
      simp only [Spectators.CachedMap.floors, if_true, mapMaxLayers]
      split
      · exact ⟨by omega, by omega⟩
      split
      · exact ⟨by omega, by omega⟩
      split <;> exact ⟨by omega, by omega⟩
    refine inRange_iff.mpr ⟨hfloor, ?_, ?_⟩ <;>
      simp only [Spectators.CachedMap.Query.range, Spectators.CachedMap.sight, if_true,
        Spectators.maxViewport] <;> exact ⟨by omega, by omega⟩

theorem mem_spectators_of_canSee (hmap : m ∈ w.onMap)
    (hsees : canSeePosition (w.position m) pos = true) (hpos : pos.z.toNat < mapMaxLayers)
    (hmine : (w.position m).z.toNat < mapMaxLayers) : m ∈ w.spectators order pos :=
  mem_spectators.mpr ⟨hmap, inRange_of_canSee hsees hpos hmine⟩

theorem isDead_iff : w.isDead c = true ↔ w.health c ≤ 0 := decide_eq_true_iff

theorem isDead_congr (hhealth : w'.health c = w.health c) : w'.isDead c = w.isDead c := by
  rw [Bool.eq_iff_iff, isDead_iff, isDead_iff, hhealth]

theorem isPlayer_congr (hkind : w'.kind = w.kind) : w'.isPlayer = w.isPlayer := by
  funext d
  rw [isPlayer, isPlayer, hkind]

/-- What a monster takes another for depends on the players that are their masters. -/
theorem isOpponent_congr (hkind : w'.kind = w.kind) (hm : w'.masterPlayer m = w.masterPlayer m)
    (hc : w'.masterPlayer c = w.masterPlayer c) : w'.isOpponent m c = w.isOpponent m c := by
  rw [isOpponent, isOpponent, hkind, hm, hc]

theorem masterPlayer_congr (hkind : w'.kind = w.kind) (hc : w'.getMaster c = w.getMaster c) :
    w'.masterPlayer c = w.masterPlayer c := by
  rw [masterPlayer, masterPlayer, isPlayer_congr hkind, hc]

end World

/-! ## The masters -/

namespace Masters

variable {masters : Summons.State CreatureId} {c d : CreatureId}

theorem setMaster_frame (masters : Summons.State CreatureId) (c : CreatureId)
    (newMaster : Option CreatureId) :
    (masters.setMaster c newMaster).master = Function.update masters.master c newMaster ∧
      (masters.setMaster c newMaster).isRemoved = masters.isRemoved ∧
        (masters.setMaster c newMaster).destroyed = masters.destroyed := by
  rw [Summons.State.setMaster]
  split
  · next hnone =>
      obtain ⟨rfl, hold⟩ := hnone
      refine ⟨?_, rfl, rfl⟩
      rw [← hold, Function.update_eq_self]
  · have hpush : ∀ s : Summons.State CreatureId, (s.pushSummon c newMaster).isRemoved = s.isRemoved := by
      intro s
      cases newMaster <;> rfl
    have herase : ∀ (s : Summons.State CreatureId) (old : Option CreatureId),
        (s.eraseSummon c old).isRemoved = s.isRemoved := by
      intro s old
      cases old with
      | none => rfl
      | some m =>
          rw [Summons.State.eraseSummon]
          split <;> rfl
    obtain ⟨hmaster, hdestroyed, _⟩ := masters.pushSummon_frame c newMaster
    obtain ⟨hmaster', hdestroyed', _⟩ :=
      ((masters.pushSummon c newMaster).putMaster c newMaster).eraseSummon_frame c (masters.master c)
    refine ⟨?_, ?_, ?_⟩
    · rw [hmaster', Summons.State.putMaster, hmaster]
    · rw [herase]
      exact hpush masters
    · rw [hdestroyed']
      exact hdestroyed

/-- What the handler of the removed creature leaves of the masters -/
theorem onRemoveCreature_frame (h : masters.Good) (c : CreatureId) :
    (masters.onRemoveCreature c).Good ∧
      (∀ d, d ≠ c → (masters.onRemoveCreature c).master d = masters.master d) ∧
        (masters.onRemoveCreature c).isRemoved = masters.isRemoved ∧
          (masters.onRemoveCreature c).destroyed = masters.destroyed := by
  rw [Summons.State.onRemoveCreature]
  split
  · split
    · exact ⟨h, fun _ _ => rfl, rfl, rfl⟩
    · obtain ⟨hmaster, hremoved, hdestroyed⟩ := setMaster_frame masters c none
      refine ⟨h.setMaster (by rintro _ ⟨⟩), fun d hne => ?_, hremoved, hdestroyed⟩
      rw [hmaster, Function.update_of_ne hne]
  · exact ⟨h, fun _ _ => rfl, rfl, rfl⟩

end Masters

/-! ## Entries -/

/-- The call makes up for an entry of `m` that is not right. -/
def Call.excuses : Call → CreatureId → CreatureId → Prop
  | .onCreatureMove m d _ _, m', c => m' = m ∧ (d = m ∨ d = c)
  | .onSelfMove m, m', _ => m' = m
  | .onRemoveCreature m d, m', c => m' = m ∧ d = c
  | _, _, _ => False

/-- `m` has moved and is still to look around. -/
def Looks (calls : List Call) (m : CreatureId) : Prop :=
  (∃ newPos oldPos, Call.onCreatureMove m m newPos oldPos ∈ calls) ∨ Call.onSelfMove m ∈ calls

/-- The entry `c` of `m` is right, or `m` is still to be told. -/
inductive Listed (w : World) (calls : List Call) (m c : CreatureId) (good : Prop) : Prop where
  | leaves (h : Call.onRemoveCreature m c ∈ calls)
  | looks (h : Looks calls m) (hunseen : w.canSee m c = false)
  | moved {oldPos : Position} (h : Call.onCreatureMove m c (w.position c) oldPos ∈ calls)
      (hold : World.canSeePosition (w.position m) oldPos = true) (hunseen : w.canSee m c = false)
  | seen (hmap : c ∈ w.onMap) (hsees : w.canSee m c = true) (hgood : good)

section Listed

variable {w w' : World} {calls calls' : List Call} {m m' c : CreatureId} {good good' : Prop}
  {call : Call}

theorem Call.listener_of_excuses (h : call.excuses m c) : call.listener = some m := by
  cases call with
  | onCreatureMove m' d newPos oldPos => exact congrArg some h.1.symm
  | onSelfMove m' => exact congrArg some (show m = m' from h).symm
  | onRemoveCreature m' d => exact congrArg some h.1.symm
  | _ => cases h

theorem Listed.imp (h : Listed w calls m c good) (hpos : w'.position = w.position)
    (hcalls : ∀ call ∈ calls, call.excuses m c → call ∈ calls')
    (hgood : c ∈ w.onMap → w.canSee m c = true → good → c ∈ w'.onMap ∧ good') :
    Listed w' calls' m c good' := by
  have hsee : w'.canSee m c = w.canSee m c := by rw [World.canSee, World.canSee, hpos]
  cases h with
  | leaves h => exact .leaves (hcalls _ h ⟨rfl, rfl⟩)
  | looks h hunseen =>
      refine .looks ?_ (hsee.trans hunseen)
      rcases h with ⟨newPos, oldPos, h⟩ | h
      · exact .inl ⟨newPos, oldPos, hcalls _ h ⟨rfl, .inl rfl⟩⟩
      · exact .inr (hcalls _ h rfl)
  | moved h hold hunseen =>
      refine .moved ?_ (hpos ▸ hold) (hsee.trans hunseen)
      rw [hpos]
      exact hcalls _ h ⟨rfl, .inr rfl⟩
  | seen hmap hsees hgood' =>
      obtain ⟨hmap', hgood'⟩ := hgood hmap hsees hgood'
      exact .seen hmap' (hsee.trans hsees) hgood'

/-- An entry in sight can only be excused by a removal. -/
theorem Listed.of_canSee (h : Listed w calls m c good) (hsees : w.canSee m c = true) :
    Call.onRemoveCreature m c ∈ calls ∨ c ∈ w.onMap ∧ good := by
  cases h with
  | leaves h => exact .inl h
  | looks _ hunseen => rw [hsees] at hunseen; cases hunseen
  | moved _ _ hunseen => rw [hsees] at hunseen; cases hunseen
  | seen hmap _ hgood => exact .inr ⟨hmap, hgood⟩

/-- When nobody is still to be told, every entry is right. -/
theorem Listed.of_quiet (h : Listed w calls m c good)
    (hquiet : ∀ call ∈ calls, call.listener = none) :
    c ∈ w.onMap ∧ w.canSee m c = true ∧ good := by
  cases h with
  | leaves h => cases hquiet _ h
  | looks h _ =>
      rcases h with ⟨_, _, h⟩ | h
      · cases hquiet _ h
      · cases hquiet _ h
  | moved h _ _ => cases hquiet _ h
  | seen hmap hsees hgood => exact ⟨hmap, hsees, hgood⟩

/-- Whoever is new on the map leaves the entries of the others as they are. -/
theorem Listed.placeCreature {d : CreatureId} {pos : Position} {placed : CreatureId → Bool}
    (h : Listed w calls m d good) (hquiet : ∀ call ∈ calls, call.listener = none)
    (hnew : ∀ d ∈ w.onMap, d ≠ c) (hmap : m ∈ w.onMap) :
    Listed { w with
      position := Function.update w.position c pos
      placed := placed
      onMap := w.onMap ++ [c] } calls' m d good := by
  obtain ⟨hin, hsees, hgood⟩ := h.of_quiet hquiet
  refine .seen (List.mem_append_left _ hin) ?_ hgood
  rw [World.canSee]
  dsimp only
  rw [Function.update_of_ne (hnew m hmap), Function.update_of_ne (hnew d hin)]
  exact hsees

/-- When `c` moves, the monsters that have seen it where it was are told, and itself as well. -/
theorem Listed.moveCreature {d : CreatureId} {newPos : Position} (h : Listed w calls m d good)
    (hquiet : ∀ call ∈ calls, call.listener = none) (hmap : m ∈ w.onMap)
    (htell : World.canSeePosition (w.position m) (w.position c) = true →
      Call.onCreatureMove m c newPos (w.position c) ∈ calls') :
    Listed { w with position := Function.update w.position c newPos } calls' m d good := by
  obtain ⟨hdmap, hsees, hgood⟩ := h.of_quiet hquiet
  cases hsee : World.canSee { w with position := Function.update w.position c newPos } m d with
  | true => exact .seen hdmap hsee hgood
  | false =>
      rcases eq_or_ne m c with rfl | hm
      · exact .looks (.inl ⟨newPos, _, htell (World.canSeePosition_self _)⟩) hsee
      rcases eq_or_ne d c with rfl | hd
      · have hold : World.canSeePosition (Function.update w.position d newPos m)
            (w.position d) = true := by
          rw [Function.update_of_ne hm]
          exact hsees
        refine .moved ?_ hold hsee
        dsimp only
        rw [Function.update_self]
        exact htell hsees
      · rw [World.canSee] at hsee
        dsimp only at hsee
        rw [Function.update_of_ne hm, Function.update_of_ne hd] at hsee
        rw [World.canSee, hsee] at hsees
        cases hsees

end Listed

/-- `Game::removeCreature` is still to be called for `c`. -/
def Going (calls : List Call) (c : CreatureId) : Prop :=
  Call.finishDeath c true ∈ calls ∨ Call.removeCreature c ∈ calls

/-- The idle state of `m` is not set yet, or does not matter any more. -/
def Busy (calls : List Call) (m : CreatureId) : Prop :=
  Call.onCreatureAppear m m ∈ calls ∨ Going calls m

theorem not_going_nil (c : CreatureId) : ¬ Going [] c := by
  rintro (hmem | hmem) <;> cases hmem

theorem not_busy_nil (m : CreatureId) : ¬ Busy [] m := by
  rintro (hmem | hgo)
  · cases hmem
  · exact not_going_nil m hgo

namespace State

/-- What holds between any two calls -/
structure Inv (s : State) : Prop where
  placed : ∀ c ∈ s.onMap, s.placed c = true
  unremoved : ∀ c ∈ s.onMap, s.isRemoved c = false
  gone : ∀ c, s.isRemoved c = true → s.placed c = true
  floor : ∀ c ∈ s.onMap, (s.position c).z.toNat < mapMaxLayers
  fresh : ∀ c, s.placed c = false → (s.monster c).targetList = [] ∧ (s.monster c).friendList = []
  told : ∀ call ∈ s.calls, ∀ m, call.listener = some m → s.placed m = true
  appears : ∀ m c, Call.onCreatureAppear m c ∈ s.calls →
    c ∈ s.onMap ∧ ∀ call ∈ s.calls, ∃ m', call = .onCreatureAppear m' c
  leaving : ∀ m c, Call.onRemoveCreature m c ∈ s.calls → c ∉ s.onMap
  removed : ∀ c, Call.setRemoved c ∈ s.calls → c ∉ s.onMap ∧ s.placed c = true
  corpse : ∀ c, Call.finishDeath c false ∈ s.calls → s.isMonster c = false
  targets : ∀ m ∈ s.onMap, s.isMonster m = true → ∀ c ∈ (s.monster m).targetList,
    Listed s.toWorld s.calls m c (s.isOpponent m c = true)
  friends : ∀ m ∈ s.onMap, s.isMonster m = true → ∀ c ∈ (s.monster m).friendList,
    Listed s.toWorld s.calls m c True
  held : ∀ m, (s.monster m).Held
  rested : ∀ m ∈ s.onMap, s.isMonster m = true →
    Busy s.calls m ∨ (s.monster m).Rested s.toWorld m
  dead : ∀ c ∈ s.onMap, s.isDead c = true → c ∈ s.dying ∨ Going s.calls c
  masters : s.masters.Good
  lives : ∀ c, s.masters.destroyed c = false

/-! ## What is to hold -/

/-- An entry that the claims of a monster on the others rest on -/
structure Good (s : State) (m c : CreatureId) : Prop where
  onMap : c ∈ s.onMap
  unremoved : s.isRemoved c = false
  /-- Between the blow and `executeDeath`, the death is not over. -/
  alive : c ∉ s.dying → s.isDead c = false
  sight : s.canSee m c = true

/-- The lists of the monsters that are awake are fresh, and whoever has no opponent left sleeps. -/
structure Fresh (s : State) : Prop where
  targets : ∀ m ∈ s.onMap, s.isMonster m = true → (s.monster m).isIdle = false →
    ∀ c ∈ (s.monster m).targetList, s.Good m c ∧ s.isOpponent m c = true
  friends : ∀ m ∈ s.onMap, s.isMonster m = true → (s.monster m).isIdle = false →
    ∀ c ∈ (s.monster m).friendList, s.Good m c
  held : ∀ m, (s.monster m).Held
  idle : ∀ m ∈ s.onMap, s.isMonster m = true → s.isDead m = false → s.isSummon m = false →
    s.aggressive m = false →
      (∀ c ∈ s.onMap, s.canSee m c = true → s.isOpponent m c = false) → (s.monster m).isIdle = true

/-- Behind each operation that has nothing left to call -/
def Kept (s : State) (action : Action) : Prop :=
  (s.step action).calls = [] → (s.step action).Fresh

/-- Nobody whom a monster fights stops being an opponent. -/
def KeepsOpponents (s s' : State) : Prop :=
  ∀ m ∈ s.onMap, s.isMonster m = true → ∀ c ∈ (s.monster m).targetList,
    s.isOpponent m c = true → s'.isOpponent m c = true

/-- The monster still counts `c` as what it lists it for. -/
structure Counts (s : State) (m c : CreatureId) : Prop where
  target : c ∈ (s.monster m).targetList → s.isOpponent m c = true
  friend : c ∈ (s.monster m).friendList → s.isFriend m c = true

/-- What a call has to find -/
def Expected (s : State) : Call → Prop
  | .onCreatureMove m c newPos oldPos =>
      c ≠ m → m ∈ s.onMap → s.isMonster m = true →
        (Monster.comesInSight s.toWorld m newPos oldPos = true → c ∈ s.onMap) ∧
          (Monster.goesOutOfSight s.toWorld m newPos oldPos = true → s.Counts m c)
  | .onRemoveCreature m c => c ≠ m → m ∈ s.onMap → s.isMonster m = true → s.Counts m c
  | .finishDeath c _ => s.KeepsOpponents (s.setMaster c none)
  | _ => True

/-- The monster has no target and no condition that keeps it awake. -/
structure Unoccupied (s : State) (m : CreatureId) : Prop where
  onMap : m ∈ s.onMap
  monster : s.isMonster m = true
  targets : (s.monster m).targetList = []
  aggressive : s.aggressive m = false

/-- What an operation, or the performing of a call, has to find -/
def Condition (s : State) : Action → Prop
  | .placeCreature c _ _ => s.isDead c = false
  | .setMaster c newMaster =>
      s.KeepsOpponents (s.setMaster c newMaster) ∧
        (newMaster = none → s.Unoccupied c → s.isDead c = true ∨ (s.monster c).isIdle = true)
  | .changeHealth c healthChange =>
      s.Unoccupied c → s.isSummon c = true ∨ (s.changeHealth c healthChange).isDead c = true
  | .executeDeath c death _ => s.isPlayer c = true → death.droppedCorpse = false → 0 < death.health
  | .next _ _ => ∀ call calls, s.calls = call :: calls → s.Expected call
  | _ => True

variable {s : State} {m c : CreatureId} {call : Call} {calls : List Call} {monster : Monster}

theorem Inv.init (kind : CreatureId → CreatureKind) (health : CreatureId → Int) :
    Inv (init kind health) where
  placed _ h := by cases h
  unremoved _ h := by cases h
  gone _ h := by cases h
  floor _ h := by cases h
  fresh _ _ := ⟨rfl, rfl⟩
  told _ h := by cases h
  appears _ _ h := by cases h
  leaving _ _ h := by cases h
  removed _ h := by cases h
  corpse _ h := by cases h
  targets _ h := by cases h
  friends _ h := by cases h
  held _ := Monster.Held.empty
  rested _ h := by cases h
  dead _ h := by cases h
  masters := Summons.State.Good.init
  lives _ := rfl

/-! ## One monster -/

theorem setMonster_self (s : State) (m : CreatureId) (monster : Monster) :
    (s.setMonster m monster).monster m = monster := Function.update_self ..

theorem setMonster_of_ne (s : State) {m m' : CreatureId} (monster : Monster) (hne : m' ≠ m) :
    (s.setMonster m monster).monster m' = s.monster m' := Function.update_of_ne hne ..

theorem Inv.setMonster (h : Inv s) (hheld : monster.Held)
    (hfresh : s.placed m = true ∨ monster.Fewer (s.monster m))
    (htargets : m ∈ s.onMap → s.isMonster m = true → ∀ c ∈ monster.targetList,
      Listed s.toWorld s.calls m c (s.isOpponent m c = true))
    (hfriends : m ∈ s.onMap → s.isMonster m = true → ∀ c ∈ monster.friendList,
      Listed s.toWorld s.calls m c True)
    (hrested : m ∈ s.onMap → s.isMonster m = true →
      Busy s.calls m ∨ monster.Rested s.toWorld m) : Inv (s.setMonster m monster) :=
  { h with
    fresh := by
      intro c hc
      rcases eq_or_ne c m with rfl | hne
      · rw [setMonster_self]
        rcases hfresh with hplaced | hfewer
        · rw [show s.placed c = false from hc] at hplaced
          cases hplaced
        · obtain ⟨htarget, hfriend⟩ := h.fresh c hc
          exact ⟨List.subset_nil.mp (htarget ▸ hfewer.targets),
            List.subset_nil.mp (hfriend ▸ hfewer.friends)⟩
      · rw [setMonster_of_ne s monster hne]
        exact h.fresh c hc
    targets := by
      intro m' hmap hmonster
      rcases eq_or_ne m' m with rfl | hne
      · rw [setMonster_self]
        exact htargets hmap hmonster
      · rw [setMonster_of_ne s monster hne]
        exact h.targets m' hmap hmonster
    friends := by
      intro m' hmap hmonster
      rcases eq_or_ne m' m with rfl | hne
      · rw [setMonster_self]
        exact hfriends hmap hmonster
      · rw [setMonster_of_ne s monster hne]
        exact h.friends m' hmap hmonster
    held := by
      intro m'
      rcases eq_or_ne m' m with rfl | hne
      · rw [setMonster_self]
        exact hheld
      · rw [setMonster_of_ne s monster hne]
        exact h.held m'
    rested := by
      intro m' hmap hmonster
      rcases eq_or_ne m' m with rfl | hne
      · rw [setMonster_self]
        exact hrested hmap hmonster
      · rw [setMonster_of_ne s monster hne]
        exact h.rested m' hmap hmonster }

/-- A monster that only loses entries. -/
theorem Inv.setFewer (h : Inv s) (hheld : monster.Held) (hfewer : monster.Fewer (s.monster m))
    (hrested : m ∈ s.onMap → s.isMonster m = true →
      Busy s.calls m ∨ monster.Rested s.toWorld m) : Inv (s.setMonster m monster) :=
  h.setMonster hheld (.inr hfewer)
    (fun hmap hmonster c hc => h.targets m hmap hmonster c (hfewer.targets hc))
    (fun hmap hmonster c hc => h.friends m hmap hmonster c (hfewer.friends hc)) hrested

/-! ## The uppermost call -/

/-- Other calls, that excuse the same entries and beside which nothing appears -/
theorem Inv.recall (h : Inv s)
    (hnew : ∀ call ∈ calls, call ∈ s.calls ∨ (∃ c, call = .removeCreature c) ∨
      ∃ m, call = .onSelfMove m ∧ s.placed m = true)
    (happears : ∀ m c, Call.onCreatureAppear m c ∉ s.calls)
    (hlisted : ∀ m c good, Listed s.toWorld s.calls m c good → Listed s.toWorld calls m c good)
    (hgoing : ∀ c ∈ s.onMap, Going s.calls c → Going calls c) : Inv { s with calls := calls } := by
  have hold : ∀ {call : Call}, call ∈ calls → (∀ c, call ≠ .removeCreature c) →
      (∀ m, call ≠ .onSelfMove m) → call ∈ s.calls := by
    intro call hmem hremove hmove
    rcases hnew call hmem with hmem | ⟨c, rfl⟩ | ⟨m, rfl, _⟩
    · exact hmem
    · exact absurd rfl (hremove c)
    · exact absurd rfl (hmove m)
  exact
    { h with
      told := by
        intro call hmem m hm
        rcases hnew call hmem with hmem | ⟨c, rfl⟩ | ⟨m', rfl, hplaced⟩
        · exact h.told call hmem m hm
        · cases hm
        · exact Option.some.inj hm ▸ hplaced
      appears := fun m c hmem =>
        absurd (hold hmem (by rintro _ ⟨⟩) (by rintro _ ⟨⟩)) (happears m c)
      leaving := fun m c hmem => h.leaving m c (hold hmem (by rintro _ ⟨⟩) (by rintro _ ⟨⟩))
      removed := fun c hmem => h.removed c (hold hmem (by rintro _ ⟨⟩) (by rintro _ ⟨⟩))
      corpse := fun c hmem => h.corpse c (hold hmem (by rintro _ ⟨⟩) (by rintro _ ⟨⟩))
      targets := fun m hmap hmonster c hc => hlisted m c _ (h.targets m hmap hmonster c hc)
      friends := fun m hmap hmonster c hc => hlisted m c _ (h.friends m hmap hmonster c hc)
      rested := by
        intro m hmap hmonster
        rcases h.rested m hmap hmonster with (happear | hgo) | hrested
        · exact absurd happear (happears m m)
        · exact .inl (.inr (hgoing m hmap hgo))
        · exact .inr hrested
      dead := fun c hmap hdead => (h.dead c hmap hdead).imp_right (hgoing c hmap) }

/-- Beside an appearance there is nothing else to be called. -/
theorem Inv.not_appears (h : Inv s) (hcalls : s.calls = call :: calls)
    (hnot : ∀ m c, call ≠ .onCreatureAppear m c) (m c : CreatureId) :
    Call.onCreatureAppear m c ∉ s.calls := by
  intro hmem
  obtain ⟨m', heq⟩ := (h.appears m c hmem).2 call (hcalls ▸ List.mem_cons_self)
  exact hnot m' c heq

/-- Removals in place of the uppermost call, which nobody is told by -/
theorem Inv.replace (h : Inv s) (hcalls : s.calls = call :: calls) (hnone : call.listener = none)
    {new : List Call} (hnew : ∀ call ∈ new, ∃ c, call = .removeCreature c)
    (hgoing : ∀ c, call = .finishDeath c true ∨ call = .removeCreature c →
      c ∈ s.onMap → Call.removeCreature c ∈ new) : Inv { s with calls := new ++ calls } := by
  refine h.recall (fun call' hmem => ?_) (h.not_appears hcalls (by rintro _ _ rfl; cases hnone))
    (fun m c good hlisted => ?_) fun c hmap hgo => ?_
  · rcases List.mem_append.mp hmem with hmem | hmem
    · exact .inr (.inl (hnew call' hmem))
    · exact .inl (hcalls ▸ List.mem_cons_of_mem call hmem)
  · refine hlisted.imp rfl (fun call' hmem hex => ?_) fun hm _ hg => ⟨hm, hg⟩
    rw [hcalls] at hmem
    rcases List.mem_cons.mp hmem with rfl | hmem
    · rw [Call.listener_of_excuses hex] at hnone
      cases hnone
    · exact List.mem_append_right new hmem
  · rw [Going, hcalls, List.mem_cons, List.mem_cons] at hgo
    rcases hgo with (heq | hmem) | (heq | hmem)
    · exact .inr (List.mem_append_left calls (hgoing c (.inl heq.symm) hmap))
    · exact .inl (List.mem_append_right new hmem)
    · exact .inr (List.mem_append_left calls (hgoing c (.inr heq.symm) hmap))
    · exact .inr (List.mem_append_right new hmem)

/-- The uppermost call is over, and its listener has no use for it any more. -/
theorem Inv.pop (h : Inv s) (hcalls : s.calls = call :: calls) (hm : call.listener = some m)
    (htargets : m ∈ s.onMap → s.isMonster m = true → ∀ c ∈ (s.monster m).targetList,
      Listed s.toWorld calls m c (s.isOpponent m c = true))
    (hfriends : m ∈ s.onMap → s.isMonster m = true → ∀ c ∈ (s.monster m).friendList,
      Listed s.toWorld calls m c True)
    (hrested : m ∈ s.onMap → s.isMonster m = true →
      Busy calls m ∨ (s.monster m).Rested s.toWorld m) : Inv { s with calls := calls } := by
  have hrest : ∀ call' ∈ calls, call' ∈ s.calls := by
    intro call' hmem
    rw [hcalls]
    exact List.mem_cons_of_mem call hmem
  have hkept : ∀ call' ∈ s.calls, call'.listener ≠ some m → call' ∈ calls := by
    intro call' hmem hne
    rw [hcalls] at hmem
    rcases List.mem_cons.mp hmem with rfl | hmem
    · exact absurd hm hne
    · exact hmem
  have hgone : ∀ c, Going s.calls c → Going calls c := fun c hgo =>
    hgo.imp (fun hmem => hkept _ hmem (by rintro ⟨⟩)) fun hmem => hkept _ hmem (by rintro ⟨⟩)
  exact
    { h with
      told := fun call' hmem => h.told call' (hrest call' hmem)
      appears := by
        intro m c hmem
        obtain ⟨hmap, hall⟩ := h.appears m c (hrest _ hmem)
        exact ⟨hmap, fun call' hmem' => hall call' (hrest call' hmem')⟩
      leaving := fun m c hmem => h.leaving m c (hrest _ hmem)
      removed := fun c hmem => h.removed c (hrest _ hmem)
      corpse := fun c hmem => h.corpse c (hrest _ hmem)
      targets := by
        intro m' hmap hmonster c hc
        rcases eq_or_ne m' m with rfl | hne
        · exact htargets hmap hmonster c hc
        refine (h.targets m' hmap hmonster c hc).imp rfl (fun call' hmem hex => ?_) fun hm _ hg => ⟨hm, hg⟩
        refine hkept call' hmem ?_
        rw [Call.listener_of_excuses hex]
        exact fun heq => hne (Option.some.inj heq)
      friends := by
        intro m' hmap hmonster c hc
        rcases eq_or_ne m' m with rfl | hne
        · exact hfriends hmap hmonster c hc
        refine (h.friends m' hmap hmonster c hc).imp rfl (fun call' hmem hex => ?_) fun hm _ hg => ⟨hm, hg⟩
        refine hkept call' hmem ?_
        rw [Call.listener_of_excuses hex]
        exact fun heq => hne (Option.some.inj heq)
      rested := by
        intro m' hmap hmonster
        rcases eq_or_ne m' m with rfl | hne
        · exact hrested hmap hmonster
        refine (h.rested m' hmap hmonster).imp_left fun hbusy => ?_
        rcases hbusy with happear | hgo
        · exact .inl (hkept _ happear fun heq => hne (Option.some.inj heq))
        · exact .inr (hgone m' hgo)
      dead := fun c hmap hdead => (h.dead c hmap hdead).imp_right (hgone c) }

/-- The uppermost call tells a monster. -/
theorem Inv.tell (h : Inv s) (hcalls : s.calls = call :: calls) (hm : call.listener = some m)
    (hheld : monster.Held)
    (htargets : m ∈ s.onMap → s.isMonster m = true → ∀ c ∈ monster.targetList,
      Listed s.toWorld calls m c (s.isOpponent m c = true))
    (hfriends : m ∈ s.onMap → s.isMonster m = true → ∀ c ∈ monster.friendList,
      Listed s.toWorld calls m c True)
    (hrested : m ∈ s.onMap → s.isMonster m = true →
      Busy calls m ∨ monster.Rested s.toWorld m) :
    Inv (State.setMonster { s with calls := calls } m monster) := by
  have hrest : ∀ call' ∈ calls, call' ∈ s.calls := by
    intro call' hmem
    rw [hcalls]
    exact List.mem_cons_of_mem call hmem
  have hset : Inv (s.setMonster m monster) := by
    refine h.setMonster hheld (.inl (h.told call (hcalls ▸ List.mem_cons_self) m hm))
      (fun hmap hmonster c hc => ?_) (fun hmap hmonster c hc => ?_) fun hmap hmonster => ?_
    · exact (htargets hmap hmonster c hc).imp rfl (fun call' hmem _ => hrest call' hmem)
        fun hm _ hg => ⟨hm, hg⟩
    · exact (hfriends hmap hmonster c hc).imp rfl (fun call' hmem _ => hrest call' hmem)
        fun hm _ hg => ⟨hm, hg⟩
    · exact (hrested hmap hmonster).imp_left fun hbusy =>
        hbusy.imp (hrest _) fun hgo => hgo.imp (hrest _) (hrest _)
  refine hset.pop hcalls hm ?_ ?_ ?_
  · rw [setMonster_self]
    exact htargets
  · rw [setMonster_self]
    exact hfriends
  · rw [setMonster_self]
    exact hrested

/-- The uppermost call does not concern the lists of its listener. -/
theorem Inv.skip (h : Inv s) (hcalls : s.calls = call :: calls) (hm : call.listener = some m)
    (hnot : m ∉ s.onMap ∨ s.isMonster m = false) : Inv { s with calls := calls } := by
  have hno : m ∈ s.onMap → s.isMonster m = true → False := by
    intro hmap hmonster
    rcases hnot with hnot | hnot
    · exact hnot hmap
    · rw [hnot] at hmonster
      cases hmonster
  exact h.pop hcalls hm (fun hmap hmonster => (hno hmap hmonster).elim)
    (fun hmap hmonster => (hno hmap hmonster).elim) fun hmap hmonster => (hno hmap hmonster).elim

/-! ## The calls -/

variable {ev : Parties.Events} {order : List CreatureId}

theorem Busy.pop (hbusy : Busy (call :: calls) m) (hm : call.listener = some m)
    (hne : call ≠ .onCreatureAppear m m) : Busy calls m := by
  have hrest : ∀ call', call' ∈ call :: calls → call' ≠ call → call' ∈ calls :=
    fun call' hmem hne => (List.mem_cons.mp hmem).resolve_left hne
  rcases hbusy with happear | hdeath | hremove
  · exact .inl (hrest _ happear (Ne.symm hne))
  · exact .inr (.inl (hrest _ hdeath (by rintro rfl; cases hm)))
  · exact .inr (.inr (hrest _ hremove (by rintro rfl; cases hm)))

/-- A monster that has come or moved looks around. -/
theorem Inv.look (h : Inv s) (hcalls : s.calls = call :: calls) (hm : call.listener = some m)
    (hnot : ∀ c, call ≠ .onRemoveCreature m c) :
    Inv (State.setMonster { s with calls := calls } m
      (((s.monster m).updateTargetList s.toWorld m
        (s.spectators order (s.position m))).updateIdleStatus s.toWorld m)) := by
  have hfewer := Monster.updateIdleStatus_fewer s.toWorld m
    ((s.monster m).updateTargetList s.toWorld m (s.spectators order (s.position m)))
  have hleaves : ∀ {c}, Call.onRemoveCreature m c ∈ s.calls → Call.onRemoveCreature m c ∈ calls := by
    intro c hmem
    rw [hcalls] at hmem
    exact (List.mem_cons.mp hmem).resolve_left fun heq => hnot c heq.symm
  refine h.tell hcalls hm (((h.held m).updateTargetList _ _ _).updateIdleStatus _ _)
    (fun hmap hmonster c hc => ?_) (fun hmap hmonster c hc => ?_)
    fun _ _ => .inr (Monster.rested_updateIdleStatus _ _ _)
  · rcases Monster.mem_targetList_update (hfewer.targets hc) with ⟨hold, hsees⟩ | ⟨hfound, hsees, hgood⟩
    · rcases (h.targets m hmap hmonster c hold).of_canSee hsees with hleaving | ⟨hin, hgood⟩
      · exact .leaves (hleaves hleaving)
      · exact .seen hin hsees hgood
    · exact .seen (World.mem_spectators.mp hfound).1 hsees hgood
  · rcases Monster.mem_friendList_update (hfewer.friends hc) with ⟨hold, hsees⟩ | ⟨hfound, hsees⟩
    · rcases (h.friends m hmap hmonster c hold).of_canSee hsees with hleaving | ⟨hin, hgood⟩
      · exact .leaves (hleaves hleaving)
      · exact .seen hin hsees hgood
    · exact .seen (World.mem_spectators.mp hfound).1 hsees trivial

theorem Inv.onCreatureAppear (h : Inv s) (hcalls : s.calls = .onCreatureAppear m c :: calls) :
    Inv (State.perform { s with calls := calls } ev order (.onCreatureAppear m c)) := by
  rw [perform]
  split
  · next hmonster =>
      exact h.skip hcalls rfl (.inr (by simpa using hmonster))
  split
  · exact h.look hcalls rfl (by rintro _ ⟨⟩)
  · have hmap := (h.appears m c (hcalls ▸ List.mem_cons_self)).1
    have hkept : ∀ d, ∀ call ∈ s.calls, call.excuses m d → call ∈ calls := by
      intro d call hmem hex
      rw [hcalls] at hmem
      rcases List.mem_cons.mp hmem with rfl | hmem
      · cases hex
      · exact hmem
    refine h.tell hcalls rfl ((h.held m).onCreatureFound _ _ _ _)
      (fun hin hmonster d hd => ?_) (fun hin hmonster d hd => ?_) fun hin hmonster => ?_
    · rcases Monster.mem_targetList_found hd with hold | ⟨rfl, hsees, hgood⟩
      · exact (h.targets m hin hmonster d hold).imp rfl (hkept d) fun hm _ hg => ⟨hm, hg⟩
      · exact .seen hmap hsees hgood
    · rcases Monster.mem_friendList_found hd with hold | ⟨rfl, hsees⟩
      · exact (h.friends m hin hmonster d hold).imp rfl (hkept d) fun hm _ hg => ⟨hm, hg⟩
      · exact .seen hmap hsees trivial
    · rcases h.rested m hin hmonster with hbusy | hrested
      · rw [hcalls] at hbusy
        exact .inl (Busy.pop hbusy rfl (by rintro ⟨⟩; contradiction))
      · exact .inr (hrested.onCreatureFound c true)

/-- Who has moved removes its summons first and looks around then. -/
theorem Inv.selfMove {newPos oldPos : Position} {new : List Call} (h : Inv s)
    (hcalls : s.calls = .onCreatureMove m m newPos oldPos :: calls)
    (hnew : ∀ call ∈ new, ∃ c, call = .removeCreature c) :
    Inv { s with calls := new ++ .onSelfMove m :: calls } := by
  have hkept : ∀ call ∈ s.calls, call ≠ .onCreatureMove m m newPos oldPos →
      call ∈ new ++ .onSelfMove m :: calls := by
    intro call hmem hne
    rw [hcalls] at hmem
    exact List.mem_append_right new
      (List.mem_cons_of_mem _ ((List.mem_cons.mp hmem).resolve_left hne))
  refine h.recall (fun call hmem => ?_) (h.not_appears hcalls (by rintro _ _ ⟨⟩))
    (fun m' c good hlisted => ?_) fun c _ hgo =>
      hgo.imp (fun hmem => hkept _ hmem (by rintro ⟨⟩)) fun hmem => hkept _ hmem (by rintro ⟨⟩)
  · rcases List.mem_append.mp hmem with hmem | hmem
    · exact .inr (.inl (hnew call hmem))
    rcases List.mem_cons.mp hmem with rfl | hmem
    · exact .inr (.inr ⟨m, rfl, h.told _ (hcalls ▸ List.mem_cons_self) m rfl⟩)
    · exact .inl (hcalls ▸ List.mem_cons_of_mem _ hmem)
  · cases hlisted with
    | leaves hmem => exact .leaves (hkept _ hmem (by rintro ⟨⟩))
    | looks hmem hunseen =>
        refine .looks ?_ hunseen
        rcases hmem with ⟨p, q, hmem⟩ | hmem
        · rw [hcalls] at hmem
          rcases List.mem_cons.mp hmem with heq | hmem
          · obtain ⟨rfl, -⟩ := Call.onCreatureMove.inj heq
            exact .inr (List.mem_append_right new List.mem_cons_self)
          · exact .inl ⟨p, q, List.mem_append_right new (List.mem_cons_of_mem _ hmem)⟩
        · exact .inr (hkept _ hmem (by rintro ⟨⟩))
    | moved hmem hold hunseen =>
        refine .moved (hkept _ hmem ?_) hold hunseen
        rintro heq
        obtain ⟨rfl, rfl, -⟩ := Call.onCreatureMove.inj heq
        rw [World.canSee, World.canSeePosition_self] at hunseen
        cases hunseen
    | seen hmap hsees hgood => exact .seen hmap hsees hgood

theorem Inv.onCreatureMove {newPos oldPos : Position} (h : Inv s)
    (hcalls : s.calls = .onCreatureMove m c newPos oldPos :: calls)
    (hexpected : s.Expected (.onCreatureMove m c newPos oldPos)) :
    Inv (State.perform { s with calls := calls } ev order (.onCreatureMove m c newPos oldPos)) := by
  rw [perform]
  split
  · next heq =>
      subst heq
      refine h.selfMove hcalls fun call hmem => ?_
      obtain ⟨d, -, rfl⟩ := List.mem_map.mp hmem
      exact ⟨d, rfl⟩
  split
  · next hmonster => exact h.skip hcalls rfl (.inr (by simpa using hmonster))
  · next hne _ =>
      -- What is left of an old entry: all that the call did not make up for
      have hkept : ∀ d good, Listed s.toWorld s.calls m d good →
          ¬ (d = c ∧ Monster.goesOutOfSight s.toWorld m newPos oldPos = true) →
            Listed s.toWorld calls m d good := by
        intro d good hlisted hnot
        rw [hcalls] at hlisted
        have hrest : ∀ call', call' ∈ Call.onCreatureMove m c newPos oldPos :: calls →
            call' ≠ .onCreatureMove m c newPos oldPos → call' ∈ calls :=
          fun call' hmem hne => (List.mem_cons.mp hmem).resolve_left hne
        cases hlisted with
        | leaves hmem => exact .leaves (hrest _ hmem (by rintro ⟨⟩))
        | looks hmem hunseen =>
            refine .looks ?_ hunseen
            rcases hmem with ⟨p, q, hmem⟩ | hmem
            · exact .inl ⟨p, q, hrest _ hmem (by rintro ⟨⟩; exact hne rfl)⟩
            · exact .inr (hrest _ hmem (by rintro ⟨⟩))
        | moved hmem hold hunseen =>
            refine .moved (hrest _ hmem ?_) hold hunseen
            rintro heq
            obtain ⟨-, rfl, hnew, rfl⟩ := Call.onCreatureMove.inj heq
            refine hnot ⟨rfl, ?_⟩
            rw [Monster.goesOutOfSight, hold, ← hnew, show World.canSeePosition (s.position m) (s.position d) =
              false from hunseen]
            rfl
        | seen hmap hsees hgood => exact .seen hmap hsees hgood
      refine h.tell hcalls rfl ((h.held m).onOtherMove _ _ _ _ _) (fun hin hmonster d hd => ?_)
        (fun hin hmonster d hd => ?_) fun hin hmonster => .inr (Monster.rested_updateIdleStatus _ _ _)
      · obtain ⟨henter, hleave⟩ := hexpected hne hin hmonster
        rcases Monster.mem_targetList_otherMove (h.held m) (fun hgoes => (hleave hgoes).target) hd with
          ⟨hold, hnot⟩ | ⟨rfl, hcomes, hsees, hgood⟩
        · exact hkept d _ (h.targets m hin hmonster d hold) hnot
        · exact .seen (henter hcomes) hsees hgood
      · obtain ⟨henter, hleave⟩ := hexpected hne hin hmonster
        rcases Monster.mem_friendList_otherMove (h.held m) (fun hgoes => (hleave hgoes).friend) hd with
          ⟨hold, hnot⟩ | ⟨rfl, hcomes, hsees⟩
        · exact hkept d _ (h.friends m hin hmonster d hold) hnot
        · exact .seen (henter hcomes) hsees trivial

theorem Inv.onSelfMove (h : Inv s) (hcalls : s.calls = .onSelfMove m :: calls) :
    Inv (State.perform { s with calls := calls } ev order (.onSelfMove m)) := by
  rw [perform]
  split
  · next hmonster => exact h.skip hcalls rfl (.inr (by simpa using hmonster))
  · exact h.look hcalls rfl (by rintro _ ⟨⟩)

/-- A change of masters by which no target stops being an opponent -/
theorem Inv.putMasters {masters : Summons.State CreatureId} (h : Inv s) (hgood : masters.Good)
    (hlives : masters.destroyed = s.masters.destroyed)
    (hremoved : ∀ c ∈ s.onMap, masters.isRemoved c = s.masters.isRemoved c)
    (hgone : ∀ c, masters.isRemoved c = true → s.placed c = true)
    (hopponent : ∀ m ∈ s.onMap, s.isMonster m = true → ∀ c ∈ (s.monster m).targetList,
      c ∈ s.onMap → s.isOpponent m c = true →
        World.isOpponent { s.toWorld with masters := masters } m c = true)
    (hsummon : ∀ m ∈ s.onMap, s.isMonster m = true → s.isSummon m = true → masters.master m = none →
      Busy s.calls m ∨ (s.monster m).targetList ≠ [] ∨ s.isDead m = true ∨ s.aggressive m = true ∨
        (s.monster m).isIdle = true) :
    Inv { s with masters := masters } :=
  { h with
    unremoved := fun c hmap => (hremoved c hmap).trans (h.unremoved c hmap)
    gone := hgone
    targets := fun m hmap hmonster c hc =>
      (h.targets m hmap hmonster c hc).imp rfl (fun _ hmem _ => hmem) fun hm _ hg =>
        ⟨hm, hopponent m hmap hmonster c hc hm hg⟩
    friends := fun m hmap hmonster c hc =>
      (h.friends m hmap hmonster c hc).imp rfl (fun _ hmem _ => hmem) fun hm _ hg => ⟨hm, hg⟩
    rested := by
      intro m hmap hmonster
      rcases h.rested m hmap hmonster with hbusy | hrested
      · exact .inl hbusy
      cases hsum : s.isSummon m with
      | false => exact .inr fun _ hdead _ => hrested (h.unremoved m hmap) hdead hsum
      | true =>
          cases hmaster : masters.master m with
          | some p =>
              refine .inr fun _ _ hnone => ?_
              rw [World.isSummon, World.getMaster, hmaster] at hnone
              cases hnone
          | none =>
              rcases hsummon m hmap hmonster hsum hmaster with hbusy | hne | hdead' | hagg' | hidle'
              · exact .inl hbusy
              · exact .inr fun _ _ _ _ _ => hne
              · refine .inr fun _ hdead _ _ _ => ?_
                rw [show World.isDead { s.toWorld with masters := masters } m = true from hdead'] at hdead
                cases hdead
              · refine .inr fun _ _ _ haggressive _ => ?_
                rw [show s.aggressive m = true from hagg'] at haggressive
                cases haggressive
              · refine .inr fun _ _ _ _ hidle => ?_
                rw [hidle'] at hidle
                cases hidle
    masters := hgood
    lives := fun c => (congrFun hlives c).trans (h.lives c) }

/-- Nobody is an opponent for a party. -/
theorem Inv.putParties (h : Inv s) (parties : Parties.Game) : Inv { s with parties := parties } :=
  { h with
    targets := fun m hmap hmonster c hc =>
      (h.targets m hmap hmonster c hc).imp rfl (fun _ hmem _ => hmem) fun hm _ hg => ⟨hm, hg⟩
    friends := fun m hmap hmonster c hc =>
      (h.friends m hmap hmonster c hc).imp rfl (fun _ hmem _ => hmem) fun hm _ hg => ⟨hm, hg⟩ }

theorem Inv.setMaster (h : Inv s) {newMaster : Option CreatureId}
    (hkeeps : s.KeepsOpponents (s.setMaster c newMaster))
    (hidle : newMaster = none → s.Unoccupied c →
      Busy s.calls c ∨ s.isDead c = true ∨ (s.monster c).isIdle = true) :
    Inv (s.setMaster c newMaster) := by
  obtain ⟨hmaster, hremoved, hdestroyed⟩ := Masters.setMaster_frame s.masters c newMaster
  refine h.putMasters (h.masters.setMaster fun m _ => h.lives m) hdestroyed
    (fun d _ => congrFun hremoved d) (fun d hd => h.gone d ((congrFun hremoved d).symm.trans hd))
    (fun m hmap hmonster d hd _ hg => hkeeps m hmap hmonster d hd hg)
    fun m hmap hmonster hsummon hnone => ?_
  rw [hmaster, Function.update_apply] at hnone
  split at hnone
  · next heq =>
      subst heq
      by_cases hempty : (s.monster m).targetList = []
      · cases hagg : s.aggressive m with
        | true => exact .inr (.inr (.inr (.inl rfl)))
        | false =>
            rcases hidle hnone ⟨hmap, hmonster, hempty, hagg⟩ with hbusy | hdead | hidle
            · exact .inl hbusy
            · exact .inr (.inr (.inl hdead))
            · exact .inr (.inr (.inr (.inr hidle)))
      · exact .inr (.inl hempty)
  · rw [World.isSummon, World.getMaster, hnone] at hsummon
    cases hsummon

/-- What a handler of the removed creature itself does -/
theorem Inv.removesItself (h : Inv s) (hcalls : s.calls = .onRemoveCreature c c :: calls) :
    Inv (State.onRemoveCreature { s with calls := calls } ev c c) := by
  have hgone := h.leaving c c (hcalls ▸ List.mem_cons_self)
  have hplaced := h.told _ (hcalls ▸ List.mem_cons_self) c rfl
  have hskip : Inv { s with calls := calls } := h.skip hcalls rfl (.inl hgone)
  obtain ⟨hgood, hmaster, hremoved, hdestroyed⟩ := Masters.onRemoveCreature_frame h.masters c
  have hne : ∀ d ∈ s.onMap, d ≠ c := by
    rintro d hmap rfl
    exact hgone hmap
  have hmasters : Inv { s with calls := calls, masters := s.masters.onRemoveCreature c } := by
    refine hskip.putMasters hgood hdestroyed (fun d _ => congrFun hremoved d)
      (fun d hd => h.gone d ((congrFun hremoved d).symm.trans hd)) (fun m hmap _ d _ hin hg => ?_) fun m hmap _ hsummon hnone => ?_
    · have hsame : World.isOpponent { s.toWorld with masters := s.masters.onRemoveCreature c } m d =
          s.isOpponent m d :=
        World.isOpponent_congr rfl (World.masterPlayer_congr rfl (hmaster m (hne m hmap)))
          (World.masterPlayer_congr rfl (hmaster d (hne d hin)))
      exact hsame.trans hg
    · rw [hmaster m (hne m hmap)] at hnone
      rw [World.isSummon, World.getMaster, hnone] at hsummon
      cases hsummon
  rw [State.onRemoveCreature]
  simp only [if_true]
  split
  · exact hmasters.setMonster ((h.held c).setIdle _ _ _) (.inl hplaced)
      (fun hmap => absurd hmap hgone) (fun hmap => absurd hmap hgone) fun hmap => absurd hmap hgone
  · exact hmasters.putParties _
  · exact hmasters

theorem Inv.onRemoveCreature (h : Inv s) (hcalls : s.calls = .onRemoveCreature m c :: calls)
    (hexpected : s.Expected (.onRemoveCreature m c)) :
    Inv (State.perform { s with calls := calls } ev order (.onRemoveCreature m c)) := by
  rw [perform]
  rcases eq_or_ne m c with rfl | hne
  · exact h.removesItself hcalls
  have hskip : s.isMonster m = false → Inv { s with calls := calls } := fun hmonster =>
    h.skip hcalls rfl (.inr hmonster)
  rw [State.onRemoveCreature]
  simp only [if_neg hne]
  split
  · next hkind =>
      have hkept : ∀ d, d ≠ c → ∀ call ∈ s.calls, call.excuses m d → call ∈ calls := by
        intro d hd call hmem hex
        rw [hcalls] at hmem
        rcases List.mem_cons.mp hmem with rfl | hmem
        · exact absurd hex.2.symm hd
        · exact hmem
      refine h.tell hcalls rfl ((h.held m).onCreatureLeave _ _ _) (fun hmap hmonster d hd => ?_)
        (fun hmap hmonster d hd => ?_) fun hmap hmonster => ?_
      · have hcounts := hexpected hne.symm hmap hmonster
        have hd' : d ≠ c := by
          rintro rfl
          exact Monster.not_mem_targetList_leave (h.held m) hcounts.target hd
        exact (h.targets m hmap hmonster d
          ((Monster.onCreatureLeave_fewer _ _ _ _).targets hd)).imp rfl (hkept d hd') fun hm _ hg =>
            ⟨hm, hg⟩
      · have hcounts := hexpected hne.symm hmap hmonster
        have hd' : d ≠ c := by
          rintro rfl
          exact Monster.not_mem_friendList_leave (h.held m) hcounts.friend hd
        exact (h.friends m hmap hmonster d
          ((Monster.onCreatureLeave_fewer _ _ _ _).friends hd)).imp rfl (hkept d hd') fun hm _ hg =>
            ⟨hm, hg⟩
      · rcases h.rested m hmap hmonster with hbusy | hrested
        · rw [hcalls] at hbusy
          exact .inl (Busy.pop hbusy rfl (by rintro ⟨⟩))
        · exact .inr (hrested.onCreatureLeave c)
  · next hkind => exact hskip (by rw [World.isMonster, hkind]; rfl)
  · next hkind => exact hskip (by rw [World.isMonster, hkind]; rfl)

theorem Inv.setRemoved (h : Inv s) (hcalls : s.calls = .setRemoved c :: calls) :
    Inv (State.perform { s with calls := calls } ev order (.setRemoved c)) := by
  obtain ⟨hgone, hplaced⟩ := h.removed c (hcalls ▸ List.mem_cons_self)
  have hcalled : Inv { s with calls := (s.masters.summons c).map .removeCreature ++ calls } := by
    refine h.replace hcalls rfl (fun call hmem => ?_) (by rintro _ (⟨⟨⟩⟩ | ⟨⟨⟩⟩))
    obtain ⟨d, -, rfl⟩ := List.mem_map.mp hmem
    exact ⟨d, rfl⟩
  refine hcalled.putMasters ⟨h.masters.linked, h.masters.counted, h.masters.lives⟩ rfl
    (fun d hmap => Function.update_of_ne ?_ _ _) (fun d hd => ?_) (fun _ _ _ _ _ _ hg => hg)
    fun m _ _ hsummon hnone => ?_
  · rintro rfl
    exact hgone hmap
  · rcases eq_or_ne d c with rfl | hne
    · exact hplaced
    · exact h.gone d ((Function.update_of_ne hne _ _).symm.trans hd)
  · rw [World.isSummon, World.getMaster, show s.masters.master m = none from hnone] at hsummon
    cases hsummon

theorem Inv.finishDeath {droppedCorpse : Bool} (h : Inv s)
    (hcalls : s.calls = .finishDeath c droppedCorpse :: calls)
    (hexpected : s.Expected (.finishDeath c droppedCorpse)) :
    Inv (State.perform { s with calls := calls } ev order (.finishDeath c droppedCorpse)) := by
  have hcalled : Inv { s with
      calls := (if droppedCorpse then [.removeCreature c] else []) ++ calls } := by
    refine h.replace hcalls rfl (fun call hmem => ?_) fun d hd _ => ?_
    · split at hmem
      · exact ⟨c, List.mem_singleton.mp hmem⟩
      · cases hmem
    · rcases hd with hd | hd
      · obtain ⟨rfl, rfl⟩ := Call.finishDeath.inj hd
        exact List.mem_cons_self
      · cases hd
  have hfree : Inv (State.setMaster { s with
      calls := (if droppedCorpse then [.removeCreature c] else []) ++ calls } c none) := by
    refine hcalled.setMaster hexpected fun _ hunoccupied => ?_
    cases droppedCorpse with
    | true => exact .inl (.inr (.inr List.mem_cons_self))
    | false =>
        have hnot := h.corpse c (hcalls ▸ List.mem_cons_self)
        rw [show s.isMonster c = true from hunoccupied.monster] at hnot
        cases hnot
  rw [perform]
  cases droppedCorpse with
  | true =>
      simp only [if_true]
      split
      · exact hfree
      · exact hcalled
  | false =>
      simp only [Bool.false_eq_true, if_false]
      split
      · exact hfree
      · exact hcalled

theorem Inv.removeCreature (h : Inv s) (hcalls : s.calls = .removeCreature c :: calls) :
    Inv (State.perform { s with calls := calls } ev order (.removeCreature c)) := by
  rw [perform]
  split
  · next hnot =>
      suffices hrest : Inv { s with calls := [] ++ calls } from hrest
      refine h.replace hcalls rfl (fun _ hmem => by cases hmem) fun d hd hmap => ?_
      rcases hd with hd | hd
      · cases hd
      obtain rfl := Call.removeCreature.inj hd
      rcases hnot with hremoved | hgone
      · have hnot := h.unremoved c hmap
        rw [show s.isRemoved c = true from hremoved] at hnot
        cases hnot
      · exact absurd hmap hgone
  next hnot =>
    have hin : c ∈ s.onMap := by
      by_contra hgone
      exact hnot (.inr hgone)
    have hnever := h.not_appears hcalls (by rintro _ _ ⟨⟩)
    have hrest : ∀ call ∈ calls, call ∈ s.calls := by
      intro call hmem
      rw [hcalls]
      exact List.mem_cons_of_mem _ hmem
    -- The calls that the removal adds
    have hcall : ∀ call ∈ (s.spectators order (s.position c)).map (Call.onRemoveCreature · c) ++
        .setRemoved c :: calls, (∃ m ∈ s.onMap, call = .onRemoveCreature m c) ∨
          call = .setRemoved c ∨ call ∈ s.calls := by
      intro call hmem
      rcases List.mem_append.mp hmem with hmem | hmem
      · obtain ⟨m, hm, rfl⟩ := List.mem_map.mp hmem
        exact .inl ⟨m, (World.mem_spectators.mp hm).1, rfl⟩
      · exact .inr ((List.mem_cons.mp hmem).imp_right (hrest call))
    have hkept : ∀ call ∈ s.calls, call ≠ .removeCreature c →
        call ∈ (s.spectators order (s.position c)).map (Call.onRemoveCreature · c) ++
          .setRemoved c :: calls := by
      intro call hmem hne
      rw [hcalls] at hmem
      exact List.mem_append_right _
        (List.mem_cons_of_mem _ ((List.mem_cons.mp hmem).resolve_left hne))
    have hexcuse : ∀ m d, ∀ call ∈ s.calls, call.excuses m d →
        call ∈ (s.spectators order (s.position c)).map (Call.onRemoveCreature · c) ++
          .setRemoved c :: calls := by
      intro m d call hmem hex
      refine hkept call hmem ?_
      rintro rfl
      cases hex
    have hin' : ∀ {d}, d ∈ s.onMap.filter (· ≠ c) → d ∈ s.onMap ∧ d ≠ c := by
      intro d hmem
      obtain ⟨hmem, hne⟩ := List.mem_filter.mp hmem
      exact ⟨hmem, of_decide_eq_true hne⟩
    -- Whoever has the removed creature in sight is told; for the others nothing changes.
    have hlisted : ∀ m d good, m ∈ s.onMap → Listed s.toWorld s.calls m d good →
        Listed { s.toWorld with onMap := s.onMap.filter (· ≠ c) }
          ((s.spectators order (s.position c)).map (Call.onRemoveCreature · c) ++
            .setRemoved c :: calls) m d good := by
      intro m d good hmap hlisted
      by_cases hsees : d = c ∧ s.canSee m d = true
      · obtain ⟨rfl, hsees⟩ := hsees
        refine .leaves (List.mem_append_left _ (List.mem_map.mpr ⟨m, ?_, rfl⟩))
        exact World.mem_spectators_of_canSee hmap hsees (h.floor d hin) (h.floor m hmap)
      · refine hlisted.imp rfl (hexcuse m d) fun hd hsee hg => ⟨List.mem_filter.mpr ⟨hd, ?_⟩, hg⟩
        exact decide_eq_true fun heq => hsees ⟨heq, hsee⟩
    have hgoing : ∀ d, d ≠ c → Going s.calls d →
        Going ((s.spectators order (s.position c)).map (Call.onRemoveCreature · c) ++
          .setRemoved c :: calls) d := fun d hne hgo =>
      hgo.imp (fun hmem => hkept _ hmem (by rintro ⟨⟩)) fun hmem =>
        hkept _ hmem fun heq => hne (Call.removeCreature.inj heq)
    exact
      { h with
        placed := fun d hmem => h.placed d (hin' hmem).1
        unremoved := fun d hmem => h.unremoved d (hin' hmem).1
        floor := fun d hmem => h.floor d (hin' hmem).1
        told := by
          intro call hmem m hm
          rcases hcall call hmem with ⟨m', hmap, rfl⟩ | rfl | hmem
          · exact Option.some.inj hm ▸ h.placed m' hmap
          · cases hm
          · exact h.told call hmem m hm
        appears := by
          intro m d hmem
          rcases hcall _ hmem with ⟨_, _, heq⟩ | heq | hmem
          · cases heq
          · cases heq
          · exact absurd hmem (hnever m d)
        leaving := by
          intro m d hmem hmap
          obtain ⟨hmap, hne⟩ := hin' hmap
          rcases hcall _ hmem with ⟨_, _, heq⟩ | heq | hmem
          · exact hne (Call.onRemoveCreature.inj heq).2
          · cases heq
          · exact h.leaving m d hmem hmap
        removed := by
          intro d hmem
          rcases hcall _ hmem with ⟨_, _, heq⟩ | heq | hmem
          · cases heq
          · obtain rfl := Call.setRemoved.inj heq
            exact ⟨fun hmap => (hin' hmap).2 rfl, h.placed d hin⟩
          · obtain ⟨hnot, hplaced⟩ := h.removed d hmem
            exact ⟨fun hmap => hnot (hin' hmap).1, hplaced⟩
        corpse := by
          intro d hmem
          rcases hcall _ hmem with ⟨_, _, heq⟩ | heq | hmem
          · cases heq
          · cases heq
          · exact h.corpse d hmem
        targets := fun m hmap hmonster d hd =>
          hlisted m d _ (hin' hmap).1 (h.targets m (hin' hmap).1 hmonster d hd)
        friends := fun m hmap hmonster d hd =>
          hlisted m d _ (hin' hmap).1 (h.friends m (hin' hmap).1 hmonster d hd)
        rested := by
          intro m hmap hmonster
          obtain ⟨hmap, hne⟩ := hin' hmap
          rcases h.rested m hmap hmonster with (happear | hgo) | hrested
          · exact absurd happear (hnever m m)
          · exact .inl (.inr (hgoing m hne hgo))
          · exact .inr hrested
        dead := by
          intro d hmap hdead
          obtain ⟨hmap, hne⟩ := hin' hmap
          exact (h.dead d hmap hdead).imp_right (hgoing d hne) }

/-- What a call finds keeps the invariant. -/
theorem Inv.perform (h : Inv s) (hcalls : s.calls = call :: calls) (hexpected : s.Expected call) :
    Inv (State.perform { s with calls := calls } ev order call) := by
  cases call with
  | onCreatureAppear m c => exact h.onCreatureAppear hcalls
  | onCreatureMove m c newPos oldPos => exact h.onCreatureMove hcalls hexpected
  | onSelfMove m => exact h.onSelfMove hcalls
  | onRemoveCreature m c => exact h.onRemoveCreature hcalls hexpected
  | setRemoved c => exact h.setRemoved hcalls
  | removeCreature c => exact h.removeCreature hcalls
  | finishDeath c droppedCorpse => exact h.finishDeath hcalls hexpected

end State

end Bruxo.Targets
