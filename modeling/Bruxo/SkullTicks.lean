import Bruxo.Skulls
import Mathlib.Algebra.Order.Group.Int

/-!
# The ticks of a skull

Over a run the ticks are what the murders and the times away of a player leave of them, and his
skull is red or black while they last, once a murder has raised them enough.
-/

namespace Bruxo.Skulls

open Relation Runs

/-! ## The ticks -/

section Ticks

variable (cfg : Config)

/-- What is held for the deeds. Two seconds are added at a login, for rounding. -/
def held : List Deed → Int
  | [] => 0
  | .murder _ :: past => held past + cfg.fragTime
  | .away seconds :: past =>
      if 0 < held past - seconds then held past - seconds + 2 else 0

/-- The ticks of this many kills were exceeded at a murder, and have not run out since. -/
def Charged (kills : Int) (past : List Deed) : Prop :=
  kills ≠ 0 ∧ Since (fun past => (∃ victim rest, past = .murder victim :: rest) ∧
    (kills - 1) * cfg.fragTime < held cfg past) (fun past => 0 < held cfg past) past

variable {cfg} {kills : Int} {past : List Deed}

theorem held_nonneg (hfrag : 0 < cfg.fragTime) (past : List Deed) : 0 ≤ held cfg past := by
  induction past with
  | nil => exact le_rfl
  | cons d past ih =>
      cases d with
      | murder victim =>
          rw [held]
          omega
      | away seconds =>
          rw [held]
          split <;> omega

theorem held_away_pos {seconds : Int} :
    0 < held cfg (.away seconds :: past) ↔ 0 < held cfg past - seconds := by
  rw [held]
  split <;> omega

theorem Charged.held_pos (hfrag : 0 < cfg.fragTime) (h : Charged cfg kills past) :
    0 < held cfg past := by
  obtain ⟨-, h⟩ := h
  cases h with
  | now h =>
      obtain ⟨⟨victim, rest, rfl⟩, -⟩ := h
      have hrest := held_nonneg hfrag rest
      rw [held]
      omega
  | later h _ => exact h

theorem charged_nil : ¬ Charged cfg kills [] := by
  rintro ⟨-, h⟩
  obtain ⟨⟨victim, rest, heq⟩, -⟩ := since_nil.mp h
  cases heq

theorem charged_murder (hfrag : 0 < cfg.fragTime) {victim : Nat} :
    Charged cfg kills (.murder victim :: past) ↔
      kills ≠ 0 ∧ (kills - 1) * cfg.fragTime < held cfg (.murder victim :: past) ∨
        Charged cfg kills past := by
  have hpos : 0 < held cfg (.murder victim :: past) := by
    have hpast := held_nonneg hfrag past
    rw [held]
    omega
  rw [Charged, since_cons, Charged]
  constructor
  · rintro ⟨hkills, ⟨-, hlt⟩ | ⟨-, h⟩⟩
    · exact .inl ⟨hkills, hlt⟩
    · exact .inr ⟨hkills, h⟩
  · rintro (⟨hkills, hlt⟩ | ⟨hkills, h⟩)
    · exact ⟨hkills, .inl ⟨⟨victim, past, rfl⟩, hlt⟩⟩
    · exact ⟨hkills, .inr ⟨hpos, h⟩⟩

theorem charged_away {seconds : Int} : Charged cfg kills (.away seconds :: past) ↔
    Charged cfg kills past ∧ 0 < held cfg past - seconds := by
  rw [Charged, since_cons, held_away_pos, Charged]
  constructor
  · rintro ⟨hkills, ⟨⟨victim, rest, heq⟩, -⟩ | ⟨hpos, h⟩⟩
    · cases heq
    · exact ⟨⟨hkills, h⟩, hpos⟩
  · rintro ⟨⟨hkills, h⟩, hpos⟩
    exact ⟨hkills, .inr ⟨hpos, h⟩⟩

end Ticks

/-! ## What a player keeps -/

/-- The row tells the ticks and the skull of a player that is offline. -/
structure Saved (p : Player) : Prop where
  skulltime : p.row.skulltime = if 0 < p.skullTicks then p.row.savedAt + p.skullTicks else 0
  skull : p.row.skull = if p.skull = .red ∨ p.skull = .black then p.skull else .none

structure Good (cfg : Config) (guid : Nat) (now : Int) (p : Player) : Prop where
  ticks : p.skullTicks = held cfg p.past
  black : p.skull = .black ↔ Charged cfg cfg.killsToBlack p.past
  branded : p.skull = .red ∨ p.skull = .black ↔
    Charged cfg cfg.killsToBlack p.past ∨ Charged cfg cfg.killsToRed p.past
  away : ∀ seconds, .away seconds ∈ p.past → 0 ≤ seconds
  savedAt : p.row.savedAt ≤ now / 1000
  saved : p.online = false → Saved p
  notGainInFight : cfg.notGainInFight guid = true → ¬ (p.skull = .red ∨ p.skull = .black)

section Good

variable {cfg : Config} {guid : Nat} {now : Int} {p p' : Player}

theorem Good.pos (h : Good cfg guid now p) (hfrag : 0 < cfg.fragTime)
    (hskull : p.skull = .red ∨ p.skull = .black) : 0 < p.skullTicks := by
  rw [h.ticks]
  rcases h.branded.mp hskull with hcharged | hcharged
  · exact hcharged.held_pos hfrag
  · exact hcharged.held_pos hfrag

/-- A skull that is neither red nor black may be any other. -/
theorem Good.congr (h : Good cfg guid now p)
    (hskull : p'.skull = p.skull ∨
      ¬ (p.skull = .red ∨ p.skull = .black) ∧ ¬ (p'.skull = .red ∨ p'.skull = .black))
    (hticks : p'.skullTicks = p.skullTicks) (hpast : p'.past = p.past) (hrow : p'.row = p.row)
    (honline : p'.online = p.online) : Good cfg guid now p' := by
  have hbranded : p'.skull = .red ∨ p'.skull = .black ↔ p.skull = .red ∨ p.skull = .black := by
    rcases hskull with hskull | ⟨hp, hp'⟩
    · rw [hskull]
    · exact iff_of_false hp' hp
  have hblack : p'.skull = .black ↔ p.skull = .black := by
    rcases hskull with hskull | ⟨hp, hp'⟩
    · rw [hskull]
    · exact iff_of_false (fun h => hp' (.inr h)) fun h => hp (.inr h)
  refine ⟨?_, ?_, ?_, ?_, ?_, ?_, ?_⟩
  · rw [hticks, hpast, h.ticks]
  · rw [hblack, hpast, h.black]
  · rw [hbranded, hpast, h.branded]
  · rw [hpast]
    exact h.away
  · rw [hrow]
    exact h.savedAt
  · intro hoffline
    obtain ⟨hskulltime, hsaved⟩ := h.saved (honline ▸ hoffline)
    refine ⟨by rw [hrow, hticks, hskulltime], ?_⟩
    rw [hrow, hsaved]
    rcases hskull with hskull | ⟨hp, hp'⟩
    · rw [hskull]
    · rw [if_neg hp, if_neg hp']
  · intro hflag
    rw [hbranded]
    exact h.notGainInFight hflag

theorem Good.wait (h : Good cfg guid now p) (milliseconds : Nat) :
    Good cfg guid (now + milliseconds) p :=
  { h with savedAt := h.savedAt.trans (Int.ediv_le_ediv (by decide) (by omega)) }

theorem Good.onEndCondition (h : Good cfg guid now p) :
    Good cfg guid now (p.onEndCondition (cfg.notGainInFight guid)) := by
  rw [Player.onEndCondition]
  dsimp only
  split
  · rename_i hcond
    refine h.congr (.inr ⟨?_, ?_⟩) rfl rfl rfl rfl
    · rcases hcond with hflag | hskull
      · exact h.notGainInFight hflag
      · exact not_or.mpr hskull
    · simp
  · exact h.congr (.inl rfl) rfl rfl rfl rfl

/-- The interval is no second, and a skull has ticks. -/
theorem Good.onThink (h : Good cfg guid now p) (hfrag : 0 < cfg.fragTime) (now' : Int)
    (isSuppress : Bool) : p.onThink cfg now' isSuppress EVENT_CREATURE_THINK_INTERVAL = p := by
  have hticks : 0 ≤ p.skullTicks := h.ticks ▸ held_nonneg hfrag p.past
  have hnew : (if p.skullTicks - 0 < 0 then 0 else p.skullTicks - 0) = p.skullTicks := by
    rw [sub_zero, if_neg (not_lt.mpr hticks)]
  rw [Player.onThink]
  split
  · rw [show EVENT_CREATURE_THINK_INTERVAL / 1000 = 0 from rfl, Player.checkSkullTicks]
    dsimp only
    rw [hnew, if_neg]
    rintro ⟨hskull, hlt, -⟩
    have hpos := h.pos hfrag hskull
    omega
  · rfl

theorem addFrag_black (attacked : Nat) : (p.addFrag cfg attacked).skull = .black ↔
    cfg.killsToBlack ≠ 0 ∧ (cfg.killsToBlack - 1) * cfg.fragTime < p.skullTicks + cfg.fragTime ∨
      p.skull = .black := by
  rw [Player.addFrag]
  dsimp only
  split
  · rename_i hnot
    split
    · rename_i hover
      exact iff_of_true rfl (.inl hover)
    · rename_i hover
      split
      · simp only [reduceCtorEq, false_iff, not_or]
        exact ⟨hover, hnot⟩
      · exact (or_iff_right hover).symm
  · rename_i hblack
    exact iff_of_true (not_not.mp hblack) (.inr (not_not.mp hblack))

theorem addFrag_branded (attacked : Nat) :
    (p.addFrag cfg attacked).skull = .red ∨ (p.addFrag cfg attacked).skull = .black ↔
      (cfg.killsToBlack ≠ 0 ∧
          (cfg.killsToBlack - 1) * cfg.fragTime < p.skullTicks + cfg.fragTime) ∨
        (cfg.killsToRed ≠ 0 ∧
          (cfg.killsToRed - 1) * cfg.fragTime < p.skullTicks + cfg.fragTime) ∨
        p.skull = .red ∨ p.skull = .black := by
  rw [Player.addFrag]
  dsimp only
  split
  · rename_i hnot
    split
    · rename_i hover
      exact iff_of_true (.inr rfl) (.inl hover)
    · rename_i hover
      split
      · rename_i hred
        exact iff_of_true (.inl rfl) (.inr (.inl hred.2))
      · rename_i hred
        rw [or_iff_right hover]
        constructor
        · exact .inr
        · rintro (hover' | hskull)
          · exact .inl (by_contra fun hne => hred ⟨hne, hover'⟩)
          · exact hskull
  · rename_i hblack
    have hblack := not_not.mp hblack
    exact iff_of_true (.inr hblack) (.inr (.inr (.inr hblack)))

theorem Good.addFrag (h : Good cfg guid now p) (hfrag : 0 < cfg.fragTime)
    (hflag : cfg.notGainInFight guid = false) (honline : p.online = true) (attacked : Nat) :
    Good cfg guid now (p.addFrag cfg attacked) := by
  obtain ⟨hframe, -⟩ := @addFrag_frame cfg attacked p
  have hpast : (p.addFrag cfg attacked).past = .murder attacked :: p.past := by rw [hframe]
  have hheld : p.skullTicks + cfg.fragTime = held cfg (.murder attacked :: p.past) := by
    rw [held, h.ticks]
  refine ⟨?_, ?_, ?_, ?_, ?_, fun hoffline => ?_, fun h => ?_⟩
  · rw [hpast, ← hheld, hframe]
  · rw [addFrag_black, hpast, charged_murder hfrag, ← hheld, h.black]
  · rw [addFrag_branded, hpast, charged_murder hfrag, charged_murder hfrag, ← hheld, h.branded]
    exact ⟨by rintro (h | h | h | h) <;> simp [h], by rintro ((h | h) | (h | h)) <;> simp [h]⟩
  · rw [hpast]
    exact fun seconds hmem => h.away seconds ((List.mem_cons.mp hmem).resolve_left (by simp))
  · rw [hframe]
    exact h.savedAt
  · rw [hframe, honline] at hoffline
    cases hoffline
  · rw [hflag] at h
    cases h

theorem Good.savePlayer (h : Good cfg guid now p) (hworld : cfg.worldType ≠ .pvpEnforced) :
    Good cfg guid now (p.savePlayer cfg (now / 1000)) := by
  refine ⟨h.ticks, h.black, h.branded, h.away, le_rfl, fun _ => ?_, h.notGainInFight⟩
  rw [Player.savePlayer]
  exact ⟨if_pos hworld, if_pos hworld⟩

/-- The ticks that are loaded, and whether the skull is. -/
theorem Good.loaded (h : Good cfg guid now p) (hoffline : p.online = false) (hnow : 0 ≤ now) :
    0 < p.row.skulltime - now / 1000 ↔ 0 < p.skullTicks - (now / 1000 - p.row.savedAt) := by
  have hle := h.savedAt
  have htime : 0 ≤ now / 1000 := Int.ediv_nonneg hnow (by decide)
  rw [(h.saved hoffline).skulltime]
  split <;> omega

theorem Good.loaded_skull (h : Good cfg guid now p) (skull : Skull)
    (hworld : cfg.worldType ≠ .pvpEnforced) (hoffline : p.online = false) (hnow : 0 ≤ now)
    (hbranded : skull = .red ∨ skull = .black) :
    (p.loadPlayer cfg now (now / 1000)).skull = skull ↔
      p.skull = skull ∧ 0 < p.skullTicks - (now / 1000 - p.row.savedAt) := by
  have hne : Skull.none ≠ skull := by rcases hbranded with rfl | rfl <;> simp
  have hsaved := (h.saved hoffline).skull
  rw [← h.loaded hoffline hnow]
  simp only [Player.loadPlayer]
  split
  · rename_i hcond
    obtain ⟨⟨-, hpos⟩, hrow⟩ := hcond
    rw [and_iff_left hpos, hsaved]
    split
    · exact Iff.rfl
    · rename_i hp
      rw [hsaved, if_neg hp] at hrow
      simp at hrow
  · rename_i hcond
    refine iff_of_false hne fun hskull => hcond ⟨⟨hworld, hskull.2⟩, ?_⟩
    rw [hsaved, hskull.1, if_pos hbranded]
    exact hbranded

theorem Good.loadPlayer (h : Good cfg guid now p) (hworld : cfg.worldType ≠ .pvpEnforced)
    (hoffline : p.online = false) (hnow : 0 ≤ now) :
    Good cfg guid now (p.loadPlayer cfg now (now / 1000)) := by
  have hloaded := h.loaded hoffline hnow
  have hle := h.savedAt
  have hred := h.loaded_skull .red hworld hoffline hnow (.inl rfl)
  have hblack := h.loaded_skull .black hworld hoffline hnow (.inr rfl)
  have hpast : (p.loadPlayer cfg now (now / 1000)).past =
    .away (now / 1000 - p.row.savedAt) :: p.past := rfl
  refine ⟨?_, ?_, ?_, ?_, hle, fun honline => ?_, fun hflag hbranded => ?_⟩
  · rw [hpast, held, ← h.ticks]
    simp only [Player.loadPlayer]
    by_cases hpos : 0 < p.skullTicks - (now / 1000 - p.row.savedAt)
    · rw [if_pos hpos, if_pos ⟨hworld, hloaded.mpr hpos⟩, (h.saved hoffline).skulltime]
      split <;> omega
    · rw [if_neg hpos, if_neg fun hcond => hpos (hloaded.mp hcond.2)]
  · rw [hblack, hpast, charged_away, h.black, h.ticks]
  · rw [hred, hblack, hpast, charged_away, charged_away, ← or_and_right, ← or_and_right, h.branded,
      h.ticks]
  · rw [hpast]
    intro seconds hmem
    rcases List.mem_cons.mp hmem with heq | hmem
    · obtain rfl := Deed.away.inj heq
      omega
    · exact h.away seconds hmem
  · cases honline
  · rcases hbranded with hskull | hskull
    · exact h.notGainInFight hflag (.inl (hred.mp hskull).1)
    · exact h.notGainInFight hflag (.inr (hblack.mp hskull).1)

theorem onEndCondition_frame (notGainInFight : Bool) (p : Player) :
    (p.onEndCondition notGainInFight).online = p.online ∧
      (p.onEndCondition notGainInFight).past = p.past := by
  rw [Player.onEndCondition]
  dsimp only
  split <;> exact ⟨rfl, rfl⟩

theorem Change.good {charged : Nat → Nat → Prop} {calm online : Bool} (hfrag : 0 < cfg.fragTime)
    (hcharged : ∀ victim, charged guid victim → cfg.notGainInFight guid = false ∧ online = true)
    (h : Change cfg charged calm guid p p') (hgood : Good cfg guid now p ∧ p.online = online) :
    Good cfg guid now p' ∧ p'.online = online := by
  obtain ⟨hgood, rfl⟩ := hgood
  cases h with
  | fight pzLocked c => exact ⟨hgood.congr (.inl rfl) rfl rfl rfl rfl, rfl⟩
  | apart pzLocked skillLoss => exact ⟨hgood.congr (.inl rfl) rfl rfl rfl rfl, rfl⟩
  | white hflag hskull =>
      exact ⟨hgood.congr (.inr ⟨by simp [hskull], by simp⟩) rfl rfl rfl rfl, rfl⟩
  | frag h =>
      obtain ⟨hflag, honline⟩ := hcharged _ h
      refine ⟨hgood.addFrag hfrag hflag honline _, ?_⟩
      rw [(addFrag_frame _ p).1]
  | attacked _ attackedSet => exact ⟨hgood.congr (.inl rfl) rfl rfl rfl rfl, rfl⟩
  | think _ now' isSuppress =>
      rw [hgood.onThink hfrag]
      exact ⟨hgood, rfl⟩
  | ended _ => exact ⟨hgood.onEndCondition, (onEndCondition_frame _ p).1⟩

end Good

theorem mem_of_mostDamageCreature {pzLocked now : Int} {damageMap : List Damage} {c : Creature}
    (h : mostDamageCreature pzLocked now damageMap = some c) :
    c ∈ damageMap.map Damage.attacker := by
  rw [mostDamageCreature] at h
  induction damageMap using List.reverseRecOn with
  | nil => cases h
  | append_singleton damageMap d ih =>
      rw [List.foldl_append, List.foldl_cons, List.foldl_nil] at h
      rw [List.map_append, List.mem_append]
      split at h
      · obtain rfl := Option.some.inj h
        exact .inr (List.mem_singleton.mpr rfl)
      · exact .inl (ih h)

structure Inv (cfg : Config) (w : World) : Prop where
  now : 0 ≤ w.now
  good : ∀ guid, Good cfg guid w.now (w.players guid)

section Inv

variable {cfg : Config} {w w' : World}

theorem Inv.init {now : Int} (hnow : 0 ≤ now) : Inv cfg (World.init now) where
  now := hnow
  good guid :=
    { ticks := rfl
      black := iff_of_false (by simp [World.init]) charged_nil
      branded := iff_of_false (by simp [World.init]) (not_or.mpr ⟨charged_nil, charged_nil⟩)
      away := fun seconds hmem => absurd hmem List.not_mem_nil
      savedAt := le_rfl
      saved := fun _ => ⟨rfl, rfl⟩
      notGainInFight := fun _ => by simp [World.init] }

theorem Inv.update (h : Inv cfg w) {guid : Nat} {f : Player → Player}
    (hgood : Good cfg guid w.now (f (w.players guid))) : Inv cfg (w.update guid f) where
  now := h.now
  good other := by
    rcases eq_or_ne other guid with rfl | hne
    · rw [update_self]
      exact hgood
    · rw [update_of_ne w f hne]
      exact h.good other

theorem Murders.player {a : Action} {this victim : Nat} (h : Murders cfg w a this victim) :
    cfg.notGainInFight this = false ∧ (w.players this).online = true := by
  obtain ⟨sc, lastHit, damageMap, rfl, hable, hunjust, hkiller⟩ := h
  have hattacked := hunjust.2.2.2.2.2.2.1
  rw [World.hasAttacked, Bool.and_eq_true, Bool.not_eq_true'] at hattacked
  refine ⟨hattacked.1, hable this (List.mem_cons_of_mem victim (List.mem_filterMap.mpr ?_))⟩
  rcases hkiller with hguid | ⟨hguid, -⟩
  · obtain ⟨c, hc, hguid⟩ := Option.bind_eq_some_iff.mp hguid
    exact ⟨c, List.mem_append_left _ (Option.mem_toList.mpr hc), hguid⟩
  · obtain ⟨c, hc, hguid⟩ := Option.bind_eq_some_iff.mp hguid
    exact ⟨c, List.mem_append_right _ (mem_of_mostDamageCreature hc), hguid⟩

theorem Inv.changes (hfrag : 0 < cfg.fragTime) (h : Inv cfg w) {a : Action}
    (hchanges : Changes cfg (Murders cfg w a) false w w') : Inv cfg w' := by
  refine ⟨hchanges.now ▸ h.now, fun guid => ?_⟩
  have hchain := hchanges.players guid
  rw [hchanges.now]
  generalize w'.players guid = p' at hchain
  have hgood : Good cfg guid w.now p' ∧ p'.online = (w.players guid).online := by
    induction hchain with
    | refl => exact ⟨h.good guid, rfl⟩
    | tail _ hlast ih => exact hlast.good hfrag (fun victim => Murders.player) ih
  exact hgood.1

theorem Inv.step (hfrag : 0 < cfg.fragTime) (hworld : cfg.worldType ≠ .pvpEnforced)
    (h : Inv cfg w) (a : Action) : Inv cfg (w.step cfg a) := by
  rw [World.step]
  split
  · rename_i hable
    have hother := @changes_act cfg w a hable
    cases a with
    | wait milliseconds =>
        refine ⟨Int.add_nonneg h.now (Int.natCast_nonneg _), fun guid => ?_⟩
        exact (h.good guid).wait milliseconds
    | logout this => exact h.update ((h.good this).savePlayer hworld)
    | login this =>
        rw [World.act]
        split
        · exact h
        · rename_i hoffline
          exact h.update ((h.good this).loadPlayer hworld (by simpa using hoffline) h.now)
    | onAttackedCreature => exact h.changes hfrag (hother (by simp) (by simp) (by simp))
    | addInFightTicks => exact h.changes hfrag (hother (by simp) (by simp) (by simp))
    | onDeath => exact h.changes hfrag (hother (by simp) (by simp) (by simp))
    | checkCreature => exact h.changes hfrag (hother (by simp) (by simp) (by simp))
  · exact h

theorem Inv.run (hfrag : 0 < cfg.fragTime) (hworld : cfg.worldType ≠ .pvpEnforced)
    (h : Inv cfg w) (as : List Action) : Inv cfg (run (World.step cfg) w as) := by
  induction as generalizing w with
  | nil => exact h
  | cons a as ih => exact ih (h.step hfrag hworld a)

end Inv

/-! ## Red and black skulls -/

section Runs

variable {cfg : Config} {now : Int}

/-- A player has a red or a black skull if and only if the ticks of his kills exceeded, at one of
them, what the kills before that many come to, and have not run out since. -/
theorem skull_of_run (hfrag : 0 < cfg.fragTime) (hworld : cfg.worldType ≠ .pvpEnforced)
    (hnow : 0 ≤ now) (as : List Action) (guid : Nat) :
    let p := (run (World.step cfg) (World.init now) as).players guid
    p.skullTicks = held cfg p.past ∧
      (p.skull = .black ↔ Charged cfg cfg.killsToBlack p.past) ∧
      (p.skull = .red ∨ p.skull = .black ↔
        Charged cfg cfg.killsToBlack p.past ∨ Charged cfg cfg.killsToRed p.past) := by
  have hgood := ((Inv.init hnow).run hfrag hworld as).good guid
  exact ⟨hgood.ticks, hgood.black, hgood.branded⟩

end Runs

/-! ### One kill -/

def openWorld : Scene where
  zonePvp := fun _ => false
  party := fun _ => none
  guild := fun _ => none
  guildWarVector := fun _ => []
  isSuppress := fun _ => false

def oneKill : Config where
  worldType := .pvp
  fragTime := 86400
  killsToRed := 1
  killsToBlack := 6
  whiteSkullTime := 900
  pzLocked := 60000
  notGainInFight := fun _ => false

def killing : List Action :=
  [.login 0, .login 1, .onAttackedCreature openWorld 0 (.player 1),
    .onDeath openWorld 1 (some (.player 0)) [⟨.player 0, 150, 0⟩]]

theorem killing_past :
    ((run (World.step oneKill) (World.init 0) killing).players 0).past = [.murder 1, .away 0] := by
  decide

theorem skull_of_run_killing :
    ((run (World.step oneKill) (World.init 0) killing).players 0).skull = .red ∨
      ((run (World.step oneKill) (World.init 0) killing).players 0).skull = .black := by
  refine (@skull_of_run oneKill _ (by decide) (by decide) le_rfl killing 0).2.2.mpr (.inr ?_)
  rw [killing_past]
  exact ⟨by decide, .now ⟨⟨1, [.away 0], rfl⟩, by decide⟩⟩

end Bruxo.Skulls
