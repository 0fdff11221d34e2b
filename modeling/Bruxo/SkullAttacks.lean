import Bruxo.SkullTicks

/-!
# Attacks and murders

Whom a player counts as having attacked, over a run, and what must have happened for a kill that is
charged to him.
-/

namespace Bruxo.Skulls

open Relation Runs

/-- The attack counts against the attacker. A player with a yellow skull to him may be attacked
by one without a skull, and another that has attacked him at no cost. -/
def Offence (cfg : Config) (sc : Scene) (w : World) (this target : Nat) : Prop :=
  sc.zonePvp (.player target) = false ∧ target ≠ this ∧ cfg.notGainInFight this = false ∧
    sc.isPartner this target = false ∧ sc.isGuildMate this target = false ∧
    (w.getSkull cfg this = .none ∧ w.getSkullClient cfg sc this target = .yellow ∨
      w.hasAttacked cfg target this = false ∧ sc.isInWar this target = false)

def Offends (cfg : Config) (w : World) (a : Action) (this target : Nat) : Prop :=
  ∃ sc, a = .onAttackedCreature sc this (.player target) ∧ Able w a ∧ Offence cfg sc w this target

/-- The attacker logs in, or the other dies of him, or his fight is over. -/
def Forgets (cfg : Config) (w : World) (a : Action) (this target : Nat) : Prop :=
  (a = .login this ∧ (w.players this).online = false) ∨
    (∃ sc lastHit damageMap, a = .onDeath sc target lastHit damageMap ∧ Able w a ∧ this ≠ target ∧
      .player this ∈ damageMap.map Damage.attacker) ∨
    ((w.step cfg a).players this).inFight = none

section Attacks

variable {cfg : Config} {sc : Scene} {w w' : World} {this target : Nat} {f : Player → Player}

theorem getSkull_update (hskull : (f (w.players this)).skull = (w.players this).skull)
    (guid : Nat) : (w.update this f).getSkull cfg guid = w.getSkull cfg guid := by
  rw [World.getSkull, World.getSkull]
  rcases eq_or_ne guid this with rfl | hne
  · rw [update_self, hskull]
  · rw [update_of_ne w f hne]

theorem getSkull_lockPz (w : World) (lock : Bool) (guid : Nat) :
    (w.lockPz this lock).getSkull cfg guid = w.getSkull cfg guid := by
  rw [World.lockPz]
  split
  · exact getSkull_update rfl guid
  · rfl

theorem getSkull_addInFightTicks (w : World) (pzlock : Bool) (guid : Nat) :
    (w.addInFightTicks cfg this pzlock).getSkull cfg guid = w.getSkull cfg guid := by
  rw [World.addInFightTicks]
  split
  · rfl
  · exact getSkull_update rfl guid

theorem mem_addAttacked (hflag : cfg.notGainInFight this = false) (hne : target ≠ this)
    (w : World) (guid attacked : Nat) :
    attacked ∈ ((w.addAttacked cfg this target).players guid).attackedSet ↔
      guid = this ∧ attacked = target ∨ attacked ∈ (w.players guid).attackedSet := by
  rw [World.addAttacked, if_neg (by simp [hflag, hne])]
  rcases eq_or_ne guid this with rfl | hguid
  · rw [update_self, List.mem_insert_iff, and_iff_right rfl]
  · rw [update_of_ne w _ hguid, or_iff_right fun h => hguid h.1]

theorem inFight_addAttacked (w : World) (this target guid : Nat) :
    ((w.addAttacked cfg this target).players guid).inFight = (w.players guid).inFight := by
  rw [World.addAttacked]
  split
  · rfl
  · rcases eq_or_ne guid this with rfl | hguid
    · rw [update_self]
    · rw [update_of_ne w _ hguid]

theorem getSkullClient_congr
    (hset : ∀ guid, (w'.players guid).attackedSet = (w.players guid).attackedSet)
    (hskull : ∀ guid, w'.getSkull cfg guid = w.getSkull cfg guid) (this target : Nat) :
    w'.getSkullClient cfg sc this target = w.getSkullClient cfg sc this target := by
  simp only [World.getSkullClient, hskull, hasAttacked_congr (hset _)]

theorem onAttackedPlayer_spec (hflag : cfg.notGainInFight this = false) (hne : target ≠ this)
    (hzone : sc.zonePvp (.player target) = false) (w : World) :
    (∀ guid attacked, attacked ∈ ((w.onAttackedPlayer cfg sc this target).players guid).attackedSet ↔
      (guid = this ∧ attacked = target ∧
        (w.getSkull cfg this = .none ∧ w.getSkullClient cfg sc this target = .yellow ∨
          w.hasAttacked cfg target this = false ∧ sc.isInWar this target = false)) ∨
      attacked ∈ (w.players guid).attackedSet) ∧
    ∀ guid, (w.players guid).inFight.isSome →
      ((w.onAttackedPlayer cfg sc this target).players guid).inFight.isSome := by
  have hticks : Changes cfg (fun _ _ => False) true w ((w.lockPz this
      (cfg.worldType = .pvpEnforced)).addInFightTicks cfg target false) :=
    (changes_lockPz w this _).trans (changes_addInFightTicks _ target false)
  have hskull : ∀ guid, ((w.lockPz this (cfg.worldType = .pvpEnforced)).addInFightTicks cfg target
      false).getSkull cfg guid = w.getSkull cfg guid := fun guid => by
    rw [getSkull_addInFightTicks, getSkull_lockPz]
  have hset := fun guid => (hticks.same guid).1
  have hfight := fun guid => (hticks.same guid).2.1
  rw [World.onAttackedPlayer]
  simp only [hskull, getSkullClient_congr hset hskull, hasAttacked_congr (hset _)]
  split
  · rename_i hyellow
    refine ⟨fun guid attacked => ?_, fun guid h => ?_⟩
    · rw [mem_addAttacked hflag hne, hset]
      simp only [hyellow, and_self, true_or, and_true]
    · rw [inFight_addAttacked]
      exact hfight guid h
  · rename_i hyellow
    split
    · rename_i hattacked
      refine ⟨fun guid attacked => ?_, hfight⟩
      rw [hset, or_iff_right]
      rintro ⟨-, -, hcond | ⟨hcond, -⟩⟩
      · exact hyellow hcond
      · rw [hcond] at hattacked
        cases hattacked
    · rename_i hattacked
      have hlock := hticks.trans (changes_lockPz _ this (cfg.worldType ≠ .pvpEnforced))
      split
      · rename_i hwar
        have hwhite := fun v =>
          Changes.same (@changes_setWhite cfg (fun _ _ => False) true this hflag v target)
        refine ⟨fun guid attacked => ?_, fun guid h => (hwhite _ guid).2.1 ?_⟩
        · rw [(hwhite _ guid).1, mem_addAttacked hflag hne, (hlock.same guid).1]
          simp only [Bool.not_eq_true] at hattacked hwar
          simp only [hattacked, hwar.2, and_self, or_true, and_true]
        · rw [inFight_addAttacked]
          exact (hlock.same guid).2.1 h
      · rename_i hwar
        refine ⟨fun guid attacked => ?_, fun guid => (hlock.same guid).2.1⟩
        rw [(hlock.same guid).1, or_iff_right]
        rintro ⟨-, -, hcond | ⟨-, hcond⟩⟩
        · exact hyellow hcond
        · exact hwar ⟨by simp [Scene.isInPvpZone, hzone], by simp [hcond]⟩

theorem inFight_addInFightTicks (hflag : cfg.notGainInFight this = false) (w : World)
    (pzlock : Bool) : ((w.addInFightTicks cfg this pzlock).players this).inFight.isSome := by
  rw [World.addInFightTicks, if_neg (by simp [hflag]), update_self]
  rfl

/-- What an attack adds to the sets. -/
theorem onAttackedCreature_spec (w : World) (this : Nat) (target : Creature) :
    (∀ guid attacked, attacked ∈
        ((w.onAttackedCreature cfg sc this target).players guid).attackedSet ↔
      (guid = this ∧ target = .player attacked ∧ Offence cfg sc w this attacked) ∨
        attacked ∈ (w.players guid).attackedSet) ∧
    (∀ guid, (w.players guid).inFight.isSome →
      ((w.onAttackedCreature cfg sc this target).players guid).inFight.isSome) ∧
    ∀ attacked, target = .player attacked → Offence cfg sc w this attacked →
      ((w.onAttackedCreature cfg sc this target).players this).inFight.isSome := by
  have hcalm : ∀ w', Changes cfg (fun _ _ => False) true w w' → (∀ attacked, target = .player attacked →
      ¬ Offence cfg sc w this attacked) →
      (∀ guid attacked, attacked ∈ (w'.players guid).attackedSet ↔
        (guid = this ∧ target = .player attacked ∧ Offence cfg sc w this attacked) ∨
          attacked ∈ (w.players guid).attackedSet) ∧
      (∀ guid, (w.players guid).inFight.isSome → (w'.players guid).inFight.isSome) ∧
      ∀ attacked, target = .player attacked → Offence cfg sc w this attacked →
        (w'.players this).inFight.isSome := by
    intro w' hcalm hnone
    refine ⟨fun guid attacked => ?_, fun guid => (hcalm.same guid).2.1,
      fun attacked heq h => (hnone _ heq h).elim⟩
    rw [(hcalm.same guid).1, or_iff_right fun h => hnone attacked h.2.1 h.2.2]
  unfold World.onAttackedCreature
  split
  · rename_i hzone
    refine hcalm w (.refl w) fun attacked heq h => ?_
    rw [heq, h.1] at hzone
    cases hzone
  · rename_i hzone
    split
    · rename_i hself
      refine hcalm _ (changes_addInFightTicks w this false) fun attacked heq h => ?_
      exact h.2.1 (Creature.player.inj (heq.symm.trans hself))
    · rename_i hself
      split
      · rename_i hflag
        refine hcalm w (.refl w) fun attacked heq h => ?_
        rw [h.2.2.1] at hflag
        cases hflag
      · rename_i hflag
        have hflag : cfg.notGainInFight this = false := by simpa using hflag
        cases target with
        | monster id => exact hcalm _ (changes_addInFightTicks w this false) fun _ heq _ => by cases heq
        | summon id master =>
            exact hcalm _ (changes_addInFightTicks w this false) fun _ heq _ => by cases heq
        | player target =>
            dsimp only
            split
            · rename_i hstranger
              have hzone : sc.zonePvp (.player target) = false := by simpa using hzone
              have hne : target ≠ this := fun heq => hself (heq ▸ rfl)
              obtain ⟨hset, hfight⟩ := onAttackedPlayer_spec hflag hne hzone w
              have hticks := Changes.same (@changes_addInFightTicks cfg (fun _ _ => False) true
                (w.onAttackedPlayer cfg sc this target) this false)
              refine ⟨fun guid attacked => ?_, fun guid h => (hticks guid).2.1 (hfight guid h),
                fun _ _ _ => inFight_addInFightTicks hflag _ false⟩
              rw [(hticks guid).1, hset]
              simp only [Bool.not_eq_true] at hstranger
              constructor
              · rintro (⟨rfl, rfl, hcond⟩ | h)
                · exact .inl ⟨rfl, rfl, hzone, hne, hflag, hstranger.1, hstranger.2, hcond⟩
                · exact .inr h
              · rintro (⟨rfl, heq, h⟩ | h)
                · obtain rfl := Creature.player.inj heq
                  exact .inl ⟨rfl, rfl, h.2.2.2.2.2⟩
                · exact .inr h
            · rename_i hstranger
              refine hcalm _ (changes_addInFightTicks w this false) fun attacked heq h => hstranger ?_
              obtain rfl := Creature.player.inj heq
              exact ⟨by simp [h.2.2.2.1], by simp [h.2.2.2.2.1]⟩

end Attacks

/-! ## The end of a fight -/

/-- A fight goes on, or it is over and the set is empty. -/
def Settles (p p' : Player) : Prop :=
  (p'.attackedSet = p.attackedSet ∧ (p.inFight.isSome → p'.inFight.isSome)) ∨
    (p'.attackedSet = [] ∧ p'.inFight = none)

section Settles

variable {cfg : Config} {sc : Scene} {w : World} {p p' : Player}

theorem onThink_frame (cfg : Config) (now : Int) (isSuppress : Bool) (interval : Int)
    (p : Player) : (p.onThink cfg now isSuppress interval).attackedSet = p.attackedSet ∧
      (p.onThink cfg now isSuppress interval).inFight = p.inFight ∧
      (p.onThink cfg now isSuppress interval).past = p.past := by
  rw [Player.onThink]
  split
  · rw [Player.checkSkullTicks]
    dsimp only
    split <;> split <;> exact ⟨rfl, rfl, rfl⟩
  · exact ⟨rfl, rfl, rfl⟩

theorem Settles.onThink {now : Int} {isSuppress : Bool} {interval : Int} (h : Settles p p') :
    Settles p (p'.onThink cfg now isSuppress interval) := by
  obtain ⟨hset, hfight, -⟩ := onThink_frame cfg now isSuppress interval p'
  rw [Settles, hset, hfight]
  exact h

theorem settles_onEndCondition (notGainInFight : Bool) (p p' : Player) :
    Settles p (p'.onEndCondition notGainInFight) := by
  rw [Player.onEndCondition]
  dsimp only
  split <;> exact .inr ⟨rfl, rfl⟩

theorem settles_endConditions (notGainInFight : Bool) (p : Player) :
    Settles p (p.endConditions notGainInFight) := by
  rw [Player.endConditions]
  split
  · exact settles_onEndCondition notGainInFight p p
  · exact .inl ⟨rfl, id⟩

theorem settles_death (now : Int) (notGainInFight isSuppress : Bool) (p : Player) :
    Settles p (p.death cfg now notGainInFight isSuppress) := by
  rw [Player.death]
  split
  · exact settles_endConditions notGainInFight p
  · have hend : Settles p ({ p with skillLoss := true }.endConditions notGainInFight) :=
      settles_endConditions notGainInFight { p with skillLoss := true }
    exact hend.onThink

theorem settles_check (now : Int) (notGainInFight isSuppress : Bool) (interval : Int)
    (p : Player) : Settles p ((p.onThink cfg now isSuppress interval).executeConditions now
      notGainInFight interval) := by
  obtain ⟨hset, hfight, -⟩ := onThink_frame cfg now isSuppress interval p
  rw [Player.executeConditions]
  split
  · rename_i hnone
    exact .inl ⟨hset, fun h => by rw [hfight]; exact h⟩
  · split
    · exact .inl ⟨hset, fun _ => rfl⟩
    · exact settles_onEndCondition notGainInFight p _

/-- Who is in a set is in a fight. -/
def FightInv (w : World) : Prop :=
  ∀ guid attacked, attacked ∈ (w.players guid).attackedSet → (w.players guid).inFight.isSome

variable {a : Action} {this target : Nat}

theorem step_able (h : Able w a) : w.step cfg a = w.act cfg a := if_pos h

theorem step_not_able (h : ¬ Able w a) : w.step cfg a = w := if_neg h

theorem not_offends (h : ∀ sc, a ≠ .onAttackedCreature sc this (.player target)) :
    ¬ Offends cfg w a this target := by
  rintro ⟨sc, heq, -⟩
  exact h sc heq

/-- What does not touch the set of a player in a fight. -/
theorem attacked_of_same (h : FightInv w) (hoffends : ¬ Offends cfg w a this target)
    (hlogin : a ≠ .login this) (hdeath : ∀ sc lastHit damageMap,
      a = .onDeath sc target lastHit damageMap → Able w a → this ≠ target →
        .player this ∉ damageMap.map Damage.attacker)
    (hsettles : Settles (w.players this) ((w.step cfg a).players this)) :
    target ∈ ((w.step cfg a).players this).attackedSet ↔ Offends cfg w a this target ∨
      target ∈ (w.players this).attackedSet ∧ ¬ Forgets cfg w a this target := by
  rw [or_iff_right hoffends]
  have hforgets : Forgets cfg w a this target ↔ ((w.step cfg a).players this).inFight = none := by
    constructor
    · rintro (⟨heq, -⟩ | ⟨sc, lastHit, damageMap, heq, hable, hne, hmem⟩ | hfight)
      · exact absurd heq hlogin
      · exact absurd hmem (hdeath sc lastHit damageMap heq hable hne)
      · exact hfight
    · exact fun hfight => .inr (.inr hfight)
  rw [hforgets]
  rcases hsettles with ⟨hset, hfight⟩ | ⟨hset, hfight⟩
  · rw [hset]
    refine ⟨fun hmem => ⟨hmem, fun hnone => ?_⟩, And.left⟩
    have hsome := hfight (h this target hmem)
    rw [hnone] at hsome
    cases hsome
  · rw [hset]
    exact ⟨fun hmem => absurd hmem List.not_mem_nil, fun h => absurd hfight h.2⟩

theorem settles_of_changes {w' : World} (h : Changes cfg (fun _ _ => False) true w w')
    (guid : Nat) : Settles (w.players guid) (w'.players guid) :=
  .inl ⟨(h.same guid).1, (h.same guid).2.1⟩

theorem settles_update {f : Player → Player} {guid : Nat} (h : ∀ p, Settles p (f p)) (this : Nat) :
    Settles (w.players this) ((w.update guid f).players this) := by
  rcases eq_or_ne this guid with rfl | hne
  · rw [update_self]
    exact h _
  · rw [update_of_ne w f hne]
    exact .inl ⟨rfl, id⟩

theorem mem_onDeath (h : FightInv w) (victim : Nat) (lastHit : Option Creature)
    (damageMap : List Damage) (guid attacked : Nat) :
    attacked ∈ ((w.onDeath cfg sc victim lastHit damageMap).1.players guid).attackedSet ↔
      attacked ∈ (w.players guid).attackedSet ∧
        ¬ (attacked = victim ∧ guid ≠ victim ∧ .player guid ∈ damageMap.map Damage.attacker) ∧
        ((w.onDeath cfg sc victim lastHit damageMap).1.players guid).inFight ≠ none := by
  have hhit := Changes.same (@changes_lastHitKilled cfg sc (fun _ _ => True) true w victim lastHit
    fun _ _ _ => trivial)
  obtain ⟨-, hforget, hrest⟩ := forget_spec cfg (fun _ _ => True)
    (w.lastHitKilled cfg sc victim lastHit).1 victim damageMap
  have hmost := Changes.same (@changes_mostDamageKilled cfg sc (fun _ _ => True) true
    ((w.lastHitKilled cfg sc victim lastHit).1.forget victim damageMap) victim lastHit damageMap
      fun _ _ _ => trivial)
  have hmem := fun attacked => (hforget guid attacked).trans
    (and_congr_left' (by rw [(hhit guid).1]))
  have hsome : attacked ∈ (w.players guid).attackedSet → ((World.mostDamageKilled cfg sc
      ((w.lastHitKilled cfg sc victim lastHit).1.forget victim damageMap) victim lastHit
        damageMap).1.players guid).inFight.isSome := fun hset => by
    refine (hmost guid).2.1 ?_
    rw [(hrest guid).1]
    exact (hhit guid).2.1 (h guid attacked hset)
  have hdeath : Settles _ ((w.onDeath cfg sc victim lastHit damageMap).1.players guid) :=
    settles_update (fun p => settles_death w.now (cfg.notGainInFight victim) (sc.isSuppress victim) p)
      guid
  rcases hdeath with ⟨hset, hfight⟩ | ⟨hset, hfight⟩
  · rw [hset, (hmost guid).1, hmem]
    constructor
    · rintro ⟨hin, hnot⟩
      refine ⟨hin, hnot, fun hnone => ?_⟩
      have hlive := hfight (hsome hin)
      rw [hnone] at hlive
      cases hlive
    · exact fun h => ⟨h.1, h.2.1⟩
  · rw [hset, hfight]
    exact ⟨fun hmem => absurd hmem List.not_mem_nil, fun h => absurd rfl h.2.2⟩

theorem attacked_step (h : FightInv w) (a : Action) (this target : Nat) :
    target ∈ ((w.step cfg a).players this).attackedSet ↔ Offends cfg w a this target ∨
      target ∈ (w.players this).attackedSet ∧ ¬ Forgets cfg w a this target := by
  by_cases hable : Able w a
  · cases a with
    | wait milliseconds =>
        refine attacked_of_same h (not_offends (by simp)) (by simp) (by simp) ?_
        rw [step_able hable]
        exact .inl ⟨rfl, id⟩
    | addInFightTicks guid pzlock =>
        refine attacked_of_same h (not_offends (by simp)) (by simp) (by simp) ?_
        rw [step_able hable]
        exact settles_of_changes (changes_addInFightTicks w guid pzlock) this
    | checkCreature sc guid =>
        refine attacked_of_same h (not_offends (by simp)) (by simp) (by simp) ?_
        rw [step_able hable]
        exact settles_update (fun p => settles_check w.now _ (sc.isSuppress guid) _ p) this
    | logout guid =>
        refine attacked_of_same h (not_offends (by simp)) (by simp) (by simp) ?_
        rw [step_able hable]
        exact settles_update (f := fun p => p.savePlayer cfg w.time) (fun _ => .inl ⟨rfl, id⟩) this
    | login guid =>
        rcases eq_or_ne this guid with rfl | hne
        · have hno : ¬ Offends cfg w (.login this) this target := by
            rintro ⟨_, heq, _⟩
            cases heq
          rw [or_iff_right hno, step_able hable]
          cases honline : (w.players this).online with
          | false =>
              rw [World.act, honline, if_neg Bool.false_ne_true, update_self]
              exact ⟨fun hmem => absurd hmem List.not_mem_nil,
                fun h => absurd (.inl ⟨rfl, honline⟩) h.2⟩
          | true =>
              rw [Forgets, step_able hable, World.act, if_pos honline]
              refine ⟨fun hmem => ⟨hmem, ?_⟩, And.left⟩
              rintro (⟨-, hoffline⟩ | ⟨sc, lastHit, damageMap, heq, -⟩ | hnone)
              · rw [honline] at hoffline
                cases hoffline
              · cases heq
              · have hsome := h this target hmem
                rw [hnone] at hsome
                cases hsome
        · refine attacked_of_same h (not_offends (by simp)) (by simpa using hne.symm)
            (by simp) ?_
          rw [step_able hable, World.act]
          split
          · exact .inl ⟨rfl, id⟩
          · rw [update_of_ne w _ hne]
            exact .inl ⟨rfl, id⟩
    | onDeath sc victim lastHit damageMap =>
        rw [or_iff_right (not_offends (by simp)), Forgets, step_able hable]
        refine (mem_onDeath h victim lastHit damageMap this target).trans (and_congr_right fun _ => ?_)
        constructor
        · rintro ⟨hslain, hfight⟩ (⟨heq, -⟩ | ⟨_, _, _, heq, -, hne, hmem⟩ | hnone)
          · cases heq
          · cases heq
            exact hslain ⟨rfl, hne, hmem⟩
          · exact hfight hnone
        · intro h
          refine ⟨?_, fun hnone => h (.inr (.inr hnone))⟩
          rintro ⟨rfl, hne, hmem⟩
          exact h (.inr (.inl ⟨sc, lastHit, damageMap, rfl, hable, hne, hmem⟩))
    | onAttackedCreature sc guid creature =>
        obtain ⟨hset, hfight, hoffence⟩ := @onAttackedCreature_spec cfg sc w guid creature
        have hoffends : guid = this ∧ creature = .player target ∧ Offence cfg sc w guid target ↔
            Offends cfg w (.onAttackedCreature sc guid creature) this target := by
          constructor
          · rintro ⟨rfl, rfl, h⟩
            exact ⟨sc, rfl, hable, h⟩
          · rintro ⟨sc', heq, -, h⟩
            cases heq
            exact ⟨rfl, rfl, h⟩
        rw [step_able hable, World.act, hset, eq_comm (a := this), hoffends]
        refine or_congr_right ⟨fun hmem => ⟨hmem, ?_⟩, And.left⟩
        rintro (⟨heq, -⟩ | ⟨_, _, _, heq, -⟩ | hnone)
        · cases heq
        · cases heq
        · have hsome := hfight this (h this target hmem)
          rw [step_able hable, World.act] at hnone
          rw [hnone] at hsome
          cases hsome
  · refine attacked_of_same h (fun h => h.elim fun _ h => hable h.2.1) ?_ ?_ ?_
    · rintro rfl
      exact hable fun _ hmem => absurd hmem List.not_mem_nil
    · exact fun _ _ _ _ hcan => absurd hcan hable
    · rw [step_not_able hable]
      exact .inl ⟨rfl, id⟩

end Settles

/-! ## Runs -/

section Runs

variable {cfg : Config} {w : World}

theorem fightInv_step (h : FightInv w) (a : Action) : FightInv (w.step cfg a) := by
  intro this target hmem
  rcases (attacked_step h a this target).mp hmem with ⟨sc, rfl, hable, hoffence⟩ | ⟨-, hnot⟩
  · rw [step_able hable]
    exact (onAttackedCreature_spec w this (.player target)).2.2 target rfl hoffence
  · exact Option.isSome_iff_ne_none.mpr fun hnone => hnot (.inr (.inr hnone))

theorem fightInv_run (h : FightInv w) (as : List Action) :
    FightInv (run (World.step cfg) w as) := by
  induction as generalizing w with
  | nil => exact h
  | cons a as ih => exact ih (fightInv_step h a)

theorem fightInv_init (now : Int) : FightInv (World.init now) :=
  fun _ _ hmem => absurd hmem List.not_mem_nil

theorem attacked_since (cfg : Config) (now : Int) (as : List Action) (this target : Nat) :
    target ∈ ((run (World.step cfg) (World.init now) as).players this).attackedSet ↔
      ∃ pre a post, as = pre ++ a :: post ∧
        Offends cfg (run (World.step cfg) (World.init now) pre) a this target ∧
        Throughout (World.step cfg) (fun w b => ¬ Forgets cfg w b this target)
          (run (World.step cfg) (World.init now) (pre ++ [a])) post := by
  refine Iff.trans ?_ (since_history (A := fun w a => Offends cfg w a this target)
    (B := fun w b => ¬ Forgets cfg w b this target) as)
  induction as using List.reverseRecOn with
  | nil => exact iff_of_false List.not_mem_nil fun h => since_nil.mp h
  | append_singleton as a ih =>
      rw [run_snoc, attacked_step (fightInv_run (fightInv_init now) as), history_snoc, since_cons,
        ih, and_comm]
      exact Iff.rfl

/-- One player counts as having attacked another if and only if he did so unprovoked, or to one
with a yellow skull, and has not forgotten it since: he has not logged in anew, the other has not
died with him among the attackers, and his fight has not ended. -/
theorem hasAttacked_iff (cfg : Config) (now : Int) (as : List Action) (this target : Nat) :
    (run (World.step cfg) (World.init now) as).hasAttacked cfg this target = true ↔
      ∃ pre a post, as = pre ++ a :: post ∧
        Offends cfg (run (World.step cfg) (World.init now) pre) a this target ∧
        Throughout (World.step cfg) (fun w b => ¬ Forgets cfg w b this target)
          (run (World.step cfg) (World.init now) (pre ++ [a])) post := by
  rw [World.hasAttacked, Bool.and_eq_true, decide_eq_true_eq, attacked_since]
  refine and_iff_right_of_imp ?_
  rintro ⟨pre, a, post, -, ⟨sc, -, -, hoffence⟩, -⟩
  rw [hoffence.2.2.1]
  rfl

end Runs

/-! ## Murders -/

section Murders

variable {cfg : Config} {charged : Nat → Nat → Prop} {w w' : World} {this victim : Nat}

theorem Change.murder {calm : Bool} {p p' : Player} (h : Change cfg charged calm this p p')
    (hmem : .murder victim ∈ p'.past) : .murder victim ∈ p.past ∨ charged this victim := by
  cases h with
  | frag h =>
      rw [(addFrag_frame _ p).1] at hmem
      rcases List.mem_cons.mp hmem with heq | hmem
      · rw [Deed.murder.inj heq]
        exact .inr h
      · exact .inl hmem
  | think _ now isSuppress =>
      rw [(onThink_frame cfg now isSuppress _ p).2.2] at hmem
      exact .inl hmem
  | ended _ =>
      rw [(onEndCondition_frame _ p).2] at hmem
      exact .inl hmem
  | _ => exact .inl hmem

theorem Changes.murder (h : Changes cfg charged false w w')
    (hmem : .murder victim ∈ (w'.players this).past) :
    .murder victim ∈ (w.players this).past ∨ charged this victim := by
  have hchain := h.players this
  generalize w'.players this = p' at hchain hmem
  induction hchain with
  | refl => exact .inl hmem
  | tail _ hlast ih => exact (hlast.murder hmem).elim ih .inr

theorem murder_step {a : Action} (h : .murder victim ∈ ((w.step cfg a).players this).past) :
    .murder victim ∈ (w.players this).past ∨ Murders cfg w a this victim := by
  by_cases hable : Able w a
  · rw [step_able hable] at h
    have hother := @changes_act cfg w a hable
    cases a with
    | wait milliseconds => exact .inl h
    | logout guid =>
        rcases eq_or_ne this guid with rfl | hne
        · rw [World.act, update_self] at h
          exact .inl h
        · rw [World.act, update_of_ne w _ hne] at h
          exact .inl h
    | login guid =>
        rw [World.act] at h
        split at h
        · exact .inl h
        · rcases eq_or_ne this guid with rfl | hne
          · rw [update_self] at h
            exact .inl ((List.mem_cons.mp h).resolve_left (by simp))
          · rw [update_of_ne w _ hne] at h
            exact .inl h
    | _ => exact (hother (by simp) (by simp) (by simp)).murder h
  · rw [step_not_able hable] at h
    exact .inl h

theorem murder_of_run (cfg : Config) (now : Int) (as : List Action) {this victim : Nat}
    (h : .murder victim ∈ ((run (World.step cfg) (World.init now) as).players this).past) :
    ∃ pre a post, as = pre ++ a :: post ∧
      Murders cfg (run (World.step cfg) (World.init now) pre) a this victim := by
  induction as using List.reverseRecOn with
  | nil => exact absurd h List.not_mem_nil
  | append_singleton as a ih =>
      rw [run_snoc] at h
      rcases murder_step h with hmem | hmurder
      · obtain ⟨pre, b, post, rfl, hmurder⟩ := ih hmem
        exact ⟨pre, b, post ++ [a], by rw [List.append_assoc, List.cons_append], hmurder⟩
      · exact ⟨as, a, [], rfl, hmurder⟩

end Murders

/-! ### What a murder takes -/

/-- Each murder on record has been one: at the death of the victim the killer, or a summon of his,
had the last hit, or a summon had done most and he himself nothing; and he had attacked the victim
before, in a fight that still went on, and the victim had not attacked him. -/
theorem murder_on_record (cfg : Config) (now : Int) (as : List Action) {this victim : Nat}
    (h : .murder victim ∈ ((run (World.step cfg) (World.init now) as).players this).past) :
    ∃ before a later, as = before ++ a :: later ∧
      Murders cfg (run (World.step cfg) (World.init now) before) a this victim ∧
      ∃ pre b post, before = pre ++ b :: post ∧
        Offends cfg (run (World.step cfg) (World.init now) pre) b this victim ∧
        Throughout (World.step cfg) (fun w b => ¬ Forgets cfg w b this victim)
          (run (World.step cfg) (World.init now) (pre ++ [b])) post := by
  obtain ⟨before, a, later, rfl, hmurder⟩ := murder_of_run cfg now as h
  refine ⟨before, a, later, rfl, hmurder, ?_⟩
  obtain ⟨sc, lastHit, damageMap, -, -, hunjust, -⟩ := hmurder
  have hattacked := hunjust.2.2.2.2.2.2.1
  rw [World.hasAttacked, Bool.and_eq_true, decide_eq_true_eq] at hattacked
  exact (attacked_since cfg now before this victim).mp hattacked.2

theorem murder_on_record_killing : ∃ before a later, killing = before ++ a :: later ∧
    Murders oneKill (run (World.step oneKill) (World.init 0) before) a 0 1 := by
  obtain ⟨before, a, later, heq, hmurder, -⟩ := @murder_on_record oneKill 0 killing 0 1
    (by rw [killing_past]; exact List.mem_cons_self)
  exact ⟨before, a, later, heq, hmurder⟩

end Bruxo.Skulls
