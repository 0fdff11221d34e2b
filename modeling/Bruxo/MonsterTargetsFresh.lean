import Bruxo.MonsterTargetsCalls

/-!
# The lists of the monsters stay fresh

Every operation keeps `Inv`, and so do the calls that it makes. Behind an operation nobody is still
to be told, so that what the lists hold is as it should be (`targets_kept_throughout`).

A creature that is removed takes leave of its master before or after the others are told of it. So
whoever removes a player's summon leaves it in the list of every monster that is told after it
(`summon_stays`).
-/

namespace Bruxo.Targets.State

open Runs
open Spectators (CreatureId addSpectators)

variable {s s' : State} {m c : CreatureId} {order : List CreatureId}

/-! ## Appearing and moving -/

theorem Inv.placeCreature {pos : Position} (h : Inv s) (hcalls : s.calls = [])
    (halive : s.isDead c = false) : Inv (s.placeCreature c pos order) := by
  rw [State.placeCreature]
  split
  · exact h
  next hnot =>
    obtain ⟨hnew, hfloor⟩ := not_or.mp hnot
    have hnew : s.placed c = false := by simpa using hnew
    have hne : ∀ d ∈ s.onMap, d ≠ c := by
      rintro d hmap rfl
      rw [h.placed d hmap] at hnew
      cases hnew
    have hmap' : ∀ {d}, d ∈ s.onMap ++ [c] → d ∈ s.onMap ∨ d = c := fun hmem =>
      (List.mem_append.mp hmem).imp_right List.mem_singleton.mp
    have hplaced : ∀ d ∈ s.onMap ++ [c], Function.update s.placed c true d = true := by
      intro d hmem
      rcases eq_or_ne d c with rfl | hd
      · exact Function.update_self ..
      · rw [Function.update_of_ne hd]
        exact h.placed d ((hmap' hmem).resolve_right hd)
    have hquiet : ∀ call ∈ s.calls, call.listener = none := by
      rw [hcalls]
      rintro _ ⟨⟩
    have hlisted : ∀ m ∈ s.onMap, ∀ d good calls, Listed s.toWorld s.calls m d good →
        Listed { s.toWorld with
          position := Function.update s.position c pos
          placed := Function.update s.placed c true
          onMap := s.onMap ++ [c] } calls m d good := fun m hmap d good calls hold =>
      hold.placeCreature hquiet hne hmap
    dsimp only
    rw [hcalls, List.append_nil]
    have hcall : ∀ call ∈ (World.spectators { s.toWorld with
        position := Function.update s.position c pos
        placed := Function.update s.placed c true
        onMap := s.onMap ++ [c] } order pos).map (Call.onCreatureAppear · c),
        ∃ m ∈ s.onMap ++ [c], call = .onCreatureAppear m c := by
      intro call hmem
      obtain ⟨m, hm, rfl⟩ := List.mem_map.mp hmem
      exact ⟨m, (World.mem_spectators.mp hm).1, rfl⟩
    exact
      { h with
        placed := hplaced
        unremoved := by
          intro d hmem
          rcases hmap' hmem with hmem | rfl
          · exact h.unremoved d hmem
          · by_contra hremoved
            rw [h.gone d (Bool.eq_true_of_not_eq_false hremoved)] at hnew
            cases hnew
        gone := by
          intro d hremoved
          have hold := h.gone d hremoved
          rcases eq_or_ne d c with rfl | hd
          · exact Function.update_self ..
          · exact (Function.update_of_ne hd _ _).trans hold
        floor := by
          intro d hmem
          rcases eq_or_ne d c with rfl | hd
          · dsimp only
            rw [Function.update_self]
            exact Nat.lt_of_not_le hfloor
          · dsimp only
            rw [Function.update_of_ne hd]
            exact h.floor d ((hmap' hmem).resolve_right hd)
        fresh := by
          intro d hd
          rcases eq_or_ne d c with rfl | hne
          · exact h.fresh d hnew
          · exact h.fresh d ((Function.update_of_ne hne _ _).symm.trans hd)
        told := by
          intro call hmem m hm
          obtain ⟨m', hin, rfl⟩ := hcall call hmem
          exact Option.some.inj hm ▸ hplaced m' hin
        appears := by
          intro m d hmem
          obtain ⟨m', _, heq⟩ := hcall _ hmem
          obtain ⟨-, rfl⟩ := Call.onCreatureAppear.inj heq
          refine ⟨List.mem_append_right _ List.mem_cons_self, fun call hmem => ?_⟩
          obtain ⟨m', _, rfl⟩ := hcall call hmem
          exact ⟨m', rfl⟩
        leaving := by
          intro m d hmem
          obtain ⟨_, _, heq⟩ := hcall _ hmem
          cases heq
        removed := by
          intro d hmem
          obtain ⟨_, _, heq⟩ := hcall _ hmem
          cases heq
        corpse := by
          intro d hmem
          obtain ⟨_, _, heq⟩ := hcall _ hmem
          cases heq
        targets := by
          intro m hmem hmonster d hd
          rcases hmap' hmem with hmap | rfl
          · exact hlisted m hmap d _ _ (h.targets m hmap hmonster d hd)
          · rw [show (s.monster m).targetList = [] from (h.fresh m hnew).1] at hd
            cases hd
        friends := by
          intro m hmem hmonster d hd
          rcases hmap' hmem with hmap | rfl
          · exact hlisted m hmap d _ _ (h.friends m hmap hmonster d hd)
          · rw [show (s.monster m).friendList = [] from (h.fresh m hnew).2] at hd
            cases hd
        rested := by
          intro m hmem hmonster
          rcases hmap' hmem with hmap | rfl
          · rcases h.rested m hmap hmonster with hbusy | hrested
            · exact absurd (hcalls ▸ hbusy) (not_busy_nil m)
            · exact .inr hrested
          · refine .inl (.inl (List.mem_map.mpr ⟨m, ?_, rfl⟩))
            refine World.mem_spectators_of_canSee (List.mem_append_right _ List.mem_cons_self) ?_
              (Nat.lt_of_not_le hfloor) ?_
            · dsimp only
              rw [Function.update_self]
              exact World.canSeePosition_self pos
            · dsimp only
              rw [Function.update_self]
              exact Nat.lt_of_not_le hfloor
        dead := by
          intro d hmem hdead
          rcases hmap' hmem with hmap | rfl
          · rcases h.dead d hmap hdead with hdying | hgo
            · exact .inl hdying
            · exact absurd (hcalls ▸ hgo) (not_going_nil d)
          · rw [show s.isDead d = true from hdead] at halive
            cases halive }

theorem Inv.moveCreature {newPos : Position} (h : Inv s)
    (hquiet : ∀ call ∈ s.calls, call.listener = none) : Inv (s.moveCreature c newPos order) := by
  rw [State.moveCreature]
  split
  · exact h
  next hnot =>
    obtain ⟨hin, hfloor⟩ := not_or.mp hnot
    have hin : c ∈ s.onMap := not_not.mp hin
    dsimp only
    generalize htold : addSpectators (s.spectators order (s.position c)) (s.spectators order newPos) =
      told
    have hmem_told : ∀ m, m ∈ told ↔
        m ∈ s.spectators order (s.position c) ∨ m ∈ s.spectators order newPos := by
      intro m
      rw [← htold]
      exact Spectators.CachedMap.mem_addSpectators
    have hcall : ∀ call ∈ told.map (Call.onCreatureMove · c newPos (s.position c)) ++ s.calls,
        (∃ m ∈ s.onMap, call = .onCreatureMove m c newPos (s.position c)) ∨ call ∈ s.calls := by
      intro call hmem
      refine (List.mem_append.mp hmem).imp_left fun hmem => ?_
      obtain ⟨m, hm, rfl⟩ := List.mem_map.mp hmem
      exact ⟨m, ((hmem_told m).mp hm).elim (fun hm => (World.mem_spectators.mp hm).1)
        fun hm => (World.mem_spectators.mp hm).1, rfl⟩
    have htell : ∀ m ∈ s.onMap, World.canSeePosition (s.position m) (s.position c) = true →
        Call.onCreatureMove m c newPos (s.position c) ∈
          told.map (Call.onCreatureMove · c newPos (s.position c)) ++ s.calls := by
      intro m hmap hsees
      refine List.mem_append_left _ (List.mem_map.mpr ⟨m, (hmem_told m).mpr (.inl ?_), rfl⟩)
      exact World.mem_spectators_of_canSee hmap hsees (h.floor c hin) (h.floor m hmap)
    have hlisted : ∀ m ∈ s.onMap, ∀ d good, Listed s.toWorld s.calls m d good →
        Listed { s.toWorld with position := Function.update s.position c newPos }
          (told.map (Call.onCreatureMove · c newPos (s.position c)) ++ s.calls) m d good :=
      fun m hmap d good hold => hold.moveCreature hquiet hmap (htell m hmap)
    have hgoing : ∀ d, Going s.calls d → Going
        (told.map (Call.onCreatureMove · c newPos (s.position c)) ++ s.calls) d := fun d hgo =>
      hgo.imp (List.mem_append_right _) (List.mem_append_right _)
    exact
      { h with
        floor := by
          intro d hmap
          rcases eq_or_ne d c with rfl | hd
          · dsimp only
            rw [Function.update_self]
            exact Nat.lt_of_not_le hfloor
          · dsimp only
            rw [Function.update_of_ne hd]
            exact h.floor d hmap
        told := by
          intro call hmem m hm
          rcases hcall call hmem with ⟨m', hmap, rfl⟩ | hmem
          · exact Option.some.inj hm ▸ h.placed m' hmap
          · exact h.told call hmem m hm
        appears := by
          intro m d hmem
          rcases hcall _ hmem with ⟨_, _, heq⟩ | hmem
          · cases heq
          · cases hquiet _ hmem
        leaving := by
          intro m d hmem
          rcases hcall _ hmem with ⟨_, _, heq⟩ | hmem
          · cases heq
          · exact h.leaving m d hmem
        removed := by
          intro d hmem
          rcases hcall _ hmem with ⟨_, _, heq⟩ | hmem
          · cases heq
          · exact h.removed d hmem
        corpse := by
          intro d hmem
          rcases hcall _ hmem with ⟨_, _, heq⟩ | hmem
          · cases heq
          · exact h.corpse d hmem
        targets := fun m hmap hmonster d hd =>
          hlisted m hmap d _ (h.targets m hmap hmonster d hd)
        friends := fun m hmap hmonster d hd =>
          hlisted m hmap d _ (h.friends m hmap hmonster d hd)
        rested := by
          intro m hmap hmonster
          rcases h.rested m hmap hmonster with (happear | hgo) | hrested
          · cases hquiet _ happear
          · exact .inl (.inr (hgoing m hgo))
          · exact .inr hrested
        dead := fun d hmap hdead => (h.dead d hmap hdead).imp_right (hgoing d) }

/-! ## Health -/

/-- Blows to the creatures of `l`: they wake, and whoever is dead is to be executed. -/
structure Struck (s s' : State) (l : List CreatureId) : Prop where
  rest : s' = { s with
    health := s'.health, masters := s'.masters, monster := s'.monster, dying := s'.dying }
  lists : ∀ m, s'.monster m = s.monster m ∨ s'.monster m = { s.monster m with isIdle := false }
  others : ∀ m, m ∉ l → s'.monster m = s.monster m ∧ s'.health m = s.health m
  dying : ∀ d ∈ s.dying, d ∈ s'.dying
  dead : ∀ d ∈ l, s'.isDead d = true → d ∈ s'.dying

theorem wake_spec (s : State) (c : CreatureId) :
    ∃ monster, s.wake c = { s with monster := monster } ∧
      ∀ m, monster m = s.monster m ∨ m = c ∧ monster m = { s.monster m with isIdle := false } := by
  rw [wake]
  split
  · refine ⟨_, rfl, fun m => ?_⟩
    rcases eq_or_ne m c with rfl | hne
    · rw [Function.update_self]
      exact (Monster.setIdle_false s.toWorld m (s.monster m)).imp_right fun heq => ⟨rfl, heq⟩
    · exact .inl (Function.update_of_ne hne _ _)
  · exact ⟨s.monster, rfl, fun _ => .inl rfl⟩

theorem changeHealth_struck (s : State) (c : CreatureId) (healthChange : Int) :
    Struck s (s.changeHealth c healthChange) [c] ∧
      (s.changeHealth c healthChange).masters = s.masters := by
  obtain ⟨monster, hwake, hmonster⟩ := s.wake_spec c
  have hlists : ∀ m, monster m = s.monster m ∨ monster m = { s.monster m with isIdle := false } :=
    fun m => (hmonster m).imp_right And.right
  have hothers : ∀ m, m ∉ [c] → monster m = s.monster m := fun m hm =>
    (hmonster m).resolve_right fun heq => hm (List.mem_singleton.mpr heq.1)
  rw [State.changeHealth, hwake]
  dsimp only
  generalize (if 0 < healthChange then s.health c + min healthChange (s.healthMax c - s.health c)
    else max 0 (s.health c + healthChange)) = health
  split
  · next hdead =>
      refine ⟨⟨rfl, hlists, fun m hm => ⟨hothers m hm, ?_⟩, fun d hd => List.mem_append_left _ hd,
        fun d hd _ => List.mem_append_right _ hd⟩, rfl⟩
      exact Function.update_of_ne (fun heq => hm (List.mem_singleton.mpr heq)) _ _
  · next halive =>
      refine ⟨⟨rfl, hlists, fun m hm => ⟨hothers m hm, ?_⟩, fun d hd => hd, fun d hd hdead => ?_⟩, rfl⟩
      · exact Function.update_of_ne (fun heq => hm (List.mem_singleton.mpr heq)) _ _
      · obtain rfl := List.mem_singleton.mp hd
        exact absurd hdead halive

theorem Inv.struck {l : List CreatureId} (h : Inv s) (hs : Struck s s' l)
    (hidle : ∀ m ∈ l, s.Unoccupied m → s.isSummon m = true ∨ Busy s.calls m ∨ s'.isDead m = true) :
    Inv { s' with masters := s.masters } := by
  obtain ⟨hrest, hlists, hothers, hdying, hdead⟩ := hs
  have htargets : ∀ m, (s'.monster m).targetList = (s.monster m).targetList := by
    intro m
    rcases hlists m with heq | heq <;> rw [heq]
  have hfriends : ∀ m, (s'.monster m).friendList = (s.monster m).friendList := by
    intro m
    rcases hlists m with heq | heq <;> rw [heq]
  rw [hrest]
  exact
    { h with
      fresh := by
        intro c hc
        dsimp only
        rw [htargets, hfriends]
        exact h.fresh c hc
      targets := by
        intro m hmap hmonster c hc
        dsimp only at hc
        rw [htargets] at hc
        exact (h.targets m hmap hmonster c hc).imp rfl (fun _ hmem _ => hmem) fun hm _ hg => ⟨hm, hg⟩
      friends := by
        intro m hmap hmonster c hc
        dsimp only at hc
        rw [hfriends] at hc
        exact (h.friends m hmap hmonster c hc).imp rfl (fun _ hmem _ => hmem) fun hm _ hg => ⟨hm, hg⟩
      held := by
        intro m
        rcases hlists m with heq | heq
        · exact heq.symm ▸ h.held m
        · exact heq.symm ▸ (h.held m).setIdleFlag false
      rested := by
        intro m hmap hmonster
        by_cases hm : m ∈ l
        · refine or_iff_not_imp_left.mpr fun hbusy _ halive hsummon haggressive _ hempty => ?_
          rcases hidle m hm ⟨hmap, hmonster, (htargets m).symm.trans hempty, haggressive⟩ with
            hsummon' | hbusy' | hdead'
          · rw [show s.isSummon m = false from hsummon] at hsummon'
            cases hsummon'
          · exact hbusy hbusy'
          · rw [show s'.isDead m = false from halive] at hdead'
            cases hdead'
        · obtain ⟨hsame, hhealth⟩ := hothers m hm
          refine (h.rested m hmap hmonster).imp_right fun hrested hremoved halive => ?_
          dsimp only
          rw [hsame]
          exact hrested hremoved ((World.isDead_congr hhealth).symm.trans halive)
      dead := by
        intro c hmap hdead'
        by_cases hc : c ∈ l
        · exact .inl (hdead c hc hdead')
        · have hhealth : s'.isDead c = s.isDead c := World.isDead_congr (hothers c hc).2
          exact (h.dead c hmap (hhealth.symm.trans hdead')).imp_left (hdying c) }

theorem Inv.changeHealth {healthChange : Int} (h : Inv s)
    (hidle : s.Unoccupied c →
      s.isSummon c = true ∨ (s.changeHealth c healthChange).isDead c = true) :
    Inv (s.changeHealth c healthChange) := by
  obtain ⟨hs, hmasters⟩ := changeHealth_struck s c healthChange
  have hstruck := h.struck hs fun m hm hunoccupied => by
    obtain rfl := List.mem_singleton.mp hm
    exact (hidle hunoccupied).imp_right .inr
  rwa [← hmasters] at hstruck

/-! ## Death -/

theorem killSummon_spec (s : State) (c : CreatureId) :
    Struck s (s.killSummon c) [c] ∧ (s.killSummon c).isDead c = true ∧
      (s.killSummon c).masters = s.masters.removeMaster c := by
  obtain ⟨hs, hmasters⟩ := changeHealth_struck s c (-s.health c)
  obtain ⟨hrest, hlists, hothers, hdying, hdead⟩ := hs
  have hkilled : (s.changeHealth c (-s.health c)).isDead c = true := by
    obtain ⟨monster, hwake, _⟩ := s.wake_spec c
    have hhealth : (if 0 < -s.health c then s.health c + min (-s.health c) (s.healthMax c - s.health c)
        else max 0 (s.health c + -s.health c)) ≤ 0 := by
      split
      · have hmin := min_le_left (-s.health c) (s.healthMax c - s.health c)
        omega
      · omega
    rw [State.changeHealth, hwake]
    dsimp only
    generalize (if 0 < -s.health c then s.health c + min (-s.health c) (s.healthMax c - s.health c)
      else max 0 (s.health c + -s.health c)) = health at hhealth
    split
    · next hdead => exact hdead
    · refine World.isDead_iff.mpr ?_
      dsimp only
      rwa [Function.update_self]
  refine ⟨⟨?_, hlists, hothers, hdying, hdead⟩, hkilled, congrArg (·.removeMaster c) hmasters⟩
  rw [killSummon]
  dsimp only
  rw [hrest]

theorem foldl_killSummon_spec (l : List CreatureId) (s : State) :
    Struck s (l.foldl killSummon s) l ∧ (∀ d ∈ l, (l.foldl killSummon s).isDead d = true) ∧
      (l.foldl killSummon s).masters = l.foldl Summons.State.removeMaster s.masters := by
  induction l generalizing s with
  | nil =>
      exact ⟨⟨rfl, fun _ => .inl rfl, fun _ _ => ⟨rfl, rfl⟩, fun _ hd => hd, fun _ hd => by cases hd⟩,
        fun _ hd => (by cases hd), rfl⟩
  | cons c l ih =>
      obtain ⟨⟨hrest, hlists, hothers, hdying, hdead⟩, hkilled, hmasters⟩ := killSummon_spec s c
      obtain ⟨⟨hrest', hlists', hothers', hdying', hdead'⟩, hkilled', hmasters'⟩ := ih (s.killSummon c)
      have hall : ∀ d ∈ c :: l, (l.foldl killSummon (s.killSummon c)).isDead d = true := by
        intro d hd
        by_cases hmem : d ∈ l
        · exact hkilled' d hmem
        · obtain rfl := (List.mem_cons.mp hd).resolve_right hmem
          exact (World.isDead_congr (hothers' d hmem).2).trans hkilled
      rw [List.foldl_cons, List.foldl_cons, ← hmasters]
      refine ⟨⟨?_, fun m => ?_, fun m hm => ?_, fun d hd => hdying' d (hdying d hd), fun d hd _ => ?_⟩,
        hall, hmasters'⟩
      · rw [hrest']
        dsimp only
        rw [hrest]
      · rcases hlists' m with heq | heq <;> rcases hlists m with heq' | heq' <;> rw [heq, heq']
        · exact .inl rfl
        · exact .inr rfl
        · exact .inr rfl
        · exact .inr rfl
      · have htail : m ∉ l := fun hmem => hm (List.mem_cons_of_mem c hmem)
        have hsingle : m ∉ [c] := fun hmem =>
          hm (List.mem_singleton.mp hmem ▸ List.mem_cons_self)
        exact ⟨(hothers' m htail).1.trans (hothers m hsingle).1,
          (hothers' m htail).2.trans (hothers m hsingle).2⟩
      · by_cases hmem : d ∈ l
        · exact hdead' d hmem (hkilled' d hmem)
        · obtain rfl := (List.mem_cons.mp hd).resolve_right hmem
          exact hdying' d (hdead d List.mem_cons_self hkilled)

/-- What stands between a blow and the removal: the death is called, and `onDeath` behind it. -/
theorem Inv.dies {health : CreatureId → Int} {droppedCorpse : Bool} (h : Inv s)
    (hcalls : s.calls = []) (hothers : ∀ d, d ≠ c → health d = s.health d)
    (hmonster : s.isMonster c = true → droppedCorpse = true ∧ health c = s.health c)
    (halive : droppedCorpse = false → 0 < health c) :
    Inv { s with
      health := health, dying := s.dying.erase c, calls := [.finishDeath c droppedCorpse] } := by
  have hcall : ∀ call ∈ [Call.finishDeath c droppedCorpse], call.listener = none := by
    intro call hmem
    obtain rfl := List.mem_singleton.mp hmem
    rfl
  have hquiet : ∀ call ∈ s.calls, call.listener = none := by
    rw [hcalls]
    rintro _ ⟨⟩
  have hlisted : ∀ m d good, Listed s.toWorld s.calls m d good →
      Listed { s.toWorld with health := health } [.finishDeath c droppedCorpse] m d good := by
    intro m d good hold
    obtain ⟨hmap, hsees, hgood⟩ := hold.of_quiet hquiet
    exact .seen hmap hsees hgood
  exact
    { h with
      told := by
        intro call hmem m hm
        rw [hcall call hmem] at hm
        cases hm
      appears := fun m d hmem => (by cases hcall _ hmem)
      leaving := fun m d hmem => (by cases hcall _ hmem)
      removed := fun d hmem => (by cases List.mem_singleton.mp hmem)
      corpse := by
        intro d hmem
        obtain ⟨rfl, hdropped⟩ := Call.finishDeath.inj (List.mem_singleton.mp hmem)
        by_contra hnot
        rw [(hmonster (Bool.eq_true_of_not_eq_false hnot)).1] at hdropped
        cases hdropped
      targets := fun m hmap hm d hd => hlisted m d _ (h.targets m hmap hm d hd)
      friends := fun m hmap hm d hd => hlisted m d _ (h.friends m hmap hm d hd)
      rested := by
        intro m hmap hm
        have hsame : health m = s.health m := by
          rcases eq_or_ne m c with rfl | hne
          · exact (hmonster hm).2
          · exact hothers m hne
        rcases h.rested m hmap hm with hbusy | hrested
        · exact absurd (hcalls ▸ hbusy) (not_busy_nil m)
        · exact .inr fun hremoved hdead =>
            hrested hremoved ((World.isDead_congr hsame).symm.trans hdead)
      dead := by
        intro d hmap hdead
        rcases eq_or_ne d c with rfl | hne
        · cases droppedCorpse with
          | true => exact .inr (.inl List.mem_cons_self)
          | false => exact absurd (World.isDead_iff.mp hdead) (not_le.mpr (halive rfl))
        · have hold := (World.isDead_congr (hothers d hne)).symm.trans hdead
          rcases h.dead d hmap hold with hdying | hgo
          · exact .inl ((List.mem_erase_of_ne hne).mpr hdying)
          · exact absurd (hcalls ▸ hgo) (not_going_nil d) }

theorem foldl_removeMaster_isRemoved (l : List CreatureId) (masters : Summons.State CreatureId) :
    (l.foldl Summons.State.removeMaster masters).isRemoved = masters.isRemoved := by
  induction l generalizing masters with
  | nil => rfl
  | cons c l ih =>
      rw [List.foldl_cons, ih, Summons.State.removeMaster]
      split <;> rfl

/-- A monster is nobody's player, so that no opponent is lost with its summons. -/
theorem Inv.monsterDeath (h : Inv s) (hmonster : s.isMonster c = true)
    (hgoing : Going s.calls c) : Inv (s.monsterDeath c) := by
  rw [State.monsterDeath]
  obtain ⟨hs, hkilled, hmasters⟩ := foldl_killSummon_spec (s.masters.summons c) s
  have hlists := hs.lists
  have hrest := hs.rest
  have hstruck := h.struck hs fun m hm _ => .inr (.inr (hkilled m hm))
  generalize (s.masters.summons c).foldl killSummon s = killed at hs hkilled hmasters hlists hrest hstruck ⊢
  have hmaster := fun m => h.masters.dropSummons_master c m
  have hdestroyed : (s.masters.dropSummons c).destroyed = s.masters.destroyed :=
    (s.masters.foldl_removeMaster_frame (s.masters.summons c)).2.1
  have hremoved : (s.masters.dropSummons c).isRemoved = s.masters.isRemoved :=
    foldl_removeMaster_isRemoved (s.masters.summons c) s.masters
  have hkind : killed.kind = s.kind := by rw [hrest]
  have hplayer : killed.isPlayer c = false := by
    rw [World.isPlayer, hkind, of_decide_eq_true hmonster]
  have hfree : Inv { killed with masters := s.masters.dropSummons c } := by
    refine hstruck.putMasters (h.masters.dropSummons c) hdestroyed
      (fun d _ => congrFun hremoved d)
      (fun d hd => hstruck.gone d ((congrFun hremoved d).symm.trans hd))
      (fun m _ _ d _ _ hg => ?_) fun m _ _ hsummon hnone => ?_
    · have hsame : ∀ d, World.masterPlayer { killed.toWorld with
          masters := s.masters.dropSummons c } d =
            World.masterPlayer { killed.toWorld with masters := s.masters } d := by
        intro d
        rw [World.masterPlayer, World.masterPlayer, World.getMaster, World.getMaster, hmaster]
        split
        · next hsome =>
            rw [hsome]
            exact (Option.filter_eq_none_iff.mpr fun p hp => by
              obtain rfl := Option.some.inj hp
              rw [show World.isPlayer { killed.toWorld with masters := s.masters } c = false from
                hplayer]
              exact Bool.false_ne_true).symm
        · rfl
      have hopponent : World.isOpponent { killed.toWorld with
          masters := s.masters.dropSummons c } m d =
            World.isOpponent { killed.toWorld with masters := s.masters } m d :=
        World.isOpponent_congr rfl (hsame m) (hsame d)
      exact hopponent.trans hg
    · rw [hmaster] at hnone
      split at hnone
      · next hsome => exact .inr (.inr (.inl (hkilled m (h.masters.mem_iff.mpr hsome))))
      · rw [World.isSummon, World.getMaster, show s.masters.master m = none from hnone] at hsummon
        cases hsummon
  have hdropped : killed.masters.setSummons c [] = s.masters.dropSummons c := by
    rw [hmasters]
    rfl
  have hcalls : killed.calls = s.calls := by rw [hrest]
  dsimp only
  rw [hdropped]
  refine hfree.setFewer (hstruck.held c).clearTargetList.clearFriendList ?_
    fun _ _ => .inl (.inr (hcalls.symm ▸ hgoing))
  rw [Monster.clearFriendList, Monster.clearTargetList, Monster.foldl_decrement,
    Monster.foldl_decrement]
  exact ⟨List.nil_subset _, List.nil_subset _⟩

theorem Inv.playerDeath {death : PlayerDeath} (h : Inv s) (hcalls : s.calls = [])
    (hplayer : s.isMonster c = false) (halive : death.droppedCorpse = false → 0 < death.health) :
    Inv (State.playerDeath { s with
      dying := s.dying.erase c, calls := [.finishDeath c death.droppedCorpse] } c death order) := by
  have hdies : Inv { s with
      health := Function.update s.health c death.health, dying := s.dying.erase c,
      calls := [.finishDeath c death.droppedCorpse] } := by
    refine h.dies hcalls (fun d hne => Function.update_of_ne hne _ _) (fun hmonster => ?_)
      fun hdropped => ?_
    · rw [hplayer] at hmonster
      cases hmonster
    · rw [Function.update_self]
      exact halive hdropped
  rw [State.playerDeath]
  split
  · exact hdies
  · split
    · exact hdies
    · refine hdies.moveCreature fun call hmem => ?_
      obtain rfl := List.mem_singleton.mp hmem
      rfl

theorem Inv.executeDeath {death : PlayerDeath} (h : Inv s) (hcalls : s.calls = [])
    (halive : s.isPlayer c = true → death.droppedCorpse = false → 0 < death.health) :
    Inv (s.executeDeath c death order) := by
  have hdies : Inv { s with dying := s.dying.erase c, calls := [.finishDeath c true] } :=
    h.dies hcalls (fun _ _ => rfl) (fun _ => ⟨rfl, rfl⟩) (by rintro ⟨⟩)
  rw [State.executeDeath]
  split
  · exact h
  dsimp only
  split
  · refine
      { h with
        targets := fun m hmap hmonster d hd =>
          (h.targets m hmap hmonster d hd).imp rfl (fun _ hmem _ => hmem) fun hm _ hg => ⟨hm, hg⟩
        friends := fun m hmap hmonster d hd =>
          (h.friends m hmap hmonster d hd).imp rfl (fun _ hmem _ => hmem) fun hm _ hg => ⟨hm, hg⟩
        dead := fun d hmap hdead => ?_ }
    next hgone =>
      refine (h.dead d hmap hdead).imp_left fun hdying => (List.mem_erase_of_ne ?_).mpr hdying
      rintro rfl
      exact hgone hmap
  · rw [hcalls]
    split
    · next ignored hkind =>
        refine h.playerDeath hcalls ?_ (halive ?_)
        · rw [World.isMonster, hkind]
          rfl
        · rw [World.isPlayer, hkind]
    · next hkind =>
        exact hdies.monsterDeath (decide_eq_true hkind) (.inl List.mem_cons_self)
    · exact hdies

/-! ## The other operations -/

theorem Inv.putAggressive {aggressive : CreatureId → Bool} (h : Inv s)
    (hrested : ∀ m ∈ s.onMap, s.isMonster m = true → (s.monster m).Rested s.toWorld m →
      (s.monster m).Rested { s.toWorld with aggressive := aggressive } m) :
    Inv { s with aggressive := aggressive } :=
  { h with
    targets := fun m hmap hmonster c hc =>
      (h.targets m hmap hmonster c hc).imp rfl (fun _ hmem _ => hmem) fun hm _ hg => ⟨hm, hg⟩
    friends := fun m hmap hmonster c hc =>
      (h.friends m hmap hmonster c hc).imp rfl (fun _ hmem _ => hmem) fun hm _ hg => ⟨hm, hg⟩
    rested := fun m hmap hmonster =>
      (h.rested m hmap hmonster).imp_right (hrested m hmap hmonster) }

/-- The idle state is set again behind a change of conditions. -/
theorem Inv.condition {aggressive : Bool} (h : Inv s) :
    Inv (s.operate (.condition c aggressive)) := by
  rw [operate]
  split
  · next hmonster =>
      refine h.putAggressive fun m _ hm hrested hremoved hdead hsummon haggressive => ?_
      refine hrested hremoved hdead hsummon ?_
      refine (Function.update_of_ne ?_ _ _).symm.trans haggressive
      rintro rfl
      have hnot : s.isMonster m = false := (Bool.not_eq_true' _).mp hmonster
      rw [hm] at hnot
      cases hnot
  · -- As long as it has an aggressive condition, the monster may be in either state.
    have hawake : Inv { s with aggressive := Function.update s.aggressive c true } := by
      refine h.putAggressive fun m _ _ hrested hremoved hdead hsummon haggressive => ?_
      have hne : m ≠ c := by
        rintro rfl
        have hfalse : true = false := (Function.update_self ..).symm.trans haggressive
        cases hfalse
      exact hrested hremoved hdead hsummon ((Function.update_of_ne hne _ _).symm.trans haggressive)
    have hset : Inv (State.setMonster { s with aggressive := Function.update s.aggressive c true } c
        ((s.monster c).updateIdleStatus { s.toWorld with
          aggressive := Function.update s.aggressive c aggressive } c)) :=
      hawake.setFewer ((h.held c).updateIdleStatus _ _) (Monster.updateIdleStatus_fewer _ _ _)
        fun _ _ => .inr fun _ _ _ haggressive => by
          have hfalse : true = false := (Function.update_self ..).symm.trans haggressive
          cases hfalse
    suffices hput : Inv { State.setMonster { s with
        aggressive := Function.update s.aggressive c true } c
          ((s.monster c).updateIdleStatus { s.toWorld with
            aggressive := Function.update s.aggressive c aggressive } c) with
        aggressive := Function.update s.aggressive c aggressive } from hput
    refine hset.putAggressive fun m _ _ hrested => ?_
    rcases eq_or_ne m c with rfl | hne
    · rw [setMonster_self]
      exact Monster.rested_updateIdleStatus _ _ _
    · intro hremoved hdead hsummon haggressive
      refine hrested hremoved hdead hsummon ?_
      exact (Function.update_of_ne hne _ _).trans
        ((Function.update_of_ne hne _ _).symm.trans haggressive)

theorem Inv.operate {action : Action} (h : Inv s) (hcalls : s.calls = [])
    (hcondition : s.Condition action) : Inv (s.operate action) := by
  cases action with
  | placeCreature c pos order => exact h.placeCreature hcalls hcondition
  | moveCreature c newPos order =>
      refine h.moveCreature fun call hmem => ?_
      rw [hcalls] at hmem
      cases hmem
  | setMaster c newMaster =>
      exact h.setMaster hcondition.1 fun hnone hunoccupied => .inr (hcondition.2 hnone hunoccupied)
  | changeHealth c healthChange => exact h.changeHealth hcondition
  | executeDeath c death order => exact h.executeDeath hcalls hcondition
  | removeCreature c =>
      refine h.recall (fun call hmem => ?_) (fun m d hmem => ?_)
        (fun m d good hlisted => ?_) fun d _ hgo => ?_
      · exact .inr (.inl ⟨c, List.mem_singleton.mp hmem⟩)
      · rw [hcalls] at hmem
        cases hmem
      · rw [hcalls] at hlisted
        obtain ⟨hmap, hsees, hgood⟩ := hlisted.of_quiet (by rintro _ ⟨⟩)
        exact .seen hmap hsees hgood
      · exact absurd (hcalls ▸ hgo) (not_going_nil d)
  | party ev op => exact h.putParties _
  | condition c aggressive => exact h.condition
  | onFollowCreatureComplete m c hasFollowPath =>
      rw [State.operate]
      split
      · exact h
      · exact h.setFewer ((h.held m).onFollowCreatureComplete _ _ _ _)
          (Monster.onFollowCreatureComplete_fewer _ _ _ _ _) fun hmap hmonster =>
            (h.rested m hmap hmonster).imp_right fun hrested =>
              hrested.onFollowCreatureComplete c hasFollowPath
  | think m =>
      rw [State.operate]
      split
      · exact h
      · exact h.setFewer ((h.held m).updateIdleStatus _ _) (Monster.updateIdleStatus_fewer _ _ _)
          fun _ _ => .inr (Monster.rested_updateIdleStatus _ _ _)
  | rest m =>
      rw [State.operate]
      split
      · exact h
      · exact h.setFewer ((h.held m).setIdle _ _ _) (Monster.setIdle_fewer _ _ _ _)
          fun _ _ => .inr (Monster.rested_setIdle _ _ _)
  | next ev order => exact h

theorem Inv.step {action : Action} (h : Inv s) (hcondition : s.Condition action) :
    Inv (s.step action) := by
  have hoperate : Inv (if s.calls = [] then s.operate action else s) := by
    split
    · next hcalls => exact h.operate hcalls hcondition
    · exact h
  cases action with
  | next ev order =>
      rw [State.step]
      split
      · exact h
      · next call calls hcalls => exact h.perform hcalls (hcondition call calls hcalls)
  | _ => exact hoperate

/-! ## Every run -/

/-- When nothing is left to call, the lists are fresh. -/
theorem Inv.lists_fresh (h : Inv s) (hcalls : s.calls = []) : s.Fresh := by
  have hquiet : ∀ call ∈ s.calls, call.listener = none := by
    rw [hcalls]
    rintro _ ⟨⟩
  have hgood : ∀ {m c : CreatureId} {good : Prop}, Listed s.toWorld s.calls m c good →
      s.Good m c ∧ good := by
    intro m c good hlisted
    obtain ⟨hmap, hsees, hgood⟩ := hlisted.of_quiet hquiet
    refine ⟨⟨hmap, h.unremoved c hmap, fun hnot => ?_, hsees⟩, hgood⟩
    by_contra hdead
    rcases h.dead c hmap (Bool.eq_true_of_not_eq_false hdead) with hdying | hgo
    · exact hnot hdying
    · exact absurd (hcalls ▸ hgo) (not_going_nil c)
  refine ⟨fun m hmap hmonster _ c hc => hgood (h.targets m hmap hmonster c hc),
    fun m hmap hmonster _ c hc => (hgood (h.friends m hmap hmonster c hc)).1, h.held,
    fun m hmap hmonster hdead hsummon haggressive hnone => ?_⟩
  by_contra hawake
  rcases h.rested m hmap hmonster with hbusy | hrested
  · exact absurd (hcalls ▸ hbusy) (not_busy_nil m)
  · obtain ⟨c, hc⟩ := List.exists_mem_of_ne_nil _ (hrested (h.unremoved m hmap) hdead hsummon
      haggressive (Bool.eq_false_of_not_eq_true hawake))
    obtain ⟨hentry, hopponent⟩ := hgood (h.targets m hmap hmonster c hc)
    rw [hnone c hentry.onMap hentry.sight] at hopponent
    cases hopponent

/-- The lists are fresh behind every operation of a run in which monsters still count those who
leave, and opponents stay opponents while they are listed. -/
theorem targets_kept_throughout (kind : CreatureId → CreatureKind) (health : CreatureId → Int)
    (actions : List Action) (hc : Throughout step Condition (init kind health) actions) :
    Throughout step Kept (init kind health) actions :=
  throughout_of_inv (fun _ _ h hc => h.step hc)
    (fun _ _ h hc hcalls => (h.step hc).lists_fresh hcalls) (Inv.init kind health) hc

theorem condition_next {ev : Parties.Events} {call : Call} {calls : List Call}
    (hcalls : s.calls = call :: calls) (hexpected : s.Expected call) :
    s.Condition (.next ev order) := by
  intro call' calls' heq
  obtain ⟨rfl, -⟩ := List.cons.inj (hcalls.symm.trans heq)
  exact hexpected

/-- The creature 0 is a player, the others are monsters. -/
def onePlayer : CreatureId → CreatureKind
  | 0 => .player false
  | _ => .monster

/-- A monster and a player meet, and the player is removed. -/
def metPlayer : List Action :=
  let next := .next (Parties.Game.scripts true) []
  [.placeCreature 1 ⟨100, 100, 7⟩ [], next, .placeCreature 0 ⟨101, 100, 7⟩ [], next, next,
    .removeCreature 0, next, next]

theorem targets_kept_throughout_one :
    Throughout step Kept (init onePlayer fun _ => 1) metPlayer := by
  have hremoved : ∀ s : State, s.isOpponent 1 0 = true → (s.monster 1).friendList = [] →
      s.Expected (.onRemoveCreature 1 0) := by
    intro s hopponent hfriends _ _ _
    refine ⟨fun _ => hopponent, fun hmem => ?_⟩
    rw [hfriends] at hmem
    cases hmem
  refine targets_kept_throughout _ _ _ ?_
  refine throughout_cons.mpr ⟨rfl, throughout_cons.mpr ⟨condition_next
    (by decide : _ = [Call.onCreatureAppear 1 1]) trivial, ?_⟩⟩
  refine throughout_cons.mpr ⟨rfl, throughout_cons.mpr ⟨condition_next
    (by decide : _ = [Call.onCreatureAppear 1 0, .onCreatureAppear 0 0]) trivial, ?_⟩⟩
  refine throughout_cons.mpr ⟨condition_next
    (by decide : _ = [Call.onCreatureAppear 0 0]) trivial, ?_⟩
  refine throughout_cons.mpr ⟨trivial, throughout_cons.mpr ⟨condition_next
    (by decide : _ = [Call.removeCreature 0]) trivial, ?_⟩⟩
  refine throughout_cons.mpr ⟨condition_next
    (by decide : _ = [Call.onRemoveCreature 1 0, .onRemoveCreature 0 0, .setRemoved 0])
    (hremoved _ (by decide) (by decide)), ?_⟩
  exact throughout_nil

/-- A monster meets a player's summon, and is told of its removal after the summon itself. -/
def metSummon : List Action :=
  let next := .next (Parties.Game.scripts true) [2, 1]
  [.placeCreature 0 ⟨200, 200, 7⟩ [], next, .placeCreature 1 ⟨100, 100, 7⟩ [], next,
    .setMaster 2 (some 0), .placeCreature 2 ⟨101, 100, 7⟩ [], next, next,
    .removeCreature 2, next, next, next]

/-- The monster keeps the removed summon as its target, and does not go to sleep. -/
theorem summon_stays :
    ¬ ∀ (kind : CreatureId → CreatureKind) (health : CreatureId → Int) (actions : List Action),
      Throughout step Kept (init kind health) actions := by
  intro hall
  have hkept := hall onePlayer (fun _ => 1) (metSummon ++ [.next (Parties.Game.scripts true) []])
    metSummon (.next (Parties.Game.scripts true) []) [] rfl
  have hfresh := hkept (by decide)
  have hentry := (hfresh.targets 1 (by decide) (by decide) (by decide) 2 (by decide)).1
  exact absurd hentry.onMap (by decide)

end Bruxo.Targets.State
