import Bruxo.Party

/-!
# Who points to a party belongs to it

Half of what players and parties say of each other needs no condition: whatever the scripts answer,
a party that a player points to exists and holds the player. That is enough for whoever, like the
chat, finds a party through the player.
-/

namespace Bruxo.Parties.Game

structure Pointed (g : Game) : Prop where
  held : ∀ x P, (g.player x).party = some P → ∃ party, g.party P = some party ∧ party.Holds x
  fresh : ∀ P, g.nextParty ≤ P → g.party P = none

/-- An operation that neither logs a player in nor out. -/
structure Kept (g g' : Game) : Prop where
  players : g'.players = g.players
  pointed : g.Pointed → g'.Pointed

section Kept

variable {ev : Events} {g g' g'' : Game} {x y : PlayerId} {P : PartyId} {party party' : Party}

theorem Kept.refl (g : Game) : Kept g g := ⟨rfl, id⟩

theorem Kept.trans (h : Kept g g') (h' : Kept g' g'') : Kept g g'' :=
  ⟨h'.players.trans h.players, fun hg => h'.pointed (h.pointed hg)⟩

theorem Pointed.lt_nextParty (h : g.Pointed) (hP : g.party P = some party) : P < g.nextParty := by
  by_contra hlt
  rw [h.fresh P (Nat.le_of_not_lt hlt)] at hP
  cases hP

theorem init_pointed : init.Pointed := ⟨fun _ _ h => (by cases h), fun _ _ => rfl⟩

/-! ## The edits -/

theorem setInvitations_kept (g : Game) (x : PlayerId) (l : List PartyId) :
    Kept g (g.setInvitations x l) := by
  refine ⟨rfl, fun h => ⟨fun y P hy => ?_, h.fresh⟩⟩
  rw [setInvitations_pointer] at hy
  exact h.held y P hy

theorem addPartyInvitation_kept (g : Game) (x : PlayerId) (P : PartyId) :
    Kept g (g.addPartyInvitation x P) := by
  rw [addPartyInvitation]
  split
  · exact .refl g
  · exact setInvitations_kept g x _

theorem store_kept (hP : g.party P = some party) (hholds : ∀ x, party.Holds x → party'.Holds x) :
    Kept g (g.store P party') := by
  refine ⟨rfl, fun h => ⟨fun y Q hy => ?_, fun Q hQ => ?_⟩⟩
  · obtain ⟨old, hold, hin⟩ := h.held y Q hy
    rcases eq_or_ne Q P with rfl | hne
    · obtain rfl : old = party := Option.some.inj (hold.symm.trans hP)
      exact ⟨party', Function.update_self .., hholds y hin⟩
    · exact ⟨old, (Function.update_of_ne hne ..).trans hold, hin⟩
  · have hne : Q ≠ P := Nat.ne_of_gt (Nat.lt_of_lt_of_le (h.lt_nextParty hP) hQ)
    exact (Function.update_of_ne hne ..).trans (h.fresh Q hQ)

/-- A party lets one player go. -/
theorem store_setParty_kept (hP : g.party P = some party)
    (hholds : ∀ y, y ≠ x → party.Holds y → party'.Holds y) :
    Kept g ((g.store P party').setParty x none) := by
  refine ⟨rfl, fun h => ⟨fun y Q hy => ?_, fun Q hQ => ?_⟩⟩
  · rw [setParty_pointer] at hy
    split at hy
    · cases hy
    · next hne =>
        obtain ⟨old, hold, hin⟩ := h.held y Q hy
        rcases eq_or_ne Q P with rfl | hQ
        · obtain rfl : old = party := Option.some.inj (hold.symm.trans hP)
          exact ⟨party', Function.update_self .., hholds y hne hin⟩
        · exact ⟨old, (Function.update_of_ne hQ ..).trans hold, hin⟩
  · have hne : Q ≠ P := Nat.ne_of_gt (Nat.lt_of_lt_of_le (h.lt_nextParty hP) hQ)
    exact (Function.update_of_ne hne ..).trans (h.fresh Q hQ)

/-- A player who is put into a party belongs to it. -/
theorem setParty_kept (hP : g.party P = some party) (hx : party.Holds x) :
    Kept g (g.setParty x (some P)) := by
  refine ⟨rfl, fun h => ⟨fun y Q hy => ?_, h.fresh⟩⟩
  rw [setParty_pointer] at hy
  split at hy
  · next heq =>
      obtain rfl := Option.some.inj hy
      exact ⟨party, hP, heq ▸ hx⟩
  · exact h.held y Q hy

theorem newParty_kept (g : Game) (x : PlayerId) : Kept g (g.newParty x).1 := by
  refine ⟨rfl, fun h => ⟨fun y Q hy => ?_, fun Q hQ => ?_⟩⟩
  · rw [newParty] at hy ⊢
    dsimp only at hy ⊢
    rw [setParty_pointer] at hy
    split at hy
    · next heq =>
        obtain rfl := Option.some.inj hy
        exact ⟨_, Function.update_self .., .inl heq.symm⟩
    · obtain ⟨party, hparty, hy⟩ := h.held y Q hy
      have hne : Q ≠ g.nextParty := Nat.ne_of_lt (h.lt_nextParty hparty)
      exact ⟨party, (Function.update_of_ne hne ..).trans hparty, hy⟩
  · have hle : g.nextParty + 1 ≤ Q := hQ
    have hne : Q ≠ g.nextParty := Nat.ne_of_gt hle
    exact (Function.update_of_ne hne ..).trans (h.fresh Q (Nat.le_of_succ_le hle))

/-- A party ends whose every player is let go. -/
theorem delete_kept (hP : g.party P = some party)
    (hnone : ∀ x, party.Holds x → (g'.player x).party = none)
    (hsome : ∀ x Q, (g'.player x).party = some Q → (g.player x).party = some Q)
    (hparty : g'.party = Function.update g.party P none) (hplayers : g'.players = g.players)
    (hnext : g'.nextParty = g.nextParty) : Kept g g' := by
  refine ⟨hplayers, fun h => ⟨fun y Q hy => ?_, fun Q hQ => ?_⟩⟩
  · obtain ⟨old, hold, hholds⟩ := h.held y Q (hsome y Q hy)
    have hne : Q ≠ P := by
      rintro rfl
      obtain rfl : old = party := Option.some.inj (hold.symm.trans hP)
      rw [hnone y hholds] at hy
      cases hy
    exact ⟨old, by rw [hparty, Function.update_of_ne hne, hold], hholds⟩
  · rw [hnext] at hQ
    rw [hparty, Function.update_apply]
    split
    · rfl
    · exact h.fresh Q hQ

/-! ## The operations -/

theorem disband_kept (ev : Events) (g : Game) (P : PartyId) : Kept g (g.disband ev P) := by
  cases hP : g.party P with
  | none =>
      rw [disband, hP]
      exact .refl g
  | some party =>
      cases hev : ev.onDisband P with
      | false =>
          simp only [disband, hP, hev, Bool.not_false, if_true]
          exact .refl g
      | true =>
          obtain ⟨hparty, hpointer, _, hplayers, _, hnext⟩ := disband_apply hP hev
          refine delete_kept hP (fun y hy => ?_) (fun y Q hy => ?_) hparty hplayers hnext
          · rw [hpointer y]
            exact if_pos hy
          · rw [hpointer y] at hy
            split at hy
            · cases hy
            · exact hy

theorem passPartyLeadership_kept (ev : Events) (g : Game) (P : PartyId) (x : PlayerId)
    (force : Bool) : Kept g (g.passPartyLeadership ev P x force).1 := by
  rw [passPartyLeadership]
  split
  · exact .refl g
  · next party hP =>
      split
      · exact .refl g
      · split
        · exact .refl g
        · refine store_kept hP fun y hy => ?_
          rcases hy with hy | hy
          · exact .inr (by rw [hy]; exact List.mem_cons_self)
          · rcases eq_or_ne x y with heq | hne
            · exact .inl heq
            · exact .inr (List.mem_cons_of_mem _ ((List.mem_erase_of_ne hne.symm).mpr hy))

theorem leaveParty_kept (ev : Events) (g : Game) (P : PartyId) (x : PlayerId) (force : Bool) :
    Kept g (g.leaveParty ev P x force).1 := by
  rw [leaveParty]
  split
  · exact .refl g
  · next party hP =>
      split
      · exact .refl g
      · split
        · exact .refl g
        · -- The leadership passes first, if it does.
          extract_lets +lift missingLeader passed
          have hpass : Kept g passed := by
            unfold passed
            split
            · split
              · exact .refl g
              · exact passPartyLeadership_kept ev g P _ true
            · exact .refl g
          clear_value passed
          dsimp only
          split
          · exact hpass
          · next party' hP' =>
              have hgone : Kept passed ((passed.store P
                  { party' with memberList := party'.memberList.erase x }).setParty x none) := by
                refine store_setParty_kept hP' fun y hne hy => ?_
                rcases hy with hy | hy
                · exact .inl hy
                · exact .inr ((List.mem_erase_of_ne hne).mpr hy)
              split
              · exact (hpass.trans hgone).trans (disband_kept ev _ P)
              · exact hpass.trans hgone

theorem joinParty_kept (ev : Events) (g : Game) (P : PartyId) (x : PlayerId) :
    Kept g (g.joinParty ev P x).1 := by
  rw [joinParty]
  split
  · exact .refl g
  · next party hP =>
      split
      · exact .refl g
      · split
        · exact .refl g
        · have hstore : Kept g (g.store P { party with
              inviteList := party.inviteList.erase x
              memberList := party.memberList ++ [x] }) := by
            refine store_kept hP fun y hy => ?_
            rcases hy with hy | hy
            · exact .inl hy
            · exact .inr (List.mem_append_left _ hy)
          refine (hstore.trans (setParty_kept (Function.update_self ..) ?_)).trans
            (setInvitations_kept _ x _)
          exact .inr (List.mem_append_right _ List.mem_cons_self)

theorem removeInvite_kept (ev : Events) (g : Game) (P : PartyId) (x : PlayerId) (b : Bool) :
    Kept g (g.removeInvite ev P x b).1 := by
  rw [removeInvite]
  split
  · exact .refl g
  · next party hP =>
      split
      · exact .refl g
      · have hstore : Kept g (g.store P { party with inviteList := party.inviteList.erase x }) :=
          store_kept hP fun y hy => hy
        have hremove : Kept g (if b then
            (g.store P { party with inviteList := party.inviteList.erase x }).removePartyInvitation
              x P
            else g.store P { party with inviteList := party.inviteList.erase x }) := by
          split
          · exact hstore.trans (setInvitations_kept _ x _)
          · exact hstore
        dsimp only
        split
        · exact hremove.trans (disband_kept ev _ P)
        · exact hremove

theorem revokeInvitation_kept (ev : Events) (g : Game) (P : PartyId) (x : PlayerId) :
    Kept g (g.revokeInvitation ev P x) := by
  rw [revokeInvitation]
  split
  · exact .refl g
  · exact removeInvite_kept ev g P x true

theorem invitePlayer_kept (g : Game) (P : PartyId) (x : PlayerId) :
    Kept g (g.invitePlayer P x).1 := by
  rw [invitePlayer]
  split
  · exact .refl g
  · next party hP =>
      split
      · exact .refl g
      · have hstore : Kept g
            (g.store P { party with inviteList := party.inviteList ++ [x] }) :=
          store_kept hP fun y hy => hy
        exact hstore.trans (addPartyInvitation_kept _ x P)

theorem partyCreate_kept (g : Game) (x : PlayerId) : Kept g (g.partyCreate x) := by
  rw [partyCreate]
  split
  · exact .refl g
  · split
    · exact .refl g
    · exact newParty_kept g x

/-- The party that the scripts do not let grow ends with its leader. -/
theorem setParty_delete_kept (hP : g.party P = some party) (hempty : party.empty = true) :
    Kept g ((g.setParty party.leader none).delete P) := by
  refine delete_kept hP (fun y hy => ?_) (fun y Q hy => ?_) rfl rfl rfl
  · have hnil : party.memberList = [] := by
      simp only [Party.empty, Bool.and_eq_true, List.isEmpty_iff] at hempty
      exact hempty.1
    have hleader : y = party.leader := by
      rcases hy with hy | hy
      · exact hy.symm
      · rw [hnil] at hy
        cases hy
    rw [delete_player, setParty_pointer, if_pos hleader]
  · rw [delete_player, setParty_pointer] at hy
    split at hy
    · cases hy
    · exact hy

/-- The leader's own part of an invitation, once there is a party. -/
theorem invite_kept (ev : Events) (hnew : Kept g g') (P : PartyId) (x y : PlayerId) :
    Kept g (match g'.party P with
      | none => g'
      | some party =>
          if party.leader ≠ x then g'
          else if !ev.onInvite P y then
            if party.empty then (g'.setParty x none).delete P else g'
          else (g'.invitePlayer P y).1) := by
  split
  · exact hnew
  · next party hP =>
      split
      · exact hnew
      · next hleader =>
          rw [ne_eq, not_not] at hleader
          split
          · split
            · next hempty =>
                rw [← hleader]
                exact hnew.trans (setParty_delete_kept hP hempty)
            · exact hnew
          · exact hnew.trans (invitePlayer_kept g' P y)

theorem playerInviteToParty_kept (ev : Events) (g : Game) (x y : PlayerId) :
    Kept g (g.playerInviteToParty ev x y) := by
  rw [playerInviteToParty]
  split
  · exact .refl g
  · split
    · exact .refl g
    · split
      · exact .refl g
      · split
        · exact .refl g
        · cases hp : (g.player x).party with
          | none => exact invite_kept ev (newParty_kept g x) _ x y
          | some P => exact invite_kept ev (.refl g) P x y

theorem clearPartyInvitations_kept (ev : Events) (g : Game) (x : PlayerId) :
    Kept g (g.clearPartyInvitations ev x) := by
  have hfold : ∀ (l : List PartyId) (g : Game),
      Kept g (l.foldl (fun g P => (g.removeInvite ev P x false).1) g) := by
    intro l
    induction l with
    | nil => exact fun g => .refl g
    | cons P l ih => exact fun g => (removeInvite_kept ev g P x false).trans (ih _)
  exact (hfold _ g).trans (setInvitations_kept _ x [])

theorem playerJoinParty_kept (ev : Events) (g : Game) (x y : PlayerId) :
    Kept g (g.playerJoinParty ev x y) := by
  simp only [playerJoinParty]
  repeat' split
  any_goals exact .refl g
  exact joinParty_kept ev g _ x

theorem playerRevokePartyInvitation_kept (ev : Events) (g : Game) (x y : PlayerId) :
    Kept g (g.playerRevokePartyInvitation ev x y) := by
  simp only [playerRevokePartyInvitation]
  repeat' split
  any_goals exact .refl g
  exact revokeInvitation_kept ev g _ y

theorem playerPassPartyLeadership_kept (ev : Events) (g : Game) (x y : PlayerId) :
    Kept g (g.playerPassPartyLeadership ev x y) := by
  simp only [playerPassPartyLeadership]
  repeat' split
  any_goals exact .refl g
  exact passPartyLeadership_kept ev g _ y false

theorem playerLeaveParty_kept (ev : Events) (g : Game) (x : PlayerId) (inFight : Bool) :
    Kept g (g.playerLeaveParty ev x inFight) := by
  simp only [playerLeaveParty]
  repeat' split
  any_goals exact .refl g
  exact leaveParty_kept ev g _ x false

/-- Who logs out goes through the same operations first. -/
theorem logout_pointed (ev : Events) {g : Game} (h : g.Pointed) (x : PlayerId) :
    (g.logout ev x).Pointed := by
  rw [logout]
  split
  · exact h
  · have hclear := (clearPartyInvitations_kept ev g x).pointed h
    dsimp only
    split
    · exact ⟨hclear.held, hclear.fresh⟩
    · next P _ =>
        have hleave := (leaveParty_kept ev _ P x true).pointed hclear
        exact ⟨hleave.held, hleave.fresh⟩

theorem logout_players (ev : Events) (g : Game) (x : PlayerId) :
    (g.logout ev x).players = Function.update g.players x false := by
  rw [logout]
  split
  · next hoff =>
      rw [Bool.not_eq_true'] at hoff
      exact (Function.update_eq_self_iff.mpr hoff.symm).symm
  · have hclear := (clearPartyInvitations_kept ev g x).players
    dsimp only
    split
    · rw [hclear]
    · next P _ => rw [(leaveParty_kept ev _ P x true).players, hclear]

theorem login_pointed {g : Game} (h : g.Pointed) : g.login.Pointed := by
  refine ⟨fun y P hy => ?_, h.fresh⟩
  rw [login] at hy
  dsimp only at hy
  rw [Function.update_apply] at hy
  split at hy
  · cases hy
  · exact h.held y P hy

theorem step_pointed (ev : Events) {g : Game} (h : g.Pointed) (op : Op) :
    (g.step ev op).Pointed := by
  cases op with
  | login => exact login_pointed h
  | create x => exact (partyCreate_kept g x).pointed h
  | invite x y => exact (playerInviteToParty_kept ev g x y).pointed h
  | revoke x y => exact (playerRevokePartyInvitation_kept ev g x y).pointed h
  | join x y => exact (playerJoinParty_kept ev g x y).pointed h
  | leave x inFight => exact (playerLeaveParty_kept ev g x inFight).pointed h
  | pass x y => exact (playerPassPartyLeadership_kept ev g x y).pointed h
  | disband P => exact (disband_kept ev g P).pointed h
  | logout x => exact logout_pointed ev h x

/-- Only a logout takes a player out of the game. -/
theorem step_players (ev : Events) (g : Game) (op : Op) {x : PlayerId} (hx : g.players x = true)
    (hop : op ≠ .logout x) : (g.step ev op).players x = true := by
  cases op with
  | login =>
      rw [step, login]
      dsimp only
      rw [Function.update_apply]
      split
      · rfl
      · exact hx
  | create y => exact (congrFun (partyCreate_kept g y).players x).trans hx
  | invite y z => exact (congrFun (playerInviteToParty_kept ev g y z).players x).trans hx
  | revoke y z => exact (congrFun (playerRevokePartyInvitation_kept ev g y z).players x).trans hx
  | join y z => exact (congrFun (playerJoinParty_kept ev g y z).players x).trans hx
  | leave y inFight => exact (congrFun (playerLeaveParty_kept ev g y inFight).players x).trans hx
  | pass y z => exact (congrFun (playerPassPartyLeadership_kept ev g y z).players x).trans hx
  | disband P => exact (congrFun (disband_kept ev g P).players x).trans hx
  | logout y =>
      have hne : x ≠ y := fun heq => hop (by rw [heq])
      rw [step, logout_players, Function.update_of_ne hne]
      exact hx

end Kept

end Bruxo.Parties.Game
