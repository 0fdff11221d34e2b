import Mathlib.Data.List.Nodup
import Mathlib.Logic.Function.Basic

/-!
# Parties

`Party` and what `Game` and `Player` do with it (`party.cpp`, `game.cpp`, `player.cpp`,
`luaparty.cpp`). A player points to its party and keeps a list of the parties that invite
it; a party points to its leader and keeps the lists of its members and of the players it
invites. Every operation edits several of these one after the other, and scripts may veto
it in between.

Left out are the messages, the icons and the shared experience, which read the lists only.
-/

namespace Bruxo.Parties

/-! ## Players, parties and scripts -/

abbrev PlayerId := Nat

abbrev PartyId := Nat

structure Player where
  party : Option PartyId := none
  invitePartyList : List PartyId := []
  deriving DecidableEq

structure Party where
  leader : PlayerId
  memberList : List PlayerId := []
  inviteList : List PlayerId := []
  deriving DecidableEq

namespace Party

def empty (party : Party) : Bool :=
  party.memberList.isEmpty && party.inviteList.isEmpty

def isPlayerInvited (party : Party) (player : PlayerId) : Bool :=
  party.inviteList.contains player

/-- The local variable of `leaveParty`: the leader goes and nobody is left to lead. -/
def missingLeader (party : Party) (player : PlayerId) : Bool :=
  party.leader == player && (party.memberList.isEmpty ||
    (party.memberList.length == 1 && party.inviteList.isEmpty))

end Party

/-- What the scripts of `Events` answer during one operation. -/
structure Events where
  onJoin : PartyId → PlayerId → Bool
  onLeave : PartyId → PlayerId → Bool
  onDisband : PartyId → Bool
  onInvite : PartyId → PlayerId → Bool
  onRevokeInvitation : PartyId → PlayerId → Bool
  onPassLeadership : PartyId → PlayerId → Bool

/-- `players` tells whom `getPlayerByID` finds; `party` is `none` where nothing was
allocated yet and after a `delete`. -/
structure Game where
  player : PlayerId → Player
  players : PlayerId → Bool
  playerAutoID : PlayerId
  party : PartyId → Option Party
  nextParty : PartyId

namespace Game

def init : Game :=
  { player := fun _ => {}, players := fun _ => false, playerAutoID := 0,
    party := fun _ => none, nextParty := 0 }

def setParty (g : Game) (player : PlayerId) (party : Option PartyId) : Game :=
  { g with player := Function.update g.player player { g.player player with party := party } }

def setInvitations (g : Game) (player : PlayerId) (l : List PartyId) : Game :=
  { g with
    player := Function.update g.player player { g.player player with invitePartyList := l } }

def addPartyInvitation (g : Game) (player : PlayerId) (P : PartyId) : Game :=
  if P ∈ (g.player player).invitePartyList then g
  else g.setInvitations player (P :: (g.player player).invitePartyList)

/-- `std::forward_list::remove` -/
def removePartyInvitation (g : Game) (player : PlayerId) (P : PartyId) : Game :=
  g.setInvitations player ((g.player player).invitePartyList.filter (· ≠ P))

/-- What the party says of itself from now on. -/
def store (g : Game) (P : PartyId) (party : Party) : Game :=
  { g with party := Function.update g.party P (some party) }

/-- `delete this` -/
def delete (g : Game) (P : PartyId) : Game :=
  { g with party := Function.update g.party P none }

/-- `new Party(leader)` -/
def newParty (g : Game) (leader : PlayerId) : Game × PartyId :=
  (({ g with nextParty := g.nextParty + 1 }.store g.nextParty { leader := leader }).setParty
    leader (some g.nextParty), g.nextParty)

/-! ## The operations of `Party`

Where the party has been deleted the operation is not defined in the source; here nothing
happens. In the states that the invariant below describes nobody points to such a party. -/

def disband (ev : Events) (g : Game) (P : PartyId) : Game :=
  match g.party P with
  | none => g
  | some party =>
      if !ev.onDisband P then g
      else
        let g := g.setParty party.leader none
        let g := party.inviteList.foldl (fun g invitee => g.removePartyInvitation invitee P) g
        let g := party.memberList.foldl (fun g member => g.setParty member none) g
        g.delete P

def passPartyLeadership (ev : Events) (g : Game) (P : PartyId) (player : PlayerId)
    (forceRemove : Bool) : Game × Bool :=
  match g.party P with
  | none => (g, false)
  | some party =>
      if party.leader = player ∨ (g.player player).party ≠ some P then (g, false)
      else if !ev.onPassLeadership P player && !forceRemove then (g, false)
      else
        (g.store P
          { party with
            leader := player
            memberList := party.leader :: party.memberList.erase player }, true)

def leaveParty (ev : Events) (g : Game) (P : PartyId) (player : PlayerId)
    (forceRemove : Bool) : Game × Bool :=
  match g.party P with
  | none => (g, false)
  | some party =>
      if (g.player player).party ≠ some P ∧ party.leader ≠ player then (g, false)
      else if !forceRemove && !ev.onLeave P player then (g, false)
      else
        let missingLeader := party.missingLeader player
        let g :=
          if party.leader = player ∧ !missingLeader then
            match party.memberList with
            | [] => g
            | front :: _ => (g.passPartyLeadership ev P front true).1
          else g
        match g.party P with
        | none => (g, true)
        | some party =>
            let party := { party with memberList := party.memberList.erase player }
            let g := (g.store P party).setParty player none
            (if missingLeader || party.empty then g.disband ev P else g, true)

def joinParty (ev : Events) (g : Game) (P : PartyId) (player : PlayerId) : Game × Bool :=
  match g.party P with
  | none => (g, false)
  | some party =>
      if !ev.onJoin P player then (g, false)
      else if !party.isPlayerInvited player then (g, false)
      else
        let g := g.store P
          { party with
            inviteList := party.inviteList.erase player
            memberList := party.memberList ++ [player] }
        ((g.setParty player (some P)).removePartyInvitation player P, true)

def removeInvite (ev : Events) (g : Game) (P : PartyId) (player : PlayerId)
    (removeFromPlayer : Bool) : Game × Bool :=
  match g.party P with
  | none => (g, false)
  | some party =>
      if !party.isPlayerInvited player then (g, false)
      else
        let party := { party with inviteList := party.inviteList.erase player }
        let g := g.store P party
        let g := if removeFromPlayer then g.removePartyInvitation player P else g
        (if party.empty then g.disband ev P else g, true)

def revokeInvitation (ev : Events) (g : Game) (P : PartyId) (player : PlayerId) : Game :=
  if !ev.onRevokeInvitation P player then g else (g.removeInvite ev P player true).1

def invitePlayer (g : Game) (P : PartyId) (player : PlayerId) : Game × Bool :=
  match g.party P with
  | none => (g, false)
  | some party =>
      if party.isPlayerInvited player then (g, false)
      else
        ((g.store P { party with inviteList := party.inviteList ++ [player] }).addPartyInvitation
          player P, true)

/-! ## What players and scripts ask for -/

/-- `Player::isInviting` -/
def isInviting (g : Game) (player other : PlayerId) : Bool :=
  match (g.player player).party.bind g.party with
  | none => false
  | some party => party.leader == player && party.isPlayerInvited other

/-- `Player::isPartner` -/
def isPartner (g : Game) (player other : PlayerId) : Bool :=
  (g.player player).party.isSome && other != player &&
    (g.player player).party == (g.player other).party

/-- `Party(player)` of the scripts -/
def partyCreate (g : Game) (player : PlayerId) : Game :=
  if !g.players player then g
  else if (g.player player).party.isSome then g
  else (g.newParty player).1

def playerInviteToParty (ev : Events) (g : Game) (playerId invitedId : PlayerId) : Game :=
  if playerId = invitedId then g
  else if !g.players playerId then g
  else if !g.players invitedId || g.isInviting invitedId playerId then g
  else if (g.player invitedId).party.isSome then g
  else
    let (g, P) :=
      match (g.player playerId).party with
      | none => g.newParty playerId
      | some P => (g, P)
    match g.party P with
    | none => g
    | some party =>
        if party.leader ≠ playerId then g
        else if !ev.onInvite P invitedId then
          if party.empty then (g.setParty playerId none).delete P else g
        else (g.invitePlayer P invitedId).1

def playerJoinParty (ev : Events) (g : Game) (playerId leaderId : PlayerId) : Game :=
  if !g.players playerId then g
  else if !g.players leaderId || !g.isInviting leaderId playerId then g
  else
    match (g.player leaderId).party with
    | none => g
    | some P =>
        if (g.party P).map Party.leader ≠ some leaderId then g
        else if (g.player playerId).party.isSome then g
        else (g.joinParty ev P playerId).1

def playerRevokePartyInvitation (ev : Events) (g : Game) (playerId invitedId : PlayerId) : Game :=
  if !g.players playerId then g
  else
    match (g.player playerId).party with
    | none => g
    | some P =>
        if (g.party P).map Party.leader ≠ some playerId then g
        else if !g.players invitedId || !g.isInviting playerId invitedId then g
        else g.revokeInvitation ev P invitedId

def playerPassPartyLeadership (ev : Events) (g : Game) (playerId newLeaderId : PlayerId) : Game :=
  if !g.players playerId then g
  else
    match (g.player playerId).party with
    | none => g
    | some P =>
        if (g.party P).map Party.leader ≠ some playerId then g
        else if !g.players newLeaderId || !g.isPartner playerId newLeaderId then g
        else (g.passPartyLeadership ev P newLeaderId false).1

/-- `inFight` is the player's condition `CONDITION_INFIGHT`. -/
def playerLeaveParty (ev : Events) (g : Game) (playerId : PlayerId) (inFight : Bool) : Game :=
  if !g.players playerId then g
  else
    match (g.player playerId).party with
    | none => g
    | some P => if inFight then g else (g.leaveParty ev P playerId false).1

/-- The loop of `clearPartyInvitations` runs over the list as it stands: a party that
`removeInvite` disbands invites nobody any more. -/
def clearPartyInvitations (ev : Events) (g : Game) (player : PlayerId) : Game :=
  ((g.player player).invitePartyList.foldl
    (fun g P => (g.removeInvite ev P player false).1) g).setInvitations player []

/-- The part of `Player::onRemoveCreature` about parties, and `Player::removeList`. -/
def logout (ev : Events) (g : Game) (player : PlayerId) : Game :=
  if !g.players player then g
  else
    let g := g.clearPartyInvitations ev player
    let g :=
      match (g.player player).party with
      | none => g
      | some P => (g.leaveParty ev P player true).1
    { g with players := Function.update g.players player false }

/-- A new `Player` with the next id. -/
def login (g : Game) : Game :=
  { g with
    player := Function.update g.player g.playerAutoID {}
    players := Function.update g.players g.playerAutoID true
    playerAutoID := g.playerAutoID + 1 }

inductive Op where
  | login
  | create (player : PlayerId)
  | invite (playerId invitedId : PlayerId)
  | revoke (playerId invitedId : PlayerId)
  | join (playerId leaderId : PlayerId)
  | leave (playerId : PlayerId) (inFight : Bool)
  | pass (playerId newLeaderId : PlayerId)
  | disband (P : PartyId)
  | logout (player : PlayerId)

def step (ev : Events) (g : Game) : Op → Game
  | .login => g.login
  | .create player => g.partyCreate player
  | .invite playerId invitedId => g.playerInviteToParty ev playerId invitedId
  | .revoke playerId invitedId => g.playerRevokePartyInvitation ev playerId invitedId
  | .join playerId leaderId => g.playerJoinParty ev playerId leaderId
  | .leave playerId inFight => g.playerLeaveParty ev playerId inFight
  | .pass playerId newLeaderId => g.playerPassPartyLeadership ev playerId newLeaderId
  | .disband P => g.disband ev P
  | .logout player => g.logout ev player

/-! ## Reading a game after a write -/

section Reading

variable {g : Game} {x y : PlayerId} {P : PartyId} {q : Option PartyId} {l : List PartyId}
  {party : Party}

@[simp] theorem setParty_party : (g.setParty x q).party = g.party := rfl

@[simp] theorem setInvitations_party : (g.setInvitations x l).party = g.party := rfl

@[simp] theorem setParty_pointer :
    ((g.setParty x q).player y).party = if y = x then q else (g.player y).party := by
  simp only [setParty, Function.update_apply]
  split <;> rfl

@[simp] theorem setParty_invitations :
    ((g.setParty x q).player y).invitePartyList = (g.player y).invitePartyList := by
  simp only [setParty, Function.update_apply]
  split
  · next h => rw [h]
  · rfl

@[simp] theorem setInvitations_pointer :
    ((g.setInvitations x l).player y).party = (g.player y).party := by
  simp only [setInvitations, Function.update_apply]
  split
  · next h => rw [h]
  · rfl

@[simp] theorem setInvitations_invitations :
    ((g.setInvitations x l).player y).invitePartyList =
      if y = x then l else (g.player y).invitePartyList := by
  simp only [setInvitations, Function.update_apply]
  split <;> rfl

@[simp] theorem store_player : (g.store P party).player = g.player := rfl

@[simp] theorem delete_player : (g.delete P).player = g.player := rfl

theorem foldl_setParty (l : List PlayerId) :
    l.foldl (fun g member => g.setParty member none) g =
      { g with
        player := fun y =>
          if y ∈ l then { g.player y with party := none } else g.player y } := by
  induction l generalizing g with
  | nil => rfl
  | cons member l ih =>
      rw [List.foldl_cons, ih]
      congr 1
      funext y
      simp only [setParty, Function.update_apply, List.mem_cons]
      by_cases hy : y = member <;> by_cases hl : y ∈ l <;> simp [hy, hl]

theorem foldl_removePartyInvitation (l : List PlayerId) :
    l.foldl (fun g invitee => g.removePartyInvitation invitee P) g =
      { g with
        player := fun y =>
          if y ∈ l then
            { g.player y with invitePartyList := (g.player y).invitePartyList.filter (· ≠ P) }
          else g.player y } := by
  induction l generalizing g with
  | nil => rfl
  | cons invitee l ih =>
      rw [List.foldl_cons, ih]
      congr 1
      funext y
      simp only [removePartyInvitation, setInvitations, Function.update_apply, List.mem_cons]
      by_cases hy : y = invitee <;> by_cases hl : y ∈ l <;> simp [hy, hl]

end Reading

/-! ## The invariant -/

end Game

/-- The lists of one party. -/
structure Party.Valid (party : Party) : Prop where
  leader_not_member : party.leader ∉ party.memberList
  leader_not_invited : party.leader ∉ party.inviteList
  members_nodup : party.memberList.Nodup
  invited_nodup : party.inviteList.Nodup
  invited_not_member : ∀ x ∈ party.inviteList, x ∉ party.memberList

def Party.Holds (party : Party) (player : PlayerId) : Prop :=
  party.leader = player ∨ player ∈ party.memberList

namespace Game

/-- What players and parties say of each other agrees. -/
structure Consistent (g : Game) : Prop where
  valid : ∀ P party, g.party P = some party → party.Valid
  pointer : ∀ x P, (g.player x).party = some P ↔
    ∃ party, g.party P = some party ∧ party.Holds x
  invited : ∀ x P, P ∈ (g.player x).invitePartyList ↔
    ∃ party, g.party P = some party ∧ x ∈ party.inviteList
  invitations_nodup : ∀ x, (g.player x).invitePartyList.Nodup

/-- Moreover who is not in the game belongs nowhere, and ids are used once. -/
structure Inv (g : Game) : Prop extends Consistent g where
  offline : ∀ x, g.players x = false →
    (g.player x).party = none ∧ (g.player x).invitePartyList = []
  autoID : ∀ x, g.playerAutoID ≤ x → g.players x = false
  fresh : ∀ P, g.nextParty ≤ P → g.party P = none

/-- `g'` is `g` after all that the game says of party `P` was brought in line with `q`. -/
structure Edit (g : Game) (P : PartyId) (q : Option Party) (g' : Game) : Prop where
  party : g'.party = Function.update g.party P q
  valid : ∀ party, q = some party → party.Valid
  pointer : ∀ x, (g'.player x).party = some P ↔ ∃ party, q = some party ∧ party.Holds x
  pointer_ne : ∀ x Q, Q ≠ P → ((g'.player x).party = some Q ↔ (g.player x).party = some Q)
  invited : ∀ x, P ∈ (g'.player x).invitePartyList ↔
    ∃ party, q = some party ∧ x ∈ party.inviteList
  invited_ne : ∀ x Q, Q ≠ P →
    (Q ∈ (g'.player x).invitePartyList ↔ Q ∈ (g.player x).invitePartyList)
  invitations_nodup : ∀ x, (g'.player x).invitePartyList.Nodup
  online : ∀ party x, q = some party → party.Holds x ∨ x ∈ party.inviteList →
    g.players x = true
  players : g'.players = g.players
  autoID : g'.playerAutoID = g.playerAutoID
  nextParty : P < g'.nextParty ∧ g.nextParty ≤ g'.nextParty

theorem init_inv : init.Inv where
  valid := fun _ _ h => by cases h
  pointer := fun _ _ => ⟨nofun, nofun⟩
  invited := fun _ _ => ⟨nofun, nofun⟩
  invitations_nodup := fun _ => List.nodup_nil
  offline := fun _ _ => ⟨rfl, rfl⟩
  autoID := fun _ _ => rfl
  fresh := fun _ _ => rfl

section Preserved

variable {ev : Events} {g g' : Game} {x y : PlayerId} {P : PartyId} {party : Party}
  {q : Option Party} {force : Bool}

theorem Edit.inv (he : Edit g P q g') (h : g.Inv) : g'.Inv where
  valid := by
    intro Q party hQ
    rw [he.party, Function.update_apply] at hQ
    split at hQ
    · exact he.valid party hQ
    · exact h.valid Q party hQ
  pointer := by
    intro x Q
    by_cases hQ : Q = P
    · subst hQ
      rw [he.pointer, he.party, Function.update_self]
    · rw [he.pointer_ne x Q hQ, he.party, Function.update_of_ne hQ]
      exact h.pointer x Q
  invited := by
    intro x Q
    by_cases hQ : Q = P
    · subst hQ
      rw [he.invited, he.party, Function.update_self]
    · rw [he.invited_ne x Q hQ, he.party, Function.update_of_ne hQ]
      exact h.invited x Q
  invitations_nodup := he.invitations_nodup
  offline := by
    intro x hx
    rw [he.players] at hx
    obtain ⟨hpointer, hinvited⟩ := h.offline x hx
    have hnone : ∀ party, q = some party → ¬ (party.Holds x ∨ x ∈ party.inviteList) := by
      intro party hq hin
      rw [he.online party x hq hin] at hx
      cases hx
    constructor
    · cases hp : (g'.player x).party with
      | none => rfl
      | some Q =>
          by_cases hQ : Q = P
          · subst hQ
            obtain ⟨party, hq, hin⟩ := (he.pointer x).mp hp
            exact absurd (.inl hin) (hnone party hq)
          · rw [he.pointer_ne x Q hQ, hpointer] at hp
            cases hp
    · refine List.eq_nil_iff_forall_not_mem.mpr fun Q hQ => ?_
      by_cases hQP : Q = P
      · subst hQP
        obtain ⟨party, hq, hin⟩ := (he.invited x).mp hQ
        exact hnone party hq (.inr hin)
      · rw [he.invited_ne x Q hQP, hinvited] at hQ
        cases hQ
  autoID := by
    intro x hx
    rw [he.autoID] at hx
    rw [he.players]
    exact h.autoID x hx
  fresh := by
    intro Q hQ
    obtain ⟨hP, hle⟩ := he.nextParty
    rw [he.party, Function.update_of_ne (Nat.ne_of_gt (Nat.lt_of_lt_of_le hP hQ))]
    exact h.fresh Q (Nat.le_trans hle hQ)

/-! ## What the invariant says of one party -/

theorem Inv.lt_nextParty (h : g.Inv) (hP : g.party P = some party) : P < g.nextParty := by
  by_contra hlt
  rw [h.fresh P (Nat.le_of_not_lt hlt)] at hP
  cases hP

theorem Inv.holds_iff (h : g.Inv) (hP : g.party P = some party) :
    party.Holds x ↔ (g.player x).party = some P := by
  rw [h.pointer x P, hP]
  constructor
  · exact fun hx => ⟨party, rfl, hx⟩
  · rintro ⟨_, heq, hx⟩
    cases heq
    exact hx

theorem Inv.invited_iff (h : g.Inv) (hP : g.party P = some party) :
    x ∈ party.inviteList ↔ P ∈ (g.player x).invitePartyList := by
  rw [h.invited x P, hP]
  constructor
  · exact fun hx => ⟨party, rfl, hx⟩
  · rintro ⟨_, heq, hx⟩
    cases heq
    exact hx

theorem Inv.online (h : g.Inv) (hP : g.party P = some party)
    (hx : party.Holds x ∨ x ∈ party.inviteList) : g.players x = true := by
  by_contra hoff
  obtain ⟨hpointer, hinvited⟩ := h.offline x (by simpa using hoff)
  rcases hx with hx | hx
  · rw [h.holds_iff hP, hpointer] at hx
    cases hx
  · rw [h.invited_iff hP, hinvited] at hx
    cases hx

/-! ## One edit after the other -/

theorem newParty_edit (h : g.Inv) (hx : g.players x = true) (hnone : (g.player x).party = none) :
    Edit g g.nextParty (some { leader := x }) (g.newParty x).1 := by
  have hfresh : ∀ y, (g.player y).party ≠ some g.nextParty := by
    intro y hy
    obtain ⟨_, hP, _⟩ := (h.pointer y _).mp hy
    rw [h.fresh _ (Nat.le_refl _)] at hP
    cases hP
  refine ⟨rfl, ?valid, ?pointer, ?pointer_ne, ?invited, ?invited_ne, ?nodup, ?online, rfl, rfl,
    Nat.lt_succ_self _, Nat.le_succ _⟩
  case valid =>
      rintro _ ⟨⟩
      exact ⟨List.not_mem_nil, List.not_mem_nil, List.nodup_nil, List.nodup_nil, nofun⟩
  case pointer =>
      intro y
      simp only [newParty, setParty_pointer, store_player, Option.some.injEq, exists_eq_left',
        Party.Holds, List.not_mem_nil, or_false]
      split
      · next hy => simp only [hy]
      · next hy => exact ⟨fun hp => absurd hp (hfresh y), fun heq => absurd heq.symm hy⟩
  case pointer_ne =>
      intro y Q hQ
      simp only [newParty, setParty_pointer, store_player]
      split
      · next hy =>
          rw [hy, hnone]
          exact ⟨fun heq => absurd (Option.some.inj heq).symm hQ, nofun⟩
      · rfl
  case invited =>
      intro y
      simp only [newParty, setParty_invitations, store_player, Option.some.injEq,
        exists_eq_left', List.not_mem_nil, iff_false, h.invited, h.fresh _ (Nat.le_refl _)]
      exact nofun
  case invited_ne =>
      intro y Q _
      simp only [newParty, setParty_invitations, store_player]
  case nodup =>
      intro y
      simp only [newParty, setParty_invitations, store_player]
      exact h.invitations_nodup y
  case online =>
      rintro _ y ⟨⟩ ((rfl | hy) | hy)
      · exact hx
      · cases hy
      · cases hy

theorem invitePlayer_edit (h : g.Inv) (hP : g.party P = some party) (hx : g.players x = true)
    (hnew : x ∉ party.inviteList) (hout : (g.player x).party ≠ some P) :
    Edit g P (some { party with inviteList := party.inviteList ++ [x] })
      (g.invitePlayer P x).1 := by
  have hv := h.valid P party hP
  have hhold : ¬ party.Holds x := fun hx => hout ((h.holds_iff hP).mp hx)
  have hmem : P ∉ (g.player x).invitePartyList := fun hx => hnew ((h.invited_iff hP).mpr hx)
  have heq : (g.invitePlayer P x).1 =
      (g.store P { party with inviteList := party.inviteList ++ [x] }).setInvitations x
        (P :: (g.player x).invitePartyList) := by
    simp only [invitePlayer, hP, Party.isPlayerInvited, List.contains_iff_mem, hnew,
      addPartyInvitation, store_player, hmem, if_false]
  rw [heq]
  refine ⟨rfl, ?valid, ?pointer, ?pointer_ne, ?invited, ?invited_ne, ?nodup, ?online, rfl, rfl,
    h.lt_nextParty hP, Nat.le_refl _⟩
  case valid =>
      rintro _ ⟨⟩
      refine ⟨hv.leader_not_member, ?_, hv.members_nodup, ?_, ?_⟩
      · simp only [List.mem_append, List.mem_singleton, not_or]
        exact ⟨hv.leader_not_invited, fun hl => hhold (.inl hl)⟩
      · exact List.nodup_append.mpr ⟨hv.invited_nodup, List.nodup_singleton x, fun a ha b hb hab =>
          hnew (List.mem_singleton.mp hb ▸ hab ▸ ha)⟩
      · simp only [List.mem_append, List.mem_singleton]
        rintro y (hy | rfl)
        · exact hv.invited_not_member y hy
        · exact fun hy => hhold (.inr hy)
  case pointer =>
      intro y
      simp only [setInvitations_pointer, store_player, Option.some.injEq, exists_eq_left']
      exact (h.holds_iff hP).symm
  case pointer_ne => exact fun y Q _ => by simp only [setInvitations_pointer, store_player]
  case invited =>
      intro y
      simp only [setInvitations_invitations, store_player, Option.some.injEq, exists_eq_left',
        List.mem_append, List.mem_singleton, h.invited_iff hP]
      split
      · next hy => simp only [hy, List.mem_cons, true_or, or_true]
      · next hy => simp only [hy, or_false]
  case invited_ne =>
      intro y Q hQ
      simp only [setInvitations_invitations, store_player]
      split
      · next hy => simp only [hy, List.mem_cons, hQ, false_or]
      · rfl
  case nodup =>
      intro y
      simp only [setInvitations_invitations, store_player]
      split
      · exact List.nodup_cons.mpr ⟨hmem, h.invitations_nodup x⟩
      · exact h.invitations_nodup y
  case online =>
      rintro _ y ⟨⟩ (hy | hy)
      · exact h.online hP (.inl hy)
      · rcases List.mem_append.mp hy with hy | hy
        · exact h.online hP (.inr hy)
        · exact List.mem_singleton.mp hy ▸ hx

theorem removePartyInvitation_edit (h : g.Inv) (hP : g.party P = some party) :
    Edit g P (some { party with inviteList := party.inviteList.erase x })
      ((g.store P { party with inviteList := party.inviteList.erase x }).removePartyInvitation
        x P) := by
  have hv := h.valid P party hP
  refine ⟨rfl, ?valid, ?pointer, ?pointer_ne, ?invited, ?invited_ne, ?nodup, ?online, rfl, rfl,
    h.lt_nextParty hP, Nat.le_refl _⟩
  case valid =>
      rintro _ ⟨⟩
      exact ⟨hv.leader_not_member, fun hl => hv.leader_not_invited (List.mem_of_mem_erase hl),
        hv.members_nodup, hv.invited_nodup.erase x,
        fun y hy => hv.invited_not_member y (List.mem_of_mem_erase hy)⟩
  case pointer =>
      intro y
      simp only [removePartyInvitation, setInvitations_pointer, store_player, Option.some.injEq,
        exists_eq_left']
      exact (h.holds_iff hP).symm
  case pointer_ne =>
      exact fun y Q _ => by simp only [removePartyInvitation, setInvitations_pointer, store_player]
  case invited =>
      intro y
      simp only [removePartyInvitation, setInvitations_invitations, store_player,
        Option.some.injEq, exists_eq_left', hv.invited_nodup.mem_erase_iff, h.invited_iff hP]
      split
      · next hy => simp only [hy, List.mem_filter, ne_eq, decide_not, not_true, false_and,
          decide_true, Bool.not_true, Bool.false_eq_true, and_false]
      · next hy => simp only [ne_eq, hy, not_false_eq_true, true_and]
  case invited_ne =>
      intro y Q hQ
      simp only [removePartyInvitation, setInvitations_invitations, store_player]
      split
      · next hy => simp only [hy, List.mem_filter, decide_eq_true_eq, ne_eq, hQ,
          not_false_eq_true, and_true]
      · rfl
  case nodup =>
      intro y
      simp only [removePartyInvitation, setInvitations_invitations, store_player]
      split
      · exact (h.invitations_nodup x).filter _
      · exact h.invitations_nodup y
  case online =>
      rintro _ y ⟨⟩ (hy | hy)
      · exact h.online hP (.inl hy)
      · exact h.online hP (.inr (List.mem_of_mem_erase hy))

theorem join_edit (h : g.Inv) (hP : g.party P = some party) (hx : x ∈ party.inviteList)
    (hnone : (g.player x).party = none) :
    Edit g P
      (some { party with
        inviteList := party.inviteList.erase x, memberList := party.memberList ++ [x] })
      (((g.store P
        { party with
          inviteList := party.inviteList.erase x
          memberList := party.memberList ++ [x] }).setParty x (some P)).removePartyInvitation
        x P) := by
  have hv := h.valid P party hP
  refine ⟨rfl, ?valid, ?pointer, ?pointer_ne, ?invited, ?invited_ne, ?nodup, ?online, rfl, rfl,
    h.lt_nextParty hP, Nat.le_refl _⟩
  case valid =>
      rintro _ ⟨⟩
      refine ⟨?_, fun hl => hv.leader_not_invited (List.mem_of_mem_erase hl), ?_,
        hv.invited_nodup.erase x, ?_⟩
      · simp only [List.mem_append, List.mem_singleton, not_or]
        exact ⟨hv.leader_not_member, fun hl => hv.leader_not_invited (hl ▸ hx)⟩
      · exact List.nodup_append.mpr ⟨hv.members_nodup, List.nodup_singleton x, fun a ha b hb hab =>
          hv.invited_not_member x hx (List.mem_singleton.mp hb ▸ hab ▸ ha)⟩
      · intro y hy
        obtain ⟨hne, hy⟩ := hv.invited_nodup.mem_erase_iff.mp hy
        simp only [List.mem_append, List.mem_singleton, not_or]
        exact ⟨hv.invited_not_member y hy, hne⟩
  case pointer =>
      intro y
      simp only [removePartyInvitation, setInvitations_pointer, setParty_pointer, store_player,
        Option.some.injEq, exists_eq_left', Party.Holds, List.mem_append, List.mem_singleton]
      split
      · next hy => simp only [hy, or_true]
      · next hy => simp only [hy, or_false, ← h.holds_iff hP, Party.Holds]
  case pointer_ne =>
      intro y Q hQ
      simp only [removePartyInvitation, setInvitations_pointer, setParty_pointer, store_player]
      split
      · next hy =>
          rw [hy, hnone]
          exact ⟨fun heq => absurd (Option.some.inj heq).symm hQ, nofun⟩
      · rfl
  case invited =>
      intro y
      simp only [removePartyInvitation, setInvitations_invitations, setParty_invitations,
        store_player, Option.some.injEq, exists_eq_left', hv.invited_nodup.mem_erase_iff,
        h.invited_iff hP]
      split
      · next hy => simp only [hy, List.mem_filter, ne_eq, decide_not, not_true, false_and,
          decide_true, Bool.not_true, Bool.false_eq_true, and_false]
      · next hy => simp only [ne_eq, hy, not_false_eq_true, true_and]
  case invited_ne =>
      intro y Q hQ
      simp only [removePartyInvitation, setInvitations_invitations, setParty_invitations,
        store_player]
      split
      · next hy => simp only [hy, List.mem_filter, decide_eq_true_eq, ne_eq, hQ,
          not_false_eq_true, and_true]
      · rfl
  case nodup =>
      intro y
      simp only [removePartyInvitation, setInvitations_invitations, setParty_invitations,
        store_player]
      split
      · exact (h.invitations_nodup x).filter _
      · exact h.invitations_nodup y
  case online =>
      rintro _ y ⟨⟩ ((hy | hy) | hy)
      · exact h.online hP (.inl (.inl hy))
      · rcases List.mem_append.mp hy with hy | hy
        · exact h.online hP (.inl (.inr hy))
        · exact List.mem_singleton.mp hy ▸ h.online hP (.inr hx)
      · exact h.online hP (.inr (List.mem_of_mem_erase hy))

theorem leave_edit (h : g.Inv) (hP : g.party P = some party) (hx : x ∈ party.memberList) :
    Edit g P (some { party with memberList := party.memberList.erase x })
      ((g.store P { party with memberList := party.memberList.erase x }).setParty x none) := by
  have hv := h.valid P party hP
  have hpointer : (g.player x).party = some P := (h.holds_iff hP).mp (.inr hx)
  refine ⟨rfl, ?valid, ?pointer, ?pointer_ne, ?invited, ?invited_ne, ?nodup, ?online, rfl, rfl,
    h.lt_nextParty hP, Nat.le_refl _⟩
  case valid =>
      rintro _ ⟨⟩
      exact ⟨fun hl => hv.leader_not_member (List.mem_of_mem_erase hl), hv.leader_not_invited,
        hv.members_nodup.erase x, hv.invited_nodup,
        fun y hy hm => hv.invited_not_member y hy (List.mem_of_mem_erase hm)⟩
  case pointer =>
      intro y
      simp only [setParty_pointer, store_player, Option.some.injEq, exists_eq_left', Party.Holds,
        hv.members_nodup.mem_erase_iff]
      split
      · next hy =>
          subst hy
          have hl : party.leader ≠ y := fun hl => hv.leader_not_member (hl ▸ hx)
          simp only [reduceCtorEq, hl, ne_eq, not_true, false_and, or_self]
      · next hy => simp only [ne_eq, hy, not_false_eq_true, true_and, ← h.holds_iff hP,
          Party.Holds]
  case pointer_ne =>
      intro y Q hQ
      simp only [setParty_pointer, store_player]
      split
      · next hy =>
          rw [hy, hpointer]
          exact ⟨nofun, fun heq => absurd (Option.some.inj heq).symm hQ⟩
      · rfl
  case invited =>
      intro y
      simp only [setParty_invitations, store_player, Option.some.injEq, exists_eq_left']
      exact (h.invited_iff hP).symm
  case invited_ne => exact fun y Q _ => by simp only [setParty_invitations, store_player]
  case nodup =>
      intro y
      simp only [setParty_invitations, store_player]
      exact h.invitations_nodup y
  case online =>
      rintro _ y ⟨⟩ ((hy | hy) | hy)
      · exact h.online hP (.inl (.inl hy))
      · exact h.online hP (.inl (.inr (List.mem_of_mem_erase hy)))
      · exact h.online hP (.inr hy)

theorem pass_edit (h : g.Inv) (hP : g.party P = some party) (hx : x ∈ party.memberList) :
    Edit g P
      (some { party with
        leader := x, memberList := party.leader :: party.memberList.erase x })
      (g.store P
        { party with leader := x, memberList := party.leader :: party.memberList.erase x }) := by
  have hv := h.valid P party hP
  have hne : x ≠ party.leader := fun hl => hv.leader_not_member (hl ▸ hx)
  refine ⟨rfl, ?valid, ?pointer, fun _ _ _ => .rfl, ?invited, fun _ _ _ => .rfl,
    h.invitations_nodup, ?online, rfl, rfl, h.lt_nextParty hP, Nat.le_refl _⟩
  case valid =>
      rintro _ ⟨⟩
      refine ⟨?_, fun hl => hv.invited_not_member x hl hx, ?_, hv.invited_nodup, ?_⟩
      · rw [List.mem_cons, hv.members_nodup.mem_erase_iff]
        rintro (hl | ⟨hself, _⟩)
        · exact hne hl
        · exact hself rfl
      · exact List.nodup_cons.mpr ⟨fun hl => hv.leader_not_member (List.mem_of_mem_erase hl),
          hv.members_nodup.erase x⟩
      · intro y hy
        rw [List.mem_cons, not_or]
        exact ⟨fun hl => hv.leader_not_invited (hl ▸ hy),
          fun hm => hv.invited_not_member y hy (List.mem_of_mem_erase hm)⟩
  case pointer =>
      intro y
      simp only [store_player, ← h.holds_iff hP, Option.some.injEq, exists_eq_left', Party.Holds,
        List.mem_cons, hv.members_nodup.mem_erase_iff]
      by_cases hy : y = x
      · subst hy
        simp only [hx, or_true, true_or]
      · simp only [ne_eq, hy, not_false_eq_true, true_and, eq_comm (a := x), false_or,
          eq_comm (a := y)]
  case invited =>
      intro y
      simp only [store_player, Option.some.injEq, exists_eq_left']
      exact (h.invited_iff hP).symm
  case online =>
      rintro _ y ⟨⟩ ((rfl | hy) | hy)
      · exact h.online hP (.inl (.inr hx))
      · rcases List.mem_cons.mp hy with rfl | hy
        · exact h.online hP (.inl (.inl rfl))
        · exact h.online hP (.inl (.inr (List.mem_of_mem_erase hy)))
      · exact h.online hP (.inr hy)

/-- What `disband` has done when the script lets it. -/
theorem disband_apply (hP : g.party P = some party) (hev : ev.onDisband P = true) :
    (g.disband ev P).party = Function.update g.party P none ∧
      (∀ y, ((g.disband ev P).player y).party =
        if party.leader = y ∨ y ∈ party.memberList then none else (g.player y).party) ∧
      (∀ y, ((g.disband ev P).player y).invitePartyList =
        if y ∈ party.inviteList then (g.player y).invitePartyList.filter (· ≠ P)
        else (g.player y).invitePartyList) ∧
      (g.disband ev P).players = g.players ∧
      (g.disband ev P).playerAutoID = g.playerAutoID ∧
      (g.disband ev P).nextParty = g.nextParty := by
  have heq : g.disband ev P =
      (party.memberList.foldl (fun g member => g.setParty member none)
        (party.inviteList.foldl (fun g invitee => g.removePartyInvitation invitee P)
          (g.setParty party.leader none))).delete P := by
    simp only [disband, hP, hev, Bool.not_true, Bool.false_eq_true, if_false]
  rw [heq, foldl_setParty, foldl_removePartyInvitation]
  refine ⟨rfl, ?_, ?_, rfl, rfl, rfl⟩
  · intro y
    by_cases hm : y ∈ party.memberList
    · simp only [delete_player, hm, if_true, or_true]
    · simp only [delete_player, hm, if_false, or_false, apply_ite Player.party,
        setParty_pointer, ite_self, eq_comm (a := y)]
  · intro y
    by_cases hi : y ∈ party.inviteList
    · simp only [delete_player, hi, if_true, apply_ite Player.invitePartyList, ite_self,
        setParty_invitations]
    · simp only [delete_player, hi, if_false, apply_ite Player.invitePartyList, ite_self,
        setParty_invitations]

theorem disband_edit (h : g.Inv) (hP : g.party P = some party) (hev : ev.onDisband P = true) :
    Edit g P none (g.disband ev P) := by
  obtain ⟨hparty, hpointer, hinvited, hplayers, hauto, hnext⟩ := disband_apply hP hev
  refine ⟨hparty, nofun, ?pointer, ?pointer_ne, ?invited, ?invited_ne, ?nodup, nofun, hplayers,
    hauto, hnext ▸ h.lt_nextParty hP, Nat.le_of_eq hnext.symm⟩
  case pointer =>
      intro y
      rw [hpointer y]
      split
      · exact ⟨nofun, nofun⟩
      · next hy => exact ⟨fun hp => absurd ((h.holds_iff hP).mpr hp) hy, nofun⟩
  case pointer_ne =>
      intro y Q hQ
      rw [hpointer y]
      split
      · next hy =>
          rw [(h.holds_iff hP).mp hy]
          exact ⟨nofun, fun heq => absurd (Option.some.inj heq).symm hQ⟩
      · rfl
  case invited =>
      intro y
      rw [hinvited y]
      split
      · simp
      · next hy => exact ⟨fun hp => absurd ((h.invited_iff hP).mpr hp) hy, nofun⟩
  case invited_ne =>
      intro y Q hQ
      rw [hinvited y]
      split
      · simp [hQ]
      · rfl
  case nodup =>
      intro y
      rw [hinvited y]
      split
      · exact (h.invitations_nodup y).filter _
      · exact h.invitations_nodup y

/-! ## The operations of `Party` keep the invariant -/

theorem store_self (hP : g.party P = some party) : g.store P party = g := by
  simp only [store, ← hP, Function.update_eq_self]

theorem disband_inv (h : g.Inv) : (g.disband ev P).Inv := by
  cases hP : g.party P with
  | none => simpa only [disband, hP] using h
  | some party =>
      cases hev : ev.onDisband P with
      | false => simpa only [disband, hP, hev, Bool.not_false, if_true] using h
      | true => exact (disband_edit h hP hev).inv h

theorem removeInvite_inv (h : g.Inv) : (g.removeInvite ev P x true).1.Inv := by
  cases hP : g.party P with
  | none => simpa only [removeInvite, hP] using h
  | some party =>
      simp only [removeInvite, hP, if_true]
      split
      · exact h
      · have hedit := (removePartyInvitation_edit (x := x) h hP).inv h
        simp only
        split
        · exact disband_inv hedit
        · exact hedit

theorem invitePlayer_inv (h : g.Inv) (hP : g.party P = some party) (hx : g.players x = true)
    (hout : (g.player x).party ≠ some P) : (g.invitePlayer P x).1.Inv := by
  by_cases hin : x ∈ party.inviteList
  · simpa only [invitePlayer, hP, Party.isPlayerInvited, List.contains_iff_mem, hin, if_true]
      using h
  · exact (invitePlayer_edit h hP hx hin hout).inv h

theorem joinParty_inv (h : g.Inv) (hnone : (g.player x).party = none) :
    (g.joinParty ev P x).1.Inv := by
  cases hP : g.party P with
  | none => simpa only [joinParty, hP] using h
  | some party =>
      simp only [joinParty, hP]
      split
      · exact h
      · split
        · exact h
        · next hin =>
            simp only [Party.isPlayerInvited, Bool.not_eq_true', List.contains_eq_mem,
              decide_eq_false_iff_not, not_not] at hin
            exact (join_edit h hP hin hnone).inv h

theorem passPartyLeadership_inv (h : g.Inv) : (g.passPartyLeadership ev P x force).1.Inv := by
  cases hP : g.party P with
  | none => simpa only [passPartyLeadership, hP] using h
  | some party =>
      simp only [passPartyLeadership, hP]
      split
      · exact h
      · next hguard =>
          obtain ⟨hne, hpointer⟩ := not_or.mp hguard
          split
          · exact h
          · have hx := ((h.holds_iff hP).mpr (not_not.mp hpointer)).resolve_left hne
            exact (pass_edit h hP hx).inv h

/-! ## Leaving a party -/

theorem leaveParty_member (h : g.Inv) (hP : g.party P = some party) (hx : x ∈ party.memberList)
    (hev : force = true ∨ ev.onLeave P x = true) :
    (g.leaveParty ev P x force).1 =
      (let party := { party with memberList := party.memberList.erase x }
      let g := (g.store P party).setParty x none
      if party.empty then g.disband ev P else g) := by
  have hpointer : (g.player x).party = some P := (h.holds_iff hP).mp (.inr hx)
  have hne : party.leader ≠ x := fun hl => (h.valid P party hP).leader_not_member (hl ▸ hx)
  have hgo : ¬ (!force && !ev.onLeave P x) = true := by
    rcases hev with hev | hev <;> simp [hev]
  have hstay : party.missingLeader x = false := by simp [Party.missingLeader, hne]
  simp only [leaveParty, hP, hpointer, ne_eq, not_true, false_and, if_false, hgo, hne, hstay,
    Bool.false_or, Bool.false_eq_true]

/-- The first member becomes the leader of the others. -/
theorem leaveParty_leader (h : g.Inv) (hP : g.party P = some party)
    (hstay : party.missingLeader party.leader = false)
    (hev : force = true ∨ ev.onLeave P party.leader = true) :
    ∃ front, front ∈ party.memberList ∧
      (g.leaveParty ev P party.leader force).1 =
        ((g.store P
          { party with
            leader := front
            memberList := party.leader :: party.memberList.erase front }).leaveParty ev P
              party.leader true).1 := by
  have hv := h.valid P party hP
  have hleader : (g.player party.leader).party = some P := (h.holds_iff hP).mp (.inl rfl)
  have hgo : ¬ (!force && !ev.onLeave P party.leader) = true := by
    rcases hev with hev | hev <;> simp [hev]
  obtain ⟨front, rest, hl⟩ : ∃ front rest, party.memberList = front :: rest := by
    cases hl : party.memberList with
    | nil => simp [Party.missingLeader, hl] at hstay
    | cons front rest => exact ⟨front, rest, rfl⟩
  have hfront : front ∈ party.memberList := by rw [hl]; exact List.mem_cons_self
  have hne : party.leader ≠ front := fun heq => hv.leader_not_member (heq ▸ hfront)
  have hpointer : (g.player front).party = some P := (h.holds_iff hP).mp (.inr hfront)
  have hpass : (g.passPartyLeadership ev P front true).1 =
      g.store P { party with
        leader := front, memberList := party.leader :: party.memberList.erase front } := by
    simp only [passPartyLeadership, hP, hne, hpointer, ne_eq, not_true, or_self, if_false,
      Bool.not_true, Bool.and_false, Bool.false_eq_true]
  refine ⟨front, hfront, ?_⟩
  generalize hp : { party with
    leader := front, memberList := party.leader :: party.memberList.erase front } = party' at *
  have hleader' : party'.leader ≠ party.leader := by rw [← hp]; exact hne.symm
  have hstay' : party'.missingLeader party.leader = false := by
    simp [Party.missingLeader, hleader']
  have hP' : (g.store P party').party P = some party' := Function.update_self ..
  simp only [leaveParty, hP, hP', hleader, ne_eq, not_true, false_and, if_false, hgo, hstay,
    hstay', Bool.not_false, and_self, if_true, Bool.not_true, Bool.false_and, Bool.false_eq_true,
    hleader', store_player]
  rw [hl]
  simp only [hpass, hP']

theorem leaveParty_missingLeader (h : g.Inv) (hP : g.party P = some party)
    (hmissing : party.missingLeader x = true) (hev : force = true ∨ ev.onLeave P x = true) :
    (g.leaveParty ev P x force).1 = (g.setParty x none).disband ev P := by
  have hv := h.valid P party hP
  have hx : party.leader = x := by
    simp only [Party.missingLeader, Bool.and_eq_true, beq_iff_eq] at hmissing
    exact hmissing.1
  subst hx
  have hgo : ¬ (!force && !ev.onLeave P party.leader) = true := by
    rcases hev with hev | hev <;> simp [hev]
  have herase : party.memberList.erase party.leader = party.memberList :=
    List.erase_of_not_mem hv.leader_not_member
  simp only [leaveParty, hP, not_true, and_false, if_false, hgo, hmissing, Bool.not_true,
    Bool.false_eq_true, herase, Bool.true_or, if_true, ne_eq]
  rw [store_self hP]

theorem disband_setParty (hP : g.party P = some party) (hev : ev.onDisband P = true) :
    (g.setParty party.leader none).disband ev P = g.disband ev P := by
  simp only [disband, setParty_party, hP, hev, Bool.not_true, Bool.false_eq_true, if_false]
  simp only [setParty, Function.update_self, Function.update_idem]

/-- The leader is let go, nobody is left to lead and the script keeps the party. -/
def strands (ev : Events) (g : Game) (P : PartyId) (player : PlayerId) (forceRemove : Bool) :
    Bool :=
  (g.party P).any fun party =>
    party.missingLeader player && (forceRemove || ev.onLeave P player) && !ev.onDisband P

theorem strands_iff : strands ev g P x force = true ↔
    ∃ party, g.party P = some party ∧ party.missingLeader x = true ∧
      (force = true ∨ ev.onLeave P x = true) ∧ ev.onDisband P = false := by
  simp only [strands, Option.any_eq_true, Bool.and_eq_true, Bool.or_eq_true, Bool.not_eq_true',
    and_assoc]

theorem leaveParty_member_inv (h : g.Inv) (hP : g.party P = some party)
    (hx : x ∈ party.memberList) (hev : force = true ∨ ev.onLeave P x = true) :
    (g.leaveParty ev P x force).1.Inv := by
  rw [leaveParty_member h hP hx hev]
  have hedit := (leave_edit h hP hx).inv h
  simp only
  split
  · exact disband_inv hedit
  · exact hedit

theorem leaveParty_inv (h : g.Inv) (hgood : strands ev g P x force = false) :
    (g.leaveParty ev P x force).1.Inv := by
  cases hP : g.party P with
  | none => simpa only [leaveParty, hP] using h
  | some party =>
      by_cases hx : party.Holds x
      swap
      · have hout : (g.player x).party ≠ some P ∧ party.leader ≠ x :=
          ⟨fun hp => hx ((h.holds_iff hP).mpr hp), fun hl => hx (.inl hl)⟩
        simpa only [leaveParty, hP, if_pos hout] using h
      by_cases hev : force = true ∨ ev.onLeave P x = true
      swap
      · obtain ⟨hforce, hleave⟩ := not_or.mp hev
        have hstop : (!force && !ev.onLeave P x) = true := by simp [hforce, hleave]
        simp only [leaveParty, hP, if_pos hstop]
        split <;> exact h
      rcases hx with rfl | hx
      · cases hmissing : party.missingLeader party.leader with
        | true =>
            have hdisband : ev.onDisband P = true := by
              by_contra hno
              refine Bool.eq_false_iff.mp hgood (strands_iff.mpr ⟨party, hP, hmissing, hev, ?_⟩)
              simpa using hno
            rw [leaveParty_missingLeader h hP hmissing hev, disband_setParty hP hdisband]
            exact disband_inv h
        | false =>
            obtain ⟨front, hfront, heq⟩ := leaveParty_leader h hP hmissing hev
            rw [heq]
            exact leaveParty_member_inv ((pass_edit h hP hfront).inv h)
              (Function.update_self ..) List.mem_cons_self (.inl rfl)
      · exact leaveParty_member_inv h hP hx hev

theorem disband_player : ((g.player x).party = none → ((g.disband ev P).player x).party = none) ∧
    ((g.player x).invitePartyList = [] → ((g.disband ev P).player x).invitePartyList = []) := by
  cases hP : g.party P with
  | none => simp only [disband, hP, imp_self, and_self]
  | some party =>
      cases hev : ev.onDisband P with
      | false => simp only [disband, hP, hev, Bool.not_false, if_true, imp_self, and_self]
      | true =>
          obtain ⟨_, hpointer, hinvited, _⟩ := disband_apply hP hev
          rw [hpointer x, hinvited x]
          constructor
          · intro hnone
            rw [hnone, ite_self]
          · intro hnil
            rw [hnil, List.filter_nil, ite_self]

/-- Who leaves belongs to no party any more. -/
theorem leaveParty_gone (h : g.Inv) (hP : g.party P = some party) (hx : party.Holds x)
    (hev : force = true ∨ ev.onLeave P x = true) :
    ((g.leaveParty ev P x force).1.player x).party = none ∧
      ((g.player x).invitePartyList = [] →
        ((g.leaveParty ev P x force).1.player x).invitePartyList = []) := by
  have hmember : ∀ {g : Game} {party : Party} {force : Bool}, g.Inv → g.party P = some party →
      x ∈ party.memberList → (force = true ∨ ev.onLeave P x = true) →
      ((g.leaveParty ev P x force).1.player x).party = none ∧
        ((g.player x).invitePartyList = [] →
          ((g.leaveParty ev P x force).1.player x).invitePartyList = []) := by
    intro g party force h hP hx hev
    rw [leaveParty_member h hP hx hev]
    simp only
    split
    · refine ⟨disband_player.1 ?_, fun hnil => disband_player.2 ?_⟩
      · simp only [setParty_pointer, if_true]
      · simpa only [setParty_invitations, store_player] using hnil
    · simp only [setParty_pointer, if_true, setParty_invitations, store_player, imp_self, and_self]
  rcases hx with rfl | hx
  · cases hmissing : party.missingLeader party.leader with
    | true =>
        rw [leaveParty_missingLeader h hP hmissing hev]
        refine ⟨disband_player.1 ?_, fun hnil => disband_player.2 ?_⟩
        · simp only [setParty_pointer, if_true]
        · simpa only [setParty_invitations] using hnil
    | false =>
        obtain ⟨front, hfront, heq⟩ := leaveParty_leader h hP hmissing hev
        rw [heq]
        exact hmember ((pass_edit h hP hfront).inv h) (Function.update_self ..)
          List.mem_cons_self (.inl rfl)
  · exact hmember h hP hx hev

/-- The stranded leader has no party, and the party still has its leader. -/
theorem leaveParty_strands (h : g.Inv) (hbad : strands ev g P x force = true) :
    ¬ (g.leaveParty ev P x force).1.Consistent := by
  obtain ⟨party, hP, hmissing, hev, hveto⟩ := strands_iff.mp hbad
  have hx : party.leader = x := by
    simp only [Party.missingLeader, Bool.and_eq_true, beq_iff_eq] at hmissing
    exact hmissing.1
  rw [leaveParty_missingLeader h hP hmissing hev]
  intro hc
  have hstay : (g.setParty x none).disband ev P = g.setParty x none := by
    simp only [disband, setParty_party, hP, hveto, Bool.not_false, if_true]
  rw [hstay] at hc
  have hpointer := (hc.pointer x P).mpr ⟨party, hP, .inl hx⟩
  simp only [setParty_pointer, if_true, reduceCtorEq] at hpointer

/-! ## Logging out -/

variable (ev) in
theorem disband_empty {party : Party} (hP : g.party P = some party)
    (hempty : party.empty = true) :
    g.disband ev P =
      if ev.onDisband P then (g.setParty party.leader none).delete P else g := by
  simp only [Party.empty, Bool.and_eq_true, List.isEmpty_iff] at hempty
  cases hev : ev.onDisband P <;>
    simp [disband, hP, hev, hempty.1, hempty.2]

theorem setParty_setInvitations (l : List PartyId) (Q : Option PartyId) :
    (g.setParty y Q).setInvitations x l = (g.setInvitations x l).setParty y Q := by
  simp only [setParty, setInvitations]
  congr 1
  funext z
  simp only [Function.update_apply]
  by_cases hx : z = x <;> by_cases hy : z = y <;> simp [hx, hy]
  · subst hx
    simp [hy]
  · subst hx
    simp [hy]
  · subst hy
    simp [hx]

theorem setInvitations_self : g.setInvitations x (g.player x).invitePartyList = g := by
  simp only [setInvitations, Function.update_eq_self]

theorem setInvitations_setInvitations (l l' : List PartyId) :
    (g.setInvitations x l).setInvitations x l' = g.setInvitations x l' := by
  simp only [setInvitations, Function.update_self, Function.update_idem]

theorem removeInvite_eq {b : Bool} (hP : g.party P = some party) (hx : x ∈ party.inviteList) :
    (g.removeInvite ev P x b).1 =
      (let party := { party with inviteList := party.inviteList.erase x }
      let g := if b then (g.store P party).removePartyInvitation x P else g.store P party
      if party.empty then g.disband ev P else g) := by
  have hcontains : party.inviteList.contains x = true := List.contains_iff_mem.mpr hx
  simp only [removeInvite, hP, Party.isPlayerInvited, hcontains, Bool.not_true,
    Bool.false_eq_true, if_false]

/-- `removeInvite` without its last step, which the caller makes up for, does nothing else
than with it: a party that it disbands has no invitations left. -/
theorem removeInvite_setInvitations {rest : List PartyId}
    (h : (g.setInvitations x (P :: rest)).Inv) :
    (g.removeInvite ev P x false).1.setInvitations x rest =
      ((g.setInvitations x (P :: rest)).removeInvite ev P x true).1 := by
  have hin : P ∈ ((g.setInvitations x (P :: rest)).player x).invitePartyList := by
    simp only [setInvitations_invitations, if_true, List.mem_cons_self]
  obtain ⟨party, hP, hx⟩ := (h.invited x P).mp hin
  have hnodup := h.invitations_nodup x
  simp only [setInvitations_invitations, if_true, List.nodup_cons] at hnodup
  have hfilter : (P :: rest).filter (· ≠ P) = rest := by
    rw [List.filter_cons_of_neg (by simp)]
    refine List.filter_eq_self.mpr fun Q hQ => ?_
    simpa using fun heq : Q = P => hnodup.1 (heq ▸ hQ)
  rw [setInvitations_party] at hP
  generalize hparty : { party with inviteList := party.inviteList.erase x } = party'
  have hcomm : ((g.setInvitations x (P :: rest)).store P party').removePartyInvitation x P =
      (g.store P party').setInvitations x rest := by
    rw [removePartyInvitation, store_player, setInvitations_invitations, if_pos rfl, hfilter]
    exact setInvitations_setInvitations (g := g.store P party') (P :: rest) rest
  rw [removeInvite_eq hP hx, removeInvite_eq (by exact hP) hx]
  simp only [Bool.false_eq_true, if_false, if_true, hparty, hcomm]
  split
  · next hempty =>
      have hstored : (g.store P party').party P = some party' := Function.update_self ..
      rw [disband_empty ev hstored hempty, disband_empty ev (by exact hstored) hempty]
      split
      · exact congrArg (fun g => g.delete P) (setParty_setInvitations rest _)
      · rfl
  · rfl

variable (ev) in
/-- The party that a player belongs to does not change while its invitations go. -/
theorem removeInvite_own {rest : List PartyId} (h : (g.setInvitations x (P :: rest)).Inv) :
    ((g.removeInvite ev P x false).1.player x).party = (g.player x).party ∧
      (∀ Q, (g.player x).party = some Q →
        (g.removeInvite ev P x false).1.party Q = g.party Q) ∧
      (g.removeInvite ev P x false).1.players = g.players := by
  have hin : P ∈ ((g.setInvitations x (P :: rest)).player x).invitePartyList := by
    simp only [setInvitations_invitations, if_true, List.mem_cons_self]
  obtain ⟨party, hP, hx⟩ := (h.invited x P).mp hin
  have hv := h.valid P party hP
  have hleader : x ≠ party.leader := fun hl => hv.leader_not_invited (hl ▸ hx)
  have hother : ∀ Q, (g.player x).party = some Q → Q ≠ P := by
    rintro Q hQ rfl
    have hholds := (h.holds_iff (x := x) hP).mpr (by rw [setInvitations_pointer]; exact hQ)
    rcases hholds with hl | hm
    · exact hleader hl.symm
    · exact hv.invited_not_member x hx hm
  rw [setInvitations_party] at hP
  rw [removeInvite_eq hP hx]
  simp only [Bool.false_eq_true, if_false]
  generalize hparty : { party with inviteList := party.inviteList.erase x } = party'
  have hl' : party'.leader = party.leader := by rw [← hparty]
  have hstore : ∀ Q, (g.player x).party = some Q → (g.store P party').party Q = g.party Q :=
    fun Q hQ => Function.update_of_ne (hother Q hQ) _ _
  split
  · next hempty =>
      rw [disband_empty ev (Function.update_self ..) hempty]
      split
      · refine ⟨?_, fun Q hQ => ?_, rfl⟩
        · rw [delete_player, setParty_pointer, hl', if_neg hleader, store_player]
        · exact (Function.update_of_ne (hother Q hQ) _ _).trans (hstore Q hQ)
      · exact ⟨rfl, hstore, rfl⟩
  · exact ⟨rfl, hstore, rfl⟩

variable (ev) in
theorem foldl_removeInvite {l : List PartyId} (h : (g.setInvitations x l).Inv) :
    ((l.foldl (fun g P => (g.removeInvite ev P x false).1) g).setInvitations x []).Inv ∧
      ((l.foldl (fun g P => (g.removeInvite ev P x false).1) g).player x).party =
        (g.player x).party ∧
      (∀ Q, (g.player x).party = some Q →
        (l.foldl (fun g P => (g.removeInvite ev P x false).1) g).party Q = g.party Q) ∧
      (l.foldl (fun g P => (g.removeInvite ev P x false).1) g).players = g.players := by
  induction l generalizing g with
  | nil => exact ⟨h, rfl, fun _ _ => rfl, rfl⟩
  | cons P rest ih =>
      obtain ⟨hpointer, hparty, hplayers⟩ := removeInvite_own ev h
      have hnext : ((g.removeInvite ev P x false).1.setInvitations x rest).Inv := by
        rw [removeInvite_setInvitations h]
        exact removeInvite_inv h
      obtain ⟨hinv, hpointer', hparty', hplayers'⟩ := ih hnext
      refine ⟨hinv, hpointer'.trans hpointer, fun Q hQ => ?_, hplayers'.trans hplayers⟩
      exact (hparty' Q (hpointer.trans hQ)).trans (hparty Q hQ)

variable (ev) in
theorem clearPartyInvitations_inv (h : g.Inv) :
    (g.clearPartyInvitations ev x).Inv ∧
      ((g.clearPartyInvitations ev x).player x).party = (g.player x).party ∧
      ((g.clearPartyInvitations ev x).player x).invitePartyList = [] ∧
      (∀ P, (g.player x).party = some P →
        (g.clearPartyInvitations ev x).party P = g.party P) ∧
      (g.clearPartyInvitations ev x).players = g.players := by
  obtain ⟨hinv, hpointer, hparty, hplayers⟩ :=
    foldl_removeInvite ev (x := x) (g := g) (by rw [setInvitations_self]; exact h)
  refine ⟨hinv, ?_, ?_, hparty, hplayers⟩
  · rw [clearPartyInvitations, setInvitations_pointer, hpointer]
  · rw [clearPartyInvitations, setInvitations_invitations, if_pos rfl]

/-- Whoever belongs to no party may be taken out of the game. -/
theorem Inv.remove (h : g.Inv) (hparty : (g.player x).party = none)
    (hnil : (g.player x).invitePartyList = []) :
    Inv { g with players := Function.update g.players x false } where
  toConsistent := ⟨h.valid, h.pointer, h.invited, h.invitations_nodup⟩
  offline := by
    intro y hy
    simp only [Function.update_apply] at hy
    split at hy
    · next heq =>
        subst heq
        exact ⟨hparty, hnil⟩
    · exact h.offline y hy
  autoID := by
    intro y hy
    simp only [Function.update_apply]
    split
    · rfl
    · exact h.autoID y hy
  fresh := h.fresh

/-- The party that a player is asked to leave when it goes. -/
def strandsOwn (ev : Events) (g : Game) (player : PlayerId) (forceRemove : Bool) : Bool :=
  (g.player player).party.any fun P => strands ev g P player forceRemove

theorem logout_inv (h : g.Inv)
    (hgood : (g.players x && strandsOwn ev g x true) = false) : (g.logout ev x).Inv := by
  cases hx : g.players x with
  | false => simpa only [logout, hx, Bool.not_false, if_true] using h
  | true =>
      obtain ⟨hinv, hpointer, hnil, hparty, _⟩ :=
        clearPartyInvitations_inv ev (x := x) h
      simp only [logout, hx, Bool.not_true, Bool.false_eq_true, if_false]
      simp only [hx, Bool.true_and, strandsOwn] at hgood
      rw [hpointer]
      cases hP : (g.player x).party with
      | none => exact hinv.remove (hpointer.trans hP) hnil
      | some P =>
          simp only [hP, Option.any_some, strands, ← hparty P hP] at hgood
          obtain ⟨party, hparty', hholds⟩ := (hinv.pointer x P).mp (hpointer.trans hP)
          obtain ⟨hgone, hgone'⟩ :=
            leaveParty_gone hinv hparty' hholds (.inl rfl : true = true ∨ ev.onLeave P x = true)
          exact (leaveParty_inv hinv hgood).remove hgone (hgone' hnil)

theorem logout_strands (h : g.Inv) (hx : g.players x = true)
    (hbad : strandsOwn ev g x true = true) : ¬ (g.logout ev x).Consistent := by
  obtain ⟨hinv, hpointer, _, hparty, _⟩ := clearPartyInvitations_inv ev (x := x) h
  obtain ⟨P, hP, hstrands⟩ := (Option.any_eq_true ..).mp hbad
  simp only [strands, ← hparty P hP] at hstrands
  have hleave := leaveParty_strands hinv hstrands
  intro hc
  simp only [logout, hx, Bool.not_true, Bool.false_eq_true, if_false, hpointer, hP] at hc
  exact hleave ⟨hc.valid, hc.pointer, hc.invited, hc.invitations_nodup⟩

/-! ## Every operation -/

theorem login_inv (h : g.Inv) : g.login.Inv := by
  obtain ⟨hnone, hnil⟩ := h.offline _ (h.autoID _ (Nat.le_refl _))
  have hplayer : g.login.player = g.player := by
    simp only [login]
    refine Function.update_eq_self_iff.mpr ?_
    cases hp : g.player g.playerAutoID with
    | mk party invitePartyList =>
        rw [hp] at hnone hnil
        simp only at hnone hnil
        rw [hnone, hnil]
  refine ⟨⟨h.valid, fun x P => hplayer ▸ h.pointer x P, fun x P => hplayer ▸ h.invited x P,
    fun x => hplayer ▸ h.invitations_nodup x⟩, fun x hx => ?_, fun x hx => ?_, h.fresh⟩
  · rw [hplayer]
    simp only [login, Function.update_apply] at hx
    split at hx
    · cases hx
    · exact h.offline x hx
  · simp only [login] at hx ⊢
    rw [Function.update_of_ne (Nat.ne_of_gt hx)]
    exact h.autoID x (Nat.le_of_succ_le hx)

theorem partyCreate_inv (h : g.Inv) : (g.partyCreate x).Inv := by
  simp only [partyCreate]
  split
  · exact h
  · next hx =>
      split
      · exact h
      · next hnone =>
          refine (newParty_edit h ?_ ?_).inv h
          · simpa using hx
          · simpa using hnone

theorem invite_inv (h : g.Inv) (hP : g.party P = some party) (hy : g.players y = true)
    (hnone : (g.player y).party = none) :
    (if !ev.onInvite P y then
      if party.empty then (g.setParty party.leader none).delete P else g
    else (g.invitePlayer P y).1).Inv := by
  split
  · split
    · next hempty =>
        -- what the script would have had to allow `disband`
        have heq := disband_empty { ev with onDisband := fun _ => true } hP hempty
        rw [if_pos rfl] at heq
        exact heq ▸ disband_inv h
    · exact h
  · exact invitePlayer_inv h hP hy (by rw [hnone]; exact nofun)

theorem playerInviteToParty_inv (h : g.Inv) : (g.playerInviteToParty ev x y).Inv := by
  by_cases hxy : x = y
  · simpa only [playerInviteToParty, hxy, if_true] using h
  cases hx : g.players x with
  | false => simpa only [playerInviteToParty, hxy, hx, Bool.not_false, if_true, ite_self] using h
  | true =>
      simp only [playerInviteToParty, hxy, hx, if_false, Bool.not_true, Bool.false_eq_true]
      split
      · exact h
      · next hy =>
          simp only [Bool.or_eq_true, Bool.not_eq_true', not_or, Bool.not_eq_false,
            Bool.not_eq_true] at hy
          split
          · exact h
          · next hnone =>
              rw [Bool.not_eq_true, Option.isSome_eq_false_iff, Option.isNone_iff_eq_none] at hnone
              cases hP : (g.player x).party with
              | none =>
                  have hedit := newParty_edit h hx hP
                  have hstored : (g.newParty x).1.party g.nextParty = some { leader := x } := by
                    rw [hedit.party, Function.update_self]
                  have hout : ((g.newParty x).1.player y).party = none := by
                    simp only [newParty, setParty_pointer, store_player, hnone, Ne.symm hxy,
                      if_false]
                  have hsnd : (g.newParty x).2 = g.nextParty := rfl
                  simp only [hsnd, hstored, ne_eq, not_true, if_false]
                  exact invite_inv (hedit.inv h) hstored (by rw [hedit.players]; exact hy.1) hout
              | some P =>
                  simp only
                  split
                  · exact h
                  · next party hparty =>
                      split
                      · exact h
                      · next hl =>
                          rw [← not_not.mp hl]
                          exact invite_inv h hparty hy.1 hnone


theorem playerJoinParty_inv (h : g.Inv) : (g.playerJoinParty ev x y).Inv := by
  simp only [playerJoinParty]
  repeat' split
  any_goals exact h
  next hnone => exact joinParty_inv h (by simpa using hnone)

theorem playerRevokePartyInvitation_inv (h : g.Inv) :
    (g.playerRevokePartyInvitation ev x y).Inv := by
  simp only [playerRevokePartyInvitation, revokeInvitation]
  repeat' split
  any_goals exact h
  exact removeInvite_inv h

theorem playerPassPartyLeadership_inv (h : g.Inv) :
    (g.playerPassPartyLeadership ev x y).Inv := by
  simp only [playerPassPartyLeadership]
  repeat' split
  any_goals exact h
  exact passPartyLeadership_inv h

/-- Whether the operation leaves a leader stranded: the exact condition for it to break the
agreement between players and parties. -/
def Op.strands (ev : Events) (g : Game) : Op → Bool
  | .leave playerId inFight =>
      g.players playerId && !inFight && g.strandsOwn ev playerId false
  | .logout player => g.players player && g.strandsOwn ev player true
  | _ => false

theorem playerLeaveParty_inv {inFight : Bool} (h : g.Inv)
    (hgood : Op.strands ev g (.leave x inFight) = false) :
    (g.playerLeaveParty ev x inFight).Inv := by
  simp only [playerLeaveParty]
  split
  · exact h
  · next hx =>
      split
      · exact h
      · next P hP =>
          split
          · exact h
          · next hfight =>
              simp only [Bool.not_eq_true', Bool.not_eq_false, Bool.not_eq_true] at hx hfight
              simp only [Op.strands, hx, hfight, strandsOwn, hP, Option.any_some, Bool.not_false,
                Bool.true_and] at hgood
              exact leaveParty_inv h hgood

theorem step_inv {op : Op} (h : g.Inv) (hgood : op.strands ev g = false) :
    (g.step ev op).Inv := by
  cases op with
  | login => exact login_inv h
  | create player => exact partyCreate_inv h
  | invite playerId invitedId => exact playerInviteToParty_inv h
  | revoke playerId invitedId => exact playerRevokePartyInvitation_inv h
  | join playerId leaderId => exact playerJoinParty_inv h
  | leave playerId inFight => exact playerLeaveParty_inv h hgood
  | pass playerId newLeaderId => exact playerPassPartyLeadership_inv h
  | disband P => exact disband_inv h
  | logout player => exact logout_inv h hgood

theorem step_strands {op : Op} (h : g.Inv) (hbad : op.strands ev g = true) :
    ¬ (g.step ev op).Consistent := by
  cases op with
  | leave playerId inFight =>
      simp only [Op.strands, Bool.and_eq_true, Bool.not_eq_true'] at hbad
      obtain ⟨⟨hx, hfight⟩, hstrands⟩ := hbad
      obtain ⟨P, hP, hstrands⟩ := (Option.any_eq_true ..).mp hstrands
      simp only [step, playerLeaveParty, hx, hP, hfight, Bool.not_true, Bool.false_eq_true,
        if_false]
      exact leaveParty_strands h hstrands
  | logout player =>
      simp only [Op.strands, Bool.and_eq_true] at hbad
      exact logout_strands h hbad.1 hbad.2
  | login | create | invite | revoke | join | pass | disband => cases hbad

/-! ## Runs -/

/-- A run: each operation with what the scripts answer to it. -/
def run (g : Game) (ops : List (Events × Op)) : Game :=
  ops.foldl (fun g op => g.step op.1 op.2) g

/-- No operation of the run strands a leader. -/
def Unstranded (g : Game) : List (Events × Op) → Prop
  | [] => True
  | op :: ops => op.2.strands op.1 g = false ∧ Unstranded (g.step op.1 op.2) ops

theorem run_inv {ops : List (Events × Op)} (h : g.Inv) (hgood : Unstranded g ops) :
    (g.run ops).Inv := by
  induction ops generalizing g with
  | nil => exact h
  | cons op ops ih => exact ih (step_inv h hgood.1) hgood.2

end Preserved

/-- Players and parties agree in every state that operations reach which strand nobody, and
from there the next operation keeps the agreement exactly when it strands nobody either. -/
theorem party_membership (ops : List (Events × Op)) (hgood : Unstranded init ops) :
    (init.run ops).Consistent ∧ ∀ (ev : Events) (op : Op),
      ((init.run ops).step ev op).Consistent ↔ op.strands ev (init.run ops) = false := by
  have hinv := run_inv init_inv hgood
  refine ⟨hinv.toConsistent, fun ev op => ⟨fun hc => ?_, fun h => (step_inv hinv h).toConsistent⟩⟩
  by_contra hbad
  exact step_strands hinv (by simpa using hbad) hc

/-- The scripts allow everything, but for what they say when a party disbands. -/
def scripts (onDisband : Bool) : Events :=
  { onJoin := fun _ _ => true, onLeave := fun _ _ => true, onDisband := fun _ => onDisband,
    onInvite := fun _ _ => true, onRevokeInvitation := fun _ _ => true,
    onPassLeadership := fun _ _ => true }

/-- The first player invites the second one, who joins. -/
def twoMembers : List (Events × Op) :=
  [(scripts true, .login), (scripts true, .login), (scripts true, .invite 0 1),
    (scripts true, .join 1 0)]

theorem party_membership_two_members :
    (init.run twoMembers).Consistent ∧ ∀ (ev : Events) (op : Op),
      ((init.run twoMembers).step ev op).Consistent ↔
        op.strands ev (init.run twoMembers) = false :=
  party_membership twoMembers (by simp only [twoMembers, Unstranded]; decide)

/-- The leader of two leaves while the script keeps the party. -/
theorem party_membership_fails :
    ¬ ∀ ops : List (Events × Op), (init.run ops).Consistent := by
  intro h
  have hc := h (twoMembers ++ [(scripts false, .leave 0 false)])
  have hpointer := hc.pointer 0 0
  have hparty : (init.run (twoMembers ++ [(scripts false, .leave 0 false)])).party 0 =
      some { leader := 0, memberList := [1] } := by decide
  have hnone : ((init.run (twoMembers ++ [(scripts false, .leave 0 false)])).player 0).party =
      none := by decide
  rw [hnone] at hpointer
  exact nomatch hpointer.mpr ⟨_, hparty, .inl rfl⟩

end Game

end Bruxo.Parties
