import Bruxo.Lib.Runs
import Bruxo.PartyPointer

/-!
# Chat channels

`Chat` and its channels (`chat.cpp`), with what `Game` and the connection ask of them (`game.cpp`,
`player.cpp`, `protocolgame.cpp`), over the parties of `Bruxo.Parties`. A channel keeps its users; a
player finds the channel of an id through its guild, its party, a script or an invitation.

A party lets a player go before it closes the channel for the player, who then no longer finds it:
`sendClosePrivate` does nothing there (`sendClosePrivate_none`). In the same way a script that no
longer lets a user join keeps the user in.
-/

namespace Bruxo.Chat

open Runs Parties

/-- The four maps of `Chat`. -/
inductive ChannelKey where
  | normalChannel (id : Nat)
  | privateChannel (id : Nat)
  | partyChannel (party : PartyId)
  | guildChannel (guild : Nat)
  deriving DecidableEq

def CHANNEL_GUILD : Nat := 0x00
def CHANNEL_PARTY : Nat := 0x01
def CHANNEL_PRIVATE : Nat := 0xFFFF

def ChannelKey.id : ChannelKey → Nat
  | normalChannel id => id
  | privateChannel id => id
  | partyChannel _ => CHANNEL_PARTY
  | guildChannel _ => CHANNEL_GUILD

/-- Only a private channel has an owner and invites. -/
structure ChatChannel where
  users : List PlayerId := []
  owner : Option PlayerId := none
  invites : List PlayerId := []
  deriving DecidableEq

def ChatChannel.isInvited (channel : ChatChannel) (p : PlayerId) : Prop :=
  channel.owner = some p ∨ p ∈ channel.invites

instance (channel : ChatChannel) (p : PlayerId) : Decidable (channel.isInvited p) :=
  inferInstanceAs (Decidable (_ ∨ _))

/-- What the scripts of the normal channels answer during one operation. -/
abbrev CanJoin := Nat → PlayerId → Bool

def ChannelKey.executeCanJoinEvent (canJoin : CanJoin) : ChannelKey → PlayerId → Bool
  | normalChannel id, p => canJoin id p
  | _, _ => true

structure State where
  game : Game
  guild : PlayerId → Option Nat
  channel : ChannelKey → Option ChatChannel

namespace State

def init (guild : PlayerId → Option Nat) : State := ⟨Game.init, guild, fun _ => none⟩

def users (s : State) (key : ChannelKey) : List PlayerId :=
  match s.channel key with
  | some channel => channel.users
  | none => []

def setChannel (s : State) (key : ChannelKey) (channel : Option ChatChannel) : State :=
  { s with channel := Function.update s.channel key channel }

/-! ## Chat -/

/-- The channel of the key, if it is there. -/
def find (s : State) (key : ChannelKey) : Option ChannelKey :=
  (s.channel key).map fun _ => key

def getChannel (s : State) (canJoin : CanJoin) (p : PlayerId) (id : Nat) : Option ChannelKey :=
  if id = CHANNEL_GUILD then (s.guild p).bind fun guild => s.find (.guildChannel guild)
  else if id = CHANNEL_PARTY then
    (s.game.player p).party.bind fun party => s.find (.partyChannel party)
  else
    match s.channel (.normalChannel id) with
    | some _ => if canJoin id p then some (.normalChannel id) else none
    | none =>
        match s.channel (.privateChannel id) with
        | some channel => if channel.isInvited p then some (.privateChannel id) else none
        | none => none

/-- The ids that private channels get -/
def privateIds : List Nat := List.range' 100 9900

def getPrivateChannel (s : State) (p : PlayerId) : Option Nat :=
  privateIds.find? fun id => (s.channel (.privateChannel id)).any fun channel =>
    channel.owner = some p

def addUser (s : State) (canJoin : CanJoin) (key : ChannelKey) (p : PlayerId) : State :=
  match s.channel key with
  | none => s
  | some channel =>
      if p ∈ channel.users then s
      else if key.executeCanJoinEvent canJoin p then
        s.setChannel key (some { channel with users := channel.users ++ [p] })
      else s

/-- `users.erase` -/
def removeUser (s : State) (key : ChannelKey) (p : PlayerId) : State :=
  match s.channel key with
  | none => s
  | some channel =>
      s.setChannel key (some { channel with users := channel.users.filter (· ≠ p) })

/-- `emplace` -/
def emplace (s : State) (key : ChannelKey) : State :=
  match s.channel key with
  | some _ => s
  | none => s.setChannel key (some {})

/-- `createChannel` of a private channel, whose id it returns -/
def createPrivateChannel (s : State) (canJoin : CanJoin) (p : PlayerId) (isPremium : Bool) :
    State × Option Nat :=
  if (s.getChannel canJoin p CHANNEL_PRIVATE).isSome then (s, none)
  else if ¬ isPremium ∨ (s.getPrivateChannel p).isSome then (s, none)
  else
    match privateIds.find? fun id => (s.channel (.privateChannel id)).isNone with
    | none => (s, none)
    | some id => (s.setChannel (.privateChannel id) (some { owner := some p }), some id)

/-- The part of `getChannelList` that creates channels -/
def getChannelList (s : State) (p : PlayerId) : State :=
  let s :=
    match s.guild p with
    | some guild => s.emplace (.guildChannel guild)
    | none => s
  match (s.game.player p).party with
  | some party => s.emplace (.partyChannel party)
  | none => s

def deleteChannel (s : State) (p : PlayerId) (id : Nat) : State :=
  if id = CHANNEL_GUILD then
    match s.guild p with
    | some guild => s.setChannel (.guildChannel guild) none
    | none => s
  else if id = CHANNEL_PARTY then
    match (s.game.player p).party with
    | some party => s.setChannel (.partyChannel party) none
    | none => s
  else s.setChannel (.privateChannel id) none

def addUserToChannel (s : State) (canJoin : CanJoin) (p : PlayerId) (id : Nat) : State :=
  match s.getChannel canJoin p id with
  | some key => s.addUser canJoin key p
  | none => s

def removeUserFromChannel (s : State) (canJoin : CanJoin) (p : PlayerId) (id : Nat) : State :=
  match s.getChannel canJoin p id with
  | none => s
  | some key =>
      if p ∈ s.users key then
        let owner := (s.channel key).bind ChatChannel.owner
        let s := s.removeUser key p
        if owner = some p then s.deleteChannel p id else s
      else s

def removeUserFromAllChannels (s : State) (p : PlayerId) : State :=
  { s with
    channel := fun key =>
      (s.channel key).bind fun channel =>
        let channel := { channel with
          invites := channel.invites.filter (· ≠ p)
          users := channel.users.filter (· ≠ p) }
        if channel.owner = some p then none else some channel }

/-- Whom a message is sent to; `speak` is what the script of the channel answers. -/
def talkToChannel (s : State) (canJoin : CanJoin) (speak : Bool) (p : PlayerId) (id : Nat) :
    List PlayerId :=
  match s.getChannel canJoin p id with
  | none => []
  | some key => if speak ∧ p ∈ s.users key then s.users key else []

/-- `load`, of the ids in the file: the users of a channel that is there join anew. -/
def loadChannel (canJoin : CanJoin) (s : State) (id : Nat) : State :=
  match s.channel (.normalChannel id) with
  | some channel =>
      channel.users.foldl (fun s p => s.addUser canJoin (.normalChannel id) p)
        (s.setChannel (.normalChannel id) (some { channel with users := [] }))
  | none => s.setChannel (.normalChannel id) (some {})

/-! ## What players ask for -/

def playerCreatePrivateChannel (s : State) (canJoin : CanJoin) (p : PlayerId) (isPremium : Bool) :
    State :=
  if s.game.players p ∧ isPremium then
    match s.createPrivateChannel canJoin p isPremium with
    | (s, some id) => s.addUser canJoin (.privateChannel id) p
    | (s, none) => s
  else s

/-- What `playerChannelInvite` and `playerChannelExclude` do with the channel of the player -/
def withPrivateChannel (s : State) (p other : PlayerId) (f : ChatChannel → ChatChannel) : State :=
  match s.getPrivateChannel p with
  | none => s
  | some id =>
      if s.game.players other ∧ p ≠ other then
        s.setChannel (.privateChannel id) ((s.channel (.privateChannel id)).map f)
      else s

def invitePlayer (other : PlayerId) (channel : ChatChannel) : ChatChannel :=
  if other ∈ channel.invites then channel
  else { channel with invites := channel.invites ++ [other] }

def excludePlayer (other : PlayerId) (channel : ChatChannel) : ChatChannel :=
  if other ∈ channel.invites then
    { channel with
      invites := channel.invites.filter (· ≠ other)
      users := channel.users.filter (· ≠ other) }
  else channel

/-- `Player::sendClosePrivate` of the party channel -/
def sendClosePrivate (s : State) (p : PlayerId) : State :=
  s.removeUserFromChannel (fun _ _ => true) p CHANNEL_PARTY

/-- The players whose pointer to a party was cleared. -/
def leavers (before after : Game) : List PlayerId :=
  (List.range before.playerAutoID).filter fun p =>
    (before.player p).party.isSome ∧ (after.player p).party.isNone

/-- An operation of the parties. The channel is closed for a player right after its pointer was
cleared. -/
def partyStep (s : State) (ev : Events) (op : Game.Op) : State :=
  let after := s.game.step ev op
  let closed := (leavers s.game after).foldl sendClosePrivate { s with game := after }
  match op with
  | .logout p => if s.game.players p then closed.removeUserFromAllChannels p else closed
  | _ => closed

inductive Action where
  | load (ids : List Nat) (canJoin : CanJoin)
  | requestChannels (p : PlayerId)
  | createPrivateChannel (p : PlayerId) (isPremium : Bool) (canJoin : CanJoin)
  | openChannel (p : PlayerId) (id : Nat) (canJoin : CanJoin)
  | closeChannel (p : PlayerId) (id : Nat) (canJoin : CanJoin)
  /-- What is said changes no channel: `talkToChannel` says who is sent it. -/
  | talk (p : PlayerId) (id : Nat) (canJoin : CanJoin) (speak : Bool)
  | channelInvite (p other : PlayerId)
  | channelExclude (p other : PlayerId)
  /-- A player connects to the character, which was in the game. -/
  | connect (p : PlayerId)
  | party (ev : Events) (op : Game.Op)

def step (s : State) : Action → State
  | .load ids canJoin => ids.foldl (loadChannel canJoin) s
  | .requestChannels p => if s.game.players p then s.getChannelList p else s
  | .createPrivateChannel p isPremium canJoin => s.playerCreatePrivateChannel canJoin p isPremium
  | .openChannel p id canJoin =>
      if s.game.players p then s.addUserToChannel canJoin p id else s
  | .closeChannel p id canJoin =>
      if s.game.players p then s.removeUserFromChannel canJoin p id else s
  | .talk _ _ _ _ => s
  | .channelInvite p other =>
      if s.game.players p then s.withPrivateChannel p other (invitePlayer other) else s
  | .channelExclude p other =>
      if s.game.players p then s.withPrivateChannel p other (excludePlayer other) else s
  | .connect p => s.removeUserFromAllChannels p
  | .party ev op => s.partyStep ev op

/-! ## What is to hold -/

/-- A user of the channel of a party belongs to the party, one of a private channel owns it or is
invited, and every user is in the game. -/
structure Good (s : State) : Prop where
  party : ∀ P, ∀ p ∈ s.users (.partyChannel P),
    ∃ party, s.game.party P = some party ∧ party.Holds p
  invited : ∀ id channel, s.channel (.privateChannel id) = some channel →
    ∀ p ∈ channel.users, channel.isInvited p
  online : ∀ key, ∀ p ∈ s.users key, s.game.players p = true

/-- Who closes a channel is sent nothing that is said in it. -/
def Closed (s : State) (p : PlayerId) (id : Nat) : Prop :=
  (∀ key : ChannelKey, key.id = id → p ∉ s.users key) ∧
    ∀ canJoin speak other, p ∉ s.talkToChannel canJoin speak other id

/-- The player asks for the channel of the id. -/
def Action.Joins (action : Action) (p : PlayerId) (id : Nat) : Prop :=
  match action with
  | .openChannel p' id' _ => p' = p ∧ id' = id
  | .createPrivateChannel p' _ _ => p' = p
  | _ => False

/-- Nobody becomes a user without asking for it, so a closed channel stays closed until then. -/
structure Kept (s : State) (action : Action) : Prop where
  good : Good (s.step action)
  closed : ∀ p id canJoin, action = .closeChannel p id canJoin → Closed (s.step action) p id
  joins : ∀ key, ∀ p ∈ (s.step action).users key, p ∈ s.users key ∨ action.Joins p key.id

/-- Who is let go by its party is not in the channel, unless it goes for good; who closes a channel
still finds it. -/
def Reached (s : State) : Action → Prop
  | .party ev op => ∀ P, ∀ p ∈ s.users (.partyChannel P),
      op = .logout p ∨ ((s.game.step ev op).player p).party = some P
  | .closeChannel p id canJoin => ∀ key : ChannelKey, key.id = id → p ∈ s.users key →
      s.getChannel canJoin p id = some key
  | _ => True

/-! ## Reading a channel after a write -/

variable {s : State} {canJoin : CanJoin} {p p' : PlayerId} {id : Nat} {key key' : ChannelKey}

theorem mem_users : p ∈ s.users key ↔ ∃ channel, s.channel key = some channel ∧
    p ∈ channel.users := by
  rw [users]
  cases s.channel key <;> simp

theorem mem_users_setChannel {channel : Option ChatChannel} :
    p ∈ (s.setChannel key channel).users key' ↔
      (key' = key ∧ ∃ c, channel = some c ∧ p ∈ c.users) ∨ (key' ≠ key ∧ p ∈ s.users key') := by
  rw [mem_users, mem_users, setChannel]
  dsimp only
  rcases eq_or_ne key' key with rfl | hne
  · simp
  · simp [hne]

theorem find_some (h : s.find key = some key') : key' = key ∧ (s.channel key).isSome := by
  rw [find, Option.map_eq_some_iff] at h
  obtain ⟨channel, hchannel, rfl⟩ := h
  exact ⟨rfl, by rw [hchannel]; rfl⟩

/-- What it takes to be a user of a channel. -/
def Admits (g : Game) (key : ChannelKey) (channel : ChatChannel) (p : PlayerId) : Prop :=
  g.players p = true ∧
    match key with
    | .partyChannel P => (g.player p).party = some P
    | .privateChannel _ => channel.isInvited p
    | _ => True

/-- A player is only given channels of that id, which it may use. -/
theorem getChannel_some (h : s.getChannel canJoin p id = some key) :
    key.id = id ∧ ∃ channel, s.channel key = some channel ∧
      (s.game.players p = true → Admits s.game key channel p) := by
  rw [getChannel] at h
  split at h
  · next hid =>
      obtain ⟨guild, _, hfind⟩ := Option.bind_eq_some_iff.mp h
      obtain ⟨rfl, hsome⟩ := find_some hfind
      obtain ⟨channel, hchannel⟩ := Option.isSome_iff_exists.mp hsome
      exact ⟨hid.symm, channel, hchannel, fun hp => ⟨hp, trivial⟩⟩
  · split at h
    · next hid =>
        obtain ⟨party, hparty, hfind⟩ := Option.bind_eq_some_iff.mp h
        obtain ⟨rfl, hsome⟩ := find_some hfind
        obtain ⟨channel, hchannel⟩ := Option.isSome_iff_exists.mp hsome
        exact ⟨hid.symm, channel, hchannel, fun hp => ⟨hp, hparty⟩⟩
    · split at h
      · next channel hchannel =>
          split at h
          · cases h
            exact ⟨rfl, channel, hchannel, fun hp => ⟨hp, trivial⟩⟩
          · cases h
      · split at h
        · next channel hchannel =>
            split at h
            · next hinvited =>
                cases h
                exact ⟨rfl, channel, hchannel, fun hp => ⟨hp, hinvited⟩⟩
            · cases h
        · cases h

theorem createPrivateChannel_cases (s : State) (canJoin : CanJoin) (p : PlayerId)
    (isPremium : Bool) :
    s.createPrivateChannel canJoin p isPremium = (s, none) ∨
      ∃ id, s.createPrivateChannel canJoin p isPremium =
        (s.setChannel (.privateChannel id) (some { owner := some p }), some id) := by
  rw [createPrivateChannel]
  split
  · exact .inl rfl
  · split
    · exact .inl rfl
    · split
      · exact .inl rfl
      · next id _ => exact .inr ⟨id, rfl⟩

@[simp] theorem addUser_game : (s.addUser canJoin key p).game = s.game := by
  rw [addUser]
  repeat' split
  all_goals rfl

theorem Admits.of_invited {g : Game} {channel channel' : ChatChannel}
    (h : Admits g key channel p) (hinvited : channel.isInvited p → channel'.isInvited p) :
    Admits g key channel' p := by
  refine ⟨h.1, ?_⟩
  have hkey := h.2
  cases key with
  | normalChannel id => trivial
  | privateChannel id => exact hinvited hkey
  | partyChannel party => exact hkey
  | guildChannel guild => trivial

/-- Who is left in a channel was there before, is not the player, and is still invited. -/
theorem removeUserFromAllChannels_spec {channel' : ChatChannel}
    (hchannel' : (s.removeUserFromAllChannels p).channel key = some channel')
    (hp' : p' ∈ channel'.users) :
    ∃ channel, s.channel key = some channel ∧ p' ∈ channel.users ∧ p' ≠ p ∧
      (channel.isInvited p' → channel'.isInvited p') := by
  rw [removeUserFromAllChannels] at hchannel'
  dsimp only at hchannel'
  obtain ⟨channel, hchannel, hrest⟩ := Option.bind_eq_some_iff.mp hchannel'
  split at hrest
  · cases hrest
  · cases hrest
    rw [List.mem_filter, decide_eq_true_eq] at hp'
    refine ⟨channel, hchannel, hp'.1, hp'.2, fun hinvited => ?_⟩
    rcases hinvited with howner | hinvites
    · exact .inl howner
    · exact .inr (List.mem_filter.mpr ⟨hinvites, decide_eq_true hp'.2⟩)

/-! ## The invariant -/

structure Inv (s : State) : Prop where
  pointed : s.game.Pointed
  admits : ∀ key channel, s.channel key = some channel →
    ∀ p ∈ channel.users, Admits s.game key channel p

namespace Inv

theorem init (guild : PlayerId → Option Nat) : Inv (init guild) :=
  ⟨Game.init_pointed, fun _ _ h => (by cases h)⟩

theorem good (h : Inv s) : Good s where
  party P p hp := by
    obtain ⟨channel, hchannel, hmem⟩ := mem_users.mp hp
    exact h.pointed.held p P (h.admits _ channel hchannel p hmem).2
  invited id channel hchannel p hp := (h.admits _ channel hchannel p hp).2
  online key p hp := by
    obtain ⟨channel, hchannel, hmem⟩ := mem_users.mp hp
    exact (h.admits _ channel hchannel p hmem).1

theorem setChannel (h : Inv s) {channel : Option ChatChannel}
    (hnew : ∀ c, channel = some c → ∀ p ∈ c.users, Admits s.game key c p) :
    Inv (s.setChannel key channel) := by
  refine ⟨h.pointed, fun key' c hc => ?_⟩
  rw [State.setChannel] at hc
  dsimp only at hc
  rcases eq_or_ne key' key with rfl | hne
  · rw [Function.update_self] at hc
    exact hnew c hc
  · rw [Function.update_of_ne hne] at hc
    exact h.admits key' c hc

theorem addUser (h : Inv s) (hp : ∀ c, s.channel key = some c → Admits s.game key c p) :
    Inv (s.addUser canJoin key p) := by
  rw [State.addUser]
  split
  · exact h
  · next channel hchannel =>
      split
      · exact h
      · split
        · refine h.setChannel ?_
          rintro _ ⟨⟩ p' hp'
          have hadmits : Admits s.game key channel p' := by
            rcases List.mem_append.mp hp' with hp' | hp'
            · exact h.admits key channel hchannel p' hp'
            · rw [List.mem_singleton.mp hp']
              exact hp channel hchannel
          exact hadmits
        · exact h

theorem removeUser (h : Inv s) : Inv (s.removeUser key p) := by
  rw [State.removeUser]
  split
  · exact h
  · next channel hchannel =>
      refine h.setChannel ?_
      rintro _ ⟨⟩ p' hp'
      exact h.admits key channel hchannel p' (List.mem_of_mem_filter hp')

theorem emplace (h : Inv s) : Inv (s.emplace key) := by
  rw [State.emplace]
  split
  · exact h
  · refine h.setChannel ?_
    rintro _ ⟨⟩ p' hp'
    cases hp'

theorem getChannelList (h : Inv s) (p : PlayerId) : Inv (s.getChannelList p) := by
  have hguild : Inv (match s.guild p with
      | some guild => s.emplace (.guildChannel guild)
      | none => s) := by
    split
    · exact h.emplace
    · exact h
  rw [State.getChannelList]
  split
  · exact hguild.emplace
  · exact hguild

theorem deleteChannel (h : Inv s) (p : PlayerId) (id : Nat) : Inv (s.deleteChannel p id) := by
  rw [State.deleteChannel]
  repeat' split
  any_goals exact h
  all_goals exact h.setChannel (by rintro _ ⟨⟩)

theorem addUserToChannel (h : Inv s) (hp : s.game.players p = true) :
    Inv (s.addUserToChannel canJoin p id) := by
  rw [State.addUserToChannel]
  split
  · next key hkey =>
      obtain ⟨_, channel, hchannel, hadmits⟩ := getChannel_some hkey
      refine h.addUser fun c hc => ?_
      obtain rfl : channel = c := Option.some.inj (hchannel.symm.trans hc)
      exact hadmits hp
  · exact h

theorem removeUserFromChannel (h : Inv s) : Inv (s.removeUserFromChannel canJoin p id) := by
  rw [State.removeUserFromChannel]
  split
  · exact h
  · split
    · dsimp only
      split
      · exact h.removeUser.deleteChannel p id
      · exact h.removeUser
    · exact h

theorem playerCreatePrivateChannel (h : Inv s) (isPremium : Bool) :
    Inv (s.playerCreatePrivateChannel canJoin p isPremium) := by
  rw [State.playerCreatePrivateChannel]
  split
  · next hp =>
      rcases createPrivateChannel_cases s canJoin p isPremium with heq | ⟨id, heq⟩
      · rw [heq]
        exact h
      · rw [heq]
        have hnew : Inv (s.setChannel (.privateChannel id) (some { owner := some p })) := by
          refine h.setChannel ?_
          rintro _ ⟨⟩ p' hp'
          cases hp'
        refine hnew.addUser fun c hc => ⟨hp.1, ?_⟩
        rw [State.setChannel] at hc
        dsimp only at hc
        rw [Function.update_self] at hc
        cases hc
        exact .inl rfl
  · exact h

theorem withPrivateChannel (h : Inv s) {other : PlayerId} {f : ChatChannel → ChatChannel}
    (hf : ∀ channel, ∀ p' ∈ (f channel).users, p' ∈ channel.users ∧
      (channel.isInvited p' → (f channel).isInvited p')) :
    Inv (s.withPrivateChannel p other f) := by
  rw [State.withPrivateChannel]
  split
  · exact h
  · next id _ =>
      split
      · refine h.setChannel fun c hc p' hp' => ?_
        obtain ⟨channel, hchannel, rfl⟩ := Option.map_eq_some_iff.mp hc
        obtain ⟨hmem, hinvited⟩ := hf channel p' hp'
        obtain ⟨honline, hadmits⟩ := h.admits _ channel hchannel p' hmem
        exact ⟨honline, hinvited hadmits⟩
      · exact h

theorem foldl_addUser (canJoin : CanJoin) (id : Nat) (l : List PlayerId) :
    ∀ {s : State}, Inv s → (∀ p ∈ l, s.game.players p = true) →
      Inv (l.foldl (fun s p => s.addUser canJoin (.normalChannel id) p) s) := by
  induction l with
  | nil => exact fun h _ => h
  | cons p l ih =>
      intro s h honline
      refine ih (h.addUser fun c _ => ⟨honline p List.mem_cons_self, trivial⟩) fun p' hp' => ?_
      rw [addUser_game]
      exact honline p' (List.mem_cons_of_mem _ hp')

theorem loadChannel (h : Inv s) (canJoin : CanJoin) (id : Nat) :
    Inv (s.loadChannel canJoin id) := by
  rw [State.loadChannel]
  split
  · next channel hchannel =>
      refine foldl_addUser canJoin id _ (h.setChannel ?_) fun p hp =>
        (h.admits _ channel hchannel p hp).1
      rintro _ ⟨⟩ p hp
      cases hp
  · refine h.setChannel ?_
    rintro _ ⟨⟩ p hp
    cases hp

theorem removeUserFromAllChannels (h : Inv s) (p : PlayerId) :
    Inv (s.removeUserFromAllChannels p) := by
  refine ⟨h.pointed, fun key channel' hchannel' p' hp' => ?_⟩
  obtain ⟨channel, hchannel, hmem, _, hinvited⟩ := removeUserFromAllChannels_spec hchannel' hp'
  have hadmits := h.admits key channel hchannel p' hmem
  exact hadmits.of_invited hinvited

end Inv

/-! ## Who becomes a user -/

/-- No channel gets a user. -/
def Fewer (s s' : State) : Prop := ∀ key, s'.users key ⊆ s.users key

theorem Fewer.refl (s : State) : Fewer s s := fun _ => List.Subset.refl _

theorem Fewer.trans {s s' s'' : State} (h : Fewer s s') (h' : Fewer s' s'') : Fewer s s'' :=
  fun key _ hp => h key (h' key hp)

theorem fewer_setChannel {channel : Option ChatChannel}
    (h : ∀ c, channel = some c → c.users ⊆ s.users key) : Fewer s (s.setChannel key channel) := by
  intro key' p hp
  rcases mem_users_setChannel.mp hp with ⟨rfl, c, hc, hp⟩ | ⟨_, hp⟩
  · exact h c hc hp
  · exact hp

theorem fewer_removeUser : Fewer s (s.removeUser key p) := by
  rw [removeUser]
  split
  · exact .refl s
  · next channel hchannel =>
      refine fewer_setChannel ?_
      rintro _ ⟨⟩ p' hp'
      exact mem_users.mpr ⟨channel, hchannel, List.mem_of_mem_filter hp'⟩

theorem not_mem_removeUser : p ∉ (s.removeUser key p).users key := by
  rw [removeUser]
  split
  · next hchannel =>
      rw [users, hchannel]
      exact List.not_mem_nil
  · intro hp
    rcases mem_users_setChannel.mp hp with ⟨_, c, hc, hp⟩ | ⟨hne, _⟩
    · cases hc
      exact of_decide_eq_true (List.mem_filter.mp hp).2 rfl
    · exact hne rfl

theorem fewer_emplace : Fewer s (s.emplace key) := by
  rw [emplace]
  split
  · exact .refl s
  · refine fewer_setChannel ?_
    rintro _ ⟨⟩ p' hp'
    cases hp'

theorem fewer_getChannelList (s : State) (p : PlayerId) : Fewer s (s.getChannelList p) := by
  have hguild : Fewer s (match s.guild p with
      | some guild => s.emplace (.guildChannel guild)
      | none => s) := by
    split
    · exact fewer_emplace
    · exact .refl s
  rw [getChannelList]
  split
  · exact hguild.trans fewer_emplace
  · exact hguild

theorem fewer_deleteChannel (s : State) (p : PlayerId) (id : Nat) :
    Fewer s (s.deleteChannel p id) := by
  rw [deleteChannel]
  repeat' split
  any_goals exact .refl s
  all_goals exact fewer_setChannel (by rintro _ ⟨⟩)

theorem fewer_removeUserFromChannel :
    Fewer s (s.removeUserFromChannel canJoin p id) := by
  rw [removeUserFromChannel]
  split
  · exact .refl s
  · split
    · dsimp only
      split
      · exact fewer_removeUser.trans (fewer_deleteChannel _ p id)
      · exact fewer_removeUser
    · exact .refl s

theorem fewer_removeUserFromAllChannels : Fewer s (s.removeUserFromAllChannels p) := by
  intro key p' hp'
  obtain ⟨channel', hchannel', hp'⟩ := mem_users.mp hp'
  obtain ⟨channel, hchannel, hmem, _⟩ := removeUserFromAllChannels_spec hchannel' hp'
  exact mem_users.mpr ⟨channel, hchannel, hmem⟩

theorem fewer_withPrivateChannel {other : PlayerId} {f : ChatChannel → ChatChannel}
    (hf : ∀ channel, (f channel).users ⊆ channel.users) :
    Fewer s (s.withPrivateChannel p other f) := by
  rw [withPrivateChannel]
  split
  · exact .refl s
  · split
    · refine fewer_setChannel fun c hc p' hp' => ?_
      obtain ⟨channel, hchannel, rfl⟩ := Option.map_eq_some_iff.mp hc
      exact mem_users.mpr ⟨channel, hchannel, hf channel hp'⟩
    · exact .refl s

/-- Only the player who is added becomes a user. -/
theorem mem_addUser (hp' : p' ∈ (s.addUser canJoin key p).users key') :
    p' ∈ s.users key' ∨ (p' = p ∧ key' = key) := by
  rw [addUser] at hp'
  split at hp'
  · exact .inl hp'
  · next channel hchannel =>
      split at hp'
      · exact .inl hp'
      · split at hp'
        · rcases mem_users_setChannel.mp hp' with ⟨rfl, c, hc, hp'⟩ | ⟨_, hp'⟩
          · cases hc
            rcases List.mem_append.mp hp' with hp' | hp'
            · exact .inl (mem_users.mpr ⟨channel, hchannel, hp'⟩)
            · exact .inr ⟨List.mem_singleton.mp hp', rfl⟩
          · exact .inl hp'
        · exact .inl hp'

theorem mem_addUserToChannel (hp' : p' ∈ (s.addUserToChannel canJoin p id).users key) :
    p' ∈ s.users key ∨ (p' = p ∧ key.id = id) := by
  rw [addUserToChannel] at hp'
  split at hp'
  · next found hfound =>
      rcases mem_addUser hp' with hp' | ⟨heq, rfl⟩
      · exact .inl hp'
      · exact .inr ⟨heq, (getChannel_some hfound).1⟩
  · exact .inl hp'

theorem mem_playerCreatePrivateChannel {isPremium : Bool}
    (hp' : p' ∈ (s.playerCreatePrivateChannel canJoin p isPremium).users key) :
    p' ∈ s.users key ∨ p' = p := by
  rw [playerCreatePrivateChannel] at hp'
  split at hp'
  · rcases createPrivateChannel_cases s canJoin p isPremium with heq | ⟨id, heq⟩
    · rw [heq] at hp'
      exact .inl hp'
    · rw [heq] at hp'
      rcases mem_addUser hp' with hp' | ⟨heq, _⟩
      · rcases mem_users_setChannel.mp hp' with ⟨_, c, hc, hp'⟩ | ⟨_, hp'⟩
        · cases hc
          cases hp'
        · exact .inl hp'
      · exact .inr heq
  · exact .inl hp'

theorem mem_foldl_addUser (l : List PlayerId) :
    ∀ {s : State}, p' ∈ (l.foldl (fun s p => s.addUser canJoin key p) s).users key' →
      p' ∈ s.users key' ∨ (p' ∈ l ∧ key' = key) := by
  induction l with
  | nil => exact fun h => .inl h
  | cons p l ih =>
      intro s h
      rcases ih h with h | ⟨hl, hkey⟩
      · rcases mem_addUser h with h | ⟨rfl, hkey⟩
        · exact .inl h
        · exact .inr ⟨List.mem_cons_self, hkey⟩
      · exact .inr ⟨List.mem_cons_of_mem _ hl, hkey⟩

/-- Who joins anew was a user. -/
theorem fewer_loadChannel (s : State) (canJoin : CanJoin) (id : Nat) :
    Fewer s (s.loadChannel canJoin id) := by
  rw [loadChannel]
  split
  · next channel hchannel =>
      intro key p hp
      rcases mem_foldl_addUser channel.users hp with hnew | ⟨hold, rfl⟩
      · refine fewer_setChannel ?_ key hnew
        rintro _ ⟨⟩ p' hp'
        cases hp'
      · exact mem_users.mpr ⟨channel, hchannel, hold⟩
  · refine fewer_setChannel ?_
    rintro _ ⟨⟩ p' hp'
    cases hp'

/-! ## The operations of the parties -/

/-- Who points to no party does not find the channel of its party. -/
theorem sendClosePrivate_none (h : (s.game.player p).party = none) : s.sendClosePrivate p = s := by
  have hnone : s.getChannel (fun _ _ => true) p CHANNEL_PARTY = none := by
    rw [getChannel, if_neg (by decide), if_pos rfl, h]
    rfl
  rw [sendClosePrivate, removeUserFromChannel, hnone]

theorem foldl_sendClosePrivate (l : List PlayerId) {s : State}
    (h : ∀ p ∈ l, (s.game.player p).party = none) : l.foldl sendClosePrivate s = s := by
  induction l with
  | nil => rfl
  | cons p l ih =>
      rw [List.foldl_cons, sendClosePrivate_none (h p List.mem_cons_self)]
      exact ih fun p' hp' => h p' (List.mem_cons_of_mem _ hp')

/-- The party forgets the players before the channels do, so that no channel does. -/
theorem partyStep_eq (s : State) (ev : Events) (op : Game.Op) :
    s.partyStep ev op =
      match op with
      | .logout p =>
          if s.game.players p then
            ({ s with game := s.game.step ev op } : State).removeUserFromAllChannels p
          else { s with game := s.game.step ev op }
      | _ => { s with game := s.game.step ev op } := by
  have hclosed : (leavers s.game (s.game.step ev op)).foldl sendClosePrivate
      { s with game := s.game.step ev op } = { s with game := s.game.step ev op } := by
    refine foldl_sendClosePrivate _ fun p hp => ?_
    have hleft := of_decide_eq_true (List.mem_filter.mp hp).2
    exact Option.isNone_iff_eq_none.mp hleft.2
  cases op <;> simp only [partyStep, hclosed]

theorem fewer_partyStep (s : State) (ev : Events) (op : Game.Op) :
    Fewer s (s.partyStep ev op) := by
  rw [partyStep_eq]
  split
  · split
    · exact fewer_removeUserFromAllChannels (s := { s with game := _ })
    · exact fun _ => List.Subset.refl _
  · exact fun _ => List.Subset.refl _

theorem Inv.partyStep (h : Inv s) (ev : Events) (op : Game.Op)
    (hc : Reached s (.party ev op)) : Inv (s.partyStep ev op) := by
  have hpointed := Game.step_pointed ev h.pointed op
  -- A user who does not log out is in the game and in the party as before.
  have hadmits : ∀ key channel, s.channel key = some channel → ∀ p ∈ channel.users,
      op ≠ .logout p → Admits (s.game.step ev op) key channel p := by
    intro key channel hchannel p hp hop
    have hold := h.admits key channel hchannel p hp
    refine ⟨Game.step_players ev s.game op hold.1 hop, ?_⟩
    cases key with
    | normalChannel id => trivial
    | privateChannel id => exact hold.2
    | partyChannel P =>
        exact (hc P p (mem_users.mpr ⟨channel, hchannel, hp⟩)).resolve_left hop
    | guildChannel guild => trivial
  have hsame (hnone : ∀ key channel, s.channel key = some channel → ∀ p ∈ channel.users,
      op ≠ .logout p) : Inv { s with game := s.game.step ev op } :=
    ⟨hpointed, fun key channel hchannel p hp =>
      hadmits key channel hchannel p hp (hnone key channel hchannel p hp)⟩
  rw [partyStep_eq]
  cases op with
  | logout x =>
      dsimp only
      split
      · refine ⟨hpointed, fun key channel' hchannel' p hp => ?_⟩
        obtain ⟨channel, hchannel, hmem, hne, hinvited⟩ :=
          removeUserFromAllChannels_spec hchannel' hp
        refine (hadmits key channel hchannel p hmem ?_).of_invited hinvited
        rintro ⟨⟩
        exact hne rfl
      · next hoff =>
          refine hsame fun key channel hchannel p hp => ?_
          rintro ⟨⟩
          exact hoff (h.admits key channel hchannel _ hp).1
  | login => exact hsame fun _ _ _ _ _ => by rintro ⟨⟩
  | create x => exact hsame fun _ _ _ _ _ => by rintro ⟨⟩
  | invite x y => exact hsame fun _ _ _ _ _ => by rintro ⟨⟩
  | revoke x y => exact hsame fun _ _ _ _ _ => by rintro ⟨⟩
  | join x y => exact hsame fun _ _ _ _ _ => by rintro ⟨⟩
  | leave x inFight => exact hsame fun _ _ _ _ _ => by rintro ⟨⟩
  | pass x y => exact hsame fun _ _ _ _ _ => by rintro ⟨⟩
  | disband P => exact hsame fun _ _ _ _ _ => by rintro ⟨⟩

/-! ## Runs -/

theorem invitePlayer_users (other : PlayerId) (channel : ChatChannel) :
    (invitePlayer other channel).users = channel.users := by
  rw [invitePlayer]
  split <;> rfl

theorem excludePlayer_users (other : PlayerId) (channel : ChatChannel) :
    (excludePlayer other channel).users ⊆ channel.users := by
  rw [excludePlayer]
  split
  · exact fun p hp => List.mem_of_mem_filter hp
  · exact List.Subset.refl _

theorem invitePlayer_invited {other : PlayerId} {channel : ChatChannel}
    (h : channel.isInvited p) : (invitePlayer other channel).isInvited p := by
  rw [invitePlayer]
  split
  · exact h
  · rcases h with howner | hinvites
    · exact .inl howner
    · exact .inr (List.mem_append_left _ hinvites)

/-- Whoever stays in the channel of an exclusion stays invited. -/
theorem excludePlayer_invited {other : PlayerId} {channel : ChatChannel}
    (hp : p ∈ (excludePlayer other channel).users) (h : channel.isInvited p) :
    (excludePlayer other channel).isInvited p := by
  rw [excludePlayer] at hp ⊢
  split
  · next hin =>
      rw [if_pos hin] at hp
      rcases h with howner | hinvites
      · exact .inl howner
      · exact .inr (List.mem_filter.mpr ⟨hinvites, (List.mem_filter.mp hp).2⟩)
  · exact h

theorem foldl_loadChannel (canJoin : CanJoin) (ids : List Nat) :
    ∀ s : State, (Inv s → Inv (ids.foldl (loadChannel canJoin) s)) ∧
      Fewer s (ids.foldl (loadChannel canJoin) s) := by
  induction ids with
  | nil => exact fun s => ⟨id, .refl s⟩
  | cons id ids ih =>
      intro s
      obtain ⟨hinv, hfewer⟩ := ih (s.loadChannel canJoin id)
      exact ⟨fun h => hinv (h.loadChannel canJoin id),
        (fewer_loadChannel s canJoin id).trans hfewer⟩

theorem Inv.step (h : Inv s) {action : Action} (hc : Reached s action) :
    Inv (s.step action) := by
  cases action with
  | load ids canJoin => exact (foldl_loadChannel canJoin ids s).1 h
  | requestChannels p =>
      rw [State.step]
      split
      · exact h.getChannelList p
      · exact h
  | createPrivateChannel p isPremium canJoin => exact h.playerCreatePrivateChannel isPremium
  | openChannel p id canJoin =>
      rw [State.step]
      split
      · next hp => exact h.addUserToChannel hp
      · exact h
  | closeChannel p id canJoin =>
      rw [State.step]
      split
      · exact h.removeUserFromChannel
      · exact h
  | talk x id canJoin speak => exact h
  | channelInvite p other =>
      rw [State.step]
      split
      · refine h.withPrivateChannel fun channel p' hp' => ?_
        rw [invitePlayer_users] at hp'
        exact ⟨hp', invitePlayer_invited⟩
      · exact h
  | channelExclude p other =>
      rw [State.step]
      split
      · exact h.withPrivateChannel fun channel p' hp' =>
          ⟨excludePlayer_users other channel hp', excludePlayer_invited hp'⟩
      · exact h
  | connect p => exact h.removeUserFromAllChannels p
  | party ev op => exact h.partyStep ev op hc

theorem mem_step {action : Action} (hp : p ∈ (s.step action).users key) :
    p ∈ s.users key ∨ action.Joins p key.id := by
  cases action with
  | load ids canJoin => exact .inl ((foldl_loadChannel canJoin ids s).2 key hp)
  | requestChannels x =>
      rw [step] at hp
      split at hp
      · exact .inl (fewer_getChannelList s x key hp)
      · exact .inl hp
  | createPrivateChannel x isPremium canJoin =>
      rcases mem_playerCreatePrivateChannel hp with hp | heq
      · exact .inl hp
      · exact .inr heq.symm
  | openChannel x id canJoin =>
      rw [step] at hp
      split at hp
      · rcases mem_addUserToChannel hp with hp | ⟨heq, hid⟩
        · exact .inl hp
        · exact .inr ⟨heq.symm, hid.symm⟩
      · exact .inl hp
  | closeChannel x id canJoin =>
      rw [step] at hp
      split at hp
      · exact .inl (fewer_removeUserFromChannel key hp)
      · exact .inl hp
  | talk x id canJoin speak => exact .inl hp
  | channelInvite x other =>
      rw [step] at hp
      split at hp
      · refine .inl (fewer_withPrivateChannel (fun channel => ?_) key hp)
        rw [invitePlayer_users]
        exact List.Subset.refl _
      · exact .inl hp
  | channelExclude x other =>
      rw [step] at hp
      split at hp
      · exact .inl (fewer_withPrivateChannel (excludePlayer_users other) key hp)
      · exact .inl hp
  | connect x => exact .inl (fewer_removeUserFromAllChannels key hp)
  | party ev op => exact .inl (fewer_partyStep s ev op key hp)

/-- Who is in no channel of the id is sent nothing there. -/
theorem closed_of_not_mem (h : ∀ key : ChannelKey, key.id = id → p ∉ s.users key) :
    Closed s p id := by
  refine ⟨h, fun canJoin speak other hp => ?_⟩
  rw [talkToChannel] at hp
  split at hp
  · cases hp
  · next key hkey =>
      split at hp
      · exact h key (getChannel_some hkey).1 hp
      · cases hp

/-- Who finds the channel it is in leaves it. -/
theorem Inv.closed (h : Inv s) (hc : Reached s (.closeChannel p id canJoin)) :
    Closed (s.step (.closeChannel p id canJoin)) p id := by
  refine closed_of_not_mem fun key hid hp => ?_
  have hmem : p ∈ s.users key := (mem_step hp).resolve_right fun hjoins => hjoins
  have hkey := hc key hid hmem
  obtain ⟨channel, hchannel, hin⟩ := mem_users.mp hmem
  have honline : s.game.players p = true := (h.admits key channel hchannel p hin).1
  rw [State.step, if_pos honline, State.removeUserFromChannel, hkey] at hp
  dsimp only at hp
  rw [if_pos hmem] at hp
  have hremoved : p ∈ (s.removeUser key p).users key := by
    split at hp
    · exact fewer_deleteChannel _ p _ key hp
    · exact hp
  exact not_mem_removeUser hremoved

/-- The users of the channels are right in every run in which parties let nobody go who is in their
channel and players still find the channels that they close. -/
theorem channels_kept_throughout (guild : PlayerId → Option Nat) (actions : List Action)
    (hc : Throughout step Reached (init guild) actions) :
    Throughout step Kept (init guild) actions :=
  throughout_of_inv
    (fun _ _ h hc => h.step hc)
    (fun _ _ h hc => ⟨(h.step hc).good, fun _ _ _ heq => (by subst heq; exact h.closed hc),
      fun _ _ hp => mem_step hp⟩)
    (Inv.init guild) hc

/-- Of two members of a party, the leader asks for the channels. -/
def twoMembers : List Action :=
  [.party (Game.scripts true) .login, .party (Game.scripts true) .login,
    .party (Game.scripts true) (.invite 0 1), .party (Game.scripts true) (.join 1 0),
    .requestChannels 0]

/-- The other opens the channel of the party and closes it before leaving. -/
theorem kept_throughout_two :
    Throughout step Kept (init fun _ => none)
      (twoMembers ++ [.openChannel 1 CHANNEL_PARTY fun _ _ => true,
        .closeChannel 1 CHANNEL_PARTY fun _ _ => true,
        .party (Game.scripts true) (.leave 1 false)]) := by
  -- Only the channel of the one party has a user.
  have honly : ∀ key, ∀ p ∈ (run step (init fun _ => none)
      (twoMembers ++ [.openChannel 1 CHANNEL_PARTY fun _ _ => true])).users key,
      key = .partyChannel 0 ∧ p = 1 := by
    intro key p hp
    rcases mem_users_setChannel.mp hp with ⟨rfl, c, hc, hp⟩ | ⟨_, hp⟩
    · cases hc
      exact ⟨rfl, List.mem_singleton.mp hp⟩
    · rcases mem_users_setChannel.mp hp with ⟨_, c, hc, hp⟩ | ⟨_, hp⟩
      · cases hc
        cases hp
      · cases hp
  have hclose : Reached (run step (init fun _ => none)
      (twoMembers ++ [.openChannel 1 CHANNEL_PARTY fun _ _ => true]))
      (.closeChannel 1 CHANNEL_PARTY fun _ _ => true) := by
    intro key _ hp
    rw [(honly key 1 hp).1]
    rfl
  have hleave : Reached (run step (init fun _ => none)
      (twoMembers ++ [.openChannel 1 CHANNEL_PARTY fun _ _ => true,
        .closeChannel 1 CHANNEL_PARTY fun _ _ => true]))
      (.party (Game.scripts true) (.leave 1 false)) := by
    intro P p hp
    change p ∈ ((run step (init fun _ => none)
      (twoMembers ++ [.openChannel 1 CHANNEL_PARTY fun _ _ => true])).step
        (.closeChannel 1 CHANNEL_PARTY fun _ _ => true)).users _ at hp
    obtain ⟨hkey, rfl⟩ := honly _ p ((mem_step hp).resolve_right fun hjoins => hjoins)
    rw [hkey] at hp
    cases hp
  have hempty : ∀ {s : State} {ev : Events} {op : Game.Op}, (∀ key, s.users key = []) →
      Reached s (.party ev op) := by
    intro s ev op h P p hp
    rw [h] at hp
    cases hp
  refine channels_kept_throughout _ _ ?_
  refine throughout_cons.mpr ⟨hempty fun _ => rfl, ?_⟩
  refine throughout_cons.mpr ⟨hempty fun _ => rfl, ?_⟩
  refine throughout_cons.mpr ⟨hempty fun _ => rfl, ?_⟩
  refine throughout_cons.mpr ⟨hempty fun _ => rfl, ?_⟩
  refine throughout_cons.mpr ⟨trivial, ?_⟩
  refine throughout_cons.mpr ⟨trivial, ?_⟩
  refine throughout_cons.mpr ⟨hclose, ?_⟩
  exact throughout_cons.mpr ⟨hleave, throughout_nil⟩

/-- Who leaves the party stays in its channel. -/
theorem left_stays :
    ¬ ∀ (guild : PlayerId → Option Nat) (actions : List Action),
      Throughout step Kept (init guild) actions := by
  intro hall
  have hkept := hall (fun _ => none)
    (twoMembers ++ [.openChannel 1 CHANNEL_PARTY fun _ _ => true,
      .party (Game.scripts true) (.leave 1 false)])
    (twoMembers ++ [.openChannel 1 CHANNEL_PARTY fun _ _ => true])
    (.party (Game.scripts true) (.leave 1 false)) [] rfl
  obtain ⟨party, hparty, _⟩ := hkept.good.party 0 1 (by decide)
  cases hparty

end State

end Bruxo.Chat
