import Bruxo.Lib.Ascii
import Bruxo.Lib.Tables

/-!
# Access lists of houses

`AccessList::parseList` reads the text of a guest or door list line by line: a line is a player, a
guild after an `@`, a guild and a rank of it with an `@` between them, or `*` for everyone. What it
names is looked up among the players and guilds that are loaded and then in the database, which
compares names without the case of letters, and kept as ids of players and of ranks.
-/

namespace Bruxo.HouseAccess

open Ascii Table

def atSign : UInt8 := 0x40

def hash : UInt8 := 0x23

def star : UInt8 := 0x2A

def exclamation : UInt8 := 0x21

def question : UInt8 := 0x3F

abbrev lower (text : Text) : Text := text.map Ascii.toLower

structure GuildRank where
  id : UInt32
  name : Text
  deriving DecidableEq

structure Guild where
  id : UInt32
  name : Text
  ranks : List GuildRank
  deriving DecidableEq

abbrev Guild.lowerName (guild : Guild) : Text := lower guild.name

/-- `Guild::getRankByName`: the first rank with exactly the name. -/
def Guild.getRankByName (guild : Guild) (name : Text) : Option GuildRank :=
  guild.ranks.find? fun rank => rank.name = name

structure Player where
  guid : UInt32
  name : Text
  guild : Option Guild
  guildRank : Option GuildRank
  deriving DecidableEq

abbrev Player.lowerName (player : Player) : Text := lower player.name

/-- The players and guilds of the database, those of them that are loaded, and what the keys of the
tables and the loading of a player promise of them. -/
structure World where
  players : List Player
  online : List Player
  guilds : List Guild
  loaded : List Guild
  online_players : ∀ player ∈ online, player ∈ players
  loaded_guilds : ∀ guild ∈ loaded, guild ∈ guilds
  guids : UniqueKey Player.guid players
  guid_ne_zero : ∀ player ∈ players, player.guid ≠ 0
  names : UniqueKey Player.lowerName players
  guildIds : UniqueKey Guild.id guilds
  guildId_ne_zero : ∀ guild ∈ guilds, guild.id ≠ 0
  guildNames : UniqueKey Guild.lowerName guilds
  rankIds : ∀ guild ∈ guilds, ∀ other ∈ guilds, ∀ rank ∈ guild.ranks, ∀ rank' ∈ other.ranks,
    rank.id = rank'.id → guild = other ∧ rank = rank'
  rank_of_guild : ∀ player ∈ players, ∀ guild, player.guild = some guild →
    guild ∈ guilds ∧ ∃ rank ∈ guild.ranks, player.guildRank = some rank
  guild_of_rank : ∀ player ∈ players, ∀ rank, player.guildRank = some rank →
    ∃ guild, player.guild = some guild

variable (w : World)

/-- `Game::getPlayerByName`, on names in small letters. -/
def getPlayerByName (s : Text) : Option Player :=
  if s.isEmpty then none else lookup Player.lowerName w.online (lower s)

/-- `IOLoginData::getGuidByName` -/
def getGuidByName (name : Text) : UInt32 :=
  match lookup Player.lowerName w.players (lower name) with
  | none => 0
  | some player => player.guid

/-- `IOGuild::getGuildIdByName` -/
def getGuildIdByName (name : Text) : UInt32 :=
  match lookup Guild.lowerName w.guilds (lower name) with
  | none => 0
  | some guild => guild.id

/-- `Game::getGuild` -/
def getGuild (id : UInt32) : Option Guild := lookup Guild.id w.loaded id

/-- `IOGuild::loadGuild` -/
def loadGuild (guildId : UInt32) : Option Guild := lookup Guild.id w.guilds guildId

def getGuildByName (name : Text) : Option Guild :=
  let guildId := getGuildIdByName w name
  if guildId = 0 then
    none
  else
    match getGuild w guildId with
    | some guild => some guild
    | none => loadGuild w guildId

structure AccessList where
  list : Text
  playerList : List UInt32
  guildRankList : List UInt32
  allowEveryone : Bool
  deriving DecidableEq

namespace AccessList

def addPlayer (self : AccessList) (name : Text) : AccessList :=
  match getPlayerByName w name with
  | some player => { self with playerList := player.guid :: self.playerList }
  | none =>
      let guid := getGuidByName w name
      if guid ≠ 0 then
        { self with playerList := guid :: self.playerList }
      else
        self

def addGuild (self : AccessList) (name : Text) : AccessList :=
  match getGuildByName w name with
  | some guild =>
      { self with guildRankList := guild.ranks.map GuildRank.id ++ self.guildRankList }
  | none => self

def addGuildRank (self : AccessList) (name rankName : Text) : AccessList :=
  match getGuildByName w name with
  | some guild =>
      match guild.getRankByName rankName with
      | some rank => { self with guildRankList := rank.id :: self.guildRankList }
      | none => self
  | none => self

/-- What is done with a line that is not left out, trimmed and in small letters. -/
def addLine (self : AccessList) (line : Text) : AccessList :=
  match line.idxOf? atSign with
  | some at_pos =>
      if at_pos = 0 then
        addGuild w self (line.drop 1)
      else
        addGuildRank w self (line.take (at_pos - 1)) (line.drop (at_pos + 1))
  | none =>
      if line = [star] then
        { self with allowEveryone := true }
      else if exclamation ∈ line ∨ star ∈ line ∨ question ∈ line then
        self -- regexp no longer supported
      else
        addPlayer w self line

/-- The loop over the lines, with the number of the line it is at. -/
def parseLoop (lineNo : Nat) (self : AccessList) : List Text → AccessList
  | [] => self
  | line :: rest =>
      if lineNo + 1 > 100 then
        self
      else
        let line := trim line
        if line.isEmpty ∨ line.head? = some hash ∨ line.length > 100 then
          parseLoop (lineNo + 1) self rest
        else
          parseLoop (lineNo + 1) (addLine w self (lower line)) rest

def parseList (list : Text) : AccessList :=
  let self : AccessList := ⟨list, [], [], false⟩
  if list.isEmpty then
    self
  else
    -- the stream reads the list as a text that ends at a zero
    parseLoop w 1 self (lines (cString list))

def isInList (self : AccessList) (player : Player) : Bool :=
  self.allowEveryone || self.playerList.contains player.guid ||
    match player.guildRank with
    | some rank => self.guildRankList.contains rank.id
    | none => false

end AccessList

section Names

variable {w}

/-- Names that are already in small letters may be looked up as they are. -/
theorem lower_lower (text : Text) : lower (lower text) = lower text := by
  rw [lower, List.map_map]
  exact List.map_congr_left fun c _ => toLower_toLower c

theorem getGuidByName_iff {player : Player} (hplayer : player ∈ w.players) (name : Text) :
    getGuidByName w name = player.guid ↔ player.lowerName = lower name := by
  constructor
  · intro h
    rw [getGuidByName] at h
    cases hlookup : lookup Player.lowerName w.players (lower name) with
    | none =>
        rw [hlookup] at h
        exact absurd h.symm (w.guid_ne_zero player hplayer)
    | some found =>
        rw [hlookup] at h
        obtain rfl := w.guids found (mem_of_lookup hlookup) player hplayer h
        exact key_of_lookup hlookup
  · intro h
    rw [getGuidByName, w.names.lookup_iff.mpr ⟨hplayer, h⟩]

theorem getPlayerByName_spec {found : Player} {name : Text}
    (h : getPlayerByName w name = some found) :
    found ∈ w.players ∧ found.lowerName = lower name := by
  rw [getPlayerByName] at h
  split at h
  · cases h
  · exact ⟨w.online_players found (mem_of_lookup h), key_of_lookup h⟩

/-- A guild is found by its name whether it is loaded or not. -/
theorem getGuildByName_iff {guild : Guild} (hguild : guild ∈ w.guilds) (name : Text) :
    getGuildByName w name = some guild ↔ guild.lowerName = lower name := by
  have hids : ∀ g ∈ w.guilds, (match getGuild w g.id with
      | some guild => some guild
      | none => loadGuild w g.id) = some g := by
    intro g hg
    cases hloaded : getGuild w g.id with
    | none => exact w.guildIds.lookup_iff.mpr ⟨hg, rfl⟩
    | some other =>
        have hmem := w.loaded_guilds other (mem_of_lookup hloaded)
        rw [w.guildIds other hmem g hg (key_of_lookup hloaded)]
  rw [getGuildByName, getGuildIdByName]
  cases hlookup : lookup Guild.lowerName w.guilds (lower name) with
  | none => exact iff_of_false (by simp) (lookup_none hlookup hguild)
  | some found =>
      have hfound := mem_of_lookup hlookup
      dsimp only
      rw [if_neg (w.guildId_ne_zero found hfound), hids found hfound, Option.some.injEq]
      constructor
      · rintro rfl
        exact key_of_lookup hlookup
      · intro hname
        exact w.guildNames found hfound guild hguild ((key_of_lookup hlookup).trans hname.symm)

theorem getGuildByName_mem {guild : Guild} {name : Text} (h : getGuildByName w name = some guild) :
    guild ∈ w.guilds := by
  rw [getGuildByName] at h
  split at h
  · cases h
  · split at h
    · next found hloaded =>
        obtain rfl := Option.some.inj h
        exact w.loaded_guilds found (mem_of_lookup hloaded)
    · exact mem_of_lookup h

end Names

namespace AccessList

variable {w} {self : AccessList} {player : Player}

theorem isInList_iff : self.isInList player = true ↔
    self.allowEveryone = true ∨ player.guid ∈ self.playerList ∨
      ∃ rank, player.guildRank = some rank ∧ rank.id ∈ self.guildRankList := by
  rw [isInList, Bool.or_eq_true, Bool.or_eq_true, or_assoc, List.contains_iff_mem]
  refine or_congr Iff.rfl (or_congr Iff.rfl ?_)
  cases player.guildRank with
  | none => simp
  | some rank => simp

theorem isInList_addPlayer (hplayer : player ∈ w.players) (name : Text) :
    (addPlayer w self name).isInList player = true ↔
      self.isInList player = true ∨ player.lowerName = lower name := by
  have hadd : ∀ guid : UInt32, (guid = player.guid ↔ player.lowerName = lower name) →
      (({ self with playerList := guid :: self.playerList } : AccessList).isInList player = true ↔
        self.isInList player = true ∨ player.lowerName = lower name) := by
    intro guid hguid
    rw [isInList_iff, isInList_iff, List.mem_cons, ← hguid]
    constructor
    · rintro (h | (h | h) | h)
      · exact Or.inl (Or.inl h)
      · exact Or.inr h.symm
      · exact Or.inl (Or.inr (Or.inl h))
      · exact Or.inl (Or.inr (Or.inr h))
    · rintro ((h | h | h) | h)
      · exact Or.inl h
      · exact Or.inr (Or.inl (Or.inr h))
      · exact Or.inr (Or.inr h)
      · exact Or.inr (Or.inl (Or.inl h.symm))
  rw [addPlayer]
  split
  · next found hfound =>
      obtain ⟨hmem, hname⟩ := getPlayerByName_spec hfound
      refine hadd found.guid ⟨fun hguid => ?_, fun h => ?_⟩
      · rw [← w.guids found hmem player hplayer hguid, hname]
      · rw [w.names found hmem player hplayer (hname.trans h.symm)]
  · dsimp only
    split
    · exact hadd _ (getGuidByName_iff hplayer name)
    · next hzero =>
        have hzero := not_not.mp hzero
        have hne : ¬ player.lowerName = lower name := fun h =>
          w.guid_ne_zero player hplayer
            (((getGuidByName_iff hplayer name).mpr h).symm.trans hzero)
        rw [or_iff_left hne]

/-- The rank of the player is in a list of ids of ranks of a guild if and only if the guild is the
one of the player and the rank is among those ranks. -/
theorem rank_mem_ids (hplayer : player ∈ w.players) {guild : Guild} (hguild : guild ∈ w.guilds)
    {ranks : List GuildRank} (hranks : ∀ rank ∈ ranks, rank ∈ guild.ranks) {rank : GuildRank}
    (hrank : player.guildRank = some rank) :
    rank.id ∈ ranks.map GuildRank.id ↔ player.guild = some guild ∧ rank ∈ ranks := by
  obtain ⟨own, hown⟩ := w.guild_of_rank player hplayer rank hrank
  obtain ⟨hmem, rank', hrank', hsame⟩ := w.rank_of_guild player hplayer own hown
  obtain rfl := Option.some.inj (hrank.symm.trans hsame)
  constructor
  · intro h
    obtain ⟨other, hother, hid⟩ := List.mem_map.mp h
    obtain ⟨rfl, rfl⟩ := w.rankIds guild hguild own hmem other (hranks other hother) rank hrank' hid
    exact ⟨hown, hother⟩
  · rintro ⟨-, h⟩
    exact List.mem_map_of_mem h

theorem isInList_addRanks (hplayer : player ∈ w.players) {guild : Guild} (hguild : guild ∈ w.guilds)
    {ranks : List GuildRank} (hranks : ∀ rank ∈ ranks, rank ∈ guild.ranks) :
    ({ self with guildRankList := ranks.map GuildRank.id ++ self.guildRankList } :
        AccessList).isInList player = true ↔
      self.isInList player = true ∨
        player.guild = some guild ∧ ∃ rank ∈ ranks, player.guildRank = some rank := by
  rw [isInList_iff, isInList_iff, or_assoc, or_assoc]
  refine or_congr Iff.rfl (or_congr Iff.rfl ?_)
  constructor
  · rintro ⟨rank, hrank, hmem⟩
    rcases List.mem_append.mp hmem with h | h
    · obtain ⟨hown, hin⟩ := (rank_mem_ids hplayer hguild hranks hrank).mp h
      exact Or.inr ⟨hown, rank, hin, hrank⟩
    · exact Or.inl ⟨rank, hrank, h⟩
  · rintro (⟨rank, hrank, h⟩ | ⟨hown, rank, hin, hrank⟩)
    · exact ⟨rank, hrank, List.mem_append_right _ h⟩
    · exact ⟨rank, hrank, List.mem_append_left _
        ((rank_mem_ids hplayer hguild hranks hrank).mpr ⟨hown, hin⟩)⟩

theorem isInList_addGuild (hplayer : player ∈ w.players) (name : Text) :
    (addGuild w self name).isInList player = true ↔
      self.isInList player = true ∨
        ∃ guild, player.guild = some guild ∧ guild.lowerName = lower name := by
  rw [addGuild]
  split
  · next found hfound =>
      have hmem := getGuildByName_mem hfound
      rw [isInList_addRanks hplayer hmem fun _ h => h]
      refine or_congr Iff.rfl ⟨?_, ?_⟩
      · rintro ⟨hown, -⟩
        exact ⟨found, hown, (getGuildByName_iff hmem name).mp hfound⟩
      · rintro ⟨guild, hown, hname⟩
        obtain ⟨hguild, hrank⟩ := w.rank_of_guild player hplayer guild hown
        have hsame := (getGuildByName_iff hguild name).mpr hname
        obtain rfl := Option.some.inj (hfound.symm.trans hsame)
        exact ⟨hown, hrank⟩
  · next hnone =>
      refine (or_iff_left ?_).symm
      rintro ⟨guild, hown, hname⟩
      have hguild := (w.rank_of_guild player hplayer guild hown).1
      rw [(getGuildByName_iff hguild name).mpr hname] at hnone
      cases hnone

theorem isInList_addGuildRank (hplayer : player ∈ w.players) (name rankName : Text) :
    (addGuildRank w self name rankName).isInList player = true ↔
      self.isInList player = true ∨
        ∃ guild rank, player.guild = some guild ∧ guild.lowerName = lower name ∧
          player.guildRank = some rank ∧ guild.getRankByName rankName = some rank := by
  have hlost : ∀ found, getGuildByName w name = found →
      (∀ guild rank, found = some guild → guild.getRankByName rankName ≠ some rank) →
      ¬ ∃ guild rank, player.guild = some guild ∧ guild.lowerName = lower name ∧
        player.guildRank = some rank ∧ guild.getRankByName rankName = some rank := by
    rintro found hfound hno ⟨guild, rank, hown, hname, -, hrank⟩
    have hguild := (w.rank_of_guild player hplayer guild hown).1
    have hsame := (getGuildByName_iff hguild name).mpr hname
    exact hno guild rank (hfound.symm.trans hsame) hrank
  rw [addGuildRank]
  split
  · next found hfound =>
      have hmem := getGuildByName_mem hfound
      split
      · next rank hrank =>
          have hin : rank ∈ found.ranks := List.mem_of_find?_eq_some hrank
          have hranks : ∀ other ∈ [rank], other ∈ found.ranks := by
            intro other hother
            obtain rfl := List.mem_singleton.mp hother
            exact hin
          refine (isInList_addRanks hplayer hmem hranks).trans ?_
          refine or_congr Iff.rfl ⟨?_, ?_⟩
          · rintro ⟨hown, other, hother, howns⟩
            obtain rfl := List.mem_singleton.mp hother
            exact ⟨found, other, hown, (getGuildByName_iff hmem name).mp hfound, howns, hrank⟩
          · rintro ⟨guild, other, hown, hname, howns, hother⟩
            have hguild := (w.rank_of_guild player hplayer guild hown).1
            have hsame := (getGuildByName_iff hguild name).mpr hname
            obtain rfl := Option.some.inj (hfound.symm.trans hsame)
            obtain rfl := Option.some.inj (hrank.symm.trans hother)
            exact ⟨hown, rank, List.mem_singleton_self rank, howns⟩
      · next hnone =>
          refine (or_iff_left (hlost _ hfound ?_)).symm
          rintro guild rank hsame hrank
          obtain rfl := Option.some.inj hsame
          rw [hnone] at hrank
          cases hrank
  · next hnone =>
      refine (or_iff_left (hlost _ hnone ?_)).symm
      rintro guild rank hsame
      cases hsame

end AccessList

section Lines

variable {w} {self : AccessList} {player : Player} {line : Text}

/-- A line that names the player, its guild or everyone. -/
def Plain (player : Player) (line : Text) : Prop :=
  line = [star] ∨
    (line = player.lowerName ∧ line ≠ [] ∧ atSign ∉ line ∧
      ¬ (exclamation ∈ line ∨ star ∈ line ∨ question ∈ line)) ∨
    ∃ guild, player.guild = some guild ∧ line = atSign :: guild.lowerName

/-- A line with one more character between the name of the guild of the player and the first `@`,
and the rank of the player as `getRankByName` finds it after that. -/
def Cut (player : Player) (line : Text) : Prop :=
  ∃ guild rank c rankName, player.guild = some guild ∧ player.guildRank = some rank ∧
    atSign ∉ guild.lowerName ++ [c] ∧ line = guild.lowerName ++ [c] ++ atSign :: rankName ∧
    guild.getRankByName rankName = some rank

theorem idxOf?_eq_some {c : UInt8} : ∀ {text : Text} {k : Nat}, text.idxOf? c = some k →
    ∃ before after, text = before ++ c :: after ∧ c ∉ before ∧ before.length = k
  | [], _, h => by cases h
  | d :: text, k, h => by
      rw [List.idxOf?_cons] at h
      by_cases hd : d = c
      · rw [if_pos (beq_iff_eq.mpr hd)] at h
        obtain rfl := Option.some.inj h
        exact ⟨[], text, by rw [hd, List.nil_append], List.not_mem_nil, rfl⟩
      · rw [if_neg fun h => hd (beq_iff_eq.mp h)] at h
        obtain ⟨i, hi, rfl⟩ := Option.map_eq_some_iff.mp h
        obtain ⟨before, after, rfl, hnot, rfl⟩ := idxOf?_eq_some hi
        refine ⟨d :: before, after, rfl, ?_, rfl⟩
        intro hmem
        rcases List.mem_cons.mp hmem with rfl | hmem
        · exact hd rfl
        · exact hnot hmem

/-- There is one way to cut a text at the first of a character. -/
theorem cut_unique {c : UInt8} {before after before' after' : Text} (hnot : c ∉ before)
    (hnot' : c ∉ before') (h : before ++ c :: after = before' ++ c :: after') :
    before = before' ∧ after = after' := by
  induction before generalizing before' with
  | nil =>
      cases before' with
      | nil => exact ⟨rfl, (List.cons.inj h).2⟩
      | cons d before' => exact absurd (List.mem_cons.mpr (Or.inl (List.cons.inj h).1)) hnot'
  | cons d before ih =>
      cases before' with
      | nil => exact absurd (List.mem_cons.mpr (Or.inl (List.cons.inj h).1.symm)) hnot
      | cons e before' =>
          obtain ⟨rfl, htail⟩ := List.cons.inj h
          obtain ⟨rfl, rfl⟩ := ih (fun hmem => hnot (List.mem_cons_of_mem _ hmem))
            (fun hmem => hnot' (List.mem_cons_of_mem _ hmem)) htail
          exact ⟨rfl, rfl⟩

theorem not_plain_nil : ¬ Plain player [] := by
  rintro (h | ⟨-, h, -⟩ | ⟨guild, -, h⟩)
  · cases h
  · exact h rfl
  · cases h

theorem not_cut_nil : ¬ Cut player [] := by
  rintro ⟨guild, rank, c, rankName, -, -, -, h, -⟩
  have hlength := congrArg List.length h
  simp only [List.length_nil, List.length_append, List.length_cons] at hlength
  omega

/-- A line that begins with the sign names a guild. -/
theorem AccessList.isInList_addGuild_line {name : Text} (hplayer : player ∈ w.players)
    (hlower : lower name = name) :
    (addGuild w self name).isInList player = true ↔
      self.isInList player = true ∨ Plain player (atSign :: name) ∨
        Cut player (atSign :: name) := by
  have hmem : atSign ∈ atSign :: name := List.mem_cons_self ..
  have hcut : ¬ Cut player (atSign :: name) := by
    rintro ⟨guild, rank, c, rankName, -, -, hno, h, -⟩
    have hempty : [] ++ atSign :: name = guild.lowerName ++ [c] ++ atSign :: rankName := h
    obtain ⟨hnil, -⟩ := cut_unique List.not_mem_nil hno hempty
    have hlength := congrArg List.length hnil
    rw [List.length_append] at hlength
    cases hlength
  rw [isInList_addGuild hplayer, or_iff_left hcut, hlower]
  refine or_congr Iff.rfl ⟨?_, ?_⟩
  · rintro ⟨guild, hown, hname⟩
    exact Or.inr (Or.inr ⟨guild, hown, by rw [hname]⟩)
  · rintro (h | ⟨-, -, h, -⟩ | ⟨guild, hown, h⟩)
    · rw [h] at hmem
      exact absurd (List.mem_singleton.mp hmem) (by decide)
    · exact absurd hmem h
    · exact ⟨guild, hown, (List.cons.inj h).2.symm⟩

/-- A line with the sign inside names a rank of a guild, whose name is cut short. -/
theorem AccessList.isInList_addGuildRank_line {before after : Text} (hplayer : player ∈ w.players)
    (hne : before ≠ []) (hnot : atSign ∉ before) (hlower : lower before = before) :
    (addGuildRank w self before.dropLast after).isInList player = true ↔
      self.isInList player = true ∨ Plain player (before ++ atSign :: after) ∨
        Cut player (before ++ atSign :: after) := by
  have hmem : atSign ∈ before ++ atSign :: after :=
    List.mem_append_right _ (List.mem_cons_self ..)
  have hplain : ¬ Plain player (before ++ atSign :: after) := by
    rintro (h | ⟨-, -, h, -⟩ | ⟨guild, -, h⟩)
    · rw [h] at hmem
      exact absurd (List.mem_singleton.mp hmem) (by decide)
    · exact h hmem
    · cases before with
      | nil => exact hne rfl
      | cons d before => exact hnot (List.mem_cons.mpr (Or.inl (List.cons.inj h).1.symm))
  have hlowerLast : lower before.dropLast = before.dropLast := by
    rw [lower, List.map_dropLast]
    exact congrArg List.dropLast hlower
  rw [isInList_addGuildRank hplayer, hlowerLast, or_iff_right hplain]
  refine or_congr Iff.rfl ⟨?_, ?_⟩
  · rintro ⟨guild, rank, hown, hname, howns, hrank⟩
    have hlast := List.dropLast_append_getLast hne
    rw [← hname] at hlast
    refine ⟨guild, rank, before.getLast hne, after, hown, howns, ?_, ?_, hrank⟩
    · rw [hlast]
      exact hnot
    · rw [hlast]
  · rintro ⟨guild, rank, c, rankName, hown, howns, hno, h, hrank⟩
    obtain ⟨hbefore, rfl⟩ := cut_unique hnot hno h
    refine ⟨guild, rank, hown, ?_, howns, hrank⟩
    rw [hbefore, List.dropLast_concat]

/-- A line without the sign names a player, or everybody. -/
theorem AccessList.isInList_name_line (hplayer : player ∈ w.players) (hne : line ≠ [])
    (hlower : lower line = line) (hnot : atSign ∉ line) :
    (if line = [star] then { self with allowEveryone := true }
      else if exclamation ∈ line ∨ star ∈ line ∨ question ∈ line then self
      else addPlayer w self line).isInList player = true ↔
        self.isInList player = true ∨ Plain player line ∨ Cut player line := by
  have hcut : ¬ Cut player line := by
    rintro ⟨guild, rank, c, rankName, -, -, -, rfl, -⟩
    exact hnot (List.mem_append_right _ (List.mem_cons_self ..))
  have hguild : ¬ ∃ guild, player.guild = some guild ∧ line = atSign :: guild.lowerName := by
    rintro ⟨guild, -, rfl⟩
    exact hnot (List.mem_cons_self ..)
  rw [or_iff_left hcut, Plain, or_iff_left hguild]
  by_cases hstar : line = [star]
  · rw [if_pos hstar]
    refine iff_of_true ?_ (Or.inr (Or.inl hstar))
    rw [isInList_iff]
    exact Or.inl rfl
  · rw [if_neg hstar, or_iff_right hstar]
    by_cases hodd : exclamation ∈ line ∨ star ∈ line ∨ question ∈ line
    · rw [if_pos hodd]
      exact (or_iff_left fun h => h.2.2.2 hodd).symm
    · rw [if_neg hodd, isInList_addPlayer hplayer, hlower]
      refine or_congr Iff.rfl ⟨fun h => ⟨h.symm, hne, hnot, hodd⟩, fun h => h.1.symm⟩

theorem AccessList.isInList_addLine (hplayer : player ∈ w.players) (hne : line ≠ [])
    (hlower : lower line = line) :
    (addLine w self line).isInList player = true ↔
      self.isInList player = true ∨ Plain player line ∨ Cut player line := by
  rw [addLine]
  cases hat : line.idxOf? atSign with
  | none => exact isInList_name_line hplayer hne hlower (List.idxOf?_eq_none_iff.mp hat)
  | some at_pos =>
      obtain ⟨before, after, rfl, hnot, rfl⟩ := idxOf?_eq_some hat
      obtain ⟨hbefore, hafter⟩ : lower before = before ∧ lower after = after := by
        rw [lower, List.map_append, List.map_cons] at hlower
        obtain ⟨hbefore, hafter⟩ := List.append_inj hlower (List.length_map ..)
        exact ⟨hbefore, (List.cons.inj hafter).2⟩
      dsimp only
      cases before with
      | nil =>
          rw [if_pos List.length_nil, List.nil_append, List.drop_one, List.tail_cons]
          exact isInList_addGuild_line hplayer hafter
      | cons d before =>
          have hdrop : (d :: before ++ atSign :: after).drop ((d :: before).length + 1) = after := by
            rw [← List.drop_drop, List.drop_left, List.drop_one, List.tail_cons]
          have htake : (d :: before ++ atSign :: after).take ((d :: before).length - 1) =
              (d :: before).dropLast := by
            rw [List.take_append_of_le_length (Nat.sub_le ..), List.dropLast_eq_take]
          rw [if_neg (by rw [List.length_cons]; omega), hdrop, htake]
          exact isInList_addGuildRank_line hplayer (List.cons_ne_nil d before) hnot hbefore

end Lines

section Texts

variable {w} {self : AccessList} {player : Player}

/-- A line that is no comment and not too long, trimmed and in small letters. -/
def entry (line : Text) : Option Text :=
  let line := trim line
  if line.head? = some hash ∨ line.length > 100 then none else some (lower line)

def entries (text : Text) : List Text := (lines text).filterMap entry

/-- Each line adds what it names, up to the ninety-ninth. -/
theorem AccessList.isInList_parseLoop (hplayer : player ∈ w.players) :
    ∀ (ls : List Text) (lineNo : Nat) (self : AccessList), lineNo + ls.length ≤ 100 →
      ((parseLoop w lineNo self ls).isInList player = true ↔
        self.isInList player = true ∨
          ∃ line ∈ ls.filterMap entry, Plain player line ∨ Cut player line)
  | [], _, self, _ => by simp [parseLoop]
  | line :: rest, lineNo, self, hle => by
      rw [List.length_cons] at hle
      have hrun := fun self => isInList_parseLoop hplayer rest (lineNo + 1) self (by omega)
      have hnothing : ¬ (Plain player [] ∨ Cut player []) := by
        rintro (h | h)
        · exact not_plain_nil h
        · exact not_cut_nil h
      rw [parseLoop, if_neg (by omega)]
      dsimp only
      by_cases hskip : (trim line).head? = some hash ∨ (trim line).length > 100
      · have hentry : entry line = none := if_pos hskip
        rw [if_pos (Or.inr hskip), hrun, List.filterMap_cons_none hentry]
      · have hentry : entry line = some (lower (trim line)) := if_neg hskip
        rw [List.filterMap_cons_some hentry, List.exists_mem_cons_iff]
        by_cases hnil : trim line = []
        · have hlower : lower (trim line) = [] := by rw [hnil, lower, List.map_nil]
          rw [if_pos (Or.inl (List.isEmpty_iff.mpr hnil)), hrun, hlower, or_iff_right hnothing]
        · have hkept : ¬ ((trim line).isEmpty = true ∨ (trim line).head? = some hash ∨
              (trim line).length > 100) := by
            rintro (h | h)
            · exact hnil (List.isEmpty_iff.mp h)
            · exact hskip h
          have hne : lower (trim line) ≠ [] := fun h => hnil (List.map_eq_nil_iff.mp h)
          rw [if_neg hkept, hrun, isInList_addLine hplayer hne (lower_lower _), or_assoc]

theorem AccessList.isInList_parseList (hplayer : player ∈ w.players) {text : Text}
    (hlines : (lines text).length ≤ 99) :
    (parseList w text).isInList player = true ↔
      ∃ line ∈ entries (cString text), Plain player line ∨ Cut player line := by
  have hstart : ¬ (⟨text, [], [], false⟩ : AccessList).isInList player = true := by
    rw [isInList_iff]
    rintro (h | h | ⟨rank, -, h⟩)
    · cases h
    · exact List.not_mem_nil h
    · exact List.not_mem_nil h
  rw [parseList]
  by_cases hempty : text.isEmpty = true
  · obtain rfl := List.isEmpty_iff.mp hempty
    rw [if_pos hempty]
    refine iff_of_false hstart ?_
    rintro ⟨line, hline, -⟩
    exact List.not_mem_nil hline
  · have hle := length_lines_cString text
    rw [if_neg hempty, isInList_parseLoop hplayer _ _ _ (by omega), or_iff_right hstart]
    exact Iff.rfl

/-- A line of a text with the guild of the player and its rank there, with an `@` between them. -/
def ByRank (player : Player) (line : Text) : Prop :=
  ∃ guild rank, player.guild = some guild ∧ player.guildRank = some rank ∧
    line = guild.lowerName ++ atSign :: lower rank.name

/-- The name of a player in which a sign stands that is read as something else. -/
def Odd (player : Player) (line : Text) : Prop :=
  line = player.lowerName ∧
    (line = [] ∨ atSign ∈ line ∨ exclamation ∈ line ∨ star ∈ line ∨ question ∈ line)

/-- What a line is to mean: everyone, the player, its guild, or its rank in its guild. -/
def Names (player : Player) (line : Text) : Prop :=
  line = [star] ∨ line = player.lowerName ∨
    (∃ guild, player.guild = some guild ∧ line = atSign :: guild.lowerName) ∨ ByRank player line

theorem names_iff {line : Text} :
    Names player line ↔ Plain player line ∨ ByRank player line ∨ Odd player line := by
  constructor
  · rintro (h | h | h | h)
    · exact Or.inl (Or.inl h)
    · by_cases hodd : line = [] ∨ atSign ∈ line ∨ exclamation ∈ line ∨ star ∈ line ∨ question ∈ line
      · exact Or.inr (Or.inr ⟨h, hodd⟩)
      · refine Or.inl (Or.inr (Or.inl ⟨h, fun hnil => hodd (Or.inl hnil),
          fun hat => hodd (Or.inr (Or.inl hat)), fun hsign => hodd (Or.inr (Or.inr hsign))⟩))
    · exact Or.inl (Or.inr (Or.inr h))
    · exact Or.inr (Or.inl h)
  · rintro ((h | h | h) | h | h)
    · exact Or.inl h
    · exact Or.inr (Or.inl h.1)
    · exact Or.inr (Or.inr (Or.inl h))
    · exact Or.inr (Or.inr (Or.inr h))
    · exact Or.inr (Or.inl h.1)

/-- A line that is read as it is meant. -/
def Shared (player : Player) (text : Text) : Prop :=
  ∃ line ∈ entries text, line ∈ entries (cString text) ∧ Plain player line

/-- A line that names the player and is not read so: by its rank, by an odd name, or behind a
zero. -/
def Lost (player : Player) (text : Text) : Prop :=
  ∃ line ∈ entries text, ByRank player line ∨ Odd player line ∨
    Plain player line ∧ line ∉ entries (cString text)

/-- A line that is read as if it named the player: by its rank in a guild whose name is one
character shorter, or cut at a zero. -/
def Given (player : Player) (text : Text) : Prop :=
  ∃ line ∈ entries (cString text), Cut player line ∨ Plain player line ∧ line ∉ entries text

theorem exists_names_iff {text : Text} :
    (∃ line ∈ entries text, Names player line) ↔ Shared player text ∨ Lost player text := by
  constructor
  · rintro ⟨line, hline, hnames⟩
    rcases names_iff.mp hnames with h | h | h
    · by_cases hread : line ∈ entries (cString text)
      · exact Or.inl ⟨line, hline, hread, h⟩
      · exact Or.inr ⟨line, hline, Or.inr (Or.inr ⟨h, hread⟩)⟩
    · exact Or.inr ⟨line, hline, Or.inl h⟩
    · exact Or.inr ⟨line, hline, Or.inr (Or.inl h)⟩
  · rintro (⟨line, hline, -, h⟩ | ⟨line, hline, h | h | ⟨h, -⟩⟩)
    · exact ⟨line, hline, names_iff.mpr (Or.inl h)⟩
    · exact ⟨line, hline, names_iff.mpr (Or.inr (Or.inl h))⟩
    · exact ⟨line, hline, names_iff.mpr (Or.inr (Or.inr h))⟩
    · exact ⟨line, hline, names_iff.mpr (Or.inl h)⟩

theorem exists_read_iff {text : Text} :
    (∃ line ∈ entries (cString text), Plain player line ∨ Cut player line) ↔
      Shared player text ∨ Given player text := by
  constructor
  · rintro ⟨line, hline, h | h⟩
    · by_cases hmeant : line ∈ entries text
      · exact Or.inl ⟨line, hmeant, hline, h⟩
      · exact Or.inr ⟨line, hline, Or.inr ⟨h, hmeant⟩⟩
    · exact Or.inr ⟨line, hline, Or.inl h⟩
  · rintro (⟨line, -, hline, h⟩ | ⟨line, hline, h | ⟨h, -⟩⟩)
    · exact ⟨line, hline, Or.inl h⟩
    · exact ⟨line, hline, Or.inr h⟩
    · exact ⟨line, hline, Or.inl h⟩

end Texts

open AccessList

/-- A player is in the list exactly when a line of the text names it, if and only if a line is read
as it is meant, or a line is lost exactly when one is given wrongly. -/
theorem isInList_parseList_iff {player : Player} (hplayer : player ∈ w.players) {text : Text}
    (hlines : (lines text).length ≤ 99) :
    ((parseList w text).isInList player = true ↔ ∃ line ∈ entries text, Names player line) ↔
      Shared player text ∨ (Lost player text ↔ Given player text) := by
  rw [isInList_parseList hplayer hlines, exists_read_iff, exists_names_iff]
  constructor
  · intro h
    by_cases hshared : Shared player text
    · exact Or.inl hshared
    · rw [or_iff_right hshared, or_iff_right hshared] at h
      exact Or.inr h.symm
  · rintro (h | h)
    · exact iff_of_true (Or.inl h) (Or.inl h)
    · exact or_congr Iff.rfl h.symm

/-- The rank `leader` of a guild `Kin`. -/
def leader : GuildRank := ⟨1, [0x6C, 0x65, 0x61, 0x64, 0x65, 0x72]⟩

def kin : Guild := ⟨1, [0x4B, 0x69, 0x6E], [leader]⟩

/-- Ana leads the guild. -/
def ana : Player := ⟨1, [0x41, 0x6E, 0x61], some kin, some leader⟩

/-- A world in which Ana and its guild are loaded. -/
def smallWorld : World where
  players := [ana]
  online := [ana]
  guilds := [kin]
  loaded := [kin]
  online_players := by decide
  loaded_guilds := by decide
  guids := by unfold UniqueKey; decide
  guid_ne_zero := by decide
  names := by unfold UniqueKey; decide
  guildIds := by unfold UniqueKey; decide
  guildId_ne_zero := by decide
  guildNames := by unfold UniqueKey; decide
  rankIds := by decide
  rank_of_guild := by
    rintro player hplayer guild hguild
    obtain rfl := List.mem_singleton.mp hplayer
    obtain rfl := Option.some.inj hguild
    decide
  guild_of_rank := by
    rintro player hplayer rank -
    obtain rfl := List.mem_singleton.mp hplayer
    exact ⟨kin, rfl⟩

/-- The text `kin@leader`. -/
def kinLeader : Text := [0x6B, 0x69, 0x6E, 0x40, 0x6C, 0x65, 0x61, 0x64, 0x65, 0x72]

/-- The line `kin@leader` names Ana, and Ana is not in the list. -/
theorem kinLeader_lost : ana ∈ smallWorld.players ∧ (lines kinLeader).length ≤ 99 ∧
    (∃ line ∈ entries kinLeader, Names ana line) ∧
    (parseList smallWorld kinLeader).isInList ana = false := by
  refine ⟨by decide, by decide, ⟨kinLeader, by decide, ?_⟩, by decide⟩
  exact Or.inr (Or.inr (Or.inr ⟨kin, leader, rfl, rfl, by decide⟩))

/-- The line `ana` is read as it is meant. -/
theorem isInList_parseList_iff_ana :
    ((parseList smallWorld [0x61, 0x6E, 0x61]).isInList ana = true ↔
        ∃ line ∈ entries [0x61, 0x6E, 0x61], Names ana line) ↔
      Shared ana [0x61, 0x6E, 0x61] ∨ (Lost ana [0x61, 0x6E, 0x61] ↔ Given ana [0x61, 0x6E, 0x61]) :=
  isInList_parseList_iff smallWorld (by decide) (by decide)

end Bruxo.HouseAccess
