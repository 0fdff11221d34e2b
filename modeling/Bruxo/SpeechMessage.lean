import Bruxo.MapDescription

/-!
# Speech messages

The message `0xAA` as `sendChannelMessage`, `sendCreatureSay`, `sendToChannel` and
`sendPrivateMessage` (`protocolgame.cpp`) write it, and the one layout that the client has for it:
the id of the statement, the name, the level, the type, the place, and the text.

A message that decodes has the length of the layout (`FieldKind.length_readAll`). Where it was not
written in the layout its length is another one, so it does not decode to what was said.
-/

namespace Bruxo.Speech

open NetworkMessage MapDescription

/-- `SpeakClasses` -/
inductive SpeakClasses where
  | say | whisper | yell | privatePn | privateNp | privateSay | channelY | channelW | rvrChannel
  | rvrAnswer | rvrContinue | broadcast | channelR1 | privateRed | channelO | channelR2
  | monsterSay | monsterYell
  deriving DecidableEq

def SpeakClasses.code : SpeakClasses → UInt8
  | say => 1
  | whisper => 2
  | yell => 3
  | privatePn => 4
  | privateNp => 5
  | privateSay => 6
  | channelY => 7
  | channelW => 8
  | rvrChannel => 9
  | rvrAnswer => 10
  | rvrContinue => 11
  | broadcast => 12
  | channelR1 => 13
  | privateRed => 14
  | channelO => 15
  | channelR2 => 17
  | monsterSay => 19
  | monsterYell => 20

/-- What the senders ask of a player. -/
structure Rank where
  level : UInt32
  isAccessPlayer : Bool
  isAccountManager : Bool

def Rank.showsLevel (rank : Rank) : Bool := !rank.isAccessPlayer && !rank.isAccountManager

structure Speaker where
  name : List UInt8
  position : Position
  getPlayer : Option Rank

/-! ## The senders -/

/-- `add<uint16_t>` of the level, for players only. -/
def Speaker.level (creature : Speaker) : UInt16 :=
  match creature.getPlayer with
  | some speaker => if speaker.showsLevel then speaker.level.toUInt16 else 0x00
  | none => 0x00

def positionFields (pos : Position) : List Field := [.uint16 pos.x, .uint16 pos.y, .byte pos.z]

def sendChannelMessage (author text : List UInt8) (type : SpeakClasses) (channel : UInt16) :
    List Field :=
  [.byte 0xAA, .uint32 0x00, .string author, .uint16 0x00, .byte type.code, .uint16 channel,
    .string text]

def sendCreatureSay (creature : Option Speaker) (type : SpeakClasses) (text : List UInt8)
    (pos : Option Position) : Option (List Field) :=
  match creature with
  | none => none
  | some creature =>
      some ([.byte 0xAA, .uint32 0x00, .string creature.name, .uint16 creature.level,
        .byte type.code] ++ positionFields (pos.getD creature.position) ++ [.string text])

def sendToChannel (creature : Option Speaker) (type : SpeakClasses) (text : List UInt8)
    (channelId : UInt16) : Option (List Field) :=
  match creature with
  | none => none
  | some creature =>
      let (speaker, type) : List Field × SpeakClasses :=
        if type = .channelR2 then ([.string []], .channelR1)
        else ([.string creature.name, .uint16 creature.level], type)
      some ([.byte 0xAA, .uint32 0x00] ++ speaker ++
        [.byte type.code, .uint16 channelId, .string text])

/-- `statementId` is the counter after its increment. -/
def sendPrivateMessage (statementId : UInt32) (speaker : Option (List UInt8 × Rank))
    (type : SpeakClasses) (text : List UInt8) : List Field :=
  [.byte 0xAA, .uint32 statementId] ++
    (match speaker with
    | some (name, rank) =>
        [.string name, if rank.showsLevel then .uint16 rank.level.toUInt16 else .uint32 0x00]
    | none => [.uint32 0x00]) ++
    [.byte type.code, .string text]

/-! ## The layout -/

/-- What stands between the type and the text: each sender is for the types that have its own. -/
inductive Place where
  | position (pos : Position)
  | channel (channelId : UInt16)
  | nothing

def Place.kinds : Place → List FieldKind
  | position _ => [.uint16, .uint16, .byte]
  | channel _ => [.uint16]
  | nothing => []

def Place.fields : Place → List Field
  | position pos => positionFields pos
  | channel channelId => [.uint16 channelId]
  | nothing => []

def layout (place : Place) : List FieldKind :=
  [.byte, .uint32, .string, .uint16, .byte] ++ place.kinds ++ [.string]

/-- A message with these fields for the name and the level. -/
def messageOf (statementId : UInt32) (speaker : List Field) (type : SpeakClasses) (place : Place)
    (text : List UInt8) : List Field :=
  [.byte 0xAA, .uint32 statementId] ++ speaker ++ [.byte type.code] ++ place.fields ++
    [.string text]

def message (statementId : UInt32) (name : List UInt8) (level : UInt16) (type : SpeakClasses)
    (place : Place) (text : List UInt8) : List Field :=
  messageOf statementId [.string name, .uint16 level] type place text

/-- The bytes are one message in the layout, and it says this. -/
def Decodes (name : List UInt8) (type : SpeakClasses) (place : Place) (text bytes : List UInt8) :
    Prop :=
  ∃ statementId level, FieldKind.readAll (layout place) bytes =
    some (message statementId name level type place text, [])

/-- A call of one of the senders. -/
inductive Call where
  | channelMessage (author text : List UInt8) (type : SpeakClasses) (channel : UInt16)
  | creatureSay (creature : Option Speaker) (type : SpeakClasses) (text : List UInt8)
      (pos : Option Position)
  | toChannel (creature : Option Speaker) (type : SpeakClasses) (text : List UInt8)
      (channelId : UInt16)
  | privateMessage (statementId : UInt32) (speaker : Option (List UInt8 × Rank))
      (type : SpeakClasses) (text : List UInt8)

namespace Call

/-- What is written; without a creature there is no message. -/
def fields : Call → Option (List Field)
  | channelMessage author text type channel => some (sendChannelMessage author text type channel)
  | creatureSay creature type text pos => sendCreatureSay creature type text pos
  | toChannel creature type text channelId => sendToChannel creature type text channelId
  | privateMessage statementId speaker type text =>
      some (sendPrivateMessage statementId speaker type text)

def place : Call → Place
  | channelMessage _ _ _ channel => .channel channel
  | creatureSay creature _ _ pos =>
      .position (pos.getD ((creature.map Speaker.position).getD ⟨0, 0, 0⟩))
  | toChannel _ _ _ channelId => .channel channelId
  | privateMessage .. => .nothing

def name : Call → List UInt8
  | channelMessage author .. => author
  | creatureSay creature .. => (creature.map Speaker.name).getD []
  | toChannel creature .. => (creature.map Speaker.name).getD []
  | privateMessage _ speaker .. => (speaker.map Prod.fst).getD []

def type : Call → SpeakClasses
  | channelMessage _ _ type _ => type
  | creatureSay _ type .. => type
  | toChannel _ type .. => type
  | privateMessage _ _ type _ => type

def text : Call → List UInt8
  | channelMessage _ text .. => text
  | creatureSay _ _ text _ => text
  | toChannel _ _ text _ => text
  | privateMessage _ _ _ text => text

/-- Neither of the branches that leave out the level, or write it in four bytes. -/
def WritesLevel : Call → Prop
  | toChannel _ type .. => type ≠ .channelR2
  | privateMessage _ (some (_, rank)) .. => rank.showsLevel = true
  | _ => True

/-- `addString` takes the name and the text, and the level is written. -/
def InLayout (c : Call) : Prop :=
  c.name.length ≤ 8192 ∧ c.text.length ≤ 8192 ∧ c.WritesLevel

end Call

/-! ## What decodes -/

def Place.size : Place → Nat
  | position _ => 5
  | channel _ => 2
  | nothing => 0

theorem Place.sum_size (place : Place) : (place.fields.map Field.size).sum = place.size := by
  cases place <;> rfl

theorem message_reads {name text : List UInt8} (hname : name.length ≤ 8192)
    (htext : text.length ≤ 8192) (statementId : UInt32) (level : UInt16) (type : SpeakClasses)
    (place : Place) :
    List.Forall₂ FieldKind.Reads (layout place) (message statementId name level type place text) := by
  cases place <;>
    simp [layout, message, messageOf, Place.kinds, Place.fields, positionFields, FieldKind.Reads, hname, htext]

/-- A message that decodes has the length of the layout. -/
theorem length_of_decodes {name text bytes : List UInt8} {type : SpeakClasses} {place : Place}
    (h : Decodes name type place text bytes) :
    bytes.length = name.length + text.length + place.size + 12 := by
  obtain ⟨statementId, level, hread⟩ := h
  rw [FieldKind.length_readAll hread]
  cases place <;>
    simp [message, messageOf, Place.fields, positionFields, Place.size, Field.encode, Bytes.length_leBytes] <;>
    omega

theorem sum_messageOf (statementId : UInt32) (speaker : List Field) (type : SpeakClasses)
    (place : Place) (text : List UInt8) :
    ((messageOf statementId speaker type place text).map Field.size).sum =
      (speaker.map Field.size).sum + place.size + Field.size (.string text) + 6 := by
  simp only [messageOf, List.map_append, List.sum_append, List.map_cons, List.map_nil,
    List.sum_cons, List.sum_nil, Field.size_byte, Field.size_uint32, Place.sum_size]
  omega

theorem sum_messageOf_lt {speaker : List Field} (h : (speaker.map Field.size).sum ≤ 8198)
    (statementId : UInt32) (type : SpeakClasses) (place : Place) (text : List UInt8) :
    ((messageOf statementId speaker type place text).map Field.size).sum < 24000 := by
  have htext : Field.size (.string text) ≤ 8194 := by
    rw [Field.size_string]
    split <;> omega
  have hplace : place.size ≤ 5 := by
    cases place <;> simp [Place.size]
  rw [sum_messageOf]
  omega

/-- The name and the level are written in the bytes of the layout. -/
theorem decodes_of_fields {name text : List UInt8} (hname : name.length ≤ 8192)
    (htext : text.length ≤ 8192) {speaker : List Field} (hroom : (speaker.map Field.size).sum ≤ 8198)
    (hblock : ∀ f ∈ speaker, f.blockLength ≤ 8192) (level : UInt16)
    (hspeaker : speaker.flatMap Field.encode =
      (Field.string name).encode ++ (Field.uint16 level).encode)
    (statementId : UInt32) (type : SpeakClasses) (place : Place) :
    Decodes name type place text
      (new.writeFields (messageOf statementId speaker type place text)).content := by
  have hplace : ∀ f ∈ place.fields, f.blockLength ≤ 8192 := by
    cases place <;> simp [Place.fields, positionFields, Field.blockLength]
  have hall : ∀ f ∈ messageOf statementId speaker type place text, f.blockLength ≤ 8192 := by
    intro f hf
    simp only [messageOf, List.mem_append, List.mem_cons, List.not_mem_nil, or_false] at hf
    rcases hf with ((((rfl | rfl) | hf) | rfl) | hf) | rfl
    · exact Nat.zero_le _
    · exact Nat.zero_le _
    · exact hblock f hf
    · exact Nat.zero_le _
    · exact hplace f hf
    · exact htext
  have hbytes : (new.writeFields (messageOf statementId speaker type place text)).content =
      (message statementId name level type place text).flatMap Field.encode := by
    rw [content_eq (sum_messageOf_lt hroom ..),
      List.filter_eq_self.mpr fun f hf => decide_eq_true (hall f hf)]
    simp only [message, messageOf, List.flatMap_append, List.flatMap_cons, List.flatMap_nil,
      hspeaker, List.append_assoc, List.append_nil]
  refine ⟨statementId, level, ?_⟩
  rw [hbytes]
  have hread := FieldKind.readAll_encode (message_reads hname htext statementId level type place) []
  rw [List.append_nil] at hread
  exact hread

/-- What decodes has the bytes of the layout for the name, the level and the text. -/
theorem sizes_of_decodes {name text : List UInt8} {type shownType : SpeakClasses} {place : Place}
    {statementId : UInt32} {speaker : List Field} (hroom : (speaker.map Field.size).sum ≤ 8198)
    (h : Decodes name type place text
      (new.writeFields (messageOf statementId speaker shownType place text)).content) :
    (speaker.map Field.size).sum + Field.size (.string text) = name.length + text.length + 6 := by
  have hlength := length_of_decodes h
  rw [length_content (sum_messageOf_lt hroom ..), sum_messageOf] at hlength
  omega

/-- For a name that is written with two bytes of level. -/
theorem decodes_iff {name text : List UInt8} (level : UInt16) (type : SpeakClasses) (place : Place)
    (statementId : UInt32) :
    Decodes name type place text (new.writeFields
      (messageOf statementId [.string name, .uint16 level] type place text)).content ↔
    name.length ≤ 8192 ∧ text.length ≤ 8192 := by
  have hsum : (([.string name, .uint16 level] : List Field).map Field.size).sum =
      Field.size (.string name) + 2 := rfl
  have hroom : (([.string name, .uint16 level] : List Field).map Field.size).sum ≤ 8198 := by
    rw [hsum, Field.size_string]
    split <;> omega
  constructor
  · intro h
    have hsizes := sizes_of_decodes hroom h
    rw [hsum, Field.size_string, Field.size_string] at hsizes
    split at hsizes <;> split at hsizes <;> omega
  · rintro ⟨hname, htext⟩
    refine decodes_of_fields hname htext hroom ?_ level ?_ statementId type place
    · rintro f hf
      simp only [List.mem_cons, List.not_mem_nil, or_false] at hf
      rcases hf with rfl | rfl
      · exact hname
      · exact Nat.zero_le _
    · rw [List.flatMap_cons, List.flatMap_singleton]

/-! ## The messages of the senders -/

theorem sendToChannel_eq (creature : Speaker) (type : SpeakClasses) (text : List UInt8)
    (channelId : UInt16) :
    sendToChannel (some creature) type text channelId =
      some (if type = .channelR2 then messageOf 0 [.string []] .channelR1 (.channel channelId) text
        else messageOf 0 [.string creature.name, .uint16 creature.level] type (.channel channelId)
          text) := by
  rw [sendToChannel]
  by_cases hR2 : type = .channelR2
  · simp only [hR2, if_true]
    rfl
  · simp only [hR2, if_false]
    rfl

theorem sendPrivateMessage_eq (statementId : UInt32) (name : List UInt8) (rank : Rank)
    (type : SpeakClasses) (text : List UInt8) :
    sendPrivateMessage statementId (some (name, rank)) type text =
      messageOf statementId
        [.string name, if rank.showsLevel then .uint16 rank.level.toUInt16 else .uint32 0x00] type
        .nothing text := rfl

/-- Without the level a message is two bytes too short. -/
theorem not_decodes_channelR2 (name text : List UInt8) (type : SpeakClasses) (channelId : UInt16) :
    ¬ Decodes name type (.channel channelId) text
      (new.writeFields (messageOf 0 [.string []] .channelR1 (.channel channelId) text)).content := by
  intro h
  have hsum : (([.string []] : List Field).map Field.size).sum = 2 := rfl
  have hsizes := sizes_of_decodes (by rw [hsum]; omega) h
  rw [hsum, Field.size_string] at hsizes
  split at hsizes <;> omega

/-- With four bytes of level it is two bytes too long. -/
theorem not_decodes_access (statementId : UInt32) (name text : List UInt8) (type : SpeakClasses) :
    ¬ Decodes name type .nothing text
      (new.writeFields
        (messageOf statementId [.string name, .uint32 0x00] type .nothing text)).content := by
  intro h
  have hsum : (([.string name, .uint32 0x00] : List Field).map Field.size).sum =
      Field.size (.string name) + 4 := rfl
  have hroom : Field.size (.string name) + 4 ≤ 8198 := by
    rw [Field.size_string]
    split <;> omega
  have hsizes := sizes_of_decodes (by rw [hsum]; exact hroom) h
  rw [hsum, Field.size_string, Field.size_string] at hsizes
  split at hsizes <;> split at hsizes <;> omega

/-- The four bytes that stand for no speaker are an empty name and the level 0. -/
theorem decodes_noSpeaker_iff (statementId : UInt32) (text : List UInt8) (type : SpeakClasses) :
    Decodes [] type .nothing text
      (new.writeFields (messageOf statementId [.uint32 0x00] type .nothing text)).content ↔
    text.length ≤ 8192 := by
  have hsum : (([.uint32 0x00] : List Field).map Field.size).sum = 4 := rfl
  constructor
  · intro h
    have hsizes := sizes_of_decodes (by rw [hsum]; omega) h
    rw [hsum, Field.size_string, List.length_nil] at hsizes
    split at hsizes <;> omega
  · intro htext
    refine decodes_of_fields (Nat.zero_le _) htext (by rw [hsum]; omega) ?_ 0 rfl statementId type
      .nothing
    intro f hf
    rw [List.mem_singleton.mp hf]
    exact Nat.zero_le _

theorem speech_decodes_iff {c : Call} {fields : List Field} (h : c.fields = some fields) :
    Decodes c.name c.type c.place c.text (new.writeFields fields).content ↔ c.InLayout := by
  rw [Call.InLayout]
  cases c with
  | channelMessage author text type channel =>
      obtain rfl := (Option.some.inj h).symm
      simp only [Call.WritesLevel, and_true]
      exact decodes_iff 0 type (.channel channel) 0
  | creatureSay creature type text pos =>
      cases creature with
      | none => cases h
      | some creature =>
          obtain rfl := (Option.some.inj h).symm
          simp only [Call.WritesLevel, and_true]
          exact decodes_iff creature.level type (.position (pos.getD creature.position)) 0
  | toChannel creature type text channelId =>
      cases creature with
      | none => cases h
      | some creature =>
          rw [Call.fields, sendToChannel_eq] at h
          obtain rfl := (Option.some.inj h).symm
          simp only [Call.WritesLevel]
          split
          · next hR2 =>
              simp only [hR2, ne_eq, not_true, and_false, iff_false]
              exact not_decodes_channelR2 creature.name text .channelR2 channelId
          · next hne =>
              simp only [hne, ne_eq, not_false_eq_true, and_true]
              exact decodes_iff creature.level type (.channel channelId) 0
  | privateMessage statementId speaker type text =>
      obtain rfl := (Option.some.inj h).symm
      rcases speaker with _ | ⟨name, rank⟩
      · simp only [Call.WritesLevel, and_true]
        refine (decodes_noSpeaker_iff statementId text type).trans ?_
        simp [Call.name, Call.text]
      · simp only [Call.WritesLevel, sendPrivateMessage_eq]
        cases hshows : rank.showsLevel with
        | true =>
            simp only [if_true, and_true]
            exact decodes_iff rank.level.toUInt16 type .nothing statementId
        | false =>
            simp only [Bool.false_eq_true, if_false, and_false, iff_false]
            exact not_decodes_access statementId name text type

/-- `"Ann"` of level 8, and as an access player. -/
def ann (isAccessPlayer : Bool) : List UInt8 × Rank := ([65, 110, 110], ⟨8, isAccessPlayer, false⟩)

theorem speech_decodes_iff_private :
    Decodes [65, 110, 110] .privateSay .nothing [104, 105]
      (new.writeFields (sendPrivateMessage 1 (some (ann false)) .privateSay [104, 105])).content :=
  (speech_decodes_iff (c := .privateMessage 1 (some (ann false)) .privateSay [104, 105]) rfl).mpr
    ⟨by decide, by decide, rfl⟩

/-- The private message of an access player. -/
theorem speech_not_decoded :
    ¬ ∀ (c : Call) (fields : List Field), c.fields = some fields →
      Decodes c.name c.type c.place c.text (new.writeFields fields).content := by
  intro hclaim
  have haccess := hclaim (.privateMessage 1 (some (ann true)) .privateSay [104, 105]) _ rfl
  exact not_decodes_access 1 [65, 110, 110] [104, 105] .privateSay haccess

end Bruxo.Speech
