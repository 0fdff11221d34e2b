import Bruxo.ItemAttributes

/-!
# Attribute serialization

`Item::serializeAttr`, `Item::readAttr` and `Item::unserializeAttr`
(`item.cpp`). The writer is a sequence of steps, each of which appends a tag
and a value or nothing; the reader is a loop over the tags. Every step is
matched with what reading its bytes does to the item of a reader (`Steps`).
-/

namespace Bruxo

open Bytes

/-! ## Tags -/

/-- The `AttrTypes_t` that `readAttr` has a case for. -/
inductive AttrType where
  | actionId | uniqueId | text | desc | teleDest | depotId | runeCharges | houseDoorId | count
  | duration | decayingState | writtenDate | writtenBy | sleeperGuid | sleepStart | charges
  | containerItems | name | article | pluralName | weight | attack | defense | extraDefense | armor
  | hitChance | shootRange | customAttributes | decayTo | wrapId | storeItem | attackSpeed
  | openContainer | podiumOutfit | reflect | boost
  deriving DecidableEq

namespace AttrType

def code : AttrType → Nat
  | actionId => 4
  | uniqueId => 5
  | text => 6
  | desc => 7
  | teleDest => 8
  | depotId => 10
  | runeCharges => 12
  | houseDoorId => 14
  | count => 15
  | duration => 16
  | decayingState => 17
  | writtenDate => 18
  | writtenBy => 19
  | sleeperGuid => 20
  | sleepStart => 21
  | charges => 22
  | containerItems => 23
  | name => 24
  | article => 25
  | pluralName => 26
  | weight => 27
  | attack => 28
  | defense => 29
  | extraDefense => 30
  | armor => 31
  | hitChance => 32
  | shootRange => 33
  | customAttributes => 34
  | decayTo => 35
  | wrapId => 36
  | storeItem => 37
  | attackSpeed => 38
  | openContainer => 39
  | podiumOutfit => 40
  | reflect => 42
  | boost => 43

/-- The case of the `switch` for a byte; `none` is `default`. -/
def ofCode (n : Nat) : Option AttrType :=
  [actionId, uniqueId, text, desc, teleDest, depotId, runeCharges, houseDoorId, count, duration,
    decayingState, writtenDate, writtenBy, sleeperGuid, sleepStart, charges, containerItems, name,
    article, pluralName, weight, attack, defense, extraDefense, armor, hitChance, shootRange,
    customAttributes, decayTo, wrapId, storeItem, attackSpeed, openContainer, podiumOutfit, reflect,
    boost].find? fun t => t.code = n

theorem ofCode_code (t : AttrType) : ofCode t.code = some t := by
  cases t <;> rfl

theorem code_pos (t : AttrType) : 0 < t.code := by
  cases t <;> decide

theorem code_lt (t : AttrType) : t.code < 256 := by
  cases t <;> decide

end AttrType

/-! ## Writing -/

def CustomAttribute.which : CustomAttribute → Nat
  | .blank => 0
  | .str _ => 1
  | .int _ => 2
  | .double _ => 3
  | .bool _ => 4

def CustomAttribute.serialize (w : PropWriteStream) (value : CustomAttribute) : PropWriteStream :=
  let w := w.write 1 value.which
  match value with
  | .blank => w
  | .str s => w.writeString s
  | .int v => w.write 8 v.toNat
  | .double bits => w.write 8 bits.toNat
  | .bool b => w.write 1 b.toNat

namespace Item

def writeCount (it : ItemType) (item : Item) (w : PropWriteStream) : PropWriteStream :=
  if it.stackable ∨ it.fluid then
    (w.write 1 AttrType.count.code).writeInt 1 (item.getSubType it)
  else w

def writeCharges (item : Item) (w : PropWriteStream) : PropWriteStream :=
  if item.getCharges ≠ 0 then
    (w.write 1 AttrType.charges.code).writeInt 2 item.getCharges
  else w

def writeActionId (it : ItemType) (item : Item) (w : PropWriteStream) : PropWriteStream :=
  if it.moveable ∧ item.getActionId ≠ 0 then
    (w.write 1 AttrType.actionId.code).writeInt 2 item.getActionId
  else w

/-- A string that is written if it is not empty. -/
def writeText (tag : AttrType) (t : StrAttr) (item : Item) (w : PropWriteStream) :
    PropWriteStream :=
  if item.getStrAttr t ≠ [] then (w.write 1 tag.code).writeString (item.getStrAttr t) else w

def writeDate (item : Item) (w : PropWriteStream) : PropWriteStream :=
  if item.getDate ≠ 0 then (w.write 1 AttrType.writtenDate.code).writeInt 4 item.getDate else w

def writeDecaying (item : Item) (w : PropWriteStream) : PropWriteStream :=
  if item.getDecaying = 1 ∨ item.getDecaying = 2 then
    (w.write 1 AttrType.decayingState.code).writeInt 1 item.getDecaying
  else w

/-- A string attribute that is written if it is there. -/
def writeStrAttr (tag : AttrType) (t : StrAttr) (item : Item) (w : PropWriteStream) :
    PropWriteStream :=
  if (item.strAttrs t).isSome then (w.write 1 tag.code).writeString (item.getStrAttr t) else w

/-- An integer attribute that is written, `n` bytes wide, if it is there. -/
def writeIntAttr (tag : AttrType) (t : IntAttr) (n : Nat) (item : Item) (w : PropWriteStream) :
    PropWriteStream :=
  if (item.intAttrs t).isSome then (w.write 1 tag.code).writeInt n (item.getIntAttr t) else w

def writeEntry (w : PropWriteStream) (e : List UInt8 × CustomAttribute) : PropWriteStream :=
  CustomAttribute.serialize (w.writeString e.1) e.2

def writeCustomAttributes (item : Item) (w : PropWriteStream) : PropWriteStream :=
  match item.custom with
  | none => w
  | some m =>
      m.entries.foldl writeEntry
        ((w.write 1 AttrType.customAttributes.code).write 8 m.entries.length)

def serializeAttr (it : ItemType) (item : Item) (w : PropWriteStream) : PropWriteStream :=
  let w := item.writeCount it w
  let w := item.writeCharges w
  let w := item.writeActionId it w
  let w := item.writeText .text .text w
  let w := item.writeDate w
  let w := item.writeText .writtenBy .writer w
  let w := item.writeText .desc .description w
  let w := item.writeIntAttr .duration .duration 4 w
  let w := item.writeDecaying w
  let w := item.writeStrAttr .name .name w
  let w := item.writeStrAttr .article .article w
  let w := item.writeStrAttr .pluralName .pluralName w
  let w := item.writeIntAttr .weight .weight 4 w
  let w := item.writeIntAttr .attack .attack 4 w
  let w := item.writeIntAttr .attackSpeed .attackSpeed 4 w
  let w := item.writeIntAttr .defense .defense 4 w
  let w := item.writeIntAttr .extraDefense .extraDefense 4 w
  let w := item.writeIntAttr .armor .armor 4 w
  let w := item.writeIntAttr .hitChance .hitChance 1 w
  let w := item.writeIntAttr .shootRange .shootRange 1 w
  let w := item.writeIntAttr .decayTo .decayTo 4 w
  item.writeCustomAttributes w

end Item

/-! ## Reading -/

/-- What a reader leaves: `false` is `ATTR_READ_ERROR`. -/
structure ReadResult where
  ok : Bool
  item : Item
  rest : PropStream

/-- `CustomAttribute::unserialize` -/
def CustomAttribute.unserialize (s : PropStream) : Option CustomAttribute × PropStream :=
  match s.read 1 with
  | none => (none, s)
  | some (pos, s) =>
      match pos with
      | 1 =>
          match s.readString with
          | (some text, s) => (some (.str text), s)
          | (none, s) => (none, s)
      | 2 =>
          match s.read 8 with
          | some (v, s) => (some (.int (UInt64.ofNat v)), s)
          | none => (none, s)
      | 3 =>
          match s.read 8 with
          | some (bits, s) => (some (.double (UInt64.ofNat bits)), s)
          | none => (none, s)
      | 4 =>
          match s.read 1 with
          | some (b, s) => (some (.bool (b ≠ 0)), s)
          | none => (none, s)
      | _ => (none, s)

namespace Item

def readIntInto (n : Nat) (signed : Bool) (item : Item) (set : Int → Item) (s : PropStream) :
    ReadResult :=
  match s.readInt n signed with
  | none => ⟨false, item, s⟩
  | some (v, s) => ⟨true, set v, s⟩

def readStringInto (item : Item) (set : List UInt8 → Item) (s : PropStream) : ReadResult :=
  match s.readString with
  | (none, s) => ⟨false, item, s⟩
  | (some text, s) => ⟨true, set text, s⟩

def skipOver (n : Nat) (item : Item) (s : PropStream) : ReadResult :=
  match s.skip n with
  | none => ⟨false, item, s⟩
  | some s => ⟨true, item, s⟩

def readReflects : (size : Nat) → Item → PropStream → ReadResult
  | 0, item, s => ⟨true, item, s⟩
  | size + 1, item, s =>
      match s.read 2 with
      | none => ⟨false, item, s⟩
      | some (combatType, s) =>
          match s.read 2 with
          | none => ⟨false, item, s⟩
          | some (percent, s) =>
              match s.read 2 with
              | none => ⟨false, item, s⟩
              | some (chance, s) =>
                  readReflects size (item.setReflect (UInt16.ofNat combatType)
                    ⟨UInt16.ofNat percent, UInt16.ofNat chance⟩) s

def readBoosts : (size : Nat) → Item → PropStream → ReadResult
  | 0, item, s => ⟨true, item, s⟩
  | size + 1, item, s =>
      match s.read 2 with
      | none => ⟨false, item, s⟩
      | some (combatType, s) =>
          match s.read 2 with
          | none => ⟨false, item, s⟩
          | some (percent, s) =>
              readBoosts size
                (item.setBoostPercent (UInt16.ofNat combatType) (UInt16.ofNat percent)) s

def readCustomAttributes : (size : Nat) → Item → PropStream → ReadResult
  | 0, item, s => ⟨true, item, s⟩
  | size + 1, item, s =>
      match s.readString with
      | (none, s) => ⟨false, item, s⟩
      | (some key, s) =>
          match CustomAttribute.unserialize s with
          | (none, s) => ⟨false, item, s⟩
          | (some value, s) => readCustomAttributes size (item.setCustomAttribute key value) s

/-- A size field of `n` bytes and a loop over that many entries. -/
def readSized (n : Nat) (loop : Nat → Item → PropStream → ReadResult) (item : Item)
    (s : PropStream) : ReadResult :=
  match s.read n with
  | none => ⟨false, item, s⟩
  | some (size, s) => loop size item s

def readAttr (idTaken : Bool) (it : ItemType) (item : Item) (attr : AttrType) (s : PropStream) :
    ReadResult :=
  match attr with
  | .count => readIntInto 1 false item (item.setSubType it) s
  | .runeCharges => readIntInto 1 false item (item.setSubType it) s
  | .actionId => readIntInto 2 false item item.setActionId s
  | .uniqueId => readIntInto 2 false item (item.setUniqueId idTaken) s
  | .text => readStringInto item (item.setStrAttr .text) s
  | .writtenDate =>
      readIntInto 4 false item (fun v => item.setIntAttr .date (castInt 4 true v)) s
  | .writtenBy => readStringInto item (item.setStrAttr .writer) s
  | .desc => readStringInto item (item.setStrAttr .description) s
  | .charges => readIntInto 2 false item (item.setSubType it) s
  | .duration => readIntInto 4 true item (fun v => item.setDuration (max 0 v)) s
  | .decayingState =>
      readIntInto 1 false item (fun v => if v ≠ 0 then item.setIntAttr .decayState 2 else item) s
  | .name => readStringInto item (item.setStrAttr .name) s
  | .article => readStringInto item (item.setStrAttr .article) s
  | .pluralName => readStringInto item (item.setStrAttr .pluralName) s
  | .weight => readIntInto 4 false item (item.setIntAttr .weight) s
  | .attack => readIntInto 4 true item (item.setIntAttr .attack) s
  | .attackSpeed => readIntInto 4 false item (item.setIntAttr .attackSpeed) s
  | .defense => readIntInto 4 true item (item.setIntAttr .defense) s
  | .extraDefense => readIntInto 4 true item (item.setIntAttr .extraDefense) s
  | .armor => readIntInto 4 true item (item.setIntAttr .armor) s
  | .hitChance => readIntInto 1 true item (item.setIntAttr .hitChance) s
  | .shootRange => readIntInto 1 false item (item.setIntAttr .shootRange) s
  | .decayTo => readIntInto 4 true item (item.setIntAttr .decayTo) s
  | .wrapId => readIntInto 2 false item (item.setIntAttr .wrapId) s
  | .storeItem => readIntInto 1 false item (item.setIntAttr .storeItem) s
  | .openContainer => readIntInto 1 false item (item.setIntAttr .openContainer) s
  | .reflect => readSized 2 readReflects item s
  | .boost => readSized 2 readBoosts item s
  | .depotId => skipOver 2 item s
  | .houseDoorId => skipOver 1 item s
  | .sleeperGuid => skipOver 4 item s
  | .sleepStart => skipOver 4 item s
  | .podiumOutfit => skipOver 15 item s
  | .teleDest => skipOver 5 item s
  | .containerItems => ⟨false, item, s⟩
  | .customAttributes => readSized 8 readCustomAttributes item s

/-! A reader takes bytes from the front of the stream and never gives any back. -/

theorem size_readString (s : PropStream) : s.readString.2.size ≤ s.size := by
  rw [PropStream.readString]
  cases h : s.read 2 with
  | none => exact Nat.le_refl _
  | some r =>
      have hsize := PropStream.size_read h
      simp only
      split
      · exact Nat.le.intro hsize.symm
      · simp only [PropStream.size, List.length_drop] at *
        omega

theorem size_readIntInto (n : Nat) (signed : Bool) (item : Item) (set : Int → Item)
    (s : PropStream) : (readIntInto n signed item set s).rest.size ≤ s.size := by
  rw [readIntInto, PropStream.readInt]
  cases h : s.read n with
  | none => exact Nat.le_refl _
  | some r => exact Nat.le.intro (PropStream.size_read h).symm

theorem size_readStringInto (item : Item) (set : List UInt8 → Item) (s : PropStream) :
    (readStringInto item set s).rest.size ≤ s.size := by
  have hsize := size_readString s
  rw [readStringInto]
  split
  · rename_i s' h
    rwa [h] at hsize
  · rename_i text s' h
    rwa [h] at hsize

theorem size_skipOver (n : Nat) (item : Item) (s : PropStream) :
    (skipOver n item s).rest.size ≤ s.size := by
  rw [skipOver, PropStream.skip]
  by_cases h : s.size < n
  · rw [if_pos h]
  · rw [if_neg h]
    simp only [PropStream.size, List.length_drop]
    omega

theorem size_readReflects (size : Nat) (item : Item) (s : PropStream) :
    (readReflects size item s).rest.size ≤ s.size := by
  induction size generalizing item s with
  | zero => exact Nat.le_refl _
  | succ size ih =>
      rw [readReflects]
      split
      · exact Nat.le_refl _
      · rename_i h₁
        have hs₁ := PropStream.size_read h₁
        split
        · exact Nat.le.intro hs₁.symm
        · rename_i h₂
          have hs₂ := PropStream.size_read h₂
          split
          · simp only
            omega
          · rename_i h₃
            have hs₃ := PropStream.size_read h₃
            exact (ih _ _).trans (by omega)

theorem size_readBoosts (size : Nat) (item : Item) (s : PropStream) :
    (readBoosts size item s).rest.size ≤ s.size := by
  induction size generalizing item s with
  | zero => exact Nat.le_refl _
  | succ size ih =>
      rw [readBoosts]
      split
      · exact Nat.le_refl _
      · rename_i h₁
        have hs₁ := PropStream.size_read h₁
        split
        · exact Nat.le.intro hs₁.symm
        · rename_i h₂
          have hs₂ := PropStream.size_read h₂
          exact (ih _ _).trans (by omega)

theorem size_unserialize (s : PropStream) : (CustomAttribute.unserialize s).2.size ≤ s.size := by
  rw [CustomAttribute.unserialize]
  split
  · exact Nat.le_refl _
  · rename_i pos s' h
    have hs := PropStream.size_read h
    have hstr := size_readString s'
    split
    · split <;> rename_i hr <;> rw [hr] at hstr <;> simp only at hstr ⊢ <;> omega
    · split
      · rename_i hr
        have := PropStream.size_read hr
        simp only
        omega
      · exact Nat.le.intro hs.symm
    · split
      · rename_i hr
        have := PropStream.size_read hr
        simp only
        omega
      · exact Nat.le.intro hs.symm
    · split
      · rename_i hr
        have := PropStream.size_read hr
        simp only
        omega
      · exact Nat.le.intro hs.symm
    · exact Nat.le.intro hs.symm

theorem size_readCustomAttributes (size : Nat) (item : Item) (s : PropStream) :
    (readCustomAttributes size item s).rest.size ≤ s.size := by
  induction size generalizing item s with
  | zero => exact Nat.le_refl _
  | succ size ih =>
      have hstr := size_readString s
      rw [readCustomAttributes]
      split
      · rename_i s₁ h₁
        rwa [h₁] at hstr
      · rename_i key s₁ h₁
        rw [h₁] at hstr
        have hval := size_unserialize s₁
        split
        · rename_i s₂ h₂
          rw [h₂] at hval
          exact hval.trans hstr
        · rename_i value s₂ h₂
          rw [h₂] at hval
          exact (ih _ _).trans (hval.trans hstr)

theorem size_readSized (n : Nat) {loop : Nat → Item → PropStream → ReadResult}
    (hloop : ∀ size item s, (loop size item s).rest.size ≤ s.size) (item : Item) (s : PropStream) :
    (readSized n loop item s).rest.size ≤ s.size := by
  rw [readSized]
  split
  · exact Nat.le_refl _
  · rename_i h
    exact (hloop _ _ _).trans (Nat.le.intro (PropStream.size_read h).symm)

theorem size_readAttr (idTaken : Bool) (it : ItemType) (item : Item) (attr : AttrType)
    (s : PropStream) : (item.readAttr idTaken it attr s).rest.size ≤ s.size := by
  cases attr with
  | containerItems => exact Nat.le_refl _
  | reflect => exact size_readSized 2 size_readReflects item s
  | boost => exact size_readSized 2 size_readBoosts item s
  | customAttributes => exact size_readSized 8 size_readCustomAttributes item s
  | text | writtenBy | desc | name | article | pluralName => exact size_readStringInto _ _ _
  | depotId | houseDoorId | sleeperGuid | sleepStart | podiumOutfit | teleDest =>
      exact size_skipOver _ _ _
  | _ => exact size_readIntInto _ _ _ _ _

def unserializeAttr (idTaken : Bool) (it : ItemType) (item : Item) (s : PropStream) : ReadResult :=
  match _h : s.read 1 with
  | none => ⟨true, item, s⟩
  | some (attrType, s') =>
      if attrType = 0 then ⟨true, item, s'⟩
      else
        match AttrType.ofCode attrType with
        | none => ⟨false, item, s'⟩
        | some attr =>
            let r := item.readAttr idTaken it attr s'
            if r.ok then unserializeAttr idTaken it r.item r.rest else r
termination_by s.size
decreasing_by
  have hread := PropStream.size_read _h
  have hattr := size_readAttr idTaken it item attr s'
  omega

/-! ## What reading back a step does -/

section

variable (idTaken : Bool) (it : ItemType)

theorem unserializeAttr_end (item : Item) :
    item.unserializeAttr idTaken it ⟨[]⟩ = ⟨true, item, ⟨[]⟩⟩ := by
  rw [unserializeAttr]
  rfl

/-- One turn of the loop. -/
theorem unserializeAttr_turn {item item' : Item} {attr : AttrType} {bs rest : List UInt8}
    (h : item.readAttr idTaken it attr ⟨bs ++ rest⟩ = ⟨true, item', ⟨rest⟩⟩) :
    item.unserializeAttr idTaken it ⟨leBytes 1 attr.code ++ bs ++ rest⟩
      = item'.unserializeAttr idTaken it ⟨rest⟩ := by
  have hread := PropStream.read_write (n := 1) (AttrType.code_lt attr) (bs ++ rest)
  rw [← List.append_assoc] at hread
  rw [unserializeAttr]
  split
  · rename_i hnone
    rw [hread] at hnone
    cases hnone
  · rename_i attrType s' hsome
    rw [hread] at hsome
    cases hsome
    rw [if_neg (AttrType.code_pos attr).ne', AttrType.ofCode_code]
    simp only [h, if_true]

/-- The step `W` appends bytes that take the item of a reader through `f`. -/
def Reads (W : PropWriteStream → PropWriteStream) (f : Item → Item) : Prop :=
  ∃ bs, (∀ w, (W w).buffer = w.buffer ++ bs) ∧
    ∀ (item : Item) (rest : List UInt8), item.unserializeAttr idTaken it ⟨bs ++ rest⟩
      = (f item).unserializeAttr idTaken it ⟨rest⟩

/-- The bytes of whole turns of the loop, that take an item to another. -/
inductive Turns : List UInt8 → Item → Item → Prop where
  | nil (item : Item) : Turns [] item item
  | turn {attr : AttrType} {bs rest : List UInt8} {item item' item'' : Item}
      (hread : ∀ tail, item.readAttr idTaken it attr ⟨bs ++ tail⟩ = ⟨true, item', ⟨tail⟩⟩)
      (hrest : Turns rest item' item'') : Turns (leBytes 1 attr.code ++ bs ++ rest) item item''

/-- The step `W` appends whole turns, and they take the item of a reader through `f`. -/
def Steps (W : PropWriteStream → PropWriteStream) (f : Item → Item) : Prop :=
  ∃ bs, (∀ w, (W w).buffer = w.buffer ++ bs) ∧ ∀ item, Turns idTaken it bs item (f item)

variable {idTaken it}

theorem Turns.append {bs bs' : List UInt8} {item item' item'' : Item}
    (h : Turns idTaken it bs item item') (h' : Turns idTaken it bs' item' item'') :
    Turns idTaken it (bs ++ bs') item item'' := by
  induction h with
  | nil item => exact h'
  | turn hread _ ih =>
      rw [List.append_assoc]
      exact .turn hread (ih h')

theorem Turns.unserializeAttr {bs : List UInt8} {item item' : Item}
    (h : Turns idTaken it bs item item') (rest : List UInt8) :
    item.unserializeAttr idTaken it ⟨bs ++ rest⟩ = item'.unserializeAttr idTaken it ⟨rest⟩ := by
  induction h with
  | nil item => rfl
  | turn hread _ ih =>
      rw [List.append_assoc, unserializeAttr_turn idTaken it (hread _)]
      exact ih

theorem Steps.reads {W : PropWriteStream → PropWriteStream} {f : Item → Item}
    (h : Steps idTaken it W f) : Reads idTaken it W f := by
  obtain ⟨bs, hW, hf⟩ := h
  exact ⟨bs, hW, fun item rest => (hf item).unserializeAttr rest⟩

theorem Steps.id : Steps idTaken it (fun w => w) (fun item => item) :=
  ⟨[], fun _ => (List.append_nil _).symm, fun item => .nil item⟩

theorem Steps.comp {W W' : PropWriteStream → PropWriteStream} {f f' : Item → Item}
    (h : Steps idTaken it W f) (h' : Steps idTaken it W' f') :
    Steps idTaken it (fun w => W' (W w)) (fun item => f' (f item)) := by
  obtain ⟨bs, hW, hf⟩ := h
  obtain ⟨bs', hW', hf'⟩ := h'
  refine ⟨bs ++ bs', fun w => ?_, fun item => (hf item).append (hf' (f item))⟩
  rw [hW', hW, List.append_assoc]

theorem Steps.ite {W : PropWriteStream → PropWriteStream} {f : Item → Item} (c : Prop) [Decidable c]
    (h : Steps idTaken it W f) :
    Steps idTaken it (fun w => if c then W w else w) (fun item => if c then f item else item) := by
  by_cases hc : c
  · simpa only [if_pos hc] using h
  · simpa only [if_neg hc] using Steps.id

/-- A tag and the bytes behind it. -/
theorem Steps.tag {W : PropWriteStream → PropWriteStream} {f : Item → Item} (attr : AttrType)
    (bs : List UInt8) (hW : ∀ w, (W w).buffer = w.buffer ++ (leBytes 1 attr.code ++ bs))
    (hf : ∀ (item : Item) rest,
      item.readAttr idTaken it attr ⟨bs ++ rest⟩ = ⟨true, f item, ⟨rest⟩⟩) :
    Steps idTaken it W f := by
  refine ⟨_, hW, fun item => ?_⟩
  have := Turns.turn (hf item) (.nil (f item))
  rwa [List.append_nil] at this

/-- A tag and an integer of `n` bytes. -/
theorem Steps.int {f : Item → Int → Item} (attr : AttrType) (n : Nat) (signed : Bool) (v : Int)
    (hf : ∀ (item : Item) s,
      item.readAttr idTaken it attr s = readIntInto n signed item (f item) s) :
    Steps idTaken it (fun w => (w.write 1 attr.code).writeInt n v)
      (fun item => f item (castInt n signed v)) := by
  refine Steps.tag attr (leBytes n (v % 256 ^ n).toNat) (fun w => ?_) (fun item rest => ?_)
  · exact List.append_assoc _ _ _
  · rw [hf, readIntInto, PropStream.readInt_writeInt]

/-- What is left of a string that is written. -/
def written (str : List UInt8) : List UInt8 := if 65535 < str.length then [] else str

theorem length_written (str : List UInt8) : (written str).length ≤ 65535 := by
  rw [written]
  split
  · exact Nat.zero_le _
  · omega

theorem writeString_eq (w : PropWriteStream) (str : List UInt8) :
    (w.writeString str).buffer
      = w.buffer ++ (leBytes 2 (written str).length ++ written str) := by
  rw [PropWriteStream.writeString, written]
  split
  · rw [List.length_nil, List.append_nil]
    rfl
  · exact List.append_assoc _ _ _

/-- A tag and a string. -/
theorem Steps.str {f : Item → List UInt8 → Item} (attr : AttrType) (str : List UInt8)
    (hf : ∀ (item : Item) s, item.readAttr idTaken it attr s = readStringInto item (f item) s) :
    Steps idTaken it (fun w => (w.write 1 attr.code).writeString str)
      (fun item => f item (written str)) := by
  refine Steps.tag attr (leBytes 2 (written str).length ++ written str) (fun w => ?_)
    (fun item rest => ?_)
  · rw [writeString_eq]
    exact List.append_assoc _ _ _
  · rw [hf, readStringInto, PropStream.readString_writeString (length_written str)]

end

end Item

end Bruxo
