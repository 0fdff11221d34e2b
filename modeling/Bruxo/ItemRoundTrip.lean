import Bruxo.ItemSerialize

/-!
# Attribute round trip

What `unserializeAttr` makes of the bytes of `serializeAttr`: the composition
of the effects of the steps on the item that reads them (`restore`).

The effects are not all the identity: some attributes are not written, wide
values are cut to the width of their field, a charge count is read back as a
sub-type whatever the type of the item, and an item that was decaying is
pending afterwards. `attributes_round_trip` says what is kept.
-/

namespace Bruxo

open Bytes

/-! ## Custom attributes -/

/-- What `serialize` and `unserialize` agree on. -/
def CustomAttribute.Storable : CustomAttribute → Prop
  | .blank => False
  | .str s => s.length ≤ 65535
  | _ => True

theorem CustomAttribute.which_lt (value : CustomAttribute) : value.which < 256 ^ 1 := by
  cases value <;> simp [which]

theorem CustomAttribute.unserialize_serialize {value : CustomAttribute} (h : value.Storable) :
    ∃ bs, (∀ w, (value.serialize w).buffer = w.buffer ++ bs) ∧
      ∀ rest, unserialize ⟨bs ++ rest⟩ = (some value, ⟨rest⟩) := by
  have htag := PropStream.read_write value.which_lt
  cases value with
  | blank => exact h.elim
  | str s =>
      refine ⟨leBytes 1 1 ++ (leBytes 2 s.length ++ s), fun w => ?_, fun rest => ?_⟩
      · simp only [serialize, PropWriteStream.writeString, if_neg (Nat.not_lt.mpr h), which,
          PropWriteStream.write, List.append_assoc]
      · rw [List.append_assoc, unserialize]
        simp only [which] at htag
        simp only [htag, PropStream.readString_writeString h]
  | int v =>
      refine ⟨leBytes 1 2 ++ leBytes 8 v.toNat, fun w => ?_, fun rest => ?_⟩
      · simp only [serialize, which, PropWriteStream.write, List.append_assoc]
      · rw [List.append_assoc, unserialize]
        simp only [which] at htag
        simp only [htag, PropStream.read_write (n := 8) v.toNat_lt, UInt64.ofNat_toNat]
  | double bits =>
      refine ⟨leBytes 1 3 ++ leBytes 8 bits.toNat, fun w => ?_, fun rest => ?_⟩
      · simp only [serialize, which, PropWriteStream.write, List.append_assoc]
      · rw [List.append_assoc, unserialize]
        simp only [which] at htag
        simp only [htag, PropStream.read_write (n := 8) bits.toNat_lt, UInt64.ofNat_toNat]
  | bool b =>
      have hb : b.toNat < 256 ^ 1 := by cases b <;> decide
      refine ⟨leBytes 1 4 ++ leBytes 1 b.toNat, fun w => ?_, fun rest => ?_⟩
      · simp only [serialize, which, PropWriteStream.write, List.append_assoc]
      · rw [List.append_assoc, unserialize]
        simp only [which] at htag
        simp only [htag, PropStream.read_write hb]
        cases b <;> rfl

namespace Item

def Storable (e : List UInt8 × CustomAttribute) : Prop := e.1.length ≤ 65535 ∧ e.2.Storable

def CustomStorable (item : Item) : Prop :=
  ∀ m, item.custom = some m → m.entries.length < 2 ^ 64 ∧ ∀ e ∈ m.entries, Storable e

def setEntry (item : Item) (e : List UInt8 × CustomAttribute) : Item :=
  item.setCustomAttribute e.1 e.2

theorem readCustomAttributes_writeEntry {entries : List (List UInt8 × CustomAttribute)}
    (h : ∀ e ∈ entries, Storable e) :
    ∃ bs, (∀ w, (entries.foldl writeEntry w).buffer = w.buffer ++ bs) ∧
      ∀ (item : Item) rest, readCustomAttributes entries.length item ⟨bs ++ rest⟩
        = ⟨true, entries.foldl setEntry item, ⟨rest⟩⟩ := by
  induction entries with
  | nil => exact ⟨[], fun _ => (List.append_nil _).symm, fun _ _ => rfl⟩
  | cons e entries ih =>
      obtain ⟨bs, hw, hr⟩ := ih fun e' he' => h e' (List.mem_cons_of_mem _ he')
      obtain ⟨hkey, hvalue⟩ := h e List.mem_cons_self
      obtain ⟨bsValue, hwValue, hrValue⟩ := CustomAttribute.unserialize_serialize hvalue
      refine ⟨leBytes 2 e.1.length ++ e.1 ++ (bsValue ++ bs), fun w => ?_, fun item rest => ?_⟩
      · rw [List.foldl_cons, hw, writeEntry, hwValue, PropWriteStream.writeString,
          if_neg (Nat.not_lt.mpr hkey)]
        simp only [PropWriteStream.write, List.append_assoc]
      · rw [List.append_assoc, List.length_cons, readCustomAttributes,
          PropStream.readString_writeString hkey]
        simp only [List.append_assoc, hrValue, hr, List.foldl_cons]
        rfl

/-! ## The effects of the steps -/

section

variable (it : ItemType) (item fresh : Item)

def countBack : Item :=
  if it.stackable ∨ it.fluid then fresh.setSubType it (castInt 1 false (item.getSubType it))
  else fresh

def chargesBack : Item :=
  if item.getCharges ≠ 0 then fresh.setSubType it (castInt 2 false item.getCharges) else fresh

def actionIdBack : Item :=
  if it.moveable ∧ item.getActionId ≠ 0 then fresh.setActionId (castInt 2 false item.getActionId)
  else fresh

/-- A string comes back whether it is written for being there or for not being empty. -/
def strBack (t : StrAttr) : Item := fresh.setStrAttr t (written (item.getStrAttr t))

def dateBack : Item :=
  if item.getDate ≠ 0 then fresh.setIntAttr .date (castInt 4 true (castInt 4 false item.getDate))
  else fresh

def durationBack : Item :=
  if (item.intAttrs .duration).isSome then
    fresh.setDuration (max 0 (castInt 4 true (item.getIntAttr .duration)))
  else fresh

def decayingBack : Item :=
  if item.getDecaying = 1 ∨ item.getDecaying = 2 then fresh.setIntAttr .decayState 2 else fresh

def intBack (t : IntAttr) (n : Nat) (signed : Bool) : Item :=
  if (item.intAttrs t).isSome then fresh.setIntAttr t (castInt n signed (item.getIntAttr t))
  else fresh

def customBack : Item :=
  match item.custom with
  | none => fresh
  | some m => m.entries.foldl setEntry fresh

def subTypeBack : Item := item.chargesBack it (item.countBack it fresh)

def attrsBack : Item :=
  let r := item.subTypeBack it fresh
  let r := item.actionIdBack it r
  let r := item.strBack r .text
  let r := item.dateBack r
  let r := item.strBack r .writer
  let r := item.strBack r .description
  let r := item.durationBack r
  let r := item.decayingBack r
  let r := item.strBack r .name
  let r := item.strBack r .article
  let r := item.strBack r .pluralName
  let r := item.intBack r .weight 4 false
  let r := item.intBack r .attack 4 true
  let r := item.intBack r .attackSpeed 4 false
  let r := item.intBack r .defense 4 true
  let r := item.intBack r .extraDefense 4 true
  let r := item.intBack r .armor 4 true
  let r := item.intBack r .hitChance 1 true
  let r := item.intBack r .shootRange 1 false
  item.intBack r .decayTo 4 true

def restore : Item := item.customBack (item.attrsBack it fresh)

end

/-! ## Every step reads back as its effect -/

section

variable (idTaken : Bool) (it : ItemType) (item : Item)

theorem steps_writeCount :
    Steps idTaken it (item.writeCount it) (item.countBack it) :=
  Steps.ite _ (Steps.int .count 1 false _ fun _ _ => rfl)

theorem steps_writeCharges :
    Steps idTaken it item.writeCharges (item.chargesBack it) :=
  Steps.ite _ (Steps.int .charges 2 false _ fun _ _ => rfl)

theorem steps_writeActionId :
    Steps idTaken it (item.writeActionId it) (item.actionIdBack it) :=
  Steps.ite _ (Steps.int .actionId 2 false _ fun _ _ => rfl)

theorem steps_writeDate : Steps idTaken it item.writeDate item.dateBack :=
  Steps.ite _ (Steps.int .writtenDate 4 false _ fun _ _ => rfl)

theorem steps_writeDuration :
    Steps idTaken it (item.writeIntAttr .duration .duration 4) item.durationBack :=
  Steps.ite _ (Steps.int .duration 4 true _ fun _ _ => rfl)

theorem steps_writeDecaying : Steps idTaken it item.writeDecaying item.decayingBack := by
  have hstep : Steps idTaken it
      (fun w => (w.write 1 AttrType.decayingState.code).writeInt 1 item.getDecaying)
      (fun fresh => if castInt 1 false item.getDecaying ≠ 0 then fresh.setIntAttr .decayState 2
        else fresh) := Steps.int .decayingState 1 false _ fun _ _ => rfl
  have heq : item.decayingBack = fun fresh => if item.getDecaying = 1 ∨ item.getDecaying = 2 then
      if castInt 1 false item.getDecaying ≠ 0 then fresh.setIntAttr .decayState 2 else fresh
      else fresh := by
    funext fresh
    rw [decayingBack]
    split
    · rename_i hdecaying
      refine (if_pos fun hzero => ?_).symm
      rcases hdecaying with h | h <;> rw [h] at hzero <;> exact absurd hzero (by decide)
    · rfl
  rw [heq]
  exact Steps.ite _ hstep

theorem steps_writeText (tag : AttrType) (t : StrAttr)
    (hread : ∀ (fresh : Item) s,
      fresh.readAttr idTaken it tag s = readStringInto fresh (fresh.setStrAttr t) s) :
    Steps idTaken it (item.writeText tag t) (item.strBack · t) := by
  by_cases hempty : item.getStrAttr t = []
  · have hw : item.writeText tag t = fun w => w := by
      funext w
      rw [writeText, if_neg (not_not_intro hempty)]
    have hf : (item.strBack · t) = fun fresh => fresh := by
      funext fresh
      rw [strBack, hempty]
      rfl
    rw [hw, hf]
    exact Steps.id
  · have hw : item.writeText tag t
        = fun w => (w.write 1 tag.code).writeString (item.getStrAttr t) := by
      funext w
      rw [writeText, if_pos hempty]
    rw [hw]
    exact Steps.str tag _ hread

/-- A string that is there is not empty. -/
theorem writeStrAttr_eq (tag : AttrType) (t : StrAttr) :
    item.writeStrAttr tag t = item.writeText tag t := by
  funext w
  have hne := item.str_ne_nil t
  rw [writeStrAttr, writeText, getStrAttr]
  cases h : item.strAttrs t with
  | none => rfl
  | some s =>
      rw [h] at hne
      have hs : s ≠ [] := fun hs => hne (congrArg some hs)
      rw [Option.getD_some, if_pos hs]
      rfl

theorem steps_writeStrAttr (tag : AttrType) (t : StrAttr)
    (hread : ∀ (fresh : Item) s,
      fresh.readAttr idTaken it tag s = readStringInto fresh (fresh.setStrAttr t) s) :
    Steps idTaken it (item.writeStrAttr tag t) (item.strBack · t) := by
  rw [writeStrAttr_eq]
  exact item.steps_writeText idTaken it tag t hread

theorem steps_writeIntAttr (tag : AttrType) (t : IntAttr) (n : Nat) (signed : Bool)
    (hread : ∀ (fresh : Item) s,
      fresh.readAttr idTaken it tag s = readIntInto n signed fresh (fresh.setIntAttr t) s) :
    Steps idTaken it (item.writeIntAttr tag t n) (item.intBack · t n signed) :=
  Steps.ite _ (Steps.int tag n signed _ hread)

theorem steps_writeCustomAttributes (h : item.CustomStorable) :
    Steps idTaken it item.writeCustomAttributes item.customBack := by
  cases hm : item.custom with
  | none =>
      have hw : item.writeCustomAttributes = fun w => w := by
        funext w
        rw [writeCustomAttributes, hm]
      have hf : item.customBack = fun fresh => fresh := by
        funext fresh
        rw [customBack, hm]
      rw [hw, hf]
      exact Steps.id
  | some m =>
      obtain ⟨hlen, hentries⟩ := h m hm
      obtain ⟨bs, hbs, hread⟩ := readCustomAttributes_writeEntry hentries
      refine Steps.tag .customAttributes (leBytes 8 m.entries.length ++ bs) (fun w => ?_)
        (fun fresh rest => ?_)
      · rw [writeCustomAttributes, hm]
        simp only [hbs, PropWriteStream.write, List.append_assoc]
      · rw [List.append_assoc, readAttr, readSized, PropStream.read_write (by omega)]
        simp only [hread, customBack, hm]

/-- The whole writer. -/
theorem steps_serializeAttr (h : item.CustomStorable) :
    Steps idTaken it (item.serializeAttr it) (item.restore it) := by
  have hcount := item.steps_writeCount idTaken it
  have hcharges := item.steps_writeCharges idTaken it
  have hactionId := item.steps_writeActionId idTaken it
  have hdate := item.steps_writeDate idTaken it
  have hduration := item.steps_writeDuration idTaken it
  have hdecaying := item.steps_writeDecaying idTaken it
  have hcustom := item.steps_writeCustomAttributes idTaken it h
  have htext := item.steps_writeText idTaken it .text .text fun _ _ => rfl
  have hwriter := item.steps_writeText idTaken it .writtenBy .writer fun _ _ => rfl
  have hdescription := item.steps_writeText idTaken it .desc .description fun _ _ => rfl
  have hname := item.steps_writeStrAttr idTaken it .name .name fun _ _ => rfl
  have harticle := item.steps_writeStrAttr idTaken it .article .article fun _ _ => rfl
  have hpluralName := item.steps_writeStrAttr idTaken it .pluralName .pluralName fun _ _ => rfl
  have hweight := item.steps_writeIntAttr idTaken it .weight .weight 4 false fun _ _ => rfl
  have hattack := item.steps_writeIntAttr idTaken it .attack .attack 4 true fun _ _ => rfl
  have hattackSpeed :=
    item.steps_writeIntAttr idTaken it .attackSpeed .attackSpeed 4 false fun _ _ => rfl
  have hdefense := item.steps_writeIntAttr idTaken it .defense .defense 4 true fun _ _ => rfl
  have hextraDefense :=
    item.steps_writeIntAttr idTaken it .extraDefense .extraDefense 4 true fun _ _ => rfl
  have harmor := item.steps_writeIntAttr idTaken it .armor .armor 4 true fun _ _ => rfl
  have hhitChance := item.steps_writeIntAttr idTaken it .hitChance .hitChance 1 true fun _ _ => rfl
  have hshootRange :=
    item.steps_writeIntAttr idTaken it .shootRange .shootRange 1 false fun _ _ => rfl
  have hdecayTo := item.steps_writeIntAttr idTaken it .decayTo .decayTo 4 true fun _ _ => rfl
  have hhead := (((hcount.comp hcharges).comp hactionId).comp htext).comp hdate
  have hnotes := ((hhead.comp hwriter).comp hdescription).comp hduration
  have hnames := (((hnotes.comp hdecaying).comp hname).comp harticle).comp hpluralName
  have hoffense := ((hnames.comp hweight).comp hattack).comp hattackSpeed
  have hdefenses := ((hoffense.comp hdefense).comp hextraDefense).comp harmor
  exact (((hdefenses.comp hhitChance).comp hshootRange).comp hdecayTo).comp hcustom

theorem unserializeAttr_serializeAttr (h : item.CustomStorable) (fresh : Item) :
    fresh.unserializeAttr idTaken it ⟨(item.serializeAttr it .empty).buffer⟩
      = ⟨true, item.restore it fresh, ⟨[]⟩⟩ := by
  obtain ⟨bs, hw, hf⟩ := (item.steps_serializeAttr idTaken it h).reads
  have hread := hf fresh []
  rw [List.append_nil] at hread
  rw [hw, PropWriteStream.empty, List.nil_append, hread, unserializeAttr_end]

end

/-! ## Looking at the restored item -/

section

variable (item fresh : Item)

@[simp] theorem setIntAttr_intAttrs (t t' : IntAttr) (v : Int) :
    (item.setIntAttr t v).intAttrs t'
      = if t' = t then some (if t = .attackSpeed ∧ v < 100 then 100 else v)
        else item.intAttrs t' :=
  Function.update_apply _ _ _ _

@[simp] theorem setStrAttr_intAttrs (t : StrAttr) (s : List UInt8) :
    (item.setStrAttr t s).intAttrs = item.intAttrs := by
  rw [setStrAttr]
  split <;> rfl

theorem setStrAttr_strAttrs (t t' : StrAttr) (s : List UInt8) :
    (item.setStrAttr t s).strAttrs t'
      = if t' = t ∧ s ≠ [] then some s else item.strAttrs t' := by
  rw [setStrAttr]
  by_cases hs : s = []
  · rw [dif_pos hs, if_neg fun h => h.2 hs]
  · rw [dif_neg hs]
    simp only [Function.update_apply, ne_eq, hs, not_false_eq_true, and_true]

@[simp] theorem strBack_intAttrs (t : StrAttr) : (item.strBack fresh t).intAttrs = fresh.intAttrs :=
  setStrAttr_intAttrs _ _ _

theorem setSubType_intAttrs (it : ItemType) (n : Int) {t : IntAttr} (hcharges : t ≠ .charges)
    (hfluid : t ≠ .fluidType) : (fresh.setSubType it n).intAttrs t = fresh.intAttrs t := by
  unfold setSubType
  split
  · rw [setFluidType, setIntAttr_intAttrs, if_neg hfluid]
  · split
    · rfl
    · split
      · rw [setCharges, setIntAttr_intAttrs, if_neg hcharges]
      · rfl

@[simp] theorem setSubType_strAttrs (it : ItemType) (n : Int) :
    (fresh.setSubType it n).strAttrs = fresh.strAttrs := by
  unfold setSubType
  split
  · rfl
  · split
    · rfl
    · split <;> rfl

@[simp] theorem setSubType_custom (it : ItemType) (n : Int) :
    (fresh.setSubType it n).custom = fresh.custom := by
  unfold setSubType
  split
  · rfl
  · split
    · rfl
    · split <;> rfl

theorem foldl_setEntry (entries : List (List UInt8 × CustomAttribute)) :
    ∃ custom, entries.foldl setEntry fresh = { fresh with custom := custom } := by
  induction entries generalizing fresh with
  | nil => exact ⟨fresh.custom, rfl⟩
  | cons e entries ih => exact ih (fresh.setEntry e)

theorem customBack_frame : ∃ custom, item.customBack fresh = { fresh with custom := custom } := by
  unfold customBack
  split
  · exact ⟨fresh.custom, rfl⟩
  · exact foldl_setEntry _ _

@[simp] theorem customBack_intAttrs : (item.customBack fresh).intAttrs = fresh.intAttrs := by
  obtain ⟨custom, h⟩ := item.customBack_frame fresh
  rw [h]

@[simp] theorem customBack_strAttrs : (item.customBack fresh).strAttrs = fresh.strAttrs := by
  obtain ⟨custom, h⟩ := item.customBack_frame fresh
  rw [h]

@[simp] theorem customBack_count : (item.customBack fresh).count = fresh.count := by
  obtain ⟨custom, h⟩ := item.customBack_frame fresh
  rw [h]

end

/-! ## Integers -/

section

variable (it : ItemType) (item fresh : Item)

/-- What is read back for an integer attribute. -/
def intBackValue : IntAttr → Option Int
  | .weight => (item.intAttrs .weight).map (castInt 4 false)
  | .attack => (item.intAttrs .attack).map (castInt 4 true)
  | .attackSpeed => (item.intAttrs .attackSpeed).map fun v => max 100 (castInt 4 false v)
  | .defense => (item.intAttrs .defense).map (castInt 4 true)
  | .extraDefense => (item.intAttrs .extraDefense).map (castInt 4 true)
  | .armor => (item.intAttrs .armor).map (castInt 4 true)
  | .hitChance => (item.intAttrs .hitChance).map (castInt 1 true)
  | .shootRange => (item.intAttrs .shootRange).map (castInt 1 false)
  | .decayTo => (item.intAttrs .decayTo).map (castInt 4 true)
  | .duration => (item.intAttrs .duration).map fun v => max 0 (castInt 4 true v)
  | .date => if item.getDate ≠ 0 then some (castInt 4 true (castInt 4 false item.getDate)) else none
  | .actionId =>
      if it.moveable ∧ item.getActionId ≠ 0 then
        some (max 100 (castInt 2 false item.getActionId))
      else none
  | .decayState => if item.getDecaying = 1 ∨ item.getDecaying = 2 then some 2 else none
  | _ => none

/-- A value, if there is one, in the place of what was there. -/
def overlay (t : IntAttr) (o : Option Int) (attrs : IntAttr → Option Int) : IntAttr → Option Int :=
  fun t' => if t' = t then o.or (attrs t) else attrs t'

theorem ite_setIntAttr_intAttrs (c : Prop) [Decidable c] {t : IntAttr} {v v' : Int}
    (hv : (if t = .attackSpeed ∧ v < 100 then 100 else v) = v') :
    (if c then fresh.setIntAttr t v else fresh).intAttrs
      = overlay t (if c then some v' else none) fresh.intAttrs := by
  funext t'
  unfold overlay
  by_cases hc : c
  · simp only [if_pos hc, setIntAttr_intAttrs, hv, Option.some_or]
  · simp only [if_neg hc, Option.none_or]
    split
    · rename_i ht
      rw [ht]
    · rfl

theorem map_eq_ite {t : IntAttr} (f : Int → Int) :
    (item.intAttrs t).map f
      = if (item.intAttrs t).isSome then some (f (item.getIntAttr t)) else none := by
  unfold getIntAttr
  cases item.intAttrs t <;> rfl

theorem actionIdBack_intAttrs : (item.actionIdBack it fresh).intAttrs
    = overlay .actionId (item.intBackValue it .actionId) fresh.intAttrs := by
  refine ite_setIntAttr_intAttrs fresh _ ?_
  rw [if_neg (by simp)]
  omega

theorem dateBack_intAttrs : (item.dateBack fresh).intAttrs
    = overlay .date (item.intBackValue it .date) fresh.intAttrs :=
  ite_setIntAttr_intAttrs fresh _ (if_neg (by simp))

theorem durationBack_intAttrs : (item.durationBack fresh).intAttrs
    = overlay .duration (item.intBackValue it .duration) fresh.intAttrs := by
  rw [intBackValue, map_eq_ite]
  exact ite_setIntAttr_intAttrs fresh _ (if_neg (by simp))

theorem decayingBack_intAttrs : (item.decayingBack fresh).intAttrs
    = overlay .decayState (item.intBackValue it .decayState) fresh.intAttrs :=
  ite_setIntAttr_intAttrs fresh _ (if_neg (by simp))

theorem intBack_intAttrs {t : IntAttr} {n : Nat} {signed : Bool}
    (h : item.intBackValue it t = (item.intAttrs t).map fun v =>
      if t = .attackSpeed ∧ castInt n signed v < 100 then 100 else castInt n signed v) :
    (item.intBack fresh t n signed).intAttrs
      = overlay t (item.intBackValue it t) fresh.intAttrs := by
  rw [h, map_eq_ite]
  exact ite_setIntAttr_intAttrs fresh _ rfl

theorem subTypeBack_intAttrs {t : IntAttr} (hcharges : t ≠ .charges) (hfluid : t ≠ .fluidType) :
    (item.subTypeBack it fresh).intAttrs t = fresh.intAttrs t := by
  unfold subTypeBack chargesBack countBack
  split <;> split <;> simp only [setSubType_intAttrs _ _ _ hcharges hfluid]

theorem attackSpeedBack_intAttrs : (item.intBack fresh .attackSpeed 4 false).intAttrs
    = overlay .attackSpeed (item.intBackValue it .attackSpeed) fresh.intAttrs := by
  refine item.intBack_intAttrs it fresh (congrArg (Option.map · _) ?_)
  funext v
  simp only [true_and]
  split <;> omega

theorem plainBack_intAttrs (t : IntAttr) (n : Nat) (signed : Bool) (ht : t ≠ .attackSpeed)
    (h : item.intBackValue it t = (item.intAttrs t).map (castInt n signed)) :
    (item.intBack fresh t n signed).intAttrs
      = overlay t (item.intBackValue it t) fresh.intAttrs := by
  refine item.intBack_intAttrs it fresh (h.trans ?_)
  simp only [ht, false_and, if_false]

/-- The table of what comes back, over what reading the sub-type leaves. -/
theorem restore_intAttrs (t : IntAttr) :
    (item.restore it fresh).intAttrs t
      = (item.intBackValue it t).or ((item.subTypeBack it fresh).intAttrs t) := by
  have hweight r := item.plainBack_intAttrs it r .weight 4 false (by simp) rfl
  have hattack r := item.plainBack_intAttrs it r .attack 4 true (by simp) rfl
  have hdefense r := item.plainBack_intAttrs it r .defense 4 true (by simp) rfl
  have hextraDefense r := item.plainBack_intAttrs it r .extraDefense 4 true (by simp) rfl
  have harmor r := item.plainBack_intAttrs it r .armor 4 true (by simp) rfl
  have hhitChance r := item.plainBack_intAttrs it r .hitChance 1 true (by simp) rfl
  have hshootRange r := item.plainBack_intAttrs it r .shootRange 1 false (by simp) rfl
  have hdecayTo r := item.plainBack_intAttrs it r .decayTo 4 true (by simp) rfl
  unfold restore attrsBack
  simp only [customBack_intAttrs, strBack_intAttrs, attackSpeedBack_intAttrs it,
    actionIdBack_intAttrs, dateBack_intAttrs it, durationBack_intAttrs it,
    decayingBack_intAttrs it, hweight, hattack, hdefense, hextraDefense, harmor, hhitChance,
    hshootRange, hdecayTo]
  cases t <;> simp only [overlay, reduceCtorEq, if_true, if_false] <;> rfl

/-- The steps behind the sub-type keep what neither integers nor strings are part of. -/
theorem attrsBack_frame {α : Type} (p : Item → α) (hint : ∀ r t v, p (setIntAttr r t v) = p r)
    (hstr : ∀ r t s, p (setStrAttr r t s) = p r) :
    p (item.attrsBack it fresh) = p (item.subTypeBack it fresh) := by
  have hite : ∀ (c : Prop) [Decidable c] (r : Item) t v,
      p (if c then r.setIntAttr t v else r) = p r := by
    intro c _ r t v
    split
    · exact hint r t v
    · rfl
  simp only [attrsBack, actionIdBack, strBack, dateBack, durationBack, decayingBack, intBack,
    setActionId, setDuration, hite, hstr]

end

/-! ## Strings -/

section

variable (it : ItemType) (item fresh : Item)

theorem subTypeBack_strAttrs : (item.subTypeBack it fresh).strAttrs = fresh.strAttrs := by
  unfold subTypeBack chargesBack countBack
  split <;> split <;> simp only [setSubType_strAttrs]

theorem restore_strAttrs (t : StrAttr) :
    (item.restore it fresh).strAttrs t
      = if written (item.getStrAttr t) ≠ [] then some (written (item.getStrAttr t))
        else fresh.strAttrs t := by
  have hite : ∀ (c : Prop) [Decidable c] (r : Item) t v,
      (if c then r.setIntAttr t v else r).strAttrs = r.strAttrs := by
    intro c _ r t v
    split <;> rfl
  simp only [restore, customBack_strAttrs, attrsBack, actionIdBack, strBack, dateBack,
    durationBack, decayingBack, intBack, setActionId, setDuration, hite, setStrAttr_strAttrs,
    subTypeBack_strAttrs]
  cases t <;> simp only [reduceCtorEq, false_and, true_and, if_false]

end

/-! ## Sub-type -/

section

variable (it : ItemType) (item fresh : Item)

theorem restore_count : (item.restore it fresh).count = (item.subTypeBack it fresh).count := by
  rw [restore, customBack_count]
  refine item.attrsBack_frame it fresh Item.count (fun _ _ _ => rfl) fun r t s => ?_
  rw [setStrAttr]
  split <;> rfl

theorem getSubType_congr {a b : Item} (hcount : a.count = b.count)
    (hcharges : a.intAttrs .charges = b.intAttrs .charges)
    (hfluid : a.intAttrs .fluidType = b.intAttrs .fluidType) :
    a.getSubType it = b.getSubType it := by
  simp only [getSubType, getFluidType, getCharges, getUInt16Attr, getIntAttr, hcount, hcharges,
    hfluid]

theorem getSubType_restore :
    (item.restore it fresh).getSubType it = (item.subTypeBack it fresh).getSubType it := by
  refine getSubType_congr it (item.restore_count it fresh) ?_ ?_
  · rw [restore_intAttrs]
    rfl
  · rw [restore_intAttrs]
    rfl

/-- When the sub-type comes back: a charge count is not read into the count or
the fluid, and what is not written is as in a new item. -/
def SubTypeKept : Prop :=
  if it.fluid then item.getCharges = 0 ∧ item.getFluidType < 256
  else if it.stackable then item.getCharges = 0
  else if it.charges ≠ 0 then item.getCharges ≠ 0
  else item.getCharges = 0 ∧ item.count = 1

theorem create_count (duration : Nat) : (create it duration).count = 1 := by
  unfold create
  split_ifs <;> rfl

theorem create_strAttrs (duration : Nat) (t : StrAttr) :
    (create it duration).strAttrs t = none := by
  unfold create
  split_ifs <;> rfl

theorem create_custom (duration : Nat) : (create it duration).custom = none := by
  unfold create
  split_ifs <;> rfl

theorem castInt_castInt (n : Nat) (v : Int) :
    castInt n false (castInt n false v) = castInt n false v := by
  simp [castInt]

theorem getUInt16Attr_nonneg (t : IntAttr) : 0 ≤ item.getUInt16Attr t := by
  simp only [getUInt16Attr, castInt, Bool.false_eq_true, false_and, if_false]
  exact Int.emod_nonneg _ (by decide)

theorem subTypeBack_fluid (hfluid : it.fluid) (hcharges : item.getCharges = 0)
    (hlt : item.getFluidType < 256) :
    item.subTypeBack it fresh = fresh.setFluidType item.getFluidType := by
  have hnonneg : 0 ≤ item.getFluidType := item.getUInt16Attr_nonneg .fluidType
  rw [subTypeBack, chargesBack, if_neg (not_not_intro hcharges), countBack,
    if_pos (.inr hfluid), setSubType, if_pos hfluid, getSubType, if_pos hfluid,
    castInt_unsigned hnonneg hlt]

theorem subTypeBack_stackable (hfluid : ¬ it.fluid) (hstackable : it.stackable)
    (hcharges : item.getCharges = 0) :
    item.subTypeBack it fresh = { fresh with count := item.count } := by
  have hlt := item.count.toNat_lt
  rw [subTypeBack, chargesBack, if_neg (not_not_intro hcharges), countBack,
    if_pos (.inl hstackable), setSubType, if_neg hfluid, if_pos hstackable, getSubType,
    if_neg hfluid, if_pos hstackable, castInt_unsigned (by omega) (by omega), setItemCount,
    Int.emod_eq_of_lt (by omega) (by omega), Int.toNat_natCast, UInt8.ofNat_toNat]

theorem subTypeBack_charges (hfluid : ¬ it.fluid) (hstackable : ¬ it.stackable)
    (htype : it.charges ≠ 0) (hcharges : item.getCharges ≠ 0) :
    item.subTypeBack it fresh = fresh.setCharges item.getCharges := by
  rw [subTypeBack, countBack, if_neg (not_or.mpr ⟨hstackable, hfluid⟩), chargesBack,
    if_pos hcharges, setSubType, if_neg hfluid, if_neg hstackable, if_pos htype]
  exact congrArg _ (castInt_castInt 2 _)

theorem subTypeBack_plain (hfluid : ¬ it.fluid) (hstackable : ¬ it.stackable)
    (hcharges : item.getCharges = 0) : item.subTypeBack it fresh = fresh := by
  rw [subTypeBack, chargesBack, if_neg (not_not_intro hcharges), countBack,
    if_neg (not_or.mpr ⟨hstackable, hfluid⟩)]

theorem getSubType_subTypeBack (duration : Nat) (h : item.SubTypeKept it) :
    (item.subTypeBack it (create it duration)).getSubType it = item.getSubType it := by
  unfold SubTypeKept at h
  split_ifs at h with hfluid hstackable htype
  · rw [subTypeBack_fluid it item _ hfluid h.1 h.2]
    simp only [getSubType, hfluid, if_true, getFluidType, getUInt16Attr, getIntAttr, setFluidType,
      setIntAttr_intAttrs]
    exact castInt_castInt 2 _
  · rw [subTypeBack_stackable it item _ hfluid hstackable h]
    simp only [getSubType, if_neg hfluid, if_pos hstackable]
  · rw [subTypeBack_charges it item _ hfluid hstackable htype h]
    simp only [getSubType, if_neg hfluid, if_neg hstackable, if_pos htype, getCharges,
      getUInt16Attr, getIntAttr, setCharges, setIntAttr_intAttrs]
    exact castInt_castInt 2 _
  · rw [subTypeBack_plain it item _ hfluid hstackable h.1]
    simp only [getSubType, if_neg hfluid, if_neg hstackable, if_neg htype, create_count, h.2]

end

/-! ## Custom attributes of the restored item -/

section

variable (it : ItemType) (item fresh : Item)

theorem getCustomAttribute_setCustomAttribute (k key : List UInt8) (value : CustomAttribute) :
    (item.setCustomAttribute k value).getCustomAttribute key
      = if toLower key = toLower k then some value else item.getCustomAttribute key := by
  have hfind : (item.setCustomAttribute k value).getCustomAttribute key
      = ((((item.custom.getD CustomAttributeMap.empty).entries.filter fun e => e.1 ≠ toLower k)
          ++ [(toLower k, value)]).find? fun e => e.1 = toLower key).map Prod.snd := rfl
  rw [hfind, List.find?_append, List.find?_filter, List.find?_singleton]
  simp only [decide_eq_true_eq]
  by_cases hk : toLower key = toLower k
  · have hnone : (item.custom.getD CustomAttributeMap.empty).entries.find?
        (fun e => decide (e.1 ≠ toLower k ∧ e.1 = toLower key)) = none := by
      refine List.find?_eq_none.mpr fun e _ => ?_
      rw [hk]
      simp
    rw [hnone, if_pos hk, Option.none_or, if_pos hk.symm]
    rfl
  · have hsame : (fun e : List UInt8 × CustomAttribute =>
        decide (e.1 ≠ toLower k ∧ e.1 = toLower key))
          = fun e => decide (e.1 = toLower key) := by
      funext e
      by_cases he : e.1 = toLower key
      · simp [he, hk]
      · simp [he]
    rw [hsame, if_neg hk, if_neg fun h => hk h.symm, Option.or_none]
    unfold getCustomAttribute
    cases item.custom <;> rfl

theorem getCustomAttribute_foldl {entries : List (List UInt8 × CustomAttribute)}
    (hnodup : (entries.map Prod.fst).Nodup) (hlower : ∀ e ∈ entries, toLower e.1 = e.1)
    (key : List UInt8) :
    (entries.foldl setEntry fresh).getCustomAttribute key
      = ((entries.find? fun e => e.1 = toLower key).map Prod.snd).or
          (fresh.getCustomAttribute key) := by
  induction entries generalizing fresh with
  | nil => rfl
  | cons e entries ih =>
      rw [List.map_cons, List.nodup_cons] at hnodup
      obtain ⟨hnotMem, hnodup⟩ := hnodup
      rw [List.foldl_cons, ih _ hnodup fun e' he' => hlower e' (List.mem_cons_of_mem _ he'),
        setEntry, getCustomAttribute_setCustomAttribute, hlower e List.mem_cons_self]
      by_cases he : e.1 = toLower key
      · have hnone : entries.find? (fun e' => decide (e'.1 = toLower key)) = none := by
          refine List.find?_eq_none.mpr fun e' he' => ?_
          rw [decide_eq_true_eq]
          intro hkey
          exact hnotMem (List.mem_map.mpr ⟨e', he', hkey.trans he.symm⟩)
        rw [hnone, if_pos he.symm, List.find?_cons, decide_eq_true he]
        rfl
      · rw [if_neg fun h => he h.symm, List.find?_cons_of_neg (by simpa using he)]

theorem restore_getCustomAttribute (hfresh : fresh.custom = none) (key : List UInt8) :
    (item.restore it fresh).getCustomAttribute key = item.getCustomAttribute key := by
  have hnone : (item.attrsBack it fresh).custom = none := by
    rw [item.attrsBack_frame it fresh Item.custom (fun _ _ _ => rfl), ← hfresh]
    · unfold subTypeBack chargesBack countBack
      split <;> split <;> simp only [setSubType_custom]
    · intro r t s
      rw [setStrAttr]
      split <;> rfl
  rw [restore, customBack]
  cases hm : item.custom with
  | none => simp only [getCustomAttribute, hnone, hm]
  | some m =>
      simp only [getCustomAttribute_foldl _ m.nodup m.lower]
      simp only [getCustomAttribute, hnone, hm, Option.bind_none, Option.or_none,
        Option.bind_some, CustomAttributeMap.find]

end

/-! ## The round trip -/

section

variable (it : ItemType) (item : Item)

/-- When an integer attribute comes back. -/
def IntKept : IntAttr → Int → Prop
  | .weight, v => 0 ≤ v ∧ v < 2 ^ 32
  | .attackSpeed, v => v < 2 ^ 32
  | .attack, v | .defense, v | .extraDefense, v | .armor, v | .decayTo, v =>
      -2 ^ 31 ≤ v ∧ v < 2 ^ 31
  | .hitChance, v => -2 ^ 7 ≤ v ∧ v < 2 ^ 7
  | .shootRange, v => 0 ≤ v ∧ v < 2 ^ 8
  | .date, v => v ≠ 0 ∧ -2 ^ 31 ≤ v ∧ v < 2 ^ 31
  | .duration, v => 0 ≤ v ∧ v < 2 ^ 31
  | .actionId, v => it.moveable ∧ 100 ≤ v ∧ v < 2 ^ 16
  | .decayState, v => v = 2
  | .charges, v => it.charges ≠ 0 ∧ ¬ it.stackable ∧ ¬ it.fluid ∧ 0 < v ∧ v < 2 ^ 16
  | .fluidType, v => it.fluid ∧ item.getCharges = 0 ∧ 0 ≤ v ∧ v < 2 ^ 8
  | _, _ => False

theorem intBackValue_kept {t : IntAttr} {v : Int} (hv : item.intAttrs t = some v)
    (h : item.IntKept it t v) (hcharges : t ≠ .charges) (hfluid : t ≠ .fluidType) :
    item.intBackValue it t = some v := by
  have hval : item.getIntAttr t = v := by rw [getIntAttr, hv, Option.getD_some]
  cases t with
  | weight | shootRange =>
      rw [intBackValue, hv, Option.map_some, castInt_unsigned h.1 (by simpa using h.2)]
  | attack | defense | extraDefense | armor | decayTo | hitChance =>
      obtain ⟨hle, hlt⟩ := h
      rw [intBackValue, hv, Option.map_some, castInt_signed (by omega) (by omega)]
  | attackSpeed =>
      have hge := item.attackSpeed_ge v hv
      have hlt : v < 2 ^ 32 := h
      rw [intBackValue, hv, Option.map_some, castInt_unsigned (by omega) (by omega),
        max_eq_right hge]
  | duration =>
      obtain ⟨hle, hlt⟩ := h
      rw [intBackValue, hv, Option.map_some, castInt_signed (by omega) (by omega),
        max_eq_right hle]
  | date =>
      obtain ⟨hne, hle, hlt⟩ := h
      have hcast : castInt 4 true (castInt 4 false v) = v := by
        rw [show castInt 4 false v = v % 256 ^ 4 from rfl, castInt_emod,
          castInt_signed (by omega) (by omega)]
      rw [intBackValue, getDate, hval, if_pos hne, hcast]
  | actionId =>
      obtain ⟨hmoveable, hle, hlt⟩ := h
      have hget : item.getActionId = v := by
        rw [getActionId, getUInt16Attr, hval, castInt_unsigned (by omega) (by omega)]
      rw [intBackValue, hget, if_pos ⟨hmoveable, by omega⟩, castInt_unsigned (by omega) (by omega),
        max_eq_right hle]
  | decayState =>
      have hv2 : v = 2 := h
      have hget : item.getDecaying = 2 := by
        rw [getDecaying, hval, hv2]
        rfl
      rw [intBackValue, if_pos (.inr hget), hv2]
  | charges => exact absurd rfl hcharges
  | fluidType => exact absurd rfl hfluid
  | _ => exact h.elim

theorem intBackValue_absent {t : IntAttr} (hnone : item.intAttrs t = none) :
    item.intBackValue it t = none := by
  have hval : item.getIntAttr t = 0 := by rw [getIntAttr, hnone, Option.getD_none]
  cases t with
  | date =>
      rw [intBackValue, getDate, hval]
      rfl
  | actionId =>
      rw [intBackValue, getActionId, getUInt16Attr, hval]
      exact if_neg fun h => h.2 rfl
  | decayState =>
      rw [intBackValue, getDecaying, hval]
      rfl
  | _ => simp only [intBackValue, hnone, Option.map_none]

theorem restore_intAttrs_kept (fresh : Item) {t : IntAttr} {v : Int}
    (hv : item.intAttrs t = some v) (h : item.IntKept it t v) :
    (item.restore it fresh).intAttrs t = some v := by
  have hval : item.getIntAttr t = v := by rw [getIntAttr, hv, Option.getD_some]
  rw [restore_intAttrs]
  by_cases hcharges : t = .charges
  · subst hcharges
    obtain ⟨htype, hstackable, hfluid, hpos, hlt⟩ := h
    have hget : item.getCharges = v := by
      rw [getCharges, getUInt16Attr, hval, castInt_unsigned (by omega) (by omega)]
    rw [subTypeBack_charges it item fresh hfluid hstackable htype (by omega), setCharges,
      setIntAttr_intAttrs, hget]
    rfl
  · by_cases hfluid : t = .fluidType
    · subst hfluid
      obtain ⟨hfluid, hnone, hle, hlt⟩ := h
      have hget : item.getFluidType = v := by
        rw [getFluidType, getUInt16Attr, hval, castInt_unsigned (by omega) (by omega)]
      rw [subTypeBack_fluid it item fresh hfluid hnone (by omega), setFluidType,
        setIntAttr_intAttrs, hget]
      rfl
    · rw [item.intBackValue_kept it hv h hcharges hfluid, Option.some_or]

/-- A count that is read into a fluid or a stackable item leaves the charges alone. -/
theorem subTypeBack_intAttrs_charges (fresh : Item) (hcharges : item.getCharges = 0) :
    (item.subTypeBack it fresh).intAttrs .charges = fresh.intAttrs .charges := by
  rw [subTypeBack, chargesBack, if_neg (not_not_intro hcharges), countBack]
  split
  · rename_i hwritten
    unfold setSubType
    split
    · rw [setFluidType, setIntAttr_intAttrs, if_neg (by simp)]
    · rename_i hfluid
      rw [if_pos (hwritten.resolve_right hfluid)]
      rfl
  · rfl

theorem create_fluidType (duration : Nat) (hfluid : it.fluid) :
    (create it duration).intAttrs .fluidType = some 0 := by
  unfold create
  simp only [if_pos hfluid]
  split <;> rfl

theorem restore_intAttrs_absent (duration : Nat) {t : IntAttr} (hnone : item.intAttrs t = none)
    (hfluid : t = .fluidType → item.getCharges = 0) :
    (item.restore it (create it duration)).intAttrs t = (create it duration).intAttrs t := by
  have hval : item.getIntAttr t = 0 := by rw [getIntAttr, hnone, Option.getD_none]
  rw [restore_intAttrs, item.intBackValue_absent it hnone, Option.none_or]
  by_cases hcharges : t = .charges
  · subst hcharges
    refine item.subTypeBack_intAttrs_charges it _ ?_
    rw [getCharges, getUInt16Attr, hval]
    rfl
  · by_cases ht : t = .fluidType
    · subst ht
      have hzero : item.getFluidType = 0 := by
        rw [getFluidType, getUInt16Attr, hval]
        rfl
      have hcharges := hfluid rfl
      by_cases htype : it.fluid
      · rw [subTypeBack_fluid it item _ htype hcharges (by omega), hzero, setFluidType,
          setIntAttr_intAttrs, create_fluidType it duration htype]
        rfl
      · by_cases hstackable : it.stackable
        · rw [subTypeBack_stackable it item _ htype hstackable hcharges]
        · rw [subTypeBack_plain it item _ htype hstackable hcharges]
    · exact item.subTypeBack_intAttrs it _ hcharges ht

/-- A new item of the same type that reads the bytes of `item`. -/
def readBack (idTaken : Bool) (duration : Nat) : ReadResult :=
  (create it duration).unserializeAttr idTaken it ⟨(item.serializeAttr it .empty).buffer⟩

theorem attributes_round_trip (idTaken : Bool) (duration : Nat) (h : item.CustomStorable) :
    let r := item.readBack it idTaken duration
    r.ok = true ∧ r.rest = ⟨[]⟩ ∧
      (∀ t v, item.intAttrs t = some v → item.IntKept it t v → r.item.intAttrs t = some v) ∧
      (∀ t, item.intAttrs t = none → (t = .fluidType → item.getCharges = 0) →
        r.item.intAttrs t = (create it duration).intAttrs t) ∧
      (∀ t s, item.strAttrs t = some s → s.length ≤ 65535 → r.item.strAttrs t = some s) ∧
      (∀ t, item.strAttrs t = none → r.item.strAttrs t = none) ∧
      (item.SubTypeKept it → r.item.getSubType it = item.getSubType it) ∧
      ∀ key, r.item.getCustomAttribute key = item.getCustomAttribute key := by
  intro r
  have hr : r = ⟨true, item.restore it (create it duration), ⟨[]⟩⟩ :=
    item.unserializeAttr_serializeAttr idTaken it h (create it duration)
  rw [hr]
  refine ⟨rfl, rfl, fun t v => item.restore_intAttrs_kept it _,
    fun t => item.restore_intAttrs_absent it duration, fun t s hs hlen => ?_, fun t hnone => ?_,
    fun hkept => ?_, item.restore_getCustomAttribute it _ (create_custom it duration)⟩
  · have hne : s ≠ [] := fun heq => item.str_ne_nil t (heq ▸ hs)
    have hwritten : written (item.getStrAttr t) = s := by
      rw [getStrAttr, hs, Option.getD_some, written, if_neg (by omega)]
    rw [restore_strAttrs, hwritten, if_pos hne]
  · rw [restore_strAttrs, getStrAttr, hnone, create_strAttrs]
    rfl
  · rw [getSubType_restore, getSubType_subTypeBack it item duration hkept]

theorem attributes_round_trip_key :
    let key := (bare.setIntAttr .weight 500).setCustomAttribute [0x4B] (.int 7)
    let r := key.readBack { moveable := true } false 0
    r.ok = true ∧ r.rest = ⟨[]⟩ ∧ r.item.intAttrs .weight = some 500 ∧
      r.item.getCustomAttribute [0x6B] = some (.int 7) := by
  intro key r
  have hstorable : key.CustomStorable := by
    intro m hm
    cases hm
    refine ⟨by decide, fun e he => ?_⟩
    cases List.mem_singleton.mp he
    exact ⟨by decide, trivial⟩
  obtain ⟨hok, hrest, hint, -, -, -, -, hcustom⟩ :=
    attributes_round_trip { moveable := true } key false 0 hstorable
  exact ⟨hok, hrest, hint .weight 500 rfl ⟨by decide, by decide⟩, (hcustom [0x6B]).trans (by decide)⟩

/-- Not kept: an owner, a decay state that is running, a weight below 0, a count
next to charges; and a blank custom attribute stops the reader. -/
theorem attributes_not_kept :
    ((bare.setIntAttr .owner 7).readBack { moveable := true } false 0).item.intAttrs .owner
        = none ∧
      ((bare.setIntAttr .decayState 1).readBack { moveable := true } false 0).item.intAttrs
        .decayState = some 2 ∧
      ((bare.setIntAttr .weight (-1)).readBack { moveable := true } false 0).item.intAttrs .weight
        = some 4294967295 ∧
      (((bare.setItemCount 7).setCharges 3).readBack { stackable := true } false 0).item.getSubType
        { stackable := true } = 3 ∧
      ((bare.setCustomAttribute [0x4B] .blank).readBack { moveable := true } false 0).ok
        = false := by
  decide +kernel

end

end Item

end Bruxo
