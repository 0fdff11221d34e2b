import Bruxo.ItemAttributes
import Bruxo.Lib.SingleBit
import Mathlib.Data.List.Nodup

/-!
# Equal items and clones

`Item::equals` and `Item::clone` (`item.cpp`) with the list of attributes and the mask of bits that
guards it (`ItemAttributes`). The mask has the bit of each type in the list and no other, and no
type is there twice, so of two masks that agree the lists have the same types, in any order.

Custom attributes are a map behind a pointer, and the test for equal items compares the pointers;
what is set by combat types is not looked at.
-/

namespace Bruxo.ItemEquals

/-! ## Attributes -/

/-- `itemAttrTypes`, but for the ones that no attribute has. -/
inductive AttrType where
  | int (t : IntAttr)
  | str (t : StrAttr)
  | custom
  deriving DecidableEq

/-- The number of the bit of a type. -/
def AttrType.bit : AttrType → Nat
  | .int .actionId => 0
  | .int .uniqueId => 1
  | .str .description => 2
  | .str .text => 3
  | .int .date => 4
  | .str .writer => 5
  | .str .name => 6
  | .str .article => 7
  | .str .pluralName => 8
  | .int .weight => 9
  | .int .attack => 10
  | .int .defense => 11
  | .int .extraDefense => 12
  | .int .armor => 13
  | .int .hitChance => 14
  | .int .shootRange => 15
  | .int .owner => 16
  | .int .duration => 17
  | .int .decayState => 18
  | .int .corpseOwner => 19
  | .int .charges => 20
  | .int .fluidType => 21
  | .int .doorId => 22
  | .int .decayTo => 23
  | .int .wrapId => 24
  | .int .storeItem => 25
  | .int .attackSpeed => 26
  | .int .openContainer => 27
  | .custom => 31

def AttrType.all : List AttrType := IntAttr.all.map .int ++ StrAttr.all.map .str ++ [.custom]

theorem AttrType.bit_lt (t : AttrType) : t.bit < 32 := by
  rcases t with t | t | _
  · cases t <;> decide
  · cases t <;> decide
  · decide

theorem AttrType.find_bit (t : AttrType) : AttrType.all.find? (·.bit = t.bit) = some t := by
  rcases t with t | t | _
  · cases t <;> rfl
  · cases t <;> rfl
  · rfl

theorem AttrType.bit_inj {t t' : AttrType} (h : t.bit = t'.bit) : t = t' := by
  have hfind := t.find_bit
  rw [h, t'.find_bit] at hfind
  exact (Option.some.inj hfind).symm

/-- The address of a `CustomAttributeMap`. -/
abbrev Ptr := Nat

/-- An attribute with the value that its type has. -/
inductive Attribute where
  | int (t : IntAttr) (value : Int)
  | str (t : StrAttr) (value : List UInt8)
  | custom (map : Ptr)
  deriving DecidableEq

def Attribute.type : Attribute → AttrType
  | .int t _ => .int t
  | .str t _ => .str t
  | .custom _ => .custom

/-- The test that makes items differ: of one type, with other strings, or other integers. The
integer of a custom attribute is its pointer. -/
def Attribute.differs : Attribute → Attribute → Bool
  | .int t value, .int t' value' => t = t' && value ≠ value'
  | .str t value, .str t' value' => t = t' && value ≠ value'
  | .custom map, .custom map' => map ≠ map'
  | _, _ => false

theorem Attribute.differs_iff {a b : Attribute} :
    a.differs b = true ↔ a.type = b.type ∧ a ≠ b := by
  cases a <;> cases b <;> simp [differs, type] <;> tauto

structure ItemAttributes where
  attributes : List Attribute
  attributeBits : BitVec 32
  reflect : UInt16 → Option Reflect
  boostPercent : UInt16 → Option UInt16
  nodup : (attributes.map Attribute.type).Nodup
  bits : ∀ t : AttrType, attributeBits.getLsbD t.bit = true ↔ t ∈ attributes.map Attribute.type
  no_more : ∀ n, attributeBits.getLsbD n = true → ∃ t : AttrType, t.bit = n

namespace ItemAttributes

variable {x y : ItemAttributes} {t : AttrType} {a b : Attribute}

def empty : ItemAttributes where
  attributes := []
  attributeBits := 0#32
  reflect _ := none
  boostPercent _ := none
  nodup := List.nodup_nil
  bits t := by
    rw [BitVec.getLsbD_zero]
    exact ⟨fun h => (by cases h), fun h => (by cases h)⟩
  no_more n h := by
    rw [BitVec.getLsbD_zero] at h
    cases h

def hasAttribute (x : ItemAttributes) (t : AttrType) : Bool :=
  BitVec.twoPow 32 t.bit &&& x.attributeBits ≠ 0

def getExistingAttr (x : ItemAttributes) (t : AttrType) : Option Attribute :=
  if x.hasAttribute t then x.attributes.find? (·.type = t) else none

theorem hasAttribute_iff : x.hasAttribute t = true ↔ t ∈ x.attributes.map Attribute.type := by
  rw [← x.bits t, hasAttribute, decide_eq_true_eq]
  exact SingleBit.and_single t.bit_lt

/-- The only attribute of a type is the one that is found. -/
theorem getExistingAttr_iff : x.getExistingAttr t = some a ↔ a ∈ x.attributes ∧ a.type = t := by
  unfold getExistingAttr
  constructor
  · intro h
    split at h
    · have htype := List.find?_some h
      exact ⟨List.mem_of_find?_eq_some h, of_decide_eq_true htype⟩
    · cases h
  · rintro ⟨ha, rfl⟩
    have hhas : x.hasAttribute a.type = true := hasAttribute_iff.mpr (List.mem_map_of_mem ha)
    rw [if_pos hhas]
    cases hfind : x.attributes.find? (·.type = a.type) with
    | none =>
        have hnone := List.find?_eq_none.mp hfind a ha
        exact absurd (decide_eq_true rfl) hnone
    | some b =>
        have hb := List.mem_of_find?_eq_some hfind
        have hfound := List.find?_some hfind
        have htype : b.type = a.type := of_decide_eq_true hfound
        rw [List.inj_on_of_nodup_map x.nodup hb ha htype]

theorem getExistingAttr_none : x.getExistingAttr t = none ↔ x.hasAttribute t = false := by
  constructor
  · intro h
    by_contra hhas
    obtain ⟨a, ha, rfl⟩ := List.mem_map.mp (hasAttribute_iff.mp (Bool.not_eq_false _ ▸ hhas))
    have hsome : x.getExistingAttr a.type = some a := getExistingAttr_iff.mpr ⟨ha, rfl⟩
    rw [h] at hsome
    cases hsome
  · intro h
    rw [getExistingAttr, h]
    rfl

theorem map_type_replace (l : List Attribute) (a : Attribute) :
    (l.map fun b => if b.type = a.type then a else b).map Attribute.type = l.map Attribute.type := by
  rw [List.map_map]
  refine List.map_congr_left fun b _ => ?_
  dsimp only [Function.comp]
  split
  · next heq => exact heq.symm
  · rfl

/-- `getAttr`, of which the value is set. -/
def setAttr (x : ItemAttributes) (a : Attribute) : ItemAttributes :=
  if h : x.hasAttribute a.type = true then
    { x with
      attributes := x.attributes.map fun b => if b.type = a.type then a else b
      nodup := by rw [map_type_replace]; exact x.nodup
      bits := by rw [map_type_replace]; exact x.bits }
  else
    { x with
      attributes := x.attributes ++ [a]
      attributeBits := x.attributeBits ||| BitVec.twoPow 32 a.type.bit
      nodup := by
        rw [List.map_append, List.map_singleton]
        refine List.nodup_append.mpr ⟨x.nodup, List.nodup_singleton _, fun t ht t' ht' => ?_⟩
        obtain rfl := List.mem_singleton.mp ht'
        intro heq
        subst heq
        exact h (hasAttribute_iff.mpr ht)
      bits := fun t => by
        have hlt := t.bit_lt
        rw [BitVec.getLsbD_or, Bool.or_eq_true, x.bits, List.map_append, List.map_singleton,
          List.mem_append, List.mem_singleton, BitVec.getLsbD_twoPow]
        refine or_congr_right ⟨fun hbit => ?_, ?_⟩
        · rw [Bool.and_eq_true, decide_eq_true_eq, decide_eq_true_eq] at hbit
          exact AttrType.bit_inj hbit.2.symm
        · rintro rfl
          rw [decide_eq_true hlt, decide_eq_true rfl]
          rfl
      no_more := fun n hn => by
        rw [BitVec.getLsbD_or, Bool.or_eq_true] at hn
        rcases hn with hn | hn
        · exact x.no_more n hn
        · rw [BitVec.getLsbD_twoPow, Bool.and_eq_true, decide_eq_true_eq, decide_eq_true_eq] at hn
          exact ⟨a.type, hn.2⟩ }

def setIntAttr (x : ItemAttributes) (t : IntAttr) (value : Int) : ItemAttributes :=
  x.setAttr (.int t (if t = .attackSpeed ∧ value < 100 then 100 else value))

/-- An empty string is not set. -/
def setStrAttr (x : ItemAttributes) (t : StrAttr) (value : List UInt8) : ItemAttributes :=
  if value = [] then x else x.setAttr (.str t value)

theorem hasAttribute_false :
    x.hasAttribute t = false ↔ t ∉ x.attributes.map Attribute.type := by
  rw [← hasAttribute_iff, Bool.not_eq_true]

theorem getExistingAttr_setAttr :
    (x.setAttr a).getExistingAttr t = if t = a.type then some a else x.getExistingAttr t := by
  have hmem (b : Attribute) : b ∈ (x.setAttr a).attributes ↔
      b = a ∨ b ∈ x.attributes ∧ b.type ≠ a.type := by
    unfold setAttr
    split
    · next hhas =>
        dsimp only
        rw [List.mem_map]
        constructor
        · rintro ⟨c, hc, rfl⟩
          split
          · exact .inl rfl
          · next hne => exact .inr ⟨hc, hne⟩
        · rintro (rfl | ⟨hb, hne⟩)
          · obtain ⟨c, hc, htype⟩ := List.mem_map.mp (hasAttribute_iff.mp hhas)
            exact ⟨c, hc, if_pos htype⟩
          · exact ⟨b, hb, if_neg hne⟩
    · next hhas =>
        have hnone := hasAttribute_false.mp (Bool.not_eq_true _ ▸ hhas)
        rw [List.mem_append, List.mem_singleton, or_comm]
        refine or_congr_right ⟨fun hb => ⟨hb, fun htype => ?_⟩, And.left⟩
        exact hnone (htype ▸ List.mem_map_of_mem hb)
  refine Option.ext fun b => ?_
  rw [getExistingAttr_iff, hmem]
  by_cases ht : t = a.type
  · subst ht
    rw [if_pos rfl]
    constructor
    · rintro ⟨rfl | ⟨-, hne⟩, htype⟩
      · rfl
      · exact absurd htype hne
    · intro heq
      obtain rfl := Option.some.inj heq
      exact ⟨.inl rfl, rfl⟩
  · rw [if_neg ht, getExistingAttr_iff]
    constructor
    · rintro ⟨rfl | ⟨hb, -⟩, htype⟩
      · exact absurd htype.symm ht
      · exact ⟨hb, htype⟩
    · rintro ⟨hb, rfl⟩
      exact ⟨.inr ⟨hb, ht⟩, rfl⟩

/-! ## Taking an attribute out of the list -/

/-- The last attribute takes the place of the one that is removed. -/
def removeFrom (t : AttrType) (l : List Attribute) : List Attribute :=
  match l.getLast? with
  | none => l
  | some last =>
      if last.type = t then l.dropLast
      else (l.map fun b => if b.type = t then last else b).dropLast

theorem removeFrom_perm {l : List Attribute} (hnodup : (l.map Attribute.type).Nodup)
    (hmem : t ∈ l.map Attribute.type) :
    (removeFrom t l).Perm (l.filter fun b => b.type ≠ t) := by
  have hother : ∀ l' : List Attribute, t ∉ l'.map Attribute.type →
      (l'.filter fun b => b.type ≠ t) = l' ∧
        ∀ last, (l'.map fun b => if b.type = t then last else b) = l' := by
    intro l' hnot
    have hne : ∀ b ∈ l', b.type ≠ t := fun b hb heq => hnot (heq ▸ List.mem_map_of_mem hb)
    refine ⟨List.filter_eq_self.mpr fun b hb => decide_eq_true (hne b hb), fun last => ?_⟩
    exact (List.map_congr_left fun b hb => if_neg (hne b hb)).trans (List.map_id _)
  have hput : ∀ (last : Attribute) (l' : List Attribute), (l'.map Attribute.type).Nodup →
      t ∈ l'.map Attribute.type →
      (l'.map fun b => if b.type = t then last else b).Perm
        (last :: l'.filter fun b => b.type ≠ t) := by
    intro last l' hl' ht
    induction l' with
    | nil => cases ht
    | cons b l' ih =>
        obtain ⟨hfirst, hrest⟩ := List.nodup_cons.mp hl'
        by_cases hb : b.type = t
        · subst hb
          obtain ⟨hfilter, hmap⟩ := hother l' hfirst
          rw [List.map_cons, if_pos rfl, hmap, List.filter_cons_of_neg (by simp), hfilter]
        · have htail : t ∈ l'.map Attribute.type := by
            rcases List.mem_cons.mp ht with heq | htail
            · exact absurd heq.symm hb
            · exact htail
          rw [List.map_cons, if_neg hb, List.filter_cons_of_pos (by simpa using hb)]
          exact ((ih hrest htail).cons b).trans (List.Perm.swap _ _ _)
  rcases List.eq_nil_or_concat l with rfl | ⟨l, last, rfl⟩
  · cases hmem
  · rw [List.concat_eq_append] at hnodup hmem ⊢
    unfold removeFrom
    rw [List.getLast?_append, List.getLast?_singleton]
    dsimp only [Option.or]
    rw [List.map_append, List.map_singleton] at hnodup hmem
    obtain ⟨hl, -, hdisjoint⟩ := List.nodup_append.mp hnodup
    by_cases hlast : last.type = t
    · subst hlast
      have hnot : last.type ∉ l.map Attribute.type := fun h =>
        hdisjoint _ h _ (List.mem_singleton_self _) rfl
      rw [if_pos rfl, List.dropLast_concat, List.filter_append, (hother l hnot).1,
        List.filter_cons_of_neg (by simp), List.filter_nil, List.append_nil]
    · have ht : t ∈ l.map Attribute.type := by
        rcases List.mem_append.mp hmem with ht | ht
        · exact ht
        · exact absurd (List.mem_singleton.mp ht).symm hlast
      rw [if_neg hlast, List.map_append, List.map_singleton, if_neg hlast, List.dropLast_concat,
        List.filter_append, List.filter_cons_of_pos (by simpa using hlast), List.filter_nil]
      exact (hput last l hl ht).trans (List.perm_append_singleton _ _).symm

theorem mem_types_filter {l : List Attribute} {t' : AttrType} :
    t' ∈ (l.filter fun b => b.type ≠ t).map Attribute.type ↔
      t' ∈ l.map Attribute.type ∧ t' ≠ t := by
  rw [List.mem_map, List.mem_map]
  constructor
  · rintro ⟨b, hb, rfl⟩
    obtain ⟨hmem, hne⟩ := List.mem_filter.mp hb
    exact ⟨⟨b, hmem, rfl⟩, of_decide_eq_true hne⟩
  · rintro ⟨⟨b, hb, rfl⟩, hne⟩
    exact ⟨b, List.mem_filter.mpr ⟨hb, decide_eq_true hne⟩, rfl⟩

def removeAttribute (x : ItemAttributes) (t : AttrType) : ItemAttributes :=
  if h : x.hasAttribute t = true then
    have hperm := removeFrom_perm x.nodup (hasAttribute_iff.mp h)
    { x with
      attributes := removeFrom t x.attributes
      attributeBits := x.attributeBits &&& ~~~ BitVec.twoPow 32 t.bit
      nodup := (hperm.map _).nodup_iff.mpr (x.nodup.sublist (List.filter_sublist.map _))
      bits := fun t' => by
        rw [(hperm.map _).mem_iff, mem_types_filter, BitVec.getLsbD_and, Bool.and_eq_true, x.bits]
        refine and_congr_right' ?_
        have hlt := t'.bit_lt
        have hbit : t'.bit = t.bit ↔ t' = t := ⟨AttrType.bit_inj, fun heq => heq ▸ rfl⟩
        simp [hlt, hbit]
      no_more := fun n hn => by
        rw [BitVec.getLsbD_and, Bool.and_eq_true] at hn
        exact x.no_more n hn.1 }
  else x

/-! ## The test for equal attributes -/

def equals (x y : ItemAttributes) : Bool :=
  x.attributeBits = y.attributeBits &&
    x.attributes.all fun a => y.attributes.all fun other => !a.differs other

/-- Masks agree on the types that there are. -/
theorem attributeBits_eq_iff :
    x.attributeBits = y.attributeBits ↔ ∀ t, x.hasAttribute t = y.hasAttribute t := by
  have hbit (z : ItemAttributes) (t : AttrType) :
      z.hasAttribute t = z.attributeBits.getLsbD t.bit := by
    rw [Bool.eq_iff_iff, hasAttribute_iff, z.bits]
  constructor
  · intro h t
    rw [hbit, hbit, h]
  · intro h
    have hle (z z' : ItemAttributes) (hz : ∀ t, z.hasAttribute t = z'.hasAttribute t) (n : Nat)
        (hn : z.attributeBits.getLsbD n = true) : z'.attributeBits.getLsbD n = true := by
      obtain ⟨t, rfl⟩ := z.no_more n hn
      rwa [← hbit, ← hz, hbit]
    refine BitVec.eq_of_getLsbD_eq fun n _ => ?_
    rw [Bool.eq_iff_iff]
    exact ⟨hle x y h n, hle y x (fun t => (h t).symm) n⟩

/-- Equal attributes are of the same types, whatever their order, and with the same values. -/
theorem equals_iff :
    x.equals y = true ↔ ∀ t, x.getExistingAttr t = y.getExistingAttr t := by
  have htypes : (∀ t, x.hasAttribute t = y.hasAttribute t) ↔
      ∀ t, (x.getExistingAttr t).isSome = (y.getExistingAttr t).isSome := by
    have hsome (z : ItemAttributes) (t : AttrType) :
        z.hasAttribute t = (z.getExistingAttr t).isSome := by
      cases hz : z.getExistingAttr t with
      | none => exact getExistingAttr_none.mp hz
      | some a =>
          obtain ⟨ha, rfl⟩ := getExistingAttr_iff.mp hz
          exact hasAttribute_iff.mpr (List.mem_map_of_mem ha)
    refine forall_congr' fun t => ?_
    rw [hsome, hsome]
  unfold equals
  rw [Bool.and_eq_true, decide_eq_true_eq, attributeBits_eq_iff, htypes]
  constructor
  · rintro ⟨hbits, hvalues⟩ t
    have ht := hbits t
    cases hx : x.getExistingAttr t with
    | none =>
        cases hy : y.getExistingAttr t with
        | none => rfl
        | some b => rw [hx, hy] at ht; cases ht
    | some a =>
        cases hy : y.getExistingAttr t with
        | none => rw [hx, hy] at ht; cases ht
        | some b =>
            obtain ⟨ha, rfl⟩ := getExistingAttr_iff.mp hx
            obtain ⟨hb, htype⟩ := getExistingAttr_iff.mp hy
            have hsame := List.all_eq_true.mp (List.all_eq_true.mp hvalues a ha) b hb
            by_contra hne
            have hdiffers : a.differs b = true :=
              Attribute.differs_iff.mpr ⟨htype.symm, fun heq => hne (heq ▸ rfl)⟩
            rw [hdiffers] at hsame
            cases hsame
  · intro h
    refine ⟨fun t => by rw [h], List.all_eq_true.mpr fun a ha => List.all_eq_true.mpr ?_⟩
    intro b hb
    by_contra hdiffers
    rw [Bool.not_eq_true', Bool.not_eq_false] at hdiffers
    obtain ⟨htype, hne⟩ := Attribute.differs_iff.mp hdiffers
    have hx : x.getExistingAttr a.type = some a := getExistingAttr_iff.mpr ⟨ha, rfl⟩
    have hy : y.getExistingAttr a.type = some b := getExistingAttr_iff.mpr ⟨hb, htype.symm⟩
    rw [h, hy] at hx
    exact hne (Option.some.inj hx).symm

theorem getExistingAttr_empty : empty.getExistingAttr t = none := by
  rw [getExistingAttr_none]
  exact hasAttribute_false.mpr (List.not_mem_nil)

theorem attributeBits_zero_iff :
    x.attributeBits = 0#32 ↔ ∀ t, x.getExistingAttr t = none := by
  have hempty := attributeBits_eq_iff (x := x) (y := empty)
  refine hempty.trans (forall_congr' fun t => ?_)
  rw [getExistingAttr_none, getExistingAttr_none.mp getExistingAttr_empty]

end ItemAttributes

/-! ## Items -/

/-- Where custom attributes are allocated. -/
structure Heap where
  next : Ptr
  maps : Ptr → CustomAttributeMap

structure Item where
  id : UInt16
  count : UInt8
  attributes : Option ItemAttributes

namespace Item

def attr (item : Item) (t : AttrType) : Option Attribute :=
  item.attributes.bind fun x => x.getExistingAttr t

def reflect (item : Item) (combatType : UInt16) : Option Reflect :=
  item.attributes.bind fun x => x.reflect combatType

def boostPercent (item : Item) (combatType : UInt16) : Option UInt16 :=
  item.attributes.bind fun x => x.boostPercent combatType

def setIntAttr (item : Item) (t : IntAttr) (value : Int) : Item :=
  { item with attributes := some ((item.attributes.getD .empty).setIntAttr t value) }

/-- `getDuration`, a number of 32 bits. -/
def getDuration (item : Item) : Int :=
  match item.attr (.int .duration) with
  | some (.int _ value) => castInt 4 false value
  | _ => 0

def equals (item : Item) (otherItem : Option Item) : Bool :=
  match otherItem with
  | none => false
  | some other =>
      if item.id ≠ other.id then false
      else
        match item.attributes, other.attributes with
        | none, none => true
        | none, some y => y.attributeBits = 0#32
        | some x, none => x.attributeBits = 0#32
        | some x, some y => x.equals y

variable {a b item : Item} {t : AttrType}

/-- Items are equal that have the same id, and of each type the same attribute. -/
theorem equals_iff :
    a.equals (some b) = true ↔ a.id = b.id ∧ ∀ t, a.attr t = b.attr t := by
  unfold equals attr
  dsimp only
  by_cases hid : a.id = b.id
  · rw [if_neg (not_not.mpr hid)]
    refine Iff.trans ?_ (and_iff_right hid).symm
    cases a.attributes with
    | none =>
        cases b.attributes with
        | none => exact ⟨fun _ _ => rfl, fun _ => rfl⟩
        | some y =>
            dsimp only [Option.bind]
            rw [decide_eq_true_eq, ItemAttributes.attributeBits_zero_iff]
            exact forall_congr' fun t => eq_comm
    | some x =>
        cases b.attributes with
        | none =>
            dsimp only [Option.bind]
            rw [decide_eq_true_eq, ItemAttributes.attributeBits_zero_iff]
        | some y => exact ItemAttributes.equals_iff
  · rw [if_pos hid]
    exact ⟨fun h => (by cases h), fun h => absurd h.1 hid⟩

theorem attr_setIntAttr {t' : IntAttr} {value : Int} :
    (item.setIntAttr t' value).attr t =
      if t = .int t' then some (.int t' (if t' = .attackSpeed ∧ value < 100 then 100 else value))
      else item.attr t := by
  have hget : (item.attributes.getD .empty).getExistingAttr t = item.attr t := by
    unfold attr
    cases item.attributes with
    | none => exact ItemAttributes.getExistingAttr_empty
    | some x => rfl
  rw [← hget]
  exact ItemAttributes.getExistingAttr_setAttr

end Item

/-! ## Creating and cloning -/

section Clone

variable (items : UInt16 → ItemType)

/-- `Item::Item(type, count)`; `duration` is what `normal_random` gave for the decay times of the
type, 0 for none. -/
def newItem (type : UInt16) (count duration : Nat) : Item :=
  let it := items type
  let item : Item := ⟨type, 1, none⟩
  let item :=
    if it.fluid then item.setIntAttr .fluidType count
    else if it.stackable then
      if count ≠ 0 then { item with count := UInt8.ofNat count }
      else if it.charges ≠ 0 then { item with count := UInt8.ofNat it.charges }
      else item
    else if it.charges ≠ 0 then
      item.setIntAttr .charges (if count ≠ 0 then count else it.charges % 2 ^ 16 : Nat)
    else item
  if duration ≠ 0 then item.setIntAttr .duration (castInt 4 true duration) else item

/-- The types that have a class of their own. -/
def ownClass (it : ItemType) : Bool :=
  it.isDepot || it.isContainer || it.isTeleport || it.isMagicField || it.isDoor ||
    it.isTrashHolder || it.isMailbox || it.isBed

/-- The type of the item that `CreateItem` makes: rings and soft boots that are worn are made as
those that are not. -/
def createdType (type : UInt16) : UInt16 :=
  let it := items type
  if ownClass it then type
  else if 2210 ≤ it.id ∧ it.id ≤ 2212 then type - 3
  else if it.id = 2215 ∨ it.id = 2216 then type - 2
  else if 2202 ≤ it.id ∧ it.id ≤ 2206 then type - 37
  else if it.id = 2640 then 6132
  else if it.id = 6301 then 6300
  else type

def createItem (type : UInt16) (count duration : Nat) : Option Item :=
  let it := items type
  if it.group = .deprecated then none
  else
    let count := if it.stackable ∧ count = 0 then 1 else count
    if it.id = 0 then none
    else
      some (newItem items (createdType items type) (if ownClass it then 0 else count) duration)

/-- The copy of the attributes, with a map of its own. -/
def copyAttributes (heap : Heap) (x : ItemAttributes) : Heap × ItemAttributes :=
  match x.getExistingAttr .custom with
  | some (.custom map) =>
      (⟨heap.next + 1, Function.update heap.maps heap.next (heap.maps map)⟩,
        x.setAttr (.custom heap.next))
  | _ => (heap, x)

/-- `Item::clone`, where `CreateItem` makes an item. -/
def clone (heap : Heap) (item : Item) (duration : Nat) : Option (Heap × Item) :=
  (createItem items item.id item.count.toNat duration).map fun made =>
    match item.attributes with
    | none => (heap, made)
    | some x =>
        let copy := copyAttributes heap x
        let made := { made with attributes := some copy.2 }
        (copy.1, if 0 < made.getDuration then made.setIntAttr .decayState 1 else made)

/-- A type whose items are made without attributes. -/
structure Plain (it : ItemType) (duration : Nat) : Prop where
  fluid : it.fluid = false
  charges : it.stackable = false → it.charges = 0
  duration : duration = 0

/-- Cloning makes an item of the same type, no attributes for an item that has none, and lets no
item decay that does not. -/
structure ClonedAlike (item : Item) (duration : Nat) : Prop where
  type : createdType items item.id = item.id
  attributes : item.attributes = none → Plain (items item.id) duration
  decaying : 0 < item.getDuration → item.attr (.int .decayState) = some (.int .decayState 1)

variable {items}

theorem newItem_id {type : UInt16} {count duration : Nat} :
    (newItem items type count duration).id = type := by
  unfold newItem
  dsimp only
  split_ifs <;> rfl

theorem createItem_some {type : UInt16} {count duration : Nat} {made : Item}
    (h : createItem items type count duration = some made) :
    ∃ n, made = newItem items (createdType items type) n duration := by
  unfold createItem at h
  dsimp only at h
  split at h
  · cases h
  · split at h
    · cases h
    · exact ⟨_, (Option.some.inj h).symm⟩

theorem newItem_plain {type : UInt16} {count duration : Nat} :
    (∀ t, (newItem items type count duration).attr t = none) ↔ Plain (items type) duration := by
  have hset (item : Item) (t : IntAttr) (value : Int) :
      ¬ ∀ t', (item.setIntAttr t value).attr t' = none := by
    intro h
    have hnone := h (.int t)
    rw [Item.attr_setIntAttr, if_pos rfl] at hnone
    cases hnone
  unfold newItem
  dsimp only
  by_cases hduration : duration = 0
  · rw [if_neg (not_not.mpr hduration)]
    by_cases hfluid : (items type).fluid = true
    · rw [if_pos hfluid]
      refine iff_of_false (hset _ _ _) fun h => ?_
      rw [h.fluid] at hfluid
      cases hfluid
    · rw [if_neg hfluid]
      by_cases hstackable : (items type).stackable = true
      · rw [if_pos hstackable]
        refine iff_of_true (fun t => ?_)
          ⟨Bool.eq_false_iff.mpr hfluid, fun h => (by rw [hstackable] at h; cases h), hduration⟩
        split_ifs <;> rfl
      · rw [if_neg hstackable]
        by_cases hcharges : (items type).charges = 0
        · rw [if_neg (not_not.mpr hcharges)]
          exact iff_of_true (fun t => rfl) ⟨Bool.eq_false_iff.mpr hfluid, fun _ => hcharges, hduration⟩
        · rw [if_pos hcharges]
          exact iff_of_false (hset _ _ _) fun h => hcharges (h.charges (Bool.eq_false_iff.mpr hstackable))
  · rw [if_pos hduration]
    exact iff_of_false (hset _ _ _) fun h => hduration h.duration

theorem copyAttributes_of_none {heap : Heap} {x : ItemAttributes}
    (h : x.getExistingAttr .custom = none) : copyAttributes heap x = (heap, x) := by
  rw [copyAttributes, h]

/-- A clone of an item without custom attributes equals it where cloning keeps it alike. -/
theorem clone_equals {heap heap' : Heap} {item made : Item} {duration : Nat}
    (hcustom : item.attr .custom = none)
    (h : clone items heap item duration = some (heap', made)) :
    item.equals (some made) = true ↔ ClonedAlike items item duration := by
  unfold clone at h
  obtain ⟨bare, hbare, hmade⟩ := Option.map_eq_some_iff.mp h
  obtain ⟨n, hnew⟩ := createItem_some hbare
  have hid : bare.id = createdType items item.id := by rw [hnew, newItem_id]
  have hempty : (∀ t, bare.attr t = none) ↔
      Plain (items (createdType items item.id)) duration := by rw [hnew, newItem_plain]
  clear hnew
  rw [Item.equals_iff]
  cases hattributes : item.attributes with
  | none =>
      rw [hattributes] at hmade
      obtain ⟨-, rfl⟩ := Prod.mk.inj hmade
      have hattr (t : AttrType) : item.attr t = none := by
        rw [Item.attr, hattributes]
        rfl
      have hduration : item.getDuration = 0 := by
        rw [Item.getDuration, hattr]
      rw [hid]
      constructor
      · rintro ⟨htype, hsame⟩
        refine ⟨htype.symm, fun _ => ?_, fun hpos => ?_⟩
        · have hplain := hempty.mp fun t => (hsame t).symm.trans (hattr t)
          rwa [← htype] at hplain
        · rw [hduration] at hpos
          cases hpos
      · rintro ⟨htype, hplain, -⟩
        have hnone := hempty.mpr (by rw [htype]; exact hplain hattributes)
        exact ⟨htype.symm, fun t => (hattr t).trans (hnone t).symm⟩
  | some x =>
      have hget (t : AttrType) : x.getExistingAttr t = item.attr t := by
        rw [Item.attr, hattributes]
        rfl
      rw [hattributes] at hmade
      dsimp only at hmade
      rw [copyAttributes_of_none ((hget _).trans hcustom)] at hmade
      dsimp only at hmade
      obtain ⟨-, rfl⟩ := Prod.mk.inj hmade
      have hattr (t : AttrType) : Item.attr { bare with attributes := some x } t = item.attr t :=
        hget t
      have hduration : Item.getDuration { bare with attributes := some x } = item.getDuration := by
        rw [Item.getDuration, Item.getDuration, hattr]
      rw [hduration]
      by_cases hpos : 0 < item.getDuration
      · rw [if_pos hpos]
        have hid' : (Item.setIntAttr { bare with attributes := some x } .decayState 1).id =
            createdType items item.id := hid
        rw [hid']
        constructor
        · rintro ⟨htype, hsame⟩
          refine ⟨htype.symm, fun hnone => ?_, fun _ => ?_⟩
          · rw [hattributes] at hnone
            cases hnone
          · rw [hsame, Item.attr_setIntAttr, if_pos rfl]
            rfl
        · rintro ⟨htype, -, hdecaying⟩
          refine ⟨htype.symm, fun t => ?_⟩
          rw [Item.attr_setIntAttr]
          split
          · next ht =>
              rw [ht, hdecaying hpos]
              rfl
          · exact (hattr t).symm
      · rw [if_neg hpos]
        have hid' : (Item.mk bare.id bare.count (some x)).id = createdType items item.id := hid
        rw [hid']
        constructor
        · rintro ⟨htype, -⟩
          refine ⟨htype.symm, fun hnone => ?_, fun h => absurd h hpos⟩
          rw [hattributes] at hnone
          cases hnone
        · rintro ⟨htype, -, -⟩
          exact ⟨htype.symm, fun t => (hattr t).symm⟩

end Clone

/-! ## What items hold -/

/-- What there is to see of an attribute of a type. -/
inductive AttrValue where
  | int (value : Int)
  | str (value : List UInt8)
  | custom (find : List UInt8 → Option CustomAttribute)

def Heap.value (heap : Heap) : Attribute → AttrValue
  | .int _ value => .int value
  | .str _ value => .str value
  | .custom map => .custom (heap.maps map).find

/-- The same id and the same values, with custom attributes and what is set by combat types. -/
structure Same (heap : Heap) (a b : Item) : Prop where
  id : a.id = b.id
  values : ∀ t, (a.attr t).map heap.value = (b.attr t).map heap.value
  reflect : ∀ combatType, a.reflect combatType = b.reflect combatType
  boostPercent : ∀ combatType, a.boostPercent combatType = b.boostPercent combatType

section Same

variable {heap : Heap} {a b : Item} {t : AttrType}

theorem Item.attr_type {x : Attribute} (h : a.attr t = some x) : x.type = t := by
  obtain ⟨y, -, hx⟩ := Option.bind_eq_some_iff.mp h
  exact (ItemAttributes.getExistingAttr_iff.mp hx).2

/-- But for custom attributes, what is seen of attributes of one type tells them apart. -/
theorem values_iff (ha : a.attr .custom = none) :
    (a.attr t).map heap.value = (b.attr t).map heap.value ↔ a.attr t = b.attr t := by
  refine ⟨fun h => ?_, fun h => by rw [h]⟩
  cases hx : a.attr t with
  | none =>
      rw [hx] at h
      exact (Option.map_eq_none_iff.mp h.symm).symm
  | some x =>
      rw [hx] at h
      obtain ⟨y, hy, hvalue⟩ := Option.map_eq_some_iff.mp h.symm
      have hxt := Item.attr_type hx
      have hyt := Item.attr_type hy
      rw [hy]
      cases x with
      | int t value =>
          cases hxt
          cases y <;> cases hyt
          cases hvalue
          rfl
      | str t value =>
          cases hxt
          cases y <;> cases hyt
          cases hvalue
          rfl
      | custom map =>
          cases hxt
          cases ha.symm.trans hx

theorem equals_iff_same (hcustom : a.attr .custom = none ∨ b.attr .custom = none)
    (hreflect : ∀ combatType, a.reflect combatType = b.reflect combatType)
    (hboost : ∀ combatType, a.boostPercent combatType = b.boostPercent combatType) :
    a.equals (some b) = true ↔ Same heap a b := by
  have hvalues (t : AttrType) :
      (a.attr t).map heap.value = (b.attr t).map heap.value ↔ a.attr t = b.attr t := by
    rcases hcustom with ha | hb
    · exact values_iff ha
    · exact eq_comm.trans ((values_iff hb).trans eq_comm)
  rw [Item.equals_iff]
  constructor
  · rintro ⟨hid, hattr⟩
    exact ⟨hid, fun t => (hvalues t).mpr (hattr t), hreflect, hboost⟩
  · intro h
    exact ⟨h.id, fun t => (hvalues t).mp (h.values t)⟩

theorem equals_equivalence : Equivalence fun a b : Item => a.equals (some b) = true where
  refl a := Item.equals_iff.mpr ⟨rfl, fun _ => rfl⟩
  symm h := by
    obtain ⟨hid, hattr⟩ := Item.equals_iff.mp h
    exact Item.equals_iff.mpr ⟨hid.symm, fun t => (hattr t).symm⟩
  trans h h' := by
    obtain ⟨hid, hattr⟩ := Item.equals_iff.mp h
    obtain ⟨hid', hattr'⟩ := Item.equals_iff.mp h'
    exact Item.equals_iff.mpr ⟨hid.trans hid', fun t => (hattr t).trans (hattr' t)⟩

end Same

/-- Items of which one has no custom attributes, and of which what is set by combat types is the
same, are equal exactly if they hold the same; items are equal as in an equivalence; and the clone
of an item without custom attributes equals it exactly where cloning keeps it alike. -/
theorem equal_items :
    (∀ (heap : Heap) (a b : Item), a.attr .custom = none ∨ b.attr .custom = none →
      (∀ combatType, a.reflect combatType = b.reflect combatType) →
      (∀ combatType, a.boostPercent combatType = b.boostPercent combatType) →
      (a.equals (some b) = true ↔ Same heap a b)) ∧
    (Equivalence fun a b : Item => a.equals (some b) = true) ∧
    ∀ (items : UInt16 → ItemType) (heap heap' : Heap) (item made : Item) (duration : Nat),
      item.attr .custom = none → clone items heap item duration = some (heap', made) →
      (item.equals (some made) = true ↔ ClonedAlike items item duration) :=
  ⟨fun _ _ _ hcustom hreflect hboost => equals_iff_same hcustom hreflect hboost,
    equals_equivalence, fun _ _ _ _ _ _ hcustom h => clone_equals hcustom h⟩

/-- Types that only their id tells apart, but for one with charges. -/
def plainItems (id : UInt16) : ItemType := { id := id, charges := if id = 2300 then 5 else 0 }

/-- A heap with one map of custom attributes. -/
def oneMap : Heap := ⟨1, fun _ => .empty⟩

/-- An item with the attributes that are set. -/
def swordWith (x : ItemAttributes) : Item := ⟨2376, 1, some x⟩

def sharpened : Item := swordWith ((ItemAttributes.empty.setIntAttr .actionId 100).setIntAttr .attack 7)

/-- Set in the other order. -/
def resharpened : Item :=
  swordWith ((ItemAttributes.empty.setIntAttr .attack 7).setIntAttr .actionId 100)

theorem equal_items_sharpened :
    (sharpened.equals (some resharpened) = true ↔ Same oneMap sharpened resharpened) ∧
      (sharpened.equals (some sharpened) = true ↔ ClonedAlike plainItems sharpened 0) :=
  ⟨equal_items.1 oneMap sharpened resharpened (.inl rfl) (fun _ => rfl) (fun _ => rfl),
    equal_items.2.2 plainItems oneMap oneMap sharpened sharpened 0 rfl rfl⟩

/-- Whether the clone of an item equals it, with no time for the type to decay. -/
def clonedEqual (item : Item) : Option Bool :=
  (clone plainItems oneMap item 0).map fun made => item.equals (some made.2)

def tagged : Item := swordWith (ItemAttributes.empty.setAttr (.custom 0))

def reflecting : Item := swordWith { ItemAttributes.empty with reflect := fun _ => some ⟨10, 100⟩ }

def boosting : Item := swordWith { ItemAttributes.empty with boostPercent := fun _ => some 10 }

/-- An item with a map of custom attributes and its clone, which hold the same; items that reflect
or boost, and one that does not; a clone that decays, one of a worn ring, one that gets charges. -/
theorem equal_items_differ :
    (clonedEqual tagged = some false ∧
      ∀ made ∈ clone plainItems oneMap tagged 0, Same made.1 tagged made.2) ∧
    ((swordWith .empty).equals (some reflecting) = true ∧
      ¬ Same oneMap (swordWith .empty) reflecting) ∧
    ((swordWith .empty).equals (some boosting) = true ∧
      ¬ Same oneMap (swordWith .empty) boosting) ∧
    clonedEqual (swordWith (ItemAttributes.empty.setIntAttr .duration 1000)) = some false ∧
    clonedEqual ⟨2204, 1, none⟩ = some false ∧
    clonedEqual ⟨2300, 1, none⟩ = some false := by
  refine ⟨⟨rfl, ?_⟩, ⟨rfl, ?_⟩, ⟨rfl, ?_⟩, rfl, rfl, rfl⟩
  · intro made hmade
    obtain rfl := Option.some.inj hmade
    refine ⟨rfl, fun t => ?_, fun _ => rfl, fun _ => rfl⟩
    rcases t with t | t | _
    · cases t <;> rfl
    · cases t <;> rfl
    · rfl
  · intro h
    cases h.reflect 0
  · intro h
    cases h.boostPercent 0

end Bruxo.ItemEquals
