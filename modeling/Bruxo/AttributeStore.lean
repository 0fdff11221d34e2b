import Bruxo.ItemEquals
import Bruxo.Lib.Runs
import Bruxo.Lib.SwapList

/-!
# The attribute store

`ItemAttributes` (`item.cpp`) as it is: a type is any 32 bits, one of them for each named type, and
nothing in what the store holds says that its list and its mask agree. They do in a run that never
uses a type without a bit or with several, which the test for the kind of a type lets through.

A string is the one that its pointer points to. A sum that does not fit is undefined. Attributes by
their named types (`ItemEquals`) are such a store, and are set as it is.
-/

namespace Bruxo.AttributeStore

/-! ## The store -/

/-- `itemAttrTypes`, the type of an enumeration over `uint32_t`. -/
abbrev ItemAttrTypes := BitVec 32

/-- The bit of a named type. -/
def itemAttr (t : ItemEquals.AttrType) : ItemAttrTypes := BitVec.twoPow 32 t.bit

def intAttributeTypes : ItemAttrTypes :=
  IntAttr.all.foldl (fun mask t => mask ||| itemAttr (.int t)) 0

def stringAttributeTypes : ItemAttrTypes :=
  StrAttr.all.foldl (fun mask t => mask ||| itemAttr (.str t)) 0

def isIntAttrType (type : ItemAttrTypes) : Prop := type &&& intAttributeTypes = type

def isStrAttrType (type : ItemAttrTypes) : Prop := type &&& stringAttributeTypes = type

instance (type : ItemAttrTypes) : Decidable (isIntAttrType type) :=
  inferInstanceAs (Decidable (_ = _))

instance (type : ItemAttrTypes) : Decidable (isStrAttrType type) :=
  inferInstanceAs (Decidable (_ = _))

inductive Value where
  | integer (value : Int64)
  | string (value : List UInt8)
  | custom (map : ItemEquals.Ptr)
  deriving DecidableEq

structure Attribute where
  value : Value
  type : ItemAttrTypes
  deriving DecidableEq

structure ItemAttributes where
  attributes : List Attribute
  attributeBits : BitVec 32
  deriving DecidableEq

def empty : ItemAttributes := ⟨[], 0⟩

/-- The integer of a value, 0 where there is none. -/
def integerOf : Option Value → Int64
  | some (.integer value) => value
  | _ => 0

/-- The string of a value, the empty one where there is none. -/
def stringOf : Option Value → List UInt8
  | some (.string value) => value
  | _ => []

/-- The documented lower bound. -/
def bounded (type : ItemAttrTypes) (value : Int64) : Int64 :=
  if type = itemAttr (.int .attackSpeed) ∧ value < 100 then 100 else value

namespace ItemAttributes

def hasAttribute (x : ItemAttributes) (type : ItemAttrTypes) : Bool :=
  type &&& x.attributeBits ≠ 0

def getExistingAttr (x : ItemAttributes) (type : ItemAttrTypes) : Option Attribute :=
  if x.hasAttribute type then SwapList.lookup Attribute.type type x.attributes else none

/-- A new attribute at the end of the list. -/
def emplaceBack (x : ItemAttributes) (a : Attribute) : ItemAttributes where
  attributes := x.attributes ++ [a]
  attributeBits := x.attributeBits ||| a.type

/-- `getAttr`, of which the value is set. -/
def setAttr (x : ItemAttributes) (a : Attribute) : ItemAttributes :=
  if x.hasAttribute a.type then
    match SwapList.replace Attribute.type a.type a x.attributes with
    | some attributes => { x with attributes := attributes }
    | none => x.emplaceBack a
  else x.emplaceBack a

def getStrAttr (x : ItemAttributes) (type : ItemAttrTypes) : List UInt8 :=
  if isStrAttrType type then stringOf ((x.getExistingAttr type).map Attribute.value) else []

def setStrAttr (x : ItemAttributes) (type : ItemAttrTypes) (value : List UInt8) :
    ItemAttributes :=
  if isStrAttrType type then
    if value = [] then x else x.setAttr ⟨.string value, type⟩
  else x

def getIntAttr (x : ItemAttributes) (type : ItemAttrTypes) : Int64 :=
  if isIntAttrType type then integerOf ((x.getExistingAttr type).map Attribute.value) else 0

def setIntAttr (x : ItemAttributes) (type : ItemAttrTypes) (value : Int64) : ItemAttributes :=
  if isIntAttrType type then x.setAttr ⟨.integer (bounded type value), type⟩ else x

/-- A sum that an `int64_t` can hold. -/
def Fits (a b : Int64) : Prop :=
  Int64.minValue.toInt ≤ a.toInt + b.toInt ∧ a.toInt + b.toInt ≤ Int64.maxValue.toInt

instance (a b : Int64) : Decidable (Fits a b) := inferInstanceAs (Decidable (_ ∧ _))

def increaseIntAttr (x : ItemAttributes) (type : ItemAttrTypes) (value : Int64) :
    Option ItemAttributes :=
  if Fits (x.getIntAttr type) value then some (x.setIntAttr type (x.getIntAttr type + value))
  else none

def removeAttribute (x : ItemAttributes) (type : ItemAttrTypes) : ItemAttributes :=
  if x.hasAttribute type then
    { attributes := SwapList.swapOut Attribute.type type x.attributes
      attributeBits := x.attributeBits &&& ~~~ type }
  else x

end ItemAttributes

inductive Op where
  | setStrAttr (type : ItemAttrTypes) (value : List UInt8)
  | setIntAttr (type : ItemAttrTypes) (value : Int64)
  | increaseIntAttr (type : ItemAttrTypes) (value : Int64)
  | removeAttribute (type : ItemAttrTypes)
  deriving DecidableEq

def ItemAttributes.apply (x : ItemAttributes) : Op → Option ItemAttributes
  | .setStrAttr type value => some (x.setStrAttr type value)
  | .setIntAttr type value => some (x.setIntAttr type value)
  | .increaseIntAttr type value => x.increaseIntAttr type value
  | .removeAttribute type => some (x.removeAttribute type)

/-- Nothing is known of a store after what is undefined. -/
def step (x : Option ItemAttributes) (op : Op) : Option ItemAttributes :=
  x.bind fun x => x.apply op

/-! ## What is set -/

/-- The value of a type after an operation, by what was set and removed alone. -/
def heldAfter (type : ItemAttrTypes) (held : Option Value) : Op → Option Value
  | .setStrAttr t value =>
      if t = type ∧ isStrAttrType t ∧ value ≠ [] then some (.string value) else held
  | .setIntAttr t value =>
      if t = type ∧ isIntAttrType t then some (.integer (bounded t value)) else held
  | .increaseIntAttr t value =>
      if t = type ∧ isIntAttrType t then some (.integer (bounded t (integerOf held + value)))
      else held
  | .removeAttribute t => if t = type then none else held

/-- What the list has for a type. -/
def ItemAttributes.held (x : ItemAttributes) (type : ItemAttrTypes) : Option Value :=
  (SwapList.lookup Attribute.type type x.attributes).map Attribute.value

/-- A type with a bit of its own. -/
def Single (type : ItemAttrTypes) : Prop := ∃ n < 32, type = BitVec.twoPow 32 n

/-- What an enumerator can be. -/
def Enumerator (type : ItemAttrTypes) : Prop := type = 0 ∨ Single type

/-- Each type is in the list at most once, exactly when its bit is set, and is read as the value
that was last set for it. -/
structure Kept (x : ItemAttributes) (ops : List Op) (y : ItemAttributes) : Prop where
  once : ∀ type, (y.attributes.map Attribute.type).count type ≤ 1
  bits : ∀ type, Enumerator type →
    (type ∈ y.attributes.map Attribute.type ↔ y.hasAttribute type = true)
  int : ∀ type, isIntAttrType type →
    y.getIntAttr type = integerOf (ops.foldl (heldAfter type) (x.held type))
  str : ∀ type, isStrAttrType type →
    y.getStrAttr type = stringOf (ops.foldl (heldAfter type) (x.held type))

/-- Where an operation sets or removes, it does so for one bit, and a sum fits. -/
def Regular (x : ItemAttributes) : Op → Prop
  | .setStrAttr type value => isStrAttrType type → value ≠ [] → Single type
  | .setIntAttr type _ => isIntAttrType type → Single type
  | .increaseIntAttr type value =>
      (isIntAttrType type → Single type) ∧ ItemAttributes.Fits (x.getIntAttr type) value
  | .removeAttribute type => x.hasAttribute type = true → Single type

/-- Every operation is regular at the store that it finds. -/
def RegularAt (x : Option ItemAttributes) (op : Op) : Prop := ∀ y ∈ x, Regular y op

/-! ## The list and the mask agree -/

structure Sound (x : ItemAttributes) : Prop where
  nodup : (x.attributes.map Attribute.type).Nodup
  single : ∀ type ∈ x.attributes.map Attribute.type, Single type
  bits : ∀ n < 32, x.attributeBits.getLsbD n = true ↔
    BitVec.twoPow 32 n ∈ x.attributes.map Attribute.type

theorem sound_empty : Sound empty where
  nodup := List.nodup_nil
  single _ h := by cases h
  bits n _ := iff_of_false (fun h => Bool.false_ne_true (BitVec.getLsbD_zero.symm.trans h))
    List.not_mem_nil

section Sound

variable {x y : ItemAttributes} {type : ItemAttrTypes} {a : Attribute}

theorem Sound.hasAttribute_iff (h : Sound x) (ht : Single type) :
    x.hasAttribute type = true ↔ type ∈ x.attributes.map Attribute.type := by
  obtain ⟨n, hn, rfl⟩ := ht
  rw [← h.bits n hn, ItemAttributes.hasAttribute, decide_eq_true_eq, SingleBit.and_single hn]

theorem Sound.getExistingAttr (h : Sound x) (type : ItemAttrTypes) :
    (x.getExistingAttr type).map Attribute.value = x.held type := by
  refine congrArg (Option.map _) ?_
  rw [ItemAttributes.getExistingAttr]
  split
  · rfl
  · next hhas =>
      refine (SwapList.lookup_eq_none.mpr fun hmem => ?_).symm
      exact hhas ((h.hasAttribute_iff (h.single type hmem)).mpr hmem)

theorem Sound.getIntAttr (h : Sound x) (hint : isIntAttrType type) :
    x.getIntAttr type = integerOf (x.held type) := by
  rw [ItemAttributes.getIntAttr, if_pos hint, h.getExistingAttr]

theorem Sound.getStrAttr (h : Sound x) (hstr : isStrAttrType type) :
    x.getStrAttr type = stringOf (x.held type) := by
  rw [ItemAttributes.getStrAttr, if_pos hstr, h.getExistingAttr]

/-! ## Setting -/

/-- The others stay, wherever they are. -/
theorem Sound.setAttr_perm (h : Sound x) (ha : Single a.type) :
    (x.setAttr a).attributes.Perm (a :: x.attributes.filter fun b => b.type ≠ a.type) := by
  have hback (hnone : a.type ∉ x.attributes.map Attribute.type) :
      (x.emplaceBack a).attributes.Perm (a :: x.attributes.filter fun b => b.type ≠ a.type) := by
    have hall : ∀ b ∈ x.attributes, b.type ≠ a.type :=
      fun b hb heq => hnone (heq ▸ List.mem_map_of_mem hb)
    rw [List.filter_eq_self.mpr fun b hb => decide_eq_true (hall b hb)]
    exact List.perm_append_singleton a x.attributes
  rw [ItemAttributes.setAttr]
  split
  · split
    · next hreplace => exact SwapList.replace_perm h.nodup hreplace
    · next hnone => exact hback (SwapList.replace_eq_none.mp hnone)
  · next hhas => exact hback fun hmem => hhas ((h.hasAttribute_iff ha).mpr hmem)

theorem setAttr_bits (ha : Single a.type) :
    (x.setAttr a).attributeBits = x.attributeBits ||| a.type := by
  rw [ItemAttributes.setAttr]
  split
  · next hhas =>
      split
      · obtain ⟨n, hn, htype⟩ := ha
        rw [ItemAttributes.hasAttribute, decide_eq_true_eq, htype, SingleBit.and_single hn] at hhas
        rw [htype, SingleBit.or_single hhas]
      · rfl
  · rfl

theorem Sound.setAttr (h : Sound x) (ha : Single a.type) : Sound (x.setAttr a) := by
  have hperm := (h.setAttr_perm ha).map Attribute.type
  have hbits := setAttr_bits (x := x) ha
  refine ⟨hperm.nodup_iff.mpr ?_, fun type htype => ?_, fun n hn => ?_⟩
  · refine List.nodup_cons.mpr ⟨fun hmem => ?_, SwapList.nodup_filter h.nodup a.type⟩
    exact (SwapList.mem_keys_filter.mp hmem).2 rfl
  · rcases List.mem_cons.mp (hperm.mem_iff.mp htype) with rfl | htype
    · exact ha
    · exact h.single type (SwapList.mem_keys_filter.mp htype).1
  · rw [hbits, BitVec.getLsbD_or, Bool.or_eq_true, h.bits n hn, hperm.mem_iff, List.map_cons,
      List.mem_cons, SwapList.mem_keys_filter]
    obtain ⟨m, hm, htype⟩ := ha
    rw [htype, SingleBit.getLsbD_single hm, decide_eq_true_eq]
    constructor
    · rintro (hmem | rfl)
      · by_cases heq : BitVec.twoPow 32 n = BitVec.twoPow 32 m
        · exact .inl heq
        · exact .inr ⟨hmem, heq⟩
      · exact .inl rfl
    · rintro (heq | ⟨hmem, -⟩)
      · exact .inr (SingleBit.single_inj hn heq).symm
      · exact .inl hmem

theorem Sound.held_setAttr (h : Sound x) (ha : Single a.type) (type : ItemAttrTypes) :
    (x.setAttr a).held type = if a.type = type then some a.value else x.held type := by
  rw [ItemAttributes.held,
    SwapList.lookup_perm (h.setAttr ha).nodup (h.setAttr_perm ha) type, SwapList.lookup,
    List.find?_cons]
  by_cases heq : a.type = type
  · rw [if_pos heq, decide_eq_true heq]
    rfl
  · rw [if_neg heq, decide_eq_false heq]
    have hfilter := @SwapList.lookup_filter _ _ _ Attribute.type a.type type x.attributes
    rw [if_neg heq] at hfilter
    exact congrArg (Option.map _) hfilter

theorem Sound.setIntAttr (h : Sound x) {t : ItemAttrTypes} (ht : isIntAttrType t → Single t)
    (value : Int64) :
    Sound (x.setIntAttr t value) ∧ ∀ type,
      (x.setIntAttr t value).held type = heldAfter type (x.held type) (.setIntAttr t value) := by
  rw [ItemAttributes.setIntAttr]
  split
  · next hint =>
      refine ⟨h.setAttr (ht hint), fun type => (h.held_setAttr (ht hint) type).trans ?_⟩
      simp only [heldAfter, hint, and_true]
  · next hint => exact ⟨h, fun type => (if_neg fun hset => hint hset.2).symm⟩

theorem Sound.setStrAttr (h : Sound x) {t : ItemAttrTypes} {value : List UInt8}
    (ht : isStrAttrType t → value ≠ [] → Single t) :
    Sound (x.setStrAttr t value) ∧ ∀ type,
      (x.setStrAttr t value).held type = heldAfter type (x.held type) (.setStrAttr t value) := by
  rw [ItemAttributes.setStrAttr]
  split
  · next hstr =>
      split
      · next hempty => exact ⟨h, fun type => (if_neg fun hset => hset.2.2 hempty).symm⟩
      · next hvalue =>
          have hsingle := ht hstr hvalue
          refine ⟨h.setAttr hsingle, fun type => (h.held_setAttr hsingle type).trans ?_⟩
          simp only [heldAfter, hstr, hvalue, ne_eq, not_false_eq_true, and_true]
  · next hstr => exact ⟨h, fun type => (if_neg fun hset => hstr hset.2.1).symm⟩

/-! ## Removing -/

theorem Sound.removeAttribute_bare (h : Sound x) {t : ItemAttrTypes} (ht : Single t)
    (hmem : t ∈ x.attributes.map Attribute.type) (hhas : x.hasAttribute t = true) :
    Sound (x.removeAttribute t) ∧ ∀ type,
      (x.removeAttribute t).held type = if t = type then none else x.held type := by
  have hperm := SwapList.swapOut_perm h.nodup hmem
  have hkeys := hperm.map Attribute.type
  rw [ItemAttributes.removeAttribute, if_pos hhas]
  have hnodup := hkeys.nodup_iff.mpr (SwapList.nodup_filter h.nodup t)
  refine ⟨⟨hnodup, fun type htype => ?_, fun n hn => ?_⟩, fun type => ?_⟩
  · exact h.single type (SwapList.mem_keys_filter.mp (hkeys.mem_iff.mp htype)).1
  · obtain ⟨m, hm, rfl⟩ := ht
    rw [hkeys.mem_iff, SwapList.mem_keys_filter, BitVec.getLsbD_and, BitVec.getLsbD_not,
      SingleBit.getLsbD_single hm, decide_eq_true hn, Bool.true_and, Bool.and_eq_true, h.bits n hn,
      Bool.not_eq_true', decide_eq_false_iff_not]
    refine and_congr_right' (not_congr ⟨fun heq => heq ▸ rfl, fun heq => ?_⟩)
    exact (SingleBit.single_inj hn heq).symm
  · rw [ItemAttributes.held, SwapList.lookup_perm hnodup hperm, SwapList.lookup_filter]
    split
    · rfl
    · rfl

theorem Sound.removeAttribute (h : Sound x) {t : ItemAttrTypes}
    (ht : x.hasAttribute t = true → Single t) :
    Sound (x.removeAttribute t) ∧ ∀ type,
      (x.removeAttribute t).held type = heldAfter type (x.held type) (.removeAttribute t) := by
  by_cases hhas : x.hasAttribute t = true
  · exact h.removeAttribute_bare (ht hhas) ((h.hasAttribute_iff (ht hhas)).mp hhas) hhas
  · rw [ItemAttributes.removeAttribute, if_neg hhas]
    refine ⟨h, fun type => ?_⟩
    rw [heldAfter]
    split
    · next heq =>
        -- What has no bit is not in the list.
        subst heq
        refine Option.map_eq_none_iff.mpr (SwapList.lookup_eq_none.mpr fun hmem => hhas ?_)
        exact (h.hasAttribute_iff (h.single t hmem)).mpr hmem
    · rfl

/-! ## Runs -/

theorem Sound.apply (h : Sound x) {op : Op} (hregular : Regular x op) :
    ∃ y, x.apply op = some y ∧ Sound y ∧
      ∀ type, y.held type = heldAfter type (x.held type) op := by
  cases op with
  | setStrAttr t value => exact ⟨_, rfl, h.setStrAttr hregular⟩
  | setIntAttr t value => exact ⟨_, rfl, h.setIntAttr hregular value⟩
  | removeAttribute t => exact ⟨_, rfl, h.removeAttribute hregular⟩
  | increaseIntAttr t value =>
      obtain ⟨ht, hfits⟩ := hregular
      obtain ⟨hsound, hheld⟩ := h.setIntAttr ht (x.getIntAttr t + value)
      refine ⟨x.setIntAttr t (x.getIntAttr t + value), if_pos hfits, hsound, fun type => ?_⟩
      rw [hheld, heldAfter, heldAfter]
      refine ite_congr rfl (fun hset => ?_) fun _ => rfl
      obtain ⟨rfl, hint⟩ := hset
      rw [h.getIntAttr hint]

theorem Sound.run (h : Sound x) {ops : List Op}
    (hregular : Runs.Throughout step RegularAt (some x) ops) :
    ∃ y, Runs.run step (some x) ops = some y ∧ Sound y ∧
      ∀ type, y.held type = ops.foldl (heldAfter type) (x.held type) := by
  induction ops generalizing x with
  | nil => exact ⟨x, rfl, h, fun _ => rfl⟩
  | cons op ops ih =>
      obtain ⟨hfirst, hrest⟩ := Runs.throughout_cons.mp hregular
      obtain ⟨y, hy, hsound, hheld⟩ := h.apply (hfirst x rfl)
      have hstep : step (some x) op = some y := hy
      rw [hstep] at hrest
      obtain ⟨z, hz, hsound', hheld'⟩ := ih hsound hrest
      refine ⟨z, by rw [Runs.run_cons, hstep, hz], hsound', fun type => ?_⟩
      rw [hheld', hheld, List.foldl_cons]

end Sound

/-- From a store of which the list and the mask agree, a run that sets and removes single bits
leaves each type at most once in the list, exactly when its bit is set, and with the value that it
was last given. -/
theorem attribute_store {x : ItemAttributes} {ops : List Op} (h : Sound x)
    (hregular : Runs.Throughout step RegularAt (some x) ops) :
    ∃ y, Runs.run step (some x) ops = some y ∧ Kept x ops y := by
  obtain ⟨y, hrun, hsound, hheld⟩ := h.run hregular
  refine ⟨y, hrun, fun type => ?_, fun type htype => ?_, fun type hint => ?_, fun type hstr => ?_⟩
  · exact List.nodup_iff_count_le_one.mp hsound.nodup type
  · rcases htype with rfl | hsingle
    · refine iff_of_false (fun hmem => ?_) (by simp [ItemAttributes.hasAttribute])
      obtain ⟨n, hn, hzero⟩ := hsound.single 0 hmem
      exact SingleBit.single_ne_zero hn hzero.symm
    · exact (hsound.hasAttribute_iff hsingle).symm
  · rw [hsound.getIntAttr hint, hheld]
  · rw [hsound.getStrAttr hstr, hheld]

/-! ## The attributes of an item -/

section Item

variable (x : ItemEquals.ItemAttributes) {t t' : ItemEquals.AttrType}

def valueOf : ItemEquals.Attribute → Value
  | .int _ value => .integer (Int64.ofInt value)
  | .str _ value => .string value
  | .custom map => .custom map

def attributeOf (a : ItemEquals.Attribute) : Attribute := ⟨valueOf a, itemAttr a.type⟩

/-- Attributes by their named types, as a store. -/
def ofItem : ItemAttributes := ⟨x.attributes.map attributeOf, x.attributeBits⟩

theorem itemAttr_inj (h : itemAttr t = itemAttr t') : t = t' :=
  ItemEquals.AttrType.bit_inj (SingleBit.single_inj t.bit_lt h)

theorem map_type_attributeOf (l : List ItemEquals.Attribute) :
    (l.map attributeOf).map Attribute.type = (l.map ItemEquals.Attribute.type).map itemAttr := by
  rw [List.map_map, List.map_map]
  rfl

theorem sound_ofItem : Sound (ofItem x) where
  nodup := by
    rw [ofItem, map_type_attributeOf]
    exact x.nodup.map fun _ _ h => itemAttr_inj h
  single type htype := by
    rw [ofItem, map_type_attributeOf] at htype
    obtain ⟨t, -, rfl⟩ := List.mem_map.mp htype
    exact ⟨t.bit, t.bit_lt, rfl⟩
  bits n hn := by
    rw [ofItem, map_type_attributeOf]
    constructor
    · intro hbit
      obtain ⟨t, rfl⟩ := x.no_more n hbit
      exact List.mem_map_of_mem ((x.bits t).mp hbit)
    · intro hmem
      obtain ⟨t, ht, heq⟩ := List.mem_map.mp hmem
      rw [← SingleBit.single_inj t.bit_lt heq]
      exact (x.bits t).mpr ht

theorem held_ofItem (t : ItemEquals.AttrType) :
    (ofItem x).held (itemAttr t) = (x.getExistingAttr t).map valueOf := by
  have hfind : x.attributes.find? (·.type = t) = x.getExistingAttr t := by
    rw [ItemEquals.ItemAttributes.getExistingAttr]
    split
    · rfl
    · next hhas =>
        refine List.find?_eq_none.mpr fun a ha htype => hhas ?_
        rw [ItemEquals.ItemAttributes.hasAttribute_iff]
        exact of_decide_eq_true htype ▸ List.mem_map_of_mem ha
  have hsame : (fun a => decide (Attribute.type a = itemAttr t)) ∘ attributeOf =
      fun a => decide (a.type = t) := by
    funext a
    exact decide_eq_decide.mpr ⟨itemAttr_inj, fun h => h ▸ rfl⟩
  rw [← hfind, ItemAttributes.held, SwapList.lookup, ofItem, List.find?_map, hsame, Option.map_map]
  rfl

/-- An attribute that is set by its named type is set in the store. -/
theorem held_setAttr_ofItem (a : ItemEquals.Attribute) (t : ItemEquals.AttrType) :
    ((ofItem x).setAttr (attributeOf a)).held (itemAttr t) =
      (ofItem (x.setAttr a)).held (itemAttr t) := by
  have ha : Single (attributeOf a).type := ⟨a.type.bit, a.type.bit_lt, rfl⟩
  rw [(sound_ofItem x).held_setAttr ha, held_ofItem, held_ofItem,
    ItemEquals.ItemAttributes.getExistingAttr_setAttr]
  by_cases htype : t = a.type
  · rw [if_pos htype, if_pos (htype ▸ rfl : (attributeOf a).type = itemAttr t)]
    rfl
  · have hne : (attributeOf a).type ≠ itemAttr t := fun h => htype (itemAttr_inj h).symm
    rw [if_neg htype, if_neg hne]

end Item

/-! ## Types that are no single bit -/

/-- Attributes of a sword, of which one is removed while others follow it. -/
def sharpened : List Op :=
  [.setStrAttr (itemAttr (.str .text)) [0x41], .setIntAttr (itemAttr (.int .attack)) 7,
    .setIntAttr (itemAttr (.int .attackSpeed)) 20, .removeAttribute (itemAttr (.str .text)),
    .increaseIntAttr (itemAttr (.int .attack)) 3]

theorem attribute_store_sharpened : Sound empty ∧
    ∃ y, Runs.run step (some empty) sharpened = some y ∧ Kept empty sharpened y := by
  have hsingle (t : ItemEquals.AttrType) : Single (itemAttr t) := ⟨t.bit, t.bit_lt, rfl⟩
  refine ⟨sound_empty, attribute_store sound_empty ?_⟩
  simp only [sharpened, Runs.throughout_cons]
  refine ⟨?_, ?_, ?_, ?_, ?_, Runs.throughout_nil⟩
  · exact fun _ _ _ _ => hsingle _
  · exact fun _ _ _ => hsingle _
  · exact fun _ _ _ => hsingle _
  · exact fun _ _ _ => hsingle _
  · rintro y hy
    refine ⟨fun _ => hsingle _, ?_⟩
    obtain rfl := Option.some.inj hy
    decide

/-- What scripts name that is no type is one without a bit, and it is set as an integer; two types
at once are removed as if both were in the list. -/
theorem attribute_store_not_single :
    (¬ ∃ y, Runs.run step (some empty) [.setIntAttr 0 5] = some y ∧
      Kept empty [.setIntAttr 0 5] y) ∧
    ¬ ∃ y, Runs.run step (some empty) [.setIntAttr (itemAttr (.int .attack)) 5,
        .removeAttribute (itemAttr (.int .attack) ||| itemAttr (.int .defense))] = some y ∧
      Kept empty [.setIntAttr (itemAttr (.int .attack)) 5,
        .removeAttribute (itemAttr (.int .attack) ||| itemAttr (.int .defense))] y := by
  constructor
  · rintro ⟨y, hy, hkept⟩
    obtain rfl := Option.some.inj hy
    have hbits := (hkept.bits 0 (.inl rfl)).mp (by decide)
    exact absurd hbits (by decide)
  · rintro ⟨y, hy, hkept⟩
    obtain rfl := Option.some.inj hy
    have hbits := (hkept.bits (itemAttr (.int .attack)) (.inr ⟨10, by decide, rfl⟩)).mp (by decide)
    exact absurd hbits (by decide)

end Bruxo.AttributeStore
