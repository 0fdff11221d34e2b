import Bruxo.ItemType
import Bruxo.PropStream
import Mathlib.Data.List.Nodup
import Mathlib.Logic.Function.Basic

/-!
# Item attributes

`ItemAttributes` and the attribute side of `Item` (`item.h`, `item.cpp`). An
attribute bit is the presence of a value; integers are the `int64_t` values
the setters take. What every setter makes sure of is part of the type: a string
attribute is never empty, an attack speed is at least 100, and the keys of
custom attributes are lower case and different.

`reflect` and `boostPercent` are maps by combat type. A `double` is its eight
bytes.
-/

namespace Bruxo

/-! ## Attributes -/

/-- The `itemAttrTypes` of `intAttributeTypes`. -/
inductive IntAttr where
  | actionId | uniqueId | date | weight | attack | defense | extraDefense | armor | hitChance
  | shootRange | owner | duration | decayState | corpseOwner | charges | fluidType | doorId
  | decayTo | wrapId | storeItem | attackSpeed | openContainer
  deriving DecidableEq

/-- The `itemAttrTypes` of `stringAttributeTypes`. -/
inductive StrAttr where
  | description | text | writer | name | article | pluralName
  deriving DecidableEq

def IntAttr.all : List IntAttr :=
  [.actionId, .uniqueId, .date, .weight, .attack, .defense, .extraDefense, .armor, .hitChance,
    .shootRange, .owner, .duration, .decayState, .corpseOwner, .charges, .fluidType, .doorId,
    .decayTo, .wrapId, .storeItem, .attackSpeed, .openContainer]

def StrAttr.all : List StrAttr := [.description, .text, .writer, .name, .article, .pluralName]

inductive CustomAttribute where
  | blank
  | str (s : List UInt8)
  | int (v : UInt64)
  | double (bits : UInt64)
  | bool (b : Bool)
  deriving DecidableEq

/-- `boost::algorithm::to_lower_copy` in the classic locale. -/
def toLower (key : List UInt8) : List UInt8 :=
  key.map fun c => if 0x41 ≤ c ∧ c ≤ 0x5A then c + 0x20 else c

theorem toLower_toLower (key : List UInt8) : toLower (toLower key) = toLower key := by
  simp only [toLower, List.map_map]
  refine List.map_congr_left fun c _ => ?_
  simp only [Function.comp]
  split
  · rename_i hupper
    obtain ⟨hlo, hhi⟩ := hupper
    rw [UInt8.le_iff_toNat_le] at hlo hhi
    have hc : (c + 0x20).toNat = c.toNat + 0x20 := by
      rw [UInt8.toNat_add]
      have : c.toNat ≤ 0x5A := hhi
      show (c.toNat + 0x20) % 256 = _
      omega
    refine if_neg fun hc' => ?_
    have hle := hc'.2
    rw [UInt8.le_iff_toNat_le, hc] at hle
    have hlo : 0x41 ≤ c.toNat := hlo
    have hle : c.toNat + 0x20 ≤ 0x5A := hle
    omega
  · rfl

/-- The entries in the order of an iteration over the `unordered_map`. -/
structure CustomAttributeMap where
  entries : List (List UInt8 × CustomAttribute)
  nodup : (entries.map Prod.fst).Nodup
  lower : ∀ e ∈ entries, toLower e.1 = e.1

namespace CustomAttributeMap

def empty : CustomAttributeMap where
  entries := []
  nodup := List.nodup_nil
  lower := fun _ h => by cases h

def find (m : CustomAttributeMap) (key : List UInt8) : Option CustomAttribute :=
  (m.entries.find? fun e => e.1 = toLower key).map Prod.snd

def erase (m : CustomAttributeMap) (key : List UInt8) : CustomAttributeMap where
  entries := m.entries.filter fun e => e.1 ≠ toLower key
  nodup := m.nodup.sublist (List.filter_sublist.map _)
  lower := fun e h => m.lower e (List.mem_of_mem_filter h)

/-- `emplace` of a key that is not there. -/
def emplace (m : CustomAttributeMap) (key : List UInt8) (value : CustomAttribute)
    (h : toLower key ∉ m.entries.map Prod.fst) : CustomAttributeMap where
  entries := m.entries ++ [(toLower key, value)]
  nodup := by
    rw [List.map_append, List.map_singleton, List.nodup_append]
    refine ⟨m.nodup, List.nodup_singleton _, fun a ha b hb heq => ?_⟩
    rw [List.mem_singleton] at hb
    rw [heq, hb] at ha
    exact h ha
  lower := by
    intro e he
    rcases List.mem_append.mp he with he | he
    · exact m.lower e he
    · obtain rfl := List.mem_singleton.mp he
      exact toLower_toLower key

theorem not_mem_erase (m : CustomAttributeMap) (key : List UInt8) :
    toLower key ∉ (m.erase key).entries.map Prod.fst := by
  intro hmem
  obtain ⟨e, he, hkey⟩ := List.mem_map.mp hmem
  obtain ⟨-, hne⟩ := List.mem_filter.mp he
  exact absurd hkey (of_decide_eq_true hne)

end CustomAttributeMap

structure Reflect where
  percent : UInt16
  chance : UInt16
  deriving DecidableEq

/-! ## Items -/

structure Item where
  count : UInt8
  intAttrs : IntAttr → Option Int
  strAttrs : StrAttr → Option (List UInt8)
  custom : Option CustomAttributeMap
  reflect : UInt16 → Option Reflect
  boostPercent : UInt16 → Option UInt16
  attackSpeed_ge : ∀ v, intAttrs .attackSpeed = some v → 100 ≤ v
  str_ne_nil : ∀ t, strAttrs t ≠ some []

namespace Item

def getIntAttr (item : Item) (t : IntAttr) : Int := (item.intAttrs t).getD 0

def getStrAttr (item : Item) (t : StrAttr) : List UInt8 := (item.strAttrs t).getD []

/-- `setIntAttr` with its lower bound for the attack speed. -/
def setIntAttr (item : Item) (t : IntAttr) (value : Int) : Item :=
  { item with
    intAttrs := Function.update item.intAttrs t
      (some (if t = .attackSpeed ∧ value < 100 then 100 else value))
    attackSpeed_ge := by
      intro v hv
      by_cases ht : t = .attackSpeed
      · subst ht
        simp only [Function.update_self, Option.some.injEq, true_and] at hv
        split at hv <;> omega
      · rw [Function.update_of_ne (Ne.symm ht)] at hv
        exact item.attackSpeed_ge v hv }

def removeIntAttr (item : Item) (t : IntAttr) : Item :=
  { item with
    intAttrs := Function.update item.intAttrs t none
    attackSpeed_ge := by
      intro v hv
      by_cases ht : t = .attackSpeed
      · subst ht
        rw [Function.update_self] at hv
        cases hv
      · rw [Function.update_of_ne (Ne.symm ht)] at hv
        exact item.attackSpeed_ge v hv }

/-- An empty string is not set. -/
def setStrAttr (item : Item) (t : StrAttr) (value : List UInt8) : Item :=
  if h : value = [] then item
  else { item with
    strAttrs := Function.update item.strAttrs t (some value)
    str_ne_nil := by
      intro t'
      by_cases ht : t' = t
      · subst ht
        rw [Function.update_self]
        exact fun heq => h (Option.some.inj heq)
      · rw [Function.update_of_ne ht]
        exact item.str_ne_nil t' }

def setItemCount (item : Item) (n : Nat) : Item := { item with count := UInt8.ofNat n }

def setActionId (item : Item) (n : Int) : Item :=
  item.setIntAttr .actionId (if n < 100 then 100 else n)

def setFluidType (item : Item) (n : Int) : Item := item.setIntAttr .fluidType n

def setCharges (item : Item) (n : Int) : Item := item.setIntAttr .charges n

def setDuration (item : Item) (n : Int) : Item := item.setIntAttr .duration n

/-- `setUniqueId`; whether `g_game` takes the id is up to the rest of the world. -/
def setUniqueId (item : Item) (taken : Bool) (n : Int) : Item :=
  if (item.intAttrs .uniqueId).isSome ∨ taken then item else item.setIntAttr .uniqueId n

def setCustomAttribute (item : Item) (key : List UInt8) (value : CustomAttribute) : Item :=
  let m := item.custom.getD CustomAttributeMap.empty
  { item with custom := some ((m.erase key).emplace key value (m.not_mem_erase key)) }

def getCustomAttribute (item : Item) (key : List UInt8) : Option CustomAttribute :=
  item.custom.bind fun m => m.find key

def setReflect (item : Item) (combatType : UInt16) (r : Reflect) : Item :=
  { item with reflect := Function.update item.reflect combatType (some r) }

def setBoostPercent (item : Item) (combatType percent : UInt16) : Item :=
  { item with boostPercent := Function.update item.boostPercent combatType (some percent) }

/-- The getters that cast to `uint16_t`. -/
def getUInt16Attr (item : Item) (t : IntAttr) : Int := castInt 2 false (item.getIntAttr t)

def getCharges (item : Item) : Int := item.getUInt16Attr .charges

def getFluidType (item : Item) : Int := item.getUInt16Attr .fluidType

def getActionId (item : Item) : Int := item.getUInt16Attr .actionId

def getDate (item : Item) : Int := item.getIntAttr .date

/-- `getDecaying`, a one-byte enumeration. -/
def getDecaying (item : Item) : Int := castInt 1 false (item.getIntAttr .decayState)

def getSubType (it : ItemType) (item : Item) : Int :=
  if it.fluid then item.getFluidType
  else if it.stackable then item.count.toNat
  else if it.charges ≠ 0 then item.getCharges
  else item.count.toNat

def setSubType (it : ItemType) (item : Item) (n : Int) : Item :=
  if it.fluid then item.setFluidType n
  else if it.stackable then item.setItemCount (n % 256).toNat
  else if it.charges ≠ 0 then item.setCharges n
  else item.setItemCount (n % 256).toNat

/-- What `Item::equals` compares by value: of custom attributes the bit, but not the map. -/
def sameAttributes (a b : Item) : Bool :=
  (IntAttr.all.all fun t => a.intAttrs t = b.intAttrs t) &&
    (StrAttr.all.all fun t => a.strAttrs t = b.strAttrs t) &&
    a.custom.isSome == b.custom.isSome

/-- `setID`, from a type to a type for which `normal_random` gave `newDuration`. -/
def setID (prevIt it : ItemType) (newDuration : Nat) (item : Item) : Item :=
  let item :=
    if newDuration = 0 ∧ ¬ it.stopTime ∧ it.decayTo < 0 then
      (item.removeIntAttr .decayState).removeIntAttr .duration
    else item
  let item := item.removeIntAttr .corpseOwner
  if 0 < newDuration ∧ (¬ prevIt.stopTime ∨ item.intAttrs .duration = none) then
    (item.setIntAttr .decayState 0).setDuration newDuration
  else item

/-- The attributes of a `clone`. -/
def cloned (item : Item) : Item :=
  if 0 < castInt 4 false (item.getIntAttr .duration) then item.setIntAttr .decayState 1 else item

/-- An item without attributes, as the member initialisers leave it. -/
def bare : Item where
  count := 1
  intAttrs := fun _ => none
  strAttrs := fun _ => none
  custom := none
  reflect := fun _ => none
  boostPercent := fun _ => none
  attackSpeed_ge := fun _ h => by cases h
  str_ne_nil := fun _ h => by cases h

/-- `CreateItem(type)`, which counts one of a stackable type; `duration` is what
`normal_random` gave for the decay times of the type, 0 for none. -/
def create (it : ItemType) (duration : Nat) : Item :=
  let item :=
    if it.fluid then bare.setFluidType 0
    else if it.stackable then bare.setItemCount 1
    else if it.charges ≠ 0 then bare.setCharges (castInt 2 false it.charges)
    else bare
  if duration ≠ 0 then item.setDuration duration else item

end Item

end Bruxo
