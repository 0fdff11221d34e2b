import Bruxo.Equipment
import Bruxo.Lib.Ledger
import Mathlib.Logic.Relation

/-!
# Residue of equipment

What the items of a player have given to it is accounted for slot by slot: a slot whose ability is
enabled accounts for the gifts of the type that its item has now (`Player.worth`). The arrays and
the speed differ from those of the bare player by the total of the slots, a suppression is in force
if a slot accounts for it, and so for the conditions (`Accounted`).

The events keep this where the types and the player are as `Clean` says. It is lost where two items
give one suppression, as the first to be taken off takes it away; where a percentage is taken of
stats that have changed since; and where a type with abilities turns into another one as it is put
on, as its slot is then marked by the other type or not at all.
-/

namespace Bruxo.Equipment

open Conditions

/-! ## What is added -/

/-- A number of the player that gifts are added to. -/
inductive Gauge where
  | field (f : Field)
  | rate (i : Fin 5)

def Player.gauge (player : Player) : Gauge → Int32
  | .field f => player.effects.value f
  | .rate i => player.effects.rate i

/-- A change of the speed leaves the arrays alone. -/
theorem changeSpeed_arrays (c : Prop) [Decidable c] (e : Effects) (baseSpeed delta : Int32) :
    let e' := if c then e.changeSpeed baseSpeed delta else e
    e'.varSkills = e.varSkills ∧ e'.varSpecialSkills = e.varSpecialSkills ∧
      e'.varStats = e.varStats ∧ e'.experienceRate = e.experienceRate := by
  dsimp only
  split <;> exact ⟨rfl, rfl, rfl, rfl⟩

namespace Abilities

variable (server : Server) (abilities : Abilities)

def amount (levels : Levels) : Gauge → Int32
  | .field (.skill i) => abilities.skills.get i
  | .field (.specialSkill i) => abilities.specialSkills.get i
  | .field (.stat i) => abilities.stats.get i + (abilities.percentStats server levels).get i
  | .field .speed => abilities.speed
  | .rate i => abilities.rates.get i

variable (player : Player) (slot : Slot)

theorem gauge_add (g : Gauge) :
    (abilities.add server player slot).gauge g
      = player.gauge g + abilities.amount server player.levels g := by
  obtain ⟨hskills, hspecial, hstats, hrates⟩ :=
    changeSpeed_arrays (abilities.speed ≠ 0) player.effects player.baseSpeed abilities.speed
  match g with
  | .field (.skill i) =>
      simp only [Player.gauge, Effects.value, add, amount, get_addEach, hskills]
  | .field (.specialSkill i) =>
      simp only [Player.gauge, Effects.value, add, amount, get_addEach, hspecial]
  | .field (.stat i) =>
      simp only [Player.gauge, Effects.value, add, amount, get_addEach, hstats]
      exact Int32.add_assoc ..
  | .field .speed =>
      simp only [Player.gauge, Effects.value, add, amount]
      split
      · exact varSpeed_changeSpeed ..
      · grind
  | .rate i => simp only [Player.gauge, Effects.rate, add, amount, get_addEach, hrates]

theorem gauge_remove (g : Gauge) :
    (abilities.remove server player slot).gauge g
      = player.gauge g - abilities.amount server player.levels g := by
  obtain ⟨hskills, hspecial, hstats, hrates⟩ :=
    changeSpeed_arrays (abilities.speed ≠ 0) player.effects player.baseSpeed (-abilities.speed)
  match g with
  | .field (.skill i) =>
      simp only [Player.gauge, Effects.value, remove, amount, get_subEach, hskills]
  | .field (.specialSkill i) =>
      simp only [Player.gauge, Effects.value, remove, amount, get_subEach, hspecial]
  | .field (.stat i) =>
      simp only [Player.gauge, Effects.value, remove, amount, get_subEach, hstats]
      grind
  | .field .speed =>
      simp only [Player.gauge, Effects.value, remove, amount]
      split
      · rw [varSpeed_changeSpeed]
        grind
      · grind
  | .rate i => simp only [Player.gauge, Effects.rate, remove, amount, get_subEach, hrates]

theorem magic_add (i : Fin 12) :
    (abilities.add server player slot).specialMagicLevelSkill.get i
      = player.specialMagicLevelSkill.get i + abilities.specialMagicLevelSkill.get i := by
  have hget : (abilities.add server player slot).specialMagicLevelSkill.get i
      = if abilities.specialMagicLevelSkill.get i ≠ 0 then
          player.specialMagicLevelSkill.get i + abilities.specialMagicLevelSkill.get i
        else player.specialMagicLevelSkill.get i := Vector.getElem_zipWith i.isLt
  rw [hget]
  grind

theorem magic_remove (i : Fin 12) :
    (abilities.remove server player slot).specialMagicLevelSkill.get i
      = player.specialMagicLevelSkill.get i - abilities.specialMagicLevelSkill.get i := by
  have hget : (abilities.remove server player slot).specialMagicLevelSkill.get i
      = if abilities.specialMagicLevelSkill.get i ≠ 0 then
          player.specialMagicLevelSkill.get i + -abilities.specialMagicLevelSkill.get i
        else player.specialMagicLevelSkill.get i := Vector.getElem_zipWith i.isLt
  rw [hget]
  grind

/-! ## Gifts of nothing -/

theorem get_replicate {α : Type} {n : Nat} (a : α) (i : Fin n) :
    (Vector.replicate n a).get i = a :=
  Vector.getElem_replicate i.isLt

theorem percentStats_empty (levels : Levels) (i : Fin 4) :
    (({} : Abilities).percentStats server levels).get i = 0 := by
  rw [percentStats, get_ofFn, get_replicate]
  exact if_neg fun h => h rfl

theorem amount_empty (levels : Levels) (g : Gauge) :
    ({} : Abilities).amount server levels g = 0 := by
  match g with
  | .field (.skill i) => exact get_replicate 0 i
  | .field (.specialSkill i) => exact get_replicate 0 i
  | .field (.stat i) =>
      have hstats : ({} : Abilities).stats.get i = 0 := get_replicate 0 i
      rw [amount, hstats, percentStats_empty]
      rfl
  | .field .speed => rfl
  | .rate i =>
      rw [amount, rates, get_ofFn]
      split
      · exact get_replicate 0 i
      · rfl

end Abilities

/-! ## Accounts -/

/-- What the slot accounts for. -/
def Player.worth (server : Server) (player : Player) (slot : Slot) : Abilities :=
  if player.inventoryAbilities slot then
    match player.inventory slot with
    | some id => (server.items id).gifts
    | none => {}
  else {}

/-- The player has what the bare one has and what the slots account for. -/
structure Accounted (server : Server) (bare : Player) (account : Slot → Abilities)
    (player : Player) : Prop where
  gauges : ∀ g, player.gauge g
    = bare.gauge g + Ledger.total (fun slot => (account slot).amount server player.levels g) Slot.all
  magic : ∀ i, player.specialMagicLevelSkill.get i
    = bare.specialMagicLevelSkill.get i
      + Ledger.total (fun slot => (account slot).specialMagicLevelSkill.get i) Slot.all
  suppressions : ∀ i, player.conditionSuppressions.getLsbD i = true ↔
    ∃ slot, (account slot).conditionSuppressions.getLsbD i = true
  conditions : ∀ condition slot, player.conditions condition slot = (account slot).grants condition

theorem suppresses_empty (i : Nat) :
    ({} : Abilities).conditionSuppressions.getLsbD i = false :=
  BitVec.getLsbD_zero

theorem grants_empty (condition : SlotCondition) : ({} : Abilities).grants condition = false := by
  cases condition <;> rfl

namespace Accounted

variable {server : Server} {bare player : Player} {account : Slot → Abilities} {slot : Slot}

/-- The accounts do not see the inventory nor which abilities are enabled. -/
theorem of_eq {player' : Player} (h : Accounted server bare account player)
    (heffects : player'.effects = player.effects) (hlevels : player'.levels = player.levels)
    (hmagic : player'.specialMagicLevelSkill = player.specialMagicLevelSkill)
    (hsuppressions : player'.conditionSuppressions = player.conditionSuppressions)
    (hconditions : player'.conditions = player.conditions) :
    Accounted server bare account player' where
  gauges g := by
    have hgauge : player'.gauge g = player.gauge g := by
      cases g <;> simp only [Player.gauge, heffects]
    rw [hgauge, hlevels]
    exact h.gauges g
  magic i := by
    rw [hmagic]
    exact h.magic i
  suppressions i := by
    rw [hsuppressions]
    exact h.suppressions i
  conditions condition slot := by
    rw [hconditions]
    exact h.conditions condition slot

theorem setInventory (h : Accounted server bare account player) (id : Option UInt16) :
    Accounted server bare account (player.setInventory slot id) :=
  h.of_eq rfl rfl rfl rfl rfl

theorem setItemAbility (h : Accounted server bare account player) (enabled : Bool) :
    Accounted server bare account (player.setItemAbility slot enabled) :=
  h.of_eq rfl rfl rfl rfl rfl

/-- A slot that accounts for nothing takes over what is given. -/
theorem give (h : Accounted server bare account player) (hempty : account slot = {})
    (gifts : Abilities) :
    Accounted server bare (Function.update account slot gifts) (gifts.add server player slot) where
  gauges g := by
    have hchange := Ledger.total_change (f := fun x => (account x).amount server player.levels g)
      (g := fun x => (Function.update account slot gifts x).amount server player.levels g)
      Slot.nodup_all (Slot.mem_all slot) fun x hx => by rw [Function.update_of_ne hx]
    rw [hempty, Abilities.amount_empty, Function.update_self, Int32.add_zero] at hchange
    rw [Abilities.gauge_add, h.gauges, Int32.add_assoc, ← hchange]
    rfl
  magic i := by
    have hchange := Ledger.total_change (f := fun x => (account x).specialMagicLevelSkill.get i)
      (g := fun x => (Function.update account slot gifts x).specialMagicLevelSkill.get i)
      Slot.nodup_all (Slot.mem_all slot) fun x hx => by rw [Function.update_of_ne hx]
    rw [hempty, Abilities.get_replicate, Function.update_self, Int16.add_zero] at hchange
    rw [Abilities.magic_add, h.magic, Int16.add_assoc, ← hchange]
  suppressions i := by
    have hbit : (gifts.add server player slot).conditionSuppressions.getLsbD i
        = (player.conditionSuppressions.getLsbD i || gifts.conditionSuppressions.getLsbD i) :=
      BitVec.getLsbD_or
    rw [hbit, Bool.or_eq_true, h.suppressions]
    constructor
    · rintro (⟨x, hx⟩ | hgift)
      · have hne : x ≠ slot := by
          rintro rfl
          rw [hempty, suppresses_empty] at hx
          cases hx
        exact ⟨x, by rwa [Function.update_of_ne hne]⟩
      · exact ⟨slot, by rwa [Function.update_self]⟩
    · rintro ⟨x, hx⟩
      by_cases hslot : x = slot
      · subst hslot
        rw [Function.update_self] at hx
        exact .inr hx
      · rw [Function.update_of_ne hslot] at hx
        exact .inl ⟨x, hx⟩
  conditions condition x := by
    have hadd : (gifts.add server player slot).conditions condition x
        = (player.conditions condition x || (decide (x = slot) && gifts.grants condition)) := rfl
    rw [hadd, h.conditions]
    by_cases hslot : x = slot
    · subst hslot
      rw [hempty, grants_empty, Function.update_self, decide_eq_true rfl, Bool.false_or,
        Bool.true_and]
    · rw [Function.update_of_ne hslot, decide_eq_false hslot, Bool.false_and, Bool.or_false]

theorem give_nothing (h : Accounted server bare account player) :
    Accounted server bare account (({} : Abilities).add server player slot) where
  gauges g := by
    rw [Abilities.gauge_add, Abilities.amount_empty, Int32.add_zero]
    exact h.gauges g
  magic i := by
    rw [Abilities.magic_add, Abilities.get_replicate, Int16.add_zero]
    exact h.magic i
  suppressions i := by
    have hbit : (({} : Abilities).add server player slot).conditionSuppressions.getLsbD i
        = (player.conditionSuppressions.getLsbD i
          || ({} : Abilities).conditionSuppressions.getLsbD i) := BitVec.getLsbD_or
    rw [hbit, suppresses_empty, Bool.or_false]
    exact h.suppressions i
  conditions condition x := by
    have hadd : (({} : Abilities).add server player slot).conditions condition x
        = (player.conditions condition x
          || (decide (x = slot) && ({} : Abilities).grants condition)) := rfl
    rw [hadd, grants_empty, Bool.and_false, Bool.or_false]
    exact h.conditions condition x

/-- What a slot accounts for is taken away, where no other slot accounts for one of its
suppressions. -/
theorem take (h : Accounted server bare account player)
    (hshared : ∀ x, x ≠ slot →
      (account x).conditionSuppressions &&& (account slot).conditionSuppressions = 0) :
    Accounted server bare (Function.update account slot {})
      ((account slot).remove server player slot) where
  gauges g := by
    have hchange := Ledger.total_change (f := fun x => (account x).amount server player.levels g)
      (g := fun x => (Function.update account slot {} x).amount server player.levels g)
      Slot.nodup_all (Slot.mem_all slot) fun x hx => by rw [Function.update_of_ne hx]
    rw [Function.update_self, Abilities.amount_empty, Int32.add_zero] at hchange
    rw [Abilities.gauge_remove, h.gauges, ← hchange]
    exact (by grind : ∀ a b c : Int32, a + (b + c) - c = a + b) _ _ _
  magic i := by
    have hchange := Ledger.total_change (f := fun x => (account x).specialMagicLevelSkill.get i)
      (g := fun x => (Function.update account slot {} x).specialMagicLevelSkill.get i)
      Slot.nodup_all (Slot.mem_all slot) fun x hx => by rw [Function.update_of_ne hx]
    rw [Function.update_self, Abilities.get_replicate, Int16.add_zero] at hchange
    rw [Abilities.magic_remove, h.magic, ← hchange]
    exact (by grind : ∀ a b c : Int16, a + (b + c) - c = a + b) _ _ _
  suppressions i := by
    have hremoved : ((account slot).remove server player slot).conditionSuppressions.getLsbD i
          = true ↔ player.conditionSuppressions.getLsbD i = true ∧
            (account slot).conditionSuppressions.getLsbD i = false := by
      change (player.conditionSuppressions &&& ~~~(account slot).conditionSuppressions).getLsbD i
        = true ↔ _
      rw [BitVec.getLsbD_and, BitVec.getLsbD_not]
      constructor
      · intro hbits
        rw [Bool.and_eq_true, Bool.and_eq_true] at hbits
        exact ⟨hbits.1, by simpa using hbits.2.2⟩
      · rintro ⟨hon, hoff⟩
        rw [hon, hoff, decide_eq_true (BitVec.lt_of_getLsbD hon)]
        rfl
    rw [hremoved, h.suppressions]
    constructor
    · rintro ⟨⟨x, hx⟩, hoff⟩
      have hne : x ≠ slot := by
        rintro rfl
        rw [hx] at hoff
        cases hoff
      exact ⟨x, by rwa [Function.update_of_ne hne]⟩
    · rintro ⟨x, hx⟩
      by_cases hslot : x = slot
      · subst hslot
        rw [Function.update_self, suppresses_empty] at hx
        cases hx
      · rw [Function.update_of_ne hslot] at hx
        refine ⟨⟨x, hx⟩, ?_⟩
        have hnone := congrArg (BitVec.getLsbD · i) (hshared x hslot)
        simp only [BitVec.getLsbD_and, hx, Bool.true_and, BitVec.ofNat_eq_ofNat,
          BitVec.getLsbD_zero] at hnone
        exact hnone
  conditions condition x := by
    have hremove : ((account slot).remove server player slot).conditions condition x
        = (player.conditions condition x
          && !(decide (x = slot) && (account slot).grants condition)) := rfl
    rw [hremove, h.conditions]
    by_cases hslot : x = slot
    · subst hslot
      rw [Function.update_self, grants_empty, decide_eq_true rfl, Bool.true_and, Bool.and_not_self]
    · rw [Function.update_of_ne hslot, decide_eq_false hslot, Bool.false_and, Bool.not_false,
        Bool.and_true]

end Accounted

/-! ## Types that turn into each other -/

/-- The types that a type may have become when it has been put on. -/
def Server.Becomes (server : Server) : UInt16 → UInt16 → Prop :=
  Relation.ReflTransGen fun id newId =>
    (server.items id).transformEquipTo ≠ 0 ∧ (server.items id).transformEquipTo = newId

/-- The item stays where it is when its type changes. -/
def Server.SameKind (server : Server) (id newId : UInt16) : Prop :=
  id = newId ∨ (server.items newId).id = 0 ∨
    (server.items id).alwaysOnTop = (server.items newId).alwaysOnTop ∧
    (server.items id).type = (server.items newId).type

/-- A type that turns into another one has no gifts of its own, and one that has gifts can be taken
off. -/
structure Server.Plain (server : Server) (slot : Slot) (id : UInt16) : Prop where
  transforms : (server.items id).transformEquipTo ≠ 0 →
    (server.items id).gifts = {} ∧ server.SameKind id (server.items id).transformEquipTo
  comesOff : (server.items id).gifts = {} ∨ (server.getEvent id .equip slot).isNone ∨
    (server.getEvent id .deEquip slot).isSome

/-- Whatever the item becomes when it is put on is plain. -/
def Server.AllPlain (server : Server) (slot : Slot) (id : UInt16) : Prop :=
  ∀ id', server.Becomes id id' → server.Plain slot id'

theorem Server.AllPlain.next {server : Server} {slot : Slot} {id : UInt16}
    (h : server.AllPlain slot id) (htransforms : (server.items id).transformEquipTo ≠ 0) :
    server.AllPlain slot (server.items id).transformEquipTo :=
  fun id' hbecomes => h id' (.head ⟨htransforms, rfl⟩ hbecomes)

theorem Server.AllPlain.of_becomes {server : Server} {slot : Slot} {id id' : UInt16}
    (h : server.AllPlain slot id) (hbecomes : server.Becomes id id') : server.AllPlain slot id' :=
  fun id'' hbecomes' => h id'' (hbecomes.trans hbecomes')

/-- The item that turns into another type as it goes to another slot gives none of the suppressions
again that are taken back. -/
structure Server.TurnsCleanly (server : Server) (target : Slot) (id newId : UInt16) : Prop where
  sameKind : server.SameKind id newId
  plain : server.AllPlain target newId
  shares : ∀ id', server.Becomes newId id' → (server.items id').gifts.conditionSuppressions
    &&& (server.items id).gifts.conditionSuppressions = 0

/-! ## Putting on -/

section PuttingOn

variable {server : Server} {bare : Player} {account : Slot → Abilities} {slot : Slot}

/-- An item has come into a slot that accounts for nothing. -/
structure Entering (server : Server) (bare : Player) (account : Slot → Abilities) (slot : Slot)
    (player : Player) (item : Item) : Prop where
  accounted : Accounted server bare account player
  empty : account slot = {}
  off : player.inventoryAbilities slot = false
  place : item.place = some slot
  held : player.inventory slot = some item.id

/-- The slot accounts for what the item that is in it now has given, and can take it back. -/
structure Dressed (server : Server) (bare : Player) (account : Slot → Abilities) (slot : Slot)
    (player player' : Player) (item : Item) : Prop where
  accounted : Accounted server bare (Function.update account slot (player'.worth server slot)) player'
  inventory : ∀ x, x ≠ slot → player'.inventory x = player.inventory x
  abilities : ∀ x, x ≠ slot → player'.inventoryAbilities x = player.inventoryAbilities x
  place : item.place = some slot
  held : player'.inventory slot = some item.id
  comesOff : player'.inventoryAbilities slot = true →
    (server.items item.id).gifts = {} ∨ (server.getEvent item.id .deEquip slot).isSome

theorem worth_of_off {player : Player} (h : player.inventoryAbilities slot = false) :
    player.worth server slot = {} := by
  rw [Player.worth, h]
  rfl

theorem worth_of_held {player : Player} {id : UInt16}
    (hon : player.inventoryAbilities slot = true) (hheld : player.inventory slot = some id) :
    player.worth server slot = (server.items id).gifts := by
  rw [Player.worth, hon, hheld]
  rfl

theorem Entering.unchanged {player : Player} {item : Item}
    (h : Entering server bare account slot player item) :
    Dressed server bare account slot player player item where
  accounted := by
    rw [worth_of_off h.off, ← h.empty, Function.update_eq_self]
    exact h.accounted
  inventory _ _ := rfl
  abilities _ _ := rfl
  place := h.place
  held := h.held
  comesOff hon := absurd hon (by simp [h.off])

theorem deEquip_off {fuel : Nat} {player player' : Player} {item item' : Item}
    (hoff : player.inventoryAbilities slot = false)
    (h : onPlayerDeEquip server fuel player item slot = some (player', item')) :
    player' = player ∧ item' = item := by
  cases fuel with
  | zero => cases h
  | succ fuel =>
      rw [onPlayerDeEquip] at h
      split at h
      · cases h
        refine ⟨?_, rfl⟩
        rw [Player.setItemAbility, ← hoff, Function.update_eq_self]
      · rw [hoff] at h
        cases h
        exact ⟨rfl, rfl⟩

/-- The item in the slot is given another type. -/
theorem Entering.retyped {player : Player} {item : Item}
    (h : Entering server bare account slot player item) (newId : UInt16) :
    Entering server bare account slot (player.setInventory slot newId) ⟨newId, slot⟩ where
  accounted := h.accounted.setInventory _
  empty := h.empty
  off := h.off
  place := rfl
  held := Function.update_self ..

theorem Dressed.of_retyped {player player' : Player} {item : Item} {newId : UInt16}
    (h : Dressed server bare account slot (player.setInventory slot newId) player' item) :
    Dressed server bare account slot player player' item :=
  { h with
    inventory := fun x hx => (h.inventory x hx).trans (Function.update_of_ne hx ..)
    abilities := h.abilities }

/-- Giving the gifts of a type with its slot marked. -/
theorem Entering.given {player : Player} {item : Item}
    (h : Entering server bare account slot player item)
    (hcomesOff : (server.items item.id).gifts = {} ∨
      (server.getEvent item.id .deEquip slot).isSome) :
    Dressed server bare account slot player
      ((server.items item.id).gifts.add server (player.setItemAbility slot true) slot) item where
  accounted := by
    have hworth : ((server.items item.id).gifts.add server
        (player.setItemAbility slot true) slot).worth server slot
          = (server.items item.id).gifts :=
      worth_of_held (Function.update_self ..) h.held
    rw [hworth]
    exact (h.accounted.setItemAbility true).give h.empty _
  inventory _ _ := rfl
  abilities _ hx := Function.update_of_ne hx ..
  place := h.place
  held := h.held
  comesOff _ := hcomesOff

/-- The gifts of a type that has none. -/
theorem Dressed.give_nothing {player player' : Player} {item : Item}
    (h : Dressed server bare account slot player player' item) :
    Dressed server bare account slot player (({} : Abilities).add server player' slot) item :=
  { h with accounted := h.accounted.give_nothing }

theorem transformItem_spec {fuel : Nat}
    (hequip : ∀ {player player' : Player} {item item' : Item},
      Entering server bare account slot player item → server.AllPlain slot item.id →
      onPlayerEquip server fuel player item slot = some (player', item') →
      Dressed server bare account slot player player' item' ∧ server.Becomes item.id item'.id)
    {player player' : Player} {item item' : Item} {newId : UInt16}
    (hentering : Entering server bare account slot player item)
    (hkind : server.SameKind item.id newId) (hplain : server.AllPlain slot newId)
    (h : transformItem server (fuel + 1) player item newId = some (player', item')) :
    Dressed server bare account slot player player' item' ∧
      (player' = player ∧ item' = item ∨ server.Becomes newId item'.id) := by
  rw [transformItem, hentering.place] at h
  split at h
  · cases h
    exact ⟨hentering.unchanged, .inl ⟨rfl, rfl⟩⟩
  next hne =>
  dsimp only at h
  split at h
  · cases h
    exact ⟨hentering.unchanged, .inl ⟨rfl, rfl⟩⟩
  next hknown =>
  rcases hkind with hsame | hunknown | ⟨htop, htype⟩
  · exact absurd hsame hne
  · exact absurd hunknown hknown
  rw [if_neg (not_not.mpr htop), if_pos htype] at h
  split at h
  · cases h
  next player₁ item₁ hdeEquip =>
  obtain ⟨rfl, rfl⟩ := deEquip_off hentering.off hdeEquip
  rw [hentering.place] at h
  obtain ⟨hdressed, hbecomes⟩ := hequip (hentering.retyped newId) hplain h
  exact ⟨hdressed.of_retyped, .inr hbecomes⟩

theorem onPlayerEquip_spec (fuel : Nat) {player player' : Player} {item item' : Item}
    (hentering : Entering server bare account slot player item)
    (hplain : server.AllPlain slot item.id)
    (h : onPlayerEquip server fuel player item slot = some (player', item')) :
    Dressed server bare account slot player player' item' ∧ server.Becomes item.id item'.id := by
  induction fuel using Nat.strongRecOn generalizing player player' item item' with
  | ind fuel ih =>
  match fuel with
  | 0 => cases h
  | fuel + 1 =>
    rw [onPlayerEquip] at h
    split at h
    · cases h
      exact ⟨hentering.unchanged, .refl⟩
    next moveEvent hevent =>
    split at h
    · cases h
      exact ⟨hentering.unchanged, .refl⟩
    split at h
    · cases h
      exact ⟨hentering.unchanged, .refl⟩
    have hthis := hplain item.id .refl
    dsimp only at h
    split at h
    · next htransforms =>
        obtain ⟨hgifts, hkind⟩ := hthis.transforms htransforms
        obtain ⟨⟨player₁, item₁⟩, htransform, heq⟩ := Option.map_eq_some_iff.mp h
        cases heq
        match fuel with
        | 0 => cases htransform
        | fuel + 1 =>
          obtain ⟨hdressed, hid⟩ := transformItem_spec
            (fun hentering hplain h => ih fuel (by omega) hentering hplain h) hentering hkind
            (hplain.next htransforms) htransform
          rw [hgifts]
          refine ⟨hdressed.give_nothing, ?_⟩
          rcases hid with ⟨-, rfl⟩ | hbecomes
          · exact .refl
          · exact .head ⟨htransforms, rfl⟩ hbecomes
    · cases h
      refine ⟨hentering.given ?_, .refl⟩
      rcases hthis.comesOff with hempty | hnone | hsome
      · exact .inl hempty
      · rw [hevent] at hnone
        cases hnone
      · exact .inr hsome

end PuttingOn

/-! ## The invariant -/

/-- The item in a slot can take back what it has given. -/
def Player.ComesOff (server : Server) (player : Player) (slot : Slot) : Prop :=
  player.inventoryAbilities slot = true → ∃ id, player.inventory slot = some id ∧
    ((server.items id).gifts = {} ∨ (server.getEvent id .deEquip slot).isSome)

structure Kept (server : Server) (bare player : Player) : Prop where
  accounted : Accounted server bare (player.worth server) player
  comesOff : ∀ slot, player.ComesOff server slot

section Invariant

variable {server : Server} {bare player player' : Player} {account : Slot → Abilities}
  {slot : Slot} {item item' : Item}

theorem worth_congr {x : Slot} (hinventory : player'.inventory x = player.inventory x)
    (habilities : player'.inventoryAbilities x = player.inventoryAbilities x) :
    player'.worth server x = player.worth server x := by
  rw [Player.worth, Player.worth, hinventory, habilities]

theorem comesOff_congr {x : Slot} (hinventory : player'.inventory x = player.inventory x)
    (habilities : player'.inventoryAbilities x = player.inventoryAbilities x)
    (h : player.ComesOff server x) : player'.ComesOff server x := by
  rw [Player.ComesOff, hinventory, habilities]
  exact h

theorem Kept.off_of_none (h : Kept server bare player) (hnone : player.inventory slot = none) :
    player.inventoryAbilities slot = false := by
  cases hon : player.inventoryAbilities slot with
  | false => rfl
  | true =>
      obtain ⟨id, hid, -⟩ := h.comesOff slot hon
      rw [hnone] at hid
      cases hid

theorem Dressed.kept (h : Dressed server bare account slot player player' item)
    (haccount : ∀ x, x ≠ slot → account x = player.worth server x)
    (hcomesOff : ∀ x, x ≠ slot → player.ComesOff server x) : Kept server bare player' where
  accounted := by
    have hworth : Function.update account slot (player'.worth server slot)
        = player'.worth server := by
      funext x
      by_cases hx : x = slot
      · subst hx
        exact Function.update_self ..
      · rw [Function.update_of_ne hx, haccount x hx,
          worth_congr (h.inventory x hx) (h.abilities x hx)]
    rw [← hworth]
    exact h.accounted
  comesOff x := by
    by_cases hx : x = slot
    · subst hx
      exact fun hon => ⟨item.id, h.held, h.comesOff hon⟩
    · exact comesOff_congr (h.inventory x hx) (h.abilities x hx) (hcomesOff x hx)

theorem worth_placed (hoff : player.inventoryAbilities slot = false) (id : Option UInt16) :
    (player.setInventory slot id).worth server = player.worth server := by
  funext x
  by_cases hx : x = slot
  · subst hx
    have hoff' : (player.setInventory x id).inventoryAbilities x = false := hoff
    rw [worth_of_off hoff, worth_of_off hoff']
  · exact worth_congr (Function.update_of_ne hx ..) rfl

/-- An item is put into an empty slot. -/
theorem Kept.placed (h : Kept server bare player) (hnone : player.inventory slot = none)
    (id : UInt16) : Kept server bare (player.setInventory slot id) where
  accounted := by
    rw [worth_placed (h.off_of_none hnone)]
    exact h.accounted.setInventory _
  comesOff x := by
    by_cases hx : x = slot
    · subst hx
      exact fun hon => absurd hon (by simp [Player.setInventory, h.off_of_none hnone])
    · have hinventory : (player.setInventory slot id).inventory x = player.inventory x :=
        Function.update_of_ne hx ..
      exact comesOff_congr hinventory rfl (h.comesOff x)

/-- The event for an item that is in its slot. -/
theorem Kept.equip (h : Kept server bare player) (item : Item) {fuel : Nat} (hplace : item.place = some slot)
    (hheld : player.inventory slot = some item.id) (hplain : server.AllPlain slot item.id)
    (hevent : onPlayerEquip server fuel player item slot = some (player', item')) :
    Kept server bare player' := by
  cases hon : player.inventoryAbilities slot with
  | true =>
      -- an enabled ability is left as it is
      cases fuel with
      | zero => cases hevent
      | succ fuel =>
          rw [onPlayerEquip] at hevent
          split at hevent
          · cases hevent
            exact h
          split at hevent
          · cases hevent
            exact h
          · cases hevent
            exact h
  | false =>
      have hentering : Entering server bare (player.worth server) slot player item :=
        ⟨h.accounted, worth_of_off hon, hon, hplace, hheld⟩
      exact (onPlayerEquip_spec fuel hentering hplain hevent).1.kept (fun _ _ => rfl)
        fun x _ => h.comesOff x

/-! ## Taking off -/

/-- The item has left the slot, which still accounts for it. -/
structure Leaving (server : Server) (bare : Player) (slot : Slot) (player : Player) (id : UInt16) :
    Prop where
  accounted : Accounted server bare
    (Function.update (player.worth server) slot
      (if player.inventoryAbilities slot then (server.items id).gifts else {})) player
  comesOff : player.inventoryAbilities slot = true →
    (server.items id).gifts = {} ∨ (server.getEvent id .deEquip slot).isSome
  others : ∀ x, x ≠ slot → player.ComesOff server x

/-- The slot is not marked any more, and accounts for nothing. -/
theorem kept_of_unmarked (hoff : player.inventoryAbilities slot = false)
    (haccounted : Accounted server bare (Function.update (player.worth server) slot {}) player)
    (hcomesOff : ∀ x, x ≠ slot → player.ComesOff server x) : Kept server bare player where
  accounted := by
    rw [← worth_of_off hoff, Function.update_eq_self] at haccounted
    exact haccounted
  comesOff x := by
    by_cases hx : x = slot
    · subst hx
      exact fun hon => absurd hon (by simp [hoff])
    · exact hcomesOff x hx

theorem worth_unmarked_of_ne (player : Player) {slot x : Slot} (hx : x ≠ slot) :
    (player.setItemAbility slot false).worth server x = player.worth server x :=
  worth_congr rfl (Function.update_of_ne hx ..)

theorem worth_unmarked (player : Player) (slot : Slot) (v : Abilities) :
    Function.update ((player.setItemAbility slot false).worth server) slot v
      = Function.update (player.worth server) slot v := by
  funext x
  by_cases hx : x = slot
  · subst hx
    rw [Function.update_self, Function.update_self]
  · rw [Function.update_of_ne hx, Function.update_of_ne hx, worth_unmarked_of_ne player hx]

theorem others_unmarked {slot : Slot} (h : ∀ x, x ≠ slot → player.ComesOff server x) :
    ∀ x, x ≠ slot → (player.setItemAbility slot false).ComesOff server x := by
  intro x hx
  have hinventory : (player.setItemAbility slot false).inventory x = player.inventory x := rfl
  exact comesOff_congr hinventory (Function.update_of_ne hx ..) (h x hx)

/-- The gifts are taken from a slot that is not marked any more. -/
theorem kept_of_taken {gifts : Abilities} (hoff : player.inventoryAbilities slot = false)
    (haccounted : Accounted server bare (Function.update (player.worth server) slot gifts) player)
    (hshared : ∀ x, x ≠ slot →
      (player.worth server x).conditionSuppressions &&& gifts.conditionSuppressions = 0)
    (hcomesOff : ∀ x, x ≠ slot → player.ComesOff server x) :
    Kept server bare (gifts.remove server player slot) := by
  have htaken := haccounted.take fun x (hx : x ≠ slot) => by
    rw [Function.update_self, Function.update_of_ne hx]
    exact hshared x hx
  rw [Function.update_self, Function.update_idem] at htaken
  exact kept_of_unmarked hoff htaken hcomesOff

theorem Leaving.unmarked {id : UInt16} (h : Leaving server bare slot player id)
    (hnothing : player.inventoryAbilities slot = true → (server.items id).gifts = {}) :
    Kept server bare (player.setItemAbility slot false) := by
  refine kept_of_unmarked (Function.update_self ..) ?_ (others_unmarked h.others)
  have hgifts : (if player.inventoryAbilities slot then (server.items id).gifts else {})
      = ({} : Abilities) := by
    split
    · next hon => exact hnothing hon
    · rfl
  have haccounted := h.accounted
  rw [hgifts] at haccounted
  rw [worth_unmarked]
  exact haccounted.setItemAbility false

/-- An enabled ability whose slot is being unmarked, before its gifts are taken back. -/
theorem Leaving.marked {id : UInt16} (h : Leaving server bare slot player id)
    (hon : player.inventoryAbilities slot = true) :
    Accounted server bare (Function.update ((player.setItemAbility slot false).worth server) slot
      (server.items id).gifts) (player.setItemAbility slot false) := by
  have haccounted := h.accounted
  rw [if_pos hon] at haccounted
  rw [worth_unmarked]
  exact haccounted.setItemAbility false

/-- What `DeEquipItem` does with an enabled ability: the item turns into another type, if its type
says so, and the gifts of the type that it had are taken back. -/
theorem onPlayerDeEquip_cases {fuel : Nat} (h : Leaving server bare slot player item.id)
    (hevent : onPlayerDeEquip server fuel player item slot = some (player', item')) :
    (Kept server bare player' ∧ player'.inventory = player.inventory ∧ item' = item) ∨
    (player.inventoryAbilities slot = true ∧ ∃ player₁,
      player' = (server.items item.id).gifts.remove server player₁ slot ∧
      (player₁ = player.setItemAbility slot false ∧ item' = item ∨
        (server.items item.id).transformDeEquipTo ≠ 0 ∧ ∃ fuel,
          transformItem server (fuel + 1) (player.setItemAbility slot false) item
            (server.items item.id).transformDeEquipTo = some (player₁, item'))) := by
  cases fuel with
  | zero => cases hevent
  | succ fuel =>
      rw [onPlayerDeEquip] at hevent
      split at hevent
      · next hnone =>
          cases hevent
          refine .inl ⟨h.unmarked fun hon => ?_, rfl, rfl⟩
          rcases h.comesOff hon with hgifts | hsome
          · exact hgifts
          · rw [hnone] at hsome
            cases hsome
      cases hon : player.inventoryAbilities slot with
      | false =>
          rw [hon] at hevent
          cases hevent
          have hkept := h.unmarked fun htrue => absurd htrue (by simp [hon])
          rw [Player.setItemAbility, ← hon, Function.update_eq_self] at hkept
          exact .inl ⟨hkept, rfl, rfl⟩
      | true =>
          rw [hon, Bool.not_true, if_neg Bool.false_ne_true] at hevent
          dsimp only at hevent
          split at hevent
          · next htransforms =>
              obtain ⟨⟨player₁, item₁⟩, htransform, heq⟩ := Option.map_eq_some_iff.mp hevent
              cases heq
              cases fuel with
              | zero => cases htransform
              | succ fuel => exact .inr ⟨rfl, player₁, rfl, .inr ⟨htransforms, fuel, htransform⟩⟩
          · cases hevent
            exact .inr ⟨rfl, _, rfl, .inl ⟨rfl, rfl⟩⟩

/-- The gifts are taken back after the type of the item has changed elsewhere. -/
theorem Leaving.taken {id : UInt16} (h : Leaving server bare slot player id)
    (hon : player.inventoryAbilities slot = true)
    (hshared : ∀ x, x ≠ slot → (player.worth server x).conditionSuppressions
      &&& (server.items id).gifts.conditionSuppressions = 0) :
    Kept server bare
      ((server.items id).gifts.remove server (player.setItemAbility slot false) slot) := by
  refine kept_of_taken (Function.update_self ..) (h.marked hon) (fun x hx => ?_)
    (others_unmarked h.others)
  rw [worth_unmarked_of_ne player hx]
  exact hshared x hx

theorem transformItem_elsewhere {fuel : Nat} {newId : UInt16} (hplace : item.place = none)
    (h : transformItem server (fuel + 1) player item newId = some (player', item')) :
    player' = player := by
  rw [transformItem, hplace] at h
  split at h <;> cases h <;> rfl

/-- The item is in no slot of the player any more. -/
theorem Leaving.deEquip {fuel : Nat} (item : Item) (h : Leaving server bare slot player item.id)
    (hplace : item.place = none)
    (hshared : player.inventoryAbilities slot = true → ∀ x, x ≠ slot →
      (player.worth server x).conditionSuppressions
        &&& (server.items item.id).gifts.conditionSuppressions = 0)
    (hevent : onPlayerDeEquip server fuel player item slot = some (player', item')) :
    Kept server bare player' := by
  rcases onPlayerDeEquip_cases h hevent with
    ⟨hkept, -, -⟩ | ⟨hon, player₁, rfl, ⟨rfl, -⟩ | ⟨-, fuel, htransform⟩⟩
  · exact hkept
  · exact h.taken hon (hshared hon)
  · rw [transformItem_elsewhere hplace htransform]
    exact h.taken hon (hshared hon)

/-- The item is already in another slot, where it may turn into another type. -/
theorem Leaving.deEquip_moved {fuel : Nat} {target : Slot} (item : Item)
    (h : Leaving server bare slot player item.id) (hne : target ≠ slot)
    (hplace : item.place = some target) (hheld : player.inventory target = some item.id)
    (htarget : player.inventoryAbilities target = false)
    (hshared : player.inventoryAbilities slot = true → ∀ x, x ≠ slot →
      (player.worth server x).conditionSuppressions
        &&& (server.items item.id).gifts.conditionSuppressions = 0)
    (hplain : server.AllPlain target item.id)
    (hturns : player.inventoryAbilities slot = true →
      (server.items item.id).transformDeEquipTo ≠ 0 →
      server.TurnsCleanly target item.id (server.items item.id).transformDeEquipTo)
    (hevent : onPlayerDeEquip server fuel player item slot = some (player', item')) :
    Kept server bare player' ∧ item'.place = some target ∧
      player'.inventory target = some item'.id ∧ server.AllPlain target item'.id := by
  rcases onPlayerDeEquip_cases h hevent with
    ⟨hkept, hinventory, rfl⟩ | ⟨hon, player₁, rfl, ⟨rfl, rfl⟩ | ⟨htransforms, fuel, htransform⟩⟩
  · exact ⟨hkept, hplace, hinventory ▸ hheld, hplain⟩
  · exact ⟨h.taken hon (hshared hon), hplace, hheld, hplain⟩
  · obtain ⟨hkind, hallPlain, hturned⟩ := hturns hon htransforms
    have hoff : (player.setItemAbility slot false).inventoryAbilities target = false :=
      (Function.update_of_ne hne ..).trans htarget
    have hentering : Entering server bare
        (Function.update ((player.setItemAbility slot false).worth server) slot
          (server.items item.id).gifts) target (player.setItemAbility slot false) item :=
      ⟨h.marked hon, (Function.update_of_ne hne ..).trans (worth_of_off hoff), hoff, hplace, hheld⟩
    obtain ⟨hdressed, hid⟩ := transformItem_spec
      (fun hentering hplain h => onPlayerEquip_spec fuel hentering hplain h) hentering hkind
      hallPlain htransform
    have hmarked : player₁.inventoryAbilities slot = false :=
      (hdressed.abilities slot hne.symm).trans (Function.update_self ..)
    have hothers : ∀ x, x ≠ slot → x ≠ target →
        player₁.worth server x = player.worth server x := fun x hx hxt =>
      (worth_congr (hdressed.inventory x hxt) (hdressed.abilities x hxt)).trans
        (worth_unmarked_of_ne player hx)
    have haccounted : Accounted server bare
        (Function.update (player₁.worth server) slot (server.items item.id).gifts) player₁ := by
      have hworth : Function.update (player₁.worth server) slot (server.items item.id).gifts
          = Function.update (Function.update ((player.setItemAbility slot false).worth server) slot
              (server.items item.id).gifts) target (player₁.worth server target) := by
        funext x
        by_cases hxt : x = target
        · subst hxt
          rw [Function.update_self, Function.update_of_ne hne]
        rw [Function.update_of_ne hxt]
        by_cases hx : x = slot
        · subst hx
          rw [Function.update_self, Function.update_self]
        · rw [Function.update_of_ne hx, Function.update_of_ne hx, hothers x hx hxt,
            worth_unmarked_of_ne player hx]
      rw [hworth]
      exact hdressed.accounted
    have hnew : (player₁.worth server target).conditionSuppressions
        &&& (server.items item.id).gifts.conditionSuppressions = 0 := by
      cases hnow : player₁.inventoryAbilities target with
      | false =>
          rw [worth_of_off hnow]
          exact BitVec.zero_and
      | true =>
          rw [worth_of_held hnow hdressed.held]
          rcases hid with ⟨rfl, -⟩ | hbecomes
          · rw [hoff] at hnow
            cases hnow
          · exact hturned _ hbecomes
    refine ⟨kept_of_taken hmarked haccounted (fun x hx => ?_) fun x hx => ?_, hdressed.place,
      hdressed.held, ?_⟩
    · by_cases hxt : x = target
      · rw [hxt]
        exact hnew
      · rw [hothers x hx hxt]
        exact hshared hon x hx
    · by_cases hxt : x = target
      · subst hxt
        exact fun hnow => ⟨item'.id, hdressed.held, hdressed.comesOff hnow⟩
      · exact comesOff_congr (hdressed.inventory x hxt) (hdressed.abilities x hxt)
          (others_unmarked h.others x hx)
    · rcases hid with ⟨-, rfl⟩ | hbecomes
      · exact hplain
      · exact hallPlain.of_becomes hbecomes

end Invariant

/-! ## Runs -/

/-- What happens to the slots and the levels of a player. -/
inductive Event where
  /-- An item from elsewhere comes into an empty slot. -/
  | add (slot : Slot) (id : UInt16)
  | remove (slot : Slot)
  /-- An item goes from one slot to another, which is empty. -/
  | move (source target : Slot)
  | levels (levels : Levels) (baseSpeed : Int32)

/-- The item is where it goes to when the events are fired: first the one of the slot that it has
left, then the one of the slot that it has come into. -/
inductive Step (server : Server) : Player → Event → Player → Prop
  | add {player player' : Player} {slot : Slot} {id : UInt16} {fuel : Nat} {item : Item} :
      player.inventory slot = none →
      onPlayerEquip server fuel (player.setInventory slot id) ⟨id, slot⟩ slot
        = some (player', item) →
      Step server player (.add slot id) player'
  | remove {player player' : Player} {slot : Slot} {id : UInt16} {fuel : Nat} {item : Item} :
      player.inventory slot = some id →
      onPlayerDeEquip server fuel (player.setInventory slot none) ⟨id, none⟩ slot
        = some (player', item) →
      Step server player (.remove slot) player'
  | move {player player₁ player' : Player} {source target : Slot} {id : UInt16} {fuel : Nat}
      {item item' : Item} :
      player.inventory source = some id → player.inventory target = none →
      onPlayerDeEquip server fuel ((player.setInventory source none).setInventory target id)
        ⟨id, target⟩ source = some (player₁, item) →
      onPlayerEquip server fuel player₁ item target = some (player', item') →
      Step server player (.move source target) player'
  | levels {player : Player} (levels : Levels) (baseSpeed : Int32) :
      Step server player (.levels levels baseSpeed) { player with levels, baseSpeed }

/-- No other slot accounts for a suppression that this one accounts for. -/
def Player.SharesNothing (server : Server) (player : Player) (slot : Slot) : Prop :=
  ∀ x, x ≠ slot → (player.worth server x).conditionSuppressions
    &&& (player.worth server slot).conditionSuppressions = 0

/-- The steps that leave no residue. -/
def Clean (server : Server) (player : Player) : Event → Prop
  | .add slot id => server.AllPlain slot id
  | .remove slot => player.SharesNothing server slot
  | .move source target => player.SharesNothing server source ∧
      ∀ id, player.inventory source = some id → server.AllPlain target id ∧
        (player.inventoryAbilities source = true → (server.items id).transformDeEquipTo ≠ 0 →
          server.TurnsCleanly target id (server.items id).transformDeEquipTo)
  | .levels levels _ => ∀ slot, (player.worth server slot).percentStats server levels
      = (player.worth server slot).percentStats server player.levels

/-- A player without items, of whom no item has left anything. -/
structure Player.Bare (player : Player) : Prop where
  inventory : ∀ slot, player.inventory slot = none
  inventoryAbilities : ∀ slot, player.inventoryAbilities slot = false
  suppressions : player.conditionSuppressions = 0
  conditions : ∀ condition slot, player.conditions condition slot = false

inductive Reachable (server : Server) (P : Player → Event → Prop) (bare : Player) : Player → Prop
  | start : Reachable server P bare bare
  | step {player player' : Player} {event : Event} : Reachable server P bare player →
      P player event → Step server player event player' → Reachable server P bare player'

/-- Nothing is left of items once all are taken off, and what a worn item suppresses stays
suppressed. An item is worn in this sense if its event has given its abilities. -/
structure Holds (server : Server) (bare player : Player) : Prop where
  gauges : (∀ slot, player.inventory slot = none) → ∀ g, player.gauge g = bare.gauge g
  magic : (∀ slot, player.inventory slot = none) → ∀ i,
    player.specialMagicLevelSkill.get i = bare.specialMagicLevelSkill.get i
  suppressions : (∀ slot, player.inventory slot = none) →
    player.conditionSuppressions = bare.conditionSuppressions
  conditions : (∀ slot, player.inventory slot = none) → player.conditions = bare.conditions
  inForce : ∀ slot id, player.inventory slot = some id → player.inventoryAbilities slot = true →
    ∀ i, (server.items id).gifts.conditionSuppressions.getLsbD i = true →
      player.conditionSuppressions.getLsbD i = true

section Runs

variable {server : Server} {bare player player' : Player} {slot : Slot}

theorem Player.Bare.kept (h : bare.Bare) : Kept server bare bare where
  accounted :=
    have hworth : ∀ slot, bare.worth server slot = {} := fun slot =>
      worth_of_off (h.inventoryAbilities slot)
    { gauges := fun g => by
        rw [Ledger.total_eq_zero fun slot _ => by rw [hworth, Abilities.amount_empty]]
        exact (Int32.add_zero _).symm
      magic := fun i => by
        rw [Ledger.total_eq_zero fun slot _ => by rw [hworth, Abilities.get_replicate]]
        exact (Int16.add_zero _).symm
      suppressions := fun i => by
        simp only [hworth, h.suppressions]
        simp
      conditions := fun condition slot => by rw [hworth, grants_empty, h.conditions] }
  comesOff slot hon := absurd hon (by simp [h.inventoryAbilities slot])

theorem Kept.leaving (h : Kept server bare player) {id : UInt16}
    (hheld : player.inventory slot = some id) :
    Leaving server bare slot (player.setInventory slot none) id where
  accounted := by
    have hworth : Function.update ((player.setInventory slot none).worth server) slot
        (if player.inventoryAbilities slot then (server.items id).gifts else {})
          = player.worth server := by
      funext x
      by_cases hx : x = slot
      · subst hx
        rw [Function.update_self, Player.worth, hheld]
      · rw [Function.update_of_ne hx]
        exact worth_congr (Function.update_of_ne hx ..) rfl
    exact hworth ▸ h.accounted.setInventory none
  comesOff hon := by
    obtain ⟨id', hid, hcomesOff⟩ := h.comesOff slot hon
    rw [hheld] at hid
    cases hid
    exact hcomesOff
  others x hx := by
    have hinventory : (player.setInventory slot none).inventory x = player.inventory x :=
      Function.update_of_ne hx ..
    exact comesOff_congr hinventory rfl (h.comesOff x)

/-- What an item that leaves shares with the others, said of its type. -/
theorem Player.SharesNothing.gifts (h : player.SharesNothing server slot) {id : UInt16}
    (hheld : player.inventory slot = some id) (hon : player.inventoryAbilities slot = true) (x : Slot)
    (hx : x ≠ slot) : (player.worth server x).conditionSuppressions
      &&& (server.items id).gifts.conditionSuppressions = 0 :=
  worth_of_held hon hheld ▸ h x hx

theorem Kept.levels (h : Kept server bare player) {levels : Levels} (baseSpeed : Int32)
    (hsame : ∀ slot, (player.worth server slot).percentStats server levels
      = (player.worth server slot).percentStats server player.levels) :
    Kept server bare { player with levels, baseSpeed } where
  accounted :=
    { h.accounted with
      gauges := fun g => by
        have hamount : ∀ slot, (player.worth server slot).amount server levels g
            = (player.worth server slot).amount server player.levels g := by
          intro slot
          cases g with
          | field f => cases f <;> simp only [Abilities.amount, hsame]
          | rate i => rfl
        refine (h.accounted.gauges g).trans ?_
        exact congrArg (bare.gauge g + ·) (Ledger.total_congr fun slot _ => (hamount slot).symm) }
  comesOff := h.comesOff

theorem Kept.add (h : Kept server bare player) {id : UInt16} {fuel : Nat} {item : Item}
    (hnone : player.inventory slot = none) (hplain : server.AllPlain slot id)
    (hevent : onPlayerEquip server fuel (player.setInventory slot id) ⟨id, slot⟩ slot
      = some (player', item)) : Kept server bare player' :=
  (h.placed hnone id).equip ⟨id, slot⟩ rfl (Function.update_self ..) hplain hevent

theorem Kept.remove (h : Kept server bare player) {id : UInt16} {fuel : Nat} {item : Item}
    (hheld : player.inventory slot = some id) (hshared : player.SharesNothing server slot)
    (hevent : onPlayerDeEquip server fuel (player.setInventory slot none) ⟨id, none⟩ slot
      = some (player', item)) : Kept server bare player' := by
  refine Leaving.deEquip ⟨id, none⟩ (h.leaving hheld) rfl (fun hon x hx => ?_) hevent
  have hworth : (player.setInventory slot none).worth server x = player.worth server x :=
    worth_congr (Function.update_of_ne hx ..) rfl
  rw [hworth]
  exact hshared.gifts hheld hon x hx

theorem Kept.move (h : Kept server bare player) {player₁ : Player} {target : Slot} {id : UInt16}
    {fuel : Nat} {item item' : Item} (hheld : player.inventory slot = some id)
    (hnone : player.inventory target = none) (hshared : player.SharesNothing server slot)
    (hplain : server.AllPlain target id)
    (hturns : player.inventoryAbilities slot = true → (server.items id).transformDeEquipTo ≠ 0 →
      server.TurnsCleanly target id (server.items id).transformDeEquipTo)
    (hdeEquip : onPlayerDeEquip server fuel ((player.setInventory slot none).setInventory target id)
      ⟨id, target⟩ slot = some (player₁, item))
    (hequip : onPlayerEquip server fuel player₁ item target = some (player', item')) :
    Kept server bare player' := by
  have hne : slot ≠ target := by
    rintro rfl
    rw [hheld] at hnone
    cases hnone
  have hswap : (player.setInventory slot none).setInventory target id
      = (player.setInventory target id).setInventory slot none := by
    simp only [Player.setInventory, Function.update_comm hne]
  rw [hswap] at hdeEquip
  have hheld' : (player.setInventory target id).inventory slot = some id :=
    (Function.update_of_ne hne ..).trans hheld
  have hmoved : ((player.setInventory target id).setInventory slot none).inventory target
      = some id := (Function.update_of_ne hne.symm ..).trans (Function.update_self ..)
  have hoff := h.off_of_none hnone
  have hshared' : (player.setInventory target id).SharesNothing server slot := by
    rw [Player.SharesNothing, worth_placed hoff]
    exact hshared
  obtain ⟨hkept, hplace, hnow, hplain'⟩ := Leaving.deEquip_moved ⟨id, target⟩
    ((h.placed hnone id).leaving hheld') hne.symm rfl hmoved hoff
    (fun hon x hx => by
      have hworth : ((player.setInventory target id).setInventory slot none).worth server x
          = (player.setInventory target id).worth server x :=
        worth_congr (Function.update_of_ne hx ..) rfl
      rw [hworth]
      exact hshared'.gifts hheld' hon x hx)
    hplain hturns hdeEquip
  exact hkept.equip item hplace hnow hplain' hequip

theorem Kept.step {event : Event} (h : Kept server bare player) (hclean : Clean server player event)
    (hstep : Step server player event player') : Kept server bare player' := by
  cases hstep with
  | add hnone hevent => exact h.add hnone hclean hevent
  | remove hheld hevent => exact h.remove hheld hclean hevent
  | move hheld hnone hdeEquip hequip =>
      obtain ⟨hshared, hitem⟩ := hclean
      obtain ⟨hplain, hturns⟩ := hitem _ hheld
      exact h.move hheld hnone hshared hplain hturns hdeEquip hequip
  | levels levels baseSpeed => exact h.levels baseSpeed hclean

theorem Kept.holds (h : Kept server bare player) (hbare : bare.Bare) : Holds server bare player := by
  have hworth : (∀ slot, player.inventory slot = none) → ∀ slot, player.worth server slot = {} :=
    fun hnone slot => worth_of_off (h.off_of_none (hnone slot))
  have hconditions : (∀ slot, player.inventory slot = none) →
      player.conditions = bare.conditions := by
    intro hnone
    funext condition slot
    rw [h.accounted.conditions, hworth hnone, grants_empty, hbare.conditions]
  have hsuppressions : (∀ slot, player.inventory slot = none) →
      player.conditionSuppressions = bare.conditionSuppressions := by
    intro hnone
    rw [hbare.suppressions]
    refine BitVec.eq_of_getLsbD_eq fun i _ => ?_
    rw [BitVec.ofNat_eq_ofNat, BitVec.getLsbD_zero, Bool.eq_false_iff]
    intro hbit
    obtain ⟨slot, hslot⟩ := (h.accounted.suppressions i).mp hbit
    rw [hworth hnone, suppresses_empty] at hslot
    cases hslot
  refine ⟨fun hnone g => ?_, fun hnone i => ?_, hsuppressions, hconditions, ?_⟩
  · rw [h.accounted.gauges, Ledger.total_eq_zero fun slot _ => by
      rw [hworth hnone, Abilities.amount_empty]]
    exact Int32.add_zero _
  · rw [h.accounted.magic, Ledger.total_eq_zero fun slot _ => by
      rw [hworth hnone, Abilities.get_replicate]]
    exact Int16.add_zero _
  · intro slot id hheld hon i hbit
    refine (h.accounted.suppressions i).mpr ⟨slot, ?_⟩
    rw [worth_of_held hon hheld]
    exact hbit

theorem Reachable.kept (hbare : bare.Bare) (h : Reachable server (Clean server) bare player) :
    Kept server bare player := by
  induction h with
  | start => exact hbare.kept
  | step _ hclean hstep ih => exact ih.step hclean hstep

/-- No residue in any run of clean steps. -/
theorem equipment_leaves_nothing (hbare : bare.Bare)
    (h : Reachable server (Clean server) bare player) : Holds server bare player :=
  (h.kept hbare).holds hbare

end Runs

/-! ## An amulet and a ring against drunkenness -/

theorem Server.AllPlain.of_fixed {server : Server} {slot : Slot} {id : UInt16}
    (hfixed : (server.items id).transformEquipTo = 0)
    (hcomesOff : (server.getEvent id .deEquip slot).isSome) : server.AllPlain slot id := by
  intro id' hbecomes
  rcases hbecomes.cases_head with rfl | ⟨_, ⟨htransforms, -⟩, -⟩
  · exact ⟨fun htransforms => absurd hfixed htransforms, .inr (.inr hcomesOff)⟩
  · exact absurd hfixed htransforms

/-- Every item suppresses drunkenness in every slot. -/
def sobering : Server where
  items id := { id := id, abilities := some { conditionSuppressions := ConditionType.drunk.code.toBitVec } }
  itemIdMap _ _ := [{ slot := 0xFFFFFFFF }]
  scale _ _ := 0

def naked : Player where
  vocationId := 0
  isPremium := false
  ignoresWeaponCheck := false
  baseSpeed := 220
  levels := { level := 1, magLevel := 0, healthMax := 150, manaMax := 0 }
  effects :=
    { varSkills := .replicate 7 0
      varSpecialSkills := .replicate 6 0
      varStats := .replicate 4 0
      experienceRate := .replicate 5 0
      varSpeed := 0
      canUseDefense := true }
  specialMagicLevelSkill := .replicate 12 0
  conditionSuppressions := 0
  conditions _ _ := false
  inventory _ := none
  inventoryAbilities _ := false

theorem naked_bare : naked.Bare := ⟨fun _ => rfl, fun _ => rfl, rfl, fun _ _ => rfl⟩

/-- The bits of all slots are in the event of a sobering item. -/
theorem sobering_getEvent (id : UInt16) (eventType : EventType) (slot : Slot) :
    sobering.getEvent id eventType slot = some { slot := 0xFFFFFFFF } := by
  cases slot <;> rfl

theorem sobering_allows (player : Player) : MoveEvent.allows { slot := 0xFFFFFFFF } player = true := by
  rw [MoveEvent.allows, decide_eq_true rfl, Bool.or_true, Bool.true_or]

def dressed (player : Player) (slot : Slot) (id : UInt16) : Player :=
  (sobering.items id).gifts.add sobering ((player.setInventory slot id).setItemAbility slot true) slot

def undressed (player : Player) (slot : Slot) (id : UInt16) : Player :=
  (sobering.items id).gifts.remove sobering
    ((player.setInventory slot none).setItemAbility slot false) slot

theorem dress {player : Player} {slot : Slot} (id : UInt16) (hnone : player.inventory slot = none)
    (hoff : player.inventoryAbilities slot = false) :
    Step sobering player (.add slot id) (dressed player slot id) := by
  have hevent : onPlayerEquip sobering 1 (player.setInventory slot id) ⟨id, slot⟩ slot
      = some (dressed player slot id, ⟨id, slot⟩) := by
    have hoff' : (player.setInventory slot id).inventoryAbilities slot = false := hoff
    rw [onPlayerEquip, sobering_getEvent]
    simp only [sobering_allows, hoff']
    rfl
  exact .add hnone hevent

theorem undress {player : Player} {slot : Slot} {id : UInt16}
    (hheld : player.inventory slot = some id) (hon : player.inventoryAbilities slot = true) :
    Step sobering player (.remove slot) (undressed player slot id) := by
  have hevent : onPlayerDeEquip sobering 1 (player.setInventory slot none) ⟨id, none⟩ slot
      = some (undressed player slot id, ⟨id, none⟩) := by
    have hon' : (player.setInventory slot none).inventoryAbilities slot = true := hon
    rw [onPlayerDeEquip, sobering_getEvent]
    simp only [hon']
    rfl
  exact .remove hheld hevent

/-- A ring is put on and taken off. -/
theorem equipment_leaves_nothing_ring :
    Holds sobering naked (undressed (dressed naked .ring 2214) .ring 2214) := by
  have hput : Clean sobering naked (.add .ring 2214) := Server.AllPlain.of_fixed rfl rfl
  have htaken : Clean sobering (dressed naked .ring 2214) (.remove .ring) := by
    intro slot hslot
    have hoff : (dressed naked .ring 2214).inventoryAbilities slot = false :=
      Function.update_of_ne hslot ..
    rw [worth_of_off hoff]
    exact BitVec.zero_and
  exact equipment_leaves_nothing naked_bare
    ((Reachable.start.step hput (dress 2214 rfl rfl)).step htaken (undress rfl rfl))

/-- The ring is taken off, and the amulet does not suppress drunkenness any more. -/
theorem amulet_stops_working : ∃ player,
    Reachable sobering (fun _ _ => True) naked player ∧ ¬ Holds sobering naked player := by
  refine ⟨undressed (dressed (dressed naked .necklace 2198) .ring 2214) .ring 2214, ?_, ?_⟩
  · exact ((Reachable.start.step trivial (dress 2198 rfl rfl)).step trivial
      (dress 2214 rfl rfl)).step trivial (undress rfl rfl)
  · intro h
    have hforce := h.inForce .necklace 2198 rfl rfl 11
    exact absurd hforce (by decide)

end Bruxo.Equipment
