import Mathlib.Algebra.Group.Int.Defs
import Mathlib.Algebra.Group.Nat.Defs
import Mathlib.Data.List.Induction
import Mathlib.Data.Int.Order.Basic

/-!
# Damage to creatures

`Game::combatChangeHealth` (`game.cpp`) with the scripts that are called for a change of mana or
health (`creatureevent.cpp`) and what it changes of its target (`creature.cpp`, `player.cpp`). A
call for scripts is followed by a second one of the damage that they leave, of no origin, which
calls none.

The damage comes as a negative number and is positive from then on; the scripts for a change of
health make it negative again for the second call, but for those that fail. A positive number heals.
Messages, effects, events of other parts of the game and what is counted for the attacker are left
out.
-/

namespace Bruxo.CombatDamage

inductive CombatType where
  | none
  | physicalDamage
  | energyDamage
  | earthDamage
  | fireDamage
  | undefinedDamage
  | lifeDrain
  | manaDrain
  | healing
  | drownDamage
  | iceDamage
  | holyDamage
  | deathDamage
  | other (value : UInt16)
  deriving DecidableEq

inductive CombatOrigin where
  | none
  | condition
  | spell
  | melee
  | ranged
  | wand
  | reflect
  deriving DecidableEq

structure Damage where
  primary : Int
  primaryType : CombatType
  secondary : Int
  secondaryType : CombatType
  origin : CombatOrigin

/-- What there is of a target; `refused` is the skull of the attacker that keeps it from attacking
this player. -/
structure Target where
  health : Int
  maxHealth : Int
  mana : Int
  maxMana : Int
  isPlayer : Bool
  infiniteMana : Bool
  manaShield : Bool
  attackable : Bool
  refused : Bool

/-! ## Numbers -/

/-- A signed number of 32 bits. -/
def int32 (value : Int) : Int := (value + 2 ^ 31) % 2 ^ 32 - 2 ^ 31

/-- `std::abs` -/
def abs32 (value : Int) : Int := int32 value.natAbs

def uint32 (value : Int) : Int := value % 2 ^ 32

namespace Target

def changeHealth (t : Target) (healthChange : Int) : Target :=
  if 0 < healthChange then
    { t with health := int32 (t.health + min healthChange (int32 (t.maxHealth - t.health))) }
  else { t with health := max 0 (int32 (t.health + healthChange)) }

def changeMana (t : Target) (manaChange : Int) : Target :=
  if t.infiniteMana then t
  else if 0 < manaChange then
    { t with mana := uint32 (t.mana + min manaChange (int32 (t.maxMana - t.mana))) }
  else { t with mana := max 0 (int32 (t.mana + manaChange)) }

def drainMana (t : Target) (manaLoss : Int) : Target := t.changeMana (int32 (-manaLoss))

/-- A player with a mana shield, through which undefined damage goes. -/
def shielded (t : Target) (d : Damage) : Prop :=
  t.isPlayer ∧ t.manaShield ∧ d.primaryType ≠ .undefinedDamage

instance (t : Target) (d : Damage) : Decidable (t.shielded d) := inferInstanceAs (Decidable (_ ∧ _))

end Target

/-! ## Scripts -/

inductive Outcome where
  | error
  | returned (primary : Int) (primaryType : CombatType) (secondary : Int)
      (secondaryType : CombatType)
  deriving DecidableEq

/-- `executeManaChange` -/
def executeManaChange (d : Damage) : Outcome → Damage
  | .error => d
  | .returned primary primaryType secondary secondaryType =>
      ⟨primary, primaryType, secondary, secondaryType, d.origin⟩

/-- What the scripts of the target answer to a change of mana and of health, and to its death. -/
structure Scripts where
  manaChange : List Outcome
  healthChange : List Outcome
  prepareDeath : List Bool

/-! ## `combatChangeHealth` -/

section Combat

variable (scripts : Scripts)

/-- The mana shield takes the damage; what it takes more than the primary damage comes off the
secondary. -/
def absorb (t : Target) (d : Damage) (manaDamage : Int) : Target × Damage :=
  let primary := int32 (d.primary - manaDamage)
  (t.drainMana manaDamage,
    if primary < 0 then
      { d with primary := 0, secondary := max 0 (int32 (d.secondary + primary)) }
    else { d with primary := primary })

/-- The part of the mana shield, where it does not end the call. -/
def shield (t : Target) (d : Damage) (healthChange : Int) : Option (Target × Damage) :=
  if t.shielded d then
    let manaDamage := min (int32 t.mana) healthChange
    if manaDamage = 0 then some (t, d)
    else if d.origin ≠ .none ∧ scripts.manaChange ≠ [] then
      let d := scripts.manaChange.foldl executeManaChange d
      let healthChange := int32 (d.primary + d.secondary)
      if healthChange = 0 then none else some (absorb t d (min (int32 t.mana) healthChange))
    else some (absorb t d manaDamage)
  else some (t, d)

def positive (d : Damage) : Damage :=
  { d with primary := abs32 d.primary, secondary := abs32 d.secondary }

end Combat

/-! ## What scripts leave -/

/-- The last script that does not fail decides. -/
def lastReturned (outcomes : List Outcome) : Option Outcome :=
  (outcomes.filter (· ≠ .error)).getLast?

/-- What a script leaves of the damage depends on nothing but its origin, and keeps it. -/
structure Overwrites (execute : Damage → Outcome → Damage) : Prop where
  error : ∀ d, execute d .error = d
  origin : ∀ d o, (execute d o).origin = d.origin
  same : ∀ d d' o, o ≠ .error → d.origin = d'.origin → execute d o = execute d' o

section Scripts

variable {execute : Damage → Outcome → Damage} {outcomes : List Outcome} {d : Damage}

theorem Overwrites.foldl (h : Overwrites execute) :
    outcomes.foldl execute d =
      match lastReturned outcomes with
      | none => d
      | some o => execute d o := by
  have horigin : ∀ l : List Outcome, (l.foldl execute d).origin = d.origin := by
    intro l
    induction l using List.reverseRecOn with
    | nil => rfl
    | append_singleton l o ih => rw [List.foldl_append, List.foldl_cons, List.foldl_nil, h.origin, ih]
  unfold lastReturned
  induction outcomes using List.reverseRecOn with
  | nil => rfl
  | append_singleton l o ih =>
      rw [List.foldl_append, List.foldl_cons, List.foldl_nil, List.filter_append]
      by_cases ho : o = .error
      · subst ho
        rw [h.error, ih, List.filter_cons_of_neg (by simp), List.filter_nil, List.append_nil]
      · rw [List.filter_cons_of_pos (by simpa using ho), List.filter_nil, List.getLast?_concat]
        exact h.same _ _ o ho (horigin l)

end Scripts

/-! ## One call -/

namespace Target

/-- The target can be attacked, and this attacker may. -/
def exposed (t : Target) : Prop := t.attackable = true ∧ t.refused = false

instance (t : Target) : Decidable t.exposed := inferInstanceAs (Decidable (_ ∧ _))

end Target

def Damage.total (d : Damage) : Int := d.primary.natAbs + d.secondary.natAbs

/-- What the mana shield takes of the damage. -/
def absorbed (t : Target) (d : Damage) : Int := if t.shielded d then min t.mana d.total else 0

section Call

variable {scripts : Scripts} {t : Target} {d : Damage} {again : Target → Damage → Target}

/-- The target after the shield has taken mana. -/
def spend (t : Target) (manaLoss : Int) : Target :=
  { t with mana := t.mana - if t.infiniteMana then 0 else manaLoss }

/-- No script for a change of mana returns, or none is called. -/
def Plain (scripts : Scripts) (t : Target) (d : Damage) : Prop :=
  d.origin = .none ∨ lastReturned scripts.manaChange = none ∨ ¬ (t.shielded d ∧ 0 < t.mana)

/-- The mana that a call that no script returns in takes. -/
def taken (t : Target) (d : Damage) : Int := if t.exposed then absorbed t d else 0

end Call

/-! ## Both calls -/

/-- There is damage, and scripts are called for it. -/
structure Called (t : Target) (d : Damage) : Prop where
  exposed : t.exposed
  damage : d.total ≠ 0
  origin : d.origin ≠ .none

/-- The damage that the mana shield finds: what the scripts for a change of mana leave, if they are
called. -/
def leaves (scripts : Scripts) (t : Target) (d : Damage) : Int × Int :=
  if t.shielded d ∧ 0 < t.mana then
    match lastReturned scripts.manaChange with
    | some (.returned primary _ secondary _) => (primary, secondary)
    | _ => (d.primary.natAbs, d.secondary.natAbs)
  else (d.primary.natAbs, d.secondary.natAbs)

section Calls

variable {scripts : Scripts} {t : Target} {d : Damage} {again : Target → Damage → Target}

end Calls

end Bruxo.CombatDamage
