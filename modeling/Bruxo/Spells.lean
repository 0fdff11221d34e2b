import Bruxo.Lib.Ascii

/-!
# Words of spells

`Spells::getInstantSpell` and `Spells::playerSaySpell` (`spells.cpp`). Of the spells whose words a
text begins with the one with the longest words is cast, with a parameter that is quoted, quoted at
its beginning only, or a single word. What is said is then the words of the spell with the parameter
in quotes. The casting is not modelled but for its success.
-/

namespace Bruxo.Spells

open Ascii

def quote : UInt8 := 0x22

structure InstantSpell where
  words : Text
  hasParam : Bool
  deriving DecidableEq

/-- The loop of `getInstantSpell`, with the longest match so far. -/
def searchLoop (words : Text) : List InstantSpell → Option InstantSpell → Option InstantSpell
  | [], result => result
  | spell :: instants, result =>
      if caseInsensitiveStartsWith words spell.words &&
          result.all fun r => r.words.length < spell.words.length then
        if words.length = spell.words.length then some spell
        else searchLoop words instants (some spell)
      else searchLoop words instants result

/-- The spells are in the order of their words. -/
def getInstantSpell (instants : List InstantSpell) (words : Text) : Option InstantSpell :=
  match searchLoop words instants none with
  | none => none
  | some result =>
      if result.words.length < words.length then
        if !result.hasParam then none
        else
          let spellLen := result.words.length
          let paramLen := words.length - spellLen
          if paramLen < 2 ∨ words[spellLen]? ≠ some space then none else some result
      else some result

/-- `std::string::find` from a position on -/
def find (text : Text) (c : UInt8) (pos : Nat) : Option Nat :=
  ((text.drop pos).findIdx? fun d => d = c).map fun i => pos + i

/-- `std::string::find_last_not_of` -/
def findLastNotOf (text : Text) (c : UInt8) : Option Nat :=
  (text.reverse.findIdx? fun d => d ≠ c).map fun i => text.length - 1 - i

def substr (text : Text) (pos count : Nat) : Text := (text.drop pos).take count

/-- The parameter in the text after the words, or nothing if the text is no spell. -/
def parameter (paramText : Text) : Option Text :=
  if paramText ≠ [] ∧ paramText.head? = some space then
    match find paramText quote 1 with
    | some loc1 =>
        match find paramText quote (loc1 + 1) with
        | none => some (substr paramText (loc1 + 1) (paramText.length - loc1 - 1))
        | some loc2 =>
            if findLastNotOf paramText space ≠ some loc2 then none
            else some (substr paramText (loc1 + 1) (loc2 - loc1 - 1))
    | none =>
        let paramText := trim paramText
        match find paramText space 0 with
        | none => some paramText
        | some _ => none
  else some []

/-- The spell of a text, with the parameter that it is cast with. -/
def matched (instants : List InstantSpell) (words : Text) : Option (InstantSpell × Text) :=
  let words := trim words
  match getInstantSpell instants words with
  | none => none
  | some spell =>
      if spell.hasParam then
        (parameter (words.drop spell.words.length)).map fun param => (spell, param)
      else some (spell, [])

/-- What is said for a spell with a parameter. -/
def rewritten (spell : InstantSpell) (param : Text) : Text :=
  if spell.hasParam && param ≠ [] then spell.words ++ ([space, quote] ++ param ++ [quote])
  else spell.words

inductive TalkActionResult where
  | continue
  | break
  | failed
  deriving DecidableEq

/-- The result and what is said then; `playerCastInstant` tells whether the casting succeeds. -/
def playerSaySpell (instants : List InstantSpell) (playerCastInstant : InstantSpell → Text → Bool)
    (words : Text) : TalkActionResult × Text :=
  match matched instants words with
  | none => (.continue, words)
  | some (spell, param) =>
      if playerCastInstant spell param then (.break, rewritten spell param) else (.failed, words)

/-! ## Parameters -/

section Parameter

variable {text param : Text} {c : UInt8} {pos loc : Nat}

theorem find_some (h : find text c pos = some loc) :
    pos ≤ loc ∧ c ∉ (text.drop pos).take (loc - pos) := by
  obtain ⟨i, hi, rfl⟩ := Option.map_eq_some_iff.mp h
  obtain ⟨hlt, -, hbefore⟩ := List.findIdx?_eq_some_iff_getElem.mp hi
  refine ⟨Nat.le_add_right pos i, fun hmem => ?_⟩
  rw [Nat.add_sub_cancel_left] at hmem
  obtain ⟨j, hj, hc⟩ := List.getElem_of_mem hmem
  rw [List.length_take] at hj
  rw [List.getElem_take] at hc
  exact hbefore j (by omega) (decide_eq_true hc)

end Parameter

/-! ## The spell that is found -/

section Search

variable {words words' : Text} {instants : List InstantSpell} {result : Option InstantSpell}
  {spell r : InstantSpell}

theorem length_le (h : caseInsensitiveStartsWith words spell.words = true) :
    spell.words.length ≤ words.length := by
  have hprefix := (caseInsensitiveStartsWith_iff.mp h).length_le
  rwa [List.length_map, List.length_map] at hprefix

end Search

/-! ## What is said is matched again -/

section Again

variable {instants : List InstantSpell} {words param : Text} {spell : InstantSpell}

end Again

end Bruxo.Spells
