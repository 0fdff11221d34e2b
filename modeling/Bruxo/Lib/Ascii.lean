import Mathlib.Algebra.Group.Nat.Defs
import Mathlib.Data.List.DropRight

/-!
# Texts of bytes

Texts in the classic locale: the letters `A` to `Z` have a small letter, and blanks are the space
and the characters from the tabulator to the carriage return. A text is trimmed if it has no blank
at its ends.
-/

namespace Ascii

abbrev Text := List UInt8

def space : UInt8 := 0x20

def isSpace (c : UInt8) : Bool := c = space || (0x09 ≤ c && c ≤ 0x0D)

def toLower (c : UInt8) : UInt8 := if 0x41 ≤ c ∧ c ≤ 0x5A then c + 0x20 else c

def trimLeft (text : Text) : Text := text.dropWhile isSpace

def trimRight (text : Text) : Text := text.rdropWhile isSpace

def trim (text : Text) : Text := trimLeft (trimRight text)

/-- The text begins with another one, but for the case of letters. -/
def caseInsensitiveStartsWith (str pfx : Text) : Bool :=
  pfx.length ≤ str.length && (pfx.zip str).all fun c => toLower c.1 = toLower c.2

section Case

variable {a b str pfx : Text}

theorem all_zip_iff (h : a.length = b.length) :
    ((a.zip b).all fun c => decide (toLower c.1 = toLower c.2)) = true ↔
      a.map toLower = b.map toLower := by
  induction a generalizing b with
  | nil =>
      obtain rfl : b = [] := List.length_eq_zero_iff.mp h.symm
      exact iff_of_true rfl rfl
  | cons x a ih =>
      cases b with
      | nil => cases h
      | cons y b =>
          rw [List.zip_cons_cons, List.all_cons, Bool.and_eq_true, decide_eq_true_eq,
            ih (Nat.succ.inj h), List.map_cons, List.map_cons, List.cons.injEq]

theorem caseInsensitiveStartsWith_iff :
    caseInsensitiveStartsWith str pfx = true ↔ pfx.map toLower <+: str.map toLower := by
  have hzip : pfx.length ≤ str.length → pfx.zip str = pfx.zip (str.take pfx.length) := by
    intro hle
    rw [List.zip_eq_zip_take_min, Nat.min_eq_left hle, List.take_length]
  rw [caseInsensitiveStartsWith, Bool.and_eq_true, decide_eq_true_eq, List.prefix_iff_eq_take,
    List.length_map, ← List.map_take]
  constructor
  · rintro ⟨hle, hall⟩
    rw [hzip hle] at hall
    exact (all_zip_iff (by rw [List.length_take, Nat.min_eq_left hle])).mp hall
  · intro h
    have hle : pfx.length ≤ str.length := by
      have hmap := congrArg List.length h
      rw [List.length_map, List.length_map, List.length_take] at hmap
      omega
    rw [hzip hle]
    exact ⟨hle, (all_zip_iff (by rw [List.length_take, Nat.min_eq_left hle])).mpr h⟩

theorem toNat_toLower (c : UInt8) :
    (toLower c).toNat = if 0x41 ≤ c.toNat ∧ c.toNat ≤ 0x5A then c.toNat + 0x20 else c.toNat := by
  have hiff : (0x41 ≤ c ∧ c ≤ 0x5A) ↔ 0x41 ≤ c.toNat ∧ c.toNat ≤ 0x5A :=
    and_congr UInt8.le_iff_toNat_le UInt8.le_iff_toNat_le
  by_cases hupper : 0x41 ≤ c ∧ c ≤ 0x5A
  · have hle : c.toNat ≤ 0x5A := (hiff.mp hupper).2
    have hsum : c.toNat + 0x20 < 2 ^ 8 := by omega
    rw [toLower, if_pos hupper, if_pos (hiff.mp hupper), UInt8.toNat_add]
    exact Nat.mod_eq_of_lt hsum
  · rw [toLower, if_neg hupper, if_neg fun h => hupper (hiff.mpr h)]

theorem toLower_toLower (c : UInt8) : toLower (toLower c) = toLower c := by
  refine UInt8.toNat.inj ?_
  rw [toNat_toLower, toNat_toLower]
  by_cases hupper : 0x41 ≤ c.toNat ∧ c.toNat ≤ 0x5A
  · rw [if_pos hupper, if_neg (by omega)]
  · rw [if_neg hupper, if_neg hupper]

end Case

section Trim

variable {text : Text} {c : UInt8}

theorem trimLeft_eq_nil : trimLeft text = [] ↔ text.all isSpace = true := by
  rw [trimLeft, List.dropWhile_eq_nil_iff, List.all_eq_true]

end Trim

section Lines

def newline : UInt8 := 0x0A

/-- The lines of a text, each without its end; there is no line after the last end of a line. -/
def lines : Text → List Text
  | [] => []
  | c :: text =>
      if c = newline then
        [] :: lines text
      else
        match lines text with
        | [] => [[c]]
        | line :: rest => (c :: line) :: rest

/-- The text as one that ends at its first zero is read. -/
def cString (text : Text) : Text := text.takeWhile (· ≠ 0)

theorem length_lines_cons {c : UInt8} {text : Text} (h : c ≠ newline) :
    (lines (c :: text)).length = max 1 (lines text).length := by
  rw [lines, if_neg h]
  cases lines text with
  | nil => rfl
  | cons line rest =>
      rw [List.length_cons, List.length_cons]
      omega

theorem length_lines_cString : ∀ text : Text, (lines (cString text)).length ≤ (lines text).length
  | [] => Nat.le_refl _
  | c :: text => by
      have ih := length_lines_cString text
      by_cases hzero : c = 0
      · have hnil : cString (c :: text) = [] := List.takeWhile_cons_of_neg (by simp [hzero])
        rw [hnil]
        exact Nat.zero_le _
      · have hcons : cString (c :: text) = c :: cString text :=
          List.takeWhile_cons_of_pos (by simp [hzero])
        rw [hcons]
        by_cases hnew : c = newline
        · rw [lines, lines, if_pos hnew, if_pos hnew, List.length_cons, List.length_cons]
          omega
        · rw [length_lines_cons hnew, length_lines_cons hnew]
          omega

end Lines

end Ascii
