import Mathlib.Algebra.Group.Int.Defs
import Mathlib.Algebra.Group.Nat.Defs
import Mathlib.Data.List.Basic

/-!
# Decimal text

Numbers as decimal text, and their conversion back to a type of some width, which fails for text
that is no number of the type (`boost::lexical_cast`). A minus before an unsigned number is
accepted. Text is no number for a type of characters: it has to be a single one, which is taken as
it is (`readChar`).
-/

namespace Decimal

abbrev Text := List Char

def ofNat (n : Nat) : Text := Nat.toDigits 10 n

def ofInt : Int → Text
  | .ofNat n => ofNat n
  | .negSucc n => '-' :: ofNat (n + 1)

def digits (text : Text) : Option Nat :=
  if text ≠ [] ∧ text.all Char.isDigit then some (Nat.ofDigitChars 10 text 0) else none

/-- The number of a text if it is below a bound. -/
def digitsBelow (bound : Nat) (text : Text) : Option Nat :=
  match digits text with
  | some n => if n < bound then some n else none
  | none => none

def readUnsigned (bits : Nat) : Text → Option Nat
  | '-' :: text => (digitsBelow (2 ^ bits) text).map fun n => (2 ^ bits - n) % 2 ^ bits
  | '+' :: text => digitsBelow (2 ^ bits) text
  | text => digitsBelow (2 ^ bits) text

def readSigned (bits : Nat) : Text → Option Int
  | '-' :: text => (digitsBelow (2 ^ (bits - 1) + 1) text).map fun n => -(n : Int)
  | '+' :: text => (digitsBelow (2 ^ (bits - 1)) text).map fun n => (n : Int)
  | text => (digitsBelow (2 ^ (bits - 1)) text).map fun n => (n : Int)

/-- The `k` last digits of a number, with zeros in front of a smaller one. -/
def fixed : Nat → Nat → Text
  | 0, _ => []
  | k + 1, n => fixed k (n / 10) ++ [Nat.digitChar (n % 10)]

/-- The conversion to a type of characters of one byte. -/
def readChar : Text → Option Nat
  | [c] => some (c.toNat % 256)
  | _ => none

theorem isDigit_of_mem {n : Nat} {c : Char} (h : c ∈ ofNat n) : c.isDigit = true :=
  Nat.isDigit_of_mem_toDigits (by omega) (by omega) h

theorem digits_ofNat (n : Nat) : digits (ofNat n) = some n := by
  have hall : (ofNat n).all Char.isDigit = true :=
    List.all_eq_true.mpr fun c hc => isDigit_of_mem hc
  rw [digits, if_pos ⟨Nat.toDigits_ne_nil, hall⟩, ofNat, Nat.ofDigitChars_ten_toDigits]

@[simp] theorem length_fixed (k n : Nat) : (fixed k n).length = k := by
  induction k generalizing n with
  | zero => rfl
  | succ k ih => rw [fixed, List.length_append, ih, List.length_singleton]

theorem fixed_mod (k n : Nat) : fixed k (n % 10 ^ k) = fixed k n := by
  induction k generalizing n with
  | zero => rfl
  | succ k ih =>
      have hlow : n % 10 ^ (k + 1) % 10 = n % 10 :=
        Nat.mod_mod_of_dvd n ⟨10 ^ k, Nat.pow_succ'⟩
      have hhigh : n % 10 ^ (k + 1) / 10 = n / 10 % 10 ^ k := by
        rw [Nat.pow_succ, Nat.mul_comm, Nat.mod_mul_right_div_self]
      rw [fixed, fixed, hlow, hhigh, ih]

/-- The end of the text of a number that has enough digits. -/
theorem drop_ofNat {k n : Nat} (h : k ≤ (ofNat n).length) :
    (ofNat n).drop ((ofNat n).length - k) = fixed k n := by
  induction k generalizing n with
  | zero => rw [Nat.sub_zero, List.drop_length, fixed]
  | succ k ih =>
      rcases Nat.lt_or_ge n 10 with hn | hn
      · have htext : ofNat n = [Nat.digitChar n] := Nat.toDigits_of_lt_base hn
        rw [htext, List.length_singleton] at h ⊢
        obtain rfl : k = 0 := by omega
        rw [Nat.sub_self, List.drop_zero, fixed, fixed, List.nil_append, Nat.mod_eq_of_lt hn]
      · have htext : ofNat n = ofNat (n / 10) ++ [Nat.digitChar (n % 10)] :=
          Nat.toDigits_of_base_le (by omega) hn
        have hlength : (ofNat n).length = (ofNat (n / 10)).length + 1 := by
          rw [htext, List.length_append, List.length_singleton]
        have hk : k ≤ (ofNat (n / 10)).length := by omega
        rw [hlength, Nat.add_sub_add_right, htext, List.drop_append_of_le_length (Nat.sub_le _ _),
          ih hk, fixed]

/-- How many digits a number has. -/
theorem le_length_ofNat {k n : Nat} : k ≤ (ofNat n).length ↔ k ≤ 1 ∨ 10 ^ (k - 1) ≤ n := by
  rcases Nat.lt_or_ge 1 k with hk | hk
  · have hfew := Nat.length_toDigits_le_iff (n := n) (by omega : 1 < 10) (by omega : 0 < k - 1)
    have htext : (ofNat n).length = (Nat.toDigits 10 n).length := rfl
    omega
  · have hpos : 0 < (ofNat n).length := Nat.length_toDigits_pos
    omega

theorem digitsBelow_ofNat {n bound : Nat} (h : n < bound) :
    digitsBelow bound (ofNat n) = some n := by
  rw [digitsBelow, digits_ofNat]
  exact if_pos h

/-- The text of a number begins with a digit. -/
theorem ofNat_eq_cons (n : Nat) : ∃ c text, ofNat n = c :: text ∧ c.isDigit = true := by
  cases htext : ofNat n with
  | nil => exact absurd htext Nat.toDigits_ne_nil
  | cons c text => exact ⟨c, text, rfl, isDigit_of_mem (htext ▸ List.mem_cons_self)⟩

theorem readUnsigned_ofNat {bits n : Nat} (h : n < 2 ^ bits) :
    readUnsigned bits (ofNat n) = some n := by
  obtain ⟨c, text, htext, hdigit⟩ := ofNat_eq_cons n
  have hread := digitsBelow_ofNat h
  rw [htext] at hread ⊢
  rw [readUnsigned.eq_def]
  split
  · next heq =>
      obtain ⟨rfl, -⟩ := List.cons.inj heq
      exact absurd hdigit (by decide)
  · next heq =>
      obtain ⟨rfl, -⟩ := List.cons.inj heq
      exact absurd hdigit (by decide)
  · exact hread

/-- The text of a number has no sign to be read first. -/
theorem readSigned_ofNat_eq (bits n : Nat) :
    readSigned bits (ofNat n) = (digitsBelow (2 ^ (bits - 1)) (ofNat n)).map fun n => (n : Int) := by
  obtain ⟨c, text, htext, hdigit⟩ := ofNat_eq_cons n
  rw [htext, readSigned.eq_def]
  split
  · next heq =>
      obtain ⟨rfl, -⟩ := List.cons.inj heq
      exact absurd hdigit (by decide)
  · next heq =>
      obtain ⟨rfl, -⟩ := List.cons.inj heq
      exact absurd hdigit (by decide)
  · rfl

theorem readSigned_ofNat {bits n : Nat} (h : n < 2 ^ (bits - 1)) :
    readSigned bits (ofNat n) = some (n : Int) := by
  rw [readSigned_ofNat_eq, digitsBelow_ofNat h]
  rfl

theorem readSigned_ofInt {bits : Nat} {i : Int} (hlow : -2 ^ (bits - 1) ≤ i)
    (hhigh : i < 2 ^ (bits - 1)) : readSigned bits (ofInt i) = some i := by
  cases i with
  | ofNat n =>
      have hbound : (n : Int) < ((2 ^ (bits - 1) : Nat) : Int) := by
        push_cast
        exact hhigh
      exact readSigned_ofNat (Int.ofNat_lt.mp hbound)
  | negSucc n =>
      have hbound : n + 1 < 2 ^ (bits - 1) + 1 := by
        have hcast : ((n + 1 : Nat) : Int) ≤ ((2 ^ (bits - 1) : Nat) : Int) := by
          rw [Int.negSucc_eq] at hlow
          push_cast
          omega
        omega
      simp only [ofInt, readSigned, digitsBelow_ofNat hbound]
      rfl

theorem digitsBelow_ofNat_none {n bound : Nat} (h : bound ≤ n) :
    digitsBelow bound (ofNat n) = none := by
  rw [digitsBelow, digits_ofNat]
  exact if_neg (Nat.not_lt_of_le h)

/-- A number outside the type is no number of it. -/
theorem readSigned_ofInt_none {bits : Nat} {i : Int}
    (h : ¬ (-2 ^ (bits - 1) ≤ i ∧ i < 2 ^ (bits - 1))) : readSigned bits (ofInt i) = none := by
  have hcast : ((2 ^ (bits - 1) : Nat) : Int) = 2 ^ (bits - 1) := by
    push_cast
    rfl
  cases i with
  | ofNat n =>
      have hbound : 2 ^ (bits - 1) ≤ n := by
        rw [← hcast] at h
        simp only [Int.ofNat_eq_natCast] at h
        omega
      rw [ofInt, readSigned_ofNat_eq, digitsBelow_ofNat_none hbound]
      rfl
  | negSucc n =>
      have hbound : 2 ^ (bits - 1) + 1 ≤ n + 1 := by
        rw [← hcast, Int.negSucc_eq] at h
        omega
      simp only [ofInt, readSigned, digitsBelow_ofNat_none hbound]
      rfl

end Decimal
