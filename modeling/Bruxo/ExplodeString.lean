import Bruxo.Lib.Ascii
import Bruxo.Lib.Split
import Mathlib.Algebra.Group.Int.Defs

/-!
# Texts cut at a separator

`explodeString` (`tools.cpp`). The limit counts down before each search, a negative one as well: it
is meant for no limit, and goes on down for each separator until an `int32_t` can go no further.
-/

namespace Bruxo.Explode

open Ascii (Text)
open Split

/-- `std::string_view::find` from a position on, with `none` for `npos`. -/
def find (inString separator : Text) (start : Nat) : Option Nat :=
  ((inString.drop start).dropInfix? separator).map fun cut => start + cut.1.length

/-- `substr` -/
def substr (inString : Text) (start count : Nat) : Text := (inString.drop start).take count

/-- `--limit`, which is undefined for the lowest number. -/
def decrement (limit : Int) : Option Int :=
  if limit = -2 ^ 31 then none else some (limit - 1)

/-- The loop, as often as the number says, and what is pushed behind it. There is no outcome where
the limit can not be counted down. -/
def explodeLoop (inString separator : Text) : Nat → Int → Nat → Option (List Text)
  | 0, _, _ => none
  | n + 1, limit, start =>
      (decrement limit).bind fun limit =>
        if limit = -1 then some [inString.drop start]
        else
          match find inString separator start with
          | none => some [inString.drop start]
          | some last =>
              (explodeLoop inString separator n limit (last + separator.length)).map
                (substr inString start (last - start) :: ·)

def explodeString (n : Nat) (inString separator : Text) (limit : Int32) : Option (List Text) :=
  explodeLoop inString separator n limit.toInt 0

/-! ## What the pieces are -/

/-- What the pieces of a text are to be. -/
structure Exploded (inString separator : Text) (limit : Int) (pieces : List Text) : Prop where
  joined : separator.intercalate pieces = inString
  plain : ∀ piece ∈ pieces.dropLast, ¬ separator <:+: piece
  unlimited : limit < 0 → ∀ piece ∈ pieces, ¬ separator <:+: piece
  bounded : 0 ≤ limit → (pieces.length : Int) ≤ limit + 1

section Loop

variable {inString separator before after : Text} {start n : Nat} {limit : Int}
  {pieces : List Text}

theorem find_of_none (h : (inString.drop start).dropInfix? separator = none) :
    find inString separator start = none := by
  rw [find, h, Option.map_none]

theorem find_of_some (h : (inString.drop start).dropInfix? separator = some (before, after)) :
    find inString separator start = some (start + before.length) := by
  rw [find, h, Option.map_some]

/-- What is pushed is what stands before the separator, and the loop goes on behind it. -/
theorem drop_of_cut (hsep : separator ≠ [])
    (h : (inString.drop start).dropInfix? separator = some (before, after)) :
    substr inString start (start + before.length - start) = before ∧
      inString.drop (start + before.length + separator.length) = after := by
  obtain ⟨hdrop, -⟩ := dropInfix?_spec hsep h
  have hlength : (before ++ separator).length = before.length + separator.length :=
    List.length_append
  rw [substr, Nat.add_sub_cancel_left, Nat.add_assoc, ← List.drop_drop, hdrop, ← hlength,
    List.drop_left, List.append_assoc, List.take_left]
  exact ⟨rfl, rfl⟩

/-- A limit that is not negative is the number of cuts. -/
theorem explodeLoop_of_nonneg (hsep : separator ≠ []) {k : Nat} (hn : k < n) :
    explodeLoop inString separator n k start = some (split separator k (inString.drop start)) := by
  induction n generalizing k start with
  | zero => exact absurd hn (Nat.not_lt_zero k)
  | succ n ih =>
      have hdown : decrement k = some ((k : Int) - 1) := if_neg (by omega)
      rw [explodeLoop, hdown, Option.bind_some]
      cases k with
      | zero => exact if_pos rfl
      | succ k =>
          have hk : ((k + 1 : Nat) : Int) - 1 = k := by omega
          rw [hk, if_neg (by omega)]
          cases hcut : (inString.drop start).dropInfix? separator with
          | none => rw [find_of_none hcut, split_of_none hcut]
          | some cut =>
              obtain ⟨before, after⟩ := cut
              obtain ⟨hpiece, hafter⟩ := drop_of_cut hsep hcut
              rw [find_of_some hcut, split_of_some hcut]
              dsimp only
              rw [ih (Nat.lt_of_succ_lt_succ hn), hpiece, hafter, Option.map_some]

/-- A negative limit is no limit as long as it can be counted down for each separator and once
more. -/
theorem explodeLoop_of_neg (hsep : separator ≠ []) (hneg : limit < 0) (hlow : -2 ^ 31 ≤ limit) :
    explodeLoop inString separator n limit start =
      if (occurrences separator (inString.drop start) : Int) < limit + 2 ^ 31 ∧
          occurrences separator (inString.drop start) < n then
        some (splitAll separator (inString.drop start))
      else none := by
  induction n generalizing limit start with
  | zero => exact (if_neg fun h => Nat.not_lt_zero _ h.2).symm
  | succ n ih =>
      rw [explodeLoop]
      by_cases hlowest : limit = -2 ^ 31
      · rw [decrement, if_pos hlowest, Option.bind_none, if_neg]
        rintro ⟨hless, -⟩
        omega
      rw [decrement, if_neg hlowest, Option.bind_some, if_neg (by omega)]
      cases hcut : (inString.drop start).dropInfix? separator with
      | none =>
          rw [find_of_none hcut, occurrences_of_none hcut, splitAll_of_none hcut, if_pos]
          exact ⟨by omega, Nat.succ_pos n⟩
      | some cut =>
          obtain ⟨before, after⟩ := cut
          obtain ⟨hpiece, hafter⟩ := drop_of_cut hsep hcut
          rw [find_of_some hcut, occurrences_of_some hsep hcut, splitAll_of_some hsep hcut]
          dsimp only
          rw [ih (by omega) (by omega), hpiece, hafter]
          have hcond : ((occurrences separator after : Int) < limit - 1 + 2 ^ 31 ∧
              occurrences separator after < n) ↔
              (((occurrences separator after + 1 : Nat) : Int) < limit + 2 ^ 31 ∧
                occurrences separator after + 1 < n + 1) := by
            omega
          by_cases h : (occurrences separator after : Int) < limit - 1 + 2 ^ 31 ∧
              occurrences separator after < n
          · rw [if_pos h, if_pos (hcond.mp h), Option.map_some]
          · rw [if_neg h, if_neg fun hall => h (hcond.mpr hall), Option.map_none]

theorem exploded_split (hsep : separator ≠ []) (k : Nat) :
    Exploded inString separator k (split separator k inString) where
  joined := intercalate_split hsep k inString
  plain _ h := not_infix_of_mem_dropLast hsep h
  unlimited hneg := by omega
  bounded _ := by exact_mod_cast length_split_le separator k inString

theorem exploded_splitAll (hsep : separator ≠ []) (hneg : limit < 0) :
    Exploded inString separator limit (splitAll separator inString) where
  joined := intercalate_split hsep _ inString
  plain _ h := not_infix_of_mem_dropLast hsep h
  unlimited _ _ h := not_infix_of_mem_splitAll hsep h
  bounded hnonneg := absurd hneg (Int.not_lt.mpr hnonneg)

end Loop

/-- The pieces come out right where the limit is not negative, or where it can be counted down for
each separator of the text and once more. -/
theorem explodeString_iff (inString : Text) {separator : Text} (limit : Int32)
    (hsep : separator ≠ []) :
    (∃ n pieces, explodeString n inString separator limit = some pieces ∧
        Exploded inString separator limit.toInt pieces) ↔
      0 ≤ limit.toInt ∨ (occurrences separator inString : Int) < limit.toInt + 2 ^ 31 := by
  by_cases hneg : limit.toInt < 0
  · have hloop (n : Nat) := @explodeLoop_of_neg inString separator 0 n _ hsep hneg limit.le_toInt
    rw [or_iff_right (Int.not_le.mpr hneg)]
    constructor
    · rintro ⟨n, pieces, hpieces, -⟩
      rw [explodeString, hloop] at hpieces
      split at hpieces
      · next h => exact h.1
      · cases hpieces
    · intro h
      refine ⟨occurrences separator inString + 1, splitAll separator inString, ?_,
        exploded_splitAll hsep hneg⟩
      exact (hloop _).trans (if_pos ⟨h, Nat.lt_succ_self _⟩)
  · have hnonneg := Int.not_lt.mp hneg
    rw [iff_true_right (.inl hnonneg)]
    obtain ⟨k, hk⟩ := Int.eq_ofNat_of_zero_le hnonneg
    rw [hk]
    refine ⟨k + 1, split separator k inString, ?_, exploded_split hsep k⟩
    rw [explodeString, hk]
    exact explodeLoop_of_nonneg hsep (Nat.lt_succ_self k)

/-- `a,b` at the comma, and at most one cut. -/
theorem explodeString_iff_comma :
    (∃ n pieces, explodeString n [97, 44, 98] [44] 1 = some pieces ∧
        Exploded [97, 44, 98] [44] (1 : Int32).toInt pieces) :=
  (explodeString_iff [97, 44, 98] 1 (List.cons_ne_nil 44 [])).mpr (.inl (by decide))

/-- The lowest limit can not be counted down at all. -/
theorem explodeString_lowest :
    ¬ ∃ n pieces, explodeString n [97, 44, 98] [44] Int32.minValue = some pieces ∧
      Exploded [97, 44, 98] [44] Int32.minValue.toInt pieces := by
  rintro ⟨n, pieces, h, -⟩
  cases n <;> cases h

end Bruxo.Explode
