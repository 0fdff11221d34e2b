import Mathlib.Logic.Basic

/-!
# Words of a single bit

A word of which one bit is set, as it tests, sets and names a bit of another word.
-/

namespace SingleBit

variable {w n m : Nat} {bits : BitVec w}

theorem getLsbD_single (hn : n < w) : (BitVec.twoPow w n).getLsbD m = decide (n = m) := by
  rw [BitVec.getLsbD_twoPow, decide_eq_true hn, Bool.true_and]

theorem single_ne_zero (hn : n < w) : BitVec.twoPow w n ≠ 0 := by
  intro hzero
  have hself := getLsbD_single (m := n) hn
  rw [hzero, decide_eq_true rfl] at hself
  exact Bool.false_ne_true (BitVec.getLsbD_zero.symm.trans hself)

theorem and_single (hn : n < w) :
    BitVec.twoPow w n &&& bits ≠ 0 ↔ bits.getLsbD n = true := by
  rw [BitVec.and_comm, BitVec.and_twoPow]
  cases bits.getLsbD n with
  | false => exact iff_of_false (fun h => h rfl) Bool.false_ne_true
  | true => exact iff_of_true (single_ne_zero hn) rfl

theorem single_inj (hn : n < w) (h : BitVec.twoPow w n = BitVec.twoPow w m) : n = m := by
  have hbit := getLsbD_single (m := n) hn
  rw [h, BitVec.getLsbD_twoPow, decide_eq_true rfl, Bool.and_eq_true, decide_eq_true_eq,
    decide_eq_true_eq] at hbit
  exact hbit.2.symm

theorem or_single (hbit : bits.getLsbD n = true) : bits ||| BitVec.twoPow w n = bits := by
  refine BitVec.eq_of_getLsbD_eq fun i _ => ?_
  rw [BitVec.getLsbD_or, BitVec.getLsbD_twoPow]
  by_cases hi : n = i
  · subst hi
    rw [hbit, Bool.true_or]
  · rw [decide_eq_false hi, Bool.and_false, Bool.or_false]

end SingleBit
