import Mathlib.Algebra.Group.Nat.Defs
import Mathlib.Data.List.Induction
import Mathlib.Data.Nat.Bitwise
import Mathlib.Tactic.Ring

/-!
# Bits in groups

Numbers of some width as bits, the most significant one first, and strings of bits as numbers of
some width: with zeros at the end for the last one (`groups`), or without what is left in the end
(`wholeGroups`). Read in groups of another width and back, the string is the same.
-/

namespace BitGroups

/-- The `w` low bits of a number. -/
def bits : Nat → Nat → List Bool
  | 0, _ => []
  | w + 1, v => v.testBit w :: bits w v

def number (bs : List Bool) : Nat := bs.foldl (fun n b => 2 * n + b.toNat) 0

/-- The groups of `w` bits, the last one filled with zeros. -/
def groups (w : Nat) (bs : List Bool) : List Nat :=
  if _h : bs = [] ∨ w = 0 then []
  else number (bs.take w ++ List.replicate (w - bs.length) false) :: groups w (bs.drop w)
termination_by bs.length
decreasing_by
  have hpos : 0 < bs.length := List.length_pos_iff.mpr fun hnil => _h (.inl hnil)
  simp only [List.length_drop]
  omega

/-- The groups of `w` bits that are full. -/
def wholeGroups (w : Nat) (bs : List Bool) : List Nat :=
  if _h : bs.length < w ∨ w = 0 then []
  else number (bs.take w) :: wholeGroups w (bs.drop w)
termination_by bs.length
decreasing_by
  simp only [List.length_drop]
  omega

section Numbers

variable {w : Nat}

@[simp] theorem length_bits (w v : Nat) : (bits w v).length = w := by
  induction w with
  | zero => rfl
  | succ w ih => rw [bits, List.length_cons, ih]

theorem bits_congr {u v : Nat} (h : ∀ i < w, u.testBit i = v.testBit i) : bits w u = bits w v := by
  induction w with
  | zero => rfl
  | succ w ih =>
      rw [bits, bits, h w (Nat.lt_succ_self w), ih fun i hi => h i (Nat.lt_succ_of_lt hi)]

/-- The bits in two parts, the high ones first. -/
theorem bits_add (m w v : Nat) : bits (m + w) v = bits m (v >>> w) ++ bits w v := by
  induction m with
  | zero => rw [Nat.zero_add, bits, List.nil_append]
  | succ m ih =>
      rw [Nat.succ_add, bits, bits, ih, List.cons_append, Nat.testBit_shiftRight, Nat.add_comm w m]

theorem foldl_bits (n w v : Nat) :
    (bits w v).foldl (fun n b => 2 * n + b.toNat) n = n * 2 ^ w + v % 2 ^ w := by
  induction w generalizing n with
  | zero => rw [bits, List.foldl_nil, Nat.pow_zero, Nat.mod_one, Nat.mul_one, Nat.add_zero]
  | succ w ih =>
      have hhigh : v % 2 ^ (w + 1) = v % 2 ^ w + 2 ^ w * (v.testBit w).toNat := by
        rw [Nat.mod_pow_succ, Nat.toNat_testBit]
      rw [bits, List.foldl_cons, ih, hhigh]
      ring

theorem number_bits (w v : Nat) : number (bits w v) = v % 2 ^ w := by
  rw [number, foldl_bits, Nat.zero_mul, Nat.zero_add]

theorem number_concat (bs : List Bool) (b : Bool) :
    number (bs ++ [b]) = 2 * number bs + b.toNat := by
  rw [number, number, List.foldl_append]
  rfl

theorem bits_number (bs : List Bool) : bits bs.length (number bs) = bs := by
  induction bs using List.reverseRecOn with
  | nil => rfl
  | append_singleton bs b ih =>
      have hhigh : number (bs ++ [b]) >>> 1 = number bs := by
        rw [number_concat, Nat.shiftRight_one]
        cases b <;> simp only [Bool.toNat_false, Bool.toNat_true] <;> omega
      have hlow : bits 1 (number (bs ++ [b])) = [b] := by
        rw [number_concat, bits, bits, Nat.testBit_zero]
        have hbit : (2 * number bs + b.toNat) % 2 = b.toNat := by
          have hle := Bool.toNat_le b
          omega
        rw [hbit]
        cases b <;> rfl
      rw [List.length_append, List.length_singleton, bits_add, hhigh, hlow, ih]

theorem number_lt (bs : List Bool) : number bs < 2 ^ bs.length := by
  have hnumber := number_bits bs.length (number bs)
  rw [bits_number] at hnumber
  rw [hnumber]
  exact Nat.mod_lt _ (Nat.two_pow_pos _)

end Numbers

section Groups

variable {w : Nat}

/-- The bits of the groups are those that were grouped and less than a group of zeros. -/
theorem flatMap_groups (hw : w ≠ 0) (bs : List Bool) :
    ∃ n < w, (groups w bs).flatMap (bits w) = bs ++ List.replicate n false := by
  induction bs using groups.induct w with
  | case1 bs hnil =>
      obtain rfl := hnil.resolve_right hw
      refine ⟨0, Nat.pos_of_ne_zero hw, ?_⟩
      rw [groups, dif_pos (.inl rfl)]
      rfl
  | case2 bs hsome ih =>
      obtain ⟨n, hn, hrest⟩ := ih
      have hfull : bits w (number (bs.take w ++ List.replicate (w - bs.length) false)) =
          bs.take w ++ List.replicate (w - bs.length) false := by
        have hlength : (bs.take w ++ List.replicate (w - bs.length) false).length = w := by
          rw [List.length_append, List.length_take, List.length_replicate]
          omega
        have hbits := bits_number (bs.take w ++ List.replicate (w - bs.length) false)
        rwa [hlength] at hbits
      rw [groups, dif_neg hsome, List.flatMap_cons, hfull, hrest]
      rcases Nat.le_total w bs.length with hle | hle
      · refine ⟨n, hn, ?_⟩
        rw [Nat.sub_eq_zero_of_le hle, List.replicate_zero, List.append_nil, ← List.append_assoc,
          List.take_append_drop]
      · have hdrop : bs.drop w = [] := List.drop_eq_nil_iff.mpr hle
        have hn : n = 0 := by
          rw [hdrop, groups, dif_pos (.inl rfl)] at hrest
          have hlength := congrArg List.length hrest
          rw [List.nil_append, List.length_replicate] at hlength
          exact hlength.symm
        have hpos : 0 < bs.length := List.length_pos_iff.mpr fun hnil => hsome (.inl hnil)
        refine ⟨w - bs.length, by omega, ?_⟩
        rw [hdrop, hn, List.take_of_length_le hle, List.nil_append, List.replicate_zero,
          List.append_nil]

theorem groups_lt {bs : List Bool} : ∀ v ∈ groups w bs, v < 2 ^ w := by
  induction bs using groups.induct w with
  | case1 bs hnil =>
      intro v hv
      rw [groups, dif_pos hnil] at hv
      exact absurd hv List.not_mem_nil
  | case2 bs hsome ih =>
      intro v hv
      rw [groups, dif_neg hsome] at hv
      rcases List.mem_cons.mp hv with rfl | hv
      · have hlt := number_lt (bs.take w ++ List.replicate (w - bs.length) false)
        rw [List.length_append, List.length_take, List.length_replicate] at hlt
        have hlength : min w bs.length + (w - bs.length) = w := by omega
        rwa [hlength] at hlt
      · exact ih v hv

theorem wholeGroups_bits_append (hw : w ≠ 0) {v : Nat} (hv : v < 2 ^ w) (bs : List Bool) :
    wholeGroups w (bits w v ++ bs) = v :: wholeGroups w bs := by
  have hfull : ¬ ((bits w v ++ bs).length < w ∨ w = 0) := by
    rw [List.length_append, length_bits]
    omega
  have hlength : (bits w v).length = w := length_bits w v
  rw [wholeGroups, dif_neg hfull, List.take_left' hlength, List.drop_left' hlength, number_bits,
    Nat.mod_eq_of_lt hv]

/-- The groups whose bits they are, whatever less than a group is behind. -/
theorem wholeGroups_flatMap (hw : w ≠ 0) {l : List Nat} (hl : ∀ v ∈ l, v < 2 ^ w)
    {bs : List Bool} (hbs : bs.length < w) : wholeGroups w (l.flatMap (bits w) ++ bs) = l := by
  induction l with
  | nil => rw [List.flatMap_nil, List.nil_append, wholeGroups, dif_pos (.inl hbs)]
  | cons v l ih =>
      rw [List.flatMap_cons, List.append_assoc, wholeGroups_bits_append hw (hl v List.mem_cons_self),
        ih fun u hu => hl u (List.mem_cons_of_mem _ hu)]

/-- Numbers of one width in groups of another width, and back. -/
theorem wholeGroups_groups {w' : Nat} (hw : w ≠ 0) (hw' : w' ≠ 0) (hle : w' ≤ w) {l : List Nat}
    (hl : ∀ v ∈ l, v < 2 ^ w) :
    wholeGroups w ((groups w' (l.flatMap (bits w))).flatMap (bits w')) = l := by
  obtain ⟨n, hn, hbits⟩ := flatMap_groups hw' (l.flatMap (bits w))
  rw [hbits]
  apply wholeGroups_flatMap hw hl
  rw [List.length_replicate]
  exact Nat.lt_of_lt_of_le hn hle

end Groups

end BitGroups
