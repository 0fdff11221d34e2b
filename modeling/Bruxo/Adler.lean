import Bruxo.Lib.RunningSums
import Bruxo.OutputMessage

/-!
# The checksum and its definition

`adlerChecksum` (`tools.cpp`) reduces its sums after 5552 bytes; Adler-32 is defined with sums that
are reduced after every byte. 5552 is the most for which the sums, reduced before, stay below the
32 bits that they are kept in.
-/

namespace Bruxo.Adler

open RunningSums

/-- Adler-32 as it is defined. -/
def adler32 (data : List UInt8) : Nat :=
  let s := reducedSums 65521 (1, 0) (data.map UInt8.toNat)
  s.2 * 2 ^ 16 + s.1

/-- The exact sums of which `adlerSums` keeps 32 bits. -/
def additions (s : UInt32 × UInt32) : List UInt8 → List Nat
  | [] => []
  | b :: data =>
      let a := s.1 + b.toUInt32
      (s.1.toNat + b.toNat) :: (s.2.toNat + a.toNat) :: additions (a, s.2 + a) data

/-- Those of `adlerLoop`, stretch by stretch. -/
def loopAdditions (s : UInt32 × UInt32) (data : List UInt8) : List Nat :=
  if _h : data.length = 0 then []
  else
    let r := adlerSums s (data.take 5552)
    additions s (data.take 5552) ++
      loopAdditions (r.1 % adlerModulus, r.2 % adlerModulus) (data.drop 5552)
termination_by data.length
decreasing_by
  simp only [List.length_drop]
  omega

def sumsOf (s : UInt32 × UInt32) : Nat × Nat := (s.1.toNat, s.2.toNat)

section Stretch

variable {s : UInt32 × UInt32} {data : List UInt8}

/-- Exact sums that fit 32 bits are those that are kept. -/
theorem adlerSums_eq (h₁ : (sums (sumsOf s) (data.map UInt8.toNat)).1 < 2 ^ 32)
    (h₂ : (sums (sumsOf s) (data.map UInt8.toNat)).2 < 2 ^ 32) :
    sumsOf (adlerSums s data) = sums (sumsOf s) (data.map UInt8.toNat) ∧
      ∀ n ∈ additions s data, n < 2 ^ 32 := by
  induction data generalizing s with
  | nil => exact ⟨rfl, fun n hn => absurd hn List.not_mem_nil⟩
  | cons b data ih =>
      have hbyte : b.toUInt32.toNat = b.toNat := UInt8.toNat_toUInt32 b
      have hle : s.1.toNat + b.toNat ≤ _ ∧ s.2.toNat + (s.1.toNat + b.toNat) ≤ _ :=
        le_sums (step (sumsOf s) b.toNat) (data.map UInt8.toNat)
      have hfirst : s.1.toNat + b.toNat < 2 ^ 32 := hle.1.trans_lt h₁
      have hsecond : s.2.toNat + (s.1.toNat + b.toNat) < 2 ^ 32 := hle.2.trans_lt h₂
      have ha : (s.1 + b.toUInt32).toNat = s.1.toNat + b.toNat := by
        rw [UInt32.toNat_add, hbyte, Nat.mod_eq_of_lt hfirst]
      have hb : (s.2 + (s.1 + b.toUInt32)).toNat = s.2.toNat + (s.1.toNat + b.toNat) := by
        rw [UInt32.toNat_add, ha, Nat.mod_eq_of_lt hsecond]
      have hstep : sumsOf (s.1 + b.toUInt32, s.2 + (s.1 + b.toUInt32)) =
          step (sumsOf s) b.toNat := Prod.ext ha hb
      have hrest := ih (s := (s.1 + b.toUInt32, s.2 + (s.1 + b.toUInt32)))
      rw [hstep] at hrest
      obtain ⟨hsums, hadditions⟩ := hrest h₁ h₂
      refine ⟨hsums, fun n hn => ?_⟩
      rcases List.mem_cons.mp hn with rfl | hn
      · exact hfirst
      · rcases List.mem_cons.mp hn with rfl | hn
        · rw [ha]
          exact hsecond
        · exact hadditions n hn

/-- A stretch of 5552 bytes fits. -/
theorem stretch_fits {s : Nat × Nat} (h₁ : s.1 < 65521) (h₂ : s.2 < 65521)
    (hlength : data.length ≤ 5552) :
    (sums s (data.map UInt8.toNat)).1 < 2 ^ 32 ∧ (sums s (data.map UInt8.toNat)).2 < 2 ^ 32 := by
  have hbytes : ∀ x ∈ data.map UInt8.toNat, x ≤ 255 := by
    intro x hx
    obtain ⟨b, -, rfl⟩ := List.mem_map.mp hx
    exact Nat.le_of_lt_succ b.toNat_lt
  have hfst : _ ≤ s.1 + _ := sums_fst_le hbytes
  have hsnd := sums_snd_le (s := s) hbytes
  rw [List.length_map] at hfst hsnd
  have hsquare : data.length * (data.length + 1) ≤ 5552 * 5553 :=
    Nat.mul_le_mul hlength (Nat.succ_le_succ hlength)
  have hstart : data.length * s.1 ≤ 5552 * 65520 :=
    Nat.mul_le_mul hlength (Nat.le_of_lt_succ h₁)
  omega

end Stretch

theorem sumsOf_mod (s : UInt32 × UInt32) :
    sumsOf (s.1 % adlerModulus, s.2 % adlerModulus) = reduce 65521 (sumsOf s) := by
  refine Prod.ext ?_ ?_
  · exact UInt32.toNat_mod s.1 adlerModulus
  · exact UInt32.toNat_mod s.2 adlerModulus

/-- The loop over the stretches from sums that are reduced. -/
theorem adlerLoop_eq (s : UInt32 × UInt32) (data : List UInt8) (h₁ : (sumsOf s).1 < 65521)
    (h₂ : (sumsOf s).2 < 65521) :
    sumsOf (adlerLoop s data) = reduce 65521 (sums (sumsOf s) (data.map UInt8.toNat)) ∧
      ∀ n ∈ loopAdditions s data, n < 2 ^ 32 := by
  induction s, data using adlerLoop.induct with
  | case1 s data hnil =>
      rw [adlerLoop, loopAdditions, dif_pos hnil, dif_pos hnil, List.length_eq_zero_iff.mp hnil]
      exact ⟨(reduce_eq h₁ h₂).symm, fun n hn => absurd hn List.not_mem_nil⟩
  | case2 s data hsome r ih =>
      have hlength : (data.take 5552).length ≤ 5552 := by
        rw [List.length_take]
        exact Nat.min_le_left _ _
      obtain ⟨hfst, hsnd⟩ := stretch_fits h₁ h₂ hlength
      obtain ⟨hstretch, hadditions⟩ := adlerSums_eq hfst hsnd
      have hreduced : sumsOf (r.1 % adlerModulus, r.2 % adlerModulus) =
          reduce 65521 (sums (sumsOf s) ((data.take 5552).map UInt8.toNat)) := by
        rw [sumsOf_mod, hstretch]
      obtain ⟨hlt₁, hlt₂⟩ :=
        reduce_lt (m := 65521) (by omega) (sums (sumsOf s) ((data.take 5552).map UInt8.toNat))
      rw [hreduced] at ih
      obtain ⟨hrest, hmore⟩ := ih hlt₁ hlt₂
      have hwhole : sums (sumsOf s) (data.map UInt8.toNat) =
          sums (sums (sumsOf s) ((data.take 5552).map UInt8.toNat))
            ((data.drop 5552).map UInt8.toNat) := by
        rw [sums, sums, sums, ← List.foldl_append, ← List.map_append, List.take_append_drop]
      rw [adlerLoop, loopAdditions, dif_neg hsome, dif_neg hsome]
      refine ⟨?_, fun n hn => ?_⟩
      · rw [hrest, reduce_sums, hwhole]
      · rcases List.mem_append.mp hn with hn | hn
        · exact hadditions n hn
        · exact hmore n hn

theorem word_eq (a b : UInt32) (ha : a.toNat < 2 ^ 16) (hb : b.toNat < 2 ^ 16) :
    ((b <<< 16) ||| a).toNat = b.toNat * 2 ^ 16 + a.toNat := by
  have hshift : (b <<< 16).toNat = b.toNat <<< 16 := by
    have hlt : b.toNat <<< 16 < 2 ^ 32 := by
      rw [Nat.shiftLeft_eq]
      omega
    exact (UInt32.toNat_shiftLeft b 16).trans (Nat.mod_eq_of_lt hlt)
  rw [UInt32.toNat_or, hshift, ← Nat.shiftLeft_add_eq_or_of_lt ha, Nat.shiftLeft_eq]

/-- The checksum of what a message can hold is Adler-32, and no sum on the way to it wraps
around. -/
theorem adlerChecksum_eq (data : List UInt8) (hlength : data.length ≤ networkMessageMaxSize) :
    (adlerChecksum data).toNat = adler32 data ∧ ∀ n ∈ loopAdditions (1, 0) data, n < 2 ^ 32 := by
  obtain ⟨hloop, hadditions⟩ := adlerLoop_eq (1, 0) data (by decide) (by decide)
  refine ⟨?_, hadditions⟩
  have hstart : sumsOf (1, 0) = (1, 0) := rfl
  rw [hstart, ← reducedSums_eq (by omega) (by omega)] at hloop
  obtain ⟨hlt₁, hlt₂⟩ := reducedSums_lt (m := 65521) (s := (1, 0)) (by omega) (by omega)
    (data.map UInt8.toNat)
  have hfst : (adlerLoop (1, 0) data).1.toNat = _ := congrArg Prod.fst hloop
  have hsnd : (adlerLoop (1, 0) data).2.toNat = _ := congrArg Prod.snd hloop
  rw [adlerChecksum, if_neg (Nat.not_lt.mpr hlength)]
  dsimp only
  rw [word_eq _ _ (by omega) (by omega), hfst, hsnd]
  rfl

/-- Of three letters, with the sums that are made for them. -/
theorem adlerChecksum_eq_abc :
    (adlerChecksum [0x61, 0x62, 0x63]).toNat = adler32 [0x61, 0x62, 0x63] ∧
      ∀ n ∈ loopAdditions (1, 0) [0x61, 0x62, 0x63], n < 2 ^ 32 :=
  adlerChecksum_eq [0x61, 0x62, 0x63] (by decide)

end Bruxo.Adler
