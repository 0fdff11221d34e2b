import Bruxo.Lib.Bytes
import Mathlib.Tactic.Positivity
import Mathlib.Tactic.Zify

/-!
# Property streams

`PropStream` and `PropWriteStream` (`fileloader.h`). A read stream is the
bytes it has left; a fixed-width read takes them little-endian, as the
`memcpy` of the supported platforms does. `none` is the `false` of the code:
the stream stays where it was.
-/

namespace Bruxo

open Bytes

structure PropStream where
  bytes : List UInt8
  deriving DecidableEq

namespace PropStream

/-- A stream that was never initialised: both pointers null. -/
def empty : PropStream := ⟨[]⟩

def init (bytes : List UInt8) : PropStream := ⟨bytes⟩

def size (s : PropStream) : Nat := s.bytes.length

/-- `read<T>` for a type of `n` bytes. -/
def read (s : PropStream) (n : Nat) : Option (Nat × PropStream) :=
  if s.size < n then none else some (leNat (s.bytes.take n), ⟨s.bytes.drop n⟩)

def skip (s : PropStream) (n : Nat) : Option PropStream :=
  if s.size < n then none else some ⟨s.bytes.drop n⟩

/-- A length that reads but has too few bytes behind it is not given back. -/
def readString (s : PropStream) : Option (List UInt8) × PropStream :=
  match s.read 2 with
  | none => (none, s)
  | some (strLen, rest) =>
      if rest.size < strLen then (none, rest)
      else (some (rest.bytes.take strLen), ⟨rest.bytes.drop strLen⟩)

end PropStream

structure PropWriteStream where
  buffer : List UInt8

namespace PropWriteStream

def empty : PropWriteStream := ⟨[]⟩

/-- `write<T>` for a type of `n` bytes. -/
def write (s : PropWriteStream) (n v : Nat) : PropWriteStream := ⟨s.buffer ++ leBytes n v⟩

/-- A string too long for its length field is written as an empty one. -/
def writeString (s : PropWriteStream) (str : List UInt8) : PropWriteStream :=
  if 65535 < str.length then s.write 2 0 else ⟨(s.write 2 str.length).buffer ++ str⟩

end PropWriteStream

/-! ## Integers

A C++ cast to an integer type of `n` bytes, from any other. -/

def castInt (n : Nat) (signed : Bool) (v : Int) : Int :=
  let u := v % 256 ^ n
  if signed ∧ 256 ^ n ≤ 2 * u then u - 256 ^ n else u

def PropWriteStream.writeInt (s : PropWriteStream) (n : Nat) (v : Int) : PropWriteStream :=
  s.write n (v % 256 ^ n).toNat

/-- `read<T>` for an integer type of `n` bytes. -/
def PropStream.readInt (s : PropStream) (n : Nat) (signed : Bool) : Option (Int × PropStream) :=
  (s.read n).map fun r => (castInt n signed r.1, r.2)

theorem castInt_unsigned {n : Nat} {v : Int} (hnonneg : 0 ≤ v) (hlt : v < 256 ^ n) :
    castInt n false v = v := by
  simp only [castInt, Bool.false_eq_true, false_and, if_false]
  exact Int.emod_eq_of_lt hnonneg hlt

theorem castInt_signed {n : Nat} {v : Int} (hle : -(256 ^ n) ≤ 2 * v) (hlt : 2 * v < 256 ^ n) :
    castInt n true v = v := by
  have hpos : (0 : Int) < 256 ^ n := by positivity
  simp only [castInt, true_and]
  rcases Int.lt_or_le v 0 with hneg | hnonneg
  · have hmod : v % 256 ^ n = v + 256 ^ n := by
      rw [← Int.add_emod_right]
      exact Int.emod_eq_of_lt (by omega) (by omega)
    rw [hmod, if_pos (by omega)]
    omega
  · rw [Int.emod_eq_of_lt hnonneg (by omega), if_neg (by omega)]

theorem castInt_emod (n : Nat) (signed : Bool) (v : Int) :
    castInt n signed (v % 256 ^ n) = castInt n signed v := by
  simp only [castInt, Int.emod_emod_of_dvd _ (dvd_refl _)]

/-! ## Reading what was written -/

namespace PropStream

/-- A read takes its bytes from the front. -/
theorem size_read {s s' : PropStream} {n v : Nat} (h : s.read n = some (v, s')) :
    s.size = s'.size + n := by
  rw [read] at h
  split at h
  · cases h
  · cases h
    simp only [size, List.length_drop] at *
    omega

theorem read_append {n : Nat} {bs : List UInt8} (h : bs.length = n) (rest : List UInt8) :
    (⟨bs ++ rest⟩ : PropStream).read n = some (leNat bs, ⟨rest⟩) := by
  subst h
  rw [read, if_neg (by simp [size]), List.take_left, List.drop_left]

theorem read_write {n v : Nat} (h : v < 256 ^ n) (rest : List UInt8) :
    (⟨leBytes n v ++ rest⟩ : PropStream).read n = some (v, ⟨rest⟩) := by
  rw [read_append (length_leBytes n v), leNat_leBytes_of_lt h]

theorem readInt_writeInt (n : Nat) (signed : Bool) (v : Int) (rest : List UInt8) :
    (⟨leBytes n (v % 256 ^ n).toNat ++ rest⟩ : PropStream).readInt n signed
      = some (castInt n signed v, ⟨rest⟩) := by
  have hpos : (0 : Int) < 256 ^ n := by positivity
  have hnonneg : 0 ≤ v % 256 ^ n := Int.emod_nonneg _ hpos.ne'
  have hlt : (v % 256 ^ n).toNat < 256 ^ n := by
    have := Int.emod_lt_of_pos v hpos
    zify
    rwa [Int.toNat_of_nonneg hnonneg]
  rw [readInt, read_write hlt, Option.map_some, Int.toNat_of_nonneg hnonneg, castInt_emod]

theorem readString_writeString {str : List UInt8} (h : str.length ≤ 65535) (rest : List UInt8) :
    (⟨leBytes 2 str.length ++ str ++ rest⟩ : PropStream).readString = (some str, ⟨rest⟩) := by
  have hlen : str.length < 256 ^ 2 := by omega
  rw [List.append_assoc, readString, read_write hlen]
  simp only [size, List.length_append, List.take_left, List.drop_left]
  exact if_neg (by omega)

end PropStream

end Bruxo
