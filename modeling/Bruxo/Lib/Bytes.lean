import Mathlib.Data.List.Basic
import Mathlib.Tactic.Ring

/-!
# Little-endian byte strings and flat byte memory

The two byte-level notions every wire or file format here is stated
over, independent of any format:

- **words** (`leBytes`/`leNat`): a natural number as a fixed number of
  little-endian bytes and back, inverse to each other up to the width;
- **memory** (`readAt`/`writeAt`): a block of bytes overwritten in
  place, with the read-over-write laws a buffer proof needs. A block
  never changes its length (`length_writeAt`), which is what makes a
  write past its end visible as a failed side condition.
-/

namespace Bytes

/-! ## Words -/

/-- The `n` low bytes of `v`, least significant first. -/
def leBytes : Nat → Nat → List UInt8
  | 0, _ => []
  | n + 1, v => UInt8.ofNat v :: leBytes n (v / 256)

/-- The number a little-endian byte string denotes. -/
def leNat : List UInt8 → Nat
  | [] => 0
  | b :: bs => b.toNat + 256 * leNat bs

@[simp] theorem length_leBytes (n v : Nat) : (leBytes n v).length = n := by
  induction n generalizing v with
  | zero => rfl
  | succ n ih => simp [leBytes, ih]

/-- The most significant byte is the last one. -/
theorem leBytes_succ (n v : Nat) :
    leBytes (n + 1) v = leBytes n v ++ [UInt8.ofNat (v / 256 ^ n)] := by
  induction n generalizing v with
  | zero => rw [leBytes, leBytes, leBytes, Nat.pow_zero, Nat.div_one, List.nil_append]
  | succ n ih =>
      have hpow : v / 256 / 256 ^ n = v / 256 ^ (n + 1) := by
        rw [Nat.div_div_eq_div_mul, Nat.pow_succ']
      rw [leBytes, ih, hpow, leBytes, List.cons_append]

theorem leNat_leBytes (n v : Nat) : leNat (leBytes n v) = v % 256 ^ n := by
  induction n generalizing v with
  | zero => simp [leBytes, leNat, Nat.mod_one]
  | succ n ih =>
      have hpow : 256 ^ (n + 1) = 256 * 256 ^ n := by ring
      simp only [leBytes, leNat, ih, UInt8.toNat_ofNat', hpow, Nat.mod_mul]

theorem leNat_leBytes_of_lt {n v : Nat} (h : v < 256 ^ n) : leNat (leBytes n v) = v := by
  rw [leNat_leBytes, Nat.mod_eq_of_lt h]

theorem toNat_ofNat_uint16 {n : Nat} (h : n < 2 ^ 16) : (UInt16.ofNat n).toNat = n := by
  rw [UInt16.toNat_ofNat', Nat.mod_eq_of_lt h]

theorem toNat_ofNat_uint32 {n : Nat} (h : n < 2 ^ 32) : (UInt32.ofNat n).toNat = n := by
  rw [UInt32.toNat_ofNat', Nat.mod_eq_of_lt h]

@[simp] theorem leNat_leBytes_uint16 (v : UInt16) : leNat (leBytes 2 v.toNat) = v.toNat :=
  leNat_leBytes_of_lt v.toNat_lt

@[simp] theorem leNat_leBytes_uint32 (v : UInt32) : leNat (leBytes 4 v.toNat) = v.toNat :=
  leNat_leBytes_of_lt v.toNat_lt

@[simp] theorem leNat_leBytes_uint64 (v : UInt64) : leNat (leBytes 8 v.toNat) = v.toNat :=
  leNat_leBytes_of_lt v.toNat_lt

theorem leBytes_leNat (bs : List UInt8) : leBytes bs.length (leNat bs) = bs := by
  induction bs with
  | nil => rfl
  | cons b bs ih =>
      have hb : b.toNat < 256 := b.toNat_lt
      have hdiv : (b.toNat + 256 * leNat bs) / 256 = leNat bs := by omega
      have hlow : UInt8.ofNat (b.toNat + 256 * leNat bs) = b := by
        apply UInt8.toNat.inj
        simp only [UInt8.toNat_ofNat']
        omega
      simp only [List.length_cons, leBytes, leNat, hdiv, ih, hlow]

theorem leNat_append (bs cs : List UInt8) :
    leNat (bs ++ cs) = leNat bs + 256 ^ bs.length * leNat cs := by
  induction bs with
  | nil => simp [leNat]
  | cons b bs ih =>
      simp only [List.cons_append, leNat, ih, List.length_cons]
      ring

theorem leNat_lt (bs : List UInt8) : leNat bs < 256 ^ bs.length := by
  induction bs with
  | nil => simp [leNat]
  | cons b bs ih =>
      have hb : b.toNat < 256 := b.toNat_lt
      have hpow : 256 ^ (bs.length + 1) = 256 * 256 ^ bs.length := by ring
      simp only [leNat, List.length_cons, hpow]
      omega

/-! ## Memory -/

/-- The `n` bytes of `mem` from offset `p`. -/
def readAt (mem : List UInt8) (p n : Nat) : List UInt8 :=
  (mem.drop p).take n

/-- `mem` with `bs` copied over the bytes from offset `p`. -/
def writeAt (mem : List UInt8) (p : Nat) (bs : List UInt8) : List UInt8 :=
  mem.take p ++ bs ++ mem.drop (p + bs.length)

theorem length_readAt {mem : List UInt8} {p n : Nat} (h : p + n ≤ mem.length) :
    (readAt mem p n).length = n := by
  simp only [readAt, List.length_take, List.length_drop]
  omega

theorem length_writeAt {mem : List UInt8} {p : Nat} {bs : List UInt8}
    (h : p + bs.length ≤ mem.length) : (writeAt mem p bs).length = mem.length := by
  simp only [writeAt, List.length_append, List.length_take, List.length_drop]
  omega

@[simp] theorem readAt_zero (mem : List UInt8) (p : Nat) : readAt mem p 0 = [] := by
  simp [readAt]

theorem readAt_append (mem : List UInt8) (p m n : Nat) :
    readAt mem p m ++ readAt mem (p + m) n = readAt mem p (m + n) := by
  simp only [readAt, List.take_add, List.drop_drop]

/-- A write leaves everything below it alone. -/
theorem readAt_writeAt_below {mem : List UInt8} {p q n : Nat} {bs : List UInt8}
    (hq : q + n ≤ p) (hp : p ≤ mem.length) :
    readAt (writeAt mem p bs) q n = readAt mem q n := by
  have hlen : (mem.take p).length = p := by simpa using hp
  have hq' : q ≤ (mem.take p).length := by omega
  have hn : n ≤ ((mem.take p).drop q).length := by simp only [List.length_drop, hlen]; omega
  simp only [readAt, writeAt, List.append_assoc]
  rw [List.drop_append_of_le_length hq', List.take_append_of_le_length hn, List.drop_take,
    List.take_take, Nat.min_eq_left (by omega)]

/-- A write leaves everything above it alone. -/
theorem readAt_writeAt_above {mem : List UInt8} {p q n : Nat} {bs : List UInt8}
    (hq : p + bs.length ≤ q) (hp : p + bs.length ≤ mem.length) :
    readAt (writeAt mem p bs) q n = readAt mem q n := by
  have hlen : (mem.take p ++ bs).length = p + bs.length := by
    simp only [List.length_append, List.length_take]; omega
  simp only [readAt, writeAt]
  rw [List.drop_append, List.drop_eq_nil_of_le (by omega), List.nil_append, List.drop_drop, hlen]
  congr 2
  omega

/-- A read inside a written block reads the written bytes. -/
theorem readAt_writeAt_inside {mem : List UInt8} {p o n : Nat} {bs : List UInt8}
    (hp : p ≤ mem.length) (ho : o + n ≤ bs.length) :
    readAt (writeAt mem p bs) (p + o) n = readAt bs o n := by
  have hlen : (mem.take p).length = p := by simpa using hp
  have hn : n ≤ (bs.drop o).length := by simp only [List.length_drop]; omega
  simp only [readAt, writeAt, List.append_assoc]
  rw [List.drop_append, List.drop_eq_nil_of_le (by omega), List.nil_append, hlen,
    Nat.add_sub_cancel_left, List.drop_append_of_le_length (by omega),
    List.take_append_of_le_length hn]

theorem readAt_writeAt_self {mem : List UInt8} {p : Nat} (bs : List UInt8)
    (h : p ≤ mem.length) : readAt (writeAt mem p bs) p bs.length = bs := by
  have hin := readAt_writeAt_inside h (show 0 + bs.length ≤ bs.length by omega)
  rw [Nat.add_zero] at hin
  rw [hin]
  simp [readAt]

/-- Two writes end to end are one write. -/
theorem writeAt_writeAt_append {mem : List UInt8} {p : Nat} {bs cs : List UInt8}
    (h : p + bs.length ≤ mem.length) :
    writeAt (writeAt mem p bs) (p + bs.length) cs = writeAt mem p (bs ++ cs) := by
  have hlen : (mem.take p ++ bs).length = p + bs.length := by
    simp only [List.length_append, List.length_take]; omega
  have hfront : (writeAt mem p bs).take (p + bs.length) = mem.take p ++ bs := by
    rw [writeAt, List.take_left' hlen]
  have hback : (writeAt mem p bs).drop (p + bs.length + cs.length)
      = mem.drop (p + (bs ++ cs).length) := by
    rw [writeAt, List.drop_append, List.drop_eq_nil_of_le (by omega), List.nil_append, hlen,
      List.drop_drop, List.length_append]
    congr 1
    omega
  rw [writeAt, hfront, hback, writeAt, List.append_assoc (mem.take p)]

/-- Reading from a memory whose tail from `p` on was replaced. -/
theorem readAt_take_append {mem tail : List UInt8} {p : Nat} (o n : Nat) (hp : p ≤ mem.length) :
    readAt (mem.take p ++ tail) (p + o) n = readAt tail o n := by
  have hlen : (mem.take p).length = p := by simpa using hp
  simp only [readAt]
  rw [← List.drop_drop, List.drop_left' hlen]

theorem readAt_append_left {front : List UInt8} (back : List UInt8) {o n : Nat}
    (h : o + n ≤ front.length) : readAt (front ++ back) o n = readAt front o n := by
  simp only [readAt]
  rw [List.drop_append_of_le_length (by omega),
    List.take_append_of_le_length (by simp only [List.length_drop]; omega)]

theorem readAt_self (bs : List UInt8) : readAt bs 0 bs.length = bs := by
  simp [readAt]

end Bytes
