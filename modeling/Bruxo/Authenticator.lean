import Bruxo.Lib.BitGroups
import Bruxo.Lib.Bytes
import Bruxo.Lib.Decimal
import Mathlib.Data.UInt

/-!
# The authenticator

The secret of an account is kept as base32 text, which `decodeSecret` (`iologindata.cpp`) reads, and
the token of a period is made of it by `generateToken` (`tools.cpp`). The hash (HMAC-SHA1) is not
modelled: any function with values of 20 bytes can stand for it.
-/

namespace Bruxo.Authenticator

open BitGroups

/-! ## The secret -/

/-- What `decodeSecret` adds to the buffer for a character. -/
def charValue (ch : UInt8) : Option UInt32 :=
  if 0x41 ≤ ch ∧ ch ≤ 0x5A then some ((ch &&& 0x1F).toUInt32 - 1)
  else if 0x32 ≤ ch ∧ ch ≤ 0x37 then some (ch.toUInt32 - 24)
  else none

/-- The loop of `decodeSecret`: the bits that were given out stay in the buffer until they are
shifted out of it. -/
def decodeLoop : List UInt8 → UInt32 → UInt32 → List UInt8 → List UInt8
  | [], _, _, key => key
  | ch :: secret, buffer, left, key =>
      match charValue ch with
      | none => []
      | some value =>
          let buffer := buffer <<< 5 ||| value
          let left := left + 5
          if 8 ≤ left then
            decodeLoop secret buffer (left - 8) (key ++ [(buffer >>> (left - 8)).toUInt8])
          else decodeLoop secret buffer left key

def decodeSecret (secret : List UInt8) : List UInt8 := decodeLoop secret 0 0 []

/-- The letters `A` to `Z` and the digits `2` to `7`. -/
def letter (v : Nat) : UInt8 :=
  if v < 26 then UInt8.ofNat (0x41 + v) else UInt8.ofNat (0x32 + (v - 26))

/-- Base32 without padding: each five bits as a character, with zeros behind the last ones. -/
def base32 (key : List UInt8) : List UInt8 :=
  (groups 5 (key.flatMap fun b => bits 8 b.toNat)).map letter

section Decode

theorem charValue_letter {v : Nat} (hv : v < 2 ^ 5) :
    charValue (letter v) = some (UInt32.ofNat v) := by
  have hall : ∀ v : Fin 32, charValue (letter v) = some (UInt32.ofNat v) := by decide
  exact hall ⟨v, hv⟩

/-- The low bits of the buffer after a character; the others are bits that were given out. -/
theorem bits_buffer (buffer : UInt32) {v left : Nat} (hv : v < 2 ^ 5) (hleft : left < 8) :
    bits (left + 5) (buffer <<< 5 ||| UInt32.ofNat v).toNat =
      bits left buffer.toNat ++ bits 5 v := by
  have hvalue : (UInt32.ofNat v).toNat = v := Bytes.toNat_ofNat_uint32 (by omega)
  have hbuffer : (buffer <<< 5 ||| UInt32.ofNat v).toNat = buffer.toNat <<< 5 % 2 ^ 32 ||| v := by
    rw [UInt32.toNat_or, hvalue, UInt32.toNat_shiftLeft]
    rfl
  rw [bits_add, hbuffer]
  congr 1
  · refine bits_congr fun i hi => ?_
    have hzero : v.testBit (5 + i) = false :=
      Nat.testBit_lt_two_pow (hv.trans_le (Nat.pow_le_pow_right (by omega) (Nat.le_add_right _ _)))
    have hin : 5 + i < 32 := by omega
    rw [Nat.testBit_shiftRight, Nat.testBit_or, hzero, Nat.testBit_mod_two_pow,
      Nat.testBit_shiftLeft]
    simp [hin]
  · refine bits_congr fun i hi => ?_
    have hlow : ¬ 5 ≤ i := Nat.not_le.mpr hi
    rw [Nat.testBit_or, Nat.testBit_mod_two_pow, Nat.testBit_shiftLeft]
    simp [hlow]

/-- The eight bits that are given out, and the rest. -/
theorem bits_out (buffer : UInt32) {left : Nat} (hleft : left < 8) :
    ∃ v < 2 ^ 8, UInt8.ofNat v = (buffer >>> UInt32.ofNat left).toUInt8 ∧
      bits (8 + left) buffer.toNat = bits 8 v ++ bits left buffer.toNat := by
  refine ⟨(buffer.toNat >>> left) % 2 ^ 8, Nat.mod_lt _ (Nat.two_pow_pos 8), ?_, ?_⟩
  · have hcount : (UInt32.ofNat left).toNat % 32 = left := by
      rw [Bytes.toNat_ofNat_uint32 (by omega)]
      omega
    refine UInt8.toNat.inj ?_
    rw [UInt32.toNat_toUInt8, UInt32.toNat_shiftRight, hcount, UInt8.toNat_ofNat', Nat.mod_mod]
  · rw [bits_add]
    congr 1
    refine bits_congr fun i hi => ?_
    rw [Nat.testBit_mod_two_pow, decide_eq_true hi, Bool.true_and]

/-- The loop gives out eight bits at a time of those that are left and those of the characters. -/
theorem decodeLoop_eq {vs : List Nat} (hvs : ∀ v ∈ vs, v < 2 ^ 5) (buffer : UInt32) {left : Nat}
    (hleft : left < 8) (key : List UInt8) :
    decodeLoop (vs.map letter) buffer (UInt32.ofNat left) key =
      key ++ (wholeGroups 8 (bits left buffer.toNat ++ vs.flatMap (bits 5))).map UInt8.ofNat := by
  induction vs generalizing buffer left key with
  | nil =>
      have hfew : (bits left buffer.toNat ++ [].flatMap (bits 5)).length < 8 := by
        rw [List.flatMap_nil, List.append_nil, length_bits]
        exact hleft
      rw [wholeGroups, dif_pos (.inl hfew), List.map_nil, List.map_nil, decodeLoop, List.append_nil]
  | cons v vs ih =>
      have hv := hvs v List.mem_cons_self
      have hrest : ∀ u ∈ vs, u < 2 ^ 5 := fun u hu => hvs u (List.mem_cons_of_mem _ hu)
      have hbits := bits_buffer buffer hv hleft
      have hadd : UInt32.ofNat left + 5 = UInt32.ofNat (left + 5) := (UInt32.ofNat_add left 5).symm
      have hcount : (UInt32.ofNat (left + 5)).toNat = left + 5 := Bytes.toNat_ofNat_uint32 (by omega)
      rw [List.map_cons, List.flatMap_cons, ← List.append_assoc, ← hbits, decodeLoop,
        charValue_letter hv]
      dsimp only
      rw [hadd]
      by_cases hfull : 8 ≤ left + 5
      · obtain ⟨rest, hsum⟩ : ∃ rest, left + 5 = 8 + rest := ⟨left - 3, by omega⟩
        have hsub : UInt32.ofNat (left + 5) - 8 = UInt32.ofNat rest := by
          rw [hsum, Nat.add_comm, UInt32.ofNat_add]
          exact UInt32.add_sub_cancel _ _
        have hle : 8 ≤ UInt32.ofNat (left + 5) := by
          rw [UInt32.le_iff_toNat_le, hcount]
          exact hfull
        obtain ⟨w, hw, hbyte, hsplit⟩ :=
          bits_out (buffer <<< 5 ||| UInt32.ofNat v) (show rest < 8 by omega)
        rw [if_pos hle, hsub, ih hrest _ (by omega), ← hbyte, hsum, hsplit,
          List.append_assoc (bits 8 w), wholeGroups_bits_append (by omega) hw, List.map_cons,
          List.append_assoc key]
        rfl
      · have hnot : ¬ 8 ≤ UInt32.ofNat (left + 5) := by
          rw [UInt32.le_iff_toNat_le, hcount]
          exact hfull
        rw [if_neg hnot, ih hrest _ (Nat.not_le.mp hfull)]

theorem decodeSecret_base32 (key : List UInt8) : decodeSecret (base32 key) = key := by
  have hbits : (key.flatMap fun b => bits 8 b.toNat) = (key.map UInt8.toNat).flatMap (bits 8) := by
    rw [List.flatMap_map]
  have hbytes : ∀ v ∈ key.map UInt8.toNat, v < 2 ^ 8 := by
    intro v hv
    obtain ⟨b, -, rfl⟩ := List.mem_map.mp hv
    exact b.toNat_lt
  have hgroups : ∀ v ∈ groups 5 ((key.map UInt8.toNat).flatMap (bits 8)), v < 2 ^ 5 := groups_lt
  have hloop := decodeLoop_eq hgroups 0 (show 0 < 8 by omega) []
  have hwhole := wholeGroups_groups (show 8 ≠ 0 by omega) (show 5 ≠ 0 by omega)
    (show 5 ≤ 8 by omega) hbytes
  have hstart : bits 0 (UInt32.toNat 0) = [] := rfl
  rw [hstart, List.nil_append, List.nil_append, hwhole, List.map_map] at hloop
  have hback : UInt8.ofNat ∘ UInt8.toNat = id := funext fun b => UInt8.ofNat_toNat
  rw [decodeSecret, base32, hbits]
  rw [hback, List.map_id] at hloop
  exact hloop

/-- A character outside the alphabet empties the key. -/
theorem decodeLoop_broken {secret : List UInt8} {ch : UInt8} (hmem : ch ∈ secret)
    (hbroken : charValue ch = none) (buffer left : UInt32) (key : List UInt8) :
    decodeLoop secret buffer left key = [] := by
  induction secret generalizing buffer left key with
  | nil => exact absurd hmem List.not_mem_nil
  | cons c secret ih =>
      rw [decodeLoop]
      cases hvalue : charValue c with
      | none => rfl
      | some value =>
          have hrest : ch ∈ secret := by
            rcases List.mem_cons.mp hmem with rfl | hrest
            · rw [hbroken] at hvalue
              cases hvalue
            · exact hrest
          dsimp only
          split
          · exact ih hrest _ _ _
          · exact ih hrest _ _ _

/-- Reading base32 gives back what was written, and whatever has another character is read as
nothing. -/
theorem decode_secret :
    (∀ key, decodeSecret (base32 key) = key) ∧
      ∀ secret, ∀ ch ∈ secret, ¬ (0x41 ≤ ch ∧ ch ≤ 0x5A) → ¬ (0x32 ≤ ch ∧ ch ≤ 0x37) →
        decodeSecret secret = [] := by
  refine ⟨decodeSecret_base32, fun secret ch hmem hletter hdigit => ?_⟩
  have hbroken : charValue ch = none := by
    rw [charValue, if_neg hletter, if_neg hdigit]
  exact decodeLoop_broken hmem hbroken 0 0 []

end Decode

/-! ## The token -/

/-- The HMAC-SHA1 of a key and a message. -/
abbrev Hash := List UInt8 → List UInt8 → Vector UInt8 20

/-- The loop that writes the counter into the message, at the places below `i` but the first one:
`--i` is tested before the body. -/
def fillCounter : Nat → UInt64 → List UInt8 → List UInt8
  | 0, _, mac => mac
  | 1, _, mac => mac
  | i + 2, counter, mac =>
      fillCounter (i + 1) (counter >>> 8) (mac.set (i + 1) (counter % 256).toUInt8)

/-- The last byte but for its high bits. -/
def hashOffset (mac : Vector UInt8 20) : Nat := mac[19].toNat % 16

theorem hashOffset_lt (mac : Vector UInt8 20) : hashOffset mac < 16 := Nat.mod_lt _ (by omega)

/-- The four bytes at the offset. -/
def truncatedHash (mac : Vector UInt8 20) : UInt32 :=
  have := hashOffset_lt mac
  mac[hashOffset mac].toUInt32 <<< 24 ||| mac[hashOffset mac + 1].toUInt32 <<< 16 |||
    mac[hashOffset mac + 2].toUInt32 <<< 8 ||| mac[hashOffset mac + 3].toUInt32

structure TokenCall where
  /-- the key and the message of which the hash is asked -/
  asked : List UInt8 × List UInt8
  /-- nothing where `std::out_of_range` is thrown -/
  token : Option Decimal.Text
  deriving DecidableEq

def generateToken (hmac : Hash) (key : List UInt8) (counter length : UInt64) : TokenCall :=
  let message := fillCounter 8 counter (List.replicate 8 0)
  let text := Decimal.ofNat (truncatedHash (hmac key message) &&& 0x7FFFFFFF).toNat
  let pos := (UInt64.ofNat text.length - length).toNat
  { asked := (key, message)
    token := if text.length < pos then none else some (text.drop pos) }

/-! ## What the token is for -/

/-- The counter as the message of which the hash is to be asked. -/
def bigEndian (counter : UInt64) : List UInt8 := (Bytes.leBytes 8 counter.toNat).reverse

/-- The last 31 bits of the four bytes at the offset that the last four bits give. -/
def dynamicTruncation (mac : Vector UInt8 20) : Nat :=
  have := hashOffset_lt mac
  (mac[hashOffset mac].toNat * 256 ^ 3 + mac[hashOffset mac + 1].toNat * 256 ^ 2 +
    mac[hashOffset mac + 2].toNat * 256 + mac[hashOffset mac + 3].toNat) % 2 ^ 31

/-- The token that is meant. -/
def hotp (hmac : Hash) (key : List UInt8) (counter length : UInt64) : TokenCall where
  asked := (key, bigEndian counter)
  token := some (Decimal.fixed length.toNat
    (dynamicTruncation (hmac key (bigEndian counter)) % 10 ^ length.toNat))

section Token

theorem toNat_shift {b : UInt8} {k : UInt32} (hk : k.toNat ≤ 24) :
    (b.toUInt32 <<< k).toNat = b.toNat <<< k.toNat := by
  have hmod : k.toNat % 32 = k.toNat := Nat.mod_eq_of_lt (by omega)
  have hpow : 2 ^ k.toNat ≤ 2 ^ 24 := Nat.pow_le_pow_right (by omega) hk
  have hlt : b.toNat <<< k.toNat < 2 ^ 32 := by
    rw [Nat.shiftLeft_eq]
    calc b.toNat * 2 ^ k.toNat < 2 ^ 8 * 2 ^ k.toNat :=
          Nat.mul_lt_mul_of_pos_right b.toNat_lt (Nat.two_pow_pos _)
      _ ≤ 2 ^ 8 * 2 ^ 24 := Nat.mul_le_mul_left _ hpow
  rw [UInt32.toNat_shiftLeft, UInt8.toNat_toUInt32, hmod, Nat.mod_eq_of_lt hlt]

/-- A number with eight bits put behind it, and `k` free ones. -/
theorem or_shift (n : Nat) (b : UInt8) (k : Nat) :
    n <<< (k + 8) ||| b.toNat <<< k = (n * 256 + b.toNat) <<< k := by
  have hb : b.toNat < 2 ^ 8 := b.toNat_lt
  rw [Nat.add_comm k 8, Nat.shiftLeft_add, ← Nat.shiftLeft_or_distrib,
    ← Nat.shiftLeft_add_eq_or_of_lt hb, Nat.shiftLeft_eq n 8]

/-- The four bytes as one number. -/
theorem word_eq (a b c d : UInt8) :
    (a.toUInt32 <<< 24 ||| b.toUInt32 <<< 16 ||| c.toUInt32 <<< 8 ||| d.toUInt32).toNat =
      a.toNat * 256 ^ 3 + b.toNat * 256 ^ 2 + c.toNat * 256 + d.toNat := by
  have ha : (a.toUInt32 <<< 24).toNat = a.toNat <<< (16 + 8) := toNat_shift (by decide)
  have hb : (b.toUInt32 <<< 16).toNat = b.toNat <<< 16 := toNat_shift (by decide)
  have hc : (c.toUInt32 <<< 8).toNat = c.toNat <<< 8 := toNat_shift (by decide)
  have hd : d.toUInt32.toNat = d.toNat <<< 0 := UInt8.toNat_toUInt32 d
  rw [UInt32.toNat_or, UInt32.toNat_or, UInt32.toNat_or, ha, hb, hc, hd, or_shift]
  have hthird := or_shift (a.toNat * 256 + b.toNat) c 8
  have hlast := or_shift ((a.toNat * 256 + b.toNat) * 256 + c.toNat) d 0
  rw [hthird, hlast, Nat.shiftLeft_zero]
  ring

theorem truncatedHash_eq (mac : Vector UInt8 20) :
    (truncatedHash mac &&& 0x7FFFFFFF).toNat = dynamicTruncation mac := by
  have hmask : (0x7FFFFFFF : UInt32).toNat = 2 ^ 31 - 1 := rfl
  rw [UInt32.toNat_and, hmask, Nat.and_two_pow_sub_one_eq_mod, truncatedHash, word_eq]
  rfl

/-- The loop fills the places behind the first one, down from the last. -/
theorem fillCounter_eq (i : Nat) (counter : UInt64) {mac : List UInt8} (h : i < mac.length) :
    fillCounter (i + 1) counter mac =
      mac.take 1 ++ (Bytes.leBytes i counter.toNat).reverse ++ mac.drop (i + 1) := by
  induction i generalizing counter mac with
  | zero =>
      rw [fillCounter, Bytes.leBytes, List.reverse_nil, List.append_nil, List.take_append_drop]
  | succ i ih =>
      have hbyte : (counter % 256).toUInt8 = UInt8.ofNat counter.toNat := by
        refine UInt8.toNat.inj ?_
        rw [UInt64.toNat_toUInt8, UInt64.toNat_mod, UInt8.toNat_ofNat']
        exact Nat.mod_mod _ _
      have hshift : (counter >>> 8).toNat = counter.toNat / 256 := by
        rw [UInt64.toNat_shiftRight, Nat.shiftRight_eq_div_pow]
        rfl
      have hlength : i < (mac.set (i + 1) (counter % 256).toUInt8).length := by
        rw [List.length_set]
        exact Nat.lt_of_succ_lt h
      have hfirst : (mac.set (i + 1) (counter % 256).toUInt8).take 1 = mac.take 1 :=
        List.take_set_of_le (Nat.le_add_left 1 i)
      have hlast : (mac.set (i + 1) (counter % 256).toUInt8).drop (i + 1) =
          (counter % 256).toUInt8 :: mac.drop (i + 1 + 1) := by
        rw [List.drop_set, if_neg (Nat.lt_irrefl _), Nat.sub_self, List.drop_eq_getElem_cons h,
          List.set_cons_zero]
      rw [fillCounter, ih _ hlength, hfirst, hlast, hshift, hbyte, Bytes.leBytes,
        List.reverse_cons, List.append_assoc, List.append_assoc, List.append_assoc]
      rfl

/-- The message has the seven low bytes of the counter. -/
theorem message_eq (counter : UInt64) :
    fillCounter 8 counter (List.replicate 8 0) =
      0 :: (Bytes.leBytes 7 counter.toNat).reverse := by
  have hfill := fillCounter_eq 7 counter (show 7 < (List.replicate 8 (0 : UInt8)).length by decide)
  have hfirst : (List.replicate 8 (0 : UInt8)).take 1 = [0] := rfl
  have hnone : (List.replicate 8 (0 : UInt8)).drop 8 = [] := rfl
  rw [hfill, hfirst, hnone, List.append_nil, List.singleton_append]

theorem message_iff (counter : UInt64) :
    fillCounter 8 counter (List.replicate 8 0) = bigEndian counter ↔ counter.toNat < 2 ^ 56 := by
  have hlast : bigEndian counter =
      UInt8.ofNat (counter.toNat / 2 ^ 56) :: (Bytes.leBytes 7 counter.toNat).reverse := by
    rw [bigEndian, Bytes.leBytes_succ, List.reverse_append, List.reverse_singleton,
      List.singleton_append]
    rfl
  have hcounter : counter.toNat < 2 ^ 64 := counter.toNat_lt
  rw [message_eq, hlast]
  constructor
  · intro h
    have hzero : (0 : UInt8).toNat = (UInt8.ofNat (counter.toNat / 2 ^ 56)).toNat :=
      congrArg UInt8.toNat (List.cons.inj h).1
    rw [UInt8.toNat_ofNat'] at hzero
    have hzero : 0 = counter.toNat / 2 ^ 56 % 2 ^ 8 := hzero
    omega
  · intro h
    rw [Nat.div_eq_of_lt h]
    rfl

theorem dynamicTruncation_lt (mac : Vector UInt8 20) : dynamicTruncation mac < 2 ^ 31 :=
  Nat.mod_lt _ (Nat.two_pow_pos 31)

/-- The position of the token in a text is in the text if the text is as long as the token. -/
theorem pos_spec {size : Nat} (hsize : size < 2 ^ 64) (length : UInt64) :
    if length.toNat ≤ size then (UInt64.ofNat size - length).toNat = size - length.toNat
      else size < (UInt64.ofNat size - length).toNat := by
  have hcount : (UInt64.ofNat size).toNat = size := by
    rw [UInt64.toNat_ofNat', Nat.mod_eq_of_lt hsize]
  have hlength : length.toNat < 2 ^ 64 := length.toNat_lt
  rw [UInt64.toNat_sub, hcount]
  split <;> omega

/-- The token of the message of which the hash is asked. -/
theorem generateToken_token (hmac : Hash) (key : List UInt8) (counter length : UInt64) :
    (generateToken hmac key counter length).token =
      let n := dynamicTruncation (hmac key (generateToken hmac key counter length).asked.2)
      if length.toNat ≤ 1 ∨ 10 ^ (length.toNat - 1) ≤ n then
        some (Decimal.fixed length.toNat (n % 10 ^ length.toNat))
      else none := by
  rw [generateToken]
  dsimp only
  rw [truncatedHash_eq]
  have hn := dynamicTruncation_lt (hmac key (fillCounter 8 counter (List.replicate 8 0)))
  generalize dynamicTruncation (hmac key (fillCounter 8 counter (List.replicate 8 0))) = n at hn ⊢
  have hdigits : (Decimal.ofNat n).length ≤ 10 :=
    (Nat.length_toDigits_le_iff (by omega) (by omega)).mpr (by omega)
  have hpos := pos_spec (show (Decimal.ofNat n).length < 2 ^ 64 by omega) length
  rw [Decimal.fixed_mod]
  by_cases hlong : length.toNat ≤ (Decimal.ofNat n).length
  · rw [if_pos hlong] at hpos
    rw [if_pos (Decimal.le_length_ofNat.mp hlong), hpos, if_neg (Nat.not_lt.mpr (Nat.sub_le _ _)),
      Decimal.drop_ofNat hlong]
  · rw [if_neg hlong] at hpos
    rw [if_neg fun h => hlong (Decimal.le_length_ofNat.mpr h), if_pos hpos]

/-- The token is the one that is meant if the counter has no more than seven bytes and the
truncated hash as many digits as the token. -/
theorem generateToken_iff (hmac : Hash) (key : List UInt8) (counter length : UInt64) :
    generateToken hmac key counter length = hotp hmac key counter length ↔
      counter.toNat < 2 ^ 56 ∧
        (length.toNat ≤ 1 ∨
          10 ^ (length.toNat - 1) ≤ dynamicTruncation (hmac key (bigEndian counter))) := by
  have hasked : (generateToken hmac key counter length).asked =
      (key, fillCounter 8 counter (List.replicate 8 0)) := rfl
  have htoken := generateToken_token hmac key counter length
  dsimp only at htoken
  rw [hasked] at htoken
  rw [← message_iff]
  constructor
  · intro h
    have hmessage : fillCounter 8 counter (List.replicate 8 0) = bigEndian counter :=
      congrArg (fun call => call.asked.2) h
    refine ⟨hmessage, ?_⟩
    by_contra hshort
    rw [hmessage, if_neg hshort, h] at htoken
    cases htoken
  · rintro ⟨hmessage, hlong⟩
    rw [hmessage] at hasked htoken
    rw [if_pos hlong] at htoken
    cases hcall : generateToken hmac key counter length with
    | mk asked token =>
        rw [hcall] at hasked htoken
        rw [hotp, ← hasked, ← htoken]

/-- The six digits of a hash of zeros are one too many. -/
theorem generateToken_throws :
    generateToken (fun _ _ => Vector.replicate 20 0) [] 0 6 ≠
      hotp (fun _ _ => Vector.replicate 20 0) [] 0 6 := by
  intro h
  have htoken := congrArg TokenCall.token h
  have hnone : (generateToken (fun _ _ => Vector.replicate 20 0) [] 0 6).token = none := by decide
  rw [hnone] at htoken
  cases htoken

end Token

end Bruxo.Authenticator
