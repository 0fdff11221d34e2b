import Bruxo.Lib.Bytes

/-!
# XTEA

The block cipher of the game protocol (`xtea.cpp`). The round keys are
expanded once, in pairs; `encrypt` and `decrypt` then sweep the whole
buffer once per pair, forwards and backwards through the pairs.

A sweep touches each 8-byte block on its own (`sweep_append`), and one
decryption half-cycle undoes one encryption half-cycle on every block
(`sweep_inverse`), so the two loops, which run through the pairs in
opposite orders, undo each other (`foldr_foldl_inverse`).
-/

namespace Bruxo

namespace Xtea

open Bytes

/-! ## Keys -/

/-- `xtea::key`. -/
abbrev Key := Vector UInt32 4

/-- `xtea::round_keys`. -/
abbrev RoundKeys := Vector UInt32 64

def delta : UInt32 := 0x9E3779B9

/-- `k[n & 3]`. -/
def Key.word (k : Key) (n : UInt32) : UInt32 :=
  k.get ⟨(n &&& 3).toNat, by
    rw [UInt32.toNat_and]
    exact Nat.lt_of_le_of_lt Nat.and_le_right (by decide)⟩

/-- `n` iterations of the loop of `expand_key`, which fills two round keys
an iteration. -/
def expandLoop (k : Key) : (n : Nat) → (sum nextSum : UInt32) → List UInt32
  | 0, _, _ => []
  | n + 1, sum, nextSum =>
      (sum + k.word sum) :: (nextSum + k.word (nextSum >>> 11))
        :: expandLoop k n nextSum (nextSum + delta)

theorem length_expandLoop (k : Key) (n : Nat) (sum nextSum : UInt32) :
    (expandLoop k n sum nextSum).length = 2 * n := by
  induction n generalizing sum nextSum with
  | zero => rfl
  | succ n ih => simp only [expandLoop, List.length_cons, ih]; omega

/-- `xtea::expand_key`. -/
def expandKey (k : Key) : RoundKeys :=
  ⟨(expandLoop k 32 0 delta).toArray, by
    rw [List.size_toArray, length_expandLoop]⟩

/-! ## Half-cycles -/

def load32 (bs : List UInt8) : UInt32 := UInt32.ofNat (leNat bs)

def store32 (w : UInt32) : List UInt8 := leBytes 4 w.toNat

@[simp] theorem length_store32 (w : UInt32) : (store32 w).length = 4 := by
  simp [store32]

@[simp] theorem load32_store32 (w : UInt32) : load32 (store32 w) = w := by
  rw [load32, store32, leNat_leBytes_uint32, UInt32.ofNat_toNat]

theorem store32_load32 {bs : List UInt8} (h : bs.length = 4) : store32 (load32 bs) = bs := by
  have hlt : leNat bs < 2 ^ 32 := by
    have := leNat_lt bs
    rwa [h] at this
  rw [store32, load32, toNat_ofNat_uint32 hlt, ← h, leBytes_leNat]

/-- `((w << 4 ^ w >> 5) + w) ^ k`. -/
def mix (w k : UInt32) : UInt32 := (((w <<< 4) ^^^ (w >>> 5)) + w) ^^^ k

/-- The body of the inner loop of `xtea::encrypt` on the words of a block. -/
def encryptWords (k₀ k₁ : UInt32) (w : UInt32 × UInt32) : UInt32 × UInt32 :=
  let left := w.1 + mix w.2 k₀
  (left, w.2 + mix left k₁)

/-- The body of the inner loop of `xtea::decrypt` on the words of a block. -/
def decryptWords (k₀ k₁ : UInt32) (w : UInt32 × UInt32) : UInt32 × UInt32 :=
  let right := w.2 - mix w.1 k₁
  (w.1 - mix right k₀, right)

theorem decryptWords_encryptWords (k₀ k₁ : UInt32) (w : UInt32 × UInt32) :
    decryptWords k₀ k₁ (encryptWords k₀ k₁ w) = w := by
  simp only [decryptWords, encryptWords, UInt32.add_sub_cancel]

theorem encryptWords_decryptWords (k₀ k₁ : UInt32) (w : UInt32 × UInt32) :
    encryptWords k₀ k₁ (decryptWords k₀ k₁ w) = w := by
  simp only [decryptWords, encryptWords, UInt32.sub_add_cancel]

/-! ## Sweeps -/

/-- One block: `memcpy` in, the words step, `memcpy` out. -/
def onBlock (f : UInt32 × UInt32 → UInt32 × UInt32) (b : List UInt8) : List UInt8 :=
  let w := f (load32 (b.take 4), load32 (b.drop 4))
  store32 w.1 ++ store32 w.2

/-- The inner loop `for (it = data; it < data + length; it += 8)`, `n` turns
of it. -/
def sweep (f : UInt32 × UInt32 → UInt32 × UInt32) : (n : Nat) → List UInt8 → List UInt8
  | 0, data => data
  | n + 1, data => onBlock f (data.take 8) ++ sweep f n (data.drop 8)

/-- How often the inner loop turns for a buffer of `length` bytes. -/
def turns (length : Nat) : Nat := (length + 7) / 8

/-- The outer loop: one sweep for each element of `l`. -/
def sweeps {α : Type} (f : α → UInt32 × UInt32 → UInt32 × UInt32) (l : List α) (n : Nat)
    (data : List UInt8) : List UInt8 :=
  l.foldl (fun d a => sweep (f a) n d) data

/-- `xtea::encrypt(data, length, k)`; `data` reaches to the end of the memory
the pointer is into, the loop stops by `length`. -/
def encrypt (data : List UInt8) (length : Nat) (k : RoundKeys) : List UInt8 :=
  sweeps (fun i : Fin 32 => encryptWords k[2 * i.val] k[2 * i.val + 1]) (List.finRange 32)
    (turns length) data

/-- `xtea::decrypt(data, length, k)`: the pairs from the last to the first. -/
def decrypt (data : List UInt8) (length : Nat) (k : RoundKeys) : List UInt8 :=
  sweeps (fun i : Fin 32 => decryptWords k[2 * i.val] k[2 * i.val + 1]) (List.finRange 32).reverse
    (turns length) data

@[simp] theorem length_onBlock (f : UInt32 × UInt32 → UInt32 × UInt32) (b : List UInt8) :
    (onBlock f b).length = 8 := by
  simp [onBlock]

theorem length_sweep (f : UInt32 × UInt32 → UInt32 × UInt32) {n : Nat} {data : List UInt8}
    (h : 8 * n ≤ data.length) : (sweep f n data).length = data.length := by
  induction n generalizing data with
  | zero => rfl
  | succ n ih =>
      have hrest : 8 * n ≤ (data.drop 8).length := by simp only [List.length_drop]; omega
      simp only [sweep, List.length_append, length_onBlock, ih hrest, List.length_drop]
      omega

/-- A sweep over `n` blocks leaves what comes after them alone. -/
theorem sweep_append (f : UInt32 × UInt32 → UInt32 × UInt32) {m : Nat} (n : Nat)
    {front : List UInt8} (back : List UInt8) (h : front.length = 8 * m) :
    sweep f (m + n) (front ++ back) = sweep f m front ++ sweep f n back := by
  induction m generalizing front with
  | zero =>
      obtain rfl := List.eq_nil_of_length_eq_zero h
      simp [sweep]
  | succ m ih =>
      have hrest : (front.drop 8).length = 8 * m := by simp only [List.length_drop]; omega
      have hfront : 8 ≤ front.length := by omega
      rw [Nat.succ_add_eq_add_succ, Nat.add_succ, sweep, sweep,
        List.take_append_of_le_length hfront, List.drop_append_of_le_length hfront, ih hrest,
        List.append_assoc]

/-- A words step undone by another is undone on a whole block. -/
theorem onBlock_inverse {f g : UInt32 × UInt32 → UInt32 × UInt32}
    (hgf : ∀ w, g (f w) = w) {b : List UInt8} (h : b.length = 8) :
    onBlock g (onBlock f b) = b := by
  have htake : (b.take 4).length = 4 := by simp only [List.length_take]; omega
  have hdrop : (b.drop 4).length = 4 := by simp only [List.length_drop]; omega
  have hwords : ∀ w : UInt32 × UInt32,
      (load32 ((store32 w.1 ++ store32 w.2).take 4),
        load32 ((store32 w.1 ++ store32 w.2).drop 4)) = w := by
    intro w
    rw [List.take_left' (length_store32 _), List.drop_left' (length_store32 _),
      load32_store32, load32_store32]
  simp only [onBlock, hwords, hgf, store32_load32 htake, store32_load32 hdrop,
    List.take_append_drop]

theorem sweep_inverse {f g : UInt32 × UInt32 → UInt32 × UInt32} (hgf : ∀ w, g (f w) = w)
    {n : Nat} {data : List UInt8} (h : 8 * n ≤ data.length) :
    sweep g n (sweep f n data) = data := by
  induction n generalizing data with
  | zero => rfl
  | succ n ih =>
      have hrest : 8 * n ≤ (data.drop 8).length := by simp only [List.length_drop]; omega
      have hblock : (data.take 8).length = 8 := by simp only [List.length_take]; omega
      rw [sweep, sweep, List.take_left' (length_onBlock _ _), List.drop_left' (length_onBlock _ _),
        onBlock_inverse hgf hblock, ih hrest, List.take_append_drop]

/-! ## The loops over the round keys -/

section Sweeps

variable {α : Type} {f g : α → UInt32 × UInt32 → UInt32 × UInt32}

theorem length_sweeps {l : List α} {n : Nat} {data : List UInt8} (h : 8 * n ≤ data.length) :
    (sweeps f l n data).length = data.length := by
  induction l generalizing data with
  | nil => rfl
  | cons a l ih =>
      have hlen := length_sweep (f a) h
      rw [sweeps, List.foldl_cons, ← sweeps, ih (by omega), hlen]

/-- A loop over a list, then the loop of the inverse steps back over it. -/
theorem sweeps_inverse (hgf : ∀ a w, g a (f a w) = w) {l : List α} {n : Nat}
    {data : List UInt8} (h : 8 * n ≤ data.length) :
    sweeps g l.reverse n (sweeps f l n data) = data := by
  induction l generalizing data with
  | nil => rfl
  | cons a l ih =>
      have hlen := length_sweep (f a) h
      have hback : sweeps g l.reverse n (sweeps f l n (sweep (f a) n data)) = sweep (f a) n data :=
        ih (by omega)
      simp only [sweeps, List.reverse_cons, List.foldl_append, List.foldl_cons, List.foldl_nil]
        at hback ⊢
      rw [hback, sweep_inverse (hgf a) h]

theorem sweeps_append {l : List α} {m : Nat} (n : Nat) {front : List UInt8} (back : List UInt8)
    (h : front.length = 8 * m) :
    sweeps f l (m + n) (front ++ back) = sweeps f l m front ++ sweeps f l n back := by
  induction l generalizing front back with
  | nil => rfl
  | cons a l ih =>
      have hlen := length_sweep (f a) (show 8 * m ≤ front.length by omega)
      simp only [sweeps, List.foldl_cons] at ih ⊢
      rw [sweep_append (f a) n back h, ih _ (by omega)]

theorem sweeps_zero (l : List α) (data : List UInt8) : sweeps f l 0 data = data := by
  induction l with
  | nil => rfl
  | cons a l ih => exact ih

end Sweeps

/-! ## Encryption and decryption -/

theorem turns_eight_mul_add (m length : Nat) : turns (8 * m + length) = m + turns length := by
  simp only [turns]
  omega

theorem turns_eight_mul (m : Nat) : turns (8 * m) = m := by
  simp only [turns]
  omega

theorem turns_of_dvd {length : Nat} (h : length % 8 = 0) : 8 * turns length = length := by
  simp only [turns]
  omega

theorem length_encrypt {data : List UInt8} {length : Nat} (k : RoundKeys)
    (h : 8 * turns length ≤ data.length) : (encrypt data length k).length = data.length :=
  length_sweeps h

theorem length_decrypt {data : List UInt8} {length : Nat} (k : RoundKeys)
    (h : 8 * turns length ≤ data.length) : (decrypt data length k).length = data.length :=
  length_sweeps h

theorem decrypt_encrypt {data : List UInt8} {length : Nat} (k : RoundKeys)
    (h : 8 * turns length ≤ data.length) : decrypt (encrypt data length k) length k = data :=
  sweeps_inverse (fun _ => decryptWords_encryptWords _ _) h

theorem encrypt_decrypt {data : List UInt8} {length : Nat} (k : RoundKeys)
    (h : 8 * turns length ≤ data.length) : encrypt (decrypt data length k) length k = data := by
  have hinv := sweeps_inverse (l := (List.finRange 32).reverse)
    (fun i : Fin 32 => encryptWords_decryptWords k[2 * i.val] k[2 * i.val + 1]) h
  rwa [List.reverse_reverse] at hinv

/-- The blocks before a block boundary and the memory after it do not see
each other. -/
theorem encrypt_append {m : Nat} {front : List UInt8} (back : List UInt8) (length : Nat)
    (k : RoundKeys) (h : front.length = 8 * m) :
    encrypt (front ++ back) (8 * m + length) k
      = encrypt front (8 * m) k ++ encrypt back length k := by
  unfold encrypt
  rw [turns_eight_mul_add, turns_eight_mul, sweeps_append _ back h]

theorem decrypt_append {m : Nat} {front : List UInt8} (back : List UInt8) (length : Nat)
    (k : RoundKeys) (h : front.length = 8 * m) :
    decrypt (front ++ back) (8 * m + length) k
      = decrypt front (8 * m) k ++ decrypt back length k := by
  unfold decrypt
  rw [turns_eight_mul_add, turns_eight_mul, sweeps_append _ back h]

theorem encrypt_prefix {data : List UInt8} {length : Nat} (k : RoundKeys)
    (hdvd : length % 8 = 0) (hle : length ≤ data.length) :
    encrypt data length k = encrypt (data.take length) length k ++ data.drop length := by
  have hblocks : length = 8 * (length / 8) := by omega
  have hsplit := encrypt_append (data.drop length) 0 k
    (show (data.take length).length = 8 * (length / 8) by rw [List.length_take_of_le hle, ← hblocks])
  rw [List.take_append_drop, Nat.add_zero, ← hblocks] at hsplit
  rw [hsplit]
  exact congrArg _ (sweeps_zero _ _)

theorem decrypt_prefix {data : List UInt8} {length : Nat} (k : RoundKeys)
    (hdvd : length % 8 = 0) (hle : length ≤ data.length) :
    decrypt data length k = decrypt (data.take length) length k ++ data.drop length := by
  have hblocks : length = 8 * (length / 8) := by omega
  have hsplit := decrypt_append (data.drop length) 0 k
    (show (data.take length).length = 8 * (length / 8) by rw [List.length_take_of_le hle, ← hblocks])
  rw [List.take_append_drop, Nat.add_zero, ← hblocks] at hsplit
  rw [hsplit]
  exact congrArg _ (sweeps_zero _ _)

/-- A transformation that splits at block boundaries is its action on single
blocks, mapped over the blocks. -/
theorem flatten_of_append {t : List UInt8 → Nat → List UInt8} (hnil : t [] 0 = [])
    (happ : ∀ front back, front.length = 8 →
      t (front ++ back) (8 + back.length) = t front 8 ++ t back back.length) :
    ∀ {blocks : List (List UInt8)}, (∀ b ∈ blocks, b.length = 8) →
      t blocks.flatten blocks.flatten.length = (blocks.map (t · 8)).flatten
  | [], _ => hnil
  | b :: blocks, h => by
      have hb : b.length = 8 := h b (by simp)
      have hrest := flatten_of_append hnil happ fun c hc => h c (List.mem_cons_of_mem b hc)
      rw [List.flatten_cons, List.length_append, hb, happ b _ hb, hrest, List.map_cons,
        List.flatten_cons]

theorem encrypt_flatten (k : RoundKeys) {blocks : List (List UInt8)}
    (h : ∀ b ∈ blocks, b.length = 8) :
    encrypt blocks.flatten blocks.flatten.length k = (blocks.map (encrypt · 8 k)).flatten :=
  flatten_of_append (t := fun d n => encrypt d n k) (by simp [encrypt, turns, sweeps, sweep])
    (fun front back hfront => encrypt_append (m := 1) back back.length k hfront) h

theorem decrypt_flatten (k : RoundKeys) {blocks : List (List UInt8)}
    (h : ∀ b ∈ blocks, b.length = 8) :
    decrypt blocks.flatten blocks.flatten.length k = (blocks.map (decrypt · 8 k)).flatten :=
  flatten_of_append (t := fun d n => decrypt d n k) (by simp [decrypt, turns, sweeps, sweep])
    (fun front back hfront => decrypt_append (m := 1) back back.length k hfront) h

/-- XTEA under an expanded key: decryption and encryption invert each other on
every buffer of whole blocks, and both act block by block. -/
theorem expanded_key_cipher (k : Key) {data : List UInt8} (h : data.length % 8 = 0) :
    decrypt (encrypt data data.length (expandKey k)) data.length (expandKey k) = data
      ∧ encrypt (decrypt data data.length (expandKey k)) data.length (expandKey k) = data
      ∧ ∀ blocks : List (List UInt8), (∀ b ∈ blocks, b.length = 8) → data = blocks.flatten →
          encrypt data data.length (expandKey k)
              = (blocks.map (encrypt · 8 (expandKey k))).flatten
            ∧ decrypt data data.length (expandKey k)
              = (blocks.map (decrypt · 8 (expandKey k))).flatten := by
  have hturns : 8 * turns data.length ≤ data.length := (turns_of_dvd h).le
  refine ⟨decrypt_encrypt _ hturns, encrypt_decrypt _ hturns, ?_⟩
  rintro blocks hblocks rfl
  exact ⟨encrypt_flatten _ hblocks, decrypt_flatten _ hblocks⟩

/-- A two-block instance, with its split into blocks. -/
theorem expanded_key_cipher_two_blocks :
    decrypt (encrypt (List.replicate 16 7) 16 (expandKey #v[1, 2, 3, 4])) 16
        (expandKey #v[1, 2, 3, 4]) = List.replicate 16 7
      ∧ encrypt (List.replicate 16 7) 16 (expandKey #v[1, 2, 3, 4])
          = encrypt (List.replicate 8 7) 8 (expandKey #v[1, 2, 3, 4])
            ++ encrypt (List.replicate 8 7) 8 (expandKey #v[1, 2, 3, 4]) := by
  have hlen : (List.replicate 16 (7 : UInt8)).length % 8 = 0 := by decide
  have h := expanded_key_cipher #v[1, 2, 3, 4] hlen
  refine ⟨h.1, ?_⟩
  have hsplit := (h.2.2 [List.replicate 8 7, List.replicate 8 7] (by decide) (by decide)).1
  simpa using hsplit

/-- The vector of `test_xtea.cpp`. -/
example :
    encrypt [0xef, 0xbe, 0xad, 0xde, 0xef, 0xbe, 0xad, 0xde] 8
        (expandKey #v[0xdeadbeef, 0xdeadbeef, 0xdeadbeef, 0xdeadbeef])
      = [0xb5, 0x8c, 0xf2, 0xfa, 0xe0, 0xc0, 0x40, 0x09] := by
  decide +kernel

end Xtea

end Bruxo
