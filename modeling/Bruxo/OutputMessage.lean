import Bruxo.NetworkMessage
import Bruxo.Xtea

/-!
# Packet framing

`OutputMessage` (`outputmessage.h`), `Protocol::onSendMessage`
(`protocol.cpp`) and the receiving side of `Connection`
(`connection.cpp`), with `adlerChecksum` (`tools.cpp`).

A packet grows backwards: the inner length, the checksum and the outer length
are put in front of the payload, into the eight bytes a `NetworkMessage`
leaves free, while padding is put behind it. Both halves are stated about
`wire`, the bytes from `outputBufferStart` on: a header is prepended to it,
padding appended, and encryption acts on it as a whole.

`none` stands for what the program does not survive: a failed `assert`, or a
`memcpy` or a cipher block beyond the buffer.
-/

namespace Bruxo

open Bytes

def headerLength : Nat := 2

def checksumLength : Nat := 4

/-! ## Checksum -/

def adlerModulus : UInt32 := 65521

/-- The inner loop of `adlerChecksum`: the sums over one stretch of bytes. -/
def adlerSums (s : UInt32 × UInt32) (data : List UInt8) : UInt32 × UInt32 :=
  data.foldl (fun s b => (s.1 + b.toUInt32, s.2 + (s.1 + b.toUInt32))) s

/-- The outer loop: stretches of at most 5552 bytes, reduced after each. -/
def adlerLoop (s : UInt32 × UInt32) (data : List UInt8) : UInt32 × UInt32 :=
  if _h : data.length = 0 then s
  else
    let r := adlerSums s (data.take 5552)
    adlerLoop (r.1 % adlerModulus, r.2 % adlerModulus) (data.drop 5552)
termination_by data.length
decreasing_by
  simp only [List.length_drop]
  omega

def adlerChecksum (data : List UInt8) : UInt32 :=
  if networkMessageMaxSize < data.length then 0
  else
    let s := adlerLoop (1, 0) data
    (s.2 <<< 16) ||| s.1

/-! ## Output messages -/

structure OutputMessage extends NetworkMessage where
  outputBufferStart : Nat
  start_le : outputBufferStart ≤ initialBufferPosition

namespace OutputMessage

def new : OutputMessage where
  toNetworkMessage := NetworkMessage.new
  outputBufferStart := initialBufferPosition
  start_le := Nat.le_refl _

/-- What `Connection::internalSend` writes to the socket. -/
def wire (m : OutputMessage) : List UInt8 := readAt m.buffer m.outputBufferStart m.length

theorem start_add_length_le {m : OutputMessage} {n : Nat} (h : n ≤ m.outputBufferStart) :
    m.outputBufferStart - n + n ≤ m.buffer.length := by
  have hstart := m.start_le
  rw [m.size_buffer]
  simp only [initialBufferPosition, networkMessageMaxSize] at hstart ⊢
  omega

/-- `add_header`, given the bytes of the header. -/
def addHeader (m : OutputMessage) (bs : List UInt8) : Option OutputMessage :=
  if h : bs.length ≤ m.outputBufferStart then
    some { m with
      buffer := writeAt m.buffer (m.outputBufferStart - bs.length) bs
      length := m.length + bs.length
      outputBufferStart := m.outputBufferStart - bs.length
      size_buffer := by rw [length_writeAt (start_add_length_le h), m.size_buffer]
      start_le := Nat.le_trans (Nat.sub_le _ _) m.start_le }
  else none

def writeMessageLength (m : OutputMessage) : Option OutputMessage :=
  m.addHeader (leBytes 2 m.length)

def addCryptoHeader (m : OutputMessage) (addChecksum : Bool) : Option OutputMessage := do
  let m ← if addChecksum then m.addHeader (leBytes 4 (adlerChecksum m.wire).toNat) else some m
  m.writeMessageLength

/-- `append`: the content of another message, with no check of the room. -/
def append (m : OutputMessage) (msg : NetworkMessage) : Option OutputMessage :=
  if h : m.position + msg.length ≤ networkMessageMaxSize
      ∧ initialBufferPosition + msg.length ≤ networkMessageMaxSize then
    some { m with
      toNetworkMessage := m.store msg.content (by
        rw [NetworkMessage.content, length_readAt (by rw [msg.size_buffer]; exact h.2)]
        exact h.1) }
  else none

theorem addHeader_of_le {m : OutputMessage} {bs : List UInt8} (h : bs.length ≤ m.outputBufferStart) :
    ∃ m', m.addHeader bs = some m' :=
  ⟨_, dif_pos h⟩

/-- A header goes in front of the wire bytes. -/
theorem addHeader_spec {m m' : OutputMessage} {bs : List UInt8} (h : m.addHeader bs = some m') :
    m'.wire = bs ++ m.wire ∧ m'.length = bs.length + m.length ∧ m'.position = m.position
      ∧ m'.outputBufferStart + bs.length = m.outputBufferStart := by
  rw [addHeader] at h
  split at h
  · rename_i hle
    have hin := start_add_length_le hle
    have hstart : m.outputBufferStart - bs.length + bs.length = m.outputBufferStart :=
      Nat.sub_add_cancel hle
    obtain rfl := (Option.some.inj h).symm
    refine ⟨?_, Nat.add_comm _ _, rfl, hstart⟩
    show readAt (writeAt m.buffer (m.outputBufferStart - bs.length) bs)
      (m.outputBufferStart - bs.length) (m.length + bs.length) = _
    rw [Nat.add_comm, ← readAt_append, readAt_writeAt_self _ (by omega),
      readAt_writeAt_above (Nat.le_refl _) hin, hstart]
    rfl
  · cases h

/-- The checksum and the outer length in front of the wire bytes. -/
theorem addCryptoHeader_spec {m packet : OutputMessage} (h : m.addCryptoHeader true = some packet) :
    packet.wire = leBytes 2 (m.length + checksumLength)
        ++ (leBytes 4 (adlerChecksum m.wire).toNat ++ m.wire)
      ∧ packet.length = m.length + checksumLength + headerLength
      ∧ packet.outputBufferStart + headerLength + checksumLength = m.outputBufferStart := by
  simp only [addCryptoHeader, if_true, Option.bind_eq_bind, Option.bind_eq_some_iff] at h
  obtain ⟨summed, hsum, hlength⟩ := h
  obtain ⟨hwire, hlen, -, hstart⟩ := addHeader_spec hsum
  obtain ⟨hwire', hlen', -, hstart'⟩ := addHeader_spec hlength
  rw [length_leBytes] at hlen hlen' hstart hstart'
  rw [hwire', hwire, hlen', hlen, Nat.add_comm 4]
  refine ⟨rfl, Nat.add_comm _ _, ?_⟩
  rw [← hstart, ← hstart']
  rfl

theorem addCryptoHeader_of_le {m : OutputMessage} (h : headerLength + checksumLength ≤ m.outputBufferStart) :
    ∃ packet, m.addCryptoHeader true = some packet := by
  simp only [headerLength, checksumLength] at h
  obtain ⟨summed, hsum⟩ := addHeader_of_le
    (show (leBytes 4 (adlerChecksum m.wire).toNat).length ≤ m.outputBufferStart by
      rw [length_leBytes]; omega)
  obtain ⟨-, -, -, hstart⟩ := addHeader_spec hsum
  obtain ⟨packet, hpacket⟩ := addHeader_of_le
    (show (leBytes 2 summed.length).length ≤ summed.outputBufferStart by
      rw [length_leBytes] at hstart ⊢; omega)
  refine ⟨packet, ?_⟩
  simp only [addCryptoHeader, if_true, Option.bind_eq_bind, hsum]
  exact hpacket

end OutputMessage

/-! ## Sending -/

/-- The state of a `Protocol` that `onSendMessage` and `onRecvMessage` read. -/
structure Protocol where
  rawMessages : Bool
  encryptionEnabled : Bool
  checksumEnabled : Bool
  key : Xtea.RoundKeys

/-- The padding step of `XTEA_encrypt`. -/
def padToBlock (msg : OutputMessage) : OutputMessage :=
  let paddingBytes := msg.length % 8
  if paddingBytes ≠ 0 then
    { msg with toNetworkMessage := msg.addPaddingBytes (8 - paddingBytes) }
  else msg

/-- `xtea::encrypt` on the output buffer. -/
def encryptBuffer (msg : OutputMessage) (key : Xtea.RoundKeys) : Option OutputMessage :=
  if h : msg.outputBufferStart + 8 * Xtea.turns msg.length ≤ networkMessageMaxSize then
    some { msg with
      buffer := msg.buffer.take msg.outputBufferStart
        ++ Xtea.encrypt (msg.buffer.drop msg.outputBufferStart) msg.length key
      size_buffer := by
        have hsize := msg.size_buffer
        have hlen : 8 * Xtea.turns msg.length ≤ (msg.buffer.drop msg.outputBufferStart).length := by
          rw [List.length_drop, hsize]
          omega
        rw [List.length_append, Xtea.length_encrypt key hlen, List.length_take, List.length_drop]
        omega }
  else none

def xteaEncrypt (msg : OutputMessage) (key : Xtea.RoundKeys) : Option OutputMessage :=
  encryptBuffer (padToBlock msg) key

theorem length_le_padToBlock (m : OutputMessage) : m.length ≤ (padToBlock m).length := by
  rw [padToBlock]
  split
  · show m.length ≤ (m.addPaddingBytes (8 - m.length % 8)).length
    rw [NetworkMessage.addPaddingBytes]
    split
    · exact Nat.le_add_right _ _
    · exact Nat.le_refl _
  · exact Nat.le_refl _

theorem start_padToBlock (m : OutputMessage) :
    (padToBlock m).outputBufferStart = m.outputBufferStart := by
  rw [padToBlock]
  split <;> rfl

/-- With room for the padding the wire bytes become whole blocks. -/
theorem padToBlock_spec {m : OutputMessage}
    (hpos : m.position = m.outputBufferStart + m.length)
    (hroom : (8 - m.length % 8) % 8 + m.position < maxBodyLength) :
    ∃ n, (padToBlock m).wire = m.wire ++ List.replicate n 0x33
      ∧ (padToBlock m).length = m.length + n ∧ n < 8 ∧ (m.length + n) % 8 = 0 := by
  by_cases hzero : m.length % 8 = 0
  · refine ⟨0, ?_⟩
    rw [padToBlock, if_neg (by simpa using hzero)]
    exact ⟨by simp, rfl, by omega, hzero⟩
  · refine ⟨8 - m.length % 8, ?_⟩
    have hadd : m.canAdd (8 - m.length % 8) = true :=
      decide_eq_true (by omega)
    have hin : m.position ≤ m.buffer.length := by
      have := NetworkMessage.le_of_canAdd hadd
      rw [m.size_buffer]
      omega
    simp only [padToBlock, ne_eq, hzero, not_false_eq_true, if_true,
      NetworkMessage.addPaddingBytes, dif_pos hadd]
    refine ⟨?_, trivial, by omega, by omega⟩
    simp only [OutputMessage.wire]
    rw [← readAt_append, readAt_writeAt_below (by omega) hin, ← hpos]
    congr 1
    have hself := readAt_writeAt_self (List.replicate (8 - m.length % 8) 0x33) hin
    rwa [List.length_replicate] at hself

theorem encryptBuffer_of_le {m : OutputMessage} (key : Xtea.RoundKeys)
    (h : m.outputBufferStart + 8 * Xtea.turns m.length ≤ networkMessageMaxSize) :
    ∃ m', encryptBuffer m key = some m' :=
  ⟨_, dif_pos h⟩

theorem encryptBuffer_spec {m m' : OutputMessage} {key : Xtea.RoundKeys}
    (h : encryptBuffer m key = some m') :
    m'.length = m.length ∧ m'.outputBufferStart = m.outputBufferStart
      ∧ m.outputBufferStart + m.length ≤ networkMessageMaxSize
      ∧ (m.length % 8 = 0 → m'.wire = Xtea.encrypt m.wire m.length key) := by
  rw [encryptBuffer] at h
  split at h
  · rename_i hfit
    have hturns : m.length ≤ 8 * Xtea.turns m.length := by
      simp only [Xtea.turns]
      omega
    have hsize := m.size_buffer
    obtain rfl := (Option.some.inj h).symm
    refine ⟨rfl, rfl, by omega, fun hdvd => ?_⟩
    have hle : m.length ≤ (m.buffer.drop m.outputBufferStart).length := by
      rw [List.length_drop, hsize]
      omega
    have hwire : (m.wire).length = m.length := length_readAt (by omega)
    have hencrypt : (Xtea.encrypt m.wire m.length key).length = m.length := by
      rw [Xtea.length_encrypt key (by rw [hwire, Xtea.turns_of_dvd hdvd]), hwire]
    show readAt _ (m.outputBufferStart + 0) m.length = _
    rw [readAt_take_append 0 m.length (by omega), Xtea.encrypt_prefix key hdvd hle]
    show readAt (Xtea.encrypt m.wire m.length key ++ _) 0 m.length = _
    rw [readAt_append_left _ (by omega)]
    have hself := readAt_self (Xtea.encrypt m.wire m.length key)
    rwa [hencrypt] at hself
  · cases h

def Protocol.onSendMessage (p : Protocol) (msg : OutputMessage) : Option OutputMessage :=
  if p.rawMessages then some msg
  else do
    let msg ← msg.writeMessageLength
    if p.encryptionEnabled then
      let msg ← xteaEncrypt msg p.key
      msg.addCryptoHeader p.checksumEnabled
    else some msg

/-! ## Receiving -/

/-- `async_read` of exactly `n` bytes into the buffer at `p`. -/
def asyncRead (msg : NetworkMessage) (p n : Nat) (wire : List UInt8) :
    Option (NetworkMessage × List UInt8) :=
  if h : n ≤ wire.length ∧ p + n ≤ networkMessageMaxSize then
    some ({ msg with
      buffer := writeAt msg.buffer p (wire.take n)
      size_buffer := by
        have hlen : (wire.take n).length = n := List.length_take_of_le h.1
        rw [length_writeAt (by rw [hlen, msg.size_buffer]; exact h.2), msg.size_buffer] },
      wire.drop n)
  else none

def NetworkMessage.getLengthHeader (msg : NetworkMessage) : Nat :=
  leNat (readAt msg.buffer 0 headerLength)

/-- `Connection::parseHeader` from the size on: the size is accepted, or the
connection is closed. -/
def parseHeader (msg : NetworkMessage) (wire : List UInt8) : Option (NetworkMessage × List UInt8) :=
  let size := msg.getLengthHeader
  if size = 0 ∨ networkMessageMaxSize - 16 ≤ size then none
  else asyncRead { msg with length := size + headerLength, position := headerLength }
    headerLength size wire

/-- The checksum part of `Connection::parsePacket`; without a match the cursor
steps back. -/
def verifyChecksum (msg : NetworkMessage) : Bool × NetworkMessage :=
  let len := msg.length - msg.position - checksumLength
  let checksum :=
    if 0 < len then adlerChecksum (readAt msg.buffer (msg.position + checksumLength) len) else 0
  let r := msg.getUInt32
  if r.1 ≠ checksum then (false, { r.2 with position := r.2.position - checksumLength })
  else (true, r.2)

/-- `xtea::decrypt` of `length` bytes at the cursor. -/
def decryptBuffer (msg : NetworkMessage) (length : Nat) (key : Xtea.RoundKeys) :
    Option NetworkMessage :=
  if h : msg.position + 8 * Xtea.turns length ≤ networkMessageMaxSize then
    some { msg with
      buffer := msg.buffer.take msg.position
        ++ Xtea.decrypt (msg.buffer.drop msg.position) length key
      size_buffer := by
        have hsize := msg.size_buffer
        have hlen : 8 * Xtea.turns length ≤ (msg.buffer.drop msg.position).length := by
          rw [List.length_drop, hsize]
          omega
        rw [List.length_append, Xtea.length_decrypt key hlen, List.length_take, List.length_drop]
        omega }
  else none

/-- `XTEA_decrypt`; `none` is its `false`. -/
def xteaDecrypt (msg : NetworkMessage) (key : Xtea.RoundKeys) : Option NetworkMessage :=
  if ((msg.length : Int) - 6) % 8 ≠ 0 then none
  else do
    let msg ← decryptBuffer msg (msg.length - 6) key
    let r := msg.getUInt16
    let innerLength := r.1.toNat
    if r.2.length < innerLength + 8 then none
    else some { r.2 with length := innerLength }

/-- A packet from the socket into the connection's message: header, body,
checksum, decryption. The flag tells whether the checksum matched. -/
def receive (key : Xtea.RoundKeys) (msg : NetworkMessage) (wire : List UInt8) :
    Option (Bool × NetworkMessage) := do
  let header ← asyncRead msg 0 headerLength wire
  let body ← parseHeader header.1 header.2
  let checked := verifyChecksum body.1
  let plain ← xteaDecrypt checked.2 key
  some (checked.1, plain)

theorem asyncRead_eq (msg : NetworkMessage) (p : Nat) (bs rest : List UInt8)
    (h : p + bs.length ≤ networkMessageMaxSize) :
    ∃ msg', asyncRead msg p bs.length (bs ++ rest) = some (msg', rest)
      ∧ msg'.buffer = writeAt msg.buffer p bs ∧ msg'.length = msg.length
      ∧ msg'.position = msg.position := by
  have hfit : bs.length ≤ (bs ++ rest).length ∧ p + bs.length ≤ networkMessageMaxSize :=
    ⟨by simp, h⟩
  rw [asyncRead, dif_pos hfit, List.drop_left]
  exact ⟨_, rfl, congrArg (writeAt msg.buffer p) List.take_left, rfl, rfl⟩

theorem decryptBuffer_eq (msg : NetworkMessage) {length : Nat} (key : Xtea.RoundKeys)
    (hdvd : length % 8 = 0) (h : msg.position + length ≤ networkMessageMaxSize) :
    ∃ msg', decryptBuffer msg length key = some msg'
      ∧ msg'.length = msg.length ∧ msg'.position = msg.position
      ∧ ∀ o n, o + n ≤ length → readAt msg'.buffer (msg.position + o) n
          = readAt (Xtea.decrypt (readAt msg.buffer msg.position length) length key) o n := by
  have hsize := msg.size_buffer
  have hturns := Xtea.turns_of_dvd hdvd
  have hle : length ≤ (msg.buffer.drop msg.position).length := by
    rw [List.length_drop, hsize]
    omega
  have hplain : (Xtea.decrypt (readAt msg.buffer msg.position length) length key).length
      = length := by
    have hread : (readAt msg.buffer msg.position length).length = length :=
      length_readAt (by omega)
    rw [Xtea.length_decrypt key (by omega), hread]
  refine ⟨_, dif_pos (by omega), rfl, rfl, fun o n hon => ?_⟩
  show readAt (msg.buffer.take msg.position ++ _) (msg.position + o) n = _
  rw [readAt_take_append _ _ (by omega), Xtea.decrypt_prefix key hdvd hle]
  exact readAt_append_left _ (Nat.le_trans hon hplain.ge)

/-- A packet body in the connection's message: the cursor behind the length
header, the checksum, then the encrypted region. -/
structure Received (msg : NetworkMessage) (region : List UInt8) : Prop where
  position_eq : msg.position = headerLength
  length_eq : msg.length = region.length + checksumLength + headerLength
  checksum_eq : readAt msg.buffer 2 4 = leBytes 4 (adlerChecksum region).toNat
  region_eq : readAt msg.buffer 6 region.length = region
  fits : region.length + 6 < networkMessageMaxSize

theorem verifyChecksum_of_received {msg : NetworkMessage} {region : List UInt8}
    (h : Received msg region) (hne : 0 < region.length) :
    verifyChecksum msg = (true, { msg with position := 6 }) := by
  have hpos : msg.position = 2 := h.position_eq
  have hlen : msg.length = region.length + 4 + 2 := h.length_eq
  have hread : msg.Readable 4 := by
    constructor
    · omega
    · rw [hpos]
      decide
  have hword : msg.getUInt32 = (adlerChecksum region, { msg with position := 6 }) := by
    rw [NetworkMessage.getUInt32, NetworkMessage.get_of_readable hread, hpos, h.checksum_eq,
      leNat_leBytes_uint32, UInt32.ofNat_toNat]
  have hrest : msg.length - msg.position - checksumLength = region.length := by
    rw [hlen, hpos, checksumLength]
    omega
  have hbytes : readAt msg.buffer (msg.position + checksumLength) region.length = region := by
    rw [hpos]
    exact h.region_eq
  simp only [verifyChecksum, hrest, if_pos hne, hbytes, hword, ne_eq, not_true_eq_false, if_false]

theorem xteaDecrypt_of_received {msg : NetworkMessage} {region : List UInt8}
    {key : Xtea.RoundKeys} {innerLength : Nat} (h : Received msg region)
    (hdvd : region.length % 8 = 0)
    (hinner : readAt (Xtea.decrypt region region.length key) 0 2 = leBytes 2 innerLength)
    (hle : innerLength + headerLength ≤ region.length) :
    ∃ msg', xteaDecrypt { msg with position := 6 } key = some msg'
      ∧ msg'.position = initialBufferPosition
      ∧ msg'.content
        = readAt (Xtea.decrypt region region.length key) headerLength innerLength := by
  have hlen : msg.length = region.length + 4 + 2 := h.length_eq
  have hfits := h.fits
  simp only [headerLength, networkMessageMaxSize] at hle hfits
  obtain ⟨plain, hplain, hlength, hposition, hread⟩ := decryptBuffer_eq
    { msg with position := 6 } key hdvd (by simp only [networkMessageMaxSize]; omega)
  simp only [h.region_eq] at hread hlength hposition
  have hword : plain.getUInt16
      = (UInt16.ofNat innerLength, { plain with position := initialBufferPosition }) := by
    have hhead := hread 0 2 (by omega)
    rw [Nat.add_zero, hinner] at hhead
    have hreadable : plain.Readable 2 := by
      constructor
      · omega
      · rw [hposition]
        decide
    rw [NetworkMessage.getUInt16, NetworkMessage.get_of_readable hreadable, hposition, hhead,
      leNat_leBytes_of_lt (show innerLength < 256 ^ 2 by omega)]
    rfl
  have hinnerNat : (UInt16.ofNat innerLength).toNat = innerLength :=
    toNat_ofNat_uint16 (by omega)
  have hblocks : ((msg.length : Int) - 6) % 8 = 0 := by omega
  have hless : msg.length - 6 = region.length := by omega
  refine ⟨{ plain with position := initialBufferPosition, length := innerLength }, ?_, rfl, ?_⟩
  · simp only [xteaDecrypt, hblocks, ne_eq, not_true_eq_false, if_false, Option.bind_eq_bind, hless,
      hplain, Option.bind_some, hword, hinnerNat]
    exact if_neg (by omega)
  · exact hread 2 innerLength (by omega)

/-- A packet of whole encrypted blocks is accepted, and what stands behind its
inner length is recovered. -/
theorem receive_spec {key : Xtea.RoundKeys} {region : List UInt8} (msg : NetworkMessage)
    {innerLength : Nat} (hdvd : region.length % 8 = 0)
    (hsize : region.length + checksumLength < networkMessageMaxSize - 16)
    (hinner : readAt (Xtea.decrypt region region.length key) 0 2 = leBytes 2 innerLength)
    (hle : innerLength + headerLength ≤ region.length) :
    ∃ msg', receive key msg (leBytes 2 (region.length + checksumLength)
          ++ (leBytes 4 (adlerChecksum region).toNat ++ region)) = some (true, msg')
      ∧ msg'.position = initialBufferPosition
      ∧ msg'.content
        = readAt (Xtea.decrypt region region.length key) headerLength innerLength := by
  have hsize' : region.length + 4 < 24574 := hsize
  have hlen : (leBytes 4 (adlerChecksum region).toNat ++ region).length = region.length + 4 := by
    rw [List.length_append, length_leBytes, Nat.add_comm]
  have hhalf : (leBytes 2 (region.length + checksumLength)).length = 2 := length_leBytes _ _
  obtain ⟨head, hhead, hbuf, -, -⟩ := asyncRead_eq msg 0
    (leBytes 2 (region.length + checksumLength))
    (leBytes 4 (adlerChecksum region).toNat ++ region) (by rw [hhalf]; decide)
  have hheader : head.getLengthHeader = region.length + checksumLength := by
    have hself := readAt_writeAt_self (leBytes 2 (region.length + checksumLength))
      (Nat.zero_le msg.buffer.length)
    rw [hhalf] at hself
    rw [NetworkMessage.getLengthHeader, hbuf, headerLength, hself, leNat_leBytes_of_lt]
    simp only [checksumLength]
    omega
  have hmem : 2 + (leBytes 4 (adlerChecksum region).toNat ++ region).length
      ≤ networkMessageMaxSize := by
    rw [hlen, networkMessageMaxSize]
    omega
  obtain ⟨body, hbody, hbuf', hlength, hposition⟩ := asyncRead_eq
    { head with
      length := region.length + checksumLength + headerLength, position := headerLength } headerLength
    (leBytes 4 (adlerChecksum region).toNat ++ region) [] hmem
  rw [List.append_nil, hlen] at hbody
  have hparse : parseHeader head (leBytes 4 (adlerChecksum region).toNat ++ region)
      = some (body, []) := by
    rw [parseHeader, hheader, if_neg (by simp only [checksumLength, networkMessageMaxSize]; omega)]
    exact hbody
  have hin : 2 ≤ head.buffer.length := by
    rw [head.size_buffer]
    decide
  have hsum := readAt_writeAt_inside (o := 0) (n := 4) hin
    (show 0 + 4 ≤ (leBytes 4 (adlerChecksum region).toNat ++ region).length by omega)
  have hregion := readAt_writeAt_inside (o := 4) (n := region.length) hin
    (show 4 + region.length ≤ (leBytes 4 (adlerChecksum region).toNat ++ region).length by omega)
  have hreceived : Received body region := by
    refine ⟨hposition, hlength, ?_, ?_, by rw [networkMessageMaxSize]; omega⟩
    · rw [hbuf']
      refine hsum.trans ?_
      rw [readAt, List.drop_zero, List.take_left' (length_leBytes 4 _)]
    · rw [hbuf']
      refine hregion.trans ?_
      rw [readAt, List.drop_left' (length_leBytes 4 _), List.take_length]
  have hsummed := verifyChecksum_of_received hreceived (by
    simp only [headerLength] at hle
    omega)
  obtain ⟨msg', hmsg', hpos', hcontent⟩ := xteaDecrypt_of_received hreceived hdvd hinner hle
  refine ⟨msg', ?_, hpos', hcontent⟩
  rw [hhalf] at hhead
  simp only [receive, headerLength, hhead, Option.bind_eq_bind, Option.bind_some, hparse, hsummed,
    hmsg']

theorem size_of_receive {key : Xtea.RoundKeys} {msg : NetworkMessage} {wire : List UInt8}
    {r : Bool × NetworkMessage} (h : receive key msg wire = some r) :
    leNat (wire.take headerLength) < networkMessageMaxSize - 16 := by
  simp only [receive, Option.bind_eq_bind, Option.bind_eq_some_iff] at h
  obtain ⟨⟨head, rest⟩, hhead, body, hbody, -⟩ := h
  have hheader : head.getLengthHeader = leNat (wire.take headerLength) := by
    rw [asyncRead] at hhead
    split at hhead
    · rename_i hfit
      obtain ⟨rfl, -⟩ := Prod.mk.inj (Option.some.inj hhead)
      have hself := readAt_writeAt_self (wire.take headerLength) (Nat.zero_le msg.buffer.length)
      rw [List.length_take_of_le hfit.1] at hself
      exact congrArg leNat hself
    · cases hhead
  simp only [parseHeader] at hbody
  split at hbody
  · cases hbody
  · rw [hheader] at *
    omega

/-! ## Building a payload -/

/-- The interface that fills an output message. -/
inductive BuildOp where
  | write (w : NetworkMessage.Write)
  | append (msg : NetworkMessage)

namespace BuildOp

def run (m : OutputMessage) : BuildOp → Option OutputMessage
  | write w => some { m with toNetworkMessage := w.run m.toNetworkMessage }
  | append msg => m.append msg

/-- The bytes the operation adds to a payload of `length` bytes. -/
def bytes (length : Nat) : BuildOp → List UInt8
  | write w => (NetworkMessage.storedFrom (initialBufferPosition + length) w.fields).flatMap
      NetworkMessage.Field.encode
  | append msg => msg.content

end BuildOp

def build (ops : List BuildOp) : Option OutputMessage := ops.foldlM BuildOp.run OutputMessage.new

def payloadFrom : (length : Nat) → List BuildOp → List UInt8
  | _, [] => []
  | length, op :: ops =>
      op.bytes length ++ payloadFrom (length + (op.bytes length).length) ops

def payload (ops : List BuildOp) : List UInt8 := payloadFrom 0 ops

/-- A message under construction that holds `bytes`. -/
structure Holds (m : OutputMessage) (bytes : List UInt8) : Prop where
  writing : NetworkMessage.Writing m.toNetworkMessage
  content_eq : m.content = bytes
  length_eq : m.length = bytes.length
  start_eq : m.outputBufferStart = initialBufferPosition

theorem holds_new : Holds OutputMessage.new [] where
  writing := NetworkMessage.writing_new
  content_eq := NetworkMessage.content_new
  length_eq := rfl
  start_eq := rfl

theorem Holds.run {m m' : OutputMessage} {bs : List UInt8} {op : BuildOp} (h : Holds m bs)
    (hrun : op.run m = some m') : Holds m' (bs ++ op.bytes bs.length) := by
  have hpos : m.position = initialBufferPosition + bs.length := by
    rw [h.writing.position_eq, h.length_eq]
  cases op with
  | write w =>
      obtain rfl := (Option.some.inj hrun).symm
      obtain ⟨hwriting, hlength, hcontent⟩ := NetworkMessage.writeFields_spec h.writing w.fields
      rw [← w.run_eq, hpos] at hlength hcontent
      rw [← w.run_eq] at hwriting
      refine ⟨hwriting, ?_, ?_, h.start_eq⟩
      · rw [h.content_eq] at hcontent
        exact hcontent
      · rw [h.length_eq, ← List.length_append] at hlength
        exact hlength
  | append msg =>
      simp only [BuildOp.run, OutputMessage.append] at hrun
      split at hrun
      · rename_i hfit
        obtain rfl := (Option.some.inj hrun).symm
        have hroom : m.position + msg.content.length ≤ networkMessageMaxSize := by
          rw [NetworkMessage.content, length_readAt (by rw [msg.size_buffer]; exact hfit.2)]
          exact hfit.1
        refine ⟨h.writing.store hroom, ?_, ?_, h.start_eq⟩
        · exact (NetworkMessage.content_store h.writing hroom).trans (by rw [h.content_eq]; rfl)
        · show m.length + msg.content.length = (bs ++ msg.content).length
          rw [List.length_append, h.length_eq]
      · cases hrun

theorem Holds.run_of_le {m : OutputMessage} {bs : List UInt8} {op : BuildOp} (h : Holds m bs)
    (hle : (bs ++ op.bytes bs.length).length ≤ maxProtocolBodyLength) :
    ∃ m', op.run m = some m' := by
  cases op with
  | write w => exact ⟨_, rfl⟩
  | append msg =>
      have hpos : m.position = initialBufferPosition + bs.length := by
        rw [h.writing.position_eq, h.length_eq]
      simp only [BuildOp.bytes, List.length_append, NetworkMessage.content, readAt,
        List.length_take, List.length_drop, msg.size_buffer, maxProtocolBodyLength, maxBodyLength,
        networkMessageMaxSize, initialBufferPosition] at hle hpos
      refine ⟨_, dif_pos ⟨?_, ?_⟩⟩
      · simp only [networkMessageMaxSize]
        omega
      · simp only [networkMessageMaxSize, initialBufferPosition]
        omega

theorem Holds.build_of_le {ops : List BuildOp} {m : OutputMessage} {bs : List UInt8}
    (h : Holds m bs) (hle : (bs ++ payloadFrom bs.length ops).length ≤ maxProtocolBodyLength) :
    ∃ m', ops.foldlM BuildOp.run m = some m' := by
  induction ops generalizing m bs with
  | nil => exact ⟨m, rfl⟩
  | cons op ops ih =>
      rw [payloadFrom, ← List.append_assoc, ← List.length_append] at hle
      have hhead : (bs ++ op.bytes bs.length).length ≤ maxProtocolBodyLength := by
        rw [List.length_append] at hle
        omega
      obtain ⟨next, hnext⟩ := h.run_of_le hhead
      obtain ⟨m', hm'⟩ := ih (h.run hnext) hle
      exact ⟨m', by rw [List.foldlM_cons, hnext]; exact hm'⟩

theorem Holds.build {ops : List BuildOp} {m m' : OutputMessage} {bs : List UInt8}
    (h : Holds m bs) (hbuild : ops.foldlM BuildOp.run m = some m') :
    Holds m' (bs ++ payloadFrom bs.length ops) := by
  induction ops generalizing m bs with
  | nil =>
      obtain rfl := Option.some.inj hbuild
      rw [payloadFrom, List.append_nil]
      exact h
  | cons op ops ih =>
      rw [List.foldlM_cons] at hbuild
      obtain ⟨next, hnext, hrest⟩ := Option.bind_eq_some_iff.mp hbuild
      rw [payloadFrom, ← List.append_assoc, ← List.length_append]
      exact ih (h.run hnext) hrest

theorem holds_of_build {ops : List BuildOp} {m : OutputMessage} (h : build ops = some m) :
    Holds m (payload ops) :=
  holds_new.build h

/-- Typed writes never run into the end of the buffer. -/
theorem build_writes (ws : List NetworkMessage.Write) (m : OutputMessage) :
    ∃ m', (ws.map BuildOp.write).foldlM BuildOp.run m = some m' := by
  induction ws generalizing m with
  | nil => exact ⟨m, rfl⟩
  | cons w ws ih => exact ih _

/-! ## Framing -/

/-- A protocol past its first message: encryption and checksum are on. -/
def Protocol.sealing (key : Xtea.RoundKeys) : Protocol where
  rawMessages := false
  encryptionEnabled := true
  checksumEnabled := true
  key := key

/-- What is left of a packet behind its length header and its checksum. -/
def OutputMessage.encryptedLength (packet : OutputMessage) : Nat :=
  packet.length - headerLength - checksumLength

/-- `packet` is a well-formed frame around `bytes`: whole cipher blocks inside
the buffer, a length header that counts what follows it, and any receiver with
the key gets `bytes` back. -/
structure Framed (key : Xtea.RoundKeys) (bytes : List UInt8) (packet : OutputMessage) : Prop where
  blocks : packet.encryptedLength % 8 = 0
  in_buffer : packet.outputBufferStart + headerLength + checksumLength + packet.encryptedLength
    ≤ networkMessageMaxSize
  header : leNat (packet.wire.take headerLength) = (packet.wire.drop headerLength).length
  received : ∀ msg, ∃ msg', receive key msg packet.wire = some (true, msg')
    ∧ msg'.position = initialBufferPosition ∧ msg'.content = bytes

theorem onSendMessage_sealing (key : Xtea.RoundKeys) (m : OutputMessage) :
    (Protocol.sealing key).onSendMessage m
      = m.writeMessageLength.bind fun headed =>
          (encryptBuffer (padToBlock headed) key).bind fun cipher => cipher.addCryptoHeader true :=
  rfl

theorem headed_spec {m headed : OutputMessage} {bytes : List UInt8} (h : Holds m bytes)
    (hheaded : m.writeMessageLength = some headed) :
    headed.wire = leBytes 2 bytes.length ++ bytes ∧ headed.length = 2 + bytes.length
      ∧ headed.position = headed.outputBufferStart + headed.length
      ∧ headed.outputBufferStart = headerLength + checksumLength := by
  have hwire : m.wire = bytes := by
    rw [OutputMessage.wire, h.start_eq]
    exact h.content_eq
  have hpos := h.writing.position_eq
  obtain ⟨hwire₁, hlen₁, hpos₁, hstart₁⟩ := OutputMessage.addHeader_spec hheaded
  rw [length_leBytes] at hlen₁ hstart₁
  rw [h.length_eq] at hwire₁ hlen₁ hpos
  rw [h.start_eq] at hstart₁
  simp only [initialBufferPosition, headerLength, checksumLength] at hstart₁ hpos ⊢
  exact ⟨by rw [hwire₁, hwire], hlen₁, by omega, by omega⟩

/-- Up to `MAX_PROTOCOL_BODY_LENGTH` bytes there is room for the padding. -/
theorem padded_spec {m headed : OutputMessage} {bytes : List UInt8} (h : Holds m bytes)
    (hle : bytes.length ≤ maxProtocolBodyLength) (hheaded : m.writeMessageLength = some headed) :
    ∃ n, (padToBlock headed).wire = leBytes 2 bytes.length ++ bytes ++ List.replicate n 0x33
      ∧ (padToBlock headed).length = 2 + bytes.length + n ∧ (2 + bytes.length + n) % 8 = 0
      ∧ 2 + bytes.length + n ≤ maxBodyLength - 8 := by
  obtain ⟨hwire, hlen, hpos, hstart⟩ := headed_spec h hheaded
  simp only [headerLength, checksumLength, maxProtocolBodyLength, maxBodyLength,
    networkMessageMaxSize] at hle hstart
  obtain ⟨n, hwire₂, hlen₂, hn, hdvd⟩ := padToBlock_spec hpos
    (by simp only [maxBodyLength, networkMessageMaxSize]; omega)
  rw [hlen] at hlen₂ hdvd
  refine ⟨n, by rw [hwire₂, hwire], hlen₂, hdvd, ?_⟩
  simp only [maxBodyLength, networkMessageMaxSize]
  omega

theorem onSendMessage_of_le (key : Xtea.RoundKeys) {m : OutputMessage} {bytes : List UInt8}
    (h : Holds m bytes) (hle : bytes.length ≤ maxProtocolBodyLength) :
    ∃ packet, (Protocol.sealing key).onSendMessage m = some packet := by
  obtain ⟨headed, hheaded⟩ := OutputMessage.addHeader_of_le
    (show (leBytes 2 m.length).length ≤ m.outputBufferStart by
      rw [length_leBytes, h.start_eq]; decide)
  obtain ⟨-, -, -, hstart⟩ := headed_spec h hheaded
  obtain ⟨n, -, hlen, hdvd, hbound⟩ := padded_spec h hle hheaded
  have hstartPad := start_padToBlock headed
  obtain ⟨cipher, hcipher⟩ := encryptBuffer_of_le (m := padToBlock headed) key (by
    rw [hlen, Xtea.turns_of_dvd hdvd, hstartPad, hstart]
    simp only [headerLength, checksumLength, maxBodyLength, networkMessageMaxSize] at hbound ⊢
    omega)
  obtain ⟨-, hstartCipher, -⟩ := encryptBuffer_spec hcipher
  obtain ⟨packet, hpacket⟩ := OutputMessage.addCryptoHeader_of_le
    (show headerLength + checksumLength ≤ cipher.outputBufferStart by
      rw [hstartCipher, hstartPad, hstart])
  refine ⟨packet, ?_⟩
  rw [onSendMessage_sealing, show m.writeMessageLength = some headed from hheaded]
  simp only [Option.bind_some, hcipher, hpacket]

/-- The layout of a sent packet around its encrypted region. -/
structure Layout (packet : OutputMessage) (region : List UInt8) : Prop where
  wire_eq : packet.wire = leBytes 2 (region.length + checksumLength)
    ++ (leBytes 4 (adlerChecksum region).toNat ++ region)
  length_eq : packet.encryptedLength = region.length
  start_eq : packet.outputBufferStart = 0
  in_buffer : headerLength + checksumLength + region.length ≤ networkMessageMaxSize

theorem Layout.header_eq {packet : OutputMessage} {region : List UInt8}
    (h : Layout packet region) :
    leNat (packet.wire.take headerLength) = (packet.wire.drop headerLength).length := by
  have hin := h.in_buffer
  simp only [headerLength, checksumLength, networkMessageMaxSize] at hin ⊢
  rw [h.wire_eq, List.take_left' (length_leBytes 2 _), List.drop_left' (length_leBytes 2 _),
    List.length_append, length_leBytes, leNat_leBytes_of_lt]
  · exact Nat.add_comm _ _
  · simp only [checksumLength]
    omega

theorem layout_of_onSendMessage {key : Xtea.RoundKeys} {m packet : OutputMessage}
    {bytes : List UInt8} (h : Holds m bytes)
    (hsend : (Protocol.sealing key).onSendMessage m = some packet) :
    ∃ region, Layout packet region ∧ headerLength + bytes.length ≤ region.length
      ∧ (bytes.length ≤ maxProtocolBodyLength → region.length % 8 = 0
          ∧ region.length ≤ maxBodyLength - 8
          ∧ ∃ n, Xtea.decrypt region region.length key
            = leBytes 2 bytes.length ++ bytes ++ List.replicate n 0x33) := by
  rw [onSendMessage_sealing] at hsend
  simp only [Option.bind_eq_some_iff] at hsend
  obtain ⟨headed, hheaded, cipher, hcipher, hpacket⟩ := hsend
  obtain ⟨-, hlenHeaded, -, hstartHeaded⟩ := headed_spec h hheaded
  obtain ⟨hlen, hstart, hin, hencrypt⟩ := encryptBuffer_spec hcipher
  obtain ⟨hwire, hlenPacket, hstartPacket⟩ := OutputMessage.addCryptoHeader_spec hpacket
  have hgrow := length_le_padToBlock headed
  rw [start_padToBlock] at hstart hin
  have hregion : cipher.wire.length = cipher.length := length_readAt (by
    rw [cipher.size_buffer, hstart, hlen]
    exact hin)
  have hlayout : Layout packet cipher.wire := by
    refine ⟨by rw [hwire, hregion], ?_, by omega, ?_⟩
    · rw [OutputMessage.encryptedLength, hlenPacket, hregion, Nat.add_sub_cancel,
        Nat.add_sub_cancel]
    · rw [hregion, hlen, ← hstartHeaded]
      exact hin
  refine ⟨cipher.wire, hlayout, ?_, fun hle => ?_⟩
  · rw [hregion, hlen]
    simp only [headerLength]
    omega
  · obtain ⟨n, hplain, hlenPad, hdvd, hbound⟩ := padded_spec h hle hheaded
    rw [hlenPad] at hlen
    have hlenPlain : (padToBlock headed).wire.length = 2 + bytes.length + n := by
      rw [hplain]
      simp only [List.length_append, length_leBytes, List.length_replicate]
    rw [hlenPad] at hencrypt
    refine ⟨by rw [hregion, hlen]; exact hdvd, by rw [hregion, hlen]; exact hbound, n, ?_⟩
    rw [hregion, hlen, hencrypt hdvd,
      Xtea.decrypt_encrypt key (by rw [Xtea.turns_of_dvd hdvd, hlenPlain]), hplain]

theorem framed_of_le {key : Xtea.RoundKeys} {m packet : OutputMessage} {bytes : List UInt8}
    (h : Holds m bytes) (hsend : (Protocol.sealing key).onSendMessage m = some packet)
    (hle : bytes.length ≤ maxProtocolBodyLength) : Framed key bytes packet := by
  obtain ⟨region, hlayout, hgrow, hgood⟩ := layout_of_onSendMessage h hsend
  obtain ⟨hdvd, hbound, n, hplain⟩ := hgood hle
  have hsize : region.length + checksumLength < networkMessageMaxSize - 16 := by
    simp only [maxBodyLength, networkMessageMaxSize, checksumLength] at hbound ⊢
    omega
  have hinner : readAt (Xtea.decrypt region region.length key) 0 2 = leBytes 2 bytes.length := by
    rw [hplain, List.append_assoc, readAt, List.drop_zero, List.take_left' (length_leBytes 2 _)]
  have hbody : readAt (Xtea.decrypt region region.length key) headerLength bytes.length = bytes := by
    rw [hplain, List.append_assoc, readAt, headerLength, List.drop_left' (length_leBytes 2 _),
      List.take_left]
  have hin := hlayout.in_buffer
  refine ⟨by rw [hlayout.length_eq]; exact hdvd, ?_, hlayout.header_eq, fun msg => ?_⟩
  · rw [hlayout.start_eq, hlayout.length_eq, Nat.zero_add]
    exact hin
  · obtain ⟨msg', hreceive, hpos, hcontent⟩ := receive_spec msg hdvd hsize hinner
      (Nat.add_comm _ _ ▸ hgrow)
    rw [← hlayout.wire_eq] at hreceive
    exact ⟨msg', hreceive, hpos, by rw [hcontent, hbody]⟩

/-- A frame that the receiver accepts has at most `MAX_PROTOCOL_BODY_LENGTH`
bytes of payload: with more, whole blocks come to 24576 bytes at least, a size
`parseHeader` closes the connection for. -/
theorem le_of_framed {key : Xtea.RoundKeys} {m packet : OutputMessage} {bytes : List UInt8}
    (h : Holds m bytes) (hsend : (Protocol.sealing key).onSendMessage m = some packet)
    (hframed : Framed key bytes packet) : bytes.length ≤ maxProtocolBodyLength := by
  obtain ⟨region, hlayout, hgrow, -⟩ := layout_of_onSendMessage h hsend
  have hdvd := hframed.blocks
  rw [hlayout.length_eq] at hdvd
  obtain ⟨msg', hreceive, -⟩ := hframed.received NetworkMessage.new
  have hsize := size_of_receive hreceive
  rw [hlayout.header_eq, hlayout.wire_eq, headerLength,
    List.drop_left' (length_leBytes 2 _), List.length_append, length_leBytes] at hsize
  simp only [headerLength, maxProtocolBodyLength, maxBodyLength, networkMessageMaxSize]
    at hgrow hsize ⊢
  omega

/-- Framing succeeds exactly for payloads of at most
`MAX_PROTOCOL_BODY_LENGTH` bytes. -/
theorem packet_framing_iff (key : Xtea.Key) (ops : List BuildOp) :
    (∃ m packet, build ops = some m
        ∧ (Protocol.sealing (Xtea.expandKey key)).onSendMessage m = some packet
        ∧ Framed (Xtea.expandKey key) (payload ops) packet)
      ↔ (payload ops).length ≤ maxProtocolBodyLength := by
  constructor
  · rintro ⟨m, packet, hbuild, hsend, hframed⟩
    exact le_of_framed (holds_of_build hbuild) hsend hframed
  · intro hle
    obtain ⟨m, hbuild⟩ := holds_new.build_of_le hle
    have hm := holds_of_build hbuild
    obtain ⟨packet, hsend⟩ := onSendMessage_of_le (Xtea.expandKey key) hm hle
    exact ⟨m, packet, hbuild, hsend, framed_of_le hm hsend hle⟩

/-- Blocks of 24567 bytes, the most the bounded writes can store. The inner
length makes 24569 bytes of them, and the seven bytes of padding are refused. -/
def fullMessage : List BuildOp :=
  ([8192, 8192, 8183].map fun n => .field (.bytes (List.replicate n 0))).map .write

theorem length_payload_fullMessage : (payload fullMessage).length = 24567 := by
  simp [payload, payloadFrom, fullMessage, BuildOp.bytes, NetworkMessage.Write.fields,
    NetworkMessage.storedFrom, NetworkMessage.Field.fits, NetworkMessage.Field.encode,
    NetworkMessage.Field.blockLength, initialBufferPosition, maxBodyLength, networkMessageMaxSize,
    -List.reduceReplicate]

theorem full_message_not_framed :
    ¬ ∀ (key : Xtea.Key) (ops : List BuildOp) (m : OutputMessage), build ops = some m →
      ∃ packet, (Protocol.sealing (Xtea.expandKey key)).onSendMessage m = some packet
        ∧ Framed (Xtea.expandKey key) (payload ops) packet := by
  intro hclaim
  obtain ⟨m, hbuild⟩ : ∃ m, build fullMessage = some m := build_writes _ OutputMessage.new
  obtain ⟨packet, hsend, hframed⟩ := hclaim (Vector.replicate 4 0) fullMessage m hbuild
  have hle : (payload fullMessage).length ≤ 24566 :=
    le_of_framed (holds_of_build hbuild) hsend hframed
  rw [length_payload_fullMessage] at hle
  omega

end Bruxo
