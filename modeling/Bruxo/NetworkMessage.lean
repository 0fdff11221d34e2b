import Bruxo.Lib.Bytes
import Bruxo.Position

/-!
# Network messages

`NetworkMessage` (`networkmessage.h`, `networkmessage.cpp`): a fixed
buffer with a cursor. Bytes 0-7 are left for the headers, so a message
under construction has its cursor at `8 + length` (`Writing`).

Every primitive write checks the room for itself and does nothing when it
does not fit; there is no sticky failure. What a run of writes stores is
therefore the subsequence of the fields that fitted when their turn came
(`storedFrom`), and reading those fields back returns their values
(`typed_codec`). A field that was refused is simply absent: a reader that
expects it finds the next stored one in its place
(`later_field_in_place_of_refused`).
-/

namespace Bruxo

open Bytes

/-! ## Sizes -/

def networkMessageMaxSize : Nat := 24590

def initialBufferPosition : Nat := 8

/-- `MAX_BODY_LENGTH`: the maximal size less the length header, the checksum
and one XTEA block. -/
def maxBodyLength : Nat := networkMessageMaxSize - 2 - 4 - 8

def maxProtocolBodyLength : Nat := maxBodyLength - 10

structure NetworkMessage where
  buffer : List UInt8
  length : Nat
  position : Nat
  overrun : Bool
  size_buffer : buffer.length = networkMessageMaxSize

namespace NetworkMessage

def new : NetworkMessage where
  buffer := List.replicate networkMessageMaxSize 0
  length := 0
  position := initialBufferPosition
  overrun := false
  size_buffer := List.length_replicate

/-! ## Writing -/

def canAdd (m : NetworkMessage) (size : Nat) : Bool :=
  decide (size + m.position < maxBodyLength)

theorem le_of_canAdd {m : NetworkMessage} {size : Nat} (h : m.canAdd size = true) :
    m.position + size ≤ networkMessageMaxSize := by
  have hlt := of_decide_eq_true h
  simp only [maxBodyLength] at hlt
  omega

/-- `memcpy` at the cursor, the cursor and the length moved on. -/
def store (m : NetworkMessage) (bs : List UInt8)
    (h : m.position + bs.length ≤ networkMessageMaxSize) : NetworkMessage where
  buffer := writeAt m.buffer m.position bs
  length := m.length + bs.length
  position := m.position + bs.length
  overrun := m.overrun
  size_buffer := by
    rw [length_writeAt (by rw [m.size_buffer]; exact h), m.size_buffer]

/-- `add<T>`, given the bytes of the value. -/
def add (m : NetworkMessage) (bs : List UInt8) : NetworkMessage :=
  if h : m.canAdd bs.length = true then m.store bs (le_of_canAdd h) else m

def addByte (m : NetworkMessage) (v : UInt8) : NetworkMessage := m.add [v]

def addUInt16 (m : NetworkMessage) (v : UInt16) : NetworkMessage := m.add (leBytes 2 v.toNat)

def addUInt32 (m : NetworkMessage) (v : UInt32) : NetworkMessage := m.add (leBytes 4 v.toNat)

def addUInt64 (m : NetworkMessage) (v : UInt64) : NetworkMessage := m.add (leBytes 8 v.toNat)

theorem position_addUInt16 {m : NetworkMessage} {n : Nat} (v : UInt16)
    (h : m.canAdd (n + 2) = true) : (m.addUInt16 v).position = m.position + 2 := by
  have hlt := of_decide_eq_true h
  have h2 : m.canAdd (leBytes 2 v.toNat).length = true := by
    rw [length_leBytes]
    exact decide_eq_true (by omega)
  rw [addUInt16, add, dif_pos h2, store, length_leBytes]

def addBytes (m : NetworkMessage) (bs : List UInt8) : NetworkMessage :=
  if h : m.canAdd bs.length = true ∧ bs.length ≤ 8192 then m.store bs (le_of_canAdd h.1) else m

def addString (m : NetworkMessage) (value : List UInt8) : NetworkMessage :=
  if h : m.canAdd (value.length + 2) = true ∧ value.length ≤ 8192 then
    (m.addUInt16 (UInt16.ofNat value.length)).store value (by
      have hle := le_of_canAdd h.1
      rw [position_addUInt16 _ h.1]
      omega)
  else m

/-- The cursor stays where it is, only the length grows. -/
def addPaddingBytes (m : NetworkMessage) (n : Nat) : NetworkMessage :=
  if h : m.canAdd n = true then
    { m with
      buffer := writeAt m.buffer m.position (List.replicate n 0x33)
      length := m.length + n
      size_buffer := by
        have hle := le_of_canAdd h
        rw [length_writeAt (by rw [List.length_replicate, m.size_buffer]; exact hle),
          m.size_buffer] }
  else m

def addPosition (m : NetworkMessage) (pos : Position) : NetworkMessage :=
  ((m.addUInt16 pos.x).addUInt16 pos.y).addByte pos.z

/-! ## Reading -/

def canRead (m : NetworkMessage) (size : Nat) : Bool :=
  !(decide (m.length + 8 < m.position + size)
    || decide (networkMessageMaxSize - m.position ≤ size))

/-- `get<T>` for a type of `size` bytes. -/
def get (m : NetworkMessage) (size : Nat) : Nat × NetworkMessage :=
  if m.canRead size then
    (leNat (readAt m.buffer m.position size), { m with position := m.position + size })
  else (0, { m with overrun := true })

def getByte (m : NetworkMessage) : UInt8 × NetworkMessage :=
  ((UInt8.ofNat (m.get 1).1), (m.get 1).2)

def getUInt16 (m : NetworkMessage) : UInt16 × NetworkMessage :=
  ((UInt16.ofNat (m.get 2).1), (m.get 2).2)

def getUInt32 (m : NetworkMessage) : UInt32 × NetworkMessage :=
  ((UInt32.ofNat (m.get 4).1), (m.get 4).2)

def getUInt64 (m : NetworkMessage) : UInt64 × NetworkMessage :=
  ((UInt64.ofNat (m.get 8).1), (m.get 8).2)

/-- The part of `getString` after its length is known. -/
def getStringBody (m : NetworkMessage) (stringLen : Nat) : List UInt8 × NetworkMessage :=
  if m.canRead stringLen then
    (readAt m.buffer m.position stringLen, { m with position := m.position + stringLen })
  else ([], { m with overrun := true })

/-- `getString(stringLen)`; a length of 0 is read from the message. -/
def getString (m : NetworkMessage) (stringLen : UInt16) : List UInt8 × NetworkMessage :=
  if stringLen = 0 then
    let r := m.getUInt16
    r.2.getStringBody r.1.toNat
  else m.getStringBody stringLen.toNat

def getPosition (m : NetworkMessage) : Position × NetworkMessage :=
  let x := m.getUInt16
  let y := x.2.getUInt16
  let z := y.2.getByte
  ({ x := x.1, y := y.1, z := z.1 }, z.2)

/-- `setBufferPosition(0)`: a written message handed to a reader. -/
def rewind (m : NetworkMessage) : NetworkMessage :=
  { m with position := initialBufferPosition }

/-! ## Messages under construction -/

/-- The bytes between the headers and the end of the message. -/
def content (m : NetworkMessage) : List UInt8 :=
  readAt m.buffer initialBufferPosition m.length

/-- The cursor stands at the end of the message. -/
structure Writing (m : NetworkMessage) : Prop where
  position_eq : m.position = initialBufferPosition + m.length
  overrun_eq : m.overrun = false

theorem writing_new : Writing new := ⟨rfl, rfl⟩

theorem content_new : new.content = [] := readAt_zero _ _

theorem Writing.store {m : NetworkMessage} {bs : List UInt8} (hm : Writing m)
    (h : m.position + bs.length ≤ networkMessageMaxSize) : Writing (m.store bs h) where
  position_eq := by
    show m.position + bs.length = initialBufferPosition + (m.length + bs.length)
    rw [hm.position_eq, Nat.add_assoc]
  overrun_eq := hm.overrun_eq

theorem content_store {m : NetworkMessage} {bs : List UInt8} (hm : Writing m)
    (h : m.position + bs.length ≤ networkMessageMaxSize) :
    (m.store bs h).content = m.content ++ bs := by
  have hpos := hm.position_eq
  have hin : m.position ≤ m.buffer.length := by rw [m.size_buffer]; omega
  show readAt (writeAt m.buffer m.position bs) initialBufferPosition (m.length + bs.length) = _
  rw [← readAt_append, readAt_writeAt_below hpos.ge hin, ← hpos, readAt_writeAt_self _ hin]
  rfl

/-! ## Fields

One primitive write is a field. A position is three of them, each of which
the code checks on its own. -/

inductive Field where
  | byte (v : UInt8)
  | uint16 (v : UInt16)
  | uint32 (v : UInt32)
  | uint64 (v : UInt64)
  | string (s : List UInt8)
  | bytes (bs : List UInt8)
  deriving DecidableEq

namespace Field

/-- The bytes a field takes in the message. -/
def encode : Field → List UInt8
  | byte v => [v]
  | uint16 v => leBytes 2 v.toNat
  | uint32 v => leBytes 4 v.toNat
  | uint64 v => leBytes 8 v.toNat
  | string s => leBytes 2 s.length ++ s
  | bytes bs => bs

/-- The length the two block writes compare with 8192. -/
def blockLength : Field → Nat
  | string s => s.length
  | bytes bs => bs.length
  | _ => 0

/-- Whether the field is stored when the cursor stands at `position`. -/
def fits (position : Nat) (f : Field) : Bool :=
  decide (f.encode.length + position < maxBodyLength) && decide (f.blockLength ≤ 8192)

def write (m : NetworkMessage) : Field → NetworkMessage
  | byte v => m.addByte v
  | uint16 v => m.addUInt16 v
  | uint32 v => m.addUInt32 v
  | uint64 v => m.addUInt64 v
  | string s => m.addString s
  | bytes bs => m.addBytes bs

/-- The typed read that matches a write of the field. A block is read by its
known length, an empty one by not reading. -/
def read (m : NetworkMessage) : Field → Field × NetworkMessage
  | byte _ => (byte m.getByte.1, m.getByte.2)
  | uint16 _ => (uint16 m.getUInt16.1, m.getUInt16.2)
  | uint32 _ => (uint32 m.getUInt32.1, m.getUInt32.2)
  | uint64 _ => (uint64 m.getUInt64.1, m.getUInt64.2)
  | string _ => (string (m.getString 0).1, (m.getString 0).2)
  | bytes bs =>
      if bs.length = 0 then (bytes [], m)
      else
        let r := m.getString (UInt16.ofNat bs.length)
        (bytes r.1, r.2)

theorem le_of_fits {m : NetworkMessage} {f : Field} (h : f.fits m.position = true) :
    m.position + f.encode.length ≤ networkMessageMaxSize := by
  have hlt := of_decide_eq_true (Bool.and_eq_true_iff.mp h).1
  simp only [maxBodyLength] at hlt
  omega

theorem add_eq_of_fits {m : NetworkMessage} {bs : List UInt8}
    (h : bs.length + m.position < maxBodyLength)
    (hle : m.position + bs.length ≤ networkMessageMaxSize) : m.add bs = m.store bs hle :=
  dif_pos (decide_eq_true h)

theorem add_eq_self {m : NetworkMessage} {bs : List UInt8}
    (h : ¬ bs.length + m.position < maxBodyLength) : m.add bs = m := by
  rw [add, dif_neg (by simpa [canAdd] using h)]

theorem addString_eq_of_fits {m : NetworkMessage} {s : List UInt8}
    (h : (string s).fits m.position = true) :
    m.addString s = m.store (string s).encode (le_of_fits h) := by
  obtain ⟨hroom, hblock⟩ := Bool.and_eq_true_iff.mp h
  have hroom := of_decide_eq_true hroom
  have hblock : s.length ≤ 8192 := of_decide_eq_true hblock
  have hadd : m.canAdd (s.length + 2) = true := decide_eq_true (by
    simp only [encode, List.length_append, length_leBytes] at hroom
    omega)
  have hlen : (UInt16.ofNat s.length).toNat = s.length :=
    toNat_ofNat_uint16 (Nat.lt_of_le_of_lt hblock (by decide))
  have hhead : (leBytes 2 s.length).length + m.position < maxBodyLength := by
    simp only [encode, List.length_append] at hroom
    omega
  have hmem : m.position + (leBytes 2 s.length).length ≤ m.buffer.length := by
    have := le_of_fits h
    simp only [encode, List.length_append] at this
    rw [m.size_buffer]
    omega
  rw [addString, dif_pos ⟨hadd, hblock⟩]
  simp only [addUInt16, hlen, add_eq_of_fits hhead (m.size_buffer ▸ hmem)]
  simp only [store, encode, writeAt_writeAt_append hmem, List.length_append, Nat.add_assoc]

/-- A field that fits is stored at the cursor. -/
theorem write_of_fits {m : NetworkMessage} {f : Field} (h : f.fits m.position = true) :
    f.write m = m.store f.encode (le_of_fits h) := by
  obtain ⟨hroom, hblock⟩ := Bool.and_eq_true_iff.mp h
  have hroom := of_decide_eq_true hroom
  cases f with
  | byte v => exact add_eq_of_fits hroom _
  | uint16 v => exact add_eq_of_fits hroom _
  | uint32 v => exact add_eq_of_fits hroom _
  | uint64 v => exact add_eq_of_fits hroom _
  | string s => exact addString_eq_of_fits h
  | bytes bs => exact dif_pos ⟨decide_eq_true hroom, of_decide_eq_true hblock⟩

/-- A field that does not fit leaves the message as it was. -/
theorem write_of_not_fits {m : NetworkMessage} {f : Field} (h : f.fits m.position = false) :
    f.write m = m := by
  rw [fits, Bool.and_eq_false_iff, decide_eq_false_iff_not, decide_eq_false_iff_not] at h
  cases f with
  | byte v => exact add_eq_self (h.resolve_right (by simp [blockLength]))
  | uint16 v => exact add_eq_self (h.resolve_right (by simp [blockLength]))
  | uint32 v => exact add_eq_self (h.resolve_right (by simp [blockLength]))
  | uint64 v => exact add_eq_self (h.resolve_right (by simp [blockLength]))
  | string s =>
      refine dif_neg fun hfit => h.elim (fun hroom => hroom ?_) fun hblock => hblock hfit.2
      have hroom := of_decide_eq_true hfit.1
      simp only [encode, List.length_append, length_leBytes]
      omega
  | bytes bs =>
      exact dif_neg fun hfit =>
        h.elim (fun hroom => hroom (of_decide_eq_true hfit.1)) fun hblock => hblock hfit.2

end Field

/-! ## Runs of writes -/

/-- The fields of a run that are stored when the cursor starts at `position`. -/
def storedFrom : (position : Nat) → List Field → List Field
  | _, [] => []
  | position, f :: fs =>
      if f.fits position then f :: storedFrom (position + f.encode.length) fs
      else storedFrom position fs

def writeFields (m : NetworkMessage) (fs : List Field) : NetworkMessage :=
  fs.foldl Field.write m

theorem writeFields_cons (m : NetworkMessage) (f : Field) (fs : List Field) :
    m.writeFields (f :: fs) = (f.write m).writeFields fs := rfl

theorem writeFields_append (m : NetworkMessage) (fs gs : List Field) :
    m.writeFields (fs ++ gs) = (m.writeFields fs).writeFields gs :=
  List.foldl_append

/-- A run stores exactly the fields that fitted, end to end. -/
theorem writeFields_spec {m : NetworkMessage} (hm : Writing m) (fs : List Field) :
    Writing (m.writeFields fs)
      ∧ (m.writeFields fs).length
        = m.length + ((storedFrom m.position fs).flatMap Field.encode).length
      ∧ (m.writeFields fs).content
        = m.content ++ (storedFrom m.position fs).flatMap Field.encode := by
  induction fs generalizing m with
  | nil => exact ⟨hm, rfl, by simp [writeFields, storedFrom]⟩
  | cons f fs ih =>
      rw [writeFields_cons, storedFrom]
      cases hfit : f.fits m.position with
      | true =>
          obtain ⟨hwriting, hlength, hcontent⟩ := ih (hm.store (Field.le_of_fits hfit))
          rw [Field.write_of_fits hfit, if_pos rfl, List.flatMap_cons, ← List.append_assoc,
            ← content_store hm (Field.le_of_fits hfit), List.length_append, ← Nat.add_assoc]
          exact ⟨hwriting, hlength, hcontent⟩
      | false =>
          rw [Field.write_of_not_fits hfit, if_neg (by simp)]
          exact ih hm

/-- Every stored field passes the block bound, and all of them together stay
below the end of the buffer. -/
theorem storedFrom_bounds {position : Nat} {fs : List Field} {f : Field}
    (hf : f ∈ storedFrom position fs) : f.blockLength ≤ 8192 := by
  induction fs generalizing position with
  | nil => cases hf
  | cons g fs ih =>
      rw [storedFrom] at hf
      split at hf
      · rename_i hfit
        rcases List.mem_cons.mp hf with rfl | hf
        · exact of_decide_eq_true (Bool.and_eq_true_iff.mp hfit).2
        · exact ih hf
      · exact ih hf

theorem storedFrom_length {position : Nat} (fs : List Field) (h : position < maxBodyLength) :
    position + ((storedFrom position fs).flatMap Field.encode).length < maxBodyLength := by
  induction fs generalizing position with
  | nil => simpa [storedFrom] using h
  | cons f fs ih =>
      rw [storedFrom]
      split
      · rename_i hfit
        have hroom := of_decide_eq_true (Bool.and_eq_true_iff.mp hfit).1
        have htail := ih (show position + f.encode.length < maxBodyLength by omega)
        rw [List.flatMap_cons, List.length_append]
        omega
      · exact ih h

/-- A run that fits but for its blocks that are too long is stored without them. -/
theorem storedFrom_eq_filter {position : Nat} {fs : List Field}
    (h : position + ((fs.filter (·.blockLength ≤ 8192)).flatMap Field.encode).length <
      maxBodyLength) :
    storedFrom position fs = fs.filter (·.blockLength ≤ 8192) := by
  induction fs generalizing position with
  | nil => rfl
  | cons f fs ih =>
      rw [storedFrom, List.filter_cons]
      rw [List.filter_cons] at h
      by_cases hblock : f.blockLength ≤ 8192
      · rw [if_pos (decide_eq_true hblock), List.flatMap_cons, List.length_append] at h
        have hfit : f.fits position = true :=
          Bool.and_eq_true_iff.mpr ⟨decide_eq_true (by omega), decide_eq_true hblock⟩
        rw [if_pos hfit, if_pos (decide_eq_true hblock), ih (by omega)]
      · rw [if_neg (by simpa using hblock)] at h
        have hfit : f.fits position = false := by
          rw [Field.fits, decide_eq_false hblock, Bool.and_false]
        rw [if_neg (by simp [hfit]), if_neg (by simpa using hblock), ih h]

/-- A run that fits as a whole is stored as it is. -/
theorem storedFrom_eq_self {position : Nat} {fs : List Field}
    (hblock : ∀ f ∈ fs, f.blockLength ≤ 8192)
    (h : position + (fs.flatMap Field.encode).length < maxBodyLength) :
    storedFrom position fs = fs := by
  have hfilter : fs.filter (·.blockLength ≤ 8192) = fs :=
    List.filter_eq_self.mpr fun f hf => decide_eq_true (hblock f hf)
  rw [storedFrom_eq_filter (by rwa [hfilter]), hfilter]

/-! ## The length of what is stored -/

/-- The bytes of a field in a message with room for it. -/
def Field.size (f : Field) : Nat := if f.blockLength ≤ 8192 then f.encode.length else 0

@[simp] theorem Field.size_byte (v : UInt8) : size (.byte v) = 1 := rfl

@[simp] theorem Field.size_uint16 (v : UInt16) : size (.uint16 v) = 2 := rfl

@[simp] theorem Field.size_uint32 (v : UInt32) : size (.uint32 v) = 4 := rfl

theorem Field.size_string (s : List UInt8) :
    size (.string s) = if s.length ≤ 8192 then s.length + 2 else 0 := by
  rw [size, encode, List.length_append, length_leBytes, Nat.add_comm 2]
  rfl

theorem length_filter (fs : List Field) :
    ((fs.filter (·.blockLength ≤ 8192)).flatMap Field.encode).length =
      (fs.map Field.size).sum := by
  induction fs with
  | nil => rfl
  | cons f fs ih =>
      rw [List.filter_cons, List.map_cons, List.sum_cons, Field.size]
      by_cases hblock : f.blockLength ≤ 8192
      · rw [if_pos (decide_eq_true hblock), if_pos hblock, List.flatMap_cons, List.length_append, ih]
      · rw [if_neg (by simpa using hblock), if_neg hblock, ih, Nat.zero_add]

theorem length_encode {fs : List Field} (h : ∀ f ∈ fs, f.blockLength ≤ 8192) :
    (fs.flatMap Field.encode).length = (fs.map Field.size).sum := by
  rw [← length_filter, List.filter_eq_self.mpr fun f hf => decide_eq_true (h f hf)]

theorem storedFrom_new {fs : List Field} (h : (fs.map Field.size).sum < 24000) :
    storedFrom new.position fs = fs.filter (·.blockLength ≤ 8192) := by
  refine storedFrom_eq_filter ?_
  rw [length_filter]
  simp only [new, initialBufferPosition, maxBodyLength, networkMessageMaxSize]
  omega

/-- What a run that has room stores: all but the strings that are too long. -/
theorem content_eq {fs : List Field} (h : (fs.map Field.size).sum < 24000) :
    (new.writeFields fs).content = (fs.filter (·.blockLength ≤ 8192)).flatMap Field.encode := by
  rw [(writeFields_spec writing_new fs).2.2, content_new, List.nil_append, storedFrom_new h]

theorem length_content {fs : List Field} (h : (fs.map Field.size).sum < 24000) :
    (new.writeFields fs).content.length = (fs.map Field.size).sum := by
  rw [content_eq h, length_filter]

/-! ## Runs of reads -/

/-- `n` bytes from the cursor are part of the message. -/
def Readable (m : NetworkMessage) (n : Nat) : Prop :=
  m.position + n ≤ m.length + 8 ∧ m.position + n < networkMessageMaxSize

theorem canRead_of_readable {m : NetworkMessage} {n : Nat} (h : m.Readable n) :
    m.canRead n = true := by
  obtain ⟨hend, hmax⟩ := h
  simp only [canRead, Bool.not_eq_true', Bool.or_eq_false_iff, decide_eq_false_iff_not]
  omega

theorem get_of_readable {m : NetworkMessage} {n : Nat} (h : m.Readable n) :
    m.get n = (leNat (readAt m.buffer m.position n), { m with position := m.position + n }) :=
  if_pos (canRead_of_readable h)

theorem getStringBody_of_readable {m : NetworkMessage} {n : Nat} (h : m.Readable n) :
    m.getStringBody n
      = (readAt m.buffer m.position n, { m with position := m.position + n }) :=
  if_pos (canRead_of_readable h)

/-- Reading a field that stands at the cursor returns it and moves past it. -/
theorem Field.read_of_encode {m : NetworkMessage} {f : Field} (h : m.Readable f.encode.length)
    (hblock : f.blockLength ≤ 8192)
    (hbytes : readAt m.buffer m.position f.encode.length = f.encode) :
    f.read m = (f, { m with position := m.position + f.encode.length }) := by
  cases f with
  | byte v =>
      have hget := get_of_readable (n := 1) h
      rw [show readAt m.buffer m.position 1 = [v] from hbytes] at hget
      simp [read, getByte, hget, leNat, encode]
  | uint16 v =>
      rw [encode, length_leBytes] at h hbytes
      simp [read, getUInt16, get_of_readable h, hbytes, encode]
  | uint32 v =>
      rw [encode, length_leBytes] at h hbytes
      simp [read, getUInt32, get_of_readable h, hbytes, encode]
  | uint64 v =>
      rw [encode, length_leBytes] at h hbytes
      simp [read, getUInt64, get_of_readable h, hbytes, encode]
  | string s =>
      have hlt : s.length < 2 ^ 16 := Nat.lt_of_le_of_lt hblock (by decide)
      have hhead : m.Readable 2 := by
        simp only [encode, List.length_append, length_leBytes, Readable] at h ⊢
        omega
      have hbody : ({ m with position := m.position + 2 } : NetworkMessage).Readable s.length := by
        simp only [encode, List.length_append, length_leBytes, Readable] at h ⊢
        omega
      have hin : m.position + 2 ≤ m.buffer.length := by
        rw [m.size_buffer]
        exact hhead.2.le
      simp only [encode, List.length_append, length_leBytes, ← readAt_append] at hbytes
      obtain ⟨hlen, hs⟩ := List.append_inj hbytes (by rw [length_readAt hin, length_leBytes])
      have hword : m.getUInt16 = (UInt16.ofNat s.length, { m with position := m.position + 2 }) := by
        rw [getUInt16, get_of_readable hhead, hlen,
          leNat_leBytes_of_lt (show s.length < 256 ^ 2 from hlt)]
      simp only [read, getString, if_true, hword, toNat_ofNat_uint16 hlt,
        getStringBody_of_readable hbody, hs, encode, List.length_append, length_leBytes,
        Nat.add_assoc]
  | bytes bs =>
      have hlt : bs.length < 2 ^ 16 := Nat.lt_of_le_of_lt hblock (by decide)
      simp only [read]
      split
      · rename_i hzero
        obtain rfl := List.eq_nil_of_length_eq_zero hzero
        rfl
      · rename_i hpos
        have hne : UInt16.ofNat bs.length ≠ 0 := by
          intro heq
          have hto := congrArg UInt16.toNat heq
          rw [toNat_ofNat_uint16 hlt] at hto
          exact hpos hto
        rw [getString, if_neg hne, toNat_ofNat_uint16 hlt,
          getStringBody_of_readable (show m.Readable bs.length from h)]
        exact Prod.ext (congrArg bytes hbytes) rfl

/-- The matching typed reads for a list of fields. -/
def readFields : List Field → NetworkMessage → List Field × NetworkMessage
  | [], m => ([], m)
  | f :: fs, m =>
      let r := f.read m
      let rs := readFields fs r.2
      (r.1 :: rs.1, rs.2)

theorem readFields_of_encode {fs : List Field} {m : NetworkMessage}
    (h : m.Readable (fs.flatMap Field.encode).length) (hblock : ∀ f ∈ fs, f.blockLength ≤ 8192)
    (hbytes : readAt m.buffer m.position (fs.flatMap Field.encode).length
      = fs.flatMap Field.encode) :
    readFields fs m
      = (fs, { m with position := m.position + (fs.flatMap Field.encode).length }) := by
  induction fs generalizing m with
  | nil => rfl
  | cons f fs ih =>
      simp only [List.flatMap_cons, List.length_append] at h hbytes ⊢
      have hf : m.Readable f.encode.length := by
        simp only [Readable] at h ⊢
        omega
      have hin : m.position + f.encode.length ≤ m.buffer.length := by
        rw [m.size_buffer]
        exact hf.2.le
      rw [← readAt_append] at hbytes
      obtain ⟨hhead, htail⟩ := List.append_inj hbytes (length_readAt hin)
      have hread := Field.read_of_encode hf (hblock f List.mem_cons_self) hhead
      have hrest := ih (m := { m with position := m.position + f.encode.length })
        (by simp only [Readable] at h ⊢; omega)
        (fun g hg => hblock g (List.mem_cons_of_mem f hg)) htail
      simp only [readFields, hread, hrest, Nat.add_assoc]

/-! ## Typed writes -/

/-- A typed write of the interface: one field, or a position. -/
inductive Write where
  | field (f : Field)
  | position (pos : Position)
  deriving DecidableEq

namespace Write

def fields : Write → List Field
  | field f => [f]
  | position pos => [.uint16 pos.x, .uint16 pos.y, .byte pos.z]

def run (m : NetworkMessage) : Write → NetworkMessage
  | field f => f.write m
  | position pos => m.addPosition pos

def read (m : NetworkMessage) : Write → Write × NetworkMessage
  | field f => (field (f.read m).1, (f.read m).2)
  | position _ => (position m.getPosition.1, m.getPosition.2)

theorem run_eq (m : NetworkMessage) (w : Write) : w.run m = m.writeFields w.fields := by
  cases w <;> rfl

end Write

def runAll (m : NetworkMessage) (ws : List Write) : NetworkMessage := ws.foldl Write.run m

def readAll : List Write → NetworkMessage → List Write × NetworkMessage
  | [], m => ([], m)
  | w :: ws, m =>
      let r := w.read m
      let rs := readAll ws r.2
      (r.1 :: rs.1, rs.2)

theorem runAll_eq (m : NetworkMessage) (ws : List Write) :
    m.runAll ws = m.writeFields (ws.flatMap Write.fields) := by
  induction ws generalizing m with
  | nil => rfl
  | cons w ws ih =>
      rw [runAll, List.foldl_cons, ← runAll, ih, List.flatMap_cons, writeFields_append,
        Write.run_eq]

/-- Reading a position is reading its three fields. -/
theorem Write.read_of_fields {m m' : NetworkMessage} {w : Write}
    (h : readFields w.fields m = (w.fields, m')) : w.read m = (w, m') := by
  cases w with
  | field f =>
      simp only [readFields, fields, Prod.mk.injEq, List.cons.injEq, and_true] at h
      exact Prod.ext (congrArg field h.1) h.2
  | position pos =>
      simp only [readFields, fields, Field.read, Prod.mk.injEq, List.cons.injEq, and_true,
        Field.uint16.injEq, Field.byte.injEq] at h
      obtain ⟨⟨hx, hy, hz⟩, rfl⟩ := h
      simp only [read, getPosition, hx, hy, hz]

theorem readFields_append (fs gs : List Field) (m : NetworkMessage) :
    readFields (fs ++ gs) m
      = ((readFields fs m).1 ++ (readFields gs (readFields fs m).2).1,
        (readFields gs (readFields fs m).2).2) := by
  induction fs generalizing m with
  | nil => rfl
  | cons f fs ih => simp only [List.cons_append, readFields, ih]

theorem length_readFields (fs : List Field) (m : NetworkMessage) :
    (readFields fs m).1.length = fs.length := by
  induction fs generalizing m with
  | nil => rfl
  | cons f fs ih => simp only [readFields, List.length_cons, ih]

theorem readAll_of_fields {ws : List Write} {m m' : NetworkMessage}
    (h : readFields (ws.flatMap Write.fields) m = (ws.flatMap Write.fields, m')) :
    readAll ws m = (ws, m') := by
  induction ws generalizing m with
  | nil =>
      cases h
      rfl
  | cons w ws ih =>
      rw [List.flatMap_cons, readFields_append] at h
      obtain ⟨hvals, hfinal⟩ := Prod.mk.inj h
      obtain ⟨hw, hws⟩ := List.append_inj hvals (length_readFields _ _)
      have hread := Write.read_of_fields (Prod.ext hw rfl)
      have hrest := ih (Prod.ext hws hfinal)
      simp only [readAll, hread, hrest]

/-- The stored fields of a run on an empty message are read back, in order,
by the matching typed reads. -/
theorem readFields_stored (fs : List Field) :
    ∃ m, readFields (storedFrom initialBufferPosition fs) (new.writeFields fs).rewind
        = (storedFrom initialBufferPosition fs, m) ∧ m.overrun = false := by
  obtain ⟨hwriting, hlength, hcontent⟩ := writeFields_spec writing_new fs
  have hend := storedFrom_length fs (show initialBufferPosition < maxBodyLength by decide)
  rw [show new.length = 0 from rfl, Nat.zero_add] at hlength
  rw [content_new, List.nil_append, content, hlength] at hcontent
  refine ⟨_, readFields_of_encode ?_ (fun f => storedFrom_bounds) hcontent, hwriting.overrun_eq⟩
  constructor
  · show initialBufferPosition + _ ≤ (new.writeFields fs).length + 8
    rw [hlength, Nat.add_comm]
    rfl
  · exact Nat.lt_trans hend (by decide)

/-- What a run of typed writes on an empty message stores and what typed reads
give back. -/
theorem typed_codec (ws : List Write) :
    let written := new.runAll ws
    let stored := storedFrom initialBufferPosition (ws.flatMap Write.fields)
    written.content = stored.flatMap Field.encode
      ∧ (∃ m, readFields stored written.rewind = (stored, m) ∧ m.overrun = false)
      ∧ (stored = ws.flatMap Write.fields →
          ∃ m, readAll ws written.rewind = (ws, m) ∧ m.overrun = false)
      ∧ ∀ (m : NetworkMessage) (f : Field), f.fits m.position = false → f.write m = m := by
  intro written stored
  have hrun : written = new.writeFields (ws.flatMap Write.fields) := runAll_eq new ws
  obtain ⟨m, hread, hoverrun⟩ := readFields_stored (ws.flatMap Write.fields)
  rw [← hrun] at hread
  refine ⟨?_, ⟨m, hread, hoverrun⟩, ?_, fun m f => Field.write_of_not_fits⟩
  · rw [hrun, (writeFields_spec writing_new _).2.2, content_new, List.nil_append]
    rfl
  · intro hall
    refine ⟨m, readAll_of_fields ?_, hoverrun⟩
    rw [← hall]
    exact hread

/-- Three blocks that leave the cursor at 24572: two more bytes have room, a
`uint32` does not. -/
def nearlyFull : List Field :=
  [.bytes (List.replicate 8192 0), .bytes (List.replicate 8192 0), .bytes (List.replicate 8180 0)]

theorem storedFrom_nearlyFull : storedFrom initialBufferPosition nearlyFull = nearlyFull := by
  simp [nearlyFull, storedFrom, Field.fits, Field.encode, Field.blockLength,
    initialBufferPosition, maxBodyLength, networkMessageMaxSize, -List.reduceReplicate]

theorem length_nearlyFull : (nearlyFull.flatMap Field.encode).length = 24564 := by
  simp [nearlyFull, Field.encode, -List.reduceReplicate]

/-- A `uint32` without room and then a byte: the byte is stored all the same, so
it is not true that a message takes nothing more once a write was refused. -/
theorem later_field_in_place_of_refused :
    ¬ ∀ ws : List Write,
      ((new.runAll ws).content = (ws.flatMap Write.fields).flatMap Field.encode
          ∧ ∃ m, readAll ws (new.runAll ws).rewind = (ws, m))
        ∨ ∀ (before : List Field) (f : Field) (after : List Field),
          ws.flatMap Write.fields = before ++ f :: after →
          maxBodyLength ≤ f.encode.length + (new.writeFields before).position →
          (new.runAll ws).content = (new.writeFields before).content := by
  intro hclaim
  obtain ⟨hwriting, hlength, hcontent⟩ := writeFields_spec writing_new nearlyFull
  have hstored : storedFrom new.position nearlyFull = nearlyFull := storedFrom_nearlyFull
  rw [hstored, length_nearlyFull] at hlength
  rw [hstored, content_new, List.nil_append] at hcontent
  have hpos : (new.writeFields nearlyFull).position = 24572 := by
    rw [hwriting.position_eq, hlength]
    rfl
  have hrefused : (Field.uint32 1).write (new.writeFields nearlyFull) = new.writeFields nearlyFull :=
    Field.write_of_not_fits (by rw [hpos]; decide)
  have hfits : (Field.byte 7).fits (new.writeFields nearlyFull).position = true := by
    rw [hpos]
    decide
  have hfields : (((nearlyFull ++ [Field.uint32 1, Field.byte 7]).map Write.field).flatMap
      Write.fields) = nearlyFull ++ [Field.uint32 1, Field.byte 7] := by
    rw [List.flatMap_map]
    exact List.flatMap_singleton' _
  have hrun : (new.runAll ((nearlyFull ++ [Field.uint32 1, Field.byte 7]).map Write.field)).content
      = nearlyFull.flatMap Field.encode ++ [7] := by
    rw [runAll_eq, hfields, writeFields_append, writeFields_cons, hrefused, writeFields_cons,
      Field.write_of_fits hfits, ← hcontent]
    exact content_store hwriting (Field.le_of_fits hfits)
  rcases hclaim ((nearlyFull ++ [Field.uint32 1, Field.byte 7]).map Write.field) with
    ⟨hall, -⟩ | hstop
  · rw [hrun, hfields, List.flatMap_append] at hall
    exact absurd (congrArg List.length hall) (by simp [Field.encode])
  · have hsame := hstop nearlyFull (.uint32 1) [.byte 7] hfields (by rw [hpos]; decide)
    rw [hrun, hcontent] at hsame
    exact absurd (congrArg List.length hsame) (by simp)

end NetworkMessage

end Bruxo
