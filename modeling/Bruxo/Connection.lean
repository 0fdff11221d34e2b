import Bruxo.Lib.Frames
import Bruxo.OutputMessage

/-!
# Delivery of the packets

The way of a message from `writeToOutputBuffer` (`protocolgame.cpp`) to the socket: the output
buffer of the protocol (`protocol.cpp`), which is sent when it is full or by the autosend, and the
queue of the connection (`connection.cpp`), whose first message is sealed and written while the
others wait.

The bytes on the wire are whole packets in the order of the messages, and of the last one what an
error has left of it. So a client reads a prefix of what was sent (`delivery`), and all of it if
the connection is not cut (`drained`).

Both are about a connection that has its protocol, after the first message of the client.
-/

namespace Bruxo.Connection

open Bytes

/-! ## The client -/

/-- One turn of the read loop: `parseHeader`, `parsePacket` and `onRecvMessage`. There is no
message where `XTEA_decrypt` refuses it; the next packet overwrites what it leaves. -/
def receiveNext (key : Xtea.RoundKeys) (msg : NetworkMessage) (wire : List UInt8) :
    Option (Option (List UInt8) × NetworkMessage × List UInt8) := do
  let header ← asyncRead msg 0 headerLength wire
  let body ← parseHeader header.1 header.2
  let checked := verifyChecksum body.1
  match xteaDecrypt checked.2 key with
  | none => some (none, checked.2, body.2)
  | some plain => some (some plain.content, plain, body.2)

/-- The messages in what has arrived. -/
def received (key : Xtea.RoundKeys) (msg : NetworkMessage) (wire : List UInt8) :
    List (Option (List UInt8)) :=
  Frames.unframe (receiveNext key) wire.length msg wire

/-! ## The connection -/

/-- An `async_write` that has not completed. -/
structure Write where
  bytes : List UInt8
  /-- It was started on an open socket. -/
  live : Bool

structure Payload where
  /-- It comes from the output buffer, not from a message of its own. -/
  buffered : Bool
  bytes : List UInt8

structure State where
  /-- Of the protocol. -/
  outputBuffer : Option OutputMessage
  messageQueue : List OutputMessage
  closed : Bool
  socketOpen : Bool
  writes : List Write
  /-- How often `release` was handed to the dispatcher. -/
  released : Nat
  wire : List UInt8
  /-- What was put into the queue. -/
  accepted : List Payload
  /-- What `writeToOutputBuffer` was given. -/
  written : List UInt8

namespace State

def init : State where
  outputBuffer := none
  messageQueue := []
  closed := false
  socketOpen := true
  writes := []
  released := 0
  wire := []
  accepted := []
  written := []

def closeSocket (s : State) : State := { s with socketOpen := false }

def close (s : State) (force : Bool) : State :=
  if s.closed then s
  else
    let s := { s with closed := true, released := s.released + 1 }
    if s.messageQueue = [] ∨ force = true then s.closeSocket else s

/-- The first message of the queue is sealed in its place. An exception closes the connection. -/
def internalSend (protocol : Protocol) (s : State) (throws : Bool) : Option State :=
  match s.messageQueue with
  | [] => none
  | msg :: queue => do
      let packet ← protocol.onSendMessage msg
      let s := { s with messageQueue := packet :: queue }
      some (if throws then s.close true
        else { s with writes := s.writes ++ [⟨packet.wire, s.socketOpen⟩] })

def send (protocol : Protocol) (s : State) (msg : OutputMessage) (buffered throws : Bool) :
    Option State :=
  if s.closed then some s
  else
    let sent := { s with
      messageQueue := s.messageQueue ++ [msg]
      accepted := s.accepted ++ [⟨buffered, msg.content⟩] }
    if s.messageQueue = [] then sent.internalSend protocol throws else some sent

/-- There is no result for `pop_front` on an empty queue. -/
def onWriteOperation (protocol : Protocol) (s : State) (error throws : Bool) : Option State :=
  match s.messageQueue with
  | [] => none
  | _ :: queue =>
      let s := { s with messageQueue := queue }
      if error then some ({ s with messageQueue := [] }.close true)
      else if queue = [] then some (if s.closed then s.closeSocket else s)
      else s.internalSend protocol throws

/-! ### The protocol -/

def getOutputBuffer (protocol : Protocol) (s : State) (size : Nat) (throws : Bool) : Option State :=
  match s.outputBuffer with
  | none => some { s with outputBuffer := some OutputMessage.new }
  | some msg =>
      if maxProtocolBodyLength < msg.length + size then
        (s.send protocol msg true throws).map fun s =>
          { s with outputBuffer := some OutputMessage.new }
      else some s

def writeToOutputBuffer (protocol : Protocol) (s : State) (msg : NetworkMessage) (throws : Bool) :
    Option State := do
  let s ← s.getOutputBuffer protocol msg.length throws
  let out ← s.outputBuffer
  let out ← out.append msg
  some { s with outputBuffer := some out, written := s.written ++ msg.content }

/-- What `sendAll` does for the protocol. -/
def autosend (protocol : Protocol) (s : State) (throws : Bool) : Option State :=
  match s.outputBuffer with
  | none => some s
  | some msg => { s with outputBuffer := none }.send protocol msg true throws

end State

/-- `throws` tells whether starting the write that it leads to, if any, throws. -/
inductive Action where
  | write (msg : NetworkMessage) (throws : Bool)
  | autosend (throws : Bool)
  /-- A message of its own, as of `disconnectClient`. -/
  | send (msg : OutputMessage) (throws : Bool)
  /-- The pending write is done. -/
  | complete (throws : Bool)
  /-- It fails after some bytes. -/
  | fail (count : Nat)
  /-- Of `disconnect`, of a timer, or of the reading side. -/
  | close (force : Bool)

namespace State

/-- There is no result where the program is undefined. -/
def step (protocol : Protocol) (s : State) : Action → Option State
  | .write msg throws => s.writeToOutputBuffer protocol msg throws
  | .autosend throws => s.autosend protocol throws
  | .send msg throws => s.send protocol msg false throws
  | .complete throws =>
      match s.writes with
      | [] => some s
      | write :: writes =>
          if write.live then
            { s with writes := writes, wire := s.wire ++ write.bytes }.onWriteOperation protocol
              false throws
          else some s
  | .fail count =>
      match s.writes with
      | [] => some s
      | write :: writes =>
          { s with
            writes := writes
            wire := s.wire ++ if write.live then write.bytes.take count else []
          }.onWriteOperation protocol true false
  | .close force => some (s.close force)

def run (protocol : Protocol) (s : State) (actions : List Action) : Option State :=
  actions.foldlM (step protocol) s

end State

/-- A message that fits into a packet. -/
def Fits (msg : OutputMessage) : Prop :=
  ∃ bytes, Holds msg bytes ∧ bytes.length ≤ maxProtocolBodyLength

/-- Nothing fails, and the socket is not cut. -/
def Action.Smooth : Action → Prop
  | .write _ throws => throws = false
  | .autosend throws => throws = false
  | .send _ throws => throws = false
  | .complete throws => throws = false
  | .fail _ => False
  | .close force => force = false

def Action.Fits : Action → Prop
  | .write msg _ => msg.length ≤ maxProtocolBodyLength
  | .send msg _ => Connection.Fits msg
  | _ => True

/-! ## Reading packets -/

section Reading

variable {key : Xtea.RoundKeys} {packet : OutputMessage} {bytes : List UInt8}

theorem asyncRead_append {msg msg' : NetworkMessage} {p n : Nat} {wire rest : List UInt8}
    (h : asyncRead msg p n wire = some (msg', rest)) (more : List UInt8) :
    asyncRead msg p n (wire ++ more) = some (msg', rest ++ more) := by
  rw [asyncRead] at h
  split at h
  · rename_i hfit
    obtain ⟨rfl, rfl⟩ := Prod.mk.inj (Option.some.inj h)
    have hle : n ≤ (wire ++ more).length := by
      rw [List.length_append]
      exact Nat.le_add_right_of_le hfit.1
    rw [asyncRead, dif_pos ⟨hle, hfit.2⟩]
    simp only [List.take_append_of_le_length hfit.1, List.drop_append_of_le_length hfit.1]
  · cases h

/-- The header is what was read last. -/
theorem asyncRead_header {msg head : NetworkMessage} {wire rest : List UInt8}
    (h : asyncRead msg 0 headerLength wire = some (head, rest)) :
    head.getLengthHeader = leNat (wire.take headerLength) ∧ rest = wire.drop headerLength := by
  rw [asyncRead] at h
  split at h
  · rename_i hfit
    obtain ⟨rfl, rfl⟩ := Prod.mk.inj (Option.some.inj h)
    have hself := readAt_writeAt_self (wire.take headerLength) (Nat.zero_le msg.buffer.length)
    rw [List.length_take_of_le hfit.1] at hself
    exact ⟨congrArg leNat hself, rfl⟩
  · cases h

theorem parseHeader_eq {head body : NetworkMessage} {wire rest : List UInt8}
    (h : parseHeader head wire = some (body, rest)) :
    asyncRead { head with length := head.getLengthHeader + headerLength, position := headerLength }
        headerLength head.getLengthHeader wire = some (body, rest) ∧
      ¬ (head.getLengthHeader = 0 ∨ networkMessageMaxSize - 16 ≤ head.getLengthHeader) := by
  simp only [parseHeader] at h
  split at h
  · cases h
  · rename_i hsize
    exact ⟨h, hsize⟩

theorem length_of_asyncRead {msg msg' : NetworkMessage} {p n : Nat} {wire rest : List UInt8}
    (h : asyncRead msg p n wire = some (msg', rest)) : n ≤ wire.length ∧ rest = wire.drop n := by
  rw [asyncRead] at h
  split at h
  · rename_i hfit
    obtain ⟨rfl, rfl⟩ := Prod.mk.inj (Option.some.inj h)
    exact ⟨hfit.1, rfl⟩
  · cases h

/-- Behind a packet the next one begins. -/
theorem reads_framed (h : Framed key bytes packet) :
    Frames.Reads (receiveNext key) packet.wire (some bytes) := by
  intro msg more
  obtain ⟨msg', hreceive, -, hcontent⟩ := h.received msg
  simp only [receive, Option.bind_eq_bind, Option.bind_eq_some_iff] at hreceive
  obtain ⟨⟨head, rest⟩, hhead, ⟨body, rest'⟩, hbody, plain, hplain, hresult⟩ := hreceive
  obtain ⟨-, rfl⟩ := Prod.mk.inj (Option.some.inj hresult)
  obtain ⟨hread, hsize⟩ := parseHeader_eq hbody
  obtain ⟨hlength, rfl⟩ := asyncRead_header hhead
  obtain ⟨-, rfl⟩ := length_of_asyncRead hread
  have hnil : (packet.wire.drop headerLength).drop head.getLengthHeader = [] := by
    rw [hlength, h.header, List.drop_length]
  have hbody' : parseHeader head (packet.wire.drop headerLength ++ more) = some (body, more) := by
    have happend := asyncRead_append hread more
    rw [hnil, List.nil_append] at happend
    rw [parseHeader, if_neg hsize]
    exact happend
  refine ⟨plain, ?_⟩
  simp only [receiveNext, asyncRead_append hhead more, Option.bind_eq_bind, Option.bind_some,
    hbody', hplain, hcontent]

theorem partial_of_short {wire : List UInt8} {n : Nat} (hn : n < (wire.drop headerLength).length)
    (hheader : leNat (wire.take headerLength) = (wire.drop headerLength).length) :
    Frames.Partial (receiveNext key) (wire.take (headerLength + n)) := by
  intro msg
  have hread : ∀ head rest, asyncRead msg 0 headerLength (wire.take (headerLength + n)) =
      some (head, rest) → parseHeader head rest = none := by
    intro head rest hhead
    obtain ⟨hlength, rfl⟩ := asyncRead_header hhead
    rw [List.take_take, Nat.min_eq_left (Nat.le_add_right _ _), hheader] at hlength
    cases hbody : parseHeader head ((wire.take (headerLength + n)).drop headerLength) with
    | none => rfl
    | some body =>
        have hle := (length_of_asyncRead (parseHeader_eq hbody).1).1
        rw [hlength, List.drop_take, List.length_take] at hle
        omega
  simp only [receiveNext, Option.bind_eq_bind]
  cases hhead : asyncRead msg 0 headerLength (wire.take (headerLength + n)) with
  | none => rfl
  | some head =>
      simp only [Option.bind_some, hread head.1 head.2 hhead]
      rfl

theorem partial_of_lt_header {wire : List UInt8} (h : wire.length < headerLength) :
    Frames.Partial (receiveNext key) wire := by
  intro msg
  have hnone : asyncRead msg 0 headerLength wire = none := dif_neg fun hfit => by omega
  simp only [receiveNext, hnone]
  rfl

/-- Of a packet that is cut off nothing is read. -/
theorem partial_take (h : Framed key bytes packet) {count : Nat}
    (hcount : count < packet.wire.length) :
    Frames.Partial (receiveNext key) (packet.wire.take count) := by
  by_cases hheader : count < headerLength
  · refine partial_of_lt_header ?_
    rw [List.length_take]
    omega
  · obtain ⟨n, rfl⟩ := Nat.exists_eq_add_of_le (Nat.le_of_not_lt hheader)
    refine partial_of_short ?_ h.header
    rw [List.length_drop]
    omega

theorem partial_nil : Frames.Partial (receiveNext key) [] := partial_of_lt_header (by decide)

end Reading

/-! ## What the queue keeps -/

section Queue

variable (key : Xtea.RoundKeys)

/-- What is in the queue is of these payloads: the first message is written, the others wait. -/
inductive Pending : State → List Payload → Prop
  | idle {s : State} (queue : s.messageQueue = []) (writes : s.writes = []) : Pending s []
  | writing {s : State} {packet : OutputMessage} {queue : List OutputMessage} {live : Bool}
      {payload : Payload} {payloads : List Payload} (cons : s.messageQueue = packet :: queue)
      (writes : s.writes = [⟨packet.wire, live⟩]) (framed : Framed key payload.bytes packet)
      (waiting : List.Forall₂ (fun msg (p : Payload) => Holds msg p.bytes ∧
        p.bytes.length ≤ maxProtocolBodyLength) queue payloads) :
      Pending s (payload :: payloads)

/-- The wire holds whole packets, and the other messages are in the queue. -/
def Flowing (s : State) : Prop :=
  ∃ frames done payloads, List.Forall₂ (fun packet (p : Payload) => Framed key p.bytes packet)
      frames done ∧ s.wire = (frames.map OutputMessage.wire).flatten ∧
    s.accepted = done ++ payloads ∧ Pending key s payloads

/-- Nothing more is written, and what is behind the whole packets is none. -/
def Stopped (s : State) : Prop :=
  s.closed = true ∧ s.writes = [] ∧ ∃ frames done lost rest,
    List.Forall₂ (fun packet (p : Payload) => Framed key p.bytes packet) frames done ∧
    s.wire = (frames.map OutputMessage.wire).flatten ++ rest ∧ s.accepted = done ++ lost ∧
    Frames.Partial (receiveNext key) rest

/-- The buffer of the protocol holds what was written since it was sent last. -/
structure Buffered (s : State) : Prop where
  fits : ∀ msg, s.outputBuffer = some msg → Fits msg
  written : s.closed = false →
    (s.accepted.filter Payload.buffered).flatMap Payload.bytes ++
      (s.outputBuffer.elim [] fun msg => msg.content) = s.written

/-- The socket was not cut: it stays open while there is something to be written. -/
structure Open (s : State) : Prop where
  flowing : Flowing key s
  live : ∀ write ∈ s.writes, write.live = true
  socket : s.socketOpen = !(s.closed && s.messageQueue.isEmpty)

structure Inv (s : State) : Prop where
  phase : Flowing key s ∨ Stopped key s
  released : s.released = s.closed.toNat

variable {key} {s s' : State} {payloads : List Payload}

theorem Pending.congr (h : Pending key s payloads) (hqueue : s'.messageQueue = s.messageQueue)
    (hwrites : s'.writes = s.writes) : Pending key s' payloads := by
  cases h with
  | idle queue writes => exact .idle (hqueue.trans queue) (hwrites.trans writes)
  | writing cons writes framed waiting =>
      exact .writing (hqueue.trans cons) (hwrites.trans writes) framed waiting

theorem Flowing.congr (h : Flowing key s) (hwire : s'.wire = s.wire)
    (haccepted : s'.accepted = s.accepted) (hqueue : s'.messageQueue = s.messageQueue)
    (hwrites : s'.writes = s.writes) : Flowing key s' := by
  obtain ⟨frames, done, payloads, hframes, heq, hsplit, hpending⟩ := h
  exact ⟨frames, done, payloads, hframes, hwire.trans heq, haccepted.trans hsplit,
    hpending.congr hqueue hwrites⟩

theorem Stopped.congr (h : Stopped key s) (hclosed : s'.closed = s.closed)
    (hwrites : s'.writes = s.writes) (hwire : s'.wire = s.wire)
    (haccepted : s'.accepted = s.accepted) : Stopped key s' := by
  obtain ⟨hc, hw, frames, done, lost, rest, hframes, heq, hsplit, hrest⟩ := h
  exact ⟨hclosed.trans hc, hwrites.trans hw, frames, done, lost, rest, hframes, hwire.trans heq,
    haccepted.trans hsplit, hrest⟩

/-- The buffer of the protocol is apart. -/
theorem Open.congr (h : Open key s) (outputBuffer : Option OutputMessage) (written : List UInt8) :
    Open key { s with outputBuffer := outputBuffer, written := written } :=
  ⟨h.flowing.congr rfl rfl rfl rfl, h.live, h.socket⟩

theorem Open.queue_nil (h : Open key s) (hwrites : s.writes = []) : s.messageQueue = [] := by
  obtain ⟨-, -, payloads, -, -, -, hpending⟩ := h.flowing
  cases hpending with
  | idle queue writes => exact queue
  | writing cons writes framed waiting =>
      rw [writes] at hwrites
      cases hwrites

/-- What is in the queue is given up. -/
theorem Flowing.stopped (h : Flowing key s) (hclosed : s'.closed = true) (hwrites : s'.writes = [])
    (hwire : s'.wire = s.wire) (haccepted : s'.accepted = s.accepted) : Stopped key s' := by
  obtain ⟨frames, done, payloads, hframes, heq, hsplit, -⟩ := h
  refine ⟨hclosed, hwrites, frames, done, payloads, [], hframes, ?_, haccepted.trans hsplit,
    partial_nil⟩
  rw [List.append_nil, hwire, heq]

end Queue

/-! ## What the operations do -/

namespace State

section Close

variable (s : State) (force : Bool)

/-- Only the flags are set. -/
theorem close_eq : s.close force =
    { s with
      closed := true
      released := if s.closed then s.released else s.released + 1
      socketOpen := s.socketOpen && (s.closed || !(force || s.messageQueue.isEmpty)) } := by
  obtain ⟨outputBuffer, queue, closed, socketOpen, writes, released, wire, accepted, written⟩ := s
  cases closed <;> cases queue <;> cases force <;> simp [close, closeSocket]

end Close

/-- The operations of the connection leave the buffer of the protocol alone. -/
structure SameBuffer (s s' : State) : Prop where
  outputBuffer : s'.outputBuffer = s.outputBuffer
  written : s'.written = s.written
  closed : s.closed = true → s'.closed = true

variable {key : Xtea.RoundKeys} {s : State}

theorem internalSend_eq {msg : OutputMessage} {queue : List OutputMessage} {bytes : List UInt8}
    (hqueue : s.messageQueue = msg :: queue) (hmsg : Holds msg bytes)
    (hle : bytes.length ≤ maxProtocolBodyLength) (throws : Bool) :
    ∃ packet, Framed key bytes packet ∧ s.internalSend (.sealing key) throws =
      some (if throws then { s with messageQueue := packet :: queue }.close true
        else { s with
          messageQueue := packet :: queue
          writes := s.writes ++ [⟨packet.wire, s.socketOpen⟩] }) := by
  obtain ⟨packet, hpacket⟩ := onSendMessage_of_le key hmsg hle
  refine ⟨packet, framed_of_le hmsg hpacket hle, ?_⟩
  simp only [internalSend, hqueue, hpacket, Option.bind_eq_bind, Option.bind_some]

end State

namespace Inv

variable {key : Xtea.RoundKeys} {s : State}

theorem init : Inv key State.init where
  phase := .inl ⟨[], [], [], .nil, rfl, rfl, .idle rfl rfl⟩
  released := rfl

theorem released_close (h : s.released = s.closed.toNat) :
    (if s.closed then s.released else s.released + 1) = 1 := by
  cases hclosed : s.closed with
  | false =>
      rw [hclosed] at h
      exact congrArg (· + 1) h
  | true =>
      rw [hclosed] at h
      exact h

theorem close (h : Inv key s) (force : Bool) : Inv key (s.close force) := by
  rw [State.close_eq]
  refine ⟨?_, ?_⟩
  · rcases h.phase with hflowing | hstopped
    · exact .inl (hflowing.congr rfl rfl rfl rfl)
    · exact .inr (hstopped.congr hstopped.1.symm rfl rfl rfl)
  · exact released_close h.released

/-- The first message of a queue whose write is over, or that was empty. -/
theorem internalSend (hreleased : s.released = s.closed.toNat) {frames : List OutputMessage}
    {done payloads : List Payload}
    (hframes : List.Forall₂ (fun packet (p : Payload) => Framed key p.bytes packet) frames done)
    (hwire : s.wire = (frames.map OutputMessage.wire).flatten) {msg : OutputMessage}
    {queue : List OutputMessage} {payload : Payload} (hqueue : s.messageQueue = msg :: queue)
    (hwrites : s.writes = []) (hmsg : Holds msg payload.bytes)
    (hle : payload.bytes.length ≤ maxProtocolBodyLength)
    (hwaiting : List.Forall₂ (fun msg (p : Payload) => Holds msg p.bytes ∧
      p.bytes.length ≤ maxProtocolBodyLength) queue payloads)
    (haccepted : s.accepted = done ++ payload :: payloads) (throws : Bool) :
    ∃ s', s.internalSend (.sealing key) throws = some s' ∧ Inv key s' ∧ State.SameBuffer s s' ∧
      s'.accepted = s.accepted ∧
      (throws = false → s.socketOpen = true →
        Open key s' ∧ s'.messageQueue.length = s.messageQueue.length ∧ s'.closed = s.closed) := by
  obtain ⟨packet, hframed, heq⟩ := State.internalSend_eq hqueue hmsg hle throws
  have hflowing : ∀ live, Flowing key { s with
      messageQueue := packet :: queue
      writes := s.writes ++ [⟨packet.wire, live⟩] } := by
    intro live
    have hone : s.writes ++ [(⟨packet.wire, live⟩ : Write)] = [⟨packet.wire, live⟩] :=
      congrArg (· ++ [_]) hwrites
    exact ⟨frames, done, _, hframes, hwire, haccepted, .writing rfl hone hframed hwaiting⟩
  refine ⟨_, heq, ?_⟩
  cases throws with
  | false =>
      refine ⟨⟨.inl (hflowing _), hreleased⟩, ⟨rfl, rfl, id⟩, rfl, fun _ hsocket => ⟨⟨hflowing _,
        fun write hwrite => ?_, ?_⟩, ?_, rfl⟩⟩
      · rw [if_neg Bool.false_ne_true, hwrites] at hwrite
        rw [List.mem_singleton.mp hwrite]
        exact hsocket
      · exact hsocket.trans (congrArg not (Bool.and_false _)).symm
      · rw [hqueue]
        rfl
  | true =>
      have hclose : Inv key ({ s with messageQueue := packet :: queue }.close true) := by
        rw [State.close_eq]
        refine ⟨.inr ((hflowing true).stopped rfl hwrites rfl rfl), ?_⟩
        exact released_close hreleased
      rw [if_pos rfl]
      refine ⟨hclose, ?_⟩
      rw [State.close_eq]
      exact ⟨⟨rfl, rfl, fun _ => rfl⟩, rfl, fun hfalse => by cases hfalse⟩

theorem send (h : Inv key s) {msg : OutputMessage} (hfits : Fits msg) (buffered throws : Bool) :
    ∃ s', s.send (.sealing key) msg buffered throws = some s' ∧ Inv key s' ∧ State.SameBuffer s s' ∧
      (¬ s.closed = true → s'.accepted = s.accepted ++ [⟨buffered, msg.content⟩]) ∧
      (throws = false → Open key s → Open key s') := by
  obtain ⟨bytes, hmsg, hle⟩ := hfits
  obtain rfl := hmsg.content_eq
  by_cases hclosed : s.closed = true
  · exact ⟨s, if_pos hclosed, h, ⟨rfl, rfl, id⟩, fun hopen => absurd hclosed hopen, fun _ => id⟩
  · rcases h.phase with ⟨frames, done, payloads, hframes, hwire, haccepted, hpending⟩ | hstopped
    · have hsplit : s.accepted ++ [(⟨buffered, msg.content⟩ : Payload)] =
          done ++ (payloads ++ [⟨buffered, msg.content⟩]) := by
        rw [haccepted, List.append_assoc]
      rw [State.send, if_neg hclosed]
      cases hpending with
      | idle queue writes =>
          rw [if_pos queue, queue]
          obtain ⟨s', hs', hinv, hsame, hacc, hopen⟩ := internalSend
            (s := { s with
              messageQueue := [] ++ [msg]
              accepted := s.accepted ++ [⟨buffered, msg.content⟩] })
            h.released hframes hwire rfl writes
            (show Holds msg (Payload.bytes ⟨buffered, msg.content⟩) from hmsg) hle .nil hsplit throws
          refine ⟨s', hs', hinv, ⟨hsame.outputBuffer, hsame.written, hsame.closed⟩, fun _ => hacc,
            fun hthrows hs => (hopen hthrows ?_).1⟩
          rw [hs.socket, Bool.eq_false_iff.mpr hclosed]
          rfl
      | @writing packet queue _ _ _ cons writes framed waiting =>
          rw [if_neg (by rw [cons]; exact List.cons_ne_nil _ _), cons]
          have hflowing : Flowing key { s with
              messageQueue := packet :: queue ++ [msg]
              accepted := s.accepted ++ [⟨buffered, msg.content⟩] } :=
            ⟨frames, done, _, hframes, hwire, hsplit,
              .writing rfl writes framed (List.rel_append waiting (.cons ⟨hmsg, hle⟩ .nil))⟩
          refine ⟨_, rfl, ⟨.inl hflowing, h.released⟩, ⟨rfl, rfl, id⟩, fun _ => rfl,
            fun _ hs => ⟨hflowing, hs.live, ?_⟩⟩
          rw [hs.socket, cons]
          rfl
    · exact absurd hstopped.1 hclosed

/-- A packet that was written in full counts, and the next one follows it. -/
theorem complete (h : Inv key s) (throws : Bool) :
    ∃ s', s.step (.sealing key) (.complete throws) = some s' ∧ Inv key s' ∧
      State.SameBuffer s s' ∧ s'.accepted = s.accepted ∧ (throws = false → Open key s →
        Open key s' ∧ s'.messageQueue.length = s.messageQueue.length - 1 ∧
          s'.closed = s.closed) := by
  rcases h.phase with ⟨frames, done, payloads, hframes, hwire, haccepted, hpending⟩ | hstopped
  · cases hpending with
    | idle queue writes =>
        refine ⟨s, by rw [State.step, writes], h, ⟨rfl, rfl, id⟩, rfl, fun _ hs => ⟨hs, ?_, rfl⟩⟩
        rw [queue]
        rfl
    | @writing packet queue live payload payloads cons writes framed waiting =>
        cases live with
        | false =>
            refine ⟨s, ?_, h, ⟨rfl, rfl, id⟩, rfl, fun _ hs => ?_⟩
            · rw [State.step, writes]
              exact if_neg Bool.false_ne_true
            · have hlive := hs.live _ (by rw [writes]; exact List.mem_singleton_self _)
              cases hlive
        | true =>
            have hframes' := List.rel_append hframes (.cons framed .nil)
            have hwire' : s.wire ++ packet.wire =
                ((frames ++ [packet]).map OutputMessage.wire).flatten := by
              rw [hwire, List.map_append, List.flatten_append]
              simp
            have haccepted' : s.accepted = done ++ [payload] ++ payloads := by
              rw [haccepted, List.append_assoc]
              rfl
            simp only [State.step, writes, if_true, State.onWriteOperation, cons,
              Bool.false_eq_true, if_false]
            cases waiting with
            | nil =>
                have hflowing : ∀ socketOpen, Flowing key { s with
                    writes := []
                    wire := s.wire ++ packet.wire
                    messageQueue := []
                    socketOpen := socketOpen } := fun _ =>
                  ⟨_, _, [], hframes', hwire', haccepted', .idle rfl rfl⟩
                have hnone : ∀ write ∈ ([] : List Write), write.live = true :=
                  fun _ hwrite => by cases hwrite
                refine ⟨_, if_pos rfl, ?_⟩
                by_cases hclosed : s.closed = true
                · rw [if_pos hclosed]
                  refine ⟨⟨.inl (hflowing false), h.released⟩, ⟨rfl, rfl, id⟩, rfl,
                    fun _ hs => ⟨⟨hflowing false, hnone, ?_⟩, rfl, rfl⟩⟩
                  change false = !(s.closed && true)
                  rw [hclosed]
                  rfl
                · rw [if_neg hclosed]
                  refine ⟨⟨.inl (hflowing s.socketOpen), h.released⟩, ⟨rfl, rfl, id⟩, rfl,
                    fun _ hs => ⟨⟨hflowing s.socketOpen, hnone, ?_⟩, rfl, rfl⟩⟩
                  have hsocket := hs.socket
                  rw [Bool.eq_false_iff.mpr hclosed] at hsocket ⊢
                  exact hsocket
            | cons hmsg hwaiting =>
                rw [if_neg (List.cons_ne_nil _ _)]
                obtain ⟨s', hs', hinv, hsame, hacc, hopen⟩ := internalSend
                  (s := { s with
                    writes := []
                    wire := s.wire ++ packet.wire
                    messageQueue := _ :: _ }) h.released hframes' hwire' rfl rfl hmsg.1 hmsg.2
                  hwaiting haccepted' throws
                refine ⟨s', hs', hinv, ⟨hsame.outputBuffer, hsame.written, hsame.closed⟩, hacc,
                  fun hthrows hs => hopen hthrows ?_⟩
                rw [hs.socket, cons]
                exact congrArg not (Bool.and_false _)
  · refine ⟨s, by rw [State.step, hstopped.2.1], h, ⟨rfl, rfl, id⟩, rfl,
      fun _ hs => ⟨hs, ?_, rfl⟩⟩
    rw [hs.queue_nil hstopped.2.1]
    rfl

/-- After an error nothing is written. -/
theorem fail (h : Inv key s) (count : Nat) :
    ∃ s', s.step (.sealing key) (.fail count) = some s' ∧ Inv key s' ∧ State.SameBuffer s s' ∧
      s'.accepted = s.accepted := by
  rcases h.phase with ⟨frames, done, payloads, hframes, hwire, haccepted, hpending⟩ | hstopped
  · cases hpending with
    | idle queue writes => exact ⟨s, by rw [State.step, writes], h, ⟨rfl, rfl, id⟩, rfl⟩
    | @writing packet queue live payload payloads cons writes framed waiting =>
        simp only [State.step, writes, State.onWriteOperation, cons, if_true, State.close_eq]
        refine ⟨_, rfl, ⟨.inr ⟨rfl, rfl, ?_⟩, released_close h.released⟩, ⟨rfl, rfl, fun _ => rfl⟩,
          rfl⟩
        by_cases hwhole : live = true ∧ packet.wire.length ≤ count
        · refine ⟨frames ++ [packet], done ++ [payload], payloads, [],
            List.rel_append hframes (.cons framed .nil), ?_, ?_, partial_nil⟩
          · simp [hwire, hwhole.1, List.take_of_length_le hwhole.2]
          · rw [haccepted, List.append_assoc]
            rfl
        · refine ⟨frames, done, payload :: payloads, _, hframes, congrArg (· ++ _) hwire, haccepted,
            ?_⟩
          cases live with
          | false => exact partial_nil
          | true => exact partial_take framed (Nat.lt_of_not_le fun hle => hwhole ⟨rfl, hle⟩)
  · exact ⟨s, by rw [State.step, hstopped.2.1], h, ⟨rfl, rfl, id⟩, rfl⟩

end Inv

namespace Buffered

variable {key : Xtea.RoundKeys} {s s' : State}

theorem init : Buffered State.init where
  fits msg h := by cases h
  written _ := rfl

/-- Where nothing of the buffer is accepted, it stays as it is. -/
theorem congr (h : Buffered s) (hsame : State.SameBuffer s s')
    (haccepted : ¬ s.closed = true → s'.accepted.filter Payload.buffered =
      s.accepted.filter Payload.buffered) : Buffered s' where
  fits msg hmsg := h.fits msg (hsame.outputBuffer.symm.trans hmsg)
  written hclosed := by
    have hopen : ¬ s.closed = true := fun hs => by
      rw [hsame.closed hs] at hclosed
      cases hclosed
    rw [haccepted hopen, hsame.outputBuffer, hsame.written]
    exact h.written (Bool.eq_false_iff.mpr hopen)

/-- What was in the buffer is accepted, or lost with the connection. -/
theorem flush (h : Buffered s) {msg : OutputMessage} (hmsg : s.outputBuffer = some msg)
    (hclosed : s.closed = true → s'.closed = true) (hwritten : s'.written = s.written)
    (haccepted : ¬ s.closed = true → s'.accepted = s.accepted ++ [⟨true, msg.content⟩])
    (hfits : ∀ out, s'.outputBuffer = some out → Fits out)
    (hempty : (s'.outputBuffer.elim [] fun out => out.content) = []) : Buffered s' where
  fits := hfits
  written hfalse := by
    have hopen : ¬ s.closed = true := fun hs => by
      rw [hclosed hs] at hfalse
      cases hfalse
    have hold := h.written (Bool.eq_false_iff.mpr hopen)
    rw [hmsg] at hold
    rw [hempty, haccepted hopen, hwritten, ← hold, List.append_nil, List.filter_append,
      List.flatMap_append]
    exact congrArg _ (List.append_nil _)

end Buffered

namespace Open

variable {key : Xtea.RoundKeys} {s : State}

theorem init (key : Xtea.RoundKeys) : Open key State.init where
  flowing := ⟨[], [], [], .nil, rfl, rfl, .idle rfl rfl⟩
  live _ h := by cases h
  socket := rfl

theorem close (h : Open key s) {force : Bool} (hforce : force = false) :
    Open key (s.close force) := by
  rw [State.close_eq]
  refine ⟨h.flowing.congr rfl rfl rfl rfl, h.live, ?_⟩
  change (s.socketOpen && (s.closed || !(force || s.messageQueue.isEmpty))) = _
  rw [h.socket, hforce]
  cases s.closed <;> cases s.messageQueue <;> rfl

/-- Every write takes a message from the queue. -/
theorem drain (h : Open key s) (hinv : Inv key s) {n : Nat} (hn : s.messageQueue.length = n) :
    ∃ t, s.run (.sealing key) (List.replicate n (.complete false)) = some t ∧ Open key t ∧
      t.messageQueue = [] ∧ t.accepted = s.accepted ∧ t.closed = s.closed := by
  induction n generalizing s with
  | zero => exact ⟨s, rfl, h, List.length_eq_zero_iff.mp hn, rfl, rfl⟩
  | succ n ih =>
      obtain ⟨s', hs', hinv', hsame, haccepted, hopen⟩ := hinv.complete false
      obtain ⟨hopen', hlength, hclosed'⟩ := hopen rfl h
      obtain ⟨t, ht, hopen'', hnil, haccepted', hclosed⟩ := ih hopen' hinv' (by omega)
      refine ⟨t, ?_, hopen'', hnil, haccepted'.trans haccepted, hclosed.trans hclosed'⟩
      rw [State.run, List.replicate_succ, List.foldlM_cons, hs']
      exact ht

end Open

/-! ## Runs -/

structure Good (key : Xtea.RoundKeys) (s : State) : Prop where
  inv : Inv key s
  buffered : Buffered s

namespace Good

variable {key : Xtea.RoundKeys} {s : State}

theorem init : Good key State.init := ⟨Inv.init, Buffered.init⟩

theorem fits_new : Fits OutputMessage.new := ⟨[], holds_new, Nat.zero_le _⟩

theorem getOutputBuffer (h : Good key s) {size : Nat} (hsize : size ≤ maxProtocolBodyLength)
    (throws : Bool) :
    ∃ s' msg, s.getOutputBuffer (.sealing key) size throws = some s' ∧ Good key s' ∧
      s'.outputBuffer = some msg ∧ msg.length + size ≤ maxProtocolBodyLength ∧
      (throws = false → Open key s → Open key s') := by
  have hroom : OutputMessage.new.length + size ≤ maxProtocolBodyLength := by
    rw [show OutputMessage.new.length = 0 from rfl, Nat.zero_add]
    exact hsize
  have hfits : ∀ out, some OutputMessage.new = some out → Fits out := by
    rintro out hout
    obtain rfl := Option.some.inj hout
    exact fits_new
  cases hmsg : s.outputBuffer with
  | none =>
      refine ⟨{ s with outputBuffer := some OutputMessage.new }, OutputMessage.new, ?_,
        ⟨⟨?_, h.inv.released⟩, hfits, ?_⟩, rfl, hroom, fun _ hs => hs.congr _ _⟩
      · rw [State.getOutputBuffer, hmsg]
      · exact h.inv.phase.imp (fun hf => hf.congr rfl rfl rfl rfl)
          fun hs => hs.congr rfl rfl rfl rfl
      · intro hclosed
        have hwritten := h.buffered.written hclosed
        rw [hmsg] at hwritten
        exact hwritten
  | some msg =>
      rw [State.getOutputBuffer, hmsg]
      by_cases hfull : maxProtocolBodyLength < msg.length + size
      · obtain ⟨s', hs', hinv, hsame, haccepted, hopen⟩ :=
          h.inv.send (h.buffered.fits msg hmsg) true throws
        refine ⟨{ s' with outputBuffer := some OutputMessage.new }, OutputMessage.new, ?_,
          ⟨⟨?_, hinv.released⟩, ?_⟩, rfl, hroom, fun hthrows hs => (hopen hthrows hs).congr _ _⟩
        · simp only [if_pos hfull, hs', Option.map_some]
        · exact hinv.phase.imp (fun hf => hf.congr rfl rfl rfl rfl)
            fun hs => hs.congr rfl rfl rfl rfl
        · exact h.buffered.flush hmsg hsame.closed hsame.written haccepted hfits
            NetworkMessage.content_new
      · exact ⟨s, msg, if_neg hfull, h, hmsg, Nat.le_of_not_lt hfull, fun _ => id⟩

theorem write (h : Good key s) {msg : NetworkMessage} (hmsg : msg.length ≤ maxProtocolBodyLength)
    (throws : Bool) :
    ∃ s', s.step (.sealing key) (.write msg throws) = some s' ∧ Good key s' ∧
      (throws = false → Open key s → Open key s') := by
  obtain ⟨s', out, hs', hgood, hout, hroom, hopen⟩ := h.getOutputBuffer hmsg throws
  obtain ⟨bytes, hholds, -⟩ := hgood.buffered.fits out hout
  have hcontent : msg.content.length ≤ msg.length := List.length_take_le _ _
  rw [hholds.length_eq] at hroom
  have hle : (bytes ++ (BuildOp.append msg).bytes bytes.length).length ≤ maxProtocolBodyLength := by
    rw [List.length_append]
    exact Nat.le_trans (Nat.add_le_add_left hcontent _) hroom
  obtain ⟨out', hout'⟩ := hholds.run_of_le hle
  have hholds' := hholds.run hout'
  refine ⟨{ s' with outputBuffer := some out', written := s'.written ++ msg.content }, ?_,
    ⟨⟨?_, hgood.inv.released⟩, ?_, fun hclosed => ?_⟩, fun hthrows hs => (hopen hthrows hs).congr _ _⟩
  · simp only [State.step, State.writeToOutputBuffer, hs', hout, Option.bind_eq_bind,
      Option.bind_some]
    rw [show out.append msg = some out' from hout']
    rfl
  · exact hgood.inv.phase.imp (fun hf => hf.congr rfl rfl rfl rfl) fun hs => hs.congr rfl rfl rfl rfl
  · rintro o ho
    obtain rfl := Option.some.inj ho
    exact ⟨_, hholds', hle⟩
  · have hwritten := hgood.buffered.written hclosed
    rw [hout] at hwritten
    change _ ++ out'.content = s'.written ++ msg.content
    rw [← hwritten, hholds'.content_eq, List.append_assoc]
    exact congrArg (_ ++ ·) (congrArg (· ++ msg.content) hholds.content_eq.symm)

theorem autosend (h : Good key s) (throws : Bool) :
    ∃ s', s.step (.sealing key) (.autosend throws) = some s' ∧ Good key s' ∧
      (throws = false → Open key s → Open key s') := by
  cases hmsg : s.outputBuffer with
  | none => exact ⟨s, by rw [State.step, State.autosend, hmsg], h, fun _ => id⟩
  | some msg =>
      have hinv : Inv key { s with outputBuffer := none } :=
        ⟨h.inv.phase.imp (fun hf => hf.congr rfl rfl rfl rfl) fun hs => hs.congr rfl rfl rfl rfl,
          h.inv.released⟩
      obtain ⟨s', hs', hinv', hsame, haccepted, hopen⟩ :=
        hinv.send (h.buffered.fits msg hmsg) true throws
      have hnone : s'.outputBuffer = none := hsame.outputBuffer
      refine ⟨s', by rw [State.step, State.autosend, hmsg]; exact hs', ⟨hinv',
        h.buffered.flush hmsg hsame.closed hsame.written haccepted ?_ ?_⟩,
        fun hthrows hs => hopen hthrows (hs.congr none s.written)⟩
      · rw [hnone]
        intro out hout
        cases hout
      · rw [hnone]
        rfl

theorem step (h : Good key s) {action : Action} (hfits : action.Fits) :
    ∃ s', s.step (.sealing key) action = some s' ∧ Good key s' ∧
      (action.Smooth → Open key s → Open key s') := by
  cases action with
  | write msg throws => exact h.write hfits throws
  | autosend throws => exact h.autosend throws
  | send msg throws =>
      obtain ⟨s', hs', hinv, hsame, haccepted, hopen⟩ := h.inv.send hfits false throws
      refine ⟨s', hs', ⟨hinv, h.buffered.congr hsame fun hclosed => ?_⟩, hopen⟩
      rw [haccepted hclosed, List.filter_append]
      exact List.append_nil _
  | complete throws =>
      obtain ⟨s', hs', hinv, hsame, haccepted, hopen⟩ := h.inv.complete throws
      exact ⟨s', hs', ⟨hinv, h.buffered.congr hsame fun _ => congrArg _ haccepted⟩,
        fun hthrows hs => (hopen hthrows hs).1⟩
  | fail count =>
      obtain ⟨s', hs', hinv, hsame, haccepted⟩ := h.inv.fail count
      exact ⟨s', hs', ⟨hinv, h.buffered.congr hsame fun _ => congrArg _ haccepted⟩,
        fun hfalse => hfalse.elim⟩
  | close force =>
      refine ⟨_, rfl, ⟨h.inv.close force, h.buffered.congr ?_ fun _ => ?_⟩, fun hforce hs => ?_⟩
      · rw [State.close_eq]
        exact ⟨rfl, rfl, fun _ => rfl⟩
      · rw [State.close_eq]
      · exact hs.close hforce

theorem run (h : Good key s) {actions : List Action} (hfits : ∀ action ∈ actions, action.Fits) :
    ∃ s', s.run (.sealing key) actions = some s' ∧ Good key s' ∧
      ((∀ action ∈ actions, action.Smooth) → Open key s → Open key s') := by
  induction actions generalizing s with
  | nil => exact ⟨s, rfl, h, fun _ => id⟩
  | cons action actions ih =>
      obtain ⟨hfirst, hrest⟩ := List.forall_mem_cons.mp hfits
      obtain ⟨s', hs', hgood, hopen⟩ := h.step hfirst
      obtain ⟨t, ht, hgood', hopen'⟩ := ih hgood hrest
      refine ⟨t, by rw [State.run, List.foldlM_cons, hs']; exact ht, hgood', fun hsmooth hs => ?_⟩
      obtain ⟨hfirst', hrest'⟩ := List.forall_mem_cons.mp hsmooth
      exact hopen' hrest' (hopen hfirst' hs)

end Good

/-! ## Delivery -/

/-- What a client makes of the wire, and what is on its way. -/
structure Delivered (key : Xtea.RoundKeys) (s : State) : Prop where
  /-- The client reads the messages in their order, each one whole and once. -/
  reads : ∃ done rest, s.accepted = done ++ rest ∧
    ∀ msg, received key msg s.wire = done.map fun payload => some payload.bytes
  /-- Until it is closed, what was written is in the messages and the buffer. -/
  written : s.closed = false →
    (s.accepted.filter Payload.buffered).flatMap Payload.bytes ++
      (s.outputBuffer.elim [] fun msg => msg.content) = s.written
  /-- No two writes are pending. -/
  single : s.writes.length ≤ 1
  released : s.released = s.closed.toNat

theorem received_eq {key : Xtea.RoundKeys} {frames : List OutputMessage} {done : List Payload}
    {rest : List UInt8}
    (hframes : List.Forall₂ (fun packet (p : Payload) => Framed key p.bytes packet) frames done)
    (hrest : Frames.Partial (receiveNext key) rest) (msg : NetworkMessage) :
    received key msg ((frames.map OutputMessage.wire).flatten ++ rest) =
      done.map fun payload => some payload.bytes := by
  refine Frames.unframe_all ?_ partial_nil hrest msg
  rw [List.forall₂_map_left_iff, List.forall₂_map_right_iff]
  exact hframes.imp fun _ _ => reads_framed

theorem Good.delivered {key : Xtea.RoundKeys} {s : State} (h : Good key s) : Delivered key s where
  reads := by
    rcases h.inv.phase with ⟨frames, done, payloads, hframes, hwire, haccepted, -⟩ |
        ⟨-, -, frames, done, lost, rest, hframes, hwire, haccepted, hrest⟩
    · refine ⟨done, payloads, haccepted, fun msg => ?_⟩
      rw [hwire, ← List.append_nil (frames.map OutputMessage.wire).flatten]
      exact received_eq hframes partial_nil msg
    · refine ⟨done, lost, haccepted, fun msg => ?_⟩
      rw [hwire]
      exact received_eq hframes hrest msg
  written := h.buffered.written
  single := by
    rcases h.inv.phase with ⟨-, -, payloads, -, -, -, hpending⟩ | hstopped
    · cases hpending with
      | idle queue writes => rw [writes]; exact Nat.zero_le 1
      | writing cons writes framed waiting => rw [writes]; exact Nat.le_refl 1
    · rw [hstopped.2.1]
      exact Nat.zero_le 1
  released := h.inv.released

/-- With nothing left in the queue everything was read. -/
theorem Open.received {key : Xtea.RoundKeys} {s : State} (h : Open key s)
    (hnil : s.messageQueue = []) (msg : NetworkMessage) :
    received key msg s.wire = s.accepted.map fun payload => some payload.bytes := by
  obtain ⟨frames, done, payloads, hframes, hwire, haccepted, hpending⟩ := h.flowing
  cases hpending with
  | idle queue writes =>
      rw [haccepted, hwire, List.append_nil, ← List.append_nil (frames.map OutputMessage.wire).flatten]
      exact received_eq hframes partial_nil msg
  | writing cons writes framed waiting =>
      rw [cons] at hnil
      cases hnil

/-- Whatever is written, sent, completed, cut off and closed in any order: the program is defined,
and delivers a prefix of what it was given. -/
theorem delivery (key : Xtea.Key) (actions : List Action)
    (hfits : ∀ action ∈ actions, action.Fits) :
    ∃ s, State.init.run (.sealing (Xtea.expandKey key)) actions = some s ∧
      Delivered (Xtea.expandKey key) s := by
  obtain ⟨s, hs, hgood, -⟩ := Good.init.run hfits
  exact ⟨s, hs, hgood.delivered⟩

/-- A message of one byte. -/
def opcode : NetworkMessage := NetworkMessage.new.addByte 0x14

theorem delivery_cut : ∃ s, State.init.run (.sealing (Xtea.expandKey (Vector.replicate 4 0)))
      [.write opcode false, .autosend false, .write opcode false, .fail 3, .autosend false] =
        some s ∧ Delivered (Xtea.expandKey (Vector.replicate 4 0)) s := by
  have hfits : opcode.length ≤ maxProtocolBodyLength := by decide
  refine delivery _ _ ?_
  simp only [List.forall_mem_cons, List.not_mem_nil, false_imp_iff, implies_true, and_true]
  exact ⟨hfits, trivial, hfits, trivial, trivial⟩

/-- A connection that is not cut writes out its queue, also when it was closed, and closes the
socket only then. -/
theorem drained (key : Xtea.Key) (actions : List Action)
    (hfits : ∀ action ∈ actions, action.Fits) (hsmooth : ∀ action ∈ actions, action.Smooth) :
    ∃ s t, State.init.run (.sealing (Xtea.expandKey key)) actions = some s ∧
      s.run (.sealing (Xtea.expandKey key)) (List.replicate s.messageQueue.length
        (.complete false)) = some t ∧
      (∀ msg, received (Xtea.expandKey key) msg t.wire =
        s.accepted.map fun payload => some payload.bytes) ∧
      t.messageQueue = [] ∧ t.socketOpen = !s.closed := by
  obtain ⟨s, hs, hgood, hopen⟩ := Good.init.run hfits
  obtain ⟨t, ht, hopen', hnil, haccepted, hclosed⟩ :=
    (hopen hsmooth (Open.init _)).drain hgood.inv rfl
  refine ⟨s, t, hs, ht, fun msg => ?_, hnil, ?_⟩
  · rw [← haccepted]
    exact hopen'.received hnil msg
  · rw [hopen'.socket, hnil, hclosed]
    exact congrArg not (Bool.and_true _)

theorem drained_closed : ∃ s t,
    State.init.run (.sealing (Xtea.expandKey (Vector.replicate 4 0)))
        [.write opcode false, .autosend false, .write opcode false, .autosend false, .close false] =
      some s ∧
    s.run (.sealing (Xtea.expandKey (Vector.replicate 4 0))) (List.replicate s.messageQueue.length
        (.complete false)) = some t ∧
    (∀ msg, received (Xtea.expandKey (Vector.replicate 4 0)) msg t.wire =
      s.accepted.map fun payload => some payload.bytes) ∧
    t.messageQueue = [] ∧ t.socketOpen = !s.closed := by
  have hfits : opcode.length ≤ maxProtocolBodyLength := by decide
  refine drained _ _ ?_ ?_
  · simp only [List.forall_mem_cons, List.not_mem_nil, false_imp_iff, implies_true, and_true]
    exact ⟨hfits, trivial, hfits, trivial, trivial⟩
  · simp only [List.forall_mem_cons, List.not_mem_nil, false_imp_iff, implies_true, and_true]
    exact ⟨rfl, rfl, rfl, rfl, rfl⟩

end Bruxo.Connection
