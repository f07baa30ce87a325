import ConfProfile.Mtpd.Protocol

/-!
# The control connection of PPTP

The functions of `pptp.c`. The peer's messages come in a stream, and `recv` returns as much of it as
there is: `recvPacket` asks for what is missing of a header, then of the message, of which it keeps
the first 220 bytes. A message that is complete is handled by `pptpHandle`.

What a handled message does is said once, in `pptpHandle_handled`.
-/

namespace ConfProfile.Mtpd.Pptp

/-- `enum pptp_message` -/
inductive Message
  | SCCRQ | SCCRP | STOPCCRQ | STOPCCRP | ECHORQ | ECHORP | OCRQ | OCRP | ICRQ | ICRP | ICCN | CCRQ
  | CDN | WEN | SLI
deriving DecidableEq, Repr

namespace Message

def code : Message → BitVec 16
  | SCCRQ => 1 | SCCRP => 2 | STOPCCRQ => 3 | STOPCCRP => 4 | ECHORQ => 5 | ECHORP => 6 | OCRQ => 7
  | OCRP => 8 | ICRQ => 9 | ICRP => 10 | ICCN => 11 | CCRQ => 12 | CDN => 13 | WEN => 14 | SLI => 15

def all : List Message :=
  [SCCRQ, SCCRP, STOPCCRQ, STOPCCRP, ECHORQ, ECHORP, OCRQ, OCRP, ICRQ, ICRP, ICCN, CCRQ, CDN, WEN,
    SLI]

/-- The message of a code. -/
def ofCode (c : BitVec 16) : Option Message := all.find? fun m => m.code == c

/-- `lengths` -/
def length : Message → Nat
  | SCCRQ => 156 | SCCRP => 156 | STOPCCRQ => 16 | STOPCCRP => 16 | ECHORQ => 16 | ECHORP => 20
  | OCRQ => 168 | OCRP => 32 | ICRQ => 220 | ICRP => 24 | ICCN => 28 | CCRQ => 16 | CDN => 148
  | WEN => 40 | SLI => 24

end Message

def CONTROL_MESSAGE : BitVec 16 := 1
def MAGIC_COOKIE : Bytes := [0x1A, 0x2B, 0x3C, 0x4D]
def PROTOCOL_VERSION : BitVec 16 := 0x0100
def RESULT_OK : BitVec 8 := 1
def RESULT_ERROR : BitVec 8 := 2
def HEADER_SIZE : Nat := 8
def MIN_MESSAGE_SIZE : Nat := 10
def MAX_PACKET_LENGTH : Nat := 220

/-- `ESTABLISHED(result)` -/
def established (result : BitVec 8) : Bool := result.toNat ≤ 1

/-! ## What is received -/

/-- `incoming`: how many bytes of the message were read, how many it has, and the first 220 of
them. Between two messages `expect` is 0. -/
structure Incoming where
  length : Nat
  expect : Nat
  buffer : Bytes
deriving DecidableEq

namespace Incoming

/-- The first lines of `recv_packet`: a new message begins. -/
def start (i : Incoming) : Incoming :=
  if i.expect = 0 then { length := 0, expect := HEADER_SIZE, buffer := [] } else i

/-- How many bytes `recv` is asked for. -/
def want (i : Incoming) : Nat :=
  if MAX_PACKET_LENGTH ≤ i.start.length then i.start.expect - i.start.length
  else if MAX_PACKET_LENGTH < i.start.expect then MAX_PACKET_LENGTH - i.start.length
  else i.start.expect - i.start.length

/-- The bytes that were read. -/
def append (i : Incoming) (bytes : Bytes) : Incoming :=
  { i with
    length := i.length + bytes.length
    buffer := if MAX_PACKET_LENGTH ≤ i.length then i.buffer else i.buffer ++ bytes }

/-- The last lines of `recv_packet`: 1 is a control message. -/
def complete (i : Incoming) : Incoming × Int :=
  if i.length = i.expect then
    ({ i with expect := 0 }, if u16 i.buffer 2 = CONTROL_MESSAGE then 1 else 0)
  else (i, 0)

/-- `recv_packet`, for bytes that were read; none of them means that the connection is closed. -/
def recvPacket (i : Incoming) (bytes : Bytes) : Incoming × Int :=
  if bytes = [] then (i.start, -REMOTE_REQUESTED)
  else
    let i := i.start.append bytes
    if i.length = HEADER_SIZE ∧ i.expect = HEADER_SIZE then
      if (i.buffer.drop 4).take 4 ≠ MAGIC_COOKIE then (i, -PROTOCOL_ERROR)
      else
        let i := { i with expect := (u16 i.buffer 0).toNat }
        if i.expect < HEADER_SIZE then (i, -PROTOCOL_ERROR) else i.complete
    else i.complete

end Incoming

/-! ## What is sent -/

/-- The zeros and the header of `set_message`. -/
def setMessage (m : Message) : Bytes :=
  be16 (BitVec.ofNat 16 m.length) ++ be16 CONTROL_MESSAGE ++ MAGIC_COOKIE ++ be16 m.code ++
    List.replicate (m.length - MIN_MESSAGE_SIZE) 0

/-- A field of `outgoing`. -/
def setField (packet : Bytes) (offset : Nat) (v : Bytes) : Bytes :=
  packet.take offset ++ v ++ packet.drop (offset + v.length)

def be32 (n : Nat) : Bytes := BigEndian.bytes 4 n

/-- What is sent by `pptp_connect`. -/
def sccrq : Bytes :=
  let p := setMessage .SCCRQ
  let p := setField p 12 (be16 PROTOCOL_VERSION)
  let p := setField p 16 (be32 3)
  let p := setField p 20 (be32 3)
  let p := setField p 24 (be16 1)
  setField p 28 ("anonymous".toList.map fun c => BitVec.ofNat 8 c.toNat)

/-- The call that is asked for. -/
def ocrq (call serial : BitVec 16) : Bytes :=
  let p := setMessage .OCRQ
  let p := setField p 12 (be16 call)
  let p := setField p 14 (be16 serial)
  let p := setField p 16 (be32 1000)
  let p := setField p 20 (be32 100000000)
  let p := setField p 24 (be32 3)
  let p := setField p 28 (be32 3)
  setField p 32 (be16 8192)

def echorp (identifier : Bytes) : Bytes :=
  setField (setField (setMessage .ECHORP) 12 identifier) 16 [RESULT_OK]

/-- The refusals of the peer's calls. -/
def refusal (m : Message) (call : BitVec 16) : Bytes :=
  setField (setField (setMessage m) 14 (be16 call)) 16 [RESULT_ERROR]

/-! ## What a message does -/

/-- What a step gets from outside: random numbers, and whether the kernel gives a socket for
`pppd`. -/
structure Env where
  random : Nonzero
  serial : BitVec 16
  pppox : Bool

/-- The static variables `local`, `remote` and `state`. -/
structure Session where
  localCall : BitVec 16
  remote : BitVec 16
  state : Message
deriving DecidableEq

inductive Output
  | send (packet : Bytes)
  | startPppd (localCall remote : BitVec 16)
deriving DecidableEq

/-- What is behind `recv_packet` in `pptp_process`, for a message of that many bytes. -/
def pptpHandle (env : Env) (s : Session) (length : Nat) (buffer : Bytes) :
    Session × List Output × Result :=
  if length < MIN_MESSAGE_SIZE then (s, [], .ret 0)
  else
    match Message.ofCode (u16 buffer 8) with
    | none => (s, [], .ret 0)
    | some message =>
      if length < message.length then (s, [], .ret 0)
      else
        match message with
        | .SCCRP =>
          if s.state = .SCCRQ then
            if u16 buffer 12 = PROTOCOL_VERSION ∧ established (buffer.getD 14 0) then
              let s := { s with
                localCall := if s.localCall = 0 then env.random else s.localCall
                state := .OCRQ }
              (s, [.send (ocrq s.localCall env.serial)], .ret 0)
            else (s, [], .ret (-REMOTE_REQUESTED))
          else (s, [], .ret 0)
        | .OCRP =>
          if s.state = .OCRQ ∧ u16 buffer 14 = s.localCall then
            if established (buffer.getD 16 0) then
              let s := { s with remote := u16 buffer 12, state := .OCRP }
              if env.pppox then (s, [.startPppd s.localCall s.remote], .ret 0)
              else (s, [], .exit SYSTEM_ERROR)
            else (s, [], .ret (-REMOTE_REQUESTED))
          else (s, [], .ret 0)
        | .STOPCCRQ => ({ s with state := .STOPCCRQ }, [], .ret (-REMOTE_REQUESTED))
        | .CCRQ =>
          if s.state = .OCRP ∧ u16 buffer 12 = s.remote then (s, [], .ret (-REMOTE_REQUESTED))
          else (s, [], .ret 0)
        | .CDN =>
          if s.state = .OCRP ∧ u16 buffer 12 = s.remote then (s, [], .ret (-REMOTE_REQUESTED))
          else (s, [], .ret 0)
        | .ECHORQ => (s, [.send (echorp ((buffer.drop 12).take 4))], .ret 0)
        | .WEN => (s, [], .ret 0)
        | .SLI => (s, [], .ret 0)
        | .ICRQ => (s, [.send (refusal .ICRP (u16 buffer 12))], .ret 0)
        | .OCRQ => (s, [.send (refusal .OCRP (u16 buffer 12))], .ret 0)
        | .SCCRQ => (s, [], .ret 0)
        | .STOPCCRP => (s, [], .ret 0)
        | .ECHORP => (s, [], .ret 0)
        | .ICRP => (s, [], .ret 0)
        | .ICCN => (s, [], .ret 0)

structure State where
  incoming : Incoming
  session : Session
deriving DecidableEq

/-- `pptp_process` -/
def pptpProcess (env : Env) (s : State) (recv : Recv) : State × List Output × Result :=
  match recv with
  | .failed => ({ s with incoming := s.incoming.start }, [], .exit NETWORK_ERROR)
  | .interrupted => ({ s with incoming := s.incoming.start }, [], .ret 0)
  | .data bytes =>
    match s.incoming.recvPacket bytes with
    | (incoming, result) =>
      if result ≤ 0 then ({ s with incoming := incoming }, [], .ret result)
      else
        match pptpHandle env s.session incoming.length incoming.buffer with
        | (session, out, result) => (⟨incoming, session⟩, out, result)

/-- Where `pptp_connect` leaves the variables. -/
def pptpConnect : State × List Output × Result :=
  (⟨⟨0, 0, []⟩, ⟨0, 0, .SCCRQ⟩⟩, [.send sccrq], .ret 0)

/-! ## What a message can come to -/

/-- An echo request. -/
def EchoRequest (packet : Nat × Bytes) : Prop :=
  u16 packet.2 8 = Message.ECHORQ.code ∧ Message.ECHORQ.length ≤ packet.1

instance decidableEchoRequest (packet : Nat × Bytes) : Decidable (EchoRequest packet) :=
  inferInstanceAs (Decidable (_ ∧ _))

/-- The ways a message of that many bytes is handled. -/
inductive Handled (env : Env) (s : Session) (length : Nat) (buffer : Bytes) :
    Session × List Output × Result → Prop
  | quiet (hecho : ¬ EchoRequest (length, buffer)) : Handled env s length buffer (s, [], .ret 0)
  | ended (hecho : ¬ EchoRequest (length, buffer)) :
      Handled env s length buffer (s, [], .ret (-REMOTE_REQUESTED))
  | stopped (hecho : ¬ EchoRequest (length, buffer)) :
      Handled env s length buffer ({ s with state := .STOPCCRQ }, [], .ret (-REMOTE_REQUESTED))
  /-- The connection is confirmed, and a call is asked for. -/
  | calling (hcode : u16 buffer 8 = Message.SCCRP.code) (hstate : s.state = .SCCRQ)
      (hversion : u16 buffer 12 = PROTOCOL_VERSION) (hresult : established (buffer.getD 14 0)) :
      Handled env s length buffer
        ({ s with
            localCall := if s.localCall = 0 then env.random else s.localCall
            state := .OCRQ },
          [.send (ocrq (if s.localCall = 0 then env.random else s.localCall) env.serial)], .ret 0)
  /-- The call is confirmed. -/
  | called (hcode : u16 buffer 8 = Message.OCRP.code) (hstate : s.state = .OCRQ)
      (hpeer : u16 buffer 14 = s.localCall) (hresult : established (buffer.getD 16 0)) :
      Handled env s length buffer
        ({ s with remote := u16 buffer 12, state := .OCRP },
          [.startPppd s.localCall (u16 buffer 12)], .ret 0)
  /-- There is no socket for the call. -/
  | failed (hecho : ¬ EchoRequest (length, buffer)) (hstate : s.state = .OCRQ) :
      Handled env s length buffer
        ({ s with remote := u16 buffer 12, state := .OCRP }, [], .exit SYSTEM_ERROR)
  | echoed (hecho : EchoRequest (length, buffer)) :
      Handled env s length buffer (s, [.send (echorp ((buffer.drop 12).take 4))], .ret 0)
  /-- A call of the peer is refused. -/
  | refused (hecho : ¬ EchoRequest (length, buffer)) (m : Message) (hm : m = .ICRP ∨ m = .OCRP) :
      Handled env s length buffer (s, [.send (refusal m (u16 buffer 12))], .ret 0)

theorem Message.eq_code {c : BitVec 16} {m : Message} (h : Message.ofCode c = some m) :
    c = m.code := by
  have hcode := List.find?_some h
  exact (eq_of_beq hcode).symm

/-- Another message is no echo request. -/
theorem not_echoRequest {length : Nat} {buffer : Bytes} {m : Message}
    (hcode : u16 buffer 8 = m.code) (hm : m.code ≠ Message.ECHORQ.code) :
    ¬ EchoRequest (length, buffer) := by
  intro h
  exact hm (hcode.symm.trans h.1)

/-- Each message is handled in one of these ways. -/
theorem pptpHandle_handled (env : Env) (s : Session) (length : Nat) (buffer : Bytes) :
    Handled env s length buffer (pptpHandle env s length buffer) := by
  unfold pptpHandle
  split
  next hshort =>
    refine .quiet fun h => ?_
    exact absurd (Nat.lt_of_lt_of_le hshort (by decide)) (Nat.not_lt.mpr h.2)
  next =>
    split
    next hnone =>
      refine .quiet fun h => ?_
      rw [h.1] at hnone
      exact absurd hnone (by decide)
    next message hmessage =>
      have hcode := Message.eq_code hmessage
      split
      next hshort =>
        refine .quiet fun h => ?_
        have hecho : message = .ECHORQ := by
          have hsame := hmessage.symm.trans (congrArg Message.ofCode h.1)
          exact (Option.some.inj hsame).trans rfl
        rw [hecho] at hshort
        exact absurd hshort (Nat.not_lt.mpr h.2)
      next hlength =>
        split
        next =>
          split
          next hstate =>
            split
            next h => exact .calling hcode hstate h.1 h.2
            next => exact .ended (not_echoRequest hcode (by decide))
          next => exact .quiet (not_echoRequest hcode (by decide))
        next =>
          split
          next h =>
            split
            next hresult =>
              dsimp only
              split
              next => exact .called hcode h.1 h.2 hresult
              next => exact .failed (not_echoRequest hcode (by decide)) h.1
            next => exact .ended (not_echoRequest hcode (by decide))
          next => exact .quiet (not_echoRequest hcode (by decide))
        next => exact .stopped (not_echoRequest hcode (by decide))
        next =>
          split
          next => exact .ended (not_echoRequest hcode (by decide))
          next => exact .quiet (not_echoRequest hcode (by decide))
        next =>
          split
          next => exact .ended (not_echoRequest hcode (by decide))
          next => exact .quiet (not_echoRequest hcode (by decide))
        next => exact .echoed ⟨hcode, Nat.le_of_not_lt hlength⟩
        next => exact .quiet (not_echoRequest hcode (by decide))
        next => exact .quiet (not_echoRequest hcode (by decide))
        next => exact .refused (not_echoRequest hcode (by decide)) .ICRP (Or.inl rfl)
        next => exact .refused (not_echoRequest hcode (by decide)) .OCRP (Or.inr rfl)
        all_goals exact .quiet (not_echoRequest hcode (by decide))

/-- The main loop goes on after a return of 0 only. -/
theorem Handled.result {env : Env} {s : Session} {length : Nat} {buffer : Bytes}
    {r : Session × List Output × Result} (h : Handled env s length buffer r) :
    r.2.2 = .ret 0 ∨ r.2.2 = .ret (-REMOTE_REQUESTED) ∨ r.2.2 = .exit SYSTEM_ERROR := by
  cases h with
  | quiet => exact Or.inl rfl
  | ended => exact Or.inr (Or.inl rfl)
  | stopped => exact Or.inr (Or.inl rfl)
  | calling => exact Or.inl rfl
  | called => exact Or.inl rfl
  | failed => exact Or.inr (Or.inr rfl)
  | echoed => exact Or.inl rfl
  | refused => exact Or.inl rfl

end ConfProfile.Mtpd.Pptp
