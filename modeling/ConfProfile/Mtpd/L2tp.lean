import ConfProfile.Mtpd.Attribute

/-!
# The tunnel daemon's side of a control connection

The functions of `l2tp.c` that the main loop of the daemon calls: `l2tpConnect`, `l2tpProcess` for a
datagram that arrived, `l2tpTimeout` and `l2tpShutdown`. Each takes the static variables of the
file and returns them with what was put on the wire and what the source returns. What the daemon
draws at random, and whether the kernel gives it a socket for `pppd`, comes with the step.

A window has a single message: `recvPacket` hands a message up only if it is the next one and the
peer has received the last one sent. What a handled message does is said once, in `dispatch_cases`.
-/

namespace ConfProfile.Mtpd.L2tp

/-- `enum l2tp_message` -/
inductive Message
  | ACK | SCCRQ | SCCRP | SCCCN | STOPCCN | HELLO | OCRQ | OCRP | OCCN | ICRQ | ICRP | ICCN
  | CDN | WEN | SLI
deriving DecidableEq, Repr

namespace Message

def code : Message → BitVec 16
  | ACK => 0 | SCCRQ => 1 | SCCRP => 2 | SCCCN => 3 | STOPCCN => 4 | HELLO => 6 | OCRQ => 7
  | OCRP => 8 | OCCN => 9 | ICRQ => 10 | ICRP => 11 | ICCN => 12 | CDN => 14 | WEN => 15 | SLI => 16

def all : List Message :=
  [ACK, SCCRQ, SCCRP, SCCCN, STOPCCN, HELLO, OCRQ, OCRP, OCCN, ICRQ, ICRP, ICCN, CDN, WEN, SLI]

/-- The message of a code; the codes in between and above are unknown. -/
def ofCode (c : BitVec 16) : Option Message := all.find? fun m => m.code == c

end Message

def RESULT_CODE : BitVec 16 := 1
def PROTOCOL_VERSION : BitVec 16 := 2
def FRAMING_CAPABILITIES : BitVec 16 := 3
def HOST_NAME : BitVec 16 := 7
def ASSIGNED_TUNNEL : BitVec 16 := 9
def WINDOW_SIZE : BitVec 16 := 10
def CHALLENGE : BitVec 16 := 11
def CHALLENGE_RESPONSE : BitVec 16 := 13
def ASSIGNED_SESSION : BitVec 16 := 14
def CALL_SERIAL_NUMBER : BitVec 16 := 15
def FRAMING_TYPE : BitVec 16 := 19
def CONNECT_SPEED : BitVec 16 := 24

def MESSAGE_FLAG : BitVec 16 := 0xC802
def MESSAGE_MASK : BitVec 16 := 0xCB0F

def ACK_SIZE : Nat := 12
def MAX_ATTRIBUTE_SIZE : Nat := 1024
def MAX_PACKET_LENGTH : Nat := 2048
def CHALLENGE_SIZE : Nat := 32
def TIMEOUT_INTERVAL : Int := 2000

/-- The static variables. `outgoing` has the bytes up to `outgoing.length`; `secret` is null where
the argument was empty. -/
structure State where
  localTunnel : BitVec 16
  localSession : BitVec 16
  localSequence : BitVec 16
  remoteTunnel : BitVec 16
  remoteSession : BitVec 16
  remoteSequence : BitVec 16
  state : Message
  acknowledged : Bool
  secret : Option Bytes
  challenge : Bytes
  outgoing : Bytes
deriving DecidableEq

/-- What a step gets from outside, the datagram apart. -/
structure Env where
  random : Nonzero
  serial : BitVec 32
  pppox : Bool

/-- What a step does: `send(the_socket, ...)`, and `start_pppd` on a socket that is connected to
the two tunnels and sessions. -/
inductive Output
  | send (packet : Bytes)
  | startPppd (localTunnel localSession remoteTunnel remoteSession : BitVec 16)
deriving DecidableEq

structure Step where
  state : State
  out : List Output
  result : Result
deriving DecidableEq

/-! ## What is sent -/

/-- The bytes of a header. -/
def header (length : Nat) (tunnel session ns nr : BitVec 16) : Bytes :=
  be16 MESSAGE_FLAG ++ be16 (BitVec.ofNat 16 length) ++ be16 tunnel ++ be16 session ++ be16 ns ++
    be16 nr

namespace State

/-- `set_message`; the length of the packet is filled in by `sendPacket`. -/
def setMessage (s : State) (session : BitVec 16) (message : Message) : State :=
  { s with
    outgoing := header 0 s.remoteTunnel session s.localSequence s.remoteSequence ++
      addAttributeRaw 0 (be16 message.code)
    localSequence := s.localSequence + 1 }

def addAttribute (s : State) (type : BitVec 16) (value : Bytes) : State :=
  { s with outgoing := s.outgoing ++ addAttributeRaw type value }

def addAttributeU16 (s : State) (type : BitVec 16) (value : BitVec 16) : State :=
  s.addAttribute type (be16 value)

def addAttributeU32 (s : State) (type : BitVec 16) (value : BitVec 32) : State :=
  s.addAttribute type (BigEndian.bytes 4 value.toNat)

/-- `send_packet`, apart from the send: `outgoing` is what is sent. -/
def sendPacket (s : State) : State :=
  { s with
    outgoing := s.outgoing.take 2 ++ be16 (BitVec.ofNat 16 s.outgoing.length) ++ s.outgoing.drop 4
    acknowledged := false }

/-- The packet of `send_ack`. -/
def ackPacket (s : State) : Bytes :=
  header ACK_SIZE s.remoteTunnel 0 s.localSequence s.remoteSequence

end State

/-! ## What is received -/

/-- `incoming.message`, where the packet has one. -/
def messageOf (incoming : Bytes) : Option (BitVec 16) :=
  if incoming.length = ACK_SIZE then some Message.ACK.code
  else if u16 incoming 12 = attributeFlag 2 ∧ u16 incoming 14 = 0 ∧ u16 incoming 16 = 0 then
    some (u16 incoming 18)
  else none

/-- A packet of our tunnel. -/
def InTunnel (tunnel : BitVec 16) (incoming : Bytes) : Prop :=
  ¬ (incoming.length ≠ ACK_SIZE ∧ incoming.length < MESSAGE_HEADER_SIZE) ∧
    u16 incoming 0 &&& MESSAGE_MASK = MESSAGE_FLAG ∧ (u16 incoming 2).toNat = incoming.length ∧
    u16 incoming 4 = tunnel

instance decidableInTunnel (tunnel : BitVec 16) (incoming : Bytes) :
    Decidable (InTunnel tunnel incoming) :=
  inferInstanceAs (Decidable (_ ∧ _ ∧ _ ∧ _))

/-- `recv_packet`, for a packet that was read: the variables, what is sent, and the message and the
session if it is to be handled. -/
def recvPacket (s : State) (incoming : Bytes) :
    State × List Output × Option (BitVec 16 × BitVec 16) :=
  if ¬ InTunnel s.localTunnel incoming then (s, [], none)
  else
    match messageOf incoming with
    | none => (s, [], none)
    | some message =>
      -- a duplicate is acknowledged again, unless it is an acknowledgement
      if 32767 < (u16 incoming 8 - s.remoteSequence).toNat then
        (s, if message ≠ Message.ACK.code then [.send s.ackPacket] else [], none)
      else
        let s := { s with
          acknowledged := s.acknowledged || u16 incoming 10 == s.localSequence }
        if u16 incoming 8 ≠ s.remoteSequence ∨ ¬ s.acknowledged then (s, [], none)
        else
          ({ s with
              remoteSequence :=
                if message ≠ Message.ACK.code then s.remoteSequence + 1 else s.remoteSequence },
            [], some (message, u16 incoming 6))

variable (md5 : Md5)

/-- `get_attribute_u16` on a variable with the value `old`: whether there is one of two bytes, and
the variable behind it, of which a shorter one overwrites the first byte. -/
def getAttributeU16 (secret : Option Bytes) (incoming : Bytes) (type old : BitVec 16) :
    Bool × BitVec 16 :=
  let got := getAttributeRaw md5 secret incoming type 2
  (got.length == 2, u16 (got ++ (be16 old).drop got.length) 0)

/-- `compute_response` -/
def computeResponse (type : Message) (secret challenge : Bytes) : Bytes :=
  md5.digest (BitVec.ofNat 8 type.code.toNat :: secret ++ challenge)

/-- `verify_challenge` -/
def verifyChallenge (s : State) (incoming : Bytes) : Bool :=
  match s.secret with
  | some secret =>
    let response := getAttributeRaw md5 s.secret incoming CHALLENGE_RESPONSE 16
    if response.length ≠ 16 then false
    else computeResponse md5 .SCCRP secret s.challenge == response
  | none => true

/-- `answer_challenge` -/
def answerChallenge (s : State) (incoming : Bytes) : State :=
  match s.secret with
  | some secret =>
    let challenge := getAttributeRaw md5 s.secret incoming CHALLENGE MAX_ATTRIBUTE_SIZE
    if 0 < challenge.length then
      s.addAttribute CHALLENGE_RESPONSE (computeResponse md5 .SCCCN secret challenge)
    else s
  | none => s

/-! ## The steps -/

/-- What is read from the random device. -/
abbrev Challenge := { c : Bytes // c.length = CHALLENGE_SIZE }

/-- `l2tp_connect`, behind `create_socket`. -/
def l2tpConnect (env : Env) (secret : Bytes) (challenge : Challenge) : Step :=
  let s : State :=
    { localTunnel := env.random, localSession := 0, localSequence := 0, remoteTunnel := 0,
      remoteSession := 0, remoteSequence := 0, state := .SCCRQ, acknowledged := false,
      secret := none, challenge := [], outgoing := [] }
  let s := s.setMessage 0 .SCCRQ
  let s := s.addAttributeU16 PROTOCOL_VERSION 0x0100
  let s := s.addAttribute HOST_NAME ("anonymous".toList.map fun c => BitVec.ofNat 8 c.toNat)
  let s := s.addAttributeU32 FRAMING_CAPABILITIES 3
  let s := s.addAttributeU16 ASSIGNED_TUNNEL s.localTunnel
  let s := s.addAttributeU16 WINDOW_SIZE 1
  let s :=
    if secret ≠ [] then
      { s.addAttribute CHALLENGE challenge with secret := some secret, challenge := challenge }
    else s
  let s := s.sendPacket
  ⟨s, [.send s.outgoing], .ret TIMEOUT_INTERVAL⟩

/-- Where the `switch` of `l2tp_process` goes on: behind it, or not at all. -/
inductive Flow
  | brk (s : State)
  | ret (step : Step)

/-- The case of SCCRP. -/
def processSccrp (s : State) (incoming : Bytes) : Flow :=
  if s.state = .SCCRQ then
    let (found, tunnel) := getAttributeU16 md5 s.secret incoming ASSIGNED_TUNNEL 0
    if found ∧ tunnel ≠ 0 ∧ verifyChallenge md5 s incoming then
      let s := { s with remoteTunnel := tunnel, state := .SCCCN }
      .brk (answerChallenge md5 (s.setMessage 0 .SCCCN) incoming)
    else .ret ⟨s, [], .ret (if tunnel ≠ 0 then -CHALLENGE_FAILED else -PROTOCOL_ERROR)⟩
  else .brk s

/-- The case of ICRP. -/
def processIcrp (s : State) (incoming : Bytes) (session : BitVec 16) : Flow :=
  if s.state = .ICRQ ∧ session = s.localSession then
    let (found, session) := getAttributeU16 md5 s.secret incoming ASSIGNED_SESSION session
    if found ∧ session ≠ 0 then
      let s := { s with remoteSession := session, state := .ICCN }
      let s := s.setMessage s.remoteSession .ICCN
      let s := s.addAttributeU32 CONNECT_SPEED 100000000
      .brk (s.addAttributeU32 FRAMING_TYPE 3)
    else .ret ⟨s, [], .ret (-PROTOCOL_ERROR)⟩
  else .brk s

/-- The cases of ACK, HELLO, WEN and SLI. -/
def processAck (env : Env) (s : State) (message : Message) : Flow :=
  if s.state = .SCCCN then
    let s := { s with
      localSession := if s.localSession = 0 then env.random else s.localSession
      state := .ICRQ }
    let s := s.setMessage 0 .ICRQ
    let s := s.addAttributeU16 ASSIGNED_SESSION s.localSession
    .brk (s.addAttributeU32 CALL_SERIAL_NUMBER env.serial)
  else
    let out := if message = .ACK then [] else [Output.send s.ackPacket]
    if s.state = .ICCN then
      let s := { s with state := .ACK }
      if env.pppox then
        .ret ⟨s, out ++ [.startPppd s.localTunnel s.localSession s.remoteTunnel s.remoteSession],
          .ret 0⟩
      else .ret ⟨s, out, .exit SYSTEM_ERROR⟩
    else .ret ⟨s, out, .ret 0⟩

/-- The cases of ICRQ and OCRQ. -/
def processCallRequest (s : State) (incoming : Bytes) (session : BitVec 16) : Flow :=
  let (found, session) := getAttributeU16 md5 s.secret incoming ASSIGNED_SESSION session
  if found ∧ session ≠ 0 then
    let s := s.setMessage session .CDN
    let s := s.addAttributeU32 RESULT_CODE 0x00020006
    .brk (s.addAttributeU16 ASSIGNED_SESSION 0)
  else .brk s

/-- The `switch` of `l2tp_process`. -/
def dispatch (env : Env) (s : State) (incoming : Bytes) (message session : BitVec 16) : Flow :=
  match Message.ofCode message with
  | some .SCCRP => processSccrp md5 s incoming
  | some .ICRP => processIcrp md5 s incoming session
  | some .STOPCCN => .ret ⟨{ s with state := .STOPCCN }, [], .ret (-REMOTE_REQUESTED)⟩
  | some .CDN =>
    if session ≠ 0 ∧ session = s.localSession then .ret ⟨s, [], .ret (-REMOTE_REQUESTED)⟩
    else .brk s
  | some .ACK => processAck env s .ACK
  | some .HELLO => processAck env s .HELLO
  | some .WEN => processAck env s .WEN
  | some .SLI => processAck env s .SLI
  | some .ICRQ => processCallRequest md5 s incoming session
  | some .OCRQ => processCallRequest md5 s incoming session
  | some .SCCRQ => .brk s
  | some .SCCCN => .brk s
  | some .OCRP => .brk s
  | some .OCCN => .brk s
  | some .ICCN => .brk s
  | none => .brk s

/-- What is behind the `switch`: what was prepared is sent, or else an acknowledgement. -/
def finish (out : List Output) (sequence : BitVec 16) (s : State) : Step :=
  if sequence ≠ s.localSequence then
    ⟨s.sendPacket, out ++ [.send s.sendPacket.outgoing], .ret TIMEOUT_INTERVAL⟩
  else ⟨s, out ++ [.send s.ackPacket], .ret 0⟩

/-- `l2tp_process`. A datagram is cut to the size of the buffer. -/
def l2tpProcess (env : Env) (s : State) (recv : Recv) : Step :=
  match recv with
  | .failed => ⟨s, [], .exit NETWORK_ERROR⟩
  | .interrupted => ⟨s, [], .ret (if s.acknowledged then 0 else TIMEOUT_INTERVAL)⟩
  | .data bytes =>
    let incoming := bytes.take MAX_PACKET_LENGTH
    match recvPacket s incoming with
    | (s', out, none) => ⟨s', out, .ret (if s'.acknowledged then 0 else TIMEOUT_INTERVAL)⟩
    | (s', out, some (message, session)) =>
      match dispatch md5 env s' incoming message session with
      | .brk s'' => finish out s.localSequence s''
      | .ret step => { step with out := out ++ step.out }

/-- `l2tp_timeout` -/
def l2tpTimeout (s : State) : Step :=
  if s.acknowledged then ⟨s, [], .ret 0⟩
  else ⟨s, [.send s.outgoing], .ret TIMEOUT_INTERVAL⟩

/-- `l2tp_shutdown` -/
def l2tpShutdown (s : State) : State × List Output :=
  if s.state ≠ .STOPCCN then
    let s := s.setMessage 0 .STOPCCN
    let s := s.addAttributeU16 ASSIGNED_TUNNEL s.localTunnel
    let s := s.addAttributeU16 RESULT_CODE 6
    let s := s.sendPacket
    (s, [.send s.outgoing])
  else (s, [])

/-! ## What a handled message does -/

/-- What `switch` can come to, one constructor a way. -/
inductive Handled (env : Env) (s : State) (incoming : Bytes) (message session : BitVec 16) :
    Flow → Prop
  /-- The peer's tunnel is known, and its response is right. -/
  | connected (tunnel : BitVec 16) (hmessage : message = Message.SCCRP.code)
      (hstate : s.state = .SCCRQ)
      (hfound : getAttributeU16 md5 s.secret incoming ASSIGNED_TUNNEL 0 = (true, tunnel))
      (htunnel : tunnel ≠ 0) (hverify : verifyChallenge md5 s incoming = true) :
      Handled env s incoming message session
        (.brk (answerChallenge md5
          (({ s with remoteTunnel := tunnel, state := .SCCCN } : State).setMessage 0 .SCCCN)
          incoming))
  /-- The tunnel is up, and a session is asked for. -/
  | calling (hstate : s.state = .SCCCN) :
      Handled env s incoming message session
        (.brk (((({ s with
            localSession := if s.localSession = 0 then env.random else s.localSession
            state := .ICRQ } : State).setMessage 0 .ICRQ).addAttributeU16 ASSIGNED_SESSION
          (if s.localSession = 0 then env.random else s.localSession)).addAttributeU32
            CALL_SERIAL_NUMBER env.serial))
  /-- The peer's session is known. -/
  | called (assigned : BitVec 16) (hmessage : message = Message.ICRP.code)
      (hstate : s.state = .ICRQ) (hsession : session = s.localSession)
      (hfound : getAttributeU16 md5 s.secret incoming ASSIGNED_SESSION session = (true, assigned))
      (hassigned : assigned ≠ 0) :
      Handled env s incoming message session
        (.brk (((({ s with remoteSession := assigned, state := .ICCN } : State).setMessage assigned
          .ICCN).addAttributeU32 CONNECT_SPEED 100000000).addAttributeU32 FRAMING_TYPE 3))
  /-- The session is up. -/
  | established (out : List Output) (hstate : s.state = .ICCN) (hout : out ⊆ [.send s.ackPacket]) :
      Handled env s incoming message session
        (.ret ⟨{ s with state := .ACK },
          out ++ [.startPppd s.localTunnel s.localSession s.remoteTunnel s.remoteSession],
          .ret 0⟩)
  /-- There is no socket for the session. -/
  | failed (out : List Output) (hstate : s.state = .ICCN) (hout : out ⊆ [.send s.ackPacket]) :
      Handled env s incoming message session (.ret ⟨{ s with state := .ACK }, out,
        .exit SYSTEM_ERROR⟩)
  /-- The peer's call is refused. -/
  | refused (assigned : BitVec 16) :
      Handled env s incoming message session
        (.brk (((s.setMessage assigned .CDN).addAttributeU32 RESULT_CODE 0x00020006).addAttributeU16
          ASSIGNED_SESSION 0))
  /-- The connection ends. -/
  | ended (status : Int) (hstatus : status < 0) :
      Handled env s incoming message session (.ret ⟨s, [], .ret status⟩)
  | stopped :
      Handled env s incoming message session
        (.ret ⟨{ s with state := .STOPCCN }, [], .ret (-REMOTE_REQUESTED)⟩)
  /-- Nothing but an acknowledgement. -/
  | quiet (out : List Output) (hout : out ⊆ [.send s.ackPacket]) :
      Handled env s incoming message session (.ret ⟨s, out, .ret 0⟩)
  | unexpected : Handled env s incoming message session (.brk s)

variable {md5} {env : Env} {s : State} {incoming : Bytes} {message session : BitVec 16}

theorem Message.eq_code {m : Message} (h : Message.ofCode message = some m) : message = m.code := by
  have hcode := List.find?_some h
  exact (eq_of_beq hcode).symm

theorem processAck_handled (m : Message) :
    Handled md5 env s incoming message session (processAck env s m) := by
  have hout : (if m = .ACK then [] else [Output.send s.ackPacket]) ⊆ [.send s.ackPacket] := by
    split
    · exact List.nil_subset _
    · exact List.Subset.refl _
  unfold processAck
  dsimp only
  split
  next hstate => exact .calling hstate
  next =>
    split
    next hstate =>
      split
      next => exact .established _ hstate hout
      next => exact .failed _ hstate hout
    next => exact .quiet _ hout

theorem processSccrp_handled (hmessage : message = Message.SCCRP.code) :
    Handled md5 env s incoming message session (processSccrp md5 s incoming) := by
  unfold processSccrp
  split
  next hstate =>
    rcases hget : getAttributeU16 md5 s.secret incoming ASSIGNED_TUNNEL 0 with ⟨found, tunnel⟩
    dsimp only
    split
    next h =>
      obtain ⟨rfl, htunnel, hverify⟩ := h
      exact .connected tunnel hmessage hstate hget htunnel hverify
    next =>
      refine .ended _ ?_
      split <;> decide
  next => exact .unexpected

theorem processIcrp_handled (hmessage : message = Message.ICRP.code) :
    Handled md5 env s incoming message session (processIcrp md5 s incoming session) := by
  unfold processIcrp
  split
  next h =>
    rcases hget : getAttributeU16 md5 s.secret incoming ASSIGNED_SESSION session with ⟨found, assigned⟩
    dsimp only
    split
    next hfound =>
      obtain ⟨rfl, hassigned⟩ := hfound
      exact .called assigned hmessage h.1 h.2 hget hassigned
    next => exact .ended _ (by decide)
  next => exact .unexpected

theorem processCallRequest_handled :
    Handled md5 env s incoming message session (processCallRequest md5 s incoming session) := by
  unfold processCallRequest
  rcases getAttributeU16 md5 s.secret incoming ASSIGNED_SESSION session with ⟨found, assigned⟩
  dsimp only
  split
  next => exact .refused assigned
  next => exact .unexpected

/-- Each message is handled in one of these ways. -/
theorem dispatch_handled :
    Handled md5 env s incoming message session (dispatch md5 env s incoming message session) := by
  unfold dispatch
  split
  next h => exact processSccrp_handled (Message.eq_code h)
  next h => exact processIcrp_handled (Message.eq_code h)
  next => exact .stopped
  next =>
    split
    next => exact .ended _ (by decide)
    next => exact .unexpected
  next => exact processAck_handled .ACK
  next => exact processAck_handled .HELLO
  next => exact processAck_handled .WEN
  next => exact processAck_handled .SLI
  next => exact processCallRequest_handled
  next => exact processCallRequest_handled
  all_goals exact .unexpected

/-! ## What is on the wire -/

/-- A message prepared by `setMessage`, with that many bytes of attributes behind it. -/
structure Prepared (n : Nat) (s s' : State) : Prop where
  localTunnel : s'.localTunnel = s.localTunnel
  localSequence : s'.localSequence = s.localSequence + 1
  remoteSequence : s'.remoteSequence = s.remoteSequence
  outgoing : ∃ session m attributes, m ≠ Message.ACK ∧ attributes.length = n ∧
    s'.outgoing = header 0 s'.remoteTunnel session s.localSequence s.remoteSequence ++
      (addAttributeRaw 0 (be16 m.code) ++ attributes)

/-- A packet that a peer takes for the message with that number. -/
structure IsMessage (ns : BitVec 16) (p : Bytes) : Prop where
  inTunnel : InTunnel (u16 p 4) p
  size : MESSAGE_HEADER_SIZE ≤ p.length ∧ p.length ≤ MAX_PACKET_LENGTH
  number : u16 p 8 = ns
  message : ∃ m, m ≠ Message.ACK ∧ messageOf p = some m.code

@[simp] theorem length_header (length : Nat) (tunnel session ns nr : BitVec 16) :
    (header length tunnel session ns nr).length = 12 := by
  simp only [header, List.length_append, length_be16]

@[simp] theorem length_addAttributeRaw (type : BitVec 16) (value : Bytes) :
    (addAttributeRaw type value).length = 6 + value.length := by
  simp only [addAttributeRaw, List.length_append, length_be16]

section Prepared

variable {n : Nat} {s s' : State}

theorem prepared_setMessage (session : BitVec 16) {m : Message} (hm : m ≠ .ACK) :
    Prepared 0 s (s.setMessage session m) :=
  ⟨rfl, rfl, rfl, session, m, [], hm, rfl, by rw [List.append_nil]; rfl⟩

/-- Another attribute. -/
theorem Prepared.addAttribute (h : Prepared n s s') (type : BitVec 16) (value : Bytes) :
    Prepared (n + (6 + value.length)) s (s'.addAttribute type value) := by
  obtain ⟨session, m, attributes, hm, hlen, hout⟩ := h.outgoing
  refine ⟨h.localTunnel, h.localSequence, h.remoteSequence, session, m,
    attributes ++ addAttributeRaw type value, hm, ?_, ?_⟩
  · rw [List.length_append, hlen, length_addAttributeRaw]
  · rw [State.addAttribute, hout, List.append_assoc, List.append_assoc]

theorem Prepared.addAttributeU16 (h : Prepared n s s') (type value : BitVec 16) :
    Prepared (n + 8) s (s'.addAttributeU16 type value) := by
  have h' := h.addAttribute type (be16 value)
  rwa [length_be16] at h'

theorem Prepared.addAttributeU32 (h : Prepared n s s') (type : BitVec 16) (value : BitVec 32) :
    Prepared (n + 10) s (s'.addAttributeU32 type value) := by
  have h' := h.addAttribute type (BigEndian.bytes 4 value.toNat)
  rwa [BigEndian.length_bytes] at h'

theorem Prepared.answerChallenge (h : Prepared n s s') (incoming : Bytes) :
    ∃ n', n' ≤ n + 22 ∧ Prepared n' s (answerChallenge md5 s' incoming) := by
  unfold L2tp.answerChallenge
  split
  next secret =>
    dsimp only
    split
    next =>
      refine ⟨_, ?_, h.addAttribute CHALLENGE_RESPONSE _⟩
      rw [computeResponse, md5.length_digest]
    next => exact ⟨n, Nat.le_add_right _ _, h⟩
  next => exact ⟨n, Nat.le_add_right _ _, h⟩

/-- The variables that a message does not depend on. -/
theorem Prepared.of_eq {t : State} (h : Prepared n t s') (htunnel : t.localTunnel = s.localTunnel)
    (hlocal : t.localSequence = s.localSequence) (hremote : t.remoteSequence = s.remoteSequence) :
    Prepared n s s' :=
  ⟨h.localTunnel.trans htunnel, hlocal ▸ h.localSequence, h.remoteSequence.trans hremote,
    hlocal ▸ hremote ▸ h.outgoing⟩

/-- The switch goes on with a message, or leaves the variables as they were. -/
theorem Handled.brk_cases (h : Handled md5 env s incoming message session (.brk s')) :
    s' = s ∨ ∃ n, n ≤ 200 ∧ Prepared n s s' := by
  cases h with
  | connected tunnel =>
    obtain ⟨n, hn, hprepared⟩ := @Prepared.answerChallenge md5 _ _ _
      (@prepared_setMessage { s with remoteTunnel := tunnel, state := .SCCCN } 0 .SCCCN
        (by decide)) incoming
    exact Or.inr ⟨n, by omega, hprepared.of_eq rfl rfl rfl⟩
  | calling =>
    have hprepared := ((@prepared_setMessage { s with
      localSession := if s.localSession = 0 then env.random else s.localSession
      state := .ICRQ } 0 .ICRQ (by decide)).addAttributeU16 ASSIGNED_SESSION
        (if s.localSession = 0 then env.random else s.localSession)).addAttributeU32
          CALL_SERIAL_NUMBER env.serial
    exact Or.inr ⟨18, by decide, hprepared.of_eq rfl rfl rfl⟩
  | called assigned =>
    have hprepared := ((prepared_setMessage
      (s := { s with remoteSession := assigned, state := .ICCN }) assigned (m := .ICCN)
        (by decide)).addAttributeU32 CONNECT_SPEED 100000000).addAttributeU32 FRAMING_TYPE 3
    exact Or.inr ⟨20, by decide, hprepared.of_eq rfl rfl rfl⟩
  | refused assigned =>
    refine Or.inr ⟨18, by decide, ?_⟩
    exact ((prepared_setMessage assigned (m := .CDN) (by decide)).addAttributeU32 _ _
      ).addAttributeU16 _ _
  | unexpected => exact Or.inl rfl

end Prepared

section Header

variable {length : Nat} {tunnel session ns nr : BitVec 16} {rest : Bytes}

theorem u16_header_flag : u16 (header length tunnel session ns nr ++ rest) 0 = MESSAGE_FLAG := by
  simp only [header, List.append_assoc, u16_be16]

theorem u16_header_length :
    u16 (header length tunnel session ns nr ++ rest) 2 = BitVec.ofNat 16 length := by
  simp only [header, List.append_assoc]
  rw [u16_be16_append _ _ 0, u16_be16]

theorem u16_header_ns : u16 (header length tunnel session ns nr ++ rest) 8 = ns := by
  simp only [header, List.append_assoc]
  rw [u16_be16_append _ _ 6, u16_be16_append _ _ 4, u16_be16_append _ _ 2, u16_be16_append _ _ 0,
    u16_be16]

theorem u16_header_rest (o : Nat) :
    u16 (header length tunnel session ns nr ++ rest) (12 + o) = u16 rest o := by
  have h := u16_append (header length tunnel session ns nr) rest o
  rwa [length_header] at h

/-- `send_packet` fills the length in. -/
theorem header_fill (n : Nat) :
    (header length tunnel session ns nr ++ rest).take 2 ++ be16 (BitVec.ofNat 16 n) ++
      (header length tunnel session ns nr ++ rest).drop 4 =
        header n tunnel session ns nr ++ rest := by
  have hflag : (be16 MESSAGE_FLAG).length = 2 := length_be16 _
  have hlength : (be16 MESSAGE_FLAG ++ be16 (BitVec.ofNat 16 length)).length = 4 := by
    simp only [List.length_append, length_be16]
  have hdrop : (header length tunnel session ns nr ++ rest).drop 4 =
      be16 tunnel ++ (be16 session ++ (be16 ns ++ (be16 nr ++ rest))) := by
    simp only [header, List.append_assoc]
    rw [← List.append_assoc (be16 MESSAGE_FLAG)]
    exact List.drop_left' hlength
  have htake : (header length tunnel session ns nr ++ rest).take 2 = be16 MESSAGE_FLAG := by
    simp only [header, List.append_assoc]
    exact List.take_left' hflag
  rw [hdrop, htake]
  simp only [header, List.append_assoc]

end Header

/-- What was prepared is sent as a message with the next number. -/
theorem Prepared.isMessage {n : Nat} {s s' : State} (h : Prepared n s s') (hn : n ≤ 200) :
    IsMessage s.localSequence s'.sendPacket.outgoing := by
  obtain ⟨session, m, attributes, hm, hlen, hout⟩ := h.outgoing
  have hsize : s'.outgoing.length = 20 + n := by
    rw [hout, List.length_append, List.length_append, length_header, length_addAttributeRaw,
      length_be16, hlen]
    omega
  have hpacket : s'.sendPacket.outgoing =
      header (20 + n) s'.remoteTunnel session s.localSequence s.remoteSequence ++
        (addAttributeRaw 0 (be16 m.code) ++ attributes) := by
    rw [State.sendPacket]
    dsimp only
    rw [hsize, hout, header_fill]
  have hlength : s'.sendPacket.outgoing.length = 20 + n := by
    rw [hpacket, List.length_append, List.length_append, length_header, length_addAttributeRaw,
      length_be16, hlen]
    omega
  have htoNat : (BitVec.ofNat 16 (20 + n)).toNat = 20 + n := by
    rw [BitVec.toNat_ofNat]
    exact Nat.mod_eq_of_lt (by omega)
  refine ⟨⟨?_, ?_, ?_, rfl⟩, ?_, ?_, m, hm, ?_⟩
  · rw [hlength, MESSAGE_HEADER_SIZE]
    omega
  · rw [hpacket, u16_header_flag]
    decide
  · rw [hlength, hpacket, u16_header_length, htoNat]
  · rw [hlength, MESSAGE_HEADER_SIZE, MAX_PACKET_LENGTH]
    omega
  · rw [hpacket, u16_header_ns]
  · have hnot : s'.sendPacket.outgoing.length ≠ ACK_SIZE := by rw [hlength, ACK_SIZE]; omega
    rw [messageOf, if_neg hnot, hpacket, u16_header_rest 0, u16_header_rest 2, u16_header_rest 4,
      u16_header_rest 6]
    simp only [addAttributeRaw, List.append_assoc]
    rw [u16_be16_append _ _ 4, u16_be16_append _ _ 2, u16_be16_append _ _ 0, u16_be16, u16_be16,
      u16_be16_append _ _ 2, u16_be16_append _ _ 0, u16_be16, u16_be16_append _ _ 0, u16_be16,
      length_be16, if_pos ⟨rfl, rfl, rfl⟩]

end ConfProfile.Mtpd.L2tp
