import ConfProfile.Lib.Run
import ConfProfile.Lib.StopAndWait
import ConfProfile.Mtpd.L2tp

/-!
# The link between the daemon and its peer

The main loop calls the functions of `l2tp.c` with what the network brings. `World` keeps, next to
the daemon, what it has sent and handled since it started, and how many of its messages the peer has
accepted. `recvPacket` compares numbers of 16 bits; as long as what arrives is not 32768 messages
old it does what an end with unbounded numbers does (`recvPacket_refines`).

So in every run of the main loop, with a network that loses, repeats and reorders packets within
these bounds, the daemon handles the peer's messages in order and each of them once, and sends a
message only after the peer has accepted the one before (`link_run`). Whatever arrives, what it
sends are its messages, one after the other and repeated as they were, and acknowledgements
(`wire_run`). The STOPCCN of `l2tp_shutdown`, which waits for nothing, comes after such a run.
-/

namespace ConfProfile.Mtpd.L2tp

open StopAndWait (End Packet Verdict Honest Repeats)

/-- The packets of a step. -/
def packets (out : List Output) : List Bytes :=
  out.filterMap fun
    | .send packet => some packet
    | .startPppd .. => none

/-- What `start_pppd` connects. -/
structure Start where
  localTunnel : BitVec 16
  localSession : BitVec 16
  remoteTunnel : BitVec 16
  remoteSession : BitVec 16
deriving DecidableEq

def starts (out : List Output) : List Start :=
  out.filterMap fun
    | .send _ => none
    | .startPppd localTunnel localSession remoteTunnel remoteSession =>
      some ⟨localTunnel, localSession, remoteTunnel, remoteSession⟩

/-- What a message says: its session and its attributes. The numbers in between may differ when it
is sent again. -/
def content (packet : Bytes) : Bytes := (packet.drop 6).take 2 ++ packet.drop 12

/-- The message that is handed up. -/
def handledOf (s : State) (incoming : Bytes) : List Bytes :=
  match (recvPacket s incoming).2.2 with
  | some (message, _) => if message ≠ Message.ACK.code then [incoming] else []
  | none => []

structure World where
  daemon : State
  last : Result
  accepted : Nat
  sent : List Bytes
  handled : List Bytes
  wire : List Bytes
  pppd : List Start
deriving DecidableEq

/-- What happens: the peer accepts the daemon's next message, or the daemon is woken. The two
numbers are the ones that the sender of a datagram had in mind. -/
inductive Action
  | accept
  | recv (env : Env) (recv : Recv) (ns nr : Nat)
  | timeout

/-- The bytes in the buffer. -/
def incomingOf : Recv → Bytes
  | .data bytes => bytes.take MAX_PACKET_LENGTH
  | .interrupted => []
  | .failed => []

namespace World

/-- A step of the daemon. -/
def perform (w : World) (handled : List Bytes) (step : Step) : World :=
  { daemon := step.state
    last := step.result
    accepted := w.accepted
    sent := if step.state.localSequence = w.daemon.localSequence then w.sent
      else w.sent ++ [step.state.outgoing]
    handled := w.handled ++ handled
    wire := w.wire ++ packets step.out
    pppd := w.pppd ++ starts step.out }

/-- The main loop is running. -/
def running (w : World) : Bool :=
  match w.last with
  | .ret timeout => 0 ≤ timeout
  | .exit _ => false

/-- Where `l2tp_connect` leaves the daemon. -/
def connected (env : Env) (secret : Bytes) (challenge : Challenge) : World :=
  let step := l2tpConnect env secret challenge
  { daemon := step.state, last := step.result, accepted := 0, sent := [step.state.outgoing],
    handled := [], wire := packets step.out, pppd := starts step.out }

def step (md5 : Md5) (w : World) (a : Action) : Option World :=
  if w.running then
    match a with
    | .accept =>
      if w.accepted < w.sent.length then some { w with accepted := w.accepted + 1 } else none
    | .recv env recv _ _ =>
      some (w.perform (handledOf w.daemon (incomingOf recv)) (l2tpProcess md5 env w.daemon recv))
    | .timeout => some (w.perform [] (l2tpTimeout w.daemon))
  else none

end World

/-- A packet was written by a peer that has accepted that many messages of ours and whose own
messages are those of `peer`. Its number is not half of all the numbers behind or in front of the
one expected, and its acknowledgement not all of them behind. -/
def HonestPacket (peer : Nat → Bytes) (w : World) (incoming : Bytes) (ns nr : Nat)
    (message : BitVec 16) : Prop :=
  u16 incoming 8 = BitVec.ofNat 16 ns ∧ u16 incoming 10 = BitVec.ofNat 16 nr ∧
    Honest peer w.accepted
      ⟨ns, nr, if message ≠ Message.ACK.code then some (content incoming) else none⟩ ∧
    w.handled.length ≤ ns + 2 ^ 15 ∧ ns < w.handled.length + 2 ^ 15 ∧ w.sent.length < nr + 2 ^ 16

instance decidableHonestPacket (peer : Nat → Bytes) (w : World) (incoming : Bytes) (ns nr : Nat)
    (message : BitVec 16) : Decidable (HonestPacket peer w incoming ns nr message) :=
  inferInstanceAs (Decidable (_ ∧ _ ∧ _ ∧ _ ∧ _ ∧ _))

/-- The packets of our tunnel are the peer's; anything may come in others. -/
def HonestAction (peer : Nat → Bytes) (w : World) : Action → Prop
  | .accept => True
  | .timeout => True
  | .recv _ recv ns nr =>
    InTunnel w.daemon.localTunnel (incomingOf recv) → ∀ message,
      messageOf (incomingOf recv) = some message → HonestPacket peer w (incomingOf recv) ns nr message

instance decidableHonestAction (peer : Nat → Bytes) (w : World) :
    ∀ a, Decidable (HonestAction peer w a)
  | .accept => isTrue trivial
  | .timeout => isTrue trivial
  | .recv _ recv ns nr =>
    decidable_of_iff (InTunnel w.daemon.localTunnel (incomingOf recv) →
        (messageOf (incomingOf recv)).all fun m => decide (HonestPacket peer w (incomingOf recv) ns nr m))
      (by simp only [Option.all_eq_true, decide_eq_true_eq]; rfl)

variable {md5 : Md5} {s : State} {incoming : Bytes}

/-! ## What a packet does -/

/-- The variables behind a packet that says that the last message arrived, or that one before
did. -/
def State.hear (s : State) (incoming : Bytes) : State :=
  { s with acknowledged := s.acknowledged || u16 incoming 10 == s.localSequence }

/-- What `recv_packet` can come to. -/
inductive Received (s : State) (incoming : Bytes) :
    State × List Output × Option (BitVec 16 × BitVec 16) → Prop
  | other (h : ¬ InTunnel s.localTunnel incoming ∨ messageOf incoming = none) :
      Received s incoming (s, [], none)
  | stale (message : BitVec 16) (hmessage : messageOf incoming = some message)
      (hns : 32767 < (u16 incoming 8 - s.remoteSequence).toNat) :
      Received s incoming
        (s, if message ≠ Message.ACK.code then [.send s.ackPacket] else [], none)
  | early (message : BitVec 16) (hmessage : messageOf incoming = some message)
      (hns : ¬ 32767 < (u16 incoming 8 - s.remoteSequence).toNat)
      (h : u16 incoming 8 ≠ s.remoteSequence ∨ ¬ (s.hear incoming).acknowledged) :
      Received s incoming (s.hear incoming, [], none)
  | next (message : BitVec 16) (hmessage : messageOf incoming = some message)
      (hns : u16 incoming 8 = s.remoteSequence) (hacked : (s.hear incoming).acknowledged = true) :
      Received s incoming
        ({ s.hear incoming with
            remoteSequence :=
              if message ≠ Message.ACK.code then s.remoteSequence + 1 else s.remoteSequence },
          [], some (message, u16 incoming 6))

theorem recvPacket_received (s : State) (incoming : Bytes) :
    Received s incoming (recvPacket s incoming) := by
  unfold recvPacket
  split
  next hin => exact .other (Or.inl hin)
  next =>
    split
    next hmessage => exact .other (Or.inr hmessage)
    next message hmessage =>
      split
      next hns => exact .stale message hmessage hns
      next hns =>
        dsimp only
        split
        next h => exact .early message hmessage hns h
        next h =>
          rw [not_or, not_not, not_not] at h
          exact .next message hmessage h.1 h.2

section Received

variable {r : State × List Output × Option (BitVec 16 × BitVec 16)}

/-- A packet may acknowledge, and be counted. -/
theorem Received.state (h : Received s incoming r) :
    ∃ acknowledged remoteSequence, r.1 =
      { s with acknowledged := acknowledged, remoteSequence := remoteSequence } := by
  cases h with
  | other => exact ⟨_, _, rfl⟩
  | stale => exact ⟨_, _, rfl⟩
  | early => exact ⟨_, _, rfl⟩
  | next => exact ⟨_, _, rfl⟩

/-- What `recv_packet` itself sends is an acknowledgement. -/
theorem Received.out (h : Received s incoming r) : r.2.1 ⊆ [.send s.ackPacket] := by
  cases h with
  | other => exact List.nil_subset _
  | stale =>
    dsimp only
    split
    next => exact List.Subset.refl _
    next => exact List.nil_subset _
  | early => exact List.nil_subset _
  | next => exact List.nil_subset _

/-- A packet is handed up only if the last message sent has arrived. -/
theorem Received.handed (h : Received s incoming r) (hr : r.2.2 ≠ none) :
    r.1.acknowledged = true ∧ r.2.1 = [] := by
  cases h with
  | other => exact absurd rfl hr
  | stale => exact absurd rfl hr
  | early => exact absurd rfl hr
  | next message hmessage hns hacked => exact ⟨hacked, rfl⟩

/-- What is handed up was read from the packet. -/
theorem Received.message {out : List Output} {message session : BitVec 16} {s' : State}
    (h : Received s incoming (s', out, some (message, session))) :
    messageOf incoming = some message ∧ u16 incoming 6 = session := by
  cases h with
  | next _ hmessage => exact ⟨hmessage, rfl⟩

end Received

/-- With numbers of 16 bits, `recv_packet` does what an end with unbounded numbers does. -/
theorem recvPacket_refines {e : End Bytes} {ns nr : Nat} {message : BitVec 16}
    (hsent : s.localSequence = BitVec.ofNat 16 e.sent)
    (htaken : s.remoteSequence = BitVec.ofNat 16 e.taken.length)
    (hacked : s.acknowledged = e.acked) (hin : InTunnel s.localTunnel incoming)
    (hmessage : messageOf incoming = some message) (hns : u16 incoming 8 = BitVec.ofNat 16 ns)
    (hnr : u16 incoming 10 = BitVec.ofNat 16 nr) (hold : e.taken.length ≤ ns + 2 ^ 15)
    (hnew : ns < e.taken.length + 2 ^ 15) (hle : nr ≤ e.sent) (hlt : e.sent < nr + 2 ^ 16)
    (body : Option Bytes) (hbody : body.isSome = decide (message ≠ Message.ACK.code)) :
    recvPacket s incoming =
      match e.receive ⟨ns, nr, body⟩ with
      | (_, .stale) => (s, if message ≠ Message.ACK.code then [.send s.ackPacket] else [], none)
      | (e', .ignored) => ({ s with acknowledged := e'.acked }, [], none)
      | (e', .taken) =>
        ({ s with
            acknowledged := e'.acked
            remoteSequence := BitVec.ofNat 16 e'.taken.length },
          [], some (message, u16 incoming 6)) := by
  have hstale : 32767 < (u16 incoming 8 - s.remoteSequence).toNat ↔ ns < e.taken.length := by
    rw [hns, htaken]
    exact StopAndWait.stale_iff (w := 15) hold hnew
  have hnext : u16 incoming 8 = s.remoteSequence ↔ ns = e.taken.length := by
    rw [hns, htaken]
    exact ⟨fun h => StopAndWait.eq_of_ofNat_eq h (by omega) (by omega), fun h => by rw [h]⟩
  have hnow : (u16 incoming 10 == s.localSequence) = (nr == e.sent) := by
    rw [Bool.eq_iff_iff, beq_iff_eq, beq_iff_eq, hnr, hsent]
    exact ⟨fun h => StopAndWait.eq_of_ofNat_eq h (by omega) (by omega), fun h => by rw [h]⟩
  rw [recvPacket, if_neg (not_not.mpr hin), hmessage]
  dsimp only
  unfold End.receive
  rw [hacked, hnow]
  by_cases hlt : ns < e.taken.length
  · rw [if_pos (hstale.mpr hlt), if_pos hlt]
  · rw [if_neg (mt hstale.mp hlt), if_neg hlt]
    by_cases htake : ns = e.taken.length ∧ (e.acked || nr == e.sent) = true
    · have hgo : ¬ (u16 incoming 8 ≠ s.remoteSequence ∨ ¬ (e.acked || nr == e.sent) = true) := by
        rintro (h | h)
        · exact h (hnext.mpr htake.1)
        · exact h htake.2
      have hcount : (if message ≠ Message.ACK.code then s.remoteSequence + 1
          else s.remoteSequence) = BitVec.ofNat 16 (e.taken ++ body.toList).length := by
        rw [htaken, List.length_append]
        cases body with
        | none =>
          rw [if_neg (by simpa using hbody)]
          rfl
        | some b =>
          rw [if_pos (by simpa using hbody), Option.toList_some, List.length_singleton,
            BitVec.ofNat_add]
          rfl
      rw [if_neg hgo, hcount]
      dsimp only
      rw [if_pos htake]
    · have hstop : u16 incoming 8 ≠ s.remoteSequence ∨ ¬ (e.acked || nr == e.sent) = true := by
        by_cases hns' : ns = e.taken.length
        · exact Or.inr fun h => htake ⟨hns', h⟩
        · exact Or.inl (mt hnext.mp hns')
      rw [if_pos hstop]
      dsimp only
      rw [if_neg htake]

/-! ## What a step does to the numbers -/

/-- A packet that only acknowledges, with the number of the next message. -/
def IsAck (ns : BitVec 16) (p : Bytes) : Prop :=
  ∃ tunnel nr, p = header ACK_SIZE tunnel 0 ns nr

theorem IsAck.length_eq {ns : BitVec 16} {p : Bytes} (h : IsAck ns p) : p.length = ACK_SIZE := by
  obtain ⟨tunnel, nr, rfl⟩ := h
  exact length_header ..

/-- What a step, or its part behind `recv_packet`, can come to. -/
inductive Moved (s : State) (step : Step) : Prop
  | kept (htunnel : step.state.localTunnel = s.localTunnel)
      (hlocal : step.state.localSequence = s.localSequence)
      (hremote : step.state.remoteSequence = s.remoteSequence)
      (hacked : step.state.acknowledged = s.acknowledged)
      (houtgoing : step.state.outgoing = s.outgoing)
      (hpackets : ∀ p ∈ packets step.out, IsAck s.localSequence p)
  | sent (htunnel : step.state.localTunnel = s.localTunnel)
      (hlocal : step.state.localSequence = s.localSequence + 1)
      (hremote : step.state.remoteSequence = s.remoteSequence)
      (hbefore : s.acknowledged = true) (hacked : step.state.acknowledged = false)
      (hmessage : IsMessage s.localSequence step.state.outgoing)
      (hpackets : packets step.out = [step.state.outgoing])

theorem isAck_ackPacket (s : State) : IsAck s.localSequence s.ackPacket :=
  ⟨s.remoteTunnel, s.remoteSequence, rfl⟩

/-- What `send_ack` sends is an acknowledgement. -/
theorem isAck_of_subset {t : State} {out : List Output} (h : out ⊆ [.send t.ackPacket]) :
    ∀ p ∈ packets out, IsAck t.localSequence p := by
  intro p hp
  obtain ⟨o, ho, hsend⟩ := List.mem_filterMap.mp hp
  obtain rfl := List.mem_singleton.mp (h ho)
  obtain rfl := Option.some.inj hsend
  exact isAck_ackPacket t

theorem packets_append (a b : List Output) : packets (a ++ b) = packets a ++ packets b :=
  List.filterMap_append ..

section Moved

variable {env : Env} {message session : BitVec 16} {step : Step}

/-- A case of the switch that returns sends no message. -/
theorem Handled.ret_moved (h : Handled md5 env s incoming message session (.ret step)) :
    Moved s step := by
  cases h with
  | established out _ hout =>
    refine .kept rfl rfl rfl rfl rfl ?_
    rw [packets_append]
    intro p hp
    rcases List.mem_append.mp hp with hp | hp
    · exact isAck_of_subset hout p hp
    · exact absurd hp List.not_mem_nil
  | failed out _ hout => exact .kept rfl rfl rfl rfl rfl (isAck_of_subset hout)
  | ended => exact .kept rfl rfl rfl rfl rfl fun p hp => absurd hp List.not_mem_nil
  | stopped => exact .kept rfl rfl rfl rfl rfl fun p hp => absurd hp List.not_mem_nil
  | quiet out hout => exact .kept rfl rfl rfl rfl rfl (isAck_of_subset hout)

theorem bitVec_succ_ne (x : BitVec 16) : x ≠ x + 1 := by
  intro h
  have htoNat := congrArg BitVec.toNat h
  rw [BitVec.toNat_add] at htoNat
  have hlt := x.isLt
  have hone : (1 : BitVec 16).toNat = 1 := rfl
  omega

/-- A case that goes on sends what it prepared, or an acknowledgement. -/
theorem Handled.brk_moved {s' : State} (hacked : s.acknowledged = true)
    (h : Handled md5 env s incoming message session (.brk s')) :
    Moved s (finish [] s.localSequence s') := by
  rcases h.brk_cases with rfl | ⟨n, hn, hprepared⟩
  · rw [finish, if_neg (not_not.mpr rfl)]
    exact .kept rfl rfl rfl rfl rfl (isAck_of_subset (List.Subset.refl _))
  · have hne : s.localSequence ≠ s'.localSequence := by
      rw [hprepared.localSequence]
      exact bitVec_succ_ne _
    rw [finish, if_pos hne]
    exact .sent hprepared.localTunnel hprepared.localSequence hprepared.remoteSequence hacked rfl
      (hprepared.isMessage hn) rfl

end Moved

theorem recvPacket_nil (s : State) : recvPacket s [] = (s, [], none) := by
  have hout : ¬ InTunnel s.localTunnel [] := fun h => h.1 ⟨by decide, by decide⟩
  rw [recvPacket, if_pos hout]

/-- `l2tp_process` moves on from where `recv_packet` leaves it. -/
theorem l2tpProcess_moved (md5 : Md5) (env : Env) (s : State) (recv : Recv) :
    Moved (recvPacket s (incomingOf recv)).1 (l2tpProcess md5 env s recv) := by
  cases recv with
  | failed =>
    rw [incomingOf, recvPacket_nil]
    exact .kept rfl rfl rfl rfl rfl fun p hp => absurd hp List.not_mem_nil
  | interrupted =>
    rw [incomingOf, recvPacket_nil]
    exact .kept rfl rfl rfl rfl rfl fun p hp => absurd hp List.not_mem_nil
  | data bytes =>
    have hreceived := recvPacket_received s (bytes.take MAX_PACKET_LENGTH)
    rw [l2tpProcess, incomingOf]
    generalize recvPacket s (bytes.take MAX_PACKET_LENGTH) = r at hreceived
    obtain ⟨s', out, handed⟩ := r
    cases handed with
    | none =>
      obtain ⟨a, n, hstate⟩ := hreceived.state
      dsimp only at hstate
      have hlocal : s'.localSequence = s.localSequence := by rw [hstate]
      have hacks : ∀ p ∈ packets out, IsAck s.localSequence p := isAck_of_subset hreceived.out
      rw [← hlocal] at hacks
      exact .kept rfl rfl rfl rfl rfl hacks
    | some handed =>
      obtain ⟨message, session⟩ := handed
      obtain ⟨hacked, hout⟩ := hreceived.handed (Option.some_ne_none _)
      obtain ⟨a, n, hstate⟩ := hreceived.state
      dsimp only at hacked hout hstate ⊢
      have hlocal : s'.localSequence = s.localSequence := by rw [hstate]
      have hhandled := @dispatch_handled md5 env s' (bytes.take MAX_PACKET_LENGTH) message session
      generalize dispatch md5 env s' (bytes.take MAX_PACKET_LENGTH) message session = flow
        at hhandled
      subst hout
      cases flow with
      | brk s'' =>
        have hmoved := hhandled.brk_moved hacked
        rwa [hlocal] at hmoved
      | ret step => exact hhandled.ret_moved

/-! ## The numbers of the two ends -/

theorem World.step_cases {w w' : World} {a : Action} (h : w.step md5 a = some w') :
    (a = .accept ∧ w.accepted < w.sent.length ∧ w' = { w with accepted := w.accepted + 1 }) ∨
    (∃ env recv ns nr, a = .recv env recv ns nr ∧
      w' = w.perform (handledOf w.daemon (incomingOf recv)) (l2tpProcess md5 env w.daemon recv)) ∨
    (a = .timeout ∧ w' = w.perform [] (l2tpTimeout w.daemon)) := by
  unfold World.step at h
  split at h
  next =>
    cases a with
    | accept =>
      dsimp only at h
      split at h
      next hlt => exact Or.inl ⟨rfl, hlt, (Option.some.inj h).symm⟩
      next => cases h
    | recv env recv ns nr =>
      exact Or.inr (Or.inl ⟨env, recv, ns, nr, rfl, (Option.some.inj h).symm⟩)
    | timeout => exact Or.inr (Or.inr ⟨rfl, (Option.some.inj h).symm⟩)
  next => cases h

/-- The end that the daemon implements. -/
def World.toEnd (w : World) : End Bytes :=
  ⟨w.sent.length, w.handled.map content, w.daemon.acknowledged⟩

/-- The daemon's numbers are the low bits of the unbounded ones, which are right. -/
structure LinkInv (peer : Nat → Bytes) (w : World) : Prop where
  sent : w.daemon.localSequence = BitVec.ofNat 16 w.sent.length
  handled : w.daemon.remoteSequence = BitVec.ofNat 16 w.handled.length
  link : StopAndWait.Inv peer w.accepted w.toEnd

/-- The daemon behind `recv_packet`. -/
def World.received (w : World) (incoming : Bytes) : World :=
  { w with
    daemon := (recvPacket w.daemon incoming).1
    handled := w.handled ++ handledOf w.daemon incoming }

section Link

variable {peer : Nat → Bytes} {w : World}

theorem linkInv_received (h : LinkInv peer w) {env : Env} {recv : Recv} {ns nr : Nat}
    (hhonest : HonestAction peer w (.recv env recv ns nr)) :
    LinkInv peer (w.received (incomingOf recv)) := by
  have hother : (recvPacket w.daemon (incomingOf recv)).1 = w.daemon →
      (recvPacket w.daemon (incomingOf recv)).2.2 = none → LinkInv peer (w.received (incomingOf recv)) := by
    intro hstate hhanded
    rw [World.received, handledOf, hstate, hhanded]
    dsimp only
    rw [List.append_nil]
    exact h
  by_cases hin : InTunnel w.daemon.localTunnel (incomingOf recv)
  · cases hmessage : messageOf (incomingOf recv) with
    | none =>
      have hnone : recvPacket w.daemon (incomingOf recv) = (w.daemon, [], none) := by
        rw [recvPacket, if_neg (not_not.mpr hin), hmessage]
      exact hother (by rw [hnone]) (by rw [hnone])
    | some message =>
      obtain ⟨hns, hnr, hpeer, hold, hnew, hlate⟩ := hhonest hin message hmessage
      have hlen : w.toEnd.taken.length = w.handled.length := List.length_map _
      have hle : nr ≤ w.toEnd.sent := Nat.le_trans hpeer.nr_le h.link.accepted_le
      have hinv := StopAndWait.inv_receive h.link hpeer
      have hrefines := recvPacket_refines (e := w.toEnd) h.sent (by rw [hlen]; exact h.handled)
        rfl hin hmessage hns hnr (by rw [hlen]; exact hold) (by rw [hlen]; exact hnew) hle hlate
        (if message ≠ Message.ACK.code then some (content (incomingOf recv)) else none)
        (by split <;> simp_all)
      generalize hbody : (if message ≠ Message.ACK.code then some (content (incomingOf recv))
        else none) = body at hinv hrefines
      rcases StopAndWait.receive_cases w.toEnd ⟨ns, nr, body⟩ with heq | ⟨a, heq⟩ | ⟨a, heq⟩
      · rw [heq] at hrefines
        exact hother (by rw [hrefines]) (by rw [hrefines])
      · rw [heq] at hrefines hinv
        rw [World.received, handledOf, hrefines]
        dsimp only
        rw [List.append_nil]
        exact ⟨h.sent, h.handled, hinv⟩
      · rw [heq] at hrefines hinv
        have hcontent : (if message ≠ Message.ACK.code then [incomingOf recv] else []).map content =
            body.toList := by
          rw [← hbody]
          split <;> rfl
        have htaken : (w.handled ++ if message ≠ Message.ACK.code then [incomingOf recv] else []).map
            content = w.toEnd.taken ++ body.toList := by
          rw [List.map_append, hcontent]
          rfl
        rw [World.received, handledOf, hrefines]
        refine ⟨h.sent, ?_, ?_⟩
        · dsimp only
          rw [← htaken, List.length_map]
        · simp only [World.toEnd] at htaken hinv ⊢
          rw [htaken]
          exact hinv
  · have hnone : recvPacket w.daemon (incomingOf recv) = (w.daemon, [], none) := by
      rw [recvPacket, if_pos hin]
    exact hother (by rw [hnone]) (by rw [hnone])

theorem l2tpTimeout_state (s : State) : (l2tpTimeout s).state = s := by
  unfold l2tpTimeout
  split <;> rfl

/-- What a step sends is counted. -/
theorem linkInv_perform (h : LinkInv peer w) {step : Step} (handled : List Bytes)
    {v : World} (hv : v.daemon.localSequence = w.daemon.localSequence)
    (haccepted : v.accepted = w.accepted) (hsent : v.sent = w.sent)
    (hhandled : v.handled ++ handled = w.handled) (hmoved : Moved w.daemon step) :
    LinkInv peer (v.perform handled step) := by
  cases hmoved with
  | kept htunnel hlocal hremote hacked =>
    have hkeep : (v.perform handled step).sent = w.sent := by
      rw [World.perform, if_pos (by rw [hlocal, hv]), hsent]
    have hthere : (v.perform handled step).handled = w.handled := hhandled
    refine ⟨?_, ?_, ?_⟩
    · rw [hkeep]
      exact hlocal.trans h.sent
    · rw [hthere]
      exact hremote.trans h.handled
    · rw [World.toEnd, hkeep, hthere]
      have hlink := h.link
      rw [World.toEnd, ← hacked, ← haccepted] at hlink
      exact hlink
  | sent htunnel hlocal hremote hbefore hacked hmessage =>
    have hgrow : (v.perform handled step).sent = w.sent ++ [step.state.outgoing] := by
      rw [World.perform, if_neg, hsent]
      rw [hlocal, hv]
      exact fun heq => bitVec_succ_ne _ heq.symm
    have hthere : (v.perform handled step).handled = w.handled := hhandled
    refine ⟨?_, ?_, ?_⟩
    · rw [hgrow, List.length_append, List.length_singleton, BitVec.ofNat_add, ← h.sent]
      exact hlocal
    · rw [hthere]
      exact hremote.trans h.handled
    · have hlink := StopAndWait.inv_send h.link hbefore
      rw [World.toEnd, hgrow, hthere, List.length_append, List.length_singleton]
      rw [End.send, World.toEnd, ← hacked, ← haccepted] at hlink
      exact hlink

theorem linkInv_step (h : LinkInv peer w) {a : Action} (hhonest : HonestAction peer w a) {w' : World}
    (hstep : w.step md5 a = some w') : LinkInv peer w' := by
  obtain ⟨rfl, hlt, rfl⟩ | ⟨env, recv, ns, nr, rfl, rfl⟩ | ⟨rfl, rfl⟩ := World.step_cases hstep
  · exact ⟨h.sent, h.handled, StopAndWait.inv_accept h.link hlt⟩
  · obtain ⟨a, n, hstate⟩ := (recvPacket_received w.daemon (incomingOf recv)).state
    have hlocal : w.daemon.localSequence = (w.received (incomingOf recv)).daemon.localSequence := by
      rw [World.received, hstate]
    exact linkInv_perform (linkInv_received h hhonest) _ hlocal rfl rfl rfl
      (l2tpProcess_moved md5 env w.daemon recv)
  · have hsame : w.perform [] (l2tpTimeout w.daemon) = { w with
        last := (l2tpTimeout w.daemon).result
        wire := w.wire ++ packets (l2tpTimeout w.daemon).out
        pppd := w.pppd ++ starts (l2tpTimeout w.daemon).out } := by
      rw [World.perform, l2tpTimeout_state, if_pos rfl, List.append_nil]
    rw [hsame]
    exact ⟨h.sent, h.handled, h.link⟩

end Link

/-! ## The runs -/

/-- What `l2tp_connect` sends is the first message. -/
theorem l2tpConnect_message (env : Env) (secret : Bytes) (challenge : Challenge) :
    IsMessage 0 (l2tpConnect env secret challenge).state.outgoing ∧
      (l2tpConnect env secret challenge).state.localSequence = 1 ∧
      (l2tpConnect env secret challenge).state.remoteSequence = 0 ∧
      (l2tpConnect env secret challenge).state.acknowledged = false := by
  let s : State :=
    { localTunnel := env.random, localSession := 0, localSequence := 0, remoteTunnel := 0,
      remoteSession := 0, remoteSequence := 0, state := .SCCRQ, acknowledged := false,
      secret := none, challenge := [], outgoing := [] }
  have hprepared := (((((prepared_setMessage (s := s) 0 (m := .SCCRQ) (by decide)).addAttributeU16
    PROTOCOL_VERSION 0x0100).addAttribute HOST_NAME
      ("anonymous".toList.map fun c => BitVec.ofNat 8 c.toNat)).addAttributeU32
        FRAMING_CAPABILITIES 3).addAttributeU16 ASSIGNED_TUNNEL env.random).addAttributeU16
          WINDOW_SIZE 1
  unfold l2tpConnect
  dsimp only
  split
  next =>
    have hchallenge := hprepared.addAttribute CHALLENGE challenge.val
    have hsize : 0 + 8 + (6 + ("anonymous".toList.map fun c => BitVec.ofNat 8 c.toNat).length) + 10 +
        8 + 8 + (6 + challenge.val.length) ≤ 200 := by
      rw [challenge.property]
      decide
    exact ⟨hchallenge.isMessage hsize, rfl, rfl, rfl⟩
  next => exact ⟨hprepared.isMessage (by decide), rfl, rfl, rfl⟩

theorem linkInv_connected (peer : Nat → Bytes) (env : Env) (secret : Bytes)
    (challenge : Challenge) : LinkInv peer (World.connected env secret challenge) := by
  obtain ⟨-, hlocal, hremote, hacked⟩ := l2tpConnect_message env secret challenge
  refine ⟨hlocal, hremote, rfl, Nat.zero_le 1, Nat.le_refl 1, fun h => ?_⟩
  exact absurd (hacked.symm.trans h) Bool.false_ne_true

/-! A connection with a secret, on a network that repeats the first message of either side. -/

namespace Sample

/-- The digest of the one text that the connection needs it of. -/
def response : Bytes :=
  [0xce, 0x28, 0x3e, 0x4e, 0x3d, 0x2f, 0xcf, 0x89, 0xca, 0x16, 0xbf, 0x76, 0x2d, 0xf5, 0x52, 0x11]

def secret : Bytes := [0x73]

def challenge : Challenge := ⟨List.replicate 32 0, rfl⟩

def digests : Md5 where
  digest s := if s = 2 :: secret ++ challenge then response else List.replicate 16 0
  length_digest s := by split <;> rfl

def env : Env := ⟨⟨5, by decide⟩, 1, true⟩

def packet (m : Message) (session : BitVec 16) (ns nr : BitVec 16) (attributes : Bytes) : Bytes :=
  header (MESSAGE_HEADER_SIZE + attributes.length) 5 session ns nr ++
    (addAttributeRaw 0 (be16 m.code) ++ attributes)

def sccrp : Bytes :=
  packet .SCCRP 0 0 1 (addAttributeRaw ASSIGNED_TUNNEL (be16 7) ++
    addAttributeRaw CHALLENGE_RESPONSE response)

def icrp : Bytes := packet .ICRP 5 1 3 (addAttributeRaw ASSIGNED_SESSION (be16 9))

def ack (ns nr : BitVec 16) : Bytes := header ACK_SIZE 5 0 ns nr

def peer (k : Nat) : Bytes := if k = 0 then content sccrp else content icrp

def actions : List Action :=
  [.timeout, .accept, .recv env (.data sccrp) 0 1, .recv env (.data sccrp) 0 1, .accept,
    .recv env (.data (ack 1 2)) 1 2, .accept, .recv env (.data icrp) 1 3, .accept,
    .recv env (.data (ack 2 4)) 2 4]

def start : World := World.connected env secret challenge

theorem actions_return : (Run.run (World.step digests) start actions).isSome := by decide +kernel

end Sample

/-- Whatever the network loses, repeats and reorders of what is not older than the numbers can tell
(`HonestPacket`), the daemon in its main loop handles the peer's messages in order and each of them
once, and sends a message only after the peer has accepted the one before. -/
theorem link_run (md5 : Md5) (peer : Nat → Bytes) (env : Env) (secret : Bytes)
    (challenge : Challenge) (as : List Action) (w : World)
    (hhonest : Run.Guarded (World.step md5) (HonestAction peer)
      (World.connected env secret challenge) as)
    (h : Run.run (World.step md5) (World.connected env secret challenge) as = some w) :
    w.handled.map content = (List.range w.handled.length).map peer ∧
      w.accepted ≤ w.sent.length ∧ w.sent.length ≤ w.accepted + 1 ∧
      (w.daemon.acknowledged = true → w.accepted = w.sent.length) := by
  have hinv := Run.inv_run_guarded (fun _ _ _ hw hg hstep => linkInv_step hw hg hstep) as
    (linkInv_connected peer env secret challenge) hhonest h
  have htaken := hinv.link.taken_eq
  rw [World.toEnd, List.length_map] at htaken
  exact ⟨htaken, hinv.link.accepted_le, hinv.link.sent_le, hinv.link.acked_eq⟩

theorem link_run_witness : ∃ w,
    Run.run (World.step Sample.digests) Sample.start Sample.actions = some w ∧
      w.handled.map content = (List.range w.handled.length).map Sample.peer ∧
      w.accepted ≤ w.sent.length ∧ w.sent.length ≤ w.accepted + 1 ∧
      (w.daemon.acknowledged = true → w.accepted = w.sent.length) := by
  obtain ⟨w, hw⟩ := Option.isSome_iff_exists.mp Sample.actions_return
  exact ⟨w, hw, link_run Sample.digests Sample.peer Sample.env Sample.secret Sample.challenge
    Sample.actions w (by decide +kernel) hw⟩

/-- The packets that are more than an acknowledgement. -/
def messagesOf (wire : List Bytes) : List Bytes := wire.filter fun p => p.length != ACK_SIZE

/-- What was sent are messages with their numbers, and the wire has them in order, with
acknowledgements in between. -/
structure WireInv (w : World) : Prop where
  number : w.daemon.localSequence = BitVec.ofNat 16 w.sent.length
  last : ∃ before, w.sent = before ++ [w.daemon.outgoing]
  messages : ∀ k, (hk : k < w.sent.length) → IsMessage (BitVec.ofNat 16 k) w.sent[k]
  wire : Repeats w.sent (messagesOf w.wire)
  acks : ∀ p ∈ w.wire, p.length = ACK_SIZE →
    ∃ k, k ≤ w.sent.length ∧ IsAck (BitVec.ofNat 16 k) p

section Wire

variable {w : World} {step : Step}

theorem IsMessage.length_ne {ns : BitVec 16} {p : Bytes} (h : IsMessage ns p) :
    p.length ≠ ACK_SIZE := by
  have hsize := h.size.1
  rw [MESSAGE_HEADER_SIZE] at hsize
  rw [ACK_SIZE]
  omega

theorem messagesOf_message {wire : List Bytes} {p : Bytes} (h : p.length ≠ ACK_SIZE) :
    messagesOf (wire ++ [p]) = messagesOf wire ++ [p] := by
  rw [messagesOf, List.filter_append, List.filter_singleton, bne_iff_ne.mpr h, cond_true]
  rfl

theorem messagesOf_acks {wire acks : List Bytes} (h : ∀ p ∈ acks, p.length = ACK_SIZE) :
    messagesOf (wire ++ acks) = messagesOf wire := by
  have hnone : acks.filter (fun p => p.length != ACK_SIZE) = [] := by
    rw [List.filter_eq_nil_iff]
    intro p hp
    rw [h p hp]
    decide
  rw [messagesOf, List.filter_append, hnone, List.append_nil]
  rfl

theorem wireInv_perform (h : WireInv w) (handled : List Bytes) (hs : s.localSequence =
    w.daemon.localSequence) (ho : s.outgoing = w.daemon.outgoing) (hmoved : Moved s step) :
    WireInv (w.perform handled step) := by
  cases hmoved with
  | kept htunnel hlocal hremote hacked houtgoing hpackets =>
    have hkeep : (w.perform handled step).sent = w.sent := by
      rw [World.perform, if_pos (hlocal.trans hs)]
    rw [hs, h.number] at hpackets
    refine ⟨?_, ?_, ?_, ?_, ?_⟩
    · rw [hkeep, ← h.number]
      exact hlocal.trans hs
    · rw [hkeep]
      obtain ⟨before, hbefore⟩ := h.last
      exact ⟨before, by rw [hbefore, World.perform, houtgoing, ho]⟩
    · simp only [hkeep]
      exact h.messages
    · rw [hkeep, World.perform, messagesOf_acks fun p hp => (hpackets p hp).length_eq]
      exact h.wire
    · rw [hkeep]
      intro p hp hsize
      rcases List.mem_append.mp hp with hp | hp
      · exact h.acks p hp hsize
      · exact ⟨w.sent.length, Nat.le_refl _, hpackets p hp⟩
  | sent htunnel hlocal hremote hbefore hacked hmessage hpackets =>
    have hgrow : (w.perform handled step).sent = w.sent ++ [step.state.outgoing] := by
      rw [World.perform, if_neg]
      rw [hlocal, hs]
      exact fun heq => bitVec_succ_ne _ heq.symm
    refine ⟨?_, ⟨w.sent, hgrow⟩, ?_, ?_, ?_⟩
    · rw [hgrow, List.length_append, List.length_singleton, BitVec.ofNat_add, ← h.number, ← hs]
      exact hlocal
    · rw [hgrow]
      intro k hk
      rcases Nat.lt_or_ge k w.sent.length with hlt | hge
      · rw [List.getElem_append_left hlt]
        exact h.messages k hlt
      · have hlen : k = w.sent.length := by
          rw [List.length_append, List.length_singleton] at hk
          omega
        rw [List.getElem_append_right hge, List.getElem_singleton, hlen, ← h.number, ← hs]
        exact hmessage
    · rw [hgrow, World.perform, hpackets, messagesOf_message hmessage.length_ne]
      exact .send _ h.wire
    · rw [hgrow, List.length_append]
      intro p hp hsize
      rw [World.perform, hpackets] at hp
      rcases List.mem_append.mp hp with hp | hp
      · obtain ⟨k, hk, hack⟩ := h.acks p hp hsize
        exact ⟨k, hk.trans (Nat.le_add_right _ _), hack⟩
      · obtain rfl := List.mem_singleton.mp hp
        exact absurd hsize hmessage.length_ne

/-- What is in `outgoing` is the last message. -/
theorem WireInv.outgoing (h : WireInv w) :
    ∃ ns, IsMessage ns w.daemon.outgoing := by
  obtain ⟨before, hbefore⟩ := h.last
  have hlt : before.length < w.sent.length := by
    rw [hbefore, List.length_append, List.length_singleton]
    exact Nat.lt_succ_self _
  have hmessage := h.messages before.length hlt
  have hget : w.sent[before.length] = w.daemon.outgoing := by
    simp only [hbefore, List.getElem_concat_length]
  exact ⟨_, hget ▸ hmessage⟩

/-- `l2tp_timeout` sends nothing else. -/
theorem packets_l2tpTimeout {p : Bytes} (h : p ∈ packets (l2tpTimeout s).out) : p = s.outgoing := by
  unfold l2tpTimeout at h
  split at h
  next => exact absurd h List.not_mem_nil
  next => exact List.mem_singleton.mp h

theorem wireInv_timeout (h : WireInv w) : WireInv (w.perform [] (l2tpTimeout w.daemon)) := by
  have hsame : (w.perform [] (l2tpTimeout w.daemon)).sent = w.sent := by
    rw [World.perform, l2tpTimeout_state, if_pos rfl]
  have hdaemon : (w.perform [] (l2tpTimeout w.daemon)).daemon = w.daemon := l2tpTimeout_state _
  obtain ⟨ns, hmessage⟩ := h.outgoing
  refine ⟨by rw [hdaemon, hsame, h.number], by rw [hdaemon, hsame]; exact h.last, ?_, ?_, ?_⟩
  · simp only [hsame]
    exact h.messages
  · rw [hsame]
    unfold World.perform l2tpTimeout
    split
    next => exact (messagesOf_acks fun p hp => absurd hp List.not_mem_nil).symm ▸ h.wire
    next =>
      obtain ⟨before, hbefore⟩ := h.last
      have hwire := h.wire
      have hone : messagesOf (w.wire ++ packets [.send w.daemon.outgoing]) =
          messagesOf w.wire ++ [w.daemon.outgoing] := messagesOf_message hmessage.length_ne
      rw [hbefore] at hwire ⊢
      dsimp only
      rw [hone]
      exact .again _ hwire
  · rw [hsame]
    intro p hp hsize
    rcases List.mem_append.mp hp with hp | hp
    · exact h.acks p hp hsize
    · obtain rfl := packets_l2tpTimeout hp
      exact absurd hsize hmessage.length_ne

theorem wireInv_step (h : WireInv w) {a : Action} {w' : World} (hstep : w.step md5 a = some w') :
    WireInv w' := by
  obtain ⟨rfl, hlt, rfl⟩ | ⟨env, recv, ns, nr, rfl, rfl⟩ | ⟨rfl, rfl⟩ := World.step_cases hstep
  · exact ⟨h.number, h.last, h.messages, h.wire, h.acks⟩
  · obtain ⟨a, n, hstate⟩ := (recvPacket_received w.daemon (incomingOf recv)).state
    exact wireInv_perform h _ (by rw [hstate]) (by rw [hstate])
      (l2tpProcess_moved md5 env w.daemon recv)
  · exact wireInv_timeout h

theorem wireInv_connected (env : Env) (secret : Bytes) (challenge : Challenge) :
    WireInv (World.connected env secret challenge) := by
  obtain ⟨hmessage, hlocal, -, -⟩ := l2tpConnect_message env secret challenge
  refine ⟨hlocal, ⟨[], rfl⟩, ?_, ?_, ?_⟩
  · intro k hk
    obtain rfl : k = 0 := Nat.lt_one_iff.mp hk
    exact hmessage
  · have hone : messagesOf (World.connected env secret challenge).wire =
        messagesOf [] ++ [(l2tpConnect env secret challenge).state.outgoing] :=
      @messagesOf_message [] _ hmessage.length_ne
    rw [hone]
    exact .send _ .nil
  · intro p hp hsize
    obtain rfl := List.mem_singleton.mp hp
    exact absurd hsize hmessage.length_ne

end Wire

/-- Whatever arrives, what the daemon sends are its messages, numbered from 0 on and fit to be read
by a peer, in order and each of them again any number of times before the next one, and
acknowledgements that bear the number of one of them or of the next. -/
theorem wire_run (md5 : Md5) (env : Env) (secret : Bytes) (challenge : Challenge)
    (as : List Action) (w : World)
    (h : Run.run (World.step md5) (World.connected env secret challenge) as = some w) :
    Repeats w.sent (messagesOf w.wire) ∧
      (∀ k, (hk : k < w.sent.length) → IsMessage (BitVec.ofNat 16 k) w.sent[k]) ∧
      ∀ p ∈ w.wire, p.length = ACK_SIZE →
        ∃ k, k ≤ w.sent.length ∧ IsAck (BitVec.ofNat 16 k) p := by
  have hinv := Run.inv_run (fun _ _ _ hw hstep => wireInv_step hw hstep) as
    (wireInv_connected env secret challenge) h
  exact ⟨hinv.wire, hinv.messages, hinv.acks⟩

theorem wire_run_witness : ∃ w,
    Run.run (World.step Sample.digests) Sample.start Sample.actions = some w ∧
      Repeats w.sent (messagesOf w.wire) ∧
      (∀ k, (hk : k < w.sent.length) → IsMessage (BitVec.ofNat 16 k) w.sent[k]) ∧
      ∀ p ∈ w.wire, p.length = ACK_SIZE →
        ∃ k, k ≤ w.sent.length ∧ IsAck (BitVec.ofNat 16 k) p := by
  obtain ⟨w, hw⟩ := Option.isSome_iff_exists.mp Sample.actions_return
  exact ⟨w, hw, wire_run Sample.digests Sample.env Sample.secret Sample.challenge Sample.actions w hw⟩

end ConfProfile.Mtpd.L2tp
