import ConfProfile.Mtpd.Link

/-!
# When the tunnel daemon starts `pppd`

`pppd` is started for a session that both ends know. In every run, whatever packets arrive, the
daemon starts it at most once, and only after it has handled, in this order, an SCCRP that assigns
the peer's tunnel and an ICRP for its own session that assigns the peer's; where there is a secret,
the SCCRP carries the digest of it and of the challenge (`pppd_run`).

What has been handled so far is tied to the variable `state` (`PppdInv`), and each way of handling a
message leads from one state to the next one.
-/

namespace ConfProfile.Mtpd.L2tp

variable (md5 : Md5) (tunnel : BitVec 16) (secret : Option Bytes) (challenge : Bytes)

/-- An SCCRP that the daemon goes on after. -/
structure Accepts (packet : Bytes) (assigned : BitVec 16) : Prop where
  message : messageOf packet = some Message.SCCRP.code
  found : getAttributeU16 md5 secret packet ASSIGNED_TUNNEL 0 = (true, assigned)
  nonzero : assigned ≠ 0
  response : ∀ known, secret = some known →
    getAttributeRaw md5 secret packet CHALLENGE_RESPONSE 16 =
      computeResponse md5 .SCCRP known challenge

/-- An ICRP for a session of ours. -/
structure Assigns (packet : Bytes) (session assigned : BitVec 16) : Prop where
  message : messageOf packet = some Message.ICRP.code
  session_eq : u16 packet 6 = session
  found : getAttributeU16 md5 secret packet ASSIGNED_SESSION session = (true, assigned)
  nonzero : assigned ≠ 0

/-- The peer's tunnel is one that it assigned. -/
def Connected (handled : List Bytes) (remoteTunnel : BitVec 16) : Prop :=
  ∃ sccrp, [sccrp].Sublist handled ∧ Accepts md5 secret challenge sccrp remoteTunnel

/-- Both tunnels and both sessions are known, and the peer was asked in the right order. -/
def Justified (handled : List Bytes) (start : Start) : Prop :=
  start.localTunnel = tunnel ∧ ∃ sccrp icrp, [sccrp, icrp].Sublist handled ∧
    Accepts md5 secret challenge sccrp start.remoteTunnel ∧
    Assigns md5 secret icrp start.localSession start.remoteSession

/-- What the variables say about what was handled and started. -/
structure PppdInv (s : State) (handled : List Bytes) (pppd : List Start) : Prop where
  localTunnel : s.localTunnel = tunnel
  secret_eq : s.secret = secret
  challenge_eq : ∀ known, secret = some known → s.challenge = challenge
  progress : match s.state with
    | .SCCRQ => pppd = []
    | .SCCCN => pppd = [] ∧ Connected md5 secret challenge handled s.remoteTunnel
    | .ICRQ => pppd = [] ∧ Connected md5 secret challenge handled s.remoteTunnel
    | .ICCN => pppd = [] ∧ Justified md5 tunnel secret challenge handled
        ⟨tunnel, s.localSession, s.remoteTunnel, s.remoteSession⟩
    | _ => True
  once : pppd.length ≤ 1
  justified : ∀ start ∈ pppd, Justified md5 tunnel secret challenge handled start

variable {md5 tunnel secret challenge} {s s' : State} {handled : List Bytes} {pppd : List Start}

/-- What is handled later takes nothing back. -/
theorem Connected.append {remoteTunnel : BitVec 16} (h : Connected md5 secret challenge handled
    remoteTunnel) (more : List Bytes) :
    Connected md5 secret challenge (handled ++ more) remoteTunnel := by
  obtain ⟨sccrp, hsub, hacc⟩ := h
  exact ⟨sccrp, hsub.trans (List.sublist_append_left handled more), hacc⟩

theorem Justified.append {start : Start} (h : Justified md5 tunnel secret challenge handled start)
    (more : List Bytes) : Justified md5 tunnel secret challenge (handled ++ more) start := by
  obtain ⟨htunnel, sccrp, icrp, hsub, hacc, hass⟩ := h
  exact ⟨htunnel, sccrp, icrp, hsub.trans (List.sublist_append_left handled more), hacc, hass⟩

/-- The variables that a message on its way does not touch. -/
structure SameView (s s' : State) : Prop where
  localTunnel : s'.localTunnel = s.localTunnel
  localSession : s'.localSession = s.localSession
  remoteTunnel : s'.remoteTunnel = s.remoteTunnel
  remoteSession : s'.remoteSession = s.remoteSession
  state : s'.state = s.state
  secret : s'.secret = s.secret
  challenge : s'.challenge = s.challenge

theorem PppdInv.view (h : PppdInv md5 tunnel secret challenge s handled pppd)
    (hview : SameView s s') : PppdInv md5 tunnel secret challenge s' handled pppd := by
  refine ⟨hview.localTunnel.trans h.localTunnel, hview.secret.trans h.secret_eq,
    fun known hknown => hview.challenge.trans (h.challenge_eq known hknown), ?_, h.once,
    h.justified⟩
  rw [hview.state, hview.localSession, hview.remoteTunnel, hview.remoteSession]
  exact h.progress

theorem PppdInv.append (h : PppdInv md5 tunnel secret challenge s handled pppd)
    (more : List Bytes) : PppdInv md5 tunnel secret challenge s (handled ++ more) pppd := by
  refine ⟨h.localTunnel, h.secret_eq, h.challenge_eq, ?_, h.once,
    fun start hstart => (h.justified start hstart).append more⟩
  have hprogress := h.progress
  split at hprogress
  next => exact hprogress
  next => exact ⟨hprogress.1, hprogress.2.append more⟩
  next => exact ⟨hprogress.1, hprogress.2.append more⟩
  next => exact ⟨hprogress.1, hprogress.2.append more⟩
  next => trivial

theorem SameView.refl (s : State) : SameView s s := ⟨rfl, rfl, rfl, rfl, rfl, rfl, rfl⟩

theorem sameView_answerChallenge (s : State) (incoming : Bytes) :
    SameView s (answerChallenge md5 s incoming) := by
  unfold answerChallenge
  split
  next =>
    dsimp only
    split
    next => exact ⟨rfl, rfl, rfl, rfl, rfl, rfl, rfl⟩
    next => exact .refl s
  next => exact .refl s

theorem sameView_finish (out : List Output) (sequence : BitVec 16) (s : State) :
    SameView s (finish out sequence s).state ∧ starts (finish out sequence s).out = starts out := by
  unfold finish
  split
  next =>
    refine ⟨⟨rfl, rfl, rfl, rfl, rfl, rfl, rfl⟩, ?_⟩
    exact List.filterMap_append.trans (List.append_nil _)
  next => exact ⟨.refl s, List.filterMap_append.trans (List.append_nil _)⟩

/-- The response was verified. -/
theorem verifyChallenge_eq {incoming known : Bytes} (h : verifyChallenge md5 s incoming = true)
    (hsecret : s.secret = some known) :
    getAttributeRaw md5 s.secret incoming CHALLENGE_RESPONSE 16 =
      computeResponse md5 .SCCRP known s.challenge := by
  unfold verifyChallenge at h
  rw [hsecret] at h ⊢
  dsimp only at h
  split at h
  next => cases h
  next => exact (eq_of_beq h).symm

theorem starts_subset {t : State} {out : List Output} (h : out ⊆ [.send t.ackPacket]) :
    starts out = [] := by
  rw [starts, List.filterMap_eq_nil_iff]
  intro o ho
  obtain rfl := List.mem_singleton.mp (h ho)
  rfl

section Switch

variable {env : Env} {incoming : Bytes} {message session : BitVec 16}

/-- A case of the switch that goes on. -/
theorem pppdInv_brk {more : List Bytes} (h : PppdInv md5 tunnel secret challenge s handled pppd)
    (hmessage : messageOf incoming = some message) (hsession : u16 incoming 6 = session)
    (hmore : message ≠ Message.ACK.code → more = [incoming])
    (hhandled : Handled md5 env s incoming message session (.brk s')) :
    PppdInv md5 tunnel secret challenge s' (handled ++ more) pppd := by
  have hprogress := h.progress
  have hlater := h.append more
  cases hhandled with
  | connected assigned hcode hstate hfound hnonzero hverify =>
    rw [hstate] at hprogress
    have haccepts : Accepts md5 secret challenge incoming assigned := by
      refine ⟨hcode ▸ hmessage, h.secret_eq ▸ hfound, hnonzero, fun known hknown => ?_⟩
      rw [← h.challenge_eq known hknown, ← h.secret_eq]
      exact verifyChallenge_eq hverify (h.secret_eq.trans hknown)
    have hconnected : Connected md5 secret challenge (handled ++ more) assigned := by
      rw [hmore (by rw [hcode]; decide)]
      exact ⟨incoming, List.sublist_append_right handled [incoming], haccepts⟩
    refine PppdInv.view ?_ (sameView_answerChallenge _ incoming)
    exact ⟨h.localTunnel, h.secret_eq, h.challenge_eq, ⟨hprogress, hconnected⟩, h.once,
      hlater.justified⟩
  | calling hstate =>
    rw [hstate] at hprogress
    exact ⟨h.localTunnel, h.secret_eq, h.challenge_eq, ⟨hprogress.1, hprogress.2.append more⟩,
      h.once, hlater.justified⟩
  | called assigned hcode hstate hown hfound hnonzero =>
    rw [hstate] at hprogress
    obtain ⟨hpppd, sccrp, hsub, haccepts⟩ := hprogress
    have hassigns : Assigns md5 secret incoming s.localSession assigned := by
      rw [hown] at hsession hfound
      exact ⟨hcode ▸ hmessage, hsession, h.secret_eq ▸ hfound, hnonzero⟩
    have hjustified : Justified md5 tunnel secret challenge (handled ++ more)
        ⟨tunnel, s.localSession, s.remoteTunnel, assigned⟩ := by
      rw [hmore (by rw [hcode]; decide)]
      exact ⟨rfl, sccrp, incoming, hsub.append (List.Sublist.refl [incoming]), haccepts, hassigns⟩
    exact ⟨h.localTunnel, h.secret_eq, h.challenge_eq, ⟨hpppd, hjustified⟩, h.once,
      hlater.justified⟩
  | refused =>
    exact hlater.view ⟨rfl, rfl, rfl, rfl, rfl, rfl, rfl⟩
  | unexpected => exact hlater

/-- A case that returns. -/
theorem pppdInv_ret {more : List Bytes} {step : Step}
    (h : PppdInv md5 tunnel secret challenge s handled pppd)
    (hhandled : Handled md5 env s incoming message session (.ret step)) :
    PppdInv md5 tunnel secret challenge step.state (handled ++ more) (pppd ++ starts step.out) := by
  have hlater := h.append more
  cases hhandled with
  | established out hstate hout =>
    have hprogress := hlater.progress
    rw [hstate] at hprogress
    obtain ⟨rfl, hjustified⟩ := hprogress
    have hstarts : starts (out ++
        [.startPppd s.localTunnel s.localSession s.remoteTunnel s.remoteSession]) =
          [⟨tunnel, s.localSession, s.remoteTunnel, s.remoteSession⟩] := by
      rw [starts, List.filterMap_append]
      rw [show out.filterMap _ = [] from starts_subset hout, h.localTunnel]
      rfl
    rw [hstarts]
    refine ⟨h.localTunnel, h.secret_eq, h.challenge_eq, trivial, Nat.le_refl 1, ?_⟩
    intro start hstart
    obtain rfl := List.mem_singleton.mp hstart
    exact hjustified
  | failed out hstate hout =>
    rw [show starts out = [] from starts_subset hout, List.append_nil]
    exact ⟨h.localTunnel, h.secret_eq, h.challenge_eq, trivial, h.once, hlater.justified⟩
  | ended =>
    rw [show starts [] = [] from rfl, List.append_nil]
    exact hlater
  | stopped =>
    rw [show starts [] = [] from rfl, List.append_nil]
    exact ⟨h.localTunnel, h.secret_eq, h.challenge_eq, trivial, h.once, hlater.justified⟩
  | quiet out hout =>
    rw [show starts out = [] from starts_subset hout, List.append_nil]
    exact hlater

end Switch

/-! ## Runs -/

theorem sameView_of_eq {a : Bool} {n : BitVec 16}
    (h : s' = { s with acknowledged := a, remoteSequence := n }) : SameView s s' := by
  rw [h]
  exact ⟨rfl, rfl, rfl, rfl, rfl, rfl, rfl⟩

theorem pppdInv_process (env : Env) (recv : Recv)
    (h : PppdInv md5 tunnel secret challenge s handled pppd) :
    PppdInv md5 tunnel secret challenge (l2tpProcess md5 env s recv).state
      (handled ++ handledOf s (incomingOf recv)) (pppd ++ starts (l2tpProcess md5 env s recv).out) := by
  have hlater := h.append (handledOf s (incomingOf recv))
  cases recv with
  | failed =>
    rw [show starts (l2tpProcess md5 env s .failed).out = [] from rfl, List.append_nil]
    exact hlater
  | interrupted =>
    rw [show starts (l2tpProcess md5 env s .interrupted).out = [] from rfl, List.append_nil]
    exact hlater
  | data bytes =>
    have hreceived := recvPacket_received s (bytes.take MAX_PACKET_LENGTH)
    rw [incomingOf, handledOf] at hlater ⊢
    rw [l2tpProcess]
    generalize recvPacket s (bytes.take MAX_PACKET_LENGTH) = r at hreceived hlater
    obtain ⟨s', out, handed⟩ := r
    obtain ⟨a, n, hstate⟩ := hreceived.state
    have hview : SameView s s' := sameView_of_eq hstate
    cases handed with
    | none =>
      have hstarts : starts out = [] := starts_subset hreceived.out
      dsimp only
      rw [hstarts, List.append_nil, List.append_nil]
      exact h.view hview
    | some handed =>
      obtain ⟨message, session⟩ := handed
      obtain ⟨hmessage, hsession⟩ := hreceived.message
      obtain ⟨-, hout⟩ := hreceived.handed (Option.some_ne_none _)
      have hhandled := @dispatch_handled md5 env s' (bytes.take MAX_PACKET_LENGTH) message session
      dsimp only at hout ⊢
      subst hout
      generalize dispatch md5 env s' (bytes.take MAX_PACKET_LENGTH) message session = flow
        at hhandled
      cases flow with
      | brk s'' =>
        obtain ⟨hfinish, hstarts⟩ := sameView_finish [] s.localSequence s''
        have hmore : message ≠ Message.ACK.code → (if message ≠ Message.ACK.code then
            [bytes.take MAX_PACKET_LENGTH] else []) = [bytes.take MAX_PACKET_LENGTH] :=
          fun hne => if_pos hne
        have hbrk := pppdInv_brk (h.view hview) hmessage hsession hmore hhandled
        dsimp only
        rw [hstarts, show starts [] = [] from rfl, List.append_nil]
        exact hbrk.view hfinish
      | ret step => exact pppdInv_ret (h.view hview) hhandled

section World

variable {w w' : World}

theorem pppdInv_step (h : PppdInv md5 tunnel secret challenge w.daemon w.handled w.pppd)
    {a : Action} (hstep : w.step md5 a = some w') :
    PppdInv md5 tunnel secret challenge w'.daemon w'.handled w'.pppd := by
  obtain ⟨rfl, hlt, rfl⟩ | ⟨env, recv, ns, nr, rfl, rfl⟩ | ⟨rfl, rfl⟩ := World.step_cases hstep
  · exact h
  · exact pppdInv_process env recv h
  · have hstarts : starts (l2tpTimeout w.daemon).out = [] := by
      unfold l2tpTimeout
      split <;> rfl
    rw [World.perform, l2tpTimeout_state, hstarts, List.append_nil, List.append_nil]
    exact h

/-- `secret` is null where the argument was empty. -/
def secretOf (secret : Bytes) : Option Bytes := if secret ≠ [] then some secret else none

theorem l2tpConnect_view (env : Env) (secret : Bytes) (challenge : Challenge) :
    (l2tpConnect env secret challenge).state.localTunnel = env.random ∧
      (l2tpConnect env secret challenge).state.state = .SCCRQ ∧
      (l2tpConnect env secret challenge).state.secret = secretOf secret ∧
      ∀ known, secretOf secret = some known →
        (l2tpConnect env secret challenge).state.challenge = challenge := by
  unfold l2tpConnect secretOf
  dsimp only
  split
  next => exact ⟨rfl, rfl, rfl, fun _ _ => rfl⟩
  next => exact ⟨rfl, rfl, rfl, fun _ hknown => by cases hknown⟩

theorem pppdInv_connected (md5 : Md5) (env : Env) (secret : Bytes) (challenge : Challenge) :
    PppdInv md5 env.random (secretOf secret) challenge
      (World.connected env secret challenge).daemon [] [] := by
  obtain ⟨htunnel, hstate, hsecret, hchallenge⟩ := l2tpConnect_view env secret challenge
  refine ⟨htunnel, hsecret, hchallenge, ?_, Nat.zero_le 1,
    fun start hstart => absurd hstart List.not_mem_nil⟩
  rw [World.connected]
  dsimp only
  rw [hstate]

end World

/-- Whatever arrives, `pppd` is started at most once, for the daemon's own tunnel, and only after an
SCCRP that assigned the peer's tunnel and carried the digest of the secret, if there is one, and
after it an ICRP that assigned the peer's session. -/
theorem pppd_run (md5 : Md5) (env : Env) (secret : Bytes) (challenge : Challenge)
    (as : List Action) (w : World)
    (h : Run.run (World.step md5) (World.connected env secret challenge) as = some w) :
    w.pppd.length ≤ 1 ∧ ∀ start ∈ w.pppd,
      Justified md5 env.random (secretOf secret) challenge w.handled
        start := by
  have hinv := Run.inv_run (I := fun w : World => PppdInv md5 env.random
    (secretOf secret) challenge w.daemon w.handled w.pppd)
    (fun _ _ _ hw hstep => pppdInv_step hw hstep) as
    (pppdInv_connected md5 env secret challenge) h
  exact ⟨hinv.once, hinv.justified⟩

theorem pppd_run_witness : ∃ w,
    Run.run (World.step Sample.digests) Sample.start Sample.actions = some w ∧ w.pppd = [⟨5, 5, 7, 9⟩] ∧
      w.pppd.length ≤ 1 ∧ ∀ start ∈ w.pppd,
        Justified Sample.digests Sample.env.random (secretOf Sample.secret) Sample.challenge w.handled
          start := by
  have hpppd : (Run.run (World.step Sample.digests) Sample.start Sample.actions).map World.pppd =
      some [⟨5, 5, 7, 9⟩] := by decide +kernel
  obtain ⟨w, hw, hstarts⟩ := Option.map_eq_some_iff.mp hpppd
  exact ⟨w, hw, hstarts, pppd_run Sample.digests Sample.env Sample.secret Sample.challenge
    Sample.actions w hw⟩

end ConfProfile.Mtpd.L2tp
