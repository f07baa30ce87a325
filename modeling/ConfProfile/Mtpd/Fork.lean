import ConfProfile.Mtpd.Main

/-!
# The peer behind a `pppd`

The main loop with the tunnel daemon in it: what the daemon starts, the process forks. So a `pppd`
exists only if the peer has given its answers (`forked_run`).
-/

namespace ConfProfile.Mtpd.Main

variable {σ ι : Type}

/-- The packet that a step hands to the tunnel daemon. -/
def received : Action (L2tp.Env × Recv) → List Bytes
  | .poll false (some (_, recv)) _ _ => [L2tp.incomingOf recv]
  | .poll false none _ _ => []
  | .poll true _ _ _ => []
  | .pollFails _ => []
  | .signal _ => []
  | .childEnds _ _ => []

section Children

theorem length_waitpid (target : Int) (term : Option Ending) (children : List Child) :
    (waitpid target term children).1.length = children.length := by
  induction children with
  | nil => rfl
  | cons c rest ih =>
    rw [waitpid]
    split
    next =>
      split
      next => rfl
      next => exact congrArg Nat.succ ih
    next => exact congrArg Nat.succ ih

namespace Process

variable {P : Protocol σ ι} {m : Process σ} {term : Ending} {status : Int}

theorem length_stopPppd : (m.stopPppd term).children.length = m.children.length := by
  rw [stopPppd]
  split
  next => exact length_waitpid ..
  next => rfl

theorem length_finish : (finish P m status term).children.length = m.children.length := by
  rw [finish_eq]
  exact length_stopPppd

theorem length_interrupted (signal : Signal) :
    (interrupted P m signal term).children.length = m.children.length := by
  unfold interrupted
  split
  next children found hfound =>
    have hlen : children.length = m.children.length := by
      split at hfound
      next => rw [← length_waitpid m.pppdPid none m.children, hfound]
      next => rw [(Prod.mk.inj hfound).1]
    dsimp only
    split
    next =>
      split
      next => exact length_finish.trans hlen
      next => exact length_finish.trans hlen
    next => exact length_finish.trans hlen
    next => exact length_finish.trans hlen

theorem ended_interrupted (signal : Signal) :
    ∃ status, (interrupted P m signal term).phase = .ended status := by
  unfold interrupted
  split
  dsimp only
  split
  next =>
    split
    next => exact ⟨_, rfl⟩
    next => exact ⟨_, rfl⟩
  next => exact ⟨_, rfl⟩
  next => exact ⟨_, rfl⟩

end Process

end Children

section Peer

variable {md5 : L2tp.Md5} {tunnel : BitVec 16} {secret : Option Bytes} {challenge : Bytes}
  {got : List Bytes} {m m' : Process L2tp.State}

/-- A child is there only if a peer was; `got` is what has been received. -/
structure ForkInv (md5 : L2tp.Md5) (tunnel : BitVec 16) (secret : Option Bytes) (challenge : Bytes)
    (got : List Bytes) (m : Process L2tp.State) : Prop where
  polling : ∀ timeout, m.phase = .polling timeout → ∃ handled pppd, handled.Sublist got ∧
    L2tp.PppdInv md5 tunnel secret challenge m.protocol handled pppd ∧
    (m.children ≠ [] → pppd ≠ [])
  justified : m.children ≠ [] → ∃ start, L2tp.Justified md5 tunnel secret challenge got start

theorem handledOf_sublist (s : L2tp.State) (incoming : Bytes) :
    (L2tp.handledOf s incoming).Sublist [incoming] := by
  unfold L2tp.handledOf
  split
  next =>
    split
    next => exact List.Sublist.refl _
    next => exact List.nil_sublist _
  next => exact List.nil_sublist _

theorem justified_of_sublist {handled : List Bytes} {start : L2tp.Start}
    (h : L2tp.Justified md5 tunnel secret challenge handled start) (hsub : handled.Sublist got) :
    L2tp.Justified md5 tunnel secret challenge got start := by
  obtain ⟨htunnel, sccrp, icrp, hpackets, hacc, hass⟩ := h
  exact ⟨htunnel, sccrp, icrp, hpackets.trans hsub, hacc, hass⟩

/-- What is known of a state of the daemon, and whether there is a child. -/
theorem forkInv_of_pppdInv {handled : List Bytes} {pppd : List L2tp.Start}
    (hsub : handled.Sublist got)
    (hpppd : L2tp.PppdInv md5 tunnel secret challenge m.protocol handled pppd)
    (hchildren : m.children ≠ [] → pppd ≠ []) : ForkInv md5 tunnel secret challenge got m := by
  refine ⟨fun _ _ => ⟨handled, pppd, hsub, hpppd, hchildren⟩, fun hne => ?_⟩
  obtain ⟨start, hstart⟩ := List.exists_mem_of_ne_nil pppd (hchildren hne)
  exact ⟨start, justified_of_sublist (hpppd.justified start hstart) hsub⟩

/-- The end takes no child away and brings none. -/
theorem ForkInv.of_ended {status : Int} (h : ForkInv md5 tunnel secret challenge got m)
    (hended : m'.phase = .ended status) (hlen : m'.children.length = m.children.length) :
    ForkInv md5 tunnel secret challenge got m' := by
  refine ⟨fun timeout hpolling => ?_, fun hne => h.justified fun hnil => ?_⟩
  · rw [hended] at hpolling
    cases hpolling
  · rw [hnil, List.length_nil, List.length_eq_zero_iff] at hlen
    exact hne hlen

theorem ForkInv.called {P : Protocol L2tp.State ι} {term : Ending}
    (h : ForkInv md5 tunnel secret challenge got m) (result : Result) :
    ForkInv md5 tunnel secret challenge got (Process.called P m result term) := by
  unfold Process.called
  split
  next => exact h
  next timeout hphase =>
    cases result with
    | exit status => exact h.of_ended rfl Process.length_stopPppd
    | ret t =>
      dsimp only
      split
      next => exact h.of_ended (by rw [Process.finish_eq]) Process.length_finish
      next => exact ⟨fun _ _ => h.polling timeout hphase, h.justified⟩

/-- `start_pppd` leaves the variables of the protocol alone. -/
theorem protocol_startPppd (n : Nat) : ∀ {m m' : Process σ} {forks : List (Option Pid)}
    {term : Ending}, m.startPppd term n forks = some m' → m'.protocol = m.protocol := by
  have hstop : ∀ (m : Process σ) (term : Ending), (m.stopPppd term).protocol = m.protocol := by
    intro m term
    rw [Process.stopPppd]
    split <;> rfl
  induction n with
  | zero =>
    intro m m' forks term h
    obtain rfl := Option.some.inj h
    rfl
  | succ n ih =>
    intro m m' forks term h
    unfold Process.startPppd at h
    split at h
    next => exact ih h
    next =>
      rcases forks with _ | ⟨_ | pid, forks⟩
      · exact absurd h.symm (Option.some_ne_none m')
      · obtain rfl := Option.some.inj h
        exact hstop ..
      · dsimp only at h
        split at h
        next => exact absurd h.symm (Option.some_ne_none m')
        next => rw [ih h]

/-- The functions of the protocol, in a round that calls one of them. -/
theorem forkInv_call {P : Protocol L2tp.State ι} {v : Process L2tp.State} {term : Ending}
    {forks : List (Option Pid)} {handled more : List Bytes} {pppd starts : List L2tp.Start}
    {daemon : L2tp.State} (result : Result)
    (hsub : (handled ++ more).Sublist got) (hchildren : m.children ≠ [] → pppd ≠ [])
    (hpppd : L2tp.PppdInv md5 tunnel secret challenge daemon (handled ++ more) (pppd ++ starts))
    (h : Process.startPppd { m with protocol := daemon } term starts.length forks = some v) :
    ForkInv md5 tunnel secret challenge got (Process.called P v result term) := by
  have hprotocol : v.protocol = daemon := protocol_startPppd _ h
  refine (forkInv_of_pppdInv hsub (hprotocol ▸ hpppd) fun hne => ?_).called result
  rcases eq_or_ne starts [] with rfl | hstarts
  · obtain rfl := Option.some.inj h
    rw [List.append_nil]
    exact hchildren hne
  · exact List.append_ne_nil_of_right_ne_nil pppd hstarts

theorem forkInv_step {a : Action (L2tp.Env × Recv)} (hinv : ForkInv md5 tunnel secret challenge got m)
    (h : Process.step (l2tp md5) m a = some m') :
    ForkInv md5 tunnel secret challenge (got ++ received a) m' := by
  unfold Process.step at h
  split at h
  next => exact absurd h.symm (Option.some_ne_none m')
  next timeout hphase =>
    obtain ⟨handled, pppd, hsub, hpppd, hchildren⟩ := hinv.polling timeout hphase
    cases a with
    | signal s =>
      obtain rfl := Option.some.inj h
      rw [received, List.append_nil]
      exact ⟨hinv.polling, hinv.justified⟩
    | childEnds pid ending =>
      dsimp only at h
      split at h
      next hmem =>
        obtain rfl := Option.some.inj h
        rw [received, List.append_nil]
        exact forkInv_of_pppdInv hsub hpppd fun _ => hchildren (List.ne_nil_of_mem hmem)
      next => exact absurd h.symm (Option.some_ne_none m')
    | pollFails term =>
      obtain rfl := Option.some.inj h
      rw [received, List.append_nil]
      exact hinv.of_ended rfl Process.length_stopPppd
    | poll seen input forks term =>
      cases seen with
      | true =>
        rw [received, List.append_nil]
        dsimp only at h
        split at h
        next => exact absurd h.symm (Option.some_ne_none m')
        next s rest hsignals =>
          obtain rfl := Option.some.inj h
          obtain ⟨status, hended⟩ := @Process.ended_interrupted _ _ (l2tp md5)
            { m with signals := rest } term s
          exact hinv.of_ended hended (Process.length_interrupted s)
      | false =>
        cases input with
        | some i =>
          obtain ⟨v, hv, rfl⟩ := Option.map_eq_some_iff.mp h
          have hmore := L2tp.pppdInv_process i.1 i.2 hpppd
          exact forkInv_call _ (hsub.append (handledOf_sublist m.protocol _)) hchildren hmore hv
        | none =>
          obtain ⟨v, hv, rfl⟩ := Option.map_eq_some_iff.mp h
          have hstarts : L2tp.starts (L2tp.l2tpTimeout m.protocol).out = [] := by
            unfold L2tp.l2tpTimeout
            split <;> rfl
          have hmore : L2tp.PppdInv md5 tunnel secret challenge
              (L2tp.l2tpTimeout m.protocol).state (handled ++ [])
              (pppd ++ L2tp.starts (L2tp.l2tpTimeout m.protocol).out) := by
            rw [L2tp.l2tpTimeout_state, hstarts, List.append_nil, List.append_nil]
            exact hpppd
          exact forkInv_call _ (hsub.append (List.Sublist.refl [])) hchildren hmore hv

theorem forkInv_run : ∀ (as : List (Action (L2tp.Env × Recv))) {got : List Bytes}
    {m m' : Process L2tp.State}, ForkInv md5 tunnel secret challenge got m →
    Run.run (Process.step (l2tp md5)) m as = some m' →
    ForkInv md5 tunnel secret challenge (got ++ as.flatMap received) m' := by
  intro as
  induction as with
  | nil =>
    intro got m m' hinv h
    obtain rfl := Option.some.inj h
    rwa [List.flatMap_nil, List.append_nil]
  | cons a as ih =>
    intro got m m' hinv h
    obtain ⟨v, hstep, hrest⟩ := Run.run_cons_some h
    rw [List.flatMap_cons, ← List.append_assoc]
    exact ih (forkInv_step hinv hstep) hrest

end Peer

/-- A `pppd` of the tunnel daemon exists only if the peer, among what the daemon was sent, assigned
its tunnel with the digest of the secret, if there is one, and then its session. -/
theorem forked_run (md5 : L2tp.Md5) (env : L2tp.Env) (secret : Bytes) (challenge : L2tp.Challenge)
    (as : List (Action (L2tp.Env × Recv))) (m : Process L2tp.State)
    (h : Run.run (Process.step (l2tp md5))
      (Process.start (L2tp.l2tpConnect env secret challenge).state 2000) as = some m)
    (hchildren : m.children ≠ []) :
    ∃ start, L2tp.Justified md5 env.random (L2tp.secretOf secret) challenge (as.flatMap received)
      start := by
  have hstart : ForkInv md5 env.random (L2tp.secretOf secret) challenge []
      (Process.start (L2tp.l2tpConnect env secret challenge).state 2000) :=
    forkInv_of_pppdInv (List.Sublist.refl []) (L2tp.pppdInv_connected md5 env secret challenge)
      fun hne => absurd rfl hne
  exact (forkInv_run as hstart h).justified hchildren

/-- The sample connection, with `pppd` running. -/
theorem forked_run_sample : ∃ start, L2tp.Justified L2tp.Sample.digests 5 (some [0x73])
    L2tp.Sample.challenge
    ((rounds [some ⟨77, by decide⟩] L2tp.Sample.actions).flatMap received) start := by
  have hchildren : (Run.run (Process.step (l2tp L2tp.Sample.digests))
      (Process.start (L2tp.l2tpConnect L2tp.Sample.env L2tp.Sample.secret L2tp.Sample.challenge).state
        2000) (rounds [some ⟨77, by decide⟩] L2tp.Sample.actions)).map Process.children =
      some [⟨⟨77, by decide⟩, .running⟩] := by decide +kernel
  obtain ⟨m, hm, hone⟩ := Option.map_eq_some_iff.mp hchildren
  exact forked_run L2tp.Sample.digests L2tp.Sample.env L2tp.Sample.secret L2tp.Sample.challenge _ m hm
    (by rw [hone]; exact List.cons_ne_nil _ _)

end ConfProfile.Mtpd.Main
