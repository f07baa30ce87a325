import ConfProfile.Format.Plist
import ConfProfile.Lib.Run
import ConfProfile.Vpn.Teardown

/-!
# The status of a tunnel (`VpnTunnel.setConnectionStatus`)

`setConnectionStatus` compares, writes and reports, in three steps and under no
lock. It is called by the thread that terminates the tunnel, by the tunnel's own
thread (OpenVPN: `CONNECTING`, and the states that the management interface tells
it of) and by the main looper, for the closures that an IPsec tunnel posts. None
of the callers but `terminateConnection` looks whether the tunnel is terminated.

`status_final` says when `TERMINATED` is final: no call for another status is
under way when it is written, and none is begun after that.
-/

namespace ConfProfile

open Run

/-- `VpnTunnel.ConnectionStatus`. -/
inductive ConnectionStatus where
  | disconnected
  | connecting
  | connected
  | disconnecting
  | terminated
  deriving DecidableEq, Repr

/-- The threads that call methods of a tunnel. -/
inductive StatusThread where
  /-- of the service, for `establishConnection` and `terminateConnection` -/
  | service
  /-- `mThread` -/
  | tunnel
  /-- the main looper -/
  | looper
  /-- of charon, for the native callbacks -/
  | charon (n : Nat)
  deriving DecidableEq, Repr

/-- Where a thread is in `setConnectionStatus`. -/
inductive SetPc where
  | idle
  /-- in front of `status != mConnectionStatus` -/
  | compare (status : ConnectionStatus)
  /-- in front of the assignment -/
  | write (status : ConnectionStatus)
  /-- in front of `notifyTunnelStateChanged` -/
  | report (status : ConnectionStatus)
  deriving DecidableEq, Repr

/-- Where `run` of a tunnel is. -/
inductive TunnelPc where
  | off
  /-- in front of `startConnection`, or the test of `isTerminated` before the bind -/
  | start
  /-- OpenVPN, in front of `setConnectionStatus(CONNECTING)` -/
  | bound
  | loop
  /-- behind the call of the last `terminateConnection` -/
  | leaving
  | done
  deriving DecidableEq, Repr

/-- The status of a tunnel, what its threads do with it, the closures posted for the
looper by the status they set, and the changes reported to the VPN manager. -/
structure StatusSys where
  status : ConnectionStatus
  tunnel : TunnelPc
  posted : List ConnectionStatus
  calls : StatusThread → SetPc
  reported : List ConnectionStatus

inductive StatusAct where
  | establish
  /-- `terminateConnection` of the service or at the end of `run` -/
  | terminate (t : StatusThread)
  /-- OpenVPN, the loop around `bind` -/
  | bind
  /-- `startConnection`, or OpenVPN's `setConnectionStatus(CONNECTING)` -/
  | start
  /-- OpenVPN, a state message on the management interface -/
  | state (currentstate : String)
  /-- `run` returns -/
  | leave
  /-- IPsec, a native callback -/
  | updateStatus (n : Nat) (status : Int)
  /-- the looper takes a closure -/
  | loop
  | compare (t : StatusThread)
  | write (t : StatusThread)
  | report (t : StatusThread)
  deriving DecidableEq, Repr

def statusInit : StatusSys := ⟨.disconnected, .off, [], fun _ => .idle, []⟩

variable {R : Type} (P : Platform R)

/-- The status that `processState` sets. -/
def processState (currentstate : String) : ConnectionStatus :=
  if P.equalsIgnoreCase "CONNECTED" currentstate then .connected
  else if P.equalsIgnoreCase "RECONNECTING" currentstate then .connecting
  else if P.equalsIgnoreCase "EXITING" currentstate then .disconnecting
  else .connecting

namespace StatusSys

variable (s : StatusSys)

/-- A thread goes to a place in `setConnectionStatus`. -/
def goto (t : StatusThread) (pc : SetPc) : StatusSys :=
  { s with calls := Function.update s.calls t pc }

/-- `terminateConnection`, up to its call of `setConnectionStatus`. -/
def terminate (t : StatusThread) : StatusSys :=
  if s.status = .terminated then s else s.goto t (.compare .terminated)

/-- `IpSecTunnel.updateStatus`. The closures of `setError` do not touch the status. -/
def updateStatus (t : StatusThread) (status : Int) : StatusSys :=
  -- STATE_CHILD_SA_UP
  if status = 1 then { s with posted := s.posted ++ [.connected] }
  -- from STATE_AUTH_ERROR to STATE_GENERIC_ERROR: setErrorDisconnect()
  else if 3 ≤ status ∧ status ≤ 7 then s.terminate t
  -- STATE_CHILD_SA_DOWN, "Unknown status code received"
  else s

end StatusSys

/-- One step of a thread, for an IPsec or an OpenVPN tunnel. -/
def statusStep (kind : TunnelKind) (s : StatusSys) : StatusAct → Option StatusSys
  | .establish =>
    if s.calls .service ≠ .idle then none
    else if s.status ≠ .disconnected then some s
    -- a thread is started only once
    else if s.tunnel = .off then some { s with tunnel := .start } else none
  | .terminate .service => if s.calls .service = .idle then some (s.terminate .service) else none
  | .terminate .tunnel =>
    if s.calls .tunnel = .idle ∧ (s.tunnel = .start ∨ s.tunnel = .loop) then
      some { s.terminate .tunnel with tunnel := .leaving }
    else none
  | .terminate .looper | .terminate (.charon _) => none
  | .bind =>
    if kind = .openVpn ∧ s.tunnel = .start then
      some { s with tunnel := if s.status = .terminated then .done else .bound }
    else none
  | .start =>
    if kind = .ipSec ∧ s.tunnel = .start then
      some { s with tunnel := .loop, posted := s.posted ++ [.connecting] }
    else if kind = .openVpn ∧ s.tunnel = .bound ∧ s.calls .tunnel = .idle then
      some { s.goto .tunnel (.compare .connecting) with tunnel := .loop }
    else none
  | .state currentstate =>
    if kind = .openVpn ∧ s.tunnel = .loop ∧ s.calls .tunnel = .idle then
      some (s.goto .tunnel (.compare (processState P currentstate)))
    else none
  | .leave =>
    if s.calls .tunnel = .idle ∧ (s.tunnel = .leaving ∨ kind = .openVpn ∧ s.tunnel = .loop) then
      some { s with tunnel := .done }
    else none
  | .updateStatus n status =>
    if kind = .ipSec ∧ s.tunnel = .loop ∧ s.calls (.charon n) = .idle then
      some (s.updateStatus (.charon n) status)
    else none
  | .loop =>
    match s.calls .looper, s.posted with
    | .idle, status :: posted => some ({ s with posted }.goto .looper (.compare status))
    | _, _ => none
  | .compare t =>
    match s.calls t with
    | .compare status => some (s.goto t (if status ≠ s.status then .write status else .idle))
    | _ => none
  | .write t =>
    match s.calls t with
    | .write status => some ({ s with status }.goto t (.report status))
    | _ => none
  | .report t =>
    match s.calls t with
    | .report status => some ({ s with reported := s.reported ++ [status] }.goto t .idle)
    | _ => none

/-! ## What a step does to the status -/

/-- A call for another status than `TERMINATED` is under way. -/
def SetPc.Changes : SetPc → Prop
  | .idle => False
  | .compare status | .write status | .report status => status ≠ .terminated

/-- The steps that begin a call for another status: a closure of an IPsec tunnel, and
`run` of an OpenVPN tunnel at its start and for a state message. -/
def StatusAct.Begins (kind : TunnelKind) : StatusAct → Prop
  | .loop | .state _ => True
  | .start => kind = .openVpn
  | _ => False

/-- The ways through a step, by what happens to status and calls. -/
inductive StatusStep (kind : TunnelKind) (s : StatusSys) : StatusAct → StatusSys → Prop where
  | quiet {a : StatusAct} (ha : ¬ a.Begins kind) (tunnel : TunnelPc)
      (posted : List ConnectionStatus)
      (hposted : ∀ status ∈ posted, status ∈ s.posted ∨ status ≠ .terminated) :
      StatusStep kind s a { s with tunnel, posted }
  | ends {a : StatusAct} (ha : ¬ a.Begins kind) {t : StatusThread} (hidle : s.calls t = .idle)
      (tunnel : TunnelPc) :
      StatusStep kind s a { s.goto t (.compare .terminated) with tunnel }
  | begins {a : StatusAct} (ha : a.Begins kind) {t : StatusThread} (hidle : s.calls t = .idle)
      (tunnel : TunnelPc)
      (posted : List ConnectionStatus) (hposted : ∀ status ∈ posted, status ∈ s.posted)
      (status : ConnectionStatus) (hstatus : status ∈ s.posted ∨ status ≠ .terminated) :
      StatusStep kind s a { s.goto t (.compare status) with tunnel, posted }
  | compare {t : StatusThread} {status : ConnectionStatus} (hpc : s.calls t = .compare status) :
      StatusStep kind s (.compare t) (s.goto t (if status ≠ s.status then .write status else .idle))
  | write {t : StatusThread} {status : ConnectionStatus} (hpc : s.calls t = .write status) :
      StatusStep kind s (.write t) ({ s with status }.goto t (.report status))
  | report {t : StatusThread} {status : ConnectionStatus} (hpc : s.calls t = .report status) :
      StatusStep kind s (.report t) ({ s with reported := s.reported ++ [status] }.goto t .idle)

section steps

variable {P} {kind : TunnelKind} {s s' : StatusSys} {a : StatusAct}

theorem processState_ne (currentstate : String) : processState P currentstate ≠ .terminated := by
  unfold processState
  split
  · exact ConnectionStatus.noConfusion
  · split
    · exact ConnectionStatus.noConfusion
    · split <;> exact ConnectionStatus.noConfusion

/-- `terminateConnection` calls `setConnectionStatus`, or does nothing. -/
theorem terminate_step (ha : ¬ a.Begins kind) {t : StatusThread} (hidle : s.calls t = .idle)
    (tunnel : TunnelPc) : StatusStep kind s a { s.terminate t with tunnel } := by
  unfold StatusSys.terminate
  split
  · exact .quiet ha tunnel s.posted fun _ h => Or.inl h
  · exact .ends ha hidle tunnel

theorem statusStep_cases (h : statusStep P kind s a = some s') : StatusStep kind s a s' := by
  have hsame : ∀ status ∈ s.posted, status ∈ s.posted ∨ status ≠ .terminated :=
    fun _ h => Or.inl h
  have hpost {status : ConnectionStatus} (hne : status ≠ .terminated) :
      ∀ x ∈ s.posted ++ [status], x ∈ s.posted ∨ x ≠ .terminated := by
    intro x hx
    rcases List.mem_append.mp hx with hx | hx
    · exact Or.inl hx
    · exact Or.inr (List.mem_singleton.mp hx ▸ hne)
  cases a with
  | establish =>
    rw [statusStep] at h
    split at h
    · cases h
    · split at h
      · obtain rfl := Option.some.inj h
        exact .quiet (by exact id) s.tunnel s.posted hsame
      · split at h
        · obtain rfl := Option.some.inj h
          exact .quiet (by exact id) .start s.posted hsame
        · cases h
  | terminate t =>
    cases t with
    | service =>
      rw [statusStep] at h
      split at h
      · next hidle =>
        obtain rfl := Option.some.inj h
        exact terminate_step (by exact id) hidle (s.terminate .service).tunnel
      · cases h
    | tunnel =>
      rw [statusStep] at h
      split at h
      · next hidle =>
        obtain rfl := Option.some.inj h
        exact terminate_step (by exact id) hidle.1 .leaving
      · cases h
    | looper | charon n => cases h
  | bind =>
    rw [statusStep] at h
    split at h
    · obtain rfl := Option.some.inj h
      exact .quiet (by exact id) _ s.posted hsame
    · cases h
  | start =>
    rw [statusStep] at h
    split at h
    · next hkind =>
      obtain rfl := Option.some.inj h
      refine .quiet ?_ .loop _ (hpost ConnectionStatus.noConfusion)
      intro hbegins
      exact TunnelKind.noConfusion (hkind.1.symm.trans hbegins)
    · split at h
      · next hidle =>
        obtain rfl := Option.some.inj h
        exact .begins (by exact hidle.1) hidle.2.2 .loop s.posted (fun _ h => h) .connecting
          (Or.inr ConnectionStatus.noConfusion)
      · cases h
  | state currentstate =>
    rw [statusStep] at h
    split at h
    · next hidle =>
      obtain rfl := Option.some.inj h
      exact .begins (by exact trivial) hidle.2.2 s.tunnel s.posted (fun _ h => h) _
        (Or.inr (processState_ne _))
    · cases h
  | leave =>
    rw [statusStep] at h
    split at h
    · obtain rfl := Option.some.inj h
      exact .quiet (by exact id) .done s.posted hsame
    · cases h
  | updateStatus n status =>
    rw [statusStep] at h
    split at h
    · next hidle =>
      obtain rfl := Option.some.inj h
      unfold StatusSys.updateStatus
      split
      · exact .quiet (by exact id) s.tunnel _ (hpost ConnectionStatus.noConfusion)
      · split
        · exact terminate_step (by exact id) hidle.2.2 (s.terminate (.charon n)).tunnel
        · exact .quiet (by exact id) s.tunnel s.posted hsame
    · cases h
  | loop =>
    rw [statusStep] at h
    split at h
    · next status posted hidle hposted =>
      obtain rfl := Option.some.inj h
      refine .begins (by exact trivial) hidle s.tunnel posted ?_ status (Or.inl ?_)
      · intro x hx
        rw [hposted]
        exact List.mem_cons_of_mem _ hx
      · rw [hposted]
        exact List.mem_cons_self
    · cases h
  | compare t =>
    rw [statusStep] at h
    split at h
    · next hpc =>
      obtain rfl := Option.some.inj h
      exact .compare hpc
    · cases h
  | write t =>
    rw [statusStep] at h
    split at h
    · next hpc =>
      obtain rfl := Option.some.inj h
      exact .write hpc
    · cases h
  | report t =>
    rw [statusStep] at h
    split at h
    · next hpc =>
      obtain rfl := Option.some.inj h
      exact .report hpc
    · cases h

/-! ## When `TERMINATED` is final -/

/-- On a terminated tunnel the status stays, and no other change is reported. -/
def StaysTerminated (s : StatusSys) (_ : StatusAct) (s' : StatusSys) : Prop :=
  s.status = .terminated → s'.status = .terminated ∧
    (s'.reported = s.reported ∨ s'.reported = s.reported ++ [.terminated])

/-- A step begins no call for another status on a terminated tunnel, and `TERMINATED` is
written while no call for another status is under way. -/
structure Timely (kind : TunnelKind) (s : StatusSys) (a : StatusAct) : Prop where
  begins : s.status = .terminated → ¬ a.Begins kind
  writes : ∀ t, a = .write t → s.calls t = .write .terminated → ∀ u, ¬ (s.calls u).Changes

/-- What holds in every state: closures set other statuses than `TERMINATED`. -/
def PostedOther (s : StatusSys) : Prop := ∀ status ∈ s.posted, status ≠ .terminated

/-- No call for another status is under way on a terminated tunnel. -/
def Settled (s : StatusSys) : Prop :=
  s.status = .terminated → ∀ t, ¬ (s.calls t).Changes

theorem statusStep_posted (hI : PostedOther s) (h : statusStep P kind s a = some s') :
    PostedOther s' := by
  cases statusStep_cases h with
  | quiet _ tunnel posted hposted =>
    intro status hstatus
    rcases hposted status hstatus with h | h
    · exact hI status h
    · exact h
  | begins _ _ tunnel posted hposted _ _ => exact fun status h => hI status (hposted status h)
  | ends _ _ _ | compare _ | write _ | report _ => exact hI

theorem calls_goto (s : StatusSys) (t u : StatusThread) (pc : SetPc) :
    (s.goto t pc).calls u = if u = t then pc else s.calls u :=
  Function.update_apply s.calls t pc u

/-- A thread goes where it makes no change. -/
theorem not_changes_goto (h : ∀ u, ¬ (s.calls u).Changes) (t : StatusThread) {pc : SetPc}
    (hpc : ¬ pc.Changes) (u : StatusThread) : ¬ ((s.goto t pc).calls u).Changes := by
  rw [calls_goto]
  split
  · exact hpc
  · exact h u

/-- A timely step leaves a terminated tunnel terminated. -/
theorem timely_step (hP : Settled s) (ht : Timely kind s a)
    (h : statusStep P kind s a = some s') : Settled s' ∧ StaysTerminated s a s' := by
  cases statusStep_cases h with
  | quiet _ tunnel posted _ => exact ⟨hP, fun hterm => ⟨hterm, Or.inl rfl⟩⟩
  | @ends _ _ t hidle tunnel =>
    refine ⟨fun hterm => ?_, fun hterm => ⟨hterm, Or.inl rfl⟩⟩
    exact not_changes_goto (hP hterm) t fun h => h rfl
  | begins ha _ _ _ _ _ _ =>
    exact ⟨fun hterm => absurd ha (ht.begins hterm), fun hterm => absurd ha (ht.begins hterm)⟩
  | @compare t status hpc =>
    refine ⟨fun hterm => not_changes_goto (hP hterm) t ?_, fun hterm => ⟨hterm, Or.inl rfl⟩⟩
    have hcall := hP hterm t
    rw [hpc] at hcall
    split
    · exact hcall
    · exact id
  | @write t status hpc =>
    have hcall (hterm : s.status = .terminated) : status = .terminated := by
      have hcall := hP hterm t
      rw [hpc] at hcall
      exact not_not.mp hcall
    refine ⟨?_, fun hterm => ⟨hcall hterm, Or.inl rfl⟩⟩
    intro hterm
    obtain rfl : status = .terminated := hterm
    exact not_changes_goto (s := { s with status := .terminated }) (ht.writes t rfl hpc) t
      fun h => h rfl
  | @report t status hpc =>
    have hcall (hterm : s.status = .terminated) : status = .terminated := by
      have hcall := hP hterm t
      rw [hpc] at hcall
      exact not_not.mp hcall
    refine ⟨?_, fun hterm => ⟨hterm, Or.inr ?_⟩⟩
    · intro hterm
      exact not_changes_goto (s := { s with reported := s.reported ++ [status] }) (hP hterm) t id
    · rw [← hcall hterm]
      rfl

/-- A call for another status is under way on a terminated tunnel. -/
def Late (s : StatusSys) : Prop := s.status = .terminated ∧ ∃ t, (s.calls t).Changes

/-- A step that is not timely leaves such a call behind. -/
theorem late_of_not_timely (hI : PostedOther s) (ht : ¬ Timely kind s a)
    (h : statusStep P kind s a = some s') (hstays : StaysTerminated s a s') : Late s' := by
  by_cases hbegins : s.status = .terminated → ¬ a.Begins kind
  · have hwrites : ¬ ∀ t, a = .write t → s.calls t = .write .terminated →
        ∀ u, ¬ (s.calls u).Changes := fun hw => ht ⟨hbegins, hw⟩
    simp only [not_forall, not_not] at hwrites
    obtain ⟨t, rfl, hpc, u, hu⟩ := hwrites
    have hne : u ≠ t := by
      rintro rfl
      rw [hpc] at hu
      exact hu rfl
    rw [statusStep, hpc] at h
    obtain rfl := Option.some.inj h
    refine ⟨rfl, u, ?_⟩
    rw [calls_goto, if_neg hne]
    exact hu
  · obtain ⟨hterm, ha⟩ := Classical.not_imp.mp hbegins
    replace ha := not_not.mp ha
    refine ⟨(hstays hterm).1, ?_⟩
    cases statusStep_cases h with
    | quiet hno _ _ _ | ends hno _ _ => exact absurd ha hno
    | @begins _ _ t _ tunnel posted _ status hstatus =>
      refine ⟨t, ?_⟩
      have hpc : ({ s.goto t (.compare status) with tunnel, posted } : StatusSys).calls t =
          .compare status := Function.update_self ..
      rw [hpc]
      exact hstatus.elim (hI status) id
    | compare _ | write _ | report _ => exact False.elim ha

/-- Such a call does not end without changing the status or reporting it. -/
theorem late_step (hlate : Late s) (hstays : StaysTerminated s a s')
    (h : statusStep P kind s a = some s') : Late s' := by
  obtain ⟨hterm, u, hu⟩ := hlate
  have hstay := hstays hterm
  refine ⟨hstay.1, u, ?_⟩
  have hother {t : StatusThread} (pc : SetPc) (hne : u ≠ t) :
      (Function.update s.calls t pc u).Changes := by
    rw [Function.update_of_ne hne]
    exact hu
  have hbusy {t : StatusThread} (hidle : s.calls t = .idle) : u ≠ t := by
    rintro rfl
    rw [hidle] at hu
    exact hu
  cases statusStep_cases h with
  | quiet _ _ _ _ => exact hu
  | ends _ hidle _ | begins _ hidle _ _ _ _ _ => exact hother _ (hbusy hidle)
  | @compare t status hpc =>
    by_cases hut : u = t
    · subst hut
      rw [hpc] at hu
      show (Function.update s.calls u _ u).Changes
      rw [Function.update_self, if_pos (fun h => hu (h.trans hterm))]
      exact hu
    · exact hother _ hut
  | @write t status hpc =>
    refine hother _ ?_
    rintro rfl
    rw [hpc] at hu
    exact hu hstay.1
  | @report t status hpc =>
    refine hother _ ?_
    rintro rfl
    rw [hpc] at hu
    rcases hstay.2 with hreported | hreported
    · have hlen : (s.reported ++ [status]).length = s.reported.length :=
        congrArg List.length hreported
      rw [List.length_append, List.length_singleton] at hlen
      omega
    · exact hu (List.cons.inj (List.append_cancel_left hreported)).1

end steps

/-- In a run whose steps are timely, `TERMINATED` is final. In a run at whose end every
call of `setConnectionStatus` has returned, it is final only if all steps are timely. -/
theorem status_final (kind : TunnelKind) (acts : List StatusAct) :
    (Guarded (statusStep P kind) (Timely kind) statusInit acts →
      Along (statusStep P kind) StaysTerminated statusInit acts) ∧
    ∀ s, run (statusStep P kind) statusInit acts = some s → (∀ t, s.calls t = .idle) →
      Along (statusStep P kind) StaysTerminated statusInit acts →
      Guarded (statusStep P kind) (Timely kind) statusInit acts := by
  constructor
  · intro hguard
    refine along_of_guarded (P := fun s => PostedOther s ∧ Settled s) ?_ acts ?_ hguard
    · intro s a s' hP ht h
      obtain ⟨hsettled, hstays⟩ := timely_step hP.2 ht h
      exact ⟨⟨statusStep_posted hP.1 h, hsettled⟩, hstays⟩
    · exact ⟨fun _ h => absurd h List.not_mem_nil, fun h => by cases h⟩
  · intro s h hidle
    have hkeep : ∀ s a s', Late s → StaysTerminated s a s' → statusStep P kind s a = some s' →
        Late s' := fun _ _ _ => late_step
    have hall : ∀ (acts : List StatusAct) (s₀ : StatusSys), PostedOther s₀ →
        run (statusStep P kind) s₀ acts = some s →
        Along (statusStep P kind) StaysTerminated s₀ acts →
        Guarded (statusStep P kind) (Timely kind) s₀ acts := by
      intro acts
      induction acts with
      | nil => exact fun _ _ _ _ => trivial
      | cons a acts ih =>
        intro s₀ hI h hstays
        obtain ⟨s₁, hstep, hrest⟩ := run_cons_some h
        have hI₁ := statusStep_posted hI hstep
        obtain ⟨hstay, hstays₁⟩ := hstays s₁ hstep
        refine ⟨?_, fun s₂ hstep₂ => ?_⟩
        · by_contra ht
          have hlate := inv_run_along hkeep acts
            (late_of_not_timely hI ht hstep hstay) hstays₁ hrest
          obtain ⟨_, t, ht⟩ := hlate
          rw [hidle t] at ht
          exact ht
        · obtain rfl := Option.some.inj (hstep.symm.trans hstep₂)
          exact ih s₁ hI₁ hrest hstays₁
    exact hall acts statusInit (fun _ h => absurd h List.not_mem_nil) h

/-! ## Late changes -/

/-- A call of `setConnectionStatus` from its first step to its last. -/
def setCall (t : StatusThread) : List StatusAct := [.compare t, .write t, .report t]

/-- `CHILD_SA_UP` is posted, and the tunnel terminated before the looper runs. -/
def lateCallback : List StatusAct :=
  [.establish, .start, .loop] ++ setCall .looper ++ [.updateStatus 0 1, .terminate .service] ++
    setCall .service ++ [.loop] ++ setCall .looper

/-- The OpenVPN process says that it exits, as it is told to by the termination. -/
def lateExiting : List StatusAct :=
  [.establish, .bind, .start] ++ setCall .tunnel ++ [.terminate .service] ++ setCall .service ++
    [.state "EXITING"] ++ setCall .tunnel

/-- A terminated IPsec tunnel is connected and a terminated OpenVPN tunnel disconnecting,
and both changes are reported. -/
theorem late_change_of_status :
    (∃ s, run (statusStep smallPlatform .ipSec) statusInit lateCallback = some s ∧
      s.status = .connected ∧ s.reported = [.connecting, .terminated, .connected]) ∧
    (∃ s, run (statusStep smallPlatform .openVpn) statusInit lateExiting = some s ∧
      s.status = .disconnecting ∧ s.reported = [.connecting, .terminated, .disconnecting]) := by
  have hrun : ∀ {kind : TunnelKind} {acts : List StatusAct}
      {p : ConnectionStatus × List ConnectionStatus},
      (run (statusStep smallPlatform kind) statusInit acts).map
        (fun s => (s.status, s.reported)) = some p →
      ∃ s, run (statusStep smallPlatform kind) statusInit acts = some s ∧
        s.status = p.1 ∧ s.reported = p.2 := by
    intro kind acts p h
    obtain ⟨s, hs, rfl⟩ := Option.map_eq_some_iff.mp h
    exact ⟨s, hs, rfl, rfl⟩
  exact ⟨hrun (p := (.connected, [.connecting, .terminated, .connected])) (by decide +kernel),
    hrun (p := (.disconnecting, [.connecting, .terminated, .disconnecting])) (by decide +kernel)⟩

end ConfProfile
