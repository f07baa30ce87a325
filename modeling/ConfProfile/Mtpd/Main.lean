import ConfProfile.Mtpd.Handshake
import ConfProfile.Mtpd.Stream

/-!
# The main loop and `pppd`

`main` polls the socket and the pipe of the signals and calls the functions of a protocol
(`struct protocol`), which may start `pppd`. It ends when one of these functions says so or when a
signal is in the pipe, and `stop_pppd`, which `atexit` runs too, is to see to it that `pppd` ends
before.

The children of the process and the signals that were sent to them are part of the state. What
`fork` returns, when a child ends and how, and what a child makes of SIGTERM are choices of the
steps.

While the loop runs, a child is there exactly if `pppd_pid` is its number (`MainInv`), whatever the
protocol is; how the process can end follows from that (`main_run`).
-/

namespace ConfProfile.Mtpd.Main

/-- The signals that `interrupt` writes to the pipe. -/
inductive Signal
  | SIGHUP | SIGINT | SIGTERM | SIGCHLD
deriving DecidableEq

/-- How a process ends: `WIFEXITED` with its `WEXITSTATUS`, or by a signal. -/
inductive Ending
  | exited (status : BitVec 8)
  | signaled
deriving DecidableEq

abbrev Pid := { n : Int // 0 < n }

/-- A child runs, or has ended and is still to be waited for, or is gone. -/
inductive Proc
  | running
  | zombie (ending : Ending)
  | reaped (ending : Ending)
deriving DecidableEq

structure Child where
  pid : Pid
  proc : Proc
deriving DecidableEq

/-- How `waitpid` sees a child end; `term` is how a running one will, if it is waited for. -/
def Proc.ending (term : Option Ending) : Proc → Option Ending
  | running => term
  | zombie ending => some ending
  | reaped _ => none

/-- `waitpid`, without `WNOHANG` if there is a `term`. -/
def waitpid (target : Int) (term : Option Ending) : List Child → List Child × Option (Pid × Ending)
  | [] => ([], none)
  | c :: rest =>
    if target = c.pid ∨ target = 0 ∨ target = -1 then
      match c.proc.ending term with
      | some ending => (⟨c.pid, .reaped ending⟩ :: rest, some (c.pid, ending))
      | none =>
        let (rest, found) := waitpid target term rest
        (c :: rest, found)
    else
      let (rest, found) := waitpid target term rest
      (c :: rest, found)

/-- What has that number, if it is a child. -/
def procOf (children : List Child) (pid : Int) : Option Proc :=
  (children.find? fun c => c.pid.val == pid).map Child.proc

/-- What a function of a protocol may return: an interval, or a code of `enum exit_code` up to
REMOTE_REQUESTED. -/
def IsCode : Result → Prop
  | .ret timeout => -REMOTE_REQUESTED ≤ timeout
  | .exit status => SYSTEM_ERROR ≤ status ∧ status ≤ REMOTE_REQUESTED

/-- `struct protocol`: what its functions make of its variables, how often they call `start_pppd`,
and how they end. -/
structure Protocol (σ ι : Type) where
  process : σ → ι → σ × Nat × Result
  timeout : σ → σ × Nat × Result
  shutdown : σ → σ
  processCode : ∀ s i, IsCode (process s i).2.2
  timeoutCode : ∀ s, IsCode (timeout s).2.2

inductive Phase
  | polling (timeout : Int)
  | ended (status : Int)
deriving DecidableEq

/-- The process; `signals` is what is in the pipe, and `kills` are the calls of `kill`, each with
what it was for. -/
structure Process (σ : Type) where
  protocol : σ
  pppdPid : Int
  signals : List Signal
  children : List Child
  kills : List (Int × Option Proc)
  phase : Phase
deriving DecidableEq

/-- What happens: a signal, the end of a child, or a round of the loop. In a round `seen` says
whether `poll` has seen the pipe, `input` is there if the socket is ready, and `term` is how `pppd`
ends on SIGTERM. -/
inductive Action (ι : Type)
  | signal (s : Signal)
  | childEnds (pid : Pid) (ending : Ending)
  | pollFails (term : Ending)
  | poll (seen : Bool) (input : Option ι) (forks : List (Option Pid)) (term : Ending)

variable {σ ι : Type}

namespace Process

/-- `stop_pppd` -/
def stopPppd (m : Process σ) (term : Ending) : Process σ :=
  if m.pppdPid ≠ 0 then
    { m with
      kills := m.kills ++ [(m.pppdPid, procOf m.children m.pppdPid)]
      children := (waitpid m.pppdPid (some term) m.children).1
      pppdPid := 0 }
  else m

/-- `exit`, behind `atexit(stop_pppd)`. -/
def exit (m : Process σ) (status : Int) (term : Ending) : Process σ :=
  { m.stopPppd term with phase := .ended status }

/-- The calls of `start_pppd`; `forks` is what the calls of `fork` return. -/
def startPppd (m : Process σ) (term : Ending) : Nat → List (Option Pid) → Option (Process σ)
  | 0, _ => some m
  | n + 1, forks =>
    if m.pppdPid ≠ 0 then startPppd m term n forks
    else match forks with
      | [] => none
      | none :: _ => some (exit { m with pppdPid := -1 } SYSTEM_ERROR term)
      | some pid :: forks =>
        if ∃ c ∈ m.children, c.pid = pid then none
        else startPppd { m with pppdPid := pid, children := m.children ++ [⟨pid, .running⟩] } term n
          forks

/-- The last lines of `main`, with the `exit` behind them. -/
def finish (P : Protocol σ ι) (m : Process σ) (status : Int) (term : Ending) : Process σ :=
  let m := m.stopPppd term
  exit { m with protocol := P.shutdown m.protocol } status term

/-- What is behind the loop when a signal has ended it. -/
def interrupted (P : Protocol σ ι) (m : Process σ) (signal : Signal) (term : Ending) : Process σ :=
  let (children, found) :=
    if signal = .SIGCHLD then waitpid m.pppdPid none m.children else (m.children, none)
  let m := { m with children := children }
  match found with
  | some (pid, .exited status) =>
    if (pid : Int) = m.pppdPid then
      finish P { m with pppdPid := 0 } (status.toNat + PPPD_EXITED) term
    else finish P m USER_REQUESTED term
  | some (_, .signaled) => finish P m USER_REQUESTED term
  | none => finish P m USER_REQUESTED term

/-- What a function of the protocol comes to. -/
def called (P : Protocol σ ι) (m : Process σ) (result : Result) (term : Ending) : Process σ :=
  match m.phase with
  | .ended _ => m
  | .polling _ =>
    match result with
    | .exit status => m.exit status term
    | .ret timeout =>
      if timeout < 0 then finish P m (-timeout) term else { m with phase := .polling timeout }

def step (P : Protocol σ ι) (m : Process σ) (a : Action ι) : Option (Process σ) :=
  match m.phase with
  | .ended _ => none
  | .polling _ =>
    match a with
    | .signal s => some { m with signals := m.signals ++ [s] }
    | .childEnds pid ending =>
      if ⟨pid, .running⟩ ∈ m.children then
        some { m with
          children := m.children.map fun c => if c.pid = pid then ⟨pid, .zombie ending⟩ else c
          signals := m.signals ++ [.SIGCHLD] }
      else none
    | .pollFails term => some (m.exit SYSTEM_ERROR term)
    | .poll true _ _ term =>
      match m.signals with
      | [] => none
      | s :: rest => some (interrupted P { m with signals := rest } s term)
    | .poll false input forks term =>
      let (protocol, starts, result) :=
        match input with
        | some i => P.process m.protocol i
        | none => P.timeout m.protocol
      (startPppd { m with protocol := protocol } term starts forks).map fun m =>
        called P m result term

/-- Where `main` enters the loop. -/
def start (protocol : σ) (timeout : Nat) : Process σ :=
  { protocol := protocol, pppdPid := 0, signals := [], children := [], kills := [],
    phase := .polling timeout }

end Process

/-! ## How the process ends -/

/-- The ways the process ends: its status, its children and its kills. -/
inductive Outcome : Int → List Child → List (Int × Option Proc) → Prop
  /-- `pppd` was not started. -/
  | unstarted {status : Int} (hstatus : 1 ≤ status ∧ status ≤ 6) : Outcome status [] []
  /-- It could not be started, and the signal goes to every process there is. -/
  | everyone : Outcome SYSTEM_ERROR [] [(-1, none)]
  /-- It was there until it was stopped. -/
  | stopped {status : Int} (hstatus : 1 ≤ status ∧ status ≤ 6) (pid : Pid) {proc : Proc}
      {term ending : Ending} (hproc : proc.ending term = some ending) :
      Outcome status [⟨pid, .reaped ending⟩] [(pid, some proc)]
  /-- It ended by itself. -/
  | exited (pid : Pid) (status : BitVec 8) :
      Outcome (status.toNat + PPPD_EXITED) [⟨pid, .reaped (.exited status)⟩] []
  /-- A signal had ended it, and another one is sent to what may have its number by now. -/
  | stale (pid : Pid) :
      Outcome USER_REQUESTED [⟨pid, .reaped .signaled⟩] [(pid, some (.reaped .signaled))]

/-- What `pppd_pid` says about the children. -/
inductive Tracked : Int → List Child → Prop
  | none : Tracked 0 []
  | started (pid : Pid) {proc : Proc} (hproc : ∀ term, (proc.ending (some term)).isSome) :
      Tracked pid [⟨pid, proc⟩]

/-- In the loop, a child is there if and only if `pppd_pid` is its number. -/
def MainInv (m : Process σ) : Prop :=
  match m.phase with
  | .polling timeout => 0 ≤ timeout ∧ m.kills = [] ∧ Tracked m.pppdPid m.children
  | .ended status => Outcome status m.children m.kills

namespace Process

variable {P : Protocol σ ι} {m m' : Process σ} {term : Ending} {status : Int}

theorem waitpid_self (pid : Pid) {proc : Proc} {term : Option Ending} {ending : Ending}
    (h : proc.ending term = some ending) :
    waitpid pid term [⟨pid, proc⟩] = ([⟨pid, .reaped ending⟩], some (pid, ending)) := by
  rw [waitpid, if_pos (Or.inl rfl)]
  dsimp only
  rw [h]

theorem waitpid_of_none (pid : Pid) {proc : Proc} {term : Option Ending}
    (h : proc.ending term = none) : waitpid pid term [⟨pid, proc⟩] = ([⟨pid, proc⟩], none) := by
  rw [waitpid, if_pos (Or.inl rfl)]
  dsimp only
  rw [h]
  rfl

theorem procOf_self (pid : Pid) (proc : Proc) : procOf [⟨pid, proc⟩] pid = some proc := by
  simp [procOf]

theorem stopPppd_of_zero (h : m.pppdPid = 0) : m.stopPppd term = m := if_neg (not_not.mpr h)

/-- The end of a process whose child is known. -/
theorem outcome_stopPppd (hstatus : 1 ≤ status ∧ status ≤ 6) (hkills : m.kills = [])
    (h : Tracked m.pppdPid m.children) :
    (m.stopPppd term).pppdPid = 0 ∧
      Outcome status (m.stopPppd term).children (m.stopPppd term).kills := by
  obtain ⟨protocol, pppdPid, signals, children, kills, phase⟩ := m
  dsimp only at hkills h
  subst hkills
  cases h with
  | none =>
    rw [stopPppd_of_zero rfl]
    exact ⟨rfl, .unstarted hstatus⟩
  | started pid hproc =>
    obtain ⟨ending, hending⟩ := Option.isSome_iff_exists.mp (hproc term)
    rw [stopPppd, if_pos (by exact ne_of_gt pid.property)]
    dsimp only
    rw [waitpid_self pid hending, procOf_self]
    exact ⟨rfl, .stopped hstatus pid hending⟩

theorem outcome_exit (hstatus : 1 ≤ status ∧ status ≤ 6) (hkills : m.kills = [])
    (h : Tracked m.pppdPid m.children) : MainInv (m.exit status term) :=
  (outcome_stopPppd hstatus hkills h).2

/-- `stop_pppd` runs twice, but the second time there is nothing to stop. -/
theorem finish_eq : finish P m status term =
    { m.stopPppd term with
      protocol := P.shutdown (m.stopPppd term).protocol, phase := .ended status } := by
  have hzero : (m.stopPppd term).pppdPid = 0 := by
    rw [stopPppd]
    split
    next => rfl
    next h => exact not_not.mp h
  have hsecond := @stopPppd_of_zero _
    { m.stopPppd term with protocol := P.shutdown (m.stopPppd term).protocol } term hzero
  rw [finish]
  dsimp only
  rw [exit, hsecond]

theorem outcome_finish (hstatus : 1 ≤ status ∧ status ≤ 6) (hkills : m.kills = [])
    (h : Tracked m.pppdPid m.children) : MainInv (finish P m status term) := by
  rw [finish_eq]
  exact (outcome_stopPppd hstatus hkills h).2

/-- A function of the protocol starts `pppd` once at most, however often it tries to. -/
theorem mainInv_startPppd (n : Nat) : ∀ {m m' : Process σ} {forks : List (Option Pid)},
    MainInv m → (∃ timeout, m.phase = .polling timeout) →
    m.startPppd term n forks = some m' →
    MainInv m' ∧ (m'.phase = m.phase ∨ m'.phase = .ended SYSTEM_ERROR) := by
  induction n with
  | zero =>
    intro m m' forks hinv _ h
    obtain rfl := Option.some.inj h
    exact ⟨hinv, Or.inl rfl⟩
  | succ n ih =>
    intro m m' forks hinv hphase h
    obtain ⟨protocol, pppdPid, signals, children, kills, phase⟩ := m
    obtain ⟨timeout, rfl⟩ := hphase
    obtain ⟨htimeout, rfl, htracked⟩ := hinv
    unfold startPppd at h
    split at h
    next => exact ih ⟨htimeout, rfl, htracked⟩ ⟨timeout, rfl⟩ h
    next hzero =>
      -- there is no child, or `pppd_pid` would be its number
      obtain ⟨rfl, rfl⟩ : pppdPid = 0 ∧ children = [] := by
        cases htracked with
        | none => exact ⟨rfl, rfl⟩
        | started pid => exact absurd (ne_of_gt pid.property) hzero
      match forks with
      | [] => exact absurd h.symm (Option.some_ne_none m')
      | none :: _ =>
        obtain rfl := Option.some.inj h
        exact ⟨.everyone, Or.inr rfl⟩
      | some pid :: forks =>
        dsimp only at h
        rw [if_neg (fun hmem => by obtain ⟨c, hc, -⟩ := hmem; exact List.not_mem_nil hc)] at h
        have hstarted : Tracked pid [⟨pid, .running⟩] := .started pid fun _ => rfl
        exact @ih ⟨protocol, pid, signals, [⟨pid, .running⟩], [], .polling timeout⟩ m' forks
          ⟨htimeout, rfl, hstarted⟩ ⟨timeout, rfl⟩ h

theorem mainInv_called {timeout : Int} {result : Result} (hcode : IsCode result)
    (hphase : m.phase = .polling timeout ∨ m.phase = .ended SYSTEM_ERROR) (hinv : MainInv m) :
    MainInv (called P m result term) := by
  rcases hphase with hphase | hphase
  · rw [MainInv, hphase] at hinv
    obtain ⟨-, hkills, htracked⟩ := hinv
    unfold called
    rw [hphase]
    dsimp only
    cases result with
    | exit status => exact outcome_exit hcode hkills htracked
    | ret t =>
      dsimp only
      split
      next hneg =>
        have ht : -6 ≤ t := hcode
        exact outcome_finish ⟨by omega, by omega⟩ hkills htracked
      next hnonneg => exact ⟨Int.not_lt.mp hnonneg, hkills, htracked⟩
  · unfold called
    rw [hphase]
    exact hinv

theorem mainInv_interrupted (hkills : m.kills = []) (htracked : Tracked m.pppdPid m.children)
    (signal : Signal) : MainInv (interrupted P m signal term) := by
  have huser : 1 ≤ USER_REQUESTED ∧ USER_REQUESTED ≤ 6 := by decide
  obtain ⟨protocol, pppdPid, signals, children, kills, phase⟩ := m
  dsimp only at hkills htracked
  subst hkills
  by_cases hsignal : signal = .SIGCHLD
  · subst hsignal
    cases htracked with
    | none => exact outcome_finish huser rfl .none
    | @started pid proc hproc =>
      cases proc with
      | running =>
        have hwait : waitpid pid none [⟨pid, .running⟩] = ([⟨pid, .running⟩], none) :=
          waitpid_of_none pid rfl
        unfold interrupted
        rw [if_pos rfl, hwait]
        exact outcome_finish huser rfl (.started pid fun _ => rfl)
      | reaped ending => exact absurd (hproc .signaled) Bool.false_ne_true
      | zombie ending =>
        have hwait : waitpid pid none [⟨pid, .zombie ending⟩] =
            ([⟨pid, .reaped ending⟩], some (pid, ending)) := waitpid_self pid rfl
        unfold interrupted
        rw [if_pos rfl, hwait]
        dsimp only
        cases ending with
        | exited status =>
          dsimp only
          rw [if_pos rfl, finish_eq, stopPppd_of_zero rfl]
          exact .exited pid status
        | signaled =>
          dsimp only
          rw [finish_eq, stopPppd, if_pos (ne_of_gt pid.property)]
          dsimp only
          rw [procOf_self]
          have hgone : waitpid pid (some term) [⟨pid, .reaped .signaled⟩] =
              ([⟨pid, .reaped .signaled⟩], none) := waitpid_of_none pid rfl
          rw [hgone]
          exact .stale pid
  · have hnone : (interrupted P ⟨protocol, pppdPid, signals, children, [], phase⟩ signal term) =
        finish P ⟨protocol, pppdPid, signals, children, [], phase⟩ USER_REQUESTED term := by
      unfold interrupted
      rw [if_neg hsignal]
    rw [hnone]
    exact outcome_finish huser rfl htracked

theorem mainInv_step {a : Action ι} (hinv : MainInv m) (h : step P m a = some m') :
    MainInv m' := by
  obtain ⟨protocol, pppdPid, signals, children, kills, phase⟩ := m
  cases phase with
  | ended status => exact absurd h.symm (Option.some_ne_none m')
  | polling timeout =>
    obtain ⟨htimeout, rfl, htracked⟩ := hinv
    cases a with
    | signal s =>
      obtain rfl := Option.some.inj h
      exact ⟨htimeout, rfl, htracked⟩
    | pollFails term =>
      obtain rfl := Option.some.inj h
      exact outcome_exit (by decide) rfl htracked
    | childEnds pid ending =>
      unfold step at h
      dsimp only at h
      split at h
      next hmem =>
        obtain rfl := Option.some.inj h
        cases htracked with
        | none => exact absurd hmem List.not_mem_nil
        | started pid' hproc =>
          obtain rfl : pid = pid' := congrArg Child.pid (List.mem_singleton.mp hmem)
          refine ⟨htimeout, rfl, ?_⟩
          rw [List.map_singleton, if_pos rfl]
          exact .started pid fun _ => rfl
      next => exact absurd h.symm (Option.some_ne_none m')
    | poll seen input forks term =>
      cases seen with
      | true =>
        cases signals with
        | nil => exact absurd h.symm (Option.some_ne_none m')
        | cons s rest =>
          have hm : interrupted P ⟨protocol, pppdPid, rest, children, [], .polling timeout⟩ s term =
              m' := Option.some.inj h
          rw [← hm]
          exact @mainInv_interrupted _ _ P ⟨protocol, pppdPid, rest, children, [], .polling timeout⟩
            term rfl htracked s
      | false =>
        have hcall : ∃ r : σ × Nat × Result, IsCode r.2.2 ∧
            (startPppd ⟨r.1, pppdPid, signals, children, [], .polling timeout⟩ term r.2.1 forks).map
              (fun m => called P m r.2.2 term) = some m' := by
          cases input with
          | some i => exact ⟨P.process protocol i, P.processCode protocol i, h⟩
          | none => exact ⟨P.timeout protocol, P.timeoutCode protocol, h⟩
        obtain ⟨r, hcode, hr⟩ := hcall
        obtain ⟨v, hv, rfl⟩ := Option.map_eq_some_iff.mp hr
        have hm : MainInv (⟨r.1, pppdPid, signals, children, [], .polling timeout⟩ : Process σ) :=
          ⟨htimeout, rfl, htracked⟩
        obtain ⟨hinv, hphase⟩ := mainInv_startPppd r.2.1 hm ⟨timeout, rfl⟩ hv
        exact mainInv_called hcode hphase hinv

end Process

/-! ## The two protocols -/

/-- The result of a branch of the `switch` of `l2tp_process`. -/
def FlowCode : L2tp.Flow → Prop
  | .brk _ => True
  | .ret step => IsCode step.result

section Codes

variable {md5 : L2tp.Md5} {env : L2tp.Env} {s : L2tp.State} {incoming : Bytes}
  {message session : BitVec 16}

theorem isCode_nonneg {timeout : Int} (h : 0 ≤ timeout) : IsCode (.ret timeout) := by
  have hcode : -REMOTE_REQUESTED ≤ 0 := by decide
  exact Int.le_trans hcode h

/-- The negative codes of the first six of `enum exit_code`. -/
theorem isCode_neg {code : Int} (h : code ≤ REMOTE_REQUESTED) : IsCode (.ret (-code)) :=
  Int.neg_le_neg h

theorem isCode_zero : IsCode (.ret 0) := isCode_nonneg (Int.le_refl 0)

theorem isCode_protocolError : IsCode (.ret (-PROTOCOL_ERROR)) := isCode_neg (by decide)

theorem isCode_remoteRequested : IsCode (.ret (-REMOTE_REQUESTED)) := isCode_neg (Int.le_refl _)

theorem isCode_systemError : IsCode (.exit SYSTEM_ERROR) := ⟨Int.le_refl _, by decide⟩

theorem isCode_networkError : IsCode (.exit NETWORK_ERROR) := ⟨by decide, by decide⟩

theorem isCode_interval (acknowledged : Bool) :
    IsCode (.ret (if acknowledged then 0 else L2tp.TIMEOUT_INTERVAL)) := by
  cases acknowledged with
  | true => exact isCode_zero
  | false => exact @isCode_nonneg L2tp.TIMEOUT_INTERVAL (by decide)

theorem flowCode_processSccrp : FlowCode (L2tp.processSccrp md5 s incoming) := by
  unfold L2tp.processSccrp
  split
  next =>
    dsimp only
    split
    next => trivial
    next =>
      rw [FlowCode]
      split
      next => exact @isCode_neg CHALLENGE_FAILED (by decide)
      next => exact isCode_protocolError
  next => trivial

theorem flowCode_processIcrp : FlowCode (L2tp.processIcrp md5 s incoming session) := by
  unfold L2tp.processIcrp
  split
  next =>
    dsimp only
    split
    next => trivial
    next => exact isCode_protocolError
  next => trivial

theorem flowCode_processAck (m : L2tp.Message) : FlowCode (L2tp.processAck env s m) := by
  unfold L2tp.processAck
  split
  next => trivial
  next =>
    dsimp only
    split
    next =>
      split
      next => exact isCode_zero
      next => exact isCode_systemError
    next => exact isCode_zero

theorem flowCode_processCallRequest :
    FlowCode (L2tp.processCallRequest md5 s incoming session) := by
  unfold L2tp.processCallRequest
  dsimp only
  split
  next => trivial
  next => trivial

theorem flowCode_dispatch : FlowCode (L2tp.dispatch md5 env s incoming message session) := by
  unfold L2tp.dispatch
  split
  next => exact flowCode_processSccrp
  next => exact flowCode_processIcrp
  next => exact isCode_remoteRequested
  next =>
    split
    next => exact isCode_remoteRequested
    next => trivial
  next => exact flowCode_processAck .ACK
  next => exact flowCode_processAck .HELLO
  next => exact flowCode_processAck .WEN
  next => exact flowCode_processAck .SLI
  next => exact flowCode_processCallRequest
  next => exact flowCode_processCallRequest
  all_goals trivial

theorem isCode_l2tpProcess (recv : Recv) : IsCode (L2tp.l2tpProcess md5 env s recv).result := by
  cases recv with
  | failed => exact isCode_networkError
  | interrupted => exact isCode_interval s.acknowledged
  | data bytes =>
    unfold L2tp.l2tpProcess
    dsimp only
    split
    next s' _ _ => exact isCode_interval s'.acknowledged
    next s' out message session _ =>
      have hflow := @flowCode_dispatch md5 env s' (bytes.take L2tp.MAX_PACKET_LENGTH) message session
      split
      next s'' _ =>
        unfold L2tp.finish
        split
        next => exact isCode_interval false
        next => exact isCode_zero
      next step hstep =>
        rw [hstep] at hflow
        exact hflow

theorem isCode_l2tpTimeout : IsCode (L2tp.l2tpTimeout s).result := by
  unfold L2tp.l2tpTimeout
  split
  next => exact isCode_zero
  next => exact isCode_interval false

theorem isCode_pptpHandle (env : Pptp.Env) (s : Pptp.Session) (length : Nat) (buffer : Bytes) :
    IsCode (Pptp.pptpHandle env s length buffer).2.2 := by
  have hhandled := Pptp.pptpHandle_handled env s length buffer
  generalize Pptp.pptpHandle env s length buffer = r at hhandled
  cases hhandled with
  | quiet => exact isCode_zero
  | ended => exact isCode_remoteRequested
  | stopped => exact isCode_remoteRequested
  | calling => exact isCode_zero
  | called => exact isCode_zero
  | failed => exact isCode_systemError
  | echoed => exact isCode_zero
  | refused => exact isCode_zero

theorem isCode_recvPacket (i : Pptp.Incoming) (bytes : Bytes) : IsCode (.ret (i.recvPacket bytes).2) := by
  have hcomplete : ∀ j : Pptp.Incoming, IsCode (.ret j.complete.2) := by
    intro j
    unfold Pptp.Incoming.complete
    split
    next =>
      dsimp only
      split
      next => exact isCode_nonneg Int.one_nonneg
      next => exact isCode_zero
    next => exact isCode_zero
  unfold Pptp.Incoming.recvPacket
  split
  next => exact isCode_remoteRequested
  next =>
    dsimp only
    split
    next =>
      split
      next => exact isCode_protocolError
      next =>
        split
        next => exact isCode_protocolError
        next => exact hcomplete _
    next => exact hcomplete _

theorem isCode_pptpProcess (env : Pptp.Env) (s : Pptp.State) (recv : Recv) :
    IsCode (Pptp.pptpProcess env s recv).2.2 := by
  cases recv with
  | failed => exact isCode_networkError
  | interrupted => exact isCode_zero
  | data bytes =>
    have hrecv := isCode_recvPacket s.incoming bytes
    have hhandle := isCode_pptpHandle env s.session (s.incoming.recvPacket bytes).1.length
      (s.incoming.recvPacket bytes).1.buffer
    unfold Pptp.pptpProcess
    dsimp only
    split
    next => exact hrecv
    next => exact hhandle

end Codes

/-- `l2tp` -/
def l2tp (md5 : L2tp.Md5) : Protocol L2tp.State (L2tp.Env × Recv) where
  process s i :=
    let r := L2tp.l2tpProcess md5 i.1 s i.2
    (r.state, (L2tp.starts r.out).length, r.result)
  timeout s :=
    let r := L2tp.l2tpTimeout s
    (r.state, (L2tp.starts r.out).length, r.result)
  shutdown s := (L2tp.l2tpShutdown s).1
  processCode _ i := isCode_l2tpProcess i.2
  timeoutCode _ := isCode_l2tpTimeout

/-- `pptp` -/
def pptp : Protocol Pptp.State (Pptp.Env × Recv) where
  process s i :=
    let r := Pptp.pptpProcess i.1 s i.2
    (r.1, (Pptp.starts r.2.1).length, r.2.2)
  timeout s := (s, 0, .ret 0)
  shutdown s := s
  processCode s i := isCode_pptpProcess i.1 s i.2
  timeoutCode _ := isCode_zero

/-! ## Runs -/

/-- However the process comes to its end, it has started `pppd` once at most and waited for it, and
it has sent no signal, or one to a `pppd` that was there, with two exceptions: after a `fork` that
failed it is sent to every process, and after a `pppd` that a signal has ended to its old number. Its
status is more than 32 only if it is that of a `pppd` that has ended by itself. -/
theorem main_run (P : Protocol σ ι) (protocol : σ) (timeout : Nat) (as : List (Action ι))
    (m : Process σ) (status : Int)
    (h : Run.run (Process.step P) (Process.start protocol timeout) as = some m)
    (hended : m.phase = .ended status) : Outcome status m.children m.kills := by
  have hstart : MainInv (Process.start protocol timeout) := ⟨Int.natCast_nonneg timeout, rfl, .none⟩
  have hinv := Run.inv_run (fun _ _ _ hm hstep => Process.mainInv_step hm hstep) as hstart h
  rwa [MainInv, hended] at hinv

/-- The rounds of the main loop in which the tunnel daemon makes the steps of a run of it. -/
def rounds (forks : List (Option Pid)) : List L2tp.Action → List (Action (L2tp.Env × Recv)) :=
  List.filterMap fun
    | .accept => none
    | .recv env recv _ _ => some (.poll false (some (env, recv)) forks .signaled)
    | .timeout => some (.poll false none [] .signaled)

/-- `pppd` comes up, and ends with status 19. -/
theorem main_run_exited : ∃ m,
    Run.run (Process.step (l2tp L2tp.Sample.digests)) (Process.start L2tp.Sample.start.daemon 2000)
      (rounds [some ⟨77, by decide⟩] L2tp.Sample.actions ++ [.childEnds ⟨77, by decide⟩ (.exited 19),
        .poll true none [] .signaled]) = some m ∧
      m.phase = .ended 51 ∧ Outcome 51 m.children m.kills := by
  have hphase : (Run.run (Process.step (l2tp L2tp.Sample.digests))
      (Process.start L2tp.Sample.start.daemon 2000)
      (rounds [some ⟨77, by decide⟩] L2tp.Sample.actions ++ [.childEnds ⟨77, by decide⟩ (.exited 19),
        .poll true none [] .signaled])).map Process.phase = some (.ended 51) := by decide +kernel
  obtain ⟨m, hm, hended⟩ := Option.map_eq_some_iff.mp hphase
  exact ⟨m, hm, hended, main_run _ _ 2000 _ m 51 hm hended⟩

end ConfProfile.Mtpd.Main
