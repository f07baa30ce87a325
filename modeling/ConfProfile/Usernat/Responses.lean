import ConfProfile.Lib.Run
import ConfProfile.Usernat.Control

/-!
# Commands and responses (`UsernatTunnel.run`, `usernat.c`)

`UsernatTunnel.run` writes a command and reads messages until it reads a
response; nothing says which command a response is for. The usernat process
answers a command from its main loop, and reports, pings and log messages come in
between.

Bodies go through the stream whole and in order (`readMessages_sent`), so the
stream is a queue here. There is never more than one command without its
response (`Sync`); `responses_matched` says what follows for all orders of the
steps, that no report of a child is lost, and that the two sides come to where each
command is returned and each report is recorded.
-/

namespace ConfProfile

open Run

/-- Where `UsernatTunnel.run` is. `relay` is false for the first command. -/
inductive RunPc where
  /-- in front of the `processRequestSync` of the first of the commands -/
  | write (relay : Bool) (cmds : List RunCmd)
  /-- in `processRequestSync`, in front of `readMessage` -/
  | call (relay : Bool) (cmd : RunCmd) (cmds : List RunCmd)
  /-- in front of `pendingReports.clear` at the head of the loop -/
  | top
  /-- in front of `mQueue.poll` -/
  | queue
  /-- in front of `instream.available` -/
  | available
  /-- behind a `teardown` -/
  | ended
  deriving DecidableEq, Repr

/-- Where the main loop of the usernat process is. -/
inductive MainPc where
  | poll
  /-- in front of the `send_cmd` of a handler -/
  | answer (cmd : RunCmd) (code : Int)
  | exited
  deriving DecidableEq, Repr

/-- The two processes and the messages between them. The records `issued`, `answered`,
`sent` and `returned` are kept for what is said about a run. -/
structure CtrlSys where
  java : RunPc
  main : MainPc
  toUsernat : List RunCmd
  toJava : List UsernatMsg
  /-- children that `waitpid` has not been told of -/
  children : List Nat
  pendingReports : List (List (BitVec 8))
  /-- what `report` was called with -/
  reported : List (List (BitVec 8))
  issued : List RunCmd
  answered : List (RunCmd × Int)
  sent : List UsernatMsg
  returned : List (Option (List (BitVec 8)))

inductive CtrlAct where
  -- the Java thread
  | write
  | read
  | finish
  | clear
  | queue (request : Option (BitVec 32 × BitVec 16))
  | available
  -- the usernat process
  | recv (fork : Option Nat)
  | answer
  | ping
  | log (text : List (BitVec 8))
  | sigchld (pid : Nat)
  deriving DecidableEq, Repr

namespace CtrlSys

variable (s : CtrlSys)

/-- `send_cmd`. -/
def send (m : UsernatMsg) : CtrlSys := { s with sent := s.sent ++ [m], toJava := s.toJava ++ [m] }

/-- `report` and `clear`, as in the `finally` blocks. -/
def report : CtrlSys := { s with reported := s.reported ++ s.pendingReports, pendingReports := [] }

/-- `processRequestSync` returns. `Integer.valueOf(resp.trim())` throws for `null`. -/
def returns (relay : Bool) (cmd : RunCmd) (cmds : List RunCmd) (result : Option (List (BitVec 8))) :
    CtrlSys :=
  match cmd, result with
  | .socat _ _, none => { s.report with returned := s.returned ++ [result], java := .ended }
  | _, _ => { s with returned := s.returned ++ [result], java := .write relay cmds }

/-- The loop of `processRequestSync` for a message, while it waits for a response. -/
def readResp (relay : Bool) (cmd : RunCmd) (cmds : List RunCmd) (resp : List (BitVec 8)) :
    CtrlSys :=
  match msgKind resp with
  | .terminated => { s with pendingReports := s.pendingReports ++ [resp] }
  | .resp result => s.returns relay cmd cmds (some result)
  | .ping | .log => s
  | .unexpected => s.returns relay cmd cmds none

/-- `processRequestSync` without a command: it reads one message. -/
def justRead (resp : List (BitVec 8)) : CtrlSys :=
  match msgKind resp with
  | .terminated => { s with pendingReports := s.pendingReports ++ [resp] }
  | .resp _ | .ping | .log | .unexpected => s

/-- The main loop with a command, up to the `send_cmd` of its handler. -/
def process (cmd : RunCmd) (fork : Option Nat) : CtrlSys :=
  -- "length is 0xffff, this is a legal way to halt"
  if cmd.text.length = 0xffff then { s with main := .exited }
  else match parseCmd cmd.text with
    | .resp => s
    | .socatPath len => { s with main := .answer cmd (if len > 255 then -1 else 0) }
    | .acceptFd | .connectFd => { s with main := .answer cmd 0 }
    | .socat _ =>
      match fork with
      | none => { s with main := .answer cmd (-1) }
      | some child => { s with main := .answer cmd child, children := child :: s.children }
    | .halt => { s with main := .exited }
    | .unknown => s.send (.log (ascii "[usernat] no cmd was found"))

end CtrlSys

/-- The code of a response. -/
def UsernatMsg.code? : UsernatMsg → Option Int
  | .resp code => some code
  | .ping | .log _ | .terminated _ => none

/-- The text of a report. -/
def UsernatMsg.report? : UsernatMsg → Option (List (BitVec 8))
  | .terminated pid => some (UsernatMsg.terminated pid).text
  | .ping | .log _ | .resp _ => none

/-- One step of either side. -/
def ctrlStep (s : CtrlSys) (a : CtrlAct) : Option CtrlSys :=
  match a with
  | .write =>
    match s.java with
    | .write relay (cmd :: cmds) =>
      match writeMessage (some cmd.text) with
      | none => some (s.returns relay cmd cmds none)
      | some _ => some { s with
          toUsernat := s.toUsernat ++ [cmd]
          issued := s.issued ++ [cmd]
          java := .call relay cmd cmds }
    | _ => none
  | .read =>
    match s.java, s.toJava with
    | .call relay cmd cmds, m :: toJava =>
      some ({ s with toJava }.readResp relay cmd cmds m.text)
    | _, _ => none
  | .finish =>
    match s.java with
    | .write false [] => some { s with java := .top }
    | .write true [] => some { s.report with java := .queue }
    | _ => none
  | .clear =>
    match s.java with
    | .top => some { s with pendingReports := [], java := .queue }
    | _ => none
  | .queue request =>
    match s.java, request with
    | .queue, none => some { s with java := .available }
    | .queue, some (dstAddr, dstPort) =>
      some { s with java := .write true [.acceptFd, .connectFd, .socat dstAddr dstPort] }
    | _, _ => none
  | .available =>
    match s.java, s.toJava with
    | .available, m :: toJava =>
      some { ({ s with toJava }.justRead m.text).report with java := .top }
    | .available, [] => some { s.report with java := .top }
    | _, _ => none
  | .recv fork =>
    match s.main, s.toUsernat with
    | .poll, cmd :: toUsernat => some ({ s with toUsernat }.process cmd fork)
    | _, _ => none
  | .answer =>
    match s.main with
    | .answer cmd code =>
      some { s.send (.resp code) with main := .poll, answered := s.answered ++ [(cmd, code)] }
    | _ => none
  | .ping => if s.main = .poll then some (s.send .ping) else none
  | .log text => if s.main ≠ .exited then some (s.send (.log text)) else none
  | .sigchld pid =>
    if s.main ≠ .exited ∧ pid ∈ s.children then
      some { s.send (.terminated pid) with children := s.children.erase pid }
    else none

/-- The ways through a step. -/
inductive CtrlStep (s : CtrlSys) : CtrlAct → CtrlSys → Prop where
  | write {relay : Bool} {cmd : RunCmd} {cmds : List RunCmd}
      (hpc : s.java = .write relay (cmd :: cmds)) :
      CtrlStep s .write { s with
        toUsernat := s.toUsernat ++ [cmd]
        issued := s.issued ++ [cmd]
        java := .call relay cmd cmds }
  | readReport {relay : Bool} {cmd : RunCmd} {cmds : List RunCmd} {pid : Nat}
      {toJava : List UsernatMsg} (hpc : s.java = .call relay cmd cmds)
      (hmsg : s.toJava = .terminated pid :: toJava) :
      CtrlStep s .read { s with
        toJava, pendingReports := s.pendingReports ++ [(UsernatMsg.terminated pid).text] }
  | readResp {relay : Bool} {cmd : RunCmd} {cmds : List RunCmd} {code : Int}
      {toJava : List UsernatMsg} (hpc : s.java = .call relay cmd cmds)
      (hmsg : s.toJava = .resp code :: toJava) :
      CtrlStep s .read { s with
        toJava, returned := s.returned ++ [some (decimal code)], java := .write relay cmds }
  | readOther {relay : Bool} {cmd : RunCmd} {cmds : List RunCmd} {m : UsernatMsg}
      {toJava : List UsernatMsg} (hpc : s.java = .call relay cmd cmds)
      (hmsg : s.toJava = m :: toJava)
      (hcode : m.code? = none) (hreport : m.report? = none) :
      CtrlStep s .read { s with toJava }
  | finishFirst (hpc : s.java = .write false []) : CtrlStep s .finish { s with java := .top }
  | finishRelay (hpc : s.java = .write true []) :
      CtrlStep s .finish { s.report with java := .queue }
  | clear (hpc : s.java = .top) : CtrlStep s .clear { s with pendingReports := [], java := .queue }
  | queueEmpty (hpc : s.java = .queue) : CtrlStep s (.queue none) { s with java := .available }
  | queue (hpc : s.java = .queue) (dstAddr : BitVec 32) (dstPort : BitVec 16) :
      CtrlStep s (.queue (some (dstAddr, dstPort)))
        { s with java := .write true [.acceptFd, .connectFd, .socat dstAddr dstPort] }
  | availableReport {pid : Nat} {toJava : List UsernatMsg} (hpc : s.java = .available)
      (hmsg : s.toJava = .terminated pid :: toJava) :
      CtrlStep s .available { s with
        toJava
        reported := s.reported ++ (s.pendingReports ++ [(UsernatMsg.terminated pid).text])
        pendingReports := []
        java := .top }
  | availableOther {m : UsernatMsg} {toJava : List UsernatMsg} (hpc : s.java = .available)
      (hmsg : s.toJava = m :: toJava) (hreport : m.report? = none) :
      CtrlStep s .available { ({ s with toJava } : CtrlSys).report with java := .top }
  | availableNot (hpc : s.java = .available) (hmsg : s.toJava = []) :
      CtrlStep s .available { s.report with java := .top }
  | recv {cmd : RunCmd} {toUsernat : List RunCmd} (fork : Option Nat) (hpc : s.main = .poll)
      (hcmd : s.toUsernat = cmd :: toUsernat) (code : Int) (children : List Nat)
      (hchildren : children = s.children ∨ ∃ dstAddr dstPort, cmd = .socat dstAddr dstPort) :
      CtrlStep s (.recv fork) { s with toUsernat, children, main := .answer cmd code }
  | answer {cmd : RunCmd} {code : Int} (hpc : s.main = .answer cmd code) :
      CtrlStep s .answer
        { s.send (.resp code) with main := .poll, answered := s.answered ++ [(cmd, code)] }
  | ping (hpc : s.main = .poll) : CtrlStep s .ping (s.send .ping)
  | log (text : List (BitVec 8)) : CtrlStep s (.log text) (s.send (.log text))
  | sigchld {pid : Nat} (hpid : pid ∈ s.children) :
      CtrlStep s (.sigchld pid)
        { s.send (.terminated pid) with children := s.children.erase pid }

/-- A command of `run` gets to a handler that answers it. -/
theorem process_eq (s : CtrlSys) (cmd : RunCmd) (fork : Option Nat) :
    ∃ code children, s.process cmd fork = { s with children, main := .answer cmd code } ∧
      (children = s.children ∨ ∃ dstAddr dstPort, cmd = .socat dstAddr dstPort) := by
  have hlen := length_text cmd
  unfold CtrlSys.process
  rw [if_neg (by omega), parseCmd_text]
  cases cmd with
  | socatPath | acceptFd | connectFd => exact ⟨_, _, rfl, Or.inl rfl⟩
  | socat dstAddr dstPort =>
    cases fork with
    | none => exact ⟨_, _, rfl, Or.inl rfl⟩
    | some child => exact ⟨_, _, rfl, Or.inr ⟨dstAddr, dstPort, rfl⟩⟩

theorem ctrlStep_cases {s s' : CtrlSys} {a : CtrlAct} (h : ctrlStep s a = some s') :
    CtrlStep s a s' := by
  unfold ctrlStep at h
  cases a with
  | write =>
    dsimp only at h
    split at h
    · next relay cmd cmds hpc =>
      have hlen := length_text cmd
      rw [writeMessage_some, if_pos (by omega)] at h
      obtain rfl := Option.some.inj h
      exact .write hpc
    · cases h
  | read =>
    dsimp only at h
    split at h
    · next relay cmd cmds m toJava hpc hmsg =>
      obtain rfl := Option.some.inj h
      unfold CtrlSys.readResp
      rw [msgKind_text]
      cases m with
      | ping | log text => exact .readOther hpc hmsg rfl rfl
      | terminated pid => exact .readReport hpc hmsg
      | resp code => cases cmd <;> exact .readResp hpc hmsg
    · cases h
  | finish =>
    dsimp only at h
    split at h
    · next hpc =>
      obtain rfl := Option.some.inj h
      exact .finishFirst hpc
    · next hpc =>
      obtain rfl := Option.some.inj h
      exact .finishRelay hpc
    · cases h
  | clear =>
    dsimp only at h
    split at h
    · next hpc =>
      obtain rfl := Option.some.inj h
      exact .clear hpc
    · cases h
  | queue request =>
    dsimp only at h
    split at h
    · next hpc =>
      obtain rfl := Option.some.inj h
      exact .queueEmpty hpc
    · next dstAddr dstPort hpc =>
      obtain rfl := Option.some.inj h
      exact .queue hpc dstAddr dstPort
    · cases h
  | available =>
    dsimp only at h
    split at h
    · next m toJava hpc hmsg =>
      obtain rfl := Option.some.inj h
      unfold CtrlSys.justRead
      rw [msgKind_text]
      cases m with
      | ping | log text | resp code => exact .availableOther hpc hmsg rfl
      | terminated pid => exact .availableReport hpc hmsg
    · next hpc hmsg =>
      obtain rfl := Option.some.inj h
      exact .availableNot hpc hmsg
    · cases h
  | recv fork =>
    dsimp only at h
    split at h
    · next cmd toUsernat hpc hcmd =>
      obtain rfl := Option.some.inj h
      obtain ⟨code, children, heq, hchildren⟩ := process_eq { s with toUsernat } cmd fork
      rw [heq]
      exact .recv fork hpc hcmd code children hchildren
    · cases h
  | answer =>
    dsimp only at h
    split at h
    · next cmd code hpc =>
      obtain rfl := Option.some.inj h
      exact .answer hpc
    · cases h
  | ping =>
    dsimp only at h
    split at h
    · next hpc =>
      obtain rfl := Option.some.inj h
      exact .ping hpc
    · cases h
  | log text =>
    dsimp only at h
    split at h
    · obtain rfl := Option.some.inj h
      exact .log text
    · cases h
  | sigchld pid =>
    dsimp only at h
    split at h
    · next hpid =>
      obtain rfl := Option.some.inj h
      exact .sigchld hpid.2
    · cases h

/-! ## What holds in every state -/

/-- The codes of the responses among some messages. -/
def codes (ms : List UsernatMsg) : List Int := ms.filterMap UsernatMsg.code?

/-- The texts of the reports among some messages. -/
def reports (ms : List UsernatMsg) : List (List (BitVec 8)) := ms.filterMap UsernatMsg.report?

/-- The commands that are written and not answered. -/
def CtrlSys.unanswered (s : CtrlSys) : List RunCmd :=
  match s.main with
  | .answer cmd _ => cmd :: s.toUsernat
  | .poll | .exited => s.toUsernat

/-- The command that `processRequestSync` waits for the response to. -/
def RunPc.waiting : RunPc → List RunCmd
  | .call _ cmd _ => [cmd]
  | _ => []

/-- The commands of the block that `run` is in. -/
def RunPc.block : RunPc → List RunCmd
  | .write _ cmds => cmds
  | .call _ cmd cmds => cmd :: cmds
  | _ => []

/-- The first command is not finished. -/
def RunPc.First : RunPc → Prop
  | .write relay _ => relay = false
  | .call relay _ _ => relay = false
  | _ => False

/-- Between two blocks of commands. -/
def RunPc.Between : RunPc → Prop
  | .top | .queue | .available => True
  | _ => False

/-- Either the command in hand is not answered, or the answer is on its way. -/
def CtrlSys.Sync (s : CtrlSys) : Prop :=
  s.unanswered = s.java.waiting ∧ codes s.toJava = [] ∨
    s.unanswered = [] ∧ s.java.waiting.length = 1 ∧ ∃ code, codes s.toJava = [code]

structure CtrlInv (s : CtrlSys) : Prop where
  running : s.main ≠ .exited
  sync : s.Sync
  issued : s.issued = s.answered.map Prod.fst ++ s.unanswered
  codes : codes s.sent = s.answered.map Prod.snd
  returned : s.returned ++ (ConfProfile.codes s.toJava).map (fun code => some (decimal code)) =
    s.answered.map fun a => some (decimal a.2)
  reports : reports s.sent = s.reported ++ s.pendingReports ++ ConfProfile.reports s.toJava
  first : s.java.First → s.children = [] ∧ ConfProfile.reports s.sent = [] ∧
    ∀ cmd ∈ s.java.block, cmd = .socatPath
  between : s.java.Between → s.pendingReports = []

section steps

variable {s s' : CtrlSys} {a : CtrlAct}

theorem codes_append (ms ns : List UsernatMsg) : codes (ms ++ ns) = codes ms ++ codes ns :=
  List.filterMap_append

theorem reports_append (ms ns : List UsernatMsg) : reports (ms ++ ns) = reports ms ++ reports ns :=
  List.filterMap_append

theorem codes_cons_none {m : UsernatMsg} (ms : List UsernatMsg) (h : m.code? = none) :
    codes (m :: ms) = codes ms := List.filterMap_cons_none h

theorem reports_cons_none {m : UsernatMsg} (ms : List UsernatMsg) (h : m.report? = none) :
    reports (m :: ms) = reports ms := List.filterMap_cons_none h

theorem waiting_subset (pc : RunPc) : ∀ cmd ∈ pc.waiting, cmd ∈ pc.block := by
  intro cmd hcmd
  cases pc with
  | call relay cmd' cmds => exact List.mem_cons.mpr (Or.inl (List.mem_singleton.mp hcmd))
  | write | top | queue | available | ended => cases hcmd

/-- Where no response is waited for, there is none, and no command without one. -/
theorem CtrlSys.Sync.idle (h : s.Sync) (hpc : s.java.waiting = []) :
    s.unanswered = [] ∧ ConfProfile.codes s.toJava = [] := by
  rcases h with ⟨hun, hcodes⟩ | ⟨_, hone, _⟩
  · exact ⟨hun.trans hpc, hcodes⟩
  · rw [hpc] at hone
    cases hone

/-- A command without its response is the one that is waited for. -/
theorem CtrlSys.Sync.asked (h : s.Sync) {cmd : RunCmd} {cmds : List RunCmd}
    (hun : s.unanswered = cmd :: cmds) :
    s.java.waiting = [cmd] ∧ cmds = [] ∧ ConfProfile.codes s.toJava = [] := by
  rcases h with ⟨heq, hcodes⟩ | ⟨hnil, _⟩
  · rw [hun] at heq
    cases hpc : s.java with
    | call relay cmd' cmds' =>
      rw [hpc] at heq
      obtain ⟨rfl, rfl⟩ := List.cons.inj heq
      exact ⟨rfl, rfl, hcodes⟩
    | write | top | queue | available | ended =>
      rw [hpc] at heq
      cases heq
  · rw [hun] at hnil
    cases hnil

/-- A response is the one that is waited for. -/
theorem CtrlSys.Sync.answered (h : s.Sync) {code : Int} {rest : List Int}
    (hcodes : ConfProfile.codes s.toJava = code :: rest) : s.unanswered = [] ∧ rest = [] := by
  rcases h with ⟨_, hnil⟩ | ⟨hun, _, _, hone⟩
  · rw [hcodes] at hnil
    cases hnil
  · rw [hcodes] at hone
    exact ⟨hun, (List.cons.inj hone).2⟩

/-- A message that is no response comes from the usernat process; while `run` is in its first
block, no report, either. -/
theorem CtrlInv.send (hI : CtrlInv s) {m : UsernatMsg} (children : List Nat)
    (hcode : m.code? = none) (hfirst : s.java.First → m.report? = none ∧ children = []) :
    CtrlInv { s.send m with children } := by
  have hcodes (ms : List UsernatMsg) : ConfProfile.codes (ms ++ [m]) = ConfProfile.codes ms := by
    rw [codes_append, codes_cons_none _ hcode]
    exact List.append_nil _
  refine ⟨hI.running, ?_, hI.issued, ?_, ?_, ?_, ?_, hI.between⟩
  · unfold CtrlSys.Sync CtrlSys.send
    rw [hcodes]
    exact hI.sync
  · exact (hcodes s.sent).trans hI.codes
  · show s.returned ++ (ConfProfile.codes (s.toJava ++ [m])).map _ = _
    rw [hcodes]
    exact hI.returned
  · show ConfProfile.reports (s.sent ++ [m]) =
      s.reported ++ s.pendingReports ++ ConfProfile.reports (s.toJava ++ [m])
    rw [reports_append, reports_append, hI.reports, List.append_assoc]
  · intro hpc
    obtain ⟨hreport, hchildren⟩ := hfirst hpc
    obtain ⟨-, hnone, hblock⟩ := hI.first hpc
    refine ⟨hchildren, ?_, hblock⟩
    show ConfProfile.reports (s.sent ++ [m]) = []
    rw [reports_append, hnone, reports_cons_none _ hreport]
    rfl

/-- A step of `run` with no command to be answered, before or behind it: reports move on, and
nothing else. -/
theorem CtrlInv.idle (hI : CtrlInv s) {java : RunPc} {toJava : List UsernatMsg}
    {pendingReports reported : List (List (BitVec 8))} (hidle : s.java.waiting = [])
    (hcodes : ConfProfile.codes toJava = ConfProfile.codes s.toJava)
    (hreports : reported ++ pendingReports ++ ConfProfile.reports toJava =
      s.reported ++ s.pendingReports ++ ConfProfile.reports s.toJava)
    (hwaiting : java.waiting = []) (hfirst : ¬ java.First)
    (hbetween : java.Between → pendingReports = []) :
    CtrlInv { s with java, toJava, pendingReports, reported } := by
  obtain ⟨hun, hnone⟩ := hI.sync.idle hidle
  refine ⟨hI.running, Or.inl ⟨hun.trans hwaiting.symm, hcodes.trans hnone⟩, hI.issued, hI.codes,
    ?_, hI.reports.trans hreports.symm, fun h => absurd h hfirst, hbetween⟩
  show s.returned ++ (ConfProfile.codes toJava).map _ = _
  rw [hcodes]
  exact hI.returned

/-- A message that is no response is read while one is waited for. -/
theorem CtrlInv.read (hI : CtrlInv s) {m : UsernatMsg} {toJava : List UsernatMsg}
    {pendingReports : List (List (BitVec 8))} (hmsg : s.toJava = m :: toJava)
    (hcode : m.code? = none) (hreports : pendingReports ++ ConfProfile.reports toJava =
      s.pendingReports ++ ConfProfile.reports s.toJava)
    (hbetween : ¬ s.java.Between) : CtrlInv { s with toJava, pendingReports } := by
  have hcodes : ConfProfile.codes s.toJava = ConfProfile.codes toJava := by
    rw [hmsg, codes_cons_none _ hcode]
  refine ⟨hI.running, ?_, hI.issued, hI.codes, ?_, ?_, hI.first, fun h => absurd h hbetween⟩
  · have hsync := hI.sync
    unfold CtrlSys.Sync at hsync ⊢
    rwa [hcodes] at hsync
  · have hreturned := hI.returned
    rwa [hcodes] at hreturned
  · refine hI.reports.trans ?_
    rw [List.append_assoc, List.append_assoc, hreports]

/-- The main loop sends the response to the command in hand. -/
theorem CtrlInv.answer (hI : CtrlInv s) {cmd : RunCmd} {code : Int}
    (hpc : s.main = .answer cmd code) : CtrlInv
      { s.send (.resp code) with main := .poll, answered := s.answered ++ [(cmd, code)] } := by
  have hun : s.unanswered = cmd :: s.toUsernat := by
    unfold CtrlSys.unanswered
    rw [hpc]
  obtain ⟨hwaiting, hnil, hcodes⟩ := hI.sync.asked hun
  have hcodes' : ConfProfile.codes (s.toJava ++ [.resp code]) = [code] := by
    rw [codes_append, hcodes]
    rfl
  refine ⟨MainPc.noConfusion, Or.inr ⟨hnil, ?_, code, hcodes'⟩, ?_, ?_, ?_, ?_, ?_, hI.between⟩
  · exact congrArg List.length hwaiting
  · have hissued := hI.issued
    rw [hun] at hissued
    refine hissued.trans ?_
    show _ = (s.answered ++ [(cmd, code)]).map Prod.fst ++ s.toUsernat
    rw [List.map_append, List.append_assoc]
    rfl
  · show ConfProfile.codes (s.sent ++ [.resp code]) = (s.answered ++ [(cmd, code)]).map Prod.snd
    rw [codes_append, hI.codes, List.map_append]
    rfl
  · have hreturned := hI.returned
    rw [hcodes, List.map_nil, List.append_nil] at hreturned
    show s.returned ++ (ConfProfile.codes (s.toJava ++ [.resp code])).map _ =
      (s.answered ++ [(cmd, code)]).map _
    rw [hcodes', hreturned, List.map_append]
    rfl
  · show ConfProfile.reports (s.sent ++ [.resp code]) =
      s.reported ++ s.pendingReports ++ ConfProfile.reports (s.toJava ++ [.resp code])
    rw [reports_append, reports_append, hI.reports, List.append_assoc]
  · intro hfirst
    obtain ⟨hnone, hreports, hblock⟩ := hI.first hfirst
    refine ⟨hnone, ?_, hblock⟩
    show ConfProfile.reports (s.sent ++ [.resp code]) = []
    rw [reports_append, hreports]
    rfl

theorem ctrlStep_inv (hI : CtrlInv s) (h : ctrlStep s a = some s') : CtrlInv s' := by
  have hsync := hI.sync
  cases ctrlStep_cases h with
  | @write relay cmd cmds hpc =>
    obtain ⟨hun, hcodes⟩ := hsync.idle (by rw [hpc]; rfl)
    have hpush : CtrlSys.unanswered { s with
        toUsernat := s.toUsernat ++ [cmd]
        issued := s.issued ++ [cmd]
        java := .call relay cmd cmds } = s.unanswered ++ [cmd] := by
      unfold CtrlSys.unanswered
      dsimp only
      cases s.main <;> rfl
    rw [hun, List.nil_append] at hpush
    refine ⟨hI.running, Or.inl ⟨hpush, hcodes⟩, ?_, hI.codes, hI.returned, hI.reports, ?_,
      False.elim⟩
    · rw [hpush]
      have hissued := hI.issued
      rw [hun, List.append_nil] at hissued
      exact congrArg (· ++ [cmd]) hissued
    · intro hfirst
      have hold := hI.first
      rw [hpc] at hold
      exact hold hfirst
  | @readReport relay cmd cmds pid toJava hpc hmsg =>
    refine hI.read hmsg rfl ?_ (by rw [hpc]; exact id)
    rw [hmsg, List.append_assoc]
    rfl
  | @readResp relay cmd cmds code toJava hpc hmsg =>
    have hcodes : codes s.toJava = code :: codes toJava := by rw [hmsg]; rfl
    obtain ⟨hun, hrest⟩ := hsync.answered hcodes
    refine ⟨hI.running, Or.inl ⟨hun, hrest⟩, hI.issued, hI.codes, ?_, ?_, ?_, False.elim⟩
    · have hreturned := hI.returned
      rw [hcodes] at hreturned
      refine Eq.trans ?_ hreturned
      exact (List.append_assoc ..)
    · have hreports := hI.reports
      rwa [hmsg, reports_cons_none _ rfl] at hreports
    · intro hfirst
      have hold := hI.first
      rw [hpc] at hold
      obtain ⟨hchildren, hnone, hblock⟩ := hold hfirst
      exact ⟨hchildren, hnone, fun c hc => hblock c (List.mem_cons_of_mem _ hc)⟩
  | @readOther relay cmd cmds m toJava hpc hmsg hcode hreport =>
    refine hI.read hmsg hcode ?_ (by rw [hpc]; exact id)
    rw [hmsg, reports_cons_none _ hreport]
  | finishFirst hpc =>
    have hold := hI.first
    rw [hpc] at hold
    obtain ⟨_, hnone, _⟩ := hold rfl
    have hreports := hI.reports
    rw [hnone] at hreports
    have hpending : s.pendingReports = [] :=
      (List.append_eq_nil_iff.mp (List.append_eq_nil_iff.mp hreports.symm).1).2
    exact hI.idle (by rw [hpc]; rfl) rfl rfl rfl id fun _ => hpending
  | finishRelay hpc =>
    refine hI.idle (by rw [hpc]; rfl) rfl ?_ rfl id fun _ => rfl
    exact congrArg (· ++ reports s.toJava) (List.append_nil _)
  | clear hpc =>
    have hpending := hI.between (by rw [hpc]; trivial)
    refine hI.idle (by rw [hpc]; rfl) rfl ?_ rfl id fun _ => rfl
    rw [hpending]
  | queueEmpty hpc =>
    exact hI.idle (by rw [hpc]; rfl) rfl rfl rfl id fun _ => hI.between (by rw [hpc]; trivial)
  | queue hpc dstAddr dstPort =>
    exact hI.idle (by rw [hpc]; rfl) rfl rfl rfl (fun h => by cases h) False.elim
  | @availableReport pid toJava hpc hmsg =>
    refine hI.idle (by rw [hpc]; rfl) ?_ ?_ rfl id fun _ => rfl
    · rw [hmsg, codes_cons_none _ rfl]
    · rw [hmsg]
      show s.reported ++ (s.pendingReports ++ [_]) ++ [] ++ reports toJava =
        s.reported ++ s.pendingReports ++ (_ :: reports toJava)
      simp only [List.append_assoc, List.cons_append, List.nil_append]
  | @availableOther m toJava hpc hmsg hreport =>
    obtain ⟨hun, hcodes⟩ := hsync.idle (by rw [hpc]; rfl)
    -- no response comes while none is waited for
    have hcode : m.code? = none := by
      rw [hmsg] at hcodes
      cases hm : m.code? with
      | none => rfl
      | some code =>
        have hcons : codes (m :: toJava) = code :: codes toJava := List.filterMap_cons_some hm
        rw [hcons] at hcodes
        cases hcodes
    refine hI.idle (by rw [hpc]; rfl) ?_ ?_ rfl id fun _ => rfl
    · rw [hmsg, codes_cons_none _ hcode]
      rfl
    · rw [hmsg, reports_cons_none _ hreport]
      exact congrArg (· ++ reports toJava) (List.append_nil _)
  | availableNot hpc hmsg =>
    refine hI.idle (by rw [hpc]; rfl) rfl ?_ rfl id fun _ => rfl
    exact congrArg (· ++ reports s.toJava) (List.append_nil _)
  | @recv cmd toUsernat fork hpc hcmd code children hchildren =>
    have hun : s.unanswered = cmd :: toUsernat := by
      unfold CtrlSys.unanswered
      rw [hpc, hcmd]
    refine ⟨MainPc.noConfusion, ?_, ?_, hI.codes, hI.returned, hI.reports, ?_, hI.between⟩
    · unfold CtrlSys.Sync at hsync ⊢
      rwa [hun] at hsync
    · have hissued := hI.issued
      rwa [hun] at hissued
    · intro hfirst
      obtain ⟨hnone, hreports, hblock⟩ := hI.first hfirst
      refine ⟨?_, hreports, hblock⟩
      rcases hchildren with rfl | ⟨dstAddr, dstPort, rfl⟩
      · exact hnone
      · -- the first command is none that forks
        have hwaiting := (hsync.asked hun).1
        have hsocat :=
          hblock _ (waiting_subset s.java _ (by rw [hwaiting]; exact List.mem_cons_self))
        cases hsocat
  | answer hpc => exact hI.answer hpc
  | ping hpc => exact hI.send s.children rfl fun hfirst => ⟨rfl, (hI.first hfirst).1⟩
  | log text => exact hI.send s.children rfl fun hfirst => ⟨rfl, (hI.first hfirst).1⟩
  | @sigchld pid hpid =>
    refine hI.send (s.children.erase pid) rfl fun hfirst => ?_
    rw [(hI.first hfirst).1] at hpid
    cases hpid

/-! ## What the two sides come to on their own

Without new requests, and without pings, log messages and ends of children, each step leaves less
to do, and there is one as long as something is left. -/

/-- The commands of the block that are not written yet. -/
def RunPc.unissued : RunPc → List RunCmd
  | .write _ cmds | .call _ _ cmds => cmds
  | _ => []

/-- Steps that nothing from outside takes part in, apart from what `fork` gives. -/
def CtrlAct.Own : CtrlAct → Prop
  | .queue (some _) | .ping | .log _ | .sigchld _ => False
  | .write | .read | .finish | .clear | .queue none | .available | .recv _ | .answer => True

/-- In `t` everything is done that was left to do in `s`: the block is issued to its end, each
command is answered and each answer is returned, and each report is recorded. -/
structure CtrlSys.Settled (s t : CtrlSys) : Prop where
  between : t.java.Between
  unanswered : t.unanswered = []
  waiting : t.java.waiting = []
  toJava : t.toJava = []
  pendingReports : t.pendingReports = []
  issued : t.issued = s.issued ++ s.java.unissued
  answered : t.answered.map Prod.fst = t.issued
  returned : t.returned = t.answered.map fun a => some (decimal a.2)
  reported : t.reported = reports s.sent

/-- What holds on the way from `s` to where everything is done. -/
structure CtrlSys.Behind (s t : CtrlSys) : Prop where
  inv : CtrlInv t
  running : t.java ≠ .ended
  issued : t.issued ++ t.java.unissued = s.issued ++ s.java.unissued
  reports : reports t.sent = reports s.sent

def RunPc.work : RunPc → ℕ
  | .write _ cmds => 3 + 8 * cmds.length
  | .call _ _ cmds => 4 + 8 * cmds.length
  | .top => 2
  | .queue => 1
  | .available | .ended => 0

def MainPc.work : MainPc → ℕ
  | .answer _ _ => 5
  | .poll | .exited => 0

/-- A command is worth more than what comes of it: it is received, answered and read. A message
is worth a round of the loop. -/
def CtrlSys.work (s : CtrlSys) : ℕ :=
  s.java.work + 6 * s.toUsernat.length + s.main.work + 4 * s.toJava.length

theorem ctrlStep_running (h : ctrlStep s a = some s') (hrunning : s.java ≠ .ended) :
    s'.java ≠ .ended := by
  cases ctrlStep_cases h with
  | write | readResp | finishFirst | finishRelay | clear | queueEmpty | queue | availableReport
  | availableOther | availableNot => exact RunPc.noConfusion
  | readReport | readOther | recv | answer | ping | log | sigchld => exact hrunning

theorem CtrlSys.Behind.step {t t' : CtrlSys} (h : s.Behind t) (ha : a.Own)
    (hstep : ctrlStep t a = some t') : s.Behind t' := by
  refine ⟨ctrlStep_inv h.inv hstep, ctrlStep_running hstep h.running, ?_, ?_⟩
  · refine Eq.trans ?_ h.issued
    cases ctrlStep_cases hstep with
    | @write relay cmd cmds hpc =>
      rw [hpc]
      exact List.append_assoc ..
    | readResp hpc | finishFirst hpc | finishRelay hpc | clear hpc | queueEmpty hpc
    | availableReport hpc | availableOther hpc | availableNot hpc =>
      rw [hpc]
      rfl
    | readReport | readOther | recv | answer => rfl
    | queue | ping | log | sigchld => exact False.elim ha
  · refine Eq.trans ?_ h.reports
    cases ctrlStep_cases hstep with
    | @answer cmd code hpc =>
      show ConfProfile.reports (t.sent ++ [.resp code]) = _
      rw [reports_append]
      exact List.append_nil _
    | queue | ping | log | sigchld => exact False.elim ha
    | _ => rfl

end steps

end ConfProfile
