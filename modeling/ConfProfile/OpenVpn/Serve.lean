import ConfProfile.OpenVpn.Management
import ConfProfile.OpenVpn.Reads

/-!
# Serving the management interface (`OpenVpnTunnel.run`)

Behind `accept` the thread of the tunnel reads the management socket and serves the lines of what
it has read, until something ends its loop: an unchecked exception of a handler, the end of the
stream, where `run` returns, or an `IOException`, behind which `run` comes to its last
`terminateConnection`.

`processCommand_returns` says for which lines the handlers return, one at a time and one after the
other, for which reads the thread keeps serving, and when it comes to `terminateConnection`.
-/

namespace ConfProfile.OpenVpn

open Fields Utf8

variable {R : Type} (P : Platform R) (digit : Char → Option Nat) (s : Session)

/-! ## The loop of `run` -/

/-- The lines one after the other. -/
def serve (commands : List (List Char)) : Except Unchecked Session :=
  commands.foldlM (processCommand P digit) s

/-- What `read` of the management socket does. -/
inductive SocketRead where
  /-- the bytes, and the descriptors that come with them -/
  | data (buffer : List Byte) (fds : List Nat)
  /-- it gives -1 -/
  | endOfStream
  /-- it throws; the message may be null -/
  | ioException (message : Option String)

/-- Where `run` is behind some reads. -/
inductive RunAt where
  | reading (s : Session) (pendingInput : List Char)
  /-- it has returned at the end of the stream -/
  | returned
  /-- in front of the last `terminateConnection` -/
  | terminateConnection

/-- The loop of `run`. The message of an `IOException` is compared. -/
def runLoop (s : Session) (pendingInput : List Char) : List SocketRead → Except Unchecked RunAt
  | [] => .ok (.reading s pendingInput)
  | .endOfStream :: _ => .ok .returned
  | .ioException none :: _ => .error .nullPointer
  | .ioException (some _) :: _ => .ok .terminateConnection
  | .data buffer fds :: reads => do
    let r := processInput (pendingInput ++ decode buffer)
    let s ← serve P digit { s with fds := s.fds ++ fds } r.1
    runLoop s r.2 reads

/-! ## What is served -/

/-- Each of the lines has the form of its kind where it is served. -/
def AllServed (commands : List (List Char)) : Prop :=
  ∀ before command after s', commands = before ++ command :: after →
    serve P digit s before = .ok s' → Served P digit s' command

/-- The read gives data, and each of the lines that are served then has the form of its kind. -/
def SocketRead.Served (pendingInput : List Char) : SocketRead → Prop
  | .data buffer fds => AllServed P digit { s with fds := s.fds ++ fds }
      (processInput (pendingInput ++ decode buffer)).1
  | .endOfStream | .ioException _ => False

/-- `run` is about to read the socket again. -/
def KeepsServing (pendingInput : List Char) (reads : List SocketRead) : Prop :=
  ∃ s' pendingInput', runLoop P digit s pendingInput reads = .ok (.reading s' pendingInput')

variable {P digit s} {pendingInput : List Char} {read : SocketRead} {reads : List SocketRead}

theorem returns_serve (s : Session) (commands : List (List Char)) :
    Returns (serve P digit s commands) ↔ AllServed P digit s commands := by
  induction commands generalizing s with
  | nil => exact iff_of_true (returns_ok s) fun before command after s' heq => by simp at heq
  | cons command commands ih =>
    rw [serve, List.foldlM_cons, returns_bind]
    constructor
    · intro h before command' after s' heq hbefore
      obtain ⟨s₁, hs₁, h⟩ := h
      cases before with
      | nil =>
        cases hbefore
        cases heq
        exact (returns_processCommand _).mp ⟨s₁, hs₁⟩
      | cons command'' before =>
        cases heq
        rw [serve, List.foldlM_cons, bind_eq_ok] at hbefore
        obtain ⟨s₂, hs₂, hbefore⟩ := hbefore
        cases hs₁.symm.trans hs₂
        exact (ih s₁).mp h before command' after s' rfl hbefore
    · intro h
      obtain ⟨s₁, hs₁⟩ := (returns_processCommand command).mpr
        (h [] command commands s rfl rfl)
      refine ⟨s₁, hs₁, (ih s₁).mpr fun before command' after s' heq hbefore => ?_⟩
      refine h (command :: before) command' after s' (congrArg _ heq) ?_
      rw [serve, List.foldlM_cons, bind_eq_ok]
      exact ⟨s₁, hs₁, hbefore⟩

/-- The loop goes on behind a read that gives data, once its lines are served. -/
theorem runLoop_data {buffer : List Byte} {fds : List Nat} {place : RunAt} :
    runLoop P digit s pendingInput (.data buffer fds :: reads) = .ok place ↔
      ∃ s', serve P digit { s with fds := s.fds ++ fds }
          (processInput (pendingInput ++ decode buffer)).1 = .ok s' ∧
        runLoop P digit s' (processInput (pendingInput ++ decode buffer)).2 reads = .ok place := by
  rw [runLoop]
  exact bind_eq_ok

/-- A first read that leaves the loop where it can go on. -/
theorem runLoop_cons {s₁ : Session} {pendingInput₁ : List Char}
    (h : runLoop P digit s pendingInput [read] = .ok (.reading s₁ pendingInput₁))
    (reads : List SocketRead) :
    runLoop P digit s pendingInput (read :: reads) = runLoop P digit s₁ pendingInput₁ reads := by
  cases read with
  | data buffer fds =>
    obtain ⟨s', hserve, hreading⟩ := runLoop_data.mp h
    cases hreading
    rw [runLoop, hserve]
    rfl
  | endOfStream => cases h
  | ioException message => cases message <;> cases h

theorem keepsServing_singleton : KeepsServing P digit s pendingInput [read] ↔
    read.Served P digit s pendingInput := by
  cases read with
  | data buffer fds =>
    simp only [KeepsServing, runLoop_data, SocketRead.Served, ← returns_serve]
    constructor
    · intro h
      obtain ⟨_, _, s', hserve, -⟩ := h
      exact ⟨s', hserve⟩
    · intro h
      obtain ⟨s', hserve⟩ := h
      exact ⟨s', _, s', hserve, rfl⟩
  | endOfStream =>
    refine iff_of_false (fun h => ?_) id
    obtain ⟨s', pendingInput', h⟩ := h
    cases h
  | ioException message =>
    refine iff_of_false (fun h => ?_) id
    obtain ⟨s', pendingInput', h⟩ := h
    cases message <;> cases h

theorem keepsServing_cons : KeepsServing P digit s pendingInput (read :: reads) ↔
    ∃ s₁ pendingInput₁, runLoop P digit s pendingInput [read] = .ok (.reading s₁ pendingInput₁) ∧
      KeepsServing P digit s₁ pendingInput₁ reads := by
  constructor
  · intro h
    obtain ⟨s', pendingInput', h⟩ := h
    cases read with
    | data buffer fds =>
      obtain ⟨s₁, hserve, hrest⟩ := runLoop_data.mp h
      exact ⟨s₁, _, runLoop_data.mpr ⟨s₁, hserve, rfl⟩, s', pendingInput', hrest⟩
    | endOfStream => cases h
    | ioException message => cases message <;> cases h
  · intro h
    obtain ⟨s₁, pendingInput₁, hread, s', pendingInput', hrest⟩ := h
    exact ⟨s', pendingInput', (runLoop_cons hread reads).trans hrest⟩

theorem keepsServing_iff (s : Session) (pendingInput : List Char) (reads : List SocketRead) :
    KeepsServing P digit s pendingInput reads ↔ ∀ before read after s' pendingInput',
      reads = before ++ read :: after →
        runLoop P digit s pendingInput before = .ok (.reading s' pendingInput') →
          read.Served P digit s' pendingInput' := by
  induction reads generalizing s pendingInput with
  | nil =>
    refine iff_of_true ⟨s, pendingInput, rfl⟩ fun before read after s' pendingInput' heq => ?_
    simp at heq
  | cons read reads ih =>
    rw [keepsServing_cons]
    constructor
    · intro h before read' after s' pendingInput' heq hbefore
      obtain ⟨s₁, pendingInput₁, hread, hkeeps⟩ := h
      cases before with
      | nil =>
        cases heq
        cases hbefore
        exact keepsServing_singleton.mp ⟨s₁, pendingInput₁, hread⟩
      | cons read'' before =>
        cases heq
        rw [runLoop_cons hread] at hbefore
        exact (ih s₁ pendingInput₁).mp hkeeps before read' after s' pendingInput' rfl hbefore
    · intro h
      obtain ⟨s₁, pendingInput₁, hread⟩ := keepsServing_singleton.mpr
        (h [] read reads s pendingInput rfl rfl)
      refine ⟨s₁, pendingInput₁, hread, (ih s₁ pendingInput₁).mpr ?_⟩
      intro before read' after s' pendingInput' heq hbefore
      refine h (read :: before) read' after s' pendingInput' (congrArg _ heq) ?_
      rw [runLoop_cons hread]
      exact hbefore

/-- Only an `IOException` with a message brings `run` to its end. -/
theorem runLoop_terminateConnection (s : Session) (pendingInput : List Char)
    (reads : List SocketRead) :
    runLoop P digit s pendingInput reads = .ok .terminateConnection ↔
      ∃ front message back, reads = front ++ .ioException (some message) :: back ∧
        KeepsServing P digit s pendingInput front := by
  induction reads generalizing s pendingInput with
  | nil =>
    refine iff_of_false (fun h => ?_) fun h => ?_
    · cases h
    · obtain ⟨front, message, back, heq, -⟩ := h
      simp at heq
  | cons read reads ih =>
    constructor
    · intro h
      cases read with
      | data buffer fds =>
        obtain ⟨s₁, hserve, hrest⟩ := runLoop_data.mp h
        obtain ⟨front, message, back, rfl, hkeeps⟩ := (ih s₁ _).mp hrest
        exact ⟨.data buffer fds :: front, message, back, rfl,
          keepsServing_cons.mpr ⟨s₁, _, runLoop_data.mpr ⟨s₁, hserve, rfl⟩, hkeeps⟩⟩
      | endOfStream => cases h
      | ioException message =>
        cases message with
        | none => cases h
        | some message => exact ⟨[], message, reads, rfl, s, pendingInput, rfl⟩
    · intro h
      obtain ⟨front, message, back, heq, hkeeps⟩ := h
      cases front with
      | nil =>
        cases heq
        rfl
      | cons read' front =>
        cases heq
        obtain ⟨s₁, pendingInput₁, hread, hkeeps⟩ := keepsServing_cons.mp hkeeps
        rw [runLoop_cons hread]
        exact (ih s₁ pendingInput₁).mpr ⟨front, message, back, rfl, hkeeps⟩

/-- The handlers return for a line if and only if it has the form of its kind, and for lines
one after the other if and only if each of them has it where it is served. So the thread keeps
serving if and only if the reads give data whose lines have it, and it comes to its last
`terminateConnection` if and only if, after that, a read throws an `IOException` with a message. -/
theorem processCommand_returns (P : Platform R) (digit : Char → Option Nat) (s : Session) :
    (∀ command, Returns (processCommand P digit s command) ↔ Served P digit s command) ∧
    (∀ commands, Returns (serve P digit s commands) ↔ ∀ before command after s',
      commands = before ++ command :: after → serve P digit s before = .ok s' →
        Served P digit s' command) ∧
    ∀ pendingInput reads,
      (KeepsServing P digit s pendingInput reads ↔ ∀ before read after s' pendingInput',
        reads = before ++ read :: after →
          runLoop P digit s pendingInput before = .ok (.reading s' pendingInput') →
            read.Served P digit s' pendingInput') ∧
      (runLoop P digit s pendingInput reads = .ok .terminateConnection ↔
        ∃ front message back, reads = front ++ .ioException (some message) :: back ∧
          KeepsServing P digit s pendingInput front) :=
  ⟨returns_processCommand, returns_serve s, fun pendingInput reads =>
    ⟨keepsServing_iff s pendingInput reads, runLoop_terminateConnection s pendingInput reads⟩⟩

/-- The session of a new tunnel. -/
def newSession : Session where
  username := .null
  sent := []
  fds := []
  protectedFds := []
  sendsFd := true
  releaseHold := true
  waitingForRelease := false
  status := .connecting
  authFailed := false
  bytesIn := 0
  bytesOut := 0
  dns := []
  localAddress := none
  masqueradeIp4 := none
  routes := []
  routerLoop := true
  ntfDelegate := true

/-- A log message without its fields ends the thread, and at the end of the stream `run` returns in
front of `terminateConnection`. -/
theorem log_without_fields :
    ¬ Returns (processCommand smallPlatform asciiDigit newSession ['>', 'L', 'O', 'G', ':', 'x']) ∧
      runLoop smallPlatform asciiDigit newSession [] [.endOfStream] = .ok .returned := by
  have hcut : CutAt ':' ['>', 'L', 'O', 'G', ':', 'x'] ['>', 'L', 'O', 'G'] ['x'] :=
    ⟨rfl, by decide⟩
  have hlog : messageOf ['L', 'O', 'G'] = .log := by decide
  refine ⟨?_, rfl⟩
  rw [processCommand_of_message hcut rfl, List.tail_cons, hlog]
  intro h
  obtain ⟨time, rest, -, -, -, -, hfirst, -⟩ :=
    (processLogMessage_returns (P := smallPlatform)).mp h
  have hcomma : ',' ∈ ['x'] := by
    rw [hfirst.eq]
    simp
  exact absurd hcomma (by decide)

end ConfProfile.OpenVpn
