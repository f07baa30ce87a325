import ConfProfile.Lib.Run
import ConfProfile.Usernat.Control

/-!
# Relay processes that exit (`sigchld_handler`)

A process that exits stays until `waitpid` takes it, and makes `SIGCHLD` pending. A signal that
is pending already stays one signal, however many processes exit before it is delivered: while
`main` has it blocked, or the handler runs. The handler calls `waitpid` once, and sends a message
for what that gives.

So every process is reaped and reported if there is a handler call for each. One that exits while
the signal of another one is pending has none, and there is always one process left from then on
(`reported_iff`).
-/

namespace ConfProfile

open Run

/-- Where `sigchld_handler` is. -/
inductive SigPc where
  /-- It does not run. -/
  | out
  /-- in front of `waitpid` -/
  | waitpid
  /-- in front of `send_cmd`, with what `waitpid` gave -/
  | sendCmd (pid : Nat)
  deriving DecidableEq, Repr

/-- The processes that have exited and have not been reaped, the signal, and the messages. -/
structure SigState where
  zombies : List Nat
  pending : Bool
  /-- `main` is between the two `sigprocmask` of a send or a receive. -/
  blocked : Bool
  pc : SigPc
  sent : List UsernatMsg
  /-- Every process that has ever exited. -/
  exited : List Nat
  deriving DecidableEq, Repr

def sigInit : SigState := ⟨[], false, false, .out, [], []⟩

inductive SigAct where
  | exit (pid : Nat)
  /-- `sigprocmask` of `main` -/
  | block
  | unblock
  /-- The kernel calls the handler. -/
  | deliver
  /-- what `waitpid` gives, `none` if there is nobody to reap -/
  | waitpid (pid : Option Nat)
  /-- the rest of the handler; whether `malloc` gives a buffer in `send_cmd` -/
  | send (malloc : Bool)
  deriving DecidableEq, Repr

/-- The number of calls of the handler that are still to come to `waitpid`. -/
def SigState.calls (s : SigState) : Nat := s.pending.toNat + if s.pc = .waitpid then 1 else 0

/-- What has been reaped and is not yet reported. -/
def SigPc.current : SigPc → List Nat
  | .sendCmd pid => [pid]
  | _ => []

def sigStep (s : SigState) : SigAct → Option SigState
  | .exit pid =>
    if 0 < pid ∧ pid ∉ s.zombies then
      some { s with zombies := s.zombies ++ [pid], pending := true, exited := s.exited ++ [pid] }
    else none
  | .block => some { s with blocked := true }
  | .unblock => some { s with blocked := false }
  | .deliver =>
    -- the signal is blocked while its handler runs
    if s.pending ∧ ¬ s.blocked ∧ s.pc = .out then some { s with pending := false, pc := .waitpid }
    else none
  | .waitpid none => if s.pc = .waitpid ∧ s.zombies = [] then some { s with pc := .out } else none
  | .waitpid (some pid) =>
    if s.pc = .waitpid ∧ pid ∈ s.zombies then
      some { s with zombies := s.zombies.erase pid, pc := .sendCmd pid }
    else none
  | .send malloc =>
    match s.pc with
    | .sendCmd pid =>
      some { s with pc := .out, sent := s.sent ++ if malloc then [.terminated pid] else [] }
    | _ => none

/-- The last call of the handler has run. -/
def SigState.Quiet (s : SigState) : Prop := s.pending = false ∧ s.pc = .out

/-- Every process that exited has been reaped, and reported once. -/
def SigState.Reported (s : SigState) : Prop :=
  s.zombies = [] ∧ s.sent.Perm (s.exited.map .terminated)

/-- A process exits while no signal is pending, and `send_cmd` gets its buffer. -/
def Alone (s : SigState) : SigAct → Prop
  | .exit _ => s.pending = false
  | .send malloc => malloc = true
  | _ => True

instance (s : SigState) : ∀ a, Decidable (Alone s a)
  | .exit _ => inferInstanceAs (Decidable (s.pending = false))
  | .send malloc => inferInstanceAs (Decidable (malloc = true))
  | .block | .unblock | .deliver | .waitpid _ => isTrue trivial

/-- There is one call of the handler for every process that is to be reaped; and every process
that exited is to be reaped or to be reported, or has been reported. -/
structure SigState.Counted (s : SigState) : Prop where
  calls : s.zombies.length = s.calls
  accounted : ∃ reported : List Nat, s.sent = reported.map UsernatMsg.terminated ∧
    (reported ++ (s.pc.current ++ s.zombies)).Perm s.exited

/-- There are more processes to be reaped than calls of the handler, or a report is lost. -/
def SigState.Short (s : SigState) : Prop :=
  s.calls < s.zombies.length ∨
    s.sent.length + s.pc.current.length + s.zombies.length < s.exited.length

/-- The actions that return, and what they leave. -/
inductive SigStep (s : SigState) : SigAct → SigState → Prop
  | exit {pid : Nat} : SigStep s (.exit pid)
      { s with zombies := s.zombies ++ [pid], pending := true, exited := s.exited ++ [pid] }
  | mask {a : SigAct} {blocked : Bool} (ha : a = .block ∨ a = .unblock) :
      SigStep s a { s with blocked := blocked }
  | deliver (hpending : s.pending = true) (hpc : s.pc = .out) :
      SigStep s .deliver { s with pending := false, pc := .waitpid }
  | nobody (hpc : s.pc = .waitpid) (hnil : s.zombies = []) :
      SigStep s (.waitpid none) { s with pc := .out }
  | reap {pid : Nat} (hpc : s.pc = .waitpid) (hpid : pid ∈ s.zombies) :
      SigStep s (.waitpid (some pid)) { s with zombies := s.zombies.erase pid, pc := .sendCmd pid }
  | send {pid : Nat} (hpc : s.pc = .sendCmd pid) :
      SigStep s (.send true) { s with pc := .out, sent := s.sent ++ [.terminated pid] }
  | lost {pid : Nat} (hpc : s.pc = .sendCmd pid) : SigStep s (.send false) { s with pc := .out }

theorem sigStep_cases {s s' : SigState} {a : SigAct} (h : sigStep s a = some s') :
    SigStep s a s' := by
  unfold sigStep at h
  split at h
  next pid =>
    split at h
    next => exact Option.some.inj h ▸ .exit
    next => cases h
  next => exact Option.some.inj h ▸ .mask (Or.inl rfl)
  next => exact Option.some.inj h ▸ .mask (Or.inr rfl)
  next =>
    split at h
    next hif => exact Option.some.inj h ▸ .deliver hif.1 hif.2.2
    next => cases h
  next =>
    split at h
    next hif => exact Option.some.inj h ▸ .nobody hif.1 hif.2
    next => cases h
  next pid =>
    split at h
    next hif => exact Option.some.inj h ▸ .reap hif.1 hif.2
    next => cases h
  next malloc =>
    split at h
    next pid hpc =>
      obtain rfl := Option.some.inj h
      cases malloc with
      | true => exact .send hpc
      | false =>
        rw [if_neg Bool.false_ne_true, List.append_nil]
        exact .lost hpc
    next => cases h

theorem counted_step {s s' : SigState} {a : SigAct} (hs : s.Counted) (ha : Alone s a)
    (h : sigStep s a = some s') : s'.Counted := by
  obtain ⟨hcalls, reported, hsent, hperm⟩ := hs
  unfold SigState.calls at hcalls
  cases sigStep_cases h with
  | @exit pid =>
    have hpending : s.pending = false := ha
    refine ⟨?_, reported, hsent, ?_⟩
    · simp only [SigState.calls, List.length_append, List.length_singleton, Bool.toNat_true]
      rw [hcalls, hpending, Bool.toNat_false]
      omega
    · have hmore := hperm.append_right [pid]
      rwa [List.append_assoc, List.append_assoc] at hmore
  | mask ha => exact ⟨hcalls, reported, hsent, hperm⟩
  | deliver hpending hpc =>
    rw [hpending, hpc] at hcalls
    rw [hpc] at hperm
    exact ⟨hcalls, reported, hsent, hperm⟩
  | nobody hpc hnil =>
    rw [hnil, hpc, if_pos rfl] at hcalls
    cases hcalls
  | @reap pid hpc hpid =>
    rw [hpc] at hcalls hperm
    have hlength := List.length_erase_of_mem hpid
    refine ⟨?_, reported, hsent, ?_⟩
    · simp only [SigState.calls, hlength]
      rw [hcalls, if_pos rfl, if_neg nofun]
      omega
    · exact ((List.perm_cons_erase hpid).symm.append_left reported).trans hperm
  | @send pid hpc =>
    rw [hpc] at hcalls hperm
    refine ⟨hcalls, reported ++ [pid], ?_, ?_⟩
    · rw [hsent, List.map_append, List.map_singleton]
    · rw [List.append_assoc]
      exact hperm
  | lost hpc => exact absurd ha Bool.false_ne_true

/-- A process that exits while the signal is pending gets no call of the handler. -/
theorem short_of_not_alone {s s' : SigState} {a : SigAct} (hs : s.Counted) (ha : ¬ Alone s a)
    (h : sigStep s a = some s') : s'.Short := by
  obtain ⟨hcalls, reported, hsent, hperm⟩ := hs
  unfold SigState.calls at hcalls
  cases sigStep_cases h with
  | exit =>
    have hpending : s.pending = true := by
      rw [← Bool.not_eq_false]
      exact ha
    rw [hpending] at hcalls
    refine Or.inl ?_
    simp only [SigState.calls, List.length_append, List.length_singleton]
    omega
  | @lost pid hpc =>
    have hlength := hperm.length_eq
    rw [hpc] at hlength
    simp only [List.length_append, SigPc.current, List.length_singleton] at hlength
    refine Or.inr ?_
    simp only [hsent, List.length_map, SigPc.current, List.length_nil]
    omega
  | mask hmask =>
    clear h
    rcases hmask with rfl | rfl <;> exact absurd trivial ha
  | send => exact absurd rfl ha
  | deliver | nobody | reap => exact absurd trivial ha

/-- What is missing stays missing. -/
theorem short_step {s s' : SigState} {a : SigAct} (hs : s.Short) (h : sigStep s a = some s') :
    s'.Short := by
  unfold SigState.Short SigState.calls at hs
  unfold SigState.Short SigState.calls
  cases sigStep_cases h with
  | exit =>
    simp only [List.length_append, List.length_singleton, Bool.toNat_true]
    have hbit := Bool.toNat_le s.pending
    omega
  | mask => exact hs
  | deliver hpending hpc =>
    rw [hpending, hpc] at hs
    exact hs
  | nobody hpc hnil =>
    rw [hnil, hpc] at hs
    simp only [hnil]
    rcases hs with hmore | hlost
    · exact absurd hmore (Nat.not_lt_zero _)
    · exact Or.inr hlost
  | reap hpc hpid =>
    rw [hpc] at hs
    have hlength := List.length_erase_of_mem hpid
    have hpos := List.length_pos_of_mem hpid
    simp only [hlength, SigPc.current, List.length_nil, List.length_singleton, if_true] at hs ⊢
    rw [if_neg nofun]
    omega
  | send hpc =>
    rw [hpc] at hs
    simp only [List.length_append, SigPc.current, List.length_nil, List.length_singleton] at hs ⊢
    exact hs
  | lost hpc =>
    rw [hpc] at hs
    simp only [SigPc.current, List.length_nil, List.length_singleton] at hs ⊢
    refine hs.imp id ?_
    omega

/-- For every order of exits, deliveries and what `waitpid` chooses: when no signal is pending
and the handler does not run, all that exited is reaped and reported exactly if nothing exited
while a signal was pending, and no buffer was missing. -/
theorem reported_iff (acts : List SigAct) {s : SigState} (hrun : run sigStep sigInit acts = some s)
    (hquiet : s.Quiet) : s.Reported ↔ Guarded sigStep Alone sigInit acts := by
  have hinit : sigInit.Counted := ⟨rfl, [], rfl, List.Perm.refl _⟩
  have hcalls : s.calls = 0 := by
    rw [SigState.calls, hquiet.1, hquiet.2]
    rfl
  refine end_iff_guarded (fun _ _ _ => counted_step) (fun _ _ _ => short_of_not_alone)
    (fun _ _ _ => short_step) acts hinit hrun ?_ ?_
  · intro hcounted
    obtain ⟨hlength, reported, hsent, hperm⟩ := hcounted
    have hnil : s.zombies = [] := List.eq_nil_of_length_eq_zero (hlength.trans hcalls)
    have hall : reported.Perm s.exited := by
      simpa [hquiet.2, hnil, SigPc.current] using hperm
    exact ⟨hnil, hsent ▸ hall.map _⟩
  · intro hshort hreported
    obtain ⟨hnil, hperm⟩ := hreported
    have hlength := hperm.length_eq
    rw [List.length_map] at hlength
    rcases hshort with hmore | hlost
    · rw [hnil, hcalls] at hmore
      exact absurd hmore (Nat.lt_irrefl 0)
    · rw [hnil, List.length_nil] at hlost
      omega

/-- Two processes, one after the other. -/
def sigRun : List SigAct :=
  [.exit 7, .deliver, .waitpid (some 7), .send true, .exit 8, .deliver, .waitpid (some 8), .send true]

theorem reported_iff_alone : ∃ s, run sigStep sigInit sigRun = some s ∧ s.Quiet ∧ s.Reported := by
  refine ⟨_, rfl, ⟨rfl, rfl⟩, (reported_iff sigRun rfl ⟨rfl, rfl⟩).mpr ?_⟩
  decide

/-- Two processes that exit while `main` receives, and the one call of the handler for both. -/
def sigBurst : List SigAct :=
  [.block, .exit 7, .exit 8, .unblock, .deliver, .waitpid (some 7), .send true]

theorem reported_counterexample : ∃ s, run sigStep sigInit sigBurst = some s ∧ s.Quiet ∧
    s.zombies = [8] ∧ s.sent = [.terminated 7] ∧ ¬ s.Reported := by
  refine ⟨_, rfl, ⟨rfl, rfl⟩, rfl, rfl, ?_⟩
  intro hreported
  obtain ⟨hnil, -⟩ := hreported
  cases hnil

end ConfProfile
