import ConfProfile.Lib.Run
import Mathlib.Data.List.TakeDrop
import Mathlib.Logic.Function.Basic

/-!
# Relaying (`process_socat`)

The loop of a relay process. What is read from one socket is written to the other, by one `write`
whose result is compared with -1 only: what it does not accept is lost. A `read` that gives
nothing, at the end of the stream, is passed over, and the socket is polled again.

So both streams are relayed, and neither is polled behind its end, exactly if every `write`
accepts all it is offered, and a stream ends only where the process does (`relayed_along_iff`).
-/

namespace ConfProfile

open Run

/-- The two sockets: the one of `accept` and `connect_fd`. -/
inductive Sock where
  | accepted
  | connected
  deriving DecidableEq, Repr

def Sock.other : Sock → Sock
  | .accepted => .connected
  | .connected => .accepted

/-- What `poll` says of a socket, and what `read` from it and `write` to the other one then give,
`none` for -1. -/
structure SockEvents where
  pollin : Bool
  pollhup : Bool
  read : Option (List (BitVec 8))
  write : Option Nat
  deriving DecidableEq, Repr

/-- One round of the loop. -/
inductive RelayTurn where
  | pollError
  | timeout
  | events (accepted connected : SockEvents)
  deriving DecidableEq, Repr

/-- Where the process is. -/
inductive RelayPc where
  | loop
  | exited (status : Nat)
  /-- `exit` behind a `write` that gave -1 -/
  | writeFailed (sock : Sock)
  deriving DecidableEq, Repr

/-- The bytes that have been read from a socket and written to it, and whether a `read` has come
to the end of its stream. -/
structure Relay where
  pc : RelayPc
  read : Sock → List (BitVec 8)
  written : Sock → List (BitVec 8)
  ended : Sock → Bool

def relayInit : Relay := ⟨.loop, fun _ => [], fun _ => [], fun _ => false⟩

def exitSuccess : Nat := 0
def exitExecFailed : Nat := 6

/-- One direction in a round: `none` for what the calls cannot give. -/
def Relay.crossover (s : Relay) (sock : Sock) (e : SockEvents) : Option Relay :=
  if e.pollin = false then some s
  else
    match e.read with
    | none => some { s with pc := .exited exitExecFailed }
    | some [] => some { s with ended := Function.update s.ended sock true }
    | some bytes =>
      if 1500 < bytes.length then none
      else
        let s := { s with read := Function.update s.read sock (s.read sock ++ bytes) }
        match e.write with
        | none => some { s with pc := .writeFailed sock.other }
        | some size =>
          if bytes.length < size then none
          else some { s with
            written := Function.update s.written sock.other
              (s.written sock.other ++ bytes.take size) }

/-- A round. `exit` leaves out what follows it. -/
def relayStep (s : Relay) (t : RelayTurn) : Option Relay :=
  if s.pc ≠ .loop then none
  else
    match t with
    | .pollError => some { s with pc := .exited exitExecFailed }
    | .timeout => some s
    | .events e0 e1 => do
      let s ← s.crossover .accepted e0
      if s.pc ≠ .loop then some s
      else do
        let s ← s.crossover .connected e1
        if s.pc ≠ .loop then some s
        else if e0.pollhup then some { s with pc := .exited exitSuccess }
        else if e1.pollhup then some { s with pc := .exited exitSuccess }
        else some s

/-- What was read from a socket has been written to the other one. -/
def Relay.Flows (s : Relay) (sock : Sock) : Prop := s.written sock.other = s.read sock

/-- Both directions have been relayed, one whose `write` failed apart; and a socket whose stream
is at its end is not polled any more. -/
def Relay.Relayed (s : Relay) : Prop :=
  ∀ sock, (s.pc ≠ .writeFailed sock.other → s.Flows sock) ∧ (s.ended sock = true → s.pc ≠ .loop)

/-! ## What a round is to give -/

/-- `write` accepts all that was read, if it accepts anything. -/
def SockEvents.Complete (e : SockEvents) : Prop :=
  e.pollin = true → ∀ bytes size, e.read = some bytes → e.write = some size → bytes.length ≤ size

/-- `read` or `write` fails. -/
def SockEvents.Fails (e : SockEvents) : Prop :=
  e.pollin = true ∧ (e.read = none ∨ e.write = none ∧ e.read ≠ some [])

/-- `read` is at the end of the stream. -/
def SockEvents.EndsStream (e : SockEvents) : Prop := e.pollin = true ∧ e.read = some []

/-- Every `write` of the round accepts what it is offered, and no stream ends unless the process
does. -/
def RelayTurn.Whole : RelayTurn → Prop
  | .pollError | .timeout => True
  | .events e0 e1 =>
    e0.Complete ∧ (¬ e0.Fails → e1.Complete ∧
      (e0.EndsStream ∨ e1.EndsStream → e1.Fails ∨ e0.pollhup = true ∨ e1.pollhup = true))

/-! ## One direction -/

section Crossover

variable {s s' : Relay} {sock : Sock} {e : SockEvents}

@[simp] theorem Sock.other_other (sock : Sock) : sock.other.other = sock := by
  cases sock <;> rfl

theorem Sock.other_ne (sock : Sock) : sock.other ≠ sock := by
  cases sock <;> nofun

/-- What one direction comes to. -/
inductive Crossed (s : Relay) (sock : Sock) (e : SockEvents) : Relay → Prop
  | idle (h : e.pollin = false) : Crossed s sock e s
  | readFailed (h : e.pollin = true) (hread : e.read = none) :
      Crossed s sock e { s with pc := .exited exitExecFailed }
  | ended (h : e.pollin = true) (hread : e.read = some []) :
      Crossed s sock e { s with ended := Function.update s.ended sock true }
  | writeFailed {bytes : List (BitVec 8)} (h : e.pollin = true) (hread : e.read = some bytes)
      (hne : bytes ≠ []) (hwrite : e.write = none) :
      Crossed s sock e { s with
        read := Function.update s.read sock (s.read sock ++ bytes)
        pc := .writeFailed sock.other }
  | wrote {bytes : List (BitVec 8)} {size : Nat} (h : e.pollin = true)
      (hread : e.read = some bytes) (hne : bytes ≠ []) (hwrite : e.write = some size)
      (hsize : size ≤ bytes.length) :
      Crossed s sock e { s with
        read := Function.update s.read sock (s.read sock ++ bytes)
        written := Function.update s.written sock.other
          (s.written sock.other ++ bytes.take size) }

theorem crossover_cases (h : s.crossover sock e = some s') : Crossed s sock e s' := by
  unfold Relay.crossover at h
  split at h
  next hpollin => exact Option.some.inj h ▸ .idle hpollin
  next hpollin =>
    have hpollin : e.pollin = true := eq_true_of_ne_false hpollin
    split at h
    next hread => exact Option.some.inj h ▸ .readFailed hpollin hread
    next hread => exact Option.some.inj h ▸ .ended hpollin hread
    next bytes hne hread =>
      have hne : bytes ≠ [] := hne
      split at h
      next => cases h
      next =>
        dsimp only at h
        split at h
        next hwrite => exact Option.some.inj h ▸ .writeFailed hpollin hread hne hwrite
        next size hwrite =>
          split at h
          next => cases h
          next hsize => exact Option.some.inj h ▸ .wrote hpollin hread hne hwrite (by omega)

theorem Crossed.pc_iff (h : Crossed s sock e s') (hpc : s.pc = .loop) :
    s'.pc = .loop ↔ ¬ e.Fails := by
  unfold SockEvents.Fails
  cases h with
  | idle h => simp [h, hpc]
  | readFailed h hread => simp [h, hread]
  | ended h hread => simp [h, hread, hpc]
  | writeFailed h hread hne hwrite => simp [h, hread, hne, hwrite]
  | wrote h hread hne hwrite => simp [h, hread, hwrite, hpc]

/-- Only the write to the other socket can fail. -/
theorem Crossed.pc_ne (h : Crossed s sock e s') (hpc : s.pc = .loop) : s'.pc ≠ .writeFailed sock := by
  cases h with
  | writeFailed =>
    intro heq
    exact Sock.other_ne sock (RelayPc.writeFailed.inj heq)
  | _ => simp [hpc]

theorem Crossed.ended_iff (h : Crossed s sock e s') (i : Sock) :
    s'.ended i = true ↔ s.ended i = true ∨ i = sock ∧ e.EndsStream := by
  unfold SockEvents.EndsStream
  cases h with
  | idle h => simp [h]
  | readFailed h hread => simp [hread]
  | ended h hread =>
    dsimp only
    rw [Function.update_apply]
    split <;> simp [*]
  | writeFailed h hread hne hwrite => simp [hread, hne]
  | wrote h hread hne hwrite => simp [hread, hne]

/-- The other direction is not touched. -/
theorem Crossed.flows_other (h : Crossed s sock e s') : s'.Flows sock.other ↔ s.Flows sock.other := by
  have hne := Sock.other_ne sock
  unfold Relay.Flows
  rw [Sock.other_other]
  cases h with
  | writeFailed => simp only [Function.update_of_ne hne]
  | wrote => simp only [Function.update_of_ne hne, Function.update_of_ne hne.symm]
  | _ => rfl

/-- A direction goes on to be relayed exactly if the write is complete. -/
theorem Crossed.flows_iff (h : Crossed s sock e s') (hpc : s.pc = .loop) (hs : s.Flows sock) :
    (s'.pc ≠ .writeFailed sock.other → s'.Flows sock) ↔ e.Complete := by
  unfold SockEvents.Complete
  cases h with
  | idle h =>
    exact iff_of_true (fun _ => hs) (fun h' => absurd (h.symm.trans h') Bool.false_ne_true)
  | readFailed h hread => exact iff_of_true (fun _ => hs) (fun _ _ _ hread' => by simp [hread] at hread')
  | ended h hread =>
    refine iff_of_true (fun _ => hs) (fun _ bytes size hread' _ => ?_)
    obtain rfl := Option.some.inj (hread.symm.trans hread')
    exact Nat.zero_le _
  | writeFailed h hread hne hwrite =>
    exact iff_of_true (fun hpc' => absurd rfl hpc') (fun _ _ _ _ hwrite' => by simp [hwrite] at hwrite')
  | @wrote bytes size h hread hne hwrite hsize =>
    unfold Relay.Flows at hs ⊢
    simp only [hpc, Function.update_self, hs, List.append_cancel_left_eq, List.take_eq_self_iff]
    constructor
    · intro hflows _ bytes' size' hread' hwrite'
      obtain rfl := Option.some.inj (hread.symm.trans hread')
      obtain rfl := Option.some.inj (hwrite.symm.trans hwrite')
      exact hflows (by simp)
    · intro hcomplete _
      exact hcomplete h bytes size hread hwrite

end Crossover

/-! ## A round -/

section Step

variable {s u s' : Relay} {e0 e1 : SockEvents}

theorem Relay.Relayed.flows (hs : s.Relayed) (hpc : s.pc = .loop) (sock : Sock) : s.Flows sock :=
  (hs sock).1 (by rw [hpc]; nofun)

theorem Relay.Relayed.not_ended (hs : s.Relayed) (hpc : s.pc = .loop) (sock : Sock) :
    ¬ s.ended sock = true :=
  fun hended => (hs sock).2 hended hpc

theorem relayed_iff : s.Relayed ↔
    ((s.pc ≠ .writeFailed .connected → s.Flows .accepted) ∧
      (s.pc ≠ .writeFailed .accepted → s.Flows .connected)) ∧
    (s.ended .accepted = true ∨ s.ended .connected = true → s.pc ≠ .loop) := by
  constructor
  · intro hs
    exact ⟨⟨(hs .accepted).1, (hs .connected).1⟩, fun h => h.elim (hs .accepted).2 (hs .connected).2⟩
  · intro hboth sock
    obtain ⟨⟨haccepted, hconnected⟩, hended⟩ := hboth
    cases sock with
    | accepted => exact ⟨haccepted, fun h => hended (Or.inl h)⟩
    | connected => exact ⟨hconnected, fun h => hended (Or.inr h)⟩

/-- Behind a failure in the first direction, which leaves out the second one. -/
theorem relayed_of_fails (hs : s.Relayed) (hpc : s.pc = .loop) (h : Crossed s .accepted e0 u)
    (hfails : u.pc ≠ .loop) : u.Relayed ↔ e0.Complete := by
  rw [relayed_iff, ← h.flows_iff hpc (hs.flows hpc _)]
  have hconnected : u.Flows .connected := h.flows_other.mpr (hs.flows hpc _)
  exact ⟨fun hu => hu.1.1, fun hu => ⟨⟨hu, fun _ => hconnected⟩, fun _ => hfails⟩⟩

/-- Behind both directions, whatever becomes of the process then. -/
theorem relayed_of_crossed {v : Relay} {pc : RelayPc} (hs : s.Relayed) (hpc : s.pc = .loop)
    (h0 : Crossed s .accepted e0 u) (hpcu : u.pc = .loop) (h1 : Crossed u .connected e1 v)
    (hfailed : ∀ sock, pc = .writeFailed sock ↔ v.pc = .writeFailed sock) :
    Relay.Relayed { v with pc := pc } ↔ e0.Complete ∧ e1.Complete ∧
      (e0.EndsStream ∨ e1.EndsStream → pc ≠ .loop) := by
  have hflows0 : u.Flows .accepted ↔ e0.Complete := by
    rw [← h0.flows_iff hpc (hs.flows hpc _)]
    exact ⟨fun hu _ => hu, fun hu => hu (by rw [hpcu]; nofun)⟩
  have hflows1 := h1.flows_iff hpcu (h0.flows_other.mpr (hs.flows hpc _))
  have hended : ∀ sock, v.ended sock = true ↔
      sock = .accepted ∧ e0.EndsStream ∨ sock = .connected ∧ e1.EndsStream := by
    intro sock
    rw [h1.ended_iff, h0.ended_iff, or_iff_right (hs.not_ended hpc sock)]
  have hkeep : v.Flows .accepted ↔ u.Flows .accepted := h1.flows_other
  have haccepted : (pc ≠ .writeFailed .connected → v.Flows .accepted) ↔ e0.Complete := by
    have hne : pc ≠ .writeFailed .connected := fun heq => h1.pc_ne hpcu ((hfailed _).mp heq)
    rw [← hflows0, ← hkeep]
    exact ⟨fun hv => hv hne, fun hv _ => hv⟩
  have hconnected : (pc ≠ .writeFailed .accepted → v.Flows .connected) ↔ e1.Complete := by
    rw [← hflows1]
    exact imp_congr_left (not_congr (hfailed .accepted))
  have hends : v.ended .accepted = true ∨ v.ended .connected = true ↔
      e0.EndsStream ∨ e1.EndsStream := by
    rw [hended, hended]
    simp
  rw [relayed_iff, ← and_assoc]
  exact and_congr (and_congr haccepted hconnected) (imp_congr_left hends)

theorem relayed_step_iff {t : RelayTurn} (hs : s.Relayed) (h : relayStep s t = some s') :
    s'.Relayed ↔ t.Whole := by
  unfold relayStep at h
  split at h
  next => cases h
  next hpc =>
    have hpc : s.pc = .loop := not_not.mp hpc
    cases t with
    | pollError =>
      obtain rfl := Option.some.inj h
      exact iff_of_true (fun sock => ⟨fun _ => hs.flows hpc sock, fun _ => nofun⟩) trivial
    | timeout =>
      obtain rfl := Option.some.inj h
      exact iff_of_true hs trivial
    | events e0 e1 =>
      obtain ⟨u, hu, h⟩ := Option.bind_eq_some_iff.mp h
      have h0 := crossover_cases hu
      split at h
      next hpcu =>
        obtain rfl := Option.some.inj h
        have hfails : e0.Fails := not_not.mp fun hno => hpcu ((h0.pc_iff hpc).mpr hno)
        rw [relayed_of_fails hs hpc h0 hpcu]
        exact (and_iff_left fun hno => absurd hfails hno).symm
      next hpcu =>
        have hpcu : u.pc = .loop := not_not.mp hpcu
        obtain ⟨v, hv, h⟩ := Option.bind_eq_some_iff.mp h
        have h1 := crossover_cases hv
        -- what ends the process behind both directions
        have hend : ∀ {pc : RelayPc}, (∀ sock, pc = .writeFailed sock ↔ v.pc = .writeFailed sock) →
            (pc ≠ .loop ↔ e1.Fails ∨ e0.pollhup = true ∨ e1.pollhup = true) →
            (Relay.Relayed { v with pc := pc } ↔ RelayTurn.Whole (.events e0 e1)) := by
          intro pc hfailed hpc'
          rw [relayed_of_crossed hs hpc h0 hpcu h1 hfailed, hpc']
          exact and_congr_right fun _ => ⟨fun h _ => h, fun h => h ((h0.pc_iff hpc).mp hpcu)⟩
        split at h
        next hpcv =>
          obtain rfl := Option.some.inj h
          have hfails : e1.Fails := not_not.mp fun hno => hpcv ((h1.pc_iff hpcu).mpr hno)
          exact hend (fun _ => Iff.rfl) (iff_of_true hpcv (Or.inl hfails))
        next hpcv =>
          have hpcv : v.pc = .loop := not_not.mp hpcv
          have hno : ¬ e1.Fails := (h1.pc_iff hpcu).mp hpcv
          have hexited : ∀ sock, RelayPc.exited exitSuccess = .writeFailed sock ↔
              v.pc = .writeFailed sock := fun sock => iff_of_false nofun (by rw [hpcv]; nofun)
          split at h
          next hhup =>
            obtain rfl := Option.some.inj h
            exact hend hexited (iff_of_true nofun (Or.inr (Or.inl hhup)))
          next hhup =>
            split at h
            next hhup' =>
              obtain rfl := Option.some.inj h
              exact hend hexited (iff_of_true nofun (Or.inr (Or.inr hhup')))
            next hhup' =>
              obtain rfl := Option.some.inj h
              refine hend (fun _ => Iff.rfl) (iff_of_false (fun hne => hne hpcv) ?_)
              intro hends
              rcases hends with hfails | hhup₀ | hhup₁
              · exact hno hfails
              · exact hhup hhup₀
              · exact hhup' hhup₁

end Step

/-- For every sequence of events and of results: both streams are relayed, and neither is polled
behind its end, exactly if every round is whole. -/
theorem relayed_along_iff (turns : List RelayTurn) :
    Along relayStep (fun _ _ s' => s'.Relayed) relayInit turns ↔
      Along relayStep (fun _ t _ => t.Whole) relayInit turns := by
  have hinit : relayInit.Relayed := fun _ => ⟨fun _ => rfl, nofun⟩
  exact along_iff_cond (I := fun _ => True) (P := Relay.Relayed) (fun _ _ _ _ _ => trivial)
    (fun _ _ _ hs' => hs') (fun _ _ _ _ => relayed_step_iff) turns trivial hinit

/-- Events of a socket that has nothing to say. -/
def noEvents : SockEvents := ⟨false, false, none, none⟩

/-- A `write` that accepts the first of two bytes, and a stream that ends and is polled again. -/
theorem relayed_along_counterexample :
    (∃ s, run relayStep relayInit [.events ⟨true, false, some [1, 2], some 1⟩ noEvents] = some s ∧
      s.pc = .loop ∧ s.read .accepted = [1, 2] ∧ s.written .connected = [1] ∧ ¬ s.Relayed) ∧
    ∃ s, run relayStep relayInit [.events ⟨true, false, some [], none⟩ noEvents,
        .events ⟨true, false, some [], none⟩ noEvents] = some s ∧
      s.pc = .loop ∧ s.ended .accepted = true ∧ ¬ s.Relayed := by
  refine ⟨⟨_, rfl, rfl, rfl, rfl, fun h => ?_⟩, ⟨_, rfl, rfl, rfl, fun h => ?_⟩⟩
  · have hflows : ([1] : List (BitVec 8)) = [1, 2] := (h .accepted).1 nofun
    exact absurd hflows (by decide)
  · exact (h .accepted).2 rfl rfl

end ConfProfile
