import ConfProfile.Lib.Handles
import ConfProfile.Lib.Run
import ConfProfile.Usernat.Command

/-!
# The descriptors that usernat gets (`usernat.c`)

A descriptor comes with the bytes of a command and waits in `fds[0]` until the command is
parsed. `accept_fd` and `connect_fd` move it on to the variable of their name, whatever is
there; `socat` hands both variables to the child and closes them in the parent. Where `fork`
fails they are shut down, and nothing closes them. At the next command `fds[0]` is set to -1.

So nothing is lost exactly if a descriptor only comes with the command that takes it, one at a
time, and finds its variable free, and `fork` does not fail where there is something to hand
over (`owned_along_iff`).
-/

namespace ConfProfile

open Handles Run

/-- The descriptor in a variable, if there is one. -/
def slot (fd : Int) : List Int := if fd = -1 then [] else [fd]

/-- One round of the loop in `main`. `cmsgs` are the descriptors of each `SCM_RIGHTS` that comes
with the length, `cmsgs'` of those that come with the body. -/
inductive Turn where
  /-- The length is not there: `continue`. -/
  | nothing (cmsgs : List (List Int))
  /-- `exit` for the length 0xFFFF or in `rcvd_cmd_with_fds` -/
  | exits (cmsgs : List (List Int))
  /-- `parse_cmd`, where `fork` gives the parent `child` -/
  | command (cmsgs cmsgs' : List (List Int)) (body : List (BitVec 8)) (child : Int)
  deriving DecidableEq, Repr

/-- The variables of usernat at the head of the loop, the descriptors that the process has, and
what has been received and inherited so far. -/
structure FdState where
  acceptFd : Int
  connectFd : Int
  table : Table Int
  received : List Int
  /-- What each child has got from its parent. -/
  children : List (List Int)
  exited : Bool
  deriving DecidableEq

def fdInit : FdState := ⟨-1, -1, ⟨[], false⟩, [], [], false⟩

/-- A control message in `socket_process_cmsg`: what it makes of `fds[0]`. -/
def processCmsg (fd0 : Int) : List Int → Int
  | [fd] => fd
  -- none, or "skipping due to insufficient storage"
  | _ => fd0

/-- `socket_process_cmsg`. -/
def socketProcessCmsg (fd0 : Int) (cmsgs : List (List Int)) : Int := cmsgs.foldl processCmsg fd0

/-- `recvmsg`: the kernel gives numbers that are free. -/
def FdState.receive (s : FdState) (arrived : List Int) : Option FdState :=
  if arrived.Nodup ∧ ∀ fd ∈ arrived, 0 ≤ fd ∧ fd ∉ s.table.held then
    some { s with
      table := s.table.calls (arrived.map .acquire)
      received := s.received ++ arrived }
  else none

/-- The end of the process closes what it has. -/
def FdState.exit (s : FdState) : FdState :=
  { s with table := { s.table with held := [] }, exited := true }

/-- `process_socat` in the parent. A `shutdown` closes nothing, nor does a `close` of -1. -/
def FdState.processSocat (s : FdState) (child : Int) : Option FdState :=
  if child = -1 then some { s with acceptFd := -1, connectFd := -1 }
  else if 0 < child then
    some { s with
      children := s.children ++ [s.table.held]
      table := s.table.calls ((slot s.acceptFd).map .release ++ (slot s.connectFd).map .release)
      acceptFd := -1
      connectFd := -1 }
  else none

def fdStep (s : FdState) (t : Turn) : Option FdState :=
  if s.exited then none
  else
    match t with
    | .nothing cmsgs => s.receive cmsgs.flatten
    | .exits cmsgs => (s.receive cmsgs.flatten).map FdState.exit
    | .command cmsgs cmsgs' body child => do
      let s ← s.receive (cmsgs ++ cmsgs').flatten
      let fd0 := socketProcessCmsg (socketProcessCmsg (-1) cmsgs) cmsgs'
      match parseCmd body with
      | .acceptFd => some { s with acceptFd := fd0 }
      | .connectFd => some { s with connectFd := fd0 }
      | .socat _ => s.processSocat child
      | .halt => some s.exit
      | .resp | .socatPath _ | .unknown => some s

/-- The descriptors in the variables. -/
def FdState.slots (s : FdState) : List Int := slot s.acceptFd ++ slot s.connectFd

/-- What the process has is what is in its variables; and whatever it received is there, or has
been handed to one child. Nothing is closed that it does not have. -/
structure FdState.Owned (s : FdState) : Prop where
  stray : s.table.stray = false
  held : s.table.held.Perm s.slots
  received : s.received.Perm (s.children.flatten ++ s.slots)

/-- No descriptor is lost, closed twice or handed over twice. -/
def FdState.Keeps (s : FdState) : Prop := s.exited = false → s.Owned

/-- What comes with a command finds its place. -/
def FdState.Takes (s : FdState) (arrived : List Int) (child : Int) : ParsedCmd → Prop
  | .acceptFd => arrived.length ≤ 1 ∧ s.acceptFd = -1
  | .connectFd => arrived.length ≤ 1 ∧ s.connectFd = -1
  | .socat _ => arrived = [] ∧ (child = -1 → s.acceptFd = -1 ∧ s.connectFd = -1)
  | .halt => True
  | .resp | .socatPath _ | .unknown => arrived = []

/-- What comes with a turn finds its place. -/
def Fitting (s : FdState) : Turn → Prop
  | .nothing cmsgs => cmsgs.flatten = []
  | .exits _ => True
  | .command cmsgs cmsgs' body child => s.Takes (cmsgs ++ cmsgs').flatten child (parseCmd body)

/-! ## What is received -/

section Received

variable {arrived : List Int} {cmsgs : List (List Int)}

theorem slot_eq_nil_iff (fd : Int) : slot fd = [] ↔ fd = -1 := by
  unfold slot
  split <;> simp [*]

theorem length_slot_le (fd : Int) : (slot fd).length ≤ 1 := by
  unfold slot
  split <;> simp

theorem socketProcessCmsg_nil (fd0 : Int) (h : cmsgs.flatten = []) :
    socketProcessCmsg fd0 cmsgs = fd0 := by
  induction cmsgs generalizing fd0 with
  | nil => rfl
  | cons fds cmsgs ih =>
    rw [List.flatten_cons, List.append_eq_nil_iff] at h
    obtain ⟨rfl, h⟩ := h
    exact ih _ h

theorem socketProcessCmsg_single (fd0 : Int) {fd : Int} (h : cmsgs.flatten = [fd]) :
    socketProcessCmsg fd0 cmsgs = fd := by
  induction cmsgs generalizing fd0 with
  | nil => cases h
  | cons fds cmsgs ih =>
    rw [List.flatten_cons, List.append_eq_singleton_iff] at h
    rcases h with ⟨rfl, h⟩ | ⟨rfl, h⟩
    · exact ih _ h
    · exact socketProcessCmsg_nil fd h

/-- One descriptor at most is what is in `fds[0]`. -/
theorem slot_socketProcessCmsg (hpos : ∀ fd ∈ cmsgs.flatten, 0 ≤ fd)
    (hone : cmsgs.flatten.length ≤ 1) : slot (socketProcessCmsg (-1) cmsgs) = cmsgs.flatten := by
  match h : cmsgs.flatten, hone with
  | [], _ =>
    rw [socketProcessCmsg_nil _ h]
    rfl
  | [fd], _ =>
    have hfd : 0 ≤ fd := hpos fd (h ▸ List.mem_singleton_self fd)
    rw [socketProcessCmsg_single _ h, slot, if_neg (by omega)]
  | _ :: _ :: _, hone =>
    rw [List.length_cons, List.length_cons] at hone
    omega

/-- What `recvmsg` leaves. -/
def FdState.got (s : FdState) (arrived : List Int) : FdState :=
  { s with
    table := { s.table with held := arrived.reverse ++ s.table.held }
    received := s.received ++ arrived }

theorem receive_eq_some {s s' : FdState} (h : s.receive arrived = some s') :
    s' = s.got arrived ∧ ∀ fd ∈ arrived, 0 ≤ fd := by
  unfold FdState.receive at h
  rw [Table.calls_acquire] at h
  split at h
  next hnew => exact ⟨(Option.some.inj h).symm, fun fd hfd => (hnew.2 fd hfd).1⟩
  next => cases h

end Received

/-! ## What a turn keeps -/

section Step

variable {s : FdState} {arrived : List Int}

/-- What the variables `a` and `fd` hold, before and behind a turn that sets the first one. -/
theorem moved_iff {held rest : List Int} {a : Int} {cmsgs : List (List Int)}
    (hpos : ∀ fd ∈ cmsgs.flatten, 0 ≤ fd) (hheld : held.Perm (slot a ++ rest)) :
    (cmsgs.flatten.reverse ++ held).Perm (slot (socketProcessCmsg (-1) cmsgs) ++ rest) ↔
      cmsgs.flatten.length ≤ 1 ∧ a = -1 := by
  have hlength := hheld.length_eq
  rw [List.length_append] at hlength
  constructor
  · intro h
    have hlength' := h.length_eq
    simp only [List.length_append, List.length_reverse] at hlength'
    have hle := length_slot_le (socketProcessCmsg (-1) cmsgs)
    have hone : cmsgs.flatten.length ≤ 1 := by omega
    -- one that is set must have been free
    rw [slot_socketProcessCmsg hpos hone] at hlength'
    refine ⟨hone, (slot_eq_nil_iff a).mp (List.eq_nil_of_length_eq_zero (by omega))⟩
  · intro htakes
    obtain ⟨hone, ha⟩ := htakes
    rw [(slot_eq_nil_iff a).mpr ha, List.nil_append] at hheld
    rw [slot_socketProcessCmsg hpos hone]
    exact (List.reverse_perm _).append hheld

/-- Descriptors that nobody takes. -/
theorem owned_got_iff (hs : s.Owned) : (s.got arrived).Owned ↔ arrived = [] := by
  constructor
  · intro h
    have hlength := h.held.length_eq
    have hlength' := hs.held.length_eq
    simp only [FdState.got, List.length_append, List.length_reverse] at hlength
    exact List.eq_nil_of_length_eq_zero (by simp only [FdState.slots] at hlength hlength'; omega)
  · intro hnone
    subst hnone
    refine ⟨hs.stray, hs.held, ?_⟩
    have hreceived := hs.received
    rwa [← List.append_nil s.received] at hreceived

theorem owned_acceptFd_iff (hs : s.Owned) {cmsgs : List (List Int)}
    (hpos : ∀ fd ∈ cmsgs.flatten, 0 ≤ fd) :
    FdState.Owned { s.got cmsgs.flatten with acceptFd := socketProcessCmsg (-1) cmsgs } ↔
      cmsgs.flatten.length ≤ 1 ∧ s.acceptFd = -1 := by
  have hmoved := moved_iff hpos hs.held
  refine ⟨fun h => hmoved.mp h.held, fun h => ⟨hs.stray, hmoved.mpr h, ?_⟩⟩
  have hreceived := hs.received
  rw [FdState.slots, (slot_eq_nil_iff _).mpr h.2, List.nil_append] at hreceived
  rw [FdState.slots, slot_socketProcessCmsg hpos h.1]
  have hmore := hreceived.append_right cmsgs.flatten
  rw [List.append_assoc] at hmore
  exact hmore.trans (List.perm_append_comm.append_left _)

theorem owned_connectFd_iff (hs : s.Owned) {cmsgs : List (List Int)}
    (hpos : ∀ fd ∈ cmsgs.flatten, 0 ≤ fd) :
    FdState.Owned { s.got cmsgs.flatten with connectFd := socketProcessCmsg (-1) cmsgs } ↔
      cmsgs.flatten.length ≤ 1 ∧ s.connectFd = -1 := by
  have hmoved := moved_iff hpos (hs.held.trans List.perm_append_comm)
  refine ⟨fun h => hmoved.mp (h.held.trans List.perm_append_comm),
    fun h => ⟨hs.stray, (hmoved.mpr h).trans List.perm_append_comm, ?_⟩⟩
  have hreceived := hs.received
  rw [FdState.slots, (slot_eq_nil_iff _).mpr h.2, List.append_nil] at hreceived
  rw [FdState.slots, slot_socketProcessCmsg hpos h.1, ← List.append_assoc]
  exact hreceived.append_right cmsgs.flatten

theorem owned_processSocat_iff (hs : s.Owned) {child : Int} {s' : FdState}
    (h : (s.got arrived).processSocat child = some s') :
    s'.Owned ↔ arrived = [] ∧ (child = -1 → s.acceptFd = -1 ∧ s.connectFd = -1) := by
  unfold FdState.processSocat at h
  split at h
  next hfailed =>
    obtain rfl := Option.some.inj h
    constructor
    · intro h'
      have hnil := List.perm_nil.mp h'.held
      obtain ⟨harrived, hheld⟩ := List.append_eq_nil_iff.mp hnil
      have hslots := hs.held
      rw [hheld, FdState.slots, List.nil_perm, List.append_eq_nil_iff, slot_eq_nil_iff,
        slot_eq_nil_iff] at hslots
      exact ⟨List.reverse_eq_nil_iff.mp harrived, fun _ => hslots⟩
    · intro htakes
      obtain ⟨rfl, hfree⟩ := htakes
      have hslots : s.slots = [] := by
        unfold FdState.slots
        rw [(hfree hfailed).1, (hfree hfailed).2]
        rfl
      have hheld := hs.held
      have hreceived := hs.received
      rw [hslots] at hheld hreceived
      rw [← List.append_nil s.received] at hreceived
      exact ⟨hs.stray, hheld, hreceived⟩
  next hforked =>
    split at h
    next =>
      obtain rfl := Option.some.inj h
      rw [and_iff_left (fun hfailed => absurd hfailed hforked)]
      unfold FdState.got
      dsimp only
      rw [← List.map_append]
      constructor
      · intro h'
        have hnil : ((Table.calls _ _).held : List Int) = [] := List.perm_nil.mp h'.held
        have hlength := Table.length_calls_release (t := ⟨arrived.reverse ++ s.table.held, s.table.stray⟩)
          (slot s.acceptFd ++ slot s.connectFd)
        have hheld := hs.held.length_eq
        simp only [hnil, List.length_append, List.length_reverse, List.length_nil] at hlength
        rw [FdState.slots, List.length_append] at hheld
        exact List.eq_nil_of_length_eq_zero (by omega)
      · intro hnone
        subst hnone
        have hclosed : Table.calls ⟨[].reverse ++ s.table.held, s.table.stray⟩
            ((slot s.acceptFd ++ slot s.connectFd).map .release) = ⟨[], s.table.stray⟩ :=
          Table.calls_release hs.held
        refine ⟨?_, ?_, ?_⟩
        · rw [hclosed]
          exact hs.stray
        · rw [hclosed]
          exact List.Perm.refl _
        · have hreceived := hs.received.trans (hs.held.symm.append_left _)
          simpa [FdState.slots, slot] using hreceived
    next => cases h

theorem exited_processSocat {child : Int} {s' : FdState} (h : s.processSocat child = some s') :
    s'.exited = s.exited := by
  unfold FdState.processSocat at h
  split at h
  next => rw [← Option.some.inj h]
  next =>
    split at h
    next => rw [← Option.some.inj h]
    next => cases h

/-- A turn loses nothing exactly if what comes with it finds its place. -/
theorem keeps_step_iff {s' : FdState} {t : Turn} (hs : s.Keeps) (h : fdStep s t = some s') :
    s'.Keeps ↔ Fitting s t := by
  unfold fdStep at h
  split at h
  next => cases h
  next hrunning =>
    have hexited : s.exited = false := eq_false_of_ne_true hrunning
    have howned := hs hexited
    have hkeeps : ∀ {u : FdState}, u.exited = false → (u.Keeps ↔ u.Owned) := fun hu =>
      ⟨fun hk => hk hu, fun ho _ => ho⟩
    cases t with
    | nothing cmsgs =>
      obtain ⟨rfl, -⟩ := receive_eq_some h
      refine (hkeeps ?_).trans (owned_got_iff howned)
      exact hexited
    | exits cmsgs =>
      obtain ⟨u, -, rfl⟩ := Option.map_eq_some_iff.mp h
      exact iff_of_true nofun trivial
    | command cmsgs cmsgs' body child =>
      obtain ⟨u, hu, h⟩ := Option.bind_eq_some_iff.mp h
      obtain ⟨rfl, hpos⟩ := receive_eq_some hu
      have hfd0 : socketProcessCmsg (socketProcessCmsg (-1) cmsgs) cmsgs' =
        socketProcessCmsg (-1) (cmsgs ++ cmsgs') := List.foldl_append.symm
      rw [hfd0] at h
      show s'.Keeps ↔ s.Takes (cmsgs ++ cmsgs').flatten child (parseCmd body)
      cases hcmd : parseCmd body with
      | acceptFd =>
        rw [hcmd] at h
        obtain rfl := Option.some.inj h
        refine (hkeeps ?_).trans (owned_acceptFd_iff howned hpos)
        exact hexited
      | connectFd =>
        rw [hcmd] at h
        obtain rfl := Option.some.inj h
        refine (hkeeps ?_).trans (owned_connectFd_iff howned hpos)
        exact hexited
      | socat cmd =>
        rw [hcmd] at h
        refine (hkeeps ?_).trans (owned_processSocat_iff howned h)
        exact (exited_processSocat h).trans hexited
      | halt =>
        rw [hcmd] at h
        obtain rfl := Option.some.inj h
        exact iff_of_true nofun trivial
      | resp | socatPath _ | unknown =>
        rw [hcmd] at h
        obtain rfl := Option.some.inj h
        refine (hkeeps ?_).trans (owned_got_iff howned)
        exact hexited

end Step

/-- For every sequence of commands and descriptors, and however each `fork` ends: nothing is ever
lost, closed twice or handed over twice exactly if what comes with a turn always finds its
place. -/
theorem owned_along_iff (turns : List Turn) :
    Along fdStep (fun _ _ s' => s'.Keeps) fdInit turns ↔
      Along fdStep (fun s t _ => Fitting s t) fdInit turns := by
  have hinit : fdInit.Keeps := fun _ => ⟨rfl, List.Perm.refl _, List.Perm.refl _⟩
  exact along_iff_cond (I := fun _ => True) (P := FdState.Keeps) (fun _ _ _ _ _ => trivial)
    (fun _ _ _ hs' => hs') (fun _ _ _ _ => keeps_step_iff) turns trivial hinit

/-- Both descriptors, each with its command, and `socat`. -/
def relayTurns (child : Int) : List Turn :=
  [.command [] [[7]] (ascii "accept_fd") 0, .command [] [[8]] (ascii "connect_fd") 0,
    .command [] [] (ascii "socat 10.0.0.1:80") child]

/-- A `fork` that fails leaves both descriptors, a message with two of them both, and one with
a single descriptor and any other command that one. -/
theorem owned_along_counterexample :
    ((run fdStep fdInit (relayTurns (-1))).map fun s => (s.table.held, s.slots)) =
        some ([8, 7], []) ∧
      ((run fdStep fdInit [.command [] [[7, 8]] (ascii "accept_fd") 0]).map fun s =>
        (s.table.held, s.slots)) = some ([8, 7], []) ∧
      ¬ Along fdStep (fun _ _ s' => s'.Keeps) fdInit (relayTurns (-1)) := by
  refine ⟨by decide, by decide, fun h => ?_⟩
  have hinit : fdInit.Keeps := fun _ => ⟨rfl, List.Perm.refl _, List.Perm.refl _⟩
  have hrun : run fdStep fdInit (relayTurns (-1)) =
    some ⟨-1, -1, ⟨[8, 7], false⟩, [7, 8], [], false⟩ := by decide
  have hend := inv_run_along (I := FdState.Keeps) (fun _ _ _ _ hkeeps _ => hkeeps) _ hinit h hrun
  exact absurd (hend rfl).held.length_eq (by decide)

end ConfProfile
