import ConfProfile.Lib.Run
import ConfProfile.Usernat.Command

/-!
# The main loop of usernat (`usernat.c`)

The loop asks `recvmsg` for the two bytes of a length and then for that many
bytes. `recvmsg` gives what has arrived, one byte at least; the loop goes on as
if it had got all it asked for. A body then has the bytes that an earlier one
left in the buffer, and what is missing is read as the next length.

A run is a list of results of `recvmsg`. Every command accounts for its own
bytes only if each of its two reads is complete (`RecvInv.whole`), from which
`reconstructed_iff` says exactly when the loop gets the commands that were
written.
-/

namespace ConfProfile

open ByteMem Frames Run

/-- Where the main loop is. -/
inductive CmdPc where
  /-- `rcvd_cmd_with_fds` for the length -/
  | length
  /-- `rcvd_cmd_with_fds` for the body -/
  | body (length : Nat)
  /-- `exit` for the length 0xFFFF -/
  | halted
  /-- `exit` in `parse_cmd` -/
  | exited
  deriving DecidableEq, Repr

/-- The loop with what is still to be read, and the bodies that `parse_cmd` has
been called with. -/
structure CmdLoop where
  unread : List (BitVec 8)
  bytes : Mem
  pc : CmdPc
  parsed : List (List (BitVec 8))

/-- The loop in front of a stream. The buffer has what `malloc` gave. -/
def mainStart (bytes : Mem) (stream : List (BitVec 8)) : CmdLoop := ⟨stream, bytes, .length, []⟩

/-- `rcvd_cmd_with_fds` when `recvmsg` returns `ret`: it stores no more than it is
asked for and than there is, and nothing only if nothing is asked for or left. -/
def CmdLoop.recvmsg (s : CmdLoop) (offs len ret : Nat) : Option CmdLoop :=
  if ret ≤ len ∧ ret ≤ s.unread.length ∧ (ret = 0 → len = 0 ∨ s.unread = []) then
    some { s with
      unread := s.unread.drop ret
      bytes := s.bytes.putBytes offs (s.unread.take ret) }
  else none

/-- The loop from one `recvmsg` to the next. -/
def recvStep (s : CmdLoop) (ret : Nat) : Option CmdLoop :=
  match s.pc with
  | .length => do
    let s ← s.recvmsg 0 2 ret
    if ret = 0 then return s
    let length := be16Of (s.bytes 0) (s.bytes 1)
    -- "length is 0xffff, this is a legal way to halt"
    if length = 0xffff then return { s with pc := .halted }
    return { s with pc := .body length }
  | .body length => do
    let s ← s.recvmsg 2 length ret
    let bytes := Function.update s.bytes (length + 2) 0
    let body := Mem.bytes bytes 2 length
    return { s with
      bytes
      parsed := s.parsed ++ [body]
      pc := if parseCmd body = .halt then .exited else .length }
  | .halted | .exited => none

/-- The ways through a step. -/
inductive RecvStep (s : CmdLoop) : Nat → CmdLoop → Prop where
  | again (hpc : s.pc = .length) (hend : s.unread = []) : RecvStep s 0 s
  | marker {ret : Nat} (bytes : Mem) (hpc : s.pc = .length) (hlow : 0 < ret) (hret : ret ≤ 2)
      (hlen : ret ≤ s.unread.length) :
      RecvStep s ret { s with unread := s.unread.drop ret, bytes, pc := .halted }
  | length {ret : Nat} (bytes : Mem) (length : Nat) (hpc : s.pc = .length) (hlow : 0 < ret)
      (hret : ret ≤ 2) (hlen : ret ≤ s.unread.length) (hmarker : length ≠ 0xffff) :
      RecvStep s ret { s with unread := s.unread.drop ret, bytes, pc := .body length }
  | body {ret : Nat} (bytes : Mem) (body : List (BitVec 8)) (hpc : s.pc = .body body.length)
      (hret : ret ≤ body.length) (hlen : ret ≤ s.unread.length) :
      RecvStep s ret
        { s with
          unread := s.unread.drop ret
          bytes
          parsed := s.parsed ++ [body]
          pc := if parseCmd body = .halt then .exited else .length }

theorem recvmsg_some {s s' : CmdLoop} {offs len ret : Nat} (h : s.recvmsg offs len ret = some s') :
    ret ≤ len ∧ ret ≤ s.unread.length ∧ (ret = 0 → len = 0 ∨ s.unread = []) ∧
      s' = { s with
        unread := s.unread.drop ret, bytes := s.bytes.putBytes offs (s.unread.take ret) } := by
  unfold CmdLoop.recvmsg at h
  split at h
  · next hret => exact ⟨hret.1, hret.2.1, hret.2.2, (Option.some.inj h).symm⟩
  · cases h

theorem recvStep_cases {s s' : CmdLoop} {ret : Nat} (h : recvStep s ret = some s') :
    RecvStep s ret s' := by
  unfold recvStep at h
  split at h
  · next hpc =>
    obtain ⟨s₁, hrecv, h⟩ := Option.bind_eq_some_iff.mp h
    obtain ⟨hret, hlen, hend, rfl⟩ := recvmsg_some hrecv
    split at h
    · next hzero =>
      obtain rfl := Option.some.inj h
      subst hzero
      exact .again hpc ((hend rfl).resolve_left (by omega))
    · next hpos =>
      dsimp only at h
      split at h
      · obtain rfl := Option.some.inj h
        exact .marker _ hpc (by omega) hret hlen
      · next hmarker =>
        obtain rfl := Option.some.inj h
        exact .length _ _ hpc (by omega) hret hlen hmarker
  · next length hpc =>
    obtain ⟨s₁, hrecv, h⟩ := Option.bind_eq_some_iff.mp h
    obtain ⟨hret, hlen, -, rfl⟩ := recvmsg_some hrecv
    obtain rfl := Option.some.inj h
    have hbody := Mem.length_bytes (Function.update
      (s.bytes.putBytes 2 (s.unread.take ret)) (length + 2) 0) 2 length
    exact .body _ _ (hpc.trans (congrArg CmdPc.body hbody.symm)) (hret.trans_eq hbody.symm) hlen
  · cases h
  · cases h

/-! ## What the loop has read -/

/-- The results of `recvmsg` when each is all that is asked for. -/
def wholeReads (cmds : List (List (BitVec 8))) : List Nat := cmds.flatMap fun cmd => [2, cmd.length]

/-- The bytes of a length that has been read and has no body yet. -/
def CmdPc.started : CmdPc → Nat
  | .body _ | .halted => 2
  | .length | .exited => 0

/-- The results of `recvmsg` that come to the bodies and the program counter by
complete reads. At the end of the stream the loop goes on with empty ones. -/
def CmdPc.ReadsWhole (parsed : List (List (BitVec 8))) (unread : List (BitVec 8))
    (past : List Nat) :
    CmdPc → Prop
  | .length => ∃ k, past = wholeReads parsed ++ List.replicate k 0 ∧ (k = 0 ∨ unread = [])
  | .body _ | .halted => past = wholeReads parsed ++ [2]
  | .exited => past = wholeReads parsed

theorem wholeReads_append (cmds : List (List (BitVec 8))) (cmd : List (BitVec 8)) :
    wholeReads (cmds ++ [cmd]) = wholeReads cmds ++ [2, cmd.length] := by
  unfold wholeReads
  rw [List.flatMap_append, List.flatMap_singleton]

theorem length_frames_append (cmds : List (List (BitVec 8))) (cmd : List (BitVec 8)) :
    (frames (cmds ++ [cmd])).length = (frames cmds).length + (2 + cmd.length) := by
  unfold frames
  rw [List.flatMap_append, List.length_append, List.flatMap_singleton, length_frame]

/-- What holds after the results `past`, of a stream of `total` bytes: no more has been
read than the bodies and the length in hand account for, and that much only by
complete reads. -/
structure RecvInv (total : Nat) (past : List Nat) (s : CmdLoop) : Prop where
  account : total ≤ s.unread.length + (frames s.parsed).length + s.pc.started
  whole : s.unread.length + (frames s.parsed).length + s.pc.started = total →
    s.pc.ReadsWhole s.parsed s.unread past
  marker : ∀ body ∈ s.parsed, body.length ≠ 0xffff
  body : ∀ length, s.pc = .body length → length ≠ 0xffff
  last : ∀ body ∈ s.parsed.dropLast, parseCmd body ≠ .halt
  halt : s.pc ≠ .exited → ∀ body ∈ s.parsed, parseCmd body ≠ .halt

theorem mainStart_inv (bytes : Mem) (stream : List (BitVec 8)) :
    RecvInv stream.length [] (mainStart bytes stream) where
  account := Nat.le_refl _
  whole := fun _ => ⟨0, rfl, Or.inl rfl⟩
  marker := fun _ h => absurd h List.not_mem_nil
  body := fun _ h => by cases h
  last := fun _ h => absurd h List.not_mem_nil
  halt := fun _ _ h => absurd h List.not_mem_nil

/-- A result for the length: what `recvmsg` gives is at most the two bytes that count
for it. -/
theorem RecvInv.started {total ret : Nat} {past : List Nat} {s : CmdLoop} {pc : CmdPc}
    (hI : RecvInv total past s) (hpc : s.pc = .length) (hlow : 0 < ret) (hret : ret ≤ 2)
    (hlen : ret ≤ s.unread.length) (bytes : Mem) (hbody : ∀ length, pc = .body length →
      length ≠ 0xffff) (hnext : pc = .halted ∨ ∃ length, pc = .body length) :
    RecvInv total (past ++ [ret]) { s with unread := s.unread.drop ret, bytes, pc } := by
  have hstarted : pc.started = 2 := by rcases hnext with rfl | ⟨_, rfl⟩ <;> rfl
  have hexit : s.pc ≠ .exited := by rw [hpc]; exact CmdPc.noConfusion
  have haccount : total ≤ s.unread.length + (frames s.parsed).length + 0 := by
    have h := hI.account
    rwa [hpc] at h
  have hwhole : s.unread.length + (frames s.parsed).length + 0 = total →
      ∃ k, past = wholeReads s.parsed ++ List.replicate k 0 ∧ (k = 0 ∨ s.unread = []) := by
    have h := hI.whole
    rwa [hpc] at h
  refine ⟨?_, ?_, hI.marker, hbody, hI.last, fun _ => hI.halt hexit⟩
  · show total ≤ (s.unread.drop ret).length + (frames s.parsed).length + pc.started
    rw [List.length_drop, hstarted]
    omega
  · intro heq
    replace heq : (s.unread.drop ret).length + (frames s.parsed).length + pc.started = total := heq
    rw [List.length_drop, hstarted] at heq
    obtain ⟨k, hpast, hk⟩ := hwhole (by omega)
    -- the stream was not at its end, so there were no empty results
    have hk0 : k = 0 := by
      refine hk.resolve_right fun hnil => ?_
      rw [hnil] at hlen
      exact absurd hlow (by simpa using hlen)
    have hret2 : ret = 2 := by omega
    have hreads : past ++ [ret] = wholeReads s.parsed ++ [2] := by
      rw [hpast, hk0, hret2, List.replicate_zero, List.append_nil]
    rcases hnext with rfl | ⟨_, rfl⟩ <;> exact hreads

theorem recvStep_inv {total ret : Nat} {past : List Nat} {s s' : CmdLoop}
    (hI : RecvInv total past s) (h : recvStep s ret = some s') :
    RecvInv total (past ++ [ret]) s' := by
  cases recvStep_cases h with
  | again hpc hend =>
    refine ⟨hI.account, ?_, hI.marker, hI.body, hI.last, hI.halt⟩
    intro heq
    have hwhole := hI.whole heq
    rw [hpc] at hwhole ⊢
    obtain ⟨k, hpast, _⟩ := hwhole
    refine ⟨k + 1, ?_, Or.inr hend⟩
    rw [hpast, List.append_assoc, ← List.replicate_succ']
  | marker bytes hpc hlow hret hlen =>
    exact hI.started hpc hlow hret hlen bytes (fun _ h => by cases h) (Or.inl rfl)
  | length bytes length hpc hlow hret hlen hmarker =>
    refine hI.started hpc hlow hret hlen bytes ?_ (Or.inr ⟨length, rfl⟩)
    intro n hn
    exact CmdPc.body.inj hn ▸ hmarker
  | body bytes body hpc hret hlen =>
    have hexit : s.pc ≠ .exited := by rw [hpc]; exact CmdPc.noConfusion
    have hmarker := hI.body _ hpc
    have haccount : total ≤ s.unread.length + (frames s.parsed).length + 2 := by
      have h := hI.account
      rwa [hpc] at h
    have hwhole : s.unread.length + (frames s.parsed).length + 2 = total →
        past = wholeReads s.parsed ++ [2] := by
      have h := hI.whole
      rwa [hpc] at h
    have hnone := hI.halt hexit
    have hstarted : (if parseCmd body = .halt then CmdPc.exited else .length).started = 0 := by
      split <;> rfl
    refine ⟨?_, ?_, ?_, ?_, ?_, ?_⟩
    · show total ≤ (s.unread.drop ret).length + (frames (s.parsed ++ [body])).length + _
      rw [List.length_drop, length_frames_append, hstarted]
      omega
    · intro heq
      replace heq : (s.unread.drop ret).length + (frames (s.parsed ++ [body])).length + _ = total :=
        heq
      rw [List.length_drop, length_frames_append, hstarted] at heq
      have hpast : past = wholeReads s.parsed ++ [2] := hwhole (by omega)
      have hret' : ret = body.length := by omega
      have hreads : past ++ [ret] = wholeReads (s.parsed ++ [body]) := by
        rw [wholeReads_append, hpast, hret', List.append_assoc]
        rfl
      show CmdPc.ReadsWhole _ _ _ (if parseCmd body = .halt then CmdPc.exited else .length)
      split
      · exact hreads
      · exact ⟨0, hreads.trans (List.append_nil _).symm, Or.inl rfl⟩
    · intro b hb
      rcases List.mem_append.mp hb with hb | hb
      · exact hI.marker b hb
      · exact List.mem_singleton.mp hb ▸ hmarker
    · intro n hn
      replace hn : (if parseCmd body = .halt then CmdPc.exited else .length) = .body n := hn
      split at hn <;> cases hn
    · intro b hb
      replace hb : b ∈ (s.parsed ++ [body]).dropLast := hb
      rw [List.dropLast_concat] at hb
      exact hnone b hb
    · intro hpc' b hb
      replace hpc' : (if parseCmd body = .halt then CmdPc.exited else .length) ≠ .exited := hpc'
      rcases List.mem_append.mp hb with hb | hb
      · exact hnone b hb
      · obtain rfl := List.mem_singleton.mp hb
        intro hhalt
        rw [if_pos hhalt] at hpc'
        exact hpc' rfl

theorem run_recvInv {total : Nat} {rets past : List Nat} {s s' : CmdLoop}
    (hI : RecvInv total past s)
    (h : run recvStep s rets = some s') : RecvInv total (past ++ rets) s' := by
  induction rets generalizing past s with
  | nil =>
    obtain rfl : s = s' := Option.some.inj h
    rwa [List.append_nil]
  | cons ret rets ih =>
    obtain ⟨s₁, hstep, hrest⟩ := run_cons_some h
    have hlast := ih (recvStep_inv hI hstep) hrest
    rwa [List.append_assoc, List.singleton_append] at hlast

/-! ## Complete reads -/

/-- A length that is read whole. -/
theorem recvStep_length {s : CmdLoop} {n : Nat} {rest : List (BitVec 8)} (hpc : s.pc = .length)
    (hunread : s.unread = be16 n ++ rest) (hn : n < 65535) :
    recvStep s 2 =
      some { s with unread := rest, bytes := s.bytes.putBytes 0 (be16 n), pc := .body n } := by
  have hread : be16Of (s.bytes.putBytes 0 (be16 n) 0) (s.bytes.putBytes 0 (be16 n) 1) = n :=
    be16Of_be16 (show n < 65536 by omega)
  have hrecv : s.recvmsg 0 2 2 =
      some { s with unread := rest, bytes := s.bytes.putBytes 0 (be16 n) } := by
    unfold CmdLoop.recvmsg
    rw [hunread]
    exact if_pos ⟨le_rfl, Nat.le_add_left 2 rest.length, fun h => by cases h⟩
  unfold recvStep
  simp only [hpc, hrecv, Option.bind_eq_bind, Option.bind_some, hread]
  rw [if_neg (by omega), if_neg (by omega)]
  rfl

/-- A body that is read whole is what `parse_cmd` gets. -/
theorem recvStep_body {s : CmdLoop} {cmd rest : List (BitVec 8)} (hpc : s.pc = .body cmd.length)
    (hunread : s.unread = cmd ++ rest) :
    ∃ bytes, recvStep s cmd.length = some { s with
      unread := rest
      bytes
      parsed := s.parsed ++ [cmd]
      pc := if parseCmd cmd = .halt then .exited else .length } := by
  have hrecv : s.recvmsg 2 cmd.length cmd.length =
      some { s with unread := rest, bytes := s.bytes.putBytes 2 cmd } := by
    unfold CmdLoop.recvmsg
    rw [hunread, List.drop_left, List.take_left]
    refine if_pos ⟨le_rfl, ?_, fun h => Or.inl h⟩
    rw [List.length_append]
    omega
  have hbody : Mem.bytes (Function.update (s.bytes.putBytes 2 cmd) (cmd.length + 2) 0) 2
      cmd.length = cmd := by
    refine (Mem.bytes_congr fun i _ hi => ?_).trans (Mem.bytes_putBytes s.bytes 2 cmd)
    exact Function.update_of_ne (by omega) _ _
  refine ⟨Function.update (s.bytes.putBytes 2 cmd) (cmd.length + 2) 0, ?_⟩
  unfold recvStep
  simp only [hpc, hrecv, Option.bind_eq_bind, Option.bind_some, hbody]
  rfl

/-- At the end of the stream the loop stays where it is. -/
theorem run_empty {k : Nat} {s s' : CmdLoop} (h : run recvStep s (List.replicate k 0) = some s')
    (hpc : s.pc = .length ∨ s.pc = .exited) : s' = s := by
  induction k generalizing s with
  | zero => exact (Option.some.inj h).symm
  | succ k ih =>
    rw [List.replicate_succ] at h
    obtain ⟨s₁, hstep, hrest⟩ := run_cons_some h
    cases recvStep_cases hstep with
    | again _ _ => exact ih hrest hpc
    | marker _ _ hlow _ _ | length _ _ _ hlow _ _ _ => exact absurd hlow (Nat.lt_irrefl 0)
    | body _ _ hbody _ _ => rcases hpc with hpc | hpc <;> cases hpc.symm.trans hbody

/-- The loop got the commands, and is neither within one nor at the marker. -/
structure CmdLoop.Reconstructed (s : CmdLoop) (cmds : List (List (BitVec 8))) : Prop where
  parsed : s.parsed = cmds
  unread : s.unread = []
  pc : s.pc = .length ∨ s.pc = .exited

/-- Every `recvmsg` returns all that it is asked for, no command has the length that is
the marker, and none but the last makes the process exit. -/
structure WholeCommands (cmds : List (List (BitVec 8))) (rets : List Nat) : Prop where
  reads : ∃ k, rets = wholeReads cmds ++ List.replicate k 0
  marker : ∀ cmd ∈ cmds, cmd.length ≠ 0xffff
  halt : ∀ cmd ∈ cmds.dropLast, parseCmd cmd ≠ .halt

/-- Complete reads of commands of any number. -/
theorem run_wholeReads {cmds : List (List (BitVec 8))} {k : Nat} {s s' : CmdLoop}
    (hpc : s.pc = .length) (hunread : s.unread = frames cmds)
    (hlen : ∀ cmd ∈ cmds, cmd.length < 65535) (hhalt : ∀ cmd ∈ cmds.dropLast, parseCmd cmd ≠ .halt)
    (h : run recvStep s (wholeReads cmds ++ List.replicate k 0) = some s') :
    s'.Reconstructed (s.parsed ++ cmds) := by
  induction cmds generalizing s with
  | nil =>
    obtain rfl := run_empty h (Or.inl hpc)
    exact ⟨(List.append_nil _).symm, hunread, Or.inl hpc⟩
  | cons cmd cmds ih =>
    rw [frames_cons] at hunread
    have hfirst := recvStep_length hpc hunread (hlen cmd List.mem_cons_self)
    obtain ⟨s₁, hstep₁, h⟩ := run_cons_some h
    obtain rfl := Option.some.inj (hfirst.symm.trans hstep₁)
    obtain ⟨bytes, hsecond⟩ := recvStep_body (s := { s with
      unread := cmd ++ frames cmds
      bytes := s.bytes.putBytes 0 (be16 cmd.length)
      pc := .body cmd.length }) rfl rfl
    obtain ⟨s₂, hstep₂, h⟩ := run_cons_some h
    obtain rfl := Option.some.inj (hsecond.symm.trans hstep₂)
    by_cases hexit : parseCmd cmd = .halt
    · -- then it is the last one
      cases cmds with
      | nil =>
        obtain rfl := run_empty h (Or.inr (if_pos hexit))
        exact ⟨rfl, rfl, Or.inr (if_pos hexit)⟩
      | cons next cmds => exact absurd hexit (hhalt cmd List.mem_cons_self)
    · have hrest := ih (if_neg hexit) rfl (fun c hc => hlen c (List.mem_cons_of_mem _ hc)) ?_ h
      · rw [← List.singleton_append, ← List.append_assoc]
        exact hrest
      · intro c hc
        cases cmds with
        | nil => cases hc
        | cons next cmds => exact hhalt c (List.mem_cons_of_mem _ hc)

/-- Commands are written one after the other, and `recvmsg` returns `rets`: the main
loop gets the same commands exactly if every `recvmsg` gave all that it was asked
for, no command has 65535 bytes, and only the last one is a `halt`. -/
theorem reconstructed_iff (bytes : Mem) (messages : List (Option (List (BitVec 8))))
    {rets : List Nat} {s : CmdLoop}
    (h : run recvStep (mainStart bytes (writtenBy messages)) rets = some s) :
    s.Reconstructed (accepted messages) ↔ WholeCommands (accepted messages) rets := by
  constructor
  · rintro ⟨hparsed, hunread, hpc⟩
    have hI := run_recvInv (mainStart_inv bytes (writtenBy messages)) h
    rw [List.nil_append] at hI
    have hstarted : s.pc.started = 0 := by rcases hpc with hpc | hpc <;> rw [hpc] <;> rfl
    have htotal : s.unread.length + (frames s.parsed).length + s.pc.started =
        (writtenBy messages).length := by
      rw [hunread, hparsed, hstarted, writtenBy_eq, List.length_nil, Nat.zero_add, Nat.add_zero]
    refine ⟨?_, hparsed ▸ hI.marker, hparsed ▸ hI.last⟩
    have hwhole := hI.whole htotal
    rw [hparsed] at hwhole
    rcases hpc with hpc | hpc
    · rw [hpc] at hwhole
      obtain ⟨k, hrets, _⟩ := hwhole
      exact ⟨k, hrets⟩
    · rw [hpc] at hwhole
      exact ⟨0, hwhole.trans (List.append_nil _).symm⟩
  · rintro ⟨⟨k, rfl⟩, hmarker, hhalt⟩
    refine run_wholeReads (s := mainStart bytes (writtenBy messages)) rfl (writtenBy_eq messages) ?_
      hhalt h
    intro cmd hcmd
    have hlen := length_le_of_accepted hcmd
    have hne := hmarker cmd hcmd
    omega

/-! ## A command in two pieces -/

/-- The first command for a relay. -/
def acceptFdMessages : List (Option (List (BitVec 8))) := [some (ascii "accept_fd")]

theorem reconstructed_iff_accept_fd :
    ∃ s, run recvStep (mainStart (fun _ => 0) (writtenBy acceptFdMessages)) [2, 9] = some s ∧
      (s.Reconstructed (accepted acceptFdMessages) ↔
        WholeCommands (accepted acceptFdMessages) [2, 9]) := by
  have hrun : (run recvStep (mainStart (fun _ => 0) (writtenBy acceptFdMessages)) [2, 9]).isSome :=
    by decide +kernel
  obtain ⟨s, hs⟩ := Option.isSome_iff_exists.mp hrun
  exact ⟨s, hs, reconstructed_iff _ _ hs⟩

/-- When four of the nine bytes of the body arrive first, the others are taken for a
length and a second body. -/
theorem split_body_parsed_twice :
    ∃ s, run recvStep (mainStart (fun _ => 0) (writtenBy acceptFdMessages)) [2, 4, 2, 3] = some s ∧
      s.unread = [] ∧ s.parsed.length = 2 ∧ ¬ s.Reconstructed (accepted acceptFdMessages) := by
  have hrun : (run recvStep (mainStart (fun _ => 0) (writtenBy acceptFdMessages))
      [2, 4, 2, 3]).map (fun s => (s.parsed.length, s.unread)) = some (2, []) := by
    decide +kernel
  obtain ⟨s, hs, hparsed⟩ := Option.map_eq_some_iff.mp hrun
  obtain ⟨hlength, hunread⟩ := Prod.mk.inj hparsed
  refine ⟨s, hs, hunread, hlength, ?_⟩
  rintro ⟨hcmds, _, _⟩
  rw [hcmds] at hlength
  exact absurd hlength (by decide)

end ConfProfile
