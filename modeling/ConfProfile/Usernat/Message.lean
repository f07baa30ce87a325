import ConfProfile.Usernat.Command

/-!
# Messages of usernat (`send_cmd`, `readMessage`)

`send_cmd` cuts a body at 0xfffe bytes and sends it as a frame. `readMessage`
takes the two bytes of the length one by one and then reads until it has the
whole body, however little a read gives (`readBody_spec`); so calls one after the
other return the bodies one after the other (`readMessages_sent`).
-/

namespace ConfProfile

open ByteMem Frames

/-! ## `send_cmd` -/

/-- A call of `send_cmd`, with the memory at `cmd` and whether `malloc` gives a buffer. -/
structure SendCall where
  cmd : Option Mem
  len : Int
  malloc : Bool

/-- `send_cmd`: the bytes that `send` gets. -/
def sendCmd (call : SendCall) : List (BitVec 8) :=
  match call.cmd with
  | none => []
  | some cmd =>
    if call.len < 0 then []
    else
      let totalLen := if call.len > 0xfffe then 0xfffe else call.len.toNat
      if call.malloc then
        BitVec.ofNat 8 ((totalLen >>> 8) &&& 0xff) :: BitVec.ofNat 8 (totalLen &&& 0xff) ::
          cmd.bytes 0 totalLen
      else []

/-- The body of the message that a call sends. -/
def SendCall.body (call : SendCall) : Option (List (BitVec 8)) := do
  let cmd ← call.cmd
  if 0 ≤ call.len ∧ call.malloc then some (cmd.bytes 0 (min call.len.toNat 0xfffe)) else none

/-- The bytes of a sequence of calls. -/
def sentBy (calls : List SendCall) : List (BitVec 8) := calls.flatMap sendCmd

/-- The bodies that they send. -/
def sentBodies (calls : List SendCall) : List (List (BitVec 8)) := calls.filterMap SendCall.body

theorem sendCmd_eq (call : SendCall) : sendCmd call = (call.body.map frame).getD [] := by
  unfold sendCmd SendCall.body
  cases call.cmd with
  | none => rfl
  | some cmd =>
    have htotal : (if call.len > 0xfffe then 0xfffe else call.len.toNat) =
        min call.len.toNat 0xfffe := by
      split <;> omega
    simp only [htotal, Option.bind_eq_bind, Option.bind_some, ofNat_and_ff]
    by_cases hneg : call.len < 0
    · rw [if_pos hneg, if_neg (fun h => absurd h.1 (by omega))]
      rfl
    · rw [if_neg hneg]
      cases hmalloc : call.malloc with
      | false => simp
      | true =>
        rw [if_pos rfl, if_pos ⟨by omega, rfl⟩]
        simp [frame, be16]

/-- What is sent are the frames of the bodies. -/
theorem sentBy_eq (calls : List SendCall) : sentBy calls = frames (sentBodies calls) := by
  induction calls with
  | nil => rfl
  | cons call calls ih =>
    unfold sentBy sentBodies at ih ⊢
    rw [List.flatMap_cons, List.filterMap_cons, ih, sendCmd_eq]
    cases call.body <;> rfl

theorem length_lt_of_sent {calls : List SendCall} {body : List (BitVec 8)}
    (h : body ∈ sentBodies calls) : body.length < 65535 := by
  obtain ⟨call, _, hbody⟩ := List.mem_filterMap.mp h
  obtain ⟨cmd, _, hif⟩ := Option.bind_eq_some_iff.mp hbody
  split at hif
  · obtain rfl := Option.some.inj hif
    rw [Mem.length_bytes]
    omega
  · cases hif

/-! ## `readMessage` -/

/-- An input stream: what is still to be read, and how much the reads of a buffer are
going to give. -/
structure InStream where
  unread : List (BitVec 8)
  gives : Nat → Nat

/-- `InputStream.read()`, `none` for -1. -/
def InStream.readByte (s : InStream) : Option (BitVec 8 × InStream) :=
  match s.unread with
  | [] => none
  | b :: unread => some (b, { s with unread })

/-- How much `InputStream.read(buffer, offs, len)` gives: something, but not more than
is asked for and there is. -/
def InStream.readLen (s : InStream) (len : Nat) : Nat :=
  if len = 0 then 0 else max 1 (min (s.gives 0) (min len s.unread.length))

/-- `InputStream.read(buffer, offs, len)`, `none` for -1. -/
def InStream.read (s : InStream) (len : Nat) : Option (List (BitVec 8) × InStream) :=
  if len ≠ 0 ∧ s.unread = [] then none
  else some (s.unread.take (s.readLen len),
    ⟨s.unread.drop (s.readLen len), fun i => s.gives (i + 1)⟩)

/-- A read of some bytes that returns gives at least one. -/
theorem InStream.read_some {s s' : InStream} {len : Nat} {chunk : List (BitVec 8)}
    (h : s.read len = some (chunk, s')) :
    s.unread = chunk ++ s'.unread ∧ chunk.length ≤ len ∧ (len ≠ 0 → chunk ≠ []) := by
  unfold InStream.read at h
  split at h
  · cases h
  · next hend =>
    obtain ⟨rfl, rfl⟩ := Prod.mk.inj (Option.some.inj h)
    refine ⟨(List.take_append_drop _ _).symm, ?_, ?_⟩
    · rw [List.length_take]
      unfold InStream.readLen
      split <;> omega
    · intro hlen hnil
      have hunread : s.unread ≠ [] := fun hnil => hend ⟨hlen, hnil⟩
      have hpos := List.length_pos_of_ne_nil hunread
      have hzero := congrArg List.length hnil
      rw [List.length_take, List.length_nil] at hzero
      unfold InStream.readLen at hzero
      rw [if_neg hlen] at hzero
      omega

/-- The loop of `readMessage` behind the prologue, with `pos + left` for `msgLen`:
the bytes of the message, `none` at the end of the stream. -/
def readBody (buffer : Mem) (pos left : Nat) (s : InStream) :
    Option (List (BitVec 8)) × InStream :=
  match _h : s.read left with
  | none => (none, s)
  | some (chunk, s') =>
    -- "pos + numbytesread == msgLen"
    if chunk.length = left then (some ((buffer.putBytes pos chunk).bytes 0 (pos + left)), s')
    else readBody (buffer.putBytes pos chunk) (pos + chunk.length) (left - chunk.length) s'
termination_by left
decreasing_by
  obtain ⟨-, hle, hpos⟩ := InStream.read_some _h
  have hleft : left ≠ 0 := by omega
  have hchunk := List.length_pos_of_ne_nil (hpos hleft)
  omega

/-- `readMessage`, with `newString` for the constructor of `String`; `none` is `null`. -/
def readMessage {σ : Type} (newString : List (BitVec 8) → σ) (s : InStream) :
    Option σ × InStream :=
  match s.readByte with
  | none => (none, s)
  | some (s1, s) =>
    match s.readByte with
    | none => (none, s)
    | some (s2, s) =>
      let msgLen := ((s1.toNat &&& 0xff) <<< 8) &&& 0xffff ||| s2.toNat &&& 0xff
      let (body, s) := readBody (fun _ => 0) 0 msgLen s
      (body.map newString, s)

/-- Calls of `readMessage`, one after the other. -/
def readMessages {σ : Type} (newString : List (BitVec 8) → σ) : Nat → InStream → List (Option σ)
  | 0, _ => []
  | n + 1, s =>
    let (message, s) := readMessage newString s
    message :: readMessages newString n s

/-- The loop gets the bytes that are left of the message, and no others. -/
theorem readBody_spec {body rest : List (BitVec 8)} (buffer : Mem) (pos : Nat) {s : InStream}
    (h : s.unread = body ++ rest) :
    ∃ s', readBody buffer pos body.length s =
        (some ((buffer.putBytes pos body).bytes 0 (pos + body.length)), s') ∧ s'.unread = rest := by
  induction hleft : body.length using Nat.strong_induction_on generalizing body buffer pos s with
  | _ left ih =>
    unfold readBody
    split
    · next hread =>
      -- at the end of the stream there is nothing left to read
      unfold InStream.read at hread
      split at hread
      · next hend =>
        rw [hend.2] at h
        obtain ⟨rfl, _⟩ := List.append_eq_nil_iff.mp h.symm
        exact absurd hleft.symm hend.1
      · cases hread
    · next chunk s' hread =>
      obtain ⟨hunread, hle, hpos⟩ := InStream.read_some hread
      rw [h] at hunread
      obtain ⟨tail, rfl, htail⟩ | ⟨tail, rfl, htail⟩ := List.append_eq_append_iff.mp hunread
      · -- no read gives more than is left of the message
        have htail₀ : tail = [] := by
          rw [List.length_append] at hle
          exact List.length_eq_zero_iff.mp (by omega)
        subst htail₀
        rw [List.append_nil] at hle hpos ⊢
        rw [if_pos hleft]
        exact ⟨s', rfl, htail.symm⟩
      · rw [List.length_append] at hleft
        split
        · next hall =>
          have htail₀ : tail = [] := List.length_eq_zero_iff.mp (by omega)
          subst htail₀
          rw [List.append_nil]
          exact ⟨s', rfl, htail⟩
        · next hmore =>
          have hchunk := List.length_pos_of_ne_nil (hpos (by omega))
          obtain ⟨s'', hrest, hunread''⟩ := ih (left - chunk.length) (by omega)
            (buffer.putBytes pos chunk) (pos + chunk.length) htail (by omega)
          refine ⟨s'', ?_, hunread''⟩
          rw [hrest, Mem.putBytes_append]
          have hlen : pos + chunk.length + (left - chunk.length) = pos + left := by omega
          rw [hlen]

/-- A message is read whole, and the next call begins behind it. -/
theorem readMessage_frame {σ : Type} (newString : List (BitVec 8) → σ)
    {body rest : List (BitVec 8)} (hlen : body.length < 65536) {s : InStream}
    (h : s.unread = frame body ++ rest) :
    ∃ s', readMessage newString s = (some (newString body), s') ∧ s'.unread = rest := by
  have hand : ∀ b : BitVec 8, b.toNat &&& 0xff = b.toNat := by
    intro b
    rw [Nat.and_two_pow_sub_one_eq_mod b.toNat 8]
    exact Nat.mod_eq_of_lt b.isLt
  have hlen16 : ((BitVec.ofNat 8 (body.length >>> 8)).toNat <<< 8) &&& 0xffff |||
      (BitVec.ofNat 8 body.length).toNat = body.length := by
    rw [Nat.and_two_pow_sub_one_eq_mod _ 16, Nat.mod_eq_of_lt]
    · exact be16Of_be16 hlen
    · have hbyte := (BitVec.ofNat 8 (body.length >>> 8)).isLt
      rw [Nat.shiftLeft_eq]
      omega
  obtain ⟨s', hbody, hrest⟩ := readBody_spec (s := { s with unread := body ++ rest }) (fun _ => 0) 0
    rfl
  refine ⟨s', ?_, hrest⟩
  unfold readMessage InStream.readByte
  rw [h]
  simp only [frame, be16, List.cons_append, List.nil_append, hand, hlen16, hbody,
    Nat.zero_add, Mem.bytes_putBytes, Option.map_some]

/-- At the end of the stream there is no message. -/
theorem readMessage_end {σ : Type} (newString : List (BitVec 8) → σ) {s : InStream}
    (h : s.unread = []) : readMessage newString s = (none, s) := by
  unfold readMessage InStream.readByte
  simp only [h]

/-- The `k`-th call reads the `k`-th frame. -/
theorem readMessages_frames {σ : Type} (newString : List (BitVec 8) → σ)
    {bodies : List (List (BitVec 8))} (hlen : ∀ body ∈ bodies, body.length < 65535) (n : Nat)
    {s : InStream} (h : s.unread = frames bodies) :
    readMessages newString n s = (List.range n).map fun k => bodies[k]?.map newString := by
  induction n generalizing bodies s with
  | zero => rfl
  | succ n ih =>
    rw [List.range_succ_eq_map, List.map_cons, List.map_map]
    unfold readMessages
    cases bodies with
    | nil =>
      rw [readMessage_end newString h]
      exact congrArg (none :: ·) (ih hlen h)
    | cons body bodies =>
      have hone := hlen body List.mem_cons_self
      obtain ⟨s', hread, hrest⟩ := readMessage_frame newString (by omega) h
      rw [hread]
      exact congrArg (some (newString body) :: ·)
        (ih (fun b hb => hlen b (List.mem_cons_of_mem _ hb)) hrest)

/-- For every sequence of calls of `send_cmd` and all sizes of reads, the `k`-th call of
`readMessage` returns the `k`-th body that was sent, and `null` if there is none. -/
theorem readMessages_sent {σ : Type} (newString : List (BitVec 8) → σ) (calls : List SendCall)
    (gives : Nat → Nat) (n : Nat) :
    readMessages newString n ⟨sentBy calls, gives⟩ =
      (List.range n).map fun k => (sentBodies calls)[k]?.map newString :=
  readMessages_frames newString (fun _ => length_lt_of_sent) n (sentBy_eq calls)

end ConfProfile
