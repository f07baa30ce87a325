import ConfProfile.Lib.Chunks
import ConfProfile.Mtpd.Pptp

/-!
# Messages in a stream

`recv` returns as much of the stream as there is, so a message arrives in any number of pieces, and
of a long one the daemon keeps the first 220 bytes. A chunk does what its bytes do one after the
other (`recvPacket_cons`), and the bytes of a message lead from one message to the next
(`run_frame`).

However the stream is cut, the daemon handles the messages that the peer wrote into it, in order
(`stream_run`); where it comes to a header that it does not know, it has handled the messages in
front of it and ends (`lost_run`).
-/

namespace ConfProfile.Mtpd.Pptp

/-! ## Chunks and bytes -/

namespace Incoming

variable {i : Incoming} {b : BitVec 8} {c : Bytes}

/-- No more is asked for than is missing, and than there is room for. -/
theorem le_want_iff {n : Nat} :
    n ≤ i.want ↔ n ≤ i.start.expect - i.start.length ∧
      (i.start.length < MAX_PACKET_LENGTH → n ≤ MAX_PACKET_LENGTH - i.start.length) := by
  unfold want
  split_ifs <;> omega

/-- A longer chunk does what its first byte and then the rest of it do. -/
theorem recvPacket_cons (hc : c ≠ []) (hwant : (b :: c).length ≤ i.want) :
    (i.recvPacket [b]).2 = 0 ∧ (i.recvPacket [b]).1.recvPacket c = i.recvPacket (b :: c) ∧
      c.length ≤ (i.recvPacket [b]).1.want := by
  have hpos : 0 < c.length := List.length_pos_iff.mpr hc
  rw [le_want_iff, List.length_cons] at hwant
  obtain ⟨hmissing, hroom⟩ := hwant
  -- neither the header nor the message ends with the first byte
  have hfirst : i.recvPacket [b] = (i.start.append [b], 0) := by
    have hheader : ¬ ((i.start.append [b]).length = HEADER_SIZE ∧
        (i.start.append [b]).expect = HEADER_SIZE) := by
      simp only [append, List.length_singleton]
      omega
    have hend : (i.start.append [b]).length ≠ (i.start.append [b]).expect := by
      simp only [append, List.length_singleton]
      omega
    rw [recvPacket, if_neg (List.cons_ne_nil _ _)]
    dsimp only
    rw [if_neg hheader, complete, if_neg hend]
  have hstart : (i.start.append [b]).start = i.start.append [b] := by
    rw [Incoming.start, if_neg]
    simp only [append]
    omega
  have happend : (i.start.append [b]).append c = i.start.append (b :: c) := by
    have hlength : i.start.length + 1 + c.length = i.start.length + (c.length + 1) := by omega
    simp only [append, List.length_cons, List.length_nil, Nat.zero_add, hlength]
    by_cases hfull : MAX_PACKET_LENGTH ≤ i.start.length
    · simp only [if_pos hfull, if_pos (Nat.le_succ_of_le hfull)]
    · have hless : ¬ MAX_PACKET_LENGTH ≤ i.start.length + 1 := by
        have hroom := hroom (Nat.lt_of_not_le hfull)
        omega
      simp only [if_neg hfull, if_neg hless, List.append_assoc, List.singleton_append]
  refine ⟨by rw [hfirst], ?_, ?_⟩
  · rw [hfirst, recvPacket, if_neg hc, hstart, happend, recvPacket, if_neg (List.cons_ne_nil _ _)]
  · rw [hfirst, le_want_iff, hstart]
    simp only [append, List.length_singleton]
    exact ⟨by omega, fun hlt => by have hroom := hroom (by omega); omega⟩

/-! ## A message -/

/-- How long a message is, by its header. -/
def size (p : Bytes) : Nat := (u16 p 0).toNat

/-- A header that is not refused. -/
def Header (p : Bytes) : Prop := (p.drop 4).take 4 = MAGIC_COOKIE ∧ HEADER_SIZE ≤ size p

/-- A message that a peer may write. -/
structure Frame (m : Bytes) : Prop where
  header : Header m
  length : m.length = size m

/-- The beginning of one. -/
def Partial (p : Bytes) : Prop := p.length < HEADER_SIZE ∨ Header p ∧ p.length < size p

/-- The variables behind the beginning of a message. -/
def after (p : Bytes) : Incoming :=
  { length := p.length
    expect := if p.length < HEADER_SIZE then HEADER_SIZE else size p
    buffer := p.take MAX_PACKET_LENGTH }

variable {p q m : Bytes}

theorem size_append (h : 2 ≤ p.length) (q : Bytes) : size (p ++ q) = size p := by
  rw [size, u16_append_left q (by omega)]
  rfl

theorem header_append (h : HEADER_SIZE ≤ p.length) (q : Bytes) : Header (p ++ q) ↔ Header p := by
  rw [HEADER_SIZE] at h
  have hlen : 4 ≤ (p.drop 4).length := by rw [List.length_drop]; omega
  rw [Header, Header, size_append (by omega), List.drop_append_of_le_length (by omega),
    List.take_append_of_le_length hlen]

theorem expect_after (h : Partial p) : (after p).expect ≠ 0 ∧ p.length < (after p).expect := by
  unfold after
  dsimp only
  rcases h with h | ⟨hheader, h⟩
  · rw [if_pos h]
    exact ⟨by decide, h⟩
  · split
    next hlt => exact ⟨by decide, hlt⟩
    next => exact ⟨by omega, h⟩

theorem start_after (h : Partial p) : (after p).start = after p := by
  rw [Incoming.start, if_neg (expect_after h).1]

/-- Between two messages the next one begins. -/
theorem start_idle (h : i.expect = 0) : i.start = after [] := by
  rw [Incoming.start, if_pos h]
  rfl

theorem append_after : (after p).append [b] =
    { length := (p ++ [b]).length
      expect := (after p).expect
      buffer := (p ++ [b]).take MAX_PACKET_LENGTH } := by
  have hbuffer : (if MAX_PACKET_LENGTH ≤ p.length then p.take MAX_PACKET_LENGTH
      else p.take MAX_PACKET_LENGTH ++ [b]) = (p ++ [b]).take MAX_PACKET_LENGTH := by
    split
    next h => rw [List.take_append_of_le_length h]
    next h =>
      rw [List.take_of_length_le (by omega), List.take_of_length_le]
      rw [List.length_append, List.length_singleton]
      omega
  rw [← hbuffer, List.length_append]
  rfl

/-- One more byte of a message. -/
theorem recvPacket_after (hi : i.start = after p)
    (hnext : HEADER_SIZE ≤ (p ++ [b]).length → Header (p ++ [b])) :
    i.recvPacket [b] = (after (p ++ [b])).complete := by
  have hlen : (p ++ [b]).length = p.length + 1 := by
    rw [List.length_append, List.length_singleton]
  rw [recvPacket, if_neg (List.cons_ne_nil _ _), hi, append_after]
  dsimp only
  split
  next h =>
    -- the header is there: it says how long the message is
    have hheader := hnext (Nat.le_of_eq h.1.symm)
    have hbuffer : (p ++ [b]).take MAX_PACKET_LENGTH = p ++ [b] := by
      rw [List.take_of_length_le]
      rw [h.1]
      decide
    have hsize : ¬ size (p ++ [b]) < HEADER_SIZE := Nat.not_lt.mpr hheader.2
    have hexpect : ¬ (p ++ [b]).length < HEADER_SIZE := by rw [h.1]; exact Nat.lt_irrefl _
    rw [hbuffer, if_neg (not_not.mpr hheader.1)]
    rw [size] at hsize
    rw [if_neg hsize, after, if_neg hexpect, hbuffer]
    rfl
  next h =>
    have hexpect : (after p).expect =
        if (p ++ [b]).length < HEADER_SIZE then HEADER_SIZE else size (p ++ [b]) := by
      unfold after
      dsimp only
      rw [hlen] at h ⊢
      rw [HEADER_SIZE] at h ⊢
      by_cases hlt : p.length + 1 < 8
      · rw [if_pos hlt, if_pos (by omega)]
      · have hne : ¬ p.length < 8 := by
          intro hshort
          refine h ⟨by omega, ?_⟩
          rw [after, HEADER_SIZE]
          exact if_pos hshort
        rw [if_neg hlt, if_neg hne, size_append (by omega)]
    rw [hexpect]
    rfl

theorem complete_partial (h : Partial p) : (after p).complete = (after p, 0) := by
  have hless : (after p).length ≠ (after p).expect := Nat.ne_of_lt (expect_after h).2
  rw [complete, if_neg hless]

/-- The word behind the length says whether a message is a control message. -/
def control (m : Bytes) : Bool := u16 m 2 == CONTROL_MESSAGE

theorem complete_frame (h : Frame m) :
    (after m).complete =
      (⟨m.length, 0, m.take MAX_PACKET_LENGTH⟩, if control m then 1 else 0) := by
  have hlen : HEADER_SIZE ≤ m.length := h.length ▸ h.header.2
  have hexpect : (after m).expect = m.length := by
    unfold after
    dsimp only
    rw [if_neg (Nat.not_lt.mpr hlen), h.length]
  have hword : u16 (m.take MAX_PACKET_LENGTH) 2 = u16 m 2 := by
    have hsplit := u16_append_left (o := 2) (a := m.take MAX_PACKET_LENGTH)
      (m.drop MAX_PACKET_LENGTH) (by
        rw [HEADER_SIZE] at hlen
        rw [List.length_take, MAX_PACKET_LENGTH]
        omega)
    rw [List.take_append_drop] at hsplit
    exact hsplit.symm
  rw [complete, if_pos (show (after m).length = (after m).expect from hexpect.symm)]
  have hbuffer : (after m).buffer = m.take MAX_PACKET_LENGTH := rfl
  rw [hbuffer, hword, control]
  simp only [beq_iff_eq]
  rfl

/-- What is in front of the end of a message is the beginning of one. -/
theorem partial_of_frame (h : Frame (p ++ q)) (hq : q ≠ []) : Partial p := by
  have hpos := List.length_pos_iff.mpr hq
  have hlen := h.length
  rw [List.length_append] at hlen
  rcases Nat.lt_or_ge p.length HEADER_SIZE with hlt | hge
  · exact Or.inl hlt
  · have htwo : 2 ≤ p.length := Nat.le_trans (by decide) hge
    rw [size_append htwo] at hlen
    exact Or.inr ⟨(header_append hge q).mp h.header, by omega⟩

theorem partial_of_append (h : Partial (p ++ q)) : Partial p := by
  rcases Nat.lt_or_ge p.length HEADER_SIZE with hlt | hge
  · exact Or.inl hlt
  · have htwo : 2 ≤ p.length := Nat.le_trans (by decide) hge
    rcases h with h | ⟨hheader, h⟩
    · rw [List.length_append] at h
      omega
    · rw [size_append htwo, List.length_append] at h
      exact Or.inr ⟨(header_append hge q).mp hheader, by omega⟩

end Incoming

/-! ## The runs -/

/-- What `start_pppd` connects. -/
structure Start where
  localCall : BitVec 16
  remote : BitVec 16
deriving DecidableEq

def packets (out : List Output) : List Bytes :=
  out.filterMap fun
    | .send packet => some packet
    | .startPppd _ _ => none

def starts (out : List Output) : List Start :=
  out.filterMap fun
    | .send _ => none
    | .startPppd localCall remote => some ⟨localCall, remote⟩

/-- The daemon above the stream: its variables, what the last step returned, and what it has
handled, sent and started so far. -/
structure Link where
  session : Session
  last : Result
  handled : List (Nat × Bytes)
  sent : List Bytes
  pppd : List Start
deriving DecidableEq

structure World where
  incoming : Incoming
  link : Link
deriving DecidableEq

namespace Link

/-- The main loop is running. -/
def running (l : Link) : Bool :=
  match l.last with
  | .ret timeout => 0 ≤ timeout
  | .exit _ => false

/-- What a step does to it. -/
def perform (l : Link) (handled : List (Nat × Bytes)) (r : Session × List Output × Result) : Link :=
  { session := r.1
    last := r.2.2
    handled := l.handled ++ handled
    sent := l.sent ++ packets r.2.1
    pppd := l.pppd ++ starts r.2.1 }

/-- A message that the peer wrote. -/
def receive (env : Env) (l : Link) (m : Bytes) : Option Link :=
  if l.running then
    if Incoming.control m then
      let buffer := m.take MAX_PACKET_LENGTH
      some (l.perform [(m.length, buffer)] (pptpHandle env l.session m.length buffer))
    else some l
  else none

end Link

/-- The message that is complete with the bytes. -/
def handledOf (i : Incoming) (recv : Recv) : List (Nat × Bytes) :=
  match recv with
  | .data bytes =>
    if 0 < (i.recvPacket bytes).2 then
      [((i.recvPacket bytes).1.length, (i.recvPacket bytes).1.buffer)]
    else []
  | .interrupted => []
  | .failed => []

/-- How many bytes `recv` returned. -/
def lengthOf : Recv → Nat
  | .data bytes => bytes.length
  | .interrupted => 0
  | .failed => 0

namespace World

/-- A step of the daemon; `recv` returns no more than it is asked for. -/
def step (env : Env) (w : World) (recv : Recv) : Option World :=
  if w.link.running ∧ lengthOf recv ≤ w.incoming.want then
    let r := pptpProcess env ⟨w.incoming, w.link.session⟩ recv
    some ⟨r.1.incoming, w.link.perform (handledOf w.incoming recv) (r.1.session, r.2)⟩
  else none

/-- A step on bytes. -/
def read (env : Env) (w : World) (bytes : Bytes) : Option World := w.step env (.data bytes)

/-- Where `pptp_connect` leaves the daemon. -/
def connected : World :=
  let r := pptpConnect
  ⟨r.1.incoming, ⟨r.1.session, r.2.2, [], packets r.2.1, starts r.2.1⟩⟩

end World

section Stream

variable {env : Env} {w w' : World} {l : Link} {p q m bytes : Bytes}

/-- Bytes that complete no control message. -/
theorem read_of_le (hrun : w.link.running = true) (hwant : bytes.length ≤ w.incoming.want)
    (hresult : (w.incoming.recvPacket bytes).2 ≤ 0) :
    w.read env bytes = some ⟨(w.incoming.recvPacket bytes).1,
      w.link.perform [] (w.link.session, [], .ret (w.incoming.recvPacket bytes).2)⟩ := by
  rw [World.read, World.step, if_pos ⟨hrun, hwant⟩, pptpProcess, handledOf,
    if_neg (Int.not_lt.mpr hresult)]
  dsimp only
  rw [if_pos hresult]

/-- Bytes that complete one. -/
theorem read_of_lt (hrun : w.link.running = true) (hwant : bytes.length ≤ w.incoming.want)
    (hresult : 0 < (w.incoming.recvPacket bytes).2) :
    w.read env bytes = some ⟨(w.incoming.recvPacket bytes).1,
      w.link.perform [((w.incoming.recvPacket bytes).1.length,
          (w.incoming.recvPacket bytes).1.buffer)]
        (pptpHandle env w.link.session (w.incoming.recvPacket bytes).1.length
          (w.incoming.recvPacket bytes).1.buffer)⟩ := by
  rw [World.read, World.step, if_pos ⟨hrun, hwant⟩, pptpProcess, handledOf, if_pos hresult]
  dsimp only
  rw [if_neg (Int.not_le.mpr hresult)]

theorem running_of_read (h : w.read env bytes = some w') :
    w.link.running = true ∧ bytes.length ≤ w.incoming.want := by
  unfold World.read World.step at h
  split at h
  next hgo => exact hgo
  next => cases h

/-- Returning 0 leaves nothing behind. -/
theorem perform_perform (l : Link) (handled : List (Nat × Bytes))
    (r : Session × List Output × Result) :
    (l.perform [] (l.session, [], .ret 0)).perform handled r = l.perform handled r := by
  unfold Link.perform
  simp only [List.append_nil, packets, starts, List.filterMap_nil]

theorem perform_idle (h : l.last = .ret 0) : l.perform [] (l.session, [], .ret 0) = l := by
  unfold Link.perform
  simp only [List.append_nil, packets, starts, List.filterMap_nil, ← h]

/-- The cuts of the stream do not matter. -/
theorem splits_read (env : Env) : Chunks.Splits (World.read env) := by
  intro w b c w' hc h
  obtain ⟨hrun, hwant⟩ := running_of_read h
  obtain ⟨hzero, hrest, hroom⟩ := Incoming.recvPacket_cons hc hwant
  have hone : [b].length ≤ w.incoming.want := by
    rw [List.length_cons] at hwant
    rw [List.length_singleton]
    omega
  have hfirst := @read_of_le env _ _ hrun hone (Int.le_of_eq hzero)
  rw [hzero] at hfirst
  refine ⟨_, hfirst, ?_⟩
  rw [← h]
  by_cases hresult : (w.incoming.recvPacket (b :: c)).2 ≤ 0
  · rw [read_of_le hrun hwant hresult, read_of_le rfl hroom (by rw [hrest]; exact hresult)]
    dsimp only
    rw [hrest]
    exact congrArg (fun l => some (World.mk _ l)) (perform_perform _ _ _)
  · have hresult := Int.not_le.mp hresult
    rw [read_of_lt hrun hwant hresult, read_of_lt rfl hroom (by rw [hrest]; exact hresult)]
    dsimp only
    rw [hrest]
    exact congrArg (fun l => some (World.mk _ l)) (perform_perform _ _ _)

/-- A loop that is running has returned 0. -/
def Live (l : Link) : Prop := l.running = true → l.last = .ret 0

theorem live_perform {handled : List (Nat × Bytes)} {r : Session × List Output × Result}
    (h : r.2.2 = .ret 0 ∨ r.2.2 = .ret (-REMOTE_REQUESTED) ∨ r.2.2 = .exit SYSTEM_ERROR) :
    Live (l.perform handled r) := by
  intro hrun
  have hlast : (l.perform handled r).last = r.2.2 := rfl
  unfold Link.running at hrun
  rw [hlast] at hrun ⊢
  rcases h with h | h | h
  · exact h
  · rw [h] at hrun
    exact absurd hrun (by decide)
  · rw [h] at hrun
    cases hrun

theorem running_of_last (h : l.last = .ret 0) : l.running = true := by
  rw [Link.running, h]
  rfl

/-- There is room for a byte behind the beginning of a message. -/
theorem one_le_want (hw : w.incoming.start = Incoming.after p) (hpart : Incoming.Partial p) :
    1 ≤ w.incoming.want := by
  have hless := (Incoming.expect_after hpart).2
  have hlen : (Incoming.after p).length = p.length := rfl
  rw [Incoming.le_want_iff, hw, hlen]
  exact ⟨by omega, by omega⟩

/-- The beginning of a message changes nothing but `incoming`. -/
theorem run_unfinished : ∀ (q : Bytes) {p : Bytes} {w : World},
    w.incoming.start = Incoming.after p → Incoming.Partial (p ++ q) → w.link.last = .ret 0 →
    ∃ w', Run.run (World.read env) w (Chunks.single q) = some w' ∧ w'.link = w.link ∧
      w'.incoming.start = Incoming.after (p ++ q) := by
  intro q
  induction q with
  | nil =>
    intro p w hw _ _
    exact ⟨w, rfl, rfl, by rw [List.append_nil]; exact hw⟩
  | cons b q ih =>
    intro p w hw hpart hlast
    rw [List.append_cons] at hpart
    have hone := Incoming.partial_of_append hpart
    have hrecv : w.incoming.recvPacket [b] = (Incoming.after (p ++ [b]), 0) := by
      rw [Incoming.recvPacket_after hw, Incoming.complete_partial hone]
      intro hlen
      rcases hone with hshort | hheader
      · omega
      · exact hheader.1
    have hread := @read_of_le env w [b] (running_of_last hlast)
      (one_le_want hw (Incoming.partial_of_append hone)) (by rw [hrecv])
    rw [hrecv, perform_idle hlast] at hread
    obtain ⟨w', hrun, hlink, hstart⟩ := ih (w := ⟨Incoming.after (p ++ [b]), w.link⟩)
      (Incoming.start_after hone) hpart hlast
    refine ⟨w', ?_, hlink, by rw [hstart, List.append_cons p b q]⟩
    rw [Chunks.single, List.map_cons, Run.run, hread]
    exact hrun

/-- A message that was read is handled. -/
theorem run_frame (hw : w.incoming.start = Incoming.after []) (hm : Incoming.Frame m)
    (hlast : w.link.last = .ret 0) :
    ∃ w', Run.run (World.read env) w (Chunks.single m) = some w' ∧
      w.link.receive env m = some w'.link ∧ w'.incoming.expect = 0 := by
  have hlen : HEADER_SIZE ≤ m.length := hm.length ▸ hm.header.2
  rcases List.eq_nil_or_concat m with rfl | ⟨p, b, hconcat⟩
  · exact absurd hlen (by decide)
  rw [List.concat_eq_append] at hconcat
  subst hconcat
  have hpart := Incoming.partial_of_frame hm (List.cons_ne_nil b [])
  obtain ⟨v, hrun, hlink, hstart⟩ := @run_unfinished env p _ _ hw hpart hlast
  rw [List.nil_append] at hstart
  have hvlast : v.link.last = .ret 0 := hlink ▸ hlast
  have hrecv : v.incoming.recvPacket [b] = (⟨(p ++ [b]).length, 0,
      (p ++ [b]).take MAX_PACKET_LENGTH⟩, if Incoming.control (p ++ [b]) then 1 else 0) := by
    rw [Incoming.recvPacket_after hstart fun _ => hm.header, Incoming.complete_frame hm]
  have hone : [b].length ≤ v.incoming.want := one_le_want hstart hpart
  rw [Chunks.single, List.map_append, Run.run_append_eq]
  rw [Chunks.single] at hrun
  rw [hrun, Link.receive, if_pos (running_of_last hlast), ← hlink]
  by_cases hcontrol : Incoming.control (p ++ [b]) = true
  · rw [if_pos hcontrol] at hrecv ⊢
    have hread := @read_of_lt env _ _ (running_of_last hvlast) hone
      (by rw [hrecv]; exact Int.zero_lt_one)
    rw [hrecv] at hread
    refine ⟨⟨⟨(p ++ [b]).length, 0, (p ++ [b]).take MAX_PACKET_LENGTH⟩, _⟩, ?_, rfl, rfl⟩
    rw [Option.bind_some, List.map_singleton, Run.run, hread]
    rfl
  · rw [if_neg hcontrol] at hrecv ⊢
    have hread := @read_of_le env _ _ (running_of_last hvlast) hone (by rw [hrecv])
    rw [hrecv, perform_idle hvlast] at hread
    refine ⟨⟨⟨(p ++ [b]).length, 0, (p ++ [b]).take MAX_PACKET_LENGTH⟩, _⟩, ?_, rfl, rfl⟩
    rw [Option.bind_some, List.map_singleton, Run.run, hread]
    rfl

theorem live_receive (hl : Live l) {l' : Link} (h : l.receive env m = some l') : Live l' := by
  unfold Link.receive at h
  split at h
  next =>
    split at h
    next =>
      obtain rfl := Option.some.inj h
      exact live_perform (pptpHandle_handled ..).result
    next =>
      obtain rfl := Option.some.inj h
      exact hl
  next => cases h

/-- Messages that were read one byte after the other are handled one after the other. -/
theorem run_frames {rest : Bytes} (hrest : Incoming.Partial rest) : ∀ (ms : List Bytes)
    {w w' : World}, (∀ m ∈ ms, Incoming.Frame m) → w.incoming.start = Incoming.after [] →
    Live w.link →
    Run.run (World.read env) w (Chunks.single (ms.flatten ++ rest)) = some w' →
    Run.run (Link.receive env) w.link ms = some w'.link ∧
      w'.incoming.start = Incoming.after rest := by
  intro ms
  induction ms with
  | nil =>
    intro w w' _ hw hlive h
    rw [List.flatten_nil, List.nil_append] at h
    cases hne : rest with
    | nil =>
      rw [hne] at h
      obtain rfl : w = w' := Option.some.inj h
      exact ⟨rfl, hw⟩
    | cons b q =>
      have hrun : w.link.running = true := by
        rw [hne] at h
        obtain ⟨t, hread, -⟩ := Run.run_cons_some h
        exact (running_of_read hread).1
      obtain ⟨v, hv, hlink, hstart⟩ := @run_unfinished env rest _ _ hw hrest (hlive hrun)
      obtain rfl := Option.some.inj (hv.symm.trans h)
      exact ⟨by rw [hlink]; rfl, by rw [hstart, ← hne, List.nil_append]⟩
  | cons m ms ih =>
    intro w w' hms hw hlive h
    have hm := hms m List.mem_cons_self
    rw [List.flatten_cons, List.append_assoc, Chunks.single, List.map_append,
      Run.run_append_eq] at h
    obtain ⟨t, hfirst, hlater⟩ := Option.bind_eq_some_iff.mp h
    have hrun : w.link.running = true := by
      have hlen : HEADER_SIZE ≤ m.length := hm.length ▸ hm.header.2
      cases m with
      | nil => exact absurd hlen (by decide)
      | cons b m =>
        obtain ⟨u, hread, -⟩ := Run.run_cons_some hfirst
        exact (running_of_read hread).1
    obtain ⟨v, hv, hreceive, hidle⟩ := @run_frame env _ _ hw hm (hlive hrun)
    obtain rfl := Option.some.inj (hv.symm.trans hfirst)
    obtain ⟨hlinks, hstart⟩ := ih (fun m' hm' => hms m' (List.mem_cons_of_mem m hm'))
      (Incoming.start_idle hidle) (live_receive hlive hreceive) hlater
    refine ⟨?_, hstart⟩
    rw [Run.run, hreceive]
    exact hlinks

end Stream

/-- However the stream of the peer's messages is cut, the daemon does what it does for one message
after the other, of each of which it sees the first 220 bytes; what is left is the beginning of the
next one. -/
theorem stream_run (env : Env) (ms cs : List Bytes) (rest : Bytes) (w : World)
    (hms : ∀ m ∈ ms, Incoming.Frame m) (hrest : Incoming.Partial rest) (hcs : ∀ c ∈ cs, c ≠ [])
    (hcut : cs.flatten = ms.flatten ++ rest)
    (h : Run.run (World.read env) World.connected cs = some w) :
    Run.run (Link.receive env) World.connected.link ms = some w.link ∧
      w.incoming.start = Incoming.after rest := by
  have hbytes := Chunks.run_flatten (splits_read env) hcs h
  rw [hcut] at hbytes
  exact run_frames hrest ms hms rfl (fun _ => rfl) hbytes

/-- Two echo requests cut in the middle of their headers, and the beginning of another message. -/
theorem stream_run_echo :
    let env : Env := ⟨⟨5, by decide⟩, 1, true⟩
    let m := setField (setMessage .ECHORQ) 12 [1, 2, 3, 4]
    let cs := [m.take 3, (m.take 8).drop 3, m.drop 8, m.take 8, m.drop 8, m.take 5]
    ∃ w, Run.run (World.read env) World.connected cs = some w ∧ w.link.handled.length = 2 ∧
      Run.run (Link.receive env) World.connected.link [m, m] = some w.link ∧
      w.incoming.start = Incoming.after (m.take 5) := by
  intro env m cs
  have hrun : (Run.run (World.read env) World.connected cs).map (fun w => w.link.handled.length) =
      some 2 := by decide +kernel
  obtain ⟨w, hw, hlength⟩ := Option.map_eq_some_iff.mp hrun
  have hframe : Incoming.Frame m := ⟨⟨by decide +kernel, by decide +kernel⟩, by decide +kernel⟩
  have hms : ∀ m' ∈ [m, m], Incoming.Frame m' := by
    intro m' hm'
    rcases List.mem_pair.mp hm' with rfl | rfl <;> exact hframe
  exact ⟨w, hw, hlength, stream_run env [m, m] cs (m.take 5) w hms (Or.inl (by decide +kernel))
    (by decide +kernel) (by decide +kernel) hw⟩

/-- A header that is not known is refused where it ends. -/
theorem Incoming.recvPacket_refused {i : Incoming} {p : Bytes} {b : BitVec 8}
    (hi : i.start = after p) (hlen : (p ++ [b]).length = HEADER_SIZE) (hbad : ¬ Header (p ++ [b])) :
    (i.recvPacket [b]).2 = -PROTOCOL_ERROR := by
  have hshort : p.length < HEADER_SIZE := by
    rw [List.length_append, List.length_singleton] at hlen
    omega
  have hexpect : (after p).expect = HEADER_SIZE := if_pos hshort
  have hbuffer : (p ++ [b]).take MAX_PACKET_LENGTH = p ++ [b] := by
    rw [List.take_of_length_le]
    rw [hlen]
    decide
  rw [recvPacket, if_neg (List.cons_ne_nil _ _), hi, append_after]
  dsimp only
  rw [if_pos ⟨hlen, hexpect⟩, hbuffer]
  split
  next => rfl
  next hcookie =>
    have hsize : size (p ++ [b]) < HEADER_SIZE := by
      by_contra hge
      exact hbad ⟨not_not.mp hcookie, Nat.not_lt.mp hge⟩
    rw [size] at hsize
    rw [if_pos hsize]

/-- A stream that goes on with another header ends the daemon, behind the messages in front of
it. -/
theorem lost_run (env : Env) (ms cs : List Bytes) (p : Bytes) (w : World)
    (hms : ∀ m ∈ ms, Incoming.Frame m) (hp : p.length = HEADER_SIZE)
    (hbad : ¬ Incoming.Header p) (hcs : ∀ c ∈ cs, c ≠ []) (hcut : cs.flatten = ms.flatten ++ p)
    (h : Run.run (World.read env) World.connected cs = some w) :
    ∃ l, Run.run (Link.receive env) World.connected.link ms = some l ∧
      w.link = l.perform [] (l.session, [], .ret (-PROTOCOL_ERROR)) := by
  have hbytes := Chunks.run_flatten (splits_read env) hcs h
  rcases List.eq_nil_or_concat p with rfl | ⟨q, b, hconcat⟩
  · exact absurd hp (by decide)
  rw [List.concat_eq_append] at hconcat
  subst hconcat
  have hshort : q.length < HEADER_SIZE := by
    rw [List.length_append, List.length_singleton] at hp
    omega
  rw [hcut, ← List.append_assoc, Chunks.single, List.map_append, Run.run_append_eq] at hbytes
  obtain ⟨v, hfront, hlast⟩ := Option.bind_eq_some_iff.mp hbytes
  obtain ⟨hlinks, hstart⟩ := run_frames (Or.inl hshort) ms hms rfl (fun _ => rfl) hfront
  obtain ⟨t, hread, hend⟩ := Run.run_cons_some hlast
  obtain rfl : t = w := Option.some.inj hend
  obtain ⟨hrun, hwant⟩ := running_of_read hread
  have hresult := Incoming.recvPacket_refused hstart hp hbad
  rw [read_of_le hrun hwant (by rw [hresult]; decide), hresult] at hread
  exact ⟨v.link, hlinks, by rw [← Option.some.inj hread]⟩

theorem lost_run_zeros :
    let env : Env := ⟨⟨5, by decide⟩, 1, true⟩
    let m := setField (setMessage .ECHORQ) 12 [1, 2, 3, 4]
    let p : Bytes := List.replicate 8 0
    ∃ w, Run.run (World.read env) World.connected [m.take 8, m.drop 8, p] = some w ∧
      ∃ l, Run.run (Link.receive env) World.connected.link [m] = some l ∧
        w.link = l.perform [] (l.session, [], .ret (-PROTOCOL_ERROR)) := by
  intro env m p
  have hrun : (Run.run (World.read env) World.connected [m.take 8, m.drop 8, p]).isSome := by
    decide +kernel
  obtain ⟨w, hw⟩ := Option.isSome_iff_exists.mp hrun
  have hms : ∀ m' ∈ [m], Incoming.Frame m' := by
    intro m' hm'
    obtain rfl := List.mem_singleton.mp hm'
    exact ⟨⟨by decide +kernel, by decide +kernel⟩, by decide +kernel⟩
  have hbad : ¬ Incoming.Header p := fun hheader => absurd hheader.2 (by decide +kernel)
  exact ⟨w, hw, lost_run env [m] [m.take 8, m.drop 8, p] p w hms rfl hbad (by decide +kernel)
    (by decide +kernel) hw⟩

end ConfProfile.Mtpd.Pptp
