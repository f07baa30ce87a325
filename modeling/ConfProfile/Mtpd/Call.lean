import ConfProfile.Mtpd.Stream

/-!
# What the PPTP daemon does with its messages

Whatever is in the stream, `pppd` is started at most once, for the call that the daemon asked for,
after the peer has confirmed the connection and then the call (`start_run`), and every echo request
is answered once and in order (`echo_run`).
-/

namespace ConfProfile.Mtpd.Pptp

/-! ## When `pppd` is started -/

/-- An SCCRP that confirms the connection. -/
structure Confirms (packet : Nat × Bytes) : Prop where
  code : u16 packet.2 8 = Message.SCCRP.code
  version : u16 packet.2 12 = PROTOCOL_VERSION
  result : established (packet.2.getD 14 0) = true

/-- An OCRP that confirms our call and names the peer's. -/
structure Connects (packet : Nat × Bytes) (start : Start) : Prop where
  code : u16 packet.2 8 = Message.OCRP.code
  peer : u16 packet.2 14 = start.localCall
  result : established (packet.2.getD 16 0) = true
  call : u16 packet.2 12 = start.remote

/-- The peer confirmed the connection and then the call. -/
def Justified (random : BitVec 16) (handled : List (Nat × Bytes)) (start : Start) : Prop :=
  start.localCall = random ∧ ∃ sccrp ocrp, [sccrp, ocrp].Sublist handled ∧ Confirms sccrp ∧
    Connects ocrp start

/-- What the variables say about what was handled and started. -/
structure PppdInv (random : BitVec 16) (s : Session) (handled : List (Nat × Bytes))
    (pppd : List Start) : Prop where
  progress : match s.state with
    | .SCCRQ => pppd = [] ∧ s.localCall = 0
    | .OCRQ => pppd = [] ∧ s.localCall = random ∧
        ∃ sccrp, [sccrp].Sublist handled ∧ Confirms sccrp
    | _ => True
  once : pppd.length ≤ 1
  justified : ∀ start ∈ pppd, Justified random handled start

section Pppd

variable {random : BitVec 16} {s : Session} {handled : List (Nat × Bytes)} {pppd : List Start}

theorem Justified.append {start : Start} (h : Justified random handled start)
    (more : List (Nat × Bytes)) : Justified random (handled ++ more) start := by
  obtain ⟨hlocal, sccrp, ocrp, hsub, hconf, hconn⟩ := h
  exact ⟨hlocal, sccrp, ocrp, hsub.trans (List.sublist_append_left handled more), hconf, hconn⟩

theorem PppdInv.append (h : PppdInv random s handled pppd) (more : List (Nat × Bytes)) :
    PppdInv random s (handled ++ more) pppd := by
  refine ⟨?_, h.once, fun start hstart => (h.justified start hstart).append more⟩
  have hprogress := h.progress
  split at hprogress
  next => exact hprogress
  next =>
    obtain ⟨hpppd, hlocal, sccrp, hsub, hconf⟩ := hprogress
    exact ⟨hpppd, hlocal, sccrp, hsub.trans (List.sublist_append_left handled more), hconf⟩
  next => trivial

theorem pppdInv_handled {env : Env} {length : Nat} {buffer : Bytes}
    {r : Session × List Output × Result} (h : PppdInv env.random s handled pppd)
    (hhandled : Handled env s length buffer r) :
    PppdInv env.random r.1 (handled ++ [(length, buffer)]) (pppd ++ starts r.2.1) := by
  have hlater := h.append [(length, buffer)]
  have hprogress := h.progress
  cases hhandled with
  | quiet => rwa [show starts [] = [] from rfl, List.append_nil]
  | ended => rwa [show starts [] = [] from rfl, List.append_nil]
  | stopped =>
    rw [show starts [] = [] from rfl, List.append_nil]
    exact ⟨trivial, h.once, hlater.justified⟩
  | calling hcode hstate hversion hresult =>
    rw [hstate] at hprogress
    obtain ⟨hpppd, hzero⟩ := hprogress
    have hconfirms : Confirms (length, buffer) := ⟨hcode, hversion, hresult⟩
    rw [show starts [.send _] = [] from rfl, List.append_nil]
    refine ⟨⟨hpppd, ?_, (length, buffer), ?_, hconfirms⟩, h.once, hlater.justified⟩
    · rw [if_pos hzero]
    · exact List.sublist_append_right handled [(length, buffer)]
  | called hcode hstate hpeer hresult =>
    rw [hstate] at hprogress
    obtain ⟨rfl, hlocal, sccrp, hsub, hconfirms⟩ := hprogress
    refine ⟨trivial, Nat.le_refl 1, fun start hstart => ?_⟩
    obtain rfl := List.mem_singleton.mp hstart
    exact ⟨hlocal, sccrp, (length, buffer), hsub.append (List.Sublist.refl _), hconfirms,
      ⟨hcode, hpeer, hresult, rfl⟩⟩
  | failed =>
    rw [show starts [] = [] from rfl, List.append_nil]
    exact ⟨trivial, h.once, hlater.justified⟩
  | echoed => rwa [show starts [.send _] = [] from rfl, List.append_nil]
  | refused => rwa [show starts [.send _] = [] from rfl, List.append_nil]

/-- What the daemon does when it is woken, seen from above the stream. -/
theorem step_link {env : Env} {w w' : World} {recv : Recv} (h : w.step env recv = some w') :
    w'.link.session = w.link.session ∧ w'.link.handled = w.link.handled ∧
        w'.link.sent = w.link.sent ∧ w'.link.pppd = w.link.pppd ∨
      ∃ length buffer, w'.link = w.link.perform [(length, buffer)]
        (pptpHandle env w.link.session length buffer) := by
  have hquiet : ∀ result, (w.link.perform [] (w.link.session, [], result)).session =
      w.link.session ∧ (w.link.perform [] (w.link.session, [], result)).handled = w.link.handled ∧
      (w.link.perform [] (w.link.session, [], result)).sent = w.link.sent ∧
      (w.link.perform [] (w.link.session, [], result)).pppd = w.link.pppd := by
    intro result
    exact ⟨rfl, List.append_nil _, List.append_nil _, List.append_nil _⟩
  cases recv with
  | data bytes =>
    have hread : w.read env bytes = some w' := h
    obtain ⟨hrun, hwant⟩ := running_of_read hread
    by_cases hresult : (w.incoming.recvPacket bytes).2 ≤ 0
    · rw [read_of_le hrun hwant hresult] at hread
      obtain rfl := Option.some.inj hread
      exact Or.inl (hquiet _)
    · rw [read_of_lt hrun hwant (Int.not_le.mp hresult)] at hread
      obtain rfl := Option.some.inj hread
      exact Or.inr ⟨_, _, rfl⟩
  | interrupted =>
    unfold World.step at h
    split at h
    next =>
      obtain rfl := Option.some.inj h
      exact Or.inl (hquiet _)
    next => cases h
  | failed =>
    unfold World.step at h
    split at h
    next =>
      obtain rfl := Option.some.inj h
      exact Or.inl (hquiet _)
    next => cases h

theorem pppdInv_step {env : Env} {w w' : World}
    (h : PppdInv env.random w.link.session w.link.handled w.link.pppd) {recv : Recv}
    (hstep : w.step env recv = some w') :
    PppdInv env.random w'.link.session w'.link.handled w'.link.pppd := by
  rcases step_link hstep with ⟨hsession, hhandled, -, hpppd⟩ | ⟨length, buffer, hlink⟩
  · rw [hsession, hhandled, hpppd]
    exact h
  · rw [hlink]
    exact pppdInv_handled h (pptpHandle_handled ..)

end Pppd

/-- Whatever is in the stream, and however it is cut, `pppd` is started at most once, for the call
that the daemon asked for, after the peer confirmed the connection and then that call. -/
theorem start_run (env : Env) (recvs : List Recv) (w : World)
    (h : Run.run (World.step env) World.connected recvs = some w) :
    w.link.pppd.length ≤ 1 ∧ ∀ start ∈ w.link.pppd, Justified env.random w.link.handled start := by
  have hconnected : PppdInv env.random World.connected.link.session World.connected.link.handled
      World.connected.link.pppd :=
    ⟨⟨rfl, rfl⟩, Nat.zero_le 1, fun start hstart => absurd hstart List.not_mem_nil⟩
  have hinv := Run.inv_run (I := fun w : World => PppdInv env.random w.link.session w.link.handled
    w.link.pppd) (fun _ _ _ hw hstep => pppdInv_step hw hstep) recvs hconnected h
  exact ⟨hinv.once, hinv.justified⟩

/-- The replies of a peer, and an echo request of 16 bytes behind them. -/
def replies : List Recv :=
  let sccrp := setField (setField (setMessage .SCCRP) 12 (be16 PROTOCOL_VERSION)) 14 [RESULT_OK]
  let ocrp := setField (setField (setField (setMessage .OCRP) 12 (be16 9)) 14 (be16 5)) 16 [RESULT_OK]
  let echo := setField (setMessage .ECHORQ) 12 [1, 2, 3, 4]
  [.data (sccrp.take 8), .interrupted, .data (sccrp.drop 8), .data (ocrp.take 8),
    .data (ocrp.drop 8), .data (echo.take 8), .data (echo.drop 8)]

theorem start_run_replies : ∃ w,
    Run.run (World.step ⟨⟨5, by decide⟩, 1, true⟩) World.connected replies = some w ∧
      w.link.pppd = [⟨5, 9⟩] ∧ w.link.pppd.length ≤ 1 ∧
      ∀ start ∈ w.link.pppd, Justified 5 w.link.handled start := by
  have hpppd : (Run.run (World.step ⟨⟨5, by decide⟩, 1, true⟩) World.connected replies).map
      (fun w => w.link.pppd) = some [⟨5, 9⟩] := by decide +kernel
  obtain ⟨w, hw, hstart⟩ := Option.map_eq_some_iff.mp hpppd
  exact ⟨w, hw, hstart, start_run ⟨⟨5, by decide⟩, 1, true⟩ replies w hw⟩

/-! ## Echo requests -/

/-- A packet of that many bytes with that code. -/
structure IsPacket (m : Message) (p : Bytes) : Prop where
  length : p.length = m.length
  code : u16 p 8 = m.code

theorem isPacket_setMessage (m : Message) : IsPacket m (setMessage m) := by
  have hlength : MIN_MESSAGE_SIZE ≤ m.length := by cases m <;> decide
  have hcookie : (be16 (BitVec.ofNat 16 m.length) ++ be16 CONTROL_MESSAGE ++ MAGIC_COOKIE).length =
      8 := by
    simp only [List.length_append, length_be16]
    rfl
  constructor
  · rw [MIN_MESSAGE_SIZE] at hlength
    rw [setMessage, List.length_append, List.length_append, hcookie, length_be16,
      List.length_replicate, MIN_MESSAGE_SIZE]
    omega
  · have hword := u16_append (be16 (BitVec.ofNat 16 m.length) ++ be16 CONTROL_MESSAGE ++ MAGIC_COOKIE)
      (be16 m.code ++ List.replicate (m.length - MIN_MESSAGE_SIZE) 0) 0
    rw [hcookie, ← List.append_assoc, u16_be16] at hword
    exact hword

/-- Fields behind the code. -/
theorem IsPacket.setField {m : Message} {p : Bytes} (h : IsPacket m p) {offset : Nat} {v : Bytes}
    (hoffset : 10 ≤ offset) (hfit : offset + v.length ≤ m.length) :
    IsPacket m (setField p offset v) := by
  have hlength := h.length
  constructor
  · rw [Pptp.setField, List.length_append, List.length_append, List.length_take, List.length_drop]
    omega
  · have htake : 8 + 2 ≤ (p.take offset).length := by rw [List.length_take]; omega
    have hword := u16_append_left (p.drop offset) htake
    rw [List.take_append_drop] at hword
    rw [Pptp.setField, List.append_assoc, u16_append_left _ htake, ← hword, h.code]

theorem isPacket_ocrq (call serial : BitVec 16) : IsPacket .OCRQ (ocrq call serial) := by
  have h16 : ∀ w : BitVec 16, (be16 w).length = 2 := length_be16
  unfold ocrq
  refine ((((((((isPacket_setMessage .OCRQ).setField ?_ ?_).setField ?_ ?_).setField ?_ ?_).setField
    ?_ ?_).setField ?_ ?_).setField ?_ ?_).setField ?_ ?_)
  all_goals first
    | decide
    | (rw [h16]; decide)

theorem isPacket_refusal {m : Message} (hm : m = .ICRP ∨ m = .OCRP) (call : BitVec 16) :
    IsPacket m (refusal m call) := by
  have hlength : 24 ≤ m.length := by rcases hm with rfl | rfl <;> decide
  refine ((isPacket_setMessage m).setField (by decide) ?_).setField (by decide) ?_
  · rw [length_be16]
    omega
  · rw [List.length_singleton]
    omega

theorem isPacket_echorp {identifier : Bytes} (h : identifier.length ≤ 4) :
    IsPacket .ECHORP (echorp identifier) := by
  refine ((isPacket_setMessage .ECHORP).setField (by decide) ?_).setField (by decide) (by decide)
  rw [Message.length]
  omega

/-- The answers among the packets that were sent. -/
def echoes (sent : List Bytes) : List Bytes := sent.filter fun p => u16 p 8 == Message.ECHORP.code

/-- The answers that are due. -/
def due (handled : List (Nat × Bytes)) : List Bytes :=
  (handled.filter fun p => EchoRequest p).map fun p => echorp ((p.2.drop 12).take 4)

theorem echoes_other {m : Message} {p : Bytes} (h : IsPacket m p) (hm : m ≠ .ECHORP) :
    echoes [p] = [] := by
  have hcode : (u16 p 8 == Message.ECHORP.code) = false := by
    rw [h.code]
    cases m <;> first | rfl | exact absurd rfl hm
  rw [echoes, List.filter_cons_of_neg (by rw [hcode]; exact Bool.false_ne_true), List.filter_nil]

theorem due_other {packet : Nat × Bytes} (h : ¬ EchoRequest packet) : due [packet] = [] := by
  rw [due, List.filter_cons_of_neg (by simpa using h), List.filter_nil, List.map_nil]

/-- A message is answered if it asks for an answer. -/
theorem Handled.echoes_eq {env : Env} {s : Session} {length : Nat} {buffer : Bytes}
    {r : Session × List Output × Result} (h : Handled env s length buffer r) :
    echoes (packets r.2.1) = due [(length, buffer)] := by
  cases h with
  | quiet hecho => exact (due_other hecho).symm
  | ended hecho => exact (due_other hecho).symm
  | stopped hecho => exact (due_other hecho).symm
  | calling hcode =>
    rw [due_other (not_echoRequest hcode (by decide))]
    exact echoes_other (isPacket_ocrq _ _) (by decide)
  | called hcode => exact (due_other (not_echoRequest hcode (by decide))).symm
  | failed hecho => exact (due_other hecho).symm
  | echoed hecho =>
    have hfour : ((buffer.drop 12).take 4).length ≤ 4 := by
      rw [List.length_take]
      exact Nat.min_le_left _ _
    have hpacket := isPacket_echorp hfour
    rw [due, List.filter_cons_of_pos (by simpa using hecho)]
    exact List.filter_cons_of_pos (by rw [hpacket.code]; rfl)
  | refused hecho m hm =>
    rw [due_other hecho]
    refine echoes_other (isPacket_refusal hm _) ?_
    rcases hm with rfl | rfl <;> decide

theorem echoes_append (a b : List Bytes) : echoes (a ++ b) = echoes a ++ echoes b :=
  List.filter_append ..

theorem due_append (a b : List (Nat × Bytes)) : due (a ++ b) = due a ++ due b := by
  rw [due, List.filter_append, List.map_append]
  rfl

/-- Every echo request that came through the stream is answered, with its identifier, once and in
order, and nothing else is. -/
theorem echo_run (env : Env) (recvs : List Recv) (w : World)
    (h : Run.run (World.step env) World.connected recvs = some w) :
    echoes w.link.sent = due w.link.handled := by
  have hstart : echoes World.connected.link.sent = due World.connected.link.handled := by
    decide +kernel
  refine Run.inv_run (I := fun w : World => echoes w.link.sent = due w.link.handled)
    (fun w recv w' hw hstep => ?_) recvs hstart h
  rcases step_link hstep with ⟨-, hhandled, hsent, -⟩ | ⟨length, buffer, hlink⟩
  · rw [hhandled, hsent]
    exact hw
  · rw [hlink, Link.perform, echoes_append, due_append, hw,
      (pptpHandle_handled env w.link.session length buffer).echoes_eq]

theorem echo_run_replies : ∃ w,
    Run.run (World.step ⟨⟨5, by decide⟩, 1, true⟩) World.connected replies = some w ∧
      echoes w.link.sent = [echorp [1, 2, 3, 4]] ∧ echoes w.link.sent = due w.link.handled := by
  have hechoes : (Run.run (World.step ⟨⟨5, by decide⟩, 1, true⟩) World.connected replies).map
      (fun w => echoes w.link.sent) = some [echorp [1, 2, 3, 4]] := by decide +kernel
  obtain ⟨w, hw, hecho⟩ := Option.map_eq_some_iff.mp hechoes
  exact ⟨w, hw, hecho, echo_run ⟨⟨5, by decide⟩, 1, true⟩ replies w hw⟩

end ConfProfile.Mtpd.Pptp
