import Mathlib.Data.List.Count
import Mathlib.Tactic.Ring
import ConfProfile.Debug.Pcap

/-!
# Captures of a tunnel (`pcap_output.c`, `debug_restart_pcap`, `debug_stop_pcap`)

A tunnel context has at most one `pcap_output_t`, which holds a `PcapOutputStream` by a global
reference. `pcap_output_reset`, for a restart while there is one, forgets the old stream before it
takes the references: it deletes the reference of NULL and takes one of NULL, so the output is left
without a stream and the old one keeps its reference. What a capture gets is therefore up to the
restarts since the last stop (`session`): with one of them every packet goes to its stream, with
more of them to none (`capture_run`).
-/

namespace ConfProfile.Debug

/-- A reference to a stream, `none` for NULL. -/
abbrev JObject := Option Nat

/-- A call of a method of a stream. -/
inductive JavaCall where
  | writePacket (jpcap : JObject) (packet : List Byte)
  | flush (jpcap : JObject)
  | close (jpcap : JObject)
  deriving DecidableEq

/-- What the virtual machine sees: the calls in their order, and the global references of each
stream and of the class. -/
structure Vm where
  calls : List JavaCall
  globalRefs : Nat → Int
  classRefs : Int

def Vm.call (vm : Vm) (c : JavaCall) : Vm := { vm with calls := vm.calls ++ [c] }

/-- `NewGlobalRef`, NULL for NULL. -/
def Vm.newGlobalRef (vm : Vm) : JObject → JObject × Vm
  | none => (none, vm)
  | some o => (some o, { vm with globalRefs := Function.update vm.globalRefs o (vm.globalRefs o + 1) })

/-- `DeleteGlobalRef`, nothing for NULL. -/
def Vm.deleteGlobalRef (vm : Vm) : JObject → Vm
  | none => vm
  | some o => { vm with globalRefs := Function.update vm.globalRefs o (vm.globalRefs o - 1) }

/-- `pcap_output_t`. The class and its methods are found. -/
structure PcapOutput where
  jpcap : JObject
  deriving DecidableEq

/-- `pcap_output_init`; `malloc` is whether it gives the memory. -/
def pcapOutputInit (vm : Vm) (jpcap : JObject) (malloc : Bool) : Option PcapOutput × Vm :=
  if malloc then
    let vm := { vm with classRefs := vm.classRefs + 1 }
    match jpcap with
    | none => (some ⟨none⟩, vm)
    | some o =>
      let (jpcap, vm) := vm.newGlobalRef (some o)
      (some ⟨jpcap⟩, vm)
  else (none, vm)

/-- `pcap_output_flush`. -/
def pcapOutputFlush (vm : Vm) (output : PcapOutput) : Vm :=
  if output.jpcap = none then vm else vm.call (.flush output.jpcap)

/-- `pcap_output_close`. -/
def pcapOutputClose (vm : Vm) (output : PcapOutput) : Vm :=
  if output.jpcap = none then vm else vm.call (.close output.jpcap)

/-- `pcap_output_reset`. -/
def pcapOutputReset (vm : Vm) (output : PcapOutput) (jpcapNew : JObject) : PcapOutput × Vm :=
  let vm := pcapOutputFlush vm output
  let vm := pcapOutputClose vm output
  let jpcapOld := output.jpcap
  let output := { output with jpcap := none }
  let jpcap := output.jpcap
  let vm := if jpcapOld = none then vm else vm.deleteGlobalRef output.jpcap
  if jpcapNew = none then (output, vm)
  else
    let (jpcap, vm) := vm.newGlobalRef jpcap
    ({ output with jpcap := jpcap }, vm)

/-- `pcap_output_write`, from offset 0. The method is called whatever the stream is. -/
def pcapOutputWrite (vm : Vm) (output : Option PcapOutput) (packet : List Byte) : Vm :=
  match output with
  | none => vm
  | some output => vm.call (.writePacket output.jpcap packet)

/-- `pcap_output_destroy`. -/
def pcapOutputDestroy (vm : Vm) (output : PcapOutput) : Vm :=
  let vm := { vm with classRefs := vm.classRefs - 1 }
  vm.deleteGlobalRef output.jpcap

/-- The capture of a tunnel context. -/
structure TunPcap where
  pcapOutput : Option PcapOutput
  vm : Vm

/-- `debug_restart_pcap`. -/
def debugRestartPcap (s : TunPcap) (object : JObject) (malloc : Bool) : TunPcap :=
  match s.pcapOutput with
  | some output =>
    let (output, vm) := pcapOutputReset s.vm output object
    ⟨some output, vm⟩
  | none =>
    let (output, vm) := pcapOutputInit s.vm object malloc
    ⟨output, vm⟩

/-- `debug_stop_pcap`. -/
def debugStopPcap (s : TunPcap) : TunPcap :=
  match s.pcapOutput with
  | some output =>
    let vm := pcapOutputFlush s.vm output
    let vm := pcapOutputClose vm output
    ⟨none, pcapOutputDestroy vm output⟩
  | none => s

/-- What happens to the capture: the debug calls, and a packet through the tunnel. -/
inductive PcapOp where
  | restart (object : JObject) (malloc : Bool)
  | stop
  | write (packet : List Byte)

def pcapStep (s : TunPcap) : PcapOp → TunPcap
  | .restart object malloc => debugRestartPcap s object malloc
  | .stop => debugStopPcap s
  | .write packet => { s with vm := pcapOutputWrite s.vm s.pcapOutput packet }

/-- A new tunnel context. -/
def newTunPcap : TunPcap := ⟨none, ⟨[], fun _ => 0, 0⟩⟩

/-! ## One step -/

/-- The streams of the restarts since the last stop; one that gets no memory does not count. -/
def session (h : List JObject) : PcapOp → List JObject
  | .restart object malloc => if h = [] ∧ malloc = false then [] else h ++ [object]
  | .stop => []
  | .write _ => h

/-- The output that belongs to the restarts since the last stop. -/
def outputOf : List JObject → Option PcapOutput
  | [] => none
  | [object] => some ⟨object⟩
  | _ :: _ :: _ => some ⟨none⟩

/-- The calls of the end of a session on one stream. -/
def endCalls : List JObject → List JavaCall
  | [some o] => [.flush (some o), .close (some o)]
  | _ => []

/-- The calls of a step. -/
def stepCalls (h : List JObject) : PcapOp → List JavaCall
  | .write packet =>
    match outputOf h with
    | some output => [.writePacket output.jpcap packet]
    | none => []
  | .restart _ _ => endCalls h
  | .stop => endCalls h

/-- What a step adds to the references of a stream. -/
def stepRefs (h : List JObject) (o : Nat) : PcapOp → Int
  | .restart object malloc => if h = [] ∧ malloc = true ∧ object = some o then 1 else 0
  | .stop => if h = [some o] then -1 else 0
  | .write _ => 0

theorem outputOf_append (x object : JObject) (l : List JObject) :
    outputOf (x :: l ++ [object]) = some ⟨none⟩ := by
  cases l <;> rfl

theorem endCalls_many (x y : JObject) (l : List JObject) : endCalls (x :: y :: l) = [] := by
  cases x <;> rfl

/-- Flushing and closing is two calls, unless there is no stream. -/
theorem close_flush (vm : Vm) (jpcap : JObject) :
    pcapOutputClose (pcapOutputFlush vm ⟨jpcap⟩) ⟨jpcap⟩ =
      { vm with calls := vm.calls ++ endCalls [jpcap] } := by
  cases jpcap with
  | none => simp [pcapOutputFlush, pcapOutputClose, endCalls]
  | some o => simp [pcapOutputFlush, pcapOutputClose, endCalls, Vm.call]

/-- A reset ends without a stream and without a change to the references. -/
theorem pcapOutputReset_eq (vm : Vm) (jpcap jpcapNew : JObject) :
    pcapOutputReset vm ⟨jpcap⟩ jpcapNew =
      (⟨none⟩, { vm with calls := vm.calls ++ endCalls [jpcap] }) := by
  unfold pcapOutputReset
  simp only [close_flush]
  cases jpcap <;> cases jpcapNew <;> rfl

/-- Everything a step does, in terms of the restarts since the last stop. -/
theorem pcapStep_eq {h : List JObject} {s : TunPcap} (hs : s.pcapOutput = outputOf h)
    (op : PcapOp) :
    (pcapStep s op).pcapOutput = outputOf (session h op) ∧
      (pcapStep s op).vm.calls = s.vm.calls ++ stepCalls h op ∧
      ∀ o, (pcapStep s op).vm.globalRefs o = s.vm.globalRefs o + stepRefs h o op := by
  obtain ⟨output, vm⟩ := s
  change output = outputOf h at hs
  subst hs
  cases op with
  | restart object malloc =>
    match h with
    | [] =>
      cases malloc with
      | false => exact ⟨rfl, (List.append_nil _).symm, fun o => by simp [pcapStep, debugRestartPcap,
          outputOf, pcapOutputInit, stepRefs]⟩
      | true =>
        cases object with
        | none => exact ⟨rfl, (List.append_nil _).symm, fun o => by simp [pcapStep,
            debugRestartPcap, outputOf, pcapOutputInit, stepRefs]⟩
        | some x =>
          refine ⟨rfl, (List.append_nil _).symm, fun o => ?_⟩
          by_cases hx : o = x
          · subst hx
            simp [pcapStep, debugRestartPcap, outputOf, pcapOutputInit, Vm.newGlobalRef, stepRefs]
          · simp [pcapStep, debugRestartPcap, outputOf, pcapOutputInit, Vm.newGlobalRef, stepRefs,
              Function.update_of_ne hx, Ne.symm hx]
    | [x] =>
      have hreset : pcapStep ⟨outputOf [x], vm⟩ (.restart object malloc) =
          ⟨some ⟨none⟩, { vm with calls := vm.calls ++ endCalls [x] }⟩ := by
        simp [pcapStep, debugRestartPcap, outputOf, pcapOutputReset_eq]
      rw [hreset]
      exact ⟨rfl, rfl, fun o => by simp [stepRefs]⟩
    | x :: y :: l =>
      have hreset : pcapStep ⟨outputOf (x :: y :: l), vm⟩ (.restart object malloc) =
          ⟨some ⟨none⟩, { vm with calls := vm.calls ++ endCalls [none] }⟩ := by
        simp [pcapStep, debugRestartPcap, outputOf, pcapOutputReset_eq]
      rw [hreset]
      refine ⟨(outputOf_append x object (y :: l)).symm, ?_, fun o => by simp [stepRefs]⟩
      rw [stepCalls, endCalls_many]
      rfl
  | stop =>
    match h with
    | [] => exact ⟨rfl, (List.append_nil _).symm, fun o => (add_zero _).symm⟩
    | [x] =>
      have hstop : pcapStep ⟨outputOf [x], vm⟩ .stop =
          ⟨none, pcapOutputDestroy { vm with calls := vm.calls ++ endCalls [x] } ⟨x⟩⟩ := by
        simp [pcapStep, debugStopPcap, outputOf, close_flush]
      rw [hstop]
      cases x with
      | none => exact ⟨rfl, rfl, fun o => by simp [pcapOutputDestroy, Vm.deleteGlobalRef, stepRefs]⟩
      | some x =>
        refine ⟨rfl, rfl, fun o => ?_⟩
        by_cases hx : o = x
        · subst hx
          simp [pcapOutputDestroy, Vm.deleteGlobalRef, stepRefs]
          rfl
        · simp [pcapOutputDestroy, Vm.deleteGlobalRef, stepRefs, Function.update_of_ne hx,
            Ne.symm hx]
    | x :: y :: l =>
      have hstop : pcapStep ⟨outputOf (x :: y :: l), vm⟩ .stop =
          ⟨none, pcapOutputDestroy { vm with calls := vm.calls ++ endCalls [none] } ⟨none⟩⟩ := by
        simp [pcapStep, debugStopPcap, outputOf, close_flush]
      rw [hstop]
      refine ⟨rfl, ?_, fun o => by simp [pcapOutputDestroy, Vm.deleteGlobalRef, stepRefs]⟩
      rw [stepCalls, endCalls_many]
      rfl
  | write packet =>
    refine ⟨rfl, ?_, fun o => ?_⟩
    · cases hout : outputOf h with
      | none => simp [pcapStep, pcapOutputWrite, stepCalls, hout]
      | some output => simp [pcapStep, pcapOutputWrite, stepCalls, hout, Vm.call]
    · cases hout : outputOf h with
      | none => simp [pcapStep, pcapOutputWrite, stepRefs]
      | some output => simp [pcapStep, pcapOutputWrite, stepRefs, Vm.call]

/-! ## Runs -/

/-- The stream is the only one of the session. -/
def current (o : Nat) (h : List JObject) : Nat := if h = [some o] then 1 else 0

/-- The step begins a session on the stream. -/
def begins (o : Nat) (h : List JObject) (op : PcapOp) : Nat :=
  if h = [] then current o (session h op) else 0

/-- The step is another restart in a session of the stream. -/
def restarts (o : Nat) (h : List JObject) : PcapOp → Nat
  | .restart _ _ => current o h
  | .stop => 0
  | .write _ => 0

/-- How often a step of a run does something. -/
def total (f : List JObject → PcapOp → Nat) (h : List JObject) : List PcapOp → Nat
  | [] => 0
  | op :: ops => f h op + total f (session h op) ops

theorem current_append (o : Nat) (h : List JObject) (object : JObject) (hne : h ≠ []) :
    current o (h ++ [object]) = 0 := by
  match h with
  | [] => exact absurd rfl hne
  | [x] => exact if_neg (by simp)
  | x :: y :: l => exact if_neg (by simp)

/-- A stream is closed when its session ends. -/
theorem count_endCalls (o : Nat) (h : List JObject) :
    (endCalls h).count (.close (some o)) = current o h := by
  match h with
  | [] => rfl
  | [none] => rfl
  | [some x] =>
    rw [endCalls, current, List.count_cons, List.count_singleton]
    simp
  | x :: y :: l =>
    rw [endCalls_many, current, if_neg (by simp)]
    rfl

theorem count_stepCalls (o : Nat) (h : List JObject) (op : PcapOp) :
    (stepCalls h op).count (.close (some o)) + current o (session h op)
      = current o h + begins o h op := by
  cases op with
  | write packet =>
    have hnone : (stepCalls h (.write packet)).count (.close (some o)) = 0 := by
      unfold stepCalls
      cases outputOf h with
      | none => rfl
      | some output => exact List.count_singleton.trans (if_neg (by simp))
    have hbegins : begins o h (.write packet) = 0 := by
      unfold begins
      split
      next hnil => rw [hnil]; rfl
      next => rfl
    rw [hnone, hbegins]
    exact Nat.zero_add _
  | stop =>
    have hbegins : begins o h .stop = 0 := by
      unfold begins
      split <;> rfl
    rw [stepCalls, count_endCalls, hbegins]
    rfl
  | restart object malloc =>
    rw [stepCalls, count_endCalls, begins]
    split
    next hnil => rw [hnil, Nat.add_comm]
    next hne => rw [session, if_neg fun hx => hne hx.1, current_append o h object hne]

theorem stepRefs_eq (o : Nat) (h : List JObject) (op : PcapOp) :
    stepRefs h o op = current o (session h op) - current o h + restarts o h op := by
  cases op with
  | write packet =>
    rw [stepRefs, session, restarts]
    omega
  | stop =>
    have hend : current o (session h .stop) = 0 := rfl
    rw [stepRefs, hend, restarts, current]
    split <;> rfl
  | restart object malloc =>
    rw [stepRefs, restarts]
    by_cases hnil : h = []
    · subst hnil
      cases malloc with
      | false => simp [session, current]
      | true =>
        have hbegin : session [] (.restart object true) = [object] := rfl
        have hfree : current o [] = 0 := rfl
        rw [hbegin, hfree, current]
        by_cases ho : object = some o
        · simp [ho]
        · simp [ho]
    · rw [if_neg fun hx => hnil hx.1, session, if_neg fun hx => hnil hx.1,
        current_append o h object hnil]
      omega

/-- A run, from the restarts since the last stop. -/
theorem pcapRun (o : Nat) (ops : List PcapOp) : ∀ {h : List JObject} {s : TunPcap},
    s.pcapOutput = outputOf h →
    (ops.foldl pcapStep s).pcapOutput = outputOf (ops.foldl session h) ∧
    (ops.foldl pcapStep s).vm.calls.count (.close (some o)) + current o (ops.foldl session h)
      = s.vm.calls.count (.close (some o)) + current o h + total (begins o) h ops ∧
    (ops.foldl pcapStep s).vm.globalRefs o = s.vm.globalRefs o
      + (current o (ops.foldl session h) - current o h + total (restarts o) h ops) := by
  induction ops with
  | nil =>
    intro h s hs
    refine ⟨hs, rfl, ?_⟩
    simp [total]
  | cons op ops ih =>
    intro h s hs
    obtain ⟨hout, hcalls, hrefs⟩ := pcapStep_eq hs op
    obtain ⟨hout', hclosed, hrefs'⟩ := ih hout
    have hstep := count_stepCalls o h op
    refine ⟨hout', ?_, ?_⟩
    · rw [List.foldl_cons, List.foldl_cons, hclosed, hcalls, List.count_append, total]
      omega
    · rw [List.foldl_cons, List.foldl_cons, hrefs', hrefs, stepRefs_eq, total]
      push_cast
      ring

/-- After every run on a new tunnel context: a packet goes to a stream exactly while the restart with
it is the only one since the last stop; in a session with another restart the method is called on
NULL, and without a session nothing is called. A stream is closed once for each session that began
with it, and each of these sessions that saw another restart has left a global reference to it. -/
theorem capture_run (ops : List PcapOp) (o : Nat) :
    (∀ packet, (pcapStep (ops.foldl pcapStep newTunPcap) (.write packet)).vm.calls =
      (ops.foldl pcapStep newTunPcap).vm.calls ++
        match ops.foldl session [] with
        | [] => []
        | [object] => [.writePacket object packet]
        | _ :: _ :: _ => [.writePacket none packet]) ∧
    (ops.foldl pcapStep newTunPcap).vm.calls.count (.close (some o))
      + current o (ops.foldl session []) = total (begins o) [] ops ∧
    (ops.foldl pcapStep newTunPcap).vm.globalRefs o
      = current o (ops.foldl session []) + total (restarts o) [] ops := by
  obtain ⟨hout, hclosed, hrefs⟩ := pcapRun o ops (h := []) (s := newTunPcap) rfl
  refine ⟨fun packet => ?_, ?_, ?_⟩
  · rw [(pcapStep_eq hout (.write packet)).2.1, stepCalls]
    match ops.foldl session [] with
    | [] => rfl
    | [object] => rfl
    | _ :: _ :: _ => rfl
  · rw [hclosed]
    exact Nat.zero_add _
  · rw [hrefs]
    simp [newTunPcap, current]

end ConfProfile.Debug
