import ConfProfile.Usernat.Table
import ConfProfile.Lib.Run

/-!
# The user NAT between its threads

`usernat_tun_ctx_send` on the router thread beside `UsernatTunnel.run` on the
Java thread. A `NatAct` is a section of one of them: what is done under one
holding of the lock, or between two, as the source divides it. A run of `natStep`
is an interleaving. `natStep_cases` says once what each section can do
(`NatStep`); everything about runs is proved from it.

A freed link is read as the zeros that `link_deinit` leaves in it. `serial`,
`stamp`, `openHops`, `terminated`, `accepted` and `written` are no part of the
program: they record what the theorems speak of.

`UsernatTunnel.run` leaves its loop on an I/O error, behind which it makes no
calls; a run ends there.
-/

namespace ConfProfile

open ByteMem

/-- A packet on its way through `usernat_tun_ctx_send`, behind the first section of
`find_link`. `stamp` numbers the calls. -/
structure NatJob where
  mem : Mem
  len : Nat
  packet : OcpaIpPacket
  key : LinkKey
  linkType : BitVec 8
  stamp : Nat

/-- `find_link` up to the lookup, for a parsed packet; `none` where it returns NULL. -/
def findLinkJob (inst : UsernatCtx) (packet : OcpaIpPacket) (m : Mem) (len stamp : Nat) :
    Option NatJob :=
  if packet.ipver = 4 then
    match (findLinkAddr inst packet).val m with
    | none => none
    | some key => (localLinkType packet.payloadProto).map fun linkType =>
      ⟨(findLinkAddr inst packet).mem m, len, packet, key, linkType, stamp⟩
  else none

/-- `usernat_tun_ctx_send` up to the lookup; `none` for a packet that is dropped
before. -/
def natJob (inst : UsernatCtx) (m : Mem) (len stamp : Nat) : Option NatJob :=
  findLinkJob inst ((ipParsePacket (newPacket len len)).val m) m len stamp

/-- Where the payload header of the job's packet is. -/
def NatJob.payloadOffs (job : NatJob) : Nat := job.packet.payloadHeader.getD 0

/-- What `natJob` makes of a packet: an incoming packet stays as it is, an outgoing
one has its destination translated. -/
structure JobOf (inst : UsernatCtx) (m : Mem) (len stamp : Nat) (job : NatJob) : Prop where
  parsed : ParsedAs job.packet m
  version : ipverOf (m 0) = 4
  proto : m 9 = ipprotoTcp ∨ m 9 = ipprotoUdp
  linkType : job.linkType = if m 9 = ipprotoTcp then natLinkTcp4 else natLinkUdp4
  len : job.len = len
  stamp : job.stamp = stamp
  direction :
    (inst.remote4 = addr4 m 16 ∧ job.mem = m ∧
      job.key = ⟨true, ntohs (m.word16 (segOffs m + 2)), inst.remote4,
        ntohs (m.word16 (segOffs m))⟩) ∨
    (inst.remote4 ≠ addr4 m 16 ∧ inst.local4 = addr4 m 12 ∧
      job.mem = patchAll m (virtualDnsPatches inst (addr4 m 16)) ∧
      job.key = ⟨false, ntohs (m.word16 (segOffs m)), virtualToDns inst (addr4 m 16),
        ntohs (m.word16 (segOffs m + 2))⟩)

theorem natJob_eq_some {inst : UsernatCtx} {m : Mem} {len stamp : Nat} {job : NatJob}
    (h : natJob inst m len stamp = some job) : JobOf inst m len stamp job := by
  unfold natJob findLinkJob at h
  split at h
  next hver =>
    split at h
    next => cases h
    next key hkey =>
      obtain ⟨linkType, htype, rfl⟩ := Option.map_eq_some_iff.mp h
      have hproto := ipParsePacket_payloadProto m _ hver
      rw [hproto] at htype
      have htcpudp : m 9 = ipprotoTcp ∨ m 9 = ipprotoUdp := by
        unfold localLinkType at htype
        split at htype
        next htcp => exact Or.inl htcp
        next =>
          split at htype
          next hudp => exact Or.inr hudp
          next => cases htype
      obtain ⟨hheader, hsrc, hdst⟩ := ipParsePacket_ports m _ hver htcpudp
      have hversion : ipverOf (m 0) = 4 := by
        rw [ipParsePacket_ipver] at hver
        split at hver
        · exact hver
        · cases hver
      refine ⟨⟨hver, hproto, hheader⟩, hversion, htcpudp, ?_, rfl, rfl, ?_⟩
      · unfold localLinkType at htype
        split at htype
        next htcp =>
          rw [if_pos htcp]
          exact (Option.some.inj htype).symm
        next htcp =>
          rw [if_pos (htcpudp.resolve_left htcp)] at htype
          rw [if_neg htcp]
          exact (Option.some.inj htype).symm
      · rw [findLinkAddr_val, hsrc, hdst] at hkey
        rw [findLinkAddr_mem]
        by_cases hin : inst.remote4 = addr4 m 16
        · rw [if_pos hin] at hkey
          rw [if_pos hin]
          exact Or.inl ⟨hin, rfl, (Option.some.inj hkey).symm⟩
        · rw [if_neg hin] at hkey
          rw [if_neg hin]
          split at hkey
          next hout =>
            rw [if_pos hout]
            exact Or.inr ⟨hin, hout, rfl, (Option.some.inj hkey).symm⟩
          next => cases hkey
  next => cases h

/-- `UsernatTunnel.SocatTunnelContext`, as `buildSocatTunnel` queues it. -/
structure SocatTunnelContext where
  inAcceptFd : Int
  inConnectFd : Int
  inDstAddr : BitVec 32
  inDstPort : Nat
  inNativeLinkPtr : Nat
  deriving DecidableEq, Repr

/-- `SocatTunnelContext.isRequestReady`. -/
def SocatTunnelContext.isRequestReady (c : SocatTunnelContext) : Bool :=
  !(c.inAcceptFd == -1 || c.inConnectFd == -1 || c.inDstPort == 0 || c.inNativeLinkPtr == 0)

/-- `buildSocatTunnel`. -/
def buildSocatTunnel (link : NatLink) (ptr : Nat) : SocatTunnelContext :=
  ⟨link.sockAccept, link.sockConnect, link.realDstAddr, link.realDstPort.toNat, ptr⟩

/-- A queue that a thread has taken from the link of `serial` and writes to the dev
tunnel. -/
structure Drain where
  serial : Nat
  queue : List QueueLink
  deriving DecidableEq, Repr

/-- The open `sock_accept` of a link, bound at a local port. -/
structure HopSocket where
  serial : Nat
  linkType : BitVec 8
  port : BitVec 16
  deriving DecidableEq, Repr

/-- Where the router thread is in `usernat_tun_ctx_send`. -/
inductive NatPc where
  | idle
  /-- in front of `find_link4` -/
  | lookup (job : NatJob)
  /-- in front of `create_link` -/
  | create (job : NatJob)
  /-- with a link that is not in the table yet -/
  | push (job : NatJob) (entry : LinkEntry)
  /-- in front of `buildSocatTunnel` -/
  | build (job : NatJob) (ptr serial : Nat)
  /-- in front of the test of its result -/
  | built (job : NatJob) (ptr serial : Nat)
  /-- in front of `usernat_set_pid_for_link` for a link whose set-up failed -/
  | failed (ptr : Nat)
  /-- behind the section of that call -/
  | drain (d : Drain)
  /-- with a link, in front of the translation -/
  | rewrite (job : NatJob) (ptr serial : Nat)
  /-- in front of the `send` through the dev tunnel -/
  | write (serial : Nat) (item : QueueLink)

/-- The user NAT between its two threads. -/
structure NatSystem where
  inst : UsernatCtx
  links : List LinkEntry
  router : NatPc
  /-- the queue that the Java thread is writing -/
  java : Option Drain
  /-- `mQueue` -/
  requests : List SocatTunnelContext
  /-- the hop sockets that are open -/
  openHops : List HopSocket
  /-- the links whose relay was reported terminated -/
  terminated : List Nat
  nextSerial : Nat
  nextStamp : Nat
  /-- the packets that got a link, with its serial -/
  accepted : List (Nat × QueueLink)
  /-- the packets that were sent through the dev tunnel -/
  written : List (Nat × QueueLink)

/-- An empty table. -/
def natInit (inst : UsernatCtx) : NatSystem where
  inst := inst
  links := []
  router := .idle
  java := none
  requests := []
  openHops := []
  terminated := []
  nextSerial := 0
  nextStamp := 0
  accepted := []
  written := []

/-- A step of one of the two threads. -/
inductive NatAct where
  /-- `usernat_tun_ctx_send` is called with a packet -/
  | send (m : Mem) (len : Nat)
  | lookup
  | create (answer : Option LinkAnswer)
  | push
  /-- `buildSocatTunnel` returns 0, or -1 for an exception -/
  | build (ok : Bool)
  | check
  | failBuild
  | routerDrain
  /-- the translation, and `malloc` for an enqueued packet -/
  | rewrite (alloc : Bool)
  | write
  /-- Java takes a request and reports the pid that the usernat process answers -/
  | poll (pid : Int)
  /-- any other call of `usernat_set_pid_for_link` -/
  | setPid (ptr : Nat) (pid : Int)
  | javaDrain
  /-- Java logs a report "terminated <pid>" -/
  | report (pid : Int)
  | setDnsIp4 (idx : Nat) (ip4 : BitVec 32)
  | setVirtualDnsIp4 (idx : Nat) (ip4 : BitVec 32)

/-- What is read through a link pointer. -/
def NatSystem.linkAt (s : NatSystem) (ptr : Nat) : NatLink :=
  (entryAt ptr s.links).elim zeroLink LinkEntry.link

/-- The packet behind the translation in `usernat_tun_ctx_send`. -/
def NatSystem.translate (s : NatSystem) (job : NatJob) (ptr : Nat) : Mem :=
  (usernatRewrite s.inst (s.linkAt ptr) job.key.isIncoming job.packet job.len).mem job.mem

/-- The copy of the translated packet that goes to the queue or to the dev tunnel. -/
def NatSystem.item (s : NatSystem) (job : NatJob) (ptr : Nat) : QueueLink :=
  ⟨(s.translate job ptr).bytes 0 job.len, job.stamp⟩

/-- The queue that `usernat_set_pid_for_link` takes from the link it finds. -/
def drainOf (found : Option LinkEntry) : Option Drain :=
  found.bind fun e => e.link.packetsQueue.map (Drain.mk e.serial)

/-- What the kernel and `malloc` promise of an answer: an address that is not in
use, and a port at which no socket of the type is open. -/
def NatSystem.Grants (s : NatSystem) (linkType : BitVec 8) (answer : LinkAnswer) : Prop :=
  answer.ptr ≠ 0 ∧ (∀ e ∈ s.links, e.ptr ≠ answer.ptr) ∧
    ∀ hop ∈ s.openHops, ¬ (hop.linkType = linkType ∧ hop.port = answer.hopPort)

instance (s : NatSystem) (linkType : BitVec 8) (answer : LinkAnswer) :
    Decidable (s.Grants linkType answer) :=
  inferInstanceAs (Decidable (_ ∧ _ ∧ _))

/-- `create_link`, with the answer of the kernel. -/
def NatSystem.createStep (s : NatSystem) (job : NatJob) (answer : Option LinkAnswer) :
    Option NatSystem :=
  match answer, createLink job.linkType job.mem job.payloadOffs answer with
  | some a, some link =>
    if s.Grants job.linkType a then
      some { s with
        router := .push job ⟨a.ptr, s.nextSerial, link⟩
        nextSerial := s.nextSerial + 1
        openHops := ⟨s.nextSerial, job.linkType, a.hopPort⟩ :: s.openHops }
    else none
  | _, _ => some { s with router := .idle }

/-- The hop sockets behind `close(result->common.sock_accept)`. -/
def NatSystem.closeAt (s : NatSystem) (ptr : Nat) : List HopSocket :=
  match entryAt ptr s.links with
  | some e => s.openHops.filter fun hop => hop.serial ≠ e.serial
  | none => s.openHops

/-- `usernat_set_pid_for_link` on the Java thread, up to its unlock. -/
def NatSystem.javaSetPid (s : NatSystem) (ptr : Nat) (pid : Int) : NatSystem :=
  { s with
    links := (usernatSetPidForLink ptr pid s.links).1
    java := drainOf (usernatSetPidForLink ptr pid s.links).2 }

/-- The sections behind the lookup. -/
def routerStep (s : NatSystem) : NatAct → Option NatSystem
  | .push =>
    match s.router with
    | .push job e => some { s with links := e :: s.links, router := .build job e.ptr e.serial }
    | _ => none
  | .build ok =>
    match s.router with
    | .build job ptr serial =>
      some { s with
        links := updateLink ptr (NatLink.setResult ok) s.links
        requests := if ok then s.requests ++ [buildSocatTunnel (s.linkAt ptr) ptr] else s.requests
        router := .built job ptr serial }
    | _ => none
  | .check =>
    match s.router with
    | .built job ptr serial =>
      some { s with
        router := if (s.linkAt ptr).socatPid = -1 then .failed ptr else .rewrite job ptr serial }
    | _ => none
  | .failBuild =>
    match s.router with
    | .failed ptr =>
      some { s with
        openHops := s.closeAt ptr
        links := (usernatSetPidForLink ptr (-1) s.links).1
        router := (drainOf (usernatSetPidForLink ptr (-1) s.links).2).elim .idle .drain }
    | _ => none
  | .routerDrain =>
    match s.router with
    | .drain ⟨_, []⟩ => some { s with router := .idle }
    | .drain ⟨serial, item :: queue⟩ =>
      some { s with router := .drain ⟨serial, queue⟩, written := s.written ++ [(serial, item)] }
    | _ => none
  | .rewrite alloc =>
    match s.router with
    | .rewrite job ptr serial =>
      if (s.linkAt ptr).enqueuePackets ∧ alloc then
        some { s with
          links := updateLink ptr (NatLink.queuePut (s.item job ptr)) s.links
          router := .idle
          accepted := s.accepted ++ [(serial, s.item job ptr)] }
      else
        some { s with
          router := .write serial (s.item job ptr)
          accepted := s.accepted ++ [(serial, s.item job ptr)] }
    | _ => none
  | .write =>
    match s.router with
    | .write serial item =>
      some { s with router := .idle, written := s.written ++ [(serial, item)] }
    | _ => none
  | _ => none

/-- One step; `none` where the step is not the thread's next one. -/
def natStep (s : NatSystem) : NatAct → Option NatSystem
  | .send m len =>
    match s.router with
    | .idle =>
      match natJob s.inst m len s.nextStamp with
      | some job => some { s with router := .lookup job, nextStamp := s.nextStamp + 1 }
      | none => some s
    | _ => none
  | .lookup =>
    match s.router with
    | .lookup job =>
      match findLink4 s.inst job.linkType job.key s.links with
      | some e => some { s with router := .rewrite job e.ptr e.serial }
      | none =>
        -- an incoming packet is dropped: this is a NAT
        some { s with router := if job.key.isIncoming then .idle else .create job }
    | _ => none
  | .create answer =>
    match s.router with
    | .create job => s.createStep job answer
    | _ => none
  | .poll pid =>
    match s.java, s.requests with
    | none, req :: requests =>
      if req.isRequestReady then
        some ({ s with requests := requests }.javaSetPid req.inNativeLinkPtr pid)
      else some { s with requests := requests }
    | _, _ => none
  | .setPid ptr pid =>
    match s.java with
    | none => some (s.javaSetPid ptr pid)
    | some _ => none
  | .javaDrain =>
    match s.java with
    | none => none
    | some ⟨_, []⟩ => some { s with java := none }
    | some ⟨serial, item :: queue⟩ =>
      some { s with java := some ⟨serial, queue⟩, written := s.written ++ [(serial, item)] }
  | .report pid =>
    if s.java = none ∧ 0 < pid then
      some { s with
        terminated := s.terminated ++
          (s.links.filter fun e => e.link.socatPid = pid).map LinkEntry.serial }
    else none
  | .setDnsIp4 idx ip4 =>
    some { s with inst := { s.inst with dnsIp4 := s.inst.dnsIp4.setIfInBounds idx ip4 } }
  | .setVirtualDnsIp4 idx ip4 =>
    some { s with
      inst := { s.inst with virtualDnsIp4 := s.inst.virtualDnsIp4.setIfInBounds idx ip4 } }
  | act => routerStep s act

/-! ## What a step can do -/

/-- The steps, one constructor for each way through a section. -/
inductive NatStep (s : NatSystem) : NatAct → NatSystem → Prop where
  | sendDrop {m len} (hpc : s.router = .idle) (hjob : natJob s.inst m len s.nextStamp = none) :
      NatStep s (.send m len) s
  | send {m len job} (hpc : s.router = .idle)
      (hjob : natJob s.inst m len s.nextStamp = some job) :
      NatStep s (.send m len) { s with router := .lookup job, nextStamp := s.nextStamp + 1 }
  | found {job e} (hpc : s.router = .lookup job)
      (hfind : findLink4 s.inst job.linkType job.key s.links = some e) :
      NatStep s .lookup { s with router := .rewrite job e.ptr e.serial }
  | notFound {job} (hpc : s.router = .lookup job)
      (hfind : findLink4 s.inst job.linkType job.key s.links = none) :
      NatStep s .lookup { s with router := if job.key.isIncoming then .idle else .create job }
  | noCreate {job answer} (hpc : s.router = .create job) :
      NatStep s (.create answer) { s with router := .idle }
  | create {job a} (hpc : s.router = .create job) (hgrants : s.Grants job.linkType a) :
      NatStep s (.create (some a)) { s with
        router := .push job
          ⟨a.ptr, s.nextSerial, createdLink job.linkType job.mem job.payloadOffs a⟩
        nextSerial := s.nextSerial + 1
        openHops := ⟨s.nextSerial, job.linkType, a.hopPort⟩ :: s.openHops }
  | push {job e} (hpc : s.router = .push job e) :
      NatStep s .push { s with links := e :: s.links, router := .build job e.ptr e.serial }
  | build {job ptr serial ok} (hpc : s.router = .build job ptr serial) :
      NatStep s (.build ok) { s with
        links := updateLink ptr (NatLink.setResult ok) s.links
        requests := if ok then s.requests ++ [buildSocatTunnel (s.linkAt ptr) ptr] else s.requests
        router := .built job ptr serial }
  | checkFailed {job ptr serial} (hpc : s.router = .built job ptr serial)
      (hpid : (s.linkAt ptr).socatPid = -1) : NatStep s .check { s with router := .failed ptr }
  | checkOk {job ptr serial} (hpc : s.router = .built job ptr serial)
      (hpid : (s.linkAt ptr).socatPid ≠ -1) :
      NatStep s .check { s with router := .rewrite job ptr serial }
  | failBuild {ptr} (hpc : s.router = .failed ptr) :
      NatStep s .failBuild { s with
        openHops := s.closeAt ptr
        links := (usernatSetPidForLink ptr (-1) s.links).1
        router := (drainOf (usernatSetPidForLink ptr (-1) s.links).2).elim .idle .drain }
  | routerDrained {serial} (hpc : s.router = .drain ⟨serial, []⟩) :
      NatStep s .routerDrain { s with router := .idle }
  | routerDrain {serial item queue} (hpc : s.router = .drain ⟨serial, item :: queue⟩) :
      NatStep s .routerDrain
        { s with router := .drain ⟨serial, queue⟩, written := s.written ++ [(serial, item)] }
  | enqueue {job ptr serial alloc} (hpc : s.router = .rewrite job ptr serial)
      (henq : (s.linkAt ptr).enqueuePackets = true) (halloc : alloc = true) :
      NatStep s (.rewrite alloc) { s with
        links := updateLink ptr (NatLink.queuePut (s.item job ptr)) s.links
        router := .idle
        accepted := s.accepted ++ [(serial, s.item job ptr)] }
  | direct {job ptr serial alloc} (hpc : s.router = .rewrite job ptr serial)
      (hdirect : ¬ ((s.linkAt ptr).enqueuePackets = true ∧ alloc = true)) :
      NatStep s (.rewrite alloc) { s with
        router := .write serial (s.item job ptr)
        accepted := s.accepted ++ [(serial, s.item job ptr)] }
  | write {serial item} (hpc : s.router = .write serial item) :
      NatStep s .write { s with router := .idle, written := s.written ++ [(serial, item)] }
  | pollReady {pid req requests} (hpc : s.java = none) (hreq : s.requests = req :: requests)
      (hready : req.isRequestReady = true) :
      NatStep s (.poll pid) ({ s with requests := requests }.javaSetPid req.inNativeLinkPtr pid)
  | poll {pid req requests} (hpc : s.java = none) (hreq : s.requests = req :: requests)
      (hready : ¬ req.isRequestReady = true) :
      NatStep s (.poll pid) { s with requests := requests }
  | setPid {ptr pid} (hpc : s.java = none) : NatStep s (.setPid ptr pid) (s.javaSetPid ptr pid)
  | javaDrained {serial} (hpc : s.java = some ⟨serial, []⟩) :
      NatStep s .javaDrain { s with java := none }
  | javaDrain {serial item queue} (hpc : s.java = some ⟨serial, item :: queue⟩) :
      NatStep s .javaDrain
        { s with java := some ⟨serial, queue⟩, written := s.written ++ [(serial, item)] }
  | report {pid} (hpc : s.java = none) :
      NatStep s (.report pid) { s with
        terminated := s.terminated ++
          (s.links.filter fun e => e.link.socatPid = pid).map LinkEntry.serial }
  | setDnsIp4 {idx ip4} :
      NatStep s (.setDnsIp4 idx ip4)
        { s with inst := { s.inst with dnsIp4 := s.inst.dnsIp4.setIfInBounds idx ip4 } }
  | setVirtualDnsIp4 {idx ip4} :
      NatStep s (.setVirtualDnsIp4 idx ip4) { s with
        inst := { s.inst with virtualDnsIp4 := s.inst.virtualDnsIp4.setIfInBounds idx ip4 } }

section steps

variable {s s' : NatSystem} {a : NatAct}

theorem createStep_cases {job : NatJob} {answer : Option LinkAnswer} (hpc : s.router = .create job)
    (h : s.createStep job answer = some s') : NatStep s (.create answer) s' := by
  unfold NatSystem.createStep at h
  split at h
  next a link hlink =>
    split at h
    next hgrants =>
      obtain ⟨a', ha, rfl⟩ := createLink_eq_some hlink
      obtain rfl : a = a' := Option.some.inj ha
      obtain rfl := Option.some.inj h
      exact .create hpc hgrants
    next => cases h
  next =>
    obtain rfl := Option.some.inj h
    exact .noCreate hpc

theorem routerStep_cases (h : routerStep s a = some s') : NatStep s a s' := by
  unfold routerStep at h
  cases a with
  | push =>
    simp only at h
    split at h
    next hpc =>
      obtain rfl := Option.some.inj h
      exact .push hpc
    next => cases h
  | build ok =>
    simp only at h
    split at h
    next hpc =>
      obtain rfl := Option.some.inj h
      exact .build hpc
    next => cases h
  | check =>
    simp only at h
    split at h
    next job ptr serial hpc =>
      obtain rfl := Option.some.inj h
      by_cases hpid : (s.linkAt ptr).socatPid = -1
      · rw [if_pos hpid]
        exact .checkFailed hpc hpid
      · rw [if_neg hpid]
        exact .checkOk hpc hpid
    next => cases h
  | failBuild =>
    simp only at h
    split at h
    next hpc =>
      obtain rfl := Option.some.inj h
      exact .failBuild hpc
    next => cases h
  | routerDrain =>
    simp only at h
    split at h
    next hpc =>
      obtain rfl := Option.some.inj h
      exact .routerDrained hpc
    next hpc =>
      obtain rfl := Option.some.inj h
      exact .routerDrain hpc
    next => cases h
  | rewrite alloc =>
    simp only at h
    split at h
    next job ptr serial hpc =>
      by_cases henq : (s.linkAt ptr).enqueuePackets = true ∧ alloc = true
      · rw [if_pos henq] at h
        obtain rfl := Option.some.inj h
        exact .enqueue hpc henq.1 henq.2
      · rw [if_neg henq] at h
        obtain rfl := Option.some.inj h
        exact .direct hpc henq
    next => cases h
  | write =>
    simp only at h
    split at h
    next hpc =>
      obtain rfl := Option.some.inj h
      exact .write hpc
    next => cases h
  | _ => cases h

/-- Every step is one of `NatStep`. -/
theorem natStep_cases (h : natStep s a = some s') : NatStep s a s' := by
  cases a with
  | send m len =>
    rw [natStep] at h
    split at h
    next hpc =>
      split at h
      next job hjob =>
        obtain rfl := Option.some.inj h
        exact .send hpc hjob
      next hjob =>
        obtain rfl := Option.some.inj h
        exact .sendDrop hpc hjob
    next => cases h
  | lookup =>
    rw [natStep] at h
    split at h
    next hpc =>
      split at h
      next hfind =>
        obtain rfl := Option.some.inj h
        exact .found hpc hfind
      next hfind =>
        obtain rfl := Option.some.inj h
        exact .notFound hpc hfind
    next => cases h
  | create answer =>
    rw [natStep] at h
    split at h
    next hpc => exact createStep_cases hpc h
    next => cases h
  | poll pid =>
    rw [natStep] at h
    split at h
    next hpc hreq =>
      split at h
      next hready =>
        obtain rfl := Option.some.inj h
        exact .pollReady hpc hreq hready
      next hready =>
        obtain rfl := Option.some.inj h
        exact .poll hpc hreq hready
    next => cases h
  | setPid ptr pid =>
    rw [natStep] at h
    split at h
    next hpc =>
      obtain rfl := Option.some.inj h
      exact .setPid hpc
    next => cases h
  | javaDrain =>
    rw [natStep] at h
    split at h
    next => cases h
    next hpc =>
      obtain rfl := Option.some.inj h
      exact .javaDrained hpc
    next hpc =>
      obtain rfl := Option.some.inj h
      exact .javaDrain hpc
  | report pid =>
    rw [natStep] at h
    split at h
    next hpc =>
      obtain rfl := Option.some.inj h
      exact .report hpc.1
    next => cases h
  | setDnsIp4 idx ip4 =>
    rw [natStep] at h
    obtain rfl := Option.some.inj h
    exact .setDnsIp4
  | setVirtualDnsIp4 idx ip4 =>
    rw [natStep] at h
    obtain rfl := Option.some.inj h
    exact .setVirtualDnsIp4
  | _ => exact routerStep_cases h

/-- A step puts one link in front of the table, or changes what the links are found
by at most in taking some out. -/
theorem natStep_ident (h : natStep s a = some s') :
    (∃ job e, s.router = .push job e ∧ s'.links = e :: s.links) ∨
      (s'.links.map LinkEntry.ident).Sublist (s.links.map LinkEntry.ident) := by
  cases natStep_cases h with
  | push hpc => exact Or.inl ⟨_, _, hpc, rfl⟩
  | build hpc | enqueue hpc _ _ =>
    right
    show List.Sublist (List.map _ (updateLink _ _ _)) _
    rw [updateLink_ident]
    · exact fun _ => rfl
    · exact fun _ => rfl
  | failBuild _ | pollReady _ _ _ | setPid _ => exact Or.inr (usernatSetPidForLink_ident _ _ _)
  | _ => exact Or.inr (List.Sublist.refl _)

/-- The addresses of the tunnel do not change. -/
theorem natStep_addr (h : natStep s a = some s') :
    s'.inst.local4 = s.inst.local4 ∧ s'.inst.remote4 = s.inst.remote4 := by
  cases natStep_cases h <;> exact ⟨rfl, rfl⟩

end steps

/-! ## Links and pointers to them -/

/-- The pointer is one to the link of the serial, while that is in the table. -/
def NatSystem.At (s : NatSystem) (ptr serial : Nat) : Prop :=
  ∀ e ∈ s.links, e.ptr = ptr → e.serial = serial

/-- What holds of the link that the router thread has in its hands. -/
def PcTable (s : NatSystem) : NatPc → Prop
  | .push _ e => e.ptr ≠ 0 ∧ e.serial < s.nextSerial ∧
      ∀ e' ∈ s.links, e'.ptr ≠ e.ptr ∧ e'.serial ≠ e.serial
  | .build _ ptr serial => s.At ptr serial
  | .built _ ptr serial => s.At ptr serial
  | .rewrite _ ptr serial => s.At ptr serial
  | _ => True

/-- The links in the table are apart, by their addresses and by their serials. -/
structure TableInv (s : NatSystem) : Prop where
  ptrs : (s.links.map LinkEntry.ptr).Nodup
  serials : (s.links.map LinkEntry.serial).Nodup
  bound : ∀ e ∈ s.links, e.ptr ≠ 0 ∧ e.serial < s.nextSerial
  pc : PcTable s s.router

section table

variable {s s' : NatSystem} {a : NatAct}

theorem natInit_table (inst : UsernatCtx) : TableInv (natInit inst) :=
  ⟨List.nodup_nil, List.nodup_nil, fun _ he => absurd he List.not_mem_nil, trivial⟩

/-- Where links are only taken out, every link was there. -/
theorem exists_of_ident_sublist {links links' : List LinkEntry}
    (h : (links'.map LinkEntry.ident).Sublist (links.map LinkEntry.ident)) {e' : LinkEntry}
    (he' : e' ∈ links') : ∃ e ∈ links, e.ident = e'.ident :=
  List.mem_map.mp (h.mem (List.mem_map_of_mem he'))

theorem at_mono (h : (s'.links.map LinkEntry.ident).Sublist (s.links.map LinkEntry.ident))
    {ptr serial : Nat} (hat : s.At ptr serial) : s'.At ptr serial := by
  intro e' he' hptr
  obtain ⟨e, he, hident⟩ := exists_of_ident_sublist h he'
  have hserial : e.serial = e'.serial := congrArg LinkIdent.serial hident
  rw [← hserial]
  exact hat e he ((congrArg LinkIdent.ptr hident).trans hptr)

theorem pcTable_mono (h : (s'.links.map LinkEntry.ident).Sublist (s.links.map LinkEntry.ident))
    (hserial : s.nextSerial ≤ s'.nextSerial) :
    ∀ {pc : NatPc}, PcTable s pc → PcTable s' pc := by
  intro pc hpc
  cases pc with
  | push job e =>
    obtain ⟨hptr, hlt, hfresh⟩ := hpc
    refine ⟨hptr, Nat.lt_of_lt_of_le hlt hserial, ?_⟩
    intro e₁ he₁
    obtain ⟨e₀, he₀, hident⟩ := exists_of_ident_sublist h he₁
    have hptr₀ : e₀.ptr = e₁.ptr := congrArg LinkIdent.ptr hident
    have hserial₀ : e₀.serial = e₁.serial := congrArg LinkIdent.serial hident
    rw [← hptr₀, ← hserial₀]
    exact hfresh e₀ he₀
  | build job ptr serial | built job ptr serial | rewrite job ptr serial => exact at_mono h hpc
  | _ => trivial

theorem natStep_nextSerial (h : natStep s a = some s') : s.nextSerial ≤ s'.nextSerial := by
  cases natStep_cases h <;> first | exact Nat.le_refl _ | exact Nat.le_succ _

theorem natStep_pcTable (hI : TableInv s) (h : natStep s a = some s') : PcTable s' s'.router := by
  have hpc := hI.pc
  have hnext := natStep_nextSerial h
  have hlinks := natStep_ident h
  cases natStep_cases h with
  | @found job e hrouter hfind =>
    rw [findLink4_eq_find] at hfind
    intro e' he' hptr
    rw [List.inj_on_of_nodup_map hI.ptrs he' (List.mem_of_find?_eq_some hfind) hptr]
  | @notFound job hrouter hfind =>
    show PcTable _ (if job.key.isIncoming then .idle else .create job)
    split <;> trivial
  | @create job answer hrouter hgrants =>
    obtain ⟨hptr, hfresh, _⟩ := hgrants
    refine ⟨hptr, Nat.lt_succ_self _, ?_⟩
    intro e' he'
    exact ⟨hfresh e' he', Nat.ne_of_lt (hI.bound e' he').2⟩
  | @push job e hrouter =>
    rw [hrouter] at hpc
    intro e' he' hptr
    rcases List.mem_cons.mp he' with rfl | he'
    · rfl
    · exact absurd hptr (hpc.2.2 e' he').1
  | build hrouter =>
    rw [hrouter] at hpc hlinks
    rcases hlinks with ⟨_, _, hpush, _⟩ | hsub
    · cases hpush
    · exact at_mono hsub hpc
  | checkOk hrouter hpid =>
    rw [hrouter] at hpc
    exact hpc
  | failBuild hrouter =>
    show PcTable _ (Option.elim _ _ _)
    cases drainOf _ <;> trivial
  | sendDrop hrouter hjob => exact hpc
  | pollReady _ _ _ | setPid _ =>
    exact pcTable_mono (usernatSetPidForLink_ident _ _ _) hnext hpc
  | poll _ _ _ | javaDrained _ | javaDrain _ | report _ | setDnsIp4 | setVirtualDnsIp4 =>
    exact pcTable_mono (List.Sublist.refl _) hnext hpc
  | _ => trivial

theorem natStep_table (hI : TableInv s) (h : natStep s a = some s') : TableInv s' := by
  have hpc := natStep_pcTable hI h
  have hnext := natStep_nextSerial h
  rcases natStep_ident h with ⟨job, e, hrouter, hlinks⟩ | hsub
  · have hpush := hI.pc
    rw [hrouter] at hpush
    obtain ⟨hptr, hlt, hfresh⟩ := hpush
    refine ⟨?_, ?_, ?_, hpc⟩
    · rw [hlinks, List.map_cons, List.nodup_cons]
      refine ⟨?_, hI.ptrs⟩
      intro hmem
      obtain ⟨e', he', heq⟩ := List.mem_map.mp hmem
      exact (hfresh e' he').1 heq
    · rw [hlinks, List.map_cons, List.nodup_cons]
      refine ⟨?_, hI.serials⟩
      intro hmem
      obtain ⟨e', he', heq⟩ := List.mem_map.mp hmem
      exact (hfresh e' he').2 heq
    · rw [hlinks]
      intro e' he'
      rcases List.mem_cons.mp he' with rfl | he'
      · exact ⟨hptr, Nat.lt_of_lt_of_le hlt hnext⟩
      · exact ⟨(hI.bound e' he').1, Nat.lt_of_lt_of_le (hI.bound e' he').2 hnext⟩
  · refine ⟨?_, ?_, ?_, hpc⟩
    · have hptrs := hsub.map LinkIdent.ptr
      rw [List.map_map, List.map_map] at hptrs
      exact hptrs.nodup hI.ptrs
    · have hserials := hsub.map LinkIdent.serial
      rw [List.map_map, List.map_map] at hserials
      exact hserials.nodup hI.serials
    · intro e' he'
      obtain ⟨e, he, hident⟩ := exists_of_ident_sublist hsub he'
      have hptr : e.ptr = e'.ptr := congrArg LinkIdent.ptr hident
      have hserial : e.serial = e'.serial := congrArg LinkIdent.serial hident
      rw [← hptr, ← hserial]
      exact ⟨(hI.bound e he).1, Nat.lt_of_lt_of_le (hI.bound e he).2 hnext⟩

/-- A pointer reads a link of the table or zeros. -/
theorem linkAt_cases (s : NatSystem) (ptr : Nat) :
    (∃ e ∈ s.links, e.ptr = ptr ∧ s.linkAt ptr = e.link) ∨
      ((∀ e ∈ s.links, e.ptr ≠ ptr) ∧ s.linkAt ptr = zeroLink) := by
  unfold NatSystem.linkAt entryAt
  cases hfind : s.links.find? fun e => decide (e.ptr = ptr) with
  | none =>
    right
    rw [List.find?_eq_none] at hfind
    exact ⟨fun e he hptr => hfind e he (decide_eq_true hptr), rfl⟩
  | some e =>
    left
    exact ⟨e, List.mem_of_find?_eq_some hfind, by simpa using List.find?_some hfind, rfl⟩

/-- The link that is read through a pointer. -/
theorem TableInv.linkAt_eq (hI : TableInv s) {e : LinkEntry} (he : e ∈ s.links) :
    s.linkAt e.ptr = e.link := by
  rcases linkAt_cases s e.ptr with ⟨e', he', hptr, hlink⟩ | ⟨hnone, _⟩
  · rw [hlink, List.inj_on_of_nodup_map hI.ptrs he' he hptr]
  · exact absurd rfl (hnone e he)

end table

/-- A user NAT whose first DNS server 8.8.8.8 is known as 10.0.0.53. -/
def exampleNat : UsernatCtx :=
  ⟨0x0a000002, 0x0a000003, #v[0x08080808, 0, 0, 0], #v[0x0a000035, 0, 0, 0]⟩

/-- A UDP packet from 10.0.0.2:1024 to 10.0.0.53:53. -/
def exampleQuery : Mem :=
  Mem.putBytes (fun _ => 0) 0
    [0x45, 0, 0, 28, 0, 0, 0, 0, 64, 17, 0, 0, 10, 0, 0, 2, 10, 0, 0, 53, 4, 0, 0, 53, 0, 8, 0, 0]

/-- The way of a packet that gets a new link and is enqueued. -/
def newLinkActs (m : Mem) (len : Nat) (answer : LinkAnswer) : List NatAct :=
  [.send m len, .lookup, .create (some answer), .push, .build true, .check, .rewrite true]

end ConfProfile
