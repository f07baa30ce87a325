import ConfProfile.Usernat.System

/-!
# One link for each flow

A link is looked up by a key that is taken from the packet when it is parsed, and
created with a key that is read back from the packet behind the virtual DNS
rewrite. `natJob_sound` says that both are the same, except where the header
length puts the ports into the destination address. With that, a packet gets as
far as `create_link` only while its flow has no link (`PcUnique`), and since there
is one router thread, no other packet creates it meanwhile.
-/

namespace ConfProfile

open ByteMem Run

/-- The flow under which the link of an outgoing packet is looked up. -/
def NatJob.flow (inst : UsernatCtx) (job : NatJob) : LinkFlow :=
  ⟨job.linkType, inst.local4, job.key.localPort, job.key.remoteAddr, job.key.remotePort⟩

/-- The flow that a link has which is created for the packet. -/
def NatJob.stored (job : NatJob) : LinkFlow :=
  ⟨job.linkType, addr4 job.mem 12, ntohs (job.mem.word16 job.payloadOffs),
    addr4 job.mem 16, ntohs (job.mem.word16 (job.payloadOffs + 2))⟩

/-- The flows of the links in the table. -/
def NatSystem.flows (s : NatSystem) : List LinkFlow := s.links.map fun e => e.link.flow

/-! ## The two keys -/

section keys

variable {inst : UsernatCtx} {m : Mem} {len stamp : Nat} {job : NatJob}

theorem createdLink_flow (job : NatJob) (a : LinkAnswer) :
    (createdLink job.linkType job.mem job.payloadOffs a).flow = job.stored := by
  unfold NatJob.stored
  rw [← ntohl_word32, ← ntohl_word32]
  rfl

/-- The virtual DNS rewrite changes the destination address only. -/
theorem virtualDns_of_ne (inst : UsernatCtx) (m : Mem) {i : Nat} (h : i < 16 ∨ 20 ≤ i) :
    patchAll m (virtualDnsPatches inst (addr4 m 16)) i = m i := by
  unfold virtualDnsPatches
  cases dnsFind DnsSlot.virtual (addr4 m 16) (dnsSlots inst.dnsIp4 inst.virtualDnsIp4) with
  | none => rfl
  | some slot => exact Mem.put32_of_ne _ _ _ (by omega)

theorem JobOf.payloadOffs (h : JobOf inst m len stamp job) : job.payloadOffs = segOffs m := by
  unfold NatJob.payloadOffs
  rw [h.parsed.payloadHeader]
  rfl

theorem JobOf.ip4 (h : JobOf inst m len stamp job) : job.linkType &&& natLinkIp6 = 0 := by
  rw [h.linkType]
  split <;> decide

/-- What `find_link` relies on: an outgoing packet is found by the key that its link
is created with. -/
structure JobSound (inst : UsernatCtx) (job : NatJob) : Prop where
  ip4 : job.linkType &&& natLinkIp6 = 0
  stored : job.key.isIncoming = false → job.stored = job.flow inst

/-- Both keys of a packet are the same, unless its header ends behind 16 bytes. -/
theorem natJob_sound (hihl : ihlOf m ≠ 4) (h : JobOf inst m len stamp job) :
    JobSound inst job := by
  refine ⟨h.ip4, ?_⟩
  intro hkeyout
  have hoffs := h.payloadOffs
  rcases h.direction with ⟨_, _, hkey⟩ | ⟨_, hout, hmem, hkey⟩
  · rw [hkey] at hkeyout
    cases hkeyout
  · have hkeep : ∀ i, i < 16 ∨ 20 ≤ i → job.mem i = m i := by
      intro i hi
      rw [hmem]
      exact virtualDns_of_ne inst m hi
    have hword : ∀ o, o < 15 ∨ 20 ≤ o → job.mem.word16 o = m.word16 o := by
      intro o ho
      unfold Mem.word16
      rw [hkeep o (by omega), hkeep (o + 1) (by omega)]
    have hsrc : addr4 job.mem 12 = inst.local4 := by
      rw [hout]
      exact addr4_congr fun i _ hi => hkeep i (by omega)
    have hdst : addr4 job.mem 16 = virtualToDns inst (addr4 m 16) := by
      rw [hmem]
      exact virtualDns_addr4 inst m
    have hports : segOffs m < 15 ∨ 20 ≤ segOffs m := by
      unfold segOffs
      omega
    have hports' : segOffs m + 2 < 15 ∨ 20 ≤ segOffs m + 2 := by
      unfold segOffs
      omega
    unfold NatJob.stored NatJob.flow
    rw [hoffs, hsrc, hdst, hword _ hports, hword _ hports', hkey]

/-- For an outgoing packet the links that fit are those of its flow. -/
theorem matches_iff_flow (hip4 : job.linkType &&& natLinkIp6 = 0)
    (hout : job.key.isIncoming = false) (link : NatLink) :
    link.Matches inst job.linkType job.key ↔ link.flow = job.flow inst := by
  have hremote : link.RemoteMatches inst job.key ↔
      link.realDstAddr = job.key.remoteAddr ∧ job.key.remotePort = link.realDstPort := by
    unfold NatLink.RemoteMatches
    rw [hout]
    exact Iff.rfl
  unfold NatLink.flow NatJob.flow
  rw [LinkFlow.mk.injEq]
  refine ⟨?_, ?_⟩
  · intro h
    obtain ⟨haddr, hport⟩ := hremote.mp h.remote
    exact ⟨h.type, h.addr, h.port.symm, haddr, hport.symm⟩
  · intro ⟨htype, haddr, hport, hdst, hdstPort⟩
    exact ⟨by rw [htype]; exact hip4, htype, haddr, hport.symm, hremote.mpr ⟨hdst, hdstPort.symm⟩⟩

end keys

/-! ## The invariant -/

/-- What holds of a packet on the way to a new link. -/
def PcUnique (s : NatSystem) : NatPc → Prop
  | .lookup job => JobSound s.inst job
  | .create job => JobSound s.inst job ∧ job.key.isIncoming = false ∧ job.flow s.inst ∉ s.flows
  | .push job e => e.link.flow = job.flow s.inst ∧ job.flow s.inst ∉ s.flows
  | _ => True

/-- The flows in the table are distinct, and none of them is the one of the packet
for which a link is being created. -/
structure UniqueInv (s : NatSystem) : Prop where
  nodup : s.flows.Nodup
  pc : PcUnique s s.router

section steps

variable {s s' : NatSystem} {a : NatAct}

theorem natInit_unique (inst : UsernatCtx) : UniqueInv (natInit inst) := ⟨List.nodup_nil, trivial⟩

theorem flows_sublist (h : (s'.links.map LinkEntry.ident).Sublist (s.links.map LinkEntry.ident)) :
    s'.flows.Sublist s.flows := by
  have hmap := h.map LinkIdent.flow
  rw [List.map_map, List.map_map] at hmap
  exact hmap

theorem jobSound_congr {inst inst' : UsernatCtx} (haddr : inst'.local4 = inst.local4)
    {job : NatJob} (h : JobSound inst job) : JobSound inst' job := by
  refine ⟨h.ip4, ?_⟩
  unfold NatJob.flow
  rw [haddr]
  exact h.stored

/-- Taking links out leaves what holds of the packet. -/
theorem pcUnique_mono (haddr : s'.inst.local4 = s.inst.local4) (hflows : s'.flows.Sublist s.flows) :
    ∀ {pc : NatPc}, PcUnique s pc → PcUnique s' pc := by
  intro pc h
  have hflow : ∀ job : NatJob, job.flow s'.inst = job.flow s.inst := by
    intro job
    unfold NatJob.flow
    rw [haddr]
  cases pc with
  | lookup job => exact jobSound_congr haddr h
  | create job =>
    obtain ⟨hsound, hout, hfresh⟩ := h
    refine ⟨jobSound_congr haddr hsound, hout, ?_⟩
    rw [hflow]
    exact fun hmem => hfresh (hflows.mem hmem)
  | push job e =>
    obtain ⟨heq, hfresh⟩ := h
    refine ⟨?_, ?_⟩
    · rw [hflow]
      exact heq
    · rw [hflow]
      exact fun hmem => hfresh (hflows.mem hmem)
  | _ => trivial

/-- An IPv4 packet that is sent has no header of 16 bytes. -/
def NatAct.HeaderOk : NatAct → Prop
  | .send m _ => ipverOf (m 0) = 4 → ihlOf m ≠ 4
  | _ => True

theorem natStep_flows_nodup (hI : UniqueInv s) (h : natStep s a = some s') : s'.flows.Nodup := by
  rcases natStep_ident h with ⟨job, e, hpc, hlinks⟩ | hsub
  · have hpush := hI.pc
    rw [hpc] at hpush
    obtain ⟨heq, hfresh⟩ := hpush
    unfold NatSystem.flows
    rw [hlinks, List.map_cons, List.nodup_cons, heq]
    exact ⟨hfresh, hI.nodup⟩
  · exact (flows_sublist hsub).nodup hI.nodup

theorem natStep_unique (hhead : a.HeaderOk) (hI : UniqueInv s) (h : natStep s a = some s') :
    UniqueInv s' := by
  refine ⟨natStep_flows_nodup hI h, ?_⟩
  have haddr := (natStep_addr h).1
  have hpc := hI.pc
  -- the steps of the Java thread only take links out
  have hjava : s'.router = s.router → s'.flows.Sublist s.flows → PcUnique s' s'.router := by
    intro hrouter hflows
    rw [hrouter]
    exact pcUnique_mono haddr hflows hpc
  cases natStep_cases h with
  | sendDrop hrouter hjob => exact hpc
  | send hrouter hjob =>
    have hof := natJob_eq_some hjob
    exact natJob_sound (hhead hof.version) hof
  | @notFound job hrouter hfind =>
    rw [hrouter] at hpc
    show PcUnique _ (if job.key.isIncoming then .idle else .create job)
    by_cases hin : job.key.isIncoming = true
    · rw [if_pos hin]
      trivial
    · rw [if_neg hin]
      have hout : job.key.isIncoming = false := by simpa using hin
      refine ⟨hpc, hout, ?_⟩
      intro hmem
      obtain ⟨e, he, hflow⟩ := List.mem_map.mp hmem
      rw [findLink4_eq_find, List.find?_eq_none] at hfind
      exact hfind e he (decide_eq_true ((matches_iff_flow hpc.ip4 hout e.link).mpr hflow))
  | @create job answer hrouter hgrants =>
    rw [hrouter] at hpc
    obtain ⟨hsound, hout, hfresh⟩ := hpc
    exact ⟨(createdLink_flow job answer).trans (hsound.stored hout), hfresh⟩
  | failBuild hrouter =>
    show PcUnique _ (Option.elim _ _ _)
    cases drainOf _ <;> trivial
  | pollReady _ _ _ | setPid _ =>
    exact hjava rfl (flows_sublist (usernatSetPidForLink_ident _ _ _))
  | poll _ _ _ | javaDrained _ | javaDrain _ | report _ | setDnsIp4 | setVirtualDnsIp4 =>
    exact hjava rfl (List.Sublist.refl _)
  | _ => trivial

end steps

/-- The packet for which a link is being created. -/
def NatPc.creating : NatPc → Option NatJob
  | .create job => some job
  | .push job _ => some job
  | _ => none

/-- For every sequence of packets, as long as no IPv4 header has 16 bytes, and calls
of `usernat_set_pid_for_link` between their sections: no two links in the table
have the same flow, and a link is created for a packet only while its flow has
none. -/
theorem links_unique (inst : UsernatCtx) (acts : List NatAct) (hhead : ∀ a ∈ acts, a.HeaderOk)
    {s : NatSystem} (hrun : run natStep (natInit inst) acts = some s) :
    s.flows.Nodup ∧ ∀ job ∈ s.router.creating, ∀ e ∈ s.links, e.link.flow ≠ job.flow s.inst := by
  have hI : UniqueInv s :=
    inv_run_of (fun s a s' => natStep_unique) acts hhead (natInit_unique inst) hrun
  refine ⟨hI.nodup, ?_⟩
  intro job hjob e he heq
  have hmem : job.flow s.inst ∈ s.flows := List.mem_map.mpr ⟨e, he, heq⟩
  have hpc := hI.pc
  cases hrouter : s.router with
  | create job' =>
    rw [hrouter] at hpc hjob
    obtain rfl : job' = job := Option.some.inj hjob
    exact hpc.2.2 hmem
  | push job' e' =>
    rw [hrouter] at hpc hjob
    obtain rfl : job' = job := Option.some.inj hjob
    exact hpc.2 hmem
  | _ =>
    rw [hrouter] at hjob
    cases hjob

theorem exampleQuery_header : ihlOf exampleQuery = 5 := by decide

theorem links_unique_example :
    ∃ s, run natStep (natInit exampleNat) (newLinkActs exampleQuery 28 ⟨3, 4, 5000, 1, true⟩) =
        some s ∧
      s.flows.Nodup ∧ ∀ job ∈ s.router.creating, ∀ e ∈ s.links, e.link.flow ≠ job.flow s.inst := by
  have hhead : ∀ a ∈ newLinkActs exampleQuery 28 ⟨3, 4, 5000, 1, true⟩, a.HeaderOk := by
    intro a ha
    simp only [newLinkActs, List.mem_cons, List.not_mem_nil, or_false] at ha
    rcases ha with rfl | rfl | rfl | rfl | rfl | rfl | rfl
    · intro _
      rw [exampleQuery_header]
      decide
    all_goals trivial
  obtain ⟨s, hs⟩ : ∃ s, run natStep (natInit exampleNat)
      (newLinkActs exampleQuery 28 ⟨3, 4, 5000, 1, true⟩) = some s :=
    Option.isSome_iff_exists.mp (by decide)
  exact ⟨s, hs, links_unique exampleNat _ hhead hs⟩

/-! ## A header of 16 bytes -/

/-- The query with a header of 16 bytes, which has the ports in its destination
address. -/
def exampleShortHeader : Mem :=
  Mem.putBytes (fun _ => 0) 0
    [0x44, 0, 0, 28, 0, 0, 0, 0, 64, 17, 0, 0, 10, 0, 0, 2, 10, 0, 0, 53, 4, 0, 0, 53, 0, 8, 0, 0]

/-- Sent twice it gets two links, both with the flow that is read behind the virtual
DNS rewrite. -/
theorem links_not_unique :
    ∃ s, run natStep (natInit exampleNat)
        (newLinkActs exampleShortHeader 28 ⟨3, 4, 5000, 1, true⟩ ++
          newLinkActs exampleShortHeader 28 ⟨5, 6, 5001, 2, true⟩) = some s ∧
      s.flows = List.replicate 2 ⟨natLinkUdp4, 0x0a000002, 0x0808, 0x08080808, 0x0808⟩ ∧
      ¬ s.flows.Nodup := by
  have hflows : (run natStep (natInit exampleNat)
      (newLinkActs exampleShortHeader 28 ⟨3, 4, 5000, 1, true⟩ ++
        newLinkActs exampleShortHeader 28 ⟨5, 6, 5001, 2, true⟩)).map NatSystem.flows =
      some (List.replicate 2 ⟨natLinkUdp4, 0x0a000002, 0x0808, 0x08080808, 0x0808⟩) := by
    decide
  obtain ⟨s, hs, heq⟩ := Option.map_eq_some_iff.mp hflows
  refine ⟨s, hs, heq, ?_⟩
  rw [heq]
  decide

end ConfProfile
