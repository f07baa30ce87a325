import ConfProfile.Tun.Endpoints
import ConfProfile.Usernat.Unique

/-!
# Replies from a hop

An outgoing packet is sent on to the hop port of its link, with the tunnel's
remote address in the place of its source; what the hop answers is found by that
port and translated back. Ports are given again once their socket is closed, but
then to a newer link, which a lookup finds first (`HopInv`), so that a reply from
an open hop socket meets its own link as long as that is in the table.

What comes back as the source is not what the app wrote, but what the DNS tables
make of the address that the link has. `reply_back_iff` says when that is the
same.
-/

namespace ConfProfile

open ByteMem Run

/-! ## Hop ports -/

/-- The links in the table, with one that is not in it yet. -/
def NatPc.made (links : List LinkEntry) : NatPc → List LinkEntry
  | .push _ e => e :: links
  | _ => links

/-- The hop socket of a link. -/
def LinkEntry.hop (e : LinkEntry) : HopSocket := ⟨e.serial, e.link.linkType, e.link.hopPort⟩

/-- What holds of the link that the router thread has made or found for a packet. -/
def PcFlow (s : NatSystem) : NatPc → Prop
  | .push job e => e.link.flow = job.stored
  | .build job _ serial => ∀ e ∈ s.links, e.serial = serial → e.link.flow = job.stored
  | .built job _ serial => ∀ e ∈ s.links, e.serial = serial → e.link.flow = job.stored
  | .rewrite job _ serial => ∀ e ∈ s.links, e.serial = serial → job.key.isIncoming = false →
      e.link.flow = job.stored ∨ e.link.flow = job.flow s.inst
  | _ => True

/-- The table is sorted, newest link first, and no link is newer than an open hop
socket of the same type with the same port. -/
structure HopInv (s : NatSystem) : Prop extends TableInv s where
  sorted : (s.router.made s.links).Pairwise fun x y => y.serial < x.serial
  newest : ∀ hop ∈ s.openHops, ∀ e ∈ s.router.made s.links, e.link.linkType = hop.linkType →
    e.link.hopPort = hop.port → e.serial ≤ hop.serial
  flow : PcFlow s s.router

section hops

variable {s s' : NatSystem} {a : NatAct}

theorem natInit_hop (inst : UsernatCtx) : HopInv (natInit inst) :=
  ⟨natInit_table inst, List.Pairwise.nil, fun _ hhop => absurd hhop List.not_mem_nil, trivial⟩

theorem mem_made (pc : NatPc) {links : List LinkEntry} {e : LinkEntry} (he : e ∈ links) :
    e ∈ pc.made links := by
  cases pc with
  | push job e' => exact List.mem_cons_of_mem _ he
  | _ => exact he

theorem made_sublist {links links' : List LinkEntry}
    (h : (links'.map LinkEntry.ident).Sublist (links.map LinkEntry.ident)) (pc : NatPc) :
    ((pc.made links').map LinkEntry.ident).Sublist ((pc.made links).map LinkEntry.ident) := by
  cases pc with
  | push job e => exact h.cons_cons _
  | _ => exact h

theorem nodup_of_sorted {links : List LinkEntry}
    (h : links.Pairwise fun x y => y.serial < x.serial) : (links.map LinkEntry.serial).Nodup :=
  List.pairwise_map.mpr (h.imp fun hlt => Nat.ne_of_gt hlt)

/-- In a sorted table a lookup finds the newest link that fits. -/
theorem find_newest {links : List LinkEntry} (h : links.Pairwise fun x y => y.serial < x.serial)
    {p : LinkEntry → Bool} {e : LinkEntry} (he : e ∈ links) (hp : p e = true)
    (hnewest : ∀ x ∈ links, p x = true → x.serial ≤ e.serial) : links.find? p = some e := by
  induction links with
  | nil => cases he
  | cons curr rest ih =>
    obtain ⟨hcurr, hrest⟩ := List.pairwise_cons.mp h
    rcases List.mem_cons.mp he with rfl | he
    · exact List.find?_cons_of_pos hp
    · have hold : ¬ p curr = true := by
        intro hfit
        have hle := hnewest curr List.mem_cons_self hfit
        have hlt := hcurr e he
        omega
      rw [List.find?_cons_of_neg hold]
      exact ih hrest he fun x hx => hnewest x (List.mem_cons_of_mem _ hx)

/-- A step makes one link, with a port that the kernel grants, or makes none and opens
no hop socket. -/
theorem natStep_made (h : natStep s a = some s') :
    (∃ job answer e, s.router = .create job ∧ s.Grants job.linkType answer ∧
      e.serial = s.nextSerial ∧ e.link = createdLink job.linkType job.mem job.payloadOffs answer ∧
      s'.router.made s'.links = e :: s.router.made s.links ∧
      s'.openHops = ⟨s.nextSerial, job.linkType, answer.hopPort⟩ :: s.openHops) ∨
    (((s'.router.made s'.links).map LinkEntry.ident).Sublist
        ((s.router.made s.links).map LinkEntry.ident) ∧
      s'.openHops ⊆ s.openHops) := by
  have hlinks := natStep_ident h
  cases natStep_cases h with
  | @create job answer hpc hgrants =>
    left
    exact ⟨job, answer, _, hpc, hgrants, rfl, rfl, by rw [hpc]; rfl, rfl⟩
  | push hpc =>
    right
    rw [hpc]
    exact ⟨List.Sublist.refl _, List.Subset.refl _⟩
  | @notFound job hpc hfind =>
    right
    rw [hpc]
    refine ⟨?_, List.Subset.refl _⟩
    show (List.map _ (NatPc.made _ (if job.key.isIncoming then .idle else .create job))).Sublist _
    split <;> exact List.Sublist.refl _
  | build hpc | enqueue hpc _ _ =>
    right
    rw [hpc] at hlinks ⊢
    rcases hlinks with ⟨_, _, hpush, _⟩ | hsub
    · cases hpush
    · exact ⟨hsub, List.Subset.refl _⟩
  | @failBuild ptr hpc =>
    right
    rw [hpc]
    refine ⟨?_, ?_⟩
    · show (List.map _ (NatPc.made _ (Option.elim _ _ _))).Sublist _
      cases drainOf _ <;> exact usernatSetPidForLink_ident _ _ _
    · show s.closeAt ptr ⊆ s.openHops
      unfold NatSystem.closeAt
      split
      · exact List.filter_subset_self _
      · exact List.Subset.refl _
  | pollReady hidle _ _ | setPid hidle =>
    exact Or.inr ⟨made_sublist (usernatSetPidForLink_ident _ _ _) _, List.Subset.refl _⟩
  | send hpc _ | found hpc _ | noCreate hpc | checkFailed hpc _ | checkOk hpc _ | routerDrained hpc
  | routerDrain hpc | direct hpc _ | write hpc =>
    right
    rw [hpc]
    exact ⟨List.Sublist.refl _, List.Subset.refl _⟩
  | _ => exact Or.inr ⟨List.Sublist.refl _, List.Subset.refl _⟩

theorem natStep_sorted (hI : HopInv s) (h : natStep s a = some s') :
    (s'.router.made s'.links).Pairwise fun x y => y.serial < x.serial := by
  rcases natStep_made h with ⟨job, answer, e, hpc, _, hserial, _, hmade, _⟩ | ⟨hsub, _⟩
  · rw [hmade, List.pairwise_cons]
    refine ⟨?_, hI.sorted⟩
    intro x hx
    rw [hpc] at hx
    rw [hserial]
    exact (hI.bound x hx).2
  · have hsorted : ((s.router.made s.links).map LinkEntry.ident).Pairwise
        fun x y => y.serial < x.serial := List.pairwise_map.mpr hI.sorted
    exact List.pairwise_map.mp (hsorted.sublist hsub)

theorem natStep_newest (hI : HopInv s) (h : natStep s a = some s') :
    ∀ hop ∈ s'.openHops, ∀ e ∈ s'.router.made s'.links, e.link.linkType = hop.linkType →
      e.link.hopPort = hop.port → e.serial ≤ hop.serial := by
  intro hop hhop x hx htype hport
  rcases natStep_made h with ⟨job, answer, e, hpc, hgrants, hserial, hlink, hmade, hopen⟩ |
    ⟨hsub, hopen⟩
  · rw [hmade] at hx
    rw [hopen] at hhop
    rcases List.mem_cons.mp hx with rfl | hx
    · rcases List.mem_cons.mp hhop with rfl | hhop
      · exact Nat.le_of_eq hserial
      · -- the kernel does not grant the port of an open socket
        rw [hlink] at htype hport
        exact absurd ⟨htype.symm, hport.symm⟩ (hgrants.2.2 hop hhop)
    · rcases List.mem_cons.mp hhop with rfl | hhop
      · rw [hpc] at hx
        exact Nat.le_of_lt (hI.bound x hx).2
      · exact hI.newest hop hhop x hx htype hport
  · obtain ⟨x₀, hx₀, hident⟩ := exists_of_ident_sublist hsub hx
    have hserial₀ : x₀.serial = x.serial := congrArg LinkIdent.serial hident
    have htype₀ : x₀.link.linkType = x.link.linkType :=
      congrArg (fun i => i.flow.linkType) hident
    have hport₀ : x₀.link.hopPort = x.link.hopPort := congrArg LinkIdent.hopPort hident
    rw [← hserial₀]
    exact hI.newest hop (hopen hhop) x₀ hx₀ (htype₀.trans htype) (hport₀.trans hport)

/-- Taking links out leaves what holds of the link in hand. -/
theorem pcFlow_mono (haddr : s'.inst.local4 = s.inst.local4)
    (hsub : (s'.links.map LinkEntry.ident).Sublist (s.links.map LinkEntry.ident)) :
    ∀ {pc : NatPc}, PcFlow s pc → PcFlow s' pc := by
  intro pc hpc
  have hold : ∀ e' ∈ s'.links,
      ∃ e ∈ s.links, e.serial = e'.serial ∧ e.link.flow = e'.link.flow := by
    intro e' he'
    obtain ⟨e, he, hident⟩ := exists_of_ident_sublist hsub he'
    exact ⟨e, he, congrArg LinkIdent.serial hident, congrArg LinkIdent.flow hident⟩
  cases pc with
  | push job e => exact hpc
  | build job ptr serial | built job ptr serial =>
    intro e' he' hserial
    obtain ⟨e, he, hserial₀, hflow⟩ := hold e' he'
    rw [← hflow]
    exact hpc e he (hserial₀.trans hserial)
  | rewrite job ptr serial =>
    intro e' he' hserial hout
    obtain ⟨e, he, hserial₀, hflow⟩ := hold e' he'
    unfold NatJob.flow
    rw [← hflow, haddr]
    exact hpc e he (hserial₀.trans hserial) hout
  | _ => trivial

theorem natStep_pcFlow (hI : HopInv s) (h : natStep s a = some s') : PcFlow s' s'.router := by
  have hpc := hI.flow
  have haddr := (natStep_addr h).1
  have hlinks := natStep_ident h
  cases natStep_cases h with
  | @found job e hrouter hfind =>
    rw [findLink4_eq_find] at hfind
    have hmatch : e.link.Matches s.inst job.linkType job.key := by
      simpa using List.find?_some hfind
    intro e' he' hserial hout
    rw [List.inj_on_of_nodup_map hI.serials he' (List.mem_of_find?_eq_some hfind) hserial]
    have hip4 : job.linkType &&& natLinkIp6 = 0 := by
      rw [← hmatch.type]
      exact hmatch.ip4
    exact Or.inr ((matches_iff_flow hip4 hout e.link).mp hmatch)
  | @notFound job hrouter hfind =>
    show PcFlow _ (if job.key.isIncoming then .idle else .create job)
    split <;> trivial
  | create hrouter hgrants => exact createdLink_flow _ _
  | @push job e hrouter =>
    have hsorted := hI.sorted
    rw [hrouter] at hpc hsorted
    intro e' he' hserial
    rcases List.mem_cons.mp he' with rfl | he'
    · exact hpc
    · exact absurd hserial (Nat.ne_of_lt ((List.pairwise_cons.mp hsorted).1 e' he'))
  | build hrouter =>
    rw [hrouter] at hpc hlinks
    rcases hlinks with ⟨_, _, hpush, _⟩ | hsub
    · cases hpush
    · exact pcFlow_mono haddr hsub hpc
  | checkOk hrouter hpid =>
    rw [hrouter] at hpc
    exact fun e he hserial _ => Or.inl (hpc e he hserial)
  | failBuild hrouter =>
    show PcFlow _ (Option.elim _ _ _)
    cases drainOf _ <;> trivial
  | sendDrop hrouter hjob => exact hpc
  | pollReady hidle _ _ | setPid hidle =>
    exact pcFlow_mono haddr (usernatSetPidForLink_ident _ _ _) hpc
  | poll _ _ _ | javaDrained _ | javaDrain _ | report _ | setDnsIp4 | setVirtualDnsIp4 =>
    exact pcFlow_mono haddr (List.Sublist.refl _) hpc
  | _ => trivial

theorem natStep_hop (hI : HopInv s) (h : natStep s a = some s') : HopInv s' :=
  ⟨natStep_table hI.toTableInv h, natStep_sorted hI h, natStep_newest hI h, natStep_pcFlow hI h⟩

/-! ## What stays over a run -/

/-- A link keeps what it is found by. -/
theorem run_ident (acts : List NatAct) (h : run natStep s acts = some s') :
    s.nextSerial ≤ s'.nextSerial ∧ ∀ e' ∈ s'.router.made s'.links, e'.serial < s.nextSerial →
      ∃ e ∈ s.router.made s.links, e.ident = e'.ident := by
  refine inv_run (I := fun t => s.nextSerial ≤ t.nextSerial ∧ ∀ e' ∈ t.router.made t.links,
    e'.serial < s.nextSerial → ∃ e ∈ s.router.made s.links, e.ident = e'.ident) ?_ acts
    ⟨Nat.le_refl _, fun e' he' _ => ⟨e', he', rfl⟩⟩ h
  intro t b t' ⟨hnext, hold⟩ hstep
  refine ⟨hnext.trans (natStep_nextSerial hstep), ?_⟩
  intro x hx hlt
  rcases natStep_made hstep with ⟨_, _, e, _, _, hserial, _, hmade, _⟩ | ⟨hsub, _⟩
  · rw [hmade] at hx
    rcases List.mem_cons.mp hx with rfl | hx
    · omega
    · exact hold x hx hlt
  · obtain ⟨y, hy, hident⟩ := exists_of_ident_sublist hsub hx
    have hserial : y.serial = x.serial := congrArg LinkIdent.serial hident
    obtain ⟨e, he, hident₀⟩ := hold y hy (by omega)
    exact ⟨e, he, hident₀.trans hident⟩

/-- In two states of a run, links of the same serial are the same link. -/
theorem run_ident_eq (hI : HopInv s) {e e' : LinkEntry} (he : e ∈ s.links) (acts : List NatAct)
    (h : run natStep s acts = some s') (he' : e' ∈ s'.links) (hserial : e'.serial = e.serial) :
    e'.ident = e.ident := by
  have hlt := (hI.bound e he).2
  obtain ⟨x, hx, hident⟩ := (run_ident acts h).2 e' (mem_made _ he') (by omega)
  have hserial₀ : x.serial = e'.serial := congrArg LinkIdent.serial hident
  rw [← hident, List.inj_on_of_nodup_map (nodup_of_sorted hI.sorted) hx (mem_made _ he) ?_]
  exact hserial₀.trans hserial

/-- The packet that the router thread is at. -/
def NatPc.job : NatPc → Option NatJob
  | .lookup job => some job
  | .create job => some job
  | .push job _ => some job
  | .build job _ _ => some job
  | .built job _ _ => some job
  | .rewrite job _ _ => some job
  | _ => none

/-- No packet is sent. -/
def NatAct.NoSend : NatAct → Prop
  | .send _ _ => False
  | _ => True

/-- A step beside the router thread. -/
def NatAct.Beside : NatAct → Prop
  | .poll _ => True
  | .setPid _ _ => True
  | .javaDrain => True
  | .report _ => True
  | .setDnsIp4 _ _ => True
  | .setVirtualDnsIp4 _ _ => True
  | _ => False

/-- Until the next packet is sent, the router thread is at the same one. -/
theorem natStep_job (ha : a.NoSend) (h : natStep s a = some s') :
    ∀ job ∈ s'.router.job, job ∈ s.router.job := by
  intro job hjob
  cases natStep_cases h with
  | sendDrop hpc _ | send hpc _ => exact ha.elim
  | @notFound job' hpc hfind =>
    change job ∈ NatPc.job (if job'.key.isIncoming then .idle else .create job') at hjob
    rw [hpc]
    split at hjob
    · cases hjob
    · exact hjob
  | found hpc _ | create hpc _ | push hpc | build hpc | checkOk hpc _ =>
    rw [hpc]
    exact hjob
  | failBuild hpc =>
    change job ∈ NatPc.job (Option.elim _ _ _) at hjob
    cases hd : drainOf _ with
    | none | some d =>
      rw [hd] at hjob
      cases hjob
  | pollReady _ _ _ | setPid _ | poll _ _ _ | javaDrained _ | javaDrain _ | report _ | setDnsIp4
  | setVirtualDnsIp4 => exact hjob
  | _ => cases hjob

/-- The steps beside the router thread only take links out. -/
theorem natStep_beside (ha : a.Beside) (h : natStep s a = some s') :
    s'.router = s.router ∧ s'.openHops = s.openHops ∧
      (s'.links.map LinkEntry.ident).Sublist (s.links.map LinkEntry.ident) := by
  cases natStep_cases h with
  | pollReady _ _ _ | setPid _ => exact ⟨rfl, rfl, usernatSetPidForLink_ident _ _ _⟩
  | poll _ _ _ | javaDrained _ | javaDrain _ | report _ | setDnsIp4 | setVirtualDnsIp4 =>
    exact ⟨rfl, rfl, List.Sublist.refl _⟩
  | _ => exact ha.elim

/-- The addresses of the tunnel stay over a run. -/
theorem run_addr (acts : List NatAct) (h : run natStep s acts = some s') :
    s'.inst.local4 = s.inst.local4 ∧ s'.inst.remote4 = s.inst.remote4 := by
  refine inv_run (I := fun t => t.inst.local4 = s.inst.local4 ∧ t.inst.remote4 = s.inst.remote4)
    ?_ acts ⟨rfl, rfl⟩ h
  intro t b t' ⟨hlocal, hremote⟩ hstep
  exact ⟨(natStep_addr hstep).1.trans hlocal, (natStep_addr hstep).2.trans hremote⟩

theorem run_job (acts : List NatAct) (hacts : ∀ a ∈ acts, a.NoSend)
    (h : run natStep s acts = some s') : ∀ job ∈ s'.router.job, job ∈ s.router.job := by
  refine inv_run_of (I := fun t => ∀ job ∈ t.router.job, job ∈ s.router.job) ?_ acts hacts
    (fun _ hjob => hjob) h
  intro t b t' hb hold hstep job hjob
  exact hold job (natStep_job hb hstep job hjob)

theorem run_beside (acts : List NatAct) (hacts : ∀ a ∈ acts, a.Beside)
    (h : run natStep s acts = some s') :
    s'.router = s.router ∧ s'.openHops = s.openHops ∧
      (s'.links.map LinkEntry.ident).Sublist (s.links.map LinkEntry.ident) := by
  refine inv_run_of (I := fun t => t.router = s.router ∧ t.openHops = s.openHops ∧
    (t.links.map LinkEntry.ident).Sublist (s.links.map LinkEntry.ident)) ?_ acts hacts
    ⟨rfl, rfl, List.Sublist.refl _⟩ h
  intro t b t' hb ⟨hrouter, hopen, hsub⟩ hstep
  obtain ⟨hrouter', hopen', hsub'⟩ := natStep_beside hb hstep
  exact ⟨hrouter'.trans hrouter, hopen'.trans hopen, hsub'.trans hsub⟩

end hops

/-! ## The way there -/

section translation

variable {inst : UsernatCtx}

theorem foldl_put_incoming (inst : UsernatCtx) (link : NatLink) (p : Endpoints) :
    (incomingPatches inst link).foldl Patch.put p =
      ⟨dnsToVirtual inst link.realDstAddr, inst.local4, link.realDstPort, p.dest⟩ := by
  unfold incomingPatches dnsToVirtual
  cases dnsFind DnsSlot.dns link.realDstAddr (dnsSlots inst.dnsIp4 inst.virtualDnsIp4) <;> rfl

theorem foldl_put_outgoing (inst : UsernatCtx) (link : NatLink) (p : Endpoints) :
    (outgoingPatches inst link).foldl Patch.put p =
      ⟨inst.remote4, inst.local4, p.source, link.hopPort⟩ := rfl

theorem foldl_put_virtualDns (inst : UsernatCtx) (daddr : BitVec 32) (p : Endpoints) :
    ((virtualDnsPatches inst daddr).foldl Patch.put p).source = p.source := by
  unfold virtualDnsPatches
  cases dnsFind DnsSlot.virtual daddr (dnsSlots inst.dnsIp4 inst.virtualDnsIp4) <;> rfl

theorem segOffs_ge_of_ihl {m : Mem} (h : 5 ≤ ihlOf m) : 20 ≤ segOffs m := by
  unfold segOffs
  omega

/-- The packet behind the translation for a link. -/
theorem endpoints_translate (s : NatSystem) {job : NatJob} (ptr : Nat)
    (hparsed : ParsedAs job.packet job.mem) (hoffs : 20 ≤ segOffs job.mem) :
    endpoints (s.translate job ptr) =
      (usernatPatches s.inst (s.linkAt ptr) job.key.isIncoming).foldl Patch.put
        (endpoints job.mem) := by
  unfold NatSystem.translate
  rw [usernatRewrite_eq s.inst _ _ _ hoffs hparsed]
  exact endpoints_rewriteOnce hoffs _

/-- The header fields of a job's packet are those of the packet that was sent. -/
theorem JobOf.sameFields {m : Mem} {len stamp : Nat} {job : NatJob}
    (h : JobOf inst m len stamp job) (hoffs : 20 ≤ segOffs m) : SameFields m job.mem := by
  rcases h.direction with ⟨_, hmem, _⟩ | ⟨_, _, hmem, _⟩
  · rw [hmem]
    exact SameFields.refl m
  · rw [hmem]
    exact patchAll_sameFields hoffs _

end translation

/-- The outgoing packet that is in front of its translation, with its link. -/
def NatSystem.forwarding (s : NatSystem) : Option (NatJob × LinkEntry) :=
  match s.router with
  | .rewrite job ptr serial =>
    if job.key.isIncoming then none
    else (s.links.find? fun e => e.ptr = ptr ∧ e.serial = serial).map (Prod.mk job)
  | _ => none

theorem forwarding_eq_some {s : NatSystem} {job : NatJob} {e : LinkEntry}
    (h : s.forwarding = some (job, e)) :
    s.router = .rewrite job e.ptr e.serial ∧ job.key.isIncoming = false ∧ e ∈ s.links := by
  unfold NatSystem.forwarding at h
  split at h
  next job' ptr serial hpc =>
    split at h
    next => cases h
    next hout =>
      obtain ⟨e', hfind, heq⟩ := Option.map_eq_some_iff.mp h
      obtain ⟨rfl, rfl⟩ := Prod.mk.inj heq
      have hptr : e'.ptr = ptr ∧ e'.serial = serial := by simpa using List.find?_some hfind
      obtain ⟨rfl, rfl⟩ := hptr
      exact ⟨hpc, by simpa using hout, List.mem_of_find?_eq_some hfind⟩
  next => cases h

/-- The packet `m` that was sent in the reachable state `s₀` is in front of its
translation for the link `e`. -/
structure Forwarded (inst : UsernatCtx) (s₀ s : NatSystem) (m : Mem) (len : Nat) (job : NatJob)
    (e : LinkEntry) : Prop where
  reached : ∃ acts, run natStep (natInit inst) acts = some s₀
  sent : ∃ acts, (∀ a ∈ acts, a.NoSend) ∧ run natStep s₀ (.send m len :: acts) = some s
  header : 5 ≤ ihlOf m
  forwarding : s.forwarding = some (job, e)

namespace Forwarded

variable {inst : UsernatCtx} {s₀ s : NatSystem} {m : Mem} {len : Nat} {job : NatJob}
  {e : LinkEntry}

theorem router (h : Forwarded inst s₀ s m len job e) : s.router = .rewrite job e.ptr e.serial :=
  (forwarding_eq_some h.forwarding).1

theorem outgoing (h : Forwarded inst s₀ s m len job e) : job.key.isIncoming = false :=
  (forwarding_eq_some h.forwarding).2.1

theorem link (h : Forwarded inst s₀ s m len job e) : e ∈ s.links :=
  (forwarding_eq_some h.forwarding).2.2

theorem hopInv_sent (h : Forwarded inst s₀ s m len job e) : HopInv s₀ := by
  obtain ⟨acts, hacts⟩ := h.reached
  exact inv_run (fun _ _ _ => natStep_hop) acts (natInit_hop inst) hacts

theorem hopInv (h : Forwarded inst s₀ s m len job e) : HopInv s := by
  obtain ⟨acts, _, hacts⟩ := h.sent
  exact inv_run (fun _ _ _ => natStep_hop) _ h.hopInv_sent hacts

theorem addr (h : Forwarded inst s₀ s m len job e) :
    s.inst.local4 = s₀.inst.local4 ∧ s.inst.remote4 = s₀.inst.remote4 := by
  obtain ⟨acts, _, hacts⟩ := h.sent
  exact run_addr _ hacts

/-- The packet in hand is the one that was sent. -/
theorem jobOf (h : Forwarded inst s₀ s m len job e) : JobOf s₀.inst m len s₀.nextStamp job := by
  obtain ⟨acts, hsend, hacts⟩ := h.sent
  obtain ⟨s₁, hstep, hrest⟩ := run_cons_some hacts
  have hjob := run_job acts hsend hrest job (by rw [h.router]; rfl)
  cases natStep_cases hstep with
  | sendDrop hpc _ =>
    rw [hpc] at hjob
    cases hjob
  | send hpc hsome =>
    obtain rfl := Option.some.inj hjob
    exact natJob_eq_some hsome

/-- What an outgoing packet is looked up by. -/
theorem key (h : Forwarded inst s₀ s m len job e) :
    addr4 m 12 = s.inst.local4 ∧
      job.flow s.inst = ⟨job.linkType, s.inst.local4, (endpoints m).source,
        virtualToDns s₀.inst (addr4 m 16), (endpoints m).dest⟩ := by
  rcases h.jobOf.direction with ⟨_, _, hkey⟩ | ⟨_, hlocal, _, hkey⟩
  · have hout := h.outgoing
    rw [hkey] at hout
    cases hout
  · refine ⟨hlocal.symm.trans h.addr.1.symm, ?_⟩
    unfold NatJob.flow endpoints
    rw [hkey]

/-- The link has the flow of the packet. -/
theorem link_flow (h : Forwarded inst s₀ s m len job e) : e.link.flow = job.flow s.inst := by
  have hihl := h.header
  have hstored := (natJob_sound (by omega) h.jobOf).stored h.outgoing
  have hflow : job.flow s₀.inst = job.flow s.inst := by
    unfold NatJob.flow
    rw [h.addr.1]
  have hpc := h.hopInv.flow
  rw [h.router] at hpc
  rcases hpc e h.link rfl h.outgoing with hlink | hlink
  · rw [hlink, hstored, hflow]
  · exact hlink

/-- The packet goes from the remote address of the tunnel to the hop. -/
theorem endpoints_eq (h : Forwarded inst s₀ s m len job e) :
    endpoints (s.translate job e.ptr) =
      ⟨s.inst.remote4, s.inst.local4, (endpoints m).source, e.link.hopPort⟩ := by
  have hoffs := segOffs_ge_of_ihl h.header
  have hsame := h.jobOf.sameFields hoffs
  have hsource : (endpoints job.mem).source = (endpoints m).source := by
    rcases h.jobOf.direction with ⟨_, hmem, _⟩ | ⟨_, _, hmem, _⟩
    · rw [hmem]
    · rw [hmem, endpoints_patchAll hoffs, foldl_put_virtualDns]
  rw [endpoints_translate s e.ptr (h.jobOf.parsed.of_sameFields hsame)
    (hoffs.trans_eq hsame.segOffs_eq.symm), h.hopInv.toTableInv.linkAt_eq h.link, h.outgoing]
  unfold usernatPatches
  rw [if_neg (by decide), foldl_put_outgoing, hsource]

theorem proto_eq (h : Forwarded inst s₀ s m len job e) : s.translate job e.ptr 9 = m 9 := by
  have hoffs := segOffs_ge_of_ihl h.header
  have hsame := h.jobOf.sameFields hoffs
  have hoffs' : 20 ≤ segOffs job.mem := hoffs.trans_eq hsame.segOffs_eq.symm
  unfold NatSystem.translate
  rw [usernatRewrite_eq s.inst _ _ _ hoffs' (h.jobOf.parsed.of_sameFields hsame)]
  exact (hsame.trans (rewriteOnce_sameFields hoffs' _ _)) 9 (by omega)

end Forwarded

/-! ## The way back -/

/-- `r` is a valid packet that answers the packet `t`. -/
structure ReplyTo (t r : Mem) (len : Nat) : Prop where
  nonempty : 0 < len
  version : ipverOf (r 0) = 4
  header : 5 ≤ ihlOf r
  proto : r 9 = t 9
  endpoints : endpoints r = (ConfProfile.endpoints t).swap

instance (t r : Mem) (len : Nat) : Decidable (ReplyTo t r len) :=
  decidable_of_iff (0 < len ∧ ipverOf (r 0) = 4 ∧ 5 ≤ ihlOf r ∧ r 9 = t 9 ∧
      endpoints r = (endpoints t).swap)
    ⟨fun h => ⟨h.1, h.2.1, h.2.2.1, h.2.2.2.1, h.2.2.2.2⟩,
      fun h => ⟨h.nonempty, h.version, h.header, h.proto, h.endpoints⟩⟩

/-- What the packet that is in front of its translation becomes, with the serial of
its link. -/
def NatSystem.translation (s : NatSystem) : Option (Nat × Endpoints) :=
  match s.router with
  | .rewrite job ptr serial => some (serial, endpoints (s.translate job ptr))
  | _ => none

/-- A packet is in front of its translation by the link of the serial, and becomes an
answer to `m`. -/
def NatSystem.TranslatedBack (s : NatSystem) (serial : Nat) (m : Mem) : Prop :=
  s.translation = some (serial, (endpoints m).swap) ∧ ∃ e ∈ s.links, e.serial = serial

/-- A packet to the tunnel's remote address is looked up. -/
theorem natJob_incoming {inst : UsernatCtx} {r : Mem} {len : Nat} (stamp : Nat) (hlen : 0 < len)
    (hversion : ipverOf (r 0) = 4) (hproto : r 9 = ipprotoTcp ∨ r 9 = ipprotoUdp)
    (hin : inst.remote4 = addr4 r 16) : ∃ job, natJob inst r len stamp = some job := by
  have hver := @parsed_ipver r len len hlen hversion
  have hpay := ipParsePacket_payloadProto r _ hver
  unfold natJob findLinkJob
  rw [if_pos hver, findLinkAddr_val, if_pos hin, hpay]
  unfold localLinkType
  rcases hproto with htcp | hudp
  · rw [if_pos htcp]
    exact ⟨_, rfl⟩
  · rw [if_neg (hudp.trans_ne ipprotoTcp_ne_udp.symm), if_pos hudp]
    exact ⟨_, rfl⟩

/-- A packet from an open hop socket finds the link of that socket. -/
theorem HopInv.find_hop {s : NatSystem} (hI : HopInv s) {job : NatJob}
    (hpc : s.router = .lookup job) (hin : job.key.isIncoming = true) {e : LinkEntry}
    (he : e ∈ s.links) (hhop : ⟨e.serial, job.linkType, job.key.remotePort⟩ ∈ s.openHops)
    (hmatch : e.link.Matches s.inst job.linkType job.key) :
    findLink4 s.inst job.linkType job.key s.links = some e := by
  have hsorted := hI.sorted
  have hnewest := hI.newest _ hhop
  rw [hpc] at hsorted hnewest
  rw [findLink4_eq_find]
  refine find_newest hsorted he (decide_eq_true hmatch) ?_
  intro x hx hfit
  have hmatch' : x.link.Matches s.inst job.linkType job.key := of_decide_eq_true hfit
  have hremote := hmatch'.remote
  unfold NatLink.RemoteMatches at hremote
  rw [if_pos hin] at hremote
  exact hnewest x hx hmatch'.type hremote.2.symm

namespace Forwarded

variable {inst : UsernatCtx} {s₀ s : NatSystem} {m r : Mem} {len rlen stamp : Nat}
  {job back : NatJob} {e : LinkEntry}

/-- The answer is looked up by the hop port, and gets as far as the lookup. -/
theorem reply_key (h : Forwarded inst s₀ s m len job e)
    (hreply : ReplyTo (s.translate job e.ptr) r rlen) {inst' : UsernatCtx}
    (hremote : inst'.remote4 = s.inst.remote4) (stamp : Nat) :
    ∃ back, natJob inst' r rlen stamp = some back ∧ JobOf inst' r rlen stamp back ∧
      back.linkType = e.link.linkType ∧ back.mem = r ∧
      back.key = ⟨true, (endpoints m).source, inst'.remote4, e.link.hopPort⟩ := by
  have hends := hreply.endpoints
  rw [h.endpoints_eq] at hends
  have hproto : r 9 = m 9 := hreply.proto.trans h.proto_eq
  have hin : inst'.remote4 = addr4 r 16 :=
    hremote.trans (congrArg Endpoints.daddr hends).symm
  have htcpudp := h.jobOf.proto
  rw [← hproto] at htcpudp
  obtain ⟨back, hback⟩ := natJob_incoming stamp hreply.nonempty hreply.version htcpudp hin
  have hof := natJob_eq_some hback
  refine ⟨back, hback, hof, ?_, ?_⟩
  · have htype : e.link.linkType = job.linkType := congrArg LinkFlow.linkType h.link_flow
    rw [htype, hof.linkType, h.jobOf.linkType, hproto]
  · rcases hof.direction with ⟨_, hmem, hkey⟩ | ⟨hout, _⟩
    · refine ⟨hmem, ?_⟩
      have hsource : ntohs (r.word16 (segOffs r)) = e.link.hopPort :=
        congrArg Endpoints.source hends
      have hdest : ntohs (r.word16 (segOffs r + 2)) = (ConfProfile.endpoints m).source :=
        congrArg Endpoints.dest hends
      rw [hkey, hsource, hdest]
    · exact absurd hin hout

/-- The link fits the answer, in every later state that it is in. -/
theorem reply_matches (h : Forwarded inst s₀ s m len job e) {inst' : UsernatCtx}
    (hlocal : inst'.local4 = s.inst.local4) {x : LinkEntry} (hident : x.ident = e.ident)
    {linkType : BitVec 8} (htype : linkType = e.link.linkType) :
    x.link.Matches inst' linkType
      ⟨true, (endpoints m).source, inst'.remote4, e.link.hopPort⟩ := by
  have hflow : x.link.flow = job.flow s.inst :=
    (congrArg LinkIdent.flow hident).trans h.link_flow
  have hjob : job.linkType &&& natLinkIp6 = 0 := h.jobOf.ip4
  have htypes : x.link.linkType = job.linkType := congrArg LinkFlow.linkType hflow
  rw [h.key.2] at hflow
  refine ⟨?_, ?_, ?_, ?_, ?_⟩
  · rw [htypes]
    exact hjob
  · rw [htype]
    exact congrArg (fun i => i.flow.linkType) hident
  · exact (congrArg LinkFlow.srcAddr hflow).trans hlocal.symm
  · exact (congrArg LinkFlow.srcPort hflow).symm
  · unfold NatLink.RemoteMatches
    rw [if_pos rfl]
    exact ⟨rfl, (congrArg LinkIdent.hopPort hident).symm⟩

/-- What the app gets, from the link. -/
theorem reply_endpoints (h : Forwarded inst s₀ s m len job e)
    (hreply : ReplyTo (s.translate job e.ptr) r rlen) {s' : NatSystem} (hI : TableInv s')
    (hlocal : s'.inst.local4 = s.inst.local4) {inst' : UsernatCtx}
    (hof : JobOf inst' r rlen stamp back)
    (hmem : back.mem = r) (hin : back.key.isIncoming = true) {x : LinkEntry} (hx : x ∈ s'.links)
    (hident : x.ident = e.ident) :
    endpoints (s'.translate back x.ptr) =
      ⟨dnsToVirtual s'.inst (virtualToDns s₀.inst (addr4 m 16)), addr4 m 12,
        (endpoints m).dest, (endpoints m).source⟩ := by
  have hoffs := segOffs_ge_of_ihl hreply.header
  have hflow : x.link.flow = job.flow s.inst :=
    (congrArg LinkIdent.flow hident).trans h.link_flow
  rw [h.key.2] at hflow
  have hends := hreply.endpoints
  rw [h.endpoints_eq] at hends
  rw [endpoints_translate s' x.ptr (by rw [hmem]; exact hof.parsed) (by rw [hmem]; exact hoffs),
    hI.linkAt_eq hx, hin, hmem, hends]
  unfold usernatPatches
  rw [if_pos rfl, foldl_put_incoming, hlocal, h.key.1]
  have hdst : x.link.realDstAddr = virtualToDns s₀.inst (addr4 m 16) :=
    congrArg LinkFlow.dstAddr hflow
  have hport : x.link.realDstPort = (ConfProfile.endpoints m).dest :=
    congrArg LinkFlow.dstPort hflow
  rw [hdst, hport]
  rfl

/-- The answer gets to the lookup, which finds the link if it is in the table. -/
theorem reply_at_lookup (h : Forwarded inst s₀ s m len job e) {acts : List NatAct} {s₂ : NatSystem}
    (hrun : run natStep s acts = some s₂) (hhop : e.hop ∈ s₂.openHops)
    (hreply : ReplyTo (s.translate job e.ptr) r rlen) {java : List NatAct} {s₃ : NatSystem}
    (hjava : ∀ a ∈ java, a.Beside) (hsend : run natStep s₂ (.send r rlen :: java) = some s₃) :
    ∃ back, s₃.router = .lookup back ∧ JobOf s₂.inst r rlen s₂.nextStamp back ∧ back.mem = r ∧
      back.key.isIncoming = true ∧ ∀ x ∈ s₃.links, x.serial = e.serial → x.ident = e.ident ∧
        findLink4 s₃.inst back.linkType back.key s₃.links = some x := by
  have hrun₃ := run_append hrun hsend
  have hI₃ : HopInv s₃ := inv_run (fun _ _ _ => natStep_hop) _ h.hopInv hrun₃
  have haddr₂ := run_addr acts hrun
  have haddr₃ := run_addr _ hrun₃
  obtain ⟨back, hback, hof, htype, hmem, hkey⟩ := h.reply_key hreply haddr₂.2 s₂.nextStamp
  have hin : back.key.isIncoming = true := by rw [hkey]
  obtain ⟨s₂', hstep, hrest⟩ := run_cons_some hsend
  obtain ⟨hrouter, hopen, _⟩ := run_beside java hjava hrest
  have hpc : s₃.router = .lookup back ∧ s₃.openHops = s₂.openHops := by
    cases natStep_cases hstep with
    | sendDrop _ hnone =>
      rw [hback] at hnone
      cases hnone
    | send _ hsome =>
      rw [hback] at hsome
      obtain rfl := Option.some.inj hsome
      exact ⟨hrouter, hopen⟩
  refine ⟨back, hpc.1, hof, hmem, hin, ?_⟩
  intro x hx hserial
  have hident : x.ident = e.ident := run_ident_eq h.hopInv h.link _ hrun₃ hx hserial
  have hmatch := h.reply_matches haddr₃.1 hident htype
  have hremote : s₃.inst.remote4 = s₂.inst.remote4 := haddr₃.2.trans haddr₂.2.symm
  rw [hremote, ← hkey] at hmatch
  refine ⟨hident, hI₃.find_hop hpc.1 hin hx ?_ hmatch⟩
  rw [hserial, htype, hkey, hpc.2]
  exact hhop

end Forwarded

/-- Links of a later table, found by their serial. -/
theorem exists_serial_mono {s s' : NatSystem}
    (h : (s'.links.map LinkEntry.ident).Sublist (s.links.map LinkEntry.ident)) {k : Nat}
    (hk : ∃ e ∈ s'.links, e.serial = k) : ∃ e ∈ s.links, e.serial = k := by
  obtain ⟨e', he', hserial⟩ := hk
  obtain ⟨e, he, hident⟩ := exists_of_ident_sublist h he'
  exact ⟨e, he, (congrArg LinkIdent.serial hident).trans hserial⟩

/-- A packet `m` that is sent in any reachable state `s₀` and gets as far as the
translation, in `s₁`, for its link `e`. After any steps `acts`, and while the hop
socket of the link is open, a packet `r` arrives that answers the translated one. It
gets to the lookup and, whatever the other threads do meanwhile, is translated back to
an answer to `m` exactly if the link is in the table by then, and the DNS tables make
of its address the one that the app used. -/
theorem reply_back_iff {inst : UsernatCtx} {s₀ s₁ : NatSystem} {m : Mem} {len : Nat} {job : NatJob}
    {e : LinkEntry} (h : Forwarded inst s₀ s₁ m len job e) {acts : List NatAct} {s₂ : NatSystem}
    (hrun : run natStep s₁ acts = some s₂) (hhop : e.hop ∈ s₂.openHops) {r : Mem} {rlen : Nat}
    (hreply : ReplyTo (s₁.translate job e.ptr) r rlen) {java : List NatAct} {s₃ : NatSystem}
    (hjava : ∀ a ∈ java, a.Beside) (hsend : run natStep s₂ (.send r rlen :: java) = some s₃) :
    ∃ s₄, natStep s₃ .lookup = some s₄ ∧
      ∀ (java' : List NatAct) (s₅ : NatSystem), (∀ a ∈ java', a.Beside) →
        run natStep s₄ java' = some s₅ →
        (s₅.TranslatedBack e.serial m ↔ (∃ x ∈ s₅.links, x.serial = e.serial) ∧
          dnsToVirtual s₅.inst (virtualToDns s₀.inst (addr4 m 16)) = addr4 m 16) := by
  obtain ⟨back, hpc, hof, hmem, hin, hfound⟩ := h.reply_at_lookup hrun hhop hreply hjava hsend
  have hI₃ : HopInv s₃ :=
    inv_run (fun _ _ _ => natStep_hop) _ h.hopInv (run_append hrun hsend)
  have haddr₃ := run_addr _ (run_append hrun hsend)
  cases hfind : findLink4 s₃.inst back.linkType back.key s₃.links with
  | none =>
    refine ⟨{ s₃ with router := .idle }, by simp [natStep, hpc, hfind, hin], ?_⟩
    intro java' s₅ hjava' hlast
    obtain ⟨hrouter₅, _, hsub₅⟩ := run_beside java' hjava' hlast
    have hnone : ¬ ∃ x ∈ s₅.links, x.serial = e.serial := by
      intro htable
      obtain ⟨x, hx, hserial⟩ := exists_serial_mono hsub₅ htable
      rw [(hfound x hx hserial).2] at hfind
      cases hfind
    exact ⟨fun hback => absurd hback.2 hnone, fun hcond => absurd hcond.1 hnone⟩
  | some y =>
    have hlookup : natStep s₃ .lookup =
        some { s₃ with router := .rewrite back y.ptr y.serial } := by
      simp [natStep, hpc, hfind]
    refine ⟨_, hlookup, ?_⟩
    intro java' s₅ hjava' hlast
    obtain ⟨hrouter₅, _, hsub₅⟩ := run_beside java' hjava' hlast
    have hI₅ : HopInv s₅ := inv_run (fun _ _ _ => natStep_hop) java' (natStep_hop hI₃ hlookup) hlast
    have hlocal : s₅.inst.local4 = s₁.inst.local4 := (run_addr java' hlast).1.trans haddr₃.1
    -- the link that the router thread has is the one in the table
    have hlink : (∃ x ∈ s₅.links, x.serial = e.serial) → s₅.translation = some (e.serial,
        ⟨dnsToVirtual s₅.inst (virtualToDns s₀.inst (addr4 m 16)), addr4 m 12,
          (endpoints m).dest, (endpoints m).source⟩) := by
      rintro ⟨x, hx, hserial⟩
      obtain ⟨z, hz, hident⟩ := exists_of_ident_sublist hsub₅ hx
      have hserial' : z.serial = e.serial := (congrArg LinkIdent.serial hident).trans hserial
      obtain ⟨hidentz, hfindz⟩ := hfound z hz hserial'
      obtain rfl : y = z := Option.some.inj (hfind.symm.trans hfindz)
      have hptr : y.ptr = x.ptr := congrArg LinkIdent.ptr hident
      unfold NatSystem.translation
      rw [hrouter₅]
      dsimp only
      rw [hserial', hptr, h.reply_endpoints hreply hI₅.toTableInv hlocal hof hmem hin hx
        (hident.symm.trans hidentz)]
    refine ⟨?_, ?_⟩
    · rintro ⟨hback, htable⟩
      rw [hlink htable] at hback
      have hends := congrArg Prod.snd (Option.some.inj hback)
      exact ⟨htable, congrArg Endpoints.saddr hends⟩
    · rintro ⟨htable, hdns⟩
      refine ⟨?_, htable⟩
      rw [hlink htable, hdns]
      rfl

/-! ## A direct query -/

/-- A UDP packet from 10.0.0.2:1024 to 8.8.8.8:53, the server behind 10.0.0.53. -/
def exampleDirectQuery : Mem :=
  Mem.putBytes (fun _ => 0) 0
    [0x45, 0, 0, 28, 0, 0, 0, 0, 64, 17, 0, 0, 10, 0, 0, 2, 8, 8, 8, 8, 4, 0, 0, 53, 0, 8, 0, 0]

/-- What the hop at port 5000 answers. -/
def exampleAnswer : Mem :=
  Mem.putBytes (fun _ => 0) 0
    [0x45, 0, 0, 28, 0, 0, 0, 0, 64, 17, 0, 0, 10, 0, 0, 2, 10, 0, 0, 3, 19, 136, 4, 0, 0, 8, 0, 0]

/-- A query gets a link and is enqueued, the relay is set up, and the answer is looked
up: whether it is an answer from an open hop, and what it becomes. -/
def answeredQuery (m r : Mem) : Option (Bool × Option Endpoints × Bool) := do
  let s₁ ← run natStep (natInit exampleNat)
    [.send m 28, .lookup, .create (some ⟨3, 4, 5000, 1, true⟩), .push, .build true, .check]
  let (job, e) ← s₁.forwarding
  let s₂ ← run natStep s₁ [.rewrite true, .poll 77, .javaDrain, .javaDrain]
  let s₃ ← run natStep s₂ [.send r 28]
  let s₄ ← natStep s₃ .lookup
  return (e.hop ∈ s₂.openHops ∧ ReplyTo (s₁.translate job e.ptr) r 28,
    s₄.translation.map Prod.snd, (s₄.links.map LinkEntry.serial).contains e.serial)

/-- The parts of an answered query. -/
theorem answeredQuery_eq_some {m r : Mem} {p : Option Endpoints} (hihl : 5 ≤ ihlOf m)
    (h : answeredQuery m r = some (true, p, true)) :
    ∃ s₁ job e s₂ s₃ s₄, Forwarded exampleNat (natInit exampleNat) s₁ m 28 job e ∧
      run natStep s₁ [.rewrite true, .poll 77, .javaDrain, .javaDrain] = some s₂ ∧
      e.hop ∈ s₂.openHops ∧ ReplyTo (s₁.translate job e.ptr) r 28 ∧
      run natStep s₂ [.send r 28] = some s₃ ∧ natStep s₃ .lookup = some s₄ ∧
      s₄.translation.map Prod.snd = p ∧ ∃ x ∈ s₄.links, x.serial = e.serial := by
  unfold answeredQuery at h
  obtain ⟨s₁, hs₁, h⟩ := Option.bind_eq_some_iff.mp h
  obtain ⟨⟨job, e⟩, hforward, h⟩ := Option.bind_eq_some_iff.mp h
  obtain ⟨s₂, hs₂, h⟩ := Option.bind_eq_some_iff.mp h
  obtain ⟨s₃, hs₃, h⟩ := Option.bind_eq_some_iff.mp h
  obtain ⟨s₄, hs₄, h⟩ := Option.bind_eq_some_iff.mp h
  obtain ⟨hreply, hrest⟩ := Prod.mk.inj (Option.some.inj h)
  obtain ⟨hends, htable⟩ := Prod.mk.inj hrest
  obtain ⟨hopen, hreply⟩ := of_decide_eq_true hreply
  refine ⟨s₁, job, e, s₂, s₃, s₄, ⟨⟨[], rfl⟩, ⟨_, ?_, hs₁⟩, hihl, hforward⟩, hs₂, hopen, hreply,
    hs₃, hs₄, hends, ?_⟩
  · intro a ha
    simp only [List.mem_cons, List.not_mem_nil, or_false] at ha
    rcases ha with rfl | rfl | rfl | rfl | rfl <;> trivial
  · exact List.mem_map.mp (List.contains_iff_mem.mp htable)

theorem reply_back_iff_example :
    ∃ s₁ job e s₂ s₃ s₄,
      Forwarded exampleNat (natInit exampleNat) s₁ exampleQuery 28 job e ∧
      ReplyTo (s₁.translate job e.ptr) exampleAnswer 28 ∧
      run natStep s₂ [.send exampleAnswer 28] = some s₃ ∧ natStep s₃ .lookup = some s₄ ∧
      ∀ (java : List NatAct) (s₅ : NatSystem), (∀ a ∈ java, a.Beside) →
        run natStep s₄ java = some s₅ →
        (s₅.TranslatedBack e.serial exampleQuery ↔ (∃ x ∈ s₅.links, x.serial = e.serial) ∧
          dnsToVirtual s₅.inst (virtualToDns exampleNat (addr4 exampleQuery 16)) =
            addr4 exampleQuery 16) := by
  obtain ⟨s₁, job, e, s₂, s₃, s₄, hforward, hs₂, hopen, hreply, hs₃, hs₄, _⟩ :=
    answeredQuery_eq_some (m := exampleQuery) (r := exampleAnswer)
      (p := some ⟨0x0a000035, 0x0a000002, 53, 1024⟩) (by decide) (by decide +kernel)
  obtain ⟨s₄', hs₄', hiff⟩ :=
    reply_back_iff hforward hs₂ hopen hreply (fun a ha => absurd ha List.not_mem_nil) hs₃
  obtain rfl : s₄ = s₄' := Option.some.inj (hs₄.symm.trans hs₄')
  exact ⟨s₁, job, e, s₂, s₃, s₄, hforward, hreply, hs₃, hs₄, hiff⟩

/-- An app that asks the server itself gets its answer from the virtual address of the
server. -/
theorem reply_from_virtual_address :
    ∃ s₁ job e s₂ s₃ s₄,
      Forwarded exampleNat (natInit exampleNat) s₁ exampleDirectQuery 28 job e ∧
      run natStep s₁ [.rewrite true, .poll 77, .javaDrain, .javaDrain] = some s₂ ∧
      e.hop ∈ s₂.openHops ∧ ReplyTo (s₁.translate job e.ptr) exampleAnswer 28 ∧
      run natStep s₂ [.send exampleAnswer 28] = some s₃ ∧ natStep s₃ .lookup = some s₄ ∧
      (∃ x ∈ s₄.links, x.serial = e.serial) ∧
      s₄.translation.map Prod.snd = some ⟨0x0a000035, 0x0a000002, 53, 1024⟩ ∧
      ¬ s₄.TranslatedBack e.serial exampleDirectQuery := by
  obtain ⟨s₁, job, e, s₂, s₃, s₄, hforward, hs₂, hopen, hreply, hs₃, hs₄, hends, htable⟩ :=
    answeredQuery_eq_some (m := exampleDirectQuery) (r := exampleAnswer)
      (p := some ⟨0x0a000035, 0x0a000002, 53, 1024⟩) (by decide) (by decide +kernel)
  refine ⟨s₁, job, e, s₂, s₃, s₄, hforward, hs₂, hopen, hreply, hs₃, hs₄, htable, hends, ?_⟩
  rintro ⟨hback, _⟩
  rw [hback] at hends
  have heq : (endpoints exampleDirectQuery).swap = ⟨0x0a000035, 0x0a000002, 53, 1024⟩ :=
    Option.some.inj hends
  exact absurd heq (by decide)

end ConfProfile
