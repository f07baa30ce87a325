import ConfProfile.Tun.Endpoints

/-!
# A DNS query and its answer (`tun_ctx_send`, `tun_ctx_recv`)

A query goes out with the address of the server that a virtual address stands
for, the answer comes back from that server and gets the virtual address of the
server as its source. Both loops take the first slot that fits, one by the
virtual address and the other by the server's, and both do so for every packet:
an app that asks a server by its own address gets the answer from an address it
has never written to.

`virtualOf_dnsOf_iff` compares the two searches for a table in general,
`dns_flow_iff` says it of the packets.
-/

namespace ConfProfile

open ByteMem

/-! ## The two searches -/

/-- The address that `tun_ctx_send` sends to. -/
def dnsOf (slots : List DnsSlot) (addr : BitVec 32) : BitVec 32 :=
  (dnsFind DnsSlot.virtual addr slots).elim addr DnsSlot.dns

/-- The address that `tun_ctx_recv` gives as the sender. -/
def virtualOf (slots : List DnsSlot) (addr : BitVec 32) : BitVec 32 :=
  (dnsFind DnsSlot.dns addr slots).elim addr DnsSlot.virtual

/-- No slot in use has the address, on either side; or the first slot that has it
as its virtual address is also the first one of its server. -/
def DnsFlow (slots : List DnsSlot) (addr : BitVec 32) : Prop :=
  (∀ slot ∈ slots, slot.inUse → slot.virtual ≠ addr ∧ slot.dns ≠ addr) ∨
    ∃ before slot behind, slots = before ++ slot :: behind ∧ slot.inUse ∧ slot.virtual = addr ∧
      ∀ other ∈ before, other.inUse → other.virtual ≠ addr ∧ other.dns ≠ slot.dns

section search

variable {seek : DnsSlot → BitVec 32} {addr : BitVec 32} {slots : List DnsSlot}

theorem dnsFind_eq_none_iff :
    dnsFind seek addr slots = none ↔ ∀ slot ∈ slots, slot.inUse → seek slot ≠ addr := by
  unfold dnsFind
  simp [List.find?_eq_none]

theorem dnsFind_eq_some_iff {slot : DnsSlot} :
    dnsFind seek addr slots = some slot ↔ (slot.inUse ∧ seek slot = addr) ∧
      ∃ before behind, slots = before ++ slot :: behind ∧
        ∀ other ∈ before, other.inUse → seek other ≠ addr := by
  unfold dnsFind
  simp [List.find?_eq_some_iff_append, or_iff_not_imp_left]

theorem dnsFind_append {before behind : List DnsSlot} (h : dnsFind seek addr before ≠ none) :
    dnsFind seek addr (before ++ behind) = dnsFind seek addr before := by
  obtain ⟨slot, hslot⟩ := Option.ne_none_iff_exists'.mp h
  unfold dnsFind at hslot ⊢
  rw [List.find?_append, hslot, Option.some_or]

/-- The first slot of a virtual address is the first one of its server too, if the
address comes back. -/
theorem dnsFlow_of_find {slot : DnsSlot} (hfind : dnsFind DnsSlot.virtual addr slots = some slot)
    (hback : virtualOf slots slot.dns = addr) : DnsFlow slots addr := by
  obtain ⟨⟨huse, _⟩, before, behind, heq, _⟩ := dnsFind_eq_some_iff.mp hfind
  have hmem : slot ∈ slots := heq ▸ List.mem_append_cons_self
  unfold virtualOf at hback
  cases hdns : dnsFind DnsSlot.dns slot.dns slots with
  | none => exact absurd rfl (dnsFind_eq_none_iff.mp hdns slot hmem huse)
  | some first =>
    rw [hdns] at hback
    obtain ⟨⟨huse', hserver⟩, before', behind', heq', hfirst⟩ := dnsFind_eq_some_iff.mp hdns
    refine Or.inr ⟨before', first, behind', heq', huse', hback, ?_⟩
    intro other hother huse''
    refine ⟨?_, fun h => hfirst other hother huse'' (h.trans hserver)⟩
    intro hvirtual
    -- then the first slot of the address lies in front of the first one of its server
    have hsome : dnsFind DnsSlot.virtual addr before' ≠ none := by
      intro hnone
      exact dnsFind_eq_none_iff.mp hnone other hother huse'' hvirtual
    rw [heq', dnsFind_append hsome] at hfind
    obtain ⟨_, before'', behind'', hin, _⟩ := dnsFind_eq_some_iff.mp hfind
    exact hfirst slot (hin ▸ List.mem_append_cons_self) huse rfl

/-- When the address of a query comes back as the sender of its answer. -/
theorem virtualOf_dnsOf_iff : virtualOf slots (dnsOf slots addr) = addr ↔ DnsFlow slots addr := by
  constructor
  · intro hback
    unfold dnsOf at hback
    cases hfind : dnsFind DnsSlot.virtual addr slots with
    | some slot =>
      rw [hfind] at hback
      exact dnsFlow_of_find hfind hback
    | none =>
      rw [hfind] at hback
      have hvirtual := dnsFind_eq_none_iff.mp hfind
      refine Or.inl fun slot hslot huse => ⟨hvirtual slot hslot huse, ?_⟩
      intro hdns
      unfold virtualOf at hback
      cases hserver : dnsFind DnsSlot.dns addr slots with
      | none => exact dnsFind_eq_none_iff.mp hserver slot hslot huse hdns
      | some first =>
        rw [Option.elim_none, hserver] at hback
        obtain ⟨⟨huse', _⟩, before, behind, heq, _⟩ := dnsFind_eq_some_iff.mp hserver
        exact hvirtual first (heq ▸ List.mem_append_cons_self) huse' hback
  · rintro (hnone | ⟨before, slot, behind, heq, huse, hvirtual, hbefore⟩)
    · have hout : dnsFind DnsSlot.virtual addr slots = none :=
        dnsFind_eq_none_iff.mpr fun slot hslot h => (hnone slot hslot h).1
      have hback : dnsFind DnsSlot.dns addr slots = none :=
        dnsFind_eq_none_iff.mpr fun slot hslot h => (hnone slot hslot h).2
      unfold dnsOf virtualOf
      rw [hout, Option.elim_none, hback, Option.elim_none]
    · have hout : dnsFind DnsSlot.virtual addr slots = some slot :=
        dnsFind_eq_some_iff.mpr ⟨⟨huse, hvirtual⟩, before, behind, heq, fun other ho h =>
          (hbefore other ho h).1⟩
      have hback : dnsFind DnsSlot.dns slot.dns slots = some slot :=
        dnsFind_eq_some_iff.mpr ⟨⟨huse, rfl⟩, before, behind, heq, fun other ho h =>
          (hbefore other ho h).2⟩
      unfold dnsOf virtualOf
      rw [hout, Option.elim_some, hback, Option.elim_some, hvirtual]

end search

/-! ## The packets -/

/-- What `send4` does with a packet for a tunnel. -/
def sendThrough (ctx : TunCtxPrivate) (len : Nat) : MemM Unit := do
  masqueradeSrc ctx len
  tunCtxSend ctx len

/-- The slots of a tunnel. -/
def TunCtxPrivate.slots (ctx : TunCtxPrivate) : List DnsSlot :=
  dnsSlots ctx.dnsIp4 ctx.virtualDnsIp4

/-- The address that `masquerade_src` and `masquerade_dst` put in the place of `addr`. -/
def TunCtxPrivate.masqueraded (ctx : TunCtxPrivate) (addr : BitVec 32) : BitVec 32 :=
  if ctx.useMasquerade4 then ctx.masquerade4 else addr

section packets

variable {m r : Mem} {len rlen : Nat}

/-- Rewrites act on the endpoints one after the other. -/
theorem endpoints_rewriteAll (hoffs : 20 ≤ segOffs m) (rewrites : List (List Patch)) :
    endpoints (rewriteAll len m rewrites) = rewrites.flatten.foldl Patch.put (endpoints m) := by
  induction rewrites generalizing m with
  | nil => rfl
  | cons patches rewrites ih =>
    have hseg := (rewriteOnce_sameFields hoffs len patches).segOffs_eq
    have hput : endpoints (rewriteOnce len m patches) = patches.foldl Patch.put (endpoints m) :=
      endpoints_rewriteOnce hoffs patches
    rw [List.flatten_cons, List.foldl_append, ← hput]
    exact ih (hoffs.trans_eq hseg.symm)

theorem Ip4Wf.len_pos (h : Ip4Wf m len) : 0 < len := by
  have hoffs := h.segOffs_ge
  have hheader := h.header
  omega

theorem foldl_put_dnsSend (p : Endpoints) (slots : List DnsSlot) (addr : BitVec 32) :
    (dnsPatches .daddr DnsSlot.dns (dnsFind DnsSlot.virtual addr slots)).flatten.foldl Patch.put p =
      { p with daddr := (dnsFind DnsSlot.virtual addr slots).elim p.daddr DnsSlot.dns } := by
  cases dnsFind DnsSlot.virtual addr slots <;> rfl

theorem foldl_put_dnsRecv (p : Endpoints) (slots : List DnsSlot) (addr : BitVec 32) :
    (dnsPatches .saddr DnsSlot.virtual (dnsFind DnsSlot.dns addr slots)).flatten.foldl Patch.put p =
      { p with saddr := (dnsFind DnsSlot.dns addr slots).elim p.saddr DnsSlot.virtual } := by
  cases dnsFind DnsSlot.dns addr slots <;> rfl

/-- What a query goes out with. -/
theorem endpoints_sendThrough (ctx : TunCtxPrivate) (h : Ip4Wf m len) :
    endpoints ((sendThrough ctx len).mem m) =
      { endpoints m with
        saddr := ctx.masqueraded (endpoints m).saddr
        daddr := dnsOf ctx.slots (endpoints m).daddr } := by
  have hmasq : (masqueradeSrc ctx len).mem m = rewriteAll len m (masqueradePatches .saddr ctx) :=
    masqueradeAt_rewrite (fun _ _ => rfl) ctx h.len_pos h.version
  have hsame := rewriteAll_sameFields h.segOffs_ge len (masqueradePatches .saddr ctx)
  have hends : endpoints ((masqueradeSrc ctx len).mem m) =
      { endpoints m with saddr := ctx.masqueraded (endpoints m).saddr } := by
    rw [hmasq, endpoints_rewriteAll h.segOffs_ge]
    unfold masqueradePatches TunCtxPrivate.masqueraded
    split <;> rfl
  have hdaddr : addr4 ((masqueradeSrc ctx len).mem m) 16 = (endpoints m).daddr :=
    congrArg Endpoints.daddr hends
  rw [← hmasq] at hsame
  have hwf := hsame.ip4Wf h
  unfold sendThrough
  rw [MemM.mem_bind, tunCtxSend_rewrite ctx h.len_pos hwf.version,
    endpoints_rewriteAll hwf.segOffs_ge, foldl_put_dnsSend, hends, hdaddr]
  rfl

/-- What the app gets as an answer. -/
theorem endpoints_tunCtxRecvRead (ctx devTunCtx : TunCtxPrivate) {buffLen : Nat}
    (hbuff : 0 < buffLen) (h : Ip4Wf r rlen) :
    endpoints ((tunCtxRecvRead ctx devTunCtx buffLen rlen).mem r) =
      { endpoints r with
        saddr := virtualOf ctx.slots (endpoints r).saddr
        daddr := devTunCtx.masqueraded (endpoints r).daddr } := by
  rw [tunCtxRecvRead_rewrite ctx devTunCtx hbuff h, endpoints_rewriteAll h.segOffs_ge,
    List.flatten_append, List.foldl_append, foldl_put_dnsRecv]
  unfold masqueradePatches TunCtxPrivate.masqueraded
  split <;> rfl

/-- A query `m` goes out through a tunnel and `r` answers it: the answer has the
address that the query was sent to as its source, exactly if the tables of the tunnel
are unambiguous for that address. -/
theorem dns_flow_iff (ctx devTunCtx : TunCtxPrivate) {buffLen : Nat} (hbuff : 0 < buffLen)
    (hquery : Ip4Wf m len) (hanswer : Ip4Wf r rlen)
    (hreply : endpoints r = (endpoints ((sendThrough ctx len).mem m)).swap) :
    (endpoints ((tunCtxRecvRead ctx devTunCtx buffLen rlen).mem r)).saddr = (endpoints m).daddr ↔
      DnsFlow ctx.slots (endpoints m).daddr := by
  have hsaddr : (endpoints r).saddr = dnsOf ctx.slots (endpoints m).daddr := by
    rw [hreply, endpoints_sendThrough ctx hquery]
    rfl
  rw [endpoints_tunCtxRecvRead ctx devTunCtx hbuff hanswer, hsaddr]
  exact virtualOf_dnsOf_iff

end packets

/-! ## A server that is asked directly -/

/-- A tunnel with the server 8.8.8.8 behind 10.0.0.53. -/
def dnsCtx : TunCtxPrivate where
  dnsIp4 := (Vector.replicate 4 0).set 0 0x08080808
  virtualDnsIp4 := (Vector.replicate 4 0).set 0 0x0a000035
  masquerade4 := 0
  useMasquerade4 := false
  masquerade6 := Vector.replicate 16 0
  useMasquerade6 := false

/-- A UDP packet from 10.0.0.2:1024 to port 53 of an address, given by its bytes. -/
def dnsQuery (server : List (BitVec 8)) : Mem :=
  Mem.putBytes (fun _ => 0) 0 ([0x45, 0, 0, 28, 0, 0, 0, 0, 64, 17, 0, 0, 10, 0, 0, 2] ++ server ++
    [4, 0, 0, 53, 0, 8, 0, 0])

/-- The answer of 8.8.8.8. -/
def dnsAnswer : Mem :=
  Mem.putBytes (fun _ => 0) 0
    [0x45, 0, 0, 28, 0, 0, 0, 0, 64, 17, 0, 0, 8, 8, 8, 8, 10, 0, 0, 2, 0, 53, 4, 0, 0, 8, 0, 0]

theorem dnsQuery_wf : Ip4Wf (dnsQuery [10, 0, 0, 53]) 28 ∧ Ip4Wf (dnsQuery [8, 8, 8, 8]) 28 :=
  ⟨⟨by decide, by decide, by decide, by decide⟩, ⟨by decide, by decide, by decide, by decide⟩⟩

theorem dnsAnswer_wf : Ip4Wf dnsAnswer 28 := ⟨by decide, by decide, by decide, by decide⟩

theorem dns_flow_iff_virtual :
    (endpoints ((tunCtxRecvRead dnsCtx dnsCtx 1500 28).mem dnsAnswer)).saddr =
        (endpoints (dnsQuery [10, 0, 0, 53])).daddr ↔
      DnsFlow dnsCtx.slots (endpoints (dnsQuery [10, 0, 0, 53])).daddr := by
  refine dns_flow_iff dnsCtx dnsCtx (by decide) dnsQuery_wf.1 dnsAnswer_wf ?_
  rw [endpoints_sendThrough dnsCtx dnsQuery_wf.1]
  decide

/-- The answer to a query to 8.8.8.8 comes from 10.0.0.53. -/
theorem direct_query_answered_from_virtual :
    Ip4Wf (dnsQuery [8, 8, 8, 8]) 28 ∧ Ip4Wf dnsAnswer 28 ∧
      endpoints dnsAnswer =
        (endpoints ((sendThrough dnsCtx 28).mem (dnsQuery [8, 8, 8, 8]))).swap ∧
      (endpoints (dnsQuery [8, 8, 8, 8])).daddr = 0x08080808 ∧
      (endpoints ((tunCtxRecvRead dnsCtx dnsCtx 1500 28).mem dnsAnswer)).saddr = 0x0a000035 := by
  refine ⟨dnsQuery_wf.2, dnsAnswer_wf, ?_, by decide, ?_⟩
  · rw [endpoints_sendThrough dnsCtx dnsQuery_wf.2]
    decide
  · rw [endpoints_tunCtxRecvRead dnsCtx dnsCtx (by decide) dnsAnswer_wf]
    decide

end ConfProfile
