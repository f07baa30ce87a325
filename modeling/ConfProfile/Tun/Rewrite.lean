import ConfProfile.Packet.Valid
import ConfProfile.Tun.Masquerade

/-!
# Rewriting an IPv4 packet, in the abstract

Every path of the source that rewrites an IPv4 packet does the same: it puts a
few addresses and ports into the packet (`Patch`), calculates both checksums,
and may do so again (`rewriteAll`). The functions of `tun.c` are instances:
`masqueradeAt_rewrite`, `tunCtxSend_rewrite` and `tunCtxRecvRead_rewrite` give
the patches of each.

What holds of every list of patches is proved once: the fields in front of the
header checksum stay as they are, and with them the place and the length of the
segment (`rewriteAll_sameFields`).
-/

namespace ConfProfile

open ByteMem

/-- A value that a rewrite puts into a packet. -/
inductive Patch where
  | saddr (ip : BitVec 32)
  | daddr (ip : BitVec 32)
  | source (port : BitVec 16)
  | dest (port : BitVec 16)
  deriving DecidableEq, Repr

/-- The packet with the value put in, the checksums as they were. -/
def Patch.apply (m : Mem) : Patch → Mem
  | .saddr ip => m.put32 12 (htonl ip)
  | .daddr ip => m.put32 16 (htonl ip)
  | .source port => m.put16 (segOffs m) (htons port)
  | .dest port => m.put16 (segOffs m + 2) (htons port)

/-- The packet with some values put in. -/
def patchAll (m : Mem) (patches : List Patch) : Mem := patches.foldl Patch.apply m

/-- Some values and both checksums. -/
def rewriteOnce (len : Nat) (m : Mem) (patches : List Patch) : Mem :=
  (ip4CalcChecksums (m 9) len).mem (patchAll m patches)

/-- One rewrite after the other. -/
def rewriteAll (len : Nat) (m : Mem) (rewrites : List (List Patch)) : Mem :=
  rewrites.foldl (rewriteOnce len) m

/-! ## What every rewrite leaves alone -/

section same

variable {m : Mem} {len : Nat}

theorem Patch.apply_sameFields (hoffs : 20 ≤ segOffs m) (patch : Patch) :
    SameFields m (patch.apply m) := by
  cases patch with
  | saddr ip | daddr ip => exact (SameFields.refl m).put32 (by omega) _
  | source port | dest port => exact (SameFields.refl m).put16 (by omega) _

theorem patchAll_sameFields (hoffs : 20 ≤ segOffs m) (patches : List Patch) :
    SameFields m (patchAll m patches) := by
  induction patches generalizing m with
  | nil => exact SameFields.refl m
  | cons patch patches ih =>
    have hone := Patch.apply_sameFields hoffs patch
    exact hone.trans (ih (hoffs.trans_eq hone.segOffs_eq.symm))

theorem ip4CalcPayloadChecksum_sameFields (hoffs : 20 ≤ segOffs m) (payloadProto : BitVec 8)
    (n : Nat) :
    SameFields m ((ip4CalcPayloadChecksum payloadProto n).mem m) := by
  unfold ip4CalcPayloadChecksum
  split
  · show SameFields m ((ip4CalcTcpChecksum n).mem m)
    by_cases hn : n < 40
    · rw [ip4CalcTcpChecksum_short m hn]
      exact SameFields.refl m
    · obtain ⟨c, _, hmem⟩ := @ip4CalcTcpChecksum_stores m n (by omega)
      rw [hmem]
      exact (SameFields.refl m).put16 (by omega) _
  · split
    · show SameFields m ((ip4CalcUdpChecksum n).mem m)
      rw [ip4CalcUdpChecksum_mem]
      split
      · exact SameFields.refl m
      · exact (SameFields.refl m).put16 (by omega) _
    · exact SameFields.refl m

theorem rewriteOnce_sameFields (hoffs : 20 ≤ segOffs m) (len : Nat) (patches : List Patch) :
    SameFields m (rewriteOnce len m patches) := by
  have hpatch := patchAll_sameFields hoffs patches
  have hip := hpatch.trans (ip4CalcIpChecksum_sameFields (patchAll m patches) len)
  exact hip.trans
    (ip4CalcPayloadChecksum_sameFields (hoffs.trans_eq hip.segOffs_eq.symm) (m 9) len)

/-- The fields in front of the header checksum stay as they are. -/
theorem rewriteAll_sameFields (hoffs : 20 ≤ segOffs m) (len : Nat) (rewrites : List (List Patch)) :
    SameFields m (rewriteAll len m rewrites) := by
  induction rewrites generalizing m with
  | nil => exact SameFields.refl m
  | cons patches rewrites ih =>
    have hone := rewriteOnce_sameFields hoffs len patches
    exact hone.trans (ih (hoffs.trans_eq hone.segOffs_eq.symm))

theorem rewriteAll_append (rewrites rewrites' : List (List Patch)) :
    rewriteAll len m (rewrites ++ rewrites') =
      rewriteAll len (rewriteAll len m rewrites) rewrites' := by
  unfold rewriteAll
  rw [List.foldl_append]

end same

/-! ## The paths of `tun.c` -/

/-- The patch of a slot that a DNS loop finds. -/
def dnsPatches (patch : BitVec 32 → Patch) (put : DnsSlot → BitVec 32) (slot : Option DnsSlot) :
    List (List Patch) :=
  slot.elim [] fun slot => [[patch (put slot)]]

/-- The patch of `masquerade_src` or `masquerade_dst`. -/
def masqueradePatches (patch : BitVec 32 → Patch) (ctx : TunCtxPrivate) : List (List Patch) :=
  if ctx.useMasquerade4 then [[patch ctx.masquerade4]] else []

section paths

variable {m : Mem} {len : Nat}

theorem masquerade4_mem (addr4 : Nat) (ctx : TunCtxPrivate) (payloadProto : BitVec 8) :
    (masquerade4 addr4 ctx payloadProto len).mem m =
      (ip4CalcChecksums payloadProto len).mem (m.put32 addr4 (htonl ctx.masquerade4)) := rfl

/-- `masquerade_src` and `masquerade_dst` on an IPv4 packet. -/
theorem masqueradeAt_rewrite {addr4 addr6 : Nat} {patch : BitVec 32 → Patch}
    (hpatch : ∀ ip m, Patch.apply m (patch ip) = m.put32 addr4 (htonl ip)) (ctx : TunCtxPrivate)
    (hlen : 0 < len) (h4 : ipverOf (m 0) = 4) :
    (masqueradeAt addr4 addr6 ctx len).mem m = rewriteAll len m (masqueradePatches patch ctx) := by
  have heq := congrArg (fun r => r.2.1) (masqueradeAt_eq addr4 addr6 ctx hlen m)
  refine heq.trans ?_
  show (_ >>= _ : MemM Unit).mem m = _
  rw [MemM.mem_bind, ipParsePacket_mem]
  unfold masqueradePatches
  by_cases huse : ctx.useMasquerade4 = true
  · rw [if_pos ⟨h4, huse⟩, if_pos huse, masquerade4_mem, ← hpatch]
    rfl
  · rw [if_neg (fun h => huse h.2), if_neg (fun h => absurd (h4.symm.trans h.1) (by omega)),
      if_neg huse]
    rfl

/-- The version of a packet in a buffer that is not empty. -/
theorem parsed_ipver {buffLen : Nat} (pktLen : Nat) (hlen : 0 < buffLen)
    (h4 : ipverOf (m 0) = 4) : ((ipParsePacket (newPacket buffLen pktLen)).val m).ipver = 4 := by
  rw [ipParsePacket_ipver, if_pos (show 0 < (newPacket buffLen pktLen).buffLen from hlen), h4]

/-- `tun_ctx_send` on an IPv4 packet. -/
theorem tunCtxSend_rewrite (ctx : TunCtxPrivate) (hlen : 0 < len) (h4 : ipverOf (m 0) = 4) :
    (tunCtxSend ctx len).mem m = rewriteAll len m (dnsPatches .daddr DnsSlot.dns
      (dnsFind DnsSlot.virtual (addr4 m 16) (dnsSlots ctx.dnsIp4 ctx.virtualDnsIp4))) := by
  have hproto := ipParsePacket_payloadProto m _ (parsed_ipver len hlen h4)
  unfold tunCtxSend
  rw [MemM.mem_bind, ipParsePacket_mem, hproto, dnsLoop_mem]
  cases dnsFind DnsSlot.virtual (addr4 m 16) (dnsSlots ctx.dnsIp4 ctx.virtualDnsIp4) <;> rfl

/-- `tun_ctx_recv` on an IPv4 packet: the DNS rewrite and then the one of the dev
tunnel. -/
theorem tunCtxRecvRead_rewrite (ctx devTunCtx : TunCtxPrivate) {buffLen : Nat} (hbuff : 0 < buffLen)
    (h : Ip4Wf m len) :
    (tunCtxRecvRead ctx devTunCtx buffLen len).mem m = rewriteAll len m
      (dnsPatches .saddr DnsSlot.virtual
        (dnsFind DnsSlot.dns (addr4 m 12) (dnsSlots ctx.dnsIp4 ctx.virtualDnsIp4)) ++
        masqueradePatches .daddr devTunCtx) := by
  have hproto := ipParsePacket_payloadProto m _ (parsed_ipver len hbuff h.version)
  have hdns : (dnsLoop 12 DnsSlot.dns DnsSlot.virtual (ip4CalcChecksums (m 9) len)
      (dnsSlots ctx.dnsIp4 ctx.virtualDnsIp4)).mem m = rewriteAll len m
      (dnsPatches .saddr DnsSlot.virtual
        (dnsFind DnsSlot.dns (addr4 m 12) (dnsSlots ctx.dnsIp4 ctx.virtualDnsIp4))) := by
    rw [dnsLoop_mem]
    cases dnsFind DnsSlot.dns (addr4 m 12) (dnsSlots ctx.dnsIp4 ctx.virtualDnsIp4) <;> rfl
  have hwf := (rewriteAll_sameFields h.segOffs_ge len (dnsPatches .saddr DnsSlot.virtual
    (dnsFind DnsSlot.dns (addr4 m 12) (dnsSlots ctx.dnsIp4 ctx.virtualDnsIp4)))).ip4Wf h
  have hlen : 0 < len := by
    have hoffs := h.segOffs_ge
    have hheader := h.header
    omega
  unfold tunCtxRecvRead
  rw [MemM.mem_bind, ipParsePacket_mem, hproto, MemM.mem_bind, hdns, rewriteAll_append]
  exact masqueradeAt_rewrite (fun _ _ => rfl) devTunCtx hlen hwf.version

end paths

end ConfProfile
