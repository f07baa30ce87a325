import ConfProfile.Usernat.Packet

/-!
# Checksums behind a rewrite

All paths on which the address or a port of an IPv4 packet is changed, and the
checksums of the packet that leaves on them. A TCP packet has at least 40 bytes,
so its checksum is always calculated again, and right (`tcp_rewrite_verifies`).
A UDP packet may be shorter: then `ip4_calc_udp_checksum` returns without taking
the old checksum away, and the packet leaves with a checksum that belongs to the
old addresses (`udp_rewrite_iff`).
-/

namespace ConfProfile

open ByteMem
open OnesSum (byteSum InternetVerifies)

/-- `usernat_tun_ctx_send` for the link that `find_link` comes back with. -/
def usernatTranslate (inst : UsernatCtx) (link : NatLink) (len : Nat) : MemM Unit := do
  let packet ← ipParsePacket (newPacket len len)
  let key ← findLinkAddr inst packet
  match key with
  | some key => usernatRewrite inst link key.isIncoming packet len
  | none => pure ()

/-- The paths on which packets are rewritten. The buffer of `tun_ctx_recv` goes on
for `spare` bytes behind the packet. -/
inductive RewritePath where
  | masqueradeSrc (ctx : TunCtxPrivate)
  | masqueradeDst (ctx : TunCtxPrivate)
  | tunCtxSend (ctx : TunCtxPrivate)
  | tunCtxRecv (ctx devTunCtx : TunCtxPrivate) (spare : Nat)
  | usernat (inst : UsernatCtx) (link : NatLink)

/-- What the path does to a packet of `len` bytes. -/
def RewritePath.run (path : RewritePath) (len : Nat) : MemM Unit :=
  match path with
  | .masqueradeSrc ctx => ConfProfile.masqueradeSrc ctx len
  | .masqueradeDst ctx => ConfProfile.masqueradeDst ctx len
  | .tunCtxSend ctx => ConfProfile.tunCtxSend ctx len
  | .tunCtxRecv ctx devTunCtx spare => tunCtxRecvRead ctx devTunCtx (len + spare) len
  | .usernat inst link => usernatTranslate inst link len

/-- The rewrite of the user NAT, by the direction of the packet. -/
def usernatRewrites (inst : UsernatCtx) (link : NatLink) (m : Mem) : List (List Patch) :=
  if inst.remote4 = addr4 m 16 then [incomingPatches inst link]
  else if inst.local4 = addr4 m 12 then
    [virtualDnsPatches inst (addr4 m 16) ++ outgoingPatches inst link]
  else []

/-- The rewrites of the path, by the addresses of the packet. -/
def RewritePath.rewrites (path : RewritePath) (m : Mem) : List (List Patch) :=
  match path with
  | .masqueradeSrc ctx => masqueradePatches .saddr ctx
  | .masqueradeDst ctx => masqueradePatches .daddr ctx
  | .tunCtxSend ctx => dnsPatches .daddr DnsSlot.dns
      (dnsFind DnsSlot.virtual (addr4 m 16) (dnsSlots ctx.dnsIp4 ctx.virtualDnsIp4))
  | .tunCtxRecv ctx devTunCtx _ =>
    dnsPatches .saddr DnsSlot.virtual
      (dnsFind DnsSlot.dns (addr4 m 12) (dnsSlots ctx.dnsIp4 ctx.virtualDnsIp4)) ++
      masqueradePatches .daddr devTunCtx
  | .usernat inst link => usernatRewrites inst link m

section paths

variable {m : Mem} {len : Nat}

theorem parsedAs_packet (h : Ip4Wf m len) (hproto : m 9 = ipprotoTcp ∨ m 9 = ipprotoUdp) :
    ParsedAs ((ipParsePacket (newPacket len len)).val m) m := by
  have hoffs := h.segOffs_ge
  have hheader := h.header
  have hver := @parsed_ipver m len len (by omega) h.version
  exact ⟨hver, ipParsePacket_payloadProto m _ hver, (ipParsePacket_ports m _ hver hproto).1⟩

/-- The packet stays parsed as it is while the fields in front stay. -/
theorem ParsedAs.of_sameFields {packet : OcpaIpPacket} {m' : Mem} (h : ParsedAs packet m)
    (hsame : SameFields m m') : ParsedAs packet m' := by
  refine ⟨h.ipver, ?_, ?_⟩
  · rw [hsame 9 (by omega)]
    exact h.payloadProto
  · rw [hsame.segOffs_eq]
    exact h.payloadHeader

theorem usernatTranslate_rewrite (inst : UsernatCtx) (link : NatLink) (h : Ip4Wf m len)
    (hproto : m 9 = ipprotoTcp ∨ m 9 = ipprotoUdp) :
    (usernatTranslate inst link len).mem m = rewriteAll len m (usernatRewrites inst link m) := by
  have hparsed := parsedAs_packet h hproto
  unfold usernatTranslate usernatRewrites
  rw [MemM.mem_bind, ipParsePacket_mem, MemM.mem_bind, findLinkAddr_mem, findLinkAddr_val]
  by_cases hin : inst.remote4 = addr4 m 16
  · rw [if_pos hin, if_pos hin, if_pos hin]
    exact usernatRewrite_eq inst link true len h.segOffs_ge hparsed
  · rw [if_neg hin, if_neg hin, if_neg hin]
    by_cases hout : inst.local4 = addr4 m 12
    · have hsame : SameFields m (patchAll m (virtualDnsPatches inst (addr4 m 16))) :=
        patchAll_sameFields h.segOffs_ge _
      have hrw := usernatRewrite_eq inst link false len (hsame.ip4Wf h).segOffs_ge
        (hparsed.of_sameFields hsame)
      have h9 : (virtualDnsPatches inst (addr4 m 16)).foldl Patch.apply m 9 = m 9 :=
        hsame 9 (by omega)
      rw [if_pos hout, if_pos hout, if_pos hout]
      refine hrw.trans ?_
      unfold rewriteAll rewriteOnce patchAll usernatPatches
      rw [List.foldl_cons, List.foldl_nil, List.foldl_append, h9]
      rfl
    · rw [if_neg hout, if_neg hout, if_neg hout]
      rfl

/-- The paths of `tun.c`. -/
def RewritePath.OfTun : RewritePath → Prop
  | .usernat _ _ => False
  | _ => True

/-- Every path of `tun.c` is a list of rewrites. -/
theorem RewritePath.run_ofTun {path : RewritePath} (hpath : path.OfTun) (h : Ip4Wf m len) :
    (path.run len).mem m = rewriteAll len m (path.rewrites m) := by
  have hoffs := h.segOffs_ge
  have hheader := h.header
  have hlen : 0 < len := by omega
  cases path with
  | masqueradeSrc ctx => exact masqueradeAt_rewrite (fun _ _ => rfl) ctx hlen h.version
  | masqueradeDst ctx => exact masqueradeAt_rewrite (fun _ _ => rfl) ctx hlen h.version
  | tunCtxSend ctx => exact tunCtxSend_rewrite ctx hlen h.version
  | tunCtxRecv ctx devTunCtx spare => exact tunCtxRecvRead_rewrite ctx devTunCtx (by omega) h
  | usernat inst link => exact hpath.elim

/-- Every path is a list of rewrites; the user NAT takes TCP and UDP only. -/
theorem RewritePath.run_eq (path : RewritePath) (h : Ip4Wf m len)
    (hproto : m 9 = ipprotoTcp ∨ m 9 = ipprotoUdp) :
    (path.run len).mem m = rewriteAll len m (path.rewrites m) := by
  cases path with
  | usernat inst link => exact usernatTranslate_rewrite inst link h hproto
  | _ => exact RewritePath.run_ofTun trivial h

end paths

/-! ## TCP -/

section tcp

variable {m : Mem} {len : Nat}

/-- One rewrite of a TCP packet leaves both checksums valid. -/
theorem rewriteOnce_tcp (h : Tcp4Wf m len) (patches : List Patch) :
    HeaderVerifies (rewriteOnce len m patches) ∧ SegmentVerifies (rewriteOnce len m patches) := by
  have hpatch := patchAll_sameFields h.toIp4Wf.segOffs_ge patches
  have hip := hpatch.trans (ip4CalcIpChecksum_sameFields (patchAll m patches) len)
  have hheader := ip4CalcIpChecksum_verifies (hpatch.ip4Wf h.toIp4Wf)
  obtain ⟨_, hbelow, hseg⟩ := ip4CalcTcpChecksum_verifies (hip.tcp4Wf h)
  have hpos := (hip.ip4Wf h.toIp4Wf).segOffs_ge
  have hout : rewriteOnce len m patches =
      (ip4CalcTcpChecksum len).mem ((ip4CalcIpChecksum len).mem (patchAll m patches)) := by
    unfold rewriteOnce ip4CalcChecksums ip4CalcPayloadChecksum
    rw [if_pos h.proto]
    rfl
  rw [hout]
  exact ⟨headerVerifies_congr (by omega) hbelow hheader, hseg⟩

/-- After one rewrite or more both checksums are valid. -/
theorem rewriteAll_tcp (h : Tcp4Wf m len) {rewrites : List (List Patch)} (hne : rewrites ≠ []) :
    HeaderVerifies (rewriteAll len m rewrites) ∧ SegmentVerifies (rewriteAll len m rewrites) := by
  induction rewrites generalizing m with
  | nil => exact absurd rfl hne
  | cons patches rewrites ih =>
    by_cases hlast : rewrites = []
    · subst hlast
      exact rewriteOnce_tcp h patches
    · exact ih ((rewriteOnce_sameFields h.toIp4Wf.segOffs_ge len patches).tcp4Wf h) hlast

/-- Whenever a path changes an address or a port of a TCP packet, the header
checksum and the TCP checksum of the packet that leaves are valid, for every
header length and every number of data bytes. -/
theorem tcp_rewrite_verifies (path : RewritePath) (h : Tcp4Wf m len)
    (hrewrite : path.rewrites m ≠ []) :
    HeaderVerifies ((path.run len).mem m) ∧ SegmentVerifies ((path.run len).mem m) := by
  rw [path.run_eq h.toIp4Wf (Or.inl h.proto)]
  exact rewriteAll_tcp h hrewrite

end tcp

/-- A TCP packet of 41 bytes from 10.0.0.2:1024 to 10.0.0.3:80. -/
def exampleTcp : Mem :=
  Mem.putBytes (fun _ => 0) 0
    [0x45, 0, 0, 41, 0, 0, 0, 0, 64, 6, 0, 0, 10, 0, 0, 2, 10, 0, 0, 3,
      4, 0, 0, 80, 0, 0, 0, 1, 0, 0, 0, 0, 0x50, 0x18, 16, 0, 0, 0, 0, 0, 0x61]

theorem exampleTcp_wf : Tcp4Wf exampleTcp 41 :=
  ⟨⟨by decide, by decide, by decide, by decide⟩, by decide, by decide⟩

theorem tcp_rewrite_verifies_example :
    HeaderVerifies (((RewritePath.masqueradeSrc masqueradingCtx).run 41).mem exampleTcp) ∧
      SegmentVerifies (((RewritePath.masqueradeSrc masqueradingCtx).run 41).mem exampleTcp) :=
  tcp_rewrite_verifies (.masqueradeSrc masqueradingCtx) exampleTcp_wf (by decide)

/-! ## UDP -/

/-- The checksum field of a UDP datagram. -/
def udpField (m : Mem) : Nat := net16 m (segOffs m + 6)

/-- The receiver's test of a UDP datagram: no checksum, or a valid one. -/
def UdpVerifies (m : Mem) : Prop := udpField m = 0 ∨ SegmentVerifies m

/-- The sum of a datagram and its pseudo header. -/
def datagramSum (m : Mem) : Nat :=
  byteSum (pseudo4 m (segmentLen m) ++ m.bytes (segOffs m) (segmentLen m))

/-- The sum of the addresses and the ports, the words that a rewrite changes. -/
def addrPortSum (m : Mem) : Nat :=
  net16 m 12 + net16 m 14 + net16 m 16 + net16 m 18 + net16 m (segOffs m) + net16 m (segOffs m + 2)

/-- The checksum in `m` still fits with the addresses and ports of `new`. For a
valid checksum this says that they sum up to the same. -/
def ChecksumStillFits (m new : Mem) : Prop :=
  (datagramSum m + addrPortSum new) % 65535 = addrPortSum m % 65535

section udp

variable {m m' : Mem} {len : Nat}

theorem SameFields.udp4Wf (h : SameFields m m') (hwf : Udp4Wf m len)
    (hlen : net16 m' (segOffs m + 4) = net16 m (segOffs m + 4)) : Udp4Wf m' len := by
  refine ⟨h.ip4Wf hwf.toIp4Wf, ?_, ?_, ?_⟩
  · rw [h 9 (by omega)]
    exact hwf.proto
  · rw [h.segOffs_eq]
    exact hwf.udpHeader
  · rw [h.segOffs_eq, hlen]
    exact hwf.udpLen

/-- A datagram is its addresses and ports and what a rewrite does not change. -/
theorem datagramSum_eq (h : Udp4Wf m len) :
    datagramSum m = addrPortSum m + (m 9).toNat + segmentLen m +
      byteSum (m.bytes (segOffs m + 4) (segmentLen m - 4)) := by
  have hlen := h.toIp4Wf.segLen_le
  have hseg : 4 ≤ segmentLen m := by
    have hheader := h.udpHeader
    rw [h.toIp4Wf.segmentLen_eq]
    omega
  rw [h.toIp4Wf.segLen_eq] at hlen
  obtain ⟨n, hn⟩ := Nat.exists_eq_add_of_le hseg
  unfold datagramSum addrPortSum
  rw [OnesSum.byteSum_append _ _ (by simp [pseudo4, Mem.length_bytes]), byteSum_pseudo4 m hlen, hn,
    show 4 + n - 4 = n by omega, show 4 + n = n + 2 + 2 by omega, byteSum_bytes_succ,
    byteSum_bytes_succ, Nat.add_assoc (segOffs m) 2 2]
  omega

theorem udpVerifies_segment_iff (h : Udp4Wf m len) :
    SegmentVerifies m ↔ datagramSum m % 65535 = 0 := by
  have hproto : (m 9).toNat = 17 := by
    rw [h.proto]
    rfl
  have hsum := datagramSum_eq h
  unfold SegmentVerifies
  rw [OnesSum.internetVerifies_iff]
  show 0 < datagramSum m ∧ datagramSum m % 65535 = 0 ↔ _
  omega

/-- What two packets have in common that differ in addresses, ports and header
checksum only. -/
structure SameData (m m' : Mem) : Prop where
  fields : SameFields m m'
  data : ∀ i, segOffs m + 4 ≤ i → m' i = m i

theorem SameData.trans {m'' : Mem} (h : SameData m m') (h' : SameData m' m'') :
    SameData m m'' := by
  refine ⟨h.fields.trans h'.fields, ?_⟩
  intro i hi
  rw [h'.data i (by rw [h.fields.segOffs_eq]; exact hi), h.data i hi]

theorem SameData.udp4Wf (h : SameData m m') (hwf : Udp4Wf m len) : Udp4Wf m' len :=
  h.fields.udp4Wf hwf (net16_congr (h.data _ (by omega)) (h.data _ (by omega)))

/-- A packet with other addresses and ports and the old checksum verifies exactly
if that checksum still fits. -/
theorem segmentVerifies_iff_fits (h : Udp4Wf m len) (hsame : SameData m m') :
    SegmentVerifies m' ↔ ChecksumStillFits m m' := by
  have hdata : byteSum (m'.bytes (segOffs m + 4) (segmentLen m - 4)) =
      byteSum (m.bytes (segOffs m + 4) (segmentLen m - 4)) := by
    rw [Mem.bytes_congr fun i hi _ => hsame.data i hi]
  have hsum := datagramSum_eq h
  have hsum' := datagramSum_eq (hsame.udp4Wf h)
  rw [hsame.fields.segOffs_eq, hsame.fields.segmentLen_eq, hsame.fields 9 (by omega),
    hdata] at hsum'
  rw [udpVerifies_segment_iff (hsame.udp4Wf h)]
  unfold ChecksumStillFits
  omega

theorem SameData.refl (m : Mem) : SameData m m := ⟨SameFields.refl m, fun _ _ => rfl⟩

theorem Patch.apply_sameData (h : Ip4Wf m len) (patch : Patch) : SameData m (patch.apply m) := by
  have hoffs := h.segOffs_ge
  refine ⟨Patch.apply_sameFields h.segOffs_ge patch, ?_⟩
  intro i hi
  cases patch with
  | saddr ip | daddr ip => exact Mem.put32_of_ne _ _ _ (Or.inr (by omega))
  | source port | dest port => exact Mem.put16_of_ne _ _ _ (by omega) (by omega)

theorem patchAll_sameData (h : Ip4Wf m len) (patches : List Patch) :
    SameData m (patchAll m patches) := by
  induction patches generalizing m with
  | nil => exact SameData.refl m
  | cons patch patches ih =>
    have hone := Patch.apply_sameData h patch
    exact hone.trans (ih (hone.fields.ip4Wf h))

theorem ip4CalcIpChecksum_sameData (h : Ip4Wf m len) (n : Nat) :
    SameData m ((ip4CalcIpChecksum n).mem m) := by
  have hoffs := h.segOffs_ge
  exact ⟨ip4CalcIpChecksum_sameFields m n,
    fun i hi => ip4CalcIpChecksum_of_ne m n (by omega) (by omega)⟩

/-- What a rewrite does to a UDP packet. -/
theorem rewriteOnce_udp (h : Ip4Wf m len) (hproto : m 9 = ipprotoUdp) (patches : List Patch) :
    rewriteOnce len m patches =
      if len < 40 then (ip4CalcIpChecksum len).mem (patchAll m patches)
      else ((ip4CalcIpChecksum len).mem (patchAll m patches)).put16 (segOffs m + 6) (htons 0) := by
  have hpatch := patchAll_sameFields h.segOffs_ge patches
  have hip := hpatch.trans (ip4CalcIpChecksum_sameFields (patchAll m patches) len)
  unfold rewriteOnce ip4CalcChecksums ip4CalcPayloadChecksum
  rw [MemM.mem_bind, if_neg (hproto.trans_ne ipprotoTcp_ne_udp.symm), if_pos hproto]
  show (ip4CalcUdpChecksum len).mem ((ip4CalcIpChecksum len).mem (patchAll m patches)) = _
  rw [ip4CalcUdpChecksum_mem, hip.segOffs_eq]

theorem Udp4Wf.rewriteOnce (h : Udp4Wf m len) (patches : List Patch) :
    Udp4Wf (rewriteOnce len m patches) len := by
  have hoffs := h.toIp4Wf.segOffs_ge
  have hpatch := patchAll_sameData h.toIp4Wf patches
  have hip := hpatch.trans
    (ip4CalcIpChecksum_sameData (hpatch.fields.ip4Wf h.toIp4Wf) len)
  refine (rewriteOnce_sameFields h.toIp4Wf.segOffs_ge len patches).udp4Wf h ?_
  rw [rewriteOnce_udp h.toIp4Wf h.proto]
  split
  · exact net16_congr (hip.data _ (by omega)) (hip.data _ (by omega))
  · refine net16_congr ?_ ?_
    · rw [Mem.put16_of_ne _ _ _ (by omega) (by omega)]
      exact hip.data _ (by omega)
    · rw [Mem.put16_of_ne _ _ _ (by omega) (by omega)]
      exact hip.data _ (by omega)

/-- A packet of 40 bytes or more leaves without a checksum. -/
theorem rewriteAll_udp_long (h : Ip4Wf m len) (hproto : m 9 = ipprotoUdp) (hlen : 40 ≤ len)
    {rewrites : List (List Patch)} (hne : rewrites ≠ []) :
    udpField (rewriteAll len m rewrites) = 0 := by
  induction rewrites generalizing m with
  | nil => exact absurd rfl hne
  | cons patches rewrites ih =>
    by_cases hlast : rewrites = []
    · subst hlast
      show udpField (ConfProfile.rewriteOnce len m patches) = 0
      unfold udpField
      rw [(rewriteOnce_sameFields h.segOffs_ge len patches).segOffs_eq, rewriteOnce_udp h hproto,
        if_neg (by omega), net16_put16]
      rfl
    · have hone := rewriteOnce_sameFields h.segOffs_ge len patches
      exact ih (hone.ip4Wf h) ((hone 9 (by omega)).trans hproto) hlast

/-- The packets are the same but for the header checksum. -/
def SameButHeaderCheck (m m' : Mem) : Prop := ∀ i, i ≠ 10 → i ≠ 11 → m' i = m i

theorem SameButHeaderCheck.patchAll (h : SameButHeaderCheck m m') (patches : List Patch) :
    SameButHeaderCheck (patchAll m patches) (patchAll m' patches) := by
  induction patches generalizing m m' with
  | nil => exact h
  | cons patch patches ih =>
    apply ih
    intro i h₀ h₁
    have hoffs : segOffs m' = segOffs m := segOffs_congr (h 0 (by omega) (by omega))
    cases patch with
    | saddr ip | daddr ip => exact Mem.put32_congr _ _ _ (h i h₀ h₁)
    | source port | dest port =>
      unfold Patch.apply
      rw [hoffs]
      exact Mem.put16_congr _ _ _ (h i h₀ h₁)

/-- A packet of less than 40 bytes gets the new addresses and ports and a new
header checksum, and keeps its UDP checksum. -/
theorem rewriteAll_udp_short (h : Udp4Wf m len) (hlen : len < 40) (rewrites : List (List Patch))
    {m' : Mem} (hsame : SameButHeaderCheck m' m) (hwf' : Udp4Wf m' len) :
    SameButHeaderCheck (patchAll m' rewrites.flatten) (rewriteAll len m rewrites) := by
  induction rewrites generalizing m m' with
  | nil => exact hsame
  | cons patches rewrites ih =>
    have hone : SameButHeaderCheck (ConfProfile.patchAll m' patches)
        (ConfProfile.rewriteOnce len m patches) := by
      intro i h₀ h₁
      rw [rewriteOnce_udp h.toIp4Wf h.proto, if_pos hlen, ip4CalcIpChecksum_of_ne _ _ h₀ h₁]
      exact hsame.patchAll patches i h₀ h₁
    have hpatch := patchAll_sameData hwf'.toIp4Wf patches
    rw [List.flatten_cons]
    unfold ConfProfile.patchAll
    rw [List.foldl_append]
    exact ih (h.rewriteOnce patches) hone (hpatch.udp4Wf hwf')

theorem addrPortSum_congr (h : SameButHeaderCheck m m') (hoffs : 20 ≤ segOffs m) :
    addrPortSum m' = addrPortSum m := by
  have hseg : segOffs m' = segOffs m := segOffs_congr (h 0 (by omega) (by omega))
  have hword : ∀ o, 12 ≤ o → net16 m' o = net16 m o :=
    fun o ho => net16_congr (h o (by omega) (by omega)) (h (o + 1) (by omega) (by omega))
  unfold addrPortSum
  rw [hseg, hword 12 (by omega), hword 14 (by omega), hword 16 (by omega), hword 18 (by omega),
    hword (segOffs m) (by omega), hword (segOffs m + 2) (by omega)]

/-- Whenever a path changes an address or a port of a UDP packet, whatever its
header length and its data: the packet leaves without a checksum or with a valid
one exactly if it has 40 bytes or more, or came without a checksum, or its old
checksum fits the new addresses and ports as well. -/
theorem udp_rewrite_iff (path : RewritePath) (h : Udp4Wf m len)
    (hrewrite : path.rewrites m ≠ []) :
    UdpVerifies ((path.run len).mem m) ↔
      40 ≤ len ∨ udpField m = 0 ∨
        ChecksumStillFits m (patchAll m (path.rewrites m).flatten) := by
  rw [path.run_eq h.toIp4Wf (Or.inr h.proto)]
  by_cases hlen : 40 ≤ len
  · exact iff_of_true (Or.inl (rewriteAll_udp_long h.toIp4Wf h.proto hlen hrewrite)) (Or.inl hlen)
  · have hoffs := h.toIp4Wf.segOffs_ge
    have hshort := rewriteAll_udp_short h (by omega) (path.rewrites m) (fun _ _ _ => rfl) h
    have hpatch := patchAll_sameData h.toIp4Wf (path.rewrites m).flatten
    have hsame : SameData m (rewriteAll len m (path.rewrites m)) := by
      refine ⟨rewriteAll_sameFields h.toIp4Wf.segOffs_ge len _, ?_⟩
      intro i hi
      rw [hshort i (by omega) (by omega), hpatch.data i hi]
    have hfield : udpField (rewriteAll len m (path.rewrites m)) = udpField m := by
      unfold udpField
      rw [hsame.fields.segOffs_eq]
      exact net16_congr (hsame.data _ (by omega)) (hsame.data _ (by omega))
    have hsum := addrPortSum_congr hshort (by rw [hpatch.fields.segOffs_eq]; exact hoffs)
    unfold UdpVerifies
    rw [hfield, segmentVerifies_iff_fits h hsame]
    unfold ChecksumStillFits
    rw [hsum]
    simp [hlen]

end udp

/-- A UDP packet of 32 bytes from 10.0.0.2:1024 to 10.0.0.3:53 with a valid
checksum. -/
def exampleUdp : Mem :=
  Mem.putBytes (fun _ => 0) 0
    [0x45, 0, 0, 32, 0, 0, 0, 0, 64, 17, 0x66, 0xc9, 10, 0, 0, 2, 10, 0, 0, 3,
      4, 0, 0, 53, 0, 12, 0x22, 0xd6, 0x61, 0x62, 0x63, 0x64]

theorem exampleUdp_wf : Udp4Wf exampleUdp 32 :=
  ⟨⟨by decide, by decide, by decide, by decide⟩, by decide, by decide, by decide⟩

theorem udp_rewrite_iff_example :
    UdpVerifies (((RewritePath.masqueradeSrc masqueradingCtx).run 32).mem exampleUdp) ↔
      40 ≤ 32 ∨ udpField exampleUdp = 0 ∨
        ChecksumStillFits exampleUdp (patchAll exampleUdp
          ((RewritePath.masqueradeSrc masqueradingCtx).rewrites exampleUdp).flatten) :=
  udp_rewrite_iff (.masqueradeSrc masqueradingCtx) exampleUdp_wf (by decide)

/-- The packet verifies when it comes, and not when it leaves masqueraded. -/
theorem udp_stale_checksum :
    Udp4Wf exampleUdp 32 ∧ SegmentVerifies exampleUdp ∧
      (RewritePath.masqueradeSrc masqueradingCtx).rewrites exampleUdp ≠ [] ∧
      ¬ UdpVerifies (((RewritePath.masqueradeSrc masqueradingCtx).run 32).mem exampleUdp) := by
  refine ⟨exampleUdp_wf, ?_, by decide, ?_⟩
  · unfold SegmentVerifies
    decide
  · unfold UdpVerifies SegmentVerifies
    decide

end ConfProfile
