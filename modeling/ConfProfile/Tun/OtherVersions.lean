import ConfProfile.Tun.DnsFlow
import ConfProfile.Tun.Frame
import ConfProfile.Tun.Ip6

/-!
# The DNS rewrite on a packet that is not IPv4

`tun_ctx_send` and `tun_ctx_recv` take the address at its place in an IPv4 header, whatever the
version of the packet. In an IPv6 packet there are eight bytes of the source address at 12 and
16, and if one of the slots has four of them as its address, they are overwritten, and the
checksums of an IPv4 packet are stored beside them.

A rewrite leaves the bytes of the packet as they are only if what it puts happens to be there
(`Coincides`). `dns_untouched_iff` says that otherwise it is enough, and necessary, that no slot
is found.
-/

namespace ConfProfile

open ByteMem
open OnesSum (Fits)

/-- The DNS loop of `tun_ctx_recv`: `tun_ctx_recv` up to `masqueradeDst`. -/
def tunCtxRecvDns (ctx : TunCtxPrivate) (len res : Nat) : MemM Unit := do
  let packet ← ipParsePacket (newPacket len res)
  dnsLoop 12 DnsSlot.dns DnsSlot.virtual (ip4CalcChecksums packet.payloadProto res)
    (dnsSlots ctx.dnsIp4 ctx.virtualDnsIp4)

theorem tunCtxRecvRead_eq (ctx devTunCtx : TunCtxPrivate) (len res : Nat) (m : Mem) :
    (tunCtxRecvRead ctx devTunCtx len res).mem m =
      (masqueradeDst devTunCtx res).mem ((tunCtxRecvDns ctx len res).mem m) := rfl

/-- The version that the parser finds for a packet. -/
def parsedVersion (buffLen : Nat) (m : Mem) : Nat :=
  ((ipParsePacket (newPacket buffLen buffLen)).val m).ipver

/-- The protocol of a packet of another version: what ends the chain of IPv6 headers, or none. -/
def otherProto (buffLen : Nat) (m : Mem) : BitVec 8 :=
  if parsedVersion buffLen m = 6 then (chainEnd m buffLen).1 else 0

/-- The header checksum of `m` is stored, if the packet has its IPv4 header. -/
inductive HeaderChecked (len : Nat) (m : Mem) : Mem → Prop
  | stored (c : BitVec 16) (h20 : 20 ≤ len) (hihl : ihlOf m * 4 ≤ len)
      (hfits : Fits 65535 (skipSum m 5 (ihlOf m * 2) 0 0) c.toNat) :
      HeaderChecked len m (m.put16 10 (htons c))
  | short (h : len < 20 ∨ len < ihlOf m * 4) : HeaderChecked len m m

/-- The checksum of a TCP segment behind an IPv4 header is stored, or that of a UDP datagram is
cleared. -/
inductive PayloadChecked (proto : BitVec 8) (len : Nat) (m : Mem) : Mem → Prop
  | tcp (c : BitVec 16) (hproto : proto = ipprotoTcp) (hlen : 40 ≤ len)
      (hfits : Fits 65535 (tcpTotal m) c.toNat) :
      PayloadChecked proto len m (m.put16 (segOffs m + 16) (htons c))
  | udp (hproto : proto = ipprotoUdp) (hlen : 40 ≤ len) :
      PayloadChecked proto len m (m.put16 (segOffs m + 6) (htons 0))
  | none (h : proto ≠ ipprotoTcp ∧ proto ≠ ipprotoUdp ∨ len < 40) : PayloadChecked proto len m m

/-- An address that is put into a packet and the checksums that are stored then are the bytes
that the packet has there. -/
def Coincides4 (proto : BitVec 8) (len field : Nat) (addr : BitVec 32) (m : Mem) : Prop :=
  ∃ m₁ m₂, HeaderChecked len (m.put32 field (htonl addr)) m₁ ∧ PayloadChecked proto len m₁ m₂ ∧
    ∀ i < len, m₂ i = m i

/-- No slot in use has the address that stands at `field`, or the address that the first one of
them gives for it coincides with the packet. -/
def NotTaken (seek put : DnsSlot → BitVec 32) (ctx : TunCtxPrivate) (proto : BitVec 8)
    (len field : Nat) (m : Mem) : Prop :=
  ∀ slot, dnsFind seek (addr4 m field) (dnsSlots ctx.dnsIp4 ctx.virtualDnsIp4) = some slot →
    Coincides4 proto len field (put slot) m

section checked

variable {proto : BitVec 8} {len : Nat} {m m₁ m₂ : Mem}

theorem HeaderChecked.unique (h₁ : HeaderChecked len m m₁) (h₂ : HeaderChecked len m m₂) :
    m₁ = m₂ := by
  cases h₁ with
  | stored c h20 hihl hfits =>
    cases h₂ with
    | stored d _ _ hfits' => rw [BitVec.eq_of_toNat_eq (fits_unique hfits hfits')]
    | short h => omega
  | short h =>
    cases h₂ with
    | stored => omega
    | short => rfl

theorem PayloadChecked.unique (h₁ : PayloadChecked proto len m m₁)
    (h₂ : PayloadChecked proto len m m₂) : m₁ = m₂ := by
  have hne := ipprotoTcp_ne_udp
  cases h₁ with
  | tcp c hproto hlen hfits =>
    cases h₂ with
    | tcp d _ _ hfits' => rw [BitVec.eq_of_toNat_eq (fits_unique hfits hfits')]
    | udp hproto' => exact absurd (hproto.symm.trans hproto') hne
    | none h => exact (h.elim (fun h => h.1 hproto) fun h => by omega).elim
  | udp hproto hlen =>
    cases h₂ with
    | tcp _ hproto' => exact absurd (hproto'.symm.trans hproto) hne
    | udp => rfl
    | none h => exact (h.elim (fun h => h.2 hproto) fun h => by omega).elim
  | none h =>
    cases h₂ with
    | tcp _ hproto hlen => exact (h.elim (fun h => h.1 hproto) fun h => by omega).elim
    | udp hproto hlen => exact (h.elim (fun h => h.2 hproto) fun h => by omega).elim
    | none => rfl

theorem ip4CalcIpChecksum_checked (len : Nat) (m : Mem) :
    HeaderChecked len m ((ip4CalcIpChecksum len).mem m) := by
  by_cases h20 : 20 ≤ len
  · by_cases hihl : ihlOf m * 4 ≤ len
    · obtain ⟨c, hfits, hmem⟩ := ip4CalcIpChecksum_stores m h20 hihl
      rw [hmem]
      exact .stored c h20 hihl hfits
    · have hsame : (ip4CalcIpChecksum len).mem m = m := by
        unfold ip4CalcIpChecksum
        rw [if_neg (by omega), MemM.mem_bind, rdIhl_val, rdIhl_mem, if_pos (by omega)]
        rfl
      rw [hsame]
      exact .short (Or.inr (by omega))
  · have hsame : (ip4CalcIpChecksum len).mem m = m := by
      unfold ip4CalcIpChecksum
      rw [if_pos (by omega)]
      rfl
    rw [hsame]
    exact .short (Or.inl (by omega))

theorem ip4CalcPayloadChecksum_checked (proto : BitVec 8) (len : Nat) (m : Mem) :
    PayloadChecked proto len m ((ip4CalcPayloadChecksum proto len).mem m) := by
  unfold ip4CalcPayloadChecksum
  by_cases htcp : proto = ipprotoTcp
  · rw [if_pos htcp]
    show PayloadChecked proto len m ((ip4CalcTcpChecksum len).mem m)
    by_cases hlen : 40 ≤ len
    · obtain ⟨c, hfits, hmem⟩ := ip4CalcTcpChecksum_stores m hlen
      rw [hmem]
      exact .tcp c htcp hlen hfits
    · rw [ip4CalcTcpChecksum_short m (by omega)]
      exact .none (Or.inr (by omega))
  · rw [if_neg htcp]
    by_cases hudp : proto = ipprotoUdp
    · rw [if_pos hudp]
      show PayloadChecked proto len m ((ip4CalcUdpChecksum len).mem m)
      rw [ip4CalcUdpChecksum_mem]
      split
      next hlen => exact .none (Or.inr hlen)
      next hlen => exact .udp hudp (by omega)
    · rw [if_neg hudp]
      exact .none (Or.inl ⟨htcp, hudp⟩)

theorem HeaderChecked.of_ne (h : HeaderChecked len m m₁) {i : Nat} (h₀ : i ≠ 10) (h₁ : i ≠ 11) :
    m₁ i = m i := by
  cases h with
  | stored => exact Mem.put16_of_ne _ _ _ h₀ h₁
  | short => rfl

theorem PayloadChecked.of_lt (h : PayloadChecked proto len m m₁) {i : Nat}
    (hi : proto = ipprotoTcp ∨ proto = ipprotoUdp → i < segOffs m + 6) : m₁ i = m i := by
  cases h with
  | tcp _ hproto =>
    have hlt := hi (Or.inl hproto)
    exact Mem.put16_of_ne _ _ _ (by omega) (by omega)
  | udp hproto =>
    have hlt := hi (Or.inr hproto)
    exact Mem.put16_of_ne _ _ _ (by omega) (by omega)
  | none => rfl

/-- Where no checksum is stored over the address, it is the one that stands there. -/
theorem Coincides4.addr_eq {field : Nat} {addr : BitVec 32} (h : Coincides4 proto len field addr m)
    (hfield : 12 ≤ field) (hlen : field + 4 ≤ len)
    (hseg : proto = ipprotoTcp ∨ proto = ipprotoUdp → field + 4 ≤ segOffs m + 6) :
    addr4 m field = addr := by
  obtain ⟨m₁, m₂, hheader, hpayload, hsame⟩ := h
  have hoffs : segOffs m₁ = segOffs m := by
    refine segOffs_congr ?_
    rw [hheader.of_ne (by omega) (by omega), Mem.put32_of_ne _ _ _ (Or.inl (by omega))]
  have haddr : addr4 m field = addr4 (m.put32 field (htonl addr)) field := by
    refine addr4_congr fun i hlow hhigh => ?_
    have hput : m₂ i = m₁ i := hpayload.of_lt fun hproto => by
      have hle := hseg hproto
      omega
    rw [← hsame i (by omega), hput, hheader.of_ne (by omega) (by omega)]
  rw [haddr, addr4_put32]

/-- So there a slot that is found gives the address that it was found by. -/
theorem NotTaken.put_eq {seek put : DnsSlot → BitVec 32} {ctx : TunCtxPrivate} {field : Nat}
    (h : NotTaken seek put ctx proto len field m) (hfield : 12 ≤ field) (hlen : field + 4 ≤ len)
    (hseg : proto = ipprotoTcp ∨ proto = ipprotoUdp → field + 4 ≤ segOffs m + 6) {slot : DnsSlot}
    (hslot : dnsFind seek (addr4 m field) (dnsSlots ctx.dnsIp4 ctx.virtualDnsIp4) = some slot) :
    put slot = seek slot := by
  rw [← (h slot hslot).addr_eq hfield hlen hseg]
  exact (dnsFind_eq_some_iff.mp hslot).1.2.symm

/-- What a DNS loop does to the bytes of a packet. -/
theorem dnsLoop_untouched_iff (seek put : DnsSlot → BitVec 32) (ctx : TunCtxPrivate)
    (proto : BitVec 8) (len field : Nat) (m : Mem) :
    (∀ i < len, (dnsLoop field seek put (ip4CalcChecksums proto len)
        (dnsSlots ctx.dnsIp4 ctx.virtualDnsIp4)).mem m i = m i) ↔
      NotTaken seek put ctx proto len field m := by
  unfold NotTaken
  rw [dnsLoop_mem]
  cases dnsFind seek (addr4 m field) (dnsSlots ctx.dnsIp4 ctx.virtualDnsIp4) with
  | none => exact iff_of_true (fun _ _ => rfl) fun _ h => by cases h
  | some slot =>
    have hheader := ip4CalcIpChecksum_checked len (m.put32 field (htonl (put slot)))
    have hpayload := ip4CalcPayloadChecksum_checked proto len
      ((ip4CalcIpChecksum len).mem (m.put32 field (htonl (put slot))))
    constructor
    · intro hsame slot' hslot
      obtain rfl := Option.some.inj hslot
      exact ⟨_, _, hheader, hpayload, hsame⟩
    · intro hcoincides
      obtain ⟨m₁, m₂, hm₁, hm₂, hsame⟩ := hcoincides slot rfl
      obtain rfl := hheader.unique hm₁
      obtain rfl := hpayload.unique hm₂
      exact hsame

end checked

section other

variable {buffLen : Nat} {m : Mem}

/-- The protocol that the parser leaves for a packet of another version. -/
theorem ipParsePacket_otherProto (pktLen : Nat) (h : parsedVersion buffLen m ≠ 4) :
    ((ipParsePacket (newPacket buffLen pktLen)).val m).payloadProto = otherProto buffLen m := by
  have hver : ((ipParsePacket (newPacket buffLen pktLen)).val m).ipver = parsedVersion buffLen m := by
    unfold parsedVersion
    rw [ipParsePacket_ipver, ipParsePacket_ipver]
    rfl
  unfold otherProto
  by_cases h6 : parsedVersion buffLen m = 6
  · rw [if_pos h6, (ipParsePacket_payload6 m _ (hver.trans h6)).1]
    rfl
  · rw [if_neg h6]
    have hdetect : ((ipDetectIpver { newPacket buffLen pktLen with srcPort := 0, dstPort := 0 }).val
        m).ipver = parsedVersion buffLen m := by
      rw [ipDetectIpver_ipver, ← hver, ipParsePacket_ipver]
    unfold ipParsePacket
    rw [MemM.val_bind, ipDetectIpver_mem, if_neg (hdetect.trans_ne h), if_neg (hdetect.trans_ne h6)]
    unfold ipDetectIpver
    split <;> rfl

end other

/-- **The DNS rewrite on a packet that is not IPv4**: `tun_ctx_send` and `tun_ctx_recv` leave all
of its bytes alone exactly if no slot in use has as its address the four bytes at the place of
an IPv4 destination or source address, or what would be put happens to be there. -/
theorem dns_untouched_iff (ctx : TunCtxPrivate) (m : Mem) (len buffLen res : Nat)
    (hsend : parsedVersion len m ≠ 4) (hrecv : parsedVersion buffLen m ≠ 4) :
    ((∀ i < len, (tunCtxSend ctx len).mem m i = m i) ↔
        NotTaken DnsSlot.virtual DnsSlot.dns ctx (otherProto len m) len 16 m) ∧
      ((∀ i < res, (tunCtxRecvDns ctx buffLen res).mem m i = m i) ↔
        NotTaken DnsSlot.dns DnsSlot.virtual ctx (otherProto buffLen m) res 12 m) := by
  constructor
  · rw [← dnsLoop_untouched_iff, ← ipParsePacket_otherProto len hsend]
    unfold tunCtxSend
    rw [MemM.mem_bind, ipParsePacket_mem]
  · rw [← dnsLoop_untouched_iff, ← ipParsePacket_otherProto res hrecv]
    unfold tunCtxRecvDns
    rw [MemM.mem_bind, ipParsePacket_mem]

/-- A UDP packet from fd00:0:0:0:a00:35:0:2, whose bytes at 16 are 10.0.0.53. -/
def exampleUdp6 : Mem :=
  Mem.putBytes (fun _ => 0) 0
    [0x60, 0, 0, 0, 0, 8, 17, 64,
      0xfd, 0, 0, 0, 0, 0, 0, 0, 10, 0, 0, 53, 0, 0, 0, 2,
      0xfd, 0, 0, 0, 0, 0, 0, 0, 0, 0, 0, 0, 0, 0, 0, 3,
      4, 0, 0, 53, 0, 8, 0, 1]

theorem exampleUdp6_wf : Ip6Wf exampleUdp6 48 :=
  ⟨by decide, by decide, Or.inr ⟨by decide, by decide, by decide⟩⟩

theorem dns_untouched_iff_example :
    ((∀ i < 48, (tunCtxSend dnsCtx 48).mem exampleUdp6 i = exampleUdp6 i) ↔
        NotTaken DnsSlot.virtual DnsSlot.dns dnsCtx (otherProto 48 exampleUdp6) 48 16 exampleUdp6) ∧
      ((∀ i < 48, (tunCtxRecvDns dnsCtx 1500 48).mem exampleUdp6 i = exampleUdp6 i) ↔
        NotTaken DnsSlot.dns DnsSlot.virtual dnsCtx (otherProto 1500 exampleUdp6) 48 12 exampleUdp6) :=
  dns_untouched_iff dnsCtx exampleUdp6 48 1500 48 (by decide) (by decide)

/-- The source address has become fd00::808:808:0:2. -/
theorem dns_untouched_counterexample :
    Ip6Wf exampleUdp6 48 ∧ parsedVersion 48 exampleUdp6 = 6 ∧
      ¬ ∀ i < 48, (tunCtxSend dnsCtx 48).mem exampleUdp6 i = exampleUdp6 i := by
  refine ⟨exampleUdp6_wf, by decide, fun h => ?_⟩
  have hbyte := h 16 (by decide)
  revert hbyte
  decide

end ConfProfile
