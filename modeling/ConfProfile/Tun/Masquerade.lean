import ConfProfile.Packet.Parse

/-!
# Rewriting a packet on its way (`ocpa/tun.c`)

`masquerade_src` and `masquerade_dst` put the tunnel's own address into a
packet, `tun_ctx_send` and `tun_ctx_recv` translate between a DNS server and the
virtual address under which the apps know it. Each of them writes an address and
then calls the checksum functions for the header and for the payload.

The calls of `write` and of `send` at the end are no part of the memory: what is
handed over is the first `len` bytes of the buffer as the function leaves it.
-/

namespace ConfProfile

open ByteMem

/-- What the rewriting functions read in a `tun_ctx_private_t`. -/
structure TunCtxPrivate where
  dnsIp4 : Vector (BitVec 32) 4
  virtualDnsIp4 : Vector (BitVec 32) 4
  masquerade4 : BitVec 32
  useMasquerade4 : Bool
  masquerade6 : Vector (BitVec 8) 16
  useMasquerade6 : Bool
  deriving DecidableEq

/-- `dns_ip4[i]` and `virtual_dns_ip4[i]`. -/
structure DnsSlot where
  dns : BitVec 32
  virtual : BitVec 32
  deriving DecidableEq, Repr

/-- The four slots in the order in which the loops try them. -/
def dnsSlots (dnsIp4 virtualDnsIp4 : Vector (BitVec 32) 4) : List DnsSlot :=
  List.zipWith DnsSlot.mk dnsIp4.toList virtualDnsIp4.toList

/-- The `switch` over the protocol behind a rewrite. -/
def ip4CalcPayloadChecksum (payloadProto : BitVec 8) (len : Nat) : MemM Unit :=
  if payloadProto = ipprotoTcp then do
    let _ ← ip4CalcTcpChecksum len
  else if payloadProto = ipprotoUdp then do
    let _ ← ip4CalcUdpChecksum len
  else
    -- "Can't calculate checksum for protocol"
    pure ()

/-- Both checksums, as they are calculated behind every rewrite. -/
def ip4CalcChecksums (payloadProto : BitVec 8) (len : Nat) : MemM Unit := do
  let _ ← ip4CalcIpChecksum len
  ip4CalcPayloadChecksum payloadProto len

/-- The DNS loops: the first slot in use whose address `seek` stands at `field`
gives the address `put` for it. -/
def dnsLoop (field : Nat) (seek put : DnsSlot → BitVec 32) (behind : MemM Unit) :
    List DnsSlot → MemM Unit
  | [] => pure ()
  | slot :: slots =>
    let remoteDnsIp := htonl slot.dns
    let remoteVirtualIp := htonl slot.virtual
    if remoteDnsIp ≠ 0 ∧ remoteVirtualIp ≠ 0 then do
      let addr ← rd32 field
      if htonl (seek slot) = addr then do
        wr32 field (htonl (put slot))
        behind
      else dnsLoop field seek put behind slots
    else dnsLoop field seek put behind slots

/-- `tun_ctx_send`, up to the `write` of the first `len` bytes. -/
def tunCtxSend (ctx : TunCtxPrivate) (len : Nat) : MemM Unit := do
  let packet ← ipParsePacket (newPacket len len)
  -- handle virtual dns ip
  dnsLoop 16 DnsSlot.virtual DnsSlot.dns (ip4CalcChecksums packet.payloadProto len)
    (dnsSlots ctx.dnsIp4 ctx.virtualDnsIp4)

/-- The IPv4 branch of `masquerade_src` and `masquerade_dst`. -/
def masquerade4 (addr4 : Nat) (ctx : TunCtxPrivate) (payloadProto : BitVec 8) (len : Nat) :
    MemM Unit := do
  wr32 addr4 (htonl ctx.masquerade4)
  ip4CalcChecksums payloadProto len

/-- The `switch` over the protocol in the IPv6 branch. -/
def ip6CalcPayloadChecksum (packet : OcpaIpPacket) : MemM Unit :=
  if packet.payloadProto = ipprotoTcp then do
    let commonSum ← ip6CalcCommonPseudoheaderSum
    let _ ← ip6CalcTcpChecksum ((commonSum.setWidth 16).setWidth 32) packet.payloadOffs.toNat
      packet.payloadLen
  else if packet.payloadProto = ipprotoUdp then do
    let commonSum ← ip6CalcCommonPseudoheaderSum
    let _ ← ip6CalcUdpChecksum ((commonSum.setWidth 16).setWidth 32) packet.payloadOffs.toNat
      packet.payloadLen
  else
    -- "Can't calculate checksum for protocol"
    pure ()

/-- The IPv6 branch of `masquerade_src` and `masquerade_dst`. -/
def masquerade6 (addr6 : Nat) (ctx : TunCtxPrivate) (packet : OcpaIpPacket) : MemM Unit := do
  wrBytes addr6 ctx.masquerade6.toList
  ip6CalcPayloadChecksum packet

/-- `masquerade_src` and `masquerade_dst`: where the addresses lie is theirs. -/
def masqueradeAt (addr4 addr6 : Nat) (ctx : TunCtxPrivate) (len : Nat) : MemM Unit := do
  let packet ← ipParsePacket (newPacket len len)
  if packet.ipver = 4 ∧ ctx.useMasquerade4 then masquerade4 addr4 ctx packet.payloadProto len
  else if packet.ipver = 6 ∧ ctx.useMasquerade6 then masquerade6 addr6 ctx packet
  else pure ()

/-- `masquerade_src`. -/
def masqueradeSrc : TunCtxPrivate → Nat → MemM Unit := masqueradeAt 12 8

/-- `masquerade_dst`. -/
def masqueradeDst : TunCtxPrivate → Nat → MemM Unit := masqueradeAt 16 24

/-- `tun_ctx_recv` behind the `read` of `res` bytes into a buffer of `len`, up to
the `send` of them through the dev tunnel. -/
def tunCtxRecvRead (ctx devTunCtx : TunCtxPrivate) (len res : Nat) : MemM Unit := do
  let packet ← ipParsePacket (newPacket len res)
  dnsLoop 12 DnsSlot.dns DnsSlot.virtual (ip4CalcChecksums packet.payloadProto res)
    (dnsSlots ctx.dnsIp4 ctx.virtualDnsIp4)
  masqueradeDst devTunCtx res

/-- `tun_ctx_recv` with the packet that `read` delivers. -/
def tunCtxRecv (ctx devTunCtx : TunCtxPrivate) (len : Nat) (packet : List (BitVec 8)) :
    MemM Unit := do
  wrBytes 0 packet
  tunCtxRecvRead ctx devTunCtx len packet.length

/-- A tunnel that masquerades as 10.0.0.1. -/
def masqueradingCtx : TunCtxPrivate :=
  ⟨Vector.replicate 4 0, Vector.replicate 4 0, 0x0a000001, true, Vector.replicate 16 0, false⟩

/-! ## What the loops and branches come to -/

/-- The branch that `masquerade_src` and `masquerade_dst` take, by the bytes of a
packet. -/
theorem masqueradeAt_eq (addr4 addr6 : Nat) (ctx : TunCtxPrivate) {len : Nat} (h : 0 < len)
    (m : Mem) :
    masqueradeAt addr4 addr6 ctx len m =
      (ipParsePacket (newPacket len len) >>= fun packet =>
        if ipverOf (m 0) = 4 ∧ ctx.useMasquerade4 then masquerade4 addr4 ctx (m 9) len
        else if ipverOf (m 0) = 6 ∧ ctx.useMasquerade6 then masquerade6 addr6 ctx packet
        else pure ()) m := by
  have hver := ipParsePacket_ipver m (newPacket len len)
  rw [if_pos (show 0 < (newPacket len len).buffLen from h)] at hver
  apply MemM.bind_congr_at
  rw [hver]
  by_cases h4 : ipverOf (m 0) = 4
  · rw [ipParsePacket_payloadProto m _ (hver.trans h4)]
  · simp only [h4, false_and, if_false]

/-- A slot is in use when both of its addresses are set. -/
def DnsSlot.inUse (slot : DnsSlot) : Bool := slot.dns ≠ 0 ∧ slot.virtual ≠ 0

/-- The slot that a DNS loop picks for an address. -/
def dnsFind (seek : DnsSlot → BitVec 32) (addr : BitVec 32) (slots : List DnsSlot) :
    Option DnsSlot :=
  slots.find? fun slot => slot.inUse && decide (seek slot = addr)

/-- The DNS loop rewrites the field for the slot it finds, and leaves the
packet alone otherwise. -/
theorem dnsLoop_mem (m : Mem) (field : Nat) (seek put : DnsSlot → BitVec 32) (behind : MemM Unit)
    (slots : List DnsSlot) :
    (dnsLoop field seek put behind slots).mem m =
      (dnsFind seek (addr4 m field) slots).elim m
        fun slot => behind.mem (m.put32 field (htonl (put slot))) := by
  induction slots with
  | nil => rfl
  | cons slot slots ih =>
    have huse : (htonl slot.dns ≠ 0 ∧ htonl slot.virtual ≠ 0) ↔ slot.inUse = true := by
      unfold DnsSlot.inUse
      rw [decide_eq_true_iff, ne_eq, ne_eq, htonl_eq_zero_iff, htonl_eq_zero_iff]
    have hhit : htonl (seek slot) = m.word32 field ↔ seek slot = addr4 m field := by
      rw [← ntohl_word32]
      refine ⟨fun h => by rw [← h, ntohl_htonl], fun h => by rw [h, htonl_ntohl]⟩
    unfold dnsFind at ih ⊢
    unfold dnsLoop
    by_cases hu : slot.inUse = true
    · by_cases hs : seek slot = addr4 m field
      · have hraw : htonl (seek slot) = m.word32 field := hhit.mpr hs
        rw [if_pos (huse.mpr hu), List.find?_cons_of_pos (by simp [hu, hs]), MemM.mem_bind,
          mem_rd32, val_rd32, if_pos hraw]
        rfl
      · have hraw : ¬ htonl (seek slot) = m.word32 field := fun h => hs (hhit.mp h)
        rw [if_pos (huse.mpr hu), List.find?_cons_of_neg (by simp [hs]), MemM.mem_bind,
          mem_rd32, val_rd32, if_neg hraw, ih]
    · rw [if_neg (fun h => hu (huse.mp h)), List.find?_cons_of_neg (by simp [hu]), ih]

end ConfProfile
