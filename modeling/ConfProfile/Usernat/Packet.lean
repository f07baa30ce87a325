import ConfProfile.Tun.Rewrite

/-!
# Packets of the user NAT (`ocpa/tun_usernat.c`)

What `usernat_tun_ctx_send` and `find_link` do to a packet, apart from the link
table: the direction of the packet and the virtual DNS rewrite of an outgoing
one (`findLinkAddr`), the key under which its link is looked up, and the
translation once there is a link (`usernatRewrite`). The translation is a
rewrite in the sense of `ConfProfile.Tun.Rewrite` (`usernatRewrite_eq`).
-/

namespace ConfProfile

open ByteMem

/-- The settings of a `usernat_tun_ctx_private_t`. -/
structure UsernatCtx where
  local4 : BitVec 32
  remote4 : BitVec 32
  dnsIp4 : Vector (BitVec 32) 4
  virtualDnsIp4 : Vector (BitVec 32) 4
  deriving DecidableEq

/-- `NAT_LINK_TCP4`. -/
def natLinkTcp4 : BitVec 8 := 0

/-- `NAT_LINK_UDP4`. -/
def natLinkUdp4 : BitVec 8 := 1

/-- The bit `NAT_LINK_IP6`. -/
def natLinkIp6 : BitVec 8 := 2

/-- A `queue_link`: a copy of a packet, with the number of the `send` call that
it comes from. -/
structure QueueLink where
  buff : List (BitVec 8)
  stamp : Nat
  deriving DecidableEq, Repr

/-- `nat_link_t` of an IPv4 link. `packets_queue` is NULL or a queue from its head
to its tail; `usernat_ctx` is the one context the table belongs to. -/
structure NatLink where
  linkType : BitVec 8
  sockAccept : Int
  sockConnect : Int
  enqueuePackets : Bool
  packetsQueue : Option (List QueueLink)
  socatPid : Int
  hopPort : BitVec 16
  cyclesToLive : Int
  realSrcAddr : BitVec 32
  realSrcPort : BitVec 16
  realDstAddr : BitVec 32
  realDstPort : BitVec 16
  deriving DecidableEq, Repr

/-- What `find_link` passes to `find_link4`. -/
structure LinkKey where
  isIncoming : Bool
  localPort : BitVec 16
  remoteAddr : BitVec 32
  remotePort : BitVec 16
  deriving DecidableEq, Repr

/-- The first locked section of `find_link`: the direction, with the virtual DNS
rewrite of an outgoing packet, and the rest of the key; `none` for a stray
packet. -/
def findLinkAddr (inst : UsernatCtx) (packet : OcpaIpPacket) : MemM (Option LinkKey) := do
  let daddr ← rd32 16
  if inst.remote4 = ntohl daddr then
    -- incoming usernat packet
    pure (some ⟨true, packet.dstPort, inst.remote4, packet.srcPort⟩)
  else do
    let saddr ← rd32 12
    if inst.local4 = ntohl saddr then do
      -- outgoing usernat packet
      dnsLoop 16 DnsSlot.virtual DnsSlot.dns (pure ()) (dnsSlots inst.dnsIp4 inst.virtualDnsIp4)
      let daddr ← rd32 16
      return some ⟨false, packet.srcPort, ntohl daddr, packet.dstPort⟩
    else pure none

/-- `local_link_type` of `find_link`. -/
def localLinkType (payloadProto : BitVec 8) : Option (BitVec 8) :=
  if payloadProto = ipprotoTcp then some natLinkTcp4
  else if payloadProto = ipprotoUdp then some natLinkUdp4
  else none

/-- The translation in `usernat_tun_ctx_send`, once there is a link.
`payload_header.tcp` points to the segment in every packet that has a link. -/
def usernatRewrite (inst : UsernatCtx) (link : NatLink) (isIncoming : Bool)
    (packet : OcpaIpPacket) (len : Nat) : MemM Unit :=
  if packet.ipver = 4 then
    if isIncoming then do
      wr32 12 (htonl link.realDstAddr)
      wr32 16 (htonl inst.local4)
      wr16 (packet.payloadHeader.getD 0) (htons link.realDstPort)
      dnsLoop 12 DnsSlot.dns DnsSlot.virtual (pure ()) (dnsSlots inst.dnsIp4 inst.virtualDnsIp4)
      ip4CalcChecksums packet.payloadProto len
    else do
      wr32 12 (htonl inst.remote4)
      wr32 16 (htonl inst.local4)
      wr16 (packet.payloadHeader.getD 0 + 2) (htons link.hopPort)
      ip4CalcChecksums packet.payloadProto len
  else
    -- "IPv6 packet, no action here"
    pure ()

/-! ## The key of a packet -/

/-- The address that the app's destination stands for. -/
def virtualToDns (inst : UsernatCtx) (addr : BitVec 32) : BitVec 32 :=
  (dnsFind DnsSlot.virtual addr (dnsSlots inst.dnsIp4 inst.virtualDnsIp4)).elim addr DnsSlot.dns

/-- The address under which the app knows a source. -/
def dnsToVirtual (inst : UsernatCtx) (addr : BitVec 32) : BitVec 32 :=
  (dnsFind DnsSlot.dns addr (dnsSlots inst.dnsIp4 inst.virtualDnsIp4)).elim addr DnsSlot.virtual

/-- The patches of the virtual DNS rewrite in `find_link`. -/
def virtualDnsPatches (inst : UsernatCtx) (daddr : BitVec 32) : List Patch :=
  (dnsFind DnsSlot.virtual daddr (dnsSlots inst.dnsIp4 inst.virtualDnsIp4)).elim []
    fun slot => [.daddr slot.dns]

section findLinkAddr

variable (inst : UsernatCtx) (packet : OcpaIpPacket) (m : Mem)

theorem virtualDns_mem :
    (dnsLoop 16 DnsSlot.virtual DnsSlot.dns (pure ())
      (dnsSlots inst.dnsIp4 inst.virtualDnsIp4)).mem m =
      patchAll m (virtualDnsPatches inst (addr4 m 16)) := by
  unfold virtualDnsPatches
  rw [dnsLoop_mem]
  cases dnsFind DnsSlot.virtual (addr4 m 16) (dnsSlots inst.dnsIp4 inst.virtualDnsIp4) <;> rfl

theorem virtualDns_addr4 :
    addr4 (patchAll m (virtualDnsPatches inst (addr4 m 16))) 16 =
      virtualToDns inst (addr4 m 16) := by
  unfold virtualDnsPatches virtualToDns
  cases dnsFind DnsSlot.virtual (addr4 m 16) (dnsSlots inst.dnsIp4 inst.virtualDnsIp4) with
  | none => rfl
  | some slot => exact addr4_put32 m 16 slot.dns

/-- Only an outgoing packet is changed, and only its destination. -/
theorem findLinkAddr_mem :
    (findLinkAddr inst packet).mem m =
      if inst.remote4 = addr4 m 16 then m
      else if inst.local4 = addr4 m 12 then patchAll m (virtualDnsPatches inst (addr4 m 16))
      else m := by
  unfold findLinkAddr
  rw [MemM.mem_bind, mem_rd32, val_rd32, ntohl_word32]
  split
  · rfl
  · rw [MemM.mem_bind, mem_rd32, val_rd32, ntohl_word32]
    split
    · rw [MemM.mem_bind, virtualDns_mem]
      rfl
    · rfl

theorem findLinkAddr_val :
    (findLinkAddr inst packet).val m =
      if inst.remote4 = addr4 m 16 then
        some ⟨true, packet.dstPort, inst.remote4, packet.srcPort⟩
      else if inst.local4 = addr4 m 12 then
        some ⟨false, packet.srcPort, virtualToDns inst (addr4 m 16), packet.dstPort⟩
      else none := by
  unfold findLinkAddr
  rw [MemM.val_bind, mem_rd32, val_rd32, ntohl_word32]
  split
  · rfl
  · rw [MemM.val_bind, mem_rd32, val_rd32, ntohl_word32]
    split
    · rw [MemM.val_bind, virtualDns_mem, MemM.val_bind, val_rd32, ntohl_word32, virtualDns_addr4]
      rfl
    · rfl

end findLinkAddr

/-! ## The translation as a rewrite -/

/-- What an incoming packet gets: the real destination as its source, or the
virtual address under which the app knows it. -/
def incomingPatches (inst : UsernatCtx) (link : NatLink) : List Patch :=
  [.saddr link.realDstAddr, .daddr inst.local4, .source link.realDstPort] ++
    (dnsFind DnsSlot.dns link.realDstAddr (dnsSlots inst.dnsIp4 inst.virtualDnsIp4)).elim []
      fun slot => [.saddr slot.virtual]

/-- What an outgoing packet gets: the hop as its destination. -/
def outgoingPatches (inst : UsernatCtx) (link : NatLink) : List Patch :=
  [.saddr inst.remote4, .daddr inst.local4, .dest link.hopPort]

/-- The patches of the translation. -/
def usernatPatches (inst : UsernatCtx) (link : NatLink) (isIncoming : Bool) : List Patch :=
  if isIncoming then incomingPatches inst link else outgoingPatches inst link

section translation

variable {m : Mem} {packet : OcpaIpPacket} {len : Nat}

/-- The packet that was parsed is the one in the buffer, as far as the
translation looks at it. -/
structure ParsedAs (packet : OcpaIpPacket) (m : Mem) : Prop where
  ipver : packet.ipver = 4
  payloadProto : packet.payloadProto = m 9
  payloadHeader : packet.payloadHeader = some (segOffs m)

theorem incomingPatches_eq (inst : UsernatCtx) (link : NatLink) (hoffs : 20 ≤ segOffs m) :
    patchAll m (incomingPatches inst link) =
      (dnsLoop 12 DnsSlot.dns DnsSlot.virtual (pure ())
        (dnsSlots inst.dnsIp4 inst.virtualDnsIp4)).mem
        (patchAll m [.saddr link.realDstAddr, .daddr inst.local4, .source link.realDstPort]) := by
  have hsame : SameFields m (patchAll m [.saddr link.realDstAddr, .daddr inst.local4]) :=
    patchAll_sameFields hoffs _
  have haddr : addr4 (patchAll m
      [.saddr link.realDstAddr, .daddr inst.local4, .source link.realDstPort]) 12 =
        link.realDstAddr := by
    refine (addr4_congr ?_).trans (addr4_put32 m 12 link.realDstAddr)
    intro i hi hlt
    have hseg := hsame.segOffs_eq
    have hsource := Mem.put16_of_ne (patchAll m [.saddr link.realDstAddr, .daddr inst.local4])
      (segOffs (patchAll m [.saddr link.realDstAddr, .daddr inst.local4]))
      (htons link.realDstPort) (show i ≠ _ by omega) (show i ≠ _ by omega)
    exact hsource.trans (Mem.put32_of_ne _ _ _ (Or.inl (by omega)))
  rw [dnsLoop_mem, haddr]
  unfold incomingPatches patchAll
  rw [List.foldl_append]
  cases dnsFind DnsSlot.dns link.realDstAddr (dnsSlots inst.dnsIp4 inst.virtualDnsIp4) <;> rfl

/-- The translation of an IPv4 packet is a rewrite. -/
theorem usernatRewrite_eq (inst : UsernatCtx) (link : NatLink) (isIncoming : Bool)
    (len : Nat) (hoffs : 20 ≤ segOffs m) (hparsed : ParsedAs packet m) :
    (usernatRewrite inst link isIncoming packet len).mem m =
      rewriteOnce len m (usernatPatches inst link isIncoming) := by
  have hsame : ∀ ip ip', SameFields m (patchAll m [.saddr ip, .daddr ip']) :=
    fun ip ip' => patchAll_sameFields hoffs _
  unfold usernatRewrite usernatPatches
  rw [if_pos hparsed.ipver, hparsed.payloadHeader, hparsed.payloadProto]
  cases isIncoming with
  | true =>
    have hseg := (hsame link.realDstAddr inst.local4).segOffs_eq
    unfold rewriteOnce
    rw [if_pos rfl, if_pos rfl, incomingPatches_eq inst link hoffs]
    simp only [MemM.mem_bind, mem_wr32, mem_wr16, Option.getD_some]
    unfold patchAll at hseg ⊢
    simp only [List.foldl_cons, List.foldl_nil, Patch.apply] at hseg ⊢
    rw [hseg]
  | false =>
    have hseg := (hsame inst.remote4 inst.local4).segOffs_eq
    unfold rewriteOnce outgoingPatches
    rw [if_neg (by decide), if_neg (by decide)]
    simp only [MemM.mem_bind, mem_wr32, mem_wr16, Option.getD_some]
    unfold patchAll at hseg ⊢
    simp only [List.foldl_cons, List.foldl_nil, Patch.apply] at hseg ⊢
    rw [hseg]

end translation

end ConfProfile
