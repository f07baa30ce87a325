import ConfProfile.Packet.Checksum

/-!
# Parsing a packet (`ip_parse_packet`, `ip6_find_payload`)

The parser looks at the bytes behind the pointer and fills an
`ocpa_ip_packet_t`. It knows the size of the buffer (`buff_len`) and the length
of the packet (`pkt_len`), tests the first where it asks whether there is a
first byte and in the walk over the extension headers, and never looks at the
second.

The walk keeps two cursors, `ptr` and `offs`. Each goes on by a byte and then by
a length, but by different ones: `offs` takes its own from the place to which
`ptr` has just moved.
-/

namespace ConfProfile

open ByteMem

/-- `ocpa_ip_packet_t`. Pointers are offsets from `buff`, where `ip_header`
points as well. -/
structure OcpaIpPacket where
  buffLen : Nat
  pktLen : Nat
  ipver : Nat := 0
  payloadProto : BitVec 8 := 0
  payloadHeader : Option Nat := none
  payloadOffs : BitVec 32 := 0
  payloadLen : BitVec 32 := 0
  srcPort : BitVec 16 := 0
  dstPort : BitVec 16 := 0
  deriving DecidableEq, Repr

/-- `IPPROTO_NONE`: no next header. -/
def ipprotoNone : BitVec 8 := 59

/-- The extension headers of the walk: `IPPROTO_HOPOPTS`, `IPPROTO_ROUTING` and
`IPPROTO_DSTOPTS`. -/
def isExtHeader (proto : BitVec 8) : Bool := proto == 0 || proto == 43 || proto == 60

/-- `sizeof(ip6_header)`. -/
def ip6HeaderSize : Nat := 40

/-- The loop of `ip6_find_payload`: the protocol and the offset it ends with. -/
def ip6ExtLoop (buffLen : Nat) :
    (fuel : Nat) → (proto : BitVec 8) → (ptr : Nat) → (offs : BitVec 32) →
      MemM (BitVec 8 × BitVec 32)
  | 0, proto, _, offs => pure (proto, offs)
  | fuel + 1, proto, ptr, offs =>
    if !isExtHeader proto then pure (proto, offs)
    else if buffLen ≤ ptr + 1 then
      -- there is no space for next proto field
      pure (ipprotoNone, 0)
    else do
      let proto ← rd ptr
      if buffLen ≤ ptr + 2 then
        -- there is no space for next len field
        pure (ipprotoNone, 0)
      else do
        let len ← rd (ptr + 1)
        let next ← rd (ptr + 1 + len.toNat)
        ip6ExtLoop buffLen fuel proto (ptr + 1 + len.toNat) (offs + 1 + next.setWidth 32)

/-- The ports of `ip6_find_payload` and of `ip_parse_packet`, in a TCP or UDP
header at `offs`. -/
def rdPorts (p : OcpaIpPacket) (offs : Nat) : MemM OcpaIpPacket := do
  let source ← rd16 offs
  let dest ← rd16 (offs + 2)
  return { p with payloadHeader := some offs, srcPort := ntohs source, dstPort := ntohs dest }

/-- The `switch` of `ip6_find_payload`. -/
def ip6PayloadHeader (p : OcpaIpPacket) : MemM OcpaIpPacket :=
  if p.payloadProto = ipprotoUdp then rdPorts p p.payloadOffs.toNat
  else if p.payloadProto = ipprotoTcp then rdPorts p p.payloadOffs.toNat
  else pure { p with payloadHeader := none }

/-- `ip6_find_payload`. The payload length is taken from the header without
`ntohs`. -/
def ip6FindPayload (p : OcpaIpPacket) : MemM OcpaIpPacket := do
  let nxt ← rd 6
  let found ←
    ip6ExtLoop p.buffLen (p.buffLen + 1) nxt ip6HeaderSize (BitVec.ofNat 32 ip6HeaderSize)
  let p ← ip6PayloadHeader { p with payloadProto := found.1, payloadOffs := found.2 }
  let ip6plen ← rd16 4
  return { p with
    payloadLen := ip6plen.setWidth 32 + BitVec.ofNat 32 ip6HeaderSize - found.2 }

/-- The version in the first byte: 4, 6, or 0 for anything else. -/
def ipverOf (b : BitVec 8) : Nat :=
  if b &&& 0xf0 = 0x40 then 4
  else if b &&& 0xf0 = 0x60 then 6
  else 0

/-- `ip_detect_ipver`. -/
def ipDetectIpver (p : OcpaIpPacket) : MemM OcpaIpPacket :=
  if 0 < p.buffLen then do
    let b ← rd 0
    return { p with ipver := ipverOf b }
  else pure { p with ipver := 0 }

/-- The `switch` of `ip_parse_packet`. -/
def ip4PayloadHeader (p : OcpaIpPacket) (offs : Nat) : MemM OcpaIpPacket :=
  if p.payloadProto = ipprotoUdp then do
    let len ← rd16 (offs + 4)
    rdPorts { p with payloadLen := (ntohs len).setWidth 32 } offs
  else if p.payloadProto = ipprotoTcp then do
    let totLen ← rd16 2
    rdPorts { p with payloadLen := (ntohs totLen).setWidth 32 - BitVec.ofNat 32 offs } offs
  else do
    let totLen ← rd16 2
    return { p with
      payloadHeader := none, payloadLen := (ntohs totLen).setWidth 32 - BitVec.ofNat 32 offs }

/-- The IPv4 branch of `ip_parse_packet`. -/
def ip4ParseHeader (p : OcpaIpPacket) : MemM OcpaIpPacket := do
  let protocol ← rd 9
  let ihl ← rdIhl
  ip4PayloadHeader
    { p with payloadProto := protocol, payloadOffs := BitVec.ofNat 32 (ihl * 4) } (ihl * 4)

/-- `ip_parse_packet`. -/
def ipParsePacket (p : OcpaIpPacket) : MemM OcpaIpPacket := do
  let p ← ipDetectIpver { p with srcPort := 0, dstPort := 0 }
  if p.ipver = 4 then ip4ParseHeader p
  else if p.ipver = 6 then ip6FindPayload p
  else pure p

/-- A zeroed packet with its buffer set, as every caller of the parser prepares it. -/
def newPacket (buffLen pktLen : Nat) : OcpaIpPacket := { buffLen := buffLen, pktLen := pktLen }

/-- The chain of extension headers in the bytes of a packet, as the walk goes
along it. -/
def chainFrom (m : Mem) (buffLen : Nat) :
    (fuel : Nat) → (proto : BitVec 8) → (ptr : Nat) → (offs : BitVec 32) → BitVec 8 × BitVec 32
  | 0, proto, _, offs => (proto, offs)
  | fuel + 1, proto, ptr, offs =>
    if isExtHeader proto then
      if ptr + 2 < buffLen then
        let next := ptr + 1 + (m (ptr + 1)).toNat
        chainFrom m buffLen fuel (m ptr) next (offs + 1 + (m next).setWidth 32)
      else (ipprotoNone, 0)
    else (proto, offs)

/-- The header that ends the chain of an IPv6 packet, and the offset that
`ip6_find_payload` has for it. -/
def chainEnd (m : Mem) (buffLen : Nat) : BitVec 8 × BitVec 32 :=
  chainFrom m buffLen (buffLen + 1) (m 6) ip6HeaderSize (BitVec.ofNat 32 ip6HeaderSize)

/-- The length that `ip6_find_payload` has for the payload. -/
def chainLen (m : Mem) (buffLen : Nat) : BitVec 32 :=
  (m.word16 4).setWidth 32 + BitVec.ofNat 32 ip6HeaderSize - (chainEnd m buffLen).2

/-! ## What the parser leaves alone and what it finds -/

/-- The walk ends before its fuel does: with more of it the result is the same. -/
theorem ip6ExtLoop_fuel (buffLen : Nat) (m : Mem) : ∀ (f g : Nat) (proto : BitVec 8) (ptr : Nat)
    (offs : BitVec 32), 0 < f → buffLen ≤ ptr + f → 0 < g → buffLen ≤ ptr + g →
    ip6ExtLoop buffLen f proto ptr offs m = ip6ExtLoop buffLen g proto ptr offs m := by
  intro f
  induction f with
  | zero =>
    intro g proto ptr offs hf
    omega
  | succ f ih =>
    intro g proto ptr offs _ hf hg hg'
    obtain ⟨g, rfl⟩ := Nat.exists_eq_succ_of_ne_zero (Nat.ne_of_gt hg)
    rw [ip6ExtLoop, ip6ExtLoop]
    split
    · rfl
    · split
      · rfl
      · apply MemM.bind_congr_at
        split
        · rfl
        · apply MemM.bind_congr_at
          apply MemM.bind_congr_at
          exact ih _ _ _ _ (by omega) (by omega) (by omega) (by omega)

/-- The walk only reads. -/
@[simp] theorem ip6ExtLoop_mem (buffLen : Nat) (m : Mem) : ∀ (fuel : Nat) (proto : BitVec 8)
    (ptr : Nat) (offs : BitVec 32), (ip6ExtLoop buffLen fuel proto ptr offs).mem m = m := by
  intro fuel
  induction fuel with
  | zero => intro _ _ _; rfl
  | succ fuel ih =>
    intro proto ptr offs
    unfold ip6ExtLoop
    split
    · rfl
    · split
      · rfl
      · rw [MemM.mem_bind]
        split
        · rfl
        · exact ih _ _ _

/-- The walk ends where the chain does. -/
theorem ip6ExtLoop_val (buffLen : Nat) (m : Mem) : ∀ (fuel : Nat) (proto : BitVec 8)
    (ptr : Nat) (offs : BitVec 32),
    (ip6ExtLoop buffLen fuel proto ptr offs).val m = chainFrom m buffLen fuel proto ptr offs := by
  intro fuel
  induction fuel with
  | zero => intro _ _ _; rfl
  | succ fuel ih =>
    intro proto ptr offs
    unfold ip6ExtLoop chainFrom
    by_cases hext : isExtHeader proto = true
    · by_cases hlen : ptr + 2 < buffLen
      · rw [if_neg (by simp [hext]), if_neg (by omega), if_pos hext, if_pos hlen, MemM.val_bind,
          if_neg (by omega)]
        exact ih _ _ _
      · rw [if_neg (by simp [hext]), if_pos hext, if_neg hlen]
        split
        · rfl
        · rw [MemM.val_bind, if_pos (by omega)]
          rfl
    · rw [if_pos (by simp [hext]), if_neg hext]
      rfl

@[simp] theorem ip6PayloadHeader_mem (m : Mem) (p : OcpaIpPacket) :
    (ip6PayloadHeader p).mem m = m := by
  unfold ip6PayloadHeader
  split
  · rfl
  · split <;> rfl

@[simp] theorem ip6FindPayload_mem (m : Mem) (p : OcpaIpPacket) :
    (ip6FindPayload p).mem m = m := by
  unfold ip6FindPayload
  simp only [MemM.mem_bind, MemM.mem_rd, ip6ExtLoop_mem, ip6PayloadHeader_mem, mem_rd16,
    MemM.mem_pure]

@[simp] theorem ipDetectIpver_mem (m : Mem) (p : OcpaIpPacket) :
    (ipDetectIpver p).mem m = m := by
  unfold ipDetectIpver
  split <;> rfl

@[simp] theorem ip4PayloadHeader_mem (m : Mem) (p : OcpaIpPacket) (offs : Nat) :
    (ip4PayloadHeader p offs).mem m = m := by
  unfold ip4PayloadHeader
  split
  · rfl
  · split <;> rfl

@[simp] theorem ip4ParseHeader_mem (m : Mem) (p : OcpaIpPacket) :
    (ip4ParseHeader p).mem m = m :=
  ip4PayloadHeader_mem m _ _

/-- The parser only reads. -/
@[simp] theorem ipParsePacket_mem (m : Mem) (p : OcpaIpPacket) :
    (ipParsePacket p).mem m = m := by
  unfold ipParsePacket
  rw [MemM.mem_bind, ipDetectIpver_mem]
  split
  · exact ip4ParseHeader_mem m _
  · split
    · exact ip6FindPayload_mem m _
    · rfl

section parsed

variable (m : Mem) (p : OcpaIpPacket)

@[simp] theorem ipDetectIpver_ipver :
    ((ipDetectIpver p).val m).ipver = if 0 < p.buffLen then ipverOf (m 0) else 0 := by
  unfold ipDetectIpver
  split <;> rfl

theorem ip4PayloadHeader_same (offs : Nat) :
    ((ip4PayloadHeader p offs).val m).ipver = p.ipver ∧
      ((ip4PayloadHeader p offs).val m).buffLen = p.buffLen ∧
      ((ip4PayloadHeader p offs).val m).payloadProto = p.payloadProto := by
  unfold ip4PayloadHeader
  rw [MemM.val_ite, MemM.val_ite]
  split
  · exact ⟨rfl, rfl, rfl⟩
  · split <;> exact ⟨rfl, rfl, rfl⟩

theorem ip6PayloadHeader_same :
    ((ip6PayloadHeader p).val m).ipver = p.ipver ∧
      ((ip6PayloadHeader p).val m).buffLen = p.buffLen ∧
      ((ip6PayloadHeader p).val m).payloadProto = p.payloadProto ∧
      ((ip6PayloadHeader p).val m).payloadOffs = p.payloadOffs := by
  unfold ip6PayloadHeader
  rw [MemM.val_ite, MemM.val_ite]
  split
  · exact ⟨rfl, rfl, rfl, rfl⟩
  · split <;> exact ⟨rfl, rfl, rfl, rfl⟩

theorem ip4ParseHeader_same :
    ((ip4ParseHeader p).val m).ipver = p.ipver ∧
      ((ip4ParseHeader p).val m).buffLen = p.buffLen ∧
      ((ip4ParseHeader p).val m).payloadProto = m 9 :=
  ip4PayloadHeader_same m _ _

theorem ip6FindPayload_same :
    ((ip6FindPayload p).val m).ipver = p.ipver ∧
      ((ip6FindPayload p).val m).buffLen = p.buffLen := by
  unfold ip6FindPayload
  simp only [MemM.val_bind, MemM.val_pure]
  have hsame := fun p' m' => ip6PayloadHeader_same m' p'
  exact ⟨(hsame _ _).1, (hsame _ _).2.1⟩

@[simp] theorem ipDetectIpver_buffLen : ((ipDetectIpver p).val m).buffLen = p.buffLen := by
  unfold ipDetectIpver
  split <;> rfl

/-- The parser does not change the size of the buffer. -/
@[simp] theorem ipParsePacket_buffLen : ((ipParsePacket p).val m).buffLen = p.buffLen := by
  unfold ipParsePacket
  rw [MemM.val_bind, ipDetectIpver_mem]
  have hdetect := ipDetectIpver_buffLen m { p with srcPort := 0, dstPort := 0 }
  split
  · rw [(ip4ParseHeader_same m _).2.1, hdetect]
  · split
    · rw [(ip6FindPayload_same m _).2, hdetect]
    · exact hdetect

/-- The version found is the one in the first byte of the buffer. -/
theorem ipParsePacket_ipver :
    ((ipParsePacket p).val m).ipver = if 0 < p.buffLen then ipverOf (m 0) else 0 := by
  have hd := ipDetectIpver_ipver m { p with srcPort := 0, dstPort := 0 }
  unfold ipParsePacket
  rw [MemM.val_bind, ipDetectIpver_mem, ← hd]
  split
  · rw [(ip4ParseHeader_same m _).1]
  · split
    · rw [(ip6FindPayload_same m _).1]
    · rfl

/-- In an IPv4 packet the payload protocol is the one of the header. -/
theorem ipParsePacket_payloadProto (h : ((ipParsePacket p).val m).ipver = 4) :
    ((ipParsePacket p).val m).payloadProto = m 9 := by
  rw [ipParsePacket_ipver, ← ipDetectIpver_ipver m p] at h
  unfold ipParsePacket
  rw [MemM.val_bind, ipDetectIpver_mem, if_pos (by rw [ipDetectIpver_ipver] at h ⊢; exact h)]
  exact (ip4ParseHeader_same m _).2.2

theorem ip4PayloadHeader_ports (offs : Nat)
    (hproto : p.payloadProto = ipprotoTcp ∨ p.payloadProto = ipprotoUdp) :
    ((ip4PayloadHeader p offs).val m).payloadHeader = some offs ∧
      ((ip4PayloadHeader p offs).val m).srcPort = ntohs (m.word16 offs) ∧
      ((ip4PayloadHeader p offs).val m).dstPort = ntohs (m.word16 (offs + 2)) := by
  unfold ip4PayloadHeader
  rcases hproto with hproto | hproto
  · rw [if_neg (hproto.trans_ne ipprotoTcp_ne_udp), if_pos hproto]
    exact ⟨rfl, rfl, rfl⟩
  · rw [if_pos hproto]
    exact ⟨rfl, rfl, rfl⟩

/-- The parser finds a TCP or UDP header behind the IPv4 header, and the ports
in it. -/
theorem ipParsePacket_ports (h4 : ((ipParsePacket p).val m).ipver = 4)
    (hproto : m 9 = ipprotoTcp ∨ m 9 = ipprotoUdp) :
    ((ipParsePacket p).val m).payloadHeader = some (segOffs m) ∧
      ((ipParsePacket p).val m).srcPort = ntohs (m.word16 (segOffs m)) ∧
      ((ipParsePacket p).val m).dstPort = ntohs (m.word16 (segOffs m + 2)) := by
  have hver : ((ipDetectIpver { p with srcPort := 0, dstPort := 0 }).val m).ipver = 4 := by
    rw [ipParsePacket_ipver] at h4
    rw [ipDetectIpver_ipver]
    exact h4
  unfold ipParsePacket
  rw [MemM.val_bind, ipDetectIpver_mem, if_pos hver]
  exact ip4PayloadHeader_ports m _ (segOffs m) hproto

theorem ip6FindPayload_payload :
    ((ip6FindPayload p).val m).payloadProto = (chainEnd m p.buffLen).1 ∧
      ((ip6FindPayload p).val m).payloadOffs = (chainEnd m p.buffLen).2 ∧
      ((ip6FindPayload p).val m).payloadLen = chainLen m p.buffLen := by
  have hmem := ip6ExtLoop_mem p.buffLen m (p.buffLen + 1) (m 6) ip6HeaderSize
    (BitVec.ofNat 32 ip6HeaderSize)
  unfold ip6FindPayload
  simp only [MemM.val_bind, MemM.mem_rd, MemM.val_rd, hmem, ip6PayloadHeader_mem, val_rd16,
    MemM.val_pure, ip6ExtLoop_val]
  exact ⟨(ip6PayloadHeader_same m _).2.2.1, (ip6PayloadHeader_same m _).2.2.2, rfl⟩

/-- In an IPv6 packet the payload is what ends the chain of headers. -/
theorem ipParsePacket_payload6 (h : ((ipParsePacket p).val m).ipver = 6) :
    ((ipParsePacket p).val m).payloadProto = (chainEnd m p.buffLen).1 ∧
      ((ipParsePacket p).val m).payloadOffs = (chainEnd m p.buffLen).2 ∧
      ((ipParsePacket p).val m).payloadLen = chainLen m p.buffLen := by
  have hver : ((ipDetectIpver { p with srcPort := 0, dstPort := 0 }).val m).ipver = 6 := by
    rw [ipParsePacket_ipver] at h
    rw [ipDetectIpver_ipver]
    exact h
  have hfind := ip6FindPayload_payload m
    ((ipDetectIpver { p with srcPort := 0, dstPort := 0 }).val m)
  rw [ipDetectIpver_buffLen] at hfind
  unfold ipParsePacket
  rw [MemM.val_bind, ipDetectIpver_mem, if_neg (by omega), if_pos hver]
  exact hfind

end parsed

end ConfProfile
