import ConfProfile.Packet.Parse

/-!
# Where the packet functions read and write

For each function of `iputils.c` the header fields that decide whether all of its
accesses lie inside the first `n` bytes. The checksum function of the IPv4
header tests what it relies on; the others rely on fields they do not test.
-/

namespace ConfProfile

open ByteMem

section iputils

variable (n : Nat) (m : Mem)

/-! ## The checksum functions -/

/-- `ip4_calc_ip_checksum` tests its length and the header length. -/
theorem ip4CalcIpChecksum_inside (len : Nat) (h : len ≤ n) :
    Inside n (ip4CalcIpChecksum len) m := by
  unfold ip4CalcIpChecksum
  rw [inside_ite]
  split
  · exact inside_pure n m 0
  · rw [inside_bind, rdIhl_inside, rdIhl_mem, rdIhl_val, inside_ite]
    refine ⟨by omega, ?_⟩
    split
    · exact inside_pure n m 0
    · simp only [inside_bind, sumWords_inside, sumWords_mem, inside_wr16, inside_pure, and_true]
      refine ⟨?_, by omega⟩
      intro i hi _
      omega

theorem ip4CalcPseudoheaderSum_inside : Inside n ip4CalcPseudoheaderSum m ↔ 20 ≤ n := by
  unfold ip4CalcPseudoheaderSum
  simp only [inside_bind, inside_rd16, mem_rd16, inside_rd, MemM.mem_rd, rdIhl_inside, inside_pure,
    and_true]
  omega

/-- A word loop that leaves out one word, the odd byte behind it and a write of
the word left out cover the string exactly. -/
theorem words_covered (ptr len skip : Nat) :
    (∀ i < len / 2, 0 + i ≠ skip → ptr + 2 * i + 1 < n) ∧
        (len % 2 = 1 → ptr + 2 * (len / 2) < n) ∧ ptr + 2 * skip + 1 < n ↔
      ptr + 2 * skip + 2 ≤ n ∧ ptr + len ≤ n := by
  refine ⟨?_, ?_⟩
  · rintro ⟨hwords, hodd, hfield⟩
    refine ⟨by omega, ?_⟩
    by_cases hpar : len % 2 = 1
    · have hlast := hodd hpar
      omega
    · by_cases hlen : len = 0 ∨ len / 2 - 1 = skip
      · omega
      · have hlast := hwords (len / 2 - 1) (by omega) (by omega)
        omega
  · rintro ⟨hfield, hlen⟩
    refine ⟨?_, ?_, by omega⟩
    · intro i hi _
      omega
    · intro hpar
      omega

/-- `ip4_calc_tcp_checksum` trusts the header length and the total length. -/
theorem ip4CalcTcpChecksum_inside (len : Nat) (h : len ≤ n) :
    Inside n (ip4CalcTcpChecksum len) m ↔
      len < 40 ∨ (segOffs m + 18 ≤ n ∧ segOffs m + segLen m ≤ n) := by
  unfold ip4CalcTcpChecksum
  rw [inside_ite]
  split
  next hshort => simp [hshort]
  next hlong =>
    have hcov := words_covered n (segOffs m) (segLen m) 8
    unfold segOffs segLen at hcov ⊢
    simp only [inside_bind, inside_rd16, mem_rd16, rdIhl_inside, rdIhl_mem, rdIhl_val,
      ip4CalcPseudoheaderSum_inside, ip4CalcPseudoheaderSum_mem, sumWords_inside, sumWords_mem,
      addOddByte_inside, addOddByte_mem, inside_wr16, val_rd16, inside_pure, and_true] at hcov ⊢
    rw [hcov]
    omega

/-- `ip4_calc_udp_checksum` trusts the header length. -/
theorem ip4CalcUdpChecksum_inside (len : Nat) (h : len ≤ n) :
    Inside n (ip4CalcUdpChecksum len) m ↔ len < 40 ∨ segOffs m + 8 ≤ n := by
  unfold ip4CalcUdpChecksum
  rw [inside_ite]
  split
  next hshort => simp [hshort]
  next hlong =>
    unfold segOffs
    simp only [inside_bind, inside_rd16, mem_rd16, rdIhl_inside, rdIhl_mem, rdIhl_val,
      inside_wr16, inside_pure, and_true]
    omega

theorem ip6CalcCommonPseudoheaderSum_inside :
    Inside n ip6CalcCommonPseudoheaderSum m ↔ 40 ≤ n := by
  unfold ip6CalcCommonPseudoheaderSum
  rw [sumWords_inside]
  refine ⟨?_, ?_⟩
  · intro h
    have hlast := h 15 (by omega) (by omega)
    omega
  · intro h i hi _
    omega

theorem ip6CalcPseudoheaderSum_inside (proto : BitVec 8) (pktlen : BitVec 32) :
    Inside n (ip6CalcPseudoheaderSum proto pktlen) m ↔ 40 ≤ n := by
  unfold ip6CalcPseudoheaderSum
  rw [inside_bind, ip6CalcCommonPseudoheaderSum_inside]
  simp

/-- The IPv6 checksum functions trust the length they are given. -/
theorem ip6CalcChecksum_inside (proto : BitVec 8) {skip field : Nat} (hskip : skip < 19)
    (hfield : field ≤ 16) (sum : BitVec 32) (buff : Nat) (len : BitVec 32) :
    Inside n (ip6CalcChecksum proto skip field sum buff len) m ↔
      len.toInt < 40 ∨ buff + len.toNat ≤ n := by
  unfold ip6CalcChecksum
  rw [inside_ite]
  split
  next hshort => simp [hshort]
  next hlong =>
    have hlen : 40 ≤ len.toNat := by
      have htoInt := BitVec.toInt_eq_toNat_cond len
      split at htoInt <;> omega
    simp only [inside_bind, sumWords_inside, sumWords_mem, addOddByte_inside, addOddByte_mem,
      inside_wr16, inside_pure, and_true, hlong, false_or]
    refine ⟨?_, ?_⟩
    · rintro ⟨hwords, hodd, _⟩
      have hlast := hwords (len.toNat / 2 - 1) (by omega) (by omega)
      by_cases hpar : len.toNat % 2 = 1
      · have hbyte := hodd hpar
        omega
      · omega
    · intro hle
      refine ⟨?_, ?_, by omega⟩
      · intro i hi _
        omega
      · intro hpar
        omega

/-! ## The parser -/

/-- The jumps of the walk over the extension headers stay below `n`, as long as
the walk finds room in the buffer. -/
def ChainFits (buffLen : Nat) : (fuel : Nat) → (proto : BitVec 8) → (ptr : Nat) → Prop
  | 0, _, _ => True
  | fuel + 1, proto, ptr =>
    isExtHeader proto = true → ptr + 1 < buffLen →
      ptr < n ∧ (ptr + 2 < buffLen →
        ptr + 1 < n ∧ ptr + 1 + (m (ptr + 1)).toNat < n ∧
          ChainFits buffLen fuel (m ptr) (ptr + 1 + (m (ptr + 1)).toNat))

/-- What `ip6_find_payload` relies on. -/
structure PayloadFits (buffLen : Nat) : Prop where
  header : 6 < n
  chain : ChainFits n m buffLen (buffLen + 1) (m 6) ip6HeaderSize
  ports : (chainEnd m buffLen).1 = ipprotoUdp ∨ (chainEnd m buffLen).1 = ipprotoTcp →
    (chainEnd m buffLen).2.toNat + 3 < n

/-- What the IPv4 branch of `ip_parse_packet` relies on. -/
structure Header4Fits : Prop where
  header : 9 < n
  udp : m 9 = ipprotoUdp → segOffs m + 5 < n
  tcp : m 9 = ipprotoTcp → segOffs m + 3 < n

/-- What `ip_parse_packet` relies on. -/
structure ParseFits (buffLen : Nat) : Prop where
  version : 0 < n
  ip4 : ipverOf (m 0) = 4 → Header4Fits n m
  ip6 : ipverOf (m 0) = 6 → PayloadFits n m buffLen

theorem ip6ExtLoop_inside (buffLen : Nat) : ∀ (fuel : Nat) (proto : BitVec 8) (ptr : Nat)
    (offs : BitVec 32),
    Inside n (ip6ExtLoop buffLen fuel proto ptr offs) m ↔ ChainFits n m buffLen fuel proto ptr := by
  intro fuel
  induction fuel with
  | zero => intro _ _ _; simp [ip6ExtLoop, ChainFits]
  | succ fuel ih =>
    intro proto ptr offs
    unfold ip6ExtLoop ChainFits
    by_cases hext : isExtHeader proto = true
    · by_cases hroom : ptr + 1 < buffLen
      · by_cases hlen : ptr + 2 < buffLen
        · simp only [hext, Bool.not_true, Bool.false_eq_true, if_false,
            if_neg (show ¬ buffLen ≤ ptr + 1 by omega), if_neg (show ¬ buffLen ≤ ptr + 2 by omega),
            inside_bind, inside_rd, MemM.mem_rd, MemM.val_rd, ih, hroom, hlen, forall_const]
        · simp [hext, hroom, hlen, show ¬ buffLen ≤ ptr + 1 by omega,
            show buffLen ≤ ptr + 2 by omega]
      · simp [hext, hroom, show buffLen ≤ ptr + 1 by omega]
    · simp [hext]

@[simp] theorem rdPorts_inside (p : OcpaIpPacket) (offs : Nat) :
    Inside n (rdPorts p offs) m ↔ offs + 3 < n := by
  unfold rdPorts
  simp only [inside_bind, inside_rd16, mem_rd16, inside_pure, and_true]
  omega

theorem ip6PayloadHeader_inside (p : OcpaIpPacket) :
    Inside n (ip6PayloadHeader p) m ↔
      (p.payloadProto = ipprotoUdp ∨ p.payloadProto = ipprotoTcp →
        p.payloadOffs.toNat + 3 < n) := by
  unfold ip6PayloadHeader
  split
  next hudp => simp [hudp]
  next hudp =>
    split
    next htcp => simp [htcp]
    next htcp => simp [hudp, htcp]

theorem ip6FindPayload_inside (p : OcpaIpPacket) :
    Inside n (ip6FindPayload p) m ↔ PayloadFits n m p.buffLen := by
  unfold ip6FindPayload
  simp only [inside_bind, inside_rd, MemM.mem_rd, MemM.val_rd, ip6ExtLoop_inside, ip6ExtLoop_mem,
    ip6ExtLoop_val, ip6PayloadHeader_inside, ip6PayloadHeader_mem, inside_rd16, inside_pure,
    and_true]
  refine ⟨fun h => ⟨h.1, h.2.1, h.2.2.1⟩, ?_⟩
  intro h
  have hheader := h.header
  exact ⟨hheader, h.chain, h.ports, by omega⟩

theorem ip4PayloadHeader_inside (p : OcpaIpPacket) (offs : Nat) :
    Inside n (ip4PayloadHeader p offs) m ↔
      (p.payloadProto = ipprotoUdp → offs + 5 < n) ∧
        (p.payloadProto = ipprotoTcp → 3 < n ∧ offs + 3 < n) ∧
        (p.payloadProto ≠ ipprotoUdp → 3 < n) := by
  unfold ip4PayloadHeader
  split
  next hudp =>
    simp only [inside_bind, inside_rd16, mem_rd16, rdPorts_inside, hudp, forall_const,
      ipprotoTcp_ne_udp.symm, false_implies, ne_eq, not_true_eq_false,
      and_true]
    omega
  next hudp =>
    split
    next htcp =>
      simp only [inside_bind, inside_rd16, mem_rd16, rdPorts_inside, htcp, forall_const,
        ipprotoTcp_ne_udp, false_implies, ne_eq, not_false_eq_true,
        true_and]
      omega
    next htcp =>
      simp only [inside_bind, inside_rd16, mem_rd16, inside_pure, hudp, htcp, false_implies, ne_eq,
        not_false_eq_true, forall_const, and_true, true_and]

theorem ip4ParseHeader_inside (p : OcpaIpPacket) :
    Inside n (ip4ParseHeader p) m ↔ Header4Fits n m := by
  unfold ip4ParseHeader
  simp only [inside_bind, inside_rd, MemM.mem_rd, MemM.val_rd, rdIhl_inside, rdIhl_mem, rdIhl_val,
    ip4PayloadHeader_inside]
  refine ⟨fun h => ⟨h.1, h.2.2.1, fun htcp => (h.2.2.2.1 htcp).2⟩, ?_⟩
  intro h
  have hheader := h.header
  exact ⟨hheader, by omega, h.udp, fun htcp => ⟨by omega, h.tcp htcp⟩, fun _ => by omega⟩

/-- `ip_parse_packet` looks at the size of the buffer only to see whether there
is a first byte. -/
theorem ipParsePacket_inside (p : OcpaIpPacket) :
    Inside n (ipParsePacket p) m ↔ (0 < p.buffLen → ParseFits n m p.buffLen) := by
  have hdet : Inside n (ipDetectIpver { p with srcPort := 0, dstPort := 0 }) m ↔
      (0 < p.buffLen → 0 < n) := by
    unfold ipDetectIpver
    split
    next hlen => simp [show 0 < p.buffLen from hlen]
    next hlen => simp [show ¬ 0 < p.buffLen from hlen]
  unfold ipParsePacket
  rw [inside_bind, hdet, ipDetectIpver_mem, inside_ite, inside_ite, ip4ParseHeader_inside,
    ip6FindPayload_inside, ipDetectIpver_buffLen, ipDetectIpver_ipver]
  by_cases hlen : 0 < p.buffLen
  · rw [if_pos hlen]
    refine ⟨?_, ?_⟩
    · rintro ⟨h0, h⟩ _
      refine ⟨h0 hlen, fun h4 => ?_, fun h6 => ?_⟩
      · rwa [if_pos h4] at h
      · rwa [if_neg (by omega), if_pos h6] at h
    · intro h
      refine ⟨fun _ => (h hlen).version, ?_⟩
      split
      next h4 => exact (h hlen).ip4 h4
      next h4 =>
        split
        next h6 => exact (h hlen).ip6 h6
        next h6 => exact inside_pure n m _
  · simp [hlen]

end iputils

end ConfProfile
