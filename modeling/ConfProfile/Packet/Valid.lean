import ConfProfile.Packet.Parse

/-!
# Well-formed IPv4 packets and valid checksums

What a receiver asks of an IPv4 packet: the header fields agree with the length,
the header sums up to all ones, and so does the segment behind it together with
its pseudo header. The rewriting functions never touch the first ten bytes
(`SameFields`), so that a packet stays well formed and its segment stays where
it was; with that the two checksum functions make both tests pass
(`ip4CalcIpChecksum_verifies`, `ip4CalcTcpChecksum_verifies`).
-/

namespace ConfProfile

open ByteMem
open OnesSum (Fits byteSum InternetVerifies)

/-- The header of an IPv4 packet of `len` bytes, fragments included. -/
structure Ip4Wf (m : Mem) (len : Nat) : Prop where
  version : ipverOf (m 0) = 4
  ihl : 5 ≤ ihlOf m
  totLen : net16 m 2 = len
  header : segOffs m ≤ len

/-- An IPv4 packet with a complete TCP header. -/
structure Tcp4Wf (m : Mem) (len : Nat) : Prop extends Ip4Wf m len where
  proto : m 9 = ipprotoTcp
  tcpHeader : segOffs m + 20 ≤ len

/-- An IPv4 packet with a UDP datagram that fills it. -/
structure Udp4Wf (m : Mem) (len : Nat) : Prop extends Ip4Wf m len where
  proto : m 9 = ipprotoUdp
  udpHeader : segOffs m + 8 ≤ len
  udpLen : net16 m (segOffs m + 4) = len - segOffs m

/-- The length of the segment, as the header gives it. -/
def segmentLen (m : Mem) : Nat := net16 m 2 - segOffs m

/-- The pseudo header of a segment of `n` bytes. -/
def pseudo4 (m : Mem) (n : Nat) : List (BitVec 8) :=
  m.bytes 12 8 ++ [0, m 9, BitVec.ofNat 8 (n / 256), BitVec.ofNat 8 n]

/-- The IPv4 header checksum is valid. -/
def HeaderVerifies (m : Mem) : Prop := InternetVerifies (m.bytes 0 (segOffs m))

/-- The checksum in a TCP or UDP header is valid. -/
def SegmentVerifies (m : Mem) : Prop :=
  InternetVerifies (pseudo4 m (segmentLen m) ++ m.bytes (segOffs m) (segmentLen m))

/-! ## The fields that stay -/

/-- The fields in front of the header checksum are the same. -/
def SameFields (m m' : Mem) : Prop := ∀ i < 10, m' i = m i

namespace SameFields

variable {m m' m'' : Mem} {len : Nat}

theorem refl (m : Mem) : SameFields m m := fun _ _ => rfl

theorem trans (h : SameFields m m') (h' : SameFields m' m'') : SameFields m m'' :=
  fun i hi => (h' i hi).trans (h i hi)

theorem put16 (h : SameFields m m') {o : Nat} (ho : 10 ≤ o) (w : BitVec 16) :
    SameFields m (m'.put16 o w) := by
  intro i hi
  rw [Mem.put16_of_ne _ _ _ (by omega) (by omega), h i hi]

theorem put32 (h : SameFields m m') {o : Nat} (ho : 10 ≤ o) (w : BitVec 32) :
    SameFields m (m'.put32 o w) := by
  intro i hi
  rw [Mem.put32_of_ne _ _ _ (Or.inl (by omega)), h i hi]

theorem segOffs_eq (h : SameFields m m') : segOffs m' = segOffs m :=
  segOffs_congr (h 0 (by omega))

theorem net16_eq (h : SameFields m m') {o : Nat} (ho : o < 9) : net16 m' o = net16 m o :=
  net16_congr (h o (by omega)) (h (o + 1) (by omega))

theorem segLen_eq (h : SameFields m m') : segLen m' = segLen m :=
  segLen_congr (h 0 (by omega)) (h 2 (by omega)) (h 3 (by omega))

theorem segmentLen_eq (h : SameFields m m') : segmentLen m' = segmentLen m := by
  unfold segmentLen
  rw [h.segOffs_eq, h.net16_eq (by omega)]

theorem ip4Wf (h : SameFields m m') (hwf : Ip4Wf m len) : Ip4Wf m' len := by
  refine ⟨?_, ?_, ?_, ?_⟩
  · rw [h 0 (by omega)]
    exact hwf.version
  · unfold ihlOf
    rw [h 0 (by omega)]
    exact hwf.ihl
  · rw [h.net16_eq (by omega)]
    exact hwf.totLen
  · rw [h.segOffs_eq]
    exact hwf.header

theorem tcp4Wf (h : SameFields m m') (hwf : Tcp4Wf m len) : Tcp4Wf m' len := by
  refine ⟨h.ip4Wf hwf.toIp4Wf, ?_, ?_⟩
  · rw [h 9 (by omega)]
    exact hwf.proto
  · rw [h.segOffs_eq]
    exact hwf.tcpHeader

end SameFields

/-! ## Sums of a packet -/

section sums

variable {m : Mem} {len : Nat}

theorem Ip4Wf.segOffs_ge (h : Ip4Wf m len) : 20 ≤ segOffs m := by
  have hihl := h.ihl
  unfold segOffs
  omega

theorem Ip4Wf.segmentLen_eq (h : Ip4Wf m len) : segmentLen m = len - segOffs m := by
  unfold segmentLen
  rw [h.totLen]

/-- Where the total length covers the header, the `uint16_t` is the length of the segment. -/
theorem Ip4Wf.segLen_eq (h : Ip4Wf m len) : segLen m = segmentLen m := by
  have hle := net16_le m 2
  have hihl := ihlOf_lt m
  have hheader := h.header
  have htot := h.totLen
  unfold segLen segmentLen segOffs at *
  rw [BitVec.toNat_sub, ntohs_word16, BitVec.toNat_ofNat]
  omega

theorem Ip4Wf.segLen_le (h : Ip4Wf m len) : segLen m ≤ 65535 := by
  have hle := net16_le m 2
  rw [h.segLen_eq]
  unfold segmentLen
  omega

theorem byteSum_pseudo4 (m : Mem) {n : Nat} (hn : n ≤ 65535) :
    byteSum (pseudo4 m n) =
      net16 m 12 + net16 m 14 + net16 m 16 + net16 m 18 + (m 9).toNat + n := by
  have hhigh : (BitVec.ofNat 8 (n / 256)).toNat = n / 256 := by
    rw [BitVec.toNat_ofNat, Nat.mod_eq_of_lt (by omega)]
  have hlow : (BitVec.ofNat 8 n).toNat = n % 256 := BitVec.toNat_ofNat n 8
  have hzero : (0 : BitVec 8).toNat = 0 := rfl
  unfold pseudo4
  rw [OnesSum.byteSum_append _ _ (by simp [Mem.length_bytes]), byteSum_bytes_succ,
    byteSum_bytes_succ, byteSum_bytes_succ, byteSum_bytes_succ, OnesSum.byteSum_cons_cons,
    OnesSum.byteSum_cons_cons, hhigh, hlow, hzero]
  simp only [Mem.bytes, OnesSum.byteSum_nil, Nat.reduceAdd]
  omega

/-- Pseudo header and segment add up to the total of the TCP checksum and the
word it leaves out. -/
theorem byteSum_segment (h : Ip4Wf m len) (hseg : 18 ≤ segmentLen m) :
    byteSum (pseudo4 m (segmentLen m) ++ m.bytes (segOffs m) (segmentLen m)) =
      tcpTotal m + net16 m (segOffs m + 16) := by
  have hlen := h.segLen_eq
  have hle := h.segLen_le
  rw [OnesSum.byteSum_append _ _ (by simp [pseudo4, Mem.length_bytes]),
    byteSum_pseudo4 m (by omega),
    byteSum_segTotal m (segOffs m) (show 8 < segmentLen m / 2 by omega)]
  unfold tcpTotal pseudoTotal
  rw [hlen, ← Nat.add_assoc]

theorem pseudoTotal_pos (hproto : m 9 = ipprotoTcp) : 0 < pseudoTotal m := by
  have hnat : (m 9).toNat = 6 := by
    rw [hproto]
    rfl
  unfold pseudoTotal
  omega

/-- The segment verifies exactly if its checksum word fits, or would as 0. -/
theorem segmentVerifies_iff (h : Tcp4Wf m len) :
    SegmentVerifies m ↔ (tcpTotal m + net16 m (segOffs m + 16)) % 65535 = 0 := by
  have hpos := pseudoTotal_pos h.proto
  have hseg : 18 ≤ segmentLen m := by
    have hheader := h.tcpHeader
    rw [h.toIp4Wf.segmentLen_eq]
    omega
  unfold SegmentVerifies
  rw [OnesSum.internetVerifies_iff, byteSum_segment h.toIp4Wf hseg]
  unfold tcpTotal
  omega

end sums

/-! ## What the checksum functions achieve -/

section verifies

variable {m : Mem} {len : Nat}

/-- The header test reads the header only. -/
theorem headerVerifies_congr {m' : Mem} (hpos : 0 < segOffs m)
    (h : ∀ i < segOffs m, m' i = m i) (hv : HeaderVerifies m) : HeaderVerifies m' := by
  have hoffs : segOffs m' = segOffs m := segOffs_congr (h 0 hpos)
  unfold HeaderVerifies at hv ⊢
  rw [hoffs, Mem.bytes_congr fun i _ hi => h i (by omega)]
  exact hv

theorem ip4CalcIpChecksum_sameFields (m : Mem) (len : Nat) :
    SameFields m ((ip4CalcIpChecksum len).mem m) :=
  fun i hi => ip4CalcIpChecksum_of_ne m len (by omega) (by omega)

/-- The sum of a header is the total of its checksum and the checksum word. -/
theorem byteSum_header (hihl : 5 ≤ ihlOf m) :
    byteSum (m.bytes 0 (segOffs m)) = skipSum m 5 (ihlOf m * 2) 0 0 + net16 m 10 := by
  have hsum := skipSum_add m 5 (ihlOf m * 2) 0 0 (by omega) (by omega)
  rwa [show 2 * (ihlOf m * 2) = segOffs m by unfold segOffs; omega] at hsum

/-- The header checksum does not look at the word that it is stored in. -/
theorem skipSum_put16_check (m : Mem) (cycles : Nat) (w : BitVec 16) :
    skipSum (m.put16 10 w) 5 cycles 0 0 = skipSum m 5 cycles 0 0 := by
  apply skipSum_congr
  intro i _ hne
  exact net16_congr (Mem.put16_of_ne _ _ _ (by omega) (by omega))
    (Mem.put16_of_ne _ _ _ (by omega) (by omega))

/-- The checksum that is stored makes a header verify that fits in the packet. -/
theorem ip4CalcIpChecksum_header (hihl : 5 ≤ ihlOf m) (hfits : segOffs m ≤ len) :
    HeaderVerifies ((ip4CalcIpChecksum len).mem m) := by
  have hoffs : segOffs m = ihlOf m * 4 := rfl
  have hsame := (ip4CalcIpChecksum_sameFields m len).segOffs_eq
  obtain ⟨c, ⟨hpos, _, hmod⟩, hmem⟩ := @ip4CalcIpChecksum_stores m len (by omega) hfits
  rw [hmem] at hsame ⊢
  have hihl' : ihlOf (m.put16 10 (htons c)) = ihlOf m := by
    unfold segOffs at hsame
    omega
  have hsum := byteSum_header (m := m.put16 10 (htons c)) (by omega)
  rw [hihl', skipSum_put16_check, net16_put16] at hsum
  unfold HeaderVerifies
  rw [OnesSum.internetVerifies_iff, hsum]
  omega

theorem ip4CalcIpChecksum_verifies (h : Ip4Wf m len) :
    HeaderVerifies ((ip4CalcIpChecksum len).mem m) :=
  ip4CalcIpChecksum_header h.ihl h.header

/-- The total does not change with the checksum word, as long as that word does
not hold the odd byte. -/
theorem tcpTotal_put16 (hoffs : 20 ≤ segOffs m) (hodd : segLen m ≠ 17) (w : BitVec 16) :
    tcpTotal (m.put16 (segOffs m + 16) w) = tcpTotal m := by
  have hsame : SameFields m (m.put16 (segOffs m + 16) w) := (SameFields.refl m).put16 (by omega) w
  have hkeep : ∀ i, i ≠ segOffs m + 16 → i ≠ segOffs m + 17 →
      m.put16 (segOffs m + 16) w i = m i :=
    fun i h₀ h₁ => Mem.put16_of_ne _ _ _ h₀ h₁
  have hpseudo : pseudoTotal (m.put16 (segOffs m + 16) w) = pseudoTotal m := by
    unfold pseudoTotal
    rw [hsame.segLen_eq, hkeep 9 (by omega) (by omega),
      net16_congr (hkeep 12 (by omega) (by omega)) (hkeep 13 (by omega) (by omega)),
      net16_congr (hkeep 14 (by omega) (by omega)) (hkeep 15 (by omega) (by omega)),
      net16_congr (hkeep 16 (by omega) (by omega)) (hkeep 17 (by omega) (by omega)),
      net16_congr (hkeep 18 (by omega) (by omega)) (hkeep 19 (by omega) (by omega))]
  have hseg := segTotal_put16 m (show segLen m ≠ 2 * 8 + 1 from hodd) w (o := segOffs m)
  unfold tcpTotal
  rw [hsame.segLen_eq, hsame.segOffs_eq, hpseudo]
  exact congrArg (pseudoTotal m + ·) hseg

/-- The TCP checksum that is stored makes the segment verify, whatever the
header length and the number of data bytes. -/
theorem ip4CalcTcpChecksum_verifies (h : Tcp4Wf m len) :
    SameFields m ((ip4CalcTcpChecksum len).mem m) ∧
      (∀ i < segOffs m, (ip4CalcTcpChecksum len).mem m i = m i) ∧
      SegmentVerifies ((ip4CalcTcpChecksum len).mem m) := by
  have hoffs := h.toIp4Wf.segOffs_ge
  have hheader := h.tcpHeader
  have hseg : segLen m = len - segOffs m := by
    rw [h.toIp4Wf.segLen_eq, h.toIp4Wf.segmentLen_eq]
  obtain ⟨c, ⟨_, _, hmod⟩, hmem⟩ := @ip4CalcTcpChecksum_stores m len (by omega)
  have hsame : SameFields m (m.put16 (segOffs m + 16) (htons c)) :=
    (SameFields.refl m).put16 (by omega) _
  rw [hmem]
  refine ⟨hsame, fun i hi => Mem.put16_of_ne _ _ _ (by omega) (by omega), ?_⟩
  rw [segmentVerifies_iff (hsame.tcp4Wf h), tcpTotal_put16 hoffs (by omega), hsame.segOffs_eq,
    net16_put16]
  exact hmod

end verifies

end ConfProfile
