import ConfProfile.Packet.Valid
import ConfProfile.Tun.Masquerade

/-!
# Masquerading an IPv6 packet

`ip6_find_payload` takes the payload length out of the header without `ntohs`,
so that the two checksum functions get a length with its bytes swapped. Below 40
they return and leave the old checksum; from 40 on they calculate one over as
many bytes as the swapped length says. `ip6_calc_udp_checksum` moreover leaves
out the word behind the checksum and adds up the old checksum in its place.
`masquerade6_verifies_iff` says for every packet whether a valid checksum comes
out all the same.
-/

namespace ConfProfile

open ByteMem
open OnesSum (Fits byteSum InternetVerifies)

/-- An IPv6 packet of `len` bytes with a TCP segment or a UDP datagram directly
behind the fixed header. -/
structure Ip6Wf (m : Mem) (len : Nat) : Prop where
  version : ipverOf (m 0) = 6
  plen : 40 + net16 m 4 = len
  upper : (m 6 = ipprotoTcp ∧ 20 ≤ net16 m 4) ∨
    (m 6 = ipprotoUdp ∧ 8 ≤ net16 m 4 ∧ net16 m 44 = net16 m 4)

/-- The pseudo header of a segment of `n` bytes: the addresses, the length in four
bytes, and the next header. -/
def pseudo6 (m : Mem) (n : Nat) : List (BitVec 8) :=
  m.bytes 8 32 ++ [0, 0, BitVec.ofNat 8 (n / 256), BitVec.ofNat 8 n, 0, 0, 0, m 6]

/-- The sum of a segment and its pseudo header. -/
def segmentSum6 (m : Mem) : Nat :=
  byteSum (pseudo6 m (net16 m 4) ++ m.bytes 40 (net16 m 4))

/-- The receiver's test: the segment verifies, and a UDP datagram has a checksum. -/
def Segment6Verifies (m : Mem) : Prop :=
  InternetVerifies (pseudo6 m (net16 m 4) ++ m.bytes 40 (net16 m 4)) ∧
    (m 6 = ipprotoUdp → net16 m 46 ≠ 0)

/-- `masquerade_src` and `masquerade_dst`. -/
inductive MasqueradeSide where
  | src
  | dst
  deriving DecidableEq, Repr

def MasqueradeSide.run : MasqueradeSide → TunCtxPrivate → Nat → MemM Unit
  | .src => masqueradeSrc
  | .dst => masqueradeDst

/-- Where the address is that the function replaces. -/
def MasqueradeSide.addr6 : MasqueradeSide → Nat
  | .src => 8
  | .dst => 24

/-- The payload length as `ip6_find_payload` reads it. -/
def swappedLen (m : Mem) : Nat := (m.word16 4).toNat

/-- The word of a segment that is its checksum. -/
def checkWord (m : Mem) : Nat := if m 6 = ipprotoTcp then 8 else 3

/-- The word that the checksum function leaves out. -/
def skippedWord (m : Mem) : Nat := if m 6 = ipprotoTcp then 8 else 4

/-- The length and the words that are added up come to the same as the length and
the words of the segment. -/
def SwappedSumFits (m : Mem) : Prop :=
  (swappedLen m + segTotal m (skippedWord m) 40 (swappedLen m)) % 65535 =
    (net16 m 4 + segTotal m (checkWord m) 40 (net16 m 4)) % 65535

/-- The old checksum fits with the new address. For a valid checksum this says that
both addresses sum up to the same. -/
def OldChecksumFits (side : MasqueradeSide) (ctx : TunCtxPrivate) (m : Mem) : Prop :=
  (segmentSum6 m + byteSum ctx.masquerade6.toList) % 65535 =
      byteSum (m.bytes side.addr6 16) % 65535 ∧
    (m 6 = ipprotoUdp → net16 m 46 ≠ 0)

section ip6

variable {m m' : Mem} {len : Nat}

theorem Ip6Wf.checkWord_lt (h : Ip6Wf m len) : checkWord m < net16 m 4 / 2 := by
  have hupper := h.upper
  unfold checkWord
  split
  next htcp =>
    have hudp : m 6 ≠ ipprotoUdp := htcp.trans_ne ipprotoTcp_ne_udp
    have hlen : 20 ≤ net16 m 4 := by tauto
    omega
  next => omega

theorem Ip6Wf.proto_pos (h : Ip6Wf m len) : 0 < (m 6).toNat := by
  rcases h.upper with ⟨htcp, _⟩ | ⟨hudp, _, _⟩
  · rw [htcp]
    decide
  · rw [hudp]
    decide

/-- The sum of a packet that has its checksum at the place of `checkWord`. -/
theorem segmentSum6_eq (h : Ip6Wf m len) :
    segmentSum6 m = byteSum (m.bytes 8 32) + net16 m 4 + (m 6).toNat +
      segTotal m (checkWord m) 40 (net16 m 4) + net16 m (40 + 2 * checkWord m) := by
  have hle := net16_le m 4
  have hhigh : (BitVec.ofNat 8 (net16 m 4 / 256)).toNat = net16 m 4 / 256 := by
    rw [BitVec.toNat_ofNat, Nat.mod_eq_of_lt (by omega)]
  have hlow : (BitVec.ofNat 8 (net16 m 4)).toNat = net16 m 4 % 256 := BitVec.toNat_ofNat _ 8
  have hzero : (0 : BitVec 8).toNat = 0 := rfl
  unfold segmentSum6 pseudo6
  rw [OnesSum.byteSum_append _ _ (by simp [Mem.length_bytes]),
    OnesSum.byteSum_append _ _ (by simp [Mem.length_bytes]),
    byteSum_segTotal m 40 h.checkWord_lt]
  simp only [OnesSum.byteSum_cons_cons, OnesSum.byteSum_nil, hhigh, hlow, hzero]
  omega

theorem segment6Verifies_iff (h : Ip6Wf m len) :
    Segment6Verifies m ↔ segmentSum6 m % 65535 = 0 ∧ (m 6 = ipprotoUdp → net16 m 46 ≠ 0) := by
  have hpos := h.proto_pos
  have hsum := segmentSum6_eq h
  unfold Segment6Verifies
  rw [OnesSum.internetVerifies_iff]
  show (0 < segmentSum6 m ∧ segmentSum6 m % 65535 = 0) ∧ _ ↔ _
  refine and_congr_left fun _ => and_iff_right ?_
  omega

/-! ## What masquerading does -/

theorem rep_setWidth {sum : BitVec 32} {t : Nat} (h : Rep sum t) :
    Rep ((sum.setWidth 16).setWidth 32) t := by
  have hle : sum.toNat ≤ 65535 := h ▸ OnesSum.wrap_le (by omega) t
  unfold Rep
  rw [BitVec.toNat_setWidth, BitVec.toNat_setWidth, Nat.mod_eq_of_lt (by omega),
    Nat.mod_eq_of_lt (by omega)]
  exact h

/-- Without extension headers the payload is what follows the fixed header. -/
theorem chainEnd_direct (h : Ip6Wf m len) (buffLen : Nat) : chainEnd m buffLen = (m 6, 40#32) := by
  have hext : isExtHeader (m 6) = false := by
    rcases h.upper with ⟨htcp, _⟩ | ⟨hudp, _, _⟩
    · rw [htcp]
      decide
    · rw [hudp]
      decide
  unfold chainEnd
  rw [chainFrom, if_neg (by simp [hext])]
  rfl

theorem chainLen_direct (h : Ip6Wf m len) (buffLen : Nat) :
    chainLen m buffLen = (m.word16 4).setWidth 32 := by
  unfold chainLen
  rw [chainEnd_direct h]
  exact BitVec.add_sub_cancel _ _

/-- The packet with its address replaced. -/
def withAddr6 (side : MasqueradeSide) (ctx : TunCtxPrivate) (m : Mem) : Mem :=
  m.putBytes side.addr6 ctx.masquerade6.toList

theorem withAddr6_of_ne (side : MasqueradeSide) (ctx : TunCtxPrivate) {i : Nat}
    (h : i < 8 ∨ 40 ≤ i) : withAddr6 side ctx m i = m i := by
  apply Mem.putBytes_of_ne
  rw [Vector.length_toList]
  cases side with
  | src =>
    show i < 8 ∨ 8 + 16 ≤ i
    omega
  | dst =>
    show i < 24 ∨ 24 + 16 ≤ i
    omega

/-- What masquerading comes to: the new address, and the checksum function of the
protocol with the swapped length. -/
theorem MasqueradeSide.run_mem (side : MasqueradeSide) {ctx : TunCtxPrivate}
    (huse : ctx.useMasquerade6 = true) (h : Ip6Wf m len) :
    ∃ sum : BitVec 32, Rep sum (byteSum ((withAddr6 side ctx m).bytes 8 32)) ∧
      (side.run ctx len).mem m =
        (ip6CalcChecksum (m 6) (skippedWord m) (2 * checkWord m) sum 40
          ((m.word16 4).setWidth 32)).mem (withAddr6 side ctx m) := by
  have hlen : 0 < len := by
    have hplen := h.plen
    omega
  have hver : ((ipParsePacket (newPacket len len)).val m).ipver = 6 := by
    rw [ipParsePacket_ipver, if_pos (show 0 < (newPacket len len).buffLen from hlen), h.version]
  obtain ⟨hproto, hoffs, hplen⟩ := ipParsePacket_payload6 m _ hver
  rw [chainEnd_direct h] at hproto hoffs
  rw [chainLen_direct h] at hplen
  obtain ⟨addr4, hside⟩ : ∃ addr4, side.run ctx len = masqueradeAt addr4 side.addr6 ctx len := by
    cases side with
    | src => exact ⟨12, rfl⟩
    | dst => exact ⟨16, rfl⟩
  have hrun : (side.run ctx len).mem m =
      (ip6CalcPayloadChecksum ((ipParsePacket (newPacket len len)).val m)).mem
        (withAddr6 side ctx m) := by
    have heq := congrArg (fun r => r.2.1) (masqueradeAt_eq addr4 side.addr6 ctx hlen m)
    rw [hside]
    refine heq.trans ?_
    show (_ >>= _ : MemM Unit).mem m = _
    rw [MemM.mem_bind, ipParsePacket_mem, if_neg (fun h4 => absurd (h.version.symm.trans h4.1)
      (by omega)), if_pos ⟨h.version, huse⟩]
    unfold masquerade6
    rw [MemM.mem_bind, mem_wrBytes]
    rfl
  refine ⟨_, rep_setWidth (ip6CalcCommonPseudoheaderSum_rep (withAddr6 side ctx m)), ?_⟩
  rw [hrun]
  unfold ip6CalcPayloadChecksum skippedWord checkWord
  rw [hproto, hoffs, hplen]
  rcases h.upper with ⟨htcp, _⟩ | ⟨hudp, _, _⟩
  · rw [if_pos htcp, if_pos htcp, if_pos htcp, htcp, MemM.mem_bind, MemM.mem_bind,
      ip6CalcCommonPseudoheaderSum_mem]
    rfl
  · have htcp : m 6 ≠ ipprotoTcp := hudp.trans_ne ipprotoTcp_ne_udp.symm
    rw [if_neg htcp, if_neg htcp, if_neg htcp, if_pos hudp, hudp, MemM.mem_bind, MemM.mem_bind,
      ip6CalcCommonPseudoheaderSum_mem]
    rfl

/-- What masquerading changes: the address, and the checksum from a swapped length
of 40 on. -/
theorem MasqueradeSide.run_stores (side : MasqueradeSide) {ctx : TunCtxPrivate}
    (huse : ctx.useMasquerade6 = true) (h : Ip6Wf m len) :
    (swappedLen m < 40 ∧ (side.run ctx len).mem m = withAddr6 side ctx m) ∨
      (40 ≤ swappedLen m ∧ ∃ c : BitVec 16,
        Fits 65535 (byteSum ((withAddr6 side ctx m).bytes 8 32) + (m 6).toNat + swappedLen m +
          segTotal m (skippedWord m) 40 (swappedLen m)) c.toNat ∧
        (side.run ctx len).mem m =
          (withAddr6 side ctx m).put16 (40 + 2 * checkWord m) (htons c)) := by
  obtain ⟨sum, hrep, hrun⟩ := side.run_mem huse h
  have hlt : swappedLen m < 65536 := BitVec.isLt _
  have hnat : ((m.word16 4).setWidth 32).toNat = swappedLen m := by
    unfold swappedLen at hlt ⊢
    rw [BitVec.toNat_setWidth, Nat.mod_eq_of_lt (by omega)]
  have hint : ((m.word16 4).setWidth 32).toInt = swappedLen m := by
    rw [BitVec.toInt_eq_toNat_of_lt (by omega), hnat]
  by_cases hshort : swappedLen m < 40
  · left
    refine ⟨hshort, ?_⟩
    rw [hrun, ip6CalcChecksum_short _ _ _ _ _ _ (by omega)]
  · right
    have hseg : segTotal (withAddr6 side ctx m) (skippedWord m) 40 (swappedLen m) =
        segTotal m (skippedWord m) 40 (swappedLen m) :=
      segTotal_congr
        (fun i _ _ => net16_congr (withAddr6_of_ne side ctx (by omega))
          (withAddr6_of_ne side ctx (by omega)))
        (fun _ => withAddr6_of_ne side ctx (by omega))
    obtain ⟨c, hfits, hmem⟩ := ip6CalcChecksum_stores (withAddr6 side ctx m) (m 6) (skippedWord m)
      (2 * checkWord m) hrep 40 (show 40 ≤ ((m.word16 4).setWidth 32).toInt by omega)
    rw [hnat, hseg] at hfits
    refine ⟨by omega, c, ?_, hrun.trans hmem⟩
    rw [Nat.div_eq_of_lt hlt, Nat.mod_eq_of_lt hlt, Nat.add_zero] at hfits
    exact hfits

/-! ## Whether it verifies -/

theorem Ip6Wf.of_same (h : Ip6Wf m len) (hhead : ∀ i < 8, m' i = m i)
    (hudp : m 6 = ipprotoUdp → net16 m' 44 = net16 m 44) : Ip6Wf m' len := by
  have hplen : net16 m' 4 = net16 m 4 := net16_congr (hhead 4 (by omega)) (hhead 5 (by omega))
  refine ⟨?_, ?_, ?_⟩
  · rw [hhead 0 (by omega)]
    exact h.version
  · rw [hplen]
    exact h.plen
  · rw [hhead 6 (by omega), hplen]
    refine h.upper.imp_right ?_
    intro ⟨hproto, hlen, hfield⟩
    exact ⟨hproto, hlen, (hudp hproto).trans hfield⟩

theorem checkWord_udp (h : m 6 = ipprotoUdp) : checkWord m = 3 := by
  unfold checkWord
  rw [if_neg (h.trans_ne ipprotoTcp_ne_udp.symm)]

/-- Replacing an address changes the sum of both by the difference. -/
theorem byteSum_withAddr6 (side : MasqueradeSide) (ctx : TunCtxPrivate) (m : Mem) :
    byteSum ((withAddr6 side ctx m).bytes 8 32) + byteSum (m.bytes side.addr6 16) =
      byteSum (m.bytes 8 32) + byteSum ctx.masquerade6.toList := by
  have hsplit : ∀ n : Mem,
      byteSum (n.bytes 8 32) = byteSum (n.bytes 8 16) + byteSum (n.bytes 24 16) := by
    intro n
    rw [show 32 = 16 + 16 from rfl, Mem.bytes_append,
      OnesSum.byteSum_append _ _ (by rw [Mem.length_bytes])]
  have hlen : ctx.masquerade6.toList.length = 16 := Vector.length_toList
  have hput : (withAddr6 side ctx m).bytes side.addr6 16 = ctx.masquerade6.toList := by
    have hbytes := Mem.bytes_putBytes m side.addr6 ctx.masquerade6.toList
    rwa [hlen] at hbytes
  have hkeep : ∀ o, side.addr6 + 16 ≤ o ∨ o + 16 ≤ side.addr6 →
      (withAddr6 side ctx m).bytes o 16 = m.bytes o 16 := by
    intro o ho
    apply Mem.bytes_congr
    intro i hi hi'
    exact Mem.putBytes_of_ne _ _ _ (by omega)
  rw [hsplit, hsplit]
  cases side with
  | src =>
    have hother := hkeep 24 (Or.inl (by decide))
    change (withAddr6 .src ctx m).bytes 8 16 = _ at hput
    show _ + byteSum (m.bytes 8 16) = _
    rw [hput, hother]
    omega
  | dst =>
    have hother := hkeep 8 (Or.inr (by decide))
    change (withAddr6 .dst ctx m).bytes 24 16 = _ at hput
    show _ + byteSum (m.bytes 24 16) = _
    rw [hput, hother]
    omega

/-- The packet with its address replaced and the checksum as it was. -/
theorem withAddr6_verifies_iff (side : MasqueradeSide) (ctx : TunCtxPrivate) (h : Ip6Wf m len) :
    Segment6Verifies (withAddr6 side ctx m) ↔ OldChecksumFits side ctx m := by
  have hkeep : ∀ i, i < 8 ∨ 40 ≤ i → withAddr6 side ctx m i = m i :=
    fun i hi => withAddr6_of_ne side ctx hi
  have hword : ∀ o, 40 ≤ o → net16 (withAddr6 side ctx m) o = net16 m o :=
    fun o ho => net16_congr (hkeep o (by omega)) (hkeep (o + 1) (by omega))
  have hwf := h.of_same (fun i hi => hkeep i (by omega)) fun _ => hword 44 (by omega)
  have hplen : net16 (withAddr6 side ctx m) 4 = net16 m 4 :=
    net16_congr (hkeep 4 (by omega)) (hkeep 5 (by omega))
  have hproto : withAddr6 side ctx m 6 = m 6 := hkeep 6 (by omega)
  have hcheck : checkWord (withAddr6 side ctx m) = checkWord m := by
    unfold checkWord
    rw [hproto]
  have hseg : segTotal (withAddr6 side ctx m) (checkWord m) 40 (net16 m 4) =
      segTotal m (checkWord m) 40 (net16 m 4) :=
    segTotal_congr (fun i _ _ => hword _ (by omega)) (fun _ => hkeep _ (by omega))
  have hsum := segmentSum6_eq h
  have hsum' := segmentSum6_eq hwf
  have haddr := byteSum_withAddr6 side ctx m
  rw [hplen, hproto, hcheck, hseg, hword _ (by omega)] at hsum'
  rw [segment6Verifies_iff hwf, hproto, hword 46 (by omega)]
  unfold OldChecksumFits
  refine and_congr_left fun _ => ?_
  omega

/-- The packet with its address replaced and a checksum that fits some other
total: it verifies exactly if the totals come to the same. -/
theorem withCheck6_verifies_iff (side : MasqueradeSide) (ctx : TunCtxPrivate) (h : Ip6Wf m len)
    {t : Nat} {c : BitVec 16}
    (hfits : Fits 65535 (byteSum ((withAddr6 side ctx m).bytes 8 32) + (m 6).toNat + t) c.toNat) :
    Segment6Verifies ((withAddr6 side ctx m).put16 (40 + 2 * checkWord m) (htons c)) ↔
      t % 65535 = (net16 m 4 + segTotal m (checkWord m) 40 (net16 m 4)) % 65535 := by
  obtain ⟨hpos, _, hmod⟩ := hfits
  have hlt := h.checkWord_lt
  have hput : ∀ i, i ≠ 40 + 2 * checkWord m → i ≠ 40 + 2 * checkWord m + 1 →
      (withAddr6 side ctx m).put16 (40 + 2 * checkWord m) (htons c) i = withAddr6 side ctx m i :=
    fun i h₀ h₁ => Mem.put16_of_ne _ _ _ h₀ h₁
  have hhead : ∀ i < 8,
      (withAddr6 side ctx m).put16 (40 + 2 * checkWord m) (htons c) i = m i := by
    intro i hi
    rw [hput i (by omega) (by omega), withAddr6_of_ne side ctx (by omega)]
  have hwf := h.of_same hhead fun hudp => by
    have hthree := checkWord_udp hudp
    refine net16_congr ?_ ?_
    · rw [hput 44 (by omega) (by omega), withAddr6_of_ne side ctx (by omega)]
    · rw [hput 45 (by omega) (by omega), withAddr6_of_ne side ctx (by omega)]
  have hplen := net16_congr (hhead 4 (by omega)) (hhead 5 (by omega))
  have hproto := hhead 6 (by omega)
  have hcheck : checkWord ((withAddr6 side ctx m).put16 (40 + 2 * checkWord m) (htons c)) =
      checkWord m := by
    unfold checkWord at hproto ⊢
    rw [hproto]
  have hfield := net16_put16 (withAddr6 side ctx m) (40 + 2 * checkWord m) c
  have haddr : ((withAddr6 side ctx m).put16 (40 + 2 * checkWord m) (htons c)).bytes 8 32 =
      (withAddr6 side ctx m).bytes 8 32 :=
    Mem.bytes_congr fun i _ hi => hput i (by omega) (by omega)
  have hseg : segTotal ((withAddr6 side ctx m).put16 (40 + 2 * checkWord m) (htons c))
      (checkWord m) 40 (net16 m 4) = segTotal m (checkWord m) 40 (net16 m 4) := by
    rw [segTotal_put16 _ (by omega)]
    exact segTotal_congr
      (fun i _ _ => net16_congr (withAddr6_of_ne side ctx (by omega))
        (withAddr6_of_ne side ctx (by omega)))
      (fun _ => withAddr6_of_ne side ctx (by omega))
  have hsum := segmentSum6_eq hwf
  rw [hplen, hproto, hcheck, hseg, hfield, haddr] at hsum
  have hudp : m 6 = ipprotoUdp →
      net16 ((withAddr6 side ctx m).put16 (40 + 2 * checkWord m) (htons c)) 46 ≠ 0 := by
    intro hudp
    rw [checkWord_udp hudp] at hfield ⊢
    rw [hfield]
    omega
  rw [segment6Verifies_iff hwf, hproto, and_iff_left hudp]
  omega

/-- After masquerading an IPv6 packet its TCP or UDP checksum is valid exactly if
the swapped payload length is 40 or more and the words that are added up for it
come to the same as those of the segment, or it is below 40 and the old checksum
fits the new address as well. -/
theorem masquerade6_verifies_iff (side : MasqueradeSide) (ctx : TunCtxPrivate)
    (huse : ctx.useMasquerade6 = true) (h : Ip6Wf m len) :
    Segment6Verifies ((side.run ctx len).mem m) ↔
      (40 ≤ swappedLen m ∧ SwappedSumFits m) ∨
        (swappedLen m < 40 ∧ OldChecksumFits side ctx m) := by
  rcases side.run_stores huse h with ⟨hshort, hmem⟩ | ⟨hlong, c, hfits, hmem⟩
  · have hnot : ¬ 40 ≤ swappedLen m := by omega
    rw [hmem, withAddr6_verifies_iff side ctx h]
    simp only [hnot, hshort, true_and, false_and, false_or]
  · have hnot : ¬ swappedLen m < 40 := by omega
    rw [Nat.add_assoc _ (swappedLen m)] at hfits
    rw [hmem, withCheck6_verifies_iff side ctx h hfits]
    unfold SwappedSumFits
    simp only [hnot, hlong, true_and, false_and, or_false]

end ip6

/-- A tunnel that masquerades as fd00::1. -/
def masquerading6Ctx : TunCtxPrivate :=
  ⟨Vector.replicate 4 0, Vector.replicate 4 0, 0, false,
    #v[0xfd, 0, 0, 0, 0, 0, 0, 0, 0, 0, 0, 0, 0, 0, 0, 1], true⟩

/-- A TCP packet without data from fd00::2 to fd00::3, with a valid checksum. -/
def exampleTcp6 : Mem :=
  Mem.putBytes (fun _ => 0) 0
    [0x60, 0, 0, 0, 0, 20, 6, 64,
      0xfd, 0, 0, 0, 0, 0, 0, 0, 0, 0, 0, 0, 0, 0, 0, 2,
      0xfd, 0, 0, 0, 0, 0, 0, 0, 0, 0, 0, 0, 0, 0, 0, 3,
      4, 0, 0, 80, 0, 0, 0, 1, 0, 0, 0, 0, 0x50, 0x10, 16, 0, 0xa1, 0x7d, 0, 0]

theorem exampleTcp6_wf : Ip6Wf exampleTcp6 60 :=
  ⟨by decide, by decide, Or.inl ⟨by decide, by decide⟩⟩

theorem masquerade6_verifies_iff_example :
    Segment6Verifies ((MasqueradeSide.src.run masquerading6Ctx 60).mem exampleTcp6) ↔
      (40 ≤ swappedLen exampleTcp6 ∧ SwappedSumFits exampleTcp6) ∨
        (swappedLen exampleTcp6 < 40 ∧ OldChecksumFits .src masquerading6Ctx exampleTcp6) :=
  masquerade6_verifies_iff .src masquerading6Ctx rfl exampleTcp6_wf

/-- Nothing but zeros lies behind the example. -/
theorem byteSum_exampleTcp6 {o : Nat} (ho : 60 ≤ o) (n : Nat) :
    byteSum (exampleTcp6.bytes o (2 * n)) = 0 := by
  induction n generalizing o with
  | zero => rfl
  | succ n ih =>
    have hzero : ∀ i, 60 ≤ i → exampleTcp6 i = 0 :=
      fun i hi => Mem.putBytes_of_ne _ _ _ (Or.inr (by simpa using hi))
    rw [Nat.mul_succ, byteSum_bytes_succ, ih (by omega)]
    unfold net16
    rw [hzero o ho, hzero (o + 1) (by omega)]
    rfl

/-- The packet verifies when it comes, and not when it leaves masqueraded: its
length 20 is taken for 5120. -/
theorem masquerade6_swapped_length :
    Ip6Wf exampleTcp6 60 ∧ masquerading6Ctx.useMasquerade6 = true ∧ Segment6Verifies exampleTcp6 ∧
      ¬ Segment6Verifies ((MasqueradeSide.src.run masquerading6Ctx 60).mem exampleTcp6) := by
  have hlen : swappedLen exampleTcp6 = 5120 := by decide
  have hplen : net16 exampleTcp6 4 = 20 := by decide
  have hcheck : checkWord exampleTcp6 = 8 := by decide
  have hskip : skippedWord exampleTcp6 = 8 := by decide
  have htail := byteSum_exampleTcp6 le_rfl 2550
  have hsum := byteSum_segTotal exampleTcp6 40 (show 8 < 20 / 2 by omega)
  have hsum' := byteSum_segTotal exampleTcp6 40 (show 8 < 5120 / 2 by omega)
  have hbytes : exampleTcp6.bytes 40 5120 = exampleTcp6.bytes 40 20 ++
      exampleTcp6.bytes 60 (2 * 2550) := Mem.bytes_append exampleTcp6 40 20 5100
  rw [hbytes, OnesSum.byteSum_append _ _ (by rw [Mem.length_bytes]), htail] at hsum'
  have huse : masquerading6Ctx.useMasquerade6 = true := rfl
  refine ⟨exampleTcp6_wf, huse, ?_, ?_⟩
  · rw [segment6Verifies_iff exampleTcp6_wf]
    decide
  · rcases MasqueradeSide.src.run_stores huse exampleTcp6_wf with
      ⟨hshort, _⟩ | ⟨_, c, hfits, hmem⟩
    · omega
    · rw [Nat.add_assoc _ (swappedLen _)] at hfits
      rw [hmem, withCheck6_verifies_iff .src masquerading6Ctx exampleTcp6_wf hfits, hlen, hplen,
        hcheck, hskip]
      omega

end ConfProfile
