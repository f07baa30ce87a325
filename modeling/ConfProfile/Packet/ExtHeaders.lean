import ConfProfile.Packet.Valid

/-!
# The extension headers of an IPv6 packet

RFC 8200 gives the length of an extension header in units of 8 bytes, without the first
8, counted from the start of the header (`HeaderChain`). `ip6_find_payload` goes on from
the length byte by as many bytes as it says, and takes what it adds to `payload_offs` from
the byte that it has come to (`StrayChain`).

Where there is no extension header this makes no difference. Behind one, the offset is
right only by chance, and behind a second one the protocol as well
(`find_payload_iff`, `find_payload_single_iff`).
-/

namespace ConfProfile

open ByteMem

/-- `HeaderChain m proto pos upper offs`: from the header `proto` at `pos` the chain leads to
the upper-layer header `upper` at `offs`. -/
inductive HeaderChain (m : Mem) : BitVec 8 → Nat → BitVec 8 → Nat → Prop
  | upper {proto : BitVec 8} {pos : Nat} (h : isExtHeader proto = false) :
      HeaderChain m proto pos proto pos
  | ext {proto upper : BitVec 8} {pos offs : Nat} (h : isExtHeader proto = true)
      (rest : HeaderChain m (m pos) (pos + ((m (pos + 1)).toNat + 1) * 8) upper offs) :
      HeaderChain m proto pos upper offs

/-- An IPv6 packet of `len` bytes with its upper-layer header `upper` at `offs`. -/
structure Ip6Chain (m : Mem) (len : Nat) (upper : BitVec 8) (offs : Nat) : Prop where
  version : ipverOf (m 0) = 6
  plen : net16 m 4 + ip6HeaderSize = len
  chain : HeaderChain m (m 6) ip6HeaderSize upper offs
  fits : offs ≤ len

/-- `StrayChain m limit proto pos upper size`: a chain whose headers are 1 + Hdr Ext Len bytes
long and begin two bytes in front of `limit` or earlier, which leads from `proto` at `pos` to
`upper`. `size` has for each of them 1 and the byte behind it. -/
inductive StrayChain (m : Mem) (limit : Nat) : BitVec 8 → Nat → BitVec 8 → Nat → Prop
  | upper {proto : BitVec 8} {pos : Nat} (h : isExtHeader proto = false) :
      StrayChain m limit proto pos proto 0
  | ext {proto upper : BitVec 8} {pos size : Nat} (h : isExtHeader proto = true)
      (hspace : pos + 2 < limit)
      (rest : StrayChain m limit (m pos) (pos + 1 + (m (pos + 1)).toNat) upper size) :
      StrayChain m limit proto pos upper (1 + (m (pos + 1 + (m (pos + 1)).toNat)).toNat + size)

/-- The packet has a stray chain as well, to the same header and of the same size as a `uint32_t`. -/
def Coincides (m : Mem) (limit : Nat) (upper : BitVec 8) (offs : Nat) : Prop :=
  ∃ size, StrayChain m limit (m 6) ip6HeaderSize upper size ∧
    (ip6HeaderSize + size) % 2 ^ 32 = offs

/-- What the parser found is the upper-layer header. -/
def OcpaIpPacket.Finds (p : OcpaIpPacket) (upper : BitVec 8) (offs : Nat) : Prop :=
  p.payloadProto = upper ∧ p.payloadOffs.toNat = offs

section chains

variable {m : Mem} {limit len : Nat} {proto upper : BitVec 8} {pos offs size : Nat}

theorem HeaderChain.le (h : HeaderChain m proto pos upper offs) : pos ≤ offs := by
  induction h with
  | upper => exact le_rfl
  | ext _ _ ih => omega

theorem HeaderChain.of_upper (h : HeaderChain m proto pos upper offs)
    (hproto : isExtHeader proto = false) : upper = proto ∧ offs = pos := by
  cases h with
  | upper => exact ⟨rfl, rfl⟩
  | ext hext => exact absurd (hproto.symm.trans hext) Bool.false_ne_true

/-- A stray chain leads to one header. -/
theorem StrayChain.unique {upper' : BitVec 8} {size' : Nat}
    (h : StrayChain m limit proto pos upper size)
    (h' : StrayChain m limit proto pos upper' size') : upper = upper' ∧ size = size' := by
  induction h generalizing upper' size' with
  | upper hproto =>
    cases h' with
    | upper => exact ⟨rfl, rfl⟩
    | ext hext => exact absurd (hproto.symm.trans hext) Bool.false_ne_true
  | ext hext _ _ ih =>
    cases h' with
    | upper hproto => exact absurd (hproto.symm.trans hext) Bool.false_ne_true
    | ext _ _ hrest =>
      obtain ⟨hupper, hsize⟩ := ih hrest
      exact ⟨hupper, by rw [hsize]⟩

/-- The walk of `ip6_find_payload` goes along a stray chain, or comes to the end of the buffer
in a header. -/
theorem chainFrom_cases (m : Mem) (limit : Nat) : ∀ (fuel : Nat) (proto : BitVec 8) (pos : Nat)
    (offs : BitVec 32), 0 < fuel → limit ≤ pos + fuel →
    (∃ upper size, StrayChain m limit proto pos upper size ∧
      chainFrom m limit fuel proto pos offs = (upper, offs + BitVec.ofNat 32 size)) ∨
    (∀ upper size, ¬ StrayChain m limit proto pos upper size) ∧
      chainFrom m limit fuel proto pos offs = (ipprotoNone, 0) := by
  intro fuel
  induction fuel with
  | zero =>
    intro proto pos offs hfuel
    omega
  | succ fuel ih =>
    intro proto pos offs _ hlimit
    rw [chainFrom]
    cases hext : isExtHeader proto with
    | false =>
      rw [if_neg Bool.false_ne_true]
      exact Or.inl ⟨proto, 0, .upper hext, by rw [BitVec.add_zero]⟩
    | true =>
      rw [if_pos rfl]
      by_cases hspace : pos + 2 < limit
      · rw [if_pos hspace]
        dsimp only
        -- the walk reads the size from the byte it has come to
        rcases ih (m pos) (pos + 1 + (m (pos + 1)).toNat)
            (offs + 1 + (m (pos + 1 + (m (pos + 1)).toNat)).setWidth 32) (by omega) (by omega) with
          ⟨upper, size, hrest, heq⟩ | ⟨hnone, heq⟩
        · refine Or.inl ⟨upper, _, .ext hext hspace hrest, heq.trans ?_⟩
          rw [BitVec.ofNat_add, BitVec.ofNat_add, ← BitVec.add_assoc, ← BitVec.add_assoc,
            BitVec.ofNat_toNat]
          rfl
        · refine Or.inr ⟨fun upper size h => ?_, heq⟩
          cases h with
          | upper hproto => exact absurd (hproto.symm.trans hext) Bool.false_ne_true
          | ext _ _ hrest => exact hnone _ _ hrest
      -- the buffer ends in the header: the walk gives up with protocol none
      · rw [if_neg hspace]
        refine Or.inr ⟨fun upper size h => ?_, rfl⟩
        cases h with
        | upper hproto => exact absurd (hproto.symm.trans hext) Bool.false_ne_true
        | ext _ hspace' => exact hspace hspace'

/-- Behind the only extension header the walk has the right protocol, and adds up the byte
that is Hdr Ext Len bytes behind the length byte. -/
theorem strayChain_single_iff (upper : BitVec 8) (size : Nat) (hext : isExtHeader proto = true)
    (hupper : isExtHeader (m pos) = false) (hspace : pos + 2 < limit) :
    StrayChain m limit proto pos upper size ↔
      upper = m pos ∧ size = 1 + (m (pos + 1 + (m (pos + 1)).toNat)).toNat := by
  have hchain : StrayChain m limit proto pos (m pos)
      (1 + (m (pos + 1 + (m (pos + 1)).toNat)).toNat + 0) := .ext hext hspace (.upper hupper)
  constructor
  · intro h
    obtain ⟨rfl, rfl⟩ := h.unique hchain
    exact ⟨rfl, rfl⟩
  · rintro ⟨rfl, rfl⟩
    exact hchain

end chains

/-! ## What the parser finds -/

section finds

variable {m : Mem} {len offs : Nat} {upper : BitVec 8}

theorem Ip6Chain.le (h : Ip6Chain m len upper offs) : ip6HeaderSize ≤ offs := h.chain.le

theorem Ip6Chain.lt (h : Ip6Chain m len upper offs) : offs < 2 ^ 32 := by
  have hplen := h.plen
  have hword := net16_le m 4
  have hfits := h.fits
  unfold ip6HeaderSize at hplen
  omega

/-- Where there is a chain, a coincidence is what the walk needs. -/
theorem chainEnd_iff (h : Ip6Chain m len upper offs) (limit : Nat) :
    (chainEnd m limit).1 = upper ∧ (chainEnd m limit).2.toNat = offs ↔
      Coincides m limit upper offs := by
  unfold chainEnd
  rcases chainFrom_cases m limit (limit + 1) (m 6) ip6HeaderSize
      (BitVec.ofNat 32 ip6HeaderSize) (by omega) (by omega) with
    ⟨upper', size, hchain, heq⟩ | ⟨hnone, heq⟩
  · rw [heq, ← BitVec.ofNat_add, BitVec.toNat_ofNat]
    constructor
    · rintro ⟨rfl, hoffs⟩
      exact ⟨size, hchain, hoffs⟩
    · rintro ⟨size', hchain', hoffs⟩
      obtain ⟨rfl, rfl⟩ := hchain.unique hchain'
      exact ⟨rfl, hoffs⟩
  · rw [heq]
    refine iff_of_false ?_ fun hcoincides => ?_
    -- 0 is never the offset of a payload
    · rintro ⟨-, hoffs⟩
      have hle := h.le
      rw [← hoffs] at hle
      exact absurd hle (by decide)
    · obtain ⟨size, hchain, -⟩ := hcoincides
      exact hnone _ _ hchain

/-- Both parsers take the end of the walk. -/
theorem ip6FindPayload_finds (p : OcpaIpPacket) (h : Ip6Chain m len upper offs) :
    ((ip6FindPayload p).val m).Finds upper offs ↔ Coincides m p.buffLen upper offs := by
  obtain ⟨hproto, hoffs, -⟩ := ip6FindPayload_payload m p
  unfold OcpaIpPacket.Finds
  rw [hproto, hoffs]
  exact chainEnd_iff h p.buffLen

theorem ipParsePacket_finds (p : OcpaIpPacket) (h : Ip6Chain m len upper offs)
    (hbuff : len ≤ p.buffLen) :
    ((ipParsePacket p).val m).Finds upper offs ↔ Coincides m p.buffLen upper offs := by
  have hpos : 0 < p.buffLen := by
    have hle := h.le
    have hfits := h.fits
    unfold ip6HeaderSize at hle
    omega
  have hver : ((ipParsePacket p).val m).ipver = 6 := by
    rw [ipParsePacket_ipver, if_pos hpos, h.version]
  obtain ⟨hproto, hoffs, -⟩ := ipParsePacket_payload6 m p hver
  unfold OcpaIpPacket.Finds
  rw [hproto, hoffs]
  exact chainEnd_iff h p.buffLen

/-- **What `ip6_find_payload` finds**: the upper-layer header exactly if there is no extension
header, or if the packet has a stray chain that comes to the same. -/
theorem find_payload_iff (p : OcpaIpPacket) (h : Ip6Chain m len upper offs)
    (hbuff : len ≤ p.buffLen) :
    (((ip6FindPayload p).val m).Finds upper offs ↔
      isExtHeader (m 6) = false ∨ Coincides m p.buffLen upper offs) ∧
    (((ipParsePacket p).val m).Finds upper offs ↔
      isExtHeader (m 6) = false ∨ Coincides m p.buffLen upper offs) := by
  have hdirect : isExtHeader (m 6) = false → Coincides m p.buffLen upper offs := by
    intro hproto
    obtain ⟨rfl, rfl⟩ := h.chain.of_upper hproto
    exact ⟨0, .upper hproto, rfl⟩
  rw [ip6FindPayload_finds p h, ipParsePacket_finds p h hbuff, or_iff_right_of_imp hdirect]
  exact ⟨Iff.rfl, Iff.rfl⟩

/-- With one extension header the protocol is right, and the offset is if one byte in the
header happens to be the rest of its length. -/
theorem find_payload_single_iff (p : OcpaIpPacket) (h : Ip6Chain m len upper offs)
    (hbuff : len ≤ p.buffLen) (hext : isExtHeader (m 6) = true)
    (hupper : isExtHeader (m 40) = false) :
    ((ip6FindPayload p).val m).Finds upper offs ↔
      (m (41 + (m 41).toNat)).toNat = 8 * (m 41).toNat + 7 := by
  have hchain := h.chain
  have hlt := h.lt
  have hfits := h.fits
  unfold ip6HeaderSize at hchain
  cases hchain with
  | upper hproto => exact absurd (hproto.symm.trans hext) Bool.false_ne_true
  | ext _ hrest =>
    obtain ⟨rfl, hoffs⟩ := hrest.of_upper hupper
    obtain rfl : offs = 40 + ((m 41).toNat + 1) * 8 := hoffs
    have hbyte := (m (41 + (m 41).toNat)).isLt
    have hspace : ip6HeaderSize + 2 < p.buffLen := by
      unfold ip6HeaderSize
      omega
    have hsingle (size : Nat) : StrayChain m p.buffLen (m 6) ip6HeaderSize (m 40) size ↔
        m 40 = m 40 ∧ size = 1 + (m (41 + (m 41).toNat)).toNat :=
      strayChain_single_iff (m 40) size hext hupper hspace
    rw [ip6FindPayload_finds p h, Coincides]
    simp only [hsingle]
    constructor
    · rintro ⟨size, ⟨-, rfl⟩, hoffs⟩
      unfold ip6HeaderSize at hoffs
      omega
    · intro hbyte'
      refine ⟨_, ⟨trivial, rfl⟩, ?_⟩
      unfold ip6HeaderSize
      omega

end finds

/-- A UDP packet with a hop-by-hop header of 8 bytes, filled by a PadN option. -/
def exampleHopByHop : Mem :=
  Mem.putBytes (fun _ => 0) 0
    [0x60, 0, 0, 0, 0, 16, 0, 64,
      0xfd, 0, 0, 0, 0, 0, 0, 0, 0, 0, 0, 0, 0, 0, 0, 2,
      0xfd, 0, 0, 0, 0, 0, 0, 0, 0, 0, 0, 0, 0, 0, 0, 3,
      17, 0, 1, 4, 0, 0, 0, 0, 0x10, 0, 0, 53, 0, 8, 0, 0]

theorem exampleHopByHop_chain : Ip6Chain exampleHopByHop 56 ipprotoUdp 48 where
  version := by decide
  plen := by decide
  chain := .ext (by decide) (.upper (by decide))
  fits := by decide

theorem find_payload_iff_example :
    (((ip6FindPayload (newPacket 56 56)).val exampleHopByHop).Finds ipprotoUdp 48 ↔
      isExtHeader (exampleHopByHop 6) = false ∨ Coincides exampleHopByHop 56 ipprotoUdp 48) ∧
    (((ipParsePacket (newPacket 56 56)).val exampleHopByHop).Finds ipprotoUdp 48 ↔
      isExtHeader (exampleHopByHop 6) = false ∨ Coincides exampleHopByHop 56 ipprotoUdp 48) :=
  find_payload_iff (newPacket 56 56) exampleHopByHop_chain le_rfl

/-- The UDP header is at 48, and the parser says 41. -/
theorem find_payload_counterexample :
    Ip6Chain exampleHopByHop 56 ipprotoUdp 48 ∧
      ((ip6FindPayload (newPacket 56 56)).val exampleHopByHop).payloadOffs = 41 ∧
      ¬ ((ip6FindPayload (newPacket 56 56)).val exampleHopByHop).Finds ipprotoUdp 48 := by
  obtain ⟨-, hoffs, -⟩ := ip6FindPayload_payload exampleHopByHop (newPacket 56 56)
  have hend : (chainEnd exampleHopByHop 56).2 = 41 := by decide
  have h41 : ((ip6FindPayload (newPacket 56 56)).val exampleHopByHop).payloadOffs = 41 :=
    hoffs.trans hend
  refine ⟨exampleHopByHop_chain, h41, fun h => ?_⟩
  have h48 := h.2
  rw [h41] at h48
  exact absurd h48 (by decide)

end ConfProfile
