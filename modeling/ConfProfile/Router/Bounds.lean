import ConfProfile.Packet.Bounds
import ConfProfile.Router.DevTun

/-!
# Which packets are handled inside their length

The functions that handle a packet take offsets from its header fields: the
header length, the total length, the payload length and the lengths in the
extension headers. `PacketFn.Fits` says for each function what these fields have
to be, and `packet_inside_iff` that the accesses stay inside the packet exactly
then. Only the header checksum tests the fields it uses.
-/

namespace ConfProfile

open ByteMem

/-! ## Masquerading -/

/-- What the checksum functions for the payload of an IPv4 packet rely on. -/
structure Payload4Fits (n : Nat) (m : Mem) : Prop where
  tcp : m 9 = ipprotoTcp → n < 40 ∨ segOffs m + 18 ≤ n ∧ segOffs m + segLen m ≤ n
  udp : m 9 = ipprotoUdp → n < 40 ∨ segOffs m + 8 ≤ n

/-- What the checksum functions for the payload of an IPv6 packet rely on. -/
structure Payload6Fits (n : Nat) (m : Mem) : Prop where
  header : 40 ≤ n
  payload : (chainLen m n).toInt < 40 ∨ (chainEnd m n).2.toNat + (chainLen m n).toNat ≤ n

/-- What `masquerade_src` and `masquerade_dst` rely on in a packet of `n` bytes. -/
structure MasqueradeFits (addr4 addr6 : Nat) (ctx : TunCtxPrivate) (n : Nat) (m : Mem) :
    Prop where
  parse : ParseFits n m n
  ip4 : ipverOf (m 0) = 4 → ctx.useMasquerade4 = true → addr4 + 4 ≤ n ∧ Payload4Fits n m
  ip6 : ipverOf (m 0) = 6 → ctx.useMasquerade6 = true → addr6 + 16 ≤ n ∧
    ((chainEnd m n).1 = ipprotoTcp ∨ (chainEnd m n).1 = ipprotoUdp → Payload6Fits n m)

theorem ip4CalcChecksums_inside (n : Nat) (m : Mem) :
    Inside n (ip4CalcChecksums (m 9) n) m ↔ Payload4Fits n m := by
  have hkeep : ∀ i, i ≠ 10 → i ≠ 11 → (ip4CalcIpChecksum n).mem m i = m i :=
    fun i h₀ h₁ => ip4CalcIpChecksum_of_ne m n h₀ h₁
  have hoffs : segOffs ((ip4CalcIpChecksum n).mem m) = segOffs m :=
    segOffs_congr (hkeep 0 (by omega) (by omega))
  have hlen : segLen ((ip4CalcIpChecksum n).mem m) = segLen m :=
    segLen_congr (hkeep 0 (by omega) (by omega)) (hkeep 2 (by omega) (by omega))
      (hkeep 3 (by omega) (by omega))
  have htcp := ip4CalcTcpChecksum_inside n ((ip4CalcIpChecksum n).mem m) n le_rfl
  have hudp := ip4CalcUdpChecksum_inside n ((ip4CalcIpChecksum n).mem m) n le_rfl
  rw [hoffs] at htcp hudp
  rw [hlen] at htcp
  unfold ip4CalcChecksums ip4CalcPayloadChecksum
  rw [inside_bind, inside_ite, inside_ite]
  refine ⟨?_, ?_⟩
  · rintro ⟨_, h⟩
    refine ⟨?_, ?_⟩
    · intro hproto
      rw [if_pos hproto, inside_bind, htcp] at h
      exact h.1
    · intro hproto
      rw [if_neg (hproto.trans_ne ipprotoTcp_ne_udp.symm), if_pos hproto, inside_bind, hudp] at h
      exact h.1
  · intro h
    refine ⟨ip4CalcIpChecksum_inside n m n le_rfl, ?_⟩
    split
    next hproto => exact (inside_bind _ _ _ _).mpr ⟨htcp.mpr (h.tcp hproto), inside_pure _ _ _⟩
    next =>
      split
      next hproto => exact (inside_bind _ _ _ _).mpr ⟨hudp.mpr (h.udp hproto), inside_pure _ _ _⟩
      next => exact inside_pure _ _ _

theorem payload4Fits_congr {n : Nat} {m m' : Mem} (h₀ : m 0 = m' 0) (h₂ : m 2 = m' 2)
    (h₃ : m 3 = m' 3) (h₉ : m 9 = m' 9) : Payload4Fits n m ↔ Payload4Fits n m' := by
  have hoffs := segOffs_congr h₀
  have hlen := segLen_congr h₀ h₂ h₃
  refine ⟨fun h => ⟨?_, ?_⟩, fun h => ⟨?_, ?_⟩⟩
  · rw [← h₉, ← hoffs, ← hlen]; exact h.tcp
  · rw [← h₉, ← hoffs]; exact h.udp
  · rw [h₉, hoffs, hlen]; exact h.tcp
  · rw [h₉, hoffs]; exact h.udp

theorem masquerade4_inside {addr4 : Nat} (haddr : 12 ≤ addr4) (ctx : TunCtxPrivate) (n : Nat)
    (m : Mem) :
    Inside n (masquerade4 addr4 ctx (m 9) n) m ↔ addr4 + 4 ≤ n ∧ Payload4Fits n m := by
  have hkeep : ∀ i, i < 12 → m.put32 addr4 (htonl ctx.masquerade4) i = m i :=
    fun i hi => Mem.put32_of_ne m addr4 _ (Or.inl (by omega))
  have hsum := ip4CalcChecksums_inside n (m.put32 addr4 (htonl ctx.masquerade4))
  rw [hkeep 9 (by omega), payload4Fits_congr (hkeep 0 (by omega)) (hkeep 2 (by omega))
    (hkeep 3 (by omega)) (hkeep 9 (by omega))] at hsum
  unfold masquerade4
  rw [inside_bind, inside_wr32, mem_wr32, hsum]
  exact and_congr_left' Nat.lt_iff_add_one_le

theorem ip6CalcPayloadChecksum_inside (n : Nat) (m : Mem) (packet : OcpaIpPacket) :
    Inside n (ip6CalcPayloadChecksum packet) m ↔
      (packet.payloadProto = ipprotoTcp ∨ packet.payloadProto = ipprotoUdp →
        40 ≤ n ∧ (packet.payloadLen.toInt < 40 ∨
          packet.payloadOffs.toNat + packet.payloadLen.toNat ≤ n)) := by
  unfold ip6CalcPayloadChecksum ip6CalcTcpChecksum ip6CalcUdpChecksum
  split
  next htcp =>
    rw [inside_bind, ip6CalcCommonPseudoheaderSum_inside, ip6CalcCommonPseudoheaderSum_mem,
      inside_bind, ip6CalcChecksum_inside n m _ (by omega) (by omega)]
    simp [htcp]
  next htcp =>
    split
    next hudp =>
      rw [inside_bind, ip6CalcCommonPseudoheaderSum_inside, ip6CalcCommonPseudoheaderSum_mem,
        inside_bind, ip6CalcChecksum_inside n m _ (by omega) (by omega)]
      simp [hudp]
    next hudp => simp [htcp, hudp]

/-- `masquerade_src` and `masquerade_dst` stay inside a packet exactly if its
fields fit. -/
theorem masqueradeAt_inside {addr4 addr6 : Nat} (haddr : 12 ≤ addr4) (ctx : TunCtxPrivate)
    {n : Nat} (h : 0 < n) (m : Mem) :
    Inside n (masqueradeAt addr4 addr6 ctx n) m ↔ MasqueradeFits addr4 addr6 ctx n m := by
  have hparse := ipParsePacket_inside n m (newPacket n n)
  have hlen : (newPacket n n).buffLen = n := rfl
  rw [hlen] at hparse
  rw [inside_congr (masqueradeAt_eq addr4 addr6 ctx h m), inside_bind, hparse, ipParsePacket_mem]
  by_cases h4 : ipverOf (m 0) = 4 ∧ ctx.useMasquerade4 = true
  · rw [if_pos h4, masquerade4_inside haddr]
    refine ⟨fun hin => ⟨hin.1 h, fun _ _ => hin.2, fun h6 => ?_⟩,
      fun hfit => ⟨fun _ => hfit.parse, hfit.ip4 h4.1 h4.2⟩⟩
    exact absurd (h4.1.symm.trans h6) (by omega)
  · rw [if_neg h4]
    by_cases h6 : ipverOf (m 0) = 6 ∧ ctx.useMasquerade6 = true
    · have hver := ipParsePacket_ipver m (newPacket n n)
      rw [if_pos (show 0 < (newPacket n n).buffLen from h)] at hver
      obtain ⟨hproto, hoffs, hplen⟩ := ipParsePacket_payload6 m (newPacket n n) (hver.trans h6.1)
      have hfits : (40 ≤ n ∧ ((chainLen m n).toInt < 40 ∨
          (chainEnd m n).2.toNat + (chainLen m n).toNat ≤ n)) ↔ Payload6Fits n m :=
        ⟨fun hf => ⟨hf.1, hf.2⟩, fun hf => ⟨hf.header, hf.payload⟩⟩
      rw [if_pos h6]
      unfold masquerade6
      rw [inside_bind, inside_wrBytes _ _ _ _ (by simp), ip6CalcPayloadChecksum_inside, hproto,
        hoffs, hplen, hlen, hfits, Vector.length_toList]
      refine ⟨fun hin => ⟨hin.1 h, fun h' hu => absurd ⟨h', hu⟩ h4, fun _ _ => hin.2⟩,
        fun hfit => ⟨fun _ => hfit.parse, hfit.ip6 h6.1 h6.2⟩⟩
    · rw [if_neg h6]
      refine ⟨fun hin => ⟨hin.1 h, fun h' hu => absurd ⟨h', hu⟩ h4,
          fun h' hu => absurd ⟨h', hu⟩ h6⟩,
        fun hfit => ⟨fun _ => hfit.parse, inside_pure _ _ _⟩⟩

/-! ## `send4` -/

/-- `send4` up to the call of the tunnel's `send`, and with a `send` that leaves
the buffer alone. -/
theorem send4Buff_inside (s : Router) (ctx : TunPtr → TunCtxPrivate) (result : Int)
    (p : OcpaIpPacket) (m : Mem) :
    Inside p.pktLen (send4Buff s ⟨ctx, fun _ _ => pure result⟩ p) m ↔
      20 ≤ p.pktLen ∧ ∀ t, tunFor s (addr4 m 16) = some t →
        MasqueradeFits 12 8 (ctx t) p.pktLen m := by
  unfold send4Buff
  rw [inside_bind, inside_rd32, mem_rd32, val_rd32, ntohl_word32]
  cases htun : tunFor s (addr4 m 16) with
  | none => simp only [inside_pure, and_true, reduceCtorEq, false_implies, implies_true]; omega
  | some t =>
    have hfits : ∀ h : 20 ≤ p.pktLen, Inside p.pktLen (masqueradeSrc (ctx t) p.pktLen) m ↔
        MasqueradeFits 12 8 (ctx t) p.pktLen m :=
      fun h => masqueradeAt_inside (by omega) (ctx t) (by omega) m
    simp only [inside_bind, inside_pure, and_true, Option.some.injEq, forall_eq']
    refine ⟨?_, ?_⟩
    · rintro ⟨h20, hin⟩
      exact ⟨by omega, (hfits (by omega)).mp hin⟩
    · rintro ⟨h20, hfit⟩
      exact ⟨by omega, (hfits h20).mpr hfit⟩

/-! ## All of them -/

/-- The functions that handle a packet, with their arguments. -/
inductive PacketFn where
  | ipParsePacket (p : OcpaIpPacket)
  | ip6FindPayload (p : OcpaIpPacket)
  | ip4CalcIpChecksum (len : Nat)
  | ip4CalcTcpChecksum (len : Nat)
  | ip4CalcUdpChecksum (len : Nat)
  | ip4CalcPseudoheaderSum (len : Nat)
  | ip6CalcTcpChecksum (commonSum : BitVec 32) (len : BitVec 32)
  | ip6CalcUdpChecksum (commonSum : BitVec 32) (len : BitVec 32)
  | ip6CalcCommonPseudoheaderSum (len : Nat)
  | ip6CalcPseudoheaderSum (len : Nat) (proto : BitVec 8) (pktlen : BitVec 32)
  | masqueradeSrc (ctx : TunCtxPrivate) (len : Nat)
  | masqueradeDst (ctx : TunCtxPrivate) (len : Nat)
  | send4 (s : Router) (ctx : TunPtr → TunCtxPrivate) (result : Int) (p : OcpaIpPacket)

/-- The length of the packet that the function is given. -/
def PacketFn.packetLen : PacketFn → Nat
  | .ipParsePacket p => p.pktLen
  | .ip6FindPayload p => p.pktLen
  | .ip4CalcIpChecksum len => len
  | .ip4CalcTcpChecksum len => len
  | .ip4CalcUdpChecksum len => len
  | .ip4CalcPseudoheaderSum len => len
  | .ip6CalcTcpChecksum _ len => len.toNat
  | .ip6CalcUdpChecksum _ len => len.toNat
  | .ip6CalcCommonPseudoheaderSum len => len
  | .ip6CalcPseudoheaderSum len _ _ => len
  | .masqueradeSrc _ len => len
  | .masqueradeDst _ len => len
  | .send4 _ _ _ p => p.pktLen

/-- The offsets that the function touches in a packet. -/
def PacketFn.touched (f : PacketFn) (m : Mem) : List Nat :=
  match f with
  | .ipParsePacket p => (ConfProfile.ipParsePacket p).log m
  | .ip6FindPayload p => (ConfProfile.ip6FindPayload p).log m
  | .ip4CalcIpChecksum len => (ConfProfile.ip4CalcIpChecksum len).log m
  | .ip4CalcTcpChecksum len => (ConfProfile.ip4CalcTcpChecksum len).log m
  | .ip4CalcUdpChecksum len => (ConfProfile.ip4CalcUdpChecksum len).log m
  | .ip4CalcPseudoheaderSum _ => ConfProfile.ip4CalcPseudoheaderSum.log m
  | .ip6CalcTcpChecksum commonSum len => (ConfProfile.ip6CalcTcpChecksum commonSum 0 len).log m
  | .ip6CalcUdpChecksum commonSum len => (ConfProfile.ip6CalcUdpChecksum commonSum 0 len).log m
  | .ip6CalcCommonPseudoheaderSum _ => ConfProfile.ip6CalcCommonPseudoheaderSum.log m
  | .ip6CalcPseudoheaderSum _ proto pktlen =>
    (ConfProfile.ip6CalcPseudoheaderSum proto pktlen).log m
  | .masqueradeSrc ctx len => (ConfProfile.masqueradeSrc ctx len).log m
  | .masqueradeDst ctx len => (ConfProfile.masqueradeDst ctx len).log m
  | .send4 s ctx result p => (send4Buff s ⟨ctx, fun _ _ => pure result⟩ p).log m

/-- What the header fields of a packet have to be for the function to stay in it. -/
def PacketFn.Fits (f : PacketFn) (m : Mem) : Prop :=
  match f with
  | .ipParsePacket p => p.buffLen = 0 ∨ ParseFits p.pktLen m p.buffLen
  | .ip6FindPayload p => PayloadFits p.pktLen m p.buffLen
  | .ip4CalcIpChecksum _ => True
  | .ip4CalcTcpChecksum len => len < 40 ∨ segOffs m + 18 ≤ len ∧ segOffs m + segLen m ≤ len
  | .ip4CalcUdpChecksum len => len < 40 ∨ segOffs m + 8 ≤ len
  | .ip4CalcPseudoheaderSum len => 20 ≤ len
  | .ip6CalcTcpChecksum _ _ => True
  | .ip6CalcUdpChecksum _ _ => True
  | .ip6CalcCommonPseudoheaderSum len => 40 ≤ len
  | .ip6CalcPseudoheaderSum len _ _ => 40 ≤ len
  | .masqueradeSrc ctx len => len = 0 ∨ MasqueradeFits 12 8 ctx len m
  | .masqueradeDst ctx len => len = 0 ∨ MasqueradeFits 16 24 ctx len m
  | .send4 s ctx _ p => 20 ≤ p.pktLen ∧ ∀ t, tunFor s (addr4 m 16) = some t →
      MasqueradeFits 12 8 (ctx t) p.pktLen m

theorem masqueradeAt_touched {addr4 addr6 : Nat} (haddr : 12 ≤ addr4) (ctx : TunCtxPrivate)
    (len : Nat) (m : Mem) :
    Inside len (masqueradeAt addr4 addr6 ctx len) m ↔
      len = 0 ∨ MasqueradeFits addr4 addr6 ctx len m := by
  by_cases hlen : len = 0
  · subst hlen
    have hnone : (masqueradeAt addr4 addr6 ctx 0).log m = [] := by
      unfold masqueradeAt
      rfl
    simp [Inside, hnone]
  · rw [masqueradeAt_inside haddr ctx (by omega) m]
    simp [hlen]

/-- For every packet, every length of it and every function that handles it: the
function reads and writes inside the packet only, exactly if the header fields
of the packet fit. -/
theorem packet_inside_iff (f : PacketFn) (m : Mem) :
    (∀ o ∈ f.touched m, o < f.packetLen) ↔ f.Fits m := by
  cases f with
  | ipParsePacket p =>
    refine (ipParsePacket_inside p.pktLen m p).trans ?_
    unfold PacketFn.Fits
    by_cases hlen : p.buffLen = 0
    · simp [hlen]
    · simp [hlen, Nat.pos_of_ne_zero hlen]
  | ip6FindPayload p => exact ip6FindPayload_inside p.pktLen m p
  | ip4CalcIpChecksum len => exact iff_true_intro (ip4CalcIpChecksum_inside len m len le_rfl)
  | ip4CalcTcpChecksum len => exact ip4CalcTcpChecksum_inside len m len le_rfl
  | ip4CalcUdpChecksum len => exact ip4CalcUdpChecksum_inside len m len le_rfl
  | ip4CalcPseudoheaderSum len => exact ip4CalcPseudoheaderSum_inside len m
  | ip6CalcTcpChecksum commonSum len | ip6CalcUdpChecksum commonSum len =>
    refine iff_true_intro
      ((ip6CalcChecksum_inside len.toNat m _ (by omega) (by omega) _ _ _).mpr ?_)
    exact Or.inr (by omega)
  | ip6CalcCommonPseudoheaderSum len => exact ip6CalcCommonPseudoheaderSum_inside len m
  | ip6CalcPseudoheaderSum len proto pktlen =>
    exact ip6CalcPseudoheaderSum_inside len m proto pktlen
  | masqueradeSrc ctx len | masqueradeDst ctx len =>
    exact masqueradeAt_touched (by omega) ctx len m
  | send4 s ctx result p => exact send4Buff_inside s ctx result p m

/-- A UDP packet of 40 bytes whose header claims to be 60 bytes long. -/
def longHeader : Mem :=
  Function.update (Function.update (fun _ => 0) 0 0x4f) 9 17

/-- `masquerade_src` touches what lies behind the packet. -/
theorem packet_not_inside :
    ¬ ∀ o ∈ (PacketFn.masqueradeSrc masqueradingCtx 40).touched longHeader,
      o < (PacketFn.masqueradeSrc masqueradingCtx 40).packetLen := by
  intro h
  have hfits := (@masqueradeAt_inside 12 8 (by omega) masqueradingCtx 40 (by omega)
    longHeader).mp h
  have hudp := (hfits.ip4 (by decide) rfl).2.udp (by decide)
  have hoffs : segOffs longHeader = 60 := by decide
  omega

end ConfProfile
