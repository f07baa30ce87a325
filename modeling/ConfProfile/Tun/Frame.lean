import ConfProfile.Tun.Segment

/-!
# What a rewrite changes

Besides the addresses and the header checksum a rewrite changes the two bytes
where a TCP or UDP header has its checksum. The functions go by the protocol
alone: neither the fragment offset nor the length of the fragment is looked at,
so that in a fragment without the start of the segment these two bytes are data,
or lie behind the packet. `frame_iff` says for every IPv4 packet when the frame
holds all the same.
-/

namespace ConfProfile

open ByteMem
open OnesSum (Fits)

/-- The bytes of a patch, with the segment at `offs`. -/
def Patch.Touches (offs i : Nat) : Patch → Prop
  | .saddr _ => 12 ≤ i ∧ i < 16
  | .daddr _ => 16 ≤ i ∧ i < 20
  | .source _ => i = offs ∨ i = offs + 1
  | .dest _ => i = offs + 2 ∨ i = offs + 3

/-- The fragment offset of an IPv4 packet, in units of eight bytes. -/
def fragOffset (m : Mem) : Nat := net16 m 6 % 8192

/-- Where `ip4_calc_tcp_checksum` and `ip4_calc_udp_checksum` write. -/
def checksumOffs (m : Mem) : Nat :=
  if m 9 = ipprotoTcp then segOffs m + 16 else segOffs m + 6

/-- The packet is for one of the two functions. -/
def HasChecksum (m : Mem) : Prop := m 9 = ipprotoTcp ∨ m 9 = ipprotoUdp

/-- The packet carries the start of a segment, up to its checksum field. -/
def CarriesChecksum (m : Mem) (len : Nat) : Prop :=
  HasChecksum m ∧ fragOffset m = 0 ∧ checksumOffs m + 2 ≤ len

/-- The byte `i` may change: it belongs to a rewritten address, to the header
checksum, or to the checksum field of a segment that starts in the packet. -/
def MayChange (path : RewritePath) (m : Mem) (len i : Nat) : Prop :=
  (∃ patch ∈ (path.rewrites m).flatten, patch.Touches (segOffs m) i) ∨ i = 10 ∨ i = 11 ∨
    (CarriesChecksum m len ∧ (i = checksumOffs m ∨ i = checksumOffs m + 1))

/-- The path changes what may change only. -/
def FrameHolds (path : RewritePath) (m : Mem) (len : Nat) : Prop :=
  ∀ i, (path.run len).mem m i ≠ m i → MayChange path m len i

/-- The word `w` fits the packet with the patches of the last rewrite, when the
ones before have put theirs into the place of the TCP checksum. -/
def LastFits (w : Nat) : Mem → List (List Patch) → Prop
  | _, [] => False
  | m, [patches] => Fits 65535 (tcpTotal (patchAll m patches)) w
  | m, patches :: rewrites => ∃ c : BitVec 16, Fits 65535 (tcpTotal (patchAll m patches)) c.toNat ∧
      LastFits w ((patchAll m patches).put16 (segOffs m + 16) (htons c)) rewrites

/-! ## Bytes that stay -/

section bytes

variable {m m' : Mem} {len : Nat}

theorem Patch.apply_of_not_touches {patch : Patch} {i : Nat} (h : ¬ patch.Touches (segOffs m) i) :
    patch.apply m i = m i := by
  cases patch with
  | saddr ip =>
    have hi : ¬ (12 ≤ i ∧ i < 16) := h
    exact Mem.put32_of_ne _ _ _ (by omega)
  | daddr ip =>
    have hi : ¬ (16 ≤ i ∧ i < 20) := h
    exact Mem.put32_of_ne _ _ _ (by omega)
  | source port | dest port =>
    exact Mem.put16_of_ne _ _ _ (fun hi => h (Or.inl hi)) (fun hi => h (Or.inr hi))

theorem patchAll_of_not_touches (hwf : Ip4Wf m len) {patches : List Patch} {i : Nat}
    (h : ∀ patch ∈ patches, ¬ patch.Touches (segOffs m) i) : patchAll m patches i = m i := by
  induction patches generalizing m with
  | nil => rfl
  | cons patch patches ih =>
    have hone := Patch.apply_sameFields hwf.segOffs_ge patch
    have hrest := ih (hone.ip4Wf hwf) fun p hp => by
      rw [hone.segOffs_eq]
      exact h p (List.mem_cons_of_mem _ hp)
    exact hrest.trans (Patch.apply_of_not_touches (h patch List.mem_cons_self))

/-- What `ip4_calc_tcp_checksum` or `ip4_calc_udp_checksum` leaves alone. -/
theorem ip4CalcPayloadChecksum_of_ne {i n : Nat}
    (h : HasChecksum m → 40 ≤ n → i ≠ checksumOffs m ∧ i ≠ checksumOffs m + 1) :
    (ip4CalcPayloadChecksum (m 9) n).mem m i = m i := by
  unfold ip4CalcPayloadChecksum
  split
  next htcp =>
    show (ip4CalcTcpChecksum n).mem m i = m i
    by_cases hn : n < 40
    · rw [ip4CalcTcpChecksum_short m hn]
    · obtain ⟨c, _, hmem⟩ := @ip4CalcTcpChecksum_stores m n (by omega)
      have hne := h (Or.inl htcp) (by omega)
      unfold checksumOffs at hne
      rw [if_pos htcp] at hne
      rw [hmem, Mem.put16_of_ne _ _ _ hne.1 hne.2]
  next htcp =>
    split
    next hudp =>
      show (ip4CalcUdpChecksum n).mem m i = m i
      rw [ip4CalcUdpChecksum_mem]
      split
      next hn => rfl
      next hn =>
        have hne := h (Or.inr hudp) (by omega)
        unfold checksumOffs at hne
        rw [if_neg htcp] at hne
        rw [Mem.put16_of_ne _ _ _ hne.1 hne.2]
    next => rfl

theorem SameFields.checksumOffs_eq (h : SameFields m m') : checksumOffs m' = checksumOffs m := by
  unfold checksumOffs
  rw [h.segOffs_eq, h 9 (by omega)]

theorem SameFields.hasChecksum (h : SameFields m m') : HasChecksum m' ↔ HasChecksum m := by
  unfold HasChecksum
  rw [h 9 (by omega)]

/-- Behind the patches a rewrite changes the two checksums only. -/
theorem rewriteOnce_eq_patchAll (hoffs : 20 ≤ segOffs m) (patches : List Patch) {i : Nat}
    (h₀ : i ≠ 10) (h₁ : i ≠ 11)
    (hsum : HasChecksum m → 40 ≤ len → i ≠ checksumOffs m ∧ i ≠ checksumOffs m + 1) :
    rewriteOnce len m patches i = patchAll m patches i := by
  have hsame := (patchAll_sameFields hoffs patches).trans
    (ip4CalcIpChecksum_sameFields (patchAll m patches) len)
  have hpay := @ip4CalcPayloadChecksum_of_ne _ i len (by
    rw [hsame.hasChecksum, hsame.checksumOffs_eq]
    exact hsum)
  rw [hsame 9 (by omega)] at hpay
  exact hpay.trans (ip4CalcIpChecksum_of_ne _ len h₀ h₁)

theorem rewriteOnce_of_ne (hwf : Ip4Wf m len) {patches : List Patch} {i : Nat}
    (hpatch : ∀ patch ∈ patches, ¬ patch.Touches (segOffs m) i) (h₀ : i ≠ 10) (h₁ : i ≠ 11)
    (hsum : HasChecksum m → 40 ≤ len → i ≠ checksumOffs m ∧ i ≠ checksumOffs m + 1) :
    rewriteOnce len m patches i = m i :=
  (rewriteOnce_eq_patchAll hwf.segOffs_ge patches h₀ h₁ hsum).trans
    (patchAll_of_not_touches hwf hpatch)

/-- Nothing but the patches, the header checksum and the place of the segment's
checksum changes. -/
theorem rewriteAll_of_ne (hwf : Ip4Wf m len) {rewrites : List (List Patch)} {i : Nat}
    (hpatch : ∀ patch ∈ rewrites.flatten, ¬ patch.Touches (segOffs m) i) (h₀ : i ≠ 10)
    (h₁ : i ≠ 11)
    (hsum : HasChecksum m → 40 ≤ len → i ≠ checksumOffs m ∧ i ≠ checksumOffs m + 1) :
    rewriteAll len m rewrites i = m i := by
  induction rewrites generalizing m with
  | nil => rfl
  | cons patches rewrites ih =>
    rw [List.flatten_cons] at hpatch
    have hone := rewriteOnce_sameFields hwf.segOffs_ge len patches
    have hrest := ih (hone.ip4Wf hwf)
      (fun p hp => by
        rw [hone.segOffs_eq]
        exact hpatch p (List.mem_append_right _ hp))
      (by
        rw [hone.hasChecksum, hone.checksumOffs_eq]
        exact hsum)
    exact hrest.trans
      (rewriteOnce_of_ne hwf (fun p hp => hpatch p (List.mem_append_left _ hp)) h₀ h₁ hsum)

end bytes

/-! ## The word at the place of the TCP checksum -/

section word

variable {m m' : Mem} {len : Nat}

/-- The total of the TCP checksum does not read the header checksum. -/
theorem tcpTotal_congr (h : SameButHeaderCheck m m') (hoffs : 20 ≤ segOffs m) :
    tcpTotal m' = tcpTotal m := by
  have hfields : SameFields m m' := fun i hi => h i (by omega) (by omega)
  have hword : ∀ o, 12 ≤ o → net16 m' o = net16 m o :=
    fun o ho => net16_congr (h o (by omega) (by omega)) (h (o + 1) (by omega) (by omega))
  have hseg : segTotal m' 8 (segOffs m) (segLen m) = segTotal m 8 (segOffs m) (segLen m) :=
    segTotal_congr (fun i _ _ => hword _ (by omega)) (fun _ => h _ (by omega) (by omega))
  unfold tcpTotal pseudoTotal
  rw [hfields.segLen_eq, hfields.segOffs_eq, hseg, h 9 (by omega) (by omega), hword 12 (by omega),
    hword 14 (by omega), hword 16 (by omega), hword 18 (by omega)]

theorem SameButHeaderCheck.put16 (h : SameButHeaderCheck m m') (o : Nat) (w : BitVec 16) :
    SameButHeaderCheck (m.put16 o w) (m'.put16 o w) :=
  fun i h₀ h₁ => Mem.put16_congr _ _ _ (h i h₀ h₁)

/-- Nor does the condition on the last rewrite. -/
theorem lastFits_congr (h : SameButHeaderCheck m m') (hwf : Ip4Wf m len) (w : Nat)
    (rewrites : List (List Patch)) : LastFits w m' rewrites ↔ LastFits w m rewrites := by
  induction rewrites generalizing m m' with
  | nil => exact Iff.rfl
  | cons patches rewrites ih =>
    have hpatch := patchAll_sameFields hwf.segOffs_ge patches
    have hoffs := (hpatch.ip4Wf hwf).segOffs_ge
    have htotal := tcpTotal_congr (h.patchAll patches) hoffs
    have hseg : segOffs m' = segOffs m := segOffs_congr (h 0 (by omega) (by omega))
    cases rewrites with
    | nil =>
      unfold LastFits
      rw [htotal]
    | cons next rewrites =>
      unfold LastFits
      rw [htotal, hseg]
      refine exists_congr fun c => and_congr_right fun _ => ?_
      rw [hpatch.segOffs_eq] at hoffs
      exact ih ((h.patchAll patches).put16 (segOffs m + 16) (htons c))
        ((hpatch.put16 (by omega) _).ip4Wf hwf)

/-- What a rewrite does to a packet for `ip4_calc_tcp_checksum`. -/
theorem rewriteOnce_tcpWord (hwf : Ip4Wf m len) (hproto : m 9 = ipprotoTcp) (hlen : 40 ≤ len)
    (patches : List Patch) :
    ∃ c : BitVec 16, Fits 65535 (tcpTotal (patchAll m patches)) c.toNat ∧
      rewriteOnce len m patches =
        ((ip4CalcIpChecksum len).mem (patchAll m patches)).put16 (segOffs m + 16) (htons c) := by
  have hpatch := patchAll_sameFields hwf.segOffs_ge patches
  have hip := hpatch.trans (ip4CalcIpChecksum_sameFields (patchAll m patches) len)
  have hcheck : SameButHeaderCheck (patchAll m patches)
      ((ip4CalcIpChecksum len).mem (patchAll m patches)) :=
    fun i h₀ h₁ => ip4CalcIpChecksum_of_ne _ len h₀ h₁
  have hoffs := (hpatch.ip4Wf hwf).segOffs_ge
  obtain ⟨c, hfits, hmem⟩ :=
    ip4CalcTcpChecksum_stores ((ip4CalcIpChecksum len).mem (patchAll m patches)) hlen
  rw [tcpTotal_congr hcheck hoffs] at hfits
  rw [hip.segOffs_eq] at hmem
  refine ⟨c, hfits, ?_⟩
  unfold rewriteOnce ip4CalcChecksums ip4CalcPayloadChecksum
  rw [MemM.mem_bind, if_pos hproto]
  exact hmem

/-- The only word that fits. -/
theorem fits_unique {t c d : Nat} (hc : Fits 65535 t c) (hd : Fits 65535 t d) : c = d := by
  rw [← OnesSum.eq_check_iff (by omega)] at hc hd
  rw [hc, hd]

/-- The word that the rewrites leave at the place of the TCP checksum is the one
that fits at the last of them. -/
theorem rewriteAll_tcpWord (hwf : Ip4Wf m len) (hproto : m 9 = ipprotoTcp) (hlen : 40 ≤ len)
    {rewrites : List (List Patch)} (hne : rewrites ≠ []) (w : Nat) :
    net16 (rewriteAll len m rewrites) (segOffs m + 16) = w ↔ LastFits w m rewrites := by
  induction rewrites generalizing m with
  | nil => exact absurd rfl hne
  | cons patches rewrites ih =>
    obtain ⟨c, hfits, hmem⟩ := rewriteOnce_tcpWord hwf hproto hlen patches
    have hone := rewriteOnce_sameFields hwf.segOffs_ge len patches
    cases rewrites with
    | nil =>
      show net16 (rewriteOnce len m patches) _ = w ↔ Fits 65535 (tcpTotal (patchAll m patches)) w
      rw [hmem, net16_put16]
      exact ⟨fun heq => heq ▸ hfits, fun hw => fits_unique hfits hw⟩
    | cons next rewrites =>
      have hrest := ih (hone.ip4Wf hwf) ((hone 9 (by omega)).trans hproto) (by simp)
      have hpatch := patchAll_sameFields hwf.segOffs_ge patches
      have hoffs := hwf.segOffs_ge
      have hcheck : SameButHeaderCheck ((patchAll m patches).put16 (segOffs m + 16) (htons c))
          (rewriteOnce len m patches) := by
        rw [hmem]
        exact SameButHeaderCheck.put16
          (fun i h₀ h₁ => ip4CalcIpChecksum_of_ne _ len h₀ h₁) _ _
      have hlast :=
        lastFits_congr hcheck ((hpatch.put16 (by omega) _).ip4Wf hwf) w (next :: rewrites)
      rw [hone.segOffs_eq, hlast] at hrest
      refine hrest.trans ⟨fun h => ⟨c, hfits, h⟩, ?_⟩
      intro ⟨d, hd, h⟩
      have hcd : c = d := BitVec.eq_of_toNat_eq (fits_unique hfits hd)
      rw [hcd]
      exact h

end word

/-! ## The frame -/

section frame

variable {m : Mem} {len : Nat}

/-- The functions of `tun.c` rewrite addresses only. -/
theorem RewritePath.OfTun.not_touches {path : RewritePath} (hpath : path.OfTun) (m : Mem)
    {offs i : Nat} (hi : 20 ≤ i) :
    ∀ patch ∈ (path.rewrites m).flatten, ¬ patch.Touches offs i := by
  have hmasq : ∀ (mk : BitVec 32 → Patch) (ctx : TunCtxPrivate),
      (∀ ip, ¬ (mk ip).Touches offs i) →
      ∀ patch ∈ (masqueradePatches mk ctx).flatten, ¬ patch.Touches offs i := by
    intro mk ctx hmk patch hpatch
    unfold masqueradePatches at hpatch
    split at hpatch
    · rw [List.flatten_singleton, List.mem_singleton] at hpatch
      rw [hpatch]
      exact hmk _
    · simp at hpatch
  have hdns : ∀ (mk : BitVec 32 → Patch) (put : DnsSlot → BitVec 32) (slot : Option DnsSlot),
      (∀ ip, ¬ (mk ip).Touches offs i) →
      ∀ patch ∈ (dnsPatches mk put slot).flatten, ¬ patch.Touches offs i := by
    intro mk put slot hmk patch hpatch
    cases slot with
    | none => simp [dnsPatches] at hpatch
    | some slot =>
      simp only [dnsPatches, Option.elim_some, List.flatten_singleton, List.mem_singleton] at hpatch
      rw [hpatch]
      exact hmk _
  have hsaddr : ∀ ip, ¬ (Patch.saddr ip).Touches offs i := by
    intro ip
    unfold Patch.Touches
    omega
  have hdaddr : ∀ ip, ¬ (Patch.daddr ip).Touches offs i := by
    intro ip
    unfold Patch.Touches
    omega
  cases path with
  | masqueradeSrc ctx => exact hmasq _ ctx hsaddr
  | masqueradeDst ctx => exact hmasq _ ctx hdaddr
  | tunCtxSend ctx => exact hdns _ _ _ hdaddr
  | tunCtxRecv ctx devTunCtx spare =>
    intro patch hpatch
    unfold rewrites at hpatch
    rw [List.flatten_append, List.mem_append] at hpatch
    rcases hpatch with hpatch | hpatch
    · exact hdns _ _ _ hsaddr patch hpatch
    · exact hmasq _ devTunCtx hdaddr patch hpatch
  | usernat inst link => exact hpath.elim

theorem checksumOffs_ge (hoffs : 20 ≤ segOffs m) :
    segOffs m + 6 ≤ checksumOffs m ∧ 26 ≤ checksumOffs m := by
  unfold checksumOffs
  split <;> omega

/-- In a packet that does not carry its checksum field, the frame holds exactly
if the word at the field's place stays. -/
theorem frameHolds_iff_word {path : RewritePath} (hpath : path.OfTun) (hwf : Ip4Wf m len)
    (hcarries : ¬ CarriesChecksum m len) :
    FrameHolds path m len ↔
      net16 ((path.run len).mem m) (checksumOffs m) = net16 m (checksumOffs m) := by
  have hplace := checksumOffs_ge hwf.segOffs_ge
  have hmay : ∀ i, 20 ≤ i → ¬ MayChange path m len i := by
    intro i hi hchange
    rcases hchange with ⟨patch, hpatch, htouch⟩ | hi | hi | ⟨hyes, _⟩
    · exact hpath.not_touches m hi patch hpatch htouch
    · omega
    · omega
    · exact hcarries hyes
  refine ⟨?_, ?_⟩
  · intro hframe
    have hbyte : ∀ i, 20 ≤ i → (path.run len).mem m i = m i :=
      fun i hi => Classical.byContradiction fun hne => hmay i hi (hframe i hne)
    exact net16_congr (hbyte _ (by omega)) (hbyte _ (by omega))
  · intro hword i hne
    obtain ⟨h₀, h₁⟩ := bytes_of_net16_eq hword
    by_contra hnot
    unfold MayChange at hnot
    push Not at hnot
    obtain ⟨hpatch, hne₀, hne₁, _⟩ := hnot
    apply hne
    by_cases hfirst : i = checksumOffs m
    · rw [hfirst]
      exact h₀
    · by_cases hsecond : i = checksumOffs m + 1
      · rw [hsecond]
        exact h₁
      · rw [RewritePath.run_ofTun hpath hwf]
        exact rewriteAll_of_ne hwf hpatch hne₀ hne₁ fun _ _ => ⟨hfirst, hsecond⟩

/-- A packet whose checksum functions stay away, or find their field, changes
where it may. -/
theorem frameHolds_of_carries {path : RewritePath} (hpath : path.OfTun) (hwf : Ip4Wf m len)
    (h : HasChecksum m → 40 ≤ len → CarriesChecksum m len) : FrameHolds path m len := by
  intro i hne
  by_contra hnot
  apply hne
  unfold MayChange at hnot
  push Not at hnot
  obtain ⟨hpatch, hne₀, hne₁, hcarries⟩ := hnot
  rw [RewritePath.run_ofTun hpath hwf]
  exact rewriteAll_of_ne hwf hpatch hne₀ hne₁ fun hhas hlen => hcarries (h hhas hlen)

/-- A rewrite of an IPv4 packet, fragment or not, changes the rewritten address,
the header checksum and the checksum field of a segment that starts in the packet
only, exactly if it does not rewrite at all, or the packet has less than 40 bytes
or is neither TCP nor UDP, or carries the checksum field, or the word that lies
at the place of that field is the one that is put there. -/
theorem frame_iff (path : RewritePath) (hpath : path.OfTun) (hwf : Ip4Wf m len) :
    FrameHolds path m len ↔
      path.rewrites m = [] ∨ len < 40 ∨ ¬ HasChecksum m ∨ CarriesChecksum m len ∨
        (m 9 = ipprotoTcp ∧ LastFits (net16 m (checksumOffs m)) m (path.rewrites m)) ∨
        (m 9 = ipprotoUdp ∧ net16 m (checksumOffs m) = 0) := by
  by_cases hcarries : CarriesChecksum m len
  · simp only [hcarries, true_or, or_true, iff_true]
    exact frameHolds_of_carries hpath hwf fun _ _ => hcarries
  · by_cases hstay : len < 40 ∨ ¬ HasChecksum m
    · have hframe : FrameHolds path m len := by
        refine frameHolds_of_carries hpath hwf fun hhas hlen => ?_
        rcases hstay with hshort | hnone
        · omega
        · exact absurd hhas hnone
      exact iff_of_true hframe (by tauto)
    · push Not at hstay
      obtain ⟨hlen, hhas⟩ := hstay
      rw [frameHolds_iff_word hpath hwf hcarries, RewritePath.run_ofTun hpath hwf]
      by_cases hnone : path.rewrites m = []
      · rw [hnone]
        exact iff_of_true rfl (Or.inl rfl)
      · have hlong : ¬ len < 40 := by omega
        simp only [hnone, hlong, hhas, hcarries, not_true_eq_false, false_or]
        rcases hhas with htcp | hudp
        · have hudp : m 9 ≠ ipprotoUdp := htcp.trans_ne ipprotoTcp_ne_udp
          have hplace : checksumOffs m = segOffs m + 16 := if_pos htcp
          rw [or_iff_left fun h => hudp h.1, and_iff_right htcp, hplace]
          exact rewriteAll_tcpWord hwf htcp hlen hnone _
        · have htcp : m 9 ≠ ipprotoTcp := hudp.trans_ne ipprotoTcp_ne_udp.symm
          have hplace : checksumOffs m = segOffs m + 6 := if_neg htcp
          have hzero := rewriteAll_udp_long hwf hudp hlen hnone
          unfold udpField at hzero
          rw [(rewriteAll_sameFields hwf.segOffs_ge len _).segOffs_eq] at hzero
          rw [or_iff_right fun h => htcp h.1, and_iff_right hudp, hplace, hzero]
          exact eq_comm

end frame

/-- A fragment of 44 bytes from the middle of a UDP datagram. -/
def exampleFragment : Mem :=
  Mem.putBytes (fun _ => 0x61) 0
    [0x45, 0, 0, 44, 0, 7, 0x20, 185, 64, 17, 0, 0, 10, 0, 0, 2, 10, 0, 0, 3]

theorem exampleFragment_wf : Ip4Wf exampleFragment 44 :=
  ⟨by decide, by decide, by decide, by decide⟩

theorem frame_iff_example :
    FrameHolds (.masqueradeSrc masqueradingCtx) exampleFragment 44 ↔
      (RewritePath.masqueradeSrc masqueradingCtx).rewrites exampleFragment = [] ∨ 44 < 40 ∨
        ¬ HasChecksum exampleFragment ∨ CarriesChecksum exampleFragment 44 ∨
        (exampleFragment 9 = ipprotoTcp ∧ LastFits
          (net16 exampleFragment (checksumOffs exampleFragment)) exampleFragment
          ((RewritePath.masqueradeSrc masqueradingCtx).rewrites exampleFragment)) ∨
        (exampleFragment 9 = ipprotoUdp ∧
          net16 exampleFragment (checksumOffs exampleFragment) = 0) :=
  frame_iff (.masqueradeSrc masqueradingCtx) trivial exampleFragment_wf

/-- The data byte 26 of the fragment is overwritten. -/
theorem frame_data_overwritten :
    Ip4Wf exampleFragment 44 ∧ fragOffset exampleFragment = 185 ∧
      ((RewritePath.masqueradeSrc masqueradingCtx).run 44).mem exampleFragment 26 ≠
        exampleFragment 26 ∧
      ¬ FrameHolds (.masqueradeSrc masqueradingCtx) exampleFragment 44 := by
  have hbyte : ((RewritePath.masqueradeSrc masqueradingCtx).run 44).mem exampleFragment 26 ≠
      exampleFragment 26 := by
    decide
  have hfrag : fragOffset exampleFragment = 185 := by
    decide
  have hpath : (RewritePath.masqueradeSrc masqueradingCtx).OfTun := trivial
  refine ⟨exampleFragment_wf, hfrag, hbyte, ?_⟩
  intro hframe
  rcases hframe 26 hbyte with ⟨patch, hpatch, htouch⟩ | hi | hi | ⟨⟨_, hzero, _⟩, _⟩
  · exact hpath.not_touches _ (by omega) patch hpatch htouch
  · omega
  · omega
  · omega

end ConfProfile
