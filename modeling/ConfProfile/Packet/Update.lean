import ConfProfile.Packet.Valid

/-!
# Running sums and incremental updates (`ocpa/iputils.c`)

`ip4_update_sum` folded over words is their one's complement sum. `ip4_update_checksum` is to
change a checksum along with one word of the header: the sum without the complement loses the old
word and gets the new one. The function adds the old word and the complement of the new one
instead, so that the header is off by twice the difference of the words; `updates_verify_iff` says
after which updates it still verifies.
-/

namespace ConfProfile

open ByteMem
open OnesSum (Fits InternetVerifies byteSum onesSum)

/-- `ip4_update_checksum`. -/
def ip4UpdateChecksum (oldChecksum oldData newData : BitVec 16) : BitVec 16 :=
  let sum := ~~~(oldChecksum.setWidth 32) &&& 0x0000ffff#32
  let sum := ip4UpdateSum sum oldData
  let sum := ip4UpdateSum sum (~~~newData)
  ipSumToChecksum sum

/-! ## Running sums -/

theorem foldl_ip4UpdateSum_rep (words : List (BitVec 16)) {sum : BitVec 32} {t : Nat}
    (h : Rep sum t) :
    Rep (words.foldl ip4UpdateSum sum) (t + (words.map BitVec.toNat).sum) := by
  induction words generalizing sum t with
  | nil => exact h
  | cons w words ih =>
    rw [List.foldl_cons, List.map_cons, List.sum_cons, ← Nat.add_assoc]
    exact ih (ip4UpdateSum_rep h w)

theorem words_le (words : List (BitVec 16)) : ∀ w ∈ words.map BitVec.toNat, w ≤ 65535 := by
  intro w hw
  obtain ⟨word, -, rfl⟩ := List.mem_map.mp hw
  have hlt := word.isLt
  omega

/-- Words are added up with end-around carry. -/
theorem foldl_ip4UpdateSum (words : List (BitVec 16)) :
    (words.foldl ip4UpdateSum 0).toNat = onesSum 65535 (words.map BitVec.toNat) := by
  have hrep := foldl_ip4UpdateSum_rep words rep_zero
  rw [Nat.zero_add] at hrep
  exact hrep.trans (OnesSum.onesSum_eq_wrap (by decide) (words_le words)).symm

/-- The fold over words is their one's complement sum, and the checksum that is made of it lets a
header verify. -/
theorem ip4UpdateSum_onesSum :
    (∀ words : List (BitVec 16),
      (words.foldl ip4UpdateSum 0).toNat = onesSum 65535 (words.map BitVec.toNat) ∧
      (words.foldl ip4UpdateSum 0).toNat ≤ 0xffff ∧
      (words.foldl ip4UpdateSum 0 = 0 ↔ ∀ w ∈ words, w = 0) ∧
      ∀ words', words.Perm words' → words.foldl ip4UpdateSum 0 = words'.foldl ip4UpdateSum 0) ∧
    ∀ (m : Mem) (len : Nat), 5 ≤ ihlOf m → ihlOf m * 4 ≤ len →
      HeaderVerifies ((ip4CalcIpChecksum len).mem m) := by
  have hM : 0 < 65535 := by decide
  refine ⟨fun words => ⟨foldl_ip4UpdateSum words, ?_, ?_, fun words' hperm => ?_⟩,
    fun m len => ip4CalcIpChecksum_header⟩
  · rw [foldl_ip4UpdateSum]
    exact OnesSum.onesSum_le hM (words_le words)
  · rw [← BitVec.toNat_inj, foldl_ip4UpdateSum]
    refine (OnesSum.onesSum_eq_zero_iff hM (words_le words)).trans ?_
    rw [List.forall_mem_map]
    exact forall₂_congr fun w _ => BitVec.toNat_inj (y := 0)
  · rw [← BitVec.toNat_inj, foldl_ip4UpdateSum, foldl_ip4UpdateSum]
    exact OnesSum.onesSum_perm hM (words_le words) (hperm.map _)

theorem ip4UpdateSum_onesSum_header :
    HeaderVerifies ((ip4CalcIpChecksum 20).mem fun _ => 0x45) :=
  ip4UpdateSum_onesSum.2 _ 20 (by decide) (by decide)

/-! ## Incremental updates -/

/-- A word of a header and what it is replaced by. -/
structure Replacement where
  index : Nat
  word : BitVec 16

/-- The word is replaced, and the checksum is left. -/
def Replacement.put (r : Replacement) (m : Mem) : Mem := m.put16 (2 * r.index) (htons r.word)

/-- The word is replaced, and the checksum is updated. -/
def Replacement.update (r : Replacement) (m : Mem) : Mem :=
  (r.put m).put16 10 (htons
    (ip4UpdateChecksum (ntohs (m.word16 10)) (ntohs (m.word16 (2 * r.index))) r.word))

/-- The word is one of the header, and not its checksum. -/
def Replacement.Inside (r : Replacement) (m : Mem) : Prop := r.index < ihlOf m * 2 ∧ r.index ≠ 5

def replaced (m : Mem) (rs : List Replacement) : Mem := rs.foldl (fun m r => r.put m) m

def updated (m : Mem) (rs : List Replacement) : Mem := rs.foldl (fun m r => r.update m) m

/-- The checksum fits a total with the old word in place of the new one. -/
theorem ip4UpdateChecksum_fits (oldChecksum oldData newData : BitVec 16) :
    Fits 65535 (65535 - oldChecksum.toNat + oldData.toNat + (65535 - newData.toNat))
      (ip4UpdateChecksum oldChecksum oldData newData).toNat := by
  have hnot : (~~~newData).toNat = 65535 - newData.toNat := BitVec.toNat_not
  have hstart : Rep (~~~(oldChecksum.setWidth 32) &&& 0x0000ffff#32)
      (65535 - oldChecksum.toNat) := by
    have hlt := oldChecksum.isLt
    have hmask : ∀ x : Nat, x &&& 65535 = x % 65536 := fun x => Nat.and_two_pow_sub_one_eq_mod x 16
    have hval : (~~~(oldChecksum.setWidth 32) &&& 0x0000ffff#32).toNat =
        65535 - oldChecksum.toNat := by
      simp only [BitVec.toNat_and, BitVec.toNat_not, BitVec.toNat_setWidth, BitVec.toNat_ofNat,
        Nat.reducePow, Nat.reduceMod, hmask]
      omega
    refine hval.trans (OnesSum.wrap_unique (k := 0) (by omega) Iff.rfl (by omega)).symm
  have hsum := ip4UpdateSum_rep (ip4UpdateSum_rep hstart oldData) (~~~newData)
  rw [hnot] at hsum
  exact ipSumToChecksum_fits hsum

/-- A word of a total is replaced. -/
theorem skipSum_put16 (m : Mem) (skip : Nat) (w : BitVec 16) (cycles : Nat) :
    ∀ seqNum ptr i, i < cycles → seqNum + i ≠ skip →
      skipSum (m.put16 (ptr + 2 * i) (htons w)) skip cycles seqNum ptr + net16 m (ptr + 2 * i) =
        skipSum m skip cycles seqNum ptr + w.toNat := by
  induction cycles with
  | zero =>
    intro _ _ _ hi
    exact absurd hi (Nat.not_lt_zero _)
  | succ cycles ih =>
    intro seqNum ptr i hi hne
    have hrest := ih (seqNum + 1) (ptr + 2)
    rw [skipSum, skipSum]
    cases i with
    | zero =>
      -- the words behind it stay
      have hkeep : skipSum (m.put16 ptr (htons w)) skip cycles (seqNum + 1) (ptr + 2) =
          skipSum m skip cycles (seqNum + 1) (ptr + 2) := by
        apply skipSum_congr
        intro j _ _
        exact net16_congr (Mem.put16_of_ne _ _ _ (by omega) (by omega))
          (Mem.put16_of_ne _ _ _ (by omega) (by omega))
      have hfirst : seqNum ≠ skip := hne
      rw [Nat.mul_zero, Nat.add_zero, hkeep, if_neg hfirst, if_neg hfirst, net16_put16]
      omega
    | succ i =>
      have hoffs : ptr + 2 * (i + 1) = ptr + 2 + 2 * i := by omega
      have hfirst : net16 (m.put16 (ptr + 2 + 2 * i) (htons w)) ptr = net16 m ptr :=
        net16_congr (Mem.put16_of_ne _ _ _ (by omega) (by omega))
          (Mem.put16_of_ne _ _ _ (by omega) (by omega))
      have hlater := hrest i (by omega) (by omega)
      rw [hoffs, hfirst]
      omega

/-- The checksum has moved along with the words from `m` to `m'`, and not against them. -/
def Drift (cycles : Nat) (m m' : Mem) : Prop :=
  net16 m' 10 + skipSum m 5 cycles 0 0 ≡ net16 m 10 + skipSum m' 5 cycles 0 0 [MOD 65535]

theorem update_drift {m : Mem} {cycles : Nat} {r : Replacement} (hindex : r.index < cycles)
    (hne : r.index ≠ 5) : 0 < net16 (r.update m) 10 ∧ Drift cycles m (r.update m) := by
  obtain ⟨hpos, -, hmod⟩ := ip4UpdateChecksum_fits (ntohs (m.word16 10))
    (ntohs (m.word16 (2 * r.index))) r.word
  rw [ntohs_word16, ntohs_word16] at hmod
  have hold := net16_le m 10
  have hnew := r.word.isLt
  have hput := skipSum_put16 m 5 r.word cycles 0 0 r.index hindex (by omega)
  rw [Nat.zero_add] at hput
  unfold Drift Nat.ModEq Replacement.update
  rw [net16_put16, skipSum_put16_check]
  unfold Replacement.put
  omega

/-- Every update moves the checksum along with the words. -/
theorem updated_drift {cycles : Nat} (rs : List Replacement) (m : Mem)
    (hrs : ∀ r ∈ rs, r.index < cycles ∧ r.index ≠ 5) :
    (rs = [] ∨ 0 < net16 (updated m rs) 10) ∧ Drift cycles m (updated m rs) := by
  induction rs using List.reverseRecOn with
  | nil => exact ⟨Or.inl rfl, rfl⟩
  | append_singleton rs r ih =>
    obtain ⟨hbefore, hr⟩ := List.forall_mem_append.mp hrs
    obtain ⟨hindex, hne⟩ := hr r (List.mem_singleton_self r)
    obtain ⟨-, hdrift⟩ := ih hbefore
    obtain ⟨hpos, hstep⟩ := update_drift (m := updated m rs) hindex hne
    have hupdated : updated m (rs ++ [r]) = r.update (updated m rs) := by
      rw [updated, List.foldl_concat]
      rfl
    rw [hupdated]
    refine ⟨Or.inr hpos, ?_⟩
    unfold Drift Nat.ModEq at *
    omega

/-- The updates replace the words, and change nothing else but the checksum. -/
theorem updated_eq_replaced (rs : List Replacement) {m m' : Mem} {i : Nat}
    (hi : i ≠ 10 ∧ i ≠ 11) (h : m i = m' i) : updated m rs i = replaced m' rs i := by
  induction rs generalizing m m' with
  | nil => exact h
  | cons r rs ih =>
    refine ih ?_
    show r.update m i = r.put m' i
    unfold Replacement.update
    rw [Mem.put16_of_ne _ _ _ hi.1 hi.2]
    exact Mem.put16_congr _ _ _ h

/-- Words and checksum that have moved along add up to zero again only where they are back. -/
theorem sum_drift {s s' c c' : Nat} (hv : s + c ≡ 0 [MOD 65535])
    (hdrift : c' + s ≡ c + s' [MOD 65535]) :
    s' + c' ≡ 0 [MOD 65535] ↔ s' ≡ s [MOD 65535] := by
  have htwice : 2 * s' + (s + c) ≡ s' + c' + 2 * s [MOD 65535] := by
    have hadd := (hdrift.add_left (s + s')).symm
    have hleft : s + s' + (c + s') = 2 * s' + (s + c) := by omega
    have hright : s + s' + (c' + s) = s' + c' + 2 * s := by omega
    rwa [hleft, hright] at hadd
  have hdouble : 2 * s' ≡ s' + c' + 2 * s [MOD 65535] := (hv.add_left (2 * s')).symm.trans htwice
  constructor
  · intro h
    have hcancel := hdouble.trans (h.add_right (2 * s))
    rw [Nat.zero_add] at hcancel
    exact hcancel.cancel_left_of_coprime (by decide)
  · intro h
    have hcancel : s' + c' + 2 * s ≡ 0 + 2 * s [MOD 65535] := by
      rw [Nat.zero_add]
      exact hdouble.symm.trans (h.mul_left 2)
    exact Nat.ModEq.add_right_cancel' _ hcancel

/-- One word keeps the sum only where it is replaced by itself or by the other zero. -/
theorem skipSum_put_modEq {m : Mem} {r : Replacement} (hr : r.Inside m) :
    skipSum (r.put m) 5 (ihlOf m * 2) 0 0 ≡ skipSum m 5 (ihlOf m * 2) 0 0 [MOD 65535] ↔
      r.word.toNat ≡ net16 m (2 * r.index) [MOD 65535] := by
  have hput := skipSum_put16 m 5 r.word (ihlOf m * 2) 0 0 r.index hr.1 (by have hne := hr.2; omega)
  rw [Nat.zero_add] at hput
  show skipSum (m.put16 (2 * r.index) (htons r.word)) 5 (ihlOf m * 2) 0 0 ≡ _ [MOD 65535] ↔ _
  constructor
  · intro h
    refine Nat.ModEq.add_left_cancel' (skipSum m 5 (ihlOf m * 2) 0 0) ?_
    rw [← hput]
    exact h.add_right _
  · intro h
    refine Nat.ModEq.add_right_cancel' (net16 m (2 * r.index)) ?_
    rw [hput]
    exact h.add_left _

/-- The header that the replaced words make verifies with the checksum that was updated, and this is
the one that `ip4_calc_ip_checksum` computes but for the second zero, if and only if the words
add up to what they were before. -/
theorem updates_verify_iff {m : Mem} (hihl : 5 ≤ ihlOf m) (hv : HeaderVerifies m)
    {rs : List Replacement} (hrs : ∀ r ∈ rs, r.Inside m) :
    (InternetVerifies ((updated m rs).bytes 0 (segOffs m)) ↔
      skipSum (replaced m rs) 5 (ihlOf m * 2) 0 0 ≡ skipSum m 5 (ihlOf m * 2) 0 0 [MOD 65535]) ∧
    ∀ len, segOffs m ≤ len → ihlOf (replaced m rs) = ihlOf m →
      (net16 (updated m rs) 10 ≡
          net16 ((ip4CalcIpChecksum len).mem (replaced m rs)) 10 [MOD 65535] ↔
        skipSum (replaced m rs) 5 (ihlOf m * 2) 0 0 ≡
          skipSum m 5 (ihlOf m * 2) 0 0 [MOD 65535]) := by
  obtain ⟨hpos, hdrift⟩ := updated_drift rs m hrs
  have hwords : skipSum (updated m rs) 5 (ihlOf m * 2) 0 0 =
      skipSum (replaced m rs) 5 (ihlOf m * 2) 0 0 := by
    apply skipSum_congr
    intro i _ hne
    exact net16_congr (updated_eq_replaced rs (by omega) rfl) (updated_eq_replaced rs (by omega) rfl)
  unfold HeaderVerifies at hv
  rw [OnesSum.internetVerifies_iff, byteSum_header hihl] at hv
  have hsum := skipSum_add (updated m rs) 5 (ihlOf m * 2) 0 0 (by omega) (by omega)
  have hoffs : 2 * (ihlOf m * 2) = segOffs m := by
    unfold segOffs
    omega
  rw [hoffs, hwords] at hsum
  unfold Drift at hdrift
  rw [hwords] at hdrift
  have hiff := sum_drift hv.2 hdrift
  constructor
  · rw [OnesSum.internetVerifies_iff, hsum]
    refine (and_iff_right ?_).trans hiff
    rcases hpos with rfl | hpos
    · exact hv.1
    · exact Nat.add_pos_right _ hpos
  · intro len hlen hsame
    obtain ⟨c, ⟨-, -, hmod⟩, hmem⟩ := @ip4CalcIpChecksum_stores (replaced m rs) len
      (by unfold segOffs at hlen; omega) (by rw [hsame]; exact hlen)
    rw [hsame] at hmod
    rw [hmem, net16_put16]
    -- the checksum that is computed makes the words add up to zero
    have hfits : skipSum (replaced m rs) 5 (ihlOf m * 2) 0 0 + c.toNat ≡ 0 [MOD 65535] := hmod
    refine Iff.trans ⟨fun h => ?_, fun h => ?_⟩ hiff
    · exact (h.add_left _).trans hfits
    · exact Nat.ModEq.add_left_cancel' _ (h.trans hfits.symm)

/-- A header with a valid checksum, of a UDP packet without data. -/
def exampleHeader : Mem :=
  fun i => [0x45, 0x00, 0x00, 0x14, 0x00, 0x00, 0x00, 0x00, 0x40, 0x11, 0x66, 0xd7,
    0x0a, 0x00, 0x00, 0x01, 0x0a, 0x00, 0x00, 0x02].getD i 0

theorem updates_verify_iff_exampleHeader :
    (InternetVerifies ((updated exampleHeader [⟨4, 0x3f11⟩]).bytes 0 (segOffs exampleHeader)) ↔
      skipSum (replaced exampleHeader [⟨4, 0x3f11⟩]) 5 (ihlOf exampleHeader * 2) 0 0 ≡
        skipSum exampleHeader 5 (ihlOf exampleHeader * 2) 0 0 [MOD 65535]) ∧
    ∀ len, segOffs exampleHeader ≤ len →
      ihlOf (replaced exampleHeader [⟨4, 0x3f11⟩]) = ihlOf exampleHeader →
      (net16 (updated exampleHeader [⟨4, 0x3f11⟩]) 10 ≡
          net16 ((ip4CalcIpChecksum len).mem (replaced exampleHeader [⟨4, 0x3f11⟩])) 10
            [MOD 65535] ↔
        skipSum (replaced exampleHeader [⟨4, 0x3f11⟩]) 5 (ihlOf exampleHeader * 2) 0 0 ≡
          skipSum exampleHeader 5 (ihlOf exampleHeader * 2) 0 0 [MOD 65535]) :=
  updates_verify_iff (by decide) (by unfold HeaderVerifies; decide) fun r hr => by
    rw [List.mem_singleton.mp hr]
    exact ⟨by decide, by decide⟩

/-- Where the time to live is one less, the header does not verify. -/
theorem update_ttl : HeaderVerifies exampleHeader ∧
    ¬ HeaderVerifies (updated exampleHeader [⟨4, 0x3f11⟩]) := by
  unfold HeaderVerifies
  exact ⟨by decide, by decide⟩

end ConfProfile
