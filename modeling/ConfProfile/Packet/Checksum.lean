import ConfProfile.Packet.ByteOrder
import ConfProfile.Lib.OnesSum

/-!
# The checksum functions (`ocpa/iputils.c`)

The functions take the packet as a pointer, so they are computations over the
byte memory behind it. Loads and stores are those of the little-endian targets,
which is why the source swaps bytes with `ntohs` and `htons` around each of
them.

Sums are kept in 32 bits and folded after every addition; `ip4UpdateSum_rep`
says that this is end-around carry, so that a running sum stands for a total in
`Nat`.
-/

namespace ConfProfile

open BigEndian (toNat_appendByte)
open ByteMem
open OnesSum (check carryAdd Fits byteSum)

/-- `IPPROTO_TCP`. -/
def ipprotoTcp : BitVec 8 := 6

/-- `IPPROTO_UDP`. -/
def ipprotoUdp : BitVec 8 := 17

theorem ipprotoTcp_ne_udp : ipprotoTcp ≠ ipprotoUdp := by decide

/-- The bit field `ihl` of an IPv4 header. -/
def ihlOf (m : Mem) : Nat := ((m 0).extractLsb' 0 4).toNat

/-- `hdr->ihl`. -/
def rdIhl : MemM Nat := do
  let b ← rd 0
  return (b.extractLsb' 0 4).toNat

/-- `ip4_update_sum`. -/
def ip4UpdateSum (previous : BitVec 32) (data : BitVec 16) : BitVec 32 :=
  let sum := previous + data.setWidth 32
  let sum := sum + sum >>> 16
  sum &&& 0x0000ffff#32

/-- `ip_sum_to_checksum`. -/
def ipSumToChecksum (sum : BitVec 32) : BitVec 16 :=
  let checksum := ~~~(sum.setWidth 16)
  if checksum = 0x0000 then 0xffff else checksum

/-- The word loop of the checksum functions, from the word at `ptr` on. -/
def sumWords (skip : Nat) : (cycles seqNum ptr : Nat) → (sum : BitVec 32) → MemM (BitVec 32)
  | 0, _, _, sum => pure sum
  | cycles + 1, seqNum, ptr, sum =>
    if seqNum = skip then
      -- skipping checksum field
      sumWords skip cycles (seqNum + 1) (ptr + 2) sum
    else do
      let w ← rd16 ptr
      sumWords skip cycles (seqNum + 1) (ptr + 2) (ip4UpdateSum sum (ntohs w))

/-- The odd byte behind the words. -/
def addOddByte (len ptr : Nat) (sum : BitVec 32) : MemM (BitVec 32) :=
  if len % 2 = 1 then do
    let oddByte ← rd ptr
    return ip4UpdateSum sum (htons (oddByte.setWidth 16))
  else pure sum

/-- `ip4_calc_ip_checksum`. -/
def ip4CalcIpChecksum (len : Nat) : MemM (BitVec 16) :=
  if len < 20 then pure 0
  else do
    let ihl ← rdIhl
    let cycles := ihl * 2
    if len < cycles * 2 then pure 0
    else do
      let sum ← sumWords 5 cycles 0 0 0
      let checksum := ipSumToChecksum sum
      wr16 10 (htons checksum)
      return checksum

/-- `ip4_calc_pseudoheader_sum`. -/
def ip4CalcPseudoheaderSum : MemM (BitVec 32) := do
  -- src addr
  let w6 ← rd16 12
  let w7 ← rd16 14
  -- dst addr
  let w8 ← rd16 16
  let w9 ← rd16 18
  let protocol ← rd 9
  let totLen ← rd16 2
  let ihl ← rdIhl
  let sum := ip4UpdateSum (ip4UpdateSum 0 (ntohs w6)) (ntohs w7)
  let sum := ip4UpdateSum (ip4UpdateSum sum (ntohs w8)) (ntohs w9)
  let sum := ip4UpdateSum sum (protocol.setWidth 16)
  return ip4UpdateSum sum (ntohs totLen - BitVec.ofNat 16 (ihl * 4))

/-- `ip4_calc_tcp_checksum`. -/
def ip4CalcTcpChecksum (len : Nat) : MemM (BitVec 16) :=
  if len < 40 then pure 0
  else do
    let totLen ← rd16 2
    let ihl ← rdIhl
    let tcpLen := (ntohs totLen - BitVec.ofNat 16 (ihl * 4)).toNat
    let sum ← ip4CalcPseudoheaderSum
    let cycles := tcpLen / 2
    let ptr := ihl * 4
    let sum ← sumWords 8 cycles 0 ptr sum
    let sum ← addOddByte tcpLen (ptr + 2 * cycles) sum
    let checksum := ipSumToChecksum sum
    wr16 (ptr + 16) (htons checksum)
    return checksum

/-- `ip4_calc_udp_checksum`: the checksum is taken away. -/
def ip4CalcUdpChecksum (len : Nat) : MemM (BitVec 16) :=
  if len < 40 then pure 0
  else do
    let _totLen ← rd16 2
    let ihl ← rdIhl
    wr16 (ihl * 4 + 6) (htons 0x0000)
    return 0

/-- `ip6_calc_tcp_checksum` and `ip6_calc_udp_checksum`: the protocol, the word
that is skipped and the offset of the checksum field are theirs. `len` is an
`int`, and `buff` a pointer into the packet. -/
def ip6CalcChecksum (proto : BitVec 8) (skip field : Nat) (commonSum : BitVec 32) (buff : Nat)
    (len : BitVec 32) : MemM (BitVec 16) :=
  if len.toInt < 40 then pure 0
  else do
    let sum := ip4UpdateSum commonSum (proto.setWidth 16)
    let sum := ip4UpdateSum sum ((len >>> 16).setWidth 16)
    let sum := ip4UpdateSum sum (len.setWidth 16)
    let cycles := len.toNat / 2
    let sum ← sumWords skip cycles 0 buff sum
    let sum ← addOddByte len.toNat (buff + 2 * cycles) sum
    let checksum := ipSumToChecksum sum
    wr16 (buff + field) (htons checksum)
    return checksum

/-- `ip6_calc_tcp_checksum`. -/
def ip6CalcTcpChecksum : BitVec 32 → Nat → BitVec 32 → MemM (BitVec 16) :=
  ip6CalcChecksum ipprotoTcp 8 16

/-- `ip6_calc_udp_checksum`. The word it skips is the fifth one, behind the
checksum. -/
def ip6CalcUdpChecksum : BitVec 32 → Nat → BitVec 32 → MemM (BitVec 16) :=
  ip6CalcChecksum ipprotoUdp 4 6

/-- `ip6_calc_common_pseudoheader_sum`: the sixteen words of the two addresses. -/
def ip6CalcCommonPseudoheaderSum : MemM (BitVec 32) :=
  -- no word is skipped
  sumWords 16 16 0 8 0

/-- `ip6_calc_pseudoheader_sum`. -/
def ip6CalcPseudoheaderSum (proto : BitVec 8) (pktlen : BitVec 32) : MemM (BitVec 32) := do
  let sum ← ip6CalcCommonPseudoheaderSum
  let sum := ip4UpdateSum sum ((pktlen >>> 16).setWidth 16)
  let sum := ip4UpdateSum sum (pktlen.setWidth 16)
  return ip4UpdateSum sum (proto.setWidth 16)

/-! ## The segment behind an IPv4 header -/

/-- `ntohs(hdr->tot_len) - (hdr->ihl * 4)` as a `uint16_t`: the length of the
segment behind an IPv4 header. -/
def segLen (m : Mem) : Nat := (ntohs (m.word16 2) - BitVec.ofNat 16 (ihlOf m * 4)).toNat

/-- The offset of the segment behind an IPv4 header. -/
def segOffs (m : Mem) : Nat := ihlOf m * 4

@[simp] theorem rdIhl_val (m : Mem) : rdIhl.val m = ihlOf m := rfl

@[simp] theorem rdIhl_mem (m : Mem) : rdIhl.mem m = m := rfl

@[simp] theorem rdIhl_inside (n : Nat) (m : Mem) : Inside n rdIhl m ↔ 0 < n := by
  simp [rdIhl]

theorem ihlOf_lt (m : Mem) : ihlOf m < 16 := BitVec.isLt _

/-- The segment is found where it was as long as the fields it is found by stay. -/
theorem segOffs_congr {m m' : Mem} (h : m 0 = m' 0) : segOffs m = segOffs m' := by
  unfold segOffs ihlOf
  rw [h]

theorem segLen_congr {m m' : Mem} (h₀ : m 0 = m' 0) (h₂ : m 2 = m' 2) (h₃ : m 3 = m' 3) :
    segLen m = segLen m' := by
  unfold segLen ihlOf Mem.word16
  rw [h₀, h₂, h₃]

/-! ## What a running sum stands for -/

/-- A 32-bit running sum stands for a total in `Nat`. -/
def Rep (sum : BitVec 32) (t : Nat) : Prop := sum.toNat = OnesSum.wrap 65535 t

theorem rep_zero : Rep 0 0 := by simp [Rep]

/-- Folding once after every addition is end-around carry. -/
theorem ip4UpdateSum_toNat {sum : BitVec 32} (h : sum.toNat ≤ 65535) (data : BitVec 16) :
    (ip4UpdateSum sum data).toNat = carryAdd 65535 sum.toNat data.toNat := by
  have hd := data.isLt
  have hmask : ∀ x : Nat, x &&& 65535 = x % 65536 := fun x => Nat.and_two_pow_sub_one_eq_mod x 16
  unfold ip4UpdateSum carryAdd
  simp only [BitVec.toNat_and, BitVec.toNat_add, BitVec.toNat_ushiftRight, BitVec.toNat_setWidth,
    BitVec.toNat_ofNat, Nat.shiftRight_eq_div_pow, Nat.reducePow, Nat.reduceMod, hmask]
  split <;> omega

theorem ip4UpdateSum_rep {sum : BitVec 32} {t : Nat} (h : Rep sum t) (data : BitVec 16) :
    Rep (ip4UpdateSum sum data) (t + data.toNat) := by
  have hd := data.isLt
  have hle : sum.toNat ≤ 65535 := h ▸ OnesSum.wrap_le (by omega) t
  unfold Rep
  rw [ip4UpdateSum_toNat hle, show sum.toNat = OnesSum.wrap 65535 t from h]
  exact OnesSum.carryAdd_wrap (by omega) t (by omega)

/-- The checksum of a sum is the word that fits its total. -/
theorem ipSumToChecksum_fits {sum : BitVec 32} {t : Nat} (h : Rep sum t) :
    Fits 65535 t (ipSumToChecksum sum).toNat := by
  have hle : sum.toNat ≤ 65535 := h ▸ OnesSum.wrap_le (by omega) t
  rw [← OnesSum.eq_check_iff (by omega), ← show sum.toNat = OnesSum.wrap 65535 t from h]
  have hnot : (~~~(sum.setWidth 16) : BitVec 16).toNat = 65535 - sum.toNat := by
    rw [BitVec.toNat_not, BitVec.toNat_setWidth, Nat.mod_eq_of_lt (by omega)]
  unfold ipSumToChecksum check
  by_cases h0 : (~~~(sum.setWidth 16) : BitVec 16) = 0x0000
  · have hz : 65535 - sum.toNat = 0 := by
      rw [← hnot, h0]
      rfl
    rw [if_pos h0, if_pos (by omega)]
    rfl
  · have hne : (~~~(sum.setWidth 16) : BitVec 16).toNat ≠ 0 := by
      intro hz
      exact h0 (BitVec.eq_of_toNat_eq hz)
    rw [if_neg h0, if_neg (by omega), hnot]

/-- The total of the words from `ptr` on, without the skipped one. -/
def skipSum (m : Mem) (skip : Nat) : (cycles seqNum ptr : Nat) → Nat
  | 0, _, _ => 0
  | cycles + 1, seqNum, ptr =>
    (if seqNum = skip then 0 else net16 m ptr) + skipSum m skip cycles (seqNum + 1) (ptr + 2)

/-- The word loop reads, and adds up the words. -/
theorem sumWords_mem (m : Mem) (skip cycles : Nat) : ∀ seqNum ptr sum,
    (sumWords skip cycles seqNum ptr sum).mem m = m := by
  induction cycles with
  | zero => intro _ _ _; rfl
  | succ cycles ih =>
    intro seqNum ptr sum
    unfold sumWords
    split
    · exact ih _ _ _
    · rw [MemM.mem_bind, mem_rd16, ih]

theorem sumWords_rep (m : Mem) (skip cycles : Nat) : ∀ seqNum ptr sum t, Rep sum t →
    Rep ((sumWords skip cycles seqNum ptr sum).val m) (t + skipSum m skip cycles seqNum ptr) := by
  induction cycles with
  | zero => intro _ _ _ _ h; exact h
  | succ cycles ih =>
    intro seqNum ptr sum t h
    unfold sumWords skipSum
    split
    · rw [Nat.zero_add]
      exact ih _ _ _ _ h
    · have hstep := ih (seqNum + 1) (ptr + 2) _ _ (ip4UpdateSum_rep h (ntohs (m.word16 ptr)))
      rw [ntohs_word16, Nat.add_assoc] at hstep
      rw [MemM.val_bind, mem_rd16, val_rd16]
      exact hstep

theorem sumWords_inside (n : Nat) (m : Mem) (skip cycles : Nat) : ∀ seqNum ptr sum,
    Inside n (sumWords skip cycles seqNum ptr sum) m ↔
      ∀ i < cycles, seqNum + i ≠ skip → ptr + 2 * i + 1 < n := by
  induction cycles with
  | zero => intro _ _ _; simp [sumWords]
  | succ cycles ih =>
    intro seqNum ptr sum
    have hsplit : (∀ i < cycles + 1, seqNum + i ≠ skip → ptr + 2 * i + 1 < n) ↔
        (seqNum ≠ skip → ptr + 1 < n) ∧
          ∀ i < cycles, seqNum + 1 + i ≠ skip → ptr + 2 + 2 * i + 1 < n := by
      refine ⟨?_, ?_⟩
      · intro h
        refine ⟨fun hne => h 0 (by omega) hne, fun i hi hne => ?_⟩
        have hi' := h (i + 1) (by omega) (by omega)
        omega
      · intro ⟨h₀, h⟩ i hi hne
        cases i with
        | zero => exact h₀ hne
        | succ i =>
          have hi' := h i (by omega) (by omega)
          omega
    rw [hsplit]
    unfold sumWords
    split
    next heq => simp [ih, heq]
    next hne => simp [ih, hne]

@[simp] theorem addOddByte_mem (m : Mem) (len ptr : Nat) (sum : BitVec 32) :
    (addOddByte len ptr sum).mem m = m := by
  unfold addOddByte
  split <;> rfl

/-- The total that an odd byte adds. -/
def oddSum (m : Mem) (len ptr : Nat) : Nat := if len % 2 = 1 then (m ptr).toNat * 256 else 0

theorem addOddByte_rep (m : Mem) (len ptr : Nat) {sum : BitVec 32} {t : Nat} (h : Rep sum t) :
    Rep ((addOddByte len ptr sum).val m) (t + oddSum m len ptr) := by
  unfold addOddByte oddSum
  split
  · have hstep := ip4UpdateSum_rep h (htons ((m ptr).setWidth 16))
    have hb := (m ptr).isLt
    have hval : (htons ((m ptr).setWidth 16)).toNat = (m ptr).toNat * 256 := by
      unfold htons
      rw [toNat_appendByte, BitVec.extractLsb'_toNat, BitVec.extractLsb'_toNat,
        BitVec.toNat_setWidth]
      simp only [Nat.shiftRight_eq_div_pow]
      omega
    rwa [hval] at hstep
  · exact h

theorem addOddByte_inside (n : Nat) (m : Mem) (len ptr : Nat) (sum : BitVec 32) :
    Inside n (addOddByte len ptr sum) m ↔ (len % 2 = 1 → ptr < n) := by
  unfold addOddByte
  split
  next h => simp [h]
  next h => simp [h]

/-! ## Totals and byte strings -/

theorem byteSum_bytes_succ (m : Mem) (o n : Nat) :
    byteSum (m.bytes o (n + 2)) = net16 m o + byteSum (m.bytes (o + 2) n) := by
  rw [Mem.bytes, Mem.bytes, OnesSum.byteSum_cons_cons]
  rfl

/-- The total does not look at the skipped word. -/
theorem skipSum_congr {m m' : Mem} (skip cycles : Nat) : ∀ seqNum ptr,
    (∀ i < cycles, seqNum + i ≠ skip → net16 m (ptr + 2 * i) = net16 m' (ptr + 2 * i)) →
    skipSum m skip cycles seqNum ptr = skipSum m' skip cycles seqNum ptr := by
  induction cycles with
  | zero => intro _ _ _; rfl
  | succ cycles ih =>
    intro seqNum ptr h
    have hrest : skipSum m skip cycles (seqNum + 1) (ptr + 2) =
        skipSum m' skip cycles (seqNum + 1) (ptr + 2) := by
      apply ih
      intro i hi hne
      have hi' := h (i + 1) (by omega) (by omega)
      rwa [show ptr + 2 * (i + 1) = ptr + 2 + 2 * i by omega] at hi'
    unfold skipSum
    rw [hrest]
    split
    · rfl
    next hne =>
      have h₀ : net16 m ptr = net16 m' ptr := h 0 (by omega) hne
      rw [h₀]

/-- Where the skipped word is not among them, all words are added up. -/
theorem skipSum_all (m : Mem) (skip cycles : Nat) : ∀ seqNum ptr,
    skip < seqNum ∨ seqNum + cycles ≤ skip →
    byteSum (m.bytes ptr (2 * cycles)) = skipSum m skip cycles seqNum ptr := by
  induction cycles with
  | zero => intro _ _ _; rfl
  | succ cycles ih =>
    intro seqNum ptr h
    rw [Nat.mul_succ, byteSum_bytes_succ, ih (seqNum + 1) (ptr + 2) (by omega), skipSum,
      if_neg (by omega)]

/-- The total and the skipped word make up the sum of the words. -/
theorem skipSum_add (m : Mem) (skip cycles : Nat) : ∀ seqNum ptr,
    seqNum ≤ skip → skip < seqNum + cycles →
    byteSum (m.bytes ptr (2 * cycles)) =
      skipSum m skip cycles seqNum ptr + net16 m (ptr + 2 * (skip - seqNum)) := by
  induction cycles with
  | zero => intro _ _ _ _; omega
  | succ cycles ih =>
    intro seqNum ptr hle hlt
    rw [Nat.mul_succ, byteSum_bytes_succ, skipSum]
    by_cases heq : seqNum = skip
    · rw [if_pos heq, skipSum_all m skip cycles (seqNum + 1) (ptr + 2) (by omega), heq,
        Nat.sub_self]
      simp only [Nat.mul_zero, Nat.add_zero]
      omega
    · rw [if_neg heq, ih (seqNum + 1) (ptr + 2) (by omega) (by omega),
        show ptr + 2 + 2 * (skip - (seqNum + 1)) = ptr + 2 * (skip - seqNum) by omega]
      omega

/-- Words and odd byte make up a byte string. -/
theorem byteSum_words_odd (m : Mem) (o n : Nat) :
    byteSum (m.bytes o n) = byteSum (m.bytes o (2 * (n / 2))) + oddSum m n (o + 2 * (n / 2)) := by
  unfold oddSum
  split
  next hodd =>
    conv_lhs => rw [show n = 2 * (n / 2) + 1 by omega, Mem.bytes_append,
      OnesSum.byteSum_append _ _ (by rw [Mem.length_bytes]; omega)]
    simp [Mem.bytes]
  next heven =>
    conv_lhs => rw [show n = 2 * (n / 2) by omega]
    rfl

/-! ## What the functions store -/

/-- The total of the pseudo header of an IPv4 segment. -/
def pseudoTotal (m : Mem) : Nat :=
  net16 m 12 + net16 m 14 + net16 m 16 + net16 m 18 + (m 9).toNat + segLen m

/-- The total of a segment of `n` bytes at `o` without one of its words. -/
def segTotal (m : Mem) (skip o n : Nat) : Nat :=
  skipSum m skip (n / 2) 0 o + oddSum m n (o + 2 * (n / 2))

/-- The total of a segment and its skipped word make up its sum. -/
theorem byteSum_segTotal (m : Mem) {skip n : Nat} (o : Nat) (h : skip < n / 2) :
    byteSum (m.bytes o n) = segTotal m skip o n + net16 m (o + 2 * skip) := by
  have hsum := skipSum_add m skip (n / 2) 0 o (by omega) (by omega)
  rw [Nat.sub_zero] at hsum
  unfold segTotal
  rw [byteSum_words_odd, hsum]
  omega

theorem segTotal_congr {m m' : Mem} {skip o n : Nat}
    (hword : ∀ i < n / 2, i ≠ skip → net16 m' (o + 2 * i) = net16 m (o + 2 * i))
    (hbyte : n % 2 = 1 → m' (o + 2 * (n / 2)) = m (o + 2 * (n / 2))) :
    segTotal m' skip o n = segTotal m skip o n := by
  have hskip : skipSum m' skip (n / 2) 0 o = skipSum m skip (n / 2) 0 o := by
    apply skipSum_congr
    intro i hi hne
    exact hword i hi (by omega)
  have hodd : oddSum m' n (o + 2 * (n / 2)) = oddSum m n (o + 2 * (n / 2)) := by
    unfold oddSum
    split
    next hn => rw [hbyte hn]
    next => rfl
  unfold segTotal
  rw [hskip, hodd]

/-- The total of a segment does not change with the skipped word, as long as that
word does not hold the odd byte. -/
theorem segTotal_put16 (m : Mem) {skip o n : Nat} (hodd : n ≠ 2 * skip + 1) (w : BitVec 16) :
    segTotal (m.put16 (o + 2 * skip) w) skip o n = segTotal m skip o n := by
  have hkeep : ∀ i, i ≠ o + 2 * skip → i ≠ o + 2 * skip + 1 →
      m.put16 (o + 2 * skip) w i = m i :=
    fun i h₀ h₁ => Mem.put16_of_ne _ _ _ h₀ h₁
  apply segTotal_congr
  · intro i _ hne
    exact net16_congr (hkeep _ (by omega) (by omega)) (hkeep _ (by omega) (by omega))
  · intro hn
    exact hkeep _ (by omega) (by omega)

section stores

variable (m : Mem)

@[simp] theorem ip4CalcPseudoheaderSum_mem : ip4CalcPseudoheaderSum.mem m = m := rfl

@[simp] theorem ip6CalcCommonPseudoheaderSum_mem : ip6CalcCommonPseudoheaderSum.mem m = m :=
  sumWords_mem m 16 16 0 8 0

theorem ip4CalcPseudoheaderSum_rep : Rep (ip4CalcPseudoheaderSum.val m) (pseudoTotal m) := by
  have hproto : ((m 9).setWidth 16).toNat = (m 9).toNat := by
    have hlt := (m 9).isLt
    rw [BitVec.toNat_setWidth, Nat.mod_eq_of_lt (by omega)]
  have hsum := ip4UpdateSum_rep (ip4UpdateSum_rep (ip4UpdateSum_rep (ip4UpdateSum_rep
    (ip4UpdateSum_rep (ip4UpdateSum_rep rep_zero (ntohs (m.word16 12))) (ntohs (m.word16 14)))
    (ntohs (m.word16 16))) (ntohs (m.word16 18))) ((m 9).setWidth 16))
    (ntohs (m.word16 2) - BitVec.ofNat 16 (ihlOf m * 4))
  rw [ntohs_word16, ntohs_word16, ntohs_word16, ntohs_word16, hproto, Nat.zero_add] at hsum
  exact hsum

/-- A packet that has its header gets a header checksum that fits. -/
theorem ip4CalcIpChecksum_stores {len : Nat} (h20 : 20 ≤ len) (hihl : ihlOf m * 4 ≤ len) :
    ∃ c : BitVec 16, Fits 65535 (skipSum m 5 (ihlOf m * 2) 0 0) c.toNat ∧
      (ip4CalcIpChecksum len).mem m = m.put16 10 (htons c) := by
  have hsum := sumWords_rep m 5 (ihlOf m * 2) 0 0 0 0 rep_zero
  rw [Nat.zero_add] at hsum
  refine ⟨_, ipSumToChecksum_fits hsum, ?_⟩
  unfold ip4CalcIpChecksum
  rw [if_neg (by omega), MemM.mem_bind, rdIhl_val, rdIhl_mem, if_neg (by omega), MemM.mem_bind,
    sumWords_mem]
  rfl

/-- The header checksum is all that is written. -/
theorem ip4CalcIpChecksum_of_ne (len : Nat) {i : Nat} (h₀ : i ≠ 10) (h₁ : i ≠ 11) :
    (ip4CalcIpChecksum len).mem m i = m i := by
  unfold ip4CalcIpChecksum
  by_cases h20 : len < 20
  · rw [if_pos h20]
    rfl
  · rw [if_neg h20, MemM.mem_bind, rdIhl_val, rdIhl_mem]
    by_cases hihl : len < ihlOf m * 2 * 2
    · rw [if_pos hihl]
      rfl
    · rw [if_neg hihl, MemM.mem_bind, sumWords_mem]
      exact Mem.put16_of_ne m 10 _ h₀ h₁

theorem ip4CalcTcpChecksum_short {len : Nat} (h : len < 40) :
    (ip4CalcTcpChecksum len).mem m = m := by
  unfold ip4CalcTcpChecksum
  rw [if_pos h]
  rfl

/-- The total that the TCP checksum of a packet has to fit. -/
def tcpTotal : Nat := pseudoTotal m + segTotal m 8 (segOffs m) (segLen m)

theorem ip4CalcTcpChecksum_stores {len : Nat} (h : 40 ≤ len) :
    ∃ c : BitVec 16, Fits 65535 (tcpTotal m) c.toNat ∧
      (ip4CalcTcpChecksum len).mem m = m.put16 (segOffs m + 16) (htons c) := by
  have hsum := addOddByte_rep m (segLen m) (segOffs m + 2 * (segLen m / 2))
    (sumWords_rep m 8 (segLen m / 2) 0 (segOffs m) _ _ (ip4CalcPseudoheaderSum_rep m))
  rw [Nat.add_assoc] at hsum
  refine ⟨_, ipSumToChecksum_fits hsum, ?_⟩
  unfold ip4CalcTcpChecksum
  rw [if_neg (by omega)]
  simp only [MemM.mem_bind, mem_rd16, val_rd16, rdIhl_mem, rdIhl_val, ip4CalcPseudoheaderSum_mem,
    sumWords_mem, addOddByte_mem]
  rfl

theorem ip4CalcUdpChecksum_mem (len : Nat) :
    (ip4CalcUdpChecksum len).mem m = if len < 40 then m else m.put16 (segOffs m + 6) (htons 0) := by
  unfold ip4CalcUdpChecksum
  rw [MemM.mem_ite]
  rfl

theorem ip6CalcChecksum_short (proto : BitVec 8) (skip field : Nat) (sum : BitVec 32) (buff : Nat)
    {len : BitVec 32} (h : len.toInt < 40) :
    (ip6CalcChecksum proto skip field sum buff len).mem m = m := by
  unfold ip6CalcChecksum
  rw [if_pos h]
  rfl

theorem ip6CalcCommonPseudoheaderSum_rep :
    Rep (ip6CalcCommonPseudoheaderSum.val m) (byteSum (m.bytes 8 32)) := by
  have hsum := sumWords_rep m 16 16 0 8 0 0 rep_zero
  rwa [Nat.zero_add, ← skipSum_all m 16 16 0 8 (by omega)] at hsum

theorem ip6CalcChecksum_stores (proto : BitVec 8) (skip field : Nat) {sum : BitVec 32} {t : Nat}
    (hsum : Rep sum t) (buff : Nat) {len : BitVec 32} (h : 40 ≤ len.toInt) :
    ∃ c : BitVec 16,
      Fits 65535 (t + proto.toNat + len.toNat / 65536 + len.toNat % 65536 +
        segTotal m skip buff len.toNat) c.toNat ∧
      (ip6CalcChecksum proto skip field sum buff len).mem m =
        m.put16 (buff + field) (htons c) := by
  have hproto : (proto.setWidth 16).toNat = proto.toNat := by
    have hlt := proto.isLt
    rw [BitVec.toNat_setWidth, Nat.mod_eq_of_lt (by omega)]
  have hhigh : ((len >>> 16).setWidth 16).toNat = len.toNat / 65536 := by
    have hlt := len.isLt
    rw [BitVec.toNat_setWidth, BitVec.toNat_ushiftRight, Nat.shiftRight_eq_div_pow,
      Nat.mod_eq_of_lt (by omega)]
  have hlow : (len.setWidth 16).toNat = len.toNat % 65536 := BitVec.toNat_setWidth 16 len
  have hlen := ip4UpdateSum_rep (ip4UpdateSum_rep (ip4UpdateSum_rep hsum (proto.setWidth 16))
    ((len >>> 16).setWidth 16)) (len.setWidth 16)
  rw [hproto, hhigh, hlow] at hlen
  have htotal := addOddByte_rep m len.toNat (buff + 2 * (len.toNat / 2))
    (sumWords_rep m skip (len.toNat / 2) 0 buff _ _ hlen)
  rw [Nat.add_assoc] at htotal
  refine ⟨_, ipSumToChecksum_fits htotal, ?_⟩
  unfold ip6CalcChecksum
  rw [if_neg (by omega)]
  simp only [MemM.mem_bind, sumWords_mem, addOddByte_mem]
  rfl

end stores

end ConfProfile
