import ConfProfile.Lib.BigEndian
import Mathlib.Data.Nat.Basic
import Mathlib.Tactic.Ring

/-!
# Network prefixes of a bit vector

`netOf m a` keeps the `m` most significant bits of an address and clears the
others (the host bits), computed as two opposite shifts. An address *shares the
first `m` bits* with a network iff clearing its host bits gives that network
(`netOf_eq_iff_shares`), and along the prefixes of one address a longer prefix
is a larger number (`netOf_mono`): this is why a list ordered by descending
address, then by descending prefix length, meets the longest matching prefix
first.

An address that is kept in bytes is `ofBytes` of them; its network and its
first bits are those of its bytes (`netOf_ofBytes`, `shares_ofBytes_iff`).
-/

namespace NetPrefix

open BigEndian (toNat_appendByte)

variable {w : Nat}

/-- The `m` leading bits of `a`, the host bits cleared. A shift by the full
width leaves nothing. -/
def netOf (m : Nat) (a : BitVec w) : BitVec w := (a >>> (w - m)) <<< (w - m)

/-- The first `m` bits of the two addresses, counted from the most significant
one, are the same. -/
def SharesPrefix (m : Nat) (a b : BitVec w) : Prop := ∀ i < m, a.getMsbD i = b.getMsbD i

instance (m : Nat) (a b : BitVec w) : Decidable (SharesPrefix m a b) := by
  unfold SharesPrefix
  infer_instance

theorem toNat_netOf (m : Nat) (a : BitVec w) :
    (netOf m a).toNat = a.toNat / 2 ^ (w - m) * 2 ^ (w - m) := by
  have hle : a.toNat / 2 ^ (w - m) * 2 ^ (w - m) ≤ a.toNat := Nat.div_mul_le_self _ _
  rw [netOf, BitVec.toNat_shiftLeft, BitVec.toNat_ushiftRight, Nat.shiftLeft_eq,
    Nat.shiftRight_eq_div_pow]
  exact Nat.mod_eq_of_lt (Nat.lt_of_le_of_lt hle a.isLt)

theorem netOf_le (m : Nat) (a : BitVec w) : (netOf m a).toNat ≤ a.toNat := by
  rw [toNat_netOf]
  exact Nat.div_mul_le_self _ _

/-- A prefix of a longer prefix is a prefix of the address. -/
theorem netOf_netOf {m m' : Nat} (h : m ≤ m') (a : BitVec w) :
    netOf m (netOf m' a) = netOf m a := by
  apply BitVec.eq_of_toNat_eq
  rw [toNat_netOf, toNat_netOf, toNat_netOf]
  have hexp : 2 ^ (w - m) = 2 ^ (w - m') * 2 ^ ((w - m) - (w - m')) := by
    rw [← Nat.pow_add]
    congr 1
    omega
  have hdiv : a.toNat / 2 ^ (w - m') * 2 ^ (w - m') / 2 ^ (w - m) = a.toNat / 2 ^ (w - m) := by
    rw [hexp, ← Nat.div_div_eq_div_mul, Nat.mul_div_cancel _ (Nat.two_pow_pos _),
      Nat.div_div_eq_div_mul]
  rw [hdiv]

@[simp] theorem netOf_self (m : Nat) (a : BitVec w) : netOf m (netOf m a) = netOf m a :=
  netOf_netOf (le_refl m) a

/-- Longer prefixes of one address are larger numbers. -/
theorem netOf_mono {m m' : Nat} (h : m ≤ m') (a : BitVec w) :
    (netOf m a).toNat ≤ (netOf m' a).toNat := by
  rw [← netOf_netOf h a]
  exact netOf_le m (netOf m' a)

theorem getMsbD_netOf {m : Nat} (hm : m ≤ w) (a : BitVec w) (i : Nat) :
    (netOf m a).getMsbD i = (decide (i < m) && a.getMsbD i) := by
  rw [netOf, BitVec.getMsbD_shiftLeft, BitVec.getMsbD_ushiftRight, Nat.add_sub_cancel]
  have hbit : i + (w - m) < w ↔ i < m := by omega
  have hnot : ¬ i + (w - m) < w - m := by omega
  simp [hbit, hnot]

/-- Two addresses have the same network exactly if they share its bits. -/
theorem netOf_eq_netOf_iff {m : Nat} (hm : m ≤ w) (a b : BitVec w) :
    netOf m a = netOf m b ↔ SharesPrefix m a b := by
  refine ⟨?_, ?_⟩
  · intro h i hi
    have hbit : (netOf m a).getMsbD i = (netOf m b).getMsbD i := by rw [h]
    simpa [getMsbD_netOf hm, hi] using hbit
  · intro h
    apply BitVec.eq_of_getMsbD_eq
    intro i hi
    rw [getMsbD_netOf hm, getMsbD_netOf hm]
    by_cases him : i < m
    · rw [h i him]
    · simp [him]

/-- A network (an address without host bits) is the network of `a` exactly if
it shares its bits with `a`. -/
theorem netOf_eq_iff_shares {m : Nat} (hm : m ≤ w) {n a : BitVec w} (hn : netOf m n = n) :
    n = netOf m a ↔ SharesPrefix m n a := by
  rw [← netOf_eq_netOf_iff hm, hn]

/-- The bits of a network are those of every address in it. -/
theorem shares_netOf_iff {m : Nat} (hm : m ≤ w) (a b : BitVec w) :
    SharesPrefix m (netOf m a) b ↔ SharesPrefix m a b := by
  rw [← netOf_eq_netOf_iff hm, ← netOf_eq_netOf_iff hm, netOf_self]

@[simp] theorem netOf_zero (a : BitVec w) : netOf 0 a = 0#w := by
  apply BitVec.eq_of_getMsbD_eq
  intro i _
  rw [getMsbD_netOf (Nat.zero_le w)]
  simp

theorem netOf_width (a : BitVec w) : netOf w a = a := by
  unfold netOf
  rw [Nat.sub_self, BitVec.ushiftRight_zero, BitVec.shiftLeft_zero]

/-- The bits of a network as a bit mask. -/
theorem and_netOf_allOnes {m : Nat} (hm : m ≤ w) (a : BitVec w) :
    a &&& netOf m (BitVec.allOnes w) = netOf m a := by
  apply BitVec.eq_of_getMsbD_eq
  intro i hi
  rw [BitVec.getMsbD_and, getMsbD_netOf hm, getMsbD_netOf hm]
  simp [hi, Bool.and_comm]

/-! ## Addresses in bytes -/

/-- The address that the first `n` bytes are, the most significant one first. -/
def ofBytes (bytes : Nat → BitVec 8) : (n : Nat) → BitVec (8 * n)
  | 0 => 0#0
  | n + 1 => ofBytes bytes n ++ bytes n

/-- A byte of an address. -/
def byteOf {n : Nat} (a : BitVec (8 * n)) (i : Nat) : BitVec 8 := a.extractLsb' (8 * (n - 1 - i)) 8

section bytes

variable {bytes bytes' : Nat → BitVec 8} {n m : Nat}

theorem getMsbD_ofBytes (bytes : Nat → BitVec 8) {i : Nat} (hi : i < 8 * n) :
    (ofBytes bytes n).getMsbD i = (bytes (i / 8)).getMsbD (i % 8) := by
  induction n with
  | zero => omega
  | succ n ih =>
    show (ofBytes bytes n ++ bytes n).getMsbD i = _
    rw [BitVec.getMsbD_append]
    by_cases hlast : 8 * n ≤ i
    · have hbyte : i / 8 = n := by omega
      have hbit : i - 8 * n = i % 8 := by omega
      simp [hlast, hbyte, hbit]
    · simp [hlast, ih (by omega)]

/-- The last byte decides only where those in front of it are the same. -/
theorem ofBytes_succ_lt_iff : ofBytes bytes (n + 1) < ofBytes bytes' (n + 1) ↔
    ofBytes bytes n < ofBytes bytes' n ∨
      (ofBytes bytes n = ofBytes bytes' n ∧ bytes n < bytes' n) := by
  have hb := (bytes n).isLt
  have hb' := (bytes' n).isLt
  rw [BitVec.lt_def, BitVec.lt_def, BitVec.lt_def, ← BitVec.toNat_inj, ofBytes, ofBytes,
    toNat_appendByte, toNat_appendByte]
  omega

theorem ofBytes_succ_inj : ofBytes bytes (n + 1) = ofBytes bytes' (n + 1) ↔
    ofBytes bytes n = ofBytes bytes' n ∧ bytes n = bytes' n := by
  have hb := (bytes n).isLt
  have hb' := (bytes' n).isLt
  rw [← BitVec.toNat_inj, ← BitVec.toNat_inj, ← BitVec.toNat_inj, ofBytes, ofBytes,
    toNat_appendByte, toNat_appendByte]
  omega

theorem getMsbD_byteOf (a : BitVec (8 * n)) {i j : Nat} (hi : i < n) (hj : j < 8) :
    (byteOf a i).getMsbD j = a.getMsbD (8 * i + j) := by
  have hin : 8 * (n - 1 - i) + 8 - j ≤ 8 * n := by omega
  have hbit : 8 * n - (8 * (n - 1 - i) + 8 - j) = 8 * i + j := by omega
  rw [byteOf, BitVec.getMsbD_extractLsb', hbit]
  simp [hj, hin]

theorem ofBytes_byteOf (a : BitVec (8 * n)) : ofBytes (byteOf a) n = a := by
  apply BitVec.eq_of_getMsbD_eq
  intro i hi
  rw [getMsbD_ofBytes (byteOf a) hi, getMsbD_byteOf a (by omega) (by omega), Nat.div_add_mod]

theorem byteOf_ofBytes (bytes : Nat → BitVec 8) {i : Nat} (hi : i < n) :
    byteOf (ofBytes bytes n) i = bytes i := by
  apply BitVec.eq_of_getMsbD_eq
  intro j hj
  rw [getMsbD_byteOf _ hi hj, getMsbD_ofBytes bytes (by omega),
    show (8 * i + j) / 8 = i by omega, show (8 * i + j) % 8 = j by omega]

theorem ofBytes_inj : ofBytes bytes n = ofBytes bytes' n ↔ ∀ i < n, bytes i = bytes' i := by
  constructor
  · intro h i hi
    rw [← byteOf_ofBytes bytes hi, h, byteOf_ofBytes bytes' hi]
  · intro h
    apply BitVec.eq_of_getMsbD_eq
    intro i hi
    rw [getMsbD_ofBytes bytes hi, getMsbD_ofBytes bytes' hi, h (i / 8) (by omega)]

/-- Clearing the host bits leaves the bytes in front, cuts one of them and clears those behind. -/
theorem netOf_ofBytes (hm : m ≤ 8 * n) (bytes : Nat → BitVec 8) :
    netOf m (ofBytes bytes n) = ofBytes (fun i => netOf (min 8 (m - 8 * i)) (bytes i)) n := by
  apply BitVec.eq_of_getMsbD_eq
  intro i hi
  have hbit : i < m ↔ i % 8 < min 8 (m - 8 * (i / 8)) := by omega
  rw [getMsbD_netOf hm, getMsbD_ofBytes bytes hi, getMsbD_ofBytes _ hi,
    getMsbD_netOf (Nat.min_le_left _ _)]
  simp only [hbit]

/-- The first bits are whole bytes, and the first bits of the byte behind them. -/
theorem shares_ofBytes_iff (hm : m ≤ 8 * n) :
    SharesPrefix m (ofBytes bytes n) (ofBytes bytes' n) ↔
      (∀ i < m / 8, bytes i = bytes' i) ∧
        SharesPrefix (m % 8) (bytes (m / 8)) (bytes' (m / 8)) := by
  have hbits : SharesPrefix m (ofBytes bytes n) (ofBytes bytes' n) ↔
      ∀ i < m, (bytes (i / 8)).getMsbD (i % 8) = (bytes' (i / 8)).getMsbD (i % 8) := by
    unfold SharesPrefix
    refine forall₂_congr fun i hi => ?_
    rw [getMsbD_ofBytes bytes (by omega), getMsbD_ofBytes bytes' (by omega)]
  rw [hbits]
  constructor
  · intro h
    refine ⟨fun i hi => ?_, fun j hj => ?_⟩
    · apply BitVec.eq_of_getMsbD_eq
      intro j hj
      have hbit := h (8 * i + j) (by omega)
      rwa [show (8 * i + j) / 8 = i by omega, show (8 * i + j) % 8 = j by omega] at hbit
    · have hbit := h (8 * (m / 8) + j) (by omega)
      rwa [show (8 * (m / 8) + j) / 8 = m / 8 by omega,
        show (8 * (m / 8) + j) % 8 = j by omega] at hbit
  · intro h i hi
    obtain ⟨hwhole, hpart⟩ := h
    by_cases hin : i / 8 < m / 8
    · rw [hwhole _ hin]
    · have hbyte : i / 8 = m / 8 := by omega
      rw [hbyte]
      exact hpart (i % 8) (by omega)

end bytes

end NetPrefix
