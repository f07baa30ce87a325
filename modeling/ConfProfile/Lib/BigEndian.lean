import Mathlib.Data.Nat.ModEq

/-!
# Numbers in network order

`bytes k n` are the low `k` bytes of a number, the high one first, and `value` is the
number that bytes stand for. Reading what was written keeps the low bytes
(`value_bytes`).
-/

namespace BigEndian

def bytes : Nat → Nat → List (BitVec 8)
  | 0, _ => []
  | k + 1, n => BitVec.ofNat 8 (n / 256 ^ k) :: bytes k n

def value : List (BitVec 8) → Nat
  | [] => 0
  | b :: bs => b.toNat * 256 ^ bs.length + value bs

@[simp] theorem length_bytes (k n : Nat) : (bytes k n).length = k := by
  induction k with
  | zero => rfl
  | succ k ih => rw [bytes, List.length_cons, ih]

theorem value_bytes (k n : Nat) : value (bytes k n) = n % 256 ^ k := by
  induction k with
  | zero => rw [Nat.pow_zero, Nat.mod_one]; rfl
  | succ k ih =>
    have hsucc : n % 256 ^ (k + 1) = n % 256 ^ k + 256 ^ k * (n / 256 ^ k % 256) :=
      Nat.mod_pow_succ
    rw [bytes, value, ih, length_bytes, BitVec.toNat_ofNat, hsucc, Nat.add_comm, Nat.mul_comm]

/-- Bytes are of the low bits only. -/
theorem bytes_mod {k j : Nat} (n : Nat) (h : k ≤ j) : bytes k (n % 256 ^ j) = bytes k n := by
  induction k with
  | zero => rfl
  | succ k ih =>
    have hpow : 256 ^ j = 256 ^ k * 256 ^ (j - k) := by
      rw [← Nat.pow_add, Nat.add_sub_cancel' (by omega)]
    have hdvd : 2 ^ 8 ∣ 256 ^ (j - k) := dvd_pow_self 256 (by omega)
    have hbyte : BitVec.ofNat 8 (n % 256 ^ j / 256 ^ k) = BitVec.ofNat 8 (n / 256 ^ k) := by
      apply BitVec.eq_of_toNat_eq
      rw [BitVec.toNat_ofNat, BitVec.toNat_ofNat, hpow, Nat.mod_mul_right_div_self,
        Nat.mod_mod_of_dvd _ hdvd]
    rw [bytes, bytes, hbyte, ih (by omega)]

/-- A word of four bytes is read as it was written. -/
theorem value_word32 (w : BitVec 32) : value (bytes 4 w.toNat) = w.toNat := by
  rw [value_bytes]
  exact Nat.mod_eq_of_lt w.isLt

/-- A byte put behind a number. -/
theorem toNat_appendByte {k : Nat} (a : BitVec k) (b : BitVec 8) :
    (a ++ b).toNat = a.toNat * 256 + b.toNat := by
  have hb := b.isLt
  rw [BitVec.toNat_append, ← Nat.shiftLeft_add_eq_or_of_lt hb, Nat.shiftLeft_eq]

/-- Four bytes one behind the other. -/
theorem toNat_append_bytes (b0 b1 b2 b3 : BitVec 8) :
    (b0 ++ b1 ++ b2 ++ b3 : BitVec 32).toNat =
      ((b0.toNat * 256 + b1.toNat) * 256 + b2.toNat) * 256 + b3.toNat := by
  refine (toNat_appendByte (b0 ++ b1 ++ b2) b3).trans ?_
  rw [toNat_appendByte (b0 ++ b1) b2, toNat_appendByte b0 b1]

end BigEndian
