import Mathlib.Algebra.Squarefree.Basic
import Mathlib.Data.Nat.Squarefree
import Mathlib.Data.Nat.Log
import Mathlib.FieldTheory.Finite.Basic

/-!
# RSA

Numbers as big-endian octets, and key pairs: a modulus that is a product of distinct primes,
and two exponents that undo each other modulo `p - 1` for each of them.

`KeyPair.pow_mul_modEq` is the law of a key pair. Raising to `e` and raising to `d` agree at `x`
exactly if raising to `e` twice gives `x` back (`KeyPair.pow_e_modEq_pow_d_iff`), which is a
matter of the order of `x` modulo each prime (`KeyPair.pow_e_modEq_pow_d_iff_order`).
-/

namespace Rsa

/-! ## Octets -/

def os2ip (octets : List (BitVec 8)) : Nat := octets.foldl (fun x b => 256 * x + b.toNat) 0

/-- The last `k` octets of `x`. -/
def i2osp (x : Nat) : Nat → List (BitVec 8)
  | 0 => []
  | k + 1 => i2osp (x / 256) k ++ [BitVec.ofNat 8 x]

@[simp] theorem length_i2osp (x k : Nat) : (i2osp x k).length = k := by
  induction k generalizing x with
  | zero => rfl
  | succ k ih => rw [i2osp, List.length_append, ih, List.length_singleton]

theorem os2ip_append (octets : List (BitVec 8)) (b : BitVec 8) :
    os2ip (octets ++ [b]) = 256 * os2ip octets + b.toNat := by
  unfold os2ip
  rw [List.foldl_append, List.foldl_cons, List.foldl_nil]

theorem os2ip_i2osp (x k : Nat) : os2ip (i2osp x k) = x % 256 ^ k := by
  induction k generalizing x with
  | zero => rw [pow_zero, Nat.mod_one]; rfl
  | succ k ih =>
    have hpow : 256 ^ (k + 1) = 256 * 256 ^ k := pow_succ' 256 k
    rw [i2osp, os2ip_append, ih, BitVec.toNat_ofNat, hpow, Nat.mod_mul]
    omega

theorem i2osp_inj {x y k : Nat} (hx : x < 256 ^ k) (hy : y < 256 ^ k) :
    i2osp x k = i2osp y k ↔ x = y := by
  refine ⟨fun h => ?_, fun h => h ▸ rfl⟩
  have hsame := congrArg os2ip h
  rwa [os2ip_i2osp, os2ip_i2osp, Nat.mod_eq_of_lt hx, Nat.mod_eq_of_lt hy] at hsame

theorem os2ip_lt (octets : List (BitVec 8)) : os2ip octets < 256 ^ octets.length := by
  induction octets using List.reverseRecOn with
  | nil => exact Nat.one_pos
  | append_singleton octets b ih =>
    have hb := b.isLt
    rw [os2ip_append, List.length_append, List.length_singleton, pow_succ']
    omega

/-- A leading zero adds nothing. -/
theorem os2ip_zero_cons (octets : List (BitVec 8)) : os2ip (0 :: octets) = os2ip octets := rfl

/-- Octets of one length are the same number only if they are the same. -/
theorem os2ip_inj {octets octets' : List (BitVec 8)} (hlen : octets.length = octets'.length)
    (h : os2ip octets = os2ip octets') : octets = octets' := by
  induction octets using List.reverseRecOn generalizing octets' with
  | nil => exact (List.eq_nil_of_length_eq_zero hlen.symm).symm
  | append_singleton octets b ih =>
    cases octets' using List.reverseRecOn with
    | nil => simp at hlen
    | append_singleton octets' b' =>
      have hb := b.isLt
      have hb' := b'.isLt
      rw [os2ip_append, os2ip_append] at h
      have hfront : octets = octets' := ih (by simpa using hlen) (by omega)
      have hlast : b = b' := BitVec.eq_of_toNat_eq (by omega)
      rw [hfront, hlast]

/-- The length of a modulus in octets. -/
def modulusLen (n : Nat) : Nat := Nat.log 256 n + 1

theorem lt_pow_modulusLen (n : Nat) : n < 256 ^ modulusLen n :=
  Nat.lt_pow_succ_log_self (by decide) n

theorem pow_modulusLen_le {n : Nat} (hn : n ≠ 0) : 256 ^ (modulusLen n - 1) ≤ n :=
  Nat.pow_log_le_self 256 hn

/-! ## Powers modulo a prime -/

section prime

variable {p x m : Nat}

/-- Powers agree with `x` modulo `p` by its order. -/
theorem pow_modEq_self_iff (hp : p.Prime) (hm : 0 < m) :
    x ^ m ≡ x [MOD p] ↔ p ∣ x ∨ orderOf (x : ZMod p) ∣ m - 1 := by
  have : Fact p.Prime := ⟨hp⟩
  rw [← ZMod.natCast_eq_natCast_iff, Nat.cast_pow, orderOf_dvd_iff_pow_eq_one,
    ← ZMod.natCast_eq_zero_iff]
  obtain ⟨k, rfl⟩ : ∃ k, m = k + 1 := ⟨m - 1, by omega⟩
  rw [Nat.add_sub_cancel, pow_succ]
  constructor
  · intro h
    by_cases hx : (x : ZMod p) = 0
    · exact Or.inl hx
    · exact Or.inr (mul_right_cancel₀ hx (h.trans (one_mul _).symm))
  · rintro (hx | hx)
    · rw [hx, mul_zero]
    · rw [hx, one_mul]

/-- Fermat's little theorem, for every base. -/
theorem pow_modEq_self (hp : p.Prime) (hm : 0 < m) (h : m ≡ 1 [MOD p - 1]) :
    x ^ m ≡ x [MOD p] := by
  have : Fact p.Prime := ⟨hp⟩
  rw [pow_modEq_self_iff hp hm]
  by_cases hx : p ∣ x
  · exact Or.inl hx
  · right
    have hunit : (x : ZMod p) ≠ 0 := by rwa [ne_eq, ZMod.natCast_eq_zero_iff]
    have hdvd : p - 1 ∣ m - 1 := (Nat.modEq_iff_dvd' hm).mp h.symm
    exact (orderOf_dvd_of_pow_eq_one (ZMod.pow_card_sub_one_eq_one hunit)).trans hdvd

end prime

/-- Congruence modulo a product of distinct primes. -/
theorem modEq_iff_forall_prime {n a b : Nat} (hn : Squarefree n) :
    a ≡ b [MOD n] ↔ ∀ p, p.Prime → p ∣ n → a ≡ b [MOD p] := by
  refine ⟨fun h p _ hp => h.of_dvd hp, fun h => ?_⟩
  rw [Nat.modEq_iff_dvd, Int.natCast_dvd, ← Nat.prod_primeFactors_of_squarefree hn]
  refine Finset.prod_primes_dvd _ (fun p hp => (Nat.prime_of_mem_primeFactors hp).prime) ?_
  intro p hp
  have hmod := h p (Nat.prime_of_mem_primeFactors hp) (Nat.dvd_of_mem_primeFactors hp)
  rwa [Nat.modEq_iff_dvd, Int.natCast_dvd] at hmod

/-! ## Key pairs -/

/-- An RSA key pair: `e` is public, `d` is private. -/
structure KeyPair where
  n : Nat
  e : Nat
  d : Nat
  squarefree : Squarefree n
  e_pos : 0 < e
  d_pos : 0 < d
  inverse : ∀ p, p.Prime → p ∣ n → e * d ≡ 1 [MOD p - 1]

variable (key : KeyPair) (x : Nat)

/-- What one exponent does is undone by the other. -/
theorem KeyPair.pow_mul_modEq : x ^ (key.e * key.d) ≡ x [MOD key.n] := by
  rw [modEq_iff_forall_prime key.squarefree]
  intro p hp hdvd
  exact pow_modEq_self hp (Nat.mul_pos key.e_pos key.d_pos) (key.inverse p hp hdvd)

/-- Different numbers have different powers. -/
theorem KeyPair.pow_d_inj {x y : Nat} (hx : x < key.n) (hy : y < key.n)
    (h : x ^ key.d ≡ y ^ key.d [MOD key.n]) : x = y := by
  have hpow := h.pow key.e
  rw [← pow_mul, ← pow_mul, mul_comm key.d] at hpow
  have hmod := ((key.pow_mul_modEq x).symm.trans hpow).trans (key.pow_mul_modEq y)
  rwa [Nat.ModEq, Nat.mod_eq_of_lt hx, Nat.mod_eq_of_lt hy] at hmod

/-- The exponents do the same to `x` exactly if the public one undoes itself. -/
theorem KeyPair.pow_e_modEq_pow_d_iff :
    x ^ key.e ≡ x ^ key.d [MOD key.n] ↔ x ^ (key.e * key.e) ≡ x [MOD key.n] := by
  constructor
  · intro h
    have hpow := h.pow key.e
    rw [← pow_mul, ← pow_mul, mul_comm key.d] at hpow
    exact hpow.trans (key.pow_mul_modEq x)
  · intro h
    have hpow := h.pow key.d
    rw [← pow_mul, mul_assoc, mul_comm, pow_mul] at hpow
    exact ((key.pow_mul_modEq x).pow key.e).symm.trans hpow

/-- The public exponent undoes itself at `x`: modulo each prime of the modulus that does not
divide `x`, its square is 1 modulo the order of `x`. -/
def KeyPair.SelfInverseAt : Prop :=
  ∀ p, p.Prime → p ∣ key.n → p ∣ x ∨ orderOf (x : ZMod p) ∣ key.e * key.e - 1

theorem KeyPair.pow_e_modEq_pow_d_iff_order :
    x ^ key.e ≡ x ^ key.d [MOD key.n] ↔ key.SelfInverseAt x := by
  rw [key.pow_e_modEq_pow_d_iff, modEq_iff_forall_prime key.squarefree]
  refine forall_congr' fun p => forall_congr' fun hp => forall_congr' fun _ => ?_
  exact pow_modEq_self_iff hp (Nat.mul_pos key.e_pos key.e_pos)

end Rsa
