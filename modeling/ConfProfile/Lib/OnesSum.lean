import Mathlib.Data.BitVec
import Mathlib.Algebra.BigOperators.Group.List.Basic

/-!
# One's complement sums

The Internet checksum adds 16-bit words with *end-around carry*: what leaves the
word at the top comes back in at the bottom. The words are the numbers up to
`M = 2 ^ 16 - 1`, and `M` itself is the second zero. Nothing below depends on
the width, so `M` is any positive number.

* `carryAdd M` — the addition of two words;
* `onesSum M ws` — the sum of the words of a message;
* `check M s` — the word that completes a message of sum `s`, never 0;
* `Verifies M ws` — the receiver's test: all words, the checksum included, add
  up to `M`.

Everything follows from one closed form. A number has one representative among
the words (`wrap`, where only 0 is represented by 0), end-around carry is
addition of representatives (`carryAdd_wrap`), and so a sum of words is the
representative of their sum in `Nat` (`onesSum_eq_wrap`).
-/

namespace OnesSum

/-- Addition with end-around carry. -/
def carryAdd (M a b : Nat) : Nat := if a + b ≤ M then a + b else a + b - M

/-- The representative of a number among `0, …, M`. -/
def wrap (M n : Nat) : Nat := if n = 0 then 0 else (n - 1) % M + 1

/-- The sum of the words of a message. -/
def onesSum (M : Nat) (ws : List Nat) : Nat := ws.foldl (carryAdd M) 0

/-- The word that completes a message of sum `s`. -/
def check (M s : Nat) : Nat := if s = M then M else M - s

/-- The receiver's test. -/
def Verifies (M : Nat) (ws : List Nat) : Prop := onesSum M ws = M

instance (M : Nat) (ws : List Nat) : Decidable (Verifies M ws) :=
  inferInstanceAs (Decidable (_ = _))

variable {M : Nat}

/-! ## Representatives -/

@[simp] theorem wrap_zero : wrap M 0 = 0 := by simp [wrap]

theorem wrap_eq_zero_iff {n : Nat} : wrap M n = 0 ↔ n = 0 := by
  unfold wrap
  split <;> omega

theorem wrap_le (hM : 0 < M) (n : Nat) : wrap M n ≤ M := by
  unfold wrap
  split
  · omega
  · have hlt := Nat.mod_lt (n - 1) hM
    omega

/-- `n` and its representative differ by a multiple of `M`. -/
theorem wrap_add_mul (n : Nat) : ∃ k, n = wrap M n + M * k := by
  unfold wrap
  split
  next h => exact ⟨0, by omega⟩
  next h =>
    have hdiv := Nat.mod_add_div (n - 1) M
    exact ⟨(n - 1) / M, by omega⟩

/-- `wrap M n` is the only word that represents `n` the way `n` is zero or not. -/
theorem wrap_unique {n w k : Nat} (hw : w ≤ M) (hzero : w = 0 ↔ n = 0) (h : n = w + M * k) :
    wrap M n = w := by
  unfold wrap
  split
  next hn => omega
  next hn =>
    have hpos : 0 < w := by omega
    have hsub : n - 1 = (w - 1) + M * k := by omega
    rw [hsub, Nat.add_mul_mod_self_left, Nat.mod_eq_of_lt (by omega)]
    omega

/-- End-around carry adds representatives. -/
theorem carryAdd_wrap (hM : 0 < M) (a : Nat) {b : Nat} (hb : b ≤ M) :
    carryAdd M (wrap M a) b = wrap M (a + b) := by
  obtain ⟨k, hk⟩ := wrap_add_mul (M := M) a
  have hle := wrap_le hM a
  have hzero := wrap_eq_zero_iff (M := M) (n := a)
  symm
  unfold carryAdd
  split
  next hfit => exact wrap_unique hfit (by omega) (k := k) (by omega)
  next hover =>
    have hmul : M * (k + 1) = M * k + M := Nat.mul_succ M k
    exact wrap_unique (by omega) (by omega) (k := k + 1) (by omega)

/-- Only the positive multiples of `M` are represented by `M`. -/
theorem wrap_eq_top_iff (hM : 0 < M) (n : Nat) : wrap M n = M ↔ 0 < n ∧ n % M = 0 := by
  refine ⟨?_, ?_⟩
  · intro h
    obtain ⟨k, hk⟩ := wrap_add_mul (M := M) n
    rw [h] at hk
    refine ⟨by omega, ?_⟩
    rw [hk, Nat.add_mul_mod_self_left, Nat.mod_self]
  · intro ⟨hpos, hmod⟩
    obtain ⟨k, rfl⟩ := Nat.dvd_of_mod_eq_zero hmod
    cases k with
    | zero => simp at hpos
    | succ j => exact wrap_unique le_rfl (by omega) (k := j) (by rw [Nat.mul_succ]; omega)

/-! ## The sum of a message -/

theorem foldl_carryAdd (hM : 0 < M) (ws : List Nat) (hws : ∀ w ∈ ws, w ≤ M) (a : Nat) :
    ws.foldl (carryAdd M) (wrap M a) = wrap M (a + ws.sum) := by
  induction ws generalizing a with
  | nil => simp
  | cons w ws ih =>
    rw [List.foldl_cons, carryAdd_wrap hM a (hws w (by simp)),
      ih (fun v hv => hws v (by simp [hv])), List.sum_cons, Nat.add_assoc]

theorem onesSum_eq_wrap (hM : 0 < M) {ws : List Nat} (hws : ∀ w ∈ ws, w ≤ M) :
    onesSum M ws = wrap M ws.sum := by
  have h := foldl_carryAdd hM ws hws 0
  rwa [wrap_zero, Nat.zero_add] at h

theorem onesSum_le (hM : 0 < M) {ws : List Nat} (hws : ∀ w ∈ ws, w ≤ M) : onesSum M ws ≤ M := by
  rw [onesSum_eq_wrap hM hws]
  exact wrap_le hM _

theorem onesSum_eq_zero_iff (hM : 0 < M) {ws : List Nat} (hws : ∀ w ∈ ws, w ≤ M) :
    onesSum M ws = 0 ↔ ∀ w ∈ ws, w = 0 := by
  rw [onesSum_eq_wrap hM hws, wrap_eq_zero_iff, List.sum_eq_zero_iff_forall_eq_nat]

theorem onesSum_perm (hM : 0 < M) {ws ws' : List Nat} (hws : ∀ w ∈ ws, w ≤ M)
    (h : ws.Perm ws') : onesSum M ws = onesSum M ws' := by
  rw [onesSum_eq_wrap hM hws, onesSum_eq_wrap hM fun w hw => hws w (h.mem_iff.mpr hw), h.sum_eq]

theorem verifies_iff (hM : 0 < M) {ws : List Nat} (hws : ∀ w ∈ ws, w ≤ M) :
    Verifies M ws ↔ 0 < ws.sum ∧ ws.sum % M = 0 := by
  unfold Verifies
  rw [onesSum_eq_wrap hM hws, wrap_eq_top_iff hM]

/-! ## The checksum word -/

/-- A word fits a message of total `t` when it is not 0 and completes it. -/
def Fits (M t c : Nat) : Prop := 0 < c ∧ c ≤ M ∧ (t + c) % M = 0

/-- The checksum is the one word that fits. -/
theorem eq_check_iff (hM : 0 < M) (t c : Nat) : c = check M (wrap M t) ↔ Fits M t c := by
  obtain ⟨k, hk⟩ := wrap_add_mul (M := M) t
  have hle := wrap_le hM t
  have hfit : ∀ d, (t + d) % M = (wrap M t + d) % M := by
    intro d
    conv_lhs => rw [hk]
    rw [Nat.add_right_comm, Nat.add_mul_mod_self_left]
  unfold Fits check
  rw [hfit c]
  refine ⟨?_, ?_⟩
  · intro hc
    split at hc
    next htop =>
      subst hc
      refine ⟨hM, le_rfl, ?_⟩
      rw [htop, Nat.add_mod_right, Nat.mod_self]
    next hne =>
      refine ⟨by omega, by omega, ?_⟩
      rw [show wrap M t + c = M by omega, Nat.mod_self]
  · intro ⟨hpos, hcle, hmod⟩
    obtain ⟨j, hj⟩ := Nat.dvd_of_mod_eq_zero hmod
    -- the total lies in `(0, 2 * M]`, so it is `M` or `2 * M`
    have hj0 : j ≠ 0 := by
      intro h0
      rw [h0, Nat.mul_zero] at hj
      omega
    have hj2 : j ≤ 2 := by
      by_contra hgt
      have hmul : M * 3 ≤ M * j := Nat.mul_le_mul le_rfl (by omega)
      omega
    have hcases : j = 1 ∨ j = 2 := by omega
    rcases hcases with rfl | rfl
    · split <;> omega
    · split <;> omega

/-! ## Messages of bytes -/

/-- The 16-bit words of a byte string in network order; an odd byte at the end
is padded with zeros on its right. -/
def netWords : List (BitVec 8) → List Nat
  | [] => []
  | [a] => [a.toNat * 256]
  | a :: b :: bs => (a.toNat * 256 + b.toNat) :: netWords bs

theorem netWords_le : ∀ (bs : List (BitVec 8)), ∀ w ∈ netWords bs, w ≤ 65535
  | [] => by simp [netWords]
  | [a] => by
    intro w hw
    have ha := a.isLt
    simp only [netWords, List.mem_singleton] at hw
    omega
  | a :: b :: bs => by
    intro w hw
    have ha := a.isLt
    have hb := b.isLt
    rw [netWords, List.mem_cons] at hw
    rcases hw with rfl | hw
    · omega
    · exact netWords_le bs w hw

/-- Words do not straddle the border behind a string of even length. -/
theorem netWords_append : ∀ (as bs : List (BitVec 8)), as.length % 2 = 0 →
    netWords (as ++ bs) = netWords as ++ netWords bs
  | [], _, _ => by simp [netWords]
  | [a], _, h => by simp at h
  | a :: b :: as, bs, h => by
    have hlen : as.length % 2 = 0 := by
      simp only [List.length_cons] at h
      omega
    simp [netWords, netWords_append as bs hlen]

/-- The sum of the words of a byte string. -/
def byteSum (bs : List (BitVec 8)) : Nat := (netWords bs).sum

/-- The Internet checksum test of a byte string. -/
def InternetVerifies (bs : List (BitVec 8)) : Prop := Verifies 65535 (netWords bs)

instance (bs : List (BitVec 8)) : Decidable (InternetVerifies bs) :=
  inferInstanceAs (Decidable (Verifies _ _))

theorem internetVerifies_iff (bs : List (BitVec 8)) :
    InternetVerifies bs ↔ 0 < byteSum bs ∧ byteSum bs % 65535 = 0 :=
  verifies_iff (by omega) (netWords_le bs)

theorem byteSum_append (as bs : List (BitVec 8)) (h : as.length % 2 = 0) :
    byteSum (as ++ bs) = byteSum as + byteSum bs := by
  unfold byteSum
  rw [netWords_append as bs h, List.sum_append]

@[simp] theorem byteSum_nil : byteSum [] = 0 := rfl

@[simp] theorem byteSum_singleton (a : BitVec 8) : byteSum [a] = a.toNat * 256 := by
  simp [byteSum, netWords]

@[simp] theorem byteSum_cons_cons (a b : BitVec 8) (bs : List (BitVec 8)) :
    byteSum (a :: b :: bs) = a.toNat * 256 + b.toNat + byteSum bs := by
  simp [byteSum, netWords]

end OnesSum
