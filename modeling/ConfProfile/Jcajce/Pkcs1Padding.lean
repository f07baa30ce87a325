import Mathlib.Data.List.Basic
import Mathlib.Tactic.NormNum

/-!
# `Pkcs1Padding`

`wrap` writes 00 01, bytes FF, 00 and the hash into an array of `totalLen` bytes; the only hasher
is `NoneHasher`, which returns all of `data`. Each write may be out of bounds, and the length and
the number of bytes FF are computed as Java `int`.

`writeBlock_eq` says what the writes make of the array, and `wrap_whole_iff` what `wrap` returns
for a whole array.
-/

namespace ConfProfile.Jcajce

abbrev Byte := BitVec 8

/-- A Java `int`. -/
def int32 (x : Int) : Int := x.bmod (2 ^ 32)

theorem int32_eq {x : Int} (hl : -2147483648 ≤ x) (hu : x < 2147483648) : int32 x = x := by
  unfold int32
  rw [Int.bmod_eq_of_le] <;> omega

/-- What `wrap` throws. -/
inductive WrapError
  | shortBuffer
  | negativeArraySize
  | arrayIndexOutOfBounds
  deriving DecidableEq, Repr

/-- `result[pos] = b`. -/
def store (result : List Byte) (pos : Nat) (b : Byte) : Except WrapError (List Byte) :=
  if pos < result.length then .ok (result.set pos b) else .error .arrayIndexOutOfBounds

/-- The loop that writes `count` bytes of padding; it moves `pos`. -/
def padLoop : Nat → List Byte → Nat → Except WrapError (List Byte × Nat)
  | 0, result, pos => .ok (result, pos)
  | count + 1, result, pos => do
    let result ← store result pos 0xff
    padLoop count result (pos + 1)

/-- The loop that copies the hash behind `pos`. -/
def copyLoop : List Byte → List Byte → Nat → Except WrapError (List Byte)
  | [], result, _ => .ok result
  | b :: hash, result, pos => do
    let result ← store result pos b
    copyLoop hash result (pos + 1)

/-- `NoneHasher.hash`. -/
def NoneHasher.hash (data : List Byte) (_offs _len : Int) : List Byte := data

/-- `wrap` from `new byte[totalLen]` on, with `count` bytes of padding. -/
def writeBlock (totalLen count : Nat) (hash : List Byte) : Except WrapError (List Byte) := do
  let result ← store (List.replicate totalLen 0) 0 0
  let result ← store result 1 1
  let (result, pos) ← padLoop count result 2
  let result ← store result pos 0
  copyLoop hash result (pos + 1)

/-- `wrap(data, offs, len, totalLen)`. -/
def wrap (data : List Byte) (offs len totalLen : Int) : Except WrapError (List Byte) :=
  if totalLen < int32 (len + 3) then .error .shortBuffer
  else
    -- -1 comes here only if `len + 3` is negative
    let totalLen := if totalLen = -1 then int32 (len + 3) else totalLen
    if totalLen < 0 then .error .negativeArraySize
    else
      writeBlock totalLen.toNat (int32 (int32 (totalLen - len) - 3)).toNat
        (NoneHasher.hash data offs len)

/-- `wrap(data, totalLen)`. -/
def wrapWhole (data : List Byte) (totalLen : Int) : Except WrapError (List Byte) :=
  wrap data 0 data.length totalLen

/-! ## What is written -/

section writes

variable (front : List Byte)

/-- A write into an array that has been written up to there. -/
theorem store_zeros (m : Nat) (b : Byte) :
    store (front ++ List.replicate m 0) front.length b =
      if 0 < m then .ok ((front ++ [b]) ++ List.replicate (m - 1) 0)
      else .error .arrayIndexOutOfBounds := by
  unfold store
  rw [List.length_append, List.length_replicate]
  cases m with
  | zero => simp
  | succ m =>
    rw [if_pos (by omega), if_pos (by omega), List.set_append_right _ _ (Nat.le_refl _),
      Nat.sub_self, List.replicate_succ, List.set_cons_zero, Nat.add_sub_cancel,
      List.append_assoc, List.singleton_append]

theorem padLoop_zeros (count m : Nat) :
    padLoop count (front ++ List.replicate m 0) front.length =
      if count ≤ m then
        .ok ((front ++ List.replicate count 0xff) ++ List.replicate (m - count) 0,
          (front ++ List.replicate count 0xff).length)
      else .error .arrayIndexOutOfBounds := by
  induction count generalizing front m with
  | zero => simp [padLoop]
  | succ count ih =>
    rw [padLoop, store_zeros]
    by_cases hm : 0 < m
    · rw [if_pos hm]
      have hrest := ih (front ++ [0xff]) (m - 1)
      rw [List.length_append, List.length_singleton] at hrest
      refine hrest.trans ?_
      rw [List.append_assoc front, List.singleton_append, ← List.replicate_succ]
      by_cases hcount : count + 1 ≤ m
      · rw [if_pos hcount, if_pos (by omega), show m - 1 - count = m - (count + 1) by omega]
      · rw [if_neg hcount, if_neg (by omega)]
    · rw [if_neg hm, if_neg (by omega)]
      rfl

theorem copyLoop_zeros (hash : List Byte) (m : Nat) :
    copyLoop hash (front ++ List.replicate m 0) front.length =
      if hash.length ≤ m then .ok ((front ++ hash) ++ List.replicate (m - hash.length) 0)
      else .error .arrayIndexOutOfBounds := by
  induction hash generalizing front m with
  | nil => simp [copyLoop]
  | cons b hash ih =>
    rw [copyLoop, store_zeros, List.length_cons]
    by_cases hm : 0 < m
    · rw [if_pos hm]
      have hrest := ih (front ++ [b]) (m - 1)
      rw [List.length_append, List.length_singleton] at hrest
      refine hrest.trans ?_
      rw [List.append_assoc front, List.singleton_append]
      by_cases hlen : hash.length + 1 ≤ m
      · rw [if_pos hlen, if_pos (by omega), show m - 1 - hash.length = m - (hash.length + 1) by omega]
      · rw [if_neg hlen, if_neg (by omega)]
    · rw [if_neg hm, if_neg (by omega)]
      rfl

end writes

/-- A step that may be out of bounds, and those behind it. -/
theorem bounded_bind {α β : Type} {c : Prop} [Decidable c] (a : α) (f : α → Except WrapError β) :
    ((if c then .ok a else .error .arrayIndexOutOfBounds : Except WrapError α) >>= f) =
      if c then f a else .error .arrayIndexOutOfBounds := by
  split <;> rfl

/-- The array is written from its start on; what is behind the hash stays zero. -/
theorem writeBlock_eq (totalLen count : Nat) (hash : List Byte) :
    writeBlock totalLen count hash =
      if count + hash.length + 3 ≤ totalLen then
        .ok ((([0, 1] ++ List.replicate count 0xff ++ [0]) ++ hash) ++
          List.replicate (totalLen - (count + hash.length + 3)) 0)
      else .error .arrayIndexOutOfBounds := by
  -- each write is at the end of what has been written before
  have h₀ : store (List.replicate totalLen 0) 0 0 =
      if 0 < totalLen then .ok ([0] ++ List.replicate (totalLen - 1) 0)
      else .error .arrayIndexOutOfBounds := store_zeros [] totalLen 0
  have h₁ : store ([0] ++ List.replicate (totalLen - 1) 0) 1 1 =
      if 0 < totalLen - 1 then .ok ([0, 1] ++ List.replicate (totalLen - 1 - 1) 0)
      else .error .arrayIndexOutOfBounds := store_zeros [0] (totalLen - 1) 1
  have hpad : padLoop count ([0, 1] ++ List.replicate (totalLen - 1 - 1) 0) 2 = _ :=
    padLoop_zeros [0, 1] count (totalLen - 1 - 1)
  have hend := store_zeros ([0, 1] ++ List.replicate count 0xff) (totalLen - 1 - 1 - count) 0
  have hcopy := copyLoop_zeros ([0, 1] ++ List.replicate count 0xff ++ [0]) hash
    (totalLen - 1 - 1 - count - 1)
  have hpos : ([0, 1] ++ List.replicate count (0xff : Byte) ++ [0]).length =
      ([0, 1] ++ List.replicate count (0xff : Byte)).length + 1 := List.length_append
  rw [hpos] at hcopy
  unfold writeBlock
  rw [h₀, bounded_bind, h₁, bounded_bind, hpad, bounded_bind]
  dsimp only
  rw [hend, bounded_bind, hcopy]
  have hrest : totalLen - 1 - 1 - count - 1 - hash.length =
      totalLen - (count + hash.length + 3) := by omega
  rw [hrest]
  split_ifs <;> first | rfl | omega

/-- The block of type 1: 00 01, bytes FF, 00 and the data. -/
def type1Block (data : List Byte) (totalLen : Nat) : List Byte :=
  [0, 1] ++ List.replicate (totalLen - (data.length + 3)) 0xff ++ [0] ++ data

/-- A whole array is wrapped exactly if there is space for it. -/
theorem wrapWhole_eq_ok_iff {data block : List Byte} {totalLen : Nat}
    (hint : totalLen < 2147483648) : wrapWhole data totalLen = .ok block ↔
      data.length + 3 ≤ totalLen ∧ block = type1Block data totalLen := by
  unfold wrapWhole wrap NoneHasher.hash
  have hcount : ∀ h : data.length + 3 ≤ totalLen,
      (int32 (int32 ((totalLen : Int) - data.length) - 3)).toNat =
        totalLen - (data.length + 3) := by
    intro h
    rw [int32_eq (x := (totalLen : Int) - data.length) (by omega) (by omega),
      int32_eq (by omega) (by omega)]
    omega
  constructor
  · intro hok
    split at hok
    · cases hok
    · rw [if_neg (by omega : ¬ (totalLen : Int) = -1)] at hok
      dsimp only at hok
      rw [if_neg (by omega : ¬ (totalLen : Int) < 0), writeBlock_eq, Int.toNat_natCast] at hok
      split at hok
      next hfits =>
        have hlen : data.length + 3 ≤ totalLen := by omega
        refine ⟨hlen, ?_⟩
        rw [hcount hlen] at hok
        rw [← Except.ok.inj hok, type1Block,
          show totalLen - (totalLen - (data.length + 3) + data.length + 3) = 0 by omega,
          List.replicate_zero, List.append_nil]
      next => cases hok
  · rintro ⟨hlen, rfl⟩
    rw [int32_eq (x := (data.length : Int) + 3) (by omega) (by omega),
      if_neg (by omega : ¬ (totalLen : Int) < data.length + 3),
      if_neg (by omega : ¬ (totalLen : Int) = -1)]
    dsimp only
    rw [if_neg (by omega : ¬ (totalLen : Int) < 0), writeBlock_eq, Int.toNat_natCast, hcount hlen,
      if_pos (by omega), type1Block,
      show totalLen - (totalLen - (data.length + 3) + data.length + 3) = 0 by omega,
      List.replicate_zero, List.append_nil]

end ConfProfile.Jcajce
