import ConfProfile.Jcajce.Pkcs1Padding

/-!
# `Pkcs1Padding.wrap` on a part of an array

The data of a block of type 1 is what is behind its padding (`unpad`). `wrap` is to make such a
block of `data[offs .. offs + len)`, with eight bytes of padding at least. It takes the length
from its arguments, but the hasher hands it all of `data`; it is content with no padding at all;
and it looks at a `totalLen` of -1 only after it has refused it. `wrap_range_iff` says what is
left.
-/

namespace ConfProfile.Jcajce

/-- The data of a block of type 1. -/
def unpad : List Byte → Option (List Byte)
  | 0 :: 1 :: padded =>
    match padded.dropWhile (· = 0xff) with
    | 0 :: data => some data
    | _ => none
  | _ => none

theorem unpad_type1Block (data : List Byte) (totalLen : Nat) :
    unpad (type1Block data totalLen) = some data := by
  have hpadding : (List.replicate (totalLen - (data.length + 3)) (0xff : Byte) ++
      ([0] ++ data)).dropWhile (· = 0xff) = 0 :: data := by
    rw [List.dropWhile_append_of_pos (by simp)]
    rfl
  unfold type1Block
  rw [List.append_assoc, List.append_assoc]
  show (match (List.replicate _ _ ++ ([0] ++ data)).dropWhile (· = (0xff : Byte)) with
    | 0 :: data => some data
    | _ => none) = some data
  rw [hpadding]
  rfl

/-- Different data gives different blocks. -/
theorem type1Block_inj {data data' : List Byte} {totalLen totalLen' : Nat}
    (h : type1Block data totalLen = type1Block data' totalLen') : data = data' := by
  have hunpad := congrArg unpad h
  rw [unpad_type1Block, unpad_type1Block] at hunpad
  exact Option.some.inj hunpad

theorem length_type1Block {data : List Byte} {totalLen : Nat} (h : data.length + 3 ≤ totalLen) :
    (type1Block data totalLen).length = totalLen := by
  unfold type1Block
  simp only [List.length_append, List.length_cons, List.length_nil, List.length_replicate]
  omega

/-- `data[offs .. offs + len)`. -/
def subRange (data : List Byte) (offs len : Nat) : List Byte := (data.drop offs).take len

/-- The length of the smallest block with eight bytes of padding. -/
def smallestBlock (len : Nat) : Nat := len + 11

/-- The call returns the block of the range, from which the range can be had back. -/
def ReturnsBlock (data : List Byte) (offs len : Nat) (totalLen : Int) (blockLen : Nat) : Prop :=
  ∃ block, wrap data offs len totalLen = .ok block ∧ block.length = blockLen ∧
    block = type1Block (subRange data offs len) blockLen ∧ unpad block = some (subRange data offs len)

/-- What `wrap` is to do with a range: a block where there is space for it, an exception where
there is not, and the smallest block for a `totalLen` of -1. -/
structure WrapsRange (data : List Byte) (offs len : Nat) (totalLen : Int) : Prop where
  block : smallestBlock len ≤ totalLen → ReturnsBlock data offs len totalLen totalLen.toNat
  rejected : 0 ≤ totalLen → totalLen < smallestBlock len →
    wrap data offs len totalLen = .error .shortBuffer
  smallest : totalLen = -1 → ReturnsBlock data offs len totalLen (smallestBlock len)

section wrap

variable {data : List Byte} {offs len : Nat} {totalLen : Int}

theorem subRange_whole : subRange data 0 data.length = data := List.take_length

/-- `wrap` writes all of `data` behind the padding for `len` bytes. -/
theorem wrap_eq (hlow : (len : Int) + 3 ≤ totalLen) (hint : totalLen < 2147483648) :
    wrap data offs len totalLen =
      writeBlock totalLen.toNat (totalLen.toNat - (len + 3)) data := by
  unfold wrap NoneHasher.hash
  rw [int32_eq (x := (len : Int) + 3) (by omega) (by omega), if_neg (by omega),
    if_neg (by omega : ¬ totalLen = -1)]
  dsimp only
  rw [if_neg (by omega), int32_eq (x := totalLen - len) (by omega) (by omega),
    int32_eq (by omega) (by omega)]
  congr 1
  omega

/-- Where the length that is asked for is too small, there is an exception. -/
theorem wrap_short (hhigh : totalLen < len + 3) (hint : len + 3 < 2147483648) :
    wrap data offs len totalLen = .error .shortBuffer := by
  unfold wrap
  rw [int32_eq (by omega) (by omega), if_pos (by omega)]

theorem writeBlock_ne_shortBuffer (blockLen count : Nat) (hash : List Byte) :
    writeBlock blockLen count hash ≠ .error .shortBuffer := by
  rw [writeBlock_eq]
  split <;> simp

/-- Where the sum of the length and 3 is no `int`, no `totalLen` is refused, and -1 asks for an
array of a negative length. -/
theorem wrap_overflow (hlen : len < 2147483648) (hover : 2147483648 ≤ len + 3)
    (hlow : -1 ≤ totalLen) :
    wrap data offs len totalLen ≠ .error .shortBuffer ∧
      (totalLen = -1 → wrap data offs len totalLen = .error .negativeArraySize) := by
  have hwrapped : int32 ((len : Int) + 3) = len + 3 - 4294967296 := by
    have hsame : int32 ((len : Int) + 3) = int32 (len + 3 - 4294967296) :=
      (Int.sub_bmod_right ((len : Int) + 3) (2 ^ 32)).symm
    rw [hsame, int32_eq (by omega) (by omega)]
  unfold wrap
  rw [hwrapped, if_neg (by omega)]
  dsimp only
  constructor
  · by_cases hminus : totalLen = -1
    · rw [if_pos hminus, if_pos (by omega)]
      simp
    · rw [if_neg hminus, if_neg (by omega)]
      exact writeBlock_ne_shortBuffer _ _ _
  · intro hminus
    rw [if_pos hminus, if_pos (by omega)]

/-- `wrap` returns exactly if the range is all of `data`. -/
theorem wrap_ok_iff (hlow : (len : Int) + 3 ≤ totalLen) (hint : totalLen < 2147483648)
    (hrange : offs + len ≤ data.length) {block : List Byte} :
    wrap data offs len totalLen = .ok block ↔
      len = data.length ∧ block = type1Block data totalLen.toNat := by
  rw [wrap_eq hlow hint, writeBlock_eq]
  constructor
  · intro h
    split at h
    next hfits =>
      obtain rfl : len = data.length := by omega
      have hrest : totalLen.toNat - (totalLen.toNat - (data.length + 3) + data.length + 3) = 0 := by
        omega
      rw [hrest, List.replicate_zero, List.append_nil] at h
      exact ⟨rfl, (Except.ok.inj h).symm⟩
    next => cases h
  · intro hblock
    obtain ⟨rfl, rfl⟩ := hblock
    have hrest : totalLen.toNat - (totalLen.toNat - (data.length + 3) + data.length + 3) = 0 := by
      omega
    rw [if_pos (by omega), hrest, List.replicate_zero, List.append_nil]
    rfl

theorem not_returnsBlock_of_error {e : WrapError} {blockLen : Nat}
    (h : wrap data offs len totalLen = .error e) : ¬ ReturnsBlock data offs len totalLen blockLen := by
  intro hreturns
  obtain ⟨block, hok, -⟩ := hreturns
  cases h.symm.trans hok

theorem wrap_minus_one (hlen : len < 2147483648) (blockLen : Nat) :
    ¬ ReturnsBlock data offs len (-1) blockLen := by
  by_cases hint : len + 3 < 2147483648
  · exact not_returnsBlock_of_error (wrap_short (by omega) hint)
  · exact not_returnsBlock_of_error ((wrap_overflow hlen (by omega) (Int.le_refl _)).2 rfl)

/-- Where there is space for eight bytes of padding, the block of the range is returned exactly
if the range is all of `data`. -/
theorem returnsBlock_iff (hblock : (smallestBlock len : Int) ≤ totalLen)
    (hint : totalLen < 2147483648) (hrange : offs + len ≤ data.length) :
    ReturnsBlock data offs len totalLen totalLen.toNat ↔ len = data.length := by
  unfold smallestBlock at hblock
  have hiff (block : List Byte) : wrap data offs len totalLen = .ok block ↔
      len = data.length ∧ block = type1Block data totalLen.toNat :=
    wrap_ok_iff (by omega) hint hrange
  constructor
  · intro hreturns
    obtain ⟨block, hok, -⟩ := hreturns
    exact ((hiff block).mp hok).1
  · intro hlen
    obtain rfl : offs = 0 := by omega
    have hwhole : subRange data 0 len = data := hlen ▸ subRange_whole
    refine ⟨type1Block data totalLen.toNat, (hiff _).mpr ⟨hlen, rfl⟩, ?_, ?_, ?_⟩
    · exact length_type1Block (by omega)
    · rw [hwhole]
    · rw [hwhole, unpad_type1Block]

end wrap

/-- **What `wrap` makes of a range**: what it should, exactly if the range is all of the array
and there is space for eight bytes of padding, or if there is not even space for the three
bytes that are never left out, and their number with the range's is an `int`. -/
theorem wrap_range_iff (data : List Byte) (offs len : Nat) (totalLen : Int)
    (hdata : data.length < 2147483648) (hrange : offs + len ≤ data.length) (hlow : -1 ≤ totalLen)
    (hint : totalLen < 2147483648) :
    WrapsRange data offs len totalLen ↔
      len = data.length ∧ len + 11 ≤ totalLen ∨
        0 ≤ totalLen ∧ totalLen < len + 3 ∧ len + 3 < 2147483648 := by
  constructor
  · intro h
    by_cases hminus : totalLen = -1
    · subst hminus
      exact absurd (h.smallest rfl) (wrap_minus_one (by omega) _)
    by_cases hblock : (smallestBlock len : Int) ≤ totalLen
    · left
      refine ⟨(returnsBlock_iff hblock hint hrange).mp (h.block hblock), ?_⟩
      unfold smallestBlock at hblock
      omega
    have hrejected := h.rejected (by omega) (by omega)
    by_cases hover : len + 3 < 2147483648
    · right
      refine ⟨by omega, ?_, hover⟩
      by_contra hspace
      rw [wrap_eq (by omega) hint] at hrejected
      exact writeBlock_ne_shortBuffer _ _ _ hrejected
    · exact absurd hrejected (wrap_overflow (by omega) (by omega) hlow).1
  · intro hcases
    rcases hcases with ⟨hlen, hspace⟩ | ⟨hpos, hshort, hint'⟩
    · have hblock : (smallestBlock len : Int) ≤ totalLen := by
        unfold smallestBlock
        omega
      refine ⟨fun _ => (returnsBlock_iff hblock hint hrange).mpr hlen, fun _ h => ?_, fun h => ?_⟩
      · omega
      · omega
    · refine ⟨fun h => ?_, fun _ _ => wrap_short hshort hint', fun h => ?_⟩
      · unfold smallestBlock at h
        omega
      · omega

theorem wrap_range_iff_example : WrapsRange [1, 2, 3] 0 3 14 ↔
    3 = [(1 : Byte), 2, 3].length ∧ ((3 : Nat) : Int) + 11 ≤ 14 ∨
      (0 : Int) ≤ 14 ∧ (14 : Int) < (3 : Nat) + 3 ∧ 3 + 3 < 2147483648 :=
  wrap_range_iff [1, 2, 3] 0 3 14 (by decide) (by decide) (by decide) (by decide)

/-- Two of three bytes are not wrapped, all of them are with no padding, and -1 is refused. -/
theorem wrap_range_counterexample :
    ¬ WrapsRange [1, 2, 3] 0 2 13 ∧ wrap [1, 2, 3] 0 2 13 = .error .arrayIndexOutOfBounds ∧
      ¬ WrapsRange [1, 2, 3] 0 3 6 ∧ wrap [1, 2, 3] 0 3 6 = .ok [0, 1, 0, 1, 2, 3] ∧
      ¬ WrapsRange [1, 2, 3] 0 3 (-1) ∧ wrap [1, 2, 3] 0 3 (-1) = .error .shortBuffer := by
  refine ⟨fun h => ?_, by decide, fun h => ?_, by decide, fun h => ?_, by decide⟩
  · exact not_returnsBlock_of_error (e := .arrayIndexOutOfBounds) (by decide) (h.block (by decide))
  · have hrejected := h.rejected (by decide) (by decide)
    revert hrejected
    decide
  · exact wrap_minus_one (by decide) _ (h.smallest rfl)

end ConfProfile.Jcajce
