import Mathlib.Data.List.GetD
import Mathlib.Data.List.TakeDrop

/-!
# Keystreams fed by the ciphertext

Each byte of a text is combined with a byte that depends on the ciphertext before it only. The
reader has that ciphertext, so it knows the same bytes and takes them off again
(`decode_encode`), whatever they are made of.

In the block form (`blockStream`) the stream comes in blocks of `b` bytes: the first is given, and
each other one is made from the block of ciphertext before it. A reader can keep the block it is in
in a register and renew it where a block begins, which `decodeBlocks` does; it reads the same text
(`decodeBlocks_eq`).
-/

namespace Feedback

variable {w : Nat}

/-- The ciphertext of a text behind the ciphertext `c`. -/
def encode (k : List (BitVec w) → BitVec w) : List (BitVec w) → List (BitVec w) → List (BitVec w)
  | _, [] => []
  | c, x :: p => (x ^^^ k c) :: encode k (c ++ [x ^^^ k c]) p

/-- The text of a ciphertext behind the ciphertext `c`. -/
def decode (k : List (BitVec w) → BitVec w) : List (BitVec w) → List (BitVec w) → List (BitVec w)
  | _, [] => []
  | c, y :: q => (y ^^^ k c) :: decode k (c ++ [y]) q

@[simp] theorem length_encode (k : List (BitVec w) → BitVec w) (c p : List (BitVec w)) :
    (encode k c p).length = p.length := by
  induction p generalizing c with
  | nil => rfl
  | cons x p ih => rw [encode, List.length_cons, List.length_cons, ih]

@[simp] theorem length_decode (k : List (BitVec w) → BitVec w) (c q : List (BitVec w)) :
    (decode k c q).length = q.length := by
  induction q generalizing c with
  | nil => rfl
  | cons y q ih => rw [decode, List.length_cons, List.length_cons, ih]

/-- What was encoded is read back. -/
theorem decode_encode (k : List (BitVec w) → BitVec w) (c p : List (BitVec w)) :
    decode k c (encode k c p) = p := by
  induction p generalizing c with
  | nil => rfl
  | cons x p ih => rw [encode, decode, ih, BitVec.xor_assoc, BitVec.xor_self, BitVec.xor_zero]

/-- One more byte of ciphertext gives one more byte of text. -/
theorem decode_append_singleton (k : List (BitVec w) → BitVec w) (c q : List (BitVec w))
    (y : BitVec w) : decode k c (q ++ [y]) = decode k c q ++ [y ^^^ k (c ++ q)] := by
  induction q generalizing c with
  | nil => rw [List.append_nil]; rfl
  | cons z q ih =>
    rw [List.cons_append, decode, ih, decode, List.append_assoc, List.singleton_append,
      List.cons_append]

/-! ## Blocks -/

section Blocks

variable (b : Nat) (first : List (BitVec w)) (next : List (BitVec w) → List (BitVec w))

/-- The block of the stream that byte `i` is combined with. -/
def block (c : List (BitVec w)) (i : Nat) : List (BitVec w) :=
  if i < b then first else next ((c.drop (i - i % b - b)).take b)

/-- The byte of the stream behind the ciphertext `c`. -/
def blockStream (c : List (BitVec w)) : BitVec w :=
  (block b first next c c.length).getD (c.length % b) 0

/-- One byte of the ciphertext `value`, with the block in a register. -/
def decodeStep (value : List (BitVec w)) (s : List (BitVec w) × List (BitVec w)) (i : Nat) :
    List (BitVec w) × List (BitVec w) :=
  let j := i % b
  let hash := if i ≠ 0 ∧ j = 0 then next ((value.drop (i - b)).take b) else s.1
  (hash, s.2 ++ [value.getD i 0 ^^^ hash.getD j 0])

/-- All of them, one after the other. -/
def decodeBlocks (value : List (BitVec w)) : List (BitVec w) :=
  ((List.range value.length).foldl (decodeStep b next value) (first, [])).2

variable {b first next} {value : List (BitVec w)}

/-- The ciphertext up to a byte knows the block of that byte. -/
theorem block_take {i : Nat} (hb : 0 < b) :
    block b first next (value.take i) i = block b first next value i := by
  unfold block
  split
  next => rfl
  next h =>
    have hmod := Nat.mod_lt i hb
    have hle : b ≤ i - (i - i % b - b) := by omega
    rw [List.drop_take, List.take_take, Nat.min_eq_left hle]

/-- A block lasts for `b` bytes. -/
theorem block_succ {i : Nat} (h : (i + 1) % b ≠ 0) :
    block b first next value (i + 1) = block b first next value i := by
  have hdiv : (i + 1) / b = i / b := Nat.succ_div_of_mod_ne_zero h
  have hi := Nat.div_add_mod i b
  have hi' := Nat.div_add_mod (i + 1) b
  rw [hdiv] at hi'
  have hlt : i + 1 < b ↔ i < b := by
    constructor
    · omega
    · intro hlt
      rcases Nat.lt_or_eq_of_le (Nat.succ_le_of_lt hlt) with h' | h'
      · exact h'
      · rw [← h', Nat.mod_self] at h
        exact absurd rfl h
  have hsub : i + 1 - (i + 1) % b - b = i - i % b - b := by omega
  unfold block
  rw [hsub]
  exact if_congr hlt rfl rfl

/-- The register and the text after `n` bytes. -/
theorem foldl_decodeStep (hb : 0 < b) (n : Nat) (hn : n ≤ value.length) :
    (List.range n).foldl (decodeStep b next value) (first, []) =
      (block b first next value (n - 1), decode (blockStream b first next) [] (value.take n)) := by
  induction n with
  | zero =>
    rw [List.take_zero, decode, block, if_pos (show 0 - 1 < b by omega)]
    rfl
  | succ n ih =>
    have hlt : n < value.length := hn
    have hreg : (if n ≠ 0 ∧ n % b = 0 then next ((value.drop (n - b)).take b)
        else block b first next value (n - 1)) = block b first next value n := by
      split
      next h =>
        -- a block begins: its predecessor is all there
        have hge : ¬ n < b := fun hlt' => h.1 (by rw [← Nat.mod_eq_of_lt hlt', h.2])
        rw [block, if_neg hge, h.2, Nat.sub_zero]
      next h =>
        cases n with
        | zero => rfl
        | succ n => exact (block_succ fun h0 => h ⟨Nat.succ_ne_zero n, h0⟩).symm
    have hlen : (value.take n).length = n := by rw [List.length_take]; omega
    have hks : blockStream b first next (value.take n) =
        (block b first next value n).getD (n % b) 0 := by
      rw [blockStream, hlen, block_take hb]
    rw [List.range_succ, List.foldl_append, ih (by omega), List.foldl_cons, List.foldl_nil,
      decodeStep, List.take_succ_eq_append_getElem hlt, decode_append_singleton, List.nil_append,
      hks, Nat.add_sub_cancel]
    dsimp only
    rw [hreg, List.getD_eq_getElem _ _ hlt]

/-- The register reads the text. -/
theorem decodeBlocks_eq (hb : 0 < b) (value : List (BitVec w)) :
    decodeBlocks b first next value = decode (blockStream b first next) [] value := by
  rw [decodeBlocks, foldl_decodeStep hb value.length (Nat.le_refl _), List.take_length]

end Blocks

end Feedback
