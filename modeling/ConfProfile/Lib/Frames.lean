import ConfProfile.Lib.ByteMem

/-!
# Frames with a 16-bit length

A body is framed by its length in two bytes, the high one first. A stream of
frames holds its bodies in order: the prefix of the first frame gives the length
of the first body (`be16Of_be16`), and what is behind it is the stream of the
others.
-/

namespace ByteMem

namespace Frames

/-- The two bytes of a length, in network order. -/
def be16 (n : Nat) : List (BitVec 8) := [BitVec.ofNat 8 (n >>> 8), BitVec.ofNat 8 n]

/-- The length that two bytes stand for. -/
def be16Of (hi lo : BitVec 8) : Nat := hi.toNat <<< 8 ||| lo.toNat

/-- A body behind its length. -/
def frame (body : List (BitVec 8)) : List (BitVec 8) := be16 body.length ++ body

/-- Frames one behind the other. -/
def frames (bodies : List (List (BitVec 8))) : List (BitVec 8) := bodies.flatMap frame

theorem be16Of_eq (hi lo : BitVec 8) : be16Of hi lo = hi.toNat * 256 + lo.toNat := by
  unfold be16Of
  rw [← Nat.shiftLeft_add_eq_or_of_lt lo.isLt, Nat.shiftLeft_eq]

theorem be16Of_be16 {n : Nat} (h : n < 65536) :
    be16Of (BitVec.ofNat 8 (n >>> 8)) (BitVec.ofNat 8 n) = n := by
  rw [be16Of_eq, BitVec.toNat_ofNat, BitVec.toNat_ofNat, Nat.shiftRight_eq_div_pow]
  omega

@[simp] theorem length_frame (body : List (BitVec 8)) : (frame body).length = 2 + body.length :=
  List.length_append

@[simp] theorem frames_cons (body : List (BitVec 8)) (bodies : List (List (BitVec 8))) :
    frames (body :: bodies) = be16 body.length ++ (body ++ frames bodies) :=
  List.append_assoc ..

end Frames

namespace Mem

/-- Two byte strings put one behind the other. -/
theorem putBytes_append (m : Mem) (o : Nat) (bs cs : List (BitVec 8)) :
    m.putBytes o (bs ++ cs) = (m.putBytes o bs).putBytes (o + bs.length) cs := by
  induction bs generalizing m o with
  | nil => rfl
  | cons b bs ih =>
    rw [List.cons_append, putBytes, ih, List.length_cons, Nat.add_comm bs.length 1, ← Nat.add_assoc]
    rfl

end Mem

end ByteMem
