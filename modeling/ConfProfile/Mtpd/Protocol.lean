import Mathlib.Data.List.TakeDrop
import ConfProfile.Lib.BigEndian

/-!
# What the protocols of the daemon share

The types of `mtpd.h`: exit codes, what `recv` brings, and what a protocol's functions return to the
main loop. Both protocols write their fields in network order (`be16`, `u16`).
-/

namespace ConfProfile.Mtpd

open BigEndian (bytes value)

abbrev Bytes := List (BitVec 8)

/-- `enum exit_code` -/
def SYSTEM_ERROR : Int := 1
def NETWORK_ERROR : Int := 2
def PROTOCOL_ERROR : Int := 3
def CHALLENGE_FAILED : Int := 4
def USER_REQUESTED : Int := 5
def REMOTE_REQUESTED : Int := 6
def PPPD_EXITED : Int := 32

/-- What the loops `while (!x) x = random()` end with. -/
abbrev Nonzero := { r : BitVec 16 // r ≠ 0 }

/-- How `recv` ends. -/
inductive Recv
  | data (bytes : Bytes)
  | interrupted
  | failed

/-- How a step ends: it returns, or the process does. -/
inductive Result
  | ret (timeout : Int)
  | exit (status : Int)
deriving DecidableEq

/-- A word in network order. -/
def be16 (w : BitVec 16) : Bytes := bytes 2 w.toNat

/-- The word at an offset. -/
def u16 (s : Bytes) (o : Nat) : BitVec 16 := BitVec.ofNat 16 (value ((s.drop o).take 2))

@[simp] theorem length_be16 (w : BitVec 16) : (be16 w).length = 2 := BigEndian.length_bytes 2 _

/-- A word is read as it was written. -/
@[simp] theorem u16_be16 (w : BitVec 16) (s : Bytes) : u16 (be16 w ++ s) 0 = w := by
  have htake : (be16 w ++ s).take 2 = be16 w := List.take_left' (length_be16 w)
  have hlt : w.toNat < 256 ^ 2 := w.isLt
  rw [u16, List.drop_zero, htake, be16, BigEndian.value_bytes, Nat.mod_eq_of_lt hlt,
    BitVec.ofNat_toNat, BitVec.setWidth_eq]

/-- A word is read behind others. -/
theorem u16_append (a s : Bytes) (o : Nat) : u16 (a ++ s) (a.length + o) = u16 s o := by
  rw [u16, List.drop_append, List.drop_of_length_le (Nat.le_add_right _ _), List.nil_append,
    Nat.add_sub_cancel_left]
  rfl

/-- A word is read in front of others. -/
theorem u16_append_left {a : Bytes} {o : Nat} (s : Bytes) (h : o + 2 ≤ a.length) :
    u16 (a ++ s) o = u16 a o := by
  have hlen : 2 ≤ (a.drop o).length := by rw [List.length_drop]; omega
  rw [u16, List.drop_append_of_le_length (by omega), List.take_append_of_le_length hlen]
  rfl

theorem u16_be16_append (w : BitVec 16) (s : Bytes) (o : Nat) :
    u16 (be16 w ++ s) (2 + o) = u16 s o := by
  have h := u16_append (be16 w) s o
  rwa [length_be16] at h

end ConfProfile.Mtpd
