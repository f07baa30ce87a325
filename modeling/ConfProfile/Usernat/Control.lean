import ConfProfile.Usernat.Command
import Mathlib.Data.Nat.Digits.Defs

/-!
# The texts of commands and messages (`UsernatTunnel.run`, `usernat.c`)

Both sides tell texts apart by how they begin. What `UsernatTunnel.run` writes is
a command that `parse_cmd` has a handler for (`parseCmd_text`), and
`processRequestSync` takes every message of the usernat process for what it is
(`msgKind_text`).
-/

namespace ConfProfile

open ByteMem

/-- A number in decimal. -/
def decimal (n : Int) : List (BitVec 8) := ascii (toString n)

/-- `inet_ntoa`, of an address in host order. -/
def inetNtoa (ip : BitVec 32) : List (BitVec 8) :=
  decimal (ip.extractLsb' 24 8).toNat ++ ascii "." ++ decimal (ip.extractLsb' 16 8).toNat ++
    ascii "." ++ decimal (ip.extractLsb' 8 8).toNat ++ ascii "." ++
    decimal (ip.extractLsb' 0 8).toNat

/-- The commands of `UsernatTunnel.run`. -/
inductive RunCmd where
  | socatPath
  | acceptFd
  | connectFd
  | socat (dstAddr : BitVec 32) (dstPort : BitVec 16)
  deriving DecidableEq, Repr

def RunCmd.text : RunCmd → List (BitVec 8)
  | .socatPath => ascii "socat_path "
  | .acceptFd => ascii "accept_fd"
  | .connectFd => ascii "connect_fd"
  | .socat dstAddr dstPort =>
    ascii "socat " ++ (inetNtoa dstAddr ++ ascii ":" ++ decimal dstPort.toNat)

/-- The messages of the usernat process. -/
inductive UsernatMsg where
  | ping
  | log (text : List (BitVec 8))
  | terminated (pid : Nat)
  | resp (code : Int)
  deriving DecidableEq, Repr

def UsernatMsg.text : UsernatMsg → List (BitVec 8)
  | .ping => ascii "ping"
  | .log text => ascii "log " ++ text
  | .terminated pid => ascii "terminated " ++ decimal pid
  | .resp code => ascii "resp " ++ decimal code

/-- The branches of `processRequestSync` for a message. -/
inductive MsgKind where
  | terminated
  | resp (result : List (BitVec 8))
  | ping
  | log
  | unexpected
  deriving DecidableEq, Repr

/-- The tests of `processRequestSync`. -/
def msgKind (resp : List (BitVec 8)) : MsgKind :=
  if ascii "terminated " <+: resp then .terminated
  else if ascii "resp " <+: resp then .resp (resp.drop (ascii "resp ").length)
  else if ascii "ping" <+: resp then .ping
  else if ascii "log " <+: resp then .log
  else .unexpected

section texts

/-- Texts that differ within the first one are no beginnings of each other. -/
theorem not_prefix_append {a b c : List (BitVec 8)} {i : Nat} (hb : i < b.length)
    (ha : i < a.length) (h : a[i]? ≠ b[i]?) : ¬ a <+: b ++ c := by
  rintro ⟨rest, hrest⟩
  have hget := congrArg (fun l => l[i]?) hrest
  simp only [List.getElem?_append_left ha, List.getElem?_append_left hb] at hget
  exact h hget

/-- `processRequestSync` tells the messages apart. -/
theorem msgKind_text (m : UsernatMsg) :
    msgKind m.text = match m with
      | .ping => .ping
      | .log _ => .log
      | .terminated _ => .terminated
      | .resp code => .resp (decimal code) := by
  unfold msgKind UsernatMsg.text
  cases m with
  | ping => decide
  | terminated pid => exact if_pos (List.prefix_append _ _)
  | resp code =>
    dsimp only
    rw [if_neg (not_prefix_append (i := 0) (by decide) (by decide) (by decide)),
      if_pos (List.prefix_append _ _), List.drop_left]
  | log text =>
    dsimp only
    rw [if_neg (not_prefix_append (i := 0) (by decide) (by decide) (by decide)),
      if_neg (not_prefix_append (i := 0) (by decide) (by decide) (by decide)),
      if_neg (not_prefix_append (i := 0) (by decide) (by decide) (by decide)),
      if_pos (List.prefix_append _ _)]

/-- A command that differs from the body somewhere is not found. -/
theorem findCmd_none {cmd : String} {body : List (BitVec 8)} {i : Nat}
    (hi : i < (ascii cmd).length) (h : body[i]? ≠ (ascii cmd)[i]?) : findCmd cmd body = none := by
  unfold findCmd
  simp only
  split
  · rfl
  · rw [if_neg]
    rintro ⟨htake, _⟩
    rw [← htake, List.getElem?_take_of_lt hi] at h
    exact h rfl

/-- The parameter behind a command and a space. -/
theorem findCmd_append (cmd : String) (arg : List (BitVec 8)) :
    findCmd cmd (ascii cmd ++ 0x20 :: arg) = some (ascii cmd).length := by
  have hnext : (ascii cmd ++ 0x20 :: arg ++ [0]).getD (ascii cmd).length 0 = 0x20 := by
    simp
  unfold findCmd
  simp only [hnext, List.take_left]
  rw [if_neg (by simp), if_pos ⟨trivial, Or.inr trivial⟩]

/-- Every command of `run` has a handler. -/
theorem parseCmd_text (cmd : RunCmd) :
    parseCmd cmd.text = match cmd with
      | .socatPath => .socatPath 0
      | .acceptFd => .acceptFd
      | .connectFd => .connectFd
      | .socat dstAddr dstPort =>
        .socat (inetNtoa dstAddr ++ ascii ":" ++ decimal dstPort.toNat) := by
  cases cmd with
  | socatPath | acceptFd | connectFd => decide
  | socat dstAddr dstPort =>
    have hsplit (arg : List (BitVec 8)) : ascii "socat " ++ arg = ascii "socat" ++ 0x20 :: arg := by
      rw [show ascii "socat " = ascii "socat" ++ [0x20] by decide, List.append_assoc]
      rfl
    dsimp only [RunCmd.text]
    generalize inetNtoa dstAddr ++ ascii ":" ++ decimal dstPort.toNat = arg
    have hget : ∀ i < 6, (ascii "socat " ++ arg)[i]? = (ascii "socat ")[i]? :=
      fun i hi => List.getElem?_append_left hi
    have hresp : findCmd "resp" (ascii "socat " ++ arg) = none :=
      findCmd_none (i := 0) (by decide) (by rw [hget 0 (by omega)]; decide)
    have hpath : findCmd "socat_path" (ascii "socat " ++ arg) = none :=
      findCmd_none (i := 5) (by decide) (by rw [hget 5 (by omega)]; decide)
    have haccept : findCmd "accept_fd" (ascii "socat " ++ arg) = none :=
      findCmd_none (i := 0) (by decide) (by rw [hget 0 (by omega)]; decide)
    have hconnect : findCmd "connect_fd" (ascii "socat " ++ arg) = none :=
      findCmd_none (i := 0) (by decide) (by rw [hget 0 (by omega)]; decide)
    have hsocat : findCmd "socat" (ascii "socat " ++ arg) = some 5 := by
      rw [hsplit]
      exact findCmd_append "socat" arg
    have hdrop : (ascii "socat " ++ arg).drop (5 + 1) = arg :=
      (congrArg (List.drop · _) (by decide : 5 + 1 = (ascii "socat ").length)).trans List.drop_left
    unfold parseCmd
    simp only [hresp, hpath, haccept, hconnect, hsocat, hdrop, Option.isSome_none,
      Bool.false_eq_true, if_false]

theorem length_decimal {n e : Nat} (he : 0 < e) (h : n < 10 ^ e) : (decimal n).length ≤ e := by
  have hrepr := Nat.repr_length n e he h
  unfold decimal ascii
  rw [List.length_map, String.length_toList]
  exact hrepr

/-- No command of `run` is too long for a frame. -/
theorem length_text (cmd : RunCmd) : cmd.text.length < 65535 := by
  cases cmd with
  | socatPath | acceptFd | connectFd => decide
  | socat dstAddr dstPort =>
    have hbyte : ∀ b : BitVec 8, (decimal b.toNat).length ≤ 3 :=
      fun b => length_decimal (by omega) (by have hb := b.isLt; omega)
    have hport : (decimal dstPort.toNat).length ≤ 5 :=
      length_decimal (by omega) (by have hp := dstPort.isLt; omega)
    have h₀ := hbyte (dstAddr.extractLsb' 0 8)
    have h₁ := hbyte (dstAddr.extractLsb' 8 8)
    have h₂ := hbyte (dstAddr.extractLsb' 16 8)
    have h₃ := hbyte (dstAddr.extractLsb' 24 8)
    have hsocat : (ascii "socat ").length = 6 := rfl
    have hdot : (ascii ".").length = 1 := rfl
    have hcolon : (ascii ":").length = 1 := rfl
    unfold RunCmd.text inetNtoa
    simp only [List.length_append]
    omega

end texts

end ConfProfile
