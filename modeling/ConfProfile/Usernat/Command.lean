import ConfProfile.Lib.Frames

/-!
# The control messages of usernat (`usernat.c`, `UsernatTunnel.java`)

The router's process writes commands to the usernat process and reads its
messages. Both ways a message is a body behind its length; the writers are
`writeMessage` and `send_cmd`, and `parse_cmd` looks at the beginning of a body
for what it is to do.

A Java string is its bytes here. Every text that is compared is ASCII, where a
string begins with a text exactly if its bytes do.
-/

namespace ConfProfile

open ByteMem Frames

/-- The bytes of an ASCII text. -/
def ascii (text : String) : List (BitVec 8) := text.toList.map fun c => BitVec.ofNat 8 c.toNat

/-! ## Java to usernat -/

/-- `writeMessage`: what it writes, `none` when it returns `false`. -/
def writeMessage (message : Option (List (BitVec 8))) : Option (List (BitVec 8)) := do
  let msg ← message
  if msg.length > 65535 then none
  else some (BitVec.ofNat 8 ((msg.length >>> 8) &&& 0xff) :: BitVec.ofNat 8 (msg.length &&& 0xff) ::
    msg)

/-- The bytes of a sequence of calls. -/
def writtenBy (messages : List (Option (List (BitVec 8)))) : List (BitVec 8) :=
  messages.flatMap fun message => (writeMessage message).getD []

/-- The messages that `writeMessage` accepts. -/
def accepted (messages : List (Option (List (BitVec 8)))) : List (List (BitVec 8)) :=
  messages.filterMap fun message => message.filter fun _ => (writeMessage message).isSome

theorem ofNat_and_ff (n : Nat) : BitVec.ofNat 8 (n &&& 0xff) = BitVec.ofNat 8 n := by
  apply BitVec.eq_of_toNat_eq
  rw [BitVec.toNat_ofNat, BitVec.toNat_ofNat, Nat.and_two_pow_sub_one_eq_mod n 8, Nat.mod_mod]

theorem writeMessage_some (msg : List (BitVec 8)) :
    writeMessage (some msg) = if msg.length ≤ 65535 then some (frame msg) else none := by
  show (if msg.length > 65535 then none else _) = _
  rw [ofNat_and_ff, ofNat_and_ff]
  by_cases h : msg.length ≤ 65535
  · rw [if_neg (by omega), if_pos h]
    rfl
  · rw [if_pos (by omega), if_neg h]

/-- What is written are the frames of the messages that are accepted. -/
theorem writtenBy_eq (messages : List (Option (List (BitVec 8)))) :
    writtenBy messages = frames (accepted messages) := by
  induction messages with
  | nil => rfl
  | cons message messages ih =>
    unfold writtenBy accepted at ih ⊢
    rw [List.flatMap_cons, List.filterMap_cons, ih]
    cases message with
    | none => rfl
    | some msg =>
      have hwrite := writeMessage_some msg
      by_cases h : msg.length ≤ 65535
      · rw [if_pos h] at hwrite
        simp [hwrite, Option.filter, frame]
      · rw [if_neg h] at hwrite
        simp [hwrite, Option.filter]

theorem length_le_of_accepted {messages : List (Option (List (BitVec 8)))} {msg : List (BitVec 8)}
    (h : msg ∈ accepted messages) : msg.length ≤ 65535 := by
  obtain ⟨message, _, hmessage⟩ := List.mem_filterMap.mp h
  obtain ⟨rfl, hsome⟩ := Option.filter_eq_some_iff.mp hmessage
  rw [writeMessage_some] at hsome
  by_contra hlong
  rw [if_neg hlong] at hsome
  cases hsome

/-! ## What usernat makes of a command -/

/-- `find_cmd`: where the parameter begins, `none` for -1. There is a NUL behind
the body. -/
def findCmd (cmd : String) (body : List (BitVec 8)) : Option Nat :=
  let text := ascii cmd
  if body.length < text.length then none
  else
    let next := (body ++ [0]).getD text.length 0
    if body.take text.length = text ∧ (next = 0 ∨ next = 0x20) then some text.length else none

/-- The ways through `parse_cmd`, with the parameters of the functions it calls. -/
inductive ParsedCmd where
  | resp
  | socatPath (len : Int)
  | acceptFd
  | connectFd
  | socat (cmd : List (BitVec 8))
  | halt
  | unknown
  deriving DecidableEq, Repr

/-- `parse_cmd`, up to the function that it calls. -/
def parseCmd (body : List (BitVec 8)) : ParsedCmd :=
  if (findCmd "resp" body).isSome then .resp
  else match findCmd "socat_path" body with
    | some offs => .socatPath (body.length - offs - 1)
    | none =>
      if (findCmd "accept_fd" body).isSome then .acceptFd
      else if (findCmd "connect_fd" body).isSome then .connectFd
      else match findCmd "socat" body with
        | some offs => .socat (body.drop (offs + 1))
        | none =>
          -- strncmp() with the five bytes "halt\0"
          if (body ++ [0]).take 5 = ascii "halt" ++ [0] then .halt else .unknown

end ConfProfile
