import ConfProfile.Lib.ByteMem
import ConfProfile.Usernat.Control

/-!
# What a command reads and copies (`usernat.c`)

`parse_cmd` and the handlers with every byte that they read, and with the lengths that they give
to what copies. Offsets count from the body. The body may end anywhere, and may have a NUL
anywhere in it; behind it is one NUL, and behind that what earlier messages have left.

`process_socat_path` and `process_socat` step over the character that follows the name of the
command. If the body ends with the name that is the NUL behind it: the length of the path is -1
then, and what is read as the address begins behind the NUL (`parse_cmd_safe_iff`).
-/

namespace ConfProfile

open ByteMem

/-- A copy that is asked for: its length, and the size of what it goes to. -/
structure Copy where
  len : Int
  size : Nat
  deriving DecidableEq, Repr

def Copy.Fits (c : Copy) : Prop := 0 ≤ c.len ∧ c.len ≤ c.size

instance : DecidablePred Copy.Fits := fun _ => inferInstanceAs (Decidable (_ ∧ _))

/-! ## The functions of the C library -/

/-- `strncmp` of a text and what stands at an offset, up to the length of the text: whether it
is 0. -/
def strncmp : List (BitVec 8) → Nat → MemM Bool
  | [], _ => pure true
  | c :: text, o => do
    let b ← rd o
    if b ≠ c then pure false
    else if c = 0 then pure true
    else strncmp text (o + 1)

/-- What `%s` takes: the bytes up to a NUL, no further than the address space goes. -/
def rdString : Nat → Nat → MemM (List (BitVec 8))
  | 0, _ => pure []
  | n + 1, o => do
    let b ← rd o
    if b = 0 then pure []
    else do
      let s ← rdString n (o + 1)
      pure (b :: s)

/-- The bytes that `memcpy` takes. -/
def rdBytes : Nat → Nat → MemM (List (BitVec 8))
  | 0, _ => pure []
  | n + 1, o => do
    let b ← rd o
    let bs ← rdBytes n (o + 1)
    pure (b :: bs)

/-- An `int` as a `size_t`. -/
def sizeT (n : Int) : Nat := (n % 2 ^ 32).toNat

/-! ## `usernat.c` -/

def socatPathBuffSize : Nat := 256

/-- `find_cmd` at the body, which has `len` bytes. -/
def findCmdAt (cmd : String) (len : Int) : MemM Int :=
  let cmdLen := (ascii cmd).length
  if len < cmdLen then pure (-1)
  else do
    if ← strncmp (ascii cmd) 0 then
      if (← rd cmdLen) = 0 then pure cmdLen
      else if (← rd cmdLen) = 0x20 then pure cmdLen
      else pure (-1)
    else pure (-1)

/-- The function that `parse_cmd` calls for a command, with its parameters: the offset of the
parameter, and how many bytes there are from there on. -/
inductive CmdCall where
  | resp (cmd : Nat) (len : Int)
  | socatPath (cmd : Nat) (len : Int)
  | acceptFd
  | connectFd
  | socat (cmd : Nat) (len : Int)
  | halt
  | unknown
  deriving DecidableEq, Repr

/-- `parse_cmd`, up to the function that it calls. -/
def cmdCall (len : Int) : MemM CmdCall := do
  let offs ← findCmdAt "resp" len
  if offs ≠ -1 then return .resp offs.toNat (len - offs)
  let offs ← findCmdAt "socat_path" len
  if offs ≠ -1 then return .socatPath offs.toNat (len - offs)
  let offs ← findCmdAt "accept_fd" len
  if offs ≠ -1 then return .acceptFd
  let offs ← findCmdAt "connect_fd" len
  if offs ≠ -1 then return .connectFd
  let offs ← findCmdAt "socat" len
  if offs ≠ -1 then return .socat offs.toNat (len - offs)
  if ← strncmp (ascii "halt" ++ [0]) 0 then return .halt
  return .unknown

/-- The response of a handler: `snprintf` into `buff`, and what `send_cmd` copies of it. -/
def respCopies (code : Int) : List Copy :=
  let len := min (ascii "resp " ++ decimal code).length 17
  [⟨18, 18⟩, ⟨len, len⟩]

/-- `process_socat_path`: the copies, the `memset` of `buff` first. -/
def processSocatPath (cmd : Nat) (len : Int) : MemM (List Copy) := do
  let cmd := cmd + 1
  let len := len - 1
  if len > socatPathBuffSize - 1 then return ⟨18, 18⟩ :: respCopies (-1)
  let _ ← rdBytes (sizeT len) cmd
  return [⟨18, 18⟩, ⟨socatPathBuffSize, socatPathBuffSize⟩, ⟨len, socatPathBuffSize⟩] ++ respCopies 0

/-- `process_accept_fd` and `process_connect_fd`. -/
def processFd : MemM (List Copy) := return ⟨18, 18⟩ :: respCopies 0

/-- `process_socat`, where `fork` gives `child`. The child formats the parameter. -/
def processSocat (child : Int) (cmd : Nat) (_len : Int) : MemM (List Copy) := do
  let cmd := cmd + 1
  if child ≠ 0 then return ⟨18, 18⟩ :: respCopies child
  let _ ← rdString (2 ^ 32) cmd
  return [⟨18, 18⟩, ⟨64, 64⟩, ⟨64, 64⟩, ⟨64, 64⟩, ⟨64, 64⟩]

/-- The handler of a command. -/
def CmdCall.handle (child : Int) : CmdCall → MemM (List Copy)
  | .resp _ _ | .halt | .unknown => pure []
  | .socatPath cmd len => processSocatPath cmd len
  | .acceptFd | .connectFd => processFd
  | .socat cmd len => processSocat child cmd len

/-- `parse_cmd` with what it calls: the copies. -/
def parseCmdAt (child len : Int) : MemM (List Copy) := do
  let call ← cmdCall len
  call.handle child

/-- The body has been received: `main` puts a NUL behind it. -/
structure Received (body : List (BitVec 8)) (m : Mem) : Prop where
  bytes : m.bytes 0 body.length = body
  nul : m body.length = 0

/-- `parse_cmd` reads the body and the NUL behind it only, and every copy fits. -/
def ParsedSafely (child : Int) (body : List (BitVec 8)) (m : Mem) : Prop :=
  Inside (body.length + 1) (parseCmdAt child body.length) m ∧
    ∀ c ∈ (parseCmdAt child body.length).val m, c.Fits

/-! ## Comparing -/

section Compare

variable {m : Mem}

@[simp] theorem mem_strncmp (text : List (BitVec 8)) (o : Nat) : (strncmp text o).mem m = m := by
  induction text generalizing o with
  | nil => rfl
  | cons c text ih =>
    rw [strncmp, MemM.mem_bind, MemM.val_rd, MemM.mem_rd]
    split
    next => rfl
    next =>
      split
      next => rfl
      next => exact ih (o + 1)

/-- What is compared has its last byte at a NUL, if there is one. -/
theorem inside_strncmp {z : Nat} (hz : m z = 0) (text : List (BitVec 8)) :
    ∀ o ≤ z, Inside (z + 1) (strncmp text o) m := by
  induction text with
  | nil => exact fun _ _ => inside_pure _ _ _
  | cons c text ih =>
    intro o ho
    rw [strncmp, inside_bind, inside_rd, MemM.val_rd, MemM.mem_rd]
    refine ⟨by omega, ?_⟩
    split
    next => exact inside_pure _ _ _
    next heq =>
      split
      next => exact inside_pure _ _ _
      next hc =>
        have hne : o ≠ z := by
          intro hsame
          subst hsame
          exact heq (fun h => hc (h.symm.trans hz))
        exact ih (o + 1) (by omega)

/-- A text has a NUL at its end at most. -/
def CText (text : List (BitVec 8)) : Prop := 0 ∉ text.dropLast

instance (text : List (BitVec 8)) : Decidable (CText text) :=
  inferInstanceAs (Decidable (0 ∉ text.dropLast))

theorem val_strncmp {text : List (BitVec 8)} (htext : CText text) (o : Nat) :
    (strncmp text o).val m = true ↔ m.bytes o text.length = text := by
  induction text generalizing o with
  | nil => exact iff_of_true rfl rfl
  | cons c text ih =>
    rw [strncmp, MemM.val_bind, MemM.val_rd, MemM.mem_rd, List.length_cons, Mem.bytes,
      List.cons.injEq]
    split
    next hne => exact iff_of_false Bool.false_ne_true fun h => hne h.1
    next heq =>
      have heq : m o = c := Decidable.not_not.mp heq
      cases text with
      | nil =>
        have hval : (if c = 0 then pure true else strncmp [] (o + 1) : MemM Bool).val m = true := by
          split <;> rfl
        exact iff_of_true hval ⟨heq, rfl⟩
      | cons d text =>
        have hc : c ≠ 0 := fun hc => htext (hc ▸ List.mem_cons_self)
        have hrest : CText (d :: text) := fun h => htext (List.mem_cons_of_mem c h)
        rw [if_neg hc, ih hrest (o + 1)]
        exact (and_iff_right heq).symm

theorem Received.all {body : List (BitVec 8)} (h : Received body m) :
    m.bytes 0 (body.length + 1) = body ++ [0] := by
  rw [Mem.bytes_append, h.bytes, Nat.zero_add, Mem.bytes, Mem.bytes, h.nul]

/-- The byte at an offset of the body, or the NUL behind it. -/
theorem Received.getD {body : List (BitVec 8)} (h : Received body m) {i : Nat}
    (hi : i ≤ body.length) : (body ++ [0]).getD i 0 = m i := by
  have hlt : i < (m.bytes 0 (body.length + 1)).length := by
    rw [Mem.length_bytes]
    omega
  rw [← h.all, List.getD_eq_getElem?_getD, List.getElem?_eq_getElem hlt, Option.getD_some,
    Mem.getElem_bytes, Nat.zero_add]

theorem Received.take {body : List (BitVec 8)} (h : Received body m) {n : Nat}
    (hn : n ≤ body.length + 1) : m.bytes 0 n = (body ++ [0]).take n := by
  rw [← h.all, Mem.take_bytes _ _ hn]

/-- A text that is longer than the body is found in neither. -/
theorem Received.take_iff {body text : List (BitVec 8)} (h : Received body m) (htext : CText text) :
    m.bytes 0 text.length = text ↔ (body ++ [0]).take text.length = text := by
  by_cases hle : text.length ≤ body.length + 1
  · rw [h.take hle]
  · refine iff_of_false (fun heq => htext ?_) (fun heq => ?_)
    · have hlt : body.length < (m.bytes 0 text.length).length := by
        rw [Mem.length_bytes]
        omega
      have hnul : (m.bytes 0 text.length)[body.length] = 0 := by
        rw [Mem.getElem_bytes, Nat.zero_add, h.nul]
      simp only [heq] at hnul
      rw [List.mem_iff_getElem]
      refine ⟨body.length, by rw [List.length_dropLast]; omega, ?_⟩
      rw [List.getElem_dropLast]
      exact hnul
    · have hlength := congrArg List.length heq
      rw [List.length_take, List.length_append, List.length_singleton] at hlength
      omega

end Compare

/-! ## Finding the command -/

section Find

variable {m : Mem} {body : List (BitVec 8)}

@[simp] theorem mem_findCmdAt (cmd : String) (len : Int) : (findCmdAt cmd len).mem m = m := by
  unfold findCmdAt
  simp only [MemM.mem_ite, MemM.mem_bind, mem_strncmp, MemM.mem_rd, MemM.mem_pure, ite_self]

theorem inside_findCmdAt (h : Received body m) (cmd : String) :
    Inside (body.length + 1) (findCmdAt cmd body.length) m := by
  unfold findCmdAt
  simp only [inside_ite, inside_bind, inside_rd, inside_pure, MemM.mem_rd, mem_strncmp]
  split
  next => trivial
  next hlong =>
    have hlt : (ascii cmd).length < body.length + 1 := by omega
    refine ⟨inside_strncmp h.nul _ 0 (Nat.zero_le _), ?_⟩
    split
    next =>
      refine ⟨hlt, ?_⟩
      split
      next => trivial
      next => exact ⟨hlt, by split <;> trivial⟩
    next => trivial

theorem val_findCmdAt (h : Received body m) {cmd : String} (hcmd : CText (ascii cmd)) :
    (findCmdAt cmd body.length).val m = ((findCmd cmd body).map Int.ofNat).getD (-1) := by
  unfold findCmdAt findCmd
  by_cases hlong : body.length < (ascii cmd).length
  · rw [if_pos (by omega), if_pos hlong]
    rfl
  · have hcmp := val_strncmp (m := m) hcmd 0
    rw [h.take (by omega), List.take_append_of_le_length (by omega)] at hcmp
    rw [if_neg (by omega), if_neg hlong, h.getD (by omega), MemM.val_bind, mem_strncmp]
    by_cases htake : body.take (ascii cmd).length = ascii cmd
    · rw [hcmp.mpr htake, if_pos rfl, MemM.val_bind, MemM.val_rd, MemM.mem_rd]
      by_cases hnul : m (ascii cmd).length = 0
      · rw [if_pos hnul, if_pos ⟨htake, Or.inl hnul⟩]
        rfl
      · rw [if_neg hnul, MemM.val_bind, MemM.val_rd, MemM.mem_rd]
        by_cases hspace : m (ascii cmd).length = 0x20
        · rw [if_pos hspace, if_pos ⟨htake, Or.inr hspace⟩]
          rfl
        · rw [if_neg hspace, if_neg (fun hif => hif.2.elim hnul hspace)]
          rfl
    · rw [if_neg (fun hval => htake (hcmp.mp hval)), if_neg (fun hif => htake hif.1)]
      rfl

/-- A test of `parse_cmd`, and what it goes on with: what it reads. -/
theorem inside_test (h : Received body m) (cmd : String) (call : Int → CmdCall)
    {rest : MemM CmdCall} (hrest : Inside (body.length + 1) rest m) :
    Inside (body.length + 1) (findCmdAt cmd body.length >>= fun offs =>
      if offs ≠ -1 then pure (call offs) else rest) m := by
  rw [inside_bind, mem_findCmdAt, inside_ite]
  refine ⟨inside_findCmdAt h cmd, ?_⟩
  split
  next => exact inside_pure _ _ _
  next => exact hrest

/-- A test of `parse_cmd`, and what it goes on with: what comes out. -/
theorem val_test (h : Received body m) {cmd : String} (hcmd : CText (ascii cmd))
    (call : Int → CmdCall) (rest : MemM CmdCall) :
    (findCmdAt cmd body.length >>= fun offs => if offs ≠ -1 then pure (call offs) else rest).val m =
      match findCmd cmd body with
      | some offs => call offs
      | none => rest.val m := by
  rw [MemM.val_bind, mem_findCmdAt, val_findCmdAt h hcmd, MemM.val_ite]
  cases findCmd cmd body with
  | none => rfl
  | some offs => exact if_pos (by simp)

@[simp] theorem mem_cmdCall (len : Int) : (cmdCall len).mem m = m := by
  unfold cmdCall
  simp only [MemM.mem_bind, MemM.mem_ite, mem_findCmdAt, mem_strncmp, MemM.mem_pure, ite_self]

theorem inside_cmdCall (h : Received body m) : Inside (body.length + 1) (cmdCall body.length) m := by
  have hhalt : Inside (body.length + 1)
      (strncmp (ascii "halt" ++ [0]) 0 >>= fun eq => if eq then pure CmdCall.halt else pure .unknown)
      m := by
    rw [inside_bind, inside_ite]
    refine ⟨inside_strncmp h.nul _ 0 (Nat.zero_le _), ?_⟩
    split <;> exact inside_pure _ _ _
  exact inside_test h _ _ (inside_test h _ _ (inside_test h _ _ (inside_test h _ _
    (inside_test h _ _ hhalt))))

/-- What `parse_cmd` makes of a body whose bytes it has. -/
def CmdCall.parsed (body : List (BitVec 8)) : CmdCall → ParsedCmd
  | .resp _ _ => .resp
  | .socatPath _ len => .socatPath (len - 1)
  | .acceptFd => .acceptFd
  | .connectFd => .connectFd
  | .socat cmd _ => .socat (body.drop (cmd + 1))
  | .halt => .halt
  | .unknown => .unknown

/-- The parameter of a call begins behind the name of the command. -/
def CmdCall.Begins (body : List (BitVec 8)) : CmdCall → Prop
  | .socatPath cmd len => findCmd "socat_path" body = some cmd ∧ len = body.length - cmd
  | .socat cmd _ => findCmd "socat" body = some cmd
  | _ => True

/-- `parse_cmd` calls what `parseCmd` says, with the parameter that follows the name. -/
theorem val_cmdCall (h : Received body m) :
    ((cmdCall body.length).val m).parsed body = parseCmd body ∧
      ((cmdCall body.length).val m).Begins body := by
  unfold parseCmd
  rw [cmdCall, val_test h (by decide)]
  cases hresp : findCmd "resp" body with
  | some offs => exact ⟨rfl, trivial⟩
  | none =>
    rw [val_test h (by decide)]
    cases hpath : findCmd "socat_path" body with
    | some offs => exact ⟨rfl, hpath, rfl⟩
    | none =>
      rw [val_test h (by decide)]
      cases findCmd "accept_fd" body with
      | some offs => exact ⟨rfl, trivial⟩
      | none =>
        rw [val_test h (by decide)]
        cases findCmd "connect_fd" body with
        | some offs => exact ⟨rfl, trivial⟩
        | none =>
          rw [val_test h (by decide)]
          cases hsocat : findCmd "socat" body with
          | some offs => exact ⟨rfl, hsocat⟩
          | none =>
            have hhalt : (strncmp (ascii "halt" ++ [0]) 0).val m = true ↔
                (body ++ [0]).take 5 = ascii "halt" ++ [0] :=
              (val_strncmp (by decide) 0).trans (h.take_iff (by decide))
            rw [MemM.val_bind, mem_strncmp, MemM.val_ite]
            by_cases htake : (body ++ [0]).take 5 = ascii "halt" ++ [0]
            · rw [hhalt.mpr htake]
              exact ⟨(if_pos htake).symm, trivial⟩
            · rw [if_neg (fun hval => htake (hhalt.mp hval))]
              exact ⟨(if_neg htake).symm, trivial⟩

/-- `find_cmd` finds its text at the beginning of the body. -/
theorem findCmd_eq_some {cmd : String} {offs : Nat} (h : findCmd cmd body = some offs) :
    offs = (ascii cmd).length ∧ offs ≤ body.length ∧ body.take offs = ascii cmd := by
  unfold findCmd at h
  dsimp only at h
  split at h
  next => cases h
  next hlong =>
    split at h
    next hfound =>
      obtain rfl := Option.some.inj h
      exact ⟨rfl, by omega, hfound.1⟩
    next => cases h

end Find

/-! ## The handlers -/

section Handlers

variable {m : Mem} {body : List (BitVec 8)} {child : Int}

theorem inside_rdBytes {n o k : Nat} (h : k = 0 ∨ o + k ≤ n) : Inside n (rdBytes k o) m := by
  induction k generalizing o with
  | zero => exact inside_pure _ _ _
  | succ k ih =>
    rw [rdBytes, inside_bind, inside_rd, inside_bind]
    exact ⟨by omega, ih (by omega), inside_pure _ _ _⟩

/-- A string ends at the next NUL. -/
theorem inside_rdString {z o : Nat} (hz : m z = 0) (ho : o ≤ z) (k : Nat) :
    Inside (z + 1) (rdString k o) m := by
  induction k generalizing o with
  | zero => exact inside_pure _ _ _
  | succ k ih =>
    rw [rdString, inside_bind, inside_rd, MemM.val_rd, MemM.mem_rd, inside_ite]
    refine ⟨by omega, ?_⟩
    split
    next => exact inside_pure _ _ _
    next hne =>
      have hlt : o ≠ z := by
        intro hsame
        subst hsame
        exact hne hz
      rw [inside_bind]
      exact ⟨ih (by omega), inside_pure _ _ _⟩

/-- A string has a first byte, the NUL at least. -/
theorem of_inside_rdString {n o k : Nat} (h : Inside n (rdString (k + 1) o) m) : o < n := by
  rw [rdString, inside_bind, inside_rd] at h
  exact h.1

theorem Copy.fits_self (n : Nat) : Copy.Fits ⟨n, n⟩ := ⟨Int.natCast_nonneg n, Int.le_refl _⟩

theorem respCopies_fit (code : Int) : ∀ c ∈ respCopies code, c.Fits := by
  intro c hc
  rcases List.mem_pair.mp hc with rfl | rfl
  · exact Copy.fits_self 18
  · exact Copy.fits_self _

/-- The copies of a handler are its `memset` and those of its response, and its own. -/
theorem fit_iff (own : List Copy) (code : Int) :
    (∀ c ∈ (⟨18, 18⟩ :: own) ++ respCopies code, c.Fits) ↔ ∀ c ∈ own, c.Fits := by
  have hmemset : Copy.Fits ⟨18, 18⟩ := Copy.fits_self 18
  simp only [List.mem_append, List.mem_cons]
  constructor
  · exact fun h c hc => h c (Or.inl (Or.inr hc))
  · intro h c hmem
    rcases hmem with (rfl | hc) | hc
    · exact hmemset
    · exact h c hc
    · exact respCopies_fit code c hc

/-- What a handler does with its parameter is in order. -/
def CmdCall.Safe (child : Int) (body : List (BitVec 8)) (m : Mem) (call : CmdCall) : Prop :=
  Inside (body.length + 1) (call.handle child) m ∧ ∀ c ∈ (call.handle child).val m, c.Fits

theorem safe_socatPath_iff {cmd : Nat} (hcmd : cmd ≤ body.length) :
    (CmdCall.socatPath cmd (body.length - cmd)).Safe child body m ↔ cmd < body.length := by
  unfold CmdCall.Safe CmdCall.handle processSocatPath
  dsimp only
  split
  next hlong =>
    have hlt : (body.length : Int) - cmd - 1 > 255 := hlong
    refine iff_of_true ⟨inside_pure _ _ _, ?_⟩ (by omega)
    exact (fit_iff [] (-1)).mpr (by simp)
  next hshort =>
    have hle : ¬ (body.length : Int) - cmd - 1 > 255 := hshort
    rw [inside_bind, and_iff_left (inside_pure _ _ _)]
    have hcopies := fit_iff [⟨socatPathBuffSize, socatPathBuffSize⟩,
      ⟨(body.length : Int) - cmd - 1, socatPathBuffSize⟩] 0
    constructor
    · intro h
      -- a length of -1 fits nowhere
      have hpath := hcopies.mp h.2 ⟨(body.length : Int) - cmd - 1, socatPathBuffSize⟩ (by simp)
      have hnonneg : 0 ≤ (body.length : Int) - cmd - 1 := hpath.1
      omega
    · intro hlt
      refine ⟨inside_rdBytes (Or.inr ?_), hcopies.mpr ?_⟩
      · have hsize : sizeT ((body.length : Int) - cmd - 1) = body.length - cmd - 1 := by
          unfold sizeT
          omega
        omega
      · intro c hc
        rcases List.mem_pair.mp hc with rfl | rfl
        · exact Copy.fits_self _
        · have hsize : ((socatPathBuffSize : Nat) : Int) = 256 := rfl
          exact ⟨by dsimp only; omega, by dsimp only; omega⟩

theorem safe_socat_iff (h : Received body m) {cmd : Nat} {len : Int} :
    (CmdCall.socat cmd len).Safe child body m ↔ cmd < body.length ∨ child ≠ 0 := by
  unfold CmdCall.Safe CmdCall.handle processSocat
  dsimp only
  split
  next hparent => exact iff_of_true ⟨inside_pure _ _ _, (fit_iff [] child).mpr (by simp)⟩ (Or.inr hparent)
  next hchild =>
    rw [inside_bind, and_iff_left (inside_pure _ _ _), or_iff_left hchild]
    constructor
    · intro hsafe
      have hfirst := of_inside_rdString hsafe.1
      omega
    · intro hlt
      have hcopies : ∀ c ∈ ([⟨18, 18⟩, ⟨64, 64⟩, ⟨64, 64⟩, ⟨64, 64⟩, ⟨64, 64⟩] : List Copy), c.Fits := by
        decide
      exact ⟨inside_rdString h.nul (by omega) _, hcopies⟩

end Handlers

theorem parsedSafely_iff {m : Mem} {body : List (BitVec 8)} {child : Int} (h : Received body m) :
    ParsedSafely child body m ↔ ((cmdCall body.length).val m).Safe child body m := by
  unfold ParsedSafely parseCmdAt CmdCall.Safe
  rw [inside_bind, MemM.val_bind, mem_cmdCall, and_iff_right (inside_cmdCall h)]

/-- A body is just the name of its command exactly if nothing follows the name. -/
theorem eq_name_iff {body : List (BitVec 8)} {cmd : String} {offs : Nat}
    (h : findCmd cmd body = some offs) : body = ascii cmd ↔ ¬ offs < body.length := by
  obtain ⟨hoffs, hle, htake⟩ := findCmd_eq_some h
  constructor
  · intro heq
    rw [hoffs, heq]
    exact Nat.lt_irrefl _
  · intro hend
    rw [← htake, List.take_of_length_le (by omega)]

/-- However the body and what stands behind it look like: only the body and its NUL are read and
every copy fits, unless the body is just `socat_path`, or just `socat` and this is the child. -/
theorem parse_cmd_safe_iff {body : List (BitVec 8)} {m : Mem} (h : Received body m) (child : Int) :
    ParsedSafely child body m ↔
      body ≠ ascii "socat_path" ∧ (body = ascii "socat" → child ≠ 0) := by
  rw [parsedSafely_iff h]
  obtain ⟨hparsed, hbegins⟩ := val_cmdCall h
  generalize (cmdCall body.length).val m = call at hparsed hbegins
  -- a body that is just a name is parsed as that command
  have hpath : body = ascii "socat_path" → ∃ len, call.parsed body = .socatPath len := by
    intro hsame
    subst hsame
    exact ⟨-1, hparsed.trans (by decide)⟩
  have hsocat : body = ascii "socat" → ∃ cmd, call.parsed body = .socat cmd := by
    intro hsame
    subst hsame
    exact ⟨[], hparsed.trans (by decide)⟩
  cases call with
  | socatPath cmd len =>
    obtain ⟨hfind, rfl⟩ := hbegins
    have hno : body ≠ ascii "socat" := fun heq => by cases (hsocat heq).choose_spec
    rw [safe_socatPath_iff (findCmd_eq_some hfind).2.1, ne_eq, eq_name_iff hfind, not_not,
      and_iff_left (fun heq => absurd heq hno)]
  | socat cmd len =>
    have hno : body ≠ ascii "socat_path" := fun heq => by cases (hpath heq).choose_spec
    rw [safe_socat_iff h, and_iff_right hno, eq_name_iff hbegins,
      ← or_iff_not_imp_left]
  | resp _ _ | halt | unknown =>
    refine iff_of_true ⟨inside_pure _ _ _, nofun⟩ ⟨fun heq => ?_, fun heq => ?_⟩
    · cases (hpath heq).choose_spec
    · cases (hsocat heq).choose_spec
  | acceptFd | connectFd =>
    refine iff_of_true ⟨inside_pure _ _ _, (fit_iff [] 0).mpr (by simp)⟩
      ⟨fun heq => ?_, fun heq => ?_⟩
    · cases (hpath heq).choose_spec
    · cases (hsocat heq).choose_spec

/-- A memory with a body and zeros behind it. -/
def memOf (body : List (BitVec 8)) : Mem := Mem.putBytes (fun _ => 0) 0 body

theorem received_memOf (body : List (BitVec 8)) : Received body (memOf body) :=
  ⟨Mem.bytes_putBytes _ _ _, Mem.putBytes_of_ne _ _ _ (Or.inr (by omega))⟩

/-- A command with a path, and in the child of the fork one with an address. -/
theorem parse_cmd_safe_iff_path :
    (Received (ascii "socat_path /data/socat") (memOf (ascii "socat_path /data/socat")) ∧
      ParsedSafely 77 (ascii "socat_path /data/socat") (memOf (ascii "socat_path /data/socat"))) ∧
    Received (ascii "socat 8.8.8.8:53") (memOf (ascii "socat 8.8.8.8:53")) ∧
      ParsedSafely 0 (ascii "socat 8.8.8.8:53") (memOf (ascii "socat 8.8.8.8:53")) :=
  ⟨⟨received_memOf _, (parse_cmd_safe_iff (received_memOf _) 77).mpr ⟨by decide, by decide⟩⟩,
    received_memOf _, (parse_cmd_safe_iff (received_memOf _) 0).mpr ⟨by decide, by decide⟩⟩

/-- Both commands without what follows them: a copy of -1 bytes, and a byte behind the NUL. -/
theorem parse_cmd_safe_counterexample :
    (Received (ascii "socat_path") (memOf (ascii "socat_path")) ∧
      ¬ ParsedSafely 1 (ascii "socat_path") (memOf (ascii "socat_path"))) ∧
    Received (ascii "socat") (memOf (ascii "socat")) ∧
      ¬ ParsedSafely 0 (ascii "socat") (memOf (ascii "socat")) := by
  refine ⟨⟨received_memOf _, fun h => ?_⟩, received_memOf _, fun h => ?_⟩
  · rw [parsedSafely_iff (received_memOf _)] at h
    have hcall : (cmdCall (ascii "socat_path").length).val (memOf (ascii "socat_path")) =
      .socatPath 10 ((ascii "socat_path").length - (10 : Nat)) := by decide
    rw [hcall, safe_socatPath_iff (by decide)] at h
    exact absurd h (by decide)
  · rw [parsedSafely_iff (received_memOf _)] at h
    have hcall : (cmdCall (ascii "socat").length).val (memOf (ascii "socat")) = .socat 5 0 := by
      decide
    rw [hcall, safe_socat_iff (received_memOf _)] at h
    exact absurd h (by decide)

end ConfProfile
