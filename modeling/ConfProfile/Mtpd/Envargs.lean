import Mathlib.Algebra.BigOperators.Group.List.Basic
import ConfProfile.Lib.CString
import ConfProfile.Mtpd.Protocol

/-!
# The arguments of `pppd`

`start_pppd` does not put the arguments of `pppd` on its command line but into the environment, each
char in two letters of `A` to `P`; `main` of `pppd` decodes them in place and takes them for its
command line. An access outside the array of the one or the string of the other is `none`.

The decoder goes through its string with two indices. The cells that it has written stand from cell
1 on, and what it has still to read is behind them (`decodeLoop_eq`), so it decodes what a decoder
with a string of its own would (`parseEnvargs_eq`).
-/

namespace ConfProfile.Mtpd

open CString (overwrite parts stringAt upTo)

/-- What a `char *` points at, without the NUL. -/
abbrev CStr := { s : Bytes // (0 : BitVec 8) ∉ s }

/-! ## `start_pppd` -/

/-- A literal of ASCII characters. -/
def literal (s : String) : Bytes := s.toList.map fun c => BitVec.ofNat 8 c.toNat

theorem zero_notMem_literal {s : String} (h : ∀ c ∈ s.toList, c = '-' ∨ c.isDigit) :
    (0 : BitVec 8) ∉ literal s := by
  intro hmem
  obtain ⟨c, hc, hzero⟩ := List.mem_map.mp hmem
  rcases h c hc with rfl | hdigit
  · exact absurd hzero (by decide)
  · have hrange : 48 ≤ c.toNat ∧ c.toNat ≤ 57 := by
      simpa [Char.isDigit, UInt32.le_iff_toNat_le] using hdigit
    have hval := congrArg BitVec.toNat hzero
    rw [BitVec.toNat_ofNat] at hval
    simp only [BitVec.ofNat_eq_ofNat, BitVec.toNat_ofNat] at hval
    omega

theorem digits_toString (i : Int) : ∀ c ∈ (toString i).toList, c = '-' ∨ c.isDigit := by
  intro c hc
  cases i with
  | ofNat n =>
    have hlist : (toString (Int.ofNat n)).toList = Nat.toDigits 10 n := Nat.toList_repr
    rw [hlist] at hc
    exact Or.inr (Nat.isDigit_of_mem_toDigits (by omega) (by omega) hc)
  | negSucc n =>
    have hlist : (toString (Int.negSucc n)).toList = '-' :: Nat.toDigits 10 (n + 1) := by
      show ("-" ++ Nat.repr (n + 1)).toList = _
      rw [String.toList_append, Nat.toList_repr]
      rfl
    rw [hlist] at hc
    rcases List.mem_cons.mp hc with rfl | hdigit
    · exact Or.inl rfl
    · exact Or.inr (Nat.isDigit_of_mem_toDigits (by omega) (by omega) hdigit)

/-- `sprintf(number, "%d", pppox)` -/
def number (pppox : Int) : CStr :=
  ⟨literal (toString pppox), zero_notMem_literal (digits_toString pppox)⟩

/-- `args` -/
def startArgs (pppox : Int) (pppdArgv : List CStr) : List CStr :=
  ⟨literal "ocpapppd", by decide⟩ :: ⟨literal "nodetach", by decide⟩ ::
    ⟨literal "pppox", by decide⟩ :: number pppox :: pppdArgv

/-- The size of `envargs`. -/
def ENVARGS_SIZE : Nat := 65536

/-- `*tail++ = c`, where `tail` is behind the chars that are written. -/
def putChar (tail : Bytes) (c : BitVec 8) : Option Bytes :=
  if tail.length < ENVARGS_SIZE then some (tail ++ [c]) else none

/-- The two letters of a char. -/
def letters (c : BitVec 8) : Bytes := [0x41 + ((c >>> 4) &&& 0x0F), 0x41 + (c &&& 0x0F)]

def putHex (tail : Bytes) (c : BitVec 8) : Option Bytes := (letters c).foldlM putChar tail

/-- The loop over one argument, which encodes its NUL too. -/
def putArg (tail : Bytes) (a : CStr) : Option Bytes := (a.val ++ [0]).foldlM putHex tail

/-- What `setenv` takes for a string. -/
def setenv (envargs : Bytes) : Option CStr :=
  match h : upTo 0 envargs with
  | none => none
  | some s => some ⟨s, CString.notMem_of_upTo h⟩

/-- The variable `envargs` that `start_pppd` gives to `pppd`. -/
def pppdEnvargs (pppox : Int) (pppdArgv : List CStr) : Option CStr := do
  let tail ← (startArgs pppox pppdArgv).foldlM putArg []
  let envargs ← putChar tail 0
  setenv envargs

/-! ## `main` of `pppd` -/

/-- The char of two letters. -/
def decodeChar (hi lo : BitVec 8) : BitVec 8 := ((hi - 0x41) <<< 4) + (lo - 0x41)

/-- The loop that decodes and counts the NULs, from index `i` on. -/
def decodeLoop : Nat → Bytes → Nat → Nat → Option (Bytes × Nat)
  | 0, _, _, _ => none
  | n + 1, envargs, i, argc =>
    match envargs[i]? with
    | none => none
    | some hi =>
      if hi = 0 then some (envargs, argc)
      else match envargs[i + 1]? with
        | none => none
        | some lo =>
          if lo = 0 then some (envargs, argc)
          else if i / 2 + 1 < envargs.length then
            decodeLoop n (envargs.set (i / 2 + 1) (decodeChar hi lo)) (i + 2)
              (if decodeChar hi lo = 0 then argc + 1 else argc)
          else none

/-- The loop that makes `argv`, with `envargs` moved to cell `p`. -/
def argvLoop : Nat → Bytes → Nat → Nat → List Nat → Option (List Nat)
  | 0, _, _, _, _ => none
  | n + 1, envargs, argc, p, argv =>
    if argv.length < argc then
      match envargs[p]? with
      | none => none
      | some c => argvLoop n envargs argc (p + 1) (if c = 0 then argv ++ [p + 1] else argv)
    else some argv

/-- How `main` gets on: not at all, or with pointers into the decoded string. -/
inductive Parsed
  | fatal
  | args (envargs : Bytes) (argv : List Nat)

/-- What the pointers point at. -/
def Parsed.strings : Parsed → List (Option Bytes)
  | fatal => []
  | args envargs argv => argv.map (stringAt 0 envargs)

/-- Each string that is pointed at lies, with its NUL, behind cell 0 and not behind cell `last`. -/
def Parsed.Within (last : Nat) : Parsed → Prop
  | fatal => True
  | args envargs argv =>
    ∀ p ∈ argv, 1 ≤ p ∧ ∃ a, stringAt 0 envargs p = some a ∧ p + a.length ≤ last

/-- The part of `main` for a variable `envargs`. -/
def parseEnvargs (s : CStr) : Option Parsed :=
  let block := s.val ++ [0]
  match decodeLoop block.length block 0 0 with
  | none => none
  | some (envargs, argc) =>
    if argc = 0 then some .fatal
    else
      let envargs := envargs.set 0 0
      (argvLoop (envargs.length + 1) envargs argc 0 []).map (Parsed.args envargs)

/-! ## The decoder in place -/

/-- The chars of a string of letters; a letter left over is dropped. -/
def decodePairs : Bytes → Bytes
  | hi :: lo :: rest => decodeChar hi lo :: decodePairs rest
  | [_] => []
  | [] => []

theorem length_decodePairs_le (s : Bytes) : 2 * (decodePairs s).length ≤ s.length := by
  fun_induction decodePairs s with
  | case1 hi lo rest ih =>
    simp only [List.length_cons]
    omega
  | case2 => exact Nat.zero_le _
  | case3 => exact Nat.zero_le _

section Decode

variable {block d : Bytes}

/-- The cells that the loop has still to read are as they were. -/
theorem getElem?_behind (hlen : d.length < block.length) (j : Nat) :
    (overwrite block 1 d)[2 * d.length + j]? = (block.drop (2 * d.length))[j]? := by
  rw [List.getElem?_drop]
  rcases d.eq_nil_or_concat with rfl | ⟨d, c, rfl⟩
  · rw [CString.overwrite_nil]
  · refine CString.getElem?_overwrite (by omega) ?_
    simp only [List.concat_eq_append, List.length_append, List.length_singleton]
    omega

/-- Behind `d` decoded chars, the loop decodes the rest of the string as if it were not in the same
cells. -/
theorem decodeLoop_eq (rest : Bytes) : ∀ (d : Bytes) (n argc : Nat), (0 : BitVec 8) ∉ rest →
    block.drop (2 * d.length) = rest ++ [0] → rest.length < n →
    decodeLoop n (overwrite block 1 d) (2 * d.length) argc =
      some (overwrite block 1 (d ++ decodePairs rest), argc + (decodePairs rest).count 0) := by
  fun_induction decodePairs rest with
  | case1 hi lo rest ih =>
    intro d n argc hmem hdrop hn
    obtain ⟨n, rfl⟩ := Nat.exists_eq_add_of_lt hn
    have hlen := congrArg List.length hdrop
    simp only [List.length_drop, List.length_append, List.length_cons] at hlen
    have hread := fun j => (getElem?_behind (by omega) j).trans (congrArg (·[j]?) hdrop)
    have hhi : (overwrite block 1 d)[2 * d.length]? = some hi := hread 0
    have hlo : (overwrite block 1 d)[2 * d.length + 1]? = some lo := hread 1
    have hne : hi ≠ 0 ∧ lo ≠ 0 ∧ (0 : BitVec 8) ∉ rest := by
      simp only [List.mem_cons, not_or] at hmem
      exact ⟨Ne.symm hmem.1, Ne.symm hmem.2.1, hmem.2.2⟩
    have hcell : 2 * d.length / 2 + 1 = 1 + d.length := by omega
    have hwrite : 1 + d.length < (overwrite block 1 d).length := by
      rw [CString.length_overwrite (by omega)]
      omega
    have hnext : 2 * d.length + 2 = 2 * (d ++ [decodeChar hi lo]).length := by
      rw [List.length_append, List.length_singleton]
      omega
    have hdrop' : block.drop (2 * (d ++ [decodeChar hi lo]).length) = rest ++ [0] := by
      rw [← hnext, ← List.drop_drop, hdrop]
      rfl
    rw [decodeLoop]
    simp only [hhi, hlo, if_neg hne.1, if_neg hne.2.1, hcell, if_pos hwrite,
      CString.set_overwrite (show 1 + d.length < block.length by omega)]
    rw [hnext, ih _ _ _ hne.2.2 hdrop' (by simp only [List.length_cons]; omega),
      List.append_assoc, List.singleton_append, List.count_cons]
    congr 2
    split
    next hzero => rw [if_pos (beq_iff_eq.mpr hzero)]; omega
    next hzero => rw [if_neg (mt beq_iff_eq.mp hzero)]; rfl
  | case2 c =>
    intro d n argc hmem hdrop hn
    obtain ⟨n, rfl⟩ := Nat.exists_eq_add_of_lt hn
    have hlen := congrArg List.length hdrop
    simp only [List.length_drop, List.length_append, List.length_cons] at hlen
    have hread := fun j => (getElem?_behind (by omega) j).trans (congrArg (·[j]?) hdrop)
    have hhi : (overwrite block 1 d)[2 * d.length]? = some c := hread 0
    have hlo : (overwrite block 1 d)[2 * d.length + 1]? = some 0 := hread 1
    have hne : c ≠ 0 := (List.ne_of_not_mem_cons hmem).symm
    rw [decodeLoop]
    simp only [hhi, hlo, if_neg hne, if_true, List.append_nil, List.count_nil, Nat.add_zero]
  | case3 =>
    intro d n argc hmem hdrop hn
    obtain ⟨n, rfl⟩ := Nat.exists_eq_add_of_lt hn
    have hlen := congrArg List.length hdrop
    simp only [List.length_drop, List.length_append, List.length_cons] at hlen
    have hhi : (overwrite block 1 d)[2 * d.length]? = some 0 :=
      (getElem?_behind (by omega) 0).trans (congrArg (·[0]?) hdrop)
    rw [decodeLoop]
    simp only [hhi, if_true, List.append_nil, List.count_nil, Nat.add_zero]

end Decode

section Argv

variable {block tail : Bytes} {argc : Nat} {argv : List Nat}

/-- The loop goes on to the next NUL. -/
theorem argvLoop_scan (hargv : argv.length < argc) (n : Nat) : ∀ {s : Bytes} {p : Nat},
    (0 : BitVec 8) ∉ s → block.drop p = s ++ 0 :: tail →
    argvLoop (n + 1 + s.length) block argc p argv =
      argvLoop n block argc (p + s.length + 1) (argv ++ [p + s.length + 1]) := by
  intro s
  induction s with
  | nil =>
    intro p _ hdrop
    have hread : block[p]? = some 0 := by
      rw [← List.head?_drop, hdrop]
      rfl
    rw [List.length_nil, argvLoop, if_pos hargv, hread]
    rfl
  | cons c s ih =>
    intro p hmem hdrop
    have hread : block[p]? = some c := by
      rw [← List.head?_drop, hdrop]
      rfl
    have hdrop' : block.drop (p + 1) = s ++ 0 :: tail := by
      rw [← List.drop_drop, hdrop]
      rfl
    have hnext : p + 1 + s.length + 1 = p + (c :: s).length + 1 := by
      rw [List.length_cons]
      omega
    rw [List.length_cons, ← Nat.add_assoc, argvLoop, if_pos hargv, hread]
    dsimp only
    rw [if_neg (List.ne_of_not_mem_cons hmem).symm, ih (List.not_mem_of_not_mem_cons hmem) hdrop',
      hnext, List.length_cons]

/-- From the pointer at the first of the strings on, the loop finds the others. -/
theorem argvLoop_eq (m : Nat) : ∀ {d : Bytes} {p n : Nat} {argv : List Nat}, d.length = m →
    block.drop p = d ++ tail → (0 : BitVec 8) ∈ d → argc + 1 = argv.length + d.count 0 →
    d.length < n →
    ∃ ps, argvLoop n block argc p argv = some (argv ++ ps) ∧
      stringAt 0 block p :: ps.map (stringAt 0 block) = (parts 0 d).map some ∧
      ∀ q ∈ p :: ps, p ≤ q ∧ ∃ a, stringAt 0 block q = some a ∧ q + a.length < p + d.length := by
  induction m using Nat.strong_induction_on with
  | _ m ih =>
    intro d p n argv hm hdrop hmem hcount hn
    obtain ⟨s, d', rfl, hs⟩ := List.eq_append_cons_of_mem hmem
    have hstring : stringAt 0 block p = some s := by
      rw [stringAt, hdrop, List.append_assoc, List.cons_append]
      exact CString.upTo_append hs _
    have hzero : s.count 0 = 0 := List.count_eq_zero.mpr hs
    simp only [List.count_append, hzero, List.count_cons_self, Nat.zero_add] at hcount
    rw [CString.parts_append hs, List.map_cons, hstring]
    by_cases hmore : (0 : BitVec 8) ∈ d'
    · have hargv : argv.length < argc := by
        have hpos := List.count_pos_iff.mpr hmore
        omega
      have hdrop' : block.drop (p + s.length + 1) = d' ++ tail := by
        rw [Nat.add_assoc, ← List.drop_drop, hdrop, List.append_assoc, ← List.drop_drop,
          List.drop_left]
        rfl
      simp only [List.length_append, List.length_cons] at hm hn
      obtain ⟨ps, hps, hstrings, hplaces⟩ := @ih d'.length (by omega) d' (p + s.length + 1)
        (n - (s.length + 1)) (argv ++ [p + s.length + 1]) rfl hdrop' hmore
        (by rw [List.length_append, List.length_singleton]; omega) (by omega)
      refine ⟨(p + s.length + 1) :: ps, ?_, ?_, ?_⟩
      · have hfuel : n = n - (s.length + 1) + 1 + s.length := by omega
        rw [hfuel, argvLoop_scan hargv _ hs (by rw [hdrop, List.append_assoc, List.cons_append]),
          hps, List.append_assoc, List.singleton_append]
      · rw [List.map_cons, hstrings]
      · intro q hq
        rw [List.length_append, List.length_cons]
        rcases List.mem_cons.mp hq with rfl | hq
        · exact ⟨Nat.le_refl q, s, hstring, by omega⟩
        · obtain ⟨hle, a, ha, hlast⟩ := hplaces q hq
          exact ⟨by omega, a, ha, by omega⟩
    · have hargv : ¬ argv.length < argc := by
        have hcount' := List.count_eq_zero.mpr hmore
        omega
      obtain ⟨n, rfl⟩ := Nat.exists_eq_add_of_lt hn
      refine ⟨[], ?_, ?_, ?_⟩
      · rw [argvLoop, if_neg hargv, List.append_nil]
      · rw [CString.parts_eq_nil hmore]
        rfl
      · intro q hq
        obtain rfl := List.mem_singleton.mp hq
        exact ⟨Nat.le_refl q, s, hstring, by rw [List.length_append, List.length_cons]; omega⟩

/-- The loop from the NUL in front of the strings on. -/
theorem argvLoop_start {d : Bytes} (junk : Bytes) {n : Nat} (hmem : (0 : BitVec 8) ∈ d)
    (hn : d.length < n) :
    ∃ argv, argvLoop (n + 1) (0 :: (d ++ junk)) (d.count 0) 0 [] = some argv ∧
      argv.map (stringAt 0 (0 :: (d ++ junk))) = (parts 0 d).map some ∧
      (Parsed.args (0 :: (d ++ junk)) argv).Within d.length := by
  have hfirst := @argvLoop_scan (0 :: (d ++ junk)) (d ++ junk) (d.count 0) []
    (List.count_pos_iff.mpr hmem) n [] 0 List.not_mem_nil rfl
  obtain ⟨ps, hps, hstrings, hplaces⟩ := @argvLoop_eq (0 :: (d ++ junk)) junk (d.count 0) d.length d 1 n [1]
    rfl rfl hmem (Nat.add_comm _ _) hn
  refine ⟨1 :: ps, hfirst.trans hps, hstrings, fun q hq => ?_⟩
  obtain ⟨hle, a, ha, hlast⟩ := hplaces q hq
  exact ⟨hle, a, ha, by omega⟩

end Argv

/-- What `main` decodes, and where it leaves it. -/
theorem parseEnvargs_within (s : CStr) :
    ∃ parsed, parseEnvargs s = some parsed ∧
      parsed.strings = (parts 0 (decodePairs s.val)).map some ∧
      parsed.Within (decodePairs s.val).length := by
  have hdecode := @decodeLoop_eq (s.val ++ [0]) s.val [] (s.val ++ [0]).length 0 s.property rfl
    (by rw [List.length_append]; exact Nat.lt_succ_self _)
  rw [CString.overwrite_nil, List.nil_append, Nat.zero_add, List.length_nil] at hdecode
  have hle := length_decodePairs_le s.val
  rw [parseEnvargs]
  dsimp only
  rw [hdecode]
  dsimp only
  split
  next hcount =>
    refine ⟨.fatal, rfl, ?_, trivial⟩
    rw [CString.parts_eq_nil (List.count_eq_zero.mp hcount)]
    rfl
  next hcount =>
    have hmem : (0 : BitVec 8) ∈ decodePairs s.val :=
      List.count_pos_iff.mp (Nat.pos_of_ne_zero hcount)
    have hblocklen : (s.val ++ [0]).length = s.val.length + 1 := List.length_append
    have hlen := @CString.length_overwrite _ (s.val ++ [0]) (decodePairs s.val) 1 (by omega)
    obtain ⟨junk, hblock⟩ : ∃ junk, (overwrite (s.val ++ [0]) 1 (decodePairs s.val)).set 0 0 =
        0 :: (decodePairs s.val ++ junk) := by
      refine ⟨(s.val ++ [0]).drop (1 + (decodePairs s.val).length), ?_⟩
      rw [← CString.drop_overwrite (by omega)]
      cases hcells : overwrite (s.val ++ [0]) 1 (decodePairs s.val) with
      | nil =>
        rw [hcells, List.length_nil] at hlen
        omega
      | cons c cells => rfl
    have hcells : (decodePairs s.val).length < (0 :: (decodePairs s.val ++ junk) : Bytes).length := by
      rw [← hblock, List.length_set, hlen]
      omega
    obtain ⟨argv, hargv, hstrings, hwithin⟩ := argvLoop_start junk hmem hcells
    rw [hblock, hargv]
    exact ⟨_, rfl, hstrings, hwithin⟩

theorem parseEnvargs_eq (s : CStr) :
    (parseEnvargs s).map Parsed.strings = some ((parts 0 (decodePairs s.val)).map some) := by
  obtain ⟨parsed, hparsed, hstrings, -⟩ := parseEnvargs_within s
  rw [hparsed, Option.map_some, hstrings]

theorem Parsed.Within.mono {parsed : Parsed} {m n : Nat} (h : parsed.Within m) (hle : m ≤ n) :
    parsed.Within n := by
  cases parsed with
  | fatal => trivial
  | args envargs argv =>
    intro p hp
    obtain ⟨hpos, a, ha, hlast⟩ := h p hp
    exact ⟨hpos, a, ha, hlast.trans hle⟩

/-- Whatever the variable is, no loop leaves its string, the strings that `main` takes for its
arguments are those that a decoder with an array of its own would come to, and they lie in the first
half of the cells, each of them and by their total length. -/
theorem main_envargs (s : CStr) :
    ∃ parsed, parseEnvargs s = some parsed ∧
      parsed.strings = (parts 0 (decodePairs s.val)).map some ∧
      2 * ((parts 0 (decodePairs s.val)).map fun a => a.length + 1).sum ≤ s.val.length ∧
      parsed.Within (s.val.length / 2) := by
  obtain ⟨parsed, hparsed, hstrings, hwithin⟩ := parseEnvargs_within s
  have hsum := CString.sum_length_parts_le (z := 0) (decodePairs s.val)
  have hle := length_decodePairs_le s.val
  exact ⟨parsed, hparsed, hstrings, by omega, hwithin.mono (by omega)⟩

/-! ## From one program to the other -/

theorem foldlM_putChar (cs : Bytes) : ∀ {tail : Bytes}, tail.length ≤ ENVARGS_SIZE →
    cs.foldlM putChar tail =
      if tail.length + cs.length ≤ ENVARGS_SIZE then some (tail ++ cs) else none := by
  induction cs with
  | nil =>
    intro tail htail
    rw [List.foldlM_nil, List.length_nil, Nat.add_zero, if_pos htail, List.append_nil]
    rfl
  | cons c cs ih =>
    intro tail htail
    have hlen : (tail ++ [c]).length = tail.length + 1 := by
      rw [List.length_append, List.length_singleton]
    rw [List.foldlM_cons, List.length_cons]
    by_cases hroom : tail.length < ENVARGS_SIZE
    · rw [putChar, if_pos hroom]
      show cs.foldlM putChar (tail ++ [c]) = _
      rw [ih (by omega), hlen, List.append_assoc, List.singleton_append, Nat.add_assoc,
        Nat.add_comm 1]
    · rw [putChar, if_neg hroom, if_neg (by omega)]
      rfl

theorem foldlM_putHex (cs : Bytes) : ∀ (tail : Bytes),
    cs.foldlM putHex tail = (cs.flatMap letters).foldlM putChar tail := by
  induction cs with
  | nil => intro tail; rfl
  | cons c cs ih =>
    intro tail
    rw [List.foldlM_cons, List.flatMap_cons, List.foldlM_append, putHex]
    exact congrArg _ (funext ih)

theorem foldlM_putArg (as : List CStr) : ∀ (tail : Bytes),
    as.foldlM putArg tail = (as.flatMap fun a => a.val ++ [0]).foldlM putHex tail := by
  induction as with
  | nil => intro tail; rfl
  | cons a as ih =>
    intro tail
    rw [List.foldlM_cons, List.flatMap_cons, List.foldlM_append, putArg]
    exact congrArg _ (funext ih)

theorem length_flatMap_letters (cs : Bytes) : (cs.flatMap letters).length = 2 * cs.length := by
  induction cs with
  | nil => rfl
  | cons c cs ih =>
    rw [List.flatMap_cons, List.length_append, ih, List.length_cons, letters, List.length_cons,
      List.length_singleton]
    omega

theorem letters_ne_zero : ∀ c : BitVec 8, (0 : BitVec 8) ∉ letters c := by decide

theorem zero_notMem_letters (cs : Bytes) : (0 : BitVec 8) ∉ cs.flatMap letters := by
  intro hmem
  obtain ⟨c, -, hc⟩ := List.mem_flatMap.mp hmem
  exact letters_ne_zero c hc

/-- A char is read from its two letters. -/
theorem decodeChar_letters : ∀ c : BitVec 8,
    decodeChar (0x41 + ((c >>> 4) &&& 0x0F)) (0x41 + (c &&& 0x0F)) = c := by decide

theorem decodePairs_letters (cs : Bytes) : decodePairs (cs.flatMap letters) = cs := by
  induction cs with
  | nil => rfl
  | cons c cs ih =>
    rw [List.flatMap_cons, letters, List.cons_append, List.singleton_append, decodePairs, ih,
      decodeChar_letters]

theorem setenv_append {s : Bytes} (h : (0 : BitVec 8) ∉ s) (d : Bytes) :
    setenv (s ++ 0 :: d) = some ⟨s, h⟩ := by
  have hstring := CString.upTo_append h d
  rw [setenv]
  split
  next hnone => rw [hstring] at hnone; exact absurd hnone (Option.some_ne_none s)
  next t ht =>
    rw [hstring] at ht
    obtain rfl := Option.some.inj ht
    rfl

/-- `pppd` gets the arguments that `start_pppd` has for it, each of them whole, if the two letters
for each of their chars and NULs leave a place in the array, and otherwise `start_pppd` writes past
it. -/
theorem pppd_args (pppox : Int) (pppdArgv : List CStr) :
    ((pppdEnvargs pppox pppdArgv).bind parseEnvargs).map Parsed.strings =
      if 2 * ((startArgs pppox pppdArgv).map fun a => a.val.length + 1).sum < ENVARGS_SIZE then
        some ((startArgs pppox pppdArgv).map fun a => some a.val)
      else none := by
  obtain ⟨cs, hcs⟩ : ∃ cs, cs = (startArgs pppox pppdArgv).flatMap fun a => a.val ++ [0] := ⟨_, rfl⟩
  have hlen : ((startArgs pppox pppdArgv).map fun a => a.val.length + 1).sum = cs.length := by
    rw [hcs, List.length_flatMap]
    refine congrArg _ (List.map_congr_left fun a _ => ?_)
    rw [List.length_append, List.length_singleton]
  have hparts : parts 0 cs = (startArgs pppox pppdArgv).map Subtype.val := by
    rw [hcs, ← List.flatMap_map Subtype.val (· ++ [0]), CString.parts_flatMap]
    intro s hs
    obtain ⟨a, -, rfl⟩ := List.mem_map.mp hs
    exact a.property
  have hwritten : (startArgs pppox pppdArgv).foldlM putArg [] =
      if 2 * cs.length ≤ ENVARGS_SIZE then some (cs.flatMap letters) else none := by
    rw [foldlM_putArg, ← hcs, foldlM_putHex, foldlM_putChar _ (Nat.zero_le _), List.length_nil,
      Nat.zero_add, length_flatMap_letters, List.nil_append]
  rw [pppdEnvargs, hwritten, hlen]
  by_cases hroom : 2 * cs.length < ENVARGS_SIZE
  · have hput : putChar (cs.flatMap letters) 0 = some (cs.flatMap letters ++ [0]) := by
      rw [putChar, length_flatMap_letters, if_pos hroom]
    have henv : setenv (cs.flatMap letters ++ [0]) = some ⟨_, zero_notMem_letters cs⟩ :=
      setenv_append _ []
    rw [if_pos hroom, if_pos (Nat.le_of_lt hroom), Option.bind_eq_bind, Option.bind_some, hput,
      Option.bind_some, henv, Option.bind_some, parseEnvargs_eq, decodePairs_letters, hparts, List.map_map]
    rfl
  · rw [if_neg hroom]
    split
    next =>
      have hput : putChar (cs.flatMap letters) 0 = none := by
        rw [putChar, length_flatMap_letters, if_neg hroom]
      rw [Option.bind_eq_bind, Option.bind_some, hput]
      rfl
    next => rfl

end ConfProfile.Mtpd
