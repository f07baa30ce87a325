import Mathlib.Data.List.Basic
import Mathlib.Data.BitVec

/-!
# Distinguished names as texts (RFC 4514)

A name is a list of relative distinguished names, separated by commas; each of them is
one attribute or some, separated by plus signs, and an attribute is a type, an equals sign
and a value. A backslash takes away what the character behind it means, or stands in front
of the two digits of a byte.

`tokens` takes the escapes away, so that `parse` can cut at the separators that are left.
A parser may skip blanks in front of the relative distinguished names, which is not in the
grammar; `blanks` says that it does.

What is told about a text without escapes is `rdn_front`: only if the value needs no escape
is it read back, and then what is read ends where the value does.
-/

namespace DistinguishedName

abbrev Byte := BitVec 8

def NUL : Byte := 0x00
def SPACE : Byte := 0x20
def DQUOTE : Byte := 0x22
def SHARP : Byte := 0x23
def PLUS : Byte := 0x2B
def COMMA : Byte := 0x2C
def HYPHEN : Byte := 0x2D
def DOT : Byte := 0x2E
def SEMI : Byte := 0x3B
def LANGLE : Byte := 0x3C
def EQUALS : Byte := 0x3D
def RANGLE : Byte := 0x3E
def ESC : Byte := 0x5C

def isDigit (b : Byte) : Bool := 0x30 ≤ b.toNat && b.toNat ≤ 0x39

def isAlpha (b : Byte) : Bool :=
  (0x41 ≤ b.toNat && b.toNat ≤ 0x5A) || (0x61 ≤ b.toNat && b.toNat ≤ 0x7A)

/-! ## Escapes -/

/-- A character of the text without its escapes; a raw one had none. -/
structure Token where
  byte : Byte
  raw : Bool
  deriving DecidableEq

/-- The characters that may stand behind a backslash. -/
def isSpecial (b : Byte) : Bool :=
  b ∈ [ESC, DQUOTE, PLUS, COMMA, SEMI, LANGLE, RANGLE, SPACE, SHARP, EQUALS]

def hexDigit (b : Byte) : Option Byte :=
  if isDigit b then some (b - 0x30)
  else if 0x41 ≤ b.toNat ∧ b.toNat ≤ 0x46 then some (b - 0x37)
  else if 0x61 ≤ b.toNat ∧ b.toNat ≤ 0x66 then some (b - 0x57)
  else none

def hexPair (b c : Byte) : Option Byte := do return 16 * (← hexDigit b) + (← hexDigit c)

def tokens : List Byte → Option (List Token)
  | [] => some []
  | b :: s =>
    if b ≠ ESC then (tokens s).map (⟨b, true⟩ :: ·)
    else match s with
      | [] => none
      | c :: s =>
        if isSpecial c then (tokens s).map (⟨c, false⟩ :: ·)
        else match s with
          | [] => none
          | d :: s => match hexPair c d with
            | none => none
            | some x => (tokens s).map (⟨x, false⟩ :: ·)

/-! ## Separators -/

section Pieces

variable {α : Type} (isSeparator : α → Bool)

/-- What is in front of the first separator, and what is between them and behind the last. -/
def pieces : List α → List α × List (List α)
  | [] => ([], [])
  | x :: xs =>
    if isSeparator x then ([], (pieces xs).1 :: (pieces xs).2)
    else (x :: (pieces xs).1, (pieces xs).2)

variable {isSeparator} {xs : List α}

theorem pieces_append (h : ∀ x ∈ xs, isSeparator x = false) (ys : List α) :
    pieces isSeparator (xs ++ ys) = (xs ++ (pieces isSeparator ys).1, (pieces isSeparator ys).2) := by
  induction xs with
  | nil => rfl
  | cons x xs ih =>
    obtain ⟨hx, h⟩ := List.forall_mem_cons.mp h
    rw [List.cons_append, pieces, ih h, if_neg (Bool.eq_false_iff.mp hx)]
    rfl

theorem pieces_of_forall (h : ∀ x ∈ xs, isSeparator x = false) :
    pieces isSeparator xs = (xs, []) := by
  have happ := pieces_append h []
  rwa [List.append_nil, pieces, List.append_nil] at happ

theorem pieces_front (isSeparator : α → Bool) (xs : List α) :
    ∃ ys, xs = (pieces isSeparator xs).1 ++ ys ∧
      ∀ x ∈ (pieces isSeparator xs).1, isSeparator x = false := by
  induction xs with
  | nil => exact ⟨[], rfl, fun x hx => by cases hx⟩
  | cons x xs ih =>
    obtain ⟨ys, heq, hfront⟩ := ih
    rw [pieces]
    split_ifs with hx
    · exact ⟨x :: xs, rfl, fun y hy => by cases hy⟩
    · refine ⟨ys, by rw [List.cons_append, ← heq], ?_⟩
      exact List.forall_mem_cons.mpr ⟨Bool.eq_false_iff.mpr hx, hfront⟩

/-- Each element is a separator or in a piece. -/
theorem mem_pieces (isSeparator : α → Bool) {x : α} (hx : x ∈ xs) :
    isSeparator x = true ∨ ∃ piece ∈ (pieces isSeparator xs).1 :: (pieces isSeparator xs).2,
      x ∈ piece := by
  induction xs with
  | nil => cases hx
  | cons y xs ih =>
    rw [pieces]
    by_cases hy : isSeparator y = true
    · rw [if_pos hy]
      rcases List.mem_cons.mp hx with rfl | hx
      · exact Or.inl hy
      · refine (ih hx).imp_right fun h => ?_
        obtain ⟨piece, hpiece, hmem⟩ := h
        exact ⟨piece, List.mem_cons_of_mem _ hpiece, hmem⟩
    · rw [if_neg hy]
      rcases List.mem_cons.mp hx with rfl | hx
      · exact Or.inr ⟨_, List.mem_cons_self, List.mem_cons_self⟩
      · refine (ih hx).imp_right fun h => ?_
        obtain ⟨piece, hpiece, hmem⟩ := h
        rcases List.mem_cons.mp hpiece with rfl | hpiece
        · exact ⟨_, List.mem_cons_self, List.mem_cons_of_mem y hmem⟩
        · exact ⟨piece, List.mem_cons_of_mem _ hpiece, hmem⟩

end Pieces

/-! ## The grammar -/

/-- `descr`. -/
def isDescr : List Byte → Bool
  | [] => false
  | b :: t => isAlpha b && t.all fun c => isAlpha c || isDigit c || c == HYPHEN

/-- `number`. -/
def isNumber (n : List Byte) : Bool :=
  n ≠ [] && n.all isDigit && (n.length == 1 || n.head? != some 0x30)

/-- `numericoid`. -/
def isNumericoid (t : List Byte) : Bool :=
  let numbers := pieces (· == DOT) t
  numbers.2 ≠ [] && (numbers.1 :: numbers.2).all isNumber

def isType (t : List Byte) : Bool := isDescr t || isNumericoid t

/-- The value of an attribute; that of a `hexstring` is in BER. -/
inductive Value where
  | string (octets : List Byte)
  | hex (ber : List Byte)
  deriving DecidableEq

def hexPairs : List Token → Option (List Byte)
  | [] => some []
  | [_] => none
  | c :: d :: ts =>
    if c.raw && d.raw then do return (← hexPair c.byte d.byte) :: (← hexPairs ts) else none

/-- A token that a string cannot have. -/
def isForbidden (t : Token) : Bool := t.raw && t.byte ∈ [NUL, DQUOTE, SEMI, LANGLE, RANGLE]

def valueOf (ts : List Token) : Option Value :=
  if ts.head? = some ⟨SHARP, true⟩ then
    if ts.tail = [] then none else (hexPairs ts.tail).map .hex
  else if ts.any isForbidden ∨ ts.head? = some ⟨SPACE, true⟩ ∨ ts.getLast? = some ⟨SPACE, true⟩ then
    none
  else some (.string (ts.map (·.byte)))

def isEquals (t : Token) : Bool := t = ⟨EQUALS, true⟩
def isPlus (t : Token) : Bool := t = ⟨PLUS, true⟩
def isComma (t : Token) : Bool := t = ⟨COMMA, true⟩
def isBlank (t : Token) : Bool := t = ⟨SPACE, true⟩

def attributeOf (ts : List Token) : Option (List Byte × Value) :=
  let type := ts.takeWhile (!isEquals ·)
  match ts.dropWhile (!isEquals ·) with
  | [] => none
  | _ :: value =>
    if type.all (·.raw) && isType (type.map (·.byte)) then
      (valueOf value).map (type.map (·.byte), ·)
    else none

/-- A relative distinguished name has at least one attribute. -/
structure Rdn (α : Type) where
  first : α
  others : List α
  deriving DecidableEq

def Rdn.map {α β : Type} (f : α → β) (rdn : Rdn α) : Rdn β := ⟨f rdn.first, rdn.others.map f⟩

def rdnOf (ts : List Token) : Option (Rdn (List Byte × Value)) := do
  return ⟨← attributeOf (pieces isPlus ts).1, ← (pieces isPlus ts).2.mapM attributeOf⟩

/-- The relative distinguished names between the commas. -/
def rdnsOf (blanks : Bool) (ts : List Token) : Option (List (Rdn (List Byte × Value))) :=
  ((pieces isComma ts).1 :: (pieces isComma ts).2).mapM fun piece =>
    rdnOf (if blanks then piece.dropWhile isBlank else piece)

def parse (blanks : Bool) (s : List Byte) : Option (List (Rdn (List Byte × Value))) :=
  if s = [] then some [] else (tokens s).bind (rdnsOf blanks)

/-- `CN=a\,\C3\A4+2.5.4.5=#0401ff, O=`, with a blank. -/
example : parse true [0x43, 0x4E, 0x3D, 0x61, 0x5C, 0x2C, 0x5C, 0x43, 0x33, 0x5C, 0x41, 0x34, 0x2B,
    0x32, 0x2E, 0x35, 0x2E, 0x34, 0x2E, 0x35, 0x3D, 0x23, 0x30, 0x34, 0x30, 0x31, 0x66, 0x66,
    0x2C, 0x20, 0x4F, 0x3D] =
    some [⟨([0x43, 0x4E], .string [0x61, 0x2C, 0xC3, 0xA4]),
      [([0x32, 0x2E, 0x35, 0x2E, 0x34, 0x2E, 0x35], .hex [0x04, 0x01, 0xFF])]⟩,
      ⟨([0x4F], .string []), []⟩] := by decide

variable {blanks : Bool} {t v tail s : List Byte} {ts : List Token} {b : Byte}

/-! ## Types -/

theorem isType_ne_nil (h : isType t = true) : t ≠ [] := by
  intro heq
  subst heq
  exact absurd h (by decide)

/-- A type has none of the characters that mean something elsewhere. -/
theorem isType_byte (h : isType t = true) (hb : b ∈ t) :
    (isAlpha b || isDigit b || b == HYPHEN || b == DOT) = true := by
  rw [isType, Bool.or_eq_true] at h
  rcases h with hdescr | hoid
  · cases t with
    | nil => cases hb
    | cons c t =>
      rw [isDescr, Bool.and_eq_true, List.all_eq_true] at hdescr
      rcases List.mem_cons.mp hb with rfl | hb
      · simp [hdescr.1]
      · have hc := hdescr.2 b hb
        rw [hc, Bool.true_or]
  · rcases mem_pieces (· == DOT) hb with hdot | hpiece
    · simp [hdot]
    · obtain ⟨piece, hpiece, hmem⟩ := hpiece
      rw [isNumericoid, Bool.and_eq_true, List.all_eq_true] at hoid
      have hnumber := hoid.2 piece hpiece
      rw [isNumber, Bool.and_eq_true, Bool.and_eq_true, List.all_eq_true] at hnumber
      simp [hnumber.1.2 b hmem]

theorem ne_of_isType (h : isType t = true) (hb : b ∈ t) :
    b ∉ [ESC, COMMA, PLUS, EQUALS, SPACE] := by
  have hbyte := isType_byte h hb
  intro hmem
  revert hbyte
  simp only [List.mem_cons, List.not_mem_nil, or_false] at hmem
  rcases hmem with rfl | rfl | rfl | rfl | rfl <;> decide

/-! ## Texts without escapes -/

def rawTokens (s : List Byte) : List Token := s.map (⟨·, true⟩)

theorem map_byte_rawTokens (s : List Byte) : (rawTokens s).map (·.byte) = s := by
  simp [rawTokens, Function.comp_def]

theorem rawTokens_append (s s' : List Byte) : rawTokens (s ++ s') = rawTokens s ++ rawTokens s' :=
  List.map_append

theorem tokens_cons (hb : b ≠ ESC) (s : List Byte) :
    tokens (b :: s) = (tokens s).map (⟨b, true⟩ :: ·) := by
  rw [tokens.eq_def]
  exact if_pos hb

theorem tokens_append (h : ESC ∉ s) (s' : List Byte) :
    tokens (s ++ s') = (tokens s').map (rawTokens s ++ ·) := by
  induction s with
  | nil => simp [rawTokens]
  | cons b s ih =>
    rw [List.mem_cons, not_or] at h
    rw [List.cons_append, tokens_cons (Ne.symm h.1), ih h.2, Option.map_map]
    rfl

theorem tokens_of_notMem (h : ESC ∉ s) : tokens s = some (rawTokens s) := by
  have happ := tokens_append h []
  rwa [List.append_nil, tokens, Option.map_some, List.append_nil] at happ

/-- The first token is a raw character, an escaped one or a byte in hexadecimal. -/
theorem tokens_cases (h : tokens (b :: s) = some ts) :
    (b ≠ ESC ∧ ∃ ts', tokens s = some ts' ∧ ts = ⟨b, true⟩ :: ts') ∨
    (b = ESC ∧ ∃ c s' ts', s = c :: s' ∧ tokens s' = some ts' ∧ ts = ⟨c, false⟩ :: ts') ∨
    (b = ESC ∧ ∃ c d s' x ts', s = c :: d :: s' ∧ hexPair c d = some x ∧ tokens s' = some ts' ∧
      ts = ⟨x, false⟩ :: ts') := by
  by_cases hb : b = ESC
  · rw [tokens.eq_def] at h
    dsimp only at h
    rw [if_neg (not_not.mpr hb)] at h
    refine Or.inr ?_
    cases s with
    | nil => cases h
    | cons c s =>
      dsimp only at h
      split at h
      · obtain ⟨ts', hts', rfl⟩ := Option.map_eq_some_iff.mp h
        exact Or.inl ⟨hb, c, s, ts', rfl, hts', rfl⟩
      · cases s with
        | nil => cases h
        | cons d s =>
          dsimp only at h
          split at h
          · cases h
          · rename_i x hx
            obtain ⟨ts', hts', rfl⟩ := Option.map_eq_some_iff.mp h
            exact Or.inr ⟨hb, c, d, s, x, ts', rfl, hx, hts', rfl⟩
  · rw [tokens_cons hb] at h
    obtain ⟨ts', hts', rfl⟩ := Option.map_eq_some_iff.mp h
    exact Or.inl ⟨hb, ts', hts', rfl⟩

theorem tokens_raw {s : List Byte} {ts : List Token} (h : tokens s = some ts) :
    ∀ x ∈ ts, x.raw = true → x.byte ≠ ESC := by
  intro x hx hraw
  cases s with
  | nil =>
    cases h
    cases hx
  | cons b s =>
    rcases tokens_cases h with ⟨hb, ts', hts', rfl⟩ | ⟨-, c, s', ts', rfl, hts', rfl⟩ |
      ⟨-, c, d, s', y, ts', rfl, -, hts', rfl⟩
    · rcases List.mem_cons.mp hx with rfl | hx
      · exact hb
      · exact tokens_raw hts' x hx hraw
    · rcases List.mem_cons.mp hx with rfl | hx
      · cases hraw
      · exact tokens_raw hts' x hx hraw
    · rcases List.mem_cons.mp hx with rfl | hx
      · cases hraw
      · exact tokens_raw hts' x hx hraw
termination_by s.length

theorem hexPair_comma (b : Byte) : hexPair COMMA b = none ∧ hexPair b COMMA = none := by
  have hdigit : hexDigit COMMA = none := by decide
  rw [hexPair, hexPair, hdigit]
  exact ⟨rfl, by cases hexDigit b <;> rfl⟩

/-- The tokens `w`, read from `p`, have a comma earlier than `p` ends, or they are fewer than
its characters, or these have no escapes. -/
def ReadFrom (w : List Token) (p : List Byte) : Prop :=
  (∃ i < p.length, (w.map (·.byte))[i]? = some COMMA) ∨ w.length < p.length ∨ w = rawTokens p

theorem ReadFrom.raw {w : List Token} {p : List Byte} (h : ReadFrom w p) (b : Byte) :
    ReadFrom (⟨b, true⟩ :: w) (b :: p) := by
  rcases h with ⟨i, hi, hcomma⟩ | hlen | heq
  · exact Or.inl ⟨i + 1, Nat.succ_lt_succ hi, hcomma⟩
  · exact Or.inr (Or.inl (Nat.succ_lt_succ hlen))
  · exact Or.inr (Or.inr (congrArg _ heq))

/-- Behind an escape, the tokens are fewer. -/
theorem ReadFrom.escaped {w : List Token} {p q : List Byte} (h : ReadFrom w q)
    (hlt : q.length + 1 < p.length) (x : Token) : ReadFrom (x :: w) p := by
  rcases h with ⟨i, hi, hcomma⟩ | hlen | heq
  · exact Or.inl ⟨i + 1, by omega, hcomma⟩
  · refine Or.inr (Or.inl ?_)
    rw [List.length_cons]
    omega
  · refine Or.inr (Or.inl ?_)
    rw [heq, List.length_cons, rawTokens, List.length_map]
    exact hlt

/-- A comma within is escaped, so that it comes earlier among the tokens than in the text. -/
theorem tokens_front {p : List Byte} {w : List Token} (h : tokens (p ++ tail) = some (w ++ ts))
    (hp : COMMA ∉ p) (htail : ∀ b ∈ tail.head?, b = COMMA) (hw : ∀ x ∈ w, isComma x = false) :
    ReadFrom w p := by
  induction hn : p.length using Nat.strongRecOn generalizing p w with
  | _ n ih =>
    subst hn
    cases w with
    | nil =>
      cases p with
      | nil => exact Or.inr (Or.inr rfl)
      | cons b p => exact Or.inr (Or.inl (Nat.zero_lt_succ _))
    | cons x w =>
      obtain ⟨hx, hw'⟩ := List.forall_mem_cons.mp hw
      cases p with
      | nil =>
        cases tail with
        | nil => cases h
        | cons b tail =>
          obtain rfl := htail b rfl
          rw [List.nil_append, tokens_cons (by decide)] at h
          obtain ⟨ts', -, hts'⟩ := Option.map_eq_some_iff.mp h
          cases hts'
          exact absurd hx (by decide)
      | cons b p =>
        rw [List.mem_cons, not_or] at hp
        rcases tokens_cases h with ⟨-, ts', hts', heq⟩ | ⟨-, c, s', ts', hs, hts', heq⟩ |
          ⟨-, c, d, s', y, ts', hs, hy, hts', heq⟩
        · cases heq
          exact (ih p.length (Nat.lt_succ_self _) hts' hp.2 hw' rfl).raw b
        · cases heq
          cases p with
          | nil =>
            have hcomma : tail = c :: s' := hs
            obtain rfl := htail c (by rw [hcomma]; rfl)
            exact Or.inl ⟨0, Nat.zero_lt_succ _, rfl⟩
          | cons c' p =>
            cases hs
            have hlt : p.length + 1 < (b :: c :: p).length := Nat.lt_succ_self _
            have hnone : COMMA ∉ p := fun hq => hp.2 (List.mem_cons_of_mem _ hq)
            exact (ih p.length (Nat.lt_of_succ_lt hlt) hts' hnone hw' rfl).escaped hlt _
        · cases heq
          cases p with
          | nil =>
            have hcomma : tail = c :: d :: s' := hs
            obtain rfl := htail c (by rw [hcomma]; rfl)
            rw [(hexPair_comma d).1] at hy
            cases hy
          | cons c' p =>
            cases p with
            | nil =>
              have hcomma : tail = d :: s' := (List.cons.inj hs).2
              obtain rfl := htail d (by rw [hcomma]; rfl)
              rw [(hexPair_comma c).2] at hy
              cases hy
            | cons d' p =>
              cases hs
              have hlt : p.length + 1 < (b :: c :: d :: p).length := by
                rw [List.length_cons, List.length_cons, List.length_cons]
                omega
              have hnone : COMMA ∉ p := fun hq =>
                hp.2 (List.mem_cons_of_mem _ (List.mem_cons_of_mem _ hq))
              exact (ih p.length (Nat.lt_of_succ_lt hlt) hts' hnone hw' rfl).escaped hlt _

/-- So only a text without escapes is what its tokens are. -/
theorem tokens_same {w : List Token} (h : tokens (v ++ tail) = some (w ++ ts))
    (htail : ∀ b ∈ tail.head?, b = COMMA) (hw : ∀ x ∈ w, isComma x = false)
    (hv : w.map (·.byte) = v) : w = rawTokens v ∧ COMMA ∉ v := by
  have hlen : w.length = v.length := by rw [← hv, List.length_map]
  by_cases hmem : COMMA ∈ v
  · obtain ⟨p, q, rfl, hp⟩ := List.eq_append_cons_of_mem hmem
    rw [List.append_assoc, List.cons_append] at h
    rw [List.length_append, List.length_cons] at hlen
    have hcomma : ∀ b ∈ (COMMA :: (q ++ tail)).head?, b = COMMA := fun b hb => by
      cases hb
      rfl
    rcases tokens_front h hp hcomma hw with ⟨i, hi, hcomma⟩ | hlt | heq
    · rw [hv, List.getElem?_append_left hi] at hcomma
      exact absurd (List.mem_of_getElem? hcomma) hp
    · omega
    · rw [heq, rawTokens, List.length_map] at hlen
      omega
  · rcases tokens_front h hmem htail hw with ⟨i, -, hcomma⟩ | hlt | heq
    · rw [hv] at hcomma
      exact absurd (List.mem_of_getElem? hcomma) hmem
    · omega
    · exact ⟨heq, hmem⟩

/-! ## Names without escapes -/

/-- The value needs no escapes. -/
structure Plain (v : List Byte) : Prop where
  none_inside : ∀ b ∈ v, b ∉ [NUL, DQUOTE, PLUS, COMMA, SEMI, LANGLE, RANGLE, ESC]
  head : v.head? ≠ some SPACE ∧ v.head? ≠ some SHARP
  last : v.getLast? ≠ some SPACE

/-- Some of them are separators, and a string has none of the others. -/
theorem mem_none_inside : b ∈ [NUL, DQUOTE, PLUS, COMMA, SEMI, LANGLE, RANGLE, ESC] ↔
    b ∈ [PLUS, COMMA, ESC] ∨ b ∈ [NUL, DQUOTE, SEMI, LANGLE, RANGLE] := by
  rw [← List.mem_append]
  exact List.Perm.mem_iff (by decide)

/-- An attribute without escapes. -/
def written (t v : List Byte) : List Byte := t ++ EQUALS :: v

theorem forall_rawTokens {p : Token → Prop} :
    (∀ x ∈ rawTokens s, p x) ↔ ∀ b ∈ s, p ⟨b, true⟩ := List.forall_mem_map

theorem isType_rawTokens (ht : isType t = true) :
    ∀ x ∈ rawTokens t, isEquals x = false ∧ isPlus x = false ∧ isComma x = false ∧
      isBlank x = false := by
  refine forall_rawTokens.mpr fun b hb => ?_
  have hne := ne_of_isType ht hb
  simp only [List.mem_cons, List.not_mem_nil, or_false, not_or] at hne
  simp [isEquals, isPlus, isComma, isBlank, hne]

/-- The type with its equals sign is in the first piece. -/
theorem pieces_type {isSeparator : Token → Bool} (ht : ∀ x ∈ rawTokens t, isSeparator x = false)
    (hequals : isSeparator ⟨EQUALS, true⟩ = false) (ts : List Token) :
    pieces isSeparator (rawTokens (t ++ [EQUALS]) ++ ts) =
      (rawTokens (t ++ [EQUALS]) ++ (pieces isSeparator ts).1, (pieces isSeparator ts).2) := by
  refine pieces_append ?_ ts
  rw [rawTokens_append, List.forall_mem_append]
  exact ⟨ht, List.forall_mem_singleton.mpr hequals⟩

theorem attributeOf_written (ht : isType t = true) (ts : List Token) :
    attributeOf (rawTokens (t ++ [EQUALS]) ++ ts) = (valueOf ts).map (t, ·) := by
  have hne : ∀ x ∈ rawTokens t, (!isEquals x) = true := fun x hx => by
    rw [(isType_rawTokens ht x hx).1]
    rfl
  have hequals : (!isEquals ⟨EQUALS, true⟩) = false := by decide
  have happ : rawTokens (t ++ [EQUALS]) ++ ts = rawTokens t ++ ⟨EQUALS, true⟩ :: ts := by
    rw [rawTokens_append, List.append_assoc]
    rfl
  have hraw : (rawTokens t).all (·.raw) = true :=
    List.all_eq_true.mpr (forall_rawTokens.mpr fun _ _ => rfl)
  rw [attributeOf, happ, List.takeWhile_append_of_pos hne, List.dropWhile_append_of_pos hne,
    List.takeWhile_cons_of_neg (by rw [hequals]; exact Bool.false_ne_true),
    List.dropWhile_cons_of_neg (by rw [hequals]; exact Bool.false_ne_true), List.append_nil]
  simp only [map_byte_rawTokens, hraw, ht, Bool.and_self, if_true]

theorem rdnOf_written (ht : isType t = true) (ts : List Token) :
    rdnOf (rawTokens (t ++ [EQUALS]) ++ ts) = (valueOf (pieces isPlus ts).1).bind fun value =>
      ((pieces isPlus ts).2.mapM attributeOf).map fun others => ⟨(t, value), others⟩ := by
  have hplus : ∀ x ∈ rawTokens t, isPlus x = false := fun x hx => (isType_rawTokens ht x hx).2.1
  rw [rdnOf, pieces_type hplus (by decide), attributeOf_written ht]
  cases valueOf (pieces isPlus ts).1 with
  | none => rfl
  | some value => cases (pieces isPlus ts).2.mapM attributeOf <;> rfl

theorem rdnsOf_written (ht : isType t = true) (ts : List Token) :
    rdnsOf blanks (rawTokens (t ++ [EQUALS]) ++ ts) =
      (rdnOf (rawTokens (t ++ [EQUALS]) ++ (pieces isComma ts).1)).bind fun rdn =>
        ((pieces isComma ts).2.mapM fun piece =>
          rdnOf (if blanks then piece.dropWhile isBlank else piece)).map (rdn :: ·) := by
  have hcomma : ∀ x ∈ rawTokens t, isComma x = false := fun x hx =>
    (isType_rawTokens ht x hx).2.2.1
  have hskip : ∀ ts' : List Token, (rawTokens (t ++ [EQUALS]) ++ ts').dropWhile isBlank =
      rawTokens (t ++ [EQUALS]) ++ ts' := by
    intro ts'
    obtain ⟨b, t', rfl⟩ := List.exists_cons_of_ne_nil (isType_ne_nil ht)
    have hb := (isType_rawTokens ht ⟨b, true⟩ List.mem_cons_self).2.2.2
    exact List.dropWhile_cons_of_neg (by rw [hb]; exact Bool.false_ne_true)
  rw [rdnsOf, pieces_type hcomma (by decide), List.mapM_cons, hskip, ite_self]
  cases rdnOf (rawTokens (t ++ [EQUALS]) ++ (pieces isComma ts).1) with
  | none => rfl
  | some rdn =>
    cases (pieces isComma ts).2.mapM fun piece =>
      rdnOf (if blanks then piece.dropWhile isBlank else piece) <;> rfl

theorem valueOf_eq_string {octets : List Byte} (h : valueOf ts = some (.string octets)) :
    ts.map (·.byte) = octets := by
  rw [valueOf] at h
  split_ifs at h
  · obtain ⟨ber, -, hber⟩ := Option.map_eq_some_iff.mp h
    cases hber
  · cases h
    rfl

theorem valueOf_rawTokens (hv : ∀ b ∈ v, b ∉ [PLUS, COMMA, ESC]) :
    valueOf (rawTokens v) = some (.string v) ↔ Plain v := by
  have hhead : ∀ b : Byte, (rawTokens v).head? = some ⟨b, true⟩ ↔ v.head? = some b := by
    intro b
    cases v <;> simp [rawTokens]
  have hlast : (rawTokens v).getLast? = some ⟨SPACE, true⟩ ↔ v.getLast? = some SPACE := by
    rw [rawTokens, List.getLast?_map]
    cases v.getLast? <;> simp
  have hforbidden : (rawTokens v).any isForbidden = true ↔
      ∃ b ∈ v, b ∈ [NUL, DQUOTE, SEMI, LANGLE, RANGLE] := by
    rw [rawTokens, List.any_map, List.any_eq_true]
    simp [isForbidden]
  simp only [valueOf, hhead, hlast, hforbidden, map_byte_rawTokens]
  constructor
  · intro h
    split_ifs at h with hsharp hnil hbad
    · obtain ⟨ber, -, hber⟩ := Option.map_eq_some_iff.mp h
      cases hber
    · rw [not_or, not_or] at hbad
      refine ⟨fun b hb hmem => ?_, ⟨hbad.2.1, hsharp⟩, hbad.2.2⟩
      rcases mem_none_inside.mp hmem with hseparator | hforbidden
      · exact hv b hb hseparator
      · exact hbad.1 ⟨b, hb, hforbidden⟩
  · intro h
    have hnone : ¬ ∃ b ∈ v, b ∈ [NUL, DQUOTE, SEMI, LANGLE, RANGLE] := by
      intro h'
      obtain ⟨b, hb, hmem⟩ := h'
      exact h.none_inside b hb (mem_none_inside.mpr (Or.inr hmem))
    rw [if_neg h.head.2, if_neg (not_or.mpr ⟨hnone, not_or.mpr ⟨h.head.1, h.last⟩⟩)]

theorem isType_of_attributeOf {pair : List Byte × Value} (h : attributeOf ts = some pair) :
    isType pair.1 = true := by
  rw [attributeOf] at h
  split at h
  · cases h
  · split_ifs at h with htype
    obtain ⟨value, -, rfl⟩ := Option.map_eq_some_iff.mp h
    rw [Bool.and_eq_true] at htype
    exact htype.2

theorem isType_of_parse {rdns : List (Rdn (List Byte × Value))} {rdn : Rdn (List Byte × Value)}
    (h : parse blanks s = some (rdn :: rdns)) : isType rdn.first.1 = true := by
  rw [parse] at h
  split_ifs at h
  · cases h
  · obtain ⟨ts, -, hts⟩ := Option.bind_eq_some_iff.mp h
    rw [rdnsOf, List.mapM_cons] at hts
    obtain ⟨rdn', hrdn, hts⟩ := Option.bind_eq_some_iff.mp hts
    obtain ⟨rdns', -, heq⟩ := Option.bind_eq_some_iff.mp hts
    cases heq
    obtain ⟨first, hfirst, hrdn⟩ := Option.bind_eq_some_iff.mp hrdn
    obtain ⟨others, -, heq⟩ := Option.bind_eq_some_iff.mp hrdn
    cases heq
    exact isType_of_attributeOf hfirst

theorem tokens_written (ht : isType t = true) (v tail : List Byte) :
    tokens (written t v ++ tail) =
      (tokens (v ++ tail)).map (rawTokens (t ++ [EQUALS]) ++ ·) := by
  have hesc : ESC ∉ t ++ [EQUALS] := by
    rw [List.mem_append, not_or]
    exact ⟨fun h => ne_of_isType ht h List.mem_cons_self, by decide⟩
  rw [← tokens_append hesc, written, List.append_assoc, List.append_assoc]
  rfl

/-- A value that is read back needs no escapes. -/
theorem plain_of_parse {others : List (List Byte × Value)}
    {rdns : List (Rdn (List Byte × Value))} (htail : ∀ b ∈ tail.head?, b = COMMA)
    (h : parse blanks (written t v ++ tail) = some (⟨(t, .string v), others⟩ :: rdns)) :
    isType t = true ∧ Plain v := by
  have ht : isType t = true := isType_of_parse h
  refine ⟨ht, ?_⟩
  have hne : written t v ++ tail ≠ [] := by simp [written]
  rw [parse, if_neg hne, tokens_written ht, Option.bind_eq_some_iff] at h
  obtain ⟨ts', hts', h⟩ := h
  obtain ⟨ts, hts, rfl⟩ := Option.map_eq_some_iff.mp hts'
  rw [rdnsOf_written ht, Option.bind_eq_some_iff] at h
  obtain ⟨rdn, hrdn, h⟩ := h
  obtain ⟨rdns', -, heq⟩ := Option.map_eq_some_iff.mp h
  cases heq
  rw [rdnOf_written ht, Option.bind_eq_some_iff] at hrdn
  obtain ⟨value, hvalue, hrdn⟩ := hrdn
  obtain ⟨others', -, heq⟩ := Option.map_eq_some_iff.mp hrdn
  cases heq
  obtain ⟨ys, hys, hcomma⟩ := pieces_front isComma ts
  obtain ⟨zs, hzs, hplus⟩ := pieces_front isPlus (pieces isComma ts).1
  have hraw := tokens_raw hts
  rw [hys, hzs, List.append_assoc] at hts
  have hw : ∀ x ∈ (pieces isPlus (pieces isComma ts).1).1, isComma x = false := by
    intro x hx
    refine hcomma x ?_
    rw [hzs]
    exact List.mem_append_left _ hx
  obtain ⟨hsame, hnone⟩ := tokens_same hts htail hw (valueOf_eq_string hvalue)
  rw [hsame] at hvalue hplus hzs
  refine (valueOf_rawTokens fun b hb hmem => ?_).mp hvalue
  simp only [List.mem_cons, List.not_mem_nil, or_false] at hmem
  rcases hmem with rfl | rfl | rfl
  · exact absurd (forall_rawTokens.mp hplus _ hb) (by decide)
  · exact hnone hb
  · refine hraw ⟨ESC, true⟩ ?_ rfl rfl
    rw [hys, hzs]
    exact List.mem_append_left _ (List.mem_append_left _ (List.mem_map_of_mem hb))

theorem Plain.tokens (hv : Plain v) : ESC ∉ v ∧ (∀ x ∈ rawTokens v, isPlus x = false) ∧
    ∀ x ∈ rawTokens v, isComma x = false := by
  refine ⟨fun h => hv.none_inside _ h (by decide), forall_rawTokens.mpr fun b hb => ?_,
    forall_rawTokens.mpr fun b hb => ?_⟩ <;>
  · have hne := hv.none_inside b hb
    simp only [List.mem_cons, List.not_mem_nil, or_false, not_or] at hne
    simp [isPlus, isComma, hne]

/-- An attribute without escapes is read as it is. -/
theorem rdnOf_plain (ht : isType t = true) (hv : Plain v) :
    rdnOf (rawTokens (t ++ [EQUALS]) ++ rawTokens v) = some ⟨(t, .string v), []⟩ := by
  obtain ⟨hesc, hplus, -⟩ := hv.tokens
  have hvalue : valueOf (rawTokens v) = some (.string v) := by
    refine (valueOf_rawTokens fun b hb hmem => ?_).mpr hv
    exact hv.none_inside b hb (mem_none_inside.mpr (Or.inl hmem))
  rw [rdnOf_written ht, pieces_of_forall hplus, hvalue]
  rfl

theorem parse_written (ht : isType t = true) (hv : Plain v) :
    parse blanks (written t v) = some [⟨(t, .string v), []⟩] := by
  obtain ⟨hesc, -, hcomma⟩ := hv.tokens
  have htokens := tokens_written ht v []
  rw [List.append_nil, List.append_nil, tokens_of_notMem hesc, Option.map_some] at htokens
  have hne : written t v ≠ [] := by simp [written]
  rw [parse, if_neg hne, htokens, Option.bind_some, rdnsOf_written ht, pieces_of_forall hcomma,
    rdnOf_plain ht hv]
  rfl

/-- Behind a comma there is another relative distinguished name. -/
theorem parse_written_comma (ht : isType t = true) (hv : Plain v) (s : List Byte) :
    parse blanks (written t v ++ COMMA :: s) =
      ((tokens s).bind (rdnsOf blanks)).map (⟨(t, .string v), []⟩ :: ·) := by
  obtain ⟨hesc, -, hcomma⟩ := hv.tokens
  have hne : written t v ++ COMMA :: s ≠ [] := by simp
  rw [parse, if_neg hne, tokens_written ht, tokens_append hesc, tokens_cons (by decide)]
  cases tokens s with
  | none => rfl
  | some ts =>
    have hpieces : pieces isComma (rawTokens v ++ ⟨COMMA, true⟩ :: ts) =
        (rawTokens v, (pieces isComma ts).1 :: (pieces isComma ts).2) := by
      rw [pieces_append hcomma, pieces, if_pos (by decide), List.append_nil]
    simp only [Option.map_some, Option.bind_some]
    rw [rdnsOf_written ht, hpieces, rdnOf_plain ht hv]
    rfl

theorem pieces_blank {isSeparator : Token → Bool} (h : isSeparator ⟨SPACE, true⟩ = false)
    (ts : List Token) : pieces isSeparator (⟨SPACE, true⟩ :: ts) =
      (⟨SPACE, true⟩ :: (pieces isSeparator ts).1, (pieces isSeparator ts).2) := by
  rw [pieces, if_neg (Bool.eq_false_iff.mp h)]

theorem attributeOf_blank (ts : List Token) : attributeOf (⟨SPACE, true⟩ :: ts) = none := by
  rw [attributeOf, List.takeWhile_cons_of_pos (by decide), List.dropWhile_cons_of_pos (by decide)]
  split
  · rfl
  · refine if_neg fun h => ?_
    rw [Bool.and_eq_true] at h
    exact ne_of_isType h.2 List.mem_cons_self (by decide)

/-- The grammar has no blank in front of a relative distinguished name. -/
theorem rdnsOf_blank (s : List Byte) : (tokens (SPACE :: s)).bind (rdnsOf false) = none := by
  rw [tokens_cons (by decide)]
  cases tokens s with
  | none => rfl
  | some ts =>
    simp only [Option.map_some, Option.bind_some]
    rw [rdnsOf, pieces_blank (by decide), List.mapM_cons, if_neg Bool.false_ne_true, rdnOf,
      pieces_blank (by decide), attributeOf_blank]
    rfl

theorem rdnsOf_skip (hs : s ≠ []) :
    (tokens (SPACE :: s)).bind (rdnsOf true) = parse true s := by
  rw [tokens_cons (by decide), parse, if_neg hs]
  cases tokens s with
  | none => rfl
  | some ts =>
    simp only [Option.map_some, Option.bind_some]
    rw [rdnsOf, pieces_blank (by decide), rdnsOf, List.mapM_cons, List.mapM_cons, if_pos rfl,
      if_pos rfl, List.dropWhile_cons_of_pos (by decide)]

end DistinguishedName
