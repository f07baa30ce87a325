import ConfProfile.Lib.BigEndian
import ConfProfile.OpenVpn.NetUtils

/-!
# IPv4 addresses and masks (`NetUtils`)

What `ip4StrToInt` takes for an address, and what it makes of the texts that `ip4IntToStr` and
`mask4IntToStr` write. `digit` is `Character.digit` and `numeral` are the digits that `%d`
writes, which depend on the default locale.
-/

namespace ConfProfile.OpenVpn

open BigEndian (toNat_append_bytes)
open Fields

/-- What the platform says about decimal digits. -/
structure DecimalDigits (digit : Char → Option Nat) (numeral : Nat → Char) : Prop where
  ascii : ∀ c : Char, c.isDigit = true → digit c = some (c.toNat - 48)
  /-- Blanks, signs and the dot are no digits. -/
  none : ∀ c : Char, c ≤ ' ' ∨ c = '.' ∨ c = '+' ∨ c = '-' → digit c = none
  numeral : ∀ d < 10, digit (numeral d) = some d

section Texts

variable (numeral : Nat → Char)

/-- `%d`, of a number that is not negative. -/
def formatDecimal (n : Nat) : List Char :=
  if n < 10 then [numeral n] else formatDecimal (n / 10) ++ [numeral (n % 10)]

/-- `ip4IntToStr`. -/
def ip4IntToStr (ip4 : BitVec 32) : List Char :=
  let b0 := ip4 >>> 24
  let b1 := (ip4 >>> 16) &&& 0x000000ff
  let b2 := (ip4 >>> 8) &&& 0x000000ff
  let b3 := ip4 &&& 0x000000ff
  formatDecimal numeral b0.toNat ++ '.' :: (formatDecimal numeral b1.toNat ++
    '.' :: (formatDecimal numeral b2.toNat ++ '.' :: formatDecimal numeral b3.toNat))

/-- `mask4IntToStr`. -/
def mask4IntToStr (mask4 : Int) : Except Unchecked (List Char) :=
  if mask4 < 0 ∨ mask4 > 32 then .error .illegalArgument
  else
    let maskIp := (fun maskIp : BitVec 32 => (maskIp ||| 0x01) <<< 1)^[mask4.toNat] 0
    let maskIp := (fun maskIp : BitVec 32 => maskIp <<< 1)^[32 - mask4.toNat] maskIp
    .ok (ip4IntToStr numeral maskIp)

end Texts

/-! ## Addresses -/

/-- The value of decimal digits. -/
def decimalValue (s : List Char) : Nat := s.foldl (fun n c => 10 * n + (c.toNat - 48)) 0

/-- Decimal digits of the number. -/
structure Octet (part : List Char) (b : BitVec 8) : Prop where
  ne_nil : part ≠ []
  digits : ∀ c ∈ part, c.isDigit = true
  value : decimalValue part = b.toNat

/-- The text denotes the address: four decimal octets, separated by single dots. -/
def DottedQuad (s : List Char) (a : BitVec 32) : Prop :=
  ∃ p0 p1 p2 p3 b0 b1 b2 b3, s = ['.'].intercalate [p0, p1, p2, p3] ∧
    Octet p0 b0 ∧ Octet p1 b1 ∧ Octet p2 b2 ∧ Octet p3 b3 ∧ a = b0 ++ b1 ++ b2 ++ b3

/-- An octet with blanks around it, with a sign, or with digits of another script. -/
def LenientOctet (digit : Char → Option Nat) (part : List Char) : Prop :=
  ∃ front sign digits behind n, part = front ++ (sign ++ digits) ++ behind ∧
    (∀ c ∈ front ++ behind, c ≤ ' ') ∧ parseDigits digit digits = some n ∧ n ≤ 255 ∧
    (sign = [] ∨ sign = ['+'] ∨ sign = ['-'] ∧ n = 0)

variable {digit : Char → Option Nat} {numeral : Nat → Char}

/-! ## Blanks and signs -/

theorem trim_blanks {front mid behind : List Char} (hblank : ∀ c ∈ front ++ behind, c ≤ ' ')
    (hhead : ∀ c ∈ mid.head?, ¬ c ≤ ' ') (hlast : ∀ c ∈ mid.getLast?, ¬ c ≤ ' ')
    (hne : mid ≠ []) : trim (front ++ mid ++ behind) = mid := by
  have hfront : ∀ c ∈ front, decide (c ≤ ' ') = true := fun c hc =>
    decide_eq_true (hblank c (List.mem_append_left _ hc))
  have hbehind : ∀ c ∈ behind.reverse, decide (c ≤ ' ') = true := fun c hc =>
    decide_eq_true (hblank c (List.mem_append_right _ (List.mem_reverse.mp hc)))
  have hdrop : (front ++ mid ++ behind).dropWhile (· ≤ ' ') = mid ++ behind := by
    rw [List.append_assoc, List.dropWhile_append_of_pos hfront]
    obtain ⟨c, mid, rfl⟩ := List.exists_cons_of_ne_nil hne
    rw [List.cons_append, List.dropWhile_cons_of_neg]
    exact fun h => hhead c rfl (of_decide_eq_true h)
  rw [trim, hdrop, List.reverse_append, List.dropWhile_append_of_pos hbehind]
  obtain ⟨init, c, rfl⟩ := (List.eq_nil_or_concat mid).resolve_left hne
  rw [List.concat_eq_append] at hlast ⊢
  rw [List.reverse_append, List.reverse_singleton, List.singleton_append,
    List.dropWhile_cons_of_neg, List.reverse_cons, List.reverse_reverse]
  exact fun h => hlast c List.getLast?_concat (of_decide_eq_true h)

theorem exists_trim (s : List Char) :
    ∃ front behind, s = front ++ trim s ++ behind ∧ ∀ c ∈ front ++ behind, c ≤ ' ' := by
  have hfront := List.takeWhile_append_dropWhile (p := (· ≤ ' ')) (l := s)
  have hbehind := List.rdropWhile_append_rtakeWhile (p := (· ≤ ' ')) (l := s.dropWhile (· ≤ ' '))
  refine ⟨s.takeWhile (· ≤ ' '), (s.dropWhile (· ≤ ' ')).rtakeWhile (· ≤ ' '), ?_, fun c hc => ?_⟩
  · conv_lhs => rw [← hfront, ← hbehind]
    exact (List.append_assoc ..).symm
  · rcases List.mem_append.mp hc with hc | hc
    · have hblank := List.mem_takeWhile_imp hc
      exact of_decide_eq_true hblank
    · have hblank := List.mem_rtakeWhile_imp hc
      exact of_decide_eq_true hblank

theorem parseNumber_of_unsigned {bits : Nat} {s : List Char}
    (hsign : ∀ c ∈ s.head?, c ≠ '-' ∧ c ≠ '+') :
    parseNumber digit bits s = (parseDigits digit s).bind fun n =>
      if n < 2 ^ (bits - 1) then some (n : Int) else none := by
  rw [parseNumber]
  · intro s' h
    exact (hsign '-' (by rw [h]; rfl)).1 rfl
  · intro s' h
    exact (hsign '+' (by rw [h]; rfl)).2 rfl

theorem parseDigits_isSome {s : List Char} :
    (parseDigits digit s).isSome = true ↔ s ≠ [] ∧ ∀ c ∈ s, (digit c).isSome = true := by
  rw [parseDigits]
  split_ifs with hnil
  · exact iff_of_false Bool.false_ne_true fun h => h.1 hnil
  · rw [Option.isSome_map, mapM_isSome, and_iff_right hnil]

/-- Numbers have no blanks, signs and dots. -/
theorem DecimalDigits.of_parseDigits (h : DecimalDigits digit numeral) {s : List Char} {n : Nat}
    (hs : parseDigits digit s = some n) :
    s ≠ [] ∧ ∀ c ∈ s, ¬ c ≤ ' ' ∧ c ≠ '.' ∧ c ≠ '+' ∧ c ≠ '-' := by
  obtain ⟨hne, hdigits⟩ := parseDigits_isSome.mp (Option.isSome_of_mem hs)
  refine ⟨hne, fun c hc => ?_⟩
  have hsome := hdigits c hc
  rw [← not_or, ← not_or, ← not_or]
  intro hnone
  rw [h.none c hnone] at hsome
  cases hsome

theorem DecimalDigits.parseNumber_digits (h : DecimalDigits digit numeral) {s : List Char} {n : Nat}
    (hs : parseDigits digit s = some n) (hn : n ≤ 255) :
    parseNumber digit 32 s = some (n : Int) := by
  rw [parseNumber_of_unsigned, hs, Option.bind_some, if_pos (by omega)]
  intro c hc
  have hmem := ((h.of_parseDigits hs).2 c (List.mem_of_mem_head? hc)).2.2
  exact ⟨hmem.2, hmem.1⟩

theorem octet_lenient (h : DecimalDigits digit numeral) {part : List Char} :
    (octet digit part).isSome = true ↔ LenientOctet digit part := by
  rw [octet_isSome]
  constructor
  · intro hnumber
    obtain ⟨n, hnumber, hn⟩ := hnumber
    obtain ⟨front, behind, hpart, hblank⟩ := exists_trim part
    generalize trim part = mid at hnumber hpart
    unfold parseNumber at hnumber
    split at hnumber
    · obtain ⟨m, hm, hbound⟩ := Option.bind_eq_some_iff.mp hnumber
      split_ifs at hbound
      have hzero : m = 0 := by
        have heq := Option.some.inj hbound
        omega
      subst hzero
      exact ⟨front, ['-'], _, behind, 0, hpart, hblank, hm, by omega, Or.inr (Or.inr ⟨rfl, rfl⟩)⟩
    · obtain ⟨m, hm, hbound⟩ := Option.bind_eq_some_iff.mp hnumber
      split_ifs at hbound
      have heq := Option.some.inj hbound
      exact ⟨front, ['+'], _, behind, m, hpart, hblank, hm, by omega, Or.inr (Or.inl rfl)⟩
    · obtain ⟨m, hm, hbound⟩ := Option.bind_eq_some_iff.mp hnumber
      split_ifs at hbound
      have heq := Option.some.inj hbound
      exact ⟨front, [], _, behind, m, hpart, hblank, hm, by omega, Or.inl rfl⟩
  · intro hlenient
    obtain ⟨front, sign, digits, behind, n, rfl, hblank, hn, hle, hsign⟩ := hlenient
    obtain ⟨hne, hdigits⟩ := h.of_parseDigits hn
    have hmid : sign ++ digits ≠ [] := List.append_ne_nil_of_right_ne_nil sign hne
    have hlast : ∀ c ∈ (sign ++ digits).getLast?, ¬ c ≤ ' ' := by
      intro c hc
      rw [List.getLast?_append_of_ne_nil sign hne] at hc
      exact (hdigits c (List.mem_of_mem_getLast? hc)).1
    have hhead : ∀ c ∈ (sign ++ digits).head?, ¬ c ≤ ' ' := by
      intro c hc
      rcases hsign with rfl | rfl | ⟨rfl, -⟩
      · exact (hdigits c (List.mem_of_mem_head? hc)).1
      · cases hc
        decide
      · cases hc
        decide
    rw [trim_blanks hblank hhead hlast hmid]
    have hbits : n < 2 ^ (32 - 1) := by omega
    rcases hsign with rfl | rfl | ⟨rfl, rfl⟩
    · exact ⟨n, h.parseNumber_digits hn hle, by omega, by omega⟩
    · refine ⟨n, ?_, by omega, by omega⟩
      rw [List.singleton_append, parseNumber, hn, Option.bind_some, if_pos hbits]
    · refine ⟨0, ?_, le_rfl, by decide⟩
      rw [List.singleton_append, parseNumber, hn]
      rfl

theorem LenientOctet.ne_nil (h : DecimalDigits digit numeral) {part : List Char}
    (hpart : LenientOctet digit part) : part ≠ [] := by
  obtain ⟨front, sign, digits, behind, n, rfl, -, hn, -⟩ := hpart
  have hne := (h.of_parseDigits hn).1
  simp [hne]

theorem LenientOctet.dot_notMem (h : DecimalDigits digit numeral) {part : List Char}
    (hpart : LenientOctet digit part) : '.' ∉ part := by
  obtain ⟨front, sign, digits, behind, n, rfl, hblank, hn, -, hsign⟩ := hpart
  intro hmem
  rw [List.mem_append, List.mem_append, List.mem_append] at hmem
  rcases hmem with (hfront | hsigned | hdigits) | hbehind
  · exact absurd (hblank '.' (List.mem_append_left _ hfront)) (by decide)
  · rcases hsign with rfl | rfl | ⟨rfl, -⟩
    · cases hsigned
    · exact absurd hsigned (by decide)
    · exact absurd hsigned (by decide)
  · exact ((h.of_parseDigits hn).2 '.' hdigits).2.1 rfl
  · exact absurd (hblank '.' (List.mem_append_right _ hbehind)) (by decide)

/-- An address that does not end in a dot is four fields between dots. -/
theorem isIp4_iff (h : DecimalDigits digit numeral) {s : List Char} (hs : s.getLast? ≠ some '.') :
    IsIp4 digit s ↔ ∃ p0 p1 p2 p3, s = ['.'].intercalate [p0, p1, p2, p3] ∧
      ∀ part ∈ [p0, p1, p2, p3], LenientOctet digit part := by
  constructor
  · intro hip4
    have hlenient : ∀ part ∈ Fields.split '.' s, LenientOctet digit part := fun part hpart =>
      (octet_lenient h).mp (octet_isSome.mpr (hip4.octets part hpart))
    obtain ⟨p0, p1, p2, p3, hsplit⟩ := List.length_eq_four.mp hip4.length
    rw [hsplit] at hlenient
    have hne : p3 ≠ [] := (hlenient p3 (by simp)).ne_nil h
    obtain ⟨-, j, rfl⟩ := (split_iff rfl hne).mp hsplit
    cases j with
    | zero => exact ⟨p0, p1, p2, p3, List.append_nil _, hlenient⟩
    | succ j =>
      rw [List.replicate_succ', ← List.append_assoc, List.getLast?_concat] at hs
      exact absurd rfl hs
  · intro hfields
    obtain ⟨p0, p1, p2, p3, rfl, hlenient⟩ := hfields
    have hne : p3 ≠ [] := (hlenient p3 (by simp)).ne_nil h
    have hsplit : Fields.split '.' (['.'].intercalate [p0, p1, p2, p3]) = [p0, p1, p2, p3] :=
      (split_iff rfl hne).mpr ⟨fun part hpart => (hlenient part hpart).dot_notMem h, 0,
        (List.append_nil _).symm⟩
    refine ⟨by rw [hsplit]; rfl, fun part hpart => ?_⟩
    rw [hsplit] at hpart
    exact octet_isSome.mp ((octet_lenient h).mpr (hlenient part hpart))

/-! ## The value of an address -/

/-- The four bytes of an address. -/
theorem append_bytes (b0 b1 b2 b3 : BitVec 8) :
    (0 : BitVec 32) ||| b0.setWidth 32 <<< 24 ||| b1.setWidth 32 <<< 16 ||| b2.setWidth 32 <<< 8 |||
      b3.setWidth 32 <<< 0 = b0 ++ b1 ++ b2 ++ b3 := by
  have hfits (b : BitVec 8) (k : Nat) (hk : k ≤ 24) :
      (b.setWidth 32 <<< k).toNat = b.toNat <<< k := by
    have hb := b.isLt
    rw [BitVec.toNat_shiftLeft, BitVec.toNat_setWidth, Nat.mod_eq_of_lt (by omega : b.toNat < 2 ^ 32)]
    refine Nat.mod_eq_of_lt ?_
    rw [Nat.shiftLeft_eq]
    calc b.toNat * 2 ^ k ≤ 255 * 2 ^ 24 := Nat.mul_le_mul (by omega) (Nat.pow_le_pow_right (by omega) hk)
      _ < 2 ^ 32 := by decide
  have happend : (b0 ++ b1 ++ b2 ++ b3 : BitVec (8 + 8 + 8 + 8)).toNat =
      b0.toNat <<< 24 ||| b1.toNat <<< 16 ||| b2.toNat <<< 8 ||| b3.toNat := by
    rw [BitVec.toNat_append (b0 ++ b1 ++ b2) b3, BitVec.toNat_append (b0 ++ b1) b2,
      BitVec.toNat_append b0 b1]
    simp only [Nat.shiftLeft_or_distrib, ← Nat.shiftLeft_add, Nat.reduceAdd]
  apply BitVec.eq_of_toNat_eq
  refine Eq.trans ?_ happend.symm
  rw [BitVec.toNat_or, BitVec.toNat_or, BitVec.toNat_or, BitVec.toNat_or, hfits _ _ le_rfl,
    hfits _ _ (by decide), hfits _ _ (by decide), hfits _ _ (by decide), Nat.shiftLeft_zero]
  exact congrArg (· ||| _ ||| _ ||| _) (Nat.zero_or _)

theorem octet_of_number {part : List Char} {b : BitVec 8}
    (h : parseNumber digit 32 (trim part) = some (b.toNat : Int)) :
    octet digit part = some (b.setWidth 32) := by
  have hb := b.isLt
  rw [octet, h, Option.bind_some, if_neg (by omega)]
  refine congrArg some (BitVec.eq_of_toNat_eq ?_)
  rw [BitVec.ofInt_natCast, BitVec.toNat_ofNat, BitVec.toNat_setWidth]

/-- Digits are read as their number. -/
theorem DecimalDigits.octet (h : DecimalDigits digit numeral) {part : List Char} {b : BitVec 8}
    (hpart : parseDigits digit part = some b.toNat) :
    octet digit part = some (b.setWidth 32) := by
  have hb := b.isLt
  obtain ⟨hne, hdigits⟩ := h.of_parseDigits hpart
  have htrim : trim ([] ++ part ++ []) = part := trim_blanks (fun c hc => by cases hc)
    (fun c hc => (hdigits c (List.mem_of_mem_head? hc)).1)
    (fun c hc => (hdigits c (List.mem_of_mem_getLast? hc)).1) hne
  rw [List.nil_append, List.append_nil] at htrim
  refine octet_of_number ?_
  rw [htrim]
  exact h.parseNumber_digits hpart (by omega)

/-- The address of four numbers. -/
theorem ip4StrToInt_of_parseDigits (h : DecimalDigits digit numeral) {p0 p1 p2 p3 : List Char}
    {b0 b1 b2 b3 : BitVec 8} (h0 : parseDigits digit p0 = some b0.toNat)
    (h1 : parseDigits digit p1 = some b1.toNat) (h2 : parseDigits digit p2 = some b2.toNat)
    (h3 : parseDigits digit p3 = some b3.toNat) :
    ip4StrToInt digit (['.'].intercalate [p0, p1, p2, p3]) = .ok (b0 ++ b1 ++ b2 ++ b3) := by
  have hdot : ∀ part ∈ [p0, p1, p2, p3], '.' ∉ part := by
    intro part hpart hmem
    simp only [List.mem_cons, List.not_mem_nil, or_false] at hpart
    rcases hpart with rfl | rfl | rfl | rfl
    · exact ((h.of_parseDigits h0).2 '.' hmem).2.1 rfl
    · exact ((h.of_parseDigits h1).2 '.' hmem).2.1 rfl
    · exact ((h.of_parseDigits h2).2 '.' hmem).2.1 rfl
    · exact ((h.of_parseDigits h3).2 '.' hmem).2.1 rfl
  have hsplit : Fields.split '.' (['.'].intercalate [p0, p1, p2, p3]) = [p0, p1, p2, p3] :=
    (split_iff rfl (h.of_parseDigits h3).1).mpr ⟨hdot, 0, (List.append_nil _).symm⟩
  have hoctets : [p0, p1, p2, p3].mapM (OpenVpn.octet digit) =
      some [b0.setWidth 32, b1.setWidth 32, b2.setWidth 32, b3.setWidth 32] := by
    simp only [List.mapM_cons, List.mapM_nil, h.octet h0, h.octet h1, h.octet h2, h.octet h3]
    rfl
  have hfour : ¬ [p0, p1, p2, p3].length ≠ 4 := not_not.mpr rfl
  rw [ip4StrToInt, hsplit, if_neg hfour, hoctets, ← append_bytes]
  rfl

theorem parseDigits_of_ascii (h : DecimalDigits digit numeral) {part : List Char} {b : BitVec 8}
    (hpart : Octet part b) : parseDigits digit part = some b.toNat := by
  have hmap : part.mapM digit = some (part.map fun c => c.toNat - 48) :=
    mapM_eq_map fun c hc => h.ascii c (hpart.digits c hc)
  rw [parseDigits, if_neg hpart.ne_nil, hmap, Option.map_some, List.foldl_map, ← hpart.value]
  rfl

theorem parseDigits_formatDecimal (h : DecimalDigits digit numeral) (n : Nat) :
    parseDigits digit (formatDecimal numeral n) = some n := by
  have hmap : ∃ digits, (formatDecimal numeral n).mapM digit = some digits ∧
      digits.foldl (fun n d => 10 * n + d) 0 = n := by
    fun_induction formatDecimal numeral n with
    | case1 n hn =>
      refine ⟨[n], ?_, by simp⟩
      rw [List.mapM_cons, h.numeral n hn]
      rfl
    | case2 n hn ih =>
      obtain ⟨digits, hdigits, hvalue⟩ := ih
      refine ⟨digits ++ [n % 10], ?_, ?_⟩
      · rw [List.mapM_append, hdigits, List.mapM_cons, h.numeral _ (Nat.mod_lt n (by decide))]
        rfl
      · rw [List.foldl_concat, hvalue]
        omega
  have hne : formatDecimal numeral n ≠ [] := by
    unfold formatDecimal
    split_ifs
    · exact List.cons_ne_nil _ _
    · simp
  obtain ⟨digits, hdigits, hvalue⟩ := hmap
  rw [parseDigits, if_neg hne, hdigits, Option.map_some, hvalue]

/-- The text of an address is read as this address. -/
theorem ip4StrToInt_ip4IntToStr (h : DecimalDigits digit numeral) (a : BitVec 32) :
    ip4StrToInt digit (ip4IntToStr numeral a) = .ok a := by
  have hbyte (b : BitVec 32) (hb : b.toNat < 256) :
      parseDigits digit (formatDecimal numeral b.toNat) = some (b.setWidth 8).toNat := by
    rw [parseDigits_formatDecimal h, BitVec.toNat_setWidth, Nat.mod_eq_of_lt hb]
  have hmask (b : BitVec 32) : (b &&& 0x000000ff).toNat < 256 := by
    rw [BitVec.toNat_and]
    exact Nat.lt_of_le_of_lt Nat.and_le_right (by decide)
  have hread := ip4StrToInt_of_parseDigits h (hbyte (a >>> 24) (by bv_omega))
    (hbyte ((a >>> 16) &&& 0x000000ff) (hmask _)) (hbyte ((a >>> 8) &&& 0x000000ff) (hmask _))
    (hbyte (a &&& 0x000000ff) (hmask _))
  have htext : ip4IntToStr numeral a = ['.'].intercalate
      [formatDecimal numeral (a >>> 24).toNat,
        formatDecimal numeral ((a >>> 16) &&& 0x000000ff).toNat,
        formatDecimal numeral ((a >>> 8) &&& 0x000000ff).toNat,
        formatDecimal numeral (a &&& 0x000000ff).toNat] := by
    simp [ip4IntToStr]
  rw [htext, hread]
  have hbits (b : BitVec 32) : (b &&& 0x000000ff).toNat = b.toNat % 256 := by
    rw [BitVec.toNat_and]
    exact Nat.and_two_pow_sub_one_eq_mod _ 8
  refine congrArg _ (BitVec.eq_of_toNat_eq ((toNat_append_bytes _ _ _ _).trans ?_))
  have ha := a.isLt
  simp only [BitVec.toNat_setWidth, hbits, BitVec.toNat_ushiftRight, Nat.shiftRight_eq_div_pow]
  omega

/-- A text that denotes an address is read as this address. -/
theorem ip4StrToInt_of_quad (h : DecimalDigits digit numeral) {s : List Char} {a : BitVec 32}
    (hs : DottedQuad s a) : ip4StrToInt digit s = .ok a := by
  obtain ⟨p0, p1, p2, p3, b0, b1, b2, b3, rfl, h0, h1, h2, h3, rfl⟩ := hs
  exact ip4StrToInt_of_parseDigits h (parseDigits_of_ascii h h0) (parseDigits_of_ascii h h1)
    (parseDigits_of_ascii h h2) (parseDigits_of_ascii h h3)

/-- What the texts of addresses are: four fields between dots, each a number up to 255 in decimal
digits, but for blanks around it and a sign; and what `ip4IntToStr` writes is read back. -/
theorem ip4StrToInt_accepts (h : DecimalDigits digit numeral) :
    (∀ s : List Char, s.getLast? ≠ some '.' → (Returns (ip4StrToInt digit s) ↔
      ∃ p0 p1 p2 p3, s = ['.'].intercalate [p0, p1, p2, p3] ∧
        ∀ part ∈ [p0, p1, p2, p3], LenientOctet digit part)) ∧
    ∀ a : BitVec 32, ip4StrToInt digit (ip4IntToStr numeral a) = .ok a := by
  refine ⟨fun s hs => ?_, ip4StrToInt_ip4IntToStr h⟩
  rw [returns_ip4StrToInt]
  exact isIp4_iff h hs

/-- The digits of ASCII are decimal digits. -/
theorem decimalDigits_ascii : DecimalDigits asciiDigit fun d => Char.ofNat (48 + d) where
  ascii := fun c hc => by rw [asciiDigit, if_pos hc]
  none := fun c hc => by
    rw [asciiDigit, if_neg]
    rcases hc with hc | rfl | rfl | rfl
    · intro hdigit
      have hlow : 48 ≤ c.toNat := (Char.isDigit_iff_toNat.mp hdigit).1
      have hblank : c.toNat ≤ 32 := hc
      omega
    · decide
    · decide
    · decide
  numeral := by decide

theorem ip4StrToInt_accepts_ascii :
    (∀ s : List Char, s.getLast? ≠ some '.' → (Returns (ip4StrToInt asciiDigit s) ↔
      ∃ p0 p1 p2 p3, s = ['.'].intercalate [p0, p1, p2, p3] ∧
        ∀ part ∈ [p0, p1, p2, p3], LenientOctet asciiDigit part)) ∧
    ∀ a : BitVec 32, ip4StrToInt asciiDigit
      (ip4IntToStr (fun d => Char.ofNat (48 + d)) a) = .ok a :=
  ip4StrToInt_accepts decimalDigits_ascii

theorem DottedQuad.isDigit {s : List Char} {a : BitVec 32} (hs : DottedQuad s a) :
    ∀ c ∈ s, c.isDigit = true ∨ c = '.' := by
  obtain ⟨p0, p1, p2, p3, b0, b1, b2, b3, rfl, h0, h1, h2, h3, -⟩ := hs
  intro c hc
  rcases mem_intercalate hc with hdot | ⟨part, hpart, hmem⟩
  · exact Or.inr hdot
  · simp only [List.mem_cons, List.not_mem_nil, or_false] at hpart
    rcases hpart with rfl | rfl | rfl | rfl
    · exact Or.inl (h0.digits c hmem)
    · exact Or.inl (h1.digits c hmem)
    · exact Or.inl (h2.digits c hmem)
    · exact Or.inl (h3.digits c hmem)

/-- A blank in front of an address is no part of it. -/
theorem ip4StrToInt_blank : ¬ ∀ s : List Char,
    Returns (ip4StrToInt asciiDigit s) ↔ ∃ a, DottedQuad s a := by
  intro hclaim
  obtain ⟨a, hquad⟩ := (hclaim " 1.2.3.4".toList).mp ⟨0x01020304, by decide⟩
  rcases hquad.isDigit ' ' (by decide) with hdigit | hdot
  · exact absurd hdigit (by decide)
  · exact absurd hdot (by decide)

/-! ## Masks -/

/-- The mask of so many leading ones. -/
def IsMask (m : Nat) (a : BitVec 32) : Prop := ∀ i < 32, a.getMsbD i = decide (i < m)

/-- The text of an address is read as the mask that it is, and it is not read if it is none. -/
def ReadsMask (digit : Char → Option Nat) (s : List Char) (a : BitVec 32) : Prop :=
  (∀ m ≤ 32, IsMask m a → mask4StrToInt digit s = .ok m) ∧
    ((∀ m ≤ 32, ¬ IsMask m a) → ¬ Returns (mask4StrToInt digit s))

theorem length_takeWhile_range {p : Nat → Bool} {m n : Nat} (hm : m ≤ n)
    (hp : ∀ i < n, p i = decide (i < m)) : ((List.range n).takeWhile p).length = m := by
  obtain ⟨k, rfl⟩ := Nat.exists_eq_add_of_le hm
  have hfront : ∀ i ∈ List.range m, p i = true := fun i hi => by
    have hlt := List.mem_range.mp hi
    rw [hp i (by omega), decide_eq_true hlt]
  rw [List.range_add, List.takeWhile_append_of_pos hfront, List.length_append, List.length_range]
  cases k with
  | zero => rfl
  | succ k =>
    have hstop : ¬ p m = true := by
      rw [hp m (by omega), decide_eq_false (lt_irrefl m)]
      exact Bool.false_ne_true
    rw [List.range_succ_eq_map, List.map_cons, Nat.add_zero, List.takeWhile_cons_of_neg hstop]
    rfl

/-- Leading ones are counted, whatever is behind them. -/
theorem mask4StrToInt_of_isMask {s : List Char} {a : BitVec 32} {m : Nat}
    (hs : ip4StrToInt digit s = .ok a) (hm : m ≤ 32) (hmask : IsMask m a) :
    mask4StrToInt digit s = .ok m := by
  have hbits : ∀ i < 32, a.getLsbD (31 - i) = decide (i < m) := by
    intro i hi
    rw [← hmask i hi, BitVec.getMsbD, decide_eq_true hi, Bool.true_and]
  rw [mask4StrToInt, hs]
  exact congrArg Except.ok (length_takeWhile_range hm hbits)

/-! The loops of `mask4IntToStr`: a one is shifted once more than it should. -/

theorem getLsbD_ones (n i : Nat) :
    ((fun maskIp : BitVec 32 => (maskIp ||| 0x01) <<< 1)^[n] 0).getLsbD i =
      decide (i < 32 ∧ 1 ≤ i ∧ i ≤ n) := by
  induction n generalizing i with
  | zero =>
    rw [decide_eq_false (by omega)]
    exact BitVec.getLsbD_zero
  | succ n ih =>
    have hone : (0x01 : BitVec 32).getLsbD (i - 1) = decide (i - 1 = 0) := by
      simp [BitVec.getLsbD_one]
    rw [Function.iterate_succ_apply', BitVec.getLsbD_shiftLeft, BitVec.getLsbD_or, ih, hone,
      Bool.eq_iff_iff]
    simp only [Bool.and_eq_true, Bool.or_eq_true, Bool.not_eq_true', decide_eq_true_eq,
      decide_eq_false_iff_not]
    omega

theorem getLsbD_shifted (n i : Nat) (x : BitVec 32) :
    ((fun maskIp : BitVec 32 => maskIp <<< 1)^[n] x).getLsbD i =
      (decide (i < 32 ∧ n ≤ i) && x.getLsbD (i - n)) := by
  induction n generalizing i with
  | zero =>
    rw [Function.iterate_zero, id, Nat.sub_zero, Bool.eq_iff_iff]
    simp only [Bool.and_eq_true, decide_eq_true_eq]
    refine ⟨fun h => ⟨⟨BitVec.lt_of_getLsbD h, Nat.zero_le i⟩, h⟩, fun h => h.2⟩
  | succ n ih =>
    rw [Function.iterate_succ_apply', BitVec.getLsbD_shiftLeft, ih, Nat.sub_sub, Nat.add_comm 1 n,
      ← Bool.and_assoc]
    congr 1
    rw [Bool.eq_iff_iff]
    simp only [Bool.and_eq_true, Bool.not_eq_true', decide_eq_true_eq, decide_eq_false_iff_not]
    omega

/-- `mask4IntToStr` writes the mask with one bit less. -/
theorem mask4IntToStr_eq (numeral : Nat → Char) {m : Nat} (hm : m ≤ 32) :
    ∃ a, IsMask (m - 1) a ∧ mask4IntToStr numeral m = .ok (ip4IntToStr numeral a) := by
  refine ⟨_, fun i hi => ?_, if_neg (by omega)⟩
  rw [BitVec.getMsbD, getLsbD_shifted, getLsbD_ones, Bool.eq_iff_iff]
  simp only [Bool.and_eq_true, decide_eq_true_eq, Int.toNat_natCast]
  omega

/-- Texts are read as masks if they are masks, and `mask4IntToStr` writes no mask that
`mask4StrToInt` maps back, but the empty one. -/
theorem mask4_roundtrip_iff (h : DecimalDigits digit numeral) :
    (∀ s a, DottedQuad s a → (ReadsMask digit s a ↔ ∃ m ≤ 32, IsMask m a)) ∧
    ∀ m : Nat, m ≤ 32 →
      ((∃ s, mask4IntToStr numeral m = .ok s ∧ mask4StrToInt digit s = .ok m) ↔ m = 0) := by
  constructor
  · intro s a hs
    have hread := ip4StrToInt_of_quad h hs
    constructor
    · intro hreads
      by_contra hnone
      refine hreads.2 (fun m hm hmask => hnone ⟨m, hm, hmask⟩) ?_
      rw [mask4StrToInt, hread]
      exact returns_ok _
    · intro hmask
      refine ⟨fun m hm hmask => mask4StrToInt_of_isMask hread hm hmask, fun hnone => ?_⟩
      obtain ⟨m, hm, hmask⟩ := hmask
      exact absurd hmask (hnone m hm)
  · intro m hm
    obtain ⟨a, hmask, htext⟩ := mask4IntToStr_eq numeral hm
    have hread := mask4StrToInt_of_isMask (ip4StrToInt_ip4IntToStr h a) (by omega) hmask
    constructor
    · intro hback
      obtain ⟨s, hs, hm'⟩ := hback
      cases htext.symm.trans hs
      have hless : m - 1 = m := Except.ok.inj (hread.symm.trans hm')
      omega
    · intro hzero
      subst hzero
      exact ⟨_, htext, hread⟩

theorem mask4_roundtrip_iff_ascii :
    (∀ s a, DottedQuad s a → (ReadsMask asciiDigit s a ↔ ∃ m ≤ 32, IsMask m a)) ∧
    ∀ m : Nat, m ≤ 32 →
      ((∃ s, mask4IntToStr (fun d => Char.ofNat (48 + d)) m = .ok s ∧
        mask4StrToInt asciiDigit s = .ok m) ↔ m = 0) :=
  mask4_roundtrip_iff decimalDigits_ascii

theorem octet_of_all {part : List Char} {b : BitVec 8} (hne : part ≠ [])
    (hdigits : part.all Char.isDigit = true) (hvalue : decimalValue part = b.toNat) :
    Octet part b :=
  ⟨hne, fun c hc => List.all_eq_true.mp hdigits c hc, hvalue⟩

/-- `255.0.255.0` is no mask, but it is read as one of eight bits; and of 24 bits
`mask4IntToStr` makes 23. -/
theorem mask4_roundtrip_wrong :
    (DottedQuad "255.0.255.0".toList 0xff00ff00 ∧
      ¬ ReadsMask asciiDigit "255.0.255.0".toList 0xff00ff00) ∧
    mask4IntToStr (fun d => Char.ofNat (48 + d)) 24 = .ok "255.255.254.0".toList ∧
    mask4StrToInt asciiDigit "255.255.254.0".toList = .ok 23 := by
  refine ⟨⟨?_, fun hreads => hreads.2 (fun m hm hmask => ?_) ⟨8, by decide⟩⟩, ?_, by decide⟩
  · have hones : Octet "255".toList 255 := octet_of_all (by decide) (by decide) (by decide)
    have hzeros : Octet "0".toList 0 := octet_of_all (by decide) (by decide) (by decide)
    exact ⟨_, _, _, _, _, _, _, _, by decide, hones, hzeros, hones, hzeros, by decide⟩
  · -- there is a zero in front of a one
    have hzero := hmask 8 (by decide)
    have hone := hmask 16 (by decide)
    have hlow : ¬ 8 < m := of_decide_eq_false (hzero.symm.trans (by decide))
    have hhigh : 16 < m := of_decide_eq_true (hone.symm.trans (by decide))
    omega
  · simp [mask4IntToStr, ip4IntToStr, formatDecimal]

end ConfProfile.OpenVpn
