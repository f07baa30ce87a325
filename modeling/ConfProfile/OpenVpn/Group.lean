import ConfProfile.OpenVpn.Ip4

/-!
# The groups of an IPv6 address (`NetUtils.ip6StrToBytes`)

A group is one to four hexadecimal digits (`Group`), and the loop of `ip6StrToBytes` reads groups
one behind the other. `ip6StrToBytes_eq_ok` says which fields between colons it accepts: groups,
or six of them and an IPv4 address.
-/

namespace ConfProfile.OpenVpn

open Fields

/-- The value of a hexadecimal digit. -/
def hexDigit (c : Char) : Option Nat :=
  if '0' ≤ c ∧ c ≤ '9' then some (c.toNat - 48)
  else if 'a' ≤ c ∧ c ≤ 'f' then some (c.toNat - 87)
  else if 'A' ≤ c ∧ c ≤ 'F' then some (c.toNat - 55)
  else none

/-- The value of hexadecimal digits. -/
def hexValue (digits : List Nat) : Nat := digits.foldl (fun n d => 16 * n + d) 0

/-- One to four hexadecimal digits of the number. -/
structure Group (part : List Char) (w : BitVec 16) : Prop where
  ne_nil : part ≠ []
  length_le : part.length ≤ 4
  value : (part.mapM hexDigit).map hexValue = some w.toNat

/-- The bytes of groups. -/
def wordBytes (words : List (BitVec 16)) : List (BitVec 8) :=
  words.flatMap fun w => BigEndian.bytes 2 w.toNat

theorem hexDigit_eq_some {c : Char} {d : Nat} (h : hexDigit c = some d) :
    d < 16 ∧ c.toNat < 128 := by
  rw [hexDigit] at h
  split_ifs at h with hdigit hlower hupper
  · have hle : c.toNat ≤ 57 := hdigit.2
    have heq := Option.some.inj h
    omega
  · have hle : c.toNat ≤ 102 := hlower.2
    have heq := Option.some.inj h
    omega
  · have hle : c.toNat ≤ 70 := hupper.2
    have heq := Option.some.inj h
    omega

theorem hexToIntDigit_ascii : (List.range 128).all (fun n =>
    hexToIntDigit (Char.ofNat n).toLower = match hexDigit (Char.ofNat n) with
      | some d => .ok (BitVec.ofNat 8 d)
      | none => .error .illegalArgument) = true := by
  decide

theorem hexToIntDigit_toLower (c : Char) : hexToIntDigit c.toLower =
    match hexDigit c with
    | some d => .ok (BitVec.ofNat 8 d)
    | none => .error .illegalArgument := by
  by_cases hascii : c.toNat < 128
  · have hall := List.all_eq_true.mp hexToIntDigit_ascii c.toNat (List.mem_range.mpr hascii)
    rw [Char.ofNat_toNat] at hall
    exact of_decide_eq_true hall
  · -- no other character is a digit or the capital letter of one
    have hupper : ¬ (c.val ≥ 'A'.val ∧ c.val ≤ 'Z'.val) := by
      intro hupper
      have hle : c.toNat ≤ 90 := hupper.2
      omega
    have hlower : c.toLower = c := dif_neg hupper
    have hnone : hexDigit c = none := by
      cases hdigit : hexDigit c with
      | none => rfl
      | some d => exact absurd (hexDigit_eq_some hdigit).2 hascii
    have hmem : c ∉ HEX := by
      intro hmem
      have hall : HEX.all (fun d => d.toNat < 128) = true := by decide
      exact hascii (of_decide_eq_true (List.all_eq_true.mp hall c hmem))
    rw [hlower, hnone, hexToIntDigit, List.idxOf?_eq_none_iff.mpr hmem]

/-- The bytes of four digits. -/
theorem nibbles : ∀ x < 16, ∀ y < 16,
    (((BitVec.ofNat 8 x) <<< 4) &&& 0xF0) ||| ((BitVec.ofNat 8 y) &&& 0x0F) =
      BitVec.ofNat 8 (16 * x + y) := by
  decide

theorem hexValue_append (digits : List Nat) (d : Nat) :
    hexValue (digits ++ [d]) = 16 * hexValue digits + d := by
  rw [hexValue, List.foldl_concat, hexValue]

theorem hexValue_zeros (k : Nat) (digits : List Nat) :
    hexValue (List.replicate k 0 ++ digits) = hexValue digits := by
  have hzeros : hexValue (List.replicate k 0) = 0 := by
    induction k with
    | zero => rfl
    | succ k ih => rw [List.replicate_succ', hexValue_append, ih]
  rw [hexValue, List.foldl_append]
  exact congrArg (List.foldl _ · digits) hzeros

theorem hexValue_lt {digits : List Nat} (h : ∀ d ∈ digits, d < 16) :
    hexValue digits < 16 ^ digits.length := by
  induction digits using List.reverseRecOn with
  | nil => decide
  | append_singleton digits d ih =>
    obtain ⟨hdigits, hd⟩ := List.forall_mem_append.mp h
    have hlt := ih hdigits
    have hd16 := hd d (List.mem_singleton_self d)
    rw [hexValue_append, List.length_append, List.length_singleton, Nat.pow_succ]
    omega

/-- Four digits are read as two bytes. -/
theorem fourDigits {a b c d : Char} {bytes : List (BitVec 8)} :
    (do return [(((← hexToIntDigit a.toLower) <<< 4) &&& 0xF0) |||
          ((← hexToIntDigit b.toLower) &&& 0x0F),
        (((← hexToIntDigit c.toLower) <<< 4) &&& 0xF0) |||
          ((← hexToIntDigit d.toLower) &&& 0x0F)] : Except Unchecked (List (BitVec 8))) =
        .ok bytes ↔
      ∃ digits, [a, b, c, d].mapM hexDigit = some digits ∧
        bytes = BigEndian.bytes 2 (hexValue digits) := by
  simp only [hexToIntDigit_toLower, List.mapM_cons, List.mapM_nil]
  cases ha : hexDigit a with
  | none => exact iff_of_false (fun h => by cases h) fun h => by cases h.choose_spec.1
  | some w =>
  cases hb : hexDigit b with
  | none => exact iff_of_false (fun h => by cases h) fun h => by cases h.choose_spec.1
  | some x =>
  cases hc : hexDigit c with
  | none => exact iff_of_false (fun h => by cases h) fun h => by cases h.choose_spec.1
  | some y =>
  cases hd : hexDigit d with
  | none => exact iff_of_false (fun h => by cases h) fun h => by cases h.choose_spec.1
  | some z =>
  have hw := (hexDigit_eq_some ha).1
  have hx := (hexDigit_eq_some hb).1
  have hy := (hexDigit_eq_some hc).1
  have hz := (hexDigit_eq_some hd).1
  have hbytes : BigEndian.bytes 2 (hexValue [w, x, y, z]) =
      [BitVec.ofNat 8 (16 * w + x), BitVec.ofNat 8 (16 * y + z)] := by
    have hhigh : hexValue [w, x, y, z] / 256 ^ 1 = 16 * w + x := by
      simp only [hexValue, List.foldl_cons, List.foldl_nil]
      omega
    have hlow : hexValue [w, x, y, z] / 256 ^ 0 % 2 ^ 8 = (16 * y + z) % 2 ^ 8 := by
      simp only [hexValue, List.foldl_cons, List.foldl_nil]
      omega
    rw [BigEndian.bytes, BigEndian.bytes, BigEndian.bytes, hhigh]
    exact congrArg (fun b => [_, b]) (BitVec.eq_of_toNat_eq hlow)
  constructor
  · intro h
    refine ⟨[w, x, y, z], rfl, ?_⟩
    rw [hbytes, ← nibbles w hw x hx, ← nibbles y hy z hz]
    exact (Except.ok.inj h).symm
  · intro h
    obtain ⟨digits, hdigits, rfl⟩ := h
    cases hdigits
    rw [hbytes, ← nibbles w hw x hx, ← nibbles y hy z hz]
    rfl

/-- Zeros in front are digits without a value. -/
theorem mapM_padded (k : Nat) (part : List Char) (digits : List Nat) :
    (List.replicate k '0' ++ part).mapM hexDigit = some digits ↔
      ∃ digits', part.mapM hexDigit = some digits' ∧ digits = List.replicate k 0 ++ digits' := by
  have hzeros : (List.replicate k '0').mapM hexDigit = some (List.replicate k 0) := by
    rw [mapM_eq_map (g := fun _ => 0), List.map_replicate]
    intro c hc
    rw [List.eq_of_mem_replicate hc]
    decide
  rw [List.mapM_append, hzeros]
  cases part.mapM hexDigit with
  | none => exact iff_of_false (fun h => by cases h) fun h => by cases h.choose_spec.1
  | some digits' =>
    constructor
    · intro h
      cases h
      exact ⟨digits', rfl, rfl⟩
    · intro h
      obtain ⟨digits'', heq, rfl⟩ := h
      cases heq
      rfl

theorem hexDigits_lt {part : List Char} {digits : List Nat}
    (h : part.mapM hexDigit = some digits) :
    digits.length = part.length ∧ ∀ d ∈ digits, d < 16 := by
  have hdigits := mapM_eq_some.mp h
  refine ⟨hdigits.length_eq.symm, fun d hd => ?_⟩
  obtain ⟨i, hi, rfl⟩ := List.getElem_of_mem hd
  exact (hexDigit_eq_some (hdigits.get (hdigits.length_eq ▸ hi) hi)).1

/-- A group is read as its number; every other text is an exception. -/
theorem groupBytes_eq_ok {part : List Char} {bytes : List (BitVec 8)} :
    groupBytes part = .ok bytes ↔ ∃ w, Group part w ∧ bytes = BigEndian.bytes 2 w.toNat := by
  rw [groupBytes]
  by_cases hlen : part.length < 1 ∨ part.length > 4
  · rw [if_pos hlen]
    refine iff_of_false (fun h => by cases h) fun h => ?_
    obtain ⟨w, hgroup, -⟩ := h
    have hpos := List.length_pos_of_ne_nil hgroup.ne_nil
    have hle := hgroup.length_le
    omega
  rw [if_neg hlen]
  have hpadded (digits : List Nat) := mapM_padded (4 - part.length) part digits
  have hfour : (List.replicate (4 - part.length) '0' ++ part).length = 4 := by
    rw [List.length_append, List.length_replicate]
    omega
  obtain ⟨a, b, c, d, heq⟩ := List.length_eq_four.mp hfour
  rw [heq] at hpadded ⊢
  refine fourDigits.trans ?_
  constructor
  · intro h
    obtain ⟨digits, hdigits, rfl⟩ := h
    obtain ⟨digits', hdigits', rfl⟩ := (hpadded digits).mp hdigits
    obtain ⟨hcount, hdigit⟩ := hexDigits_lt hdigits'
    have hfits : hexValue digits' < 2 ^ 16 :=
      calc hexValue digits' < 16 ^ digits'.length := hexValue_lt hdigit
        _ ≤ 16 ^ 4 := Nat.pow_le_pow_right (by decide) (by omega)
    have hvalue : (BitVec.ofNat 16 (hexValue digits')).toNat = hexValue digits' :=
      Nat.mod_eq_of_lt hfits
    refine ⟨BitVec.ofNat 16 (hexValue digits'), ⟨?_, by omega, ?_⟩, ?_⟩
    · rintro rfl
      exact hlen (Or.inl (by decide))
    · rw [hdigits', Option.map_some, hvalue]
    · rw [hexValue_zeros, hvalue]
  · intro h
    obtain ⟨w, hgroup, rfl⟩ := h
    obtain ⟨digits, hdigits, hvalue⟩ := Option.map_eq_some_iff.mp hgroup.value
    refine ⟨_, (hpadded _).mpr ⟨digits, hdigits, rfl⟩, ?_⟩
    rw [hexValue_zeros, hvalue]

theorem Group.notMem {part : List Char} {w : BitVec 16} (h : Group part w) :
    ':' ∉ part ∧ '.' ∉ part := by
  obtain ⟨digits, hdigits, -⟩ := Option.map_eq_some_iff.mp h.value
  have hsome := (mapM_isSome hexDigit part).mp (Option.isSome_of_mem hdigits)
  refine ⟨fun hmem => ?_, fun hmem => ?_⟩
  · exact absurd (hsome _ hmem) (by decide)
  · exact absurd (hsome _ hmem) (by decide)

theorem group_of_mem {parts : List (List Char)} {words : List (BitVec 16)}
    (h : List.Forall₂ Group parts words) {part : List Char} (hpart : part ∈ parts) :
    ∃ w, Group part w := by
  obtain ⟨i, hi, rfl⟩ := List.getElem_of_mem hpart
  exact ⟨_, h.get hi (h.length_eq ▸ hi)⟩

theorem wordBytes_cons (w : BitVec 16) (words : List (BitVec 16)) :
    wordBytes (w :: words) = BigEndian.bytes 2 w.toNat ++ wordBytes words := rfl

theorem groups_notMem {parts : List (List Char)} {words : List (BitVec 16)}
    (h : List.Forall₂ Group parts words) : ∀ part ∈ parts, ':' ∉ part := by
  intro part hpart
  obtain ⟨w, hgroup⟩ := group_of_mem h hpart
  exact hgroup.notMem.1

@[simp] theorem length_wordBytes (words : List (BitVec 16)) :
    (wordBytes words).length = 2 * words.length := by
  induction words with
  | nil => rfl
  | cons w words ih =>
    rw [wordBytes_cons, List.length_append, BigEndian.length_bytes, ih, List.length_cons]
    omega

/-- The bytes of a number, each shifted to the end. -/
theorem bytes_of_shifts (a : BitVec 32) :
    ([3, 2, 1, 0].map fun i => (a >>> (8 * i)).setWidth 8 : List (BitVec 8)) =
      BigEndian.bytes 4 a.toNat := by
  have hshift (i : Nat) : (a >>> (8 * i)).setWidth 8 = BitVec.ofNat 8 (a.toNat / 256 ^ i) := by
    apply BitVec.eq_of_toNat_eq
    rw [BitVec.toNat_setWidth, BitVec.toNat_ushiftRight, BitVec.toNat_ofNat,
      Nat.shiftRight_eq_div_pow, Nat.pow_mul]
  simp only [List.map_cons, List.map_nil, hshift, BigEndian.bytes]

/-! ## What is accepted -/

variable {digit : Char → Option Nat} {numeral : Nat → Char}

/-- The loop reads groups, one behind the other. -/
theorem ip6Loop_groups {parts : List (List Char)} {result bytes : List (BitVec 8)}
    (hroom : result.length + 2 * parts.length ≤ 16) :
    ip6Loop digit false result parts = .ok bytes ↔
      ∃ words, List.Forall₂ Group parts words ∧ bytes = result ++ wordBytes words := by
  induction parts generalizing result with
  | nil =>
    simp only [List.forall₂_nil_left_iff, exists_eq_left]
    rw [ip6Loop, wordBytes, List.flatMap_nil, List.append_nil]
    exact ⟨fun h => (Except.ok.inj h).symm, fun h => congrArg _ h.symm⟩
  | cons part parts ih =>
    rw [List.length_cons] at hroom
    rw [ip6Loop, if_neg fun h => Bool.false_ne_true h.1, if_neg (by omega), bind_eq_ok]
    simp only [groupBytes_eq_ok, List.forall₂_cons_left_iff]
    constructor
    · intro h
      obtain ⟨_, ⟨w, hgroup, rfl⟩, h⟩ := h
      obtain ⟨words, hwords, rfl⟩ := (ih (by simp; omega)).mp h
      exact ⟨w :: words, ⟨w, words, hgroup, hwords, rfl⟩, List.append_assoc ..⟩
    · intro h
      obtain ⟨_, ⟨w, words, hgroup, hwords, rfl⟩, rfl⟩ := h
      refine ⟨_, ⟨w, hgroup, rfl⟩, (ih (by simp; omega)).mpr ⟨words, hwords, ?_⟩⟩
      exact (List.append_assoc ..).symm

/-- The last part is read as an IPv4 address where it has a dot. -/
theorem ip6Loop_hybrid {parts : List (List Char)} {tail : List Char}
    {result bytes : List (BitVec 8)} :
    ip6Loop digit true result (parts ++ [tail]) = .ok bytes ↔
      ∃ words a, List.Forall₂ Group parts words ∧ ip4StrToInt digit tail = .ok a ∧
        result.length + 2 * parts.length = 12 ∧
        bytes = result ++ (wordBytes words ++ BigEndian.bytes 4 a.toNat) := by
  induction parts generalizing result with
  | nil =>
    rw [List.nil_append, ip6Loop, if_pos ⟨rfl, rfl⟩, bind_eq_ok]
    simp only [List.forall₂_nil_left_iff]
    constructor
    · intro h
      obtain ⟨a, ha, h⟩ := h
      split_ifs at h with hlen
      cases h
      exact ⟨[], a, rfl, ha, not_not.mp hlen, congrArg (result ++ ·) (bytes_of_shifts a)⟩
    · intro h
      obtain ⟨_, a, rfl, ha, hlen, rfl⟩ := h
      refine ⟨a, ha, ?_⟩
      have htwelve : ¬ result.length ≠ 12 := not_not.mpr hlen
      rw [if_neg htwelve, bytes_of_shifts]
      rfl
  | cons part parts ih =>
    have hmore : ¬ (true = true ∧ parts ++ [tail] = []) := by simp
    rw [List.cons_append, ip6Loop, if_neg hmore]
    simp only [List.forall₂_cons_left_iff]
    constructor
    · intro h
      split_ifs at h with hfull
      obtain ⟨group, hread, h⟩ := bind_eq_ok.mp h
      obtain ⟨w, hgroup, rfl⟩ := groupBytes_eq_ok.mp hread
      obtain ⟨words, a, hwords, ha, hlen, rfl⟩ := ih.mp h
      refine ⟨w :: words, a, ⟨w, words, hgroup, hwords, rfl⟩, ha, ?_, ?_⟩
      · rw [List.length_append, BigEndian.length_bytes] at hlen
        rw [List.length_cons]
        omega
      · rw [wordBytes_cons, List.append_assoc, List.append_assoc]
    · intro h
      obtain ⟨_, a, ⟨w, words, hgroup, hwords, rfl⟩, ha, hlen, rfl⟩ := h
      rw [List.length_cons] at hlen
      rw [if_neg (by omega)]
      refine bind_eq_ok.mpr ⟨_, groupBytes_eq_ok.mpr ⟨w, hgroup, rfl⟩, ih.mpr ?_⟩
      refine ⟨words, a, hwords, ha, ?_, ?_⟩
      · rw [List.length_append, BigEndian.length_bytes]
        omega
      · rw [wordBytes_cons, List.append_assoc, List.append_assoc]

theorem IsIp4.dot_mem {s : List Char} (h : IsIp4 digit s) : '.' ∈ s := by
  by_contra hdot
  have hone : s.splitOn '.' = [s] := (splitOn_eq_iff (List.cons_ne_nil s [])).mpr
    ⟨fun field hfield => List.mem_singleton.mp hfield ▸ hdot, List.intercalate_singleton.symm⟩
  have hlen := h.length
  rw [split_eq, hone] at hlen
  cases hlen

/-- What the loop makes of groups is filled up with zeros. -/
theorem read_groups {fields : List (List Char)} {bytes : List (BitVec 8)} (hlen : fields.length ≤ 8) :
    (do let result ← ip6Loop digit false [] fields
        return result ++ List.replicate (16 - result.length) 0) = .ok bytes ↔
      ∃ words, List.Forall₂ Group fields words ∧
        bytes = wordBytes words ++ List.replicate (16 - 2 * words.length) 0 := by
  rw [bind_eq_ok]
  constructor
  · intro h
    obtain ⟨result, hresult, h⟩ := h
    obtain ⟨words, hwords, rfl⟩ := (ip6Loop_groups (by rw [List.length_nil]; omega)).mp hresult
    cases h
    exact ⟨words, hwords, by rw [List.nil_append, length_wordBytes]⟩
  · intro h
    obtain ⟨words, hwords, rfl⟩ := h
    refine ⟨_, (ip6Loop_groups (by rw [List.length_nil]; omega)).mpr ⟨words, hwords, rfl⟩, ?_⟩
    rw [List.nil_append, length_wordBytes]
    rfl

/-- Six groups and an IPv4 address fill the bytes. -/
theorem read_hybrid {parts : List (List Char)} {tail : List Char} {bytes : List (BitVec 8)} :
    (do let result ← ip6Loop digit true [] (parts ++ [tail])
        return result ++ List.replicate (16 - result.length) 0) = .ok bytes ↔
      ∃ words a, List.Forall₂ Group parts words ∧ words.length = 6 ∧
        ip4StrToInt digit tail = .ok a ∧
        bytes = wordBytes words ++ BigEndian.bytes 4 a.toNat := by
  have hfull (words : List (BitVec 16)) (a : BitVec 32) (hsix : words.length = 6) :
      [] ++ (wordBytes words ++ BigEndian.bytes 4 a.toNat) ++ List.replicate
        (16 - ([] ++ (wordBytes words ++ BigEndian.bytes 4 a.toNat)).length) 0 =
      wordBytes words ++ BigEndian.bytes 4 a.toNat := by
    rw [List.nil_append, List.length_append, length_wordBytes, BigEndian.length_bytes, hsix]
    exact List.append_nil _
  rw [bind_eq_ok]
  constructor
  · intro h
    obtain ⟨result, hresult, h⟩ := h
    obtain ⟨words, a, hwords, ha, hlen, rfl⟩ := ip6Loop_hybrid.mp hresult
    cases h
    have hcount := hwords.length_eq
    rw [List.length_nil] at hlen
    exact ⟨words, a, hwords, by omega, ha, hfull words a (by omega)⟩
  · intro h
    obtain ⟨words, a, hwords, hsix, ha, rfl⟩ := h
    have hcount := hwords.length_eq
    refine ⟨_, ip6Loop_hybrid.mpr ⟨words, a, hwords, ha, ?_, rfl⟩, congrArg _ (hfull words a hsix)⟩
    rw [List.length_nil]
    omega

/-- One group to eight, or six groups in front of an IPv4 address; what is behind the groups is
zero. -/
theorem ip6StrToBytes_eq_ok {s : List Char} {bytes : List (BitVec 8)} :
    ip6StrToBytes digit s = .ok bytes ↔
      (∃ words, List.Forall₂ Group (Fields.split ':' s) words ∧ words ≠ [] ∧ words.length ≤ 8 ∧
        bytes = wordBytes words ++ List.replicate (16 - 2 * words.length) 0) ∨
      ∃ parts words tail a, Fields.split ':' s = parts ++ [tail] ∧
        List.Forall₂ Group parts words ∧ words.length = 6 ∧ ip4StrToInt digit tail = .ok a ∧
        bytes = wordBytes words ++ BigEndian.bytes 4 a.toNat := by
  rw [ip6StrToBytes]
  generalize Fields.split ':' s = fields
  by_cases hcount : fields.length < 1 ∨ fields.length > 8
  · rw [if_pos hcount]
    refine iff_of_false (fun h => by cases h) fun h => ?_
    rcases h with ⟨words, hwords, hne, hle, -⟩ | ⟨parts, words, tail, a, rfl, hwords, hsix, -⟩
    · have hpos := List.length_pos_of_ne_nil hne
      have hlen := hwords.length_eq
      omega
    · have hlen := hwords.length_eq
      rw [List.length_append, List.length_singleton] at hcount
      omega
  rw [if_neg hcount]
  rcases List.eq_nil_or_concat fields with rfl | ⟨parts, tail, rfl⟩
  · exact absurd (Or.inl (by decide)) hcount
  rw [List.concat_eq_append] at hcount ⊢
  rw [List.getLast?_concat, Option.any_some]
  by_cases hdot : '.' ∈ tail
  · rw [List.contains_iff_mem.mpr hdot, read_hybrid]
    constructor
    · intro h
      obtain ⟨words, a, hwords, hsix, ha, rfl⟩ := h
      exact Or.inr ⟨parts, words, tail, a, rfl, hwords, hsix, ha, rfl⟩
    · intro h
      rcases h with ⟨words, hwords, -⟩ | ⟨parts', words, tail', a, heq, hwords, hsix, ha, rfl⟩
      · obtain ⟨w, hgroup⟩ := group_of_mem hwords
          (List.mem_append_right _ (List.mem_singleton_self tail))
        exact absurd hdot hgroup.notMem.2
      · obtain ⟨rfl, htail⟩ := List.append_inj' heq rfl
        cases htail
        exact ⟨words, a, hwords, hsix, ha, rfl⟩
  · have hplain : tail.contains '.' = false := by simpa using hdot
    rw [hplain, read_groups (by omega)]
    constructor
    · intro h
      obtain ⟨words, hwords, rfl⟩ := h
      have hlen := hwords.length_eq
      refine Or.inl ⟨words, hwords, ?_, by omega, rfl⟩
      rintro rfl
      rw [List.length_nil] at hlen
      omega
    · intro h
      rcases h with ⟨words, hwords, -, -, rfl⟩ | ⟨parts', words, tail', a, heq, -, -, ha, -⟩
      · exact ⟨words, hwords, rfl⟩
      · obtain ⟨-, htail⟩ := List.append_inj' heq rfl
        cases htail
        exact absurd (returns_ip4StrToInt.mp ⟨a, ha⟩).dot_mem hdot

end ConfProfile.OpenVpn
