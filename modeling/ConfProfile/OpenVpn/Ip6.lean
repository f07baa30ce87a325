import ConfProfile.OpenVpn.Group
import ConfProfile.OpenVpn.Join

/-!
# IPv6 addresses (`NetUtils`)

What `ip6StrToBytes` takes for an address, and that it reads back what `ip6BytesToStr` writes.
`split` gives empty texts and no nulls, so that a double colon is not found where the loop
looks for it: in front and in the middle it is an empty group, and at the end it is left out
like any other number of colons.
-/

namespace ConfProfile.OpenVpn

open Fields

/-! ## What the texts denote -/

/-- Groups between colons; the text may be empty. -/
def HexGroups (s : List Char) (bytes : List (BitVec 8)) : Prop :=
  ∃ parts words, List.Forall₂ Group parts words ∧ s = [':'].intercalate parts ∧
    bytes = wordBytes words

/-- Groups, and the last two may be written as an IPv4 address. -/
def Groups (s : List Char) (bytes : List (BitVec 8)) : Prop :=
  HexGroups s bytes ∨ ∃ parts words quad a, List.Forall₂ Group parts words ∧ DottedQuad quad a ∧
    s = [':'].intercalate (parts ++ [quad]) ∧ bytes = wordBytes words ++ BigEndian.bytes 4 a.toNat

/-- The bytes that a text denotes. A double colon stands for one zero group or more. -/
inductive Denotes : List Char → List (BitVec 8) → Prop
  | full {s : List Char} {bytes : List (BitVec 8)} :
    Groups s bytes → bytes.length = 16 → Denotes s bytes
  | compressed {left right : List Char} {front back : List (BitVec 8)} :
    HexGroups left front → Groups right back → front.length + back.length ≤ 14 →
    Denotes (left ++ [':', ':'] ++ right)
      (front ++ List.replicate (16 - (front.length + back.length)) 0 ++ back)

/-! ## Which texts are read as what they denote -/

variable {digit : Char → Option Nat} {numeral : Nat → Char}

/-- One group to eight, and a number of colons that does not make an address of them. -/
def LooseGroups (s : List Char) : Prop :=
  ∃ parts words j, List.Forall₂ Group parts words ∧ words ≠ [] ∧ words.length ≤ 8 ∧
    s = [':'].intercalate parts ++ List.replicate j ':' ∧
    ¬ (words.length = 8 ∧ j = 0) ∧ ¬ (words.length < 8 ∧ j = 2)

/-- Six groups and an IPv4 address that is not dotted decimal, or with colons behind it. -/
def LooseTail (digit : Char → Option Nat) (s : List Char) : Prop :=
  ∃ parts words tail j, List.Forall₂ Group parts words ∧ words.length = 6 ∧ IsIp4 digit tail ∧
    ':' ∉ tail ∧ s = [':'].intercalate (parts ++ [tail]) ++ List.replicate j ':' ∧
    (j ≠ 0 ∨ ∀ a, ¬ DottedQuad tail a)

/-- A double colon with groups behind it, or with none in front of it. -/
def GroupsBehind (s : List Char) : Prop :=
  ∃ left right front back, HexGroups left front ∧ Groups right back ∧
    front.length + back.length ≤ 14 ∧ s = left ++ [':', ':'] ++ right ∧ (left = [] ∨ right ≠ [])

theorem split_groups {s : List Char} {parts : List (List Char)} {words : List (BitVec 16)}
    (h : List.Forall₂ Group parts words) (hne : words ≠ []) :
    Fields.split ':' s = parts ↔ ∃ j, s = [':'].intercalate parts ++ List.replicate j ':' := by
  have hparts : parts ≠ [] := fun hnil => hne (by rw [hnil] at h; exact List.forall₂_nil_left_iff.mp h)
  obtain ⟨w, hlast⟩ := group_of_mem h (List.getLast_mem hparts)
  rw [split_iff (List.getLast?_eq_some_getLast hparts) hlast.ne_nil]
  exact and_iff_right (groups_notMem h)

theorem split_tail {s tail : List Char} {parts : List (List Char)} {words : List (BitVec 16)}
    (h : List.Forall₂ Group parts words) (htail : IsIp4 digit tail) :
    Fields.split ':' s = parts ++ [tail] ↔
      ':' ∉ tail ∧ ∃ j, s = [':'].intercalate (parts ++ [tail]) ++ List.replicate j ':' := by
  rw [split_iff List.getLast?_concat (List.ne_nil_of_mem htail.dot_mem)]
  refine and_congr_left fun _ => ?_
  rw [List.forall_mem_append, List.forall_mem_singleton]
  exact and_iff_right (groups_notMem h)

theorem DottedQuad.colon_notMem {s : List Char} {a : BitVec 32} (hs : DottedQuad s a) : ':' ∉ s := by
  intro hmem
  rcases hs.isDigit ':' hmem with hdigit | hdot
  · exact absurd hdigit (by decide)
  · exact absurd hdot (by decide)

theorem DottedQuad.isIp4 (h : DecimalDigits digit numeral) {s : List Char} {a : BitVec 32}
    (hs : DottedQuad s a) : IsIp4 digit s :=
  returns_ip4StrToInt.mp ⟨a, ip4StrToInt_of_quad h hs⟩

/-- No field of an address that is read is empty. -/
theorem nil_notMem_split {s : List Char} {bytes : List (BitVec 8)}
    (h : ip6StrToBytes digit s = .ok bytes) :
    Fields.split ':' s ≠ [] ∧ [] ∉ Fields.split ':' s := by
  rcases ip6StrToBytes_eq_ok.mp h with ⟨words, hwords, hne, -⟩ |
    ⟨parts, words, tail, a, heq, hwords, -, ha, -⟩
  · refine ⟨fun hnil => hne ?_, fun hmem => ?_⟩
    · rw [hnil] at hwords
      exact List.forall₂_nil_left_iff.mp hwords
    · obtain ⟨w, hgroup⟩ := group_of_mem hwords hmem
      exact hgroup.ne_nil rfl
  · rw [heq]
    refine ⟨by simp, fun hmem => ?_⟩
    rcases List.mem_append.mp hmem with hmem | hmem
    · obtain ⟨w, hgroup⟩ := group_of_mem hwords hmem
      exact hgroup.ne_nil rfl
    · have hdot := (returns_ip4StrToInt.mp ⟨a, ha⟩).dot_mem
      rw [← List.mem_singleton.mp hmem] at hdot
      cases hdot

/-- No text, no groups. -/
theorem Groups.nil (h : DecimalDigits digit numeral) {bytes : List (BitVec 8)}
    (hs : Groups [] bytes) : bytes = [] := by
  have hnil : Fields.split ':' [] = [[]] := rfl
  rcases hs with ⟨parts, words, hwords, heq, rfl⟩ | ⟨parts, words, quad, a, hwords, hquad, heq, -⟩
  · by_cases hne : words = []
    · rw [hne]
      rfl
    · have hparts := (split_groups hwords hne).mpr ⟨0, heq.trans (List.append_nil _).symm⟩
      rw [hnil] at hparts
      obtain ⟨w, hgroup⟩ := group_of_mem hwords (hparts ▸ List.mem_singleton_self [])
      exact absurd rfl hgroup.ne_nil
  · have hparts := (split_tail hwords (hquad.isIp4 h)).mpr
      ⟨hquad.colon_notMem, 0, heq.trans (List.append_nil _).symm⟩
    have hmem : quad ∈ Fields.split ':' [] := by
      rw [hparts]
      exact List.mem_append_right _ (List.mem_singleton_self quad)
    have hdot := (hquad.isIp4 h).dot_mem
    rw [hnil, List.mem_singleton] at hmem
    rw [hmem] at hdot
    cases hdot

/-- The groups behind a double colon, as fields. -/
theorem Groups.fields (h : DecimalDigits digit numeral) {s : List Char} {bytes : List (BitVec 8)}
    (hs : Groups s bytes) (hne : s ≠ []) :
    ∃ fields last, s = [':'].intercalate fields ∧ fields.getLast? = some last ∧ last ≠ [] ∧
      ∀ field ∈ fields, ':' ∉ field := by
  rcases hs with ⟨parts, words, hwords, rfl, -⟩ | ⟨parts, words, quad, a, hwords, hquad, rfl, -⟩
  · have hparts : parts ≠ [] := fun hnil => hne (by rw [hnil]; rfl)
    obtain ⟨w, hlast⟩ := group_of_mem hwords (List.getLast_mem hparts)
    exact ⟨parts, _, rfl, List.getLast?_eq_some_getLast hparts, hlast.ne_nil, groups_notMem hwords⟩
  · refine ⟨parts ++ [quad], quad, rfl, List.getLast?_concat,
      List.ne_nil_of_mem (hquad.isIp4 h).dot_mem, ?_⟩
    rw [List.forall_mem_append, List.forall_mem_singleton]
    exact ⟨groups_notMem hwords, hquad.colon_notMem⟩

theorem GroupsBehind.split (h : DecimalDigits digit numeral) {s : List Char} (hs : GroupsBehind s) :
    Fields.split ':' s = [] ∨ [] ∈ Fields.split ':' s := by
  obtain ⟨left, right, front, back, hleft, hright, -, rfl, hbehind⟩ := hs
  by_cases hnil : left = []
  · subst hnil
    exact split_cons_separator ':' (':' :: right)
  · have hne := hbehind.resolve_left hnil
    obtain ⟨parts, words, hwords, rfl, -⟩ := hleft
    obtain ⟨fields, last, rfl, hlast, hlastne, hfields⟩ := hright.fields h hne
    have hparts : parts ≠ [] := fun hnil' => hnil (by rw [hnil']; rfl)
    have hfieldsne : fields ≠ [] := fun hnil' => hne (by rw [hnil']; rfl)
    have hlast' : (parts ++ [] :: fields).getLast? = some last := by
      rw [List.getLast?_append_of_ne_nil _ (List.cons_ne_nil _ _), ← List.singleton_append,
        List.getLast?_append_of_ne_nil _ hfieldsne, hlast]
    refine Or.inr ?_
    rw [(split_iff hlast' hlastne).mpr ⟨?_, 0, ?_⟩]
    · exact List.mem_append_right _ List.mem_cons_self
    · rw [List.forall_mem_append, List.forall_mem_cons]
      exact ⟨groups_notMem hwords, List.not_mem_nil, hfields⟩
    · rw [List.replicate_zero, List.append_nil, intercalate_append hparts (List.cons_ne_nil _ _),
        List.intercalate_cons_of_ne_nil hfieldsne, List.append_assoc]
      rfl

/-- An address without groups behind a double colon, as fields. -/
theorem Denotes.split (h : DecimalDigits digit numeral) {s : List Char} {bytes : List (BitVec 8)}
    (hs : Denotes s bytes) (hfront : ¬ GroupsBehind s) :
    (∃ words, List.Forall₂ Group (Fields.split ':' s) words ∧
      ((words.length = 8 ∧ s = [':'].intercalate (Fields.split ':' s) ∧ bytes = wordBytes words) ∨
        (words ≠ [] ∧ words.length < 8 ∧
          s = [':'].intercalate (Fields.split ':' s) ++ List.replicate 2 ':' ∧
          bytes = wordBytes words ++ List.replicate (16 - 2 * words.length) 0))) ∨
    ∃ parts words quad a, Fields.split ':' s = parts ++ [quad] ∧ List.Forall₂ Group parts words ∧
      words.length = 6 ∧ DottedQuad quad a ∧ s = [':'].intercalate (parts ++ [quad]) ∧
      bytes = wordBytes words ++ BigEndian.bytes 4 a.toNat := by
  cases hs with
  | full hgroups hlen =>
    rcases hgroups with ⟨parts, words, hwords, rfl, rfl⟩ |
      ⟨parts, words, quad, a, hwords, hquad, rfl, rfl⟩
    · rw [length_wordBytes] at hlen
      have hne : words ≠ [] := fun hnil => by rw [hnil] at hlen; cases hlen
      have hsplit := (split_groups hwords hne).mpr ⟨0, (List.append_nil _).symm⟩
      refine Or.inl ⟨words, ?_, Or.inl ⟨by omega, ?_, rfl⟩⟩
      · rwa [hsplit]
      · rw [hsplit]
    · rw [List.length_append, length_wordBytes, BigEndian.length_bytes] at hlen
      have hsplit := (split_tail hwords (hquad.isIp4 h)).mpr
        ⟨hquad.colon_notMem, 0, (List.append_nil _).symm⟩
      exact Or.inr ⟨parts, words, quad, a, hsplit, hwords, by omega, hquad, rfl, rfl⟩
  | @compressed left right front back hleft hright hlen =>
    have hends : left ≠ [] ∧ right = [] := by
      by_contra hends
      refine hfront ⟨left, right, front, back, hleft, hright, hlen, rfl, ?_⟩
      rw [not_and_or, not_not] at hends
      exact hends
    obtain ⟨hne, rfl⟩ := hends
    obtain rfl := hright.nil h
    obtain ⟨parts, words, hwords, rfl, rfl⟩ := hleft
    have hwordsne : words ≠ [] := by
      rintro rfl
      rw [List.forall₂_nil_right_iff.mp hwords] at hne
      exact hne rfl
    have hsplit : Fields.split ':' ([':'].intercalate parts ++ [':', ':'] ++ []) = parts :=
      (split_groups hwords hwordsne).mpr ⟨2, List.append_nil _⟩
    rw [List.length_nil, length_wordBytes] at hlen
    refine Or.inl ⟨words, ?_, Or.inr ⟨hwordsne, by omega, ?_, ?_⟩⟩
    · rwa [hsplit]
    · rw [hsplit]
      exact List.append_nil _
    · rw [List.append_nil, List.length_nil, length_wordBytes, Nat.add_zero]

/-- Such an address is read as its bytes. -/
theorem Denotes.read (h : DecimalDigits digit numeral) {s : List Char} {bytes : List (BitVec 8)}
    (hs : Denotes s bytes) (hfront : ¬ GroupsBehind s) : ip6StrToBytes digit s = .ok bytes := by
  rw [ip6StrToBytes_eq_ok]
  rcases hs.split h hfront with ⟨words, hwords, ⟨hlen, -, rfl⟩ | ⟨hne, hlen, -, rfl⟩⟩ |
    ⟨parts, words, quad, a, hsplit, hwords, hlen, hquad, -, rfl⟩
  · refine Or.inl ⟨words, hwords, ?_, by omega, ?_⟩
    · rintro rfl
      cases hlen
    · rw [hlen]
      exact (List.append_nil _).symm
  · exact Or.inl ⟨words, hwords, hne, by omega, rfl⟩
  · exact Or.inr ⟨parts, words, quad, a, hsplit, hwords, hlen, ip4StrToInt_of_quad h hquad, rfl⟩

/-- What is read denotes the bytes, but for the number of colons and the IPv4 address behind the
groups. -/
theorem denotes_of_read (h : DecimalDigits digit numeral) {s : List Char} {bytes : List (BitVec 8)}
    (hread : ip6StrToBytes digit s = .ok bytes) :
    LooseGroups s ∨ LooseTail digit s ∨ Denotes s bytes := by
  rcases ip6StrToBytes_eq_ok.mp hread with ⟨words, hwords, hne, hlen, rfl⟩ |
    ⟨parts, words, tail, a, hsplit, hwords, hlen, ha, rfl⟩
  · obtain ⟨j, hs⟩ := (split_groups hwords hne).mp rfl
    generalize Fields.split ':' s = parts at hwords hs
    by_cases height : words.length = 8 ∧ j = 0
    · obtain ⟨height, rfl⟩ := height
      rw [List.replicate_zero, List.append_nil] at hs
      refine Or.inr (Or.inr (.full (Or.inl ⟨parts, words, hwords, hs, ?_⟩) ?_))
      · rw [height]
        exact List.append_nil _
      · rw [List.length_append, length_wordBytes, List.length_replicate, height]
    · by_cases htwo : words.length < 8 ∧ j = 2
      · obtain ⟨hless, rfl⟩ := htwo
        have hdenotes : Denotes ([':'].intercalate parts ++ [':', ':'] ++ [])
            (wordBytes words ++ List.replicate
              (16 - ((wordBytes words).length + ([] : List (BitVec 8)).length)) 0 ++ []) := by
          refine .compressed ⟨parts, words, hwords, rfl, rfl⟩
            (Or.inl ⟨[], [], List.Forall₂.nil, rfl, rfl⟩) ?_
          rw [length_wordBytes, List.length_nil]
          omega
        rw [List.append_nil, List.append_nil, length_wordBytes, List.length_nil, Nat.add_zero] at hdenotes
        rw [hs]
        exact Or.inr (Or.inr hdenotes)
      · exact Or.inl ⟨parts, words, j, hwords, hne, hlen, hs, height, htwo⟩
  · have htail := returns_ip4StrToInt.mp ⟨a, ha⟩
    obtain ⟨hcolon, j, hs⟩ := (split_tail hwords htail).mp hsplit
    by_cases hstrict : j = 0 ∧ ∃ a, DottedQuad tail a
    · obtain ⟨rfl, a', hquad⟩ := hstrict
      cases ha.symm.trans (ip4StrToInt_of_quad h hquad)
      rw [List.replicate_zero, List.append_nil] at hs
      refine Or.inr (Or.inr (.full (Or.inr ⟨parts, words, tail, a, hwords, hquad, hs, rfl⟩) ?_))
      rw [List.length_append, length_wordBytes, BigEndian.length_bytes, hlen]
    · refine Or.inr (Or.inl ⟨parts, words, tail, j, hwords, hlen, htail, hcolon, hs, ?_⟩)
      rw [not_and_or, not_exists] at hstrict
      exact hstrict

theorem LooseGroups.not_denotes (h : DecimalDigits digit numeral) {s : List Char}
    {bytes : List (BitVec 8)} (hs : LooseGroups s) (hfront : ¬ GroupsBehind s) :
    ¬ Denotes s bytes := by
  intro hdenotes
  obtain ⟨parts, words, j, hwords, hne, hlen, heq, height, htwo⟩ := hs
  have hsplit := (split_groups hwords hne).mpr ⟨j, heq⟩
  have hcount := hwords.length_eq
  rcases hdenotes.split h hfront with ⟨words', hwords', hcases⟩ |
    ⟨parts', words', quad, a, hsplit', -, -, hquad, -⟩
  · rw [hsplit] at hwords' hcases
    have hcount' := hwords'.length_eq
    have hlength := congrArg List.length heq
    rw [List.length_append, List.length_replicate] at hlength
    rcases hcases with ⟨hlen', heq', -⟩ | ⟨-, hlen', heq', -⟩
    · have hlength' := congrArg List.length heq'
      exact height ⟨by omega, by omega⟩
    · have hlength' := congrArg List.length heq'
      rw [List.length_append, List.length_replicate] at hlength'
      exact htwo ⟨by omega, by omega⟩
  · have hmem : quad ∈ parts := by
      rw [← hsplit, hsplit']
      exact List.mem_append_right _ (List.mem_singleton_self quad)
    obtain ⟨w, hgroup⟩ := group_of_mem hwords hmem
    exact hgroup.notMem.2 (hquad.isIp4 h).dot_mem

theorem LooseTail.not_denotes (h : DecimalDigits digit numeral) {s : List Char}
    {bytes : List (BitVec 8)} (hs : LooseTail digit s) (hfront : ¬ GroupsBehind s) :
    ¬ Denotes s bytes := by
  intro hdenotes
  obtain ⟨parts, words, tail, j, hwords, hlen, htail, hcolon, heq, hloose⟩ := hs
  have hsplit := (split_tail hwords htail).mpr ⟨hcolon, j, heq⟩
  rcases hdenotes.split h hfront with ⟨words', hwords', -⟩ |
    ⟨parts', words', quad, a, hsplit', -, -, hquad, heq', -⟩
  · rw [hsplit] at hwords'
    obtain ⟨w, hgroup⟩ := group_of_mem hwords' (List.mem_append_right _ (List.mem_singleton_self tail))
    exact hgroup.notMem.2 htail.dot_mem
  · obtain ⟨rfl, htail'⟩ := List.append_inj' (hsplit.symm.trans hsplit') rfl
    cases htail'
    have hlength := congrArg List.length (heq.symm.trans heq')
    rw [List.length_append, List.length_replicate] at hlength
    exact hloose.elim (fun hj => hj (by omega)) fun hnone => hnone a hquad

/-- A text is read as what it denotes, and not read where it denotes nothing, unless it has groups
behind a double colon or none in front of it, a wrong number of colons at its end, or an IPv4
address that is not dotted decimal. -/
theorem ip6StrToBytes_denotes_iff (h : DecimalDigits digit numeral) (s : List Char) :
    (∀ bytes, ip6StrToBytes digit s = .ok bytes ↔ Denotes s bytes) ↔
      ¬ GroupsBehind s ∧ ¬ LooseGroups s ∧ ¬ LooseTail digit s := by
  constructor
  · intro hclaim
    have hfront : ¬ GroupsBehind s := by
      intro hbehind
      have hnone := hbehind.split h
      obtain ⟨left, right, front, back, hleft, hright, hlen, rfl, -⟩ := hbehind
      obtain ⟨hne, hmem⟩ := nil_notMem_split ((hclaim _).mpr (.compressed hleft hright hlen))
      exact hnone.elim hne hmem
    refine ⟨hfront, fun hgroups => ?_, fun htail => ?_⟩
    · obtain ⟨parts, words, j, hwords, hne, hlen, heq, -⟩ := id hgroups
      have hsplit := (split_groups hwords hne).mpr ⟨j, heq⟩
      have hread : ip6StrToBytes digit s =
          .ok (wordBytes words ++ List.replicate (16 - 2 * words.length) 0) :=
        ip6StrToBytes_eq_ok.mpr (Or.inl ⟨words, by rwa [hsplit], hne, hlen, rfl⟩)
      exact hgroups.not_denotes h hfront ((hclaim _).mp hread)
    · obtain ⟨parts, words, tail, j, hwords, hlen, hip4, hcolon, heq, -⟩ := id htail
      have hsplit := (split_tail hwords hip4).mpr ⟨hcolon, j, heq⟩
      obtain ⟨a, ha⟩ := returns_ip4StrToInt.mpr hip4
      have hread := ip6StrToBytes_eq_ok.mpr (Or.inr ⟨parts, words, tail, a, hsplit, hwords, hlen, ha, rfl⟩)
      exact htail.not_denotes h hfront ((hclaim _).mp hread)
  · intro hcond
    obtain ⟨hfront, hgroups, htail⟩ := hcond
    intro bytes
    refine ⟨fun hread => ?_, fun hs => hs.read h hfront⟩
    exact ((denotes_of_read h hread).resolve_left hgroups).resolve_left htail

theorem ip6StrToBytes_denotes_iff_ascii :
    (∀ bytes, ip6StrToBytes asciiDigit "fe80::".toList = .ok bytes ↔
      Denotes "fe80::".toList bytes) ↔
      ¬ GroupsBehind "fe80::".toList ∧ ¬ LooseGroups "fe80::".toList ∧
        ¬ LooseTail asciiDigit "fe80::".toList :=
  ip6StrToBytes_denotes_iff decimalDigits_ascii "fe80::".toList

/-- The loopback address is not read. -/
theorem ip6StrToBytes_loopback :
    Denotes "::1".toList (List.replicate 15 0 ++ [1]) ∧
      ip6StrToBytes asciiDigit "::1".toList = .error .illegalArgument := by
  refine ⟨?_, by decide⟩
  have hone : Group ['1'] 1 := ⟨by decide, by decide, by decide⟩
  exact .compressed ⟨[], [], .nil, rfl, rfl⟩
    (Or.inl ⟨[['1']], [1], .cons hone .nil, rfl, rfl⟩) (by decide)

/-! ## What is written -/

/-- `%02x` of a byte. -/
def formatHex (b : BitVec 8) : List Char :=
  [HEX.getD (b.toNat / 16) '0', HEX.getD (b.toNat % 16) '0']

/-- `ip6BytesToStr`; `none` is null. -/
def ip6BytesToStr (ip6 : Option (List (BitVec 8))) : Except Unchecked (List Char) :=
  match ip6 with
  | none => .error .illegalArgument
  | some ip6 =>
    if ip6.length ≠ 16 then .error .illegalArgument
    else
      match join [':'] false ((List.range 8).map fun i =>
        some (formatHex (ip6.getD (i * 2) 0) ++ formatHex (ip6.getD (i * 2 + 1) 0))) with
      | some text => .ok text
      | none => .error .nullPointer

theorem group_formatHex (hi lo : BitVec 8) :
    Group (formatHex hi ++ formatHex lo) (hi ++ lo) := by
  have hdigit : ∀ d < 16, hexDigit (HEX.getD d '0') = some d := by decide
  have hhi := hi.isLt
  have hlo := lo.isLt
  refine ⟨List.cons_ne_nil _ _, le_rfl, ?_⟩
  have hdigits : (formatHex hi ++ formatHex lo).mapM hexDigit =
      some [hi.toNat / 16, hi.toNat % 16, lo.toNat / 16, lo.toNat % 16] := by
    simp only [formatHex, List.cons_append, List.nil_append, List.mapM_cons, List.mapM_nil]
    rw [hdigit _ (by omega), hdigit _ (by omega), hdigit _ (by omega), hdigit _ (by omega)]
    rfl
  rw [hdigits, Option.map_some, BigEndian.toNat_appendByte]
  simp only [hexValue, List.foldl_cons, List.foldl_nil]
  exact congrArg some (by omega)

theorem bytes_append (hi lo : BitVec 8) :
    BigEndian.bytes 2 (hi ++ lo : BitVec 16).toNat = [hi, lo] := by
  have hlo := lo.isLt
  have hhigh : (hi ++ lo : BitVec (8 + 8)).toNat / 256 ^ 1 = hi.toNat := by
    rw [BigEndian.toNat_appendByte]
    omega
  have hlow : (hi ++ lo : BitVec (8 + 8)).toNat / 256 ^ 0 % 2 ^ 8 = lo.toNat := by
    rw [BigEndian.toNat_appendByte]
    omega
  rw [BigEndian.bytes, BigEndian.bytes, BigEndian.bytes, hhigh, BitVec.ofNat_toNat]
  exact congrArg₂ (fun a b => [a, b]) (BitVec.setWidth_eq hi) (BitVec.eq_of_toNat_eq hlow)

/-- Bytes, two by two. -/
theorem flatMap_pairs {n : Nat} {b : List (BitVec 8)} (h : b.length = 2 * n) :
    ((List.range n).flatMap fun i => [b.getD (i * 2) 0, b.getD (i * 2 + 1) 0]) = b := by
  induction n generalizing b with
  | zero => exact (List.length_eq_zero_iff.mp h).symm
  | succ n ih =>
    match b, h with
    | hi :: lo :: b, h =>
      simp only [List.length_cons] at h
      have hrest := ih (b := b) (by omega)
      rw [List.range_succ_eq_map, List.flatMap_cons, List.flatMap_map]
      refine congrArg (hi :: lo :: ·) (Eq.trans ?_ hrest)
      refine congrArg (List.flatMap · _) (funext fun i => ?_)
      rw [Nat.succ_mul, Nat.add_assoc, Nat.add_comm 2 1, ← Nat.add_assoc]
      rfl

/-- What is written is read as the address. -/
theorem ip6StrToBytes_ip6BytesToStr {b : List (BitVec 8)} (h : b.length = 16) :
    (do ip6StrToBytes digit (← ip6BytesToStr (some b))) = .ok b := by
  have hsixteen : ¬ b.length ≠ 16 := not_not.mpr h
  let text (i : Nat) := formatHex (b.getD (i * 2) 0) ++ formatHex (b.getD (i * 2 + 1) 0)
  let word (i : Nat) : BitVec 16 := b.getD (i * 2) 0 ++ b.getD (i * 2 + 1) 0
  have hwords : List.Forall₂ Group ((List.range 8).map text) ((List.range 8).map word) := by
    rw [List.forall₂_map_left_iff, List.forall₂_map_right_iff, List.forall₂_same]
    exact fun i _ => group_formatHex _ _
  have htext : ip6BytesToStr (some b) =
      .ok ([':'].intercalate ((List.range 8).map text)) := by
    have hjoin := join_map_some [':'] false ((List.range 8).map text)
    rw [List.map_map] at hjoin
    rw [ip6BytesToStr, if_neg hsixteen]
    exact congrArg (fun r : Option (List Char) => match r with
      | some text => (.ok text : Except Unchecked (List Char))
      | none => .error .nullPointer) hjoin
  have hbytes : wordBytes ((List.range 8).map word) = b := by
    rw [wordBytes, List.flatMap_map]
    simp only [word, bytes_append]
    exact flatMap_pairs h
  have hsplit := (split_groups hwords (List.cons_ne_nil _ _)).mpr ⟨0, (List.append_nil _).symm⟩
  refine bind_eq_ok.mpr ⟨_, htext, ip6StrToBytes_eq_ok.mpr
    (Or.inl ⟨(List.range 8).map word, ?_, List.cons_ne_nil _ _, le_rfl, ?_⟩)⟩
  · rwa [hsplit]
  · rw [hbytes]
    exact (List.append_nil b).symm

theorem ip6StrToBytes_ip6BytesToStr_mapped :
    (do ip6StrToBytes asciiDigit (← ip6BytesToStr (some
      (List.replicate 10 0 ++ [0xff, 0xff, 192, 0, 2, 1])))) =
      .ok (List.replicate 10 0 ++ [0xff, 0xff, 192, 0, 2, 1]) :=
  ip6StrToBytes_ip6BytesToStr (by decide)

end ConfProfile.OpenVpn
