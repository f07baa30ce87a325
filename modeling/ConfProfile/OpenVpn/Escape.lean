import Mathlib.Data.List.TakeWhile
import ConfProfile.OpenVpn.Options

/-!
# Parameters on the management line (`OpenVpnTunnel.openVpnEscape`)

A user name or password is escaped and put behind a command; `parse_line` of the other
side takes the line apart again. In quotes everything but a line break is read as it
was: `\n` is no escape sequence of `parse_line`, and the line is refused. Without quotes
white space and a quote in front make another parameter of it, and an empty text makes
none. `parse_line_escape` says for which texts the parameter is the text.
-/

namespace ConfProfile.OpenVpn

/-! ## Escaping -/

/-- `String.replace` of a character. -/
def replace (c : Char) (replacement s : List Char) : List Char :=
  s.flatMap fun d => if d = c then replacement else [d]

/-- `openVpnEscape` of a string that is not null. -/
def openVpnEscape (unescaped : List Char) : List Char :=
  let escapedString := replace '\\' ['\\', '\\'] unescaped
  let escapedString := replace '"' ['\\', '"'] escapedString
  let escapedString := replace '\n' ['\\', 'n'] escapedString
  if escapedString = unescaped ∧ ' ' ∉ escapedString ∧ '#' ∉ escapedString ∧ ';' ∉ escapedString then
    unescaped
  else '"' :: (escapedString ++ ['"'])

/-- What is put for a character. -/
def escapeChar (c : Char) : List Char :=
  if c = '\\' then ['\\', '\\'] else if c = '"' then ['\\', '"']
  else if c = '\n' then ['\\', 'n'] else [c]

/-- The three replacements at once. -/
theorem replace_eq (s : List Char) :
    replace '\n' ['\\', 'n'] (replace '"' ['\\', '"'] (replace '\\' ['\\', '\\'] s)) =
      s.flatMap escapeChar := by
  rw [replace, replace, replace, List.flatMap_assoc, List.flatMap_assoc]
  refine List.flatMap_congr fun c _ => ?_
  unfold escapeChar
  by_cases hback : c = '\\'
  · rw [if_pos hback, if_pos hback]
    rfl
  · by_cases hquote : c = '"'
    · rw [if_neg hback, if_neg hback, hquote]
      rfl
    · by_cases hbreak : c = '\n'
      · rw [hbreak]
        rfl
      · simp [hback, hquote, hbreak]

/-- A character that is escaped. -/
def Escaped (c : Char) : Prop := c ∈ ['\\', '"', '\n']

theorem escapeChar_of_not {c : Char} (h : ¬ Escaped c) : escapeChar c = [c] := by
  simp only [Escaped, List.mem_cons, List.not_mem_nil, or_false, not_or] at h
  rw [escapeChar, if_neg h.1, if_neg h.2.1, if_neg h.2.2]

theorem length_escapeChar {c : Char} (h : Escaped c) : (escapeChar c).length = 2 := by
  simp only [Escaped, List.mem_cons, List.not_mem_nil, or_false] at h
  rcases h with rfl | rfl | rfl <;> rfl

theorem length_flatMap_escapeChar (s : List Char) :
    s.length ≤ (s.flatMap escapeChar).length := by
  induction s with
  | nil => exact le_rfl
  | cons c s ih =>
    rw [List.flatMap_cons, List.length_append, List.length_cons]
    by_cases hc : Escaped c
    · rw [length_escapeChar hc]
      omega
    · rw [escapeChar_of_not hc, List.length_singleton]
      omega

/-- The string is as it was if nothing in it is escaped. -/
theorem flatMap_escapeChar_eq (s : List Char) :
    s.flatMap escapeChar = s ↔ ∀ c ∈ s, ¬ Escaped c := by
  induction s with
  | nil => simp
  | cons c s ih =>
    rw [List.flatMap_cons, List.forall_mem_cons]
    by_cases hc : Escaped c
    · refine iff_of_false (fun h => ?_) fun h => h.1 hc
      have hlen := congrArg List.length h
      have hle := length_flatMap_escapeChar s
      rw [List.length_append, length_escapeChar hc, List.length_cons] at hlen
      omega
    · rw [escapeChar_of_not hc, List.singleton_append, List.cons.injEq, ih]
      simp [hc]

/-- The string is put into quotes. -/
def Quoted (s : List Char) : Prop := ∃ c ∈ s, c ∈ ['\\', '"', '\n', ' ', '#', ';']

instance (s : List Char) : Decidable (Quoted s) :=
  decidable_of_iff (s.any (· ∈ ['\\', '"', '\n', ' ', '#', ';']) = true) (by simp [Quoted])

theorem openVpnEscape_eq (s : List Char) :
    openVpnEscape s = if Quoted s then '"' :: (s.flatMap escapeChar ++ ['"']) else s := by
  rw [openVpnEscape]
  simp only [replace_eq]
  by_cases hq : Quoted s
  · rw [if_pos hq, if_neg]
    intro h'
    obtain ⟨heq, hspace, hhash, hsemi⟩ := h'
    rw [heq] at hspace hhash hsemi
    obtain ⟨c, hc, hmem⟩ := hq
    have hnot := (flatMap_escapeChar_eq s).mp heq c hc
    simp only [Escaped, List.mem_cons, List.not_mem_nil, or_false, not_or] at hnot hmem
    rcases hmem with h | h | h | rfl | rfl | rfl
    · exact hnot.1 h
    · exact hnot.2.1 h
    · exact hnot.2.2 h
    · exact hspace hc
    · exact hhash hc
    · exact hsemi hc
  · have hnone : ∀ c ∈ s, c ∉ ['\\', '"', '\n', ' ', '#', ';'] := fun c hc hmem => hq ⟨c, hc, hmem⟩
    have heq : s.flatMap escapeChar = s := by
      refine (flatMap_escapeChar_eq s).mpr fun c hc hmem => hnone c hc ?_
      exact List.mem_append_left [' ', '#', ';'] hmem
    rw [if_neg hq, heq, if_pos]
    refine ⟨rfl, fun h => hnone _ h (by decide), fun h => hnone _ h (by decide),
      fun h => hnone _ h (by decide)⟩

/-! ## The bytes of a text -/

theorem utf8_cons (c : Char) (s : List Char) : utf8 (c :: s) = utf8 [c] ++ utf8 s :=
  utf8_append [c] s

theorem utf8_singleton {c : Char} (hc : c.toNat < 128) : utf8 [c] = [byte c] := by
  rw [utf8_ascii fun d hd => List.mem_singleton.mp hd ▸ hc]
  rfl

theorem utf8_singleton_ne_nil (c : Char) : utf8 [c] ≠ [] := by
  rw [utf8, List.flatMap_singleton, ne_eq, List.map_eq_nil_iff]
  exact String.utf8EncodeChar_ne_nil

/-- The bytes of a character that is not of ASCII have their high bit. -/
theorem le_of_mem_utf8 {c : Char} (hc : 128 ≤ c.toNat) : ∀ b ∈ utf8 [c], 128 ≤ b.toNat := by
  have hhigh : ∀ n, 128 ≤ n → n < 256 → 128 ≤ (UInt8.ofNat n).toBitVec.toNat := by
    intro n hle hlt
    rw [UInt8.toNat_toBitVec, UInt8.toNat_ofNat_of_lt' hlt]
    exact hle
  intro b hb
  rw [utf8, List.flatMap_singleton, List.mem_map] at hb
  obtain ⟨x, hx, rfl⟩ := hb
  have hle : ¬ c.val.toNat ≤ 0x7f := Nat.not_le.mpr hc
  rw [String.utf8EncodeChar] at hx
  simp only [if_neg hle] at hx
  split_ifs at hx <;> simp only [List.mem_cons, List.not_mem_nil, or_false] at hx
  · rcases hx with rfl | rfl <;> exact hhigh _ (by omega) (by omega)
  · rcases hx with rfl | rfl | rfl <;> exact hhigh _ (by omega) (by omega)
  · rcases hx with rfl | rfl | rfl | rfl <;> exact hhigh _ (by omega) (by omega)

/-- A byte of ASCII is in the text if the character is. -/
theorem byte_mem_utf8 {c : Char} (hc : c.toNat < 128) {s : List Char} :
    byte c ∈ utf8 s ↔ c ∈ s := by
  induction s with
  | nil => simp [utf8]
  | cons d s ih =>
    rw [utf8_cons, List.mem_append, ih, List.mem_cons]
    refine or_congr ?_ Iff.rfl
    by_cases hd : d.toNat < 128
    · rw [utf8_singleton hd, List.mem_singleton]
      constructor
      · intro h
        have hnat := congrArg BitVec.toNat h
        rw [byte, byte, BitVec.toNat_ofNat, BitVec.toNat_ofNat, Nat.mod_eq_of_lt (by omega),
          Nat.mod_eq_of_lt (by omega)] at hnat
        exact Char.toNat_inj.mp hnat
      · intro h
        rw [h]
    · refine iff_of_false (fun h => ?_) fun h => hd (h ▸ hc)
      have hle := le_of_mem_utf8 (Nat.not_lt.mp hd) _ h
      rw [byte, BitVec.toNat_ofNat] at hle
      omega
/-- A string without the character 0 is a whole C string. -/
theorem cString_utf8 {s : List Char} (h : '\x00' ∉ s) : cString (utf8 s) = utf8 s := by
  refine List.takeWhile_eq_self_iff.mpr fun b hb => ?_
  rw [decide_eq_true_eq]
  intro heq
  rw [heq] at hb
  exact h ((byte_mem_utf8 (by decide)).mp hb)

/-! ## In quotes -/

section Quotes

variable {n : Nat} {parm rest : List Byte} {p : List (List Byte)}

theorem parseStep_plain {b : Byte} (h : b ≠ 0 ∧ b ≠ byte '"' ∧ b ≠ byte '\\')
    (hlen : parm.length < OPTION_PARM_SIZE) :
    parseStep n ⟨.readingQuotedParm, false, parm, p⟩ b =
      .next ⟨.readingQuotedParm, false, parm ++ [b], p⟩ := by
  obtain ⟨h0, hquote, hback⟩ := h
  have h0' : ¬ b = 0#8 := h0
  have hbyte : parseByte false b .readingQuotedParm = .read .readingQuotedParm (some b) := by
    simp [parseByte, hquote, outByte, h0']
  have hback' : ¬ ((!false) = true ∧ b = byte '\\' ∧
      ParseState.readingQuotedParm ≠ .readingSquotedParm) := fun hb => hback hb.2.1
  rw [parseStep, if_neg hback']
  simp only [hbyte]
  simp [storeByte, hlen]

theorem parseLoop_plain {bs : List Byte} (hbs : ∀ b ∈ bs, b ≠ 0 ∧ b ≠ byte '"' ∧ b ≠ byte '\\')
    (hlen : parm.length + bs.length ≤ OPTION_PARM_SIZE) :
    parseLoop n (bs ++ rest) ⟨.readingQuotedParm, false, parm, p⟩ =
      parseLoop n rest ⟨.readingQuotedParm, false, parm ++ bs, p⟩ := by
  induction bs generalizing parm with
  | nil => rw [List.nil_append, List.append_nil]
  | cons b bs ih =>
    rw [List.forall_mem_cons] at hbs
    rw [List.length_cons] at hlen
    rw [List.cons_append, parseLoop, parseStep_plain hbs.1 (by omega)]
    simp only
    rw [ih hbs.2 (by simp; omega), List.append_assoc, List.singleton_append]

/-- A backslash or a quote behind a backslash. -/
theorem parseLoop_backslash {b : Byte} (hb : b = byte '\\' ∨ b = byte '"')
    (hlen : parm.length < OPTION_PARM_SIZE) :
    parseLoop n (byte '\\' :: b :: rest) ⟨.readingQuotedParm, false, parm, p⟩ =
      parseLoop n rest ⟨.readingQuotedParm, false, parm ++ [b], p⟩ := by
  have hback : parseStep n ⟨.readingQuotedParm, false, parm, p⟩ (byte '\\') =
      .next ⟨.readingQuotedParm, true, parm, p⟩ := rfl
  have hbyte : parseByte true b .readingQuotedParm = .read .readingQuotedParm (some b) := by
    rcases hb with rfl | rfl <;> rfl
  have hstep : parseStep n ⟨.readingQuotedParm, true, parm, p⟩ b =
      .next ⟨.readingQuotedParm, false, parm ++ [b], p⟩ := by
    rw [parseStep, if_neg (by simp)]
    simp only [hbyte]
    rw [storeByte, if_neg, if_neg (by simpa using hlen)]
    intro h
    rcases hb with rfl | rfl
    · exact h.2 (Or.inl rfl)
    · exact h.2 (Or.inr (Or.inl rfl))
  rw [parseLoop, hback]
  simp only
  rw [parseLoop, hstep]

/-- The escape sequence of a line break is refused. -/
theorem parseLoop_break : parseLoop n (utf8 (escapeChar '\n') ++ rest)
    ⟨.readingQuotedParm, false, parm, p⟩ = none := rfl

theorem parseLoop_escapeChar {c : Char} (hnul : c ≠ '\x00') (hbreak : c ≠ '\n')
    (hlen : parm.length + (utf8 [c]).length ≤ OPTION_PARM_SIZE) :
    parseLoop n (utf8 (escapeChar c) ++ rest) ⟨.readingQuotedParm, false, parm, p⟩ =
      parseLoop n rest ⟨.readingQuotedParm, false, parm ++ utf8 [c], p⟩ := by
  by_cases hc : Escaped c
  · simp only [Escaped, List.mem_cons, List.not_mem_nil, or_false] at hc
    have hlt : parm.length < OPTION_PARM_SIZE := by
      have hone : 0 < (utf8 [c]).length := by
        rcases hc with rfl | rfl | rfl <;> decide
      omega
    rcases hc with rfl | rfl | rfl
    · exact parseLoop_backslash (Or.inl rfl) hlt
    · exact parseLoop_backslash (Or.inr rfl) hlt
    · exact absurd rfl hbreak
  · rw [escapeChar_of_not hc]
    refine parseLoop_plain (fun b hb => ?_) hlen
    have hchar : ∀ d : Char, d.toNat < 128 → b = byte d → d = c := fun d hd heq =>
      List.mem_singleton.mp ((byte_mem_utf8 hd).mp (heq ▸ hb))
    refine ⟨fun heq => hnul (hchar '\x00' (by decide) heq).symm, fun heq => ?_, fun heq => ?_⟩
    · obtain rfl := hchar '"' (by decide) heq
      exact hc (List.mem_cons_of_mem _ List.mem_cons_self)
    · obtain rfl := hchar '\\' (by decide) heq
      exact hc List.mem_cons_self

/-- In quotes the escaped text is read as the text. -/
theorem parseLoop_escaped {s : List Char} (hnul : '\x00' ∉ s) (hbreak : '\n' ∉ s)
    (hlen : parm.length + (utf8 s).length ≤ OPTION_PARM_SIZE) :
    parseLoop n (utf8 (s.flatMap escapeChar) ++ rest) ⟨.readingQuotedParm, false, parm, p⟩ =
      parseLoop n rest ⟨.readingQuotedParm, false, parm ++ utf8 s, p⟩ := by
  induction s generalizing parm with
  | nil => simp [utf8]
  | cons c s ih =>
    rw [List.mem_cons, not_or] at hnul hbreak
    rw [utf8_cons, List.length_append] at hlen
    rw [List.flatMap_cons, utf8_append, List.append_assoc, parseLoop_escapeChar (Ne.symm hnul.1) (Ne.symm hbreak.1) (by omega),
      ih hnul.2 hbreak.2 (by rw [List.length_append]; omega), utf8_cons c s, List.append_assoc]

end Quotes

/-! ## Without quotes -/

section Unquoted

variable {n : Nat} {line : List Byte} {c : Byte}

/-- The bytes that are in the parameters. -/
def stored (s : Parse) : Nat := (s.p.map List.length).sum + s.parm.length

theorem ne_zero_of_parseByte {backslash : Bool} {state state' : ParseState} {out : Byte}
    (h : parseByte backslash c state = .read state' (some out)) : c ≠ 0 := by
  intro heq
  subst heq
  cases state <;> cases backslash <;> cases h

/-- A byte is stored once at most, and the end of the string never is. -/
theorem stored_parseStep {s s' : Parse}
    (h : parseStep n s c = .next s' ∨ parseStep n s c = .break s') :
    stored s' ≤ stored s + 1 ∧ (c = 0 → stored s' ≤ stored s) := by
  unfold parseStep at h
  split at h
  · rcases h with h | h <;> cases h
    exact ⟨Nat.le_succ _, fun _ => le_rfl⟩
  · split at h
    · rcases h with h | h <;> cases h
      exact ⟨Nat.le_succ _, fun _ => le_rfl⟩
    · rcases h with h | h <;> cases h
      exact ⟨Nat.le_succ _, fun _ => le_rfl⟩
    next hout =>
      refine ⟨?_, fun h0 => absurd h0 (ne_zero_of_parseByte hout)⟩
      unfold storeByte at h
      split_ifs at h <;> rcases h with h | h <;> cases h
      simp only [stored, List.length_append, List.length_singleton]
      omega
    · have hdone : stored ⟨.initial, false, [], s.p ++ [s.parm]⟩ = stored s := by simp [stored]
      have hs' : s' = ⟨.initial, false, [], s.p ++ [s.parm]⟩ := by
        simp only at h
        split at h <;> rcases h with h | h <;> cases h <;> rfl
      rw [hs', hdone]
      exact ⟨Nat.le_succ _, fun _ => le_rfl⟩

theorem stored_parseLoop {s s' : Parse} (h : parseLoop n (line ++ [0]) s = some s') :
    stored s' ≤ stored s + line.length := by
  induction line generalizing s with
  | nil =>
    rw [List.nil_append, parseLoop] at h
    cases hstep : parseStep n s 0 with
    | next s₁ =>
      rw [hstep] at h
      cases h
      exact (stored_parseStep (Or.inl hstep)).2 rfl
    | «break» s₁ =>
      rw [hstep] at h
      cases h
      exact (stored_parseStep (Or.inr hstep)).2 rfl
    | error =>
      rw [hstep] at h
      cases h
  | cons c line ih =>
    rw [List.cons_append, parseLoop] at h
    rw [List.length_cons]
    cases hstep : parseStep n s c with
    | next s₁ =>
      rw [hstep] at h
      have hle := (stored_parseStep (Or.inl hstep)).1
      have := ih h
      omega
    | «break» s₁ =>
      rw [hstep] at h
      cases h
      have hle := (stored_parseStep (Or.inr hstep)).1
      omega
    | error =>
      rw [hstep] at h
      cases h

/-- Where too little was stored the line is not the word and the text. -/
theorem parse_line_ne_of_stored {word text : List Byte} {s : Parse}
    (h : stored s + line.length < word.length + text.length) :
    (match parseLoop n (line ++ [0]) s with
      | none => []
      | some s' => if s'.state = .initial then s'.p else []) ≠ [word, text] := by
  cases hloop : parseLoop n (line ++ [0]) s with
  | none => exact (List.cons_ne_nil _ _).symm
  | some s' =>
    simp only
    split_ifs
    · intro hp
      have hle := stored_parseLoop hloop
      rw [stored, hp] at hle
      simp at hle
      omega
    · exact (List.cons_ne_nil _ _).symm

end Unquoted

/-! ## The parameter -/

/-- The text is put into quotes and has no line break, or it is not, and has no white space and
no single quote in front, and is not empty. -/
def ReadBack (s : List Char) : Prop :=
  '\n' ∉ s ∧ (Quoted s ∨ s ≠ [] ∧ s.head? ≠ some '\'' ∧ ∀ c ∈ s, c ∉ ['\t', '\x0b', '\x0c', '\r'])

section Parameter

variable {word : List Byte} {s : List Char}

/-- What the parser makes of the parameter behind the word. -/
def readParameter (word text : List Byte) : List (List Byte) :=
  match parseLoop MAX_PARMS (text ++ [0]) ⟨.initial, false, [], [word]⟩ with
  | none => []
  | some s => if s.state = .initial then s.p else []

theorem quoted_text (s : List Char) : utf8 ('"' :: (s.flatMap escapeChar ++ ['"'])) ++ [0] =
    byte '"' :: (utf8 (s.flatMap escapeChar) ++ [byte '"', 0]) := by
  rw [utf8_cons, utf8_append, utf8_singleton (by decide), List.append_assoc, List.append_assoc]
  rfl

theorem readParameter_quoted (hnul : '\x00' ∉ s) (hbreak : '\n' ∉ s)
    (hlen : (utf8 s).length ≤ OPTION_PARM_SIZE) :
    readParameter word (utf8 ('"' :: (s.flatMap escapeChar ++ ['"']))) = [word, utf8 s] := by
  have hopen : parseStep MAX_PARMS ⟨.initial, false, [], [word]⟩ (byte '"') =
      .next ⟨.readingQuotedParm, false, [], [word]⟩ := rfl
  rw [readParameter, quoted_text, parseLoop, hopen]
  simp only
  rw [parseLoop_escaped hnul hbreak (by simpa using hlen)]
  rfl

/-- A line break is never read back. -/
theorem readParameter_break (hnul : '\x00' ∉ s) (hbreak : '\n' ∈ s)
    (hlen : (utf8 s).length ≤ OPTION_PARM_SIZE) :
    readParameter word (utf8 ('"' :: (s.flatMap escapeChar ++ ['"']))) = [] := by
  obtain ⟨before, after, rfl, hbefore⟩ := List.eq_append_cons_of_mem hbreak
  have hopen : parseStep MAX_PARMS ⟨.initial, false, [], [word]⟩ (byte '"') =
      .next ⟨.readingQuotedParm, false, [], [word]⟩ := rfl
  rw [utf8_append, List.length_append] at hlen
  rw [readParameter, quoted_text, parseLoop, hopen, List.flatMap_append, List.flatMap_cons,
    utf8_append, utf8_append, List.append_assoc, List.append_assoc]
  simp only
  rw [parseLoop_escaped (fun h => hnul (List.mem_append_left _ h)) hbefore (by simp; omega),
    parseLoop_break]

theorem space_iff : ∀ b : Byte, space b = true ↔
    b ∈ ['\x00', ' ', '\n', '\t', '\x0b', '\x0c', '\r'].map byte := by decide

/-- White space that is not in quotes. -/
theorem mem_of_space (hquoted : ¬ Quoted s) (hnul : '\x00' ∉ s) {b : Byte} (hb : b ∈ utf8 s)
    (hspace : space b = true) : ∃ c ∈ s, c ∈ ['\t', '\x0b', '\x0c', '\r'] := by
  have hnone : ∀ c ∈ ['\\', '"', '\n', ' ', '#', ';'], c ∉ s := fun c hc hs => hquoted ⟨c, hs, hc⟩
  obtain ⟨c, hc, rfl⟩ := List.mem_map.mp ((space_iff b).mp hspace)
  have hascii : c.toNat < 128 := by
    simp only [List.mem_cons, List.not_mem_nil, or_false] at hc
    rcases hc with rfl | rfl | rfl | rfl | rfl | rfl | rfl <;> decide
  have hs := (byte_mem_utf8 hascii).mp hb
  rw [List.mem_cons, List.mem_cons, List.mem_cons] at hc
  rcases hc with rfl | rfl | rfl | hc
  · exact absurd hs hnul
  · exact absurd hs (hnone _ (by decide))
  · exact absurd hs (hnone _ (by decide))
  · exact ⟨c, hs, hc⟩

/-- The bytes in front of the first white space are read as a parameter. -/
theorem parseLoop_unquoted (hquoted : ¬ Quoted s) (hhead : s.head? ≠ some '\'')
    {front rest line : List Byte} (hfront : utf8 s = front ++ rest) (hne : front ≠ [])
    (hspace : ∀ b ∈ front, space b = false) (hlen : front.length ≤ OPTION_PARM_SIZE) :
    parseLoop MAX_PARMS (front ++ line) ⟨.initial, false, [], [word]⟩ =
      parseLoop MAX_PARMS line ⟨.readingUnquotedParm, false, front, [word]⟩ := by
  have hnone : ∀ c : Char, c.toNat < 128 → c ∈ ['\\', '"', '\n', ' ', '#', ';'] →
      ∀ b ∈ front, b ≠ byte c := by
    intro c hascii hc b hb heq
    have hmem : byte c ∈ utf8 s := by
      rw [hfront, ← heq]
      exact List.mem_append_left _ hb
    exact hquoted ⟨c, (byte_mem_utf8 hascii).mp hmem, hc⟩
  cases front with
  | nil => exact absurd rfl hne
  | cons b front =>
    have hb := List.mem_cons_self (a := b) (l := front)
    have hquote : b ≠ byte '\'' := by
      intro heq
      cases s with
      | nil => cases hfront
      | cons c s =>
        rw [utf8_cons, heq, List.cons_append] at hfront
        have hmem : byte '\'' ∈ utf8 [c] := by
          cases hc : utf8 [c] with
          | nil => exact absurd hc (utf8_singleton_ne_nil c)
          | cons b' bs =>
            rw [hc, List.cons_append, List.cons.injEq] at hfront
            rw [hfront.1]
            exact List.mem_cons_self
        have hc := List.mem_singleton.mp ((byte_mem_utf8 (by decide)).mp hmem)
        exact hhead (congrArg some hc.symm)
    have hordinary : Ordinary b := ⟨hspace b hb,
      ⟨hnone '"' (by decide) (by decide) b hb, hquote⟩, hnone '\\' (by decide) (by decide) b hb,
      ⟨hnone ';' (by decide) (by decide) b hb, hnone '#' (by decide) (by decide) b hb⟩⟩
    rw [List.cons_append, parseLoop, parseStep_first hordinary]
    simp only
    rw [parseLoop_more]
    · rfl
    · intro c hc
      exact ⟨hspace c (List.mem_cons_of_mem _ hc),
        hnone '\\' (by decide) (by decide) c (List.mem_cons_of_mem _ hc)⟩
    · simpa [Nat.add_comm] using hlen

/-- The text is read back where no byte of it is white space, and the first one is no quote. -/
theorem readParameter_plain (hquoted : ¬ Quoted s) (hhead : s.head? ≠ some '\'') (hne : s ≠ [])
    (hspace : ∀ b ∈ utf8 s, space b = false) (hlen : (utf8 s).length ≤ OPTION_PARM_SIZE) :
    readParameter word (utf8 s) = [word, utf8 s] := by
  have hbytes : utf8 s ≠ [] := by
    cases s with
    | nil => exact absurd rfl hne
    | cons c s =>
      rw [utf8_cons]
      exact List.append_ne_nil_of_left_ne_nil (utf8_singleton_ne_nil c) _
  have hend : parseStep MAX_PARMS ⟨.readingUnquotedParm, false, utf8 s, [word]⟩ 0 =
      .next ⟨.initial, false, [], [word] ++ [utf8 s]⟩ :=
    parseStep_space (by decide) (by decide) (by simp [MAX_PARMS])
  rw [readParameter, parseLoop_unquoted hquoted hhead (List.append_nil _).symm hbytes hspace hlen,
    parseLoop, hend]
  rfl

/-- Behind a single quote in front, the quote is missing. -/
theorem readParameter_squote {t : List Char} :
    readParameter word (utf8 ('\'' :: t)) ≠ [word, utf8 ('\'' :: t)] := by
  have hopen : parseStep MAX_PARMS ⟨.initial, false, [], [word]⟩ (byte '\'') =
      .next ⟨.readingSquotedParm, false, [], [word]⟩ := rfl
  rw [utf8_cons, utf8_singleton (by decide), List.singleton_append, readParameter, List.cons_append,
    parseLoop, hopen]
  exact parse_line_ne_of_stored (by simp [stored])

/-- White space is missing. -/
theorem readParameter_space (hquoted : ¬ Quoted s) (hhead : s.head? ≠ some '\'')
    (hspace : ∃ b ∈ utf8 s, space b = true) (hlen : (utf8 s).length ≤ OPTION_PARM_SIZE) :
    readParameter word (utf8 s) ≠ [word, utf8 s] := by
  obtain ⟨front, rest, hsplit, hfront⟩ : ∃ front rest, utf8 s = front ++ rest ∧
      (∀ b ∈ front, space b = false) ∧ ∃ b ∈ rest.head?, space b = true := by
    refine ⟨(utf8 s).takeWhile (!space ·), (utf8 s).dropWhile (!space ·),
      (List.takeWhile_append_dropWhile ..).symm, fun b hb => ?_, ?_⟩
    · simpa using List.mem_takeWhile_imp hb
    · cases hdrop : (utf8 s).dropWhile (!space ·) with
      | nil =>
        obtain ⟨b, hb, hbspace⟩ := hspace
        have hnot := List.dropWhile_eq_nil_iff.mp hdrop b hb
        rw [hbspace] at hnot
        cases hnot
      | cons b rest =>
        have hfirst := List.head?_dropWhile_not (!space ·) (utf8 s)
        rw [hdrop] at hfirst
        exact ⟨b, rfl, by simpa using hfirst⟩
  obtain ⟨hfront, b, hb, hbspace⟩ := hfront
  obtain ⟨rest, rfl⟩ : ∃ rest', rest = b :: rest' := by
    cases rest with
    | nil => cases hb
    | cons b' rest => exact ⟨rest, by rw [Option.some.inj hb]⟩
  have hback : b ≠ byte '\\' := by
    intro heq
    rw [heq] at hbspace
    exact absurd hbspace (by decide)
  have hfrontLen := hlen
  rw [hsplit, List.length_append] at hfrontLen
  -- the loop stands behind the white space and has stored what is in front of it
  have hloop : ∃ s', parseLoop MAX_PARMS (utf8 s ++ [0]) ⟨.initial, false, [], [word]⟩ =
      parseLoop MAX_PARMS (rest ++ [0]) s' ∧ stored s' = word.length + front.length := by
    rw [hsplit, List.append_assoc]
    by_cases hnil : front = []
    · have hstep : parseStep MAX_PARMS ⟨.initial, false, [], [word]⟩ b =
          .next ⟨.initial, false, [], [word]⟩ := by
        simp [parseStep, parseByte, hbspace, hback]
      refine ⟨⟨.initial, false, [], [word]⟩, ?_, by simp [stored, hnil]⟩
      rw [hnil, List.nil_append, List.cons_append, parseLoop, hstep]
    · have hstep : parseStep MAX_PARMS ⟨.readingUnquotedParm, false, front, [word]⟩ b =
          .next ⟨.initial, false, [], [word] ++ [front]⟩ :=
        parseStep_space hbspace hback (by simp [MAX_PARMS])
      refine ⟨⟨.initial, false, [], [word] ++ [front]⟩, ?_, by simp [stored]⟩
      rw [parseLoop_unquoted hquoted hhead hsplit hnil hfront (by omega), List.cons_append,
        parseLoop, hstep]
  obtain ⟨s', hloop, hstored⟩ := hloop
  rw [readParameter, hloop]
  refine parse_line_ne_of_stored ?_
  rw [hstored, hsplit, List.length_append, List.length_cons]
  omega

theorem readParameter_unquoted (hquoted : ¬ Quoted s) (hnul : '\x00' ∉ s)
    (hlen : (utf8 s).length ≤ OPTION_PARM_SIZE) :
    readParameter word (utf8 s) = [word, utf8 s] ↔
      s ≠ [] ∧ s.head? ≠ some '\'' ∧ ∀ c ∈ s, c ∉ ['\t', '\x0b', '\x0c', '\r'] := by
  by_cases hnil : s = []
  · refine iff_of_false (fun h => ?_) fun h => h.1 hnil
    rw [hnil] at h
    cases h
  · by_cases hhead : s.head? = some '\''
    · obtain ⟨t, rfl⟩ := List.head?_eq_some_iff.mp hhead
      exact iff_of_false readParameter_squote fun h => h.2.1 rfl
    · by_cases hspace : ∃ b ∈ utf8 s, space b = true
      · refine iff_of_false (readParameter_space hquoted hhead hspace hlen) fun h => ?_
        obtain ⟨b, hb, hbspace⟩ := hspace
        obtain ⟨c, hc, hmem⟩ := mem_of_space hquoted hnul hb hbspace
        exact h.2.2 c hc hmem
      · have hnone : ∀ b ∈ utf8 s, space b = false := fun b hb =>
          Bool.eq_false_iff.mpr fun hb' => hspace ⟨b, hb, hb'⟩
        refine iff_of_true (readParameter_plain hquoted hhead hnil hnone hlen)
          ⟨hnil, hhead, fun c hc hmem => ?_⟩
        have hall : (['\t', '\x0b', '\x0c', '\r'].all fun c =>
            decide (c.toNat < 128) && space (byte c)) = true := by decide
        have hspaces := List.all_eq_true.mp hall c hmem
        rw [Bool.and_eq_true, decide_eq_true_eq] at hspaces
        exact hspace ⟨byte c, (byte_mem_utf8 hspaces.1).mpr hc, hspaces.2⟩

end Parameter

/-- For all texts up to the length of a parameter, behind all words: the line is read as the word
and the text exactly if the text is one that is read back. -/
theorem parse_line_escape {word : List Byte} (hne : word ≠ []) (hword : ∀ c ∈ word, Ordinary c)
    (hwordLen : word.length ≤ OPTION_PARM_SIZE) {s : List Char} (hnul : '\x00' ∉ s)
    (hlen : (utf8 s).length ≤ OPTION_PARM_SIZE) :
    parse_line MAX_PARMS (word ++ byte ' ' :: utf8 (openVpnEscape s)) = [word, utf8 s] ↔
      ReadBack s := by
  have hnul' : '\x00' ∉ openVpnEscape s := by
    rw [openVpnEscape_eq]
    split
    · intro h
      rw [List.mem_cons, List.mem_append, List.mem_singleton, List.mem_flatMap] at h
      rcases h with h | ⟨c, hc, hmem⟩ | h
      · exact absurd h (by decide)
      · by_cases hesc : Escaped c
        · simp only [Escaped, List.mem_cons, List.not_mem_nil, or_false] at hesc
          rcases hesc with rfl | rfl | rfl <;> exact absurd hmem (by decide)
        · rw [escapeChar_of_not hesc, List.mem_singleton] at hmem
          exact hnul (hmem ▸ hc)
      · exact absurd h (by decide)
    · exact hnul
  have hread : parse_line MAX_PARMS (word ++ byte ' ' :: utf8 (openVpnEscape s)) =
      readParameter word (utf8 (openVpnEscape s)) := by
    rw [parse_line_behind (by decide) hne hword hwordLen (by decide), cString_utf8 hnul']
    rfl
  rw [hread, openVpnEscape_eq, ReadBack]
  by_cases hquoted : Quoted s
  · rw [if_pos hquoted]
    by_cases hbreak : '\n' ∈ s
    · rw [readParameter_break hnul hbreak hlen]
      exact iff_of_false (List.cons_ne_nil _ _).symm fun h => h.1 hbreak
    · exact iff_of_true (readParameter_quoted hnul hbreak hlen) ⟨hbreak, Or.inl hquoted⟩
  · have hbreak : '\n' ∉ s := fun h => hquoted ⟨_, h, by decide⟩
    rw [if_neg hquoted, readParameter_unquoted hquoted hnul hlen]
    simp [hbreak, hquoted]

theorem parse_line_escape_example :
    parse_line MAX_PARMS ("username".toList.map byte ++
      byte ' ' :: utf8 (openVpnEscape "it's \"me\"\t".toList)) =
        ["username".toList.map byte, utf8 "it's \"me\"\t".toList] := by
  have hname : ("username".toList.map byte).all isNameByte = true := by decide
  have hne : "username".toList.map byte ≠ [] := by simp
  refine (parse_line_escape hne (fun c hc => ?_) (by decide) (by decide) (by decide)).mpr
    ⟨by decide, Or.inl (by decide)⟩
  exact ordinary_of_isNameByte (List.all_eq_true.mp hname c hc)

/-- A text with a line break makes no parameter, an empty one neither, and one with a tab two. -/
theorem not_read_back :
    parse_line MAX_PARMS ("password".toList.map byte ++ byte ' ' :: utf8 (openVpnEscape ['a', '\n'])) =
        [] ∧
      parse_line MAX_PARMS ("password".toList.map byte ++ byte ' ' :: utf8 (openVpnEscape [])) =
        ["password".toList.map byte] ∧
      parse_line MAX_PARMS ("password".toList.map byte ++
        byte ' ' :: utf8 (openVpnEscape ['a', '\t', 'b'])) =
          ["password".toList.map byte, utf8 ['a'], utf8 ['b']] := by
  decide

end ConfProfile.OpenVpn
