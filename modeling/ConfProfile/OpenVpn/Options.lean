import Mathlib.Data.List.Basic
import Mathlib.Data.BitVec

/-!
# Reading a configuration file (`options.c`)

`read_config_file` takes the file with `fgets`, a line at a time, but never more
than 255 bytes. `parse_line` splits a line into its parameters; the first of them
names the directive. A line that is just `<name>` opens a block, whose lines are
taken as they are up to one that starts with `</name>`.

`add_option` is left open, apart from the parameters that it is given. Where it does not
return, and at a line that `parse_line` reports (at level `M_USAGE`), the process exits.
-/

namespace ConfProfile.OpenVpn

abbrev Byte := BitVec 8

def byte (c : Char) : Byte := BitVec.ofNat 8 c.toNat

/-- `getBytes("UTF-8")`. -/
def utf8 (s : List Char) : List Byte :=
  s.flatMap fun c => (String.utf8EncodeChar c).map UInt8.toBitVec

def MAX_PARMS : Nat := 16
def OPTION_PARM_SIZE : Nat := 256
def OPTION_LINE_SIZE : Nat := 256
def INLINE_FILE_TAG : List Byte := utf8 "[[INLINE]]".toList

/-- What fits into the buffer of `read_inline_file`, in front of its zero. -/
def INLINE_FILE_SIZE : Nat := 9999

/-! ## `parse_line` -/

def isspace (c : Byte) : Bool := c = byte ' ' || (9 ≤ c.toNat && c.toNat ≤ 13)

def space (c : Byte) : Bool := c = 0 || isspace c

/-- `STATE_…`, without `STATE_DONE`, which lasts for no more than one byte. -/
inductive ParseState where
  | initial
  | readingQuotedParm
  | readingUnquotedParm
  | readingSquotedParm
  deriving DecidableEq, Repr

/-- The variables of the loop; the parameters so far are in `p`. -/
structure Parse where
  state : ParseState
  backslash : Bool
  parm : List Byte
  p : List (List Byte)
  deriving DecidableEq, Repr

/-- What becomes of a byte that is not taken as a backslash. -/
inductive ParseByte where
  /-- the rest is a comment -/
  | comment
  /-- the state, and the byte that belongs to the parameter -/
  | read (state : ParseState) (out : Option Byte)
  /-- the parameter is done -/
  | done
  deriving DecidableEq, Repr

/-- The end of the string does not belong to a parameter. -/
def outByte (c : Byte) : Option Byte := if c = 0 then none else some c

/-- The branches on the state. -/
def parseByte (backslash : Bool) (c : Byte) : ParseState → ParseByte
  | .initial =>
    if space c then .read .initial none
    else if c = byte ';' ∨ c = byte '#' then .comment
    else if !backslash ∧ c = byte '"' then .read .readingQuotedParm none
    else if !backslash ∧ c = byte '\'' then .read .readingSquotedParm none
    else .read .readingUnquotedParm (outByte c)
  | .readingUnquotedParm =>
    if !backslash ∧ space c then .done else .read .readingUnquotedParm (outByte c)
  | .readingQuotedParm =>
    if !backslash ∧ c = byte '"' then .done else .read .readingQuotedParm (outByte c)
  | .readingSquotedParm =>
    if c = byte '\'' then .done else .read .readingSquotedParm (outByte c)

/-- How the loop goes on behind a byte. -/
inductive ParseStep where
  | next (s : Parse)
  | break (s : Parse)
  | error
  deriving DecidableEq, Repr

/-- A byte of a parameter, with the check of its backslash and of the length. -/
def storeByte (s : Parse) (state : ParseState) (out : Byte) : ParseStep :=
  if s.backslash ∧ ¬ (out = byte '\\' ∨ out = byte '"' ∨ space out) then .error
  else if s.parm.length ≥ OPTION_PARM_SIZE then .error
  else .next { s with state, backslash := false, parm := s.parm ++ [out] }

/-- The body of the loop. -/
def parseStep (n : Nat) (s : Parse) (c : Byte) : ParseStep :=
  if !s.backslash ∧ c = byte '\\' ∧ s.state ≠ .readingSquotedParm then
    .next { s with backslash := true }
  else
    match parseByte s.backslash c s.state with
    | .comment => .break s
    | .read state none => .next { s with state, backslash := false }
    | .read state (some out) => storeByte s state out
    | .done =>
      let s' : Parse := ⟨.initial, false, [], s.p ++ [s.parm]⟩
      if s'.p.length ≥ n then .break s' else .next s'

/-- The loop, over the bytes up to the end of the string and that; `none` is an error. -/
def parseLoop (n : Nat) : List Byte → Parse → Option Parse
  | [], s => some s
  | c :: line, s =>
    match parseStep n s c with
    | .next s' => parseLoop n line s'
    | .break s' => some s'
    | .error => none

/-- A string in memory ends at its first zero. -/
def cString (line : List Byte) : List Byte := line.takeWhile (· ≠ 0)

/-- `parse_line`: the parameters, none also where it fails. -/
def parse_line (n : Nat) (line : List Byte) : List (List Byte) :=
  match parseLoop n (cString line ++ [0]) ⟨.initial, false, [], []⟩ with
  | none => []
  | some s => if s.state = .initial then s.p else []

/-- `parse_line` reports the line. -/
def misparsed (n : Nat) (line : List Byte) : Bool :=
  match parseLoop n (cString line ++ [0]) ⟨.initial, false, [], []⟩ with
  | none => true
  | some s => s.state ≠ .initial

/-! ## `read_config_file` -/

/-- The strings that `fgets` gives one after the other; `piece` is what it has so far. -/
def fgets (piece : List Byte) : List Byte → List (List Byte)
  | [] => if piece = [] then [] else [piece]
  | c :: file =>
    let piece := piece ++ [c]
    if c = byte '\n' ∨ piece.length + 1 = OPTION_LINE_SIZE then piece :: fgets [] file
    else fgets piece file

def bypass_doubledash (p : List Byte) : List Byte :=
  if p.length ≥ 3 ∧ [byte '-', byte '-'].isPrefixOf p then p.drop 2 else p

/-- The name and the closing tag of a line that opens a block (`check_inline_file`). -/
def check_inline_file : List (List Byte) → Option (List Byte × List Byte)
  | [arg] =>
    if arg.head? = some (byte '<') ∧ arg.getLast? = some (byte '>') then
      let name := arg.dropLast.drop 1
      some (name, byte '<' :: byte '/' :: (name ++ [byte '>']))
    else none
  | _ => none

/-- What a line asks for. -/
inductive LineRead where
  | misparsed
  | empty
  /-- for `add_option` -/
  | directive (name : List Byte) (p : List (List Byte))
  /-- for `read_inline_file` -/
  | inlineFile (name close_tag : List Byte)
  deriving DecidableEq, Repr

/-- The name of the directive, which a block has as well. -/
def LineRead.name? : LineRead → Option (List Byte)
  | .misparsed | .empty => none
  | .directive name _ | .inlineFile name _ => some name

def readLine (line : List Byte) : LineRead :=
  if misparsed MAX_PARMS line then .misparsed
  else
    match parse_line MAX_PARMS line with
    | [] => .empty
    | arg :: p =>
      match check_inline_file (bypass_doubledash arg :: p) with
      | some (name, close_tag) => .inlineFile name close_tag
      | none => .directive (bypass_doubledash arg) p

/-- Where `read_config_file` is, with the options that `add_option` has made so far. -/
inductive Reader (σ : Type) where
  /-- in front of a line -/
  | line (o : σ)
  /-- in `read_inline_file`, with what it has read -/
  | block (o : σ) (name close_tag content : List Byte)
  /-- the process has exited -/
  | exited

section Reader

variable {σ : Type} (add_option : σ → List (List Byte) → Option σ)

/-- Behind a call of `add_option`. -/
def added (o : σ) (p : List (List Byte)) : Reader σ :=
  match add_option o p with
  | some o => .line o
  | none => .exited

/-- One string from `fgets`: where the reader is behind it, and the name of a directive. That of a
block is given to `add_option` where the block ends, or the file. -/
def readPiece : Reader σ → List Byte → Reader σ × Option (List Byte)
  | .line o, line =>
    match readLine line with
    | .misparsed => (.exited, none)
    | .empty => (.line o, none)
    | .directive name p => (added add_option o (name :: p), some name)
    | .inlineFile name close_tag => (.block o name close_tag [], some name)
  | .block o name close_tag content, line =>
    if close_tag.isPrefixOf (cString line) then
      (added add_option o [name, INLINE_FILE_TAG, content], none)
    else (.block o name close_tag ((content ++ cString line).take INLINE_FILE_SIZE), none)
  | .exited, _ => (.exited, none)

/-- Where the reader is behind some strings. -/
def readerAfter (r : Reader σ) (lines : List (List Byte)) : Reader σ :=
  lines.foldl (fun r line => (readPiece add_option r line).1) r

/-- The names of their directives. -/
def directives : Reader σ → List (List Byte) → List (List Byte)
  | _, [] => []
  | r, line :: lines =>
    (readPiece add_option r line).2.toList ++ directives (readPiece add_option r line).1 lines

/-- A byte order mark in front of the first line is left out. -/
def skipMark : List (List Byte) → List (List Byte)
  | [] => []
  | line :: lines => (if [0xEF, 0xBB, 0xBF].isPrefixOf line then line.drop 3 else line) :: lines

/-- `read_config_file`: the names of the directives of a file. -/
def read_config_file (o : σ) (file : List Byte) : List (List Byte) :=
  directives add_option (.line o) (skipMark (fgets [] file))

end Reader

/-- Behind a line that is reported nothing is read. -/
example : read_config_file (fun o _ => some o) () (utf8 "remote a\n\"b\nup /x\n".toList) =
    [utf8 "remote".toList] := by decide

/-! ## Lines -/

section Lines

variable {line word rest s : List Byte} {c : Byte}

/-- Bytes that neither break a line nor fill it are part of it. -/
theorem fgets_word (piece : List Byte) (hbreak : byte '\n' ∉ word)
    (hlen : piece.length + word.length + 1 < OPTION_LINE_SIZE) (s : List Byte) :
    fgets piece (word ++ s) = fgets (piece ++ word) s := by
  induction word generalizing piece with
  | nil => rw [List.nil_append, List.append_nil]
  | cons c word ih =>
    rw [List.mem_cons, not_or] at hbreak
    rw [List.length_cons] at hlen
    have hlen' : (piece ++ [c]).length = piece.length + 1 := by simp
    have hcut : ¬ (c = byte '\n' ∨ (piece ++ [c]).length + 1 = OPTION_LINE_SIZE) := by
      intro h
      obtain rfl | hfull := h
      · exact hbreak.1 rfl
      · omega
    rw [List.cons_append, fgets]
    simp only [if_neg hcut]
    rw [ih (piece ++ [c]) hbreak.2 (by omega), List.append_assoc, List.singleton_append]

/-- A line is taken with its break. -/
theorem fgets_line (hline : byte '\n' ∉ line ∧ line.length + 1 < OPTION_LINE_SIZE) (s : List Byte) :
    fgets [] (line ++ byte '\n' :: s) = (line ++ [byte '\n']) :: fgets [] s := by
  rw [fgets_word [] hline.1 (by simpa using hline.2), List.nil_append, fgets]
  exact if_pos (Or.inl rfl)

/-- Behind a line break a new line begins. -/
theorem fgets_append (piece : List Byte) (hs : s.getLast? = some (byte '\n')) (rest : List Byte) :
    fgets piece (s ++ rest) = fgets piece s ++ fgets [] rest := by
  induction s generalizing piece with
  | nil => cases hs
  | cons c s ih =>
    rw [List.cons_append, fgets, fgets]
    cases s with
    | nil =>
      obtain rfl : c = byte '\n' := Option.some.inj hs
      simp [fgets]
    | cons c' s =>
      have hs' : (c' :: s).getLast? = some (byte '\n') := by rwa [List.getLast?_cons_cons] at hs
      split
      · rw [ih [] hs', List.cons_append]
      · rw [ih _ hs']

/-- The first string begins with what `fgets` has and gets first. -/
theorem fgets_head (piece : List Byte) (c : Byte) (s : List Byte) :
    ∃ line lines, fgets piece (c :: s) = (piece ++ c :: line) :: lines := by
  induction s generalizing piece c with
  | nil =>
    refine ⟨[], [], ?_⟩
    rw [fgets]
    simp only [fgets]
    split
    · rfl
    · simp
  | cons c' s ih =>
    rw [fgets]
    split
    · exact ⟨[], _, rfl⟩
    · obtain ⟨line, lines, h⟩ := ih (piece ++ [c]) c'
      exact ⟨c' :: line, lines, by rw [h, List.append_assoc]; rfl⟩

/-- A short line with its break, or as many bytes of a line as the buffer takes. -/
inductive WholeLine : List Byte → Prop where
  | short {line : List Byte} (hline : byte '\n' ∉ line ∧ line.length + 1 < OPTION_LINE_SIZE) :
      WholeLine (line ++ [byte '\n'])
  | full {line : List Byte} (hbreak : byte '\n' ∉ line)
      (hlen : line.length + 1 = OPTION_LINE_SIZE) : WholeLine line

/-- A line begins behind these bytes. -/
inductive LineBegins : List Byte → Prop where
  | start : LineBegins []
  | behind {front line : List Byte} (h : LineBegins front) (hline : WholeLine line) :
      LineBegins (front ++ line)

theorem fgets_whole (hline : WholeLine line) (s : List Byte) :
    fgets [] (line ++ s) = line :: fgets [] s := by
  cases hline with
  | short hline =>
    rw [List.append_assoc]
    exact fgets_line hline s
  | full hbreak hlen =>
    obtain ⟨front, c, rfl⟩ : ∃ front c, line = front ++ [c] := by
      refine ⟨_, _, (List.dropLast_append_getLast ?_).symm⟩
      rintro rfl
      exact absurd hlen (by decide)
    have hfront : byte '\n' ∉ front := fun h => hbreak (List.mem_append_left _ h)
    rw [List.append_assoc, List.singleton_append, fgets_word [] hfront, List.nil_append, fgets]
    · exact if_pos (Or.inr hlen)
    · rw [List.length_append] at hlen
      simp only [List.length_nil, List.length_singleton] at hlen ⊢
      omega

theorem LineBegins.append {front back : List Byte} (h : LineBegins front)
    (hback : LineBegins back) : LineBegins (front ++ back) := by
  induction hback with
  | start => rwa [List.append_nil]
  | behind _ hline ih =>
    rw [← List.append_assoc]
    exact ih.behind hline

/-- The strings in front of such a place and those behind it. -/
theorem LineBegins.fgets_append {front : List Byte} (h : LineBegins front) (back : List Byte) :
    fgets [] (front ++ back) = fgets [] front ++ fgets [] back := by
  induction h generalizing back with
  | start => rfl
  | @behind front line _ hline ih =>
    have hone := fgets_whole hline []
    rw [List.append_nil] at hone
    rw [List.append_assoc, ih, ih, fgets_whole hline, hone, List.append_assoc]
    rfl

/-- The first string is whole, or it is the last one. -/
theorem fgets_cons {piece : List Byte} {lines : List (List Byte)} (hbreak : byte '\n' ∉ piece)
    (hlen : piece.length + 1 < OPTION_LINE_SIZE) (h : fgets piece s = line :: lines) :
    lines = [] ∨ WholeLine line ∧ ∃ back, piece ++ s = line ++ back ∧ fgets [] back = lines := by
  induction s generalizing piece with
  | nil =>
    rw [fgets] at h
    split at h
    · cases h
    · cases h
      exact Or.inl rfl
  | cons c s ih =>
    rw [fgets] at h
    have hsize : (piece ++ [c]).length = piece.length + 1 := by simp
    have hmove : piece ++ c :: s = piece ++ [c] ++ s := by simp
    by_cases hc : c = byte '\n'
    · rw [if_pos (Or.inl hc)] at h
      obtain ⟨rfl, rfl⟩ := List.cons.inj h
      subst hc
      exact Or.inr ⟨.short ⟨hbreak, hlen⟩, s, hmove, rfl⟩
    · have hbreak' : byte '\n' ∉ piece ++ [c] := by
        simp only [List.mem_append, List.mem_singleton, not_or]
        exact ⟨hbreak, Ne.symm hc⟩
      by_cases hfull : (piece ++ [c]).length + 1 = OPTION_LINE_SIZE
      · rw [if_pos (Or.inr hfull)] at h
        obtain ⟨rfl, rfl⟩ := List.cons.inj h
        exact Or.inr ⟨.full hbreak' hfull, s, hmove, rfl⟩
      · rw [if_neg (not_or.mpr ⟨hc, hfull⟩)] at h
        rw [hmove]
        exact ih hbreak' (by omega) h

/-- In front of each string there is a place where a line begins. -/
theorem exists_lineBegins {lines lines' : List (List Byte)}
    (h : fgets [] s = lines ++ line :: lines') : ∃ front back, s = front ++ back ∧
      LineBegins front ∧ fgets [] front = lines ∧ fgets [] back = line :: lines' := by
  induction lines generalizing s with
  | nil => exact ⟨[], s, rfl, .start, rfl, h⟩
  | cons first lines ih =>
    rcases fgets_cons List.not_mem_nil (by decide) h with hnil | ⟨hfirst, rest, hs, hrest⟩
    · exact absurd hnil (by simp)
    · obtain ⟨front, back, rfl, hfront, rfl, hback⟩ := ih hrest
      refine ⟨first ++ front, back, ?_, (LineBegins.start.behind hfirst).append hfront,
        fgets_whole hfirst front, hback⟩
      rw [List.append_assoc]
      exact hs

end Lines

/-! ## The first word of a line -/

section Word

variable {n : Nat} {word rest : List Byte} {c : Byte}

/-- A byte that is taken as it is, in a parameter without quotes and in front of one. -/
structure Ordinary (c : Byte) : Prop where
  space : space c = false
  quote : c ≠ byte '"' ∧ c ≠ byte '\''
  backslash : c ≠ byte '\\'
  comment : c ≠ byte ';' ∧ c ≠ byte '#'

theorem Ordinary.ne_zero (h : Ordinary c) : c ≠ 0 := by
  intro heq
  obtain rfl := heq
  exact absurd h.space (by decide)

/-- The first byte of a parameter. -/
theorem parseStep_first (h : Ordinary c) (p : List (List Byte)) :
    parseStep n ⟨.initial, false, [], p⟩ c = .next ⟨.readingUnquotedParm, false, [c], p⟩ := by
  have hbyte : parseByte false c .initial = .read .readingUnquotedParm (some c) := by
    have h0 : ¬ c = 0#8 := h.ne_zero
    simp [parseByte, h.space, h.comment, h.quote, outByte, h0]
  have hback : ¬ ((!false) = true ∧ c = byte '\\' ∧ ParseState.initial ≠ .readingSquotedParm) :=
    fun hb => h.backslash hb.2.1
  rw [parseStep, if_neg hback]
  simp only [hbyte]
  simp [storeByte, OPTION_PARM_SIZE]

/-- A further byte. Behind the first one, quotes and comment signs are taken as they are. -/
theorem parseStep_more (hspace : space c = false) (hback : c ≠ byte '\\') {parm : List Byte}
    (hlen : parm.length < OPTION_PARM_SIZE) (p : List (List Byte)) :
    parseStep n ⟨.readingUnquotedParm, false, parm, p⟩ c =
      .next ⟨.readingUnquotedParm, false, parm ++ [c], p⟩ := by
  have h0 : ¬ c = 0#8 := by
    intro heq
    rw [heq] at hspace
    exact absurd hspace (by decide)
  have hbyte : parseByte false c .readingUnquotedParm = .read .readingUnquotedParm (some c) := by
    simp [parseByte, hspace, outByte, h0]
  have hback' : ¬ ((!false) = true ∧ c = byte '\\' ∧
      ParseState.readingUnquotedParm ≠ .readingSquotedParm) := fun hb => hback hb.2.1
  rw [parseStep, if_neg hback']
  simp only [hbyte]
  simp [storeByte, hlen]

/-- The space behind it. -/
theorem parseStep_space (hc : space c = true) (hback : c ≠ byte '\\') {parm : List Byte}
    {p : List (List Byte)} (hp : p.length + 1 < n) :
    parseStep n ⟨.readingUnquotedParm, false, parm, p⟩ c =
      .next ⟨.initial, false, [], p ++ [parm]⟩ := by
  have hbyte : parseByte false c .readingUnquotedParm = .done := by simp [parseByte, hc]
  have hback' : ¬ ((!false) = true ∧ c = byte '\\' ∧
      ParseState.readingUnquotedParm ≠ .readingSquotedParm) := fun hb => hback hb.2.1
  rw [parseStep, if_neg hback']
  simp only [hbyte]
  simp [hp]

theorem parseLoop_more (hword : ∀ c ∈ word, space c = false ∧ c ≠ byte '\\') {parm : List Byte}
    (hlen : parm.length + word.length ≤ OPTION_PARM_SIZE) (p : List (List Byte))
    (rest : List Byte) : parseLoop n (word ++ rest) ⟨.readingUnquotedParm, false, parm, p⟩ =
      parseLoop n rest ⟨.readingUnquotedParm, false, parm ++ word, p⟩ := by
  induction word generalizing parm with
  | nil => rw [List.nil_append, List.append_nil]
  | cons c word ih =>
    rw [List.length_cons] at hlen
    obtain ⟨hspace, hback⟩ := hword c List.mem_cons_self
    rw [List.cons_append, parseLoop, parseStep_more hspace hback (by omega)]
    simp only
    rw [ih (fun c hc => hword c (List.mem_cons_of_mem _ hc)) (by simp; omega), List.append_assoc,
      List.singleton_append]

/-- The loop only adds parameters. -/
theorem parseStep_keeps {s s' : Parse}
    (h : parseStep n s c = .next s' ∨ parseStep n s c = .break s') : s.p <+: s'.p := by
  unfold parseStep at h
  split at h
  · rcases h with h | h <;> cases h
    exact List.prefix_rfl
  · split at h
    · rcases h with h | h <;> cases h
      exact List.prefix_rfl
    · rcases h with h | h <;> cases h
      exact List.prefix_rfl
    · unfold storeByte at h
      split_ifs at h <;> rcases h with h | h <;> cases h
      exact List.prefix_rfl
    · simp only at h
      split at h <;> rcases h with h | h <;> cases h <;> exact List.prefix_append _ _

theorem parseLoop_keeps {line : List Byte} {s s' : Parse} (h : parseLoop n line s = some s') :
    s.p <+: s'.p := by
  induction line generalizing s with
  | nil =>
    cases h
    exact List.prefix_rfl
  | cons c line ih =>
    rw [parseLoop] at h
    cases hstep : parseStep n s c with
    | next s₁ =>
      rw [hstep] at h
      exact (parseStep_keeps (Or.inl hstep)).trans (ih h)
    | «break» s₁ =>
      rw [hstep] at h
      cases h
      exact parseStep_keeps (Or.inr hstep)
    | error =>
      rw [hstep] at h
      cases h

/-- The loop behind a word at the begin of a line. -/
theorem parseLoop_behind (hn : 1 < n) (hne : word ≠ []) (hword : ∀ c ∈ word, Ordinary c)
    (hlen : word.length ≤ OPTION_PARM_SIZE) (hc : isspace c = true) (rest : List Byte) :
    parseLoop n (cString (word ++ c :: rest) ++ [0]) ⟨.initial, false, [], []⟩ =
      parseLoop n (cString rest ++ [0]) ⟨.initial, false, [], [word]⟩ := by
  have hc0 : c ≠ 0 := by
    intro heq
    obtain rfl := heq
    exact absurd hc (by decide)
  have hback : c ≠ byte '\\' := by
    intro heq
    obtain rfl := heq
    exact absurd hc (by decide)
  have hspace : space c = true := by rw [space, hc, Bool.or_true]
  have hstring : cString (word ++ c :: rest) ++ [0] = word ++ c :: (cString rest ++ [0]) := by
    rw [cString, List.takeWhile_append_of_pos (fun c hc => by simpa using (hword c hc).ne_zero),
      List.takeWhile_cons_of_pos (by simpa using hc0), List.append_assoc, List.cons_append]
    rfl
  rw [hstring]
  cases word with
  | nil => exact absurd rfl hne
  | cons c₁ word =>
    have hmore : ∀ c ∈ word, space c = false ∧ c ≠ byte '\\' := fun c hc =>
      ⟨(hword c (List.mem_cons_of_mem _ hc)).space, (hword c (List.mem_cons_of_mem _ hc)).backslash⟩
    rw [List.cons_append, parseLoop, parseStep_first (hword c₁ List.mem_cons_self)]
    simp only
    rw [parseLoop_more hmore
      (by simp only [List.length_cons, List.length_nil] at hlen ⊢; omega), parseLoop,
      parseStep_space hspace hback (by simpa using hn)]
    rfl

/-- A line that begins with a word has it as the only parameter behind the word. -/
theorem parse_line_behind (hn : 1 < n) (hne : word ≠ []) (hword : ∀ c ∈ word, Ordinary c)
    (hlen : word.length ≤ OPTION_PARM_SIZE) (hc : isspace c = true) (rest : List Byte) :
    parse_line n (word ++ c :: rest) =
      match parseLoop n (cString rest ++ [0]) ⟨.initial, false, [], [word]⟩ with
      | none => []
      | some s => if s.state = .initial then s.p else [] := by
  rw [parse_line, parseLoop_behind hn hne hword hlen hc]

/-- A line that begins with a word has it as its first parameter, or is reported. -/
theorem parse_line_word (hn : 1 < n) (hne : word ≠ []) (hword : ∀ c ∈ word, Ordinary c)
    (hlen : word.length ≤ OPTION_PARM_SIZE) (hc : isspace c = true) (rest : List Byte) :
    misparsed n (word ++ c :: rest) = true ∨ misparsed n (word ++ c :: rest) = false ∧
      ∃ p, parse_line n (word ++ c :: rest) = word :: p := by
  rw [misparsed, parse_line, parseLoop_behind hn hne hword hlen hc]
  cases hrest : parseLoop n (cString rest ++ [0]) ⟨.initial, false, [], [word]⟩ with
  | none => exact Or.inl rfl
  | some s =>
    obtain ⟨p, hp⟩ : [word] <+: s.p := parseLoop_keeps hrest
    by_cases hstate : s.state = .initial
    · exact Or.inr ⟨by simp [hstate], p, by simp [hstate, ← hp]⟩
    · exact Or.inl (by simp [hstate])

end Word

/-! ## Lines with a plain name -/

/-- A lower case or upper case letter, a digit, a hyphen or an underscore. -/
def isNameByte (c : Byte) : Bool :=
  (97 ≤ c.toNat && c.toNat ≤ 122) || (65 ≤ c.toNat && c.toNat ≤ 90) ||
    (48 ≤ c.toNat && c.toNat ≤ 57) || c = 45 || c = 95

/-- A plain name: letters, digits, hyphens and underscores, no hyphen in front. -/
def PlainName (name : List Byte) : Prop :=
  name ≠ [] ∧ (∀ c ∈ name, isNameByte c = true) ∧ name.head? ≠ some (byte '-')

instance (name : List Byte) : Decidable (PlainName name) := inferInstanceAs (Decidable (_ ∧ _ ∧ _))

section Plain

variable {word : List Byte} {c : Byte}

theorem utf8_append (s t : List Char) : utf8 (s ++ t) = utf8 s ++ utf8 t := List.flatMap_append

theorem utf8_ascii {s : List Char} (h : ∀ c ∈ s, c.toNat < 128) : utf8 s = s.map byte := by
  induction s with
  | nil => rfl
  | cons c s ih =>
    rw [List.forall_mem_cons] at h
    have hc : (String.utf8EncodeChar c).map UInt8.toBitVec = [byte c] := by
      have hle : c.val.toNat ≤ 0x7f := Nat.le_of_lt_succ h.1
      rw [String.utf8EncodeChar]
      simp only [if_pos hle]
      rfl
    rw [utf8, List.flatMap_cons, hc, ← utf8, ih h.2]
    rfl

theorem plainName_utf8 {s : List Char} (hne : s ≠ [])
    (hs : ∀ c ∈ s, c.toNat < 128 ∧ isNameByte (byte c) = true)
    (hhead : s.head?.map byte ≠ some (byte '-')) : PlainName (utf8 s) := by
  rw [utf8_ascii fun c hc => (hs c hc).1]
  refine ⟨fun h => hne (List.map_eq_nil_iff.mp h), fun b hb => ?_, ?_⟩
  · obtain ⟨c, hc, rfl⟩ := List.mem_map.mp hb
    exact (hs c hc).2
  · rwa [List.head?_map]

theorem ordinary_of_isNameByte (h : isNameByte c = true) : Ordinary c := by
  have key : ∀ c : Byte, isNameByte c = true → space c = false ∧ (c ≠ byte '"' ∧ c ≠ byte '\'') ∧
      c ≠ byte '\\' ∧ (c ≠ byte ';' ∧ c ≠ byte '#') := by decide
  obtain ⟨hspace, hquote, hback, hcomment⟩ := key c h
  exact ⟨hspace, hquote, hback, hcomment⟩

/-- A plain name is not taken apart: the line opens no block. -/
theorem readLine_word (hword : PlainName word) (hlen : word.length ≤ OPTION_PARM_SIZE)
    (hc : isspace c = true) (rest : List Byte) : readLine (word ++ c :: rest) = .misparsed ∨
      ∃ p, readLine (word ++ c :: rest) = .directive word p := by
  obtain ⟨hne, hbytes, hhyphen⟩ := hword
  have hdash : bypass_doubledash word = word := by
    refine if_neg fun h => hhyphen ?_
    cases word with
    | nil => exact absurd rfl hne
    | cons c₁ word =>
      have h₁ : (byte '-' == c₁) = true := (Bool.and_eq_true_iff.mp h.2).1
      rw [List.head?_cons, ← eq_of_beq h₁]
  have hinline (p : List (List Byte)) : check_inline_file (word :: p) = none := by
    cases p with
    | cons arg p => rfl
    | nil =>
      refine if_neg fun h => ?_
      have hlt : byte '<' ∈ word := List.mem_of_mem_head? h.1
      exact absurd (hbytes _ hlt) (by decide)
  rcases parse_line_word (n := MAX_PARMS) (by decide) hne
    (fun c hc => ordinary_of_isNameByte (hbytes c hc)) hlen hc rest with h | ⟨hparsed, p, h⟩
  · left
    rw [readLine, if_pos h]
  · right
    refine ⟨p, ?_⟩
    rw [readLine, if_neg (by rw [hparsed]; exact Bool.false_ne_true), h]
    simp only [hdash, hinline]

end Plain

/-! ## The reader -/

section Reader

variable {σ : Type} {add_option : σ → List (List Byte) → Option σ} {r : Reader σ} {o : σ}
  {line name : List Byte} {lines : List (List Byte)}

theorem directives_append (r : Reader σ) (lines lines' : List (List Byte)) :
    directives add_option r (lines ++ lines') = directives add_option r lines ++
      directives add_option (readerAfter add_option r lines) lines' := by
  induction lines generalizing r with
  | nil => rfl
  | cons line lines ih =>
    rw [List.cons_append, directives, directives, ih, List.append_assoc]
    rfl

theorem readerAfter_append (r : Reader σ) (lines lines' : List (List Byte)) :
    readerAfter add_option r (lines ++ lines') =
      readerAfter add_option (readerAfter add_option r lines) lines' :=
  List.foldl_append

/-- A string has a name where the reader is in front of a line. -/
theorem readPiece_name : (readPiece add_option r line).2 = some name ↔
    ∃ o, r = .line o ∧ (readLine line).name? = some name := by
  cases r with
  | line o =>
    rw [readPiece]
    cases readLine line <;> simp [LineRead.name?]
  | block o name' close_tag content =>
    rw [readPiece]
    split_ifs <;> simp
  | exited => simp [readPiece]

/-- The names of a file are those of the lines that the reader comes to. -/
theorem mem_directives : name ∈ directives add_option r lines ↔ ∃ before line after o,
    lines = before ++ line :: after ∧ readerAfter add_option r before = .line o ∧
      (readLine line).name? = some name := by
  induction lines generalizing r with
  | nil => simp [directives]
  | cons line lines ih =>
    rw [directives, List.mem_append, Option.mem_toList, readPiece_name, ih]
    constructor
    · intro h
      rcases h with ⟨o, rfl, hname⟩ | ⟨before, line', after, o, rfl, hafter, hname⟩
      · exact ⟨[], line, lines, o, rfl, rfl, hname⟩
      · exact ⟨line :: before, line', after, o, rfl, hafter, hname⟩
    · intro h
      obtain ⟨before, line', after, o, heq, hafter, hname⟩ := h
      cases before with
      | nil =>
        cases heq
        exact Or.inl ⟨o, hafter, hname⟩
      | cons line'' before =>
        cases heq
        exact Or.inr ⟨before, line', after, o, rfl, hafter, hname⟩

/-- No block is open. -/
def Reader.Outside : Reader σ → Prop
  | .line _ | .exited => True
  | .block _ _ _ _ => False

theorem outside_added (o : σ) (p : List (List Byte)) : (added add_option o p).Outside := by
  rw [added]
  cases add_option o p <;> trivial

/-- A line with a plain name leaves no block behind, and has no other name. -/
theorem directives_word {word : List Byte} {c : Byte} (hword : PlainName word)
    (hlen : word.length ≤ OPTION_PARM_SIZE) (hc : isspace c = true) (rest : List Byte)
    (hr : r.Outside) :
    (readPiece add_option r (word ++ c :: rest)).1.Outside ∧
      ∀ name ∈ (readPiece add_option r (word ++ c :: rest)).2, name = word := by
  cases r with
  | block o name close_tag content => exact False.elim hr
  | exited => exact ⟨trivial, fun name h => by cases h⟩
  | line o =>
    rcases readLine_word hword hlen hc rest with h | ⟨p, h⟩
    · rw [readPiece, h]
      exact ⟨trivial, fun name h => by cases h⟩
    · rw [readPiece, h]
      exact ⟨outside_added _ _, fun name h => (Option.some.inj h).symm⟩

/-! ## Blocks -/

/-- A closing tag begins as `check_inline_file` writes it. -/
def Reader.ClosingTag : Reader σ → Prop
  | .block _ _ close_tag _ => [byte '<', byte '/'] <+: close_tag
  | .line _ | .exited => True

theorem Reader.Outside.closingTag (hr : r.Outside) : r.ClosingTag := by
  cases r with
  | block o name close_tag content => exact False.elim hr
  | line | exited => trivial

theorem readLine_closingTag {close_tag : List Byte}
    (h : readLine line = .inlineFile name close_tag) : [byte '<', byte '/'] <+: close_tag := by
  unfold readLine at h
  split at h
  · cases h
  · split at h
    · cases h
    · split at h
      · next hinline =>
        cases h
        unfold check_inline_file at hinline
        split at hinline
        · split_ifs at hinline
          cases hinline
          exact ⟨_, rfl⟩
        · cases hinline
      · cases h

theorem Reader.ClosingTag.readPiece (hr : r.ClosingTag) (line : List Byte) :
    (OpenVpn.readPiece add_option r line).1.ClosingTag := by
  cases r with
  | exited => trivial
  | block o name close_tag content =>
    rw [OpenVpn.readPiece]
    split_ifs
    · exact (outside_added _ _).closingTag
    · exact hr
  | line o =>
    rw [OpenVpn.readPiece]
    cases hread : readLine line with
    | misparsed | empty => trivial
    | directive name p => exact (outside_added _ _).closingTag
    | inlineFile name close_tag => exact readLine_closingTag hread

theorem Reader.ClosingTag.readerAfter (hr : r.ClosingTag) (lines : List (List Byte)) :
    (OpenVpn.readerAfter add_option r lines).ClosingTag := by
  induction lines generalizing r with
  | nil => exact hr
  | cons line lines ih => exact ih (hr.readPiece line)

/-- Only a line that begins as a closing tag ends a block. -/
theorem readPiece_inside {close_tag content : List Byte}
    (htag : [byte '<', byte '/'] <+: close_tag) (hline : ¬ [byte '<', byte '/'] <+: line) :
    ∃ content', readPiece add_option (.block o name close_tag content) line =
      (.block o name close_tag content', none) := by
  have hend : ¬ close_tag.isPrefixOf (cString line) = true := by
    rw [List.isPrefixOf_iff_prefix]
    exact fun hpre => hline ((htag.trans hpre).trans (List.takeWhile_prefix _))
  rw [readPiece, if_neg hend]
  exact ⟨_, rfl⟩

/-- Lines that do not end a block are read by it, and so is the line behind them. -/
theorem readerAfter_inside {close_tag : List Byte} (htag : [byte '<', byte '/'] <+: close_tag)
    (hlines : ∀ line ∈ lines, ¬ [byte '<', byte '/'] <+: line) (content last : List Byte) :
    (∃ content', readerAfter add_option (.block o name close_tag content) lines =
      .block o name close_tag content') ∧
    directives add_option (.block o name close_tag content) (lines ++ [last]) = [] := by
  induction lines generalizing content with
  | nil =>
    refine ⟨⟨content, rfl⟩, ?_⟩
    rw [List.nil_append, directives, directives, List.append_nil, readPiece]
    split_ifs <;> rfl
  | cons line lines ih =>
    have hinside : ∃ content', readPiece add_option (.block o name close_tag content) line =
        (.block o name close_tag content', none) :=
      readPiece_inside htag (hlines line List.mem_cons_self)
    obtain ⟨content', hread⟩ := hinside
    obtain ⟨hafter, hnone⟩ := ih (fun line hl => hlines line (List.mem_cons_of_mem _ hl)) content'
    rw [List.cons_append, directives, readerAfter, List.foldl_cons, hread]
    exact ⟨hafter, hnone⟩

end Reader

end ConfProfile.OpenVpn
