import ConfProfile.OpenVpn.Chain
import ConfProfile.OpenVpn.Options

/-!
# The configuration of a tunnel (`OpenVpnTunnel.buildConfig`)

The options of a profile are written a line each, the two with a PEM text as
blocks. Nothing is escaped, so that a value can break its line or end its block.

The first line of an option names the option, and the lines that `buildConfig`
adds itself are never read as anything else. What remains are the lines that begin
within the values, as far as the reader comes to them outside of a block:
`directives_allowed_iff` says that the file has only its own directives exactly if these
have none of another name, and `contained_of_tidy` that there are none where each value
keeps to its line or block.
-/

namespace ConfProfile.OpenVpn

/-! ## `buildConfig` -/

/-- A value of `mOptions`: null, a string, or another object with its `String.valueOf`. -/
inductive OptionValue where
  | null
  | string (s : String)
  | other (valueOf : String)
  deriving DecidableEq, Repr

/-- What `append` writes of a value. -/
def OptionValue.text : OptionValue → List Char
  | .null => "null".toList
  | .string s => s.toList
  | .other valueOf => valueOf.toList

/-- The keys whose values are written as blocks. -/
def blockKeys : List String := ["ca", "tls-auth"]

/-- What is written of the value of a block; `none` is a `ClassCastException`. -/
def blockText : OptionValue → Option (List Char)
  | .null => some "null".toList
  | .string s => some (validateRfc7468Chain s.toList)
  | .other _ => none

/-- What the loop over the options writes of an entry. -/
def optionText (e : String × OptionValue) : Option (List Char) :=
  if e.1 ∈ blockKeys then
    (blockText e.2).map fun text => '<' :: (e.1.toList ++ ">\n".toList) ++ text ++
      ("\n</".toList ++ e.1.toList ++ ">".toList) ++ ['\n']
  else
    some (e.1.toList ++ (if e.2 = .string "NOARGS" then [] else ' ' :: e.2.text) ++ ['\n'])

/-- The bytes of a line are no break of it, and `fgets` takes it whole. -/
def IsLine (line : List Byte) : Prop :=
  byte '\n' ∉ line ∧ line.length + 1 < OPTION_LINE_SIZE

instance (line : List Byte) : Decidable (IsLine line) := inferInstanceAs (Decidable (_ ∧ _))

/-- The path of the management socket, below the cache directory of the application: it is
short and without line breaks. -/
structure SocketPath where
  path : List Char
  isLine : IsLine (utf8 ("management ".toList ++ path ++ " unix".toList))

/-- What `PEMWriter` writes: lines of base64 and the two markers. -/
structure PemText where
  lines : List (List Char)
  isLine : ∀ line ∈ lines, IsLine (utf8 line)
  noTag : ∀ line ∈ lines, (utf8 line).head? ≠ some (byte '<')

/-- The text of the lines. -/
def linesText (lines : List (List Char)) : List Char := lines.flatMap fun line => line ++ ['\n']

/-- What is written in front of the options. -/
def headerLines (socket : SocketPath) (debug : Bool) : List (List Char) :=
  ["management ".toList ++ socket.path ++ " unix".toList,
    "management-client".toList, "management-query-passwords".toList, "management-hold".toList,
    "management-hold".toList, "machine-readable-output".toList,
    if debug then "verb 6".toList else "verb 4".toList]

/-- A block with a text of `PEMWriter`. -/
def pemLines (name : String) (pem : PemText) : List (List Char) :=
  ('<' :: (name.toList ++ ['>'])) :: (pem.lines ++ ['<' :: '/' :: (name.toList ++ ['>'])])

def pemText (name : String) (pem : PemText) : List Char := linesText (pemLines name pem)

/-- What is written behind the options: the certificate and the key, as far as the
certificate manager has them. -/
def credentialsText (certs : Option PemText) (privKey : Option PemText) : List Char :=
  match certs, privKey with
  | none, _ => []
  | some cert, none => pemText "cert" cert
  | some cert, some key => pemText "cert" cert ++ pemText "key" key

/-- `buildConfig`. -/
def buildConfig (socket : SocketPath) (debug : Bool) (options : List (String × OptionValue))
    (certs privKey : Option PemText) : Option (List Char) :=
  (options.mapM optionText).map fun texts =>
    linesText (headerLines socket debug) ++ texts.flatten ++ credentialsText certs privKey

def socketInCache : SocketPath where
  path := "/data/data/no.infoss.confprofile/cache/ovpnmgmt-1".toList
  isLine := by decide

/-! ## What may be read -/

/-- The names of the directives that `buildConfig` adds itself. -/
def fixedNames : List String :=
  ["management", "management-client", "management-query-passwords", "management-hold",
    "machine-readable-output", "verb", "cert", "key"]

/-- The name of a directive of the file: a key of the options, or a fixed name. -/
def Allowed (options : List (String × OptionValue)) (name : List Byte) : Prop :=
  ∃ key ∈ options.map Prod.fst ++ fixedNames, name = utf8 key.toList

/-- What is written of an entry, in bytes. -/
def optionBytes (e : String × OptionValue) : List Byte := utf8 ((optionText e).getD [])

/-- The lines of an entry, as `fgets` takes them. -/
def optionLines (e : String × OptionValue) : List (List Byte) := fgets [] (optionBytes e)

/-- The key of an entry fits into a line. -/
def KeyFits (e : String × OptionValue) : Prop :=
  (utf8 e.1.toList).length + 1 < OPTION_LINE_SIZE

/-- What is written of an entry has `front` in front of a line, behind a line break or behind as
many bytes as `fgets` takes, and the line is not the one that its key fits into. -/
structure ValueLine (e : String × OptionValue) (front back : List Byte) : Prop where
  written : optionBytes e = front ++ back
  begins : LineBegins front
  notKey : front = [] → ¬ KeyFits e

/-- The name that the first line of a text has. -/
def firstName (text : List Byte) : Option (List Byte) :=
  (fgets [] text).head?.bind fun line => (readLine line).name?

/-- A line that begins within a value has a key or a fixed name in front, or no name, if the
reader comes to it outside of a block; `start` is where it is in front of the options. -/
def Contained {σ : Type} (add_option : σ → List (List Byte) → Option σ) (start : Reader σ)
    (options : List (String × OptionValue)) : Prop :=
  ∀ before e after front back o name, options = before ++ e :: after → ValueLine e front back →
    readerAfter add_option start (before.flatMap optionLines ++ fgets [] front) = .line o →
      firstName back = some name → Allowed options name

/-- The strings of `fgets` for some short lines. -/
def stringsOf (lines : List (List Char)) : List (List Byte) :=
  lines.map fun line => utf8 line ++ [byte '\n']

/-! ## The lines of the file -/

section FileLines

variable {lines : List (List Char)} {e : String × OptionValue} {line name : List Byte}
  {tail : List (List Byte)}

/-- Short lines are taken one by one. -/
theorem fgets_linesText (hlines : ∀ line ∈ lines, IsLine (utf8 line)) (s : List Byte) :
    fgets [] (utf8 (linesText lines) ++ s) = stringsOf lines ++ fgets [] s := by
  induction lines with
  | nil => rfl
  | cons line lines ih =>
    have hcons : utf8 (linesText (line :: lines)) ++ s =
        utf8 line ++ byte '\n' :: (utf8 (linesText lines) ++ s) := by
      rw [linesText, List.flatMap_cons, ← linesText, utf8_append, utf8_append, List.append_assoc,
        List.append_assoc]
      rfl
    rw [hcons, fgets_line (hlines line List.mem_cons_self),
      ih fun line hl => hlines line (List.mem_cons_of_mem _ hl)]
    rfl

/-- What is written of an entry ends its line. -/
theorem optionText_getLast {text : List Char} (h : optionText e = some text) :
    ∃ text', text = text' ++ ['\n'] := by
  unfold optionText at h
  split at h
  · obtain ⟨_, _, rfl⟩ := Option.map_eq_some_iff.mp h
    exact ⟨_, rfl⟩
  · cases h
    exact ⟨_, rfl⟩

/-- The options are taken one by one. -/
theorem fgets_options {options : List (String × OptionValue)} {texts : List (List Char)}
    (h : options.mapM optionText = some texts) (s : List Byte) :
    fgets [] (utf8 texts.flatten ++ s) = options.flatMap optionLines ++ fgets [] s := by
  induction options generalizing texts with
  | nil =>
    obtain rfl := Option.some.inj h
    rfl
  | cons e options ih =>
    simp only [List.mapM_cons, Option.bind_eq_bind, Option.bind_eq_some_iff] at h
    obtain ⟨text, htext, texts', htexts', h⟩ := h
    obtain rfl := Option.some.inj h
    obtain ⟨text', rfl⟩ := optionText_getLast htext
    have hlast : (utf8 (text' ++ ['\n'])).getLast? = some (byte '\n') := by
      rw [utf8_append]
      exact List.getLast?_concat
    rw [List.flatten_cons, utf8_append, List.append_assoc, fgets_append [] hlast, ih htexts',
      List.flatMap_cons, optionLines, optionBytes, htext, List.append_assoc]
    rfl

/-- A configuration is built only if each entry can be written. -/
theorem optionText_isSome {options : List (String × OptionValue)} {texts : List (List Char)}
    (h : options.mapM optionText = some texts) : ∀ e ∈ options, (optionText e).isSome := by
  induction options generalizing texts with
  | nil => exact fun e he => absurd he List.not_mem_nil
  | cons e options ih =>
    simp only [List.mapM_cons, Option.bind_eq_bind, Option.bind_eq_some_iff] at h
    obtain ⟨text, htext, texts', htexts', _⟩ := h
    rw [List.forall_mem_cons]
    exact ⟨Option.isSome_of_eq_some htext, ih htexts'⟩

/-- Behind the key of a plain entry there is a space or the end of the line. -/
theorem optionBytes_plain (hkey : e.1 ∉ blockKeys) : ∃ c rest, isspace c = true ∧
    optionBytes e = utf8 e.1.toList ++ c :: rest := by
  rw [optionBytes, optionText, if_neg hkey, Option.getD_some, List.append_assoc, utf8_append]
  split
  · exact ⟨byte '\n', [], rfl, rfl⟩
  · exact ⟨byte ' ', utf8 (e.2.text ++ ['\n']), rfl, rfl⟩

/-- The line with the key of a plain entry. -/
theorem firstLine_plain (hkey : e.1 ∉ blockKeys) (hname : PlainName (utf8 e.1.toList))
    (hfits : KeyFits e) (hlines : optionLines e = line :: tail) :
    (utf8 e.1.toList).length ≤ OPTION_PARM_SIZE ∧
      ∃ c rest, isspace c = true ∧ line = utf8 e.1.toList ++ c :: rest := by
  obtain ⟨c, s, hc, htext⟩ := optionBytes_plain hkey
  have hbreak : byte '\n' ∉ utf8 e.1.toList := by
    intro h
    exact absurd (hname.2.1 _ h) (by decide)
  obtain ⟨rest, lines, hhead⟩ := fgets_head (utf8 e.1.toList) c s
  have hsize : (utf8 e.1.toList).length + 1 < OPTION_LINE_SIZE := hfits
  refine ⟨?_, c, rest, hc, ?_⟩
  · simp only [OPTION_LINE_SIZE, OPTION_PARM_SIZE] at hsize ⊢
    omega
  · rw [optionLines, htext, fgets_word [] hbreak (by simpa using hsize), List.nil_append,
      hhead] at hlines
    exact (List.cons.inj hlines).1.symm

/-- The line that opens a block. -/
def openLine (key : String) : List Byte := utf8 ('<' :: (key.toList ++ ['>'])) ++ [byte '\n']

/-- The tag that ends it. -/
def closeTag (key : String) : List Byte := utf8 ('<' :: '/' :: (key.toList ++ ['>']))

theorem blockKeys_lines : ∀ key ∈ blockKeys,
    IsLine (utf8 ('<' :: (key.toList ++ ['>']))) ∧ IsLine (closeTag key) ∧
      readLine (openLine key) = .inlineFile (utf8 key.toList) (closeTag key) ∧
      (closeTag key).isPrefixOf (cString (closeTag key ++ [byte '\n'])) = true := by decide

theorem firstLine_block (hkey : e.1 ∈ blockKeys) (hsome : (optionText e).isSome)
    (hlines : optionLines e = line :: tail) : line = openLine e.1 := by
  obtain ⟨hline, -⟩ := blockKeys_lines e.1 hkey
  obtain ⟨body, hbody⟩ : ∃ body, blockText e.2 = some body := by
    rw [optionText, if_pos hkey, Option.isSome_map] at hsome
    exact Option.isSome_iff_exists.mp hsome
  have htext : ∃ s, optionBytes e = utf8 ('<' :: (e.1.toList ++ ['>'])) ++ byte '\n' :: s := by
    rw [optionBytes, optionText, if_pos hkey, hbody, Option.map_some, Option.getD_some,
      List.append_assoc, List.append_assoc, utf8_append,
      show ">\n".toList = ['>'] ++ ['\n'] from rfl, ← List.append_assoc, ← List.cons_append,
      utf8_append, List.append_assoc]
    exact ⟨_, rfl⟩
  obtain ⟨s, htext⟩ := htext
  rw [optionLines, htext, fgets_line hline] at hlines
  exact (List.cons.inj hlines).1.symm

/-- The first line of an entry has no other name than its key. -/
theorem name_firstLine (hname : PlainName (utf8 e.1.toList)) (hsome : (optionText e).isSome)
    (hfits : KeyFits e) (hlines : optionLines e = line :: tail)
    (hread : (readLine line).name? = some name) : name = utf8 e.1.toList := by
  by_cases hkey : e.1 ∈ blockKeys
  · rw [firstLine_block hkey hsome hlines, (blockKeys_lines e.1 hkey).2.2.1] at hread
    exact (Option.some.inj hread).symm
  · obtain ⟨hlen, c, rest, hc, rfl⟩ := firstLine_plain hkey hname hfits hlines
    rcases readLine_word hname hlen hc rest with h | ⟨p, h⟩
    · rw [h] at hread
      cases hread
    · rw [h] at hread
      exact (Option.some.inj hread).symm

end FileLines

/-! ## What `buildConfig` adds itself -/

section Fixed

variable {σ : Type} {add_option : σ → List (List Byte) → Option σ} {r : Reader σ}

theorem fixedNames_plain : ∀ name ∈ fixedNames, PlainName (utf8 name.toList) ∧
    (utf8 name.toList).length ≤ OPTION_PARM_SIZE := by
  -- a test of the list, since all of `Char` may be searched for a `∀ c ∈ _`
  have hchars : ∀ name ∈ fixedNames, name.toList ≠ [] ∧
      name.toList.all (fun c => decide (c.toNat < 128) && isNameByte (byte c)) = true ∧
      name.toList.head?.map byte ≠ some (byte '-') := by decide
  have hlen : ∀ name ∈ fixedNames, (utf8 name.toList).length ≤ OPTION_PARM_SIZE := by decide
  intro name hname
  obtain ⟨hne, hall, hhead⟩ := hchars name hname
  have hascii : ∀ c ∈ name.toList, c.toNat < 128 ∧ isNameByte (byte c) = true := by
    simpa using hall
  exact ⟨plainName_utf8 hne hascii hhead, hlen name hname⟩

/-- Lines that begin with a fixed name. -/
theorem directives_fixed {lines : List (List Byte)} (hlines : ∀ line ∈ lines,
      ∃ name ∈ fixedNames, ∃ c rest, isspace c = true ∧ line = utf8 name.toList ++ c :: rest)
    (hr : r.Outside) :
    (readerAfter add_option r lines).Outside ∧
      ∀ name ∈ directives add_option r lines, ∃ fixed ∈ fixedNames, name = utf8 fixed.toList := by
  induction lines generalizing r with
  | nil => exact ⟨hr, fun name h => absurd h List.not_mem_nil⟩
  | cons line lines ih =>
    obtain ⟨fixed, hfixed, c, rest, hc, rfl⟩ := hlines line List.mem_cons_self
    obtain ⟨hplain, hlen⟩ := fixedNames_plain fixed hfixed
    have hword : (readPiece add_option r (utf8 fixed.toList ++ c :: rest)).1.Outside ∧
        ∀ name ∈ (readPiece add_option r (utf8 fixed.toList ++ c :: rest)).2,
          name = utf8 fixed.toList := directives_word hplain hlen hc rest hr
    obtain ⟨hout, hfirst⟩ := hword
    obtain ⟨hafter, hdir⟩ := ih (fun line hl => hlines line (List.mem_cons_of_mem _ hl)) hout
    refine ⟨hafter, fun name h => ?_⟩
    rw [directives, List.mem_append, Option.mem_toList] at h
    rcases h with h | h
    · exact ⟨fixed, hfixed, hfirst name h⟩
    · exact hdir name h

/-- The header is read as it is written. -/
theorem headerLines_isLine (socket : SocketPath) (debug : Bool) :
    ∀ line ∈ headerLines socket debug, IsLine (utf8 line) := by
  have hverb : IsLine (utf8 (if debug then "verb 6".toList else "verb 4".toList)) := by
    cases debug <;> decide
  simp only [headerLines, List.forall_mem_cons]
  exact ⟨socket.isLine, by decide, by decide, by decide, by decide, by decide, hverb,
    fun line h => absurd h List.not_mem_nil⟩

theorem directives_header (add_option : σ → List (List Byte) → Option σ) (socket : SocketPath) (debug : Bool)
    (hr : r.Outside) :
    (readerAfter add_option r (stringsOf (headerLines socket debug))).Outside ∧
      ∀ name ∈ directives add_option r (stringsOf (headerLines socket debug)),
        ∃ fixed ∈ fixedNames, name = utf8 fixed.toList := by
  refine directives_fixed ?_ hr
  simp only [stringsOf, headerLines, List.map_cons, List.map_nil, List.forall_mem_cons]
  refine ⟨⟨"management", by decide, byte ' ',
      utf8 (socket.path ++ " unix".toList) ++ [byte '\n'], rfl, ?_⟩,
    ⟨"management-client", by decide, byte '\n', [], rfl, rfl⟩,
    ⟨"management-query-passwords", by decide, byte '\n', [], rfl, rfl⟩,
    ⟨"management-hold", by decide, byte '\n', [], rfl, rfl⟩,
    ⟨"management-hold", by decide, byte '\n', [], rfl, rfl⟩,
    ⟨"machine-readable-output", by decide, byte '\n', [], rfl, rfl⟩, ?_,
    fun line h => absurd h List.not_mem_nil⟩
  · rw [List.append_assoc, utf8_append]
    rfl
  · cases debug with
    | true => exact ⟨"verb", by decide, byte ' ', [byte '6', byte '\n'], rfl, rfl⟩
    | false => exact ⟨"verb", by decide, byte ' ', [byte '4', byte '\n'], rfl, rfl⟩

/-- The names of the two blocks behind the options. -/
def pemNames : List String := ["cert", "key"]

theorem pemNames_lines : ∀ name ∈ pemNames,
    IsLine (utf8 ('<' :: (name.toList ++ ['>']))) ∧ IsLine (closeTag name) ∧
      readLine (openLine name) = .inlineFile (utf8 name.toList) (closeTag name) ∧
      ¬ [byte '<', byte '/'] <+: openLine name ∧ name ∈ fixedNames := by decide

theorem slash_closeTag (name : String) : [byte '<', byte '/'] <+: closeTag name :=
  ⟨utf8 (name.toList ++ ['>']), rfl⟩

theorem fgets_pemText {name : String} (hname : name ∈ pemNames) (pem : PemText) (s : List Byte) :
    fgets [] (utf8 (pemText name pem) ++ s) = stringsOf (pemLines name pem) ++ fgets [] s := by
  obtain ⟨hopen, hclose, -⟩ := pemNames_lines name hname
  refine fgets_linesText ?_ s
  rw [pemLines, List.forall_mem_cons, List.forall_mem_append, List.forall_mem_singleton]
  exact ⟨hopen, pem.isLine, hclose⟩

theorem PemText.noTag_strings (pem : PemText) :
    ∀ line ∈ stringsOf pem.lines, ¬ [byte '<', byte '/'] <+: line := by
  intro line hline hpre
  obtain ⟨text, htext, rfl⟩ := List.mem_map.mp hline
  have hhead : (utf8 text ++ [byte '\n']).head? = some (byte '<') := by
    obtain ⟨rest, hrest⟩ := hpre
    rw [← hrest]
    rfl
  cases hbytes : utf8 text with
  | nil =>
    rw [hbytes] at hhead
    exact absurd hhead (by decide)
  | cons c bytes =>
    rw [hbytes] at hhead
    exact pem.noTag text htext (by rw [hbytes]; exact hhead)

/-- Nothing is read where the process has exited. -/
theorem directives_exited (lines : List (List Byte)) :
    directives add_option .exited lines = [] := by
  induction lines with
  | nil => rfl
  | cons line lines ih => exact ih

/-- A block of `PEMWriter` has no name but its own, whatever block it is met in. -/
theorem directives_pem {name : String} (hname : name ∈ pemNames) (pem : PemText)
    (hr : r.ClosingTag) :
    ∀ found ∈ directives add_option r (stringsOf (pemLines name pem)),
      found = utf8 name.toList := by
  obtain ⟨-, -, hopen, hnotag, -⟩ := pemNames_lines name hname
  have hsplit : stringsOf (pemLines name pem) =
      openLine name :: (stringsOf pem.lines ++ [closeTag name ++ [byte '\n']]) := by
    rw [stringsOf, pemLines, List.map_cons, List.map_append]
    rfl
  intro found h
  rw [hsplit, directives] at h
  cases r with
  | exited =>
    rw [readPiece, directives_exited] at h
    cases h
  | block o name' close_tag content =>
    have hinside : ∃ content', readPiece add_option (.block o name' close_tag content)
        (openLine name) = (.block o name' close_tag content', none) := readPiece_inside hr hnotag
    obtain ⟨content', hread⟩ := hinside
    rw [hread, (readerAfter_inside hr pem.noTag_strings _ _).2] at h
    cases h
  | line o =>
    rw [readPiece, hopen, (readerAfter_inside (slash_closeTag name) pem.noTag_strings _ _).2] at h
    exact List.mem_singleton.mp h

theorem directives_credentials (add_option : σ → List (List Byte) → Option σ)
    (certs privKey : Option PemText) (hr : r.ClosingTag) :
    ∀ name ∈ directives add_option r (fgets [] (utf8 (credentialsText certs privKey))),
      ∃ fixed ∈ fixedNames, name = utf8 fixed.toList := by
  have hcert : "cert" ∈ pemNames := by decide
  have hkey : "key" ∈ pemNames := by decide
  have hcertFixed : "cert" ∈ fixedNames := by decide
  have hkeyFixed : "key" ∈ fixedNames := by decide
  intro name hname
  cases certs with
  | none => cases hname
  | some cert =>
    cases privKey with
    | none =>
      rw [credentialsText, ← List.append_nil (utf8 _), fgets_pemText hcert cert [],
        fgets, if_pos rfl, List.append_nil] at hname
      exact ⟨"cert", hcertFixed, directives_pem hcert cert hr name hname⟩
    | some key =>
      rw [credentialsText, utf8_append, fgets_pemText hcert cert,
        ← List.append_nil (utf8 (pemText "key" key)), fgets_pemText hkey key [], fgets, if_pos rfl,
        List.append_nil, directives_append] at hname
      rcases List.mem_append.mp hname with hname | hname
      · exact ⟨"cert", hcertFixed, directives_pem hcert cert hr name hname⟩
      · exact ⟨"key", hkeyFixed, directives_pem hkey key (hr.readerAfter _) name hname⟩

end Fixed

/-! ## What the values add -/

section Values

variable {σ : Type} {add_option : σ → List (List Byte) → Option σ} {start : Reader σ}
  {options : List (String × OptionValue)}

/-- A place in some lists one after the other is a place in one of them. -/
theorem flatMap_eq_append_cons {α β : Type} {f : α → List β} {l : List α} {xs ys : List β} {y : β}
    (h : l.flatMap f = xs ++ y :: ys) : ∃ before a after us vs, l = before ++ a :: after ∧
      f a = us ++ y :: vs ∧ xs = before.flatMap f ++ us := by
  induction l generalizing xs with
  | nil => simp at h
  | cons a l ih =>
    rw [List.flatMap_cons] at h
    have hrest {zs : List β} (hzs : l.flatMap f = zs ++ y :: ys) (hxs : xs = f a ++ zs) :
        ∃ before b after us vs, a :: l = before ++ b :: after ∧ f b = us ++ y :: vs ∧
          xs = before.flatMap f ++ us := by
      obtain ⟨before, b, after, us, vs, rfl, hb, rfl⟩ := ih hzs
      refine ⟨a :: before, b, after, us, vs, rfl, hb, ?_⟩
      rw [hxs, List.flatMap_cons, List.append_assoc]
    rcases List.append_eq_append_iff.mp h with ⟨zs, hxs, hzs⟩ | ⟨zs, hfa, hzs⟩
    · exact hrest hzs hxs
    · cases zs with
      | nil => exact @hrest [] hzs.symm (by rw [hfa, List.append_nil, List.append_nil])
      | cons z zs =>
        obtain ⟨rfl, -⟩ := List.cons.inj hzs
        exact ⟨[], a, l, xs, zs, rfl, hfa, rfl⟩

/-- The places where a line begins, by the strings of `fgets`. -/
theorem contained_iff : Contained add_option start options ↔
    ∀ before e after lines line tail o name, options = before ++ e :: after →
      optionLines e = lines ++ line :: tail → (lines = [] → ¬ KeyFits e) →
        readerAfter add_option start (before.flatMap optionLines ++ lines) = .line o →
          (readLine line).name? = some name → Allowed options name := by
  constructor
  · intro h before e after lines line tail o name hoptions hlines hkey hread hname
    obtain ⟨front, back, hwritten, hbegins, rfl, hback⟩ := exists_lineBegins hlines
    have hvalue : ValueLine e front back :=
      ⟨hwritten, hbegins, fun hnil => hkey (by rw [hnil]; rfl)⟩
    have hfirst : firstName back = some name := by
      rw [firstName, hback]
      exact hname
    exact h before e after front back o name hoptions hvalue hread hfirst
  · intro h before e after front back o name hoptions hvalue hread hname
    obtain ⟨line, hline, hname⟩ := Option.bind_eq_some_iff.mp hname
    obtain ⟨tail, htail⟩ := List.head?_eq_some_iff.mp hline
    have hlines : optionLines e = fgets [] front ++ line :: tail := by
      rw [optionLines, hvalue.written, hvalue.begins.fgets_append, htail]
    refine h before e after (fgets [] front) line tail o name hoptions hlines ?_ hread hname
    intro hnil
    refine hvalue.notKey ?_
    cases front with
    | nil => rfl
    | cons c front =>
      obtain ⟨line', lines', hhead⟩ := fgets_head [] c front
      rw [hhead] at hnil
      cases hnil

/-- Apart from their keys, the options have the names of the lines in their values. -/
theorem directives_options (hnames : ∀ e ∈ options, PlainName (utf8 e.1.toList))
    (hsome : ∀ e ∈ options, (optionText e).isSome) :
    (∀ name ∈ directives add_option start (options.flatMap optionLines), Allowed options name) ↔
      Contained add_option start options := by
  rw [contained_iff]
  constructor
  · intro h before e after lines line tail o name hoptions hlines _ hread hname
    refine h name (mem_directives.mpr ⟨_, line, tail ++ after.flatMap optionLines, o, ?_, hread,
      hname⟩)
    rw [hoptions, List.flatMap_append, List.flatMap_cons, hlines]
    simp
  · intro h name hname
    obtain ⟨_, line, _, o, hsplit, hread, hname⟩ := mem_directives.mp hname
    obtain ⟨before, e, after, lines, tail, hoptions, hlines, rfl⟩ := flatMap_eq_append_cons hsplit
    by_cases hkey : lines = [] → ¬ KeyFits e
    · exact h before e after lines line tail o name hoptions hlines hkey hread hname
    · -- the line of the key
      obtain ⟨rfl, hfits⟩ := Classical.not_imp.mp hkey
      have he : e ∈ options := by
        rw [hoptions]
        exact List.mem_append_right _ List.mem_cons_self
      rw [name_firstLine (hnames e he) (hsome e he) (not_not.mp hfits) hlines hname]
      exact ⟨e.1, List.mem_append_left _ (List.mem_map_of_mem he), rfl⟩

/-- The strings of the whole file. -/
theorem read_config_file_eq {socket : SocketPath} {debug : Bool} {certs privKey : Option PemText}
    {text : List Char} (add_option : σ → List (List Byte) → Option σ) (o : σ)
    (h : buildConfig socket debug options certs privKey = some text) :
    (∀ e ∈ options, (optionText e).isSome) ∧
      read_config_file add_option o (utf8 text) =
        directives add_option (.line o) (stringsOf (headerLines socket debug)) ++
          (directives add_option (readerAfter add_option (.line o)
              (stringsOf (headerLines socket debug))) (options.flatMap optionLines) ++
            directives add_option (readerAfter add_option (readerAfter add_option (.line o)
                (stringsOf (headerLines socket debug))) (options.flatMap optionLines))
              (fgets [] (utf8 (credentialsText certs privKey)))) := by
  obtain ⟨texts, htexts, rfl⟩ := Option.map_eq_some_iff.mp h
  constructor
  · exact optionText_isSome htexts
  · have hmark : skipMark (stringsOf (headerLines socket debug) ++
          (options.flatMap optionLines ++ fgets [] (utf8 (credentialsText certs privKey)))) =
        stringsOf (headerLines socket debug) ++
          (options.flatMap optionLines ++ fgets [] (utf8 (credentialsText certs privKey))) := rfl
    rw [read_config_file, List.append_assoc, utf8_append, utf8_append,
      fgets_linesText (headerLines_isLine socket debug), fgets_options htexts, hmark,
      directives_append, directives_append]

/-- **The directives of the file**: they are the keys of the options and the fixed names
exactly if no line that begins within a value has another name, whatever `add_option` does. -/
theorem directives_allowed_iff {socket : SocketPath} {debug : Bool}
    {certs privKey : Option PemText} {text : List Char}
    (add_option : σ → List (List Byte) → Option σ) (o : σ)
    (hnames : ∀ e ∈ options, PlainName (utf8 e.1.toList))
    (h : buildConfig socket debug options certs privKey = some text) :
    (∀ name ∈ read_config_file add_option o (utf8 text), Allowed options name) ↔
      Contained add_option
        (readerAfter add_option (.line o) (stringsOf (headerLines socket debug))) options := by
  obtain ⟨hsome, hread⟩ := read_config_file_eq add_option o h
  have hfixed {names : List (List Byte)}
      (hnames : ∀ name ∈ names, ∃ fixed ∈ fixedNames, name = utf8 fixed.toList) :
      ∀ name ∈ names, Allowed options name := by
    intro name hname
    obtain ⟨fixed, hmem, heq⟩ := hnames name hname
    exact ⟨fixed, List.mem_append_right _ hmem, heq⟩
  have hstart : (Reader.line o).Outside := trivial
  obtain ⟨hout, hheader⟩ := directives_header add_option socket debug hstart
  have htag : (readerAfter add_option (readerAfter add_option (.line o)
      (stringsOf (headerLines socket debug))) (options.flatMap optionLines)).ClosingTag :=
    hout.closingTag.readerAfter _
  have hcredentials := hfixed (directives_credentials add_option certs privKey htag)
  rw [hread, ← directives_options hnames hsome]
  simp only [List.forall_mem_append]
  exact ⟨fun h => h.2.1, fun h => ⟨hfixed hheader, h, hcredentials⟩⟩

theorem directives_allowed_iff_remote :
    (∀ name ∈ read_config_file (fun o _ => some o) () (utf8 (linesText
        (headerLines socketInCache false) ++ "client\nremote a\nverb 9\n".toList)),
      Allowed [("client", .string "NOARGS"), ("remote", .string "a\nverb 9")] name) ↔
      Contained (fun o _ => some o)
        (readerAfter (fun o _ => some o) (.line ()) (stringsOf (headerLines socketInCache false)))
        [("client", .string "NOARGS"), ("remote", .string "a\nverb 9")] :=
  @directives_allowed_iff _ _ socketInCache false none none _ (fun o _ => some o) () (by decide) rfl

/-- A value with a line break: what is behind it is a directive that runs a command. -/
theorem value_adds_directive :
    PlainName (utf8 "remote".toList) ∧ ∃ text, buildConfig socketInCache false
        [("remote", .string "vpn.example.com 1194\nup /system/bin/reboot")] none none = some text ∧
      utf8 "up".toList ∈ read_config_file (fun o _ => some o) () (utf8 text) ∧
      ¬ Allowed [("remote", .string "vpn.example.com 1194\nup /system/bin/reboot")]
        (utf8 "up".toList) := by
  refine ⟨by decide, _, rfl, by decide, ?_⟩
  unfold Allowed
  decide

/-! ## Values that keep to their lines and blocks -/

/-- What is written of the entry keeps to its line, or to its block. -/
def Tidy (e : String × OptionValue) : Prop :=
  if e.1 ∈ blockKeys then
    ∃ (body : List Char) (pem : PemText), blockText e.2 = some body ∧
      body ++ ['\n'] = linesText pem.lines
  else ∃ line, optionText e = some (line ++ ['\n']) ∧ IsLine (utf8 line)

/-- A tidy block: its lines, between those with the tags. -/
theorem Tidy.block {e : String × OptionValue} (h : Tidy e) (hkey : e.1 ∈ blockKeys) :
    ∃ pem : PemText, optionLines e =
      openLine e.1 :: (stringsOf pem.lines ++ [closeTag e.1 ++ [byte '\n']]) := by
  rw [Tidy, if_pos hkey] at h
  obtain ⟨body, pem, hbody, hlines⟩ := h
  obtain ⟨hopen, hclose, -⟩ := blockKeys_lines e.1 hkey
  have htext : optionText e = some (linesText (pemLines e.1 pem)) := by
    rw [optionText, if_pos hkey, hbody, Option.map_some, pemLines, linesText, List.flatMap_cons,
      List.flatMap_append, ← linesText, ← hlines]
    simp
  have hshort : ∀ line ∈ pemLines e.1 pem, IsLine (utf8 line) := by
    rw [pemLines, List.forall_mem_cons, List.forall_mem_append, List.forall_mem_singleton]
    exact ⟨hopen, pem.isLine, hclose⟩
  refine ⟨pem, ?_⟩
  rw [optionLines, optionBytes, htext, Option.getD_some, ← List.append_nil (utf8 _),
    fgets_linesText hshort [], fgets, if_pos rfl, List.append_nil, pemLines, stringsOf,
    List.map_cons, List.map_append]
  rfl

/-- A tidy plain entry: its only line. -/
theorem Tidy.plain {e : String × OptionValue} (h : Tidy e) (hkey : e.1 ∉ blockKeys) :
    KeyFits e ∧ ∃ line, optionLines e = [line] := by
  rw [Tidy, if_neg hkey] at h
  obtain ⟨line, htext, hline⟩ := h
  obtain ⟨c, rest, hc, hbytes⟩ := optionBytes_plain hkey
  rw [optionBytes, htext, Option.getD_some, utf8_append] at hbytes
  refine ⟨?_, utf8 line ++ [byte '\n'], ?_⟩
  · have hlength := congrArg List.length hbytes
    have hshort := hline.2
    simp only [List.length_append, List.length_cons,
      show (utf8 ['\n']).length = 1 from rfl] at hlength
    unfold KeyFits
    omega
  · rw [optionLines, optionBytes, htext, Option.getD_some, utf8_append]
    exact fgets_line hline []

/-- The reader does not come to a line of a block that is open, but leaves it at the end. -/
theorem readerAfter_block {key : String} (hkey : key ∈ blockKeys) (hr : start.Outside)
    {lines : List (List Byte)} (hlines : ∀ line ∈ lines, ¬ [byte '<', byte '/'] <+: line) :
    (∀ o, readerAfter add_option start (openLine key :: lines) ≠ .line o) ∧
      (readerAfter add_option start
        (openLine key :: (lines ++ [closeTag key ++ [byte '\n']]))).Outside := by
  obtain ⟨-, -, hopen, hclose⟩ := blockKeys_lines key hkey
  have hexited (lines : List (List Byte)) : readerAfter add_option .exited lines = .exited := by
    induction lines with
    | nil => rfl
    | cons line lines ih => exact ih
  cases start with
  | block o name close_tag content => exact False.elim hr
  | exited =>
    rw [hexited, hexited]
    refine ⟨fun o h => ?_, trivial⟩
    cases h
  | line o =>
    have hfirst (lines : List (List Byte)) : readerAfter add_option (.line o)
        (openLine key :: lines) = readerAfter add_option
          (.block o (utf8 key.toList) (closeTag key) []) lines := by
      rw [readerAfter, List.foldl_cons, readPiece, hopen]
      rfl
    have hinside : ∃ content', readerAfter add_option
        (.block o (utf8 key.toList) (closeTag key) []) lines =
          .block o (utf8 key.toList) (closeTag key) content' :=
      (readerAfter_inside (slash_closeTag key) hlines [] []).1
    obtain ⟨content', hafter⟩ := hinside
    rw [hfirst, hfirst, readerAfter_append, hafter]
    constructor
    · intro o' h
      cases h
    · rw [readerAfter, List.foldl_cons, List.foldl_nil, readPiece, if_pos hclose]
      exact outside_added o _

/-- The reader does not come to a line within a tidy value, and is behind its block at the end. -/
theorem Tidy.outside {e : String × OptionValue} (h : Tidy e) (hname : PlainName (utf8 e.1.toList))
    (hr : start.Outside) :
    (readerAfter add_option start (optionLines e)).Outside ∧
      ∀ lines line tail, optionLines e = lines ++ line :: tail → (lines = [] → ¬ KeyFits e) →
        ∀ o, readerAfter add_option start lines ≠ .line o := by
  by_cases hkey : e.1 ∈ blockKeys
  · obtain ⟨pem, hlines⟩ := h.block hkey
    rw [hlines]
    refine ⟨(readerAfter_block hkey hr pem.noTag_strings).2, fun lines line tail heq hnot => ?_⟩
    have hfits : KeyFits e := by
      have hkeys : ∀ key ∈ blockKeys, (utf8 key.toList).length + 1 < OPTION_LINE_SIZE := by decide
      exact hkeys e.1 hkey
    cases lines with
    | nil => exact absurd hfits (hnot rfl)
    | cons first lines =>
      obtain ⟨rfl, htail⟩ := List.cons.inj heq
      -- the line with the closing tag is the last one
      have hsub : ∀ line ∈ lines, line ∈ stringsOf pem.lines := by
        have hdrop := congrArg List.dropLast htail
        rw [List.dropLast_concat, List.append_eq, List.dropLast_append_of_ne_nil
          (List.cons_ne_nil _ _)] at hdrop
        intro line hl
        rw [hdrop]
        exact List.mem_append_left _ hl
      exact (readerAfter_block hkey hr fun line hl => pem.noTag_strings line (hsub line hl)).1
  · obtain ⟨hfits, line, hline⟩ := h.plain hkey
    obtain ⟨hlen, c, rest, hc, rfl⟩ := firstLine_plain hkey hname hfits hline
    rw [hline]
    refine ⟨(directives_word hname hlen hc rest hr).1, fun lines line tail heq hnot => ?_⟩
    cases lines with
    | nil => exact absurd hfits (hnot rfl)
    | cons first lines => simp at heq

theorem contained_of_tidy (hstart : start.Outside)
    (hnames : ∀ e ∈ options, PlainName (utf8 e.1.toList)) (htidy : ∀ e ∈ options, Tidy e) :
    Contained add_option start options := by
  rw [contained_iff]
  intro before e after lines line tail o name hoptions hlines hkey hread _
  subst hoptions
  have hbefore : (readerAfter add_option start (before.flatMap optionLines)).Outside := by
    clear hread
    induction before generalizing start with
    | nil => exact hstart
    | cons e' before ih =>
      rw [List.cons_append, List.forall_mem_cons] at hnames htidy
      rw [List.flatMap_cons, readerAfter_append]
      exact ih (htidy.1.outside hnames.1 hstart).1 hnames.2 htidy.2
  have he : e ∈ before ++ e :: after := List.mem_append_right _ List.mem_cons_self
  rw [readerAfter_append] at hread
  exact absurd hread (((htidy e he).outside (hnames e he) hbefore).2 lines line tail hlines hkey o)

end Values

end ConfProfile.OpenVpn
