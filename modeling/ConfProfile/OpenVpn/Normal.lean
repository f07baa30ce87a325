import Mathlib.Data.List.DropRight
import ConfProfile.OpenVpn.Join

/-!
# The normal form of a chain (`CryptoUtils.validateRfc7468Chain`)

`Scan` says which blocks a scan of a text from the left finds, and what is left behind
them. The result is made of these blocks if nothing is left, else it is the text
itself; `validateRfc7468Chain_scan_iff` says for which texts the blocks are in normal form
then. A text behind the last block undoes all of it: `validateRfc7468Chain_wellFormed` says
for which chains of PEM blocks the blocks come out in normal form.
-/

namespace ConfProfile.OpenVpn

open Search

/-! ## The scan -/

/-- A block: what is behind BEGIN up to the dashes, and what is between the markers. -/
structure Block where
  name : List Char
  body : List Char
  deriving DecidableEq, Repr

namespace Block

variable (b : Block)

def beginMarker : List Char := BEGIN ++ b.name ++ DASHES
def endMarker : List Char := END ++ b.name ++ DASHES

/-- The text of the block. -/
def text : List Char := b.beginMarker ++ b.body ++ b.endMarker

/-- The block around a body. -/
def wrap (body : List Char) : List Char :=
  b.beginMarker ++ ['\n'] ++ (body ++ ['\n']) ++ (b.endMarker ++ ['\n'])

/-- What the loop appends for the block. -/
def appended : List Char := b.wrap (validateBase64 b.body)

end Block

/-- The first block of a text: at the first begin marker, with the name up to the first dashes
and the body up to the first end marker of that name. -/
def Found (s : List Char) (b : Block) (rest : List Char) : Prop :=
  ∃ gap behind body', First BEGIN s gap behind ∧ First DASHES behind b.name body' ∧
    First b.endMarker body' b.body rest

/-- The blocks that are found one behind the other, and what is left behind them. -/
inductive Scan : List Char → List Block → List Char → Prop where
  | nil (s : List Char) : Scan s [] s
  | cons {s rest rest' : List Char} {b : Block} {blocks : List Block}
      (found : Found s b rest) (scan : Scan rest blocks rest') : Scan s (b :: blocks) rest'

variable {s rest rest' builder : List Char} {b b' : Block} {blocks blocks' : List Block}

theorem Found.eq (h : Found s b rest) : ∃ gap, s = gap ++ b.text ++ rest := by
  obtain ⟨gap, behind, body', hbegin, hname, hend⟩ := h
  refine ⟨gap, ?_⟩
  rw [hbegin.eq, hname.eq, hend.eq]
  simp [Block.text, Block.beginMarker]

theorem Found.unique (h : Found s b rest) (h' : Found s b' rest') : b = b' ∧ rest = rest' := by
  obtain ⟨gap, behind, body', hbegin, hname, hend⟩ := h
  obtain ⟨gap', behind', body'', hbegin', hname', hend'⟩ := h'
  obtain ⟨-, rfl⟩ := hbegin.unique hbegin'
  obtain ⟨heq, rfl⟩ := hname.unique hname'
  have hmarker : b.endMarker = b'.endMarker := by rw [Block.endMarker, Block.endMarker, heq]
  rw [← hmarker] at hend'
  obtain ⟨hbody, rfl⟩ := hend.unique hend'
  cases b
  cases b'
  exact ⟨by rw [Block.mk.injEq]; exact ⟨heq, hbody⟩, rfl⟩

theorem Found.length_lt (h : Found s b rest) : rest.length < s.length := by
  obtain ⟨gap, rfl⟩ := h.eq
  simp only [Block.text, Block.beginMarker, List.length_append, show BEGIN.length = 10 from rfl]
  omega

theorem not_found_nil : ¬ Found [] b rest := fun h => absurd h.length_lt (Nat.not_lt_zero _)

theorem Scan.unique (h : Scan s blocks []) (h' : Scan s blocks' []) : blocks = blocks' := by
  induction blocks generalizing s blocks' with
  | nil =>
    cases h
    cases h' with
    | nil => rfl
    | cons found scan => exact absurd found not_found_nil
  | cons b blocks ih =>
    obtain _ | ⟨found, scan⟩ := h
    cases h' with
    | nil => exact absurd found not_found_nil
    | cons found' scan' =>
      obtain ⟨rfl, rfl⟩ := found.unique found'
      rw [ih scan scan']

/-- A text of which nothing is left ends with dashes. -/
theorem Scan.ends (h : Scan s (b :: blocks) []) : DASHES <:+ s := by
  induction blocks generalizing s b with
  | nil =>
    obtain _ | ⟨found, scan⟩ := h
    cases scan
    obtain ⟨gap, rfl⟩ := found.eq
    simp only [Block.text, Block.endMarker, List.append_nil, ← List.append_assoc]
    exact List.suffix_append _ _
  | cons b' blocks ih =>
    obtain _ | ⟨found, scan⟩ := h
    obtain ⟨gap, rfl⟩ := found.eq
    exact (ih scan).trans (List.suffix_append _ _)

/-! ## The loop -/

theorem chainLoop_found (h : Found s b rest) (builder : List Char) :
    chainLoop s builder = chainLoop rest (builder ++ b.appended) := by
  have hne : s ≠ [] := fun heq => not_found_nil (heq ▸ h)
  obtain ⟨gap, behind, body', begins, named, ends⟩ := h
  have hbehind : s.drop (gap.length + BEGIN.length) = behind := by
    rw [begins.eq, ← List.length_append, List.drop_left]
  have hname : behind.take b.name.length = b.name := by
    rw [named.eq, List.append_assoc, List.take_left]
  have hbody' : behind.drop (b.name.length + DASHES.length) = body' := by
    rw [named.eq, ← List.length_append, List.drop_left]
  have hbody : body'.take b.body.length = b.body := by
    rw [ends.eq, List.append_assoc, List.take_left]
  have hlen : b.body.length + END.length + b.name.length + DASHES.length =
      (b.body ++ b.endMarker).length := by
    simp only [Block.endMarker, List.length_append, Nat.add_assoc]
  have hrest : body'.drop (b.body.length + END.length + b.name.length + DASHES.length) = rest := by
    rw [hlen, ends.eq, List.drop_left]
  have hends : indexOf body' (END ++ b.name ++ DASHES) = some b.body.length := ends.indexOf
  rw [chainLoop, if_neg hne, begins.indexOf]
  simp only [hbehind, named.indexOf, hname, hbody', hends, hbody, hrest]
  congr 1
  simp [Block.appended, Block.wrap, Block.beginMarker, Block.endMarker]

theorem exists_found (hne : s ≠ []) (h : chainLoop s builder ≠ none) :
    ∃ b rest, Found s b rest := by
  rw [chainLoop, if_neg hne] at h
  cases hbegin : indexOf s BEGIN with
  | none => simp [hbegin] at h
  | some pos =>
    rw [hbegin] at h
    cases hname : indexOf (s.drop (pos + BEGIN.length)) DASHES with
    | none => simp [hname] at h
    | some tmpPos =>
      simp only [hname] at h
      cases hend : indexOf ((s.drop (pos + BEGIN.length)).drop (tmpPos + DASHES.length))
          (END ++ (s.drop (pos + BEGIN.length)).take tmpPos ++ DASHES) with
      | none => simp only [hend, ne_eq, not_true_eq_false] at h
      | some endPos =>
        exact ⟨⟨_, _⟩, _, _, _, _, First.of_indexOf hbegin, First.of_indexOf hname,
          First.of_indexOf hend⟩

/-- The loop ends with the blocks of a scan that leaves nothing, and gives up without one. -/
theorem chainLoop_eq_some {out : List Char} : chainLoop s builder = some out ↔
    ∃ blocks, Scan s blocks [] ∧ out = builder ++ blocks.flatMap Block.appended := by
  -- each block leaves less
  induction hn : s.length using Nat.strong_induction_on generalizing s builder with | h n ih => ?_
  by_cases hnil : s = []
  · subst hnil
    rw [chainLoop, if_pos rfl, Option.some.injEq]
    constructor
    · intro h
      exact ⟨[], .nil [], by simp [h]⟩
    · intro h'
      obtain ⟨blocks, hscan, rfl⟩ := h'
      cases hscan with
      | nil => simp
      | cons found => exact absurd found not_found_nil
  · by_cases hfound : ∃ b rest, Found s b rest
    · obtain ⟨b, rest, hfound⟩ := hfound
      rw [chainLoop_found hfound, ih rest.length (hn ▸ hfound.length_lt) rfl]
      constructor
      · intro h'
        obtain ⟨blocks, hscan, rfl⟩ := h'
        exact ⟨b :: blocks, .cons hfound hscan, by simp⟩
      · intro h'
        obtain ⟨blocks, hscan, rfl⟩ := h'
        obtain _ | ⟨found, scan⟩ := hscan
        · exact absurd rfl hnil
        · obtain ⟨rfl, rfl⟩ := found.unique hfound
          exact ⟨_, scan, by simp⟩
    · refine iff_of_false (fun h => hfound (exists_found hnil (h ▸ Option.some_ne_none out)))
        fun h' => ?_
      obtain ⟨blocks, hscan, rfl⟩ := h'
      obtain _ | ⟨found, scan⟩ := hscan
      · exact hnil rfl
      · exact hfound ⟨_, _, found⟩

theorem validateRfc7468Chain_of_scan (h : Scan s blocks []) :
    validateRfc7468Chain s = blocks.flatMap Block.appended := by
  rw [validateRfc7468Chain, chainLoop_eq_some.mpr ⟨blocks, h, rfl⟩]
  rfl

theorem validateRfc7468Chain_self (h : ¬ ∃ blocks, Scan s blocks []) :
    validateRfc7468Chain s = s := by
  rw [validateRfc7468Chain]
  cases hloop : chainLoop s [] with
  | none => rfl
  | some out =>
    obtain ⟨blocks, hscan, -⟩ := chainLoop_eq_some.mp hloop
    exact absurd ⟨blocks, hscan⟩ h

theorem wrap_ends (b : Block) (body : List Char) : ['\n'] <:+ b.wrap body := by
  refine ⟨b.beginMarker ++ ['\n'] ++ (body ++ ['\n']) ++ b.endMarker, ?_⟩
  simp [Block.wrap]

theorem flatMap_wrap_ends (body : Block → List Char) (hne : blocks ≠ []) :
    ['\n'] <:+ blocks.flatMap fun b => b.wrap (body b) := by
  obtain ⟨init, b, rfl⟩ := List.eq_nil_or_concat blocks |>.resolve_left hne
  rw [List.concat_eq_append, List.flatMap_append, List.flatMap_singleton]
  exact (wrap_ends b (body b)).trans (List.suffix_append _ _)

/-- Behind the last block made anew is a line break, so that no scan gets to the end. -/
theorem not_scan_of_ends {out : List Char} (hends : ['\n'] <:+ out) :
    ¬ Scan out blocks [] := by
  intro h
  obtain _ | ⟨found, scan⟩ := h
  · exact absurd hends.length_le (by decide)
  · have hdash : ['-'] <:+ out :=
      List.IsSuffix.trans ⟨"----".toList, rfl⟩ (Scan.cons found scan).ends
    have heq := (List.suffix_of_suffix_length_le hends hdash le_rfl).eq_of_length rfl
    exact absurd heq (by decide)

/-- Applied to its result the function gives the same again. -/
theorem validateRfc7468Chain_twice (s : List Char) :
    validateRfc7468Chain (validateRfc7468Chain s) = validateRfc7468Chain s := by
  by_cases h : ∃ blocks, Scan s blocks []
  · obtain ⟨blocks, hscan⟩ := h
    rw [validateRfc7468Chain_of_scan hscan]
    by_cases hne : blocks = []
    · rw [hne]
      exact validateRfc7468Chain_of_scan (.nil [])
    · refine validateRfc7468Chain_self fun h' => ?_
      obtain ⟨blocks', hscan'⟩ := h'
      exact not_scan_of_ends (flatMap_wrap_ends (fun b => validateBase64 b.body) hne) hscan'
  · have hself := validateRfc7468Chain_self h
    rw [hself, hself]

/-! ## Line breaks -/

/-- Each backslash with an `n` is a line break. -/
def breaks : List Char → List Char
  | [] => []
  | '\\' :: 'n' :: s => '\n' :: breaks s
  | c :: s => c :: breaks s

def joinLines (parts : List (List Char)) : List Char := ['\n'].intercalate parts

theorem joinLines_cons (part : List Char) {parts : List (List Char)} (hne : parts ≠ []) :
    joinLines (part :: parts) = part ++ '\n' :: joinLines parts := by
  rw [joinLines, List.intercalate_cons_of_ne_nil hne, List.append_assoc]
  rfl

theorem validateBase64_joinLines (base64 : List Char) :
    validateBase64 base64 = joinLines (split (trim base64)) :=
  Option.get_of_eq_some _ (join_map_some ['\n'] true (split (trim base64)))

theorem splitParts_ne_nil (part s : List Char) : splitParts part s ≠ [] := by
  fun_induction splitParts part s with
  | case1 part => exact List.cons_ne_nil _ _
  | case2 part s ih => exact List.cons_ne_nil _ _
  | case3 part c s hc ih => exact ih

theorem joinLines_splitParts (part s : List Char) :
    joinLines (splitParts part s) = part ++ breaks s := by
  fun_induction splitParts part s with
  | case1 part => simp [joinLines, breaks]
  | case2 part s ih => rw [joinLines_cons part (splitParts_ne_nil [] s), ih, breaks]; rfl
  | case3 part c s hc ih =>
    rw [ih, breaks]
    · simp
    · exact hc

/-- The last part is empty behind a line break at the end. -/
theorem getLast?_splitParts (part s : List Char) : (splitParts part s).getLast? = some [] ↔
    (part = [] ∧ s = []) ∨ ['\\', 'n'] <:+ s := by
  fun_induction splitParts part s with
  | case1 part => simp
  | case2 part s ih =>
    rw [List.getLast?_cons_of_ne_nil (splitParts_ne_nil [] s), ih, List.suffix_cons_iff,
      List.suffix_cons_iff]
    simp [eq_comm]
  | case3 part c s hc ih =>
    rw [ih, List.suffix_cons_iff]
    have hne : ['\\', 'n'] ≠ c :: s := by
      intro h
      obtain ⟨rfl, rfl⟩ := List.cons.inj h
      exact hc [] rfl rfl
    simp [hne]

/-- One character for each line break. -/
theorem length_joinLines {parts : List (List Char)} (hne : parts ≠ []) :
    (joinLines parts).length + 1 = parts.flatten.length + parts.length := by
  induction parts with
  | nil => exact absurd rfl hne
  | cons part parts ih =>
    rw [List.flatten_cons, List.length_append, List.length_cons]
    by_cases hparts : parts = []
    · subst hparts
      have hlast : joinLines [part] = part ++ [] := rfl
      rw [hlast, List.append_nil]
      rfl
    · have hlen := ih hparts
      rw [joinLines_cons part hparts, List.length_append, List.length_cons]
      omega

/-- The empty parts at the end are missed. -/
theorem length_joinLines_split {parts : List (List Char)} (hlast : parts.getLast? = some [])
    (hmany : parts.length ≠ 1) :
    (joinLines (parts.rdropWhile (·.isEmpty))).length < (joinLines parts).length := by
  obtain ⟨init, rfl⟩ := List.getLast?_eq_some_iff.mp hlast
  rw [List.rdropWhile_concat_pos _ _ _ rfl]
  have hinit : init ≠ [] := by
    intro h
    exact hmany (by rw [h]; rfl)
  have hne : init ++ [[]] ≠ [] := by simp
  have hlen := length_joinLines hne
  by_cases hkept : init.rdropWhile (·.isEmpty) = []
  · rw [hkept]
    have hpos := List.length_pos_iff.mpr hinit
    rw [List.flatten_concat, List.append_nil, List.length_append, List.length_singleton] at hlen
    have hnil : (joinLines []).length = 0 := rfl
    omega
  · have hlen' := length_joinLines hkept
    obtain ⟨dropped, hdropped⟩ := List.rdropWhile_prefix (p := (·.isEmpty)) (l := init)
    have hcount := congrArg List.length hdropped
    have htext := congrArg (fun parts : List (List Char) => parts.flatten.length) hdropped
    rw [List.flatten_concat, List.append_nil, List.length_append, List.length_singleton] at hlen
    simp only [List.length_append, List.flatten_append] at hcount htext
    omega

theorem split_eq (s : List Char) : split s =
    if (splitParts [] s).length = 1 then splitParts [] s
    else (splitParts [] s).rdropWhile (·.isEmpty) := by
  unfold split
  split
  next part heq => rw [heq]; rfl
  next parts hparts =>
    rw [if_neg]
    · rfl
    · intro h
      obtain ⟨part, heq⟩ := List.length_eq_one_iff.mp h
      exact hparts part heq

theorem validateBase64_eq {body : List Char} (h : ¬ ['\\', 'n'] <:+ trim body) :
    validateBase64 body = breaks (trim body) := by
  have hjoin := joinLines_splitParts [] (trim body)
  rw [List.nil_append] at hjoin
  rw [validateBase64_joinLines, ← hjoin, split_eq]
  split_ifs with hone
  · rfl
  · have hlast : (splitParts [] (trim body)).getLast? ≠ some [] := by
      intro hlast
      rcases (getLast?_splitParts [] (trim body)).mp hlast with hnil | hends
      · rw [hnil.2] at hone
        exact hone rfl
      · exact h hends
    rw [List.rdropWhile_eq_self_iff.mpr]
    intro hne hempty
    exact hlast (by rw [List.getLast?_eq_some_getLast hne, List.isEmpty_iff.mp hempty])

theorem eq_nil_of_breaks {s : List Char} (h : breaks s = []) : s = [] := by
  revert h
  fun_cases breaks s with
  | case1 => simp
  | case2 s => simp
  | case3 c s => simp

theorem length_validateBase64 {body : List Char} (h : ['\\', 'n'] <:+ trim body) :
    (validateBase64 body).length < (breaks (trim body)).length := by
  have hjoin := joinLines_splitParts [] (trim body)
  rw [List.nil_append] at hjoin
  have hlast := (getLast?_splitParts [] (trim body)).mpr (Or.inr h)
  have hmany : (splitParts [] (trim body)).length ≠ 1 := by
    intro hone
    obtain ⟨part, heq⟩ := List.length_eq_one_iff.mp hone
    rw [heq] at hlast hjoin
    obtain rfl : part = [] := Option.some.inj hlast
    rw [eq_nil_of_breaks hjoin.symm] at h
    exact absurd h.length_le (by decide)
  rw [validateBase64_joinLines, ← hjoin, split_eq, if_neg hmany]
  exact length_joinLines_split hlast hmany

/-! ## The normal form -/

/-- The markers on lines of their own around the trimmed body with its line breaks. -/
def Block.pem (b : Block) : List Char := b.wrap (breaks (trim b.body))

theorem length_wrap (b : Block) (body : List Char) :
    (b.wrap body).length = (b.wrap []).length + body.length := by
  simp [Block.wrap]
  omega

theorem appended_eq {b : Block} (h : ¬ ['\\', 'n'] <:+ trim b.body) : b.appended = b.pem := by
  rw [Block.appended, Block.pem, validateBase64_eq h]

theorem length_appended_le (b : Block) : b.appended.length ≤ b.pem.length := by
  by_cases h : ['\\', 'n'] <:+ trim b.body
  · have := length_validateBase64 h
    rw [Block.appended, Block.pem, length_wrap, length_wrap b (breaks _)]
    omega
  · rw [appended_eq h]

/-- The blocks come out as asked if no body ends with a line break that is missed. -/
theorem flatMap_appended_eq (blocks : List Block) :
    blocks.flatMap Block.appended = blocks.flatMap Block.pem ↔
      ∀ b ∈ blocks, ¬ ['\\', 'n'] <:+ trim b.body := by
  induction blocks with
  | nil => simp
  | cons b blocks ih =>
    rw [List.flatMap_cons, List.flatMap_cons, List.forall_mem_cons, ← ih]
    constructor
    · intro h
      have hle : ∀ blocks : List Block,
          (blocks.flatMap Block.appended).length ≤ (blocks.flatMap Block.pem).length := by
        intro blocks
        induction blocks with
        | nil => exact le_rfl
        | cons b blocks ih =>
          rw [List.flatMap_cons, List.flatMap_cons, List.length_append, List.length_append]
          exact Nat.add_le_add (length_appended_le b) ih
      have hlen := congrArg List.length h
      rw [List.length_append, List.length_append] at hlen
      have hsame : b.appended.length = b.pem.length := by
        have := hle blocks
        have := length_appended_le b
        omega
      refine ⟨fun hends => ?_, (List.append_inj h hsame).2⟩
      have hlt := length_validateBase64 hends
      rw [Block.appended, Block.pem, length_wrap, length_wrap b (breaks _)] at hsame
      omega
    · intro h'
      obtain ⟨hb, hblocks⟩ := h'
      rw [appended_eq hb, hblocks]

/-- What is returned is the text, or the blocks that were found, in normal form. -/
def ReturnsNormal (s : List Char) : Prop :=
  validateRfc7468Chain s = s ∨
    ∃ blocks, Scan s blocks [] ∧ validateRfc7468Chain s = blocks.flatMap Block.pem

theorem returnsNormal_iff (s : List Char) : ReturnsNormal s ↔
    ∀ blocks, Scan s blocks [] → ∀ b ∈ blocks, ¬ ['\\', 'n'] <:+ trim b.body := by
  unfold ReturnsNormal
  constructor
  · intro h blocks hscan
    rw [validateRfc7468Chain_of_scan hscan] at h
    rcases h with h | h
    · -- the text would end in a line break, and no scan gets to the end of such a text
      by_cases hne : blocks = []
      · rw [hne]
        exact List.forall_mem_nil _
      · have hends := flatMap_wrap_ends (fun b => validateBase64 b.body) hne
        rw [← h] at hscan
        exact absurd hscan (not_scan_of_ends hends)
    · obtain ⟨blocks', hscan', h⟩ := h
      rw [← hscan.unique hscan'] at h
      exact (flatMap_appended_eq blocks).mp h
  · intro h
    by_cases hscan : ∃ blocks, Scan s blocks []
    · obtain ⟨blocks, hscan⟩ := hscan
      refine Or.inr ⟨blocks, hscan, ?_⟩
      rw [validateRfc7468Chain_of_scan hscan]
      exact (flatMap_appended_eq blocks).mpr (h blocks hscan)
    · exact Or.inl (validateRfc7468Chain_self hscan)

/-- For all texts: what is returned is the text or, where a scan takes all of it, the blocks found
in normal form, if and only if no line break at the end of one of their bodies is missed. A scan
finds no other blocks, a text that it does not take up to the end is returned as it is, and
applied to its result the function gives the same again. -/
theorem validateRfc7468Chain_scan_iff (s : List Char) :
    ((ReturnsNormal s ∧
        validateRfc7468Chain (validateRfc7468Chain s) = validateRfc7468Chain s) ↔
      ∀ blocks, Scan s blocks [] → ∀ b ∈ blocks, ¬ ['\\', 'n'] <:+ trim b.body) ∧
    (∀ blocks blocks', Scan s blocks [] → Scan s blocks' [] → blocks = blocks') ∧
    ((¬ ∃ blocks, Scan s blocks []) → validateRfc7468Chain s = s) ∧
    validateRfc7468Chain (validateRfc7468Chain s) = validateRfc7468Chain s := by
  have htwice := validateRfc7468Chain_twice s
  refine ⟨?_, fun _ _ hscan hscan' => hscan.unique hscan', validateRfc7468Chain_self, htwice⟩
  rw [and_iff_left htwice]
  exact returnsNormal_iff s

/-- A body that ends in a line break that is written out. -/
theorem literal_break_missed :
    ¬ (ReturnsNormal "-----BEGIN A-----abc\\n-----END A-----".toList ∧
      validateRfc7468Chain (validateRfc7468Chain "-----BEGIN A-----abc\\n-----END A-----".toList) =
        validateRfc7468Chain "-----BEGIN A-----abc\\n-----END A-----".toList) := by
  have hfound : Found "-----BEGIN A-----abc\\n-----END A-----".toList
      ⟨" A".toList, "abc\\n".toList⟩ [] :=
    ⟨[], " A-----abc\\n-----END A-----".toList, "abc\\n-----END A-----".toList,
      ⟨by decide, by decide⟩, ⟨by decide, by decide⟩, ⟨by decide, by decide⟩⟩
  intro h
  have hbodies := (returnsNormal_iff _).mp h.1 _ (.cons hfound (.nil []))
  exact hbodies _ List.mem_cons_self (by decide)

/-! ## Chains of well-formed blocks -/

/-- No dashes in the name and the body, and none at the end of the name. -/
structure Block.WellFormed (b : Block) : Prop where
  name : ¬ DASHES <:+: b.name
  name_end : b.name.getLast? ≠ some '-'
  body : ¬ DASHES <:+: b.body

/-- The blocks with what stands before each of them, and behind the last one. -/
def chainText (chain : List (List Char × Block)) (behind : List Char) : List Char :=
  (chain.flatMap fun p => p.1 ++ p.2.text) ++ behind

theorem dashes_getElem? : ∀ i < 5, DASHES[i]? = some '-' ∧ END[i]? = some '-' := by decide

theorem first_begin {gap : List Char} (hgap : '-' ∉ gap) (behind : List Char) :
    First BEGIN (gap ++ BEGIN ++ behind) gap behind := First.of_notMem hgap

theorem first_dashes {name : List Char} (hname : ¬ DASHES <:+: name)
    (hend : name.getLast? ≠ some '-') (behind : List Char) :
    First DASHES (name ++ DASHES ++ behind) name behind := by
  refine ⟨rfl, fun k hk => ?_⟩
  by_contra hocc
  rw [Bool.not_eq_false, List.append_assoc] at hocc
  by_cases hfit : k + 5 ≤ name.length
  · exact hname (infix_of_occursAt hocc hfit)
  · -- they begin in the name and go on behind it
    have hlast := getElem?_of_occursAt (i := name.length - 1 - k) hocc
      (show name.length - 1 - k < 5 by omega)
    rw [(dashes_getElem? _ (by omega)).1, List.getElem?_append_left (by omega),
      show k + (name.length - 1 - k) = name.length - 1 by omega] at hlast
    exact hend (by rw [List.getLast?_eq_getElem?, hlast])

theorem first_end {b : Block} (hbody : ¬ DASHES <:+: b.body) (rest : List Char) :
    First b.endMarker (b.body ++ b.endMarker ++ rest) b.body rest := by
  refine ⟨rfl, fun k hk => ?_⟩
  by_contra hocc
  rw [Bool.not_eq_false, Block.endMarker, List.append_assoc] at hocc
  have hEnd := occursAt_of_append (List.append_assoc END b.name DASHES ▸ hocc)
  by_cases hfit : k + 5 ≤ b.body.length
  · exact hbody (infix_of_occursAt (occursAt_of_append (t := DASHES) (u := "END".toList) hEnd) hfit)
  · -- the `E` would stand where the end marker has its dashes
    have hE := getElem?_of_occursAt (i := 5) hEnd (by decide)
    rw [List.append_assoc, List.append_assoc, List.getElem?_append_right (by omega),
      List.getElem?_append_left (show k + 5 - b.body.length < 8 by omega),
      (dashes_getElem? _ (by omega)).2] at hE
    cases hE

theorem not_found {s : List Char} (h : '-' ∉ s) (b : Block) (rest : List Char) :
    ¬ Found s b rest := by
  intro hfound
  obtain ⟨gap, rfl⟩ := hfound.eq
  have hbegin : '-' ∈ BEGIN := by decide
  simp only [Block.text, Block.beginMarker, List.mem_append, hbegin, true_or, or_true,
    not_true_eq_false] at h

theorem found_wellFormed {gap : List Char} (hgap : '-' ∉ gap) (hb : b.WellFormed)
    (rest : List Char) : Found (gap ++ b.text ++ rest) b rest := by
  refine ⟨gap, b.name ++ DASHES ++ (b.body ++ b.endMarker ++ rest), b.body ++ b.endMarker ++ rest,
    ?_, first_dashes hb.name hb.name_end _, first_end hb.body rest⟩
  have hbegin := first_begin hgap (b.name ++ DASHES ++ (b.body ++ b.endMarker ++ rest))
  simpa [Block.text, Block.beginMarker] using hbegin

variable {chain : List (List Char × Block)} {behind : List Char}

/-- The scan finds the blocks of a chain. -/
theorem scan_chainText (hsep : ∀ p ∈ chain, '-' ∉ p.1) (hwf : ∀ p ∈ chain, p.2.WellFormed)
    (behind : List Char) : Scan (chainText chain behind) (chain.map Prod.snd) behind := by
  induction chain with
  | nil => exact .nil behind
  | cons p chain ih =>
    rw [List.forall_mem_cons] at hsep hwf
    have hfound := found_wellFormed hsep.1 hwf.1 (chainText chain behind)
    have heq : chainText (p :: chain) behind = p.1 ++ p.2.text ++ chainText chain behind := by
      simp [chainText]
    rw [heq]
    exact .cons hfound (ih hsep.2 hwf.2)

/-- Where something is left that is no block, the scan does not come to the end. -/
theorem Scan.stuck (h : Scan s blocks rest) (hne : rest ≠ [])
    (hrest : ∀ b rest', ¬ Found rest b rest') : ¬ ∃ blocks', Scan s blocks' [] := by
  intro h'
  obtain ⟨blocks', h'⟩ := h'
  induction h generalizing blocks' with
  | nil rest =>
    obtain _ | ⟨found, scan⟩ := h'
    · exact hne rfl
    · exact hrest _ _ found
  | cons found scan ih =>
    obtain _ | ⟨found', scan'⟩ := h'
    · exact not_found_nil found
    · obtain ⟨rfl, rfl⟩ := found.unique found'
      exact ih hne hrest _ scan'

/-- For all chains of well-formed blocks with anything but dashes around them: they come out in
normal form exactly if nothing is behind the last one and no line break at the end of a body is
missed, or they are in normal form already. -/
theorem validateRfc7468Chain_wellFormed (hsep : ∀ p ∈ chain, '-' ∉ p.1) (hbehind : '-' ∉ behind)
    (hwf : ∀ p ∈ chain, p.2.WellFormed) :
    validateRfc7468Chain (chainText chain behind) = chain.flatMap (fun p => p.2.pem) ↔
      (behind = [] ∧ ∀ p ∈ chain, ¬ ['\\', 'n'] <:+ trim p.2.body) ∨
        chainText chain behind = chain.flatMap fun p => p.2.pem := by
  have hscan := scan_chainText hsep hwf behind
  have hpem : (chain.flatMap fun p => p.2.pem) = (chain.map Prod.snd).flatMap Block.pem := by
    rw [List.flatMap_map]
  by_cases hnil : behind = []
  · have hiff := flatMap_appended_eq (chain.map Prod.snd)
    rw [List.forall_mem_map, ← hpem] at hiff
    rw [hnil] at hscan ⊢
    rw [validateRfc7468Chain_of_scan hscan, hiff]
    refine ⟨fun h => Or.inl ⟨rfl, h⟩, fun h => ?_⟩
    rcases h with h | h
    · exact h.2
    · -- there is no block then
      intro p hp
      rw [h, hpem] at hscan
      exact absurd hscan (not_scan_of_ends (flatMap_wrap_ends (fun b => breaks (trim b.body))
        (List.ne_nil_of_mem (List.mem_map_of_mem hp))))
  · rw [validateRfc7468Chain_self (hscan.stuck hnil fun b rest => not_found hbehind b rest)]
    constructor
    · intro h
      exact Or.inr h
    · intro h
      exact h.resolve_left fun h => hnil h.1

/-- A certificate on lines of its own. -/
def certificate : Block := ⟨" CERTIFICATE".toList, "\nMIIB\n".toList⟩

/-- A key on one line, with its line breaks written out. -/
def privateKey : Block := ⟨" PRIVATE KEY".toList, "\\nMIIE\\nAgEA".toList⟩

theorem wellFormed_certificate : certificate.WellFormed := ⟨by decide, by decide, by decide⟩

theorem wellFormed_privateKey : privateKey.WellFormed := ⟨by decide, by decide, by decide⟩

theorem validateRfc7468Chain_wellFormed_two :
    validateRfc7468Chain (chainText [([' '], certificate), (['\t', '\n'], privateKey)] []) =
      certificate.pem ++ (privateKey.pem ++ []) := by
  refine (validateRfc7468Chain_wellFormed (by decide) (by decide) fun p hp => ?_).mpr
    (Or.inl ⟨rfl, by decide⟩)
  simp only [List.mem_cons, List.not_mem_nil, or_false] at hp
  rcases hp with rfl | rfl
  · exact wellFormed_certificate
  · exact wellFormed_privateKey

/-- With a line break behind the key, the text is given back with its backslashes. -/
theorem line_break_behind : '-' ∉ ['\n'] ∧ privateKey.WellFormed ∧
    validateRfc7468Chain (chainText [([], privateKey)] ['\n']) = privateKey.text ++ ['\n'] ∧
    privateKey.text ++ ['\n'] ≠ privateKey.pem := by
  have hscan : Scan (chainText [([], privateKey)] ['\n']) [privateKey] ['\n'] :=
    scan_chainText (by simp) (by simpa using wellFormed_privateKey) ['\n']
  refine ⟨by decide, wellFormed_privateKey, ?_, by decide⟩
  rw [validateRfc7468Chain_self (hscan.stuck (by decide)
    fun b rest => not_found (by decide) b rest)]
  simp [chainText]

end ConfProfile.OpenVpn
