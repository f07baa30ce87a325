import ConfProfile.Lib.Utf8
import ConfProfile.OpenVpn.Options

/-!
# The lines of the management socket

`OpenVpnTunnel.run` reads up to 2048 bytes from the management socket at a time, decodes them,
puts them behind the input that is left over and hands the lines of it to `processCommand`
(`processInput`). Whatever a socket read ends in, the lines are those of the decoded reads
(`run_eq`), but the reads are decoded one by one: they have the lines of the whole stream if and
only if no character is cut apart in front of a line feed (`run_commands`).
-/

namespace ConfProfile.OpenVpn

open Utf8

/-! ## The source's loop -/

/-- The two tokens of `pendingInput.split("\\r?\\n", 2)`, if there are two. -/
def splitLine : List Char → Option (List Char × List Char)
  | [] => none
  | '\n' :: s => some ([], s)
  | '\r' :: '\n' :: s => some ([], s)
  | c :: s => (splitLine s).map fun tokens => (c :: tokens.1, tokens.2)

theorem splitLine_length (s : List Char) :
    ∀ tokens, splitLine s = some tokens → tokens.2.length < s.length := by
  fun_induction splitLine s with
  | case1 => simp
  | case2 s => simp
  | case3 s =>
    intro tokens heq
    cases heq
    exact Nat.lt_succ_of_lt (Nat.lt_succ_self _)
  | case4 c s _ _ ih =>
    intro tokens heq
    obtain ⟨tokens', heq', rfl⟩ := Option.map_eq_some_iff.mp heq
    exact Nat.lt_succ_of_lt (ih tokens' heq')

/-- The commands of the input and the input that is left over. -/
def processInput (pendingInput : List Char) : List (List Char) × List Char :=
  if '\n' ∈ pendingInput then
    match h : splitLine pendingInput with
    | none => ([pendingInput], [])
    | some tokens =>
      have := splitLine_length pendingInput tokens h
      (tokens.1 :: (processInput tokens.2).1, (processInput tokens.2).2)
  else ([], pendingInput)
termination_by pendingInput.length

/-- The commands of some reads, until the end of the stream. -/
def run (pendingInput : List Char) : List (List Byte) → List (List Char)
  | [] => []
  | buffer :: reads =>
    (processInput (pendingInput ++ decode buffer)).1 ++
      run (processInput (pendingInput ++ decode buffer)).2 reads

/-! ## Lines -/

/-- A line without the `\r` of its end. -/
def chop (line : List Char) : List Char :=
  if line.getLast? = some '\r' then line.dropLast else line

/-- The lines that end in a text, behind the begun one. -/
def linesFrom (line : List Char) : List Char → List (List Char)
  | [] => []
  | c :: t => if c = '\n' then chop line :: linesFrom [] t else linesFrom (line ++ [c]) t

/-- What is behind the last line end. -/
def unfinished (line : List Char) : List Char → List Char
  | [] => line
  | c :: t => if c = '\n' then unfinished [] t else unfinished (line ++ [c]) t

/-- The lines of a text. -/
def lines (t : List Char) : List (List Char) := linesFrom [] t

example : lines "state\r\nhold\n\rlog".toList = ["state".toList, "hold".toList] := by decide

variable {s t line : List Char}

theorem linesFrom_append (line s t : List Char) :
    linesFrom line (s ++ t) = linesFrom line s ++ linesFrom (unfinished line s) t := by
  induction s generalizing line with
  | nil => rfl
  | cons c s ih =>
    rw [List.cons_append, linesFrom, linesFrom, unfinished]
    split
    · rw [ih, List.cons_append]
    · exact ih _

theorem linesFrom_of_notMem (h : '\n' ∉ t) (line : List Char) : linesFrom line t = [] := by
  induction t generalizing line with
  | nil => rfl
  | cons c t ih =>
    rw [List.mem_cons, not_or] at h
    rw [linesFrom, if_neg (Ne.symm h.1)]
    exact ih h.2 _

theorem unfinished_of_notMem (h : '\n' ∉ t) (line : List Char) : unfinished line t = line ++ t := by
  induction t generalizing line with
  | nil => exact (List.append_nil line).symm
  | cons c t ih =>
    rw [List.mem_cons, not_or] at h
    rw [unfinished, if_neg (Ne.symm h.1), ih h.2, List.append_assoc, List.singleton_append]

theorem notMem_unfinished (h : '\n' ∉ line) (t : List Char) : '\n' ∉ unfinished line t := by
  induction t generalizing line with
  | nil => exact h
  | cons c t ih =>
    rw [unfinished]
    split_ifs with hc
    · exact ih List.not_mem_nil
    · exact ih (by simp [h, Ne.symm hc])

theorem chop_cons {c d : Char} : chop (c :: d :: s) = c :: chop (d :: s) := by
  rw [chop, chop, List.getLast?_cons_cons]
  split_ifs
  · rfl
  · rfl

/-- The regular expression finds the first line feed, and a `\r` in front of it. -/
theorem splitLine_eq (hs : '\n' ∉ s) (t : List Char) :
    splitLine (s ++ '\n' :: t) = some (chop s, t) := by
  induction s with
  | nil => rfl
  | cons c s ih =>
    rw [List.mem_cons, not_or] at hs
    have hrec := ih hs.2
    cases s with
    | nil =>
      by_cases hc : c = '\r'
      · subst hc
        rfl
      · rw [List.cons_append, splitLine, hrec]
        · simp [chop, hc]
        · exact Ne.symm hs.1
        · intro s' hc' _
          exact hc hc'
    | cons d s =>
      rw [List.cons_append, splitLine, hrec, chop_cons]
      · rfl
      · exact Ne.symm hs.1
      · intro s' _ hd
        exact hs.2 (List.mem_cons.mpr (Or.inl (List.cons.inj hd).1.symm))

theorem linesFrom_line (hs : '\n' ∉ s) (line t : List Char) :
    linesFrom line (s ++ '\n' :: t) = chop (line ++ s) :: lines t := by
  rw [linesFrom_append, linesFrom_of_notMem hs, unfinished_of_notMem hs, linesFrom, if_pos rfl]
  rfl

theorem unfinished_append (line s t : List Char) :
    unfinished line (s ++ t) = unfinished (unfinished line s) t := by
  induction s generalizing line with
  | nil => rfl
  | cons c s ih =>
    rw [List.cons_append, unfinished, unfinished]
    split
    · exact ih []
    · exact ih _

theorem unfinished_line (line s t : List Char) :
    unfinished line (s ++ '\n' :: t) = unfinished [] t := by
  rw [unfinished_append, unfinished, if_pos rfl]

theorem processInput_eq (t : List Char) : processInput t = (lines t, unfinished [] t) := by
  induction h : t.length using Nat.strongRecOn generalizing t with
  | _ n ih =>
    rw [processInput]
    by_cases ht : '\n' ∈ t
    · obtain ⟨s, t', rfl, hs⟩ := List.eq_append_cons_of_mem ht
      have hlen : t'.length < n := by
        rw [← h, List.length_append, List.length_cons]
        omega
      rw [if_pos ht, lines, linesFrom_line hs, unfinished_line]
      split
      · rename_i hnone
        rw [splitLine_eq hs] at hnone
        cases hnone
      · rename_i tokens hsome
        rw [splitLine_eq hs] at hsome
        cases hsome
        rw [ih t'.length hlen t' rfl, List.nil_append]
    · rw [if_neg ht, lines, linesFrom_of_notMem ht, unfinished_of_notMem ht, List.nil_append]

theorem processInput_append (hline : '\n' ∉ line) (t : List Char) :
    processInput (line ++ t) = (linesFrom line t, unfinished line t) := by
  rw [processInput_eq, lines, linesFrom_append, linesFrom_of_notMem hline, unfinished_append,
    unfinished_of_notMem hline, List.nil_append, List.nil_append]

/-- The commands are the lines of the decoded reads, so that a line end may be cut anywhere. -/
theorem run_eq (hline : '\n' ∉ line) (reads : List (List Byte)) :
    run line reads = linesFrom line (reads.flatMap decode) := by
  induction reads generalizing line with
  | nil => rfl
  | cons buffer reads ih =>
    rw [run, processInput_append hline, ih (notMem_unfinished hline _), List.flatMap_cons,
      linesFrom_append]

theorem count_chop (line : List Char) : count (chop line) = count line := by
  rw [chop]
  split_ifs with hlast
  · obtain ⟨front, rfl⟩ := List.getLast?_eq_some_iff.mp hlast
    have hcr : count ['\r'] = 0 := by decide
    rw [List.dropLast_concat, count_append, hcr, Nat.add_zero]
  · rfl

/-- The characters that are not of ASCII in the lines. -/
theorem sum_count_linesFrom (line t : List Char) :
    ((linesFrom line t).map count).sum = if '\n' ∈ t then count line + weight t else 0 := by
  have hlf : count ['\n'] = 0 := by decide
  induction t generalizing line with
  | nil => rfl
  | cons c t ih =>
    rw [linesFrom, weight]
    by_cases hc : c = '\n'
    · subst hc
      have hnil : count [] = 0 := rfl
      rw [if_pos rfl, if_pos List.mem_cons_self, List.map_cons, List.sum_cons, ih, count_chop, hlf,
        hnil, Nat.zero_add]
    · have hmem : '\n' ∈ c :: t ↔ '\n' ∈ t := List.mem_cons.trans (or_iff_right (Ne.symm hc))
      rw [if_neg hc, ih, if_congr hmem rfl rfl]
      by_cases ht : '\n' ∈ t
      · rw [if_pos ht, if_pos ht, if_pos ht, count_append, Nat.add_assoc]
      · rw [if_neg ht, if_neg ht]

theorem sum_count_lines (t : List Char) : ((lines t).map count).sum = weight t := by
  rw [lines, sum_count_linesFrom]
  split_ifs with ht
  · exact Nat.zero_add _
  · exact (weight_of_notMem ht).symm

/-! ## Reads that are cut at whole characters -/

/-- No socket read ends within a character, as far as there is a line end behind it. -/
def CutsWhole (reads : List (List Byte)) : Prop :=
  ∀ before after, reads = before ++ after →
    0x0A ∉ after.flatten ∨ Boundary before.flatten after.flatten

variable {buffer : List Byte} {reads : List (List Byte)}

theorem cutsWhole_cons : CutsWhole (buffer :: reads) ↔
    (0x0A ∉ reads.flatten ∨ Boundary buffer reads.flatten) ∧ CutsWhole reads := by
  constructor
  · intro h
    have hfirst : 0x0A ∉ reads.flatten ∨ Boundary buffer reads.flatten := by
      simpa using h [buffer] reads rfl
    refine ⟨hfirst, fun before after heq => ?_⟩
    rcases hfirst with hnone | hboundary
    · rw [heq, List.flatten_append, List.mem_append, not_or] at hnone
      exact Or.inl hnone.2
    · refine (h (buffer :: before) after (congrArg _ heq)).imp_right fun h' => ?_
      rw [heq, List.flatten_append] at hboundary
      exact (boundary_behind hboundary).mp h'
  · intro h before after heq
    obtain ⟨hfirst, h⟩ := h
    cases before with
    | nil => exact Or.inr (boundary_iff.mpr (Or.inl rfl))
    | cons buffer' before =>
      obtain ⟨rfl, heq'⟩ := List.cons.inj heq
      rw [List.append_eq] at heq'
      rcases hfirst with hnone | hboundary
      · rw [heq', List.flatten_append, List.mem_append, not_or] at hnone
        exact Or.inl hnone.2
      · rw [heq', List.flatten_append] at hboundary
        exact (h before after heq').imp_right (boundary_behind hboundary).mpr

theorem newline_mem_flatMap (reads : List (List Byte)) :
    '\n' ∈ reads.flatMap decode ↔ 0x0A ∈ reads.flatten := by
  rw [List.mem_flatMap, List.mem_flatten]
  exact exists_congr fun buffer => and_congr_right fun _ => newline_mem_decode buffer

/-- Then the reads have the lines of the stream. -/
theorem linesFrom_of_cutsWhole (h : CutsWhole reads) (line : List Char) :
    linesFrom line (reads.flatMap decode) = linesFrom line (decode reads.flatten) := by
  induction reads generalizing line with
  | nil => rfl
  | cons buffer reads ih =>
    obtain ⟨hfirst, h⟩ := cutsWhole_cons.mp h
    rw [List.flatMap_cons, List.flatten_cons]
    rcases hfirst with hnone | hboundary
    · obtain ⟨front, back, back', hwhole, hfront, hback, hback'⟩ := decode_behind hnone
      have hnone' : '\n' ∉ back' ++ reads.flatMap decode := by
        rw [List.mem_append, newline_mem_flatMap]
        exact not_or.mpr ⟨hback', hnone⟩
      rw [hwhole, hfront, List.append_assoc, linesFrom_append, linesFrom_append line front,
        linesFrom_of_notMem hback, linesFrom_of_notMem hnone']
    · rw [decode_append hboundary, linesFrom_append, linesFrom_append, ih h]

/-- Otherwise they have more characters that are not of ASCII. -/
theorem weight_reads (reads : List (List Byte)) :
    weight (decode reads.flatten) ≤ weight (reads.flatMap decode) ∧
      (weight (decode reads.flatten) = weight (reads.flatMap decode) → CutsWhole reads) := by
  induction reads with
  | nil =>
    refine ⟨le_rfl, fun _ before after heq => Or.inl ?_⟩
    obtain ⟨-, rfl⟩ := List.append_eq_nil_iff.mp heq.symm
    exact List.not_mem_nil
  | cons buffer reads ih =>
    obtain ⟨hle, hwhole⟩ := ih
    rw [List.flatMap_cons, List.flatten_cons, cutsWhole_cons]
    by_cases hmem : 0x0A ∈ reads.flatten
    · obtain ⟨hcut, hboundary⟩ := weight_cut (u := buffer) hmem
      rw [weight_append ((newline_mem_flatMap reads).mpr hmem)]
      refine ⟨by omega, fun heq => ⟨Or.inr (hboundary.mp ?_), hwhole ?_⟩⟩
      · omega
      · omega
    · have hmem' := (newline_mem_flatMap reads).not.mpr hmem
      obtain ⟨front, back, back', hfront, hbuffer, hback, hback'⟩ := decode_behind (u := buffer) hmem
      rw [hfront, hbuffer, weight_append_of_notMem hback, weight_append_of_notMem hmem',
        weight_append_of_notMem hback']
      refine ⟨le_rfl, fun _ => ⟨Or.inl hmem, hwhole ?_⟩⟩
      rw [weight_of_notMem hmem', weight_of_notMem (mt (newline_mem_decode _).mp hmem)]

/-- The commands are the lines of the decoded stream if and only if no socket read ends within
a character that a line end comes behind. -/
theorem run_commands (reads : List (List Byte)) :
    run [] reads = lines (decode reads.flatten) ↔
      ∀ before after, reads = before ++ after →
        0x0A ∉ after.flatten ∨ Boundary before.flatten after.flatten := by
  rw [run_eq List.not_mem_nil]
  constructor
  · intro h
    refine (weight_reads reads).2 ?_
    rw [← sum_count_lines, ← h]
    exact sum_count_lines _
  · intro h
    exact linesFrom_of_cutsWhole h []

/-- A letter whose bytes come with two reads is read as two replacements. -/
theorem letter_cut_apart :
    run [] [[0xC3], [0xA4, 0x0A]] ≠ lines (decode [0xC3, 0xA4, 0x0A]) := by
  rw [run_eq List.not_mem_nil]
  decide

end ConfProfile.OpenVpn
