import Mathlib.Data.List.Basic
import Mathlib.Data.BitVec

/-!
# Decoding UTF-8 with replacement

A decoder cuts the bytes into segments: a byte, with the bytes behind it that continue
a well-formed sequence. A segment that is a whole character is that character, and any
other one is U+FFFD. So bytes never make a decoder fail, but a sequence that is cut
apart is decoded to as many replacements.

`Boundary u v` says that no segment of `u ++ v` has bytes of both. There the texts of the
two parts make up the text of the whole (`decode_append`), and elsewhere they have more
characters that are not of ASCII (`weight_cut`).
-/

namespace Utf8

abbrev Byte := BitVec 8

/-! ## The decoder -/

/-- The bytes that belong behind a first byte. -/
def tails (lead : Byte) : Nat :=
  if 0xC2 ≤ lead.toNat ∧ lead.toNat ≤ 0xDF then 1
  else if 0xE0 ≤ lead.toNat ∧ lead.toNat ≤ 0xEF then 2
  else if 0xF0 ≤ lead.toNat ∧ lead.toNat ≤ 0xF4 then 3
  else 0

/-- The least and the greatest second byte, by the first. -/
def second (lead : Byte) : Nat × Nat :=
  if lead = 0xE0 then (0xA0, 0xBF)
  else if lead = 0xED then (0x80, 0x9F)
  else if lead = 0xF0 then (0x90, 0xBF)
  else if lead = 0xF4 then (0x80, 0x8F)
  else (0x80, 0xBF)

/-- A byte that may stand behind the first one and `i` others. -/
def isTail (lead : Byte) (i : Nat) (b : Byte) : Bool :=
  if i = 0 then (second lead).1 ≤ b.toNat && b.toNat ≤ (second lead).2
  else 0x80 ≤ b.toNat && b.toNat ≤ 0xBF

/-- The byte belongs to the segment that is begun, if one is. -/
def continues : List Byte → Byte → Bool
  | [], _ => true
  | lead :: t, b => t.length < tails lead && isTail lead t.length b

/-- The segments of some bytes, of which `seg` is the one that is begun. -/
def segmentsFrom (seg : List Byte) : List Byte → List (List Byte)
  | [] => if seg = [] then [] else [seg]
  | b :: s => if continues seg b then segmentsFrom (seg ++ [b]) s else seg :: segmentsFrom [b] s

def segments (s : List Byte) : List (List Byte) := segmentsFrom [] s

/-- The character of a segment. -/
def charOf : List Byte → Char
  | [] => '\uFFFD'
  | lead :: t =>
    if t.length < tails lead ∨ (t = [] ∧ 0x80 ≤ lead.toNat) then '\uFFFD'
    else Char.ofNat (t.foldl (fun n b => n * 64 + b.toNat % 64)
      (if t = [] then lead.toNat else lead.toNat % 2 ^ (6 - t.length)))

def decodeFrom (seg s : List Byte) : List Char := (segmentsFrom seg s).map charOf

def decode (s : List Byte) : List Char := decodeFrom [] s

example : decode [0xE2, 0x82, 0xAC, 0x0A, 0xC3, 0x41] = ['€', '\n', '\uFFFD', 'A'] := by decide

/-! ## Cuts -/

/-- No segment has bytes in front of the cut and behind it. -/
def Boundary (u v : List Byte) : Prop := ∃ ss, ss <+: segments (u ++ v) ∧ ss.flatten = u

/-- The segments that end in `u`, and the one that is begun at its end. -/
def emitted (seg : List Byte) : List Byte → List (List Byte)
  | [] => []
  | b :: u => if continues seg b then emitted (seg ++ [b]) u else seg :: emitted [b] u

def begun (seg : List Byte) : List Byte → List Byte
  | [] => seg
  | b :: u => if continues seg b then begun (seg ++ [b]) u else begun [b] u

variable {seg u v s : List Byte} {b : Byte}

theorem segmentsFrom_append (seg u v : List Byte) :
    segmentsFrom seg (u ++ v) = emitted seg u ++ segmentsFrom (begun seg u) v := by
  induction u generalizing seg with
  | nil => rfl
  | cons b u ih =>
    rw [List.cons_append, segmentsFrom, emitted, begun]
    split
    · exact ih _
    · rw [ih, List.cons_append]

theorem segmentsFrom_eq (seg u : List Byte) :
    segmentsFrom seg u = emitted seg u ++ if begun seg u = [] then [] else [begun seg u] := by
  have happ := segmentsFrom_append seg u []
  rwa [List.append_nil, segmentsFrom] at happ

theorem flatten_emitted (seg u : List Byte) :
    (emitted seg u).flatten ++ begun seg u = seg ++ u := by
  induction u generalizing seg with
  | nil => simp [emitted, begun]
  | cons b u ih =>
    rw [emitted, begun]
    split
    · rw [ih, List.append_assoc, List.singleton_append]
    · rw [List.flatten_cons, List.append_assoc, ih, List.singleton_append]

theorem begun_ne_nil (hseg : seg ≠ []) (u : List Byte) : begun seg u ≠ [] := by
  induction u generalizing seg with
  | nil => exact hseg
  | cons b u ih =>
    rw [begun]
    split
    · exact ih (by simp)
    · exact ih (List.cons_ne_nil _ _)

theorem begun_eq_nil : begun [] u = [] ↔ u = [] := by
  cases u with
  | nil => simp [begun]
  | cons b u =>
    exact iff_of_false (begun_ne_nil (List.cons_ne_nil b []) u) (List.cons_ne_nil _ _)

/-- The segment that is begun is part of the first one. -/
theorem segmentsFrom_head (hseg : seg ≠ []) (v : List Byte) :
    ∃ seg' ss, segmentsFrom seg v = seg' :: ss ∧ seg <+: seg' := by
  induction v generalizing seg with
  | nil => exact ⟨seg, [], if_neg hseg, List.prefix_rfl⟩
  | cons b v ih =>
    rw [segmentsFrom]
    split
    · obtain ⟨seg', ss, heq, hpre⟩ := ih (List.append_ne_nil_of_left_ne_nil hseg [b])
      exact ⟨seg', ss, heq, (List.prefix_append seg [b]).trans hpre⟩
    · exact ⟨seg, _, rfl, List.prefix_rfl⟩

/-- A cut is no boundary where the byte behind it belongs to the segment in front of it. -/
theorem boundary_iff : Boundary u v ↔ u = [] ∨ ∀ b ∈ v.head?, continues (begun [] u) b = false := by
  have hflat := flatten_emitted [] u
  rw [List.nil_append] at hflat
  by_cases hu : u = []
  · exact iff_of_true ⟨[], List.nil_prefix, hu.symm⟩ (Or.inl hu)
  have hbegun : begun [] u ≠ [] := fun h => hu (begun_eq_nil.mp h)
  have hlen : 0 < (begun [] u).length := List.length_pos_iff.mpr hbegun
  constructor
  · intro h'
    obtain ⟨ss, hpre, hss⟩ := h'
    refine Or.inr fun b hb => ?_
    by_contra hcontinues
    obtain ⟨v', rfl⟩ : ∃ v', v = b :: v' := List.head?_eq_some_iff.mp hb
    have hne : begun [] u ++ [b] ≠ [] := List.append_ne_nil_of_left_ne_nil hbegun [b]
    obtain ⟨seg', ss', heq, hseg'⟩ := segmentsFrom_head hne v'
    rw [segments, segmentsFrom_append, segmentsFrom, if_pos (Bool.not_eq_false _ ▸ hcontinues),
      heq] at hpre
    have hlength := congrArg List.length hflat
    have hseg'len := hseg'.length_le
    rw [List.length_append] at hlength
    rw [List.length_append, List.length_singleton] at hseg'len
    have htotal := congrArg List.length hss
    rcases Nat.lt_or_ge (emitted [] u).length ss.length with hlt | hle
    rotate_left
    · -- the segments end before the one that is begun
      obtain ⟨ss'', hss''⟩ := List.prefix_of_prefix_length_le hpre (List.prefix_append _ _) hle
      rw [← hss'', List.flatten_append, List.length_append] at hlength
      omega
    · -- they have the whole of it
      obtain ⟨ss'', hss''⟩ :=
        List.prefix_of_prefix_length_le (List.prefix_append _ _) hpre hlt.le
      cases ss'' with
      | nil =>
        rw [List.append_nil] at hss''
        rw [hss''] at hlt
        exact lt_irrefl _ hlt
      | cons seg'' ss'' =>
        rw [← hss''] at hpre htotal
        have hsame := (List.cons_prefix_cons.mp ((List.prefix_append_right_inj _).mp hpre)).1
        rw [List.flatten_append, List.length_append, List.flatten_cons, List.length_append,
          hsame] at htotal
        omega
  · intro h
    have hhead := h.resolve_left hu
    refine ⟨emitted [] u ++ [begun [] u], ?_, by simpa using hflat⟩
    rw [segments, segmentsFrom_append]
    refine (List.prefix_append_right_inj _).mpr ?_
    cases v with
    | nil =>
      rw [segmentsFrom, if_neg hbegun]
    | cons b v =>
      rw [segmentsFrom, if_neg (Bool.eq_false_iff.mp (hhead b rfl))]
      exact List.cons_prefix_cons.mpr ⟨rfl, List.nil_prefix⟩

theorem begun_append (seg u v : List Byte) : begun seg (u ++ v) = begun (begun seg u) v := by
  induction u generalizing seg with
  | nil => rfl
  | cons b u ih =>
    rw [List.cons_append, begun, begun]
    split
    · exact ih _
    · exact ih _

/-- Behind a boundary the cuts are those of the bytes behind it. -/
theorem boundary_behind {r : List Byte} (h : Boundary r (u ++ v)) :
    Boundary (r ++ u) v ↔ Boundary u v := by
  cases u with
  | nil =>
    rw [List.append_nil]
    exact iff_of_true h (boundary_iff.mpr (Or.inl rfl))
  | cons b u =>
    have hbegun : begun [] (r ++ b :: u) = begun [] (b :: u) := by
      rcases boundary_iff.mp h with rfl | hhead
      · rfl
      · by_cases hr : begun [] r = []
        · rw [begun_append, hr]
        · rw [begun_append, begun, if_neg (Bool.eq_false_iff.mp (hhead b rfl))]
          rfl
    rw [boundary_iff, boundary_iff, hbegun]
    exact or_congr_left (iff_of_false (by simp) (List.cons_ne_nil b u))

/-- At a boundary the texts of the parts make up the text. -/
theorem decode_append (h : Boundary u v) : decode (u ++ v) = decode u ++ decode v := by
  rw [decode, decode, decode, decodeFrom, decodeFrom, decodeFrom, segmentsFrom_append,
    segmentsFrom_eq [] u, List.map_append, List.map_append, List.append_assoc]
  congr 1
  rcases boundary_iff.mp h with rfl | hhead
  · rfl
  · by_cases hbegun : begun [] u = []
    · rw [hbegun, if_pos rfl, List.map_nil, List.nil_append]
    · rw [if_neg hbegun]
      cases v with
      | nil => rw [segmentsFrom, if_neg hbegun, segmentsFrom, if_pos rfl]; rfl
      | cons b v =>
        rw [segmentsFrom, if_neg (Bool.eq_false_iff.mp (hhead b rfl))]
        rfl

/-! ## Line feeds -/

/-- No byte too many, and the second one fits to the first. -/
def WellBegun (seg : List Byte) : Prop :=
  ∀ lead t, seg = lead :: t → t.length ≤ tails lead ∧ ∀ b ∈ t.head?, isTail lead 0 b = true

theorem wellBegun_nil : WellBegun [] := by
  intro lead t h
  cases h

theorem wellBegun_singleton (b : Byte) : WellBegun [b] := by
  intro lead t h
  cases h
  exact ⟨Nat.zero_le _, fun b' hb' => by cases hb'⟩

theorem WellBegun.append (h : WellBegun seg) (hb : continues seg b = true) :
    WellBegun (seg ++ [b]) := by
  intro lead t heq
  cases seg with
  | nil =>
    cases heq
    exact ⟨Nat.zero_le _, fun b' hb' => by cases hb'⟩
  | cons lead' t' =>
    obtain ⟨rfl, rfl⟩ := List.cons.inj heq
    rw [continues, Bool.and_eq_true, decide_eq_true_eq] at hb
    refine ⟨by simpa [Nat.succ_le_iff] using hb.1, fun b' hb' => ?_⟩
    cases t' with
    | nil =>
      cases hb'
      exact hb.2
    | cons b'' t' =>
      cases hb'
      exact (h lead' (b' :: t') rfl).2 b' rfl

theorem ofNat_eq_newline {n : Nat} (h : Char.ofNat n = '\n') : n = 10 := by
  have hnat := congrArg Char.toNat h
  by_cases hvalid : n.isValidChar
  · rw [Char.ofNat, dif_pos hvalid] at hnat
    exact hnat
  · rw [Char.ofNat, dif_neg hvalid] at hnat
    exact absurd hnat (by decide)

theorem le_foldl (n : Nat) (t : List Byte) :
    n ≤ t.foldl (fun n b => n * 64 + b.toNat % 64) n := by
  induction t generalizing n with
  | nil => exact le_rfl
  | cons b t ih =>
    rw [List.foldl_cons]
    exact le_trans (by omega) (ih _)

/-- The least number of a sequence of more than one byte. -/
theorem lead_or_second : ∀ lead : Byte, 0 < tails lead →
    1 ≤ lead.toNat % 2 ^ (6 - tails lead) ∨ (0x90 ≤ (second lead).1 ∧ (second lead).2 ≤ 0xBF) := by
  decide

/-- A sequence is no longer than it has to be, so that it is none for a character of ASCII. -/
theorem charOf_eq_newline (h : WellBegun seg) : charOf seg = '\n' ↔ seg = [0x0A] := by
  cases seg with
  | nil => exact iff_of_false (by decide) (by simp)
  | cons lead t =>
    obtain ⟨hlen, hsecond⟩ := h lead t rfl
    rw [charOf]
    split_ifs with hbad hnil
    · refine iff_of_false (by decide) fun heq => ?_
      cases heq
      exact absurd hbad (by decide)
    · subst hnil
      constructor
      · intro heq
        have hlead : lead = 0x0A := BitVec.eq_of_toNat_eq (ofNat_eq_newline heq)
        rw [hlead]
      · intro heq
        cases heq
        rfl
    · obtain ⟨b, t, rfl⟩ := List.exists_cons_of_ne_nil hnil
      refine iff_of_false (fun heq => ?_) fun heq => hnil (List.cons.inj heq).2
      have hten := ofNat_eq_newline heq
      rw [List.foldl_cons] at hten
      have hle := le_foldl (lead.toNat % 2 ^ (6 - (b :: t).length) * 64 + b.toNat % 64) t
      rw [hten] at hle
      have htail := hsecond b rfl
      rw [not_or, Nat.not_lt] at hbad
      have hlength : (b :: t).length = tails lead := Nat.le_antisymm hlen hbad.1
      have hpos : 0 < (b :: t).length := Nat.zero_lt_succ _
      rw [hlength] at hle hpos
      simp only [isTail, if_true, Bool.and_eq_true, decide_eq_true_eq] at htail
      rcases lead_or_second lead hpos with hlead | hsecond
      · omega
      · omega

theorem second_within : ∀ lead : Byte, 0x80 ≤ (second lead).1 ∧ (second lead).2 ≤ 0xBF := by decide

theorem le_of_isTail {lead : Byte} {i : Nat} (h : isTail lead i b = true) :
    0x80 ≤ b.toNat ∧ b.toNat ≤ 0xBF := by
  have hsecond := second_within lead
  rw [isTail] at h
  split_ifs at h <;> simp only [Bool.and_eq_true, decide_eq_true_eq] at h <;> omega

theorem continues_cons {lead : Byte} {t : List Byte} (h : continues (lead :: t) b = true) :
    t.length < tails lead ∧ 0x80 ≤ b.toNat ∧ b.toNat ≤ 0xBF := by
  rw [continues, Bool.and_eq_true, decide_eq_true_eq] at h
  exact ⟨h.1, le_of_isTail h.2⟩

theorem decode_cons (b : Byte) (s : List Byte) : decode (b :: s) = decodeFrom [b] s := rfl

/-- A line feed is always a character of its own. -/
theorem newline_mem_decodeFrom (h : WellBegun seg) (s : List Byte) :
    '\n' ∈ decodeFrom seg s ↔ seg = [0x0A] ∨ 0x0A ∈ s := by
  induction s generalizing seg with
  | nil =>
    rw [decodeFrom, segmentsFrom]
    split_ifs with hseg
    · simp [hseg]
    · simpa [eq_comm] using charOf_eq_newline h
  | cons b s ih =>
    rw [decodeFrom, segmentsFrom, List.mem_cons]
    split_ifs with hcontinues
    · rw [← decodeFrom, ih (h.append hcontinues)]
      cases seg with
      | nil => simp [eq_comm]
      | cons lead t =>
        obtain ⟨hlen, hb⟩ := continues_cons hcontinues
        have hne : (0x0A : Byte) ≠ b := by
          intro heq
          rw [← heq] at hb
          exact absurd hb (by decide)
        have hlead : lead :: t ≠ [0x0A] := by
          intro heq
          cases heq
          exact absurd hlen (by decide)
        have hlead' : lead :: t ++ [b] ≠ [0x0A] := by simp
        rw [or_iff_right hlead', or_iff_right hlead, or_iff_right hne]
    · rw [List.map_cons, List.mem_cons, ← decodeFrom, ih (wellBegun_singleton b), eq_comm,
        charOf_eq_newline h]
      simp [eq_comm]

theorem newline_mem_decode (s : List Byte) : '\n' ∈ decode s ↔ 0x0A ∈ s := by
  rw [decode, newline_mem_decodeFrom wellBegun_nil]
  simp

theorem wellBegun_begun (h : WellBegun seg) (u : List Byte) : WellBegun (begun seg u) := by
  induction u generalizing seg with
  | nil => exact h
  | cons b u ih =>
    rw [begun]
    split_ifs with hcontinues
    · exact ih (h.append hcontinues)
    · exact ih (wellBegun_singleton b)

/-- The text of the segments that end in `u`. -/
def emittedText (u : List Byte) : List Char := (emitted [] u).map charOf

theorem decode_append_eq (u v : List Byte) :
    decode (u ++ v) = emittedText u ++ decodeFrom (begun [] u) v := by
  rw [decode, decodeFrom, segmentsFrom_append, List.map_append]
  rfl

theorem decode_eq (hu : u ≠ []) : decode u = emittedText u ++ [charOf (begun [] u)] := by
  rw [decode, decodeFrom, segmentsFrom_eq, if_neg fun h => hu (begun_eq_nil.mp h),
    List.map_append]
  rfl

/-- A cut apart character, where the cut is no boundary. -/
theorem cut_of_not_boundary (h : ¬ Boundary u v) : u ≠ [] ∧ ∃ b v', v = b :: v' ∧
    continues (begun [] u) b = true := by
  rw [boundary_iff, not_or, not_forall] at h
  obtain ⟨hu, b, hb⟩ := h
  rw [Classical.not_imp, Bool.not_eq_false] at hb
  obtain ⟨v', hv⟩ := List.head?_eq_some_iff.mp hb.1
  exact ⟨hu, b, v', hv, hb.2⟩

/-- Without a line feed behind the cut, the texts are the same up to the last one. -/
theorem decode_behind (hv : 0x0A ∉ v) : ∃ front back back', decode (u ++ v) = front ++ back ∧
    decode u = front ++ back' ∧ '\n' ∉ back ∧ '\n' ∉ back' := by
  by_cases hboundary : Boundary u v
  · refine ⟨decode u, decode v, [], decode_append hboundary, (List.append_nil _).symm, ?_,
      List.not_mem_nil⟩
    rwa [newline_mem_decode]
  · obtain ⟨hu, b, v', -, hcontinues⟩ := cut_of_not_boundary hboundary
    have hbegun := wellBegun_begun wellBegun_nil u
    have hne : begun [] u ≠ [0x0A] := by
      intro heq
      rw [heq] at hcontinues
      exact absurd (continues_cons hcontinues).1 (by decide)
    refine ⟨emittedText u, decodeFrom (begun [] u) v, [charOf (begun [] u)],
      decode_append_eq u v, decode_eq hu, ?_, ?_⟩
    · rw [newline_mem_decodeFrom hbegun]
      exact not_or.mpr ⟨hne, hv⟩
    · rw [List.mem_singleton, eq_comm, charOf_eq_newline hbegun]
      exact hne

/-! ## Characters that are not of ASCII -/

/-- Their number. -/
def count (t : List Char) : Nat := t.countP fun c => 0x80 ≤ c.toNat

/-- Their number in front of the last line feed. -/
def weight : List Char → Nat
  | [] => 0
  | c :: t => if '\n' ∈ t then count [c] + weight t else 0

theorem count_append (s t : List Char) : count (s ++ t) = count s + count t := List.countP_append

theorem weight_append {t : List Char} (ht : '\n' ∈ t) (s : List Char) :
    weight (s ++ t) = count s + weight t := by
  induction s with
  | nil => simp [count]
  | cons c s ih =>
    have hcons : count (c :: s) = count [c] + count s := count_append [c] s
    rw [List.cons_append, weight, if_pos (List.mem_append_right _ ht), ih, hcons, Nat.add_assoc]

theorem weight_of_notMem {t : List Char} (ht : '\n' ∉ t) : weight t = 0 := by
  cases t with
  | nil => rfl
  | cons c t =>
    rw [weight, if_neg fun h => ht (List.mem_cons_of_mem c h)]

theorem weight_append_of_notMem {t : List Char} (ht : '\n' ∉ t) (s : List Char) :
    weight (s ++ t) = weight s := by
  induction s with
  | nil => exact weight_of_notMem ht
  | cons c s ih =>
    rw [List.cons_append, weight, weight, ih]
    exact if_congr (List.mem_append.trans (or_iff_left ht)) rfl rfl

theorem count_singleton_le (c : Char) : count [c] ≤ 1 := List.countP_le_length

/-- A byte that only stands behind others is replaced where it stands alone. -/
theorem decodeFrom_tail (hb : 0x80 ≤ b.toNat ∧ b.toNat ≤ 0xBF) (s : List Byte) :
    decodeFrom [b] s = '\uFFFD' :: decode s := by
  have htails : tails b = 0 := by
    rw [tails, if_neg (by omega), if_neg (by omega), if_neg (by omega)]
  have hchar : charOf [b] = '\uFFFD' := by
    rw [charOf, if_pos (Or.inr ⟨rfl, hb.1⟩)]
  cases s with
  | nil =>
    rw [decodeFrom, segmentsFrom, if_neg (List.cons_ne_nil _ _), List.map_singleton, hchar]
    rfl
  | cons b' s =>
    have hstop : continues [b] b' = false := by
      rw [continues, htails]
      rfl
    rw [decodeFrom, segmentsFrom, if_neg (Bool.eq_false_iff.mp hstop), List.map_cons, hchar]
    rfl

/-- What is begun in front of some bytes adds one character at most. -/
theorem weight_decodeFrom_le {s : List Byte} (hs : 0x0A ∈ s) (seg : List Byte) :
    weight (decodeFrom seg s) ≤ 1 + weight (decode s) := by
  induction s generalizing seg with
  | nil => cases hs
  | cons b s ih =>
    cases seg with
    | nil => exact Nat.le_add_left _ _
    | cons lead t =>
      rw [decodeFrom, segmentsFrom]
      split_ifs with hcontinues
      · have hb := (continues_cons hcontinues).2
        have hs' : 0x0A ∈ s := by
          refine (List.mem_cons.mp hs).resolve_left fun heq => ?_
          rw [← heq] at hb
          exact absurd hb (by decide)
        have hle := ih hs' (lead :: t ++ [b])
        rw [decode_cons, decodeFrom_tail hb, weight, if_pos ((newline_mem_decode s).mpr hs')]
        exact hle.trans (Nat.add_le_add_left (Nat.le_add_left _ _) 1)
      · have hmem : '\n' ∈ decode (b :: s) := (newline_mem_decode _).mpr hs
        rw [List.map_cons, ← decodeFrom, ← decode_cons, weight, if_pos hmem]
        exact Nat.add_le_add_right (count_singleton_le _) _

/-- A cut makes more of them in front of a line feed, unless it is at a boundary. -/
theorem weight_cut (hv : 0x0A ∈ v) : weight (decode (u ++ v)) ≤ count (decode u) + weight (decode v) ∧
    (weight (decode (u ++ v)) = count (decode u) + weight (decode v) ↔ Boundary u v) := by
  by_cases hboundary : Boundary u v
  · have heq : weight (decode (u ++ v)) = count (decode u) + weight (decode v) := by
      rw [decode_append hboundary, weight_append ((newline_mem_decode v).mpr hv)]
    exact ⟨heq.le, iff_of_true heq hboundary⟩
  · have hlt : weight (decode (u ++ v)) < count (decode u) + weight (decode v) := by
      obtain ⟨hu, b, v', rfl, hcontinues⟩ := cut_of_not_boundary hboundary
      obtain ⟨lead, t, hbegun⟩ :=
        List.exists_cons_of_ne_nil fun h => hu (begun_eq_nil.mp h)
      rw [hbegun] at hcontinues
      obtain ⟨hlen, hb⟩ := continues_cons hcontinues
      have hv' : 0x0A ∈ v' := by
        refine (List.mem_cons.mp hv).resolve_left fun heq => ?_
        rw [← heq] at hb
        exact absurd hb (by decide)
      -- both parts of the character are replaced
      have hchar : charOf (lead :: t) = '\uFFFD' := by rw [charOf, if_pos (Or.inl hlen)]
      have hwhole : decodeFrom (lead :: t) (b :: v') = decodeFrom (lead :: t ++ [b]) v' := by
        rw [decodeFrom, segmentsFrom, if_pos hcontinues]
        rfl
      have hwell : WellBegun (lead :: t ++ [b]) :=
        (hbegun ▸ wellBegun_begun wellBegun_nil u).append hcontinues
      have hmem : '\n' ∈ decodeFrom (lead :: t ++ [b]) v' :=
        (newline_mem_decodeFrom hwell v').mpr (Or.inr hv')
      have hle := weight_decodeFrom_le hv' (lead :: t ++ [b])
      rw [decode_append_eq, hbegun, hwhole, weight_append hmem, decode_eq hu, hbegun, hchar,
        count_append, decode_cons, decodeFrom_tail hb, weight,
        if_pos ((newline_mem_decode v').mpr hv')]
      have hone : count ['\uFFFD'] = 1 := by decide
      omega
    exact ⟨hlt.le, iff_of_false hlt.ne hboundary⟩

end Utf8
