import ConfProfile.OpenVpn.NetUtils

/-!
# Random strings (`CryptoUtils.getRandomAlphanumericString`)

The positions in the alphabet are drawn below the length of the string that is asked for, not
below the length of the alphabet. The strings that come out have the first characters of the
alphabet only where they are shorter than it, and where they are longer a draw may be behind its
end (`getRandomAlphanumericString_iff`).
-/

namespace ConfProfile.Crypto

open OpenVpn (Unchecked)

/-- The numbers that a `java.util.Random` gives: of each call, for each bound. -/
structure Random where
  draw : Nat → Nat → Nat
  draw_lt : ∀ call bound, 0 < bound → draw call bound < bound

/-- `Random.nextInt`. -/
def Random.nextInt (rnd : Random) (call bound : Nat) : Except Unchecked Nat :=
  if bound ≤ 0 then .error .illegalArgument else .ok (rnd.draw call bound)

/-- `String.substring`. -/
def substring (s : List Char) (start stop : Nat) : Except Unchecked (List Char) :=
  if start > stop ∨ stop > s.length then .error .stringIndexOutOfBounds
  else .ok ((s.take stop).drop start)

def abc : List Char := "abcdefghijklmnopqrstuvwxyz0123456789".toList

variable (rnd : Random) (len : Nat)

/-- A turn of the loop. -/
def appendRandom (builder : List Char) (i : Nat) : Except Unchecked (List Char) := do
  let pos ← rnd.nextInt i len
  return builder ++ (← substring abc pos (pos + 1))

def getRandomAlphanumericString : Except Unchecked (List Char) :=
  (List.range len).foldlM (appendRandom rnd len) []

variable {rnd : Random} {len : Nat}

theorem substring_abc (pos : Nat) : substring abc pos (pos + 1) =
    (abc[pos]?).elim (.error .stringIndexOutOfBounds) fun c => .ok [c] := by
  rw [substring]
  by_cases hpos : pos < abc.length
  · rw [if_neg (by omega), List.getElem?_eq_getElem hpos, Option.elim_some,
      List.take_succ_eq_append_getElem hpos, List.drop_left' (List.length_take_of_le hpos.le)]
  · rw [if_pos (by omega), List.getElem?_eq_none (by omega), Option.elim_none]

theorem appendRandom_eq (hlen : 0 < len) (builder : List Char) (i : Nat) :
    appendRandom rnd len builder i =
      (abc[rnd.draw i len]?).elim (.error .stringIndexOutOfBounds) fun c => .ok (builder ++ [c]) := by
  rw [appendRandom, Random.nextInt, if_neg (Nat.not_le_of_lt hlen)]
  show (do return builder ++ (← substring abc _ _)) = _
  rw [substring_abc]
  cases abc[rnd.draw i len]? <;> rfl

/-- What is appended are the characters at the positions that are drawn. -/
theorem foldlM_appendRandom (hlen : 0 < len) (calls : List Nat) {builder s : List Char} :
    calls.foldlM (appendRandom rnd len) builder = .ok s ↔
      ∃ t, List.Forall₂ (fun i c => abc[rnd.draw i len]? = some c) calls t ∧ s = builder ++ t := by
  induction calls generalizing builder with
  | nil =>
    rw [List.foldlM_nil]
    simp only [List.forall₂_nil_left_iff, exists_eq_left, List.append_nil]
    exact ⟨fun h => (Except.ok.inj h).symm, fun h => congrArg _ h.symm⟩
  | cons i calls ih =>
    rw [List.foldlM_cons, appendRandom_eq hlen]
    simp only [List.forall₂_cons_left_iff]
    cases abc[rnd.draw i len]? with
    | none =>
      refine iff_of_false (fun h => by cases h) fun h => ?_
      obtain ⟨_, ⟨c, t, hc, -⟩, -⟩ := h
      cases hc
    | some c =>
      refine ih.trans ?_
      constructor
      · intro h
        obtain ⟨t, ht, rfl⟩ := h
        exact ⟨c :: t, ⟨c, t, rfl, ht, rfl⟩, List.append_assoc ..⟩
      · intro h
        obtain ⟨_, ⟨c', t, hc, ht, rfl⟩, rfl⟩ := h
        cases hc
        exact ⟨t, ht, (List.append_assoc builder [c] t).symm⟩

theorem getRandomAlphanumericString_eq_ok {s : List Char} :
    getRandomAlphanumericString rnd len = .ok s ↔
      List.Forall₂ (fun i c => abc[rnd.draw i len]? = some c) (List.range len) s := by
  rcases Nat.eq_zero_or_pos len with rfl | hlen
  · rw [List.range_zero, List.forall₂_nil_left_iff]
    exact ⟨fun h => (Except.ok.inj h).symm, fun h => congrArg _ h.symm⟩
  · refine (foldlM_appendRandom hlen _).trans ?_
    simp only [List.nil_append]
    exact ⟨fun h => by obtain ⟨t, ht, rfl⟩ := h; exact ht, fun h => ⟨s, h, rfl⟩⟩

/-- The strings have no other characters than the first of the alphabet. -/
theorem mem_take_abc {s : List Char} (h : getRandomAlphanumericString rnd len = .ok s) :
    ∀ c ∈ s, c ∈ abc.take len := by
  have hdrawn := getRandomAlphanumericString_eq_ok.mp h
  have hlen := hdrawn.length_eq
  rw [List.length_range] at hlen
  intro c hc
  obtain ⟨i, hi, rfl⟩ := List.getElem_of_mem hc
  have hchar := hdrawn.get (by rw [List.length_range]; omega) hi
  refine List.mem_of_getElem? ((List.getElem?_take_of_lt ?_).trans hchar)
  exact rnd.draw_lt _ _ (by omega)

/-- The last character is not drawn for a string that is shorter than the alphabet. -/
theorem nine_notMem_take {len : Nat} (hlen : len < abc.length) : '9' ∉ abc.take len := by
  have hlast : '9' ∉ abc.take 35 := by decide
  have habc : abc.length = 36 := by decide
  intro hmem
  exact hlast ((List.take_subset_take_left abc (by omega)) hmem)

/-- The string has the length that is asked for, and every string of the alphabet may come out, if
and only if the length is that of the alphabet, or the string is empty. -/
theorem getRandomAlphanumericString_iff (len : Nat) :
    ((∀ rnd, ∃ s, getRandomAlphanumericString rnd len = .ok s ∧ s.length = len) ∧
      ∀ s : List Char, s.length = len → (∀ c ∈ s, c ∈ abc) →
        ∃ rnd, getRandomAlphanumericString rnd len = .ok s) ↔
      len = 0 ∨ len = abc.length := by
  have habc : abc.length = 36 := by decide
  constructor
  · intro h
    obtain ⟨hlen, hall⟩ := h
    by_contra hnot
    rw [not_or] at hnot
    rcases Nat.lt_or_gt_of_ne hnot.2 with hshort | hlong
    · have hmem : '9' ∈ abc := by decide
      obtain ⟨rnd, hrnd⟩ := hall (List.replicate len '9') List.length_replicate
        fun c hc => List.eq_of_mem_replicate hc ▸ hmem
      have hnine : '9' ∈ List.replicate len '9' := List.mem_replicate.mpr ⟨hnot.1, rfl⟩
      exact nine_notMem_take hshort (mem_take_abc hrnd '9' hnine)
    · -- the last position that may be drawn is behind the end
      let rnd : Random := ⟨fun _ bound => bound - 1, fun _ bound hbound => by omega⟩
      obtain ⟨s, hs, hslen⟩ := hlen rnd
      have hfirst := (getRandomAlphanumericString_eq_ok.mp hs).get (i := 0) (by rw [List.length_range]; omega) (by omega)
      rw [List.getElem?_eq_none (by show abc.length ≤ len - 1; omega)] at hfirst
      cases hfirst
  · intro h
    simp only [getRandomAlphanumericString_eq_ok]
    rcases h with rfl | rfl
    · refine ⟨fun rnd => ⟨[], .nil, rfl⟩, fun s hs _ => ?_⟩
      rw [List.length_eq_zero_iff.mp hs]
      exact ⟨⟨fun _ _ => 0, fun _ _ h => h⟩, .nil⟩
    · constructor
      · intro rnd
        refine ⟨(List.range abc.length).map fun i => abc.getD (rnd.draw i abc.length) 'a', ?_, by simp⟩
        rw [List.forall₂_map_right_iff, List.forall₂_same]
        intro i hi
        have hlt := rnd.draw_lt i abc.length (by decide)
        rw [List.getD_eq_getElem?_getD, List.getElem?_eq_getElem hlt, Option.getD_some]
      · intro s hs hmem
        let rnd : Random := ⟨fun call bound => abc.idxOf (s.getD call 'a') % bound,
          fun _ _ hbound => Nat.mod_lt _ hbound⟩
        refine ⟨rnd, List.forall₂_of_length_eq_of_get (by rw [List.length_range, hs]) ?_⟩
        intro i hi his
        have hc := hmem s[i] (List.getElem_mem his)
        have hdraw : rnd.draw i abc.length = abc.idxOf s[i] := by
          show abc.idxOf (s.getD i 'a') % abc.length = abc.idxOf s[i]
          rw [List.getD_eq_getElem?_getD, List.getElem?_eq_getElem his, Option.getD_some, Nat.mod_eq_of_lt (List.idxOf_lt_length_of_mem hc)]
        rw [List.get_eq_getElem, List.getElem_range, hdraw]
        exact List.getElem?_idxOf hc

/-- No password of the key store has the last digit. -/
theorem getRandomAlphanumericString_nines :
    ¬ ∃ rnd, getRandomAlphanumericString rnd 32 = .ok (List.replicate 32 '9') := by
  intro h
  obtain ⟨rnd, hrnd⟩ := h
  exact nine_notMem_take (by decide) (mem_take_abc hrnd '9' (by decide))

end ConfProfile.Crypto
