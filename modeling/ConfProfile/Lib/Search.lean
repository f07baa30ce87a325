import Mathlib.Data.List.Infix
import Mathlib.Data.List.TakeDrop

/-!
# Searching a list for another

`indexOf` and `lastIndexOf` try the positions one by one, from the front and from
the back. The questions that are asked of them are whether the first occurrence is at
the front (`indexOf_eq_zero`), whether the last one is at the very end
(`lastIndexOf_at_end`), and what the first one is between (`First`).
-/

namespace Search

variable {α : Type*} [DecidableEq α] {s t : List α}

/-- `t` stands at the position `pos` of `s`. -/
def occursAt (s t : List α) (pos : Nat) : Bool := t.isPrefixOf (s.drop pos)

def indexOf (s t : List α) : Option Nat := (List.range (s.length + 1)).find? (occursAt s t)

def lastIndexOf (s t : List α) : Option Nat :=
  (List.range (s.length + 1)).reverse.find? (occursAt s t)

theorem occursAt_zero : occursAt s t 0 = true ↔ t <+: s := by
  rw [occursAt, List.drop_zero, List.isPrefixOf_iff_prefix]

/-- Where it stands it fits in. -/
theorem le_of_occursAt {pos : Nat} (hpos : pos ≤ s.length) (h : occursAt s t pos = true) :
    pos + t.length ≤ s.length := by
  rw [occursAt, List.isPrefixOf_iff_prefix] at h
  have hlen := h.length_le
  rw [List.length_drop] at hlen
  omega

theorem occursAt_append {before after : List α} :
    occursAt (before ++ t ++ after) t before.length = true := by
  rw [occursAt, List.append_assoc, List.drop_left, List.isPrefixOf_iff_prefix]
  exact List.prefix_append t after

/-- The elements of `t` from a position on where it stands. -/
theorem getElem?_of_occursAt {pos i : Nat} (h : occursAt s t pos = true) (hi : i < t.length) :
    s[pos + i]? = t[i]? := by
  rw [occursAt, List.isPrefixOf_iff_prefix] at h
  obtain ⟨after, hafter⟩ := h
  rw [← List.getElem?_drop, ← hafter, List.getElem?_append_left hi]

theorem occursAt_of_append {u : List α} {pos : Nat} (h : occursAt s (t ++ u) pos = true) :
    occursAt s t pos = true := by
  rw [occursAt, List.isPrefixOf_iff_prefix] at h ⊢
  exact (List.prefix_append t u).trans h

/-- What stands within the front part is in there. -/
theorem infix_of_occursAt {before after : List α} {pos : Nat}
    (h : occursAt (before ++ after) t pos = true) (hfit : pos + t.length ≤ before.length) :
    t <:+: before := by
  rw [occursAt, List.isPrefixOf_iff_prefix, List.drop_append_of_le_length (by omega)] at h
  have hpre : t <+: before.drop pos :=
    List.prefix_of_prefix_length_le h (List.prefix_append _ _) (by rw [List.length_drop]; omega)
  exact hpre.isInfix.trans (List.drop_suffix pos before).isInfix

theorem indexOf_eq_some {pos : Nat} : indexOf s t = some pos ↔
    occursAt s t pos = true ∧ pos ≤ s.length ∧ ∀ k < pos, occursAt s t k = false := by
  rw [indexOf, List.find?_range_eq_some, List.mem_range, Nat.lt_succ_iff]
  simp only [Bool.not_eq_true']

theorem indexOf_eq_zero : indexOf s t = some 0 ↔ t <+: s := by
  rw [indexOf, List.range_succ_eq_map, List.find?_cons, ← occursAt_zero]
  cases h : occursAt s t 0 with
  | true => simp
  | false =>
    refine iff_of_false (fun h0 => ?_) Bool.false_ne_true
    obtain ⟨k, -, hk⟩ := List.mem_map.mp (List.mem_of_find?_eq_some h0)
    exact absurd hk (Nat.succ_ne_zero k)

/-- The first `t` of `s` is the one between `before` and `after`. -/
structure First (t s before after : List α) : Prop where
  eq : s = before ++ t ++ after
  first : ∀ k < before.length, occursAt s t k = false

/-- What starts with an element that is not before it is the first. -/
theorem First.of_notMem {x : α} {before after : List α} (h : x ∉ before) :
    First (x :: t) (before ++ x :: t ++ after) before after := by
  refine ⟨rfl, fun k hk => ?_⟩
  by_contra hocc
  have hx := getElem?_of_occursAt (Bool.not_eq_false _ ▸ hocc) (Nat.zero_lt_succ t.length)
  rw [Nat.add_zero, List.append_assoc, List.getElem?_append_left hk] at hx
  exact h (List.mem_of_getElem? hx)

theorem First.indexOf {before after : List α} (h : First t s before after) :
    Search.indexOf s t = some before.length := by
  obtain ⟨rfl, hfirst⟩ := h
  refine indexOf_eq_some.mpr ⟨occursAt_append, ?_, hfirst⟩
  rw [List.append_assoc, List.length_append]
  omega

theorem First.of_indexOf {pos : Nat} (h : Search.indexOf s t = some pos) :
    First t s (s.take pos) (s.drop (pos + t.length)) := by
  obtain ⟨hocc, hle, hfirst⟩ := indexOf_eq_some.mp h
  rw [occursAt, List.isPrefixOf_iff_prefix] at hocc
  obtain ⟨after, hafter⟩ := hocc
  have hrest : s.drop (pos + t.length) = after := by
    rw [← List.drop_drop, ← hafter, List.drop_left]
  refine ⟨?_, fun k hk => hfirst k ?_⟩
  · rw [hrest, List.append_assoc, hafter, List.take_append_drop]
  · rw [List.length_take] at hk
    omega

theorem First.unique {before after before' after' : List α} (h : First t s before after)
    (h' : First t s before' after') : before = before' ∧ after = after' := by
  have hlen : before.length = before'.length := Option.some.inj (h.indexOf.symm.trans h'.indexOf)
  have heq := h.eq.symm.trans h'.eq
  rw [List.append_assoc, List.append_assoc] at heq
  obtain ⟨hbefore, hrest⟩ := List.append_inj heq hlen
  exact ⟨hbefore, List.append_cancel_left hrest⟩

/-- The last occurrence is at the end exactly if the list ends with it. -/
theorem lastIndexOf_at_end :
    (∃ pos, lastIndexOf s t = some pos ∧ s.length - t.length ≤ pos) ↔ t <:+ s := by
  constructor
  · intro h'
    obtain ⟨pos, hpos, hle⟩ := h'
    have hocc := List.find?_some hpos
    have hmem := List.mem_of_find?_eq_some hpos
    rw [List.mem_reverse, List.mem_range] at hmem
    have hfit := le_of_occursAt (Nat.le_of_lt_succ hmem) hocc
    rw [occursAt, List.isPrefixOf_iff_prefix] at hocc
    have heq : t = s.drop pos := hocc.eq_of_length (by rw [List.length_drop]; omega)
    rw [heq]
    exact List.drop_suffix pos s
  · intro h'
    obtain ⟨r, rfl⟩ := h'
    have hocc : occursAt (r ++ t) t r.length = true := by
      rw [occursAt, List.isPrefixOf_iff_prefix, List.drop_left]
    have hrange : r.length ∈ (List.range ((r ++ t).length + 1)).reverse := by
      rw [List.mem_reverse, List.mem_range, List.length_append]
      omega
    cases h : lastIndexOf (r ++ t) t with
    | none =>
      have hno := List.find?_eq_none.mp h r.length hrange
      exact absurd hocc hno
    | some pos =>
      refine ⟨pos, rfl, ?_⟩
      rw [List.length_append, Nat.add_sub_cancel]
      -- every position before `pos` in the order of the search fails
      obtain ⟨-, before, after, hsplit, hbefore⟩ := List.find?_eq_some_iff_append.mp h
      by_contra hlt
      have hmem : r.length ∈ before ++ pos :: after := by rwa [← hsplit]
      have hsorted : (before ++ pos :: after).Pairwise (· > ·) := by
        rw [← hsplit]
        exact List.pairwise_reverse.mpr List.pairwise_lt_range
      rw [List.pairwise_append, List.pairwise_cons] at hsorted
      rcases List.mem_append.mp hmem with hmem | hmem
      · have hno := hbefore _ hmem
        rw [hocc] at hno
        cases hno
      · rcases List.mem_cons.mp hmem with heq | hmem
        · omega
        · have hgt := hsorted.2.1.1 _ hmem
          omega

end Search
