import Mathlib.Data.List.DropRight

/-!
# Fields of a line

A line is cut at the first separator (`cut`), at no more than so many (`splitLimit`), or at
each of them, where empty fields at the end are left out (`split`).
-/

namespace Fields

variable {α : Type} [DecidableEq α] {c : α} {s a b : List α}

/-- What is in front of the first separator and what is behind it. -/
def cut (c : α) : List α → Option (List α × List α)
  | [] => none
  | d :: s => if d = c then some ([], s) else (cut c s).map fun r => (d :: r.1, r.2)

/-- The fields, no more than the limit. -/
def splitLimit (c : α) : Nat → List α → List (List α)
  | n + 2, s =>
    match cut c s with
    | none => [s]
    | some r => r.1 :: splitLimit c (n + 1) r.2
  | _, s => [s]

/-- The fields between the separators; `field` is the current one. -/
def fields (c : α) (field : List α) : List α → List (List α)
  | [] => [field]
  | d :: s => if d = c then field :: fields c [] s else fields c (field ++ [d]) s

/-- The fields but empty ones at the end, unless there is one only. -/
def split (c : α) (s : List α) : List (List α) :=
  match fields c [] s with
  | [field] => [field]
  | fields => (fields.reverse.dropWhile (·.isEmpty)).reverse

/-- The first separator is between `a` and `b`. -/
structure CutAt (c : α) (s a b : List α) : Prop where
  eq : s = a ++ c :: b
  notMem : c ∉ a

theorem cut_eq_some : cut c s = some (a, b) ↔ CutAt c s a b := by
  induction s generalizing a with
  | nil =>
    refine iff_of_false (by simp [cut]) fun h => ?_
    exact absurd h.eq (by simp)
  | cons d s ih =>
    rw [cut]
    split_ifs with hd
    · subst hd
      constructor
      · intro h
        cases h
        exact ⟨rfl, List.not_mem_nil⟩
      · intro h
        obtain ⟨heq, hnot⟩ := h
        cases a with
        | nil =>
          cases heq
          rfl
        | cons d' a =>
          cases heq
          exact absurd List.mem_cons_self hnot
    · rw [Option.map_eq_some_iff]
      constructor
      · intro h
        obtain ⟨r, hr, heq⟩ := h
        cases heq
        obtain ⟨rfl, hnot⟩ := ih.mp hr
        exact ⟨rfl, by simp [hnot, Ne.symm hd]⟩
      · intro h
        obtain ⟨heq, hnot⟩ := h
        cases a with
        | nil =>
          cases heq
          exact absurd rfl hd
        | cons d' a =>
          cases heq
          exact ⟨(a, b), ih.mpr ⟨rfl, fun h => hnot (List.mem_cons_of_mem _ h)⟩, rfl⟩

theorem splitLimit_of_cut {n : Nat} (h : cut c s = some (a, b)) :
    splitLimit c (n + 2) s = a :: splitLimit c (n + 1) b := by
  rw [splitLimit, h]

theorem splitLimit_of_cut_eq_none {n : Nat} (h : cut c s = none) :
    splitLimit c (n + 2) s = [s] := by
  rw [splitLimit, h]

/-- With a limit of two there is a second field behind a separator. -/
theorem splitLimit_two {x : List α} : (splitLimit c 2 s)[1]? = some x ↔ ∃ a, CutAt c s a x := by
  simp only [← cut_eq_some]
  cases hcut : cut c s with
  | none =>
    rw [splitLimit_of_cut_eq_none hcut]
    simp
  | some r =>
    obtain ⟨a, b⟩ := r
    rw [splitLimit_of_cut hcut]
    simp [splitLimit]

/-! ## Fields and separators -/

theorem fields_eq (c : α) (field s : List α) :
    fields c field s = (s.splitOn c).modifyHead (field ++ ·) := by
  induction s generalizing field with
  | nil => rw [fields, List.splitOn_nil, List.modifyHead_cons, List.append_nil]
  | cons d s ih =>
    rw [fields, List.splitOn_cons_eq_if_modifyHead]
    by_cases hd : d = c
    · rw [if_pos hd, if_pos (beq_iff_eq.mpr hd), ih, List.modifyHead_cons, List.append_nil]
      obtain ⟨field', fields', heq⟩ := List.exists_cons_of_ne_nil (List.splitOn_ne_nil c s)
      rw [heq]
      rfl
    · rw [if_neg hd, if_neg (mt beq_iff_eq.mp hd), ih]
      obtain ⟨field', fields', heq⟩ := List.exists_cons_of_ne_nil (List.splitOn_ne_nil c s)
      rw [heq, List.modifyHead_cons, List.modifyHead_cons, List.modifyHead_cons,
        List.append_assoc, List.singleton_append]

theorem fields_nil_eq (c : α) (s : List α) : fields c [] s = s.splitOn c := by
  rw [fields_eq]
  obtain ⟨field, fields, heq⟩ := List.exists_cons_of_ne_nil (List.splitOn_ne_nil c s)
  rw [heq]
  rfl

/-- A field has no separator. -/
theorem notMem_of_mem_splitOn {field : List α} (h : field ∈ s.splitOn c) : c ∉ field := by
  induction s generalizing field with
  | nil =>
    rw [List.splitOn_nil, List.mem_singleton] at h
    rw [h]
    exact List.not_mem_nil
  | cons d s ih =>
    rw [List.splitOn_cons_eq_if_modifyHead] at h
    by_cases hd : d = c
    · rw [if_pos (beq_iff_eq.mpr hd)] at h
      rcases List.mem_cons.mp h with rfl | h
      · exact List.not_mem_nil
      · exact ih h
    · rw [if_neg (mt beq_iff_eq.mp hd)] at h
      obtain ⟨field', fields', heq⟩ := List.exists_cons_of_ne_nil (List.splitOn_ne_nil c s)
      rw [heq, List.modifyHead_cons] at h
      rw [heq] at ih
      rcases List.mem_cons.mp h with rfl | h
      · rw [List.mem_cons, not_or]
        exact ⟨Ne.symm hd, ih List.mem_cons_self⟩
      · exact ih (List.mem_cons_of_mem _ h)

/-- The fields are those that the separators stand between. -/
theorem splitOn_eq_iff {fields : List (List α)} (hne : fields ≠ []) :
    s.splitOn c = fields ↔ (∀ field ∈ fields, c ∉ field) ∧ s = [c].intercalate fields := by
  constructor
  · rintro rfl
    exact ⟨fun field h => notMem_of_mem_splitOn h, (List.intercalate_splitOn c).symm⟩
  · rintro ⟨hnot, rfl⟩
    exact List.splitOn_intercalate c hnot hne

omit [DecidableEq α] in
theorem mem_intercalate {fields : List (List α)} {d : α} (h : d ∈ [c].intercalate fields) :
    d = c ∨ ∃ field ∈ fields, d ∈ field := by
  induction fields with
  | nil => cases h
  | cons field fields ih =>
    by_cases hnil : fields = []
    · subst hnil
      rw [List.intercalate_singleton] at h
      exact Or.inr ⟨field, List.mem_cons_self, h⟩
    · rw [List.intercalate_cons_of_ne_nil hnil, List.mem_append, List.mem_append,
        List.mem_singleton] at h
      rcases h with (h | h) | h
      · exact Or.inr ⟨field, List.mem_cons_self, h⟩
      · exact Or.inl h
      · refine (ih h).imp_right fun hfield => ?_
        obtain ⟨field', hmem, hd⟩ := hfield
        exact ⟨field', List.mem_cons_of_mem _ hmem, hd⟩

omit [DecidableEq α] in
theorem intercalate_append {fields fields' : List (List α)} (h : fields ≠ []) (h' : fields' ≠ []) :
    [c].intercalate (fields ++ fields') =
      [c].intercalate fields ++ c :: [c].intercalate fields' := by
  induction fields with
  | nil => exact absurd rfl h
  | cons field fields ih =>
    by_cases hnil : fields = []
    · subst hnil
      rw [List.singleton_append, List.intercalate_singleton, List.intercalate_cons_of_ne_nil h',
        List.append_assoc, List.singleton_append]
    · have hne : fields ++ fields' ≠ [] := List.append_ne_nil_of_left_ne_nil hnil fields'
      rw [List.cons_append, List.intercalate_cons_of_ne_nil hne, ih hnil,
        List.intercalate_cons_of_ne_nil hnil]
      simp only [List.append_assoc]

omit [DecidableEq α] in
/-- Empty fields at the end are separators at the end. -/
theorem intercalate_append_replicate {fields : List (List α)} (hne : fields ≠ []) (j : Nat) :
    [c].intercalate (fields ++ List.replicate j []) =
      [c].intercalate fields ++ List.replicate j c := by
  induction j with
  | zero => rw [List.replicate_zero, List.append_nil, List.replicate_zero, List.append_nil]
  | succ j ih =>
    have hne' : fields ++ List.replicate j [] ≠ [] := List.append_ne_nil_of_left_ne_nil hne _
    rw [List.replicate_succ', ← List.append_assoc, intercalate_append hne' (List.cons_ne_nil _ _),
      ih, List.intercalate_singleton, List.replicate_succ', List.append_assoc]

theorem split_eq (c : α) (s : List α) : split c s =
    if (s.splitOn c).length = 1 then s.splitOn c else (s.splitOn c).rdropWhile (·.isEmpty) := by
  rw [split, fields_nil_eq]
  split
  next field heq => rw [heq, if_pos List.length_singleton]
  next fields hfields =>
    rw [if_neg]
    · rfl
    · intro h
      obtain ⟨field, heq⟩ := List.length_eq_one_iff.mp h
      exact hfields field heq

/-- A separator in front leaves an empty field there, unless nothing is left. -/
theorem split_cons_separator (c : α) (s : List α) :
    split c (c :: s) = [] ∨ [] ∈ split c (c :: s) := by
  have hcons : (c :: s).splitOn c = [] :: s.splitOn c := by
    rw [List.splitOn_cons_eq_if_modifyHead, if_pos (beq_self_eq_true c)]
  have hone : ([] :: s.splitOn c).length ≠ 1 := by
    rw [List.length_cons]
    have hpos := List.length_pos_of_ne_nil (List.splitOn_ne_nil c s)
    omega
  have hfront := List.rdropWhile_prefix (p := (·.isEmpty)) (l := [] :: s.splitOn c)
  rw [split_eq, hcons, if_neg hone]
  cases hsplit : ([] :: s.splitOn c).rdropWhile (·.isEmpty) with
  | nil => exact Or.inl rfl
  | cons field fields =>
    rw [hsplit, List.cons_prefix_cons] at hfront
    rw [hfront.1]
    exact Or.inr List.mem_cons_self

/-- What is left of the fields where the last one that is left is not empty. -/
theorem split_iff {fields : List (List α)} {last : List α} (hlast : fields.getLast? = some last)
    (hne : last ≠ []) : split c s = fields ↔ (∀ field ∈ fields, c ∉ field) ∧
      ∃ j, s = [c].intercalate fields ++ List.replicate j c := by
  have hfields : fields ≠ [] := by
    rintro rfl
    cases hlast
  obtain ⟨init, rfl⟩ := List.getLast?_eq_some_iff.mp hlast
  have hkeep : ∀ j, (init ++ [last] ++ List.replicate j []).rdropWhile (·.isEmpty) =
      init ++ [last] := by
    intro j
    induction j with
    | zero =>
      rw [List.replicate_zero, List.append_nil, List.rdropWhile_concat_neg _ _ _ (by simpa using hne)]
    | succ j ih =>
      rw [List.replicate_succ', ← List.append_assoc, List.rdropWhile_concat_pos _ _ _ rfl, ih]
  constructor
  · intro h
    have hsplit : ∃ j, s.splitOn c = init ++ [last] ++ List.replicate j [] := by
      rw [split_eq] at h
      split_ifs at h with hone
      · exact ⟨0, h.trans (List.append_nil _).symm⟩
      · have happ := List.rdropWhile_append_rtakeWhile (p := (·.isEmpty)) (l := s.splitOn c)
        rw [h] at happ
        refine ⟨((s.splitOn c).rtakeWhile (·.isEmpty)).length, ?_⟩
        conv_lhs => rw [← happ]
        refine congrArg _ (List.eq_replicate_iff.mpr ⟨rfl, fun field hfield => ?_⟩)
        exact List.isEmpty_iff.mp (List.mem_rtakeWhile_imp hfield)
    obtain ⟨j, hj⟩ := hsplit
    have hnot : ∀ field ∈ init ++ [last], c ∉ field := fun field hfield =>
      notMem_of_mem_splitOn (s := s) (hj ▸ List.mem_append_left _ hfield)
    refine ⟨hnot, j, ?_⟩
    rw [← intercalate_append_replicate hfields, ← hj, List.intercalate_splitOn]
  · rintro ⟨hnot, j, rfl⟩
    have hsplit : ([c].intercalate (init ++ [last]) ++ List.replicate j c).splitOn c =
        init ++ [last] ++ List.replicate j [] := by
      rw [← intercalate_append_replicate hfields]
      refine List.splitOn_intercalate c (fun field hfield => ?_) (by simp)
      rcases List.mem_append.mp hfield with hfield | hfield
      · exact hnot field hfield
      · rw [List.eq_of_mem_replicate hfield]
        exact List.not_mem_nil
    rw [split_eq, hsplit, hkeep]
    split_ifs with hone
    · rw [List.length_append, List.length_append, List.length_singleton, List.length_replicate] at hone
      have hzero : j = 0 := by omega
      rw [hzero, List.replicate_zero, List.append_nil]
    · rfl

end Fields
