import Mathlib.Data.List.Basic
import ConfProfile.OpenVpn.Chain

/-!
# Joined texts (`StringUtils.join`)

A separator is written behind each part as long as there are slots left in the array. The
slots that are left may all be null, and then the separator ends the text where nulls are
skipped (`join_eq`). Where they are not, a null throws (`join_eq_none`). So
`join_eq_intercalate_iff` says when the result is the parts with one separator between each two
of them.
-/

namespace ConfProfile.OpenVpn

variable (separator : List Char) (skipNulls : Bool) (parts : List (Option (List Char)))

/-- The parts that are to be kept, a null that is not skipped as a text. -/
def keptParts : List (List Char) :=
  parts.filterMap fun part => if skipNulls then part else some (part.getD "null".toList)

/-- `MiscUtils.genLibraryPath`; a path that is `none` is null. -/
def genLibraryPath (nativeLibraryDir oldLibraryPath : Option (List Char)) : Option (List Char) :=
  join [':'] true [nativeLibraryDir, oldLibraryPath]

/-- Some part is kept, and the last slot is skipped. -/
def EndsInSkipped : Prop :=
  skipNulls = true ∧ parts.getLast? = some none ∧ keptParts skipNulls parts ≠ []

instance : Decidable (EndsInSkipped skipNulls parts) :=
  inferInstanceAs (Decidable (_ ∧ _ ∧ _))

variable {separator skipNulls parts}

theorem keptParts_skipped (parts : List (Option (List Char))) :
    keptParts true (none :: parts) = keptParts true parts := rfl

theorem keptParts_null (parts : List (Option (List Char))) :
    keptParts false (none :: parts) = "null".toList :: keptParts false parts := rfl

theorem keptParts_some (skipNulls : Bool) (part : List Char) (parts : List (Option (List Char))) :
    keptParts skipNulls (some part :: parts) = part :: keptParts skipNulls parts := by
  cases skipNulls <;> rfl

theorem keptParts_cons (skipNulls : Bool) (part : Option (List Char))
    (parts : List (Option (List Char))) :
    (skipNulls = true ∧ part = none) ∨
      ∃ text, keptParts skipNulls (part :: parts) = text :: keptParts skipNulls parts := by
  cases part with
  | some part => exact Or.inr ⟨part, keptParts_some skipNulls part parts⟩
  | none =>
    cases skipNulls with
    | true => exact Or.inl ⟨rfl, rfl⟩
    | false => exact Or.inr ⟨_, keptParts_null parts⟩

/-- A null that is skipped is not kept. -/
theorem keptParts_skipped_ne {text : List Char} {parts : List (Option (List Char))} :
    keptParts true (none :: parts) ≠ text :: keptParts true parts := by
  intro h
  have hlen := congrArg List.length h
  rw [keptParts_skipped, List.length_cons] at hlen
  omega

/-- Only nulls that are skipped leave nothing. -/
theorem keptParts_eq_nil : keptParts skipNulls parts = [] ↔
    parts = [] ∨ skipNulls = true ∧ ∀ part ∈ parts, part = none := by
  induction parts with
  | nil => exact iff_of_true rfl (Or.inl rfl)
  | cons part parts ih =>
    rw [or_iff_right (List.cons_ne_nil part parts), List.forall_mem_cons]
    rcases keptParts_cons skipNulls part parts with ⟨rfl, rfl⟩ | ⟨text, hkept⟩
    · rw [keptParts_skipped, ih]
      simp only [true_and]
      refine or_iff_right_of_imp fun h => ?_
      rw [h]
      exact List.forall_mem_nil _
    · rw [hkept]
      refine iff_of_false (List.cons_ne_nil _ _) fun h => ?_
      obtain ⟨rfl, rfl, -⟩ := h
      exact keptParts_skipped_ne hkept

/-- A null that is not skipped throws, wherever it is. -/
theorem join_eq_none (separator : List Char) (h : none ∈ parts) :
    join separator false parts = none := by
  induction parts with
  | nil => exact absurd h List.not_mem_nil
  | cons part parts ih =>
    cases part with
    | none => exact if_neg Bool.false_ne_true
    | some part =>
      have hrest : none ∈ parts := (List.mem_cons.mp h).resolve_left (Option.some_ne_none part).symm
      rw [join, ih hrest, Option.map_none]

/-- The kept parts with separators between them, and one more behind the last of them where the
last slot is skipped. -/
theorem join_eq (separator : List Char) (hreturns : skipNulls = true ∨ none ∉ parts) :
    join separator skipNulls parts = some (separator.intercalate (keptParts skipNulls parts) ++
      if EndsInSkipped skipNulls parts then separator else []) := by
  induction parts with
  | nil =>
    rw [if_neg fun h : EndsInSkipped _ _ => by cases h.2.1]
    rfl
  | cons part parts ih =>
    have hbehind := ih (hreturns.imp_right List.not_mem_of_not_mem_cons)
    cases part with
    | none =>
      obtain rfl := hreturns.resolve_right (not_not.mpr List.mem_cons_self)
      have hends : EndsInSkipped true (none :: parts) ↔ EndsInSkipped true parts := by
        unfold EndsInSkipped
        rw [keptParts_skipped]
        cases parts with
        | nil => simp [keptParts]
        | cons part parts => rw [List.getLast?_cons_cons]
      rw [join, if_pos rfl, hbehind, keptParts_skipped, if_congr hends rfl rfl]
    | some part =>
      have hkept := keptParts_some skipNulls part parts
      rw [join, hbehind, hkept, Option.map_some]
      by_cases hnil : parts = []
      · subst hnil
        have hends : ¬ EndsInSkipped skipNulls [some part] := fun h => by cases h.2.1
        have hends' : ¬ EndsInSkipped skipNulls [] := fun h => by cases h.2.1
        rw [if_neg hends, if_neg hends']
        simp [keptParts]
      · have hlast : (some part :: parts).getLast? = parts.getLast? := by
          cases parts with
          | nil => exact absurd rfl hnil
          | cons part' parts => rw [List.getLast?_cons_cons]
        rw [if_pos (List.length_pos_iff.mpr hnil)]
        by_cases hrest : keptParts skipNulls parts = []
        · -- what is left of the array is skipped
          obtain ⟨hskip, hnone⟩ := (keptParts_eq_nil.mp hrest).resolve_left hnil
          have hends : EndsInSkipped skipNulls (some part :: parts) := by
            refine ⟨hskip, ?_, by rw [hkept]; exact List.cons_ne_nil _ _⟩
            rw [hlast, List.getLast?_eq_some_getLast hnil]
            exact congrArg some (hnone _ (List.getLast_mem hnil))
          have hends' : ¬ EndsInSkipped skipNulls parts := fun h => h.2.2 hrest
          rw [if_pos hends, if_neg hends', hrest, List.intercalate_singleton,
            List.intercalate_nil, List.append_nil, List.append_nil]
        · have hends : EndsInSkipped skipNulls (some part :: parts) ↔
              EndsInSkipped skipNulls parts := by
            unfold EndsInSkipped
            rw [hlast, hkept]
            simp [hrest]
          rw [if_congr hends rfl rfl, List.intercalate_cons_of_ne_nil hrest]
          simp only [List.append_assoc]

/-- Without nulls the parts have one separator between each two of them. -/
theorem join_map_some (separator : List Char) (skipNulls : Bool) (parts : List (List Char)) :
    join separator skipNulls (parts.map some) = some (separator.intercalate parts) := by
  have hkept : keptParts skipNulls (parts.map some) = parts := by
    induction parts with
    | nil => rfl
    | cons part parts ih => rw [List.map_cons, keptParts_some, ih]
  have hnone : none ∉ parts.map some := by
    intro h
    obtain ⟨part, -, hpart⟩ := List.mem_map.mp h
    exact Option.some_ne_none part hpart
  have hends : ¬ EndsInSkipped skipNulls (parts.map some) :=
    fun h => hnone (List.mem_of_getLast? h.2.1)
  rw [join_eq separator (Or.inr hnone), hkept, if_neg hends, List.append_nil]

/-- One separator between each two parts that are kept and none at the ends: where nulls are
skipped, if and only if no separator is written in front of nulls up to the end, and where they are
not, if and only if there are none. -/
theorem join_eq_intercalate_iff (separator : List Char) (skipNulls : Bool)
    (parts : List (Option (List Char))) :
    join separator skipNulls parts = some (separator.intercalate (keptParts skipNulls parts)) ↔
      if skipNulls then
        separator = [] ∨ parts.getLast? ≠ some none ∨ ∀ part ∈ parts, part = none
      else ∀ part ∈ parts, part ≠ none := by
  cases skipNulls with
  | false =>
    rw [if_neg Bool.false_ne_true]
    by_cases hnone : none ∈ parts
    · rw [join_eq_none separator hnone]
      exact iff_of_false (Option.some_ne_none _).symm fun h => h none hnone rfl
    · have hends : ¬ EndsInSkipped false parts := fun h => Bool.false_ne_true h.1
      rw [join_eq separator (Or.inr hnone), if_neg hends, List.append_nil]
      exact iff_of_true rfl fun part hpart heq => hnone (heq ▸ hpart)
  | true =>
    rw [if_pos rfl, join_eq separator (Or.inl rfl), Option.some_inj, List.append_right_eq_self]
    by_cases hends : EndsInSkipped true parts
    · rw [if_pos hends]
      obtain ⟨-, hlast, hkept⟩ := hends
      refine (or_iff_left ?_).symm
      rw [or_iff_right (not_not.mpr hlast)]
      exact fun hnone => hkept (keptParts_eq_nil.mpr (Or.inr ⟨rfl, hnone⟩))
    · rw [if_neg hends]
      refine iff_of_true rfl (Or.inr ?_)
      by_contra hnot
      rw [not_or, not_not] at hnot
      obtain ⟨hlast, hnone⟩ := hnot
      refine hends ⟨rfl, hlast, fun hkept => ?_⟩
      rcases keptParts_eq_nil.mp hkept with rfl | ⟨-, hall⟩
      · cases hlast
      · exact hnone hall

/-- Without an old path the library path ends in a separator, so that it has an empty entry, and a
null that is not skipped throws. -/
theorem genLibraryPath_trailing :
    (genLibraryPath (some ['/', 'l', 'i', 'b']) none = some ['/', 'l', 'i', 'b', ':'] ∧
      genLibraryPath (some ['/', 'l', 'i', 'b']) none ≠
        some ([':'].intercalate (keptParts true [some ['/', 'l', 'i', 'b'], none]))) ∧
      join [':'] false [none] = none :=
  ⟨⟨rfl, fun h => by cases h⟩, rfl⟩

end ConfProfile.OpenVpn
