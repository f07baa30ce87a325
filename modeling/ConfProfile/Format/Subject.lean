import ConfProfile.Format.Plist
import ConfProfile.Lib.DistinguishedName
import ConfProfile.OpenVpn.Join
import ConfProfile.OpenVpn.Options

/-!
# The subject of a SCEP payload (`ScepPayload.getSubject`)

The subject is a list of relative distinguished names, each a list of pairs of strings. The
source takes the first pair of each and joins them to a text that is to be a distinguished
name, without escapes. `getSubject_parse` says which subjects are read back from it.
-/

namespace ConfProfile

open OpenVpn (utf8 utf8_append join join_map_some)
open DistinguishedName

variable {R : Type}

/-! ## The source's function -/

/-- What `getSubject` throws for a subject of another form. -/
inductive SubjectException where
  | indexOutOfBounds
  | nullPointer
  deriving DecidableEq, Repr

/-- `Array.get`. -/
def arrayGet (list : List (Obj R)) (index : Nat) : Except SubjectException (Obj R) :=
  match list[index]? with
  | some x => .ok x
  | none => .error .indexOutOfBounds

/-- `Array.getString`, of which a method is called or which is given to `concat`. -/
def arrayString (list : List (Obj R)) (index : Nat) : Except SubjectException (List Char) := do
  match ← arrayGet list index with
  | .string s => .ok s.toList
  | _ => .error .nullPointer

/-- The loop of `getSubject`; the parts behind its break stay null. -/
def subjParts : List (Obj R) → Except SubjectException (List (Option (List Char)))
  | [] => .ok []
  | .array subArr :: arr => do
    match ← arrayGet subArr 0 with
    | .array pieces =>
      let part := (← arrayString pieces 0) ++ '=' :: (← arrayString pieces 1)
      return some part :: (← subjParts arr)
    | _ => return none :: arr.map fun _ => none
  | _ :: arr => .ok (none :: arr.map fun _ => none)

/-- `getSubject`, `none` for null. -/
def getSubject (content : List (String × Obj R)) :
    Except SubjectException (Option (List Char)) :=
  match getArray content "Subject" with
  | none => .ok none
  | some arr => do
    match join [',', ' '] true (← subjParts arr) with
    | some subject => return some subject
    | none => throw .nullPointer

/-! ## Subjects -/

/-- The array for a subject. -/
def rdnArray (rdn : Rdn (String × String)) : Obj R :=
  .array ((rdn.first :: rdn.others).map fun pair => .array [.string pair.1, .string pair.2])

/-- What a parser should give for a pair. -/
def parsedPair (pair : String × String) : List (BitVec 8) × Value :=
  (utf8 pair.1.toList, .string (utf8 pair.2.toList))

/-- The name with one pair of each relative distinguished name. -/
def subjectName (rdns : List (Rdn (String × String))) : List Char :=
  [',', ' '].intercalate (rdns.map fun rdn => rdn.first.1.toList ++ '=' :: rdn.first.2.toList)

theorem getSubject_eq {content : List (String × Obj R)} {rdns : List (Rdn (String × String))}
    (hsubject : getArray content "Subject" = some (rdns.map rdnArray)) :
    getSubject content = .ok (some (subjectName rdns)) := by
  have hparts : subjParts (rdns.map (rdnArray (R := R))) = .ok
      (rdns.map fun rdn => some (rdn.first.1.toList ++ '=' :: rdn.first.2.toList)) := by
    clear hsubject
    induction rdns with
    | nil => rfl
    | cons rdn rdns ih =>
      rw [List.map_cons, rdnArray, List.map_cons, subjParts, ih]
      rfl
  have hjoin : join [',', ' '] true
      (rdns.map fun rdn => some (rdn.first.1.toList ++ '=' :: rdn.first.2.toList)) =
        some (subjectName rdns) := by
    rw [subjectName, ← join_map_some _ true, List.map_map]
    rfl
  rw [getSubject, hsubject]
  simp only [hparts, hjoin, bind, Except.bind, pure, Except.pure]

theorem utf8_part (pair : String × String) :
    utf8 (pair.1.toList ++ '=' :: pair.2.toList) =
      written (utf8 pair.1.toList) (utf8 pair.2.toList) := by
  rw [utf8_append]
  rfl

theorem subjectName_singleton (rdn : Rdn (String × String)) :
    utf8 (subjectName [rdn]) = written (utf8 rdn.first.1.toList) (utf8 rdn.first.2.toList) := by
  rw [← utf8_part, subjectName, List.map_singleton, List.intercalate_singleton]

theorem subjectName_cons (rdn rdn' : Rdn (String × String)) (rdns : List (Rdn (String × String))) :
    utf8 (subjectName (rdn :: rdn' :: rdns)) =
      written (utf8 rdn.first.1.toList) (utf8 rdn.first.2.toList) ++
        COMMA :: SPACE :: utf8 (subjectName (rdn' :: rdns)) := by
  have hcons : subjectName (rdn :: rdn' :: rdns) = rdn.first.1.toList ++ '=' ::
      rdn.first.2.toList ++ ([',', ' '] ++ subjectName (rdn' :: rdns)) := by
    rw [subjectName, List.map_cons, List.map_cons, List.intercalate_cons_cons, List.append_assoc]
    rfl
  rw [hcons, ← utf8_part, utf8_append, utf8_append]
  rfl

theorem subjectName_ne_nil (rdn : Rdn (String × String)) (rdns : List (Rdn (String × String))) :
    utf8 (subjectName (rdn :: rdns)) ≠ [] := by
  cases rdns with
  | nil => simp [subjectName_singleton, written]
  | cons rdn' rdns => simp [subjectName_cons]

/-- One pair, which needs no escapes. -/
structure Unescaped (rdn : Rdn (String × String)) : Prop where
  single : rdn.others = []
  type : isType (utf8 rdn.first.1.toList) = true
  value : Plain (utf8 rdn.first.2.toList)

theorem Unescaped.map_parsedPair {rdn : Rdn (String × String)} (h : Unescaped rdn) :
    rdn.map parsedPair = ⟨(utf8 rdn.first.1.toList, .string (utf8 rdn.first.2.toList)), []⟩ := by
  rw [Rdn.map, h.single]
  rfl

theorem parse_subjectName (blanks : Bool) (rdns : List (Rdn (String × String))) :
    parse blanks (utf8 (subjectName rdns)) = some (rdns.map (·.map parsedPair)) ↔
      (∀ rdn ∈ rdns, Unescaped rdn) ∧ (rdns.length ≤ 1 ∨ blanks = true) := by
  induction rdns with
  | nil => exact iff_of_true rfl ⟨fun rdn hrdn => (by cases hrdn), Or.inl (Nat.zero_le 1)⟩
  | cons rdn rdns ih =>
    cases rdns with
    | nil =>
      rw [subjectName_singleton, List.map_singleton, List.forall_mem_singleton]
      constructor
      · intro h
        have hnil : ∀ b ∈ ([] : List (BitVec 8)).head?, b = COMMA := fun b hb => by cases hb
        rw [← List.append_nil (written _ _)] at h
        obtain ⟨htype, hvalue⟩ := plain_of_parse hnil h
        rw [List.append_nil] at h
        rw [parse_written htype hvalue] at h
        have heq := (List.cons.inj (Option.some.inj h)).1
        have hsingle := (Rdn.mk.inj heq).2
        exact ⟨⟨List.map_eq_nil_iff.mp hsingle.symm, htype, hvalue⟩, Or.inl le_rfl⟩
      · intro h
        rw [parse_written h.1.type h.1.value, h.1.map_parsedPair]
    | cons rdn' rdns =>
      rw [subjectName_cons, List.map_cons, List.forall_mem_cons]
      have hcomma : ∀ b ∈ (COMMA :: SPACE :: utf8 (subjectName (rdn' :: rdns))).head?,
          b = COMMA := by
        intro b hb
        cases hb
        rfl
      have hne := subjectName_ne_nil rdn' rdns
      constructor
      · intro h
        obtain ⟨htype, hvalue⟩ := plain_of_parse hcomma h
        rw [parse_written_comma htype hvalue, Option.map_eq_some_iff] at h
        obtain ⟨rdns', hrdns', heq⟩ := h
        obtain ⟨hfirst, rfl⟩ := List.cons.inj heq
        have hsingle := (Rdn.mk.inj hfirst).2
        cases blanks with
        | false =>
          rw [rdnsOf_blank] at hrdns'
          cases hrdns'
        | true =>
          rw [rdnsOf_skip hne] at hrdns'
          exact ⟨⟨⟨List.map_eq_nil_iff.mp hsingle.symm, htype, hvalue⟩, (ih.mp hrdns').1⟩,
            Or.inr rfl⟩
      · intro h
        obtain ⟨⟨hrdn, hrdns⟩, hlen⟩ := h
        obtain rfl : blanks = true := by
          refine hlen.resolve_left fun hle => ?_
          rw [List.length_cons, List.length_cons] at hle
          omega
        rw [parse_written_comma hrdn.type hrdn.value, rdnsOf_skip hne,
          ih.mpr ⟨hrdns, Or.inr rfl⟩, hrdn.map_parsedPair]
        rfl

/-- The subject is read back if and only if there is one pair in each relative distinguished
name that needs no escapes, and no more than one of them unless the parser skips blanks. -/
theorem getSubject_parse (blanks : Bool) (content : List (String × Obj R))
    (rdns : List (Rdn (String × String)))
    (hsubject : getArray content "Subject" = some (rdns.map rdnArray)) :
    (∃ name, getSubject content = .ok (some name) ∧
      parse blanks (utf8 name) = some (rdns.map (·.map parsedPair))) ↔
      (∀ rdn ∈ rdns, rdn.others = [] ∧ isType (utf8 rdn.first.1.toList) = true ∧
        Plain (utf8 rdn.first.2.toList)) ∧ (rdns.length ≤ 1 ∨ blanks = true) := by
  have hparse := parse_subjectName blanks rdns
  constructor
  · intro h
    obtain ⟨name, hname, h⟩ := h
    rw [getSubject_eq hsubject] at hname
    cases hname
    obtain ⟨hrdns, hlen⟩ := hparse.mp h
    exact ⟨fun rdn hrdn => ⟨(hrdns rdn hrdn).single, (hrdns rdn hrdn).type, (hrdns rdn hrdn).value⟩,
      hlen⟩
  · intro h
    refine ⟨subjectName rdns, getSubject_eq hsubject, hparse.mpr ⟨fun rdn hrdn => ?_, h.2⟩⟩
    obtain ⟨hsingle, htype, hvalue⟩ := h.1 rdn hrdn
    exact ⟨hsingle, htype, hvalue⟩

/-- The content of a payload with one subject. -/
def contentWith (rdns : List (Rdn (String × String))) : List (String × Obj Empty) :=
  [("URL", .string "http://scep.example/"), ("Subject", .array (rdns.map rdnArray))]

theorem getSubject_parse_two :
    ∃ name, getSubject (contentWith [⟨("O", "Acme"), []⟩, ⟨("2.5.4.3", "a phone"), []⟩]) =
      .ok (some name) ∧
      parse true (utf8 name) = some
        ([⟨("O", "Acme"), []⟩, ⟨("2.5.4.3", "a phone"), []⟩].map (Rdn.map parsedPair)) :=
  (getSubject_parse true _ _ rfl).mpr ⟨by
    intro rdn hrdn
    simp only [List.mem_cons, List.not_mem_nil, or_false] at hrdn
    rcases hrdn with rfl | rfl
    · exact ⟨rfl, by decide, ⟨by decide, by decide, by decide⟩⟩
    · exact ⟨rfl, by decide, ⟨by decide, by decide, by decide⟩⟩, Or.inr rfl⟩

/-- A comma in a value ends it, for either parser. -/
theorem comma_in_value :
    (¬ ∃ name, getSubject (contentWith [⟨("O", "Acme, Inc."), []⟩]) = .ok (some name) ∧
      parse false (utf8 name) = some ([⟨("O", "Acme, Inc."), []⟩].map (Rdn.map parsedPair))) ∧
    ¬ ∃ name, getSubject (contentWith [⟨("O", "Acme, Inc."), []⟩]) = .ok (some name) ∧
      parse true (utf8 name) = some ([⟨("O", "Acme, Inc."), []⟩].map (Rdn.map parsedPair)) := by
  have heq : getSubject (contentWith [⟨("O", "Acme, Inc."), []⟩]) =
      .ok (some (subjectName [⟨("O", "Acme, Inc."), []⟩])) := getSubject_eq rfl
  have hcomma : COMMA ∈ utf8 "Acme, Inc.".toList := by decide
  constructor
  · intro h
    obtain ⟨name, hname, h⟩ := h
    rw [heq] at hname
    cases hname
    have hplain := (((parse_subjectName false _).mp h).1 _ List.mem_cons_self).value
    exact hplain.none_inside COMMA hcomma (by decide)
  · intro h
    obtain ⟨name, hname, h⟩ := h
    rw [heq] at hname
    cases hname
    have hplain := (((parse_subjectName true _).mp h).1 _ List.mem_cons_self).value
    exact hplain.none_inside COMMA hcomma (by decide)

end ConfProfile
