import ConfProfile.Lib.Search

/-!
# PEM texts (`CryptoUtils.validateRfc7468Chain`)

The blocks of a chain of PEM texts are written out again, with their markers on
lines of their own. A text that is not such a chain is returned as it is.
-/

namespace ConfProfile.OpenVpn

open Search

/-- `StringUtils.join`; behind each part that is written, the separator if there are more. For a
null that is not skipped, `String.valueOf(null)` takes it for an array of chars and throws: `none`
is a `NullPointerException`. -/
def join (separator : List Char) (skipNulls : Bool) :
    List (Option (List Char)) → Option (List Char)
  | [] => some []
  | none :: parts => if skipNulls then join separator skipNulls parts else none
  | some part :: parts =>
    (join separator skipNulls parts).map fun behind =>
      part ++ ((if parts.length > 0 then separator else []) ++ behind)

/-- Nulls that are skipped do not throw. -/
theorem isSome_join (separator : List Char) (parts : List (Option (List Char))) :
    (join separator true parts).isSome := by
  induction parts with
  | nil => rfl
  | cons part parts ih =>
    cases part with
    | none =>
      rw [join, if_pos rfl]
      exact ih
    | some part =>
      rw [join, Option.isSome_map]
      exact ih

/-- `String.trim`. -/
def trim (s : List Char) : List Char :=
  ((s.dropWhile (· ≤ ' ')).reverse.dropWhile (· ≤ ' ')).reverse

/-- The parts between the line breaks that are written as a backslash and an `n`; `part` is
the current one. -/
def splitParts (part : List Char) : List Char → List (List Char)
  | [] => [part]
  | '\\' :: 'n' :: s => part :: splitParts [] s
  | c :: s => splitParts (part ++ [c]) s

/-- `split("\\\\n")`: empty parts at the end are left out, unless there is one part only. -/
def split (s : List Char) : List (List Char) :=
  match splitParts [] s with
  | [part] => [part]
  | parts => (parts.reverse.dropWhile (·.isEmpty)).reverse

/-- `validateBase64`, which does not look at the length of a line. -/
def validateBase64 (base64 : List Char) : List Char :=
  (join ['\n'] true ((split (trim base64)).map some)).get (isSome_join _ _)

def DASHES : List Char := "-----".toList
def BEGIN : List Char := "-----BEGIN".toList
def END : List Char := "-----END".toList

/-- The loop of `validateRfc7468Chain`, on what is left of the chain. -/
def chainLoop (rest builder : List Char) : Option (List Char) :=
  if rest = [] then some builder
  else
    match indexOf rest BEGIN with
    | none => none
    | some pos =>
      let behind := rest.drop (pos + BEGIN.length)
      match indexOf behind DASHES with
      | none => none
      | some tmpPos =>
        let name := behind.take tmpPos
        let body := behind.drop (tmpPos + DASHES.length)
        match indexOf body (END ++ name ++ DASHES) with
        | none => none
        | some tmpPos =>
          chainLoop (body.drop (tmpPos + END.length + name.length + DASHES.length))
            (builder ++ (BEGIN ++ name ++ DASHES ++ ['\n']) ++
              (validateBase64 (body.take tmpPos) ++ ['\n']) ++
              (END ++ name ++ DASHES ++ ['\n']))
termination_by rest.length
decreasing_by
  have hrest : 0 < rest.length := List.length_pos_iff.mpr ‹_›
  simp only [List.length_drop, show BEGIN.length = 10 from rfl]
  omega

/-- `validateRfc7468Chain`. -/
def validateRfc7468Chain (chain : List Char) : List Char := (chainLoop chain []).getD chain

end ConfProfile.OpenVpn
