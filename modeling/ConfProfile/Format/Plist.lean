import ConfProfile.Lib.Tokens
import Mathlib.Algebra.Ring.Int.Defs

/-!
# Property lists (`Plist`)

The values of a property list are Java objects: boxed booleans, integers and
doubles, strings, byte arrays, and the wrappers `Array` and `Dictionary` around
lists and maps. Behind the JSON adapters the same values sit in plain lists and
maps, next to nulls, so `Obj` has all of them and `getType` tells those of a
property list apart.

`writeXml` calls the serializer and `parseValue` moves the cursor of a pull
parser; both go down the tree, and every branch of the parser has to leave the
cursor on the end tag of what it has read (`parseValue_writeXml`). So the tree
that was written is read back (`parse_writeXml`).
-/

namespace ConfProfile

open Tokens

/-! ## Objects -/

/-- A Java object; the doubles are of type `R`, up to `equals`. A map is the list of its
entries, in the order in which it goes through them. -/
inductive Obj (R : Type) where
  | null
  | boolean (b : Bool)
  | integer (i : Int32)
  | real (d : R)
  | string (s : String)
  | data (bytes : List (BitVec 8))
  | array (list : List (Obj R))
  | dictionary (map : List (String × Obj R))
  | list (items : List (Obj R))
  | map (entries : List (String × Obj R))

/-- What comes from the platform: `Double.toString`, `Double.valueOf`, `Base64` and
`Character.toUpperCase`, `Character.toLowerCase`, `Character.digit` behind the ASCII characters.
`asInt` is the int that a double is equal to. -/
structure Platform (R : Type) where
  realToString : R → String
  realValueOf : String → Option R
  isFinite : R → Bool
  asInt : R → Option Int32
  encodeToString : List (BitVec 8) → String
  decode : String → Option (List (BitVec 8))
  toUpperCase : Char → Char
  toLowerCase : Char → Char
  digit : Char → Option Nat

/-- Formatting a double or bytes loses nothing. -/
structure Platform.Faithful {R : Type} (P : Platform R) : Prop where
  realValueOf_toString : ∀ d, P.realValueOf (P.realToString d) = some d
  decode_encodeToString : ∀ bytes, P.decode (P.encodeToString bytes) = some bytes

namespace Platform

variable {R : Type} (P : Platform R)

def upper (c : Char) : Char := if c.toNat < 128 then c.toUpper else P.toUpperCase c

def lower (c : Char) : Char := if c.toNat < 128 then c.toLower else P.toLowerCase c

/-- The characters are the same but for their case, as `equalsIgnoreCase` compares them. -/
def sameLetter (c d : Char) : Bool :=
  c = d || P.upper c = P.upper d || P.lower (P.upper c) = P.lower (P.upper d)

/-- `String.equalsIgnoreCase`. -/
def equalsIgnoreCase (s t : String) : Bool :=
  s.toList.length = t.toList.length &&
    (s.toList.zip t.toList).all fun p => P.sameLetter p.1 p.2

/-- `Character.digit`, of a decimal digit. -/
def digitValue? (c : Char) : Option Nat :=
  if c.toNat < 128 then if c.isDigit then some (c.toNat - '0'.toNat) else none else P.digit c

/-- The digits of a text, as a number. -/
def digitsValue? (cs : List Char) : Option Nat :=
  if cs = [] then none
  else (cs.mapM P.digitValue?).map fun digits => digits.foldl (fun n d => 10 * n + d) 0

/-- A number with its sign. -/
def signedValue? : List Char → Option Int
  | '-' :: cs => (P.digitsValue? cs).map fun n => -(n : Int)
  | '+' :: cs => (P.digitsValue? cs).map fun n => (n : Int)
  | cs => (P.digitsValue? cs).map fun n => (n : Int)

/-- `Integer.valueOf`, the exception being `none`. -/
def integerValueOf (s : String) : Option Int32 :=
  (P.signedValue? s.toList).bind fun i =>
    if -2 ^ 31 ≤ i ∧ i < 2 ^ 31 then some (Int32.ofInt i) else none

end Platform

/-- `Integer.toString`. -/
def integerToString (i : Int32) : String := toString i.toInt

section integers

variable {R : Type} (P : Platform R)

theorem mapM_digitValue? {cs : List Char} (hdigit : ∀ c ∈ cs, c.isDigit) :
    cs.mapM P.digitValue? = some (cs.map fun c => c.toNat - '0'.toNat) := by
  induction cs with
  | nil => rfl
  | cons c cs ih =>
    obtain ⟨hc, hcs⟩ := List.forall_mem_cons.mp hdigit
    have hascii : c.toNat < 128 := Nat.lt_of_le_of_lt (Char.isDigit_iff_toNat.mp hc).2 (by decide)
    rw [List.mapM_cons, Platform.digitValue?, if_pos hascii, if_pos hc, ih hcs]
    rfl

theorem digitsValue?_toDigits (n : Nat) : P.digitsValue? (Nat.toDigits 10 n) = some n := by
  have hdigit : ∀ c ∈ Nat.toDigits 10 n, c.isDigit :=
    fun c hc => Nat.isDigit_of_mem_toDigits (by omega) (by omega) hc
  have hvalue : Nat.ofDigitChars 10 (Nat.toDigits 10 n) 0 = n := by simp
  rw [Platform.digitsValue?, if_neg Nat.toDigits_ne_nil, mapM_digitValue? P hdigit, Option.map_some,
    List.foldl_map]
  exact congrArg some hvalue

theorem signedValue?_toString (i : Int) : P.signedValue? (toString i).toList = some i := by
  cases i with
  | ofNat n =>
    have hlist : (toString (Int.ofNat n)).toList = Nat.toDigits 10 n := Nat.toList_repr
    have hdigit : ∀ c ∈ Nat.toDigits 10 n, c.isDigit :=
      fun c hc => Nat.isDigit_of_mem_toDigits (by omega) (by omega) hc
    rw [hlist, Platform.signedValue?.eq_def]
    -- the first character is a digit, so no sign
    split
    next heq => exact absurd (hdigit '-' (heq ▸ List.mem_cons_self)) (by decide)
    next heq => exact absurd (hdigit '+' (heq ▸ List.mem_cons_self)) (by decide)
    next => rw [digitsValue?_toDigits]; rfl
  | negSucc n =>
    have hlist : (toString (Int.negSucc n)).toList = '-' :: Nat.toDigits 10 (n + 1) := by
      rw [← Nat.toList_repr]
      exact String.toList_append
    rw [hlist, Platform.signedValue?, digitsValue?_toDigits]
    rfl

theorem integerValueOf_toString (i : Int32) : P.integerValueOf (integerToString i) = some i := by
  rw [Platform.integerValueOf, integerToString, signedValue?_toString, Option.bind_some,
    if_pos ⟨i.le_toInt, i.toInt_lt⟩, Int32.ofInt_toInt]

end integers

/-! ## Well-typed trees -/

variable {R : Type}

namespace Obj

/-- `Plist.getType`. -/
def getType : Obj R → Option String
  | .boolean _ => some "boolean"
  | .integer _ => some "integer"
  | .real _ => some "real"
  | .string _ => some "string"
  | .data _ => some "data"
  | .array _ => some "array"
  | .dictionary _ => some "dict"
  | .null | .list _ | .map _ => none

mutual

/-- A tree of property list values; a map has each key once. -/
def Typed : Obj R → Prop
  | .boolean _ | .integer _ | .real _ | .string _ | .data _ => True
  | .array items => TypedItems items
  | .dictionary entries => (entries.map Prod.fst).Nodup ∧ TypedEntries entries
  | .null | .list _ | .map _ => False

def TypedItems : List (Obj R) → Prop
  | [] => True
  | x :: items => x.Typed ∧ TypedItems items

def TypedEntries : List (String × Obj R) → Prop
  | [] => True
  | (_, x) :: entries => x.Typed ∧ TypedEntries entries

end

end Obj

/-! `Dictionary.getString` and its likes: null for a missing key and for another type. -/

section Getters

variable (map : List (String × Obj R)) (key : String)

def getString : Option String :=
  match map.lookup key with
  | some (.string s) => some s
  | _ => none

def getInteger : Option Int32 :=
  match map.lookup key with
  | some (.integer i) => some i
  | _ => none

def getBoolean : Option Bool :=
  match map.lookup key with
  | some (.boolean b) => some b
  | _ => none

def getArray : Option (List (Obj R)) :=
  match map.lookup key with
  | some (.array list) => some list
  | _ => none

def getDictionary : Option (List (String × Obj R)) :=
  match map.lookup key with
  | some (.dictionary entries) => some entries
  | _ => none

end Getters

/-! ## Writing XML -/

/-- What a serializer is told and a pull parser reports. -/
inductive XmlEvent where
  | startDocument
  | startTag (name : String)
  | text (s : String)
  | endTag (name : String)
  | endDocument
  deriving DecidableEq, Repr

/-- A tag with a text between. -/
def element (type text : String) : List XmlEvent := [.startTag type, .text text, .endTag type]

variable (P : Platform R)

mutual

/-- `Plist.writeXml`, and those of `Array` and `Dictionary`. -/
def writeXml : Obj R → List XmlEvent
  | .boolean b => element "boolean" (toString b)
  | .integer i => element "integer" (integerToString i)
  | .real d => element "real" (P.realToString d)
  | .string s => element "string" s
  | .data bytes => element "data" (P.encodeToString bytes)
  | .array list => .startTag "array" :: (writeItems list ++ [.endTag "array"])
  | .dictionary map => .startTag "dict" :: (writeEntries map ++ [.endTag "dict"])
  | .null | .list _ | .map _ => []

def writeItems : List (Obj R) → List XmlEvent
  | [] => []
  | x :: list => writeXml x ++ writeItems list

def writeEntries : List (String × Obj R) → List XmlEvent
  | [] => []
  | (key, x) :: map => element "key" key ++ writeXml x ++ writeEntries map

end

/-- What the pull parser reports of a document: an empty text is no event. -/
def reported (calls : List XmlEvent) : List XmlEvent := calls.filter (· ≠ .text "")

/-- `Plist.writeXml(OutputStream)`, as the parser is going to report it. -/
def document (x : Obj R) : List XmlEvent :=
  reported (.startDocument :: .startTag "plist" :: (writeXml P x ++ [.endTag "plist", .endDocument]))

/-! ## The pull parser -/

/-- A parser over the events still to come, the first of which is the current one. -/
abbrev XmlPullParser := Reader XmlEvent

/-- The current event. -/
def currentEvent : XmlPullParser XmlEvent := do ofOption (← peek)

/-- `XmlPullParser.next`. -/
def nextEvent : XmlPullParser XmlEvent := do
  let _ ← next
  currentEvent

def isWhitespace : XmlEvent → Bool
  | .text s => s.toList.all fun c => c = ' ' || c = '\t' || c = '\n' || c = '\r'
  | _ => false

/-- `XmlPullParser.nextTag`. -/
def nextTag : XmlPullParser XmlEvent := do
  let e ← nextEvent
  let e ← if isWhitespace e then nextEvent else pure e
  match e with
  | .startTag _ | .endTag _ => pure e
  | _ => throw .thrown

/-- `XmlPullParser.require`. -/
def require (e : XmlEvent) : XmlPullParser Unit := do
  if (← currentEvent) = e then pure () else throw .thrown

/-- `XmlUtils.readText`. -/
def readText : XmlPullParser String := do
  match ← nextEvent with
  | .text s => do
    let _ ← nextTag
    pure s
  | _ => pure ""

/-- The tags of values. -/
inductive ValueTag where
  | boolean
  | true
  | false
  | integer
  | real
  | string
  | data
  | array
  | dict
  deriving DecidableEq, Repr

/-- The comparisons of `parseValue`. -/
def valueTag? (objectType : String) : Option ValueTag :=
  if P.equalsIgnoreCase "boolean" objectType then some .boolean
  else if P.equalsIgnoreCase "true" objectType then some .true
  else if P.equalsIgnoreCase "false" objectType then some .false
  else if P.equalsIgnoreCase "integer" objectType then some .integer
  else if P.equalsIgnoreCase "real" objectType then some .real
  else if P.equalsIgnoreCase "string" objectType then some .string
  else if P.equalsIgnoreCase "data" objectType then some .data
  else if P.equalsIgnoreCase "array" objectType then some .array
  else if P.equalsIgnoreCase "dict" objectType then some .dict
  else none

/-- A text that has to be a boolean. -/
def booleanValue? (value : String) : Option Bool :=
  if P.equalsIgnoreCase "true" value then some true
  else if P.equalsIgnoreCase "false" value then some false
  else none

/-- The branches of `parseValue`; `items` and `entries` are the loops of `Array.parse` and
`Dictionary.parse`. -/
def parseObject (items : XmlPullParser (List (Obj R)))
    (entries : XmlPullParser (List (String × Obj R))) : ValueTag → XmlPullParser (Obj R)
  | .boolean => do
    let value ← readText
    pure (.boolean (← ofOption (booleanValue? P value)))
  | .true => do
    let _ ← nextEvent
    pure (.boolean true)
  | .false => do
    let _ ← nextEvent
    pure (.boolean false)
  | .integer => do
    let value ← readText
    pure (.integer (← ofOption (P.integerValueOf value)))
  | .real => do
    let value ← readText
    pure (.real (← ofOption (P.realValueOf value)))
  | .string => do
    let value ← readText
    pure (.string value)
  | .data => do
    let value ← readText
    pure (.data (← ofOption (P.decode value)))
  | .array => do
    require (.startTag "array")
    let list ← items
    require (.endTag "array")
    pure (.array list)
  | .dict => do
    require (.startTag "dict")
    let map ← entries
    require (.endTag "dict")
    pure (.dictionary map)

mutual

/-- `Plist.parseValue`. -/
def parseValue : Nat → XmlPullParser (Obj R)
  | 0 => throw .fuel
  | n + 1 => do
    match ← currentEvent with
    | .startTag objectType => do
      let tag ← ofOption (valueTag? P objectType)
      let object ← parseObject P (parseItems n) (parseEntries n []) tag
      require (.endTag objectType)
      pure object
    | _ => throw .thrown

/-- The loop of `Array.parse`. -/
def parseItems : Nat → XmlPullParser (List (Obj R))
  | 0 => throw .fuel
  | n + 1 => do
    match ← nextTag with
    | .endTag _ => pure []
    | _ => do
      let object ← parseValue n
      let list ← parseItems n
      pure (object :: list)

/-- The loop of `Dictionary.parse`, with the map so far. -/
def parseEntries : Nat → List (String × Obj R) → XmlPullParser (List (String × Obj R))
  | 0, _ => throw .fuel
  | n + 1, map => do
    match ← nextTag with
    | .endTag _ => pure map
    | _ => do
      require (.startTag "key")
      let key ← readText
      require (.endTag "key")
      match ← nextTag with
      | .startTag _ => do
        let object ← parseValue n
        -- Key interception
        if key ∈ map.map Prod.fst then throw .thrown
        else parseEntries n (map ++ [(key, object)])
      | _ => throw .thrown

end

/-- The constructor `Plist(parser)`: the wrapped value. -/
def parsePlist (n : Nat) : XmlPullParser (Obj R) := do
  let _ ← nextTag
  require (.startTag "plist")
  let _ ← nextTag
  parseValue P n

/-- The property list of a document. -/
def parseDocument (events : List XmlEvent) : Except Stop (Obj R) :=
  result (parsePlist P events.length) events

/-! ## Reading back -/

section Cursor

variable {e e₀ : XmlEvent} {rest : List XmlEvent} {t : String}

theorem gives_currentEvent : Gives currentEvent (e :: rest) e (e :: rest) := by
  simp [currentEvent]

theorem gives_nextEvent : Gives nextEvent (e₀ :: e :: rest) e (e :: rest) := by
  simp [nextEvent, currentEvent]

/-- `nextTag` on a tag right behind the current event. -/
theorem gives_nextTag (htag : e = .startTag t ∨ e = .endTag t) :
    Gives nextTag (e₀ :: e :: rest) e (e :: rest) := by
  refine gives_nextEvent.bind ?_
  rcases htag with rfl | rfl
  · exact (Gives.pure _ _).bind (Gives.pure _ _)
  · exact (Gives.pure _ _).bind (Gives.pure _ _)

theorem gives_require : Gives (require e) (e :: rest) () (e :: rest) := by
  refine gives_currentEvent.bind ?_
  rw [if_pos rfl]
  exact Gives.pure () _

/-- The text between two tags, none where it is empty. -/
theorem gives_readText (s : String) :
    Gives readText (e₀ :: (reported [.text s] ++ .endTag t :: rest)) s (.endTag t :: rest) := by
  by_cases hs : s = ""
  · subst hs
    exact gives_nextEvent.bind (Gives.pure _ _)
  · have hreported : reported [.text s] = [.text s] := by simp [reported, hs]
    rw [hreported]
    exact gives_nextEvent.bind ((gives_nextTag (Or.inr rfl)).bind (Gives.pure _ _))

end Cursor

section Values

variable {P : Platform R} {n : Nat} {x : Obj R} {t : String} {s rest : List XmlEvent}

/-- A value is what is made of the text of its tag. -/
theorem gives_parseValue (tag : ValueTag) (htag : valueTag? P t = some tag)
    (h : Gives (parseObject P (parseItems P n) (parseEntries P n []) tag) (.startTag t :: s) x
      (.endTag t :: rest)) :
    Gives (parseValue P (n + 1)) (.startTag t :: s) x (.endTag t :: rest) := by
  rw [parseValue]
  refine gives_currentEvent.bind ?_
  refine (gives_ofOption.mpr ⟨htag, rfl⟩).bind ?_
  exact h.bind (gives_require.bind (Gives.pure _ _))

/-- One scalar: a tag, a text and what is made of it. -/
theorem gives_element {text : String} {f : String → XmlPullParser (Obj R)} (tag : ValueTag)
    (htag : valueTag? P t = some tag)
    (hobject : parseObject P (parseItems P n) (parseEntries P n []) tag = readText >>= f)
    (hvalue : ∀ s, Gives (f text) s x s) (rest : List XmlEvent) :
    Gives (parseValue P (n + 1)) (reported (element t text) ++ rest) x (.endTag t :: rest) := by
  have hreported : reported (element t text) ++ rest =
      .startTag t :: (reported [.text text] ++ .endTag t :: rest) := by
    simp [reported, element, List.filter_cons]
    split <;> simp
  rw [hreported]
  refine gives_parseValue tag htag ?_
  rw [hobject]
  exact (gives_readText text).bind (hvalue _)

end Values

section RoundTrip

variable {P : Platform R}

theorem reported_append (es es' : List XmlEvent) :
    reported (es ++ es') = reported es ++ reported es' := List.filter_append ..

/-- What is reported of a value begins with its tag. -/
theorem reported_writeXml {x : Obj R} (hx : x.Typed) :
    ∃ t s, reported (writeXml P x) = .startTag t :: s := by
  cases x with
  | null | list | map => exact hx.elim
  | boolean | integer | real | string | data | array | dictionary => exact ⟨_, _, rfl⟩

mutual

/-- From its start tag to its end tag, a value that was written is read back. -/
theorem parseValue_writeXml (hP : P.Faithful) : ∀ (x : Obj R), x.Typed → ∀ (n : Nat) (rest : List XmlEvent),
    (reported (writeXml P x)).length ≤ n →
    ∃ t, Gives (parseValue P n) (reported (writeXml P x) ++ rest) x (.endTag t :: rest)
  | .boolean b, _, n + 1, rest, _ => by
    have hvalue : booleanValue? P (toString b) = some b := by cases b <;> rfl
    exact ⟨"boolean", gives_element (f := fun value => do
      pure (.boolean (← ofOption (booleanValue? P value)))) .boolean rfl rfl
      (fun s => (gives_ofOption.mpr ⟨hvalue, rfl⟩).bind (Gives.pure _ _)) rest⟩
  | .integer i, _, n + 1, rest, _ =>
    ⟨"integer", gives_element (f := fun value => do
      pure (.integer (← ofOption (P.integerValueOf value)))) .integer rfl rfl
      (fun s => (gives_ofOption.mpr ⟨integerValueOf_toString P i, rfl⟩).bind (Gives.pure _ _)) rest⟩
  | .real d, _, n + 1, rest, _ =>
    ⟨"real", gives_element (f := fun value => do
      pure (.real (← ofOption (P.realValueOf value)))) .real rfl rfl
      (fun s => (gives_ofOption.mpr ⟨hP.realValueOf_toString d, rfl⟩).bind (Gives.pure _ _)) rest⟩
  | .string str, _, n + 1, rest, _ =>
    ⟨"string", gives_element (f := fun value => pure (.string value)) .string rfl rfl
      (fun s => Gives.pure _ _) rest⟩
  | .data bytes, _, n + 1, rest, _ =>
    ⟨"data", gives_element (f := fun value => do
      pure (.data (← ofOption (P.decode value)))) .data rfl rfl
      (fun s => (gives_ofOption.mpr ⟨hP.decode_encodeToString bytes, rfl⟩).bind (Gives.pure _ _)) rest⟩
  | .array list, hx, n + 1, rest, hn => by
    have hreported : reported (writeXml P (.array list)) =
        .startTag "array" :: (reported (writeItems P list) ++ [.endTag "array"]) := by
      simp [writeXml, reported]
    rw [hreported] at hn ⊢
    simp only [List.length_cons, List.length_append] at hn
    have hitems := parseItems_writeItems hP list hx n (.startTag "array") "array" rest (by omega)
    refine ⟨"array", ?_⟩
    rw [List.cons_append, List.append_assoc]
    refine gives_parseValue .array rfl ?_
    exact gives_require.bind (hitems.bind (gives_require.bind (Gives.pure _ _)))
  | .dictionary map, hx, n + 1, rest, hn => by
    have hreported : reported (writeXml P (.dictionary map)) =
        .startTag "dict" :: (reported (writeEntries P map) ++ [.endTag "dict"]) := by
      simp [writeXml, reported]
    rw [hreported] at hn ⊢
    simp only [List.length_cons, List.length_append] at hn
    have hentries := parseEntries_writeEntries hP map hx.2 [] hx.1 n (.startTag "dict") "dict" rest
      (by omega)
    refine ⟨"dict", ?_⟩
    rw [List.cons_append, List.append_assoc]
    refine gives_parseValue .dict rfl ?_
    exact gives_require.bind (hentries.bind (gives_require.bind (Gives.pure _ _)))
  | .null, hx, n, _, _ => hx.elim
  | .list _, hx, _, _, _ => hx.elim
  | .map _, hx, _, _, _ => hx.elim

theorem parseItems_writeItems (hP : P.Faithful) : ∀ (list : List (Obj R)), Obj.TypedItems list →
    ∀ (n : Nat) (e₀ : XmlEvent) (t : String) (rest : List XmlEvent),
    (reported (writeItems P list)).length < n →
    Gives (parseItems P n) (e₀ :: (reported (writeItems P list) ++ .endTag t :: rest)) list
      (.endTag t :: rest)
  | [], _, n + 1, e₀, t, rest, _ => by
    rw [parseItems]
    exact (gives_nextTag (Or.inr rfl)).bind (Gives.pure _ _)
  | x :: list, hx, n + 1, e₀, t, rest, hn => by
    obtain ⟨tx, s, hs⟩ := reported_writeXml (P := P) hx.1
    have hlen : (reported (writeItems P (x :: list))).length =
        (reported (writeXml P x)).length + (reported (writeItems P list)).length := by
      rw [writeItems, reported_append, List.length_append]
    have hpos : 0 < (reported (writeXml P x)).length := by simp [hs]
    obtain ⟨tx', hvalue⟩ := parseValue_writeXml hP x hx.1 n
      (reported (writeItems P list) ++ .endTag t :: rest) (by omega)
    have hrest := parseItems_writeItems hP list hx.2 n (.endTag tx') t rest (by omega)
    rw [writeItems, reported_append, List.append_assoc, parseItems]
    rw [hs] at hvalue ⊢
    refine (gives_nextTag (Or.inl rfl)).bind ?_
    exact hvalue.bind (hrest.bind (Gives.pure _ _))

theorem parseEntries_writeEntries (hP : P.Faithful) : ∀ (map : List (String × Obj R)),
    Obj.TypedEntries map → ∀ (before : List (String × Obj R)),
    ((before ++ map).map Prod.fst).Nodup →
    ∀ (n : Nat) (e₀ : XmlEvent) (t : String) (rest : List XmlEvent),
    (reported (writeEntries P map)).length < n →
    Gives (parseEntries P n before) (e₀ :: (reported (writeEntries P map) ++ .endTag t :: rest))
      (before ++ map) (.endTag t :: rest)
  | [], _, before, _, n + 1, e₀, t, rest, _ => by
    rw [parseEntries, List.append_nil]
    exact (gives_nextTag (Or.inr rfl)).bind (Gives.pure _ _)
  | (key, x) :: map, hx, before, hkeys, n + 1, e₀, t, rest, hn => by
    obtain ⟨tx, s, hs⟩ := reported_writeXml (P := P) hx.1
    have hwrite : reported (writeEntries P ((key, x) :: map)) ++ .endTag t :: rest =
        .startTag "key" :: (reported [.text key] ++ .endTag "key" ::
          (reported (writeXml P x) ++ (reported (writeEntries P map) ++ .endTag t :: rest))) := by
      rw [writeEntries, reported_append, reported_append]
      simp [reported, element, List.filter_cons]
      split <;> simp
    have hlen : (reported (writeXml P x)).length + (reported (writeEntries P map)).length + 2 ≤
        (reported (writeEntries P ((key, x) :: map))).length := by
      rw [writeEntries, reported_append, reported_append, List.length_append, List.length_append]
      simp [reported, element, List.filter_cons]
      split <;> simp <;> omega
    have hfresh : key ∉ before.map Prod.fst := by
      rw [List.map_append, List.nodup_append] at hkeys
      exact fun hkey => hkeys.2.2 key hkey key (by simp) rfl
    obtain ⟨tx', hvalue⟩ := parseValue_writeXml hP x hx.1 n
      (reported (writeEntries P map) ++ .endTag t :: rest) (by omega)
    have hrest := parseEntries_writeEntries hP map hx.2 (before ++ [(key, x)])
      (by rwa [List.append_assoc]) n (.endTag tx') t rest (by omega)
    rw [hwrite, parseEntries]
    rw [hs] at hvalue ⊢
    refine (gives_nextTag (Or.inl rfl)).bind (gives_require.bind ?_)
    refine (gives_readText key).bind (gives_require.bind ?_)
    refine (gives_nextTag (Or.inl rfl)).bind (hvalue.bind ?_)
    rw [if_neg hfresh]
    rwa [List.append_assoc] at hrest

end

/-- The tree of a property list is the tree that was written. -/
theorem parse_writeXml (hP : P.Faithful) {x : Obj R} (hx : x.Typed) :
    parseDocument P (document P x) = .ok x := by
  obtain ⟨t, s, hs⟩ := reported_writeXml (P := P) hx
  have hdocument : document P x = .startDocument :: .startTag "plist" ::
      (reported (writeXml P x) ++ [.endTag "plist", .endDocument]) := by
    simp [document, reported]
  obtain ⟨tx, hvalue⟩ := parseValue_writeXml hP x hx (document P x).length
    [.endTag "plist", .endDocument] (by rw [hdocument]; simp; omega)
  rw [parseDocument, result_eq_ok, parsePlist]
  rw [hdocument, hs] at hvalue ⊢
  refine ⟨[.endTag tx, .endTag "plist", .endDocument], ?_⟩
  refine (gives_nextTag (Or.inl rfl)).bind (gives_require.bind ?_)
  exact (gives_nextTag (Or.inl rfl)).bind hvalue

end RoundTrip

/-- A platform with the doubles 0.0 and 1.5 only, and with bytes written as characters. -/
def smallPlatform : Platform Bool where
  realToString d := if d then "1.5" else "0.0"
  realValueOf s := if s = "1.5" then some true else if s = "0.0" then some false else none
  isFinite _ := true
  asInt d := if d then none else some 0
  encodeToString bytes := String.ofList (bytes.map fun b => Char.ofNat b.toNat)
  decode s := some (s.toList.map fun c => BitVec.ofNat 8 c.toNat)
  toUpperCase c := c
  toLowerCase c := c
  digit _ := none

theorem smallPlatform_faithful : smallPlatform.Faithful where
  realValueOf_toString d := by cases d <;> rfl
  decode_encodeToString bytes := by
    have hbyte : ∀ b : BitVec 8, BitVec.ofNat 8 (Char.ofNat b.toNat).toNat = b := by decide
    simp [smallPlatform, Function.comp_def, hbyte]

/-- A map with a value of each type. -/
def exampleMap : List (String × Obj Bool) :=
  [("Name", .string ""), ("Empty", .dictionary []),
    ("Keys", .array [.integer (-7), .boolean true, .real true, .data []])]

theorem exampleMap_typed : (Obj.dictionary exampleMap).Typed := by
  simp [exampleMap, Obj.Typed, Obj.TypedEntries, Obj.TypedItems]

theorem parse_writeXml_example : smallPlatform.Faithful ∧ (Obj.dictionary exampleMap).Typed ∧
    parseDocument smallPlatform (document smallPlatform (.dictionary exampleMap)) =
      .ok (.dictionary exampleMap) :=
  ⟨smallPlatform_faithful, exampleMap_typed,
    parse_writeXml smallPlatform_faithful exampleMap_typed⟩

end ConfProfile
