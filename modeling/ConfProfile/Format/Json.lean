import ConfProfile.Format.Plist

/-!
# Typed JSON (`PlistTypeAdapterFactory`)

Gson writes and reads JSON as a stream of tokens. The adapters of
`PlistTypeAdapterFactory` wrap each value of a property list in an object with a
single name that tells the type, and `readSpecial` goes by that name; so all types
come back, also those that JSON writes alike (`read_write_typed`).
-/

namespace ConfProfile

open Tokens

/-! ## Tokens -/

/-- The tokens of JSON. A number is the text that is written for it. -/
inductive Token where
  | beginObject
  | endObject
  | beginArray
  | endArray
  | name (s : String)
  | string (s : String)
  | number (literal : String)
  | boolean (b : Bool)
  | null
  deriving DecidableEq, Repr

abbrev JsonReader := Reader Token

section Tokens

variable {R : Type} (P : Platform R)

/-- `JsonReader.nextName`. -/
def nextName : JsonReader String := do
  match ← next with
  | .name s => pure s
  | _ => throw .thrown

/-- The text of a string or a number. -/
def nextText : JsonReader String := do
  match ← next with
  | .string s => pure s
  | .number literal => pure literal
  | _ => throw .thrown

/-- `JsonReader.nextString`. -/
def nextString : JsonReader String := nextText

/-- `JsonReader.nextInt`: also of a double that is equal to an int. -/
def nextInt : JsonReader Int32 := do
  let text ← nextText
  ofOption ((P.integerValueOf text).or ((P.realValueOf text).bind P.asInt))

/-- `JsonReader.nextDouble` of a lenient reader. -/
def nextDouble : JsonReader R := do
  let text ← nextText
  ofOption (P.realValueOf text)

/-- `JsonReader.nextBoolean`. -/
def nextBoolean : JsonReader Bool := do
  match ← next with
  | .boolean b => pure b
  | _ => throw .thrown

/-- `JsonWriter.value(Number)` of a double by a lenient writer; what is no number of JSON
is read as an unquoted string. -/
def realToken (d : R) : Token :=
  if P.isFinite d then .number (P.realToString d) else .string (P.realToString d)

/-- `HashMap.put`. -/
def mapPut {α : Type} (map : List (String × α)) (key : String) (x : α) : List (String × α) :=
  if key ∈ map.map Prod.fst then map.map fun e => if e.1 = key then (key, x) else e
  else map ++ [(key, x)]

theorem mem_of_lookup {α : Type} {map : List (String × α)} {key : String} {x : α}
    (h : map.lookup key = some x) : (key, x) ∈ map := by
  obtain ⟨before, after, rfl, -⟩ := List.lookup_eq_some_iff.mp h
  exact List.mem_append_right _ List.mem_cons_self

/-- Each key is looked up with the value it has in the map. -/
theorem lookup_eq_some {α : Type} {map : List (String × α)} (h : (map.map Prod.fst).Nodup)
    {key : String} {x : α} : map.lookup key = some x ↔ (key, x) ∈ map := by
  induction map with
  | nil => simp
  | cons e map ih =>
    obtain ⟨k, y⟩ := e
    rw [List.map_cons, List.nodup_cons] at h
    rw [List.lookup_cons, List.mem_cons, Prod.mk.injEq]
    by_cases hk : key = k
    · subst hk
      have hnot : (key, x) ∉ map := fun hmem => h.1 (List.mem_map.mpr ⟨_, hmem, rfl⟩)
      simp [hnot, eq_comm]
    · rw [beq_eq_false_iff_ne.mpr hk, ih h.2]
      simp [hk]

theorem lookup_cons_eq_ite {α : Type} (e : String × α) (map : List (String × α)) (k : String) :
    (e :: map).lookup k = if k = e.1 then some e.2 else map.lookup k := by
  rw [List.lookup_cons]
  split
  next h => rw [if_pos (beq_iff_eq.mp h)]
  next h => rw [if_neg (beq_eq_false_iff_ne.mp h)]

/-- Replacing the values of a key. -/
theorem lookup_replace {α : Type} (map : List (String × α)) (key : String) (x : α) (k : String) :
    (map.map fun e => if e.1 = key then (key, x) else e).lookup k =
      (map.lookup k).map fun y => if k = key then x else y := by
  induction map with
  | nil => rfl
  | cons e map ih =>
    rw [List.map_cons, lookup_cons_eq_ite, lookup_cons_eq_ite, ih]
    by_cases hkey : e.1 = key
    · rw [if_pos hkey, hkey]
      by_cases hk : k = key
      · rw [if_pos hk, if_pos hk, Option.map_some, if_pos hk]
      · rw [if_neg hk, if_neg hk]
    · rw [if_neg hkey]
      by_cases hk : k = e.1
      · rw [if_pos hk, if_pos hk, Option.map_some, if_neg (hk ▸ hkey)]
      · rw [if_neg hk, if_neg hk]

/-- `mapPut` is the update of one key. -/
theorem lookup_mapPut {α : Type} (map : List (String × α)) (key : String) (x : α) (k : String) :
    (mapPut map key x).lookup k = if k = key then some x else map.lookup k := by
  unfold mapPut
  split
  next hmem =>
    rw [lookup_replace]
    by_cases hk : k = key
    · have hsome : (map.lookup key).isSome := by
        rw [List.lookup_isSome_iff]
        obtain ⟨e, he, hkey⟩ := List.mem_map.mp hmem
        exact ⟨e, he, beq_iff_eq.mpr hkey.symm⟩
      obtain ⟨y, hy⟩ := Option.isSome_iff_exists.mp hsome
      rw [hk, hy, Option.map_some, if_pos rfl, if_pos rfl]
    · simp [hk]
  next hnot =>
    have hnone : map.lookup key = none := by
      rw [List.lookup_eq_none_iff]
      rintro e he
      refine bne_iff_ne.mpr ?_
      rintro rfl
      exact hnot (List.mem_map_of_mem he)
    rw [List.lookup_append, lookup_cons_eq_ite, List.lookup_nil]
    by_cases hk : k = key
    · rw [hk, hnone, if_pos rfl, Option.none_or]
    · rw [if_neg hk, if_neg hk, Option.or_none]
variable {P} {rest : List Token}

theorem gives_nextName (s : String) : Gives nextName (.name s :: rest) s rest :=
  (gives_next.mpr rfl).bind (Gives.pure _ _)

theorem gives_nextString (s : String) : Gives nextString (.string s :: rest) s rest :=
  (gives_next.mpr rfl).bind (Gives.pure _ _)

theorem gives_nextBoolean (b : Bool) : Gives nextBoolean (.boolean b :: rest) b rest :=
  (gives_next.mpr rfl).bind (Gives.pure _ _)

theorem gives_nextInt (i : Int32) : Gives (nextInt P) (.number (integerToString i) :: rest) i rest := by
  have htext : Gives nextText (.number (integerToString i) :: rest) (integerToString i) rest :=
    (gives_next.mpr rfl).bind (Gives.pure _ _)
  refine htext.bind (gives_ofOption.mpr ⟨?_, rfl⟩)
  rw [integerValueOf_toString]
  rfl

theorem gives_nextDouble (hP : P.Faithful) (d : R) :
    Gives (nextDouble P) (realToken P d :: rest) d rest := by
  have htext : Gives nextText (realToken P d :: rest) (P.realToString d) rest := by
    unfold realToken
    split
    · exact (gives_next.mpr rfl).bind (Gives.pure _ _)
    · exact (gives_next.mpr rfl).bind (Gives.pure _ _)
  exact htext.bind (gives_ofOption.mpr ⟨hP.realValueOf_toString d, rfl⟩)

theorem mapPut_fresh {α : Type} {map : List (String × α)} {key : String} (h : key ∉ map.map Prod.fst)
    (x : α) : mapPut map key x = map ++ [(key, x)] := if_neg h

end Tokens

/-! ## The adapters -/

variable {R : Type} (P : Platform R)

/-- `KEY_TYPE_PREFIX`. -/
def keyTypePrefix : String := "__type_"

/-- The type that a name stands for. -/
def plistType? (type : String) : Option String :=
  if keyTypePrefix.toList.isPrefixOf type.toList then
    some (String.ofList (type.toList.drop keyTypePrefix.toList.length))
  else none

/-- An object around its members. -/
def objectTokens (members : List Token) : List Token := .beginObject :: (members ++ [.endObject])

/-- An array around its elements. -/
def arrayTokens (elements : List Token) : List Token := .beginArray :: (elements ++ [.endArray])

theorem length_objectTokens (members : List Token) :
    (objectTokens members).length = members.length + 2 := by
  rw [objectTokens, List.length_cons, List.length_append, List.length_singleton]

theorem length_arrayTokens (elements : List Token) :
    (arrayTokens elements).length = elements.length + 2 := by
  rw [arrayTokens, List.length_cons, List.length_append, List.length_singleton]

/-- Reads an object; `members` is the loop. -/
def readObject {α : Type} (members : JsonReader α) : JsonReader α := do
  expect .beginObject
  let map ← members
  expect .endObject
  pure map

/-- Reads an array; `elements` is the loop. -/
def readArray {α : Type} (elements : JsonReader α) : JsonReader α := do
  expect .beginArray
  let list ← elements
  expect .endArray
  pure list

theorem gives_readObject {α : Type} {members : JsonReader α} {a : α} {toks rest : List Token}
    (h : Gives members (toks ++ .endObject :: rest) a (.endObject :: rest)) :
    Gives (readObject members) (objectTokens toks ++ rest) a rest := by
  rw [objectTokens, List.cons_append, List.append_assoc]
  exact (Gives.expect _ _).bind (h.bind ((Gives.expect _ _).bind (Gives.pure _ _)))

theorem of_gives_readObject {α : Type} {members : JsonReader α} {a : α} {s s' : List Token}
    (h : Gives (readObject members) s a s') :
    ∃ toks, s = .beginObject :: toks ∧ Gives members toks a (.endObject :: s') := by
  simp only [readObject, gives_bind, gives_expect, gives_pure] at h
  obtain ⟨-, toks, hs, a', s₁, ha, -, s₂, hend, rfl, rfl⟩ := h
  exact ⟨toks, hs, hend ▸ ha⟩

theorem of_gives_readArray {α : Type} {elements : JsonReader α} {a : α} {s s' : List Token}
    (h : Gives (readArray elements) s a s') :
    ∃ toks, s = .beginArray :: toks ∧ Gives elements toks a (.endArray :: s') := by
  simp only [readArray, gives_bind, gives_expect, gives_pure] at h
  obtain ⟨-, toks, hs, a', s₁, ha, -, s₂, hend, rfl, rfl⟩ := h
  exact ⟨toks, hs, hend ▸ ha⟩

theorem gives_readArray {α : Type} {elements : JsonReader α} {a : α} {toks rest : List Token}
    (h : Gives elements (toks ++ .endArray :: rest) a (.endArray :: rest)) :
    Gives (readArray elements) (arrayTokens toks ++ rest) a rest := by
  rw [arrayTokens, List.cons_append, List.append_assoc]
  exact (Gives.expect _ _).bind (h.bind ((Gives.expect _ _).bind (Gives.pure _ _)))

/-- The branches of `readSpecial`; `members` and `elements` are the loops of the two
adapters. An unknown type leaves the null. -/
def readTyped (members : JsonReader (List (String × Obj R))) (elements : JsonReader (List (Obj R)))
    (plistType : String) : JsonReader (Obj R) :=
  if plistType = "dict" then do
    let map ← readObject members
    pure (.dictionary map)
  else if plistType = "array" then do
    let list ← readArray elements
    pure (.array list)
  else if plistType = "data" then do
    let value ← nextString
    pure (.data (← ofOption (P.decode value)))
  else if plistType = "string" then do
    let value ← nextString
    pure (.string value)
  else if plistType = "real" then do
    let value ← nextDouble P
    pure (.real value)
  else if plistType = "integer" then do
    let value ← nextInt P
    pure (.integer value)
  else if plistType = "boolean" then do
    let value ← nextString
    pure (.boolean (P.equalsIgnoreCase "true" value))
  else pure .null

mutual

/-- `PlistTypesAdapterHelper.readSpecial`. -/
def readSpecial : Nat → JsonReader (Obj R)
  | 0 => throw .fuel
  | n + 1 => readObject do
    let type ← nextName
    match plistType? type with
    | none => pure .null
    | some plistType => readTyped P (readSpecialEntries n []) (readSpecialItems n) plistType

/-- The loop of `DictionaryTypeAdapter.read`, with the map so far. -/
def readSpecialEntries : Nat → List (String × Obj R) → JsonReader (List (String × Obj R))
  | 0, _ => throw .fuel
  | n + 1, map => do
    match ← peek with
    | some (.name _) => do
      let name ← nextName
      let value ← readSpecial n
      readSpecialEntries n (mapPut map name value)
    | _ => pure map

/-- The loop of `ArrayTypeAdapter.read`. -/
def readSpecialItems : Nat → JsonReader (List (Obj R))
  | 0 => throw .fuel
  | n + 1 => do
    match ← peek with
    | some .beginObject => do
      let value ← readSpecial n
      let list ← readSpecialItems n
      pure (value :: list)
    | _ => pure []

end

/-- `DictionaryTypeAdapter.read`. -/
def readDictionary (n : Nat) : JsonReader (List (String × Obj R)) :=
  readObject (readSpecialEntries P n [])

/-- `ArrayTypeAdapter.read`. -/
def readPlistArray (n : Nat) : JsonReader (List (Obj R)) := readArray (readSpecialItems P n)

/-- An object with the name of a type. -/
def special (type : String) (value : List Token) : List Token :=
  objectTokens (.name (keyTypePrefix ++ type) :: value)

mutual

/-- `PlistTypesAdapterHelper.writeSpecial`; `none` for an unknown type. -/
def writeSpecial : Obj R → Option (List Token)
  | .boolean b => some (special "boolean" [.string (toString b)])
  | .integer i => some (special "integer" [.number (integerToString i)])
  | .real d => some (special "real" [realToken P d])
  | .string s => some (special "string" [.string s])
  | .data bytes => some (special "data" [.string (P.encodeToString bytes)])
  | .array list => do
    let items ← writeSpecialItems list
    some (special "array" (arrayTokens items))
  | .dictionary map => do
    let entries ← writeSpecialEntries map
    some (special "dict" (objectTokens entries))
  | .null | .list _ | .map _ => none

def writeSpecialItems : List (Obj R) → Option (List Token)
  | [] => some []
  | x :: list => do
    let value ← writeSpecial x
    let values ← writeSpecialItems list
    some (value ++ values)

def writeSpecialEntries : List (String × Obj R) → Option (List Token)
  | [] => some []
  | (key, x) :: map => do
    let value ← writeSpecial x
    let values ← writeSpecialEntries map
    some (.name key :: (value ++ values))

end

/-- `DictionaryTypeAdapter.write`. -/
def writeDictionary (map : List (String × Obj R)) : Option (List Token) := do
  let entries ← writeSpecialEntries P map
  some (objectTokens entries)

/-- `ArrayTypeAdapter.write`. -/
def writeArray (list : List (Obj R)) : Option (List Token) := do
  let items ← writeSpecialItems P list
  some (arrayTokens items)

section Written

variable {P}

mutual

/-- Typed values can be written, with their types. -/
theorem writeSpecial_isSome : ∀ x : Obj R, x.Typed → (writeSpecial P x).isSome
  | .boolean _, _ => rfl
  | .integer _, _ => rfl
  | .real _, _ => rfl
  | .string _, _ => rfl
  | .data _, _ => rfl
  | .array list, hx => by
    obtain ⟨toks, htoks⟩ := Option.isSome_iff_exists.mp (writeSpecialItems_isSome list hx)
    simp [writeSpecial, htoks]
  | .dictionary map, hx => by
    obtain ⟨toks, htoks⟩ := Option.isSome_iff_exists.mp (writeSpecialEntries_isSome map hx.2)
    simp [writeSpecial, htoks]
  | .null, hx => hx.elim
  | .list _, hx => hx.elim
  | .map _, hx => hx.elim

theorem writeSpecialItems_isSome : ∀ list : List (Obj R), Obj.TypedItems list →
    (writeSpecialItems P list).isSome
  | [], _ => rfl
  | x :: list, hx => by
    obtain ⟨toks, htoks⟩ := Option.isSome_iff_exists.mp (writeSpecial_isSome x hx.1)
    obtain ⟨rest, hrest⟩ := Option.isSome_iff_exists.mp (writeSpecialItems_isSome list hx.2)
    simp [writeSpecialItems, htoks, hrest]

theorem writeSpecialEntries_isSome : ∀ map : List (String × Obj R), Obj.TypedEntries map →
    (writeSpecialEntries P map).isSome
  | [], _ => rfl
  | (key, x) :: map, hx => by
    obtain ⟨toks, htoks⟩ := Option.isSome_iff_exists.mp (writeSpecial_isSome x hx.1)
    obtain ⟨rest, hrest⟩ := Option.isSome_iff_exists.mp (writeSpecialEntries_isSome map hx.2)
    simp [writeSpecialEntries, htoks, hrest]

end

end Written

/-! ## Reading back -/

theorem plistType?_append (type : String) : plistType? (keyTypePrefix ++ type) = some type := by
  have hlist : (keyTypePrefix ++ type).toList = keyTypePrefix.toList ++ type.toList :=
    String.toList_append
  rw [plistType?, hlist, if_pos (by simp), List.drop_left, String.ofList_toList]

section RoundTrip

variable {P} {n : Nat} {x : Obj R}

/-- A value is what is read behind the name of its type. -/
theorem gives_readSpecial {type : String} {value rest : List Token}
    (h : Gives (readTyped P (readSpecialEntries P n []) (readSpecialItems P n) type)
      (value ++ .endObject :: rest) x (.endObject :: rest)) :
    Gives (readSpecial P (n + 1)) (special type value ++ rest) x rest := by
  rw [readSpecial]
  refine gives_readObject ((gives_nextName _).bind ?_)
  rw [plistType?_append]
  exact h

/-- What stands for a value is an object with its type. -/
theorem writeSpecial_head {toks : List Token} (h : writeSpecial P x = some toks) :
    ∃ s, toks = .beginObject :: s := by
  cases x with
  | null | list | map => cases h
  | boolean | integer | real | string | data => exact ⟨_, (Option.some.inj h).symm⟩
  | array list =>
    obtain ⟨items, -, h⟩ := Option.bind_eq_some_iff.mp h
    exact ⟨_, (Option.some.inj h).symm⟩
  | dictionary map =>
    obtain ⟨entries, -, h⟩ := Option.bind_eq_some_iff.mp h
    exact ⟨_, (Option.some.inj h).symm⟩

/-- A scalar: its type and one token. -/
theorem read_special {type : String} {value : Token}
    (h : ∀ n s, Gives (readTyped P (readSpecialEntries P n []) (readSpecialItems P n) type)
      (value :: s) x s) (n : Nat) (rest : List Token)
    (hn : (special type [value]).length ≤ n) :
    Gives (readSpecial P n) (special type [value] ++ rest) x rest := by
  obtain ⟨n, rfl⟩ : ∃ m, n = m + 1 := ⟨n - 1, by simp [special, objectTokens] at hn; omega⟩
  exact gives_readSpecial (h n _)

mutual

/-- The tokens of a value give it back. -/
theorem read_writeSpecial (hP : P.Faithful) : ∀ (x : Obj R), x.Typed →
    ∃ toks, writeSpecial P x = some toks ∧ ∀ (n : Nat) (rest : List Token), toks.length ≤ n →
      Gives (readSpecial P n) (toks ++ rest) x rest
  | .boolean b, _ => by
    refine ⟨_, rfl, read_special fun n s => ?_⟩
    have hvalue : P.equalsIgnoreCase "true" (toString b) = b := by cases b <;> rfl
    have hread : Gives (do let value ← nextString; pure (.boolean (P.equalsIgnoreCase "true" value)))
        (.string (toString b) :: s) (Obj.boolean (R := R) (P.equalsIgnoreCase "true" (toString b))) s :=
      (gives_nextString _).bind (Gives.pure _ _)
    rwa [hvalue] at hread
  | .integer i, _ =>
    ⟨_, rfl, read_special fun n s => (gives_nextInt i).bind (Gives.pure _ _)⟩
  | .real d, _ =>
    ⟨_, rfl, read_special fun n s => (gives_nextDouble hP d).bind (Gives.pure _ _)⟩
  | .string str, _ =>
    ⟨_, rfl, read_special fun n s => (gives_nextString str).bind (Gives.pure _ _)⟩
  | .data bytes, _ =>
    ⟨_, rfl, read_special fun n s => (gives_nextString _).bind
      ((gives_ofOption.mpr ⟨hP.decode_encodeToString bytes, rfl⟩).bind (Gives.pure _ _))⟩
  | .array list, hx => by
    obtain ⟨toks, hwrite, hread⟩ := read_writeSpecialItems hP list hx
    refine ⟨special "array" (arrayTokens toks), by rw [writeSpecial, hwrite]; rfl, fun n rest hn => ?_⟩
    simp only [special, objectTokens, arrayTokens, List.length_cons, List.length_append] at hn
    obtain ⟨n, rfl⟩ : ∃ m, n = m + 1 := ⟨n - 1, by omega⟩
    exact gives_readSpecial ((gives_readArray (hread n _ (by omega))).bind (Gives.pure _ _))
  | .dictionary map, hx => by
    obtain ⟨toks, hwrite, hread⟩ := read_writeSpecialEntries hP map hx.2 [] hx.1
    refine ⟨special "dict" (objectTokens toks), by rw [writeSpecial, hwrite]; rfl, fun n rest hn => ?_⟩
    simp only [special, objectTokens, List.length_cons, List.length_append] at hn
    obtain ⟨n, rfl⟩ : ∃ m, n = m + 1 := ⟨n - 1, by omega⟩
    exact gives_readSpecial ((gives_readObject (hread n _ (by omega))).bind (Gives.pure _ _))
  | .null, hx => hx.elim
  | .list _, hx => hx.elim
  | .map _, hx => hx.elim

theorem read_writeSpecialItems (hP : P.Faithful) : ∀ (list : List (Obj R)), Obj.TypedItems list →
    ∃ toks, writeSpecialItems P list = some toks ∧ ∀ (n : Nat) (rest : List Token),
      toks.length < n → Gives (readSpecialItems P n) (toks ++ .endArray :: rest) list
        (.endArray :: rest)
  | [], _ => by
    refine ⟨[], rfl, fun n rest hn => ?_⟩
    obtain ⟨n, rfl⟩ : ∃ m, n = m + 1 := ⟨n - 1, by omega⟩
    rw [readSpecialItems]
    exact (gives_peek.mpr ⟨rfl, rfl⟩).bind (Gives.pure _ _)
  | x :: list, hx => by
    obtain ⟨toks, hwrite, hread⟩ := read_writeSpecial hP x hx.1
    obtain ⟨toks', hwrite', hread'⟩ := read_writeSpecialItems hP list hx.2
    obtain ⟨s, rfl⟩ := writeSpecial_head hwrite
    refine ⟨_, by rw [writeSpecialItems, hwrite, hwrite']; rfl, fun n rest hn => ?_⟩
    rw [List.length_append, List.length_cons] at hn
    obtain ⟨n, rfl⟩ : ∃ m, n = m + 1 := ⟨n - 1, by omega⟩
    rw [readSpecialItems, List.append_assoc]
    refine (gives_peek.mpr ⟨rfl, rfl⟩).bind ?_
    exact (hread n _ (by rw [List.length_cons]; omega)).bind
      ((hread' n rest (by omega)).bind (Gives.pure _ _))

theorem read_writeSpecialEntries (hP : P.Faithful) : ∀ (map : List (String × Obj R)),
    Obj.TypedEntries map → ∀ (before : List (String × Obj R)),
    ((before ++ map).map Prod.fst).Nodup →
    ∃ toks, writeSpecialEntries P map = some toks ∧ ∀ (n : Nat) (rest : List Token),
      toks.length < n → Gives (readSpecialEntries P n before) (toks ++ .endObject :: rest)
        (before ++ map) (.endObject :: rest)
  | [], _, before, _ => by
    refine ⟨[], rfl, fun n rest hn => ?_⟩
    obtain ⟨n, rfl⟩ : ∃ m, n = m + 1 := ⟨n - 1, by omega⟩
    rw [readSpecialEntries, List.append_nil]
    exact (gives_peek.mpr ⟨rfl, rfl⟩).bind (Gives.pure _ _)
  | (key, x) :: map, hx, before, hkeys => by
    obtain ⟨toks, hwrite, hread⟩ := read_writeSpecial hP x hx.1
    obtain ⟨toks', hwrite', hread'⟩ := read_writeSpecialEntries hP map hx.2 (before ++ [(key, x)])
      (by rwa [List.append_assoc])
    have hfresh : key ∉ before.map Prod.fst := by
      rw [List.map_append, List.nodup_append] at hkeys
      exact fun hkey => hkeys.2.2 key hkey key (by simp) rfl
    refine ⟨_, by rw [writeSpecialEntries, hwrite, hwrite']; rfl, fun n rest hn => ?_⟩
    rw [List.length_cons, List.length_append] at hn
    obtain ⟨n, rfl⟩ : ∃ m, n = m + 1 := ⟨n - 1, by omega⟩
    rw [readSpecialEntries, List.cons_append, List.append_assoc]
    refine (gives_peek.mpr ⟨rfl, rfl⟩).bind ((gives_nextName key).bind ?_)
    refine (hread n _ (by omega)).bind ?_
    have hrest := hread' n rest (by omega)
    rw [List.append_assoc] at hrest
    rw [mapPut_fresh hfresh]
    exact hrest

end

/-- Dictionaries and arrays come back from typed JSON with all values and their types. -/
theorem read_write_typed (hP : P.Faithful) :
    (∀ map : List (String × Obj R), (Obj.dictionary map).Typed →
      ∃ toks, writeDictionary P map = some toks ∧
        result (whole (readDictionary P toks.length)) toks = .ok map) ∧
    (∀ list : List (Obj R), (Obj.array list).Typed →
      ∃ toks, writeArray P list = some toks ∧
        result (whole (readPlistArray P toks.length)) toks = .ok list) := by
  constructor
  · intro map hx
    obtain ⟨toks, hwrite, hread⟩ := read_writeSpecialEntries hP map hx.2 [] hx.1
    refine ⟨objectTokens toks, by rw [writeDictionary, hwrite]; rfl, ?_⟩
    have hlen : toks.length < (objectTokens toks).length := by
      rw [length_objectTokens]
      omega
    have hobject := gives_readObject (hread _ [] hlen)
    rw [List.append_nil] at hobject
    exact result_eq_ok.mpr ⟨[], gives_whole.mpr ⟨hobject, rfl⟩⟩
  · intro list hx
    obtain ⟨toks, hwrite, hread⟩ := read_writeSpecialItems hP list hx
    refine ⟨arrayTokens toks, by rw [writeArray, hwrite]; rfl, ?_⟩
    have hlen : toks.length < (arrayTokens toks).length := by
      rw [length_arrayTokens]
      omega
    have harray := gives_readArray (hread _ [] hlen)
    rw [List.append_nil] at harray
    exact result_eq_ok.mpr ⟨[], gives_whole.mpr ⟨harray, rfl⟩⟩

end RoundTrip

theorem read_write_typed_example : smallPlatform.Faithful ∧ (Obj.dictionary exampleMap).Typed ∧
    ∃ toks, writeDictionary smallPlatform exampleMap = some toks ∧
      result (whole (readDictionary smallPlatform toks.length)) toks = .ok exampleMap :=
  ⟨smallPlatform_faithful, exampleMap_typed,
    (read_write_typed smallPlatform_faithful).1 exampleMap exampleMap_typed⟩

end ConfProfile
