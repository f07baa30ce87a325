import ConfProfile.Format.Json

/-!
# Plain JSON (`BuiltinTypeAdapterFactory`)

The adapters of `BuiltinTypeAdapterFactory` write a dictionary as an object and an
array as an array, and read them as a map and a list, going by the kinds of the
tokens. Booleans, 32-bit integers, strings and what is made of them come back
(`readsBack_of_plain`). A double is a number like an integer and is read by
`nextInt`; bytes are an array of numbers. Neither is ever among the values that
are read (`fromJson_of_gives`), so neither comes back.

`credentials_iff` says this of the credentials of a tunnel, which go through JSON
between `extractOnDemandCredentials` and `doParseCredentials`.
-/

namespace ConfProfile

open Tokens

variable {R : Type} (P : Platform R)

/-! ## Writing -/

/-- Whose adapters write the values of a map or list: Gson's own where its class is another
than `Map` or `List`, those of the factory inside of a `Dictionary` or an `Array`. -/
inductive WriteBy where
  | gson
  | builtin
  deriving DecidableEq, Repr

mutual

/-- What `Gson.toJson` writes. A null member of an object is left out; bytes are signed; a
double that is no number of JSON is refused by Gson's own adapter. -/
def writeJson : WriteBy → Obj R → Option (List Token)
  | _, .null => some [.null]
  | _, .boolean b => some [.boolean b]
  | _, .integer i => some [.number (integerToString i)]
  | by', .real d => if by' = .gson ∧ ¬ P.isFinite d then none else some [realToken P d]
  | _, .string s => some [.string s]
  | _, .data bytes => some (arrayTokens (bytes.map fun b => .number (toString b.toInt)))
  | _, .array list => (writeElements .builtin list).map arrayTokens
  | _, .dictionary map => (writeMembers .builtin map).map objectTokens
  | by', .list items => (writeElements by' items).map arrayTokens
  | by', .map entries => (writeMembers by' entries).map objectTokens

def writeElements : WriteBy → List (Obj R) → Option (List Token)
  | _, [] => some []
  | by', x :: list => do
    let value ← writeJson by' x
    let values ← writeElements by' list
    some (value ++ values)

def writeMembers : WriteBy → List (String × Obj R) → Option (List Token)
  | _, [] => some []
  | by', (key, x) :: map => do
    let value ← writeJson by' x
    let values ← writeMembers by' map
    match x with
    | .null => some values
    | _ => some (.name key :: (value ++ values))

end

/-! ## Reading -/

mutual

/-- A value, as `MapTypeAdapter.read` and `ListTypeAdapter.read` take it. For a null they
take nothing. -/
def readValue : Nat → JsonReader (Obj R)
  | 0 => throw .fuel
  | n + 1 => do
    match ← peek with
    | some .beginArray => do
      let list ← readArray (readElements n)
      pure (.list list)
    | some .beginObject => do
      let map ← readObject (readMembers n [])
      pure (.map map)
    | some (.string _) => do
      let value ← nextString
      pure (.string value)
    | some (.number _) => do
      let value ← nextInt P
      pure (.integer value)
    | some (.boolean _) => do
      let value ← nextBoolean
      pure (.boolean value)
    | _ => pure .null

/-- The loop of `ListTypeAdapter.read`. -/
def readElements : Nat → JsonReader (List (Obj R))
  | 0 => throw .fuel
  | n + 1 => do
    match ← peek with
    | some .endArray => pure []
    | none => throw .thrown
    | some _ => do
      let value ← readValue n
      let list ← readElements n
      pure (value :: list)

/-- The loop of `MapTypeAdapter.read`, with the map so far. -/
def readMembers : Nat → List (String × Obj R) → JsonReader (List (String × Obj R))
  | 0, _ => throw .fuel
  | n + 1, map => do
    match ← peek with
    | some (.name _) => do
      let name ← nextName
      let value ← readValue n
      readMembers n (mapPut map name value)
    | _ => pure map

end

/-- `MapTypeAdapter.read`. -/
def readMap (n : Nat) : JsonReader (List (String × Obj R)) := readObject (readMembers P n [])

/-- `gson.fromJson(json, Map.class)`, with fuel for every JSON without nulls. -/
def mapFromJson (json : List Token) : Except Stop (List (String × Obj R)) :=
  result (whole (readMap P json.length)) json

/-! ## Reading back -/

namespace Obj

mutual

/-- The value as plain JSON gives it: a `Dictionary` as a `Map`, an `Array` as a `List`. -/
def builtin : Obj R → Obj R
  | .array items => .list (builtinItems items)
  | .list items => .list (builtinItems items)
  | .dictionary entries => .map (builtinEntries entries)
  | .map entries => .map (builtinEntries entries)
  | .null => .null
  | .boolean b => .boolean b
  | .integer i => .integer i
  | .real d => .real d
  | .string s => .string s
  | .data bytes => .data bytes

def builtinItems : List (Obj R) → List (Obj R)
  | [] => []
  | x :: items => x.builtin :: builtinItems items

def builtinEntries : List (String × Obj R) → List (String × Obj R)
  | [] => []
  | (key, x) :: entries => (key, x.builtin) :: builtinEntries entries

end

mutual

/-- There is no double and there are no bytes, and no null, anywhere in the value. -/
def Plain : Obj R → Prop
  | .boolean _ | .integer _ | .string _ => True
  | .null | .real _ | .data _ => False
  | .array items | .list items => PlainItems items
  | .dictionary entries | .map entries => PlainEntries entries

def PlainItems : List (Obj R) → Prop
  | [] => True
  | x :: items => x.Plain ∧ PlainItems items

def PlainEntries : List (String × Obj R) → Prop
  | [] => True
  | (_, x) :: entries => x.Plain ∧ PlainEntries entries

end

mutual

/-- A value of the kinds that the adapters read. -/
def FromJson : Obj R → Prop
  | .null | .boolean _ | .integer _ | .string _ => True
  | .real _ | .data _ | .array _ | .dictionary _ => False
  | .list items => FromJsonItems items
  | .map entries => FromJsonEntries entries

def FromJsonItems : List (Obj R) → Prop
  | [] => True
  | x :: items => x.FromJson ∧ FromJsonItems items

def FromJsonEntries : List (String × Obj R) → Prop
  | [] => True
  | (_, x) :: entries => x.FromJson ∧ FromJsonEntries entries

end

theorem lookup_builtinEntries (es : List (String × Obj R)) (key : String) :
    (builtinEntries es).lookup key = (es.lookup key).map builtin := by
  induction es with
  | nil => rfl
  | cons e es ih =>
    rw [builtinEntries, List.lookup_cons, List.lookup_cons, ih]
    split <;> rfl

mutual

/-- Only from plain values can something come that is read from JSON. -/
theorem plain_of_builtin : ∀ x : Obj R, x.Typed → x.builtin.FromJson → x.Plain
  | .boolean _, _, _ => trivial
  | .integer _, _, _ => trivial
  | .string _, _, _ => trivial
  | .real _, _, h => h.elim
  | .data _, _, h => h.elim
  | .array items, hx, h => plainItems_of_builtin items hx h
  | .dictionary entries, hx, h => plainEntries_of_builtin entries hx.2 h
  | .null, hx, _ => hx.elim
  | .list _, hx, _ => hx.elim
  | .map _, hx, _ => hx.elim

theorem plainItems_of_builtin : ∀ items : List (Obj R), TypedItems items →
    FromJsonItems (builtinItems items) → PlainItems items
  | [], _, _ => trivial
  | x :: items, hx, h => ⟨plain_of_builtin x hx.1 h.1, plainItems_of_builtin items hx.2 h.2⟩

theorem plainEntries_of_builtin : ∀ entries : List (String × Obj R), TypedEntries entries →
    FromJsonEntries (builtinEntries entries) → PlainEntries entries
  | [], _, _ => trivial
  | (_, x) :: entries, hx, h =>
    ⟨plain_of_builtin x hx.1 h.1, plainEntries_of_builtin entries hx.2 h.2⟩

end

theorem typedEntries_iff {es : List (String × Obj R)} :
    TypedEntries es ↔ ∀ e ∈ es, e.2.Typed := by
  induction es with
  | nil => simp [TypedEntries]
  | cons e es ih => rw [TypedEntries, ih, List.forall_mem_cons]

theorem fromJsonEntries_iff {es : List (String × Obj R)} :
    FromJsonEntries es ↔ ∀ e ∈ es, e.2.FromJson := by
  induction es with
  | nil => simp [FromJsonEntries]
  | cons e es ih => rw [FromJsonEntries, ih, List.forall_mem_cons]

theorem fromJsonEntries_mapPut {es : List (String × Obj R)} (hes : FromJsonEntries es)
    {x : Obj R} (hx : x.FromJson) (key : String) : FromJsonEntries (mapPut es key x) := by
  rw [fromJsonEntries_iff] at hes ⊢
  unfold mapPut
  split
  · rw [List.forall_mem_map]
    intro e he
    split
    · exact hx
    · exact hes e he
  · intro e he
    rcases List.mem_append.mp he with he | he
    · exact hes e he
    · rw [List.mem_singleton.mp he]
      exact hx

end Obj

/-- Whatever is read is of the kinds that the adapters read. -/
theorem fromJson_of_gives (n : Nat) :
    (∀ s (x : Obj R) s', Gives (readValue P n) s x s' → x.FromJson) ∧
    (∀ s (list : List (Obj R)) s', Gives (readElements P n) s list s' → Obj.FromJsonItems list) ∧
    ∀ s (before map : List (String × Obj R)) s', Obj.FromJsonEntries before →
      Gives (readMembers P n before) s map s' → Obj.FromJsonEntries map := by
  induction n with
  | zero => exact ⟨fun _ _ _ => nofun, fun _ _ _ => nofun, fun _ _ _ _ _ => nofun⟩
  | succ n ih =>
    obtain ⟨ihValue, ihElements, ihMembers⟩ := ih
    refine ⟨fun s x s' h => ?_, fun s list s' h => ?_, fun s before map s' hbefore h => ?_⟩
    · rw [readValue] at h
      obtain ⟨o, s₁, -, h⟩ := gives_bind.mp h
      split at h
      next =>
        obtain ⟨list, s₂, hlist, h⟩ := gives_bind.mp h
        obtain ⟨toks, -, hlist⟩ := of_gives_readArray hlist
        rw [(gives_pure.mp h).1]
        exact ihElements _ _ _ hlist
      next =>
        obtain ⟨map, s₂, hmap, h⟩ := gives_bind.mp h
        obtain ⟨toks, -, hmap⟩ := of_gives_readObject hmap
        rw [(gives_pure.mp h).1]
        exact ihMembers _ [] _ _ trivial hmap
      next =>
        obtain ⟨value, s₂, -, h⟩ := gives_bind.mp h
        rw [(gives_pure.mp h).1]
        trivial
      next =>
        obtain ⟨value, s₂, -, h⟩ := gives_bind.mp h
        rw [(gives_pure.mp h).1]
        trivial
      next =>
        obtain ⟨value, s₂, -, h⟩ := gives_bind.mp h
        rw [(gives_pure.mp h).1]
        trivial
      next =>
        rw [(gives_pure.mp h).1]
        trivial
    · rw [readElements] at h
      obtain ⟨o, s₁, -, h⟩ := gives_bind.mp h
      split at h
      next =>
        rw [(gives_pure.mp h).1]
        trivial
      next => exact absurd h gives_throw
      next =>
        obtain ⟨x, s₂, hx, h⟩ := gives_bind.mp h
        obtain ⟨items, s₃, hitems, h⟩ := gives_bind.mp h
        rw [(gives_pure.mp h).1]
        exact ⟨ihValue _ _ _ hx, ihElements _ _ _ hitems⟩
    · rw [readMembers] at h
      obtain ⟨o, s₁, -, h⟩ := gives_bind.mp h
      split at h
      next =>
        obtain ⟨name, s₂, -, h⟩ := gives_bind.mp h
        obtain ⟨x, s₃, hx, h⟩ := gives_bind.mp h
        exact ihMembers _ _ _ _ (Obj.fromJsonEntries_mapPut hbefore (ihValue _ _ _ hx) name) h
      next =>
        rw [(gives_pure.mp h).1]
        exact hbefore

theorem fromJson_of_mapFromJson {P : Platform R} {json : List Token} {map : List (String × Obj R)}
    (h : mapFromJson P json = .ok map) : Obj.FromJsonEntries map := by
  obtain ⟨s', hgives⟩ := result_eq_ok.mp h
  obtain ⟨toks, -, hmembers⟩ := of_gives_readObject (gives_whole.mp hgives).1
  exact (fromJson_of_gives P _).2.2 _ [] map _ trivial hmembers

section ReadsBack

variable {P} {by' : WriteBy}

/-- What the adapters write for a value is read as that value. -/
def ReadsBack (P : Platform R) (by' : WriteBy) (x : Obj R) : Prop :=
  ∃ toks, writeJson P by' x = some toks ∧ (∃ t s, toks = t :: s ∧ t ≠ .endArray) ∧
    ∀ (n : Nat) (rest : List Token), toks.length ≤ n →
      Gives (readValue P n) (toks ++ rest) x.builtin rest

/-- A value that is a single token. -/
theorem readsBack_token {x : Obj R} {t : Token} (ht : t ≠ .endArray)
    (hwrite : writeJson P by' x = some [t])
    (hread : ∀ n rest, Gives (readValue P (n + 1)) (t :: rest) x.builtin rest) :
    ReadsBack P by' x := by
  refine ⟨[t], hwrite, ⟨t, [], rfl, ht⟩, fun n rest hn => ?_⟩
  obtain ⟨n, rfl⟩ : ∃ m, n = m + 1 := ⟨n - 1, (Nat.sub_add_cancel hn).symm⟩
  exact hread n rest

/-- The elements of an array. -/
theorem read_elements : ∀ (list : List (Obj R)), (∀ x ∈ list, ReadsBack P by' x) →
    ∃ toks, writeElements P by' list = some toks ∧ ∀ (n : Nat) (rest : List Token),
      toks.length < n → Gives (readElements P n) (toks ++ .endArray :: rest)
        (Obj.builtinItems list) (.endArray :: rest)
  | [], _ => by
    refine ⟨[], rfl, fun n rest hn => ?_⟩
    obtain ⟨n, rfl⟩ : ∃ m, n = m + 1 := ⟨n - 1, by omega⟩
    rw [readElements]
    exact (gives_peek.mpr ⟨rfl, rfl⟩).bind (Gives.pure _ _)
  | x :: list, hlist => by
    obtain ⟨toks, hwrite, ⟨t, s, rfl, ht⟩, hread⟩ := hlist x List.mem_cons_self
    obtain ⟨toks', hwrite', hread'⟩ :=
      read_elements list fun y hy => hlist y (List.mem_cons_of_mem x hy)
    refine ⟨_, by rw [writeElements, hwrite, hwrite']; rfl, fun n rest hn => ?_⟩
    rw [List.length_append, List.length_cons] at hn
    obtain ⟨n, rfl⟩ : ∃ m, n = m + 1 := ⟨n - 1, by omega⟩
    have hvalue := hread n (toks' ++ .endArray :: rest) (by rw [List.length_cons]; omega)
    have hrest := hread' n rest (by omega)
    rw [readElements, List.append_assoc]
    refine (gives_peek.mpr ⟨rfl, rfl⟩).bind ?_
    cases t with
    | endArray => exact absurd rfl ht
    | beginObject | endObject | beginArray | name | string | number | boolean | null =>
      exact hvalue.bind (hrest.bind (Gives.pure _ _))

def notNull : String × Obj R → Bool
  | (_, .null) => false
  | _ => true

/-- The members of an object, without the nulls. -/
theorem read_members : ∀ (map : List (String × Obj R)),
    (∀ e ∈ map, notNull e → ReadsBack P by' e.2) → ∀ (before : List (String × Obj R)),
    ((before ++ map).map Prod.fst).Nodup →
    ∃ toks, writeMembers P by' map = some toks ∧ ∀ (n : Nat) (rest : List Token),
      toks.length < n → Gives (readMembers P n before) (toks ++ .endObject :: rest)
        (before ++ Obj.builtinEntries (map.filter notNull)) (.endObject :: rest)
  | [], _, before, _ => by
    refine ⟨[], rfl, fun n rest hn => ?_⟩
    obtain ⟨n, rfl⟩ : ∃ m, n = m + 1 := ⟨n - 1, by omega⟩
    rw [readMembers, List.filter_nil, Obj.builtinEntries, List.append_nil]
    exact (gives_peek.mpr ⟨rfl, rfl⟩).bind (Gives.pure _ _)
  | (key, x) :: map, hmap, before, hkeys => by
    have hmap' : ∀ e ∈ map, notNull e → ReadsBack P by' e.2 :=
      fun e he => hmap e (List.mem_cons_of_mem _ he)
    have hfresh : key ∉ before.map Prod.fst := by
      rw [List.map_append, List.nodup_append] at hkeys
      exact fun hkey => hkeys.2.2 key hkey key (by simp) rfl
    by_cases hx : notNull (key, x)
    · obtain ⟨toks, hwrite, -, hread⟩ := hmap _ List.mem_cons_self hx
      obtain ⟨toks', hwrite', hread'⟩ := read_members map hmap' (before ++ [(key, x.builtin)])
        (by simpa using hkeys)
      have hmembers : writeMembers P by' ((key, x) :: map) = some (.name key :: (toks ++ toks')) := by
        rw [writeMembers, hwrite, hwrite']
        cases x with
        | null => cases hx
        | _ => rfl
      refine ⟨_, hmembers, fun n rest hn => ?_⟩
      rw [List.length_cons, List.length_append] at hn
      obtain ⟨n, rfl⟩ : ∃ m, n = m + 1 := ⟨n - 1, by omega⟩
      have hvalue := hread n (toks' ++ .endObject :: rest) (by omega)
      have hrest := hread' n rest (by omega)
      rw [List.append_assoc] at hrest
      rw [readMembers, List.cons_append, List.append_assoc, List.filter_cons_of_pos hx]
      refine (gives_peek.mpr ⟨rfl, rfl⟩).bind ((gives_nextName key).bind (hvalue.bind ?_))
      rw [mapPut_fresh hfresh]
      exact hrest
    · obtain ⟨toks, hwrite, hread⟩ := read_members map hmap' before (by
        rw [List.map_append, List.map_cons] at hkeys
        rw [List.map_append]
        exact hkeys.sublist (List.Sublist.append_left (List.sublist_cons_self _ _) _))
      refine ⟨toks, ?_, fun n rest hn => ?_⟩
      · cases x with
        | null => rw [writeMembers, hwrite]; rfl
        | _ => exact absurd rfl hx
      · rw [List.filter_cons_of_neg hx]
        exact hread n rest hn

/-- An array or a list. -/
theorem readsBack_array {b : WriteBy} {x : Obj R} {list : List (Obj R)}
    (hwrite : writeJson P by' x = (writeElements P b list).map arrayTokens)
    (hx : x.builtin = .list (Obj.builtinItems list)) (hlist : ∀ y ∈ list, ReadsBack P b y) :
    ReadsBack P by' x := by
  obtain ⟨toks, htoks, hread⟩ := read_elements list hlist
  refine ⟨arrayTokens toks, by rw [hwrite, htoks]; rfl, ⟨_, _, rfl, nofun⟩, fun n rest hn => ?_⟩
  simp only [arrayTokens, List.length_cons, List.length_append] at hn
  obtain ⟨n, rfl⟩ : ∃ m, n = m + 1 := ⟨n - 1, by omega⟩
  rw [readValue, hx]
  refine (gives_peek.mpr ⟨rfl, rfl⟩).bind ?_
  exact (gives_readArray (hread n rest (by omega))).bind (Gives.pure _ _)

/-- A dictionary or a map. -/
theorem readsBack_object {b : WriteBy} {x : Obj R} {map : List (String × Obj R)}
    (hwrite : writeJson P by' x = (writeMembers P b map).map objectTokens)
    (hx : x.builtin = .map (Obj.builtinEntries map)) (hkeys : (map.map Prod.fst).Nodup)
    (hmap : ∀ e ∈ map, notNull e ∧ ReadsBack P b e.2) : ReadsBack P by' x := by
  obtain ⟨toks, htoks, hread⟩ := read_members map (fun e he _ => (hmap e he).2) [] hkeys
  rw [List.filter_eq_self.mpr fun e he => (hmap e he).1] at hread
  refine ⟨objectTokens toks, by rw [hwrite, htoks]; rfl, ⟨_, _, rfl, nofun⟩, fun n rest hn => ?_⟩
  simp only [objectTokens, List.length_cons, List.length_append] at hn
  obtain ⟨n, rfl⟩ : ∃ m, n = m + 1 := ⟨n - 1, by omega⟩
  rw [readValue, hx]
  refine (gives_peek.mpr ⟨rfl, rfl⟩).bind ?_
  exact (gives_readObject (hread n rest (by omega))).bind (Gives.pure _ _)

mutual

/-- Trees without doubles and bytes come back. -/
theorem readsBack_of_plain : ∀ (by' : WriteBy) (x : Obj R), x.Typed → x.Plain → ReadsBack P by' x
  | _, .boolean b, _, _ => readsBack_token (t := .boolean b) nofun rfl fun n rest => by
    rw [readValue]
    exact (gives_peek.mpr ⟨rfl, rfl⟩).bind ((gives_nextBoolean b).bind (Gives.pure _ _))
  | _, .integer i, _, _ => readsBack_token (t := .number (integerToString i)) nofun rfl fun n rest => by
    rw [readValue]
    exact (gives_peek.mpr ⟨rfl, rfl⟩).bind ((gives_nextInt i).bind (Gives.pure _ _))
  | _, .string s, _, _ => readsBack_token (t := .string s) nofun rfl fun n rest => by
    rw [readValue]
    exact (gives_peek.mpr ⟨rfl, rfl⟩).bind ((gives_nextString s).bind (Gives.pure _ _))
  | _, .array items, hx, h =>
    readsBack_array rfl rfl (readsBack_items .builtin items hx h)
  | _, .dictionary entries, hx, h =>
    readsBack_object rfl rfl hx.1 (readsBack_entries .builtin entries hx.2 h)
  | _, .real _, _, h => h.elim
  | _, .data _, _, h => h.elim
  | _, .null, _, h => h.elim
  | _, .list _, hx, _ => hx.elim
  | _, .map _, hx, _ => hx.elim

theorem readsBack_items : ∀ (by' : WriteBy) (items : List (Obj R)), Obj.TypedItems items →
    Obj.PlainItems items → ∀ x ∈ items, ReadsBack P by' x
  | _, [], _, _ => nofun
  | by', x :: items, hx, h =>
    List.forall_mem_cons.mpr ⟨readsBack_of_plain by' x hx.1 h.1, readsBack_items by' items hx.2 h.2⟩

theorem readsBack_entries : ∀ (by' : WriteBy) (entries : List (String × Obj R)),
    Obj.TypedEntries entries → Obj.PlainEntries entries →
    ∀ e ∈ entries, notNull e ∧ ReadsBack P by' e.2
  | _, [], _, _ => nofun
  | by', (key, x) :: entries, hx, h => by
    refine List.forall_mem_cons.mpr ⟨⟨?_, readsBack_of_plain by' x hx.1 h.1⟩,
      readsBack_entries by' entries hx.2 h.2⟩
    cases x with
    | null => exact h.1.elim
    | _ => rfl

end

/-- A map whose values come back. -/
theorem mapFromJson_of_readsBack {map : List (String × Obj R)}
    (hmap : ∀ e ∈ map, notNull e ∧ ReadsBack P by' e.2) (hkeys : (map.map Prod.fst).Nodup) :
    ∃ json, writeJson P by' (.map map) = some json ∧
      mapFromJson P json = .ok (Obj.builtinEntries map) := by
  obtain ⟨toks, htoks, hread⟩ := read_members map (fun e he _ => (hmap e he).2) [] hkeys
  rw [List.filter_eq_self.mpr fun e he => (hmap e he).1] at hread
  refine ⟨objectTokens toks, by rw [writeJson, htoks]; rfl, ?_⟩
  have hlen : toks.length < (objectTokens toks).length := by
    rw [length_objectTokens]
    omega
  have h := gives_readObject (hread (objectTokens toks).length [] hlen)
  rw [List.append_nil] at h
  exact result_eq_ok.mpr ⟨[], gives_whole.mpr ⟨h, rfl⟩⟩

end ReadsBack

/-! ## What is taken -/

section Takes

variable {P} {by' : WriteBy} {n : Nat} {rest s' : List Token} {y : Obj R}

/-- Whatever is read of what the adapters write for a value, just that is taken. -/
def Takes (P : Platform R) (by' : WriteBy) (x : Obj R) : Prop :=
  ∀ toks, writeJson P by' x = some toks → (∃ t s, toks = t :: s ∧ t ≠ .endArray) ∧
    ∀ (n : Nat) (rest : List Token) (y : Obj R) (s' : List Token),
      Gives (readValue P n) (toks ++ rest) y s' → s' = rest

/-- Reading starts at the first token, with fuel. -/
theorem gives_peeked {τ α : Type} {f : Option τ → Reader τ α} {t : τ} {s s' : List τ} {a : α}
    (h : Gives (peek >>= f) (t :: s) a s') : Gives (f (some t)) (t :: s) a s' := by
  obtain ⟨o, s₁, hpeek, h⟩ := gives_bind.mp h
  obtain ⟨rfl, rfl⟩ := gives_peek.mp hpeek
  exact h

theorem fuel_of_readValue {s : List Token} (h : Gives (readValue P n) s y s') : ∃ m, n = m + 1 := by
  cases n with
  | zero => cases h
  | succ m => exact ⟨m, rfl⟩

/-- What starts like an object is a map or nothing. -/
theorem map_of_readValue {s : List Token} (h : Gives (readValue P n) (.beginObject :: s) y s') :
    ∃ map, y = .map map := by
  obtain ⟨n, rfl⟩ := fuel_of_readValue h
  rw [readValue] at h
  obtain ⟨map, s₁, -, h⟩ := gives_bind.mp (gives_peeked h)
  exact ⟨map, (gives_pure.mp h).1⟩

theorem takes_elements {list : List (Obj R)} (hlist : ∀ x ∈ list, Takes P by' x)
    {toks : List Token} (hwrite : writeElements P by' list = some toks) {items : List (Obj R)}
    (h : Gives (readElements P n) (toks ++ .endArray :: rest) items s') :
    s' = .endArray :: rest := by
  induction list generalizing toks n items s' with
  | nil =>
    cases hwrite
    cases n with
    | zero => cases h
    | succ n =>
      rw [readElements, List.nil_append] at h
      have hend := gives_peeked h
      exact (gives_pure.mp hend).2
  | cons x list ih =>
    simp only [writeElements, Option.bind_eq_bind, Option.bind_eq_some_iff, Option.some.injEq] at hwrite
    obtain ⟨value, hvalue, values, hvalues, rfl⟩ := hwrite
    obtain ⟨⟨t, s, rfl, ht⟩, htakes⟩ := hlist x List.mem_cons_self value hvalue
    cases n with
    | zero => cases h
    | succ n =>
      rw [readElements, List.append_assoc] at h
      have h := gives_peeked h
      -- the first token of a value does not close the array
      cases t with
      | endArray => exact absurd rfl ht
      | beginObject | endObject | beginArray | name | string | number | boolean | null =>
        obtain ⟨y, s₁, hy, hrest⟩ := gives_bind.mp h
        obtain ⟨items', s₂, hitems, hend⟩ := gives_bind.mp hrest
        rw [htakes n _ y s₁ hy] at hitems
        rw [(gives_pure.mp hend).2]
        exact ih (fun z hz => hlist z (List.mem_cons_of_mem x hz)) hvalues hitems

/-- A number is read as an integer. -/
theorem takes_number {literal : String}
    (h : Gives (readValue P n) (.number literal :: rest) y s') : s' = rest := by
  obtain ⟨n, rfl⟩ := fuel_of_readValue h
  rw [readValue] at h
  obtain ⟨i, s₁, hi, h⟩ := gives_bind.mp (gives_peeked h)
  obtain ⟨text, s₂, htext, hi⟩ := gives_bind.mp hi
  obtain ⟨t, s₃, ht, htext⟩ := gives_bind.mp htext
  obtain ⟨rfl, rfl⟩ := List.cons.inj (gives_next.mp ht)
  rw [(gives_pure.mp h).2, (gives_ofOption.mp hi).2, (gives_pure.mp htext).2]

theorem takes_string {s : String} (h : Gives (readValue P n) (.string s :: rest) y s') :
    s' = rest := by
  obtain ⟨n, rfl⟩ := fuel_of_readValue h
  rw [readValue] at h
  obtain ⟨s₁, s₂, hs, hend⟩ := gives_bind.mp (gives_peeked h)
  rw [(gives_pure.mp hend).2, ((gives_nextString s).unique hs).2]

/-- Bytes are read like integers. -/
theorem takes_numbers {literals : List String} {items : List (Obj R)}
    (h : Gives (readElements P n) (literals.map Token.number ++ .endArray :: rest) items s') :
    s' = .endArray :: rest := by
  induction literals generalizing n items s' with
  | nil =>
    cases n with
    | zero => cases h
    | succ n =>
      rw [readElements, List.map_nil, List.nil_append] at h
      have hend := gives_peeked h
      exact (gives_pure.mp hend).2
  | cons literal literals ih =>
    cases n with
    | zero => cases h
    | succ n =>
      rw [readElements] at h
      obtain ⟨y, s₁, hy, hrest⟩ := gives_bind.mp (gives_peeked h)
      obtain ⟨items', s₂, hitems, hend⟩ := gives_bind.mp hrest
      rw [takes_number hy] at hitems
      rw [(gives_pure.mp hend).2]
      exact ih hitems

theorem of_writeMembers {key : String} {x : Obj R} {map : List (String × Obj R)} {toks : List Token}
    (hx : notNull (key, x)) (h : writeMembers P by' ((key, x) :: map) = some toks) :
    ∃ value, writeJson P by' x = some value ∧ ∃ values, writeMembers P by' map = some values ∧
      .name key :: (value ++ values) = toks := by
  simp only [writeMembers, Option.bind_eq_bind, Option.bind_eq_some_iff] at h
  obtain ⟨value, hvalue, values, hvalues, h⟩ := h
  refine ⟨value, hvalue, values, hvalues, ?_⟩
  cases x with
  | null => cases hx
  | _ => exact Option.some.inj h

/-- `e'` is what is read under the same key of what is written for `e`. -/
def ReadFrom (P : Platform R) (by' : WriteBy) (e e' : String × Obj R) : Prop :=
  e'.1 = e.1 ∧ ∃ toks n rest, writeJson P by' e.2 = some toks ∧
    Gives (readValue P n) (toks ++ rest) e'.2 rest

theorem takes_members (before : List (String × Obj R)) {map : List (String × Obj R)}
    (hmap : ∀ e ∈ map, notNull e ∧ Takes P by' e.2) {toks : List Token}
    (hwrite : writeMembers P by' map = some toks) {members : List (String × Obj R)}
    (hkeys : ((before ++ map).map Prod.fst).Nodup)
    (h : Gives (readMembers P n before) (toks ++ .endObject :: rest) members s') :
    s' = .endObject :: rest ∧
      ∃ entries, members = before ++ entries ∧ List.Forall₂ (ReadFrom P by') map entries := by
  induction map generalizing toks n before members s' with
  | nil =>
    cases hwrite
    cases n with
    | zero => cases h
    | succ n =>
      rw [readMembers, List.nil_append] at h
      have hend := gives_peeked h
      obtain ⟨rfl, rfl⟩ := gives_pure.mp hend
      exact ⟨rfl, [], (List.append_nil _).symm, List.Forall₂.nil⟩
  | cons e map ih =>
    obtain ⟨key, x⟩ := e
    obtain ⟨hnull, htakes⟩ := hmap _ List.mem_cons_self
    obtain ⟨value, hvalue, values, hvalues, rfl⟩ := of_writeMembers hnull hwrite
    have htaken := (htakes value hvalue).2
    cases n with
    | zero => cases h
    | succ n =>
      rw [readMembers, List.cons_append, List.append_assoc] at h
      obtain ⟨name, s₁, hname, hrest⟩ := gives_bind.mp (gives_peeked h)
      obtain ⟨rfl, rfl⟩ := (gives_nextName key).unique hname
      obtain ⟨y, s₂, hy, hmembers⟩ := gives_bind.mp hrest
      obtain rfl := htaken n _ y s₂ hy
      have hfresh : name ∉ before.map Prod.fst := by
        rw [List.map_append, List.nodup_append] at hkeys
        exact fun hkey => hkeys.2.2 name hkey name (by simp) rfl
      rw [mapPut_fresh hfresh] at hmembers
      obtain ⟨hs, entries, rfl, hentries⟩ := ih _
        (fun e he => hmap e (List.mem_cons_of_mem _ he)) hvalues (by simpa using hkeys) hmembers
      refine ⟨hs, (name, y) :: entries, by rw [List.append_assoc]; rfl, ?_⟩
      exact List.Forall₂.cons ⟨rfl, value, n, _, hvalue, hy⟩ hentries

/-- A value that is a single token. -/
theorem takes_token {x : Obj R} {t : Token} (ht : t ≠ .endArray)
    (hwrite : writeJson P by' x = some [t])
    (hread : ∀ n rest y s', Gives (readValue P n) (t :: rest) y s' → s' = rest) :
    Takes P by' x := by
  intro toks h
  obtain rfl := Option.some.inj (hwrite.symm.trans h)
  exact ⟨⟨t, [], rfl, ht⟩, hread⟩

theorem of_readElements {toks rest s' : List Token} (helements : ∀ (n : Nat) items s',
      Gives (readElements P n) (toks ++ .endArray :: rest) items s' → s' = .endArray :: rest)
    (h : Gives (readValue P n) (arrayTokens toks ++ rest) y s') : s' = rest := by
  obtain ⟨n, rfl⟩ := fuel_of_readValue h
  rw [arrayTokens, List.cons_append, List.append_assoc, readValue] at h
  obtain ⟨items, s₁, hitems, hend⟩ := gives_bind.mp (gives_peeked h)
  obtain ⟨toks', htoks, hitems⟩ := of_gives_readArray hitems
  obtain ⟨-, rfl⟩ := List.cons.inj htoks
  rw [(gives_pure.mp hend).2]
  exact (List.cons.inj (helements n items _ hitems)).2

/-- An array or a list. -/
theorem takes_array {b : WriteBy} {x : Obj R} {list : List (Obj R)}
    (hwrite : writeJson P by' x = (writeElements P b list).map arrayTokens)
    (hlist : ∀ y ∈ list, Takes P b y) : Takes P by' x := by
  intro toks h
  obtain ⟨toks, helements, rfl⟩ := Option.map_eq_some_iff.mp (hwrite.symm.trans h)
  exact ⟨⟨_, _, rfl, nofun⟩, fun n rest y s' h =>
    of_readElements (fun n items s' h => takes_elements hlist helements h) h⟩

/-- A dictionary or a map. -/
theorem takes_object {b : WriteBy} {x : Obj R} {map : List (String × Obj R)}
    (hwrite : writeJson P by' x = (writeMembers P b map).map objectTokens)
    (hkeys : (map.map Prod.fst).Nodup) (hmap : ∀ e ∈ map, notNull e ∧ Takes P b e.2) :
    Takes P by' x := by
  intro toks h
  obtain ⟨toks, hmembers, rfl⟩ := Option.map_eq_some_iff.mp (hwrite.symm.trans h)
  refine ⟨⟨_, _, rfl, nofun⟩, fun n rest y s' h => ?_⟩
  obtain ⟨n, rfl⟩ := fuel_of_readValue h
  rw [objectTokens, List.cons_append, List.append_assoc, readValue] at h
  obtain ⟨members, s₁, hread, hend⟩ := gives_bind.mp (gives_peeked h)
  obtain ⟨toks', htoks, hread⟩ := of_gives_readObject hread
  obtain ⟨-, rfl⟩ := List.cons.inj htoks
  rw [(gives_pure.mp hend).2]
  exact (List.cons.inj (takes_members [] hmap hmembers hkeys hread).1).2

mutual

/-- Of every tree, also of one that does not come back. -/
theorem takes_of_typed : ∀ (by' : WriteBy) (x : Obj R), x.Typed → Takes P by' x
  | _, .boolean b, _ => takes_token (t := .boolean b) nofun rfl fun n rest y s' h => by
    obtain ⟨n, rfl⟩ := fuel_of_readValue h
    rw [readValue] at h
    obtain ⟨b', s₁, hb, hend⟩ := gives_bind.mp (gives_peeked h)
    rw [(gives_pure.mp hend).2, ((gives_nextBoolean b).unique hb).2]
  | _, .integer i, _ => takes_token (t := .number (integerToString i)) nofun rfl
    fun n rest y s' h => takes_number h
  | by', .real d, _ => by
    intro toks hwrite
    rw [writeJson] at hwrite
    split at hwrite
    next => cases hwrite
    next =>
      obtain rfl := Option.some.inj hwrite
      unfold realToken
      split
      next => exact ⟨⟨_, _, rfl, nofun⟩, fun n rest y s' h => takes_number h⟩
      next => exact ⟨⟨_, _, rfl, nofun⟩, fun n rest y s' h => takes_string h⟩
  | _, .string s, _ => takes_token (t := .string s) nofun rfl fun n rest y s' h => takes_string h
  | _, .data bytes, _ => by
    intro toks hwrite
    obtain rfl := Option.some.inj hwrite
    have hmap : bytes.map (fun b => Token.number (toString b.toInt)) =
        (bytes.map fun b => toString b.toInt).map Token.number := List.map_map.symm
    refine ⟨⟨_, _, rfl, nofun⟩, fun n rest y s' h => of_readElements (fun n items s' h => ?_) h⟩
    rw [hmap] at h
    exact takes_numbers h
  | _, .array items, hx => takes_array rfl (takes_items .builtin items hx)
  | _, .dictionary entries, hx => takes_object rfl hx.1 (takes_entries .builtin entries hx.2)
  | _, .null, hx => hx.elim
  | _, .list _, hx => hx.elim
  | _, .map _, hx => hx.elim

theorem takes_items : ∀ (by' : WriteBy) (items : List (Obj R)), Obj.TypedItems items →
    ∀ x ∈ items, Takes P by' x
  | _, [], _ => nofun
  | by', x :: items, hx =>
    List.forall_mem_cons.mpr ⟨takes_of_typed by' x hx.1, takes_items by' items hx.2⟩

theorem takes_entries : ∀ (by' : WriteBy) (entries : List (String × Obj R)),
    Obj.TypedEntries entries → ∀ e ∈ entries, notNull e ∧ Takes P by' e.2
  | _, [], _ => nofun
  | by', (key, x) :: entries, hx => by
    refine List.forall_mem_cons.mpr ⟨⟨?_, takes_of_typed by' x hx.1⟩,
      takes_entries by' entries hx.2⟩
    cases x with
    | null => exact hx.1.elim
    | _ => rfl

end

end Takes

/-! ## What can be written -/

section Written

variable {P}

theorem writeElements_isSome {by' : WriteBy} {list : List (Obj R)} :
    (writeElements P by' list).isSome ↔ ∀ x ∈ list, (writeJson P by' x).isSome := by
  induction list with
  | nil => simp [writeElements]
  | cons x list ih =>
    rw [List.forall_mem_cons, ← ih, writeElements]
    cases writeJson P by' x with
    | none => simp
    | some toks => cases writeElements P by' list <;> simp

theorem writeMembers_isSome {by' : WriteBy} {map : List (String × Obj R)} :
    (writeMembers P by' map).isSome ↔ ∀ e ∈ map, (writeJson P by' e.2).isSome := by
  induction map with
  | nil => simp [writeMembers]
  | cons e map ih =>
    obtain ⟨key, x⟩ := e
    rw [List.forall_mem_cons, ← ih, writeMembers]
    cases writeJson P by' x with
    | none => simp
    | some toks =>
      cases writeMembers P by' map with
      | none => simp
      | some rest => cases x <;> simp

mutual

/-- Inside of a `Dictionary` or an `Array` every typed value can be written. -/
theorem writeJson_builtin_isSome : ∀ x : Obj R, x.Typed → (writeJson P .builtin x).isSome
  | .boolean _, _ => rfl
  | .integer _, _ => rfl
  | .real _, _ => by simp [writeJson]
  | .string _, _ => rfl
  | .data _, _ => rfl
  | .array list, hx => by
    rw [writeJson, Option.isSome_map]
    exact writeElements_builtin_isSome list hx
  | .dictionary map, hx => by
    rw [writeJson, Option.isSome_map]
    exact writeMembers_builtin_isSome map hx.2
  | .null, hx => hx.elim
  | .list _, hx => hx.elim
  | .map _, hx => hx.elim

theorem writeElements_builtin_isSome : ∀ list : List (Obj R), Obj.TypedItems list →
    (writeElements P .builtin list).isSome
  | [], _ => rfl
  | x :: list, hx => by
    rw [writeElements_isSome, List.forall_mem_cons]
    exact ⟨writeJson_builtin_isSome x hx.1,
      writeElements_isSome.mp (writeElements_builtin_isSome list hx.2)⟩

theorem writeMembers_builtin_isSome : ∀ map : List (String × Obj R), Obj.TypedEntries map →
    (writeMembers P .builtin map).isSome
  | [], _ => rfl
  | (_, x) :: map, hx => by
    rw [writeMembers_isSome, List.forall_mem_cons]
    exact ⟨writeJson_builtin_isSome x hx.1,
      writeMembers_isSome.mp (writeMembers_builtin_isSome map hx.2)⟩

end

/-- Gson's own adapter refuses only doubles that are no numbers. -/
theorem writeJson_gson_isSome {x : Obj R} (hx : x.Typed) :
    (writeJson P .gson x).isSome ↔ ∀ d, x = .real d → P.isFinite d = true := by
  cases x with
  | real d => simp [writeJson]
  | array list =>
    refine iff_of_true ?_ nofun
    rw [writeJson, Option.isSome_map]
    exact writeElements_builtin_isSome list hx
  | dictionary map =>
    refine iff_of_true ?_ nofun
    rw [writeJson, Option.isSome_map]
    exact writeMembers_builtin_isSome map hx.2
  | null | list | map => exact hx.elim
  | boolean | integer | string | data => exact iff_of_true rfl nofun

end Written

/-! ## The credentials of a tunnel -/

variable (root : List (String × Obj R))

/-- A string, or null. -/
def orNull : Option String → Obj R
  | none => .null
  | some s => .string s

/-- The map that `ConfigUtils.extractOnDemandCredentials` makes of a payload. -/
def credentials : List (String × Obj R) :=
  ((getDictionary root "IPSec").map fun d => ("IPSec", .dictionary d)).toList ++
  ((getDictionary root "PPP").map fun d => ("PPP", .map d)).toList ++
  ((getDictionary root "VendorConfig").map fun d => ("VendorConfig", .map d)).toList ++
  ((getDictionary root "VPN").map fun d => ("VPN", .map d)).toList ++
  [("VPNType", orNull (getString root "VPNType")),
    ("VPNSubType", orNull (getString root "VPNSubType"))]

/-- The dictionaries that it takes. -/
def credentialKeys : List String := ["IPSec", "PPP", "VendorConfig", "VPN"]

/-- The strings that it takes. -/
def credentialTypes : List String := ["VPNType", "VPNSubType"]

/-- The map has the dictionaries of the payload as maps, and its types, and nothing else. -/
structure Restored (map : List (String × Obj R)) : Prop where
  dictionaries : ∀ key ∈ credentialKeys,
    map.lookup key = (getDictionary root key).map fun d => (Obj.dictionary d).builtin
  types : ∀ key ∈ credentialTypes, map.lookup key = (getString root key).map .string
  noOther : ∀ key, map.lookup key ≠ none → key ∈ credentialKeys ∨ key ∈ credentialTypes

variable {P} {root}

theorem mem_credentials_dictionary {key : String} (hkey : key ∈ credentialKeys) {x : Obj R} :
    (key, x) ∈ credentials root ↔ ∃ d, getDictionary root key = some d ∧
      (if key = "IPSec" then .dictionary d else .map d) = x := by
  simp only [credentialKeys, List.mem_cons, List.not_mem_nil, or_false] at hkey
  rcases hkey with rfl | rfl | rfl | rfl <;> simp [credentials]

theorem mem_credentials_type {key : String} (hkey : key ∈ credentialTypes) {x : Obj R} :
    (key, x) ∈ credentials root ↔ x = orNull (getString root key) := by
  simp only [credentialTypes, List.mem_cons, List.not_mem_nil, or_false] at hkey
  rcases hkey with rfl | rfl <;> simp [credentials]

theorem keys_credentials (key : String) (x : Obj R) (h : (key, x) ∈ credentials root) :
    key ∈ credentialKeys ∨ key ∈ credentialTypes := by
  simp only [credentials, List.mem_append, Option.mem_toList, Option.map_eq_some_iff,
    List.mem_cons, Prod.mk.injEq, List.not_mem_nil, or_false] at h
  simp only [credentialKeys, credentialTypes, List.mem_cons, List.not_mem_nil, or_false]
  rcases h with (((⟨_, _, h, _⟩ | ⟨_, _, h, _⟩) | ⟨_, _, h, _⟩) | ⟨_, _, h, _⟩) | ⟨h, _⟩ | ⟨h, _⟩ <;>
    simp [h, eq_comm]

theorem nodup_credentials (root : List (String × Obj R)) :
    ((credentials root).map Prod.fst).Nodup := by
  unfold credentials
  cases getDictionary root "IPSec" <;> cases getDictionary root "PPP" <;>
    cases getDictionary root "VendorConfig" <;> cases getDictionary root "VPN" <;> simp

theorem typed_getDictionary (hroot : (Obj.dictionary root).Typed) {key : String}
    {d : List (String × Obj R)} (h : getDictionary root key = some d) : (Obj.dictionary d).Typed := by
  unfold getDictionary at h
  split at h
  next hlookup =>
    cases h
    exact Obj.typedEntries_iff.mp hroot.2 _ (mem_of_lookup hlookup)
  next => cases h

theorem typed_getArray (hroot : (Obj.dictionary root).Typed) {key : String}
    {list : List (Obj R)} (h : getArray root key = some list) : Obj.TypedItems list := by
  unfold getArray at h
  split at h
  next hlookup =>
    cases h
    exact Obj.typedEntries_iff.mp hroot.2 _ (mem_of_lookup hlookup)
  next => cases h

/-- The JSON of the credentials is read as the map of its entries, where they are plain. -/
theorem readsBack_credentials (hroot : (Obj.dictionary root).Typed)
    (hplain : ∀ key ∈ credentialKeys, ∀ d, getDictionary root key = some d →
      (Obj.dictionary d).Plain) {key : String} {x : Obj R} (h : (key, x) ∈ credentials root)
    (hx : notNull (key, x)) : ReadsBack P .gson x := by
  rcases keys_credentials key x h with hkey | hkey
  · obtain ⟨d, hd, rfl⟩ := (mem_credentials_dictionary hkey).mp h
    have htyped := typed_getDictionary hroot hd
    have hd' := hplain key hkey d hd
    split
    · exact readsBack_of_plain .gson _ htyped hd'
    · exact readsBack_object rfl rfl htyped.1 (readsBack_entries .gson d htyped.2 hd')
  · obtain rfl := (mem_credentials_type hkey).mp h
    cases hs : getString root key with
    | none =>
      rw [hs] at hx
      cases hx
    | some s => exact readsBack_of_plain .gson _ trivial trivial

/-- For all payloads and every order of the map: what `doParseCredentials` reads is the
payload again exactly if none of the dictionaries taken has a double or bytes in it. -/
theorem credentials_iff (hroot : (Obj.dictionary root).Typed) {order : List (String × Obj R)}
    (horder : order.Perm (credentials root)) {json : List Token}
    (hwrite : writeJson P .gson (.map order) = some json) :
    (∃ map, mapFromJson P json = .ok map ∧ Restored root map) ↔
      ∀ key ∈ credentialKeys, ∀ d, getDictionary root key = some d → (Obj.dictionary d).Plain := by
  have hnodup : (order.map Prod.fst).Nodup := (horder.map Prod.fst).nodup_iff.mpr (nodup_credentials root)
  constructor
  · intro h' key hkey d hd
    obtain ⟨map, hread, hdict, -, -⟩ := h'
    have hjson := fromJson_of_mapFromJson hread
    have hmem : (key, (Obj.dictionary d).builtin) ∈ map :=
      mem_of_lookup (by rw [hdict key hkey, hd]; rfl)
    exact Obj.plain_of_builtin _ (typed_getDictionary hroot hd) (Obj.fromJsonEntries_iff.mp hjson _ hmem)
  · intro hplain
    have hreads : ∀ e ∈ order, notNull e → ReadsBack P .gson e.2 :=
      fun e he hx => readsBack_credentials hroot hplain (horder.mem_iff.mp he) hx
    obtain ⟨toks, htoks, hread⟩ := read_members order hreads [] hnodup
    have hjson : json = objectTokens toks := by
      rw [writeJson, htoks] at hwrite
      exact (Option.some.inj hwrite).symm
    have hlen : toks.length < json.length := by
      rw [hjson, length_objectTokens]
      omega
    have hmap : Gives (readMap P json.length) json (Obj.builtinEntries (order.filter notNull)) [] := by
      have h := gives_readObject (hread json.length [] hlen)
      rwa [List.append_nil, ← hjson] at h
    have hlookup (key : String) (o : Option (Obj R))
        (h : ∀ x, (key, x) ∈ order.filter notNull ↔ o = some x) :
        (order.filter notNull).lookup key = o := by
      ext x
      rw [lookup_eq_some (hnodup.sublist (List.filter_sublist.map _)), h]
    refine ⟨_, result_eq_ok.mpr ⟨[], gives_whole.mpr ⟨hmap, rfl⟩⟩, ?_, ?_, ?_⟩
    · intro key hkey
      rw [Obj.lookup_builtinEntries, hlookup key ((getDictionary root key).map fun d =>
        if key = "IPSec" then .dictionary d else .map d)]
      · cases getDictionary root key with
        | none => rfl
        | some d =>
          rw [Option.map_some, Option.map_some, Option.map_some]
          split <;> rfl
      · intro x
        rw [List.mem_filter, horder.mem_iff, mem_credentials_dictionary hkey, Option.map_eq_some_iff]
        refine ⟨And.left, fun h => ⟨h, ?_⟩⟩
        obtain ⟨d, -, rfl⟩ := h
        split <;> rfl
    · intro key hkey
      rw [Obj.lookup_builtinEntries, hlookup key ((getString root key).map .string)]
      · cases getString root key <;> rfl
      · intro x
        rw [List.mem_filter, horder.mem_iff, mem_credentials_type hkey]
        cases getString root key with
        | none => exact ⟨fun h => by rw [h.1] at h; exact absurd h.2 Bool.false_ne_true, nofun⟩
        | some s => exact ⟨fun h => congrArg some h.1.symm, fun h => ⟨(Option.some.inj h).symm, by rw [← Option.some.inj h]; rfl⟩⟩
    · intro key hkey
      rw [Obj.lookup_builtinEntries, Option.ne_none_iff_isSome, Option.isSome_map] at hkey
      obtain ⟨x, hx⟩ := Option.isSome_iff_exists.mp hkey
      exact keys_credentials key x (horder.mem_iff.mp (List.mem_filter.mp (mem_of_lookup hx)).1)

/-- A payload with a string, an integer and an array. -/
def plainRoot : List (String × Obj Bool) :=
  [("VPNType", .string "IPSec"),
    ("IPSec", .dictionary [("RemoteAddress", .string "vpn"), ("Port", .integer 500),
      ("Routes", .array [.string "10.0.0.0"])])]

theorem plainRoot_typed : (Obj.dictionary plainRoot).Typed := by
  simp [plainRoot, Obj.Typed, Obj.TypedEntries, Obj.TypedItems]

def plainJson : List Token :=
  [.beginObject, .name "IPSec", .beginObject, .name "RemoteAddress", .string "vpn",
    .name "Port", .number "500", .name "Routes", .beginArray, .string "10.0.0.0", .endArray,
    .endObject, .name "VPNType", .string "IPSec", .endObject]

theorem credentials_iff_plain : (Obj.dictionary plainRoot).Typed ∧
    writeJson smallPlatform .gson (.map (credentials plainRoot)) = some plainJson ∧
    ∃ map, mapFromJson smallPlatform plainJson = .ok map ∧ Restored plainRoot map :=
  ⟨plainRoot_typed, rfl, (credentials_iff plainRoot_typed (List.Perm.refl _) rfl).mpr (by
    intro key hkey d hd
    simp only [credentialKeys, List.mem_cons, List.not_mem_nil, or_false] at hkey
    rcases hkey with rfl | rfl | rfl | rfl
    · cases hd
      simp [Obj.Plain, Obj.PlainEntries, Obj.PlainItems]
    · cases hd
    · cases hd
    · cases hd)⟩

/-- A payload with a double in the dictionary of its type. -/
def realRoot : List (String × Obj Bool) :=
  [("VPNType", .string "VPN"), ("VPN", .dictionary [("Timeout", .real true)])]

def realJson : List Token :=
  [.beginObject, .name "VPN", .beginObject, .name "Timeout", .number "1.5", .endObject,
    .name "VPNType", .string "VPN", .endObject]

/-- The double 1.5 is written as a number, and `nextInt` throws at it. -/
theorem credentials_lost : (Obj.dictionary realRoot).Typed ∧
    writeJson smallPlatform .gson (.map (credentials realRoot)) = some realJson ∧
    ¬ ∃ map, mapFromJson smallPlatform realJson = .ok map ∧ Restored realRoot map := by
  refine ⟨by simp [realRoot, Obj.Typed, Obj.TypedEntries], rfl, ?_⟩
  intro h
  obtain ⟨map, hread, -⟩ := h
  have hthrown : mapFromJson smallPlatform realJson = .error .thrown := rfl
  rw [hthrown] at hread
  cases hread

end ConfProfile
