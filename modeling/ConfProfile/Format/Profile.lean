import ConfProfile.Format.Builtin

/-!
# Profiles and payloads (`ConfigurationProfile`)

`wrap` takes a property list whose mandatory fields are there, with the payloads of
its content, each of which has passed the constructor of its class. A value of
`ConfigurationProfile` is such a profile: `wrap_eq_ok` says that it is what `wrap`
gives of its property list, and of no other.
-/

namespace ConfProfile

variable {R : Type}

/-! ## Exceptions -/

/-- What `wrap` and `createPayload` throw. -/
inductive ProfileException where
  /-- `"%s (missing field %s)"` -/
  | missingField (message field : String)
  /-- `"%s (field %s has invalid format or value, should be %s)"` -/
  | invalidField (message field requiredValue : String)
  /-- another message -/
  | other (message : String)
  /-- another message with its cause, `none` for a `NullPointerException` -/
  | caused (message : String) (cause : Option ProfileException)
  /-- a `ClassCastException`: the property list is no dictionary -/
  | notDictionary
  deriving Repr

def INVALID_PAYLOAD_VERSION : Int32 := 0

/-- The check of a mandatory string. -/
def checkString (message field : String) (dict : List (String × Obj R)) :
    Except ProfileException Unit :=
  if getString dict field = none then .error (.missingField message field) else .ok ()

/-! ## Payloads -/

/-- The class that `PayloadFactory` has for a type. -/
inductive PayloadClass where
  | scep
  | vpn
  | rootCert
  | unknown
  deriving DecidableEq, Repr

/-- `REGISTERED_PAYLOADS`. -/
def payloadClass (type : String) : PayloadClass :=
  if type = "com.apple.security.scep" then .scep
  else if type = "com.apple.vpn.managed" then .vpn
  else if type = "com.apple.security.root" then .rootCert
  else .unknown

/-- The constructor of `Payload`. -/
def checkPayload (dict : List (String × Obj R)) : Except ProfileException Unit := do
  checkString "Can't create payload" "PayloadIdentifier" dict
  checkString "Can't create payload" "PayloadUUID" dict
  checkString "Can't create payload" "PayloadType" dict
  if (getInteger dict "PayloadVersion").getD INVALID_PAYLOAD_VERSION = INVALID_PAYLOAD_VERSION then
    throw (.missingField "Can't create payload" "PayloadVersion")

/-- The constructor of the class; `none` is a `NullPointerException`. -/
def construct (dict : List (String × Obj R)) (cls : PayloadClass) :
    Except (Option ProfileException) Unit := do
  (checkPayload dict).mapError some
  if cls = .scep then
    match getDictionary dict "PayloadContent" with
    | none => throw none
    | some content => (checkString "Can't create payload" "URL" content).mapError some

/-- `PayloadFactory.createPayload`, as far as it throws. -/
def checkCreate (dict : List (String × Obj R)) : Except ProfileException Unit :=
  match getString dict "PayloadType" with
  | none => .error (.other "Missing payload type")
  | some type => (construct dict (payloadClass type)).mapError
      (.caused "Error while instantiating payload object")

/-- A payload that its constructor has accepted. -/
structure Payload (R : Type) where
  dict : List (String × Obj R)
  typed : (Obj.dictionary dict).Typed
  accepted : checkCreate dict = .ok ()

namespace Payload

variable (p : Payload R)

def getPayloadType : Option String := getString p.dict "PayloadType"

def getPayloadUUID : Option String := getString p.dict "PayloadUUID"

def getPayloadDisplayName : Option String := getString p.dict "PayloadDisplayName"

/-- The class of the object. -/
def cls : PayloadClass := payloadClass (p.getPayloadType.getD "")

end Payload

/-- `PayloadFactory.createPayload`. -/
def createPayload (dict : List (String × Obj R)) (htyped : (Obj.dictionary dict).Typed) :
    Except ProfileException (Payload R) :=
  match h : checkCreate dict with
  | .error e => .error e
  | .ok () => .ok ⟨dict, htyped, h⟩

/-! ## Profiles -/

/-- The dictionaries of a list. -/
def dictionariesOf : List (Obj R) → List (List (String × Obj R))
  | [] => []
  | .dictionary dict :: list => dict :: dictionariesOf list
  | _ :: list => dictionariesOf list

/-- The dictionaries of the payloads of a property list. -/
def payloadDicts (plist : List (String × Obj R)) : List (List (String × Obj R)) :=
  dictionariesOf ((getArray plist "PayloadContent").getD [])

/-- The checks of `wrap`. -/
def checkProfile (plist : List (String × Obj R)) : Except ProfileException Unit := do
  checkString "Can't wrap plist" "PayloadIdentifier" plist
  checkString "Can't wrap plist" "PayloadUUID" plist
  if getString plist "PayloadType" ≠ some "Configuration" then
    throw (.invalidField "Can't wrap plist" "PayloadType" "\"Configuration\"")
  if (getInteger plist "PayloadVersion").getD INVALID_PAYLOAD_VERSION ≠ 1 then
    throw (.invalidField "Can't wrap plist" "PayloadVersion" "1")

/-- A profile that `wrap` has accepted, with its payloads. -/
structure ConfigurationProfile (R : Type) where
  plist : List (String × Obj R)
  typed : (Obj.dictionary plist).Typed
  accepted : checkProfile plist = .ok ()
  payloads : List (Payload R)
  content : payloads.map Payload.dict = payloadDicts plist

namespace ConfigurationProfile

variable (profile : ConfigurationProfile R)

def getPayloadIdentifier : Option String := getString profile.plist "PayloadIdentifier"

def getPayloadDisplayName : Option String := getString profile.plist "PayloadDisplayName"

def getPayloadDescription : Option String := getString profile.plist "PayloadDescription"

def getPayloadOrganization : Option String := getString profile.plist "PayloadOrganization"

end ConfigurationProfile

/-- The loop of `parsePayloadContent`. -/
def createPayloads : (dicts : List (List (String × Obj R))) →
    (∀ dict ∈ dicts, (Obj.dictionary dict).Typed) → Except ProfileException (List (Payload R))
  | [], _ => .ok []
  | dict :: dicts, htyped => do
    let payload ← createPayload dict (htyped dict List.mem_cons_self)
    let payloads ← createPayloads dicts fun dict hdict => htyped dict (List.mem_cons_of_mem _ hdict)
    return payload :: payloads

theorem createPayload_eq_ok {dict : List (String × Obj R)} {htyped : (Obj.dictionary dict).Typed}
    {payload : Payload R} : createPayload dict htyped = .ok payload ↔ payload.dict = dict := by
  unfold createPayload
  split
  next e he =>
    refine iff_of_false nofun ?_
    intro heq'
    obtain rfl := heq'
    rw [payload.accepted] at he
    cases he
  next h =>
    constructor
    · intro heq
      rw [← Except.ok.inj heq]
    · intro heq'
      obtain rfl := heq'
      rfl

theorem createPayloads_eq_ok {dicts : List (List (String × Obj R))}
    {htyped : ∀ dict ∈ dicts, (Obj.dictionary dict).Typed} {payloads : List (Payload R)} :
    createPayloads dicts htyped = .ok payloads ↔ payloads.map Payload.dict = dicts := by
  induction dicts generalizing payloads with
  | nil =>
    rw [createPayloads, List.map_eq_nil_iff]
    exact ⟨fun h => (Except.ok.inj h).symm, fun h => by rw [h]⟩
  | cons dict dicts ih =>
    rw [createPayloads]
    constructor
    · intro h
      cases hpayload : createPayload dict (htyped dict List.mem_cons_self) with
      | error e => rw [hpayload] at h; cases h
      | ok payload =>
        cases hrest : createPayloads dicts fun d hd => htyped d (List.mem_cons_of_mem _ hd) with
        | error e => rw [hpayload, hrest] at h; cases h
        | ok rest =>
          rw [hpayload, hrest] at h
          obtain rfl := Except.ok.inj h
          rw [List.map_cons, createPayload_eq_ok.mp hpayload, ih.mp hrest]
    · intro h
      obtain ⟨payload, rest, rfl, hdict, hdicts⟩ := List.map_eq_cons_iff.mp h
      rw [createPayload_eq_ok.mpr hdict, ih.mpr hdicts]
      rfl

theorem typed_payloadDicts {plist : List (String × Obj R)} (h : (Obj.dictionary plist).Typed) :
    ∀ dict ∈ payloadDicts plist, (Obj.dictionary dict).Typed := by
  have hlist {list : List (Obj R)} (htyped : Obj.TypedItems list) :
      ∀ dict ∈ dictionariesOf list, (Obj.dictionary dict).Typed := by
    induction list with
    | nil => exact fun dict hdict => absurd hdict List.not_mem_nil
    | cons x list ih =>
      intro dict hdict
      cases x with
      | dictionary d =>
        rcases List.mem_cons.mp hdict with rfl | hdict
        · exact htyped.1
        · exact ih htyped.2 dict hdict
      | _ => exact ih htyped.2 dict hdict
  unfold payloadDicts
  cases harray : getArray plist "PayloadContent" with
  | none => exact fun dict hdict => absurd hdict List.not_mem_nil
  | some list => exact hlist (typed_getArray h harray)

/-- `wrap`, of a dictionary. -/
def wrapDictionary (plist : List (String × Obj R)) (htyped : (Obj.dictionary plist).Typed) :
    Except ProfileException (ConfigurationProfile R) :=
  match h : checkProfile plist with
  | .error e => .error e
  | .ok () =>
    match hcontent : createPayloads (payloadDicts plist) (typed_payloadDicts htyped) with
    | .error e => .error e
    | .ok payloads => .ok ⟨plist, htyped, h, payloads, createPayloads_eq_ok.mp hcontent⟩

/-- `wrap`. -/
def wrap (x : Obj R) (htyped : x.Typed) : Except ProfileException (ConfigurationProfile R) :=
  match x, htyped with
  | .dictionary plist, htyped => wrapDictionary plist htyped
  | _, _ => .error .notDictionary

theorem wrapDictionary_eq_ok {plist : List (String × Obj R)}
    {htyped : (Obj.dictionary plist).Typed} {profile : ConfigurationProfile R} :
    wrapDictionary plist htyped = .ok profile ↔ profile.plist = plist := by
  unfold wrapDictionary
  split
  next e he =>
    refine iff_of_false nofun ?_
    intro heq
    obtain rfl := heq
    rw [profile.accepted] at he
    cases he
  next =>
    split
    next e he =>
      refine iff_of_false nofun ?_
      intro heq
      obtain rfl := heq
      rw [createPayloads_eq_ok.mpr profile.content] at he
      cases he
    next payloads hpayloads =>
      constructor
      · intro h
        rw [← Except.ok.inj h]
      · intro heq
        obtain rfl := heq
        obtain rfl := Except.ok.inj
          ((createPayloads_eq_ok.mpr profile.content).symm.trans hpayloads)
        rfl

/-- A profile is what `wrap` gives of its property list, and of no other. -/
theorem wrap_eq_ok {x : Obj R} {htyped : x.Typed} {profile : ConfigurationProfile R} :
    wrap x htyped = .ok profile ↔ x = .dictionary profile.plist := by
  cases x with
  | dictionary plist =>
    rw [wrap, wrapDictionary_eq_ok, Obj.dictionary.injEq]
    exact eq_comm
  | _ => exact iff_of_false nofun nofun

/-! ## What the checks ensure -/

theorem checkString_eq_ok {message field : String} {dict : List (String × Obj R)} :
    checkString message field dict = .ok () ↔ (getString dict field).isSome := by
  unfold checkString
  cases getString dict field <;> simp

theorem ok_of_bind {ε α β : Type} {x : Except ε α} {f : α → Except ε β} {b : β}
    (h : x >>= f = .ok b) : ∃ a, x = .ok a ∧ f a = .ok b := by
  cases x with
  | error e => cases h
  | ok a => exact ⟨a, rfl, h⟩

theorem ok_of_mapError {ε ε' α : Type} {x : Except ε α} {f : ε → ε'} {a : α}
    (h : x.mapError f = .ok a) : x = .ok a := by
  cases x with
  | error e => cases h
  | ok a' => exact congrArg _ (Except.ok.inj h)

theorem Payload.isSome_fields (p : Payload R) :
    p.getPayloadType.isSome ∧ p.getPayloadUUID.isSome := by
  have haccepted := p.accepted
  unfold checkCreate at haccepted
  split at haccepted
  next => cases haccepted
  next type htype =>
    obtain ⟨_, hcheck, -⟩ := ok_of_bind (ok_of_mapError haccepted)
    obtain ⟨_, -, hcheck⟩ := ok_of_bind (ok_of_mapError hcheck)
    obtain ⟨_, huuid, -⟩ := ok_of_bind hcheck
    exact ⟨Option.isSome_of_eq_some htype, checkString_eq_ok.mp huuid⟩

/-- The UUID, which is there. -/
def Payload.uuid (p : Payload R) : String := p.getPayloadUUID.get p.isSome_fields.2

theorem Payload.getPayloadUUID_eq (p : Payload R) : p.getPayloadUUID = some p.uuid :=
  (Option.some_get _).symm

theorem ConfigurationProfile.isSome_identifier (profile : ConfigurationProfile R) :
    profile.getPayloadIdentifier.isSome := by
  obtain ⟨_, hidentifier, -⟩ := ok_of_bind profile.accepted
  exact checkString_eq_ok.mp hidentifier

/-- The identifier, which is there. -/
def ConfigurationProfile.identifier (profile : ConfigurationProfile R) : String :=
  profile.getPayloadIdentifier.get profile.isSome_identifier

theorem ConfigurationProfile.getPayloadIdentifier_eq (profile : ConfigurationProfile R) :
    profile.getPayloadIdentifier = some profile.identifier :=
  (Option.some_get _).symm

end ConfProfile
