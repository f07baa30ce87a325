import ConfProfile.Install.VpnData
import ConfProfile.Lib.Run

/-!
# Installing a profile (`InstallConfigurationTask`)

The task first collects its actions, with the enrolment of certificates, and then
performs them one after the other. Profiles and payloads are inserted at once; the
row of a VPN payload is a request to `SqliteRequestThread`, which inserts it at some
time behind that. A row that breaks a constraint is not inserted, and nobody looks at
the result.
-/

namespace ConfProfile.Install

open Tables

variable {R Cert Key : Type}

/-! ## The environment -/

/-- An entry of a key store; a certificate may be null. -/
inductive KeyEntry (Cert Key : Type) where
  | certificate (cert : Option Cert)
  | key (privateKey : Key) (chain : List Cert)

abbrev KeyStore (Cert Key : Type) := List (String × KeyEntry Cert Key)

/-- The key store of the application in memory, `none` where there is no certificate manager,
and as it is stored. -/
structure Keys (Cert Key : Type) where
  manager : Option (KeyStore Cert Key)
  file : KeyStore Cert Key

/-- How `ScepUtils.doScep` ends. -/
inductive Enrolment (Cert Key : Type) where
  | thrown
  | failedOrPending
  | issued (privateKey : Key) (certs : List Cert)

/-- What the task meets: the platform, the order of the entries of a `HashMap`, the SCEP server,
the `CertificateFactory`, and which entries and stores the key store does not refuse. -/
structure Environment (R Cert Key : Type) where
  platform : Platform R
  entrySet : List (String × Obj R) → List (String × Obj R)
  entrySet_perm : ∀ map, (entrySet map).Perm map
  doScep : Payload R → Enrolment Cert Key
  generateCertificate : List (BitVec 8) → Option Cert
  accepts : KeyStore Cert Key → String → KeyEntry Cert Key → Bool
  doStore : KeyStore Cert Key → Bool

/-- `putKey` and `putCertificate`, then `store`; `none` is a `KeyStoreException`. That the store
fails is only logged. -/
def Environment.put (env : Environment R Cert Key) (keys : Keys Cert Key) (alias' : String)
    (entry : KeyEntry Cert Key) : Option (Keys Cert Key) :=
  match keys.manager with
  | none => some keys
  | some entries =>
    if env.accepts entries alias' entry then
      let entries := mapPut entries alias' entry
      some ⟨some entries, if env.doStore entries then entries else keys.file⟩
    else none

/-! ## The actions -/

/-- `MANAGER_INTERNAL` and `MANAGER_ANDROID_RAW`. -/
inductive CertificateManager where
  | internal
  | androidRaw
  deriving DecidableEq, Repr

inductive Action (R Cert Key : Type) where
  | installProfile
  | installPayload (payload : Payload R)
  | installPrivateKey (alias' : String) (privateKey : Key) (chain : List Cert)
  | installCertificate (manager : CertificateManager) (alias' : String) (certificate : Option Cert)

section Task

variable (env : Environment R Cert Key) (profile : ConfigurationProfile R)

/-- The actions of a payload, `none` where phase 3 throws. -/
def payloadActions (payload : Payload R) : Option (List (Action R Cert Key)) :=
  match payload.cls with
  | .scep =>
    match env.doScep payload with
    | .thrown => none
    | .failedOrPending => some [.installPayload payload]
    | .issued privateKey certs =>
      some [.installPayload payload, .installPrivateKey payload.uuid privateKey certs]
  | .rootCert =>
    match payload.dict.lookup "PayloadContent" with
    | some (.data bytes) =>
      let certificate := env.generateCertificate bytes
      some [.installPayload payload, .installCertificate .androidRaw payload.uuid certificate,
        .installCertificate .internal payload.uuid certificate]
    | _ => none
  | .vpn | .unknown => some [.installPayload payload]

/-- The actions of some payloads, as far as there are any. -/
def actionsOf (payloads : List (Payload R)) : List (Action R Cert Key) :=
  payloads.flatMap fun payload => (payloadActions env payload).getD []

/-- Phase 3. -/
def collect : Option (List (Action R Cert Key)) :=
  (profile.payloads.mapM (payloadActions env)).map fun actions => .installProfile :: actions.flatten

/-! ## The rows -/

/-- `InstallProfile.asBundle`, with the columns of `ProfilesPerformance`. -/
def profileRow : Option (Row SqlValue) :=
  (writeSpecial env.platform (.dictionary profile.plist)).map fun json =>
    [textValue "id" profile.getPayloadIdentifier, textValue "name" profile.getPayloadDisplayName,
      textValue "description" profile.getPayloadDescription,
      textValue "organization" profile.getPayloadOrganization, jsonValue "data" (some json)]

/-- `InstallPayload.asBundle`, with the columns of `PayloadsPerformance`. -/
def payloadRow (payload : Payload R) : Option (Row SqlValue) :=
  (writeDictionary env.platform payload.dict).map fun json =>
    [textValue "profile_id" profile.getPayloadIdentifier,
      textValue "payload_uuid" payload.getPayloadUUID,
      textValue "payload_type" payload.getPayloadType,
      textValue "payload_display_name" payload.getPayloadDisplayName, jsonValue "data" (some json)]

/-- The row of a VPN payload, `none` for another one and where `mapPayload` throws. -/
def vpnRow (payload : Payload R) : Option (Row SqlValue) :=
  if payload.cls = .vpn then
    (mapPayload env.platform env.entrySet profile.getPayloadIdentifier payload).map
      VpnData.asContentValues
  else none

/-! ## The run -/

/-- `TaskError.SUCCESS` and `TaskError.INTERNAL`. -/
inductive TaskResult where
  | success
  | internal
  deriving DecidableEq, Repr

/-- A row that is inserted, with the database in front of it. -/
structure Insertion where
  before : Database SqlValue
  table : Table
  row : Row SqlValue

/-- It meets the `NOT NULL` constraints and the foreign keys. -/
def Insertion.Allowed (i : Insertion) : Prop :=
  NotNull i.table i.row ∧ ForeignKeys i.before i.table i.row

/-- The task, with the actions it leaves to the user, and the requests that the thread has not
performed yet; `insertions` are those so far. -/
structure Installation (R Cert Key : Type) where
  todo : List (Action R Cert Key)
  result : Option TaskResult
  mActions : List (Action R Cert Key)
  mQueue : List (Row SqlValue)
  db : Database SqlValue
  keys : Keys Cert Key
  insertions : List Insertion

/-- `Insert.perform`: a row that breaks a constraint is left out. -/
def Installation.insertRow (s : Installation R Cert Key) (t : Table) (row : Row SqlValue) :
    Installation R Cert Key :=
  { s with
    db := (insert s.db t row).getD s.db
    insertions := s.insertions ++ [⟨s.db, t, row⟩] }

/-- An exception ends the task. -/
def Installation.thrown (s : Installation R Cert Key) : Installation R Cert Key :=
  { s with todo := [], result := some .internal }

/-- `put` of a key or a certificate, as far as it returns. -/
def Installation.putKeys (s : Installation R Cert Key) (keys : Option (Keys Cert Key)) :
    Installation R Cert Key :=
  match keys with
  | none => s.thrown
  | some keys => { s with keys }

/-- The request for the row of a payload. -/
def requestVpn (payload : Payload R) (s : Installation R Cert Key) : Installation R Cert Key :=
  if payload.cls = .vpn then
    match vpnRow env profile payload with
    | none => s.thrown
    | some row => { s with mQueue := s.mQueue ++ [row] }
  else s

/-- An action of the task. -/
def perform (s : Installation R Cert Key) : Action R Cert Key → Installation R Cert Key
  | .installProfile =>
    match profileRow env profile with
    | none => s.thrown
    | some row => s.insertRow profilesTable row
  | .installPayload payload =>
    match payloadRow env profile payload with
    | none => s.thrown
    | some row => requestVpn env profile payload (s.insertRow payloadsTable row)
  | .installPrivateKey alias' privateKey chain =>
    s.putKeys (env.put s.keys alias' (.key privateKey chain))
  | .installCertificate .androidRaw alias' certificate =>
    { s with mActions := s.mActions ++ [.installCertificate .androidRaw alias' certificate] }
  | .installCertificate .internal alias' certificate =>
    s.putKeys (env.put s.keys alias' (.certificate certificate))

inductive Party where
  | task
  | requestThread
  deriving DecidableEq, Repr

/-- A step of the task, or a request that the thread performs. -/
def step (s : Installation R Cert Key) : Party → Option (Installation R Cert Key)
  | .task =>
    if s.result.isSome then none
    else
      match s.todo with
      | [] => some { s with result := some .success }
      | action :: todo => some (perform env profile { s with todo } action)
  | .requestThread =>
    match s.mQueue with
    | [] => none
    | row :: mQueue => some ({ s with mQueue }.insertRow vpnDataTable row)

/-- The task behind phase 3. -/
def start (db : Database SqlValue) (keys : Keys Cert Key) : Installation R Cert Key :=
  let s : Installation R Cert Key := ⟨[], none, [], [], db, keys, []⟩
  match collect env profile with
  | none => s.thrown
  | some todo => { s with todo }

/-! ## What is asked of a run -/

/-- The tables have the rows of the profile, of its payloads and of its VPN payloads. -/
def AllStored (db : Database SqlValue) : Prop :=
  db "profiles" = (profileRow env profile).toList ∧
    db "payloads" = profile.payloads.filterMap (payloadRow env profile) ∧
    db "vpn_data" = profile.payloads.filterMap (vpnRow env profile)

/-- In every run on an empty database each row that is inserted is allowed, and a success with
no request left means that all rows are stored. -/
def InstallsAll (keys : Keys Cert Key) : Prop :=
  ∀ parties s, Run.run (step env profile) (start env profile empty keys) parties =
      some s →
    (∀ i ∈ s.insertions, i.Allowed) ∧
      (s.result = some .success → s.mQueue = [] → AllStored env profile s.db)

/-- The key store behind an action, `none` where the action throws. -/
def keysBehind (keys : Keys Cert Key) : Action R Cert Key → Option (Keys Cert Key)
  | .installProfile => some keys
  | .installPayload payload =>
    if payload.cls = .vpn ∧ (vpnRow env profile payload).isNone then none else some keys
  | .installPrivateKey alias' privateKey chain => env.put keys alias' (.key privateKey chain)
  | .installCertificate .androidRaw _ _ => some keys
  | .installCertificate .internal alias' certificate =>
    env.put keys alias' (.certificate certificate)

/-- The actions of some payloads return, one after the other. -/
def Returns (keys : Keys Cert Key) (payloads : List (Payload R)) : Prop :=
  (Run.run (keysBehind env profile) keys (actionsOf env payloads)).isSome

/-- Phase 3 does not throw at a payload: its enrolment returns, its certificate is data. -/
def Collects (payload : Payload R) : Prop :=
  (payload.cls = .scep → env.doScep payload ≠ .thrown) ∧
    (payload.cls = .rootCert → ∃ bytes, payload.dict.lookup "PayloadContent" = some (.data bytes))

/-- The profile has a name for people, each VPN payload that is come to and can be mapped has
the values that may not be null, and no two payloads have one UUID, if all are come to. -/
structure Installable (keys : Keys Cert Key) : Prop where
  displayName : profile.getPayloadDisplayName.isSome
  complete : ∀ before payload after, profile.payloads = before ++ payload :: after →
    Returns env profile keys before → payload.cls = .vpn →
    Mappable env.platform payload.dict → Complete payload.dict
  distinct : Returns env profile keys profile.payloads → (profile.payloads.map Payload.uuid).Nodup

end Task

end ConfProfile.Install
