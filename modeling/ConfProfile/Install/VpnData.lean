import ConfProfile.Format.Profile
import ConfProfile.Lib.Tables
import ConfProfile.OnDemand.Extract

/-!
# The row of a VPN payload (`VpnData`)

`mapPayload` takes the columns of `vpn_data` from the dictionaries of a payload. It
throws where the payload has no dictionary for its type, and where JSON cannot have
one of the doubles (`mapPayload_isSome`). What a payload need not have is null in the
row (`notNull_vpnData`).
-/

namespace ConfProfile

open Tables Tokens

variable {R : Type} (P : Platform R)

/-! ## The tables (`DbOpenHelper`) -/

/-- A value that is written to a column; the text of JSON is given by its tokens. -/
inductive SqlValue where
  | text (s : String)
  | json (tokens : List Token)
  | int (i : Int)
  deriving DecidableEq, Repr

/-- A column of a text that may be null. -/
def nullable (name : String) : Column := { name }

/-- A `NOT NULL` column. -/
def mandatory (name : String) : Column := { name, notNull := true }

/-- A `NOT NULL` column with `REFERENCES`. -/
def reference (name table column : String) : Column :=
  { name, notNull := true, references := some (table, column) }

/-- `SQL_PROFILES`. -/
def profilesTable : Table where
  name := "profiles"
  primaryKey := some "id"
  columns := [mandatory "id", mandatory "name", nullable "description", nullable "organization",
    mandatory "data", nullable "added_at"]

/-- `SQL_PAYLOADS`. -/
def payloadsTable : Table where
  name := "payloads"
  primaryKey := some "payload_uuid"
  columns := [reference "profile_id" "profiles" "id", mandatory "payload_uuid",
    mandatory "payload_type", nullable "payload_display_name", mandatory "data"]

/-- `SQL_VPN_DATA`. -/
def vpnDataTable : Table where
  name := "vpn_data"
  primaryKey := none
  columns := [reference "profile_id" "profiles" "id",
    reference "payload_uuid" "payloads" "payload_uuid", mandatory "user_defined_name",
    mandatory "override_primary", mandatory "on_demand_enabled",
    mandatory "on_demand_enabled_by_user", mandatory "on_demand_rules",
    mandatory "on_demand_credentials", mandatory "remote_server", nullable "login",
    nullable "password", mandatory "rsa_securid", nullable "certificate", nullable "shared_secret",
    nullable "pptp_encryption", nullable "ipsec_group_name", mandatory "vpn_type"]

/-! ## `VpnData` -/

/-- The fields; the texts of JSON are tokens. -/
structure VpnData where
  profileId : Option String := none
  payloadUuid : Option String := none
  userDefinedName : Option String := none
  overridePrimary : Bool := false
  onDemandEnabled : Bool := false
  onDemandEnabledByUser : Bool := false
  onDemandRules : Option (List Token) := none
  onDemandCredentials : Option (List Token) := none
  remoteServer : Option String := none
  login : Option String := none
  password : Option String := none
  rsaSecurid : Bool := false
  certificate : Option String := none
  sharedSecret : Option String := none
  pptpEncryption : Option String := none
  ipsecGroupName : Option String := none
  vpnType : Option String := none

def textValue (column : String) (s : Option String) : String × Option SqlValue :=
  (column, s.map .text)

def jsonValue (column : String) (json : Option (List Token)) : String × Option SqlValue :=
  (column, json.map .json)

def boolValue (column : String) (b : Bool) : String × Option SqlValue :=
  (column, some (.int (if b then 1 else 0)))

/-- `asContentValues`. -/
def VpnData.asContentValues (d : VpnData) : Row SqlValue :=
  [textValue "profile_id" d.profileId, textValue "payload_uuid" d.payloadUuid,
    textValue "user_defined_name" d.userDefinedName, boolValue "override_primary" d.overridePrimary,
    boolValue "on_demand_enabled" d.onDemandEnabled,
    boolValue "on_demand_enabled_by_user" d.onDemandEnabledByUser,
    jsonValue "on_demand_rules" d.onDemandRules,
    jsonValue "on_demand_credentials" d.onDemandCredentials,
    textValue "remote_server" d.remoteServer, textValue "login" d.login,
    textValue "password" d.password, boolValue "rsa_securid" d.rsaSecurid,
    textValue "certificate" d.certificate, textValue "shared_secret" d.sharedSecret,
    textValue "pptp_encryption" d.pptpEncryption, textValue "ipsec_group_name" d.ipsecGroupName,
    textValue "vpn_type" d.vpnType]

/-! ## `mapPayload` -/

section MapPayload

variable (entrySet : List (String × Obj R) → List (String × Obj R))

/-- `ConfigUtils.mergeDicts`: the later dictionaries have priority. -/
def mergeDicts (dicts : List (Option (List (String × Obj R)))) : List (String × Obj R) :=
  dicts.foldl (fun map dict => (dict.getD []).foldl (fun map e => mapPut map e.1 e.2) map) []

/-- The merged dictionary of a payload. -/
def vpnDict (root : List (String × Obj R)) : List (String × Obj R) :=
  mergeDicts [getDictionary root "IPv4", getDictionary root "PPP", getDictionary root "IPSec",
    getDictionary root "VPN"]

/-- `ConfigUtils.extractOnDemandCredentials`. -/
def extractOnDemandCredentials (root : List (String × Obj R)) : Option (List Token) :=
  writeJson P .gson (.map (entrySet (credentials root)))

/-- `getInteger(key, 0) != 0`. -/
def isSet (map : List (String × Obj R)) (key : String) : Bool := (getInteger map key).getD 0 ≠ 0

def pptpEncryption (vpnDict : List (String × Obj R)) : String :=
  if (getBoolean vpnDict "CCPEnabled").getD false then
    if (getBoolean vpnDict "CCPMPPE128Enabled").getD false then "max"
    else if (getBoolean vpnDict "CCPMPPE40Enabled").getD false then "auto"
    else "none"
  else "none"

/-- The assignments of `mapPayload`, with the two texts of JSON. -/
def vpnDataOf (profileId : Option String) (payload : Payload R)
    (onDemandRules onDemandCredentials : List Token) : VpnData :=
  let root := payload.dict
  let vpnDict := vpnDict root
  let xAuth := isSet vpnDict "XAuthEnabled"
  let byCertificate := getString vpnDict "AuthenticationMethod" = some "Certificate"
  { profileId
    payloadUuid := payload.getPayloadUUID
    userDefinedName := getString root "UserDefinedName"
    overridePrimary := isSet vpnDict "OverridePrimary"
    onDemandEnabled := isSet vpnDict "OnDemandEnabled"
    onDemandEnabledByUser := isSet vpnDict "OnDemandEnabled"
    onDemandRules := some onDemandRules
    onDemandCredentials := some onDemandCredentials
    remoteServer := (getString vpnDict "CommRemoteAddress").or (getString vpnDict "RemoteAddress")
    login := getString vpnDict (if xAuth then "XAuthName" else "AuthName")
    password := getString vpnDict (if xAuth then "XAuthPassword" else "AuthPassword")
    rsaSecurid := isSet vpnDict "TokenCard"
    certificate := if byCertificate then getString vpnDict "PayloadCertificateUUID" else none
    sharedSecret := if byCertificate then none else getString vpnDict "SharedSecret"
    pptpEncryption := some (pptpEncryption vpnDict)
    ipsecGroupName := getString vpnDict "LocalIdentifier"
    vpnType := if getString root "VPNType" = some "VPN" then getString root "VPNSubType"
      else getString root "VPNType" }

/-- `mapPayload`, `none` where it throws. -/
def mapPayload (profileId : Option String) (payload : Payload R) : Option VpnData :=
  if payload.cls ≠ .vpn then some { profileId }
  else do
    let onDemandRules ← extractOnDemandRules P payload.dict entrySet
    let onDemandCredentials ← extractOnDemandCredentials P entrySet payload.dict
    some (vpnDataOf profileId payload onDemandRules onDemandCredentials)

end MapPayload

/-! ## Where it throws -/

section Mappable

variable {P}

/-- Each double among the values is a number that JSON has. -/
def AllFinite (P : Platform R) (values : List (Obj R)) : Prop :=
  ∀ x ∈ values, ∀ d, x = .real d → P.isFinite d = true

/-- There is a dictionary for the type of the payload, and no double that JSON does not have
right in one of the dictionaries and lists that are written as maps and lists. -/
structure Mappable (P : Platform R) (root : List (String × Obj R)) : Prop where
  dictionary : (vpnDictionary root).isSome
  lists : ∀ key ∈ domainKeys, ∀ dict, getDictionary root key = some dict →
    AllFinite P (dict.map Prod.snd)
  rules : ∀ dict list, vpnDictionary root = some dict → getArray dict "OnDemandRules" = some list →
    AllFinite P list
  credentials : ∀ key ∈ ["PPP", "VendorConfig", "VPN"], ∀ dict, getDictionary root key = some dict →
    AllFinite P (dict.map Prod.snd)

variable {root : List (String × Obj R)} {entrySet : List (String × Obj R) → List (String × Obj R)}

theorem writeJson_map_isSome {entries : List (String × Obj R)} (h : Obj.TypedEntries entries) :
    (writeJson P .gson (.map entries)).isSome ↔ AllFinite P (entries.map Prod.snd) := by
  rw [writeJson, Option.isSome_map, writeMembers_isSome, AllFinite, List.forall_mem_map]
  exact forall₂_congr fun e he => writeJson_gson_isSome (Obj.typedEntries_iff.mp h e he)

theorem writeJson_list_isSome {items : List (Obj R)} (h : Obj.TypedItems items) :
    (writeJson P .gson (.list items)).isSome ↔ AllFinite P items := by
  rw [writeJson, Option.isSome_map, writeElements_isSome, AllFinite]
  induction items with
  | nil => simp
  | cons x items ih =>
    rw [List.forall_mem_cons, List.forall_mem_cons, ih h.2, writeJson_gson_isSome h.1]

/-- The map is written exactly if each of its values is, in any order. -/
theorem writeJson_entrySet_isSome (horder : ∀ map, (entrySet map).Perm map)
    {map : List (String × Obj R)} : (writeJson P .gson (.map (entrySet map))).isSome ↔
      ∀ e ∈ map, (writeJson P .gson e.2).isSome := by
  rw [writeJson, Option.isSome_map, writeMembers_isSome]
  exact forall_congr' fun e => imp_congr_left (horder map).mem_iff

theorem extractOnDemandRules_isSome (hroot : (Obj.dictionary root).Typed)
    (horder : ∀ map, (entrySet map).Perm map) {dict : List (String × Obj R)}
    (hdict : vpnDictionary root = some dict) : (extractOnDemandRules P root entrySet).isSome ↔
      (∀ key ∈ domainKeys, ∀ dict, getDictionary root key = some dict →
        AllFinite P (dict.map Prod.snd)) ∧
      ∀ list, getArray dict "OnDemandRules" = some list → AllFinite P list := by
  obtain ⟨result, hresult⟩ : ∃ result, onDemandMap root = some result := ⟨_, onDemandMap_eq hdict⟩
  rw [extractOnDemandRules, hresult, Option.bind_eq_bind, Option.bind_some,
    writeJson_entrySet_isSome horder]
  constructor
  · intro h
    constructor
    · intro key hkey d hd
      have hwritten := h (key, .map d)
        ((mem_onDemandMap hdict hresult).mpr (Or.inl ⟨hkey, d, hd, rfl⟩))
      exact (writeJson_map_isSome (typed_getDictionary hroot hd).2).mp hwritten
    · intro list hlist
      have hwritten := h ("OnDemandRules", .list list)
        ((mem_onDemandMap hdict hresult).mpr (Or.inr ⟨rfl, list, hlist, rfl⟩))
      exact (writeJson_list_isSome (typed_getArray (typed_vpnDictionary hroot hdict) hlist)).mp
        hwritten
  · intro h' e he
    obtain ⟨hlists, hrules⟩ := h'
    obtain ⟨key, x⟩ := e
    rcases (mem_onDemandMap hdict hresult).mp he with ⟨hkey, d, hd, rfl⟩ | ⟨-, list, hlist, rfl⟩
    · exact (writeJson_map_isSome (typed_getDictionary hroot hd).2).mpr (hlists key hkey d hd)
    · exact (writeJson_list_isSome (typed_getArray (typed_vpnDictionary hroot hdict) hlist)).mpr
        (hrules list hlist)

theorem extractOnDemandCredentials_isSome (hroot : (Obj.dictionary root).Typed)
    (horder : ∀ map, (entrySet map).Perm map) :
    (extractOnDemandCredentials P entrySet root).isSome ↔
      ∀ key ∈ ["PPP", "VendorConfig", "VPN"], ∀ dict, getDictionary root key = some dict →
        AllFinite P (dict.map Prod.snd) := by
  have hIpsec (d : List (String × Obj R)) (hd : getDictionary root "IPSec" = some d) :
      (writeJson P .gson (.dictionary d)).isSome :=
    (writeJson_gson_isSome (typed_getDictionary hroot hd)).mpr nofun
  have hstring (s : Option String) : (writeJson P .gson (orNull s)).isSome := by
    cases s <;> rfl
  rw [extractOnDemandCredentials, writeJson_entrySet_isSome horder]
  constructor
  · intro h key hkey d hd
    have hcredential : key ∈ credentialKeys := List.mem_cons_of_mem _ hkey
    have hne : key ≠ "IPSec" := by
      intro heq
      obtain rfl := heq
      exact absurd hkey (by decide)
    have hwritten := h (key, .map d)
      ((mem_credentials_dictionary hcredential).mpr ⟨d, hd, if_neg hne⟩)
    exact (writeJson_map_isSome (typed_getDictionary hroot hd).2).mp hwritten
  · intro h e he
    obtain ⟨key, x⟩ := e
    rcases keys_credentials key x he with hkey | hkey
    · obtain ⟨d, hd, rfl⟩ := (mem_credentials_dictionary hkey).mp he
      by_cases hipsec : key = "IPSec"
      · rw [if_pos hipsec]
        exact hIpsec d (hipsec ▸ hd)
      · rw [if_neg hipsec]
        have hother : key ∈ ["PPP", "VendorConfig", "VPN"] :=
          (List.mem_cons.mp hkey).resolve_left hipsec
        exact (writeJson_map_isSome (typed_getDictionary hroot hd).2).mpr (h key hother d hd)
    · rw [(mem_credentials_type hkey).mp he]
      exact hstring _

/-- Where `mapPayload` does not throw. -/
theorem mapPayload_isSome (horder : ∀ map, (entrySet map).Perm map) (profileId : Option String)
    {payload : Payload R} (hcls : payload.cls = .vpn) :
    (mapPayload P entrySet profileId payload).isSome ↔ Mappable P payload.dict := by
  have hthrows : (mapPayload P entrySet profileId payload).isSome ↔
      (extractOnDemandRules P payload.dict entrySet).isSome ∧
        (extractOnDemandCredentials P entrySet payload.dict).isSome := by
    rw [mapPayload, if_neg (by simp [hcls])]
    cases extractOnDemandRules P payload.dict entrySet with
    | none => simp
    | some rules => cases extractOnDemandCredentials P entrySet payload.dict <;> simp
  rw [hthrows, extractOnDemandCredentials_isSome payload.typed horder]
  cases hdict : vpnDictionary payload.dict with
  | none =>
    have hnone : extractOnDemandRules P payload.dict entrySet = none := by
      rw [extractOnDemandRules, onDemandMap, getOnDemandRules, hdict]
      rfl
    rw [hnone]
    refine iff_of_false (fun h => absurd h.1 Bool.false_ne_true) fun h => ?_
    have := h.dictionary
    rw [hdict] at this
    cases this
  | some dict =>
    rw [extractOnDemandRules_isSome payload.typed horder hdict]
    constructor
    · intro h'
      obtain ⟨⟨hlists, hrules⟩, hcredentials⟩ := h'
      refine ⟨Option.isSome_of_eq_some hdict, hlists, fun d list hd hlist => ?_, hcredentials⟩
      obtain rfl := Option.some.inj (hdict.symm.trans hd)
      exact hrules list hlist
    · intro h
      exact ⟨⟨h.lists, fun list => h.rules dict list hdict⟩, h.credentials⟩

end Mappable

/-! ## Nulls -/

section Rows

variable {P} {entrySet : List (String × Obj R) → List (String × Obj R)} {profileId : Option String}
  {payload : Payload R} {d : VpnData}

theorem known_asContentValues (d : VpnData) : Known vpnDataTable d.asContentValues := by
  simp [Known, vpnDataTable, mandatory, nullable, reference, VpnData.asContentValues, textValue,
    jsonValue, boolValue]

/-- The columns of a row that may not be null. -/
theorem notNull_asContentValues (d : VpnData) : NotNull vpnDataTable d.asContentValues ↔
    d.profileId.isSome ∧ d.payloadUuid.isSome ∧ d.userDefinedName.isSome ∧
      d.onDemandRules.isSome ∧ d.onDemandCredentials.isSome ∧ d.remoteServer.isSome ∧
      d.vpnType.isSome := by
  simp [NotNull, vpnDataTable, mandatory, nullable, reference, value, VpnData.asContentValues,
    textValue, jsonValue, boolValue, List.lookup_cons]

/-- The columns of a row that refer to other tables. -/
theorem foreignKeys_asContentValues {db : Database SqlValue} (d : VpnData) :
    ForeignKeys db vpnDataTable d.asContentValues ↔
      (∀ s ∈ d.profileId, ∃ row ∈ db "profiles", value row "id" = some (.text s)) ∧
        ∀ s ∈ d.payloadUuid, ∃ row ∈ db "payloads", value row "payload_uuid" = some (.text s) := by
  simp [ForeignKeys, vpnDataTable, mandatory, nullable, reference, value, VpnData.asContentValues,
    textValue, jsonValue, boolValue, List.lookup_cons]

/-- The name, the address of the server and the type of the tunnel: what the schema asks of a
VPN payload, and its constructor does not. -/
structure Complete (root : List (String × Obj R)) : Prop where
  userDefinedName : (getString root "UserDefinedName").isSome
  remoteAddress : (getString (vpnDict root) "CommRemoteAddress").isSome ∨
    (getString (vpnDict root) "RemoteAddress").isSome
  vpnSubType : getString root "VPNType" = some "VPN" → (getString root "VPNSubType").isSome

theorem mapPayload_eq_some (hcls : payload.cls = .vpn)
    (h : mapPayload P entrySet profileId payload = some d) :
    (vpnDictionary payload.dict).isSome ∧
      ∃ rules credentials, d = vpnDataOf profileId payload rules credentials := by
  rw [mapPayload, if_neg (by simp [hcls])] at h
  obtain ⟨rules, hrules, h⟩ := Option.bind_eq_some_iff.mp h
  obtain ⟨credentials, -, h⟩ := Option.bind_eq_some_iff.mp h
  refine ⟨?_, rules, credentials, (Option.some.inj h).symm⟩
  cases hdict : vpnDictionary payload.dict with
  | none =>
    rw [extractOnDemandRules, onDemandMap, getOnDemandRules, hdict] at hrules
    cases hrules
  | some dict => rfl

/-- The VPN type of a payload that has a dictionary for it. -/
theorem getString_vpnType {root : List (String × Obj R)} (h : (vpnDictionary root).isSome) :
    (getString root "VPNType").isSome := by
  obtain ⟨dict, hdict⟩ := Option.isSome_iff_exists.mp h
  obtain ⟨key, hkey, -⟩ := Option.bind_eq_some_iff.mp hdict
  cases htype : getString root "VPNType" with
  | none => simp [vpnDictKey, htype] at hkey
  | some type => rfl

/-- The row of a payload has the values that may not be null exactly if the payload has. -/
theorem notNull_vpnData (hcls : payload.cls = .vpn) (hprofile : profileId.isSome)
    (h : mapPayload P entrySet profileId payload = some d) :
    NotNull vpnDataTable d.asContentValues ↔ Complete payload.dict := by
  obtain ⟨hdict, rules, credentials, rfl⟩ := mapPayload_eq_some hcls h
  have htype := getString_vpnType hdict
  have huuid := payload.isSome_fields.2
  rw [notNull_asContentValues]
  simp only [vpnDataOf, hprofile, huuid, Option.isSome_some, Option.isSome_or, Bool.or_eq_true,
    true_and]
  constructor
  · intro h'
    obtain ⟨hname, hremote, hsub⟩ := h'
    refine ⟨hname, hremote, fun hvpn => ?_⟩
    rwa [if_pos hvpn] at hsub
  · intro hcomplete
    refine ⟨hcomplete.userDefinedName, hcomplete.remoteAddress, ?_⟩
    split
    · exact hcomplete.vpnSubType ‹_›
    · exact htype

end Rows

end ConfProfile
