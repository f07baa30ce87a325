import ConfProfile.Install.VpnData
import ConfProfile.Lib.Cascade

/-!
# The database of the profiles (`DbOpenHelper` and the loaders)

There are four tables: the profiles, the objects linked to them, their payloads, and the
configurations of their VPN payloads. Rows are inserted, a profile is deleted, and the user switches
"on demand" for a configuration. A profile takes its rows along by a trigger and by `ON DELETE
CASCADE`. Android calls `onConfigure` from API level 16 on, so on an older system the references are
not enforced: `foreignKeys` says whether they are.

`Catalog` is what the database is for: lists of profiles, linked objects, payloads and
configurations. `store_run` is the refinement: what the cursor mappers read in the tables behind any
run is the catalog behind it. `store_sound` is the invariant of the constraints, and
`deleteProfile_agree_iff` compares the trigger to the cascade.
-/

namespace ConfProfile.Db

open Tables

/-! ## The tables -/

/-- `SQL_LINKED_OBJECTS`. -/
def linkedObjectsTable : Table where
  name := "linked_objects"
  primaryKey := some "object_id"
  columns := [reference "profile_id" "profiles" "id", mandatory "object_id", mandatory "manager_id",
    mandatory "manager_key"]

/-- `onCreate`. -/
def schema : List Table := [profilesTable, linkedObjectsTable, payloadsTable, vpnDataTable]

/-- The table, without its references where they are not enforced. -/
def enforced (foreignKeys : Bool) (t : Table) : Table :=
  if foreignKeys then t
  else { t with columns := t.columns.map fun c => { c with references := none } }

def tables (foreignKeys : Bool) : List Table := schema.map (enforced foreignKeys)

/-! ## Rows and what they are read as -/

/-- A cursor at a row; the columns are those of `SELECT *`. -/
structure Cursor where
  table : Table
  row : Row SqlValue

/-- The value in a column by its index. -/
def Cursor.value (cursor : Cursor) (i : Nat) : Option SqlValue :=
  (cursor.table.columns[i]?).bind fun c => Tables.value cursor.row c.name

def Cursor.getString (cursor : Cursor) (i : Nat) : Option String :=
  match cursor.value i with
  | some (.text s) => some s
  | some (.int n) => some (toString n)
  | _ => none

/-- `getString` of a text of JSON, which is its tokens. -/
def Cursor.getJson (cursor : Cursor) (i : Nat) : Option (List Token) :=
  match cursor.value i with
  | some (.json tokens) => some tokens
  | _ => none

def Cursor.getInt (cursor : Cursor) (i : Nat) : Int :=
  match cursor.value i with
  | some (.int n) => n
  | _ => 0

/-- `ProfileInfo`, without the time that the database adds. -/
structure ProfileInfo where
  id : Option String
  name : Option String
  description : Option String
  organization : Option String
  data : Option (List Token)
  deriving DecidableEq

/-- The values of `ProfilesPerformance`. -/
def ProfileInfo.values (p : ProfileInfo) : Row SqlValue :=
  [textValue "id" p.id, textValue "name" p.name, textValue "description" p.description,
    textValue "organization" p.organization, jsonValue "data" p.data]

/-- `PROFILE_CURSOR_MAPPER`. -/
def ProfileInfo.mapCursor (row : Row SqlValue) : ProfileInfo :=
  let cursor : Cursor := ⟨profilesTable, row⟩
  { id := cursor.getString 0
    name := cursor.getString 1
    description := cursor.getString 2
    organization := cursor.getString 3
    data := cursor.getJson 4 }

structure LinkedObjectInfo where
  profileId : Option String
  objectId : Option String
  managerId : Option String
  managerKey : Option String
  deriving DecidableEq

def LinkedObjectInfo.values (o : LinkedObjectInfo) : Row SqlValue :=
  [textValue "profile_id" o.profileId, textValue "object_id" o.objectId,
    textValue "manager_id" o.managerId, textValue "manager_key" o.managerKey]

def LinkedObjectInfo.mapCursor (row : Row SqlValue) : LinkedObjectInfo :=
  let cursor : Cursor := ⟨linkedObjectsTable, row⟩
  { profileId := cursor.getString 0
    objectId := cursor.getString 1
    managerId := cursor.getString 2
    managerKey := cursor.getString 3 }

structure PayloadInfo where
  profileId : Option String
  payloadUuid : Option String
  payloadType : Option String
  payloadDisplayName : Option String
  data : Option (List Token)
  deriving DecidableEq

def PayloadInfo.values (p : PayloadInfo) : Row SqlValue :=
  [textValue "profile_id" p.profileId, textValue "payload_uuid" p.payloadUuid,
    textValue "payload_type" p.payloadType,
    textValue "payload_display_name" p.payloadDisplayName, jsonValue "data" p.data]

def PayloadInfo.mapCursor (row : Row SqlValue) : PayloadInfo :=
  let cursor : Cursor := ⟨payloadsTable, row⟩
  { profileId := cursor.getString 0
    payloadUuid := cursor.getString 1
    payloadType := cursor.getString 2
    payloadDisplayName := cursor.getString 3
    data := cursor.getJson 4 }

/-- `VpnData.mapCursor`. -/
def mapCursor (row : Row SqlValue) : VpnData :=
  let cursor : Cursor := ⟨vpnDataTable, row⟩
  { profileId := cursor.getString 0
    payloadUuid := cursor.getString 1
    userDefinedName := cursor.getString 2
    overridePrimary := cursor.getInt 3 ≠ 0
    onDemandEnabled := cursor.getInt 4 ≠ 0
    onDemandEnabledByUser := cursor.getInt 5 ≠ 0
    onDemandRules := cursor.getJson 6
    onDemandCredentials := cursor.getJson 7
    remoteServer := cursor.getString 8
    login := cursor.getString 9
    password := cursor.getString 10
    rsaSecurid := cursor.getInt 11 ≠ 0
    certificate := cursor.getString 12
    sharedSecret := cursor.getString 13
    pptpEncryption := cursor.getString 14
    ipsecGroupName := cursor.getString 15
    vpnType := cursor.getString 16 }

/-! ## The operations -/

/-- `column = ?` with a text. -/
def hasText (column s : String) (row : Row SqlValue) : Bool :=
  decide (value row column = some (.text s))

/-- The rows of a table that a `WHERE` is about. -/
def rowsOf (table column s : String) : Choice SqlValue :=
  fun name row => decide (name = table) && hasText column s row

/-- `DELETE FROM profiles WHERE id = ?`, with `delete_profile` in front of a row that is deleted. -/
def deleteProfile (foreignKeys : Bool) (db : Database SqlValue) (id : String) :
    Database SqlValue :=
  if (db "profiles").any (hasText "id" id) then
    let db := delete (tables foreignKeys) db (rowsOf "linked_objects" "profile_id" id)
    let db := delete (tables foreignKeys) db (rowsOf "payloads" "profile_id" id)
    let db := delete (tables foreignKeys) db (rowsOf "vpn_data" "profile_id" id)
    delete (tables foreignKeys) db (rowsOf "profiles" "id" id)
  else db

inductive StoreOp where
  | insertProfile (p : ProfileInfo)
  | insertLinkedObject (o : LinkedObjectInfo)
  | insertPayload (p : PayloadInfo)
  | insertVpnData (d : VpnData)
  | deleteProfile (id : String)
  | setOnDemandEnabledByUser (payloadUuid : String) (enabled : Bool)

/-- A request that is performed: a row that breaks a constraint is left out. -/
def storeStep (foreignKeys : Bool) (db : Database SqlValue) : StoreOp → Database SqlValue
  | .insertProfile p => (insert db (enforced foreignKeys profilesTable) p.values).getD db
  | .insertLinkedObject o => (insert db (enforced foreignKeys linkedObjectsTable) o.values).getD db
  | .insertPayload p => (insert db (enforced foreignKeys payloadsTable) p.values).getD db
  | .insertVpnData d => (insert db (enforced foreignKeys vpnDataTable) d.asContentValues).getD db
  | .deleteProfile id => deleteProfile foreignKeys db id
  | .setOnDemandEnabledByUser payloadUuid enabled =>
    updateRows db "vpn_data" (hasText "payload_uuid" payloadUuid) "on_demand_enabled_by_user"
      (some (.int (if enabled then 1 else 0)))

/-! ## The catalog -/

/-- What the database is for. -/
structure Catalog where
  profiles : List ProfileInfo := []
  linkedObjects : List LinkedObjectInfo := []
  payloads : List PayloadInfo := []
  vpnData : List VpnData := []

namespace Catalog

variable (foreignKeys : Bool) (c : Catalog)

/-- There is such a profile, or nobody asks. -/
def HasProfile (id : Option String) : Prop :=
  foreignKeys = true → ∃ p ∈ c.profiles, p.id = id

def HasPayload (uuid : Option String) : Prop :=
  foreignKeys = true → ∃ p ∈ c.payloads, p.payloadUuid = uuid

instance decidableHasProfile (id : Option String) : Decidable (c.HasProfile foreignKeys id) :=
  inferInstanceAs (Decidable (_ → _))

instance decidableHasPayload (uuid : Option String) : Decidable (c.HasPayload foreignKeys uuid) :=
  inferInstanceAs (Decidable (_ → _))

/-- A new profile has an identifier of its own, a name and its data. -/
def NewProfile (p : ProfileInfo) : Prop :=
  p.id.isSome ∧ p.name.isSome ∧ p.data.isSome ∧ ∀ p' ∈ c.profiles, p'.id ≠ p.id

def NewLinkedObject (o : LinkedObjectInfo) : Prop :=
  o.profileId.isSome ∧ o.objectId.isSome ∧ o.managerId.isSome ∧ o.managerKey.isSome ∧
    c.HasProfile foreignKeys o.profileId ∧ ∀ o' ∈ c.linkedObjects, o'.objectId ≠ o.objectId

/-- A new payload has a UUID that no profile has a payload with. -/
def NewPayload (p : PayloadInfo) : Prop :=
  p.profileId.isSome ∧ p.payloadUuid.isSome ∧ p.payloadType.isSome ∧ p.data.isSome ∧
    c.HasProfile foreignKeys p.profileId ∧ ∀ p' ∈ c.payloads, p'.payloadUuid ≠ p.payloadUuid

/-- A new configuration has a payload, though maybe one of another profile. -/
def NewVpnData (d : VpnData) : Prop :=
  (d.profileId.isSome ∧ d.payloadUuid.isSome ∧ d.userDefinedName.isSome ∧ d.onDemandRules.isSome ∧
    d.onDemandCredentials.isSome ∧ d.remoteServer.isSome ∧ d.vpnType.isSome) ∧
    c.HasProfile foreignKeys d.profileId ∧ c.HasPayload foreignKeys d.payloadUuid

instance decidableNewProfile (p : ProfileInfo) : Decidable (c.NewProfile p) :=
  inferInstanceAs (Decidable (_ ∧ _))

instance decidableNewLinkedObject (o : LinkedObjectInfo) :
    Decidable (c.NewLinkedObject foreignKeys o) := inferInstanceAs (Decidable (_ ∧ _))

instance decidableNewPayload (p : PayloadInfo) : Decidable (c.NewPayload foreignKeys p) :=
  inferInstanceAs (Decidable (_ ∧ _))

instance decidableNewVpnData (d : VpnData) : Decidable (c.NewVpnData foreignKeys d) :=
  inferInstanceAs (Decidable (_ ∧ _))

/-- The configuration goes with a profile: it is of the profile or, where references are enforced,
of a payload of it. -/
def GoesWith (id : String) (d : VpnData) : Prop :=
  d.profileId = some id ∨ foreignKeys = true ∧
    ∃ p ∈ c.payloads, p.profileId = some id ∧ p.payloadUuid = d.payloadUuid

instance decidableGoesWith (id : String) (d : VpnData) : Decidable (c.GoesWith foreignKeys id d) :=
  inferInstanceAs (Decidable (_ ∨ _))

/-- The catalog without a profile. -/
def without (id : String) : Catalog where
  profiles := c.profiles.filter fun p => p.id ≠ some id
  linkedObjects := c.linkedObjects.filter fun o => o.profileId ≠ some id
  payloads := c.payloads.filter fun p => p.profileId ≠ some id
  vpnData := c.vpnData.filter fun d => ¬ c.GoesWith foreignKeys id d

def step : StoreOp → Catalog
  | .insertProfile p =>
    if c.NewProfile p then { c with profiles := c.profiles ++ [p] } else c
  | .insertLinkedObject o =>
    if c.NewLinkedObject foreignKeys o then { c with linkedObjects := c.linkedObjects ++ [o] }
    else c
  | .insertPayload p =>
    if c.NewPayload foreignKeys p then { c with payloads := c.payloads ++ [p] } else c
  | .insertVpnData d =>
    if c.NewVpnData foreignKeys d then { c with vpnData := c.vpnData ++ [d] } else c
  | .deleteProfile id =>
    if ∃ p ∈ c.profiles, p.id = some id then c.without foreignKeys id else c
  | .setOnDemandEnabledByUser payloadUuid enabled =>
    { c with
      vpnData := c.vpnData.map fun d =>
        if d.payloadUuid = some payloadUuid then { d with onDemandEnabledByUser := enabled } else d }

end Catalog

/-! ## What is written is read -/

section Cursors

variable {cursor : Cursor} {i : Nat}

theorem getString_eq {s : Option String} (h : cursor.value i = s.map .text) :
    cursor.getString i = s := by
  rw [Cursor.getString, h]
  cases s <;> rfl

theorem getJson_eq {tokens : Option (List Token)} (h : cursor.value i = tokens.map .json) :
    cursor.getJson i = tokens := by
  rw [Cursor.getJson, h]
  cases tokens <;> rfl

theorem getInt_eq {b : Bool} (h : cursor.value i = some (.int (if b then 1 else 0))) :
    decide (cursor.getInt i ≠ 0) = b := by
  rw [Cursor.getInt, h]
  cases b <;> rfl

theorem mapCursor_profile (p : ProfileInfo) : ProfileInfo.mapCursor p.values = p := by
  obtain ⟨id, name, description, organization, data⟩ := p
  rw [ProfileInfo.mapCursor, ProfileInfo.mk.injEq]
  exact ⟨getString_eq rfl, getString_eq rfl, getString_eq rfl, getString_eq rfl, getJson_eq rfl⟩

theorem mapCursor_linkedObject (o : LinkedObjectInfo) : LinkedObjectInfo.mapCursor o.values = o := by
  obtain ⟨profileId, objectId, managerId, managerKey⟩ := o
  rw [LinkedObjectInfo.mapCursor, LinkedObjectInfo.mk.injEq]
  exact ⟨getString_eq rfl, getString_eq rfl, getString_eq rfl, getString_eq rfl⟩

theorem mapCursor_payload (p : PayloadInfo) : PayloadInfo.mapCursor p.values = p := by
  obtain ⟨profileId, payloadUuid, payloadType, payloadDisplayName, data⟩ := p
  rw [PayloadInfo.mapCursor, PayloadInfo.mk.injEq]
  exact ⟨getString_eq rfl, getString_eq rfl, getString_eq rfl, getString_eq rfl, getJson_eq rfl⟩

theorem mapCursor_vpnData (d : VpnData) : mapCursor d.asContentValues = d := by
  cases d
  rw [mapCursor, VpnData.mk.injEq]
  exact ⟨getString_eq rfl, getString_eq rfl, getString_eq rfl, getInt_eq rfl, getInt_eq rfl,
    getInt_eq rfl, getJson_eq rfl, getJson_eq rfl, getString_eq rfl, getString_eq rfl,
    getString_eq rfl, getInt_eq rfl, getString_eq rfl, getString_eq rfl, getString_eq rfl,
    getString_eq rfl, getString_eq rfl⟩

end Cursors

/-! ## The rows of a catalog -/

/-- The tables have the rows of the catalog, whose configurations are all of a payload. -/
structure Rows (db : Database SqlValue) (c : Catalog) : Prop where
  profiles : db "profiles" = c.profiles.map ProfileInfo.values
  linkedObjects : db "linked_objects" = c.linkedObjects.map LinkedObjectInfo.values
  payloads : db "payloads" = c.payloads.map PayloadInfo.values
  vpnData : db "vpn_data" = c.vpnData.map VpnData.asContentValues
  payloadUuid : ∀ d ∈ c.vpnData, d.payloadUuid.isSome

section Constraints

variable {db : Database SqlValue} {c : Catalog} {foreignKeys : Bool}

theorem map_text_inj {s s' : Option String} :
    s.map SqlValue.text = s'.map SqlValue.text ↔ s = s' :=
  (Option.map_injective fun _ _ h => SqlValue.text.inj h).eq_iff

/-- A text that no row has in its key. -/
theorem fresh_iff {α : Type} {l : List α} {row : α → Row SqlValue} {column : String}
    {key : α → Option String} (hkey : ∀ x, value (row x) column = (key x).map .text)
    {s : Option String} (hs : s.isSome) :
    (∀ v ∈ s.map SqlValue.text, ∀ row' ∈ l.map row, value row' column ≠ some v) ↔
      ∀ x ∈ l, key x ≠ s := by
  obtain ⟨t, rfl⟩ := Option.isSome_iff_exists.mp hs
  constructor
  · intro h x hx heq
    refine h (.text t) rfl (row x) (List.mem_map_of_mem hx) ?_
    rw [hkey, heq]
    rfl
  · intro h v hv row' hrow' heq
    obtain rfl : SqlValue.text t = v := Option.some.inj hv
    obtain ⟨x, hx, rfl⟩ := List.mem_map.mp hrow'
    rw [hkey] at heq
    exact h x hx (map_text_inj.mp heq)

/-- A text that some row has in the column that is referred to. -/
theorem exists_iff {α : Type} {l : List α} {row : α → Row SqlValue} {column : String}
    {key : α → Option String} (hkey : ∀ x, value (row x) column = (key x).map .text)
    {s : Option String} (hs : s.isSome) :
    (∀ v ∈ s.map SqlValue.text, ∃ row' ∈ l.map row, value row' column = some v) ↔
      ∃ x ∈ l, key x = s := by
  obtain ⟨t, rfl⟩ := Option.isSome_iff_exists.mp hs
  constructor
  · intro h
    obtain ⟨row', hrow', hv⟩ := h (.text t) rfl
    obtain ⟨x, hx, rfl⟩ := List.mem_map.mp hrow'
    rw [hkey] at hv
    exact ⟨x, hx, map_text_inj.mp hv⟩
  · rintro ⟨x, hx, heq⟩ v hv
    obtain rfl : SqlValue.text t = v := Option.some.inj hv
    exact ⟨row x, List.mem_map_of_mem hx, by rw [hkey, heq]; rfl⟩

theorem freshKey_iff {t : Table} {key : String} (hkey : t.primaryKey = some key)
    {row : Row SqlValue} : FreshKey db t row ↔
      ∀ v ∈ value row key, ∀ row' ∈ db t.name, value row' key ≠ some v := by
  rw [FreshKey, hkey]
  simp

@[simp] theorem name_enforced (t : Table) : (enforced foreignKeys t).name = t.name := by
  cases foreignKeys <;> rfl

@[simp] theorem primaryKey_enforced (t : Table) :
    (enforced foreignKeys t).primaryKey = t.primaryKey := by
  cases foreignKeys <;> rfl

@[simp] theorem known_enforced {t : Table} {row : Row SqlValue} :
    Known (enforced foreignKeys t) row ↔ Known t row := by
  cases foreignKeys <;> simp [Known, enforced]

@[simp] theorem notNull_enforced {t : Table} {row : Row SqlValue} :
    NotNull (enforced foreignKeys t) row ↔ NotNull t row := by
  cases foreignKeys <;> simp [NotNull, enforced]

theorem foreignKeys_enforced {t : Table} {row : Row SqlValue} :
    ForeignKeys db (enforced foreignKeys t) row ↔ (foreignKeys = true → ForeignKeys db t row) := by
  cases foreignKeys <;> simp [ForeignKeys, enforced]

theorem insert_profile_iff (h : Rows db c) (p : ProfileInfo) :
    (insert db (enforced foreignKeys profilesTable) p.values).isSome ↔ c.NewProfile p := by
  have hknown : Known profilesTable p.values := by
    simp [Known, profilesTable, ProfileInfo.values, mandatory, nullable, textValue, jsonValue]
  have hnull : NotNull profilesTable p.values ↔ p.id.isSome ∧ p.name.isSome ∧ p.data.isSome := by
    simp [NotNull, profilesTable, ProfileInfo.values, mandatory, nullable, textValue, jsonValue,
      value, List.lookup_cons]
  have hforeign : ForeignKeys db profilesTable p.values := by
    simp [ForeignKeys, profilesTable, mandatory, nullable]
  have hfresh (hid : p.id.isSome) : FreshKey db (enforced foreignKeys profilesTable) p.values ↔
      ∀ p' ∈ c.profiles, p'.id ≠ p.id := by
    rw [freshKey_iff (primaryKey_enforced _), name_enforced, profilesTable, h.profiles]
    exact fresh_iff (fun _ => rfl) hid
  rw [insert_isSome, known_enforced, notNull_enforced, foreignKeys_enforced, hnull,
    Catalog.NewProfile]
  constructor
  · rintro ⟨-, ⟨hid, hname, hdata⟩, -, hkey⟩
    exact ⟨hid, hname, hdata, (hfresh hid).mp hkey⟩
  · rintro ⟨hid, hname, hdata, hkey⟩
    exact ⟨hknown, ⟨hid, hname, hdata⟩, fun _ => hforeign, (hfresh hid).mpr hkey⟩

theorem profile_reference (h : Rows db c) {s : Option String} (hs : s.isSome) :
    (∀ v ∈ s.map SqlValue.text, ∃ row' ∈ db "profiles", value row' "id" = some v) ↔
      ∃ p ∈ c.profiles, p.id = s := by
  rw [h.profiles]
  exact exists_iff (fun _ => rfl) hs

theorem payload_reference (h : Rows db c) {s : Option String} (hs : s.isSome) :
    (∀ v ∈ s.map SqlValue.text, ∃ row' ∈ db "payloads", value row' "payload_uuid" = some v) ↔
      ∃ p ∈ c.payloads, p.payloadUuid = s := by
  rw [h.payloads]
  exact exists_iff (fun _ => rfl) hs

theorem insert_linkedObject_iff (h : Rows db c) (o : LinkedObjectInfo) :
    (insert db (enforced foreignKeys linkedObjectsTable) o.values).isSome ↔
      c.NewLinkedObject foreignKeys o := by
  have hknown : Known linkedObjectsTable o.values := by
    simp [Known, linkedObjectsTable, LinkedObjectInfo.values, mandatory, reference, textValue]
  have hnull : NotNull linkedObjectsTable o.values ↔
      o.profileId.isSome ∧ o.objectId.isSome ∧ o.managerId.isSome ∧ o.managerKey.isSome := by
    simp [NotNull, linkedObjectsTable, LinkedObjectInfo.values, mandatory, reference, textValue,
      value, List.lookup_cons]
  have hforeign : ForeignKeys db linkedObjectsTable o.values ↔
      ∀ v ∈ o.profileId.map SqlValue.text, ∃ row' ∈ db "profiles", value row' "id" = some v := by
    simp [ForeignKeys, linkedObjectsTable, LinkedObjectInfo.values, mandatory, reference, textValue,
      value, List.lookup_cons]
  have hfresh (hid : o.objectId.isSome) :
      FreshKey db (enforced foreignKeys linkedObjectsTable) o.values ↔
        ∀ o' ∈ c.linkedObjects, o'.objectId ≠ o.objectId := by
    rw [freshKey_iff (primaryKey_enforced _), name_enforced, linkedObjectsTable, h.linkedObjects]
    exact fresh_iff (fun _ => rfl) hid
  rw [insert_isSome, known_enforced, notNull_enforced, foreignKeys_enforced, hnull, hforeign,
    Catalog.NewLinkedObject]
  constructor
  · rintro ⟨-, ⟨hprofile, hid, hmanager, hmanagerKey⟩, hrefs, hkey⟩
    exact ⟨hprofile, hid, hmanager, hmanagerKey,
      fun hon => (profile_reference h hprofile).mp (hrefs hon), (hfresh hid).mp hkey⟩
  · rintro ⟨hprofile, hid, hmanager, hmanagerKey, hrefs, hkey⟩
    exact ⟨hknown, ⟨hprofile, hid, hmanager, hmanagerKey⟩,
      fun hon => (profile_reference h hprofile).mpr (hrefs hon), (hfresh hid).mpr hkey⟩

theorem insert_payload_iff (h : Rows db c) (p : PayloadInfo) :
    (insert db (enforced foreignKeys payloadsTable) p.values).isSome ↔
      c.NewPayload foreignKeys p := by
  have hknown : Known payloadsTable p.values := by
    simp [Known, payloadsTable, PayloadInfo.values, mandatory, nullable, reference, textValue,
      jsonValue]
  have hnull : NotNull payloadsTable p.values ↔
      p.profileId.isSome ∧ p.payloadUuid.isSome ∧ p.payloadType.isSome ∧ p.data.isSome := by
    simp [NotNull, payloadsTable, PayloadInfo.values, mandatory, nullable, reference, textValue,
      jsonValue, value, List.lookup_cons]
  have hforeign : ForeignKeys db payloadsTable p.values ↔
      ∀ v ∈ p.profileId.map SqlValue.text, ∃ row' ∈ db "profiles", value row' "id" = some v := by
    simp [ForeignKeys, payloadsTable, PayloadInfo.values, mandatory, nullable, reference, textValue,
      value, List.lookup_cons]
  have hfresh (huuid : p.payloadUuid.isSome) :
      FreshKey db (enforced foreignKeys payloadsTable) p.values ↔
        ∀ p' ∈ c.payloads, p'.payloadUuid ≠ p.payloadUuid := by
    rw [freshKey_iff (primaryKey_enforced _), name_enforced, payloadsTable, h.payloads]
    exact fresh_iff (fun _ => rfl) huuid
  rw [insert_isSome, known_enforced, notNull_enforced, foreignKeys_enforced, hnull, hforeign,
    Catalog.NewPayload]
  constructor
  · rintro ⟨-, ⟨hprofile, huuid, htype, hdata⟩, hrefs, hkey⟩
    exact ⟨hprofile, huuid, htype, hdata,
      fun hon => (profile_reference h hprofile).mp (hrefs hon), (hfresh huuid).mp hkey⟩
  · rintro ⟨hprofile, huuid, htype, hdata, hrefs, hkey⟩
    exact ⟨hknown, ⟨hprofile, huuid, htype, hdata⟩,
      fun hon => (profile_reference h hprofile).mpr (hrefs hon), (hfresh huuid).mpr hkey⟩

theorem insert_vpnData_iff (h : Rows db c) (d : VpnData) :
    (insert db (enforced foreignKeys vpnDataTable) d.asContentValues).isSome ↔
      c.NewVpnData foreignKeys d := by
  have hforeign : ForeignKeys db vpnDataTable d.asContentValues ↔
      (∀ v ∈ d.profileId.map SqlValue.text, ∃ row' ∈ db "profiles", value row' "id" = some v) ∧
      ∀ v ∈ d.payloadUuid.map SqlValue.text,
        ∃ row' ∈ db "payloads", value row' "payload_uuid" = some v := by
    rw [foreignKeys_asContentValues]
    simp
  have hfresh : FreshKey db (enforced foreignKeys vpnDataTable) d.asContentValues := by
    intro key hkey
    rw [primaryKey_enforced] at hkey
    cases hkey
  rw [insert_isSome, known_enforced, notNull_enforced, foreignKeys_enforced, hforeign,
    notNull_asContentValues, Catalog.NewVpnData]
  constructor
  · rintro ⟨-, hnull, hrefs, -⟩
    exact ⟨hnull, fun hon => (profile_reference h hnull.1).mp (hrefs hon).1,
      fun hon => (payload_reference h hnull.2.1).mp (hrefs hon).2⟩
  · rintro ⟨hnull, hprofile, hpayload⟩
    exact ⟨known_asContentValues d, hnull, fun hon =>
      ⟨(profile_reference h hnull.1).mpr (hprofile hon),
        (payload_reference h hnull.2.1).mpr (hpayload hon)⟩, hfresh⟩

end Constraints

/-! ## The rows that go with a profile -/

/-- The rows that the statements of the trigger and the deletion itself are about. -/
def chosen (id : String) : Choice SqlValue := fun name row =>
  rowsOf "linked_objects" "profile_id" id name row || (rowsOf "payloads" "profile_id" id name row ||
    (rowsOf "vpn_data" "profile_id" id name row || rowsOf "profiles" "id" id name row))

section Deleting

variable {db : Database SqlValue} {foreignKeys : Bool} {id : String} {row : Row SqlValue}

theorem ordered_tables (foreignKeys : Bool) : Ordered [] (tables foreignKeys) := by
  cases foreignKeys <;> decide

/-- With one profile, what the trigger and the cascades delete goes at once. -/
theorem deleteProfile_eq (h : (db "profiles").any (hasText "id" id)) :
    deleteProfile foreignKeys db id = delete (tables foreignKeys) db (chosen id) := by
  have hordered := ordered_tables foreignKeys
  rw [deleteProfile, if_pos h]
  dsimp only
  rw [hordered.delete_delete, hordered.delete_delete, hordered.delete_delete]
  rfl

/-- The references of a table: the column, and the table and the column it refers to. -/
def references (t : Table) : List (String × String × String) :=
  t.columns.flatMap fun c => c.references.toList.map fun r => (c.name, r)

/-- References count where they are enforced. -/
theorem exists_reference {t : Table} {Q : String → String × String → Prop} :
    (∃ c ∈ (enforced foreignKeys t).columns, ∃ r ∈ c.references, Q c.name r) ↔
      foreignKeys = true ∧ ∃ x ∈ references t, Q x.1 x.2 := by
  cases foreignKeys with
  | false => simp [enforced]
  | true =>
    constructor
    · rintro ⟨c, hc, r, hr, hQ⟩
      refine ⟨rfl, (c.name, r), List.mem_flatMap.mpr ⟨c, hc, ?_⟩, hQ⟩
      exact List.mem_map.mpr ⟨r, by simpa using hr, rfl⟩
    · rintro ⟨-, x, hx, hQ⟩
      obtain ⟨c, hc, hx⟩ := List.mem_flatMap.mp hx
      obtain ⟨r, hr, rfl⟩ := List.mem_map.mp hx
      exact ⟨c, hc, r, by simpa using hr, hQ⟩

theorem hasText_iff {column s : String} :
    hasText column s row = true ↔ value row column = some (.text s) :=
  decide_eq_true_iff

/-- A row goes by the text in its column, or with one that it refers to. -/
theorem dropped_iff {t : Table} (ht : t ∈ schema) {column : String}
    (hchosen : chosen id t.name row = hasText column id row) :
    Dropped (tables foreignKeys) db (chosen id) t.name row ↔ row ∈ db t.name ∧
      (value row column = some (.text id) ∨ foreignKeys = true ∧
        ∃ x ∈ references t, ∃ v ∈ value row x.1, ∃ row',
          Dropped (tables foreignKeys) db (chosen id) x.2.1 row' ∧ value row' x.2.2 = some v) := by
  have hmem : enforced foreignKeys t ∈ tables foreignKeys := List.mem_map_of_mem ht
  have hdropped : Dropped (tables foreignKeys) db (chosen id) (enforced foreignKeys t).name row ↔ _ :=
    (ordered_tables foreignKeys).dropped_iff hmem
  rw [name_enforced] at hdropped
  rw [hdropped, hchosen, hasText_iff]
  refine and_congr_right fun _ => or_congr_right ?_
  exact exists_reference (Q := fun name r => ∃ v ∈ value row name, ∃ row',
    Dropped (tables foreignKeys) db (chosen id) r.1 row' ∧ value row' r.2 = some v)

theorem dropped_profiles : Dropped (tables foreignKeys) db (chosen id) "profiles" row ↔
    row ∈ db "profiles" ∧ value row "id" = some (.text id) := by
  have hdropped : Dropped (tables foreignKeys) db (chosen id) "profiles" row ↔ _ :=
    @dropped_iff db foreignKeys id row profilesTable (by simp [schema]) "id"
      (by simp [chosen, rowsOf, profilesTable])
  rw [hdropped, show references profilesTable = [] from rfl]
  simp [profilesTable]

/-- What refers to the profile that goes is of the profile. -/
theorem text_of_reference {v : SqlValue} {column : String} (hv : v ∈ value row column)
    (h : ∃ row', Dropped (tables foreignKeys) db (chosen id) "profiles" row' ∧
      value row' "id" = some v) : value row column = some (.text id) := by
  obtain ⟨row', hdropped, hv'⟩ := h
  rw [(dropped_profiles.mp hdropped).2] at hv'
  exact Option.mem_def.mp hv |>.trans hv'.symm

/-- In the tables that refer to the profiles alone the rows of the profile go. -/
theorem dropped_of_profile {t : Table} (ht : t ∈ schema)
    (hchosen : chosen id t.name row = hasText "profile_id" id row)
    (hrefs : references t = [("profile_id", "profiles", "id")]) :
    Dropped (tables foreignKeys) db (chosen id) t.name row ↔
      row ∈ db t.name ∧ value row "profile_id" = some (.text id) := by
  rw [dropped_iff ht hchosen, hrefs]
  refine and_congr_right fun _ => ?_
  constructor
  · rintro (h | ⟨-, x, hx, v, hv, hrow'⟩)
    · exact h
    · obtain rfl := List.mem_singleton.mp hx
      exact text_of_reference hv hrow'
  · exact .inl

theorem dropped_linkedObjects :
    Dropped (tables foreignKeys) db (chosen id) "linked_objects" row ↔
      row ∈ db "linked_objects" ∧ value row "profile_id" = some (.text id) :=
  @dropped_of_profile db foreignKeys id row linkedObjectsTable (by simp [schema])
    (by simp [chosen, rowsOf, linkedObjectsTable]) rfl

theorem dropped_payloads :
    Dropped (tables foreignKeys) db (chosen id) "payloads" row ↔
      row ∈ db "payloads" ∧ value row "profile_id" = some (.text id) :=
  @dropped_of_profile db foreignKeys id row payloadsTable (by simp [schema])
    (by simp [chosen, rowsOf, payloadsTable]) rfl

/-- A configuration goes with its profile, and where references are enforced with its payload. -/
theorem dropped_vpnData : Dropped (tables foreignKeys) db (chosen id) "vpn_data" row ↔
    row ∈ db "vpn_data" ∧ (value row "profile_id" = some (.text id) ∨ foreignKeys = true ∧
      ∃ v ∈ value row "payload_uuid", ∃ row' ∈ db "payloads",
        value row' "profile_id" = some (.text id) ∧ value row' "payload_uuid" = some v) := by
  have hdropped : Dropped (tables foreignKeys) db (chosen id) "vpn_data" row ↔ _ :=
    @dropped_iff db foreignKeys id row vpnDataTable (by simp [schema]) "profile_id"
      (by simp [chosen, rowsOf, vpnDataTable])
  have hrefs : references vpnDataTable =
      [("profile_id", "profiles", "id"), ("payload_uuid", "payloads", "payload_uuid")] := rfl
  rw [hdropped, hrefs, show vpnDataTable.name = "vpn_data" from rfl]
  refine and_congr_right fun _ => ?_
  constructor
  · rintro (h | ⟨hon, x, hx, v, hv, hrow'⟩)
    · exact .inl h
    · rcases List.mem_cons.mp hx with rfl | hx
      · exact .inl (text_of_reference hv hrow')
      · obtain rfl := List.mem_singleton.mp hx
        obtain ⟨row', hdropped', hv'⟩ := hrow'
        obtain ⟨hrow', hprofile⟩ := dropped_payloads.mp hdropped'
        exact .inr ⟨hon, v, hv, row', hrow', hprofile, hv'⟩
  · rintro (h | ⟨hon, v, hv, row', hrow', hprofile, hv'⟩)
    · exact .inl h
    · exact .inr ⟨hon, _, List.mem_cons_of_mem _ List.mem_cons_self, v, hv, row',
        dropped_payloads.mpr ⟨hrow', hprofile⟩, hv'⟩

end Deleting

/-! ## One operation -/

section Steps

variable {db : Database SqlValue} {c : Catalog} {foreignKeys : Bool}

theorem hasText_row {α : Type} {row : α → Row SqlValue} {column s : String} {key : α → Option String}
    (hkey : ∀ x, value (row x) column = (key x).map .text) (x : α) :
    hasText column s (row x) = true ↔ key x = some s := by
  rw [hasText_iff, hkey]
  exact @map_text_inj _ (some s)

/-- A configuration is selected by its payload. -/
theorem hasText_vpnData {s : String} (d : VpnData) :
    hasText "payload_uuid" s d.asContentValues = true ↔ d.payloadUuid = some s :=
  @hasText_row _ _ _ _ VpnData.payloadUuid (fun _ => rfl) d

/-- The rows of a table that are left behind a profile. -/
theorem delete_rows {α : Type} {l : List α} {row : α → Row SqlValue} {name id : String}
    {keep : α → Bool} (hrows : db name = l.map row) (hkeep : ∀ x ∈ l, keep x = true ↔
      ¬ Dropped (tables foreignKeys) db (chosen id) name (row x)) :
    delete (tables foreignKeys) db (chosen id) name = (l.filter keep).map row := by
  rw [delete, hrows, List.filter_map]
  refine congrArg (List.map row) (List.filter_congr fun x hx => ?_)
  rw [Bool.eq_iff_iff, hkeep x hx, Function.comp_apply, decide_eq_true_iff,
    (ordered_tables foreignKeys).mem_drops_empty]

/-- Which configurations go. -/
theorem dropped_vpnData_iff (h : Rows db c) {id : String} {d : VpnData} (hd : d ∈ c.vpnData) :
    Dropped (tables foreignKeys) db (chosen id) "vpn_data" d.asContentValues ↔
      c.GoesWith foreignKeys id d := by
  have hmem : d.asContentValues ∈ db "vpn_data" := h.vpnData ▸ List.mem_map_of_mem hd
  have hprofile : value d.asContentValues "profile_id" = d.profileId.map .text := rfl
  have huuid : value d.asContentValues "payload_uuid" = d.payloadUuid.map .text := rfl
  rw [dropped_vpnData, and_iff_right hmem, hprofile, huuid, Catalog.GoesWith]
  refine or_congr (@map_text_inj _ (some id)) (and_congr_right fun _ => ?_)
  rw [h.payloads]
  constructor
  · rintro ⟨v, hv, row', hrow', hof, hsame⟩
    obtain ⟨p, hp, rfl⟩ := List.mem_map.mp hrow'
    exact ⟨p, hp, (@map_text_inj p.profileId (some id)).mp hof,
      map_text_inj.mp (hsame.trans (Option.mem_def.mp hv).symm)⟩
  · rintro ⟨p, hp, hof, hsame⟩
    obtain ⟨s, hs⟩ := Option.isSome_iff_exists.mp (h.payloadUuid d hd)
    have hp' : value p.values "payload_uuid" = p.payloadUuid.map .text := rfl
    refine ⟨.text s, by rw [hs]; rfl, p.values, List.mem_map_of_mem hp, ?_, ?_⟩
    · exact (@map_text_inj p.profileId (some id)).mpr hof
    · rw [hp', hsame, hs]
      rfl

theorem Rows.deleteProfile (h : Rows db c) (id : String) :
    Rows (deleteProfile foreignKeys db id)
      (if ∃ p ∈ c.profiles, p.id = some id then c.without foreignKeys id else c) := by
  have hexists : (db "profiles").any (hasText "id" id) = true ↔
      ∃ p ∈ c.profiles, p.id = some id := by
    rw [h.profiles, List.any_map, List.any_eq_true]
    exact exists_congr fun p => and_congr_right fun _ =>
      @hasText_row _ _ _ _ ProfileInfo.id (fun _ => rfl) p
  by_cases hprofile : ∃ p ∈ c.profiles, p.id = some id
  · rw [if_pos hprofile, deleteProfile_eq (hexists.mpr hprofile)]
    constructor
    · refine delete_rows h.profiles fun p hp => ?_
      rw [dropped_profiles, and_iff_right (h.profiles ▸ List.mem_map_of_mem hp),
        decide_eq_true_iff]
      exact not_congr (@map_text_inj _ (some id)).symm
    · refine delete_rows h.linkedObjects fun o ho => ?_
      rw [dropped_linkedObjects, and_iff_right (h.linkedObjects ▸ List.mem_map_of_mem ho),
        decide_eq_true_iff]
      exact not_congr (@map_text_inj _ (some id)).symm
    · refine delete_rows h.payloads fun p hp => ?_
      rw [dropped_payloads, and_iff_right (h.payloads ▸ List.mem_map_of_mem hp),
        decide_eq_true_iff]
      exact not_congr (@map_text_inj _ (some id)).symm
    · refine delete_rows h.vpnData fun d hd => ?_
      rw [dropped_vpnData_iff h hd, decide_eq_true_iff]
    · exact fun d hd => h.payloadUuid d (List.mem_filter.mp hd).1
  · rw [if_neg hprofile, ConfProfile.Db.deleteProfile, if_neg fun hany => hprofile (hexists.mp hany)]
    exact h

/-- The switch in the row of a configuration. -/
theorem setColumn_asContentValues (d : VpnData) (enabled : Bool) :
    setColumn "on_demand_enabled_by_user" (some (.int (if enabled then 1 else 0)))
      d.asContentValues = VpnData.asContentValues { d with onDemandEnabledByUser := enabled } := by
  simp [setColumn, VpnData.asContentValues, textValue, boolValue, jsonValue]

theorem insert_getD {t : Table} {row : Row SqlValue} : (insert db t row).getD db =
    if (insert db t row).isSome then Function.update db t.name (db t.name ++ [row]) else db := by
  unfold Tables.insert
  split <;> rfl

theorem Rows.insertProfile (h : Rows db c) (p : ProfileInfo) :
    Rows (storeStep foreignKeys db (.insertProfile p)) (c.step foreignKeys (.insertProfile p)) := by
  rw [storeStep, Catalog.step, insert_getD, name_enforced]
  by_cases hnew : c.NewProfile p
  · rw [if_pos ((insert_profile_iff h p).mpr hnew), if_pos hnew]
    refine ⟨?_, h.linkedObjects, h.payloads, h.vpnData, h.payloadUuid⟩
    rw [show profilesTable.name = "profiles" from rfl, Function.update_self, h.profiles,
      List.map_append]
    rfl
  · rw [if_neg (mt (insert_profile_iff h p).mp hnew), if_neg hnew]
    exact h

theorem Rows.insertLinkedObject (h : Rows db c) (o : LinkedObjectInfo) :
    Rows (storeStep foreignKeys db (.insertLinkedObject o))
      (c.step foreignKeys (.insertLinkedObject o)) := by
  rw [storeStep, Catalog.step, insert_getD, name_enforced]
  by_cases hnew : c.NewLinkedObject foreignKeys o
  · rw [if_pos ((insert_linkedObject_iff h o).mpr hnew), if_pos hnew]
    refine ⟨h.profiles, ?_, h.payloads, h.vpnData, h.payloadUuid⟩
    rw [show linkedObjectsTable.name = "linked_objects" from rfl, Function.update_self,
      h.linkedObjects, List.map_append]
    rfl
  · rw [if_neg (mt (insert_linkedObject_iff h o).mp hnew), if_neg hnew]
    exact h

theorem Rows.insertPayload (h : Rows db c) (p : PayloadInfo) :
    Rows (storeStep foreignKeys db (.insertPayload p)) (c.step foreignKeys (.insertPayload p)) := by
  rw [storeStep, Catalog.step, insert_getD, name_enforced]
  by_cases hnew : c.NewPayload foreignKeys p
  · rw [if_pos ((insert_payload_iff h p).mpr hnew), if_pos hnew]
    refine ⟨h.profiles, h.linkedObjects, ?_, h.vpnData, h.payloadUuid⟩
    rw [show payloadsTable.name = "payloads" from rfl, Function.update_self, h.payloads,
      List.map_append]
    rfl
  · rw [if_neg (mt (insert_payload_iff h p).mp hnew), if_neg hnew]
    exact h

theorem Rows.insertVpnData (h : Rows db c) (d : VpnData) :
    Rows (storeStep foreignKeys db (.insertVpnData d)) (c.step foreignKeys (.insertVpnData d)) := by
  rw [storeStep, Catalog.step, insert_getD, name_enforced]
  by_cases hnew : c.NewVpnData foreignKeys d
  · rw [if_pos ((insert_vpnData_iff h d).mpr hnew), if_pos hnew]
    refine ⟨h.profiles, h.linkedObjects, h.payloads, ?_, ?_⟩
    · rw [show vpnDataTable.name = "vpn_data" from rfl, Function.update_self, h.vpnData,
        List.map_append]
      rfl
    · intro d' hd'
      rcases List.mem_append.mp hd' with hold | hlast
      · exact h.payloadUuid d' hold
      · rw [List.mem_singleton.mp hlast]
        exact hnew.1.2.1
  · rw [if_neg (mt (insert_vpnData_iff h d).mp hnew), if_neg hnew]
    exact h

theorem Rows.setOnDemandEnabledByUser (h : Rows db c) (payloadUuid : String) (enabled : Bool) :
    Rows (storeStep foreignKeys db (.setOnDemandEnabledByUser payloadUuid enabled))
      (c.step foreignKeys (.setOnDemandEnabledByUser payloadUuid enabled)) := by
  refine ⟨h.profiles, h.linkedObjects, h.payloads, ?_, ?_⟩
  · rw [storeStep, updateRows, Function.update_self, h.vpnData, Catalog.step, List.map_map,
      List.map_map]
    refine List.map_congr_left fun d _ => ?_
    have hrow : hasText "payload_uuid" payloadUuid d.asContentValues = true ↔
        d.payloadUuid = some payloadUuid := hasText_vpnData d
    rw [Function.comp_apply, Function.comp_apply]
    by_cases huuid : d.payloadUuid = some payloadUuid
    · rw [if_pos (hrow.mpr huuid), if_pos huuid, setColumn_asContentValues]
    · rw [if_neg (mt hrow.mp huuid), if_neg huuid]
  · intro d' hd'
    obtain ⟨d, hd, rfl⟩ := List.mem_map.mp hd'
    have huuid := h.payloadUuid d hd
    split
    · exact huuid
    · exact huuid

/-- One operation does to the tables what it does to the catalog. -/
theorem Rows.step (h : Rows db c) (op : StoreOp) :
    Rows (storeStep foreignKeys db op) (c.step foreignKeys op) := by
  cases op with
  | insertProfile p => exact h.insertProfile p
  | insertLinkedObject o => exact h.insertLinkedObject o
  | insertPayload p => exact h.insertPayload p
  | insertVpnData d => exact h.insertVpnData d
  | deleteProfile id => exact h.deleteProfile id
  | setOnDemandEnabledByUser payloadUuid enabled =>
    exact h.setOnDemandEnabledByUser payloadUuid enabled

end Steps

/-! ## Runs -/

/-- The database behind a run. -/
def stored (foreignKeys : Bool) (ops : List StoreOp) : Database SqlValue :=
  ops.foldl (storeStep foreignKeys) empty

/-- The catalog behind a run. -/
def catalog (foreignKeys : Bool) (ops : List StoreOp) : Catalog :=
  ops.foldl (Catalog.step foreignKeys) {}

/-- What the cursor mappers read in all the tables. -/
def readAll (db : Database SqlValue) : Catalog where
  profiles := (db "profiles").map ProfileInfo.mapCursor
  linkedObjects := (db "linked_objects").map LinkedObjectInfo.mapCursor
  payloads := (db "payloads").map PayloadInfo.mapCursor
  vpnData := (db "vpn_data").map mapCursor

section Runs

variable {db : Database SqlValue} {c : Catalog} {foreignKeys : Bool}

theorem rows_foldl (ops : List StoreOp) : ∀ {db : Database SqlValue} {c : Catalog}, Rows db c →
    Rows (ops.foldl (storeStep foreignKeys) db) (ops.foldl (Catalog.step foreignKeys) c) := by
  induction ops with
  | nil =>
    intro db c h
    exact h
  | cons op ops ih =>
    intro db c h
    exact ih (h.step op)

theorem rows_run (foreignKeys : Bool) (ops : List StoreOp) :
    Rows (stored foreignKeys ops) (catalog foreignKeys ops) :=
  rows_foldl ops ⟨rfl, rfl, rfl, rfl, fun _ hd => absurd hd List.not_mem_nil⟩

/-- Reading the rows of some of the objects. -/
theorem map_filter_rows {α : Type} {l : List α} {row : α → Row SqlValue} {read : Row SqlValue → α}
    (hread : ∀ x, read (row x) = x) {w : Row SqlValue → Bool} {keep : α → Bool}
    (hkeep : ∀ x, w (row x) = true ↔ keep x = true) :
    ((l.map row).filter w).map read = l.filter keep := by
  have hfilter : w ∘ row = keep := funext fun x => Bool.eq_iff_iff.mpr (hkeep x)
  have hid : read ∘ row = id := funext hread
  rw [List.filter_map, hfilter, List.map_map, hid, List.map_id]

theorem Rows.readAll (h : Rows db c) : readAll db = c := by
  have hall {α : Type} {l : List α} {row : α → Row SqlValue} {read : Row SqlValue → α}
      (hread : ∀ x, read (row x) = x) : (l.map row).map read = l := by
    rw [List.map_map, show read ∘ row = id from funext hread, List.map_id]
  obtain ⟨profiles, linkedObjects, payloads, vpnData⟩ := c
  rw [Db.readAll, h.profiles, h.linkedObjects, h.payloads, h.vpnData, hall mapCursor_profile,
    hall mapCursor_linkedObject, hall mapCursor_payload, hall mapCursor_vpnData]

/-- Behind every run of insertions, deletions and switches the cursor mappers read the catalog
behind that run in the tables, and a selection by a payload or by a profile reads the
configurations of the payload and the payloads of the profile. -/
theorem store_run (foreignKeys : Bool) (ops : List StoreOp) :
    readAll (stored foreignKeys ops) = catalog foreignKeys ops ∧
    (∀ payloadUuid, ((stored foreignKeys ops "vpn_data").filter
        (hasText "payload_uuid" payloadUuid)).map mapCursor =
      (catalog foreignKeys ops).vpnData.filter fun d => d.payloadUuid = some payloadUuid) ∧
    ∀ profileId, ((stored foreignKeys ops "payloads").filter
        (hasText "profile_id" profileId)).map PayloadInfo.mapCursor =
      (catalog foreignKeys ops).payloads.filter fun p => p.profileId = some profileId := by
  have h := rows_run foreignKeys ops
  refine ⟨h.readAll, fun payloadUuid => ?_, fun profileId => ?_⟩
  · rw [h.vpnData]
    refine map_filter_rows mapCursor_vpnData fun d => ?_
    rw [hasText_vpnData, decide_eq_true_iff]
  · rw [h.payloads]
    refine map_filter_rows mapCursor_payload fun p => ?_
    rw [@hasText_row _ _ _ _ PayloadInfo.profileId (fun _ => rfl) p, decide_eq_true_iff]

/-- Two profiles with a payload of one UUID: the second configuration is of the first payload. -/
example :
    let profile (id : String) : ProfileInfo := ⟨some id, some id, none, none, some []⟩
    let payload (id : String) : PayloadInfo := ⟨some id, some "U", some "vpn", none, some []⟩
    let vpnData (id : String) : VpnData :=
      { profileId := some id, payloadUuid := some "U", userDefinedName := some "Office",
        onDemandRules := some [], onDemandCredentials := some [], remoteServer := some "vpn",
        vpnType := some "L2TP" }
    let ops : List StoreOp := [.insertProfile (profile "A"), .insertPayload (payload "A"),
      .insertVpnData (vpnData "A"), .insertProfile (profile "B"), .insertPayload (payload "B"),
      .insertVpnData (vpnData "B"), .deleteProfile "A"]
    (catalog true ops).vpnData.length = 0 ∧ (catalog false ops).vpnData.length = 1 := by decide

theorem ordered_schema : Ordered [] schema := by decide

theorem tables_true : tables true = schema := List.map_id _

theorem keyed_schema : Keyed schema := by decide

theorem free_onDemandEnabledByUser : Free schema vpnDataTable "on_demand_enabled_by_user" where
  key := by decide
  reference := by decide
  referred := by decide

theorem sound_insert_getD (h : Sound schema db) {t : Table} (ht : t ∈ schema)
    (row : Row SqlValue) : Sound schema ((insert db (enforced true t) row).getD db) := by
  cases hinsert : insert db t row with
  | none => rwa [show enforced true t = t from rfl, hinsert]
  | some db' =>
    rw [show enforced true t = t from rfl, hinsert]
    exact h.insert ordered_schema keyed_schema ht hinsert

theorem sound_storeStep (h : Sound schema db) (op : StoreOp) :
    Sound schema (storeStep true db op) := by
  cases op with
  | insertProfile p => exact sound_insert_getD h (by simp [schema]) _
  | insertLinkedObject o => exact sound_insert_getD h (by simp [schema]) _
  | insertPayload p => exact sound_insert_getD h (by simp [schema]) _
  | insertVpnData d => exact sound_insert_getD h (by simp [schema]) _
  | deleteProfile id =>
    rw [storeStep]
    by_cases hany : (db "profiles").any (hasText "id" id)
    · rw [deleteProfile_eq hany, tables_true]
      exact h.delete ordered_schema _
    · rwa [deleteProfile, if_neg hany]
  | setOnDemandEnabledByUser payloadUuid enabled =>
    exact h.updateRows ordered_schema (by simp [schema]) free_onDemandEnabledByUser _ _

theorem sound_foldl (ops : List StoreOp) : ∀ {db : Database SqlValue}, Sound schema db →
    Sound schema (ops.foldl (storeStep true) db) := by
  induction ops with
  | nil =>
    intro db h
    exact h
  | cons op ops ih =>
    intro db h
    exact ih (sound_storeStep h op)

/-- Where references are enforced, every row that any run leaves in a table has the values that may
not be null and all the rows it refers to, and no two rows of a table have one primary key. -/
theorem store_sound (ops : List StoreOp) : Sound schema (stored true ops) :=
  sound_foldl ops (sound_empty schema)

/-! ## The trigger and the cascade -/

theorem dropped_name {p : Choice SqlValue} {name : String} {row : Row SqlValue}
    (h : Dropped (tables foreignKeys) db p name row) :
    name = "profiles" ∨ name = "linked_objects" ∨ name = "payloads" ∨ name = "vpn_data" := by
  have htable : ∃ t ∈ tables foreignKeys, t.name = name := by
    cases h with
    | chosen ht hrow hp => exact ⟨_, ht, rfl⟩
    | refers ht hrow hc hr hv hdropped hv' => exact ⟨_, ht, rfl⟩
  obtain ⟨t, ht, rfl⟩ := htable
  obtain ⟨u, hu, rfl⟩ := List.mem_map.mp ht
  rw [name_enforced]
  simp only [schema, List.mem_cons, List.not_mem_nil, or_false] at hu
  rcases hu with rfl | rfl | rfl | rfl
  · exact .inl rfl
  · exact .inr (.inl rfl)
  · exact .inr (.inr (.inl rfl))
  · exact .inr (.inr (.inr rfl))

/-- The rows of the other tables go by the trigger alone. -/
theorem dropped_enforced_iff {id name : String} {row : Row SqlValue} (hname : name ≠ "vpn_data") :
    Dropped (tables true) db (chosen id) name row ↔
      Dropped (tables false) db (chosen id) name row := by
  by_cases hknown : name = "profiles" ∨ name = "linked_objects" ∨ name = "payloads"
  · rcases hknown with rfl | rfl | rfl
    · rw [dropped_profiles, dropped_profiles]
    · rw [dropped_linkedObjects, dropped_linkedObjects]
    · rw [dropped_payloads, dropped_payloads]
  · have hother : ¬ (name = "profiles" ∨ name = "linked_objects" ∨ name = "payloads" ∨
        name = "vpn_data") := by
      tauto
    exact iff_of_false (fun h => hother (dropped_name h)) fun h => hother (dropped_name h)

/-- A row of a profile goes with the row of the profile. -/
theorem dropped_of_reference {id : String} (hany : (db "profiles").any (hasText "id" id)) {t : Table}
    (ht : t ∈ schema) (hc : reference "profile_id" "profiles" "id" ∈ t.columns) {row : Row SqlValue}
    (hrow : row ∈ db t.name) (hof : hasText "profile_id" id row) :
    Dropped schema db (rowsOf "profiles" "id" id) t.name row := by
  obtain ⟨row', hrow', hid⟩ := List.any_eq_true.mp hany
  have hprofile : Dropped schema db (rowsOf "profiles" "id" id) "profiles" row' :=
    @Dropped.chosen _ _ _ _ profilesTable _ (by simp [schema]) hrow' (by
      rw [rowsOf, hid]
      rfl)
  exact .refers ht hrow hc rfl (hasText_iff.mp hof) hprofile (hasText_iff.mp hid)

/-- With the references enforced the trigger deletes nothing that the cascades do not. -/
theorem deleteProfile_cascade (db : Database SqlValue) (id : String) :
    deleteProfile true db id = delete schema db (rowsOf "profiles" "id" id) := by
  by_cases hany : (db "profiles").any (hasText "id" id)
  · have hchosen : chosen id = fun name row => rowsOf "profiles" "id" id name row ||
        (rowsOf "linked_objects" "profile_id" id name row ||
          (rowsOf "payloads" "profile_id" id name row ||
            rowsOf "vpn_data" "profile_id" id name row)) := by
      funext name row
      rw [chosen]
      ac_rfl
    rw [deleteProfile_eq hany, tables_true, hchosen]
    refine ordered_schema.delete_of_dropped fun name row hrow hq => ?_
    simp only [rowsOf, Bool.or_eq_true, Bool.and_eq_true, decide_eq_true_iff] at hq
    rcases hq with ⟨rfl, hof⟩ | ⟨rfl, hof⟩ | ⟨rfl, hof⟩
    · exact @dropped_of_reference _ _ hany linkedObjectsTable (by simp [schema])
        (by simp [linkedObjectsTable]) _ hrow hof
    · exact @dropped_of_reference _ _ hany payloadsTable (by simp [schema])
        (by simp [payloadsTable]) _ hrow hof
    · exact @dropped_of_reference _ _ hany vpnDataTable (by simp [schema])
        (by simp [vpnDataTable]) _ hrow hof
  · have hnone : ∀ name row, ¬ Dropped schema db (rowsOf "profiles" "id" id) name row := by
      intro name row hdropped
      induction hdropped with
      | chosen ht hrow hp =>
        rw [rowsOf, Bool.and_eq_true, decide_eq_true_iff] at hp
        exact hany (List.any_eq_true.mpr ⟨_, hp.1 ▸ hrow, hp.2⟩)
      | refers ht hrow hc hr hv hdropped hv' ih => exact ih
    rw [deleteProfile, if_neg hany]
    funext name
    have hall := @Ordered.delete_eq_filter _ _ _ db _ name ordered_schema (fun _ => true)
      fun row _ => iff_of_true rfl (hnone name row)
    rw [hall, List.filter_true]

/-- Where the trigger alone deletes as much. -/
theorem agree_iff (h : Rows db c) (hsound : Sound schema db) (id : String) :
    deleteProfile false db id = deleteProfile true db id ↔
      ∀ d ∈ c.vpnData, ∀ p ∈ c.payloads, p.profileId = some id → p.payloadUuid = d.payloadUuid →
        d.profileId = some id := by
  by_cases hany : (db "profiles").any (hasText "id" id)
  · rw [deleteProfile_eq hany, deleteProfile_eq hany]
    constructor
    · intro hsame d hd p hp hof huuid
      by_contra hother
      have hrow : d.asContentValues ∈ db "vpn_data" := h.vpnData ▸ List.mem_map_of_mem hd
      have hleft : d.asContentValues ∈ delete (tables false) db (chosen id) "vpn_data" := by
        refine (ordered_tables false).mem_delete.mpr ⟨hrow, fun hdropped => ?_⟩
        rcases (dropped_vpnData_iff h hd).mp hdropped with hself | ⟨hon, -⟩
        · exact hother hself
        · cases hon
      rw [hsame] at hleft
      refine ((ordered_tables true).mem_delete.mp hleft).2 ?_
      exact (dropped_vpnData_iff h hd).mpr (.inr ⟨rfl, p, hp, hof, huuid⟩)
    · intro hown
      funext name
      refine (ordered_tables false).delete_eq_filter fun row hrow => ?_
      rw [decide_eq_true_iff, (ordered_tables true).mem_drops_empty]
      refine not_congr ?_
      by_cases hname : name = "vpn_data"
      · subst hname
        obtain ⟨d, hd, rfl⟩ := List.mem_map.mp (h.vpnData ▸ hrow)
        rw [dropped_vpnData_iff h hd, dropped_vpnData_iff h hd]
        constructor
        · rintro (hself | ⟨-, p, hp, hof, huuid⟩)
          · exact .inl hself
          · exact .inl (hown d hd p hp hof huuid)
        · rintro (hself | ⟨hon, -⟩)
          · exact .inl hself
          · cases hon
      · exact dropped_enforced_iff hname
  · rw [deleteProfile, deleteProfile, if_neg hany, if_neg hany]
    refine iff_of_true rfl fun d _ p hp hof _ => ?_
    -- a payload of the profile refers to its row
    have hrow : p.values ∈ db payloadsTable.name := h.payloads ▸ List.mem_map_of_mem hp
    have hvalue : value p.values "profile_id" = p.profileId.map .text := rfl
    obtain ⟨row', hrow', hid⟩ := hsound.foreignKeys payloadsTable (by simp [schema]) p.values hrow
      (reference "profile_id" "profiles" "id") (by simp [payloadsTable]) ("profiles", "id") rfl
      (.text id) (by rw [show (reference "profile_id" "profiles" "id").name = "profile_id" from rfl,
        hvalue, hof]; rfl)
    exact absurd (List.any_eq_true.mpr ⟨row', hrow', hasText_iff.mpr hid⟩) hany

/-- In every run with the references enforced, deleting a profile deletes what the cascades from its
row do, and the trigger alone would do the same exactly if no configuration of another profile is of
a payload of this one. -/
theorem deleteProfile_agree_iff (ops : List StoreOp) (id : String) :
    deleteProfile true (stored true ops) id =
      delete schema (stored true ops) (rowsOf "profiles" "id" id) ∧
    (deleteProfile false (stored true ops) id = deleteProfile true (stored true ops) id ↔
      ∀ d ∈ (catalog true ops).vpnData, ∀ p ∈ (catalog true ops).payloads,
        p.profileId = some id → p.payloadUuid = d.payloadUuid → d.profileId = some id) :=
  ⟨deleteProfile_cascade _ id, agree_iff (rows_run true ops) (sound_foldl ops (sound_empty schema)) id⟩

end Runs

end ConfProfile.Db
