import ConfProfile.Install.Task

/-!
# Which rows are stored

A row of a payload meets its constraints where the row of the profile is there, and a
row of a VPN payload where both are; the tables only grow, so that it does not matter
when the thread performs a request (`step_inv`). What is left are the values that
`wrap` and the constructors of the payloads do not ask for, and the schema does.
`installsAll_iff` says which these are.
-/

namespace ConfProfile.Install

open Tables

variable {R Cert Key : Type} {env : Environment R Cert Key} {profile : ConfigurationProfile R}

/-! ## Rows -/

section Rows

variable {row : Row SqlValue} {payload : Payload R}

variable (env profile) in
theorem profileRow_isSome : (profileRow env profile).isSome := by
  rw [profileRow, Option.isSome_map]
  exact writeSpecial_isSome _ profile.typed

variable (env profile payload) in
theorem payloadRow_isSome : (payloadRow env profile payload).isSome := by
  obtain ⟨toks, htoks⟩ :=
    Option.isSome_iff_exists.mp
      (writeSpecialEntries_isSome (P := env.platform) payload.dict payload.typed.2)
  simp [payloadRow, writeDictionary, htoks]

/-- What is known of the row of the profile. -/
theorem profileRow_spec (db : Database SqlValue) (h : profileRow env profile = some row) :
    Known profilesTable row ∧
      (NotNull profilesTable row ↔ profile.getPayloadDisplayName.isSome) ∧
      ForeignKeys db profilesTable row ∧
      value row "id" = some (.text profile.identifier) := by
  obtain ⟨json, -, rfl⟩ := Option.map_eq_some_iff.mp h
  have hid := profile.getPayloadIdentifier_eq
  refine ⟨?_, ?_, ?_, ?_⟩ <;>
    simp [Known, NotNull, ForeignKeys, profilesTable, mandatory, nullable, value, textValue,
      jsonValue, List.lookup_cons, hid]

/-- What is known of the row of a payload. -/
theorem payloadRow_spec (db : Database SqlValue) (h : payloadRow env profile payload = some row) :
    Known payloadsTable row ∧ NotNull payloadsTable row ∧
      (ForeignKeys db payloadsTable row ↔
        ∃ row' ∈ db "profiles", value row' "id" = some (.text profile.identifier)) ∧
      value row "payload_uuid" = some (.text payload.uuid) := by
  obtain ⟨json, -, rfl⟩ := Option.map_eq_some_iff.mp h
  have hid := profile.getPayloadIdentifier_eq
  have huuid := payload.getPayloadUUID_eq
  have htype := payload.isSome_fields.1
  refine ⟨?_, ?_, ?_, ?_⟩ <;>
    simp [Known, NotNull, ForeignKeys, payloadsTable, mandatory, nullable, reference, value,
      textValue, jsonValue, List.lookup_cons, hid, huuid, htype]

/-- What is known of the row of a VPN payload. -/
theorem vpnRow_spec (db : Database SqlValue) (h : vpnRow env profile payload = some row) :
    payload.cls = .vpn ∧ Mappable env.platform payload.dict ∧ Known vpnDataTable row ∧
      (NotNull vpnDataTable row ↔ Complete payload.dict) ∧
      (ForeignKeys db vpnDataTable row ↔
        (∃ row' ∈ db "profiles", value row' "id" = some (.text profile.identifier)) ∧
          ∃ row' ∈ db "payloads", value row' "payload_uuid" = some (.text payload.uuid)) := by
  unfold vpnRow at h
  split at h
  next hcls =>
    obtain ⟨d, hd, rfl⟩ := Option.map_eq_some_iff.mp h
    have hmappable := (mapPayload_isSome env.entrySet_perm _ hcls).mp (Option.isSome_of_eq_some hd)
    have hid := profile.getPayloadIdentifier_eq
    have huuid := payload.getPayloadUUID_eq
    refine ⟨hcls, hmappable, known_asContentValues d,
      notNull_vpnData hcls (profile.isSome_identifier) hd, ?_⟩
    obtain ⟨-, rules, credentials, rfl⟩ := mapPayload_eq_some hcls hd
    rw [foreignKeys_asContentValues]
    simp [vpnDataOf, hid, huuid]
  next => cases h

end Rows

/-! ## Actions -/

/-- The payload that an action inserts. -/
def payloadOf : Action R Cert Key → Option (Payload R)
  | .installPayload payload => some payload
  | _ => none

/-- The payloads that are inserted by some actions. -/
def installed (actions : List (Action R Cert Key)) : List (Payload R) := actions.filterMap payloadOf

section Actions

variable {payload : Payload R} {payloads : List (Payload R)}
  {actions all done todo : List (Action R Cert Key)}

/-- An action with a key or a certificate. -/
def OfKeys : Action R Cert Key → Prop
  | .installProfile | .installPayload _ => False
  | .installPrivateKey .. | .installCertificate .. => True

/-- The actions of a payload: its row, then its keys and certificates. -/
theorem payloadActions_eq (h : payloadActions env payload = some actions) :
    ∃ keys, actions = .installPayload payload :: keys ∧ ∀ a ∈ keys, OfKeys a := by
  unfold payloadActions at h
  split at h
  · split at h
    · cases h
    · cases h
      exact ⟨[], rfl, fun a ha => absurd ha List.not_mem_nil⟩
    · cases h
      exact ⟨_, rfl, by simp [OfKeys]⟩
  · split at h
    · cases h
      exact ⟨_, rfl, by simp [OfKeys]⟩
    · cases h
  · cases h
    exact ⟨[], rfl, fun a ha => absurd ha List.not_mem_nil⟩
  · cases h
    exact ⟨[], rfl, fun a ha => absurd ha List.not_mem_nil⟩

@[simp] theorem installed_installPayload (payload : Payload R)
    (actions : List (Action R Cert Key)) : installed (.installPayload payload :: actions) = payload :: installed actions := rfl

@[simp] theorem installed_installProfile (actions : List (Action R Cert Key)) :
    installed (.installProfile :: actions) = installed actions := rfl

@[simp] theorem installed_append (actions actions' : List (Action R Cert Key)) :
    installed (actions ++ actions') = installed actions ++ installed actions' :=
  List.filterMap_append

theorem installed_ofKeys (h : ∀ a ∈ actions, OfKeys a) : installed actions = [] := by
  rw [installed, List.filterMap_eq_nil_iff]
  intro a ha
  cases a with
  | installProfile | installPayload => exact (h _ ha).elim
  | installPrivateKey | installCertificate => rfl

theorem actionsOf_cons (payload : Payload R) (payloads : List (Payload R)) :
    actionsOf env (payload :: payloads) =
      (payloadActions env payload).getD [] ++ actionsOf env payloads := List.flatMap_cons

/-- What phase 3 collects. -/
theorem collect_eq (h : collect env profile = some all) :
    all = .installProfile :: actionsOf env profile.payloads ∧
      ∀ payload ∈ profile.payloads, (payloadActions env payload).isSome := by
  obtain ⟨actions, hactions, rfl⟩ := Option.map_eq_some_iff.mp h
  clear h
  generalize profile.payloads = payloads at hactions
  suffices hflat : actions.flatten = actionsOf env payloads ∧
      ∀ payload ∈ payloads, (payloadActions env payload).isSome from ⟨by rw [hflat.1], hflat.2⟩
  induction payloads generalizing actions with
  | nil =>
    obtain rfl := Option.some.inj hactions
    exact ⟨rfl, fun payload h => absurd h List.not_mem_nil⟩
  | cons payload payloads ih =>
    simp only [List.mapM_cons, Option.bind_eq_bind, Option.bind_eq_some_iff] at hactions
    obtain ⟨as, has, rest, hrest, hactions⟩ := hactions
    obtain rfl := Option.some.inj hactions
    obtain ⟨hflat, hsome⟩ := ih rest hrest
    rw [List.flatten_cons, hflat, actionsOf_cons, has, List.forall_mem_cons]
    exact ⟨rfl, Option.isSome_of_eq_some has, hsome⟩

theorem installed_actionsOf (h : ∀ payload ∈ payloads, (payloadActions env payload).isSome) :
    installed (actionsOf env payloads) = payloads := by
  induction payloads with
  | nil => rfl
  | cons payload payloads ih =>
    rw [List.forall_mem_cons] at h
    obtain ⟨actions, hactions⟩ := Option.isSome_iff_exists.mp h.1
    obtain ⟨keys, rfl, hkeys⟩ := payloadActions_eq hactions
    rw [actionsOf_cons, hactions, Option.getD_some, installed_append, installed_installPayload,
      installed_ofKeys hkeys, ih h.2]
    rfl

/-- In front of the row of a payload there are the actions of the payloads before it. -/
theorem split_installPayload (h : ∀ payload ∈ payloads, (payloadActions env payload).isSome)
    (hsplit : actionsOf env payloads = done ++ .installPayload payload :: todo) :
    done = actionsOf env (installed done) := by
  induction payloads generalizing done with
  | nil => simp [actionsOf] at hsplit
  | cons first payloads ih =>
    rw [List.forall_mem_cons] at h
    obtain ⟨actions, hactions⟩ := Option.isSome_iff_exists.mp h.1
    obtain ⟨keys, rfl, hkeys⟩ := payloadActions_eq hactions
    rw [actionsOf_cons, hactions, Option.getD_some] at hsplit
    cases done with
    | nil => rfl
    | cons action done =>
      rw [List.cons_append, List.cons_append] at hsplit
      obtain ⟨rfl, htail⟩ := List.cons.inj hsplit
      have hrest (as : List (Action R Cert Key)) (has : as = actionsOf env (installed as)) :
          .installPayload first :: (keys ++ as) =
            actionsOf env (installed (.installPayload first :: (keys ++ as))) := by
        rw [installed_installPayload, installed_append, installed_ofKeys hkeys, List.nil_append,
          actionsOf_cons, hactions, ← has]
        rfl
      rcases List.append_eq_append_iff.mp htail with ⟨as, rfl, has⟩ | ⟨bs, rfl, hbs⟩
      · exact hrest as (ih h.2 has)
      · cases bs with
        | nil => simpa using hrest [] rfl
        | cons b bs =>
          -- a row among the keys of the first payload
          obtain ⟨rfl, -⟩ := List.cons.inj hbs
          exact (hkeys _ (List.mem_append_right done List.mem_cons_self)).elim

variable (env) in
theorem installProfile_not_mem (h : ∀ payload ∈ payloads, (payloadActions env payload).isSome) :
    (.installProfile : Action R Cert Key) ∉ actionsOf env payloads := by
  intro hmem
  obtain ⟨payload, hpayload, hmem⟩ := List.mem_flatMap.mp hmem
  obtain ⟨actions, hactions⟩ := Option.isSome_iff_exists.mp (h payload hpayload)
  obtain ⟨keys, rfl, hkeys⟩ := payloadActions_eq hactions
  rw [hactions, Option.getD_some] at hmem
  rcases List.mem_cons.mp hmem with hmem | hmem
  · cases hmem
  · exact hkeys _ hmem

end Actions

/-! ## The database during a run -/

section Invariant

variable {keys : Keys Cert Key} {all done todo : List (Action R Cert Key)}
  {s s' : Installation R Cert Key} {t : Table} {row : Row SqlValue} {payload : Payload R}

theorem subset_insertRow (s : Installation R Cert Key) (t : Table) (row : Row SqlValue)
    (name : String) : s.db name ⊆ (s.insertRow t row).db name := by
  unfold Installation.insertRow
  cases h : insert s.db t row with
  | none => exact List.Subset.refl _
  | some db => exact subset_insert h name

theorem insertRow_other (s : Installation R Cert Key) (t : Table) (row : Row SqlValue)
    {name : String} (hname : name ≠ t.name) : (s.insertRow t row).db name = s.db name := by
  unfold Installation.insertRow
  cases h : insert s.db t row with
  | none => rfl
  | some db => exact (insert_eq_some h).2 name hname

theorem insertRow_stored (h : Known t row ∧ NotNull t row ∧ ForeignKeys s.db t row ∧
    FreshKey s.db t row) : (s.insertRow t row).db t.name = s.db t.name ++ [row] := by
  obtain ⟨db, hdb⟩ := Option.isSome_iff_exists.mp (insert_isSome.mpr h)
  unfold Installation.insertRow
  rw [hdb]
  exact (insert_eq_some hdb).1

/-- A request whose row can be inserted. -/
def Requested (db : Database SqlValue) (row : Row SqlValue) : Prop :=
  Known vpnDataTable row ∧ NotNull vpnDataTable row ∧ ForeignKeys db vpnDataTable row

theorem Requested.mono {db db' : Database SqlValue} (h : Requested db row)
    (hsub : ∀ name, db name ⊆ db' name) : Requested db' row := ⟨h.1, h.2.1, h.2.2.mono hsub⟩

variable (env profile keys all) in
/-- The actions that are done, and what the tables have of them. Where two payloads have one
UUID, the table of the payloads has a row with it, but not both. -/
structure Progress (done : List (Action R Cert Key)) (s : Installation R Cert Key) : Prop where
  actions : all = done ++ s.todo
  keys : Run.run (keysBehind env profile) keys done = some s.keys
  ended : s.result = some .success → s.todo = []
  profiles : s.db "profiles" = if done = [] then [] else (profileRow env profile).toList
  uuids : ∀ payload ∈ installed done,
    ∃ row ∈ s.db "payloads", value row "payload_uuid" = some (.text payload.uuid)
  payloads : (profile.payloads.map Payload.uuid).Nodup →
    s.db "payloads" = (installed done).filterMap (payloadRow env profile)
  vpnData : s.db "vpn_data" ++ s.mQueue = (installed done).filterMap (vpnRow env profile)

variable (env profile keys all) in
/-- Each row so far was allowed, each request can be performed, and as long as nothing is
thrown the tables are as they should be. -/
structure Inv (s : Installation R Cert Key) : Prop where
  allowed : ∀ i ∈ s.insertions, i.Allowed
  requested : ∀ row ∈ s.mQueue, Requested s.db row
  progress : s.result ≠ some .internal → ∃ done, Progress env profile keys all done s

theorem forall_mem_insertRow (hs : ∀ i ∈ s.insertions, i.Allowed) (hnull : NotNull t row)
    (hkeys : ForeignKeys s.db t row) : ∀ i ∈ (s.insertRow t row).insertions, i.Allowed := by
  intro i hi
  rcases List.mem_append.mp hi with hi | hi
  · exact hs i hi
  · rw [List.mem_singleton.mp hi]
    exact ⟨hnull, hkeys⟩

/-- The thread performs a request. -/
theorem Inv.request {queue : List (Row SqlValue)} (h : Inv env profile keys all s)
    (hqueue : s.mQueue = row :: queue) :
    Inv env profile keys all ({ s with mQueue := queue }.insertRow vpnDataTable row) := by
  have hmono := subset_insertRow { s with mQueue := queue } vpnDataTable row
  obtain ⟨hknown, hnull, hforeign⟩ := h.requested row (hqueue ▸ List.mem_cons_self)
  have hunique : FreshKey s.db vpnDataTable row := fun key hkey => nomatch hkey
  refine ⟨forall_mem_insertRow h.allowed hnull hforeign, fun r hr => ?_, fun hresult => ?_⟩
  · exact (h.requested r (hqueue ▸ List.mem_cons_of_mem _ hr)).mono hmono
  · obtain ⟨done, hdone⟩ := h.progress hresult
    have hstored := insertRow_stored (s := { s with mQueue := queue })
      ⟨hknown, hnull, hforeign, hunique⟩
    have hother {name : String} (hne : name ≠ "vpn_data") :=
      insertRow_other { s with mQueue := queue } vpnDataTable row hne
    have hprofiles := hother (show "profiles" ≠ "vpn_data" by decide)
    have hpayloads := hother (show "payloads" ≠ "vpn_data" by decide)
    refine ⟨done, hdone.actions, hdone.keys, hdone.ended, ?_, ?_, ?_, ?_⟩
    · rw [hprofiles, ← hdone.profiles]
    · rw [hpayloads]
      exact hdone.uuids
    · rw [hpayloads]
      exact hdone.payloads
    · rw [show "vpn_data" = vpnDataTable.name from rfl, hstored, ← hdone.vpnData, hqueue,
        List.append_assoc]
      rfl

/-! ### The task -/

variable {action : Action R Cert Key}

theorem inv_thrown (hallowed : ∀ i ∈ s.insertions, i.Allowed)
    (hrequested : ∀ row ∈ s.mQueue, Requested s.db row) : Inv env profile keys all s.thrown :=
  ⟨hallowed, hrequested, fun hresult => absurd rfl hresult⟩

theorem run_keysBehind_concat {k k' : Keys Cert Key}
    (h : Run.run (keysBehind env profile) keys done = some k)
    (haction : keysBehind env profile k action = some k') :
    Run.run (keysBehind env profile) keys (done ++ [action]) = some k' := by
  refine Run.run_append h ?_
  rw [Run.run, haction, Option.bind_some]
  rfl

/-- Only the profile is installed first. -/
theorem done_ne_nil (hall : collect env profile = some all)
    (hactions : all = done ++ action :: todo) (haction : action ≠ .installProfile) : done ≠ [] := by
  intro heq
  obtain rfl := heq
  rw [(collect_eq hall).1] at hactions
  exact haction (List.cons.inj hactions).1.symm

variable (env profile s) in
theorem perform_ofKeys (haction : OfKeys action) :
    keysBehind env profile s.keys action = none ∧ perform env profile s action = s.thrown ∨
      ∃ keys' mActions, keysBehind env profile s.keys action = some keys' ∧
        perform env profile s action = { s with keys := keys', mActions } := by
  have hput (put : Option (Keys Cert Key)) : put = none ∧ s.putKeys put = s.thrown ∨
      ∃ keys' mActions, put = some keys' ∧ s.putKeys put = { s with keys := keys', mActions } := by
    cases put with
    | none => exact Or.inl ⟨rfl, rfl⟩
    | some keys' => exact Or.inr ⟨keys', s.mActions, rfl, rfl⟩
  cases action with
  | installProfile | installPayload => exact haction.elim
  | installPrivateKey alias' privateKey chain => exact hput _
  | installCertificate manager alias' certificate =>
    cases manager with
    | internal => exact hput _
    | androidRaw => exact Or.inr ⟨s.keys, _, rfl, rfl⟩

variable (env profile s) in
theorem requestVpn_eq (payload : Payload R) (k : Keys Cert Key) :
    keysBehind env profile k (.installPayload payload) = none ∧
        requestVpn env profile payload s = s.thrown ∨
      keysBehind env profile k (.installPayload payload) = some k ∧
        requestVpn env profile payload s =
          { s with mQueue := s.mQueue ++ (vpnRow env profile payload).toList } := by
  unfold keysBehind requestVpn
  by_cases hcls : payload.cls = .vpn
  · cases hrow : vpnRow env profile payload with
    | none => simp [hcls, hrow]
    | some row => simp [hcls, hrow]
  · have hrow : vpnRow env profile payload = none := if_neg hcls
    simp [hcls, hrow]

/-- A key or a certificate is put. -/
theorem Inv.keysAction (h : Inv env profile keys all s) (hall : collect env profile = some all)
    (hresult : s.result = none) (htodo : s.todo = action :: todo) (haction : OfKeys action) :
    Inv env profile keys all (perform env profile { s with todo } action) := by
  obtain ⟨done, hdone⟩ := h.progress (by rw [hresult]; nofun)
  have hactions : all = done ++ action :: todo := hdone.actions.trans (by rw [htodo])
  rcases perform_ofKeys env profile { s with todo } haction with
    ⟨-, hthrown⟩ | ⟨keys', mActions, hkeys, hperform⟩
  · rw [hthrown]
    exact inv_thrown h.allowed h.requested
  · rw [hperform]
    have hne : done ≠ [] := by
      refine done_ne_nil hall hactions ?_
      intro heq
      obtain rfl := heq
      exact haction
    have hkeysOnly : ∀ a ∈ [action], OfKeys a := by simpa using haction
    have hinstalled : installed (done ++ [action]) = installed done := by
      rw [installed_append, installed_ofKeys hkeysOnly, List.append_nil]
    refine ⟨h.allowed, h.requested, fun _ => ⟨done ++ [action], ?_, ?_, ?_, ?_, ?_, ?_, ?_⟩⟩
    · rw [hactions, List.append_assoc]
      rfl
    · exact run_keysBehind_concat hdone.keys hkeys
    · intro hsuccess
      rw [hresult] at hsuccess
      cases hsuccess
    · rw [if_neg (by simp), hdone.profiles, if_neg hne]
    · rw [hinstalled]
      exact hdone.uuids
    · rw [hinstalled]
      exact hdone.payloads
    · rw [hinstalled]
      exact hdone.vpnData

/-- The row of the profile is inserted. -/
theorem Inv.profileAction (h : Inv env profile keys all s) (hall : collect env profile = some all)
    (hname : profile.getPayloadDisplayName.isSome) (hresult : s.result = none)
    (htodo : s.todo = .installProfile :: todo) :
    Inv env profile keys all (perform env profile { s with todo } .installProfile) := by
  obtain ⟨done, hdone⟩ := h.progress (by rw [hresult]; nofun)
  have hactions : all = done ++ .installProfile :: todo := hdone.actions.trans (by rw [htodo])
  obtain ⟨hcollect, hsome⟩ := collect_eq hall
  obtain rfl : done = [] := by
    cases done with
    | nil => rfl
    | cons action done =>
      rw [hcollect, List.cons_append] at hactions
      refine absurd ?_ (installProfile_not_mem env hsome)
      rw [(List.cons.inj hactions).2]
      exact List.mem_append_right _ List.mem_cons_self
  obtain ⟨row, hrow⟩ := Option.isSome_iff_exists.mp (profileRow_isSome env profile)
  obtain ⟨hknown, hnull, hforeign, -⟩ := profileRow_spec s.db hrow
  have hunique : FreshKey s.db profilesTable row := by
    intro key _ v _ row' hrow'
    rw [show s.db profilesTable.name = [] from hdone.profiles] at hrow'
    cases hrow'
  have hperform : perform env profile { s with todo } .installProfile =
      { s with todo }.insertRow profilesTable row := by
    rw [perform, hrow]
  have hstored := insertRow_stored (s := { s with todo })
    ⟨hknown, hnull.mpr hname, hforeign, hunique⟩
  have hother {name : String} (hne : name ≠ "profiles") :=
    insertRow_other { s with todo } profilesTable row hne
  have hmono := subset_insertRow { s with todo } profilesTable row
  rw [hperform]
  refine ⟨forall_mem_insertRow h.allowed (hnull.mpr hname) hforeign,
    fun r hr => (h.requested r hr).mono hmono,
    fun _ => ⟨[.installProfile], hactions, ?_, ?_, ?_, ?_, ?_, ?_⟩⟩
  · show Run.run (keysBehind env profile) keys ([] ++ [.installProfile]) = _
    exact run_keysBehind_concat hdone.keys rfl
  · intro hsuccess
    have hsame : s.result = some .success := hsuccess
    rw [hresult] at hsame
    cases hsame
  · rw [if_neg (by simp), show "profiles" = profilesTable.name from rfl, hstored, hrow]
    exact congrArg (· ++ [row]) hdone.profiles
  · exact fun payload hpayload => absurd hpayload List.not_mem_nil
  · intro hnodup
    rw [hother (by decide)]
    exact hdone.payloads hnodup
  · rw [hother (by decide)]
    exact hdone.vpnData

/-- The payloads that are installed so far have returned. -/
theorem returns_installed (hall : collect env profile = some all)
    (hactions : all = done ++ .installPayload payload :: todo)
    (hkeys : (Run.run (keysBehind env profile) keys done).isSome) :
    Returns env profile keys (installed done) := by
  obtain ⟨hcollect, hsome⟩ := collect_eq hall
  cases done with
  | nil =>
    rw [hcollect] at hactions
    cases hactions
  | cons action done =>
    rw [hcollect, List.cons_append] at hactions
    obtain ⟨rfl, htail⟩ := List.cons.inj hactions
    rw [Returns, installed_installProfile, ← split_installPayload hsome htail]
    exact hkeys

/-- The payloads before the one in hand, and behind it. -/
theorem payloads_split (hall : collect env profile = some all)
    (hactions : all = done ++ .installPayload payload :: todo) :
    profile.payloads = installed done ++ payload :: installed todo := by
  obtain ⟨hcollect, hsome⟩ := collect_eq hall
  rw [← installed_actionsOf hsome, ← installed_installProfile (actionsOf env profile.payloads),
    ← hcollect, hactions, installed_append, installed_installPayload]

theorem installed_concat (done : List (Action R Cert Key)) (payload : Payload R) :
    installed (done ++ [.installPayload payload]) = installed done ++ [payload] := by
  rw [installed_append]
  rfl

/-- Behind the first action the row of the profile is there. -/
theorem Progress.profile_mem (h : Progress env profile keys all done s) (hne : done ≠ []) :
    ∃ row ∈ s.db "profiles", value row "id" = some (.text profile.identifier) := by
  obtain ⟨row, hrow⟩ := Option.isSome_iff_exists.mp (profileRow_isSome env profile)
  refine ⟨row, ?_, (profileRow_spec s.db hrow).2.2.2⟩
  rw [h.profiles, if_neg hne, hrow]
  exact List.mem_cons_self

/-- Where the UUIDs are distinct, no row before has that of the payload. -/
theorem Progress.freshKey (h : Progress env profile keys all done s)
    (hsplit : profile.payloads = installed done ++ payload :: installed todo)
    (hnodup : (profile.payloads.map Payload.uuid).Nodup)
    (hrow : payloadRow env profile payload = some row) : FreshKey s.db payloadsTable row := by
  intro key hkey v hv row' hrow' hvalue
  obtain rfl : "payload_uuid" = key := Option.some.inj hkey
  have huuid := (payloadRow_spec s.db hrow).2.2.2
  obtain rfl := Option.some.inj (huuid.symm.trans hv)
  rw [show s.db payloadsTable.name = _ from h.payloads hnodup] at hrow'
  obtain ⟨other, hmem, hother⟩ := List.mem_filterMap.mp hrow'
  have hsame : SqlValue.text other.uuid = .text payload.uuid :=
    Option.some.inj ((payloadRow_spec s.db hother).2.2.2.symm.trans hvalue)
  rw [hsplit, List.map_append, List.nodup_append] at hnodup
  exact hnodup.2.2 _ (List.mem_map_of_mem hmem) _ List.mem_cons_self (SqlValue.text.inj hsame)

/-- The row of the payload is stored, or another one has its UUID. -/
theorem uuid_mem_insertRow (hrow : payloadRow env profile payload = some row)
    (hprofile : ∃ row' ∈ s.db "profiles", value row' "id" = some (.text profile.identifier)) :
    ∃ row' ∈ (s.insertRow payloadsTable row).db "payloads",
      value row' "payload_uuid" = some (.text payload.uuid) := by
  obtain ⟨hknown, hnull, hforeign, huuid⟩ := payloadRow_spec s.db hrow
  by_cases hunique : FreshKey s.db payloadsTable row
  · have hstored := insertRow_stored ⟨hknown, hnull, hforeign.mpr hprofile, hunique⟩
    refine ⟨row, ?_, huuid⟩
    rw [show "payloads" = payloadsTable.name from rfl, hstored]
    exact List.mem_append_right _ List.mem_cons_self
  · unfold FreshKey at hunique
    push Not at hunique
    obtain ⟨key, hkey, v, hv, row', hrow', hvalue⟩ := hunique
    obtain rfl : "payload_uuid" = key := Option.some.inj hkey
    obtain rfl := Option.some.inj (huuid.symm.trans hv)
    exact ⟨row', subset_insertRow s payloadsTable row _ hrow', hvalue⟩

/-- What the tables and the requests have behind the row of a payload. -/
theorem Progress.payloadAction (h : Progress env profile keys all done s)
    (hall : collect env profile = some all) (hresult : s.result = none)
    (htodo : s.todo = .installPayload payload :: todo)
    (hrow : payloadRow env profile payload = some row)
    (hkeys : keysBehind env profile s.keys (.installPayload payload) = some s.keys) :
    Progress env profile keys all (done ++ [.installPayload payload])
      { { s with todo }.insertRow payloadsTable row with
        mQueue := s.mQueue ++ (vpnRow env profile payload).toList } := by
  have hactions : all = done ++ .installPayload payload :: todo :=
    h.actions.trans (by rw [htodo])
  have hne : done ≠ [] := done_ne_nil hall hactions nofun
  have hprofile := h.profile_mem hne
  have hother {name : String} (hne : name ≠ "payloads") :=
    insertRow_other { s with todo } payloadsTable row hne
  refine ⟨?_, run_keysBehind_concat h.keys hkeys, ?_, ?_, ?_, ?_, ?_⟩
  · rw [hactions, List.append_assoc]
    rfl
  · intro hsuccess
    have hsame : s.result = some .success := hsuccess
    rw [hresult] at hsame
    cases hsame
  · rw [if_neg (by simp)]
    exact (hother (by decide)).trans (h.profiles.trans (if_neg hne))
  · rw [installed_concat, List.forall_mem_append, List.forall_mem_singleton]
    refine ⟨fun p hp => ?_, uuid_mem_insertRow (s := { s with todo }) hrow hprofile⟩
    obtain ⟨row', hrow', hvalue⟩ := h.uuids p hp
    exact ⟨row', subset_insertRow { s with todo } payloadsTable row _ hrow', hvalue⟩
  · intro hnodup
    obtain ⟨hknown, hnull, hforeign, -⟩ := payloadRow_spec s.db hrow
    rw [installed_concat, List.filterMap_append, ← h.payloads hnodup,
      List.filterMap_cons_some hrow]
    exact insertRow_stored (s := { s with todo }) ⟨hknown, hnull, hforeign.mpr hprofile,
      h.freshKey (payloads_split hall hactions) hnodup hrow⟩
  · have hlast : [payload].filterMap (vpnRow env profile) =
        (vpnRow env profile payload).toList := by
      cases hvpn : vpnRow env profile payload <;> simp [hvpn]
    rw [installed_concat, List.filterMap_append, ← h.vpnData, hlast, List.append_assoc]
    exact congrArg (· ++ _) (hother (by decide))

/-- The row of a payload is inserted, and that of a VPN payload is requested. -/
theorem Inv.payloadAction (h : Inv env profile keys all s) (hall : collect env profile = some all)
    (hinstallable : Installable env profile keys) (hresult : s.result = none)
    (htodo : s.todo = .installPayload payload :: todo) :
    Inv env profile keys all (perform env profile { s with todo } (.installPayload payload)) := by
  obtain ⟨done, hdone⟩ := h.progress (by rw [hresult]; nofun)
  have hactions : all = done ++ .installPayload payload :: todo :=
    hdone.actions.trans (by rw [htodo])
  have hprofile := hdone.profile_mem (done_ne_nil hall hactions nofun)
  obtain ⟨row, hrow⟩ := Option.isSome_iff_exists.mp (payloadRow_isSome env profile payload)
  obtain ⟨-, hnull, hforeign, -⟩ := payloadRow_spec s.db hrow
  have hallowed := forall_mem_insertRow (s := { s with todo }) h.allowed hnull
    (hforeign.mpr hprofile)
  have hrequested : ∀ r ∈ s.mQueue, Requested ({ s with todo }.insertRow payloadsTable row).db r :=
    fun r hr => (h.requested r hr).mono (subset_insertRow { s with todo } payloadsTable row)
  have hperform : perform env profile { s with todo } (.installPayload payload) =
      requestVpn env profile payload ({ s with todo }.insertRow payloadsTable row) := by
    rw [perform, hrow]
  rw [hperform]
  rcases requestVpn_eq env profile ({ s with todo }.insertRow payloadsTable row) payload s.keys with
    ⟨-, hthrown⟩ | ⟨hkeys, hrequest⟩
  · rw [hthrown]
    exact inv_thrown hallowed hrequested
  · rw [hrequest]
    refine ⟨hallowed, fun r hr => ?_,
      fun _ => ⟨_, hdone.payloadAction hall hresult htodo hrow hkeys⟩⟩
    rcases List.mem_append.mp hr with hr | hr
    · exact hrequested r hr
    · obtain ⟨hcls, hmappable, hknownVpn, hnullVpn, hforeignVpn⟩ :=
        vpnRow_spec ({ s with todo }.insertRow payloadsTable row).db (Option.mem_toList.mp hr)
      have hreturns : Returns env profile keys (installed done) :=
        returns_installed hall hactions (Option.isSome_of_eq_some hdone.keys)
      have hcomplete := hinstallable.complete _ payload _ (payloads_split hall hactions)
        hreturns hcls hmappable
      refine ⟨hknownVpn, hnullVpn.mpr hcomplete, hforeignVpn.mpr
        ⟨?_, uuid_mem_insertRow (s := { s with todo }) hrow hprofile⟩⟩
      rw [insertRow_other { s with todo } payloadsTable row (by decide)]
      exact hprofile

/-- What a step of the task does. -/
theorem step_task (h : step env profile s .task = some s') : s.result = none ∧
    (s.todo = [] ∧ s' = { s with result := some .success } ∨
      ∃ action todo, s.todo = action :: todo ∧
        s' = perform env profile { s with todo } action) := by
  rw [step] at h
  split at h
  · cases h
  · next hresult =>
    refine ⟨by simpa using hresult, ?_⟩
    cases htodo : s.todo with
    | nil =>
      rw [htodo] at h
      exact Or.inl ⟨rfl, (Option.some.inj h).symm⟩
    | cons action todo =>
      rw [htodo] at h
      exact Or.inr ⟨action, todo, rfl, (Option.some.inj h).symm⟩

/-- What a step does. -/
theorem step_cases {party : Party} (h : step env profile s party = some s') :
    (∃ row queue, s.mQueue = row :: queue ∧
        s' = { s with mQueue := queue }.insertRow vpnDataTable row) ∨
      s.result = none ∧ s.todo = [] ∧ s' = { s with result := some .success } ∨
      s.result = none ∧ ∃ action todo, s.todo = action :: todo ∧
        s' = perform env profile { s with todo } action := by
  cases party with
  | requestThread =>
    left
    cases hqueue : s.mQueue with
    | nil => simp [step, hqueue] at h
    | cons row queue =>
      simp only [step, hqueue] at h
      exact ⟨row, queue, rfl, (Option.some.inj h).symm⟩
  | task =>
    obtain ⟨hresult, hcase⟩ := step_task h
    exact Or.inr (hcase.imp (fun h => ⟨hresult, h⟩) fun h => ⟨hresult, h⟩)

/-- A step of the task or of the thread keeps the invariant. -/
theorem step_inv (hall : collect env profile = some all)
    (hinstallable : Installable env profile keys) {party : Party} (h : Inv env profile keys all s) (hstep : step env profile s party = some s') :
    Inv env profile keys all s' := by
  rcases step_cases hstep with ⟨row, queue, hqueue, rfl⟩ | ⟨hresult, htodo, rfl⟩ |
    ⟨hresult, action, todo, htodo, rfl⟩
  · exact h.request hqueue
  · obtain ⟨done, hdone⟩ := h.progress (by rw [hresult]; nofun)
    exact ⟨h.allowed, h.requested, fun _ => ⟨done, hdone.actions, hdone.keys, fun _ => htodo,
      hdone.profiles, hdone.uuids, hdone.payloads, hdone.vpnData⟩⟩
  · cases action with
    | installProfile => exact h.profileAction hall hinstallable.displayName hresult htodo
    | installPayload payload => exact h.payloadAction hall hinstallable hresult htodo
    | installPrivateKey => exact h.keysAction hall hresult htodo trivial
    | installCertificate => exact h.keysAction hall hresult htodo trivial

theorem inv_start (hall : collect env profile = some all) :
    Inv env profile keys all (start env profile empty keys) := by
  rw [start, hall]
  refine ⟨fun i hi => absurd hi List.not_mem_nil, fun row hrow => absurd hrow List.not_mem_nil,
    fun _ => ⟨[], rfl, rfl, nofun, rfl, fun p hp => absurd hp List.not_mem_nil, fun _ => rfl, rfl⟩⟩

end Invariant

/-! ## Which profiles are stored -/

section Main

variable {keys : Keys Cert Key} {all : List (Action R Cert Key)}

theorem installsAll_of_installable (hall : collect env profile = some all)
    (hinstallable : Installable env profile keys) : InstallsAll env profile keys := by
  intro parties s hrun
  have hinv := Run.inv_run (fun _ _ _ h hstep => step_inv hall hinstallable h hstep) parties
    (inv_start hall) hrun
  refine ⟨hinv.allowed, fun hsuccess hqueue => ?_⟩
  obtain ⟨done, hdone⟩ := hinv.progress (by rw [hsuccess]; nofun)
  obtain ⟨hcollect, hsome⟩ := collect_eq hall
  have hdoneAll : done = .installProfile :: actionsOf env profile.payloads := by
    rw [← hcollect, hdone.actions, hdone.ended hsuccess, List.append_nil]
  have hinstalled : installed done = profile.payloads := by
    rw [hdoneAll, installed_installProfile, installed_actionsOf hsome]
  have hreturns : Returns env profile keys profile.payloads := by
    have hkeys := hdone.keys
    rw [hdoneAll] at hkeys
    exact Option.isSome_of_eq_some hkeys
  refine ⟨?_, ?_, ?_⟩
  · rw [hdone.profiles, if_neg (by rw [hdoneAll]; nofun)]
  · rw [hdone.payloads (hinstallable.distinct hreturns), hinstalled]
  · rw [← hinstalled, ← hdone.vpnData, hqueue, List.append_nil]

/-! ### Runs -/

variable {s s' : Installation R Cert Key} {todo : List (Action R Cert Key)} {k k' : Keys Cert Key}
  {action : Action R Cert Key}

/-- An action that does not throw leaves the rest of the task as it is. -/
theorem perform_returns (h : keysBehind env profile s.keys action = some k') :
    (perform env profile s action).todo = s.todo ∧
      (perform env profile s action).result = s.result ∧
      (perform env profile s action).keys = k' := by
  have hofKeys (haction : OfKeys action) : (perform env profile s action).todo = s.todo ∧
      (perform env profile s action).result = s.result ∧
      (perform env profile s action).keys = k' := by
    rcases perform_ofKeys env profile s haction with
      ⟨hnone, -⟩ | ⟨keys', mActions, hsome, hperform⟩
    · rw [hnone] at h
      cases h
    · rw [hsome] at h
      rw [hperform]
      exact ⟨rfl, rfl, Option.some.inj h⟩
  cases action with
  | installProfile =>
    obtain ⟨row, hrow⟩ :=
      Option.isSome_iff_exists.mp (profileRow_isSome env profile)
    rw [perform, hrow]
    exact ⟨rfl, rfl, Option.some.inj h⟩
  | installPayload payload =>
    obtain ⟨row, hrow⟩ := Option.isSome_iff_exists.mp
      (payloadRow_isSome env profile payload)
    have hperform : perform env profile s (.installPayload payload) =
        requestVpn env profile payload (s.insertRow payloadsTable row) := by
      rw [perform, hrow]
    rcases requestVpn_eq env profile (s.insertRow payloadsTable row) payload s.keys with
      ⟨hnone, -⟩ | ⟨hsome, hrequest⟩
    · rw [hnone] at h
      cases h
    · rw [hsome] at h
      rw [hperform, hrequest]
      exact ⟨rfl, rfl, Option.some.inj h⟩
  | installPrivateKey => exact hofKeys trivial
  | installCertificate => exact hofKeys trivial

/-- The task comes to the end of actions that return. -/
theorem exists_run_task (done : List (Action R Cert Key)) (htodo : s.todo = done ++ todo)
    (hresult : s.result = none)
    (hkeys : Run.run (keysBehind env profile) s.keys done = some k) :
    ∃ parties s', Run.run (step env profile) s parties = some s' ∧ s'.todo = todo ∧
      s'.result = none := by
  induction done generalizing s with
  | nil => exact ⟨[], s, rfl, htodo, hresult⟩
  | cons action done ih =>
    obtain ⟨k₁, haction, hrest⟩ := Run.run_cons_some hkeys
    have hreturns := perform_returns (s := { s with todo := done ++ todo }) haction
    obtain ⟨parties, s', hrun, hend⟩ := ih
      (s := perform env profile { s with todo := done ++ todo } action) hreturns.1 (hreturns.2.1.trans hresult) (hreturns.2.2.symm ▸ hrest)
    refine ⟨.task :: parties, s', ?_, hend⟩
    have hstep : step env profile s .task =
        some (perform env profile { s with todo := done ++ todo } action) := by
      simp [step, hresult, htodo]
    rw [Run.run, hstep, Option.bind_some, hrun]

variable (env profile s) in
/-- The thread comes to the end of its requests. -/
theorem exists_run_requests (queue : List (Row SqlValue)) (hqueue : s.mQueue = queue) :
    ∃ parties s', Run.run (step env profile) s parties = some s' ∧ s'.mQueue = [] ∧
      s'.result = s.result ∧ s.insertions ⊆ s'.insertions ∧
      ∀ row ∈ queue, ∃ i ∈ s'.insertions, i.table = vpnDataTable ∧ i.row = row := by
  induction queue generalizing s with
  | nil =>
    exact ⟨[], s, rfl, hqueue, rfl, List.Subset.refl _, fun row h => absurd h List.not_mem_nil⟩
  | cons row queue ih =>
    obtain ⟨parties, s', hrun, hempty, hresult, hsub, hrows⟩ :=
      ih ({ s with mQueue := queue }.insertRow vpnDataTable row) rfl
    have hstep : step env profile s .requestThread =
        some ({ s with mQueue := queue }.insertRow vpnDataTable row) := by
      simp [step, hqueue]
    refine ⟨.requestThread :: parties, s', ?_, hempty, hresult,
      List.Subset.trans (List.subset_append_left _ _) hsub, ?_⟩
    · rw [Run.run, hstep, Option.bind_some, hrun]
    · rw [List.forall_mem_cons]
      exact ⟨⟨_, hsub (List.mem_append_right _ List.mem_cons_self), rfl, rfl⟩, hrows⟩

/-- The UUIDs in the table of the payloads are distinct. -/
def DistinctKeys (s : Installation R Cert Key) : Prop :=
  ((s.db "payloads").map (value · "payload_uuid")).Nodup

theorem distinctKeys_insertRow {t : Table} {row : Row SqlValue} (h : DistinctKeys s)
    (ht : t = payloadsTable ∨ t.name ≠ "payloads") : DistinctKeys (s.insertRow t row) := by
  rcases ht with rfl | hne
  · unfold Installation.insertRow
    cases hinsert : insert s.db payloadsTable row with
    | none => exact h
    | some db =>
      have huuid (row : Row SqlValue) (hnull : NotNull payloadsTable row) :
          (value row "payload_uuid").isSome := hnull (mandatory "payload_uuid") (by decide) rfl
      exact nodup_insert (t := payloadsTable) rfl h huuid hinsert
  · unfold DistinctKeys
    rwa [insertRow_other s t row hne.symm]

theorem requestVpn_db (payload : Payload R) : (requestVpn env profile payload s).db = s.db := by
  rcases requestVpn_eq env profile s payload s.keys with
    ⟨-, h⟩ | ⟨-, h⟩
  · rw [h]
    rfl
  · rw [h]

theorem distinctKeys_perform (h : DistinctKeys s) :
    DistinctKeys (perform env profile s action) := by
  have hofKeys (haction : OfKeys action) : (perform env profile s action).db = s.db := by
    rcases perform_ofKeys env profile s haction with
      ⟨-, h⟩ | ⟨_, _, -, h⟩
    · rw [h]
      rfl
    · rw [h]
  cases action with
  | installProfile =>
    rw [perform]
    split
    · exact h
    · exact distinctKeys_insertRow h (Or.inr (by decide))
  | installPayload payload =>
    rw [perform]
    split
    · exact h
    · next row _ =>
      unfold DistinctKeys
      rw [requestVpn_db]
      exact distinctKeys_insertRow h (Or.inl rfl)
  | installPrivateKey =>
    unfold DistinctKeys
    rwa [hofKeys trivial]
  | installCertificate =>
    unfold DistinctKeys
    rwa [hofKeys trivial]

theorem distinctKeys_step {party : Party} (h : DistinctKeys s)
    (hstep : step env profile s party = some s') : DistinctKeys s' := by
  rcases step_cases hstep with ⟨row, queue, -, rfl⟩ | ⟨-, -, rfl⟩ | ⟨-, action, todo, -, rfl⟩
  · exact distinctKeys_insertRow h (Or.inr (by decide))
  · exact h
  · exact distinctKeys_perform h

/-! ### What a run on an empty database shows -/

theorem start_eq (hall : collect env profile = some all) :
    start env profile empty keys = ⟨all, none, [], [], empty, keys, []⟩ := by
  rw [start, hall]

/-- The run of the first actions. -/
theorem exists_run_start (hall : collect env profile = some all)
    {done : List (Action R Cert Key)} (hactions : all = done ++ todo)
    (hkeys : (Run.run (keysBehind env profile) keys done).isSome) :
    ∃ parties s, Run.run (step env profile) (start env profile empty keys) parties = some s ∧
      s.todo = todo ∧ s.result = none := by
  obtain ⟨k, hk⟩ := Option.isSome_iff_exists.mp hkeys
  rw [start_eq hall]
  exact exists_run_task done hactions rfl hk

theorem displayName_of_installsAll (hall : collect env profile = some all)
    (h : InstallsAll env profile keys) : profile.getPayloadDisplayName.isSome := by
  obtain ⟨row, hrow⟩ :=
    Option.isSome_iff_exists.mp (profileRow_isSome env profile)
  have hactions := (collect_eq hall).1
  have hstep : step env profile (start env profile empty keys) .task =
      some ({ start env profile empty keys with
        todo := actionsOf env profile.payloads }.insertRow profilesTable row) := by
    rw [start_eq hall, hactions]
    simp [step, perform, hrow]
  have hrun : Run.run (step env profile) (start env profile empty keys) [.task] =
      some ({ start env profile empty keys with
        todo := actionsOf env profile.payloads }.insertRow profilesTable row) := by
    rw [Run.run, hstep]
    rfl
  have hallowed := (h _ _ hrun).1 ⟨_, profilesTable, row⟩
    (List.mem_append_right _ List.mem_cons_self)
  exact (profileRow_spec empty hrow).2.1.mp hallowed.1

theorem complete_of_installsAll (hall : collect env profile = some all)
    (h : InstallsAll env profile keys) {before after : List (Payload R)} {payload : Payload R}
    (hpayloads : profile.payloads = before ++ payload :: after)
    (hreturns : Returns env profile keys before) (hcls : payload.cls = .vpn)
    (hmappable : Mappable env.platform payload.dict) : Complete payload.dict := by
  obtain ⟨hcollect, hsome⟩ := collect_eq hall
  obtain ⟨actions, hactions⟩ := Option.isSome_iff_exists.mp
    (hsome payload (by rw [hpayloads]; exact List.mem_append_right _ List.mem_cons_self))
  obtain ⟨ks, rfl, -⟩ := payloadActions_eq hactions
  have hsplit : all = (.installProfile :: actionsOf env before) ++
      .installPayload payload :: (ks ++ actionsOf env after) := by
    rw [hcollect, hpayloads, actionsOf, List.flatMap_append, ← actionsOf, ← actionsOf,
      actionsOf_cons, hactions]
    rfl
  obtain ⟨parties, s, hrun, htodo, hresult⟩ := exists_run_start hall hsplit hreturns
  obtain ⟨d, hd⟩ := Option.isSome_iff_exists.mp
    ((mapPayload_isSome env.entrySet_perm profile.getPayloadIdentifier hcls).mpr hmappable)
  have hvpn : vpnRow env profile payload = some d.asContentValues := by
    rw [vpnRow, if_pos hcls, hd]
    rfl
  obtain ⟨row, hrow⟩ := Option.isSome_iff_exists.mp
    (payloadRow_isSome env profile payload)
  -- the request for the row, and all requests performed
  have hstep : step env profile s .task = some { { s with
      todo := ks ++ actionsOf env after }.insertRow payloadsTable row with
        mQueue := s.mQueue ++ [d.asContentValues] } := by
    rw [step, hresult, htodo]
    simp only [Option.isSome_none, Bool.false_eq_true, if_false, perform, hrow, requestVpn,
      if_pos hcls, hvpn]
    rfl
  obtain ⟨requests, s', hrequests, -, -, -, hrows⟩ := exists_run_requests env profile
    { { s with todo := ks ++ actionsOf env after }.insertRow payloadsTable row with
      mQueue := s.mQueue ++ [d.asContentValues] } _ rfl
  have htail : Run.run (step env profile) s (.task :: requests) = some s' := by
    rw [Run.run, hstep, Option.bind_some, hrequests]
  have hend := Run.run_append hrun htail
  obtain ⟨i, hi, htable, hirow⟩ := hrows d.asContentValues
    (List.mem_append_right _ List.mem_cons_self)
  have hnull := ((h _ _ hend).1 i hi).1
  rw [htable, hirow] at hnull
  exact (vpnRow_spec empty hvpn).2.2.2.1.mp hnull

theorem distinct_of_installsAll (hall : collect env profile = some all)
    (h : InstallsAll env profile keys) (hreturns : Returns env profile keys profile.payloads) :
    (profile.payloads.map Payload.uuid).Nodup := by
  obtain ⟨hcollect, -⟩ := collect_eq hall
  have hkeys : (Run.run (keysBehind env profile) keys all).isSome := by
    rw [hcollect]
    exact hreturns
  obtain ⟨parties, s, hrun, htodo, hresult⟩ :=
    exists_run_start hall (List.append_nil all).symm hkeys
  have hstep : step env profile s .task = some { s with result := some .success } := by
    rw [step, hresult, htodo]
    rfl
  obtain ⟨requests, s', hrequests, hqueue, hsuccess, -, -⟩ := exists_run_requests env profile
    { s with result := some .success } _ rfl
  have htail : Run.run (step env profile) s (.task :: requests) = some s' := by
    rw [Run.run, hstep, Option.bind_some, hrequests]
  have hend := Run.run_append hrun htail
  have hstored := ((h _ _ hend).2 hsuccess hqueue).2.1
  have hempty : DistinctKeys (start env profile empty keys) := by
    rw [start_eq hall]
    exact List.nodup_nil
  have hdistinct : DistinctKeys s' :=
    Run.inv_run (fun _ _ _ hs hstep => distinctKeys_step hs hstep) _ hempty hend
  have hvalues : (s'.db "payloads").map (value · "payload_uuid") =
      (profile.payloads.map Payload.uuid).map fun uuid => some (SqlValue.text uuid) := by
    rw [hstored]
    induction profile.payloads with
    | nil => rfl
    | cons payload payloads ih =>
      obtain ⟨row, hrow⟩ := Option.isSome_iff_exists.mp
        (payloadRow_isSome env profile payload)
      rw [List.filterMap_cons_some hrow, List.map_cons, ih,
        (payloadRow_spec empty hrow).2.2.2]
      rfl
  unfold DistinctKeys at hdistinct
  rw [hvalues] at hdistinct
  exact hdistinct.of_map _

theorem payloadActions_isSome (payload : Payload R) :
    (payloadActions env payload).isSome ↔ Collects env payload := by
  unfold payloadActions Collects
  cases hcls : payload.cls with
  | scep => cases env.doScep payload <;> simp
  | rootCert =>
    cases payload.dict.lookup "PayloadContent" with
    | none => simp
    | some content => cases content <;> simp
  | vpn | unknown => simp

theorem collect_isSome : (collect env profile).isSome ↔
    ∀ payload ∈ profile.payloads, Collects env payload := by
  rw [collect, Option.isSome_map]
  simp only [← payloadActions_isSome]
  induction profile.payloads with
  | nil => simp
  | cons payload payloads ih =>
    rw [List.forall_mem_cons, ← ih, List.mapM_cons]
    cases payloadActions env payload with
    | none => simp
    | some actions => cases payloads.mapM (payloadActions env) <;> simp

/-- **Which profiles are stored**: where phase 3 does not throw, every run inserts rows that the
schema allows, and a success means that all are stored, exactly if the profile is installable. -/
theorem installsAll_iff (env : Environment R Cert Key) (profile : ConfigurationProfile R)
    (keys : Keys Cert Key) : InstallsAll env profile keys ↔
      ((∀ payload ∈ profile.payloads, Collects env payload) → Installable env profile keys) := by
  rw [← collect_isSome]
  cases hall : collect env profile with
  | none =>
    refine iff_of_true (fun parties s hrun => ?_) fun h => absurd h Bool.false_ne_true
    obtain rfl : s = start env profile empty keys := by
      cases parties with
      | nil => exact (Option.some.inj hrun).symm
      | cons party parties =>
        rw [Run.run, start, hall] at hrun
        cases party <;> cases hrun
    rw [start, hall]
    exact ⟨fun i hi => absurd hi List.not_mem_nil, fun h => by cases h⟩
  | some all =>
    refine ⟨fun h _ => ⟨displayName_of_installsAll hall h, ?_, distinct_of_installsAll hall h⟩,
      fun h => installsAll_of_installable hall (h rfl)⟩
    exact fun before payload after => complete_of_installsAll hall h

end Main

/-! ### A profile with a name, and without one -/

def vpnPayload : Payload Bool where
  dict := [("PayloadIdentifier", .string "example.vpn"), ("PayloadUUID", .string "V1"),
    ("PayloadType", .string "com.apple.vpn.managed"), ("PayloadVersion", .integer 1),
    ("UserDefinedName", .string "Office"), ("VPNType", .string "IPSec"),
    ("IPSec", .dictionary [("RemoteAddress", .string "vpn.example.com")])]
  typed := by simp [Obj.Typed, Obj.TypedEntries]
  accepted := rfl

def namelessProfile : ConfigurationProfile Bool where
  plist := [("PayloadIdentifier", .string "example"), ("PayloadUUID", .string "P1"),
    ("PayloadType", .string "Configuration"), ("PayloadVersion", .integer 1),
    ("PayloadContent", .array [.dictionary vpnPayload.dict])]
  typed := by simp [Obj.Typed, Obj.TypedEntries, Obj.TypedItems, vpnPayload]
  accepted := rfl
  payloads := [vpnPayload]
  content := rfl

/-- No server and no certificates; every entry is taken and stored. -/
def plainEnvironment : Environment Bool Unit Unit where
  platform := smallPlatform
  entrySet := id
  entrySet_perm map := List.Perm.refl map
  doScep _ := .failedOrPending
  generateCertificate _ := none
  accepts _ _ _ := true
  doStore _ := true

/-- The same with a name. -/
def namedProfile : ConfigurationProfile Bool where
  plist := ("PayloadDisplayName", .string "Example") :: namelessProfile.plist
  typed := by simp [Obj.Typed, Obj.TypedEntries, Obj.TypedItems, namelessProfile, vpnPayload]
  accepted := rfl
  payloads := [vpnPayload]
  content := rfl

example : Installable plainEnvironment namedProfile ⟨some [], []⟩ where
  displayName := rfl
  complete before payload after hpayloads _ _ _ := by
    have hmem : payload ∈ namedProfile.payloads :=
      hpayloads ▸ List.mem_append_right _ List.mem_cons_self
    obtain rfl := List.mem_singleton.mp hmem
    exact ⟨rfl, Or.inr rfl, by decide⟩
  distinct _ := by decide

/-- The display name is optional for `wrap`, but not for the schema: not one row is stored, and
the task reports success. -/
theorem nameless_not_stored :
    ¬ InstallsAll plainEnvironment namelessProfile ⟨some [], []⟩ ∧
      ∃ s, Run.run (step plainEnvironment namelessProfile)
          (start plainEnvironment namelessProfile empty ⟨some [], []⟩)
          [.task, .task, .requestThread, .task] = some s ∧
        s.result = some .success ∧ s.mQueue = [] ∧
        s.db "profiles" = [] ∧ s.db "payloads" = [] ∧ s.db "vpn_data" = [] := by
  have hrun : ∃ s, Run.run (step plainEnvironment namelessProfile)
      (start plainEnvironment namelessProfile empty ⟨some [], []⟩)
      [.task, .task, .requestThread, .task] = some s ∧
        s.result = some .success ∧ s.mQueue = [] ∧
        s.db "profiles" = [] ∧ s.db "payloads" = [] ∧ s.db "vpn_data" = [] :=
    ⟨_, rfl, rfl, rfl, rfl, rfl, rfl⟩
  refine ⟨fun h => ?_, hrun⟩
  obtain ⟨s, hs, hsuccess, hqueue, hprofiles, -⟩ := hrun
  have hstored := ((h _ s hs).2 hsuccess hqueue).1
  rw [hprofiles] at hstored
  cases hstored

end ConfProfile.Install
