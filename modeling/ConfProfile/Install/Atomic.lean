import ConfProfile.Install.Stored

/-!
# All or nothing

The task reports an error or a success. `Atomic` is what one expects of these: with an error
nothing has been changed, with a success everything is stored. But rows and keys that have been
stored before an exception stay, and neither a refused row, nor an enrolment that fails, nor a
key store that cannot be written leads to an error. `installs_along` says what must not happen
for the task to keep to it.

To install a profile again changes nothing in the tables with a primary key; `vpn_data` has none.
-/

namespace ConfProfile.Install

open Tables Run

variable {R Cert Key : Type}

/-! ## Outcomes -/

/-- What comes of a step: the database may refuse a row for a reason of its own, and there may be
an exception in front of the step. -/
inductive Outcome where
  | done
  | refused
  | thrown
  deriving DecidableEq, Repr

section Task

variable (env : Environment R Cert Key) (profile : ConfigurationProfile R)

/-- A step of the task or of the thread, whatever comes of it. The thread only logs an exception. -/
def attempt (s : Installation R Cert Key) : Party × Outcome → Option (Installation R Cert Key)
  | (party, .done) => step env profile s party
  | (party, .refused) => (step env profile s party).map fun s' => { s' with db := s.db }
  | (.task, .thrown) => if s.result.isSome ∨ s.todo.isEmpty then none else some s.thrown
  | (.requestThread, .thrown) =>
    match s.mQueue with
    | [] => none
    | _ :: mQueue => some { s with mQueue }

/-! ## What is asked of a run -/

/-- The key or the certificate of a payload is in a key store. -/
def CertificateStored (keys : KeyStore Cert Key) (payload : Payload R) : Prop :=
  match payload.cls with
  | .scep => ∃ privateKey certs, env.doScep payload = .issued privateKey certs ∧
      keys.lookup payload.uuid = some (.key privateKey certs)
  | .rootCert => ∃ bytes cert, payload.dict.lookup "PayloadContent" = some (.data bytes) ∧
      env.generateCertificate bytes = some cert ∧
      keys.lookup payload.uuid = some (.certificate (some cert))
  | .vpn | .unknown => True

/-- The rows of the profile are in the tables, that of a VPN payload perhaps still in the queue,
and its keys and certificates in the file of the key store. -/
structure Stored (s : Installation R Cert Key) : Prop where
  profileRow : ∃ row ∈ s.db "profiles", profileRow env profile = some row
  payloadRow : ∀ payload ∈ profile.payloads,
    ∃ row ∈ s.db "payloads", payloadRow env profile payload = some row
  vpnRow : ∀ payload ∈ profile.payloads, payload.cls = .vpn →
    ∃ row ∈ s.db "vpn_data" ++ s.mQueue, vpnRow env profile payload = some row
  certificate : ∀ payload ∈ profile.payloads, CertificateStored env s.keys.file payload

/-- The database and the key store are as they were, and no request is left that may change the
database. -/
def Untouched (db : Database SqlValue) (keys : Keys Cert Key) (s : Installation R Cert Key) :
    Prop :=
  s.db = db ∧ s.keys = keys ∧ s.mQueue = []

/-- All or nothing. -/
structure Atomic (db : Database SqlValue) (keys : Keys Cert Key) (s : Installation R Cert Key) :
    Prop where
  success : s.result = some .success → Stored env profile s
  internal : s.result = some .internal → Untouched db keys s

/-! ## What must not happen -/

/-- The row that an action inserts at once. -/
def rowOf : Action R Cert Key → Option (Table × Row SqlValue)
  | .installProfile => (profileRow env profile).map (profilesTable, ·)
  | .installPayload payload => (payloadRow env profile payload).map (payloadsTable, ·)
  | _ => none

/-- The row that an action requests. -/
def requestOf : Action R Cert Key → Option (Row SqlValue)
  | .installPayload payload => vpnRow env profile payload
  | _ => none

/-- What an action puts into the key store of the application. -/
def entryOf : Action R Cert Key → Option (String × KeyEntry Cert Key)
  | .installPrivateKey alias' privateKey chain => some (alias', .key privateKey chain)
  | .installCertificate .internal alias' certificate => some (alias', .certificate certificate)
  | _ => none

/-- The database takes the row. -/
def Takes (outcome : Outcome) (db : Database SqlValue) (t : Table) (row : Row SqlValue) : Prop :=
  outcome = .done ∧ (insert db t row).isSome

/-- An entry that is put is stored: there is a key store, and it can be written. -/
def Keeps (keys : Keys Cert Key) (e : String × KeyEntry Cert Key) : Prop :=
  ∃ entries, keys.manager = some entries ∧ env.doStore (mapPut entries e.1 e.2) = true

/-- A row is taken or there already, an entry is stored, and an exception comes only while nothing
has been changed. -/
def Met (db : Database SqlValue) (keys : Keys Cert Key) (s : Installation R Cert Key) :
    Party × Outcome → Prop
  | (.requestThread, outcome) => ∀ row queue, s.mQueue = row :: queue →
      row ∈ s.db "vpn_data" ∨ Takes outcome s.db vpnDataTable row
  | (.task, outcome) => ∀ action todo, s.todo = action :: todo →
      if outcome = .thrown ∨ keysBehind env profile s.keys action = none then
        Untouched db keys s ∧ ∀ r ∈ rowOf env profile action, ¬ Takes outcome s.db r.1 r.2
      else
        (∀ r ∈ rowOf env profile action, r.2 ∈ s.db r.1.name ∨ Takes outcome s.db r.1 r.2) ∧
          ∀ e ∈ entryOf action, Keeps env s.keys e

/-- What phase 3 must bring: each enrolment is issued, each certificate can be read, and nothing
is put under the name of something else. -/
structure Proper (actions : List (Action R Cert Key)) : Prop where
  issued : ∀ payload ∈ profile.payloads, payload.cls = .scep →
    env.doScep payload ≠ .failedOrPending
  read : ∀ payload ∈ profile.payloads, payload.cls = .rootCert →
    ∀ bytes, payload.dict.lookup "PayloadContent" = some (.data bytes) →
      (env.generateCertificate bytes).isSome
  aliases : ∀ e ∈ actions.filterMap entryOf, ∀ e' ∈ actions.filterMap entryOf,
    e.1 = e'.1 → e = e'

/-- When a profile is installed again, the database takes no row of a VPN payload, and what is
stored in the key store is what its file has. -/
def Again (s : Installation R Cert Key) : Party × Outcome → Prop
  | (.requestThread, outcome) => ∀ row queue, s.mQueue = row :: queue →
      ¬ Takes outcome s.db vpnDataTable row
  | (.task, outcome) => outcome ≠ .thrown → ∀ action todo, s.todo = action :: todo →
      ∀ e ∈ entryOf action, ∀ entries, s.keys.manager = some entries →
        env.accepts entries e.1 e.2 = true → env.doStore (mapPut entries e.1 e.2) = true →
          ∀ alias', (mapPut entries e.1 e.2).lookup alias' = s.keys.file.lookup alias'

/-- The same rows, and the same entries in the file of the key store. -/
def SameStored (s s' : Installation R Cert Key) : Prop :=
  s'.db = s.db ∧ ∀ alias', s'.keys.file.lookup alias' = s.keys.file.lookup alias'

end Task

/-! ## What a step does -/

/-- The database behind an insertion. -/
def Outcome.behind (outcome : Outcome) (db : Database SqlValue) (r : Table × Row SqlValue) :
    Database SqlValue :=
  if outcome = .done then (insert db r.1 r.2).getD db else db

section Steps

variable {env : Environment R Cert Key} {profile : ConfigurationProfile R}
  {s s' : Installation R Cert Key} {outcome : Outcome} {action : Action R Cert Key}
  {db : Database SqlValue} {r : Table × Row SqlValue}

theorem behind_eq (h : ¬ Takes outcome db r.1 r.2) : outcome.behind db r = db := by
  unfold Outcome.behind
  split
  next hdone =>
    have hnone : insert db r.1 r.2 = none :=
      Option.not_isSome_iff_eq_none.mp fun hsome => h ⟨hdone, hsome⟩
    rw [hnone]
    rfl
  next => rfl

theorem subset_behind (outcome : Outcome) (db : Database SqlValue) (r : Table × Row SqlValue)
    (name : String) : db name ⊆ outcome.behind db r name := by
  unfold Outcome.behind
  split
  next =>
    cases h : insert db r.1 r.2 with
    | none => exact List.Subset.refl _
    | some db' => exact subset_insert h name
  next => exact List.Subset.refl _

/-- A row that is taken or there already is there. -/
theorem mem_behind (h : r.2 ∈ db r.1.name ∨ Takes outcome db r.1 r.2) :
    r.2 ∈ outcome.behind db r r.1.name := by
  rcases h with h | ⟨rfl, h⟩
  · exact subset_behind outcome db r _ h
  · obtain ⟨db', hdb'⟩ := Option.isSome_iff_exists.mp h
    unfold Outcome.behind
    rw [if_pos rfl, hdb', Option.getD_some, (insert_eq_some hdb').1]
    exact List.mem_append_right _ List.mem_cons_self

variable (env profile) in
/-- The database behind an action. -/
def dbBehind (outcome : Outcome) (db : Database SqlValue) (action : Action R Cert Key) :
    Database SqlValue :=
  (rowOf env profile action).elim db (outcome.behind db)

theorem dbBehind_of_ne (h : outcome ≠ .done) : dbBehind env profile outcome db action = db := by
  unfold dbBehind Outcome.behind
  cases rowOf env profile action with
  | none => rfl
  | some r => exact if_neg h

theorem subset_dbBehind (outcome : Outcome) (db : Database SqlValue) (action : Action R Cert Key)
    (name : String) : db name ⊆ dbBehind env profile outcome db action name := by
  unfold dbBehind
  cases rowOf env profile action with
  | none => exact List.Subset.refl _
  | some r => exact subset_behind outcome db r name

theorem dbBehind_eq (h : ∀ r ∈ rowOf env profile action, ¬ Takes outcome db r.1 r.2) :
    dbBehind env profile outcome db action = db := by
  unfold dbBehind
  cases hr : rowOf env profile action with
  | none => rfl
  | some r => exact behind_eq (h r hr)

variable (env profile) in
/-- An action: it throws, perhaps behind its row, or the row, the request and the entry are
there. -/
theorem perform_eq (s : Installation R Cert Key) (action : Action R Cert Key) :
    (keysBehind env profile s.keys action = none ∧ ∃ insertions,
        perform env profile s action = { s with
          db := dbBehind env profile .done s.db action, insertions
          todo := [], result := some .internal }) ∨
      ∃ keys mActions insertions, keysBehind env profile s.keys action = some keys ∧
        perform env profile s action = { s with
          db := dbBehind env profile .done s.db action, keys, mActions, insertions
          mQueue := s.mQueue ++ (requestOf env profile action).toList } := by
  have hofKeys (haction : OfKeys action) (hrow : rowOf env profile action = none)
      (hrequest : requestOf env profile action = none) :
      (keysBehind env profile s.keys action = none ∧ ∃ insertions,
          perform env profile s action = { s with
            db := dbBehind env profile .done s.db action, insertions
            todo := [], result := some .internal }) ∨
        ∃ keys mActions insertions, keysBehind env profile s.keys action = some keys ∧
          perform env profile s action = { s with
            db := dbBehind env profile .done s.db action, keys, mActions, insertions
            mQueue := s.mQueue ++ (requestOf env profile action).toList } := by
    have hdb : dbBehind env profile .done s.db action = s.db := by
      unfold dbBehind
      rw [hrow]
      rfl
    rw [hdb, hrequest, Option.toList_none, List.append_nil]
    rcases perform_ofKeys env profile s haction with ⟨hnone, hthrown⟩ | ⟨keys, mActions, hsome, h⟩
    · exact Or.inl ⟨hnone, s.insertions, hthrown⟩
    · exact Or.inr ⟨keys, mActions, s.insertions, hsome, h⟩
  cases action with
  | installProfile =>
    obtain ⟨row, hrow⟩ := Option.isSome_iff_exists.mp (profileRow_isSome env profile)
    have hrowOf : rowOf env profile .installProfile = some (profilesTable, row) := by
      rw [rowOf, hrow]
      rfl
    have hrequest : requestOf env profile (.installProfile : Action R Cert Key) = none := rfl
    refine Or.inr ⟨s.keys, s.mActions, s.insertions ++ [⟨s.db, profilesTable, row⟩], rfl, ?_⟩
    unfold dbBehind
    rw [perform, hrow, hrowOf, hrequest, Option.toList_none, List.append_nil]
    rfl
  | installPayload payload =>
    obtain ⟨row, hrow⟩ := Option.isSome_iff_exists.mp (payloadRow_isSome env profile payload)
    have hrowOf : rowOf env profile (.installPayload payload) = some (payloadsTable, row) := by
      rw [rowOf, hrow]
      rfl
    have hperform : perform env profile s (.installPayload payload) =
        requestVpn env profile payload (s.insertRow payloadsTable row) := by
      rw [perform, hrow]
    have hdb : (s.insertRow payloadsTable row).db =
        dbBehind env profile .done s.db (.installPayload payload) := by
      unfold dbBehind
      rw [hrowOf]
      rfl
    rw [hperform, ← hdb]
    rcases requestVpn_eq env profile (s.insertRow payloadsTable row) payload s.keys with
      ⟨hnone, h⟩ | ⟨hsome, h⟩
    · exact Or.inl ⟨hnone, _, h⟩
    · exact Or.inr ⟨s.keys, s.mActions, _, hsome, h⟩
  | installPrivateKey | installCertificate => exact hofKeys trivial rfl rfl

/-- A step of the thread. -/
theorem attempt_thread (h : attempt env profile s (.requestThread, outcome) = some s') :
    ∃ row queue insertions, s.mQueue = row :: queue ∧ s' = { s with
      mQueue := queue, db := outcome.behind s.db (vpnDataTable, row), insertions } := by
  cases hqueue : s.mQueue with
  | nil => cases outcome <;> simp [attempt, step, hqueue] at h
  | cons row queue =>
    cases outcome with
    | done =>
      simp only [attempt, step, hqueue] at h
      obtain rfl := Option.some.inj h
      exact ⟨row, queue, s.insertions ++ [⟨s.db, vpnDataTable, row⟩], rfl, rfl⟩
    | refused =>
      simp only [attempt, step, hqueue] at h
      obtain rfl := Option.some.inj h
      exact ⟨row, queue, s.insertions ++ [⟨s.db, vpnDataTable, row⟩], rfl, rfl⟩
    | thrown =>
      simp only [attempt, hqueue] at h
      obtain rfl := Option.some.inj h
      exact ⟨row, queue, s.insertions, rfl, rfl⟩

/-- A step of the task: it reports a success, or it comes to the next action. -/
theorem attempt_task (h : attempt env profile s (.task, outcome) = some s') : s.result = none ∧
    (s.todo = [] ∧ s' = { s with result := some .success } ∨
      ∃ action todo, s.todo = action :: todo ∧
        ((outcome = .thrown ∨ keysBehind env profile s.keys action = none) ∧
            (∃ insertions, s' = { s with
              db := dbBehind env profile outcome s.db action, insertions
              todo := [], result := some .internal }) ∨
          ∃ keys mActions insertions, outcome ≠ .thrown ∧
            keysBehind env profile s.keys action = some keys ∧ s' = { s with
              todo, db := dbBehind env profile outcome s.db action, keys, mActions, insertions
              mQueue := s.mQueue ++ (requestOf env profile action).toList })) := by
  cases outcome with
  | done =>
    obtain ⟨hresult, ⟨htodo, rfl⟩ | ⟨action, todo, htodo, rfl⟩⟩ := step_task h
    · exact ⟨hresult, Or.inl ⟨htodo, rfl⟩⟩
    · refine ⟨hresult, Or.inr ⟨action, todo, htodo, ?_⟩⟩
      rcases perform_eq env profile { s with todo } action with
        ⟨hnone, insertions, heq⟩ | ⟨keys, mActions, insertions, hsome, heq⟩
      · exact Or.inl ⟨Or.inr hnone, insertions, heq⟩
      · exact Or.inr ⟨keys, mActions, insertions, by simp, hsome, heq⟩
  | refused =>
    obtain ⟨s₁, h₁, rfl⟩ := Option.map_eq_some_iff.mp h
    have hdb (action : Action R Cert Key) :
        dbBehind env profile .refused s.db action = s.db := dbBehind_of_ne (by simp)
    obtain ⟨hresult, ⟨htodo, rfl⟩ | ⟨action, todo, htodo, rfl⟩⟩ := step_task h₁
    · exact ⟨hresult, Or.inl ⟨htodo, rfl⟩⟩
    · refine ⟨hresult, Or.inr ⟨action, todo, htodo, ?_⟩⟩
      rcases perform_eq env profile { s with todo } action with
        ⟨hnone, insertions, heq⟩ | ⟨keys, mActions, insertions, hsome, heq⟩
      · refine Or.inl ⟨Or.inr hnone, insertions, ?_⟩
        rw [heq, hdb]
      · refine Or.inr ⟨keys, mActions, insertions, by simp, hsome, ?_⟩
        rw [heq, hdb]
  | thrown =>
    obtain ⟨hnot, hs'⟩ := Option.ite_none_left_eq_some.mp h
    obtain rfl := Option.some.inj hs'
    rw [not_or] at hnot
    refine ⟨by simpa using hnot.1, Or.inr ?_⟩
    cases htodo : s.todo with
    | nil => simp [htodo] at hnot
    | cons action todo =>
      refine ⟨action, todo, rfl, Or.inl ⟨Or.inl rfl, s.insertions, ?_⟩⟩
      rw [dbBehind_of_ne (by simp)]
      rfl

/-! ## Entries of the key store -/

/-- An entry is in the key store and in its file. -/
def Held (keys : Keys Cert Key) (e : String × KeyEntry Cert Key) : Prop :=
  (∃ entries, keys.manager = some entries ∧ entries.lookup e.1 = some e.2) ∧
    keys.file.lookup e.1 = some e.2

variable {keys keys' : Keys Cert Key} {e e' : String × KeyEntry Cert Key}

theorem keysBehind_of_entry (h : entryOf action = some e) :
    keysBehind env profile keys action = env.put keys e.1 e.2 := by
  cases action with
  | installProfile | installPayload => cases h
  | installPrivateKey =>
    obtain rfl := Option.some.inj h
    rfl
  | installCertificate manager =>
    cases manager with
    | internal =>
      obtain rfl := Option.some.inj h
      rfl
    | androidRaw => cases h

theorem keysBehind_of_none (h : entryOf action = none)
    (hkeys : keysBehind env profile keys action = some keys') : keys' = keys := by
  cases action with
  | installProfile => exact (Option.some.inj hkeys).symm
  | installPayload =>
    obtain ⟨-, hkeys⟩ := Option.ite_none_left_eq_some.mp hkeys
    exact (Option.some.inj hkeys).symm
  | installPrivateKey => cases h
  | installCertificate manager =>
    cases manager with
    | internal => cases h
    | androidRaw => exact (Option.some.inj hkeys).symm

/-- What is behind an entry that is put and stored. -/
theorem put_eq (hkeeps : Keeps env keys e) (hput : env.put keys e.1 e.2 = some keys') :
    ∃ entries, keys.manager = some entries ∧
      keys' = ⟨some (mapPut entries e.1 e.2), mapPut entries e.1 e.2⟩ := by
  obtain ⟨entries, hmanager, hstore⟩ := hkeeps
  rw [Environment.put, hmanager] at hput
  obtain ⟨-, hput⟩ := Option.ite_none_right_eq_some.mp hput
  refine ⟨entries, hmanager, ?_⟩
  rw [← Option.some.inj hput]
  exact congrArg _ (if_pos hstore)

theorem held_put (hkeeps : Keeps env keys e) (hput : env.put keys e.1 e.2 = some keys') :
    Held keys' e := by
  obtain ⟨entries, -, rfl⟩ := put_eq hkeeps hput
  have hlookup : (mapPut entries e.1 e.2).lookup e.1 = some e.2 := by
    rw [lookup_mapPut, if_pos rfl]
  exact ⟨⟨_, rfl, hlookup⟩, hlookup⟩

/-- An entry stays unless another one is put under its name. -/
theorem Held.put (hheld : Held keys e') (hkeeps : Keeps env keys e)
    (hput : env.put keys e.1 e.2 = some keys') (halias : e.1 = e'.1 → e = e') : Held keys' e' := by
  by_cases heq : e.1 = e'.1
  · rw [← halias heq]
    exact held_put hkeeps hput
  · obtain ⟨entries, hmanager, rfl⟩ := put_eq hkeeps hput
    obtain ⟨⟨entries', hmanager', hlookup'⟩, -⟩ := hheld
    obtain rfl := Option.some.inj (hmanager.symm.trans hmanager')
    have hlookup : (mapPut entries e.1 e.2).lookup e'.1 = some e'.2 := by
      rw [lookup_mapPut, if_neg (Ne.symm heq), hlookup']
    exact ⟨⟨_, rfl, hlookup⟩, hlookup⟩

/-! ## A run that meets the condition -/

variable (env profile) in
/-- What an action has brought about. -/
structure Achieved (s : Installation R Cert Key) (action : Action R Cert Key) : Prop where
  row : ∀ r ∈ rowOf env profile action, r.2 ∈ s.db r.1.name
  request : ∀ row ∈ requestOf env profile action, row ∈ s.db "vpn_data" ++ s.mQueue
  mapped : ∀ payload, action = .installPayload payload → payload.cls = .vpn →
    (vpnRow env profile payload).isSome
  entry : ∀ e ∈ entryOf action, Held s.keys e

/-- What was achieved stays with more rows, and where the entry is kept. -/
theorem Achieved.mono (h : Achieved env profile s action)
    (hdb : ∀ name, s.db name ⊆ s'.db name)
    (hqueue : ∀ row ∈ s.mQueue, row ∈ s'.db "vpn_data" ++ s'.mQueue)
    (hkeys : ∀ e ∈ entryOf action, Held s.keys e → Held s'.keys e) :
    Achieved env profile s' action where
  row r hr := hdb _ (h.row r hr)
  request row hrow := by
    rcases List.mem_append.mp (h.request row hrow) with hmem | hmem
    · exact List.mem_append_left _ (hdb _ hmem)
    · exact hqueue row hmem
  mapped := h.mapped
  entry e he := hkeys e he (h.entry e he)

variable {all todo : List (Action R Cert Key)} {db₀ : Database SqlValue} {keys₀ : Keys Cert Key}

variable (env profile all db₀ keys₀) in
/-- What every step that meets the condition keeps. -/
structure Sound (s : Installation R Cert Key) : Prop where
  actions : s.todo ⊆ all
  achieved : s.result ≠ some .internal →
    ∀ action ∈ all, action ∈ s.todo ∨ Achieved env profile s action
  ended : s.result = some .success → s.todo = []
  untouched : s.result = some .internal → Untouched db₀ keys₀ s

/-- The thread performs a request. -/
theorem Sound.request (h : Sound env profile all db₀ keys₀ s) {row : Row SqlValue}
    {queue : List (Row SqlValue)} (insertions : List Insertion) (hqueue : s.mQueue = row :: queue)
    (hmet : row ∈ s.db "vpn_data" ∨ Takes outcome s.db vpnDataTable row) :
    Sound env profile all db₀ keys₀ { s with
      mQueue := queue, db := outcome.behind s.db (vpnDataTable, row), insertions } where
  actions := h.actions
  achieved hresult action haction := by
    refine (h.achieved hresult action haction).imp_right fun hdone => ?_
    refine hdone.mono (subset_behind outcome s.db _) (fun r hr => ?_) fun _ _ => id
    rw [hqueue] at hr
    rcases List.mem_cons.mp hr with rfl | hr
    · exact List.mem_append_left _ (mem_behind (r := (vpnDataTable, r)) hmet)
    · exact List.mem_append_right _ hr
  ended := h.ended
  untouched hresult := by
    -- after an exception there are no requests
    have hempty := (h.untouched hresult).2.2
    rw [hqueue] at hempty
    cases hempty

/-- An exception while nothing has been changed. -/
theorem sound_thrown (insertions : List Insertion) (huntouched : Untouched db₀ keys₀ s)
    (hrow : ∀ r ∈ rowOf env profile action, ¬ Takes outcome s.db r.1 r.2) :
    Sound env profile all db₀ keys₀ { s with
      db := dbBehind env profile outcome s.db action, insertions
      todo := [], result := some .internal } where
  actions := List.nil_subset _
  achieved hresult := absurd rfl hresult
  ended hresult := by cases hresult
  untouched _ := ⟨(dbBehind_eq hrow).trans huntouched.1, huntouched.2⟩

/-- An entry that an action has put stays when a further action returns. -/
theorem Held.keysBehind (hheld : Held keys e')
    (hkeys : keysBehind env profile keys action = some keys')
    (hentry : ∀ e ∈ entryOf action, Keeps env keys e)
    (halias : ∀ e ∈ entryOf action, e.1 = e'.1 → e = e') : Held keys' e' := by
  cases he : entryOf action with
  | none => exact keysBehind_of_none he hkeys ▸ hheld
  | some e =>
    rw [keysBehind_of_entry he] at hkeys
    exact hheld.put (hentry e he) hkeys (halias e he)

/-- What an action that returns has brought about. -/
theorem achieved_perform (hkeys : keysBehind env profile s.keys action = some keys')
    (hrow : ∀ r ∈ rowOf env profile action, r.2 ∈ s.db r.1.name ∨ Takes outcome s.db r.1 r.2)
    (hentry : ∀ e ∈ entryOf action, Keeps env s.keys e) (mActions : List (Action R Cert Key))
    (insertions : List Insertion) :
    Achieved env profile { s with
      todo, db := dbBehind env profile outcome s.db action, keys := keys', mActions, insertions
      mQueue := s.mQueue ++ (requestOf env profile action).toList } action where
  row r hr := by
    show r.2 ∈ dbBehind env profile outcome s.db action r.1.name
    unfold dbBehind
    rw [hr]
    exact mem_behind (hrow r hr)
  request row hr :=
    List.mem_append_right _ (List.mem_append_right _ (Option.mem_toList.mpr hr))
  mapped payload hpayload hcls := by
    subst hpayload
    obtain ⟨hnot, -⟩ := Option.ite_none_left_eq_some.mp hkeys
    exact Option.isSome_iff_ne_none.mpr fun hnone => hnot ⟨hcls, by rw [hnone]; rfl⟩
  entry e he := held_put (hentry e he) ((keysBehind_of_entry he).symm.trans hkeys)

/-- An action that returns. -/
theorem Sound.perform (h : Sound env profile all db₀ keys₀ s) (hresult : s.result = none)
    (halias : ∀ e ∈ all.filterMap entryOf, ∀ e' ∈ all.filterMap entryOf, e.1 = e'.1 → e = e')
    (htodo : s.todo = action :: todo)
    (hkeys : keysBehind env profile s.keys action = some keys')
    (hrow : ∀ r ∈ rowOf env profile action, r.2 ∈ s.db r.1.name ∨ Takes outcome s.db r.1 r.2)
    (hentry : ∀ e ∈ entryOf action, Keeps env s.keys e) (mActions : List (Action R Cert Key))
    (insertions : List Insertion) :
    Sound env profile all db₀ keys₀ { s with
      todo, db := dbBehind env profile outcome s.db action, keys := keys', mActions, insertions
      mQueue := s.mQueue ++ (requestOf env profile action).toList } := by
  have hsub : action :: todo ⊆ all := htodo ▸ h.actions
  have hmem {e : String × KeyEntry Cert Key} {a : Action R Cert Key} (ha : a ∈ all)
      (he : e ∈ entryOf a) : e ∈ all.filterMap entryOf := List.mem_filterMap.mpr ⟨a, ha, he⟩
  refine ⟨fun a ha => hsub (List.mem_cons_of_mem _ ha), fun _ a ha => ?_, fun hsuccess => ?_,
    fun hinternal => ?_⟩
  · rcases h.achieved (by simp [hresult]) a ha with hleft | hdone
    · rw [htodo] at hleft
      rcases List.mem_cons.mp hleft with rfl | hleft
      · exact Or.inr (achieved_perform hkeys hrow hentry mActions insertions)
      · exact Or.inl hleft
    · refine Or.inr (hdone.mono (subset_dbBehind outcome s.db action) (fun r hr => ?_)
        fun e he hheld => ?_)
      · exact List.mem_append_right _ (List.mem_append_left _ hr)
      · exact hheld.keysBehind hkeys hentry fun e₁ he₁ =>
          halias e₁ (hmem (hsub List.mem_cons_self) he₁) e (hmem ha he)
  · cases hresult.symm.trans hsuccess
  · cases hresult.symm.trans hinternal

theorem attempt_sound {party : Party}
    (halias : ∀ e ∈ all.filterMap entryOf, ∀ e' ∈ all.filterMap entryOf, e.1 = e'.1 → e = e')
    (h : Sound env profile all db₀ keys₀ s) (hmet : Met env profile db₀ keys₀ s (party, outcome))
    (hattempt : attempt env profile s (party, outcome) = some s') :
    Sound env profile all db₀ keys₀ s' := by
  cases party with
  | requestThread =>
    obtain ⟨row, queue, insertions, hqueue, rfl⟩ := attempt_thread hattempt
    exact h.request insertions hqueue (hmet row queue hqueue)
  | task =>
    obtain ⟨hresult, ⟨htodo, rfl⟩ | ⟨action, todo, htodo, hcase⟩⟩ := attempt_task hattempt
    · refine ⟨h.actions, fun _ a ha => ?_, fun _ => htodo, fun hinternal => by cases hinternal⟩
      refine (h.achieved (by simp [hresult]) a ha).imp_right fun hdone => ?_
      exact hdone.mono (fun _ => List.Subset.refl _) (fun _ => List.mem_append_right _)
        fun _ _ => id
    · have hmet := hmet action todo htodo
      rcases hcase with ⟨hthrown, insertions, rfl⟩ |
        ⟨keys, mActions, insertions, hreturns, hkeys, rfl⟩
      · rw [if_pos hthrown] at hmet
        exact sound_thrown insertions hmet.1 hmet.2
      · rw [if_neg (by simp [hreturns, hkeys])] at hmet
        exact h.perform hresult halias htodo hkeys hmet.1 hmet.2 mActions insertions

/-! ### What a success shows -/

theorem mem_actionsOf {payload : Payload R} (hpayload : payload ∈ profile.payloads)
    (haction : action ∈ (payloadActions env payload).getD []) :
    action ∈ actionsOf env profile.payloads := List.mem_flatMap.mpr ⟨payload, hpayload, haction⟩

/-- The certificate of a payload is stored when its actions have been performed. -/
theorem certificateStored (hproper : Proper env profile all) {payload : Payload R}
    (hpayload : payload ∈ profile.payloads) {actions : List (Action R Cert Key)}
    (hactions : payloadActions env payload = some actions)
    (hachieved : ∀ action ∈ actions, Achieved env profile s action) :
    CertificateStored env s.keys.file payload := by
  unfold CertificateStored
  unfold payloadActions at hactions
  cases hcls : payload.cls with
  | scep =>
    rw [hcls] at hactions
    cases hscep : env.doScep payload with
    | thrown => simp [hscep] at hactions
    | failedOrPending => exact absurd hscep (hproper.issued payload hpayload hcls)
    | issued privateKey certs =>
      simp only [hscep, Option.some.injEq] at hactions
      subst hactions
      have hdone := hachieved (.installPrivateKey payload.uuid privateKey certs) (by simp)
      exact ⟨privateKey, certs, rfl, (hdone.entry _ rfl).2⟩
  | rootCert =>
    rw [hcls] at hactions
    dsimp only at hactions
    split at hactions
    next bytes hbytes =>
      obtain ⟨cert, hcert⟩ :=
        Option.isSome_iff_exists.mp (hproper.read payload hpayload hcls bytes hbytes)
      obtain rfl := Option.some.inj hactions
      have hdone := hachieved (.installCertificate .internal payload.uuid
        (env.generateCertificate bytes)) (by simp)
      refine ⟨bytes, cert, hbytes, hcert, ?_⟩
      rw [← hcert]
      exact (hdone.entry _ rfl).2
    next => cases hactions
  | vpn | unknown => trivial

/-- With a success all actions have been performed. -/
theorem Sound.stored (h : Sound env profile all db₀ keys₀ s) (hall : collect env profile = some all)
    (hproper : Proper env profile all) (hsuccess : s.result = some .success) :
    Stored env profile s := by
  obtain ⟨hcollect, hsome⟩ := collect_eq hall
  have hachieved : ∀ action ∈ all, Achieved env profile s action := by
    intro action haction
    refine (h.achieved (by simp [hsuccess]) action haction).resolve_left fun hmem => ?_
    rw [h.ended hsuccess] at hmem
    cases hmem
  have hpayload : ∀ payload ∈ profile.payloads, ∃ actions, payloadActions env payload = some actions ∧
      .installPayload payload ∈ actions ∧ ∀ action ∈ actions, Achieved env profile s action := by
    intro payload hpayload
    obtain ⟨actions, hactions⟩ := Option.isSome_iff_exists.mp (hsome payload hpayload)
    obtain ⟨keys, rfl, -⟩ := payloadActions_eq hactions
    refine ⟨_, hactions, List.mem_cons_self, fun action haction => hachieved action ?_⟩
    rw [hcollect]
    refine List.mem_cons_of_mem _ (mem_actionsOf hpayload ?_)
    rw [hactions]
    exact haction
  refine ⟨?_, fun payload hp => ?_, fun payload hp hcls => ?_, fun payload hp => ?_⟩
  · obtain ⟨row, hrow⟩ := Option.isSome_iff_exists.mp (profileRow_isSome env profile)
    have hdone := hachieved .installProfile (hcollect ▸ List.mem_cons_self)
    exact ⟨row, hdone.row (profilesTable, row) (by rw [rowOf, hrow]; rfl), hrow⟩
  · obtain ⟨row, hrow⟩ := Option.isSome_iff_exists.mp (payloadRow_isSome env profile payload)
    obtain ⟨actions, -, hmem, hdone⟩ := hpayload payload hp
    exact ⟨row, (hdone _ hmem).row (payloadsTable, row) (by rw [rowOf, hrow]; rfl), hrow⟩
  · obtain ⟨actions, -, hmem, hdone⟩ := hpayload payload hp
    obtain ⟨row, hrow⟩ := Option.isSome_iff_exists.mp ((hdone _ hmem).mapped payload rfl hcls)
    exact ⟨row, (hdone _ hmem).request row hrow, hrow⟩
  · obtain ⟨actions, hactions, -, hdone⟩ := hpayload payload hp
    exact certificateStored hproper hp hactions hdone

theorem Sound.atomic (h : Sound env profile all db₀ keys₀ s) (hall : collect env profile = some all)
    (hproper : Proper env profile all) : Atomic env profile db₀ keys₀ s :=
  ⟨h.stored hall hproper, h.untouched⟩

theorem sound_start (hall : collect env profile = some all) :
    Sound env profile all db₀ keys₀ (start env profile db₀ keys₀) := by
  rw [start, hall]
  exact ⟨List.Subset.refl _, fun _ action haction => Or.inl haction, (by simp), (by simp)⟩

/-! ## A profile that is installed again -/

/-- The primary keys of the rows that an installation inserts are there. -/
structure KeysThere (profile : ConfigurationProfile R) (db : Database SqlValue) : Prop where
  identifier : ∃ row ∈ db "profiles", value row "id" = some (.text profile.identifier)
  uuids : ∀ payload ∈ profile.payloads,
    ∃ row ∈ db "payloads", value row "payload_uuid" = some (.text payload.uuid)

theorem Stored.keysThere (h : Stored env profile s) : KeysThere profile s.db where
  identifier := by
    obtain ⟨row, hmem, hrow⟩ := h.profileRow
    exact ⟨row, hmem, (profileRow_spec s.db hrow).2.2.2⟩
  uuids payload hpayload := by
    obtain ⟨row, hmem, hrow⟩ := h.payloadRow payload hpayload
    exact ⟨row, hmem, (payloadRow_spec s.db hrow).2.2.2⟩

/-- No row is taken with a key that is there. -/
theorem not_takes_of_key {key : String} {v : SqlValue} (hkey : r.1.primaryKey = some key)
    (hvalue : value r.2 key = some v) (hthere : ∃ row ∈ db r.1.name, value row key = some v) :
    ¬ Takes outcome db r.1 r.2 := by
  rintro ⟨-, hinsert⟩
  obtain ⟨row, hmem, hrow⟩ := hthere
  exact (insert_isSome.mp hinsert).2.2.2 key hkey v hvalue row hmem hrow

theorem mem_payloads (hall : collect env profile = some all) {payload : Payload R}
    (hmem : .installPayload payload ∈ all) : payload ∈ profile.payloads := by
  obtain ⟨hcollect, hsome⟩ := collect_eq hall
  rw [← installed_actionsOf hsome, ← installed_installProfile (actionsOf env profile.payloads),
    ← hcollect]
  exact List.mem_filterMap.mpr ⟨_, hmem, rfl⟩

theorem KeysThere.not_takes (h : KeysThere profile db) (hall : collect env profile = some all)
    (haction : action ∈ all) : ∀ r ∈ rowOf env profile action, ¬ Takes outcome db r.1 r.2 := by
  intro r hr
  cases action with
  | installProfile =>
    obtain ⟨row, hrow, rfl⟩ := Option.map_eq_some_iff.mp hr
    exact not_takes_of_key (r := (profilesTable, row)) rfl (profileRow_spec db hrow).2.2.2
      h.identifier
  | installPayload payload =>
    obtain ⟨row, hrow, rfl⟩ := Option.map_eq_some_iff.mp hr
    exact not_takes_of_key (r := (payloadsTable, row)) rfl (payloadRow_spec db hrow).2.2.2
      (h.uuids payload (mem_payloads hall haction))
  | installPrivateKey | installCertificate => cases hr

/-- What is put again leaves the entries of the file. -/
theorem file_of_again (hagain : ∀ e ∈ entryOf action, ∀ entries, keys.manager = some entries →
      env.accepts entries e.1 e.2 = true → env.doStore (mapPut entries e.1 e.2) = true →
        ∀ alias', (mapPut entries e.1 e.2).lookup alias' = keys.file.lookup alias')
    (hkeys : keysBehind env profile keys action = some keys') (alias' : String) :
    keys'.file.lookup alias' = keys.file.lookup alias' := by
  cases he : entryOf action with
  | none => rw [keysBehind_of_none he hkeys]
  | some e =>
    rw [keysBehind_of_entry he, Environment.put] at hkeys
    cases hmanager : keys.manager with
    | none =>
      rw [hmanager] at hkeys
      rw [← Option.some.inj hkeys]
    | some entries =>
      rw [hmanager] at hkeys
      obtain ⟨haccepts, hkeys⟩ := Option.ite_none_right_eq_some.mp hkeys
      rw [← Option.some.inj hkeys]
      split_ifs with hstore
      · exact hagain e he entries hmanager haccepts hstore alias'
      · rfl

variable {s₀ : Installation R Cert Key}

theorem attempt_again {party : Party} (hthere : KeysThere profile s₀.db)
    (hall : collect env profile = some all) (hsame : SameStored s₀ s) (hsub : s.todo ⊆ all)
    (hagain : Again env s (party, outcome))
    (hattempt : attempt env profile s (party, outcome) = some s') :
    SameStored s₀ s' ∧ s'.todo ⊆ all := by
  obtain ⟨hdb, hfile⟩ := hsame
  cases party with
  | requestThread =>
    obtain ⟨row, queue, insertions, hqueue, rfl⟩ := attempt_thread hattempt
    exact ⟨⟨(behind_eq (r := (vpnDataTable, row)) (hagain row queue hqueue)).trans hdb, hfile⟩, hsub⟩
  | task =>
    obtain ⟨-, ⟨-, rfl⟩ | ⟨action, todo, htodo, hcase⟩⟩ := attempt_task hattempt
    · exact ⟨⟨hdb, hfile⟩, hsub⟩
    · have haction : action ∈ all := hsub (htodo ▸ List.mem_cons_self)
      have hbehind : dbBehind env profile outcome s.db action = s₀.db :=
        (dbBehind_eq (hdb ▸ hthere.not_takes hall haction)).trans hdb
      rcases hcase with ⟨-, insertions, rfl⟩ | ⟨keys, mActions, insertions, hreturns, hkeys, rfl⟩
      · exact ⟨⟨hbehind, hfile⟩, List.nil_subset _⟩
      · refine ⟨⟨hbehind, fun alias' => ?_⟩, fun a ha => hsub (htodo ▸ List.mem_cons_of_mem _ ha)⟩
        exact (file_of_again (hagain hreturns action todo htodo) hkeys alias').trans (hfile alias')

end Steps

/-! ## Both together -/

section Main

variable {env : Environment R Cert Key} {profile : ConfigurationProfile R}

/-- Where phase 3 has thrown there is no step. -/
theorem attempt_start_thrown {db : Database SqlValue} {keys : Keys Cert Key}
    (hall : collect env profile = none) (e : Party × Outcome) :
    attempt env profile (start env profile db keys) e = none := by
  rw [start, hall]
  obtain ⟨_ | _, _ | _ | _⟩ := e <;> rfl

theorem along_start_thrown {db : Database SqlValue} {keys : Keys Cert Key}
    {q : Installation R Cert Key → Party × Outcome → Installation R Cert Key → Prop}
    (hall : collect env profile = none) (events : List (Party × Outcome)) :
    Along (attempt env profile) q (start env profile db keys) events := by
  cases events with
  | nil => trivial
  | cons e events =>
    intro s' hs'
    rw [attempt_start_thrown hall] at hs'
    cases hs'

theorem atomic_start_thrown {db : Database SqlValue} {keys : Keys Cert Key}
    (hall : collect env profile = none) :
    Atomic env profile db keys (start env profile db keys) := by
  rw [start, hall]
  exact ⟨fun h => (by cases h), fun _ => ⟨rfl, rfl, rfl⟩⟩

/-- **All or nothing, and once**: a run whose steps meet the condition is atomic in each of its
states. When the profile has been installed so, to install it again changes nothing stored as
long as no row of a VPN payload is taken and nothing else is put into the key store. -/
theorem installs_along (env : Environment R Cert Key) (profile : ConfigurationProfile R)
    (db : Database SqlValue) (keys : Keys Cert Key) (events : List (Party × Outcome))
    (hproper : ∀ all, collect env profile = some all → Proper env profile all)
    (hmet : Along (attempt env profile) (fun s e _ => Met env profile db keys s e)
      (start env profile db keys) events) :
    (Atomic env profile db keys (start env profile db keys) ∧
      Along (attempt env profile) (fun _ _ s' => Atomic env profile db keys s')
        (start env profile db keys) events) ∧
    ∀ s, run (attempt env profile) (start env profile db keys) events = some s →
      s.result = some .success → s.mQueue = [] →
      ∀ (env' : Environment R Cert Key) (events' : List (Party × Outcome)),
        Along (attempt env' profile) (fun s' e _ => Again env' s' e)
          (start env' profile s.db s.keys) events' →
        Along (attempt env' profile) (fun _ _ s' => SameStored s s')
          (start env' profile s.db s.keys) events' := by
  cases hall : collect env profile with
  | none =>
    refine ⟨⟨atomic_start_thrown hall, along_start_thrown hall events⟩, fun s hrun hsuccess => ?_⟩
    have hthrown : s.result = some .internal := by
      cases events with
      | nil =>
        obtain rfl := Option.some.inj hrun
        rw [start, hall]
        rfl
      | cons e events =>
        rw [run, attempt_start_thrown hall] at hrun
        cases hrun
    cases hsuccess.symm.trans hthrown
  | some all =>
    have hp := hproper all hall
    have hkept : ∀ s e s', Sound env profile all db keys s → Met env profile db keys s e →
        attempt env profile s e = some s' → Sound env profile all db keys s' :=
      fun _ _ _ h hm => attempt_sound hp.aliases h hm
    have hsound := along_of_cond hkept events (sound_start hall) hmet
    refine ⟨⟨(sound_start hall).atomic hall hp, along_mono (fun _ _ _ h => h.atomic hall hp) events
      hsound⟩, fun s hrun hsuccess _ env' events' hagain => ?_⟩
    have hs := inv_run_along (fun s e s' h hm hstep => hkept s e s' h hm hstep) events
      (sound_start hall) hmet hrun
    have hthere := (hs.stored hall hp hsuccess).keysThere
    cases hall' : collect env' profile with
    | none => exact along_start_thrown hall' events'
    | some all' =>
      refine along_mono (fun _ _ _ h => h.1) events' (along_of_cond
        (P := fun s' => SameStored s s' ∧ s'.todo ⊆ all')
        (fun _ _ _ h ha hstep => attempt_again hthere hall' h.1 h.2 ha hstep) events' ?_ hagain)
      rw [start, hall']
      exact ⟨⟨rfl, fun _ => rfl⟩, List.Subset.refl _⟩

/-- A step of the task that nothing goes wrong in. -/
theorem met_task {db : Database SqlValue} {keys keys' : Keys Cert Key}
    {s : Installation R Cert Key} {action : Action R Cert Key} {todo : List (Action R Cert Key)}
    (htodo : s.todo = action :: todo)
    (hkeys : keysBehind env profile s.keys action = some keys')
    (hrow : ∀ r ∈ rowOf env profile action, Takes .done s.db r.1 r.2)
    (hentry : ∀ e ∈ entryOf action, Keeps env s.keys e) :
    Met env profile db keys s (.task, .done) := by
  intro action' todo' htodo'
  obtain ⟨rfl, rfl⟩ := List.cons.inj (htodo.symm.trans htodo')
  rw [if_neg (by simp [hkeys])]
  exact ⟨fun r hr => Or.inr (hrow r hr), hentry⟩

end Main

/-! ### An office with a certificate -/

def rootPayload : Payload Bool where
  dict := [("PayloadIdentifier", .string "example.root"), ("PayloadUUID", .string "C1"),
    ("PayloadType", .string "com.apple.security.root"), ("PayloadVersion", .integer 1),
    ("PayloadContent", .data [])]
  typed := by simp [Obj.Typed, Obj.TypedEntries]
  accepted := rfl

def officeProfile : ConfigurationProfile Bool where
  plist := [("PayloadIdentifier", .string "example"), ("PayloadUUID", .string "P1"),
    ("PayloadType", .string "Configuration"), ("PayloadVersion", .integer 1),
    ("PayloadDisplayName", .string "Example"),
    ("PayloadContent", .array [.dictionary vpnPayload.dict, .dictionary rootPayload.dict])]
  typed := by simp [Obj.Typed, Obj.TypedEntries, Obj.TypedItems, vpnPayload, rootPayload]
  accepted := rfl
  payloads := [vpnPayload, rootPayload]
  content := rfl

/-- Every certificate can be read. -/
def officeEnvironment : Environment Bool Unit Unit :=
  { plainEnvironment with generateCertificate := fun _ => some () }

/-- The key store takes nothing. -/
def refusingEnvironment : Environment Bool Unit Unit :=
  { officeEnvironment with accepts := fun _ _ _ => false }

/-- The file of the key store cannot be written. -/
def unwritableEnvironment : Environment Bool Unit Unit :=
  { officeEnvironment with doStore := fun _ => false }

/-- The five actions, the report, and the request. -/
def officeEvents : List (Party × Outcome) :=
  [(.task, .done), (.task, .done), (.task, .done), (.task, .done), (.task, .done), (.task, .done),
    (.requestThread, .done)]

theorem office_proper : ∀ all, collect officeEnvironment officeProfile = some all →
    Proper officeEnvironment officeProfile all := by
  intro all hall
  obtain rfl := Option.some.inj hall
  refine ⟨?_, fun _ _ _ _ _ => rfl, ?_⟩
  · intro payload hpayload hcls
    rcases List.mem_cons.mp hpayload with rfl | hpayload
    · cases hcls
    · obtain rfl := List.mem_singleton.mp hpayload
      cases hcls
  · intro e he e' he' _
    exact (List.mem_singleton.mp he).trans (List.mem_singleton.mp he').symm

theorem installs_along_example :
    Atomic officeEnvironment officeProfile empty ⟨some [], []⟩
        (start officeEnvironment officeProfile empty ⟨some [], []⟩) ∧
      Along (attempt officeEnvironment officeProfile)
        (fun _ _ s' => Atomic officeEnvironment officeProfile empty ⟨some [], []⟩ s')
        (start officeEnvironment officeProfile empty ⟨some [], []⟩) officeEvents := by
  refine (installs_along officeEnvironment officeProfile empty ⟨some [], []⟩ officeEvents
    office_proper ?_).1
  have hone {α : Type} {p : α → Prop} {x : α} (h : p x) : ∀ r ∈ some x, p r := by
    rintro r hr
    exact Option.some.inj hr ▸ h
  have hnone {α : Type} {p : α → Prop} : ∀ r ∈ (none : Option α), p r := fun r hr => nomatch hr
  refine along_cons rfl (met_task rfl rfl (hone ⟨rfl, rfl⟩) hnone)
    (along_cons rfl (met_task rfl rfl (hone ⟨rfl, rfl⟩) hnone)
    (along_cons rfl (met_task rfl rfl (hone ⟨rfl, rfl⟩) hnone)
    (along_cons rfl (met_task rfl rfl hnone hnone)
    (along_cons rfl (met_task rfl rfl hnone (hone ⟨[], rfl, rfl⟩))
    (along_cons rfl ?_ (along_cons rfl ?_ trivial))))))
  · intro action todo htodo
    cases htodo
  · intro row queue hqueue
    obtain rfl := (List.cons.inj hqueue).1
    exact Or.inr ⟨rfl, rfl⟩

theorem office_counterexample :
    -- the certificate is refused when the rows have been inserted
    (∃ s, run (attempt refusingEnvironment officeProfile)
        (start refusingEnvironment officeProfile empty ⟨some [], []⟩) (officeEvents.take 5) = some s ∧
      s.result = some .internal ∧ s.db "profiles" ≠ [] ∧ s.db "payloads" ≠ []) ∧
    -- a success, and no certificate
    (∃ s, run (attempt unwritableEnvironment officeProfile)
        (start unwritableEnvironment officeProfile empty ⟨some [], []⟩) officeEvents = some s ∧
      s.result = some .success ∧ s.mQueue = [] ∧ s.keys.file = []) ∧
    -- nothing goes wrong, twice
    ∃ s s', run (attempt officeEnvironment officeProfile)
        (start officeEnvironment officeProfile empty ⟨some [], []⟩) officeEvents = some s ∧
      run (attempt officeEnvironment officeProfile)
        (start officeEnvironment officeProfile s.db s.keys) officeEvents = some s' ∧
      s.result = some .success ∧ s'.result = some .success ∧
      (s.db "vpn_data").length = 1 ∧ (s'.db "vpn_data").length = 2 := by
  refine ⟨⟨_, rfl, rfl, ?_, ?_⟩, ⟨_, rfl, rfl, rfl, rfl⟩, ⟨_, _, rfl, rfl, rfl, rfl, rfl, rfl⟩⟩
  · exact List.cons_ne_nil _ _
  · exact List.cons_ne_nil _ _

end ConfProfile.Install
