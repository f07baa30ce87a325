import ConfProfile.Vpn.Manager

/-!
# Activating a tunnel (`activateVpnTunnel`)

Three things go wrong with a request. A uuid without a profile makes the log
line behind the failed factory call throw. A request for the last tunnel, made
before the service is started, is a null in the slot for pending requests, where
null says that there is none. And a tunnel that is already current counts as
activated, whatever its status is.

`activation_iff` and `serves_iff` say for which requests this does not happen.
-/

namespace ConfProfile

open Run

namespace Manager

variable {m m' : Manager} {uuid : Option Uuid} {ran : ConnectionStatus}

/-! ## One request to a started service -/

/-- The data found is that of the uuid. -/
theorem getTunnelData_uuid {id : Uuid} {vpnData : VpnDataEx}
    (h : m.getTunnelData (some id) = some vpnData) : vpnData.payloadUuid = id := by
  have hfound := List.find?_some h
  simpa using hfound

@[simp] theorem getTunnelData_pending (m : Manager) (pending uuid : Option Uuid) :
    Manager.getTunnelData { m with pendingVpnTunnelUuid := pending } uuid = m.getTunnelData uuid :=
  rfl

/-- Only the uuid of the current tunnel is looked at. -/
theorem isActivated_congr (h : m'.currentTunnel.map (·.tunnelId) = m.currentTunnel.map (·.tunnelId))
    (uuid : Option Uuid) : m'.isActivated uuid = m.isActivated uuid := by
  cases uuid with
  | none => rfl
  | some id =>
    have hany : ∀ cur : Option ManagedTunnel, (cur.any fun tun => tun.tunnelId = id) =
        (cur.map (·.tunnelId)).any fun t => t = id := fun cur => by cases cur <;> rfl
    rw [isActivated, isActivated, hany, hany, h]

theorem activateVpnTunnel_activated (uuid : Option Uuid) (ran : ConnectionStatus)
    (hs : m.vpnServiceState = .started)
    (ha : m.isActivated (uuid.or m.lastVpnTunnelUuid)) :
    m.activateVpnTunnel uuid ran = .ok { m with pendingVpnTunnelUuid := none } := by
  rw [activateVpnTunnel, if_neg (not_not.mpr hs)]
  exact if_pos ha

theorem activateVpnTunnel_unknown (uuid : Option Uuid) (ran : ConnectionStatus)
    (hs : m.vpnServiceState = .started)
    (ha : ¬ m.isActivated (uuid.or m.lastVpnTunnelUuid))
    (hdata : m.getTunnelData (uuid.or m.lastVpnTunnelUuid) = none) :
    m.activateVpnTunnel uuid ran = .error { m with pendingVpnTunnelUuid := none } := by
  rw [activateVpnTunnel, if_neg (not_not.mpr hs)]
  refine (if_neg ha).trans ?_
  simp only [getTunnelData_pending, hdata]

theorem activateVpnTunnel_unsupported (uuid : Option Uuid) (ran : ConnectionStatus)
    {vpnData : VpnDataEx} (hs : m.vpnServiceState = .started)
    (ha : ¬ m.isActivated (uuid.or m.lastVpnTunnelUuid))
    (hdata : m.getTunnelData (uuid.or m.lastVpnTunnelUuid) = some vpnData)
    (htun : getTunnel m.routerLoop vpnData = none) :
    m.activateVpnTunnel uuid ran = .ok { m with pendingVpnTunnelUuid := none } := by
  rw [activateVpnTunnel, if_neg (not_not.mpr hs)]
  refine (if_neg ha).trans ?_
  simp only [getTunnelData_pending, hdata, htun]

/-- A new tunnel replaces the current one, which is terminated without an exception. -/
theorem activateVpnTunnel_new (uuid : Option Uuid) (ran : ConnectionStatus)
    {vpnData : VpnDataEx} {tun : ManagedTunnel}
    (hs : m.vpnServiceState = .started) (hconfig : m.currLocalNetConfig = true)
    (ha : ¬ m.isActivated (uuid.or m.lastVpnTunnelUuid))
    (hdata : m.getTunnelData (uuid.or m.lastVpnTunnelUuid) = some vpnData)
    (htun : getTunnel m.routerLoop vpnData = some tun) :
    ∃ last, m.activateVpnTunnel uuid ran = .ok { m with
      pendingVpnTunnelUuid := none
      lastVpnTunnelUuid := last
      currentTunnel := some ({ tun with vpnTunnelCtx := true }.setConnectionStatus ran)
      established := m.established ++ [tun.tunnelId] } := by
  obtain ⟨last, hlast⟩ := establish_eq { m with pendingVpnTunnelUuid := none } tun ran
  obtain ⟨last', hlast'⟩ := terminateOld_eq (m := { m with
    pendingVpnTunnelUuid := none
    lastVpnTunnelUuid := last
    currentTunnel := some ({ tun with vpnTunnelCtx := true }.setConnectionStatus ran)
    established := m.established ++ [tun.tunnelId] })
    (getTunnel_eq_some.mp htun).1 m.currentTunnel
  refine ⟨last', ?_⟩
  rw [activateVpnTunnel, if_neg (not_not.mpr hs)]
  refine (if_neg ha).trans ?_
  simp only [getTunnelData_pending, hdata, htun, hlast, if_pos hconfig]
  exact hlast'

/-- A tunnel can be created for the uuid. -/
def CanCreate (m : Manager) (uuid : Option Uuid) : Prop :=
  ∃ vpnData tun, m.getTunnelData (uuid.or m.lastVpnTunnelUuid) = some vpnData ∧
    getTunnel m.routerLoop vpnData = some tun

/-- The call returns, and does nothing to the current tunnel where none can be created. -/
def Harmless (m : Manager) (uuid : Option Uuid) (ran : ConnectionStatus) : Prop :=
  ∃ m', m.activateVpnTunnel uuid ran = .ok m' ∧
    (¬ m.CanCreate uuid → m'.currentTunnel = m.currentTunnel)

theorem harmless_iff (hm : Coupled m) : m.Harmless uuid ran ↔
    m.vpnServiceState ≠ .started ∨ m.isActivated (uuid.or m.lastVpnTunnelUuid) ∨
      (m.getTunnelData (uuid.or m.lastVpnTunnelUuid)).isSome := by
  by_cases hs : m.vpnServiceState = .started
  swap
  · refine iff_of_true ⟨{ m with pendingVpnTunnelUuid := uuid }, ?_, fun _ => rfl⟩ (Or.inl hs)
    exact if_pos hs
  by_cases ha : m.isActivated (uuid.or m.lastVpnTunnelUuid)
  · exact iff_of_true ⟨_, activateVpnTunnel_activated uuid ran hs ha, fun _ => rfl⟩
      (Or.inr (Or.inl ha))
  cases hdata : m.getTunnelData (uuid.or m.lastVpnTunnelUuid) with
  | none =>
    refine iff_of_false ?_ (by simp [hs, ha])
    rintro ⟨m', h, -⟩
    rw [activateVpnTunnel_unknown uuid ran hs ha hdata] at h
    cases h
  | some vpnData =>
    refine iff_of_true ?_ (Or.inr (Or.inr rfl))
    cases htun : getTunnel m.routerLoop vpnData with
    | none => exact ⟨_, activateVpnTunnel_unsupported uuid ran hs ha hdata htun, fun _ => rfl⟩
    | some tun =>
      obtain ⟨last, h⟩ := activateVpnTunnel_new uuid ran hs (hm.config hs) ha hdata htun
      exact ⟨_, h, fun hno => absurd ⟨vpnData, tun, hdata, htun⟩ hno⟩

/-- A tunnel is made for `id`, once, and no request is pending. -/
def CarriesOut (m m' : Manager) (id : Uuid) : Prop :=
  m'.established = m.established ++ [id] ∧ m'.pendingVpnTunnelUuid = none

/-- A new tunnel can be made for `id`: its profile is known and has a type of the
factory, and it is not the uuid of the tunnel that is there. -/
def Startable (m : Manager) (id : Uuid) : Prop :=
  ¬ m.isActivated (some id) ∧ ∃ vpnData, m.getTunnelData (some id) = some vpnData ∧
    (tunnelKind? vpnData.vpnType).isSome

theorem not_carriesOut {id : Uuid} (h : m'.established = m.established) : ¬ CarriesOut m m' id := by
  rintro ⟨hest, -⟩
  rw [h] at hest
  simp at hest

/-- Which requests make a new tunnel. -/
theorem activateVpnTunnel_carriesOut {asked id : Uuid} (hs : m.vpnServiceState = .started)
    (hconfig : m.currLocalNetConfig = true) (hrouter : m.routerLoop = true) :
    (∃ m', m.activateVpnTunnel (some asked) ran = .ok m' ∧ CarriesOut m m' id) ↔
      asked = id ∧ Startable m id := by
  by_cases ha : m.isActivated (some asked)
  · refine iff_of_false ?_ ?_
    · rintro ⟨m', h, hcarries⟩
      rw [activateVpnTunnel_activated (some asked) ran hs ha] at h
      cases h
      exact not_carriesOut rfl hcarries
    · rintro ⟨rfl, hnew, -⟩
      exact hnew ha
  cases hdata : m.getTunnelData (some asked) with
  | none =>
    refine iff_of_false ?_ ?_
    · rintro ⟨m', h, -⟩
      rw [activateVpnTunnel_unknown (some asked) ran hs ha hdata] at h
      cases h
    · rintro ⟨rfl, -, vpnData, hdata', -⟩
      rw [hdata] at hdata'
      cases hdata'
  | some vpnData =>
    cases hkind : tunnelKind? vpnData.vpnType with
    | none =>
      have htun : getTunnel m.routerLoop vpnData = none := by rw [getTunnel, hkind]; rfl
      refine iff_of_false ?_ ?_
      · rintro ⟨m', h, hcarries⟩
        rw [activateVpnTunnel_unsupported (some asked) ran hs ha hdata htun] at h
        cases h
        exact not_carriesOut rfl hcarries
      · rintro ⟨rfl, -, vpnData', hdata', hkind'⟩
        obtain rfl := Option.some.inj (hdata.symm.trans hdata')
        rw [hkind] at hkind'
        cases hkind'
    | some kind =>
      have htun := getTunnel_eq_some.mpr ⟨hrouter, kind, hkind, rfl⟩
      obtain ⟨last, h⟩ :=
        activateVpnTunnel_new (some asked) ran hs hconfig ha hdata htun
      rw [h]
      refine ⟨?_, ?_⟩
      · rintro ⟨m', h', hest, -⟩
        cases h'
        obtain rfl : vpnData.payloadUuid = id := by simpa using hest
        obtain rfl := getTunnelData_uuid hdata
        exact ⟨rfl, ha, vpnData, hdata, by rw [hkind]; rfl⟩
      · rintro ⟨rfl, -⟩
        refine ⟨_, rfl, ?_, rfl⟩
        exact congrArg (fun t => m.established ++ [t]) (getTunnelData_uuid hdata)

/-! ## A request made before the service is started -/

/-- The uuid that the on-demand rules ask for, where they are enabled. -/
def onDemand (m : Manager) (net : NetworkMatch) : Option Uuid :=
  if m.onDemandEnabled then m.selected net else none

/-- The event neither starts the service nor calls `activateVpnTunnel`. -/
def Quiet (m : Manager) : ManagerAct → Prop
  | .startCommand .notifyVpnServiceStarted _ _ _ | .activate _ _ => False
  | .configChanged uuid _ => uuid = none ∨ m.isActivated uuid
  | .network net _ => m.onDemand net = none ∨ m.isActivated (m.onDemand net)
  | .profiles result net _ =>
    let m' := { m with configInfo := result.reverse }
    m'.onDemand net = none ∨ m'.isActivated (m'.onDemand net)
  | _ => True

/-- The state while a request waits for the service. -/
structure Waiting (pending : Option Uuid) (established : List Uuid) (m : Manager) : Prop where
  coupled : Coupled m
  state : m.vpnServiceState ≠ .started
  pending : m.pendingVpnTunnelUuid = pending
  established : m.established = established

theorem onCurrentConfigChanged_quiet (ran : ConnectionStatus)
    (hq : uuid = none ∨ m.isActivated uuid) :
    m.onCurrentConfigChanged uuid ran = .ok m := by
  cases uuid with
  | none => rfl
  | some id => exact if_pos (hq.resolve_left nofun)

theorem updateCurrentConfiguration_quiet (ran : ConnectionStatus) {net : NetworkMatch}
    (hq : m.onDemand net = none ∨ m.isActivated (m.onDemand net)) :
    ∃ current, m.updateCurrentConfiguration net ran = .ok { m with currentUuid := current } := by
  unfold updateCurrentConfiguration
  cases hsel : m.selected net with
  | none => exact ⟨m.currentUuid, rfl⟩
  | some id =>
    refine ⟨some id, ?_⟩
    by_cases hen : m.onDemandEnabled
    · rw [onDemand, if_pos hen, hsel] at hq
      have hactivated : m.isActivated (some id) := hq.resolve_left nofun
      exact (if_pos hen).trans (if_pos hactivated)
    · exact if_neg hen

/-- A quiet event leaves a waiting request. -/
theorem managerStep_waiting {pending : Option Uuid} {established : List Uuid} {a : ManagerAct}
    (hm : Waiting pending established m) (hq : m.Quiet a) (h : managerStep m a = some m') :
    Waiting pending established m' := by
  have hcoupled : Coupled m' := (managerStep_ready hm.coupled h).1
  have hrevoked : m.notifyVpnServiceRevoked.toOption = some m' →
      Waiting pending established m' := by
    intro hrev
    obtain ⟨last, hlast⟩ := notifyVpnServiceRevoked_eq hm.coupled
    rw [hlast] at hrev
    cases hrev
    exact ⟨hcoupled, nofun, hm.pending, hm.established⟩
  have hreport : ∀ {m₁ : Manager}, m₁.notifyTunnelStateChanged = m' →
      m₁.vpnServiceState = m.vpnServiceState →
      m₁.pendingVpnTunnelUuid = m.pendingVpnTunnelUuid → m₁.established = m.established →
      Waiting pending established m' := by
    intro m₁ hm' hs hp he
    obtain ⟨last, hlast⟩ := notifyTunnelStateChanged_eq m₁
    rw [hlast] at hm'
    subst hm'
    exact ⟨hcoupled, fun h => hm.state (hs ▸ h), hp.trans hm.pending, he.trans hm.established⟩
  cases a with
  | startCommand action bound net ran =>
    cases action with
    | notifyVpnServiceStarted => exact hq.elim
    | notifyVpnServiceRevoked => exact hrevoked h
    | terminateVpnService =>
      cases h
      exact hm
  | activate uuid ran => exact hq.elim
  | revoked => exact hrevoked h
  | lockedBySystem =>
    cases h
    exact ⟨hcoupled, nofun, hm.pending, hm.established⟩
  | unsupported =>
    cases h
    exact ⟨hcoupled, nofun, hm.pending, hm.established⟩
  | stop =>
    rw [managerStep, stopVpnService, if_neg hm.state] at h
    cases h
    exact hm
  | deactivate =>
    obtain ⟨last, hdeact⟩ := deactivateVpnTunnel_eq hm.coupled
    rw [managerStep, hdeact] at h
    cases h
    exact ⟨hcoupled, hm.state, hm.pending, hm.established⟩
  | configChanged uuid ran =>
    rw [managerStep, onCurrentConfigChanged_quiet ran hq] at h
    cases h
    exact hm
  | network net ran =>
    obtain ⟨current, hquiet⟩ := updateCurrentConfiguration_quiet ran hq
    rw [managerStep, hquiet] at h
    cases h
    exact ⟨hcoupled, hm.state, hm.pending, hm.established⟩
  | profiles result net ran =>
    obtain ⟨current, hquiet⟩ := updateCurrentConfiguration_quiet ran hq
    rw [managerStep, hquiet] at h
    cases h
    exact ⟨hcoupled, hm.state, hm.pending, hm.established⟩
  | tunnelStatus status => exact hreport (Option.some.inj h) rfl rfl rfl
  | usernatStatus status => exact hreport (Option.some.inj h) rfl rfl rfl

/-- A request waits as long as the events are quiet. -/
theorem run_waiting {pending : Option Uuid} {established : List Uuid} (acts : List ManagerAct)
    (hm : Waiting pending established m) (hq : Guarded managerStep Quiet m acts)
    (hrun : run managerStep m acts = some m') : Waiting pending established m' :=
  inv_run_guarded (fun _ _ _ hw hquiet hstep => managerStep_waiting hw hquiet hstep) acts hm hq hrun

theorem updateCurrentConfiguration_carriesOut {net : NetworkMatch} {id : Uuid}
    (hs : m.vpnServiceState = .started) (hconfig : m.currLocalNetConfig = true)
    (hrouter : m.routerLoop = true) (hen : m.onDemandEnabled = true) :
    (∃ m', m.updateCurrentConfiguration net ran = .ok m' ∧ CarriesOut m m' id) ↔
      m.selected net = some id ∧ Startable m id := by
  unfold updateCurrentConfiguration
  cases hsel : m.selected net with
  | none =>
    refine iff_of_false ?_ nofun
    rintro ⟨m', h, hcarries⟩
    cases h
    exact not_carriesOut rfl hcarries
  | some asked =>
    simp only [if_pos hen, Option.some.injEq]
    by_cases ha : m.isActivated (some asked)
    · refine iff_of_false ?_ ?_
      · rintro ⟨m', h, hcarries⟩
        obtain rfl := Except.ok.inj ((if_pos ha).symm.trans h)
        exact not_carriesOut rfl hcarries
      · rintro ⟨rfl, hnew, -⟩
        exact hnew ha
    · have hcall : Manager.onCurrentConfigChanged { m with currentUuid := some asked } (some asked)
          ran = Manager.activateVpnTunnel { m with currentUuid := some asked } (some asked) ran :=
        if_neg ha
      rw [hcall]
      exact activateVpnTunnel_carriesOut (m := { m with currentUuid := some asked })
        hs hconfig hrouter

/-- When the start of the service carries out the request that waits for it. -/
theorem start_carriesOut_iff (ran : ConnectionStatus) {pending : Option Uuid}
    {established : List Uuid} {bound : Bool} {net : NetworkMatch} {id : Uuid}
    (hm : Waiting pending established m) :
    (∃ m', managerStep m (.startCommand .notifyVpnServiceStarted bound net ran) = some m' ∧
        CarriesOut m m' id) ↔
      bound = true ∧ pending.or (m.selected net) = some id ∧ Startable m id := by
  obtain ⟨last, cur, hid, hres⟩ := notifyVpnServiceStarted_eq hm.coupled bound net ran
  have hstep : managerStep m (.startCommand .notifyVpnServiceStarted bound net ran) = _ := hres
  rw [hstep, hm.pending]
  cases bound with
  | false => exact iff_of_false (by simp) (by simp)
  | true =>
    -- the parts that a request reads are those of the state before
    have hstart : ∀ {m₁ : Manager}, m₁.currentTunnel = cur → m₁.configInfo = m.configInfo →
        (Startable m₁ id ↔ Startable m id) := by
      intro m₁ hcur hinfo
      have ha : m₁.isActivated (some id) = m.isActivated (some id) :=
        isActivated_congr (by rw [hcur, hid]) (some id)
      have hdata : m₁.getTunnelData (some id) = m.getTunnelData (some id) := by
        rw [getTunnelData, getTunnelData, hinfo]
      rw [Startable, Startable, ha, hdata]
    cases pending with
    | some asked =>
      simp only [if_true, toOption_eq_some, Option.some_or, Option.some.injEq, true_and]
      exact (activateVpnTunnel_carriesOut rfl rfl rfl).trans
        (and_congr Iff.rfl (hstart rfl rfl))
    | none =>
      simp only [if_true, toOption_eq_some, Option.none_or, true_and]
      exact (updateCurrentConfiguration_carriesOut rfl rfl rfl rfl).trans
        (and_congr Iff.rfl (hstart rfl rfl))

/-! ## The tunnel after the request -/

/-- The current tunnel has the uuid and is not terminated. -/
def Serves (m : Manager) (id : Uuid) : Prop :=
  ∃ tun, m.currentTunnel = some tun ∧ tun.tunnelId = id ∧ tun.connectionStatus ≠ .terminated

/-- The tunnel that is there has the uuid and is not terminated; or it has another uuid,
the type of the profile is one of the factory, and the thread of the new tunnel has
not terminated it before the call returns. -/
def CanServe (m : Manager) (id : Uuid) (vpnData : VpnDataEx) (ran : ConnectionStatus) : Prop :=
  (m.isActivated (some id) ∧ ∀ tun ∈ m.currentTunnel, tun.connectionStatus ≠ .terminated) ∨
  (¬ m.isActivated (some id) ∧ m.routerLoop = true ∧ (tunnelKind? vpnData.vpnType).isSome ∧
    ran ≠ .terminated)

theorem isActivated_some {id : Uuid} : m.isActivated (some id) ↔
    ∃ tun, m.currentTunnel = some tun ∧ tun.tunnelId = id := by
  rw [isActivated]
  cases m.currentTunnel <;> simp

/-- Where the early returns are taken, the tunnel serves if it is not terminated. -/
theorem serves_of_activated {id : Uuid} {vpnData : VpnDataEx} (ha : m.isActivated (some id)) :
    m.Serves id ↔ m.CanServe id vpnData ran := by
  obtain ⟨tun, hcur, hid⟩ := isActivated_some.mp ha
  refine ⟨?_, ?_⟩
  · rintro ⟨tun', hcur', -, hstatus⟩
    obtain rfl := Option.some.inj (hcur.symm.trans hcur')
    refine Or.inl ⟨ha, fun t ht => ?_⟩
    obtain rfl := Option.some.inj (hcur.symm.trans ht)
    exact hstatus
  · rintro (⟨-, hstatus⟩ | ⟨hna, -⟩)
    · exact ⟨tun, hcur, hid, hstatus tun hcur⟩
    · exact absurd ha hna

theorem activateVpnTunnel_serves {id : Uuid} {vpnData : VpnDataEx} (hm : Coupled m)
    (hs : m.vpnServiceState = .started) (hdata : m.getTunnelData (some id) = some vpnData) :
    (∃ m', m.activateVpnTunnel (some id) ran = .ok m' ∧ m'.Serves id) ↔
      m.CanServe id vpnData ran := by
  by_cases ha : m.isActivated (some id)
  · rw [activateVpnTunnel_activated (some id) ran hs ha, ← serves_of_activated ha]
    refine ⟨?_, fun hserves => ⟨_, rfl, hserves⟩⟩
    rintro ⟨m', h, hserves⟩
    cases h
    exact hserves
  -- a tunnel that is left as it was has another uuid
  have hleft : getTunnel m.routerLoop vpnData = none → ¬ ∃ m',
      m.activateVpnTunnel (some id) ran = .ok m' ∧ m'.Serves id := by
    rintro htun ⟨m', h, tun, hcur, hid, -⟩
    rw [activateVpnTunnel_unsupported (some id) ran hs ha hdata htun] at h
    cases h
    exact ha (isActivated_some.mpr ⟨tun, hcur, hid⟩)
  cases htun : getTunnel m.routerLoop vpnData with
  | none =>
    refine iff_of_false (hleft htun) ?_
    rintro (⟨ha', -⟩ | ⟨-, hrouter, hkind, -⟩)
    · exact ha ha'
    · obtain ⟨kind, hkind⟩ := Option.isSome_iff_exists.mp hkind
      rw [getTunnel_eq_some.mpr ⟨hrouter, kind, hkind, rfl⟩] at htun
      cases htun
  | some tun =>
    obtain ⟨hrouter, kind, hkind, rfl⟩ := getTunnel_eq_some.mp htun
    obtain ⟨last, h⟩ :=
      activateVpnTunnel_new (some id) ran hs (hm.config hs) ha hdata htun
    rw [h]
    refine ⟨?_, ?_⟩
    · rintro ⟨m', h', tun, hcur, -, hstatus⟩
      cases h'
      cases hcur
      exact Or.inr ⟨ha, hrouter, by rw [hkind]; rfl, hstatus⟩
    · rintro (⟨ha', -⟩ | ⟨-, -, -, hran⟩)
      · exact absurd ha' ha
      · exact ⟨_, rfl, _, rfl, getTunnelData_uuid hdata, hran⟩

theorem onCurrentConfigChanged_serves {id : Uuid} {vpnData : VpnDataEx} (hm : Coupled m)
    (hs : m.vpnServiceState = .started) (hdata : m.getTunnelData (some id) = some vpnData) :
    (∃ m', m.onCurrentConfigChanged (some id) ran = .ok m' ∧ m'.Serves id) ↔
      m.CanServe id vpnData ran := by
  by_cases ha : m.isActivated (some id)
  · rw [onCurrentConfigChanged_quiet ran (Or.inr ha), ← serves_of_activated ha]
    refine ⟨?_, fun hserves => ⟨m, rfl, hserves⟩⟩
    rintro ⟨m', h, hserves⟩
    cases h
    exact hserves
  · have hcall : m.onCurrentConfigChanged (some id) ran = m.activateVpnTunnel (some id) ran :=
      if_neg ha
    rw [hcall]
    exact activateVpnTunnel_serves hm hs hdata

end Manager

/-- A reachable manager is coupled. -/
theorem run_coupled {last : Option Uuid} {acts : List ManagerAct} {m : Manager}
    (hrun : run managerStep (managerInit last) acts = some m) : Coupled m :=
  inv_run (fun _ _ _ hm h => (managerStep_ready hm h).1) acts (coupled_init last) hrun

/-- In every reachable state a request returns and does no harm exactly if the service is
not started, the uuid is that of the current tunnel, or its profile is known. And a
request that waits is carried out by the start of the service exactly if the start
finds `OcpaVpnService`, the uuid is one that a tunnel can be made for, and a request
for the last tunnel happens to be for the one that the on-demand rules select. -/
theorem activation_iff (last : Option Uuid) (acts : List ManagerAct) {m : Manager}
    (hrun : run managerStep (managerInit last) acts = some m) (uuid : Option Uuid)
    (ran : ConnectionStatus) :
    (m.Harmless uuid ran ↔
      m.vpnServiceState ≠ .started ∨ m.isActivated (uuid.or m.lastVpnTunnelUuid) ∨
        (m.getTunnelData (uuid.or m.lastVpnTunnelUuid)).isSome) ∧
    (m.vpnServiceState ≠ .started → ∀ (quiet : List ManagerAct) {m₀ m₁ : Manager} (bound : Bool)
        (net : NetworkMatch) (ran' : ConnectionStatus),
      managerStep m (.activate uuid ran) = some m₀ → run managerStep m₀ quiet = some m₁ →
      Guarded managerStep Manager.Quiet m₀ quiet →
      ((∃ m' id, uuid.or m₁.lastVpnTunnelUuid = some id ∧
          managerStep m₁ (.startCommand .notifyVpnServiceStarted bound net ran') = some m' ∧
          m.CarriesOut m' id) ↔
        bound = true ∧ ∃ id, uuid.or m₁.lastVpnTunnelUuid = some id ∧
          uuid.or (m₁.selected net) = some id ∧ m₁.Startable id)) := by
  have hm := run_coupled hrun
  refine ⟨Manager.harmless_iff hm, ?_⟩
  intro hs quiet m₀ m₁ bound net ran' hact hquiet hguard
  have hm₀ : m₀ = { m with pendingVpnTunnelUuid := uuid } := by
    have hpending : m.activateVpnTunnel uuid ran = .ok { m with pendingVpnTunnelUuid := uuid } :=
      if_pos hs
    rw [managerStep, hpending] at hact
    exact (Option.some.inj hact).symm
  have hwait₀ : Manager.Waiting uuid m.established m₀ := by
    subst hm₀
    exact ⟨⟨hm.config, hm.current, hm.usernat⟩, hs, rfl, rfl⟩
  have hwait := Manager.run_waiting quiet hwait₀ hguard hquiet
  have hcarries : ∀ m' id, m.CarriesOut m' id ↔ m₁.CarriesOut m' id := fun m' id => by
    simp only [Manager.CarriesOut, hwait.established]
  refine ⟨?_, ?_⟩
  · rintro ⟨m', id, hlast, hstep, hc⟩
    obtain ⟨hbound, hsel, hstart⟩ :=
      (Manager.start_carriesOut_iff ran' hwait).mp ⟨m', hstep, (hcarries m' id).mp hc⟩
    exact ⟨hbound, id, hlast, hsel, hstart⟩
  · rintro ⟨hbound, id, hlast, hsel, hstart⟩
    obtain ⟨m', hstep, hc⟩ :=
      (Manager.start_carriesOut_iff ran' hwait).mpr ⟨hbound, hsel, hstart⟩
    exact ⟨m', id, hlast, hstep, (hcarries m' id).mpr hc⟩

/-- A request for an IPsec profile made before the service is started, and the lock of
the system in between. -/
theorem activation_iff_waiting :
    ∃ m' id, some "a" = some id ∧
      managerStep { managerInit none with
          vpnServiceState := .locked
          pendingVpnTunnelUuid := some "a"
          configInfo := [⟨"a", "IPSec"⟩] }
        (.startCommand .notifyVpnServiceStarted true .unmatched .connecting) = some m' ∧
      Manager.CarriesOut { managerInit none with configInfo := [⟨"a", "IPSec"⟩] } m' id :=
  ((activation_iff none [.profiles [⟨"a", "IPSec"⟩] .unmatched .disconnected] rfl (some "a")
      .disconnected).2 nofun [.lockedBySystem] true .unmatched .connecting rfl rfl
      ⟨trivial, fun _ _ => trivial⟩).mpr
    ⟨rfl, "a", rfl, rfl, nofun, ⟨"a", "IPSec"⟩, rfl, rfl⟩

/-- To a started service a request for an unknown profile throws, and so does one for the
last tunnel where there was none. A request for the last tunnel that is made before
the start is not carried out, its profile being known. -/
theorem requests_lost :
    (∃ m, run managerStep (managerInit none)
        [.startCommand .notifyVpnServiceStarted true .unmatched .disconnected] = some m ∧
      m.activateVpnTunnel (some "a") .disconnected = .error m ∧
      m.activateVpnTunnel none .disconnected = .error m) ∧
    (∃ m m', run managerStep (managerInit (some "a"))
        [.profiles [⟨"a", "IPSec"⟩] .unmatched .disconnected, .activate none .disconnected] =
          some m ∧
      managerStep m (.startCommand .notifyVpnServiceStarted true .unmatched .disconnected) =
        some m' ∧
      m.lastVpnTunnelUuid = some "a" ∧ m.getTunnelData (some "a") = some ⟨"a", "IPSec"⟩ ∧
      m'.currentTunnel = none ∧ m'.established = []) :=
  ⟨⟨_, rfl, rfl, rfl⟩, ⟨_, _, rfl, rfl, rfl, rfl, rfl, rfl⟩⟩

/-- In every reachable state with the service started, a request for a uuid with a known
profile ends with a tunnel that serves it exactly if the tunnel of that uuid that is
there is not terminated or, where there is none, one can be created and does not
terminate itself at once; and the same for the two ways in which the on-demand rules
make the request. -/
theorem serves_iff (last : Option Uuid) (acts : List ManagerAct) {m : Manager}
    (hrun : run managerStep (managerInit last) acts = some m)
    (hs : m.vpnServiceState = .started) {id : Uuid} {vpnData : VpnDataEx}
    (hdata : m.getTunnelData (some id) = some vpnData) (ran : ConnectionStatus) :
    ((∃ m', managerStep m (.activate (some id) ran) = some m' ∧ m'.Serves id) ↔
      m.CanServe id vpnData ran) ∧
    ((∃ m', managerStep m (.configChanged (some id) ran) = some m' ∧ m'.Serves id) ↔
      m.CanServe id vpnData ran) ∧
    ∀ net, m.onDemand net = some id →
      ((∃ m', managerStep m (.network net ran) = some m' ∧ m'.Serves id) ↔
        m.CanServe id vpnData ran) := by
  have hm := run_coupled hrun
  refine ⟨?_, ?_, ?_⟩
  · simp only [managerStep, toOption_eq_some]
    exact Manager.activateVpnTunnel_serves hm hs hdata
  · simp only [managerStep, toOption_eq_some]
    exact Manager.onCurrentConfigChanged_serves hm hs hdata
  · intro net hdemand
    obtain ⟨hen, hsel⟩ : m.onDemandEnabled = true ∧ m.selected net = some id := by
      simpa [Manager.onDemand] using hdemand
    have hcall : m.updateCurrentConfiguration net ran =
        Manager.onCurrentConfigChanged { m with currentUuid := some id } (some id) ran := by
      rw [Manager.updateCurrentConfiguration, hsel]
      exact if_pos hen
    simp only [managerStep, toOption_eq_some, hcall]
    exact Manager.onCurrentConfigChanged_serves (m := { m with currentUuid := some id })
      ⟨hm.config, hm.current, hm.usernat⟩ hs hdata

/-- The first request to a started service. -/
theorem serves_iff_first :
    (∃ m', managerStep { managerInit none with
          vpnServiceState := .started
          routerLoop := true
          usernatTunnel := some ⟨.usernat, "0000", .disconnected, true⟩
          currLocalNetConfig := true
          configInfo := [⟨"a", "IPSec"⟩]
          onDemandEnabled := true } (.activate (some "a") .connecting) = some m' ∧
      m'.Serves "a") :=
  have hdata : Manager.getTunnelData { managerInit none with configInfo := [⟨"a", "IPSec"⟩] }
    (some "a") = some ⟨"a", "IPSec"⟩ := rfl
  (serves_iff none [.startCommand .notifyVpnServiceStarted true .unmatched .disconnected,
      .profiles [⟨"a", "IPSec"⟩] .unmatched .disconnected] rfl rfl hdata .connecting).1.mpr
    (Or.inr ⟨nofun, rfl, rfl, nofun⟩)

/-- A tunnel that has terminated itself, and one that a restart of the service has
terminated, are not replaced by the next request for their uuid. -/
theorem terminated_stays_current :
    (∃ m, run managerStep (managerInit none)
        [.startCommand .notifyVpnServiceStarted true .unmatched .disconnected,
          .profiles [⟨"a", "IPSec"⟩] .unmatched .disconnected,
          .activate (some "a") .connecting, .tunnelStatus .terminated,
          .activate (some "a") .connecting] = some m ∧
      m.vpnServiceState = .started ∧ m.getTunnelData (some "a") = some ⟨"a", "IPSec"⟩ ∧
      ∃ tun, m.currentTunnel = some tun ∧ tun.connectionStatus = .terminated) ∧
    (∃ m, run managerStep (managerInit none)
        [.startCommand .notifyVpnServiceStarted true .unmatched .disconnected,
          .profiles [⟨"a", "IPSec"⟩] .unmatched .disconnected,
          .activate (some "a") .connecting,
          .startCommand .notifyVpnServiceStarted true .unmatched .disconnected,
          .activate (some "a") .connecting] = some m ∧
      m.vpnServiceState = .started ∧ m.getTunnelData (some "a") = some ⟨"a", "IPSec"⟩ ∧
      ∃ tun, m.currentTunnel = some tun ∧ tun.connectionStatus = .terminated) :=
  ⟨⟨_, rfl, rfl, rfl, _, rfl, rfl⟩, ⟨_, rfl, rfl, rfl, _, rfl, rfl⟩⟩

end ConfProfile
