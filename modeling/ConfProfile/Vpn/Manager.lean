import ConfProfile.Lib.Run
import ConfProfile.Vpn.Status

/-!
# The VPN manager (`VpnManagerService`, `ConfigurationDelegate`)

The handlers of the manager run one after the other on the main thread. The
service state, the router loop, the two tunnels and the local network
configuration are separate fields, and what the handlers find outside (the
binding of `OcpaVpnService`, the network, how far the thread of a tunnel is)
comes with each event.

A handler that meets a null pointer stops in the middle: it gives `.error` and
the state it leaves. On the main thread nobody catches that, so the process
ends; only the callbacks of the helper thread are called inside a `catch`.

`ready_iff`: a started service has its router loop, its user-NAT tunnel and its
network configuration as long as `stopVpnService` is not called on it.
-/

namespace ConfProfile

open Run

abbrev Uuid := String

/-- `SERVICE_STATE_…`. -/
inductive ServiceState where
  | revoked
  | started
  | locked
  | unsupported
  deriving DecidableEq, Repr

/-- What the manager reads of a profile. -/
structure VpnDataEx where
  payloadUuid : Uuid
  vpnType : String
  deriving DecidableEq, Repr

/-- What the manager reads of a tunnel. `vpnTunnelCtx` says that it is not 0. -/
structure ManagedTunnel where
  kind : TunnelKind
  tunnelId : Uuid
  connectionStatus : ConnectionStatus
  vpnTunnelCtx : Bool
  deriving DecidableEq, Repr

/-- The fields of the manager and of its `ConfigurationDelegate`. The router loop and
the network configuration are there or null. `mConfigInfoMap` and `mConfigInfoList`
have the same entries; `established` lists the tunnels made by `activateVpnTunnel`. -/
structure Manager where
  vpnServiceState : ServiceState
  routerLoop : Bool
  currentTunnel : Option ManagedTunnel
  usernatTunnel : Option ManagedTunnel
  lastVpnTunnelUuid : Option Uuid
  pendingVpnTunnelUuid : Option Uuid
  currLocalNetConfig : Bool
  configInfo : List VpnDataEx
  currentUuid : Option Uuid
  onDemandEnabled : Bool
  established : List Uuid
  deriving DecidableEq, Repr

/-- `onCreate`, with the uuid read from the preferences. -/
def managerInit (last : Option Uuid) : Manager :=
  ⟨.revoked, false, none, none, last, none, false, [], none, false, []⟩

/-- How the network matches the on-demand rules. -/
inductive NetworkMatch where
  /-- no network is known, or no rule matches it -/
  | unmatched
  /-- it matches `mCurrentConfig` -/
  | current
  /-- a rule of the profile is the first to match, and its probe succeeds -/
  | found (uuid : Uuid)
  deriving DecidableEq, Repr

/-- The tunnel that a slot of the manager holds, or the one just replaced. -/
inductive TunnelSlot where
  | current
  | usernat
  | replaced
  deriving DecidableEq, Repr

namespace Manager

variable (m : Manager)

/-- `notifyTunnelStateChanged`, up to the broadcast. -/
def notifyTunnelStateChanged : Manager :=
  match m.currentTunnel with
  | none => m
  | some tun =>
    if tun.connectionStatus = .connected then
      { m with lastVpnTunnelUuid := some tun.tunnelId }
    else m

/-- The object in the slot is `tun` now. -/
def put : TunnelSlot → ManagedTunnel → Manager
  | .current, tun => { m with currentTunnel := some tun }
  | .usernat, tun => { m with usernatTunnel := some tun }
  | .replaced, _ => m

end Manager

/-- `terminateConnection` of the subclasses, called on the tunnel of a slot. -/
def ManagedTunnel.terminateConnection (tun : ManagedTunnel) (slot : TunnelSlot) (m : Manager) :
    Except Manager Manager :=
  if tun.kind = .l2tp then .ok (m.put slot { tun with vpnTunnelCtx := false })
  else if tun.connectionStatus = .terminated then .ok m
  else
    let tun' := { tun with connectionStatus := .terminated }
    let m' := (m.put slot tun').notifyTunnelStateChanged
    -- intlRemoveTunnel() calls a method of mRouterLoop
    if tun.kind = .ipSec ∧ tun.vpnTunnelCtx ∧ ¬ m'.routerLoop then .error m'
    else .ok (m'.put slot { tun' with vpnTunnelCtx := false })

/-- What `setConnectionStatus` makes of a tunnel; only `terminateConnection` sets
`TERMINATED`, and takes the context. -/
def ManagedTunnel.setConnectionStatus (tun : ManagedTunnel) (status : ConnectionStatus) :
    ManagedTunnel :=
  { tun with
    connectionStatus := status
    vpnTunnelCtx := tun.vpnTunnelCtx && decide (status ≠ .terminated) }

/-- `IpSecTunnel.VPN_TYPE`, `OpenVpnTunnel.VPN_TYPE`, `L2tpTunnel.VPN_TYPE`. -/
def tunnelKind? (vpnType : String) : Option TunnelKind :=
  if vpnType = "IPSec" then some .ipSec
  else if vpnType = "net.openvpn.OpenVPN-Connect.vpnplugin" then some .openVpn
  else if vpnType = "L2TP/pure" then some .l2tp
  else none

/-- `VpnTunnelFactory.getTunnel`. -/
def getTunnel (routerLoop : Bool) (vpnData : VpnDataEx) : Option ManagedTunnel :=
  (tunnelKind? vpnData.vpnType).bind fun kind =>
    if routerLoop then some ⟨kind, vpnData.payloadUuid, .disconnected, false⟩ else none

namespace Manager

variable (m : Manager)

/-- `mUsernatTunnel.terminateConnection()`, unless it is null. -/
def terminateUsernat : Except Manager Manager :=
  match m.usernatTunnel with
  | none => .ok m
  | some tun => tun.terminateConnection .usernat m

/-- `mCurrentTunnel.terminateConnection()`, unless it is null. -/
def terminateCurrent : Except Manager Manager :=
  match m.currentTunnel with
  | none => .ok m
  | some tun => tun.terminateConnection .current m

/-- `ConfigurationDelegate.getTunnelData`. -/
def getTunnelData : Option Uuid → Option VpnDataEx
  | none => none
  | some uuid => m.configInfo.find? fun data => data.payloadUuid = uuid

/-- The current tunnel has the uuid, as both early returns compare it. -/
def isActivated : Option Uuid → Bool
  | none => false
  | some uuid => m.currentTunnel.any fun tun => tun.tunnelId = uuid

/-- The new tunnel is the current one and `establishConnection` starts its thread, which
has set `ran` by the time the manager goes on. -/
def establish (tun : ManagedTunnel) (ran : ConnectionStatus) : Manager :=
  { m with
    lastVpnTunnelUuid := m.lastVpnTunnelUuid.or (some tun.tunnelId)
    currentTunnel := some ({ tun with vpnTunnelCtx := true }.setConnectionStatus ran)
    established := m.established ++ [tun.tunnelId] }.notifyTunnelStateChanged

/-- The tunnel that was current before. -/
def terminateOld (oldTun : Option ManagedTunnel) : Except Manager Manager :=
  match oldTun with
  | none => .ok m
  | some tun => tun.terminateConnection .replaced m

/-- `activateVpnTunnel`. `startVpnService` only shows an activity. -/
def activateVpnTunnel (uuid : Option Uuid) (ran : ConnectionStatus) : Except Manager Manager :=
  if m.vpnServiceState ≠ .started then .ok { m with pendingVpnTunnelUuid := uuid }
  else
    let m := { m with pendingVpnTunnelUuid := none }
    let uuid := uuid.or m.lastVpnTunnelUuid
    if m.isActivated uuid then .ok m
    else
      match m.getTunnelData uuid with
      -- the factory call throws, and so does the log line behind its catch
      | none => .error m
      | some vpnData =>
        match getTunnel m.routerLoop vpnData with
        | none => .ok m
        | some tun =>
          let m' := m.establish tun ran
          -- mCurrLocalNetConfig.getDnsAddresses(null)
          if m'.currLocalNetConfig then m'.terminateOld m.currentTunnel else .error m'

/-- `onCurrentConfigChanged`. -/
def onCurrentConfigChanged (uuid : Option Uuid) (ran : ConnectionStatus) :
    Except Manager Manager :=
  match uuid with
  | none => .ok m
  | some uuid => if m.isActivated uuid then .ok m else m.activateVpnTunnel uuid ran

/-- The uuid that the search in `updateCurrentConfiguration` ends with. -/
def selected : NetworkMatch → Option Uuid
  | .unmatched => none
  | .current => m.currentUuid
  | .found uuid => if m.configInfo.any fun data => data.payloadUuid = uuid then some uuid else none

/-- `ConfigurationDelegate.updateCurrentConfiguration`. -/
def updateCurrentConfiguration (net : NetworkMatch) (ran : ConnectionStatus) :
    Except Manager Manager :=
  match m.selected net with
  | none => .ok m
  | some uuid =>
    let m := { m with currentUuid := some uuid }
    if m.onDemandEnabled then m.onCurrentConfigChanged m.currentUuid ran else .ok m

/-- The handler `notifyVpnServiceStarted`, from the service state to the new router loop
and user-NAT tunnel. `bound` says that `mBindKit.lock()` gives the service. -/
def restart (bound : Bool) : Except Manager Manager := do
  let m := { m with vpnServiceState := .started }
  let m ← m.terminateUsernat
  let m ← m.terminateCurrent
  let m := { m with currLocalNetConfig := true }
  -- vpnService.createBuilderAdapter()
  if bound then
    .ok { m with
      routerLoop := true
      usernatTunnel := some ⟨.usernat, "0000", .disconnected, true⟩ }
  else .error m

/-- `notifyVpnServiceStarted`. -/
def notifyVpnServiceStarted (bound : Bool) (net : NetworkMatch) (ran : ConnectionStatus) :
    Except Manager Manager := do
  let m ← m.restart bound
  match m.pendingVpnTunnelUuid with
  | some uuid => m.activateVpnTunnel uuid ran
  | none => ({ m with onDemandEnabled := true } : Manager).updateCurrentConfiguration net ran

/-- `notifyVpnServiceRevoked`. -/
def notifyVpnServiceRevoked : Except Manager Manager := do
  let m := { m with vpnServiceState := .revoked }
  let m ← m.terminateCurrent
  let m ← ({ m with currentTunnel := none } : Manager).terminateUsernat
  return { m with usernatTunnel := none, routerLoop := false, onDemandEnabled := false }

/-- `stopVpnService`. The intent it sends is `ACTION_TERMINATE_VPN_SERVICE`, to this service. -/
def stopVpnService : Except Manager Manager :=
  if m.vpnServiceState = .started then do
    let m ← m.terminateUsernat
    let m ← ({ m with usernatTunnel := none } : Manager).terminateCurrent
    return { m with currentTunnel := none, routerLoop := false }
  else .ok m

/-- `deactivateVpnTunnel`. -/
def deactivateVpnTunnel : Except Manager Manager := do
  let m ← m.terminateCurrent
  return { m with currentTunnel := none }

end Manager

/-- The actions of the intents that the manager is started with. -/
inductive IntentAction where
  | notifyVpnServiceStarted
  | notifyVpnServiceRevoked
  | terminateVpnService
  deriving DecidableEq, Repr

inductive ManagerAct where
  | startCommand (action : IntentAction) (bound : Bool) (net : NetworkMatch)
      (ran : ConnectionStatus)
  | revoked
  | lockedBySystem
  | unsupported
  | stop
  | activate (uuid : Option Uuid) (ran : ConnectionStatus)
  | deactivate
  | configChanged (uuid : Option Uuid) (ran : ConnectionStatus)
  /-- connectivity is lost or has changed -/
  | network (net : NetworkMatch) (ran : ConnectionStatus)
  /-- the helper thread has read the profiles -/
  | profiles (result : List VpnDataEx) (net : NetworkMatch) (ran : ConnectionStatus)
  /-- the threads of the current tunnel set its status -/
  | tunnelStatus (status : ConnectionStatus)
  /-- the thread of the user-NAT tunnel sets its status -/
  | usernatStatus (status : ConnectionStatus)
  deriving DecidableEq, Repr

/-- `onStartCommand`. -/
def Manager.onStartCommand (m : Manager) (action : IntentAction) (bound : Bool)
    (net : NetworkMatch) (ran : ConnectionStatus) : Except Manager Manager :=
  match action with
  | .notifyVpnServiceStarted => m.notifyVpnServiceStarted bound net ran
  | .notifyVpnServiceRevoked => m.notifyVpnServiceRevoked
  | .terminateVpnService => .ok m

/-- The state that a handler leaves, returning or not. -/
def leaves : Except Manager Manager → Manager
  | .ok m => m
  | .error m => m

/-- One event. -/
def managerStep (m : Manager) : ManagerAct → Option Manager
  | .startCommand action bound net ran => (m.onStartCommand action bound net ran).toOption
  | .revoked => m.notifyVpnServiceRevoked.toOption
  | .lockedBySystem => some { m with vpnServiceState := .locked }
  | .unsupported => some { m with vpnServiceState := .unsupported }
  | .stop => m.stopVpnService.toOption
  | .activate uuid ran => (m.activateVpnTunnel uuid ran).toOption
  | .deactivate => m.deactivateVpnTunnel.toOption
  | .configChanged uuid ran => (m.onCurrentConfigChanged uuid ran).toOption
  | .network net ran => (m.updateCurrentConfiguration net ran).toOption
  -- HelperThread catches what the callback throws
  | .profiles result net ran =>
    some (leaves ({ m with configInfo := result.reverse }.updateCurrentConfiguration net ran))
  | .tunnelStatus status =>
    let currentTunnel := m.currentTunnel.map fun tun => tun.setConnectionStatus status
    some ({ m with currentTunnel } : Manager).notifyTunnelStateChanged
  | .usernatStatus status =>
    let usernatTunnel := m.usernatTunnel.map fun tun => tun.setConnectionStatus status
    some ({ m with usernatTunnel } : Manager).notifyTunnelStateChanged

/-! ## What the pieces of the handlers do -/

namespace Manager

variable {m m' : Manager} {tun : ManagedTunnel} {slot : TunnelSlot}

/-- A report writes nothing but `mLastVpnTunnelUuid`. -/
theorem notifyTunnelStateChanged_eq (m : Manager) :
    ∃ last, m.notifyTunnelStateChanged = { m with lastVpnTunnelUuid := last } := by
  unfold notifyTunnelStateChanged
  split
  · exact ⟨m.lastVpnTunnelUuid, rfl⟩
  · split
    · exact ⟨_, rfl⟩
    · exact ⟨m.lastVpnTunnelUuid, rfl⟩

/-- With a router loop a termination returns, and changes only the tunnel in the slot. -/
theorem terminateConnection_eq (hrouter : m.routerLoop = true) (hslot : m.put slot tun = m) :
    ∃ last tun', tun.terminateConnection slot m =
      .ok ({ m with lastVpnTunnelUuid := last }.put slot tun') ∧ tun'.tunnelId = tun.tunnelId := by
  unfold ManagedTunnel.terminateConnection
  by_cases hl2tp : tun.kind = .l2tp
  · exact ⟨m.lastVpnTunnelUuid, { tun with vpnTunnelCtx := false }, by rw [if_pos hl2tp], rfl⟩
  by_cases hterm : tun.connectionStatus = .terminated
  · exact ⟨m.lastVpnTunnelUuid, tun, by rw [if_neg hl2tp, if_pos hterm, hslot], rfl⟩
  obtain ⟨last, hlast⟩ := notifyTunnelStateChanged_eq
    (m.put slot { tun with connectionStatus := .terminated })
  refine ⟨last, { tun with connectionStatus := .terminated, vpnTunnelCtx := false }, ?_, rfl⟩
  rw [if_neg hl2tp, if_neg hterm]
  simp only [hlast]
  cases slot <;> simp [put, hrouter]

/-- The tunnel that was replaced is no part of the state. -/
theorem terminateOld_leaves (m : Manager) (oldTun : Option ManagedTunnel) :
    ∃ last, leaves (m.terminateOld oldTun) = { m with lastVpnTunnelUuid := last } := by
  unfold terminateOld
  cases oldTun with
  | none => exact ⟨_, rfl⟩
  | some tun =>
    obtain ⟨last, hlast⟩ := notifyTunnelStateChanged_eq m
    simp only [ManagedTunnel.terminateConnection, put, hlast]
    split_ifs
    · exact ⟨m.lastVpnTunnelUuid, rfl⟩
    · exact ⟨m.lastVpnTunnelUuid, rfl⟩
    · exact ⟨last, rfl⟩
    · exact ⟨last, rfl⟩

/-- With a router loop the replaced tunnel is terminated without an exception. -/
theorem terminateOld_eq (hrouter : m.routerLoop = true) (oldTun : Option ManagedTunnel) :
    ∃ last, m.terminateOld oldTun = .ok { m with lastVpnTunnelUuid := last } := by
  cases oldTun with
  | none => exact ⟨_, rfl⟩
  | some tun =>
    have hslot : m.put .replaced tun = m := rfl
    obtain ⟨last, tun', h, -⟩ := terminateConnection_eq hrouter hslot
    exact ⟨last, h⟩

theorem terminateCurrent_eq (hrouter : m.currentTunnel.isSome → m.routerLoop = true) :
    ∃ last cur, m.terminateCurrent =
        .ok { m with lastVpnTunnelUuid := last, currentTunnel := cur } ∧
      cur.map (·.tunnelId) = m.currentTunnel.map (·.tunnelId) := by
  unfold terminateCurrent
  split
  next hcur => exact ⟨m.lastVpnTunnelUuid, none, by rw [← hcur], by rw [hcur]⟩
  next tun hcur =>
    have hslot : m.put .current tun = m := by rw [put, ← hcur]
    obtain ⟨last, tun', h, hid⟩ := terminateConnection_eq (hrouter (by rw [hcur]; rfl)) hslot
    exact ⟨last, some tun', h, by rw [hcur]; exact congrArg some hid⟩

theorem terminateUsernat_eq (hrouter : m.usernatTunnel.isSome → m.routerLoop = true) :
    ∃ last usernat, m.terminateUsernat =
        .ok { m with lastVpnTunnelUuid := last, usernatTunnel := usernat } ∧
      usernat.isSome = m.usernatTunnel.isSome := by
  unfold terminateUsernat
  split
  next hnat => exact ⟨m.lastVpnTunnelUuid, none, by rw [← hnat], by rw [hnat]⟩
  next tun hnat =>
    have hslot : m.put .usernat tun = m := by rw [put, ← hnat]
    obtain ⟨last, tun', h, -⟩ := terminateConnection_eq (hrouter (by rw [hnat]; rfl)) hslot
    exact ⟨last, some tun', h, by rw [hnat]; rfl⟩

end Manager

/-- What every handler keeps: a started service has its network configuration, and
there are no tunnels without a router loop. -/
structure Coupled (m : Manager) : Prop where
  config : m.vpnServiceState = .started → m.currLocalNetConfig = true
  current : m.currentTunnel.isSome → m.routerLoop = true
  usernat : m.usernatTunnel.isSome → m.routerLoop = true

/-- What `activateVpnTunnel` leaves of the parts of the service: all of them. -/
structure SameParts (m m' : Manager) : Prop where
  state : m'.vpnServiceState = m.vpnServiceState
  router : m'.routerLoop = m.routerLoop
  usernat : m'.usernatTunnel.isSome = m.usernatTunnel.isSome
  config : m'.currLocalNetConfig = m.currLocalNetConfig
  current : m'.currentTunnel.isSome → m.currentTunnel.isSome ∨ m.routerLoop = true

namespace SameParts

variable {m m' m'' : Manager}

theorem refl (m : Manager) : SameParts m m := ⟨rfl, rfl, rfl, rfl, Or.inl⟩

theorem trans (h : SameParts m m') (h' : SameParts m' m'') : SameParts m m'' where
  state := h'.state.trans h.state
  router := h'.router.trans h.router
  usernat := h'.usernat.trans h.usernat
  config := h'.config.trans h.config
  current hcur := (h'.current hcur).elim h.current fun hr => Or.inr (h.router ▸ hr)

theorem coupled (h : SameParts m m') (hm : Coupled m) : Coupled m' where
  config hs := by rw [h.config]; exact hm.config (h.state ▸ hs)
  current hcur := by rw [h.router]; exact (h.current hcur).elim hm.current id
  usernat hnat := by rw [h.router]; exact hm.usernat (h.usernat ▸ hnat)

end SameParts

/-- A tunnel of the factory needs the router loop and a known type. -/
theorem getTunnel_eq_some {routerLoop : Bool} {vpnData : VpnDataEx} {tun : ManagedTunnel} :
    getTunnel routerLoop vpnData = some tun ↔ routerLoop = true ∧
      ∃ kind, tunnelKind? vpnData.vpnType = some kind ∧
        tun = ⟨kind, vpnData.payloadUuid, .disconnected, false⟩ := by
  unfold getTunnel
  cases tunnelKind? vpnData.vpnType with
  | none => simp
  | some kind => cases routerLoop <;> simp [eq_comm]

namespace Manager

variable {m m' : Manager}

/-- What is written of the manager when a new tunnel is made. -/
theorem establish_eq (m : Manager) (tun : ManagedTunnel) (ran : ConnectionStatus) :
    ∃ last, m.establish tun ran = { m with
      lastVpnTunnelUuid := last
      currentTunnel := some ({ tun with vpnTunnelCtx := true }.setConnectionStatus ran)
      established := m.established ++ [tun.tunnelId] } :=
  notifyTunnelStateChanged_eq _

theorem activateVpnTunnel_sameParts (m : Manager) (uuid : Option Uuid) (ran : ConnectionStatus) :
    SameParts m (leaves (m.activateVpnTunnel uuid ran)) := by
  have hpending : ∀ p, SameParts m { m with pendingVpnTunnelUuid := p } :=
    fun p => ⟨rfl, rfl, rfl, rfl, Or.inl⟩
  simp only [activateVpnTunnel]
  split_ifs with hs ha
  · exact hpending uuid
  · exact hpending none
  split
  next => exact hpending none
  next vpnData hdata =>
    split
    next => exact hpending none
    next tun htun =>
      obtain ⟨hrouter, -⟩ := getTunnel_eq_some.mp htun
      obtain ⟨last, hlast⟩ :=
        establish_eq { m with pendingVpnTunnelUuid := none } tun ran
      rw [hlast]
      split_ifs
      · obtain ⟨last', hlast'⟩ := terminateOld_leaves { m with
          pendingVpnTunnelUuid := none
          lastVpnTunnelUuid := last
          currentTunnel := some ({ tun with vpnTunnelCtx := true }.setConnectionStatus ran)
          established := m.established ++ [tun.tunnelId] } m.currentTunnel
        rw [hlast']
        exact ⟨rfl, rfl, rfl, rfl, fun _ => Or.inr hrouter⟩
      · exact ⟨rfl, rfl, rfl, rfl, fun _ => Or.inr hrouter⟩

theorem onCurrentConfigChanged_sameParts (m : Manager) (uuid : Option Uuid)
    (ran : ConnectionStatus) : SameParts m (leaves (m.onCurrentConfigChanged uuid ran)) := by
  unfold onCurrentConfigChanged
  cases uuid with
  | none => exact SameParts.refl m
  | some uuid =>
    by_cases ha : m.isActivated uuid
    · simp only [if_pos ha]
      exact SameParts.refl m
    · simp only [if_neg ha]
      exact activateVpnTunnel_sameParts m uuid ran

theorem updateCurrentConfiguration_sameParts (m : Manager) (net : NetworkMatch)
    (ran : ConnectionStatus) : SameParts m (leaves (m.updateCurrentConfiguration net ran)) := by
  unfold updateCurrentConfiguration
  cases m.selected net with
  | none => exact SameParts.refl m
  | some uuid =>
    have hcurrent : SameParts m { m with currentUuid := some uuid } :=
      ⟨rfl, rfl, rfl, rfl, Or.inl⟩
    simp only
    split_ifs
    · exact hcurrent.trans (onCurrentConfigChanged_sameParts _ _ ran)
    · exact hcurrent

/-- Started again, the manager has everything new but the current tunnel. -/
theorem restart_eq (hm : Coupled m) (bound : Bool) :
    ∃ last cur, cur.map (·.tunnelId) = m.currentTunnel.map (·.tunnelId) ∧
      (m.restart bound).toOption = if bound then some { m with
        vpnServiceState := .started
        lastVpnTunnelUuid := last
        currentTunnel := cur
        currLocalNetConfig := true
        routerLoop := true
        usernatTunnel := some ⟨.usernat, "0000", .disconnected, true⟩ } else none := by
  obtain ⟨last, usernat, hnat, -⟩ :=
    terminateUsernat_eq (m := { m with vpnServiceState := .started }) hm.usernat
  obtain ⟨last', cur, hcur, hid⟩ := terminateCurrent_eq (m := { m with
    vpnServiceState := .started, lastVpnTunnelUuid := last, usernatTunnel := usernat }) hm.current
  refine ⟨last', cur, hid, ?_⟩
  simp only [restart, hnat, hcur, bind, Except.bind]
  cases bound <;> rfl

theorem notifyVpnServiceRevoked_eq (hm : Coupled m) :
    ∃ last, m.notifyVpnServiceRevoked = .ok { m with
      vpnServiceState := .revoked
      lastVpnTunnelUuid := last
      currentTunnel := none
      usernatTunnel := none
      routerLoop := false
      onDemandEnabled := false } := by
  obtain ⟨last, cur, hcur, -⟩ :=
    terminateCurrent_eq (m := { m with vpnServiceState := .revoked }) hm.current
  obtain ⟨last', usernat, hnat, -⟩ := terminateUsernat_eq (m := { m with
    vpnServiceState := .revoked, lastVpnTunnelUuid := last, currentTunnel := none }) hm.usernat
  refine ⟨last', ?_⟩
  simp only [notifyVpnServiceRevoked, hcur, hnat, bind, Except.bind]
  rfl

theorem stopVpnService_eq (hm : Coupled m) (hs : m.vpnServiceState = .started) :
    ∃ last, m.stopVpnService = .ok { m with
      lastVpnTunnelUuid := last
      currentTunnel := none
      usernatTunnel := none
      routerLoop := false } := by
  obtain ⟨last, usernat, hnat, -⟩ := terminateUsernat_eq hm.usernat
  obtain ⟨last', cur, hcur, -⟩ := terminateCurrent_eq (m := { m with
    lastVpnTunnelUuid := last, usernatTunnel := none }) hm.current
  refine ⟨last', ?_⟩
  simp only [stopVpnService, if_pos hs, hnat, hcur, bind, Except.bind]
  rfl

theorem deactivateVpnTunnel_eq (hm : Coupled m) :
    ∃ last, m.deactivateVpnTunnel = .ok { m with
      lastVpnTunnelUuid := last, currentTunnel := none } := by
  obtain ⟨last, cur, hcur, -⟩ := terminateCurrent_eq hm.current
  refine ⟨last, ?_⟩
  simp only [deactivateVpnTunnel, hcur, bind, Except.bind]
  rfl

end Manager

/-! ## The parts of a started service -/

section Events

variable {m m' : Manager}

theorem leaves_of_toOption {x : Except Manager Manager} (h : x.toOption = some m') :
    leaves x = m' := by
  cases x with
  | error e => cases h
  | ok m₁ => exact Option.some.inj h

theorem toOption_eq_some {x : Except Manager Manager} : x.toOption = some m' ↔ x = .ok m' := by
  cases x <;> simp [Except.toOption]

/-- A handler in two pieces. -/
theorem toOption_bind {x : Except Manager Manager} {f : Manager → Except Manager Manager} :
    (x >>= f).toOption = x.toOption.bind fun m₁ => (f m₁).toOption := by
  cases x <;> rfl

/-- `notifyVpnServiceStarted` behind the new user-NAT tunnel. -/
theorem notifyVpnServiceStarted_eq (hm : Coupled m) (bound : Bool) (net : NetworkMatch)
    (ran : ConnectionStatus) :
    ∃ last cur, cur.map (·.tunnelId) = m.currentTunnel.map (·.tunnelId) ∧
      let m₁ : Manager := { m with
        vpnServiceState := .started
        lastVpnTunnelUuid := last
        currentTunnel := cur
        currLocalNetConfig := true
        routerLoop := true
        usernatTunnel := some ⟨.usernat, "0000", .disconnected, true⟩ }
      (m.notifyVpnServiceStarted bound net ran).toOption = if bound then
        (match m.pendingVpnTunnelUuid with
        | some uuid => m₁.activateVpnTunnel uuid ran
        | none => ({ m₁ with onDemandEnabled := true } : Manager).updateCurrentConfiguration
            net ran).toOption
        else none := by
  obtain ⟨last, cur, hid, hres⟩ := Manager.restart_eq hm bound
  refine ⟨last, cur, hid, ?_⟩
  rw [Manager.notifyVpnServiceStarted, toOption_bind, hres]
  cases bound <;> rfl

/-- What `activateVpnTunnel` dereferences is there. -/
def Ready (m : Manager) : Prop :=
  m.vpnServiceState = .started →
    m.routerLoop = true ∧ m.usernatTunnel.isSome ∧ m.currLocalNetConfig = true

theorem SameParts.ready (h : SameParts m m') : Ready m' ↔ Ready m := by
  unfold Ready
  rw [h.state, h.router, h.usernat, h.config]

/-- A report leaves all parts. -/
theorem Manager.notifyTunnelStateChanged_sameParts (m : Manager) :
    SameParts m m.notifyTunnelStateChanged := by
  obtain ⟨last, hlast⟩ := m.notifyTunnelStateChanged_eq
  rw [hlast]
  exact ⟨rfl, rfl, rfl, rfl, Or.inl⟩

theorem notifyVpnServiceStarted_ready (hm : Coupled m) {bound : Bool} {net : NetworkMatch}
    {ran : ConnectionStatus} (h : (m.notifyVpnServiceStarted bound net ran).toOption = some m') :
    Coupled m' ∧ Ready m' := by
  obtain ⟨last, cur, -, hres⟩ := notifyVpnServiceStarted_eq hm bound net ran
  rw [hres] at h
  cases bound with
  | false => cases h
  | true =>
    have hparts : ∀ {m₁ : Manager} {x : Except Manager Manager}, SameParts m₁ (leaves x) →
        m₁.currLocalNetConfig = true → m₁.routerLoop = true → m₁.usernatTunnel.isSome →
        x.toOption = some m' → Coupled m' ∧ Ready m' := by
      intro m₁ x hsame hconfig hrouter hnat hx
      rw [leaves_of_toOption hx] at hsame
      exact ⟨hsame.coupled ⟨fun _ => hconfig, fun _ => hrouter, fun _ => hrouter⟩,
        hsame.ready.mpr fun _ => ⟨hrouter, hnat, hconfig⟩⟩
    rw [if_pos rfl] at h
    cases hp : m.pendingVpnTunnelUuid with
    | some uuid =>
      rw [hp] at h
      exact hparts (Manager.activateVpnTunnel_sameParts _ uuid ran) rfl rfl rfl h
    | none =>
      rw [hp] at h
      exact hparts (Manager.updateCurrentConfiguration_sameParts _ net ran) rfl rfl rfl h

theorem notifyVpnServiceRevoked_ready (hm : Coupled m)
    (h : m.notifyVpnServiceRevoked.toOption = some m') : Coupled m' ∧ Ready m' := by
  obtain ⟨last, hrev⟩ := Manager.notifyVpnServiceRevoked_eq hm
  rw [hrev] at h
  obtain rfl := Option.some.inj h
  exact ⟨⟨nofun, nofun, nofun⟩, nofun⟩

/-- One event keeps a service coupled, and ready unless it stops a started service. -/
theorem managerStep_ready {a : ManagerAct} (hm : Coupled m) (h : managerStep m a = some m') :
    Coupled m' ∧ (Ready m → (Ready m' ↔ ¬ (a = .stop ∧ m.vpnServiceState = .started))) := by
  have hparts : a ≠ .stop → SameParts m m' →
      Coupled m' ∧ (Ready m → (Ready m' ↔ ¬ (a = .stop ∧ m.vpnServiceState = .started))) :=
    fun ha hsame =>
      ⟨hsame.coupled hm, fun hr => iff_of_true (hsame.ready.mpr hr) fun hstop => ha hstop.1⟩
  have hready : a ≠ .stop → Coupled m' ∧ Ready m' →
      Coupled m' ∧ (Ready m → (Ready m' ↔ ¬ (a = .stop ∧ m.vpnServiceState = .started))) :=
    fun ha hres => ⟨hres.1, fun _ => iff_of_true hres.2 fun hstop => ha hstop.1⟩
  cases a with
  | startCommand action bound net ran =>
    cases action with
    | notifyVpnServiceStarted => exact hready nofun (notifyVpnServiceStarted_ready hm h)
    | notifyVpnServiceRevoked => exact hready nofun (notifyVpnServiceRevoked_ready hm h)
    | terminateVpnService =>
      obtain rfl := Option.some.inj h
      exact hparts nofun (SameParts.refl m)
  | revoked => exact hready nofun (notifyVpnServiceRevoked_ready hm h)
  | lockedBySystem =>
    obtain rfl := Option.some.inj h
    exact hready nofun ⟨⟨nofun, hm.current, hm.usernat⟩, nofun⟩
  | unsupported =>
    obtain rfl := Option.some.inj h
    exact hready nofun ⟨⟨nofun, hm.current, hm.usernat⟩, nofun⟩
  | stop =>
    by_cases hs : m.vpnServiceState = .started
    · obtain ⟨last, hstop⟩ := Manager.stopVpnService_eq hm hs
      rw [managerStep, hstop] at h
      obtain rfl := Option.some.inj h
      refine ⟨⟨hm.config, nofun, nofun⟩, fun _ => iff_of_false ?_ fun hn => hn ⟨rfl, hs⟩⟩
      intro hready'
      cases (hready' hs).1
    · rw [managerStep, Manager.stopVpnService, if_neg hs] at h
      obtain rfl := Option.some.inj h
      exact ⟨hm, fun hr => iff_of_true hr fun hstop => hs hstop.2⟩
  | activate uuid ran =>
    exact hparts nofun (leaves_of_toOption h ▸ m.activateVpnTunnel_sameParts uuid ran)
  | deactivate =>
    obtain ⟨last, hdeact⟩ := Manager.deactivateVpnTunnel_eq hm
    rw [managerStep, hdeact] at h
    obtain rfl := Option.some.inj h
    exact hparts nofun ⟨rfl, rfl, rfl, rfl, nofun⟩
  | configChanged uuid ran =>
    exact hparts nofun (leaves_of_toOption h ▸ m.onCurrentConfigChanged_sameParts uuid ran)
  | network net ran =>
    exact hparts nofun (leaves_of_toOption h ▸ m.updateCurrentConfiguration_sameParts net ran)
  | profiles result net ran =>
    obtain rfl := Option.some.inj h
    have hload : SameParts m { m with configInfo := result.reverse } :=
      ⟨rfl, rfl, rfl, rfl, Or.inl⟩
    exact hparts nofun (hload.trans (Manager.updateCurrentConfiguration_sameParts _ net ran))
  | tunnelStatus status =>
    obtain rfl := Option.some.inj h
    refine hparts nofun (SameParts.trans ?_ (Manager.notifyTunnelStateChanged_sameParts _))
    exact ⟨rfl, rfl, rfl, rfl, fun hcur => Or.inl (by simpa using hcur)⟩
  | usernatStatus status =>
    obtain rfl := Option.some.inj h
    refine hparts nofun (SameParts.trans ?_ (Manager.notifyTunnelStateChanged_sameParts _))
    exact ⟨rfl, rfl, Option.isSome_map, rfl, Or.inl⟩

/-- The manager just created. -/
theorem coupled_init (last : Option Uuid) : Coupled (managerInit last) := ⟨nofun, nofun, nofun⟩

theorem ready_init (last : Option Uuid) : Ready (managerInit last) := nofun

/-- Along every run of the manager a started service has its router loop, its user-NAT
tunnel and its network configuration exactly if `stopVpnService` is never called on
a started service. -/
theorem ready_iff (last : Option Uuid) (acts : List ManagerAct) :
    Along managerStep (fun _ _ m' => Ready m') (managerInit last) acts ↔
      Guarded managerStep (fun m a => ¬ (a = .stop ∧ m.vpnServiceState = .started))
        (managerInit last) acts := by
  have hcoupled : ∀ m a m', Coupled m → managerStep m a = some m' → Coupled m' :=
    fun m a m' hm h => (managerStep_ready hm h).1
  have hstop : ∀ m a, Coupled m → ¬ ¬ (a = .stop ∧ m.vpnServiceState = .started) →
      (managerStep m a).isSome := by
    intro m a hm ha
    obtain ⟨rfl, hs⟩ := not_not.mp ha
    obtain ⟨last, hres⟩ := Manager.stopVpnService_eq hm hs
    rw [managerStep, hres]
    rfl
  rw [guarded_iff_along hcoupled hstop acts (coupled_init last)]
  exact along_iff_cond (P := Ready) (q := fun _ _ m' => Ready m') hcoupled (fun _ _ _ hr => hr)
    (fun m a m' hm hr h => (managerStep_ready hm h).2 hr) acts (coupled_init last) (ready_init last)

/-- The service is started and stopped; the intent sent then changes nothing. -/
theorem stopped_not_ready :
    ∃ m, run managerStep (managerInit none)
        [.startCommand .notifyVpnServiceStarted true .unmatched .disconnected, .stop,
          .startCommand .terminateVpnService true .unmatched .disconnected] = some m ∧
      m.vpnServiceState = .started ∧ m.routerLoop = false ∧ m.usernatTunnel = none :=
  ⟨_, rfl, rfl, rfl, rfl⟩

end Events

end ConfProfile
