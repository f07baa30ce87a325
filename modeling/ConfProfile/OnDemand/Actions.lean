import ConfProfile.OnDemand.Delegate
import ConfProfile.Vpn.Activate

/-!
# The action of a rule

A rule is decoded with its action, and only `evaluate` looks at that. The rule that
`updateCurrentConfiguration` settles on has the tunnel of its profile activated,
be its action Disconnect or Ignore: `getAction` is never called.

`manager_update` puts the delegate in the place of the network matches of the
manager, and `unwanted_iff` says when no tunnel is activated against a rule.
-/

namespace ConfProfile

open ConfigurationDelegate

/-! ## The delegate in the manager -/

namespace ConfigurationDelegate

variable (d : ConfigurationDelegate) (reach : Reach)

/-- How the network matches the rules of the delegate. -/
def networkMatch : NetworkMatch :=
  match d.savedNetworkConfig with
  | none => .unmatched
  | some net =>
    if d.currentConfig.any fun cfg => cfg.isMatch net.config then .current
    else
      match search net.config reach d.configInfoList with
      | none => .unmatched
      | some (uuid, _) => .found uuid

/-- The manager's fields of the delegate are those of `d`. -/
structure Agrees (m : Manager) : Prop where
  configInfo : m.configInfo = d.configInfoList.map (·.toVpnDataEx)
  currentUuid : m.currentUuid = d.currentUuid
  onDemandEnabled : m.onDemandEnabled = d.onDemandEnabled

/-- `onCurrentConfigChanged`, where the delegate calls it. -/
def notify (m : Manager) (asked : Option (Option Uuid)) (ran : ConnectionStatus) :
    Except Manager Manager :=
  match asked with
  | none => .ok m
  | some uuid => m.onCurrentConfigChanged uuid ran

variable {d}

/-- The manager's evaluation is the one of the delegate. -/
theorem manager_update {m : Manager} (h : d.Agrees m) (reach : Reach) (ran : ConnectionStatus) :
    m.updateCurrentConfiguration (d.networkMatch reach) ran =
      notify { m with currentUuid := (d.updateCurrentConfiguration reach).1.currentUuid }
        (d.updateCurrentConfiguration reach).2 ran := by
  have hsame : ({ m with currentUuid := d.currentUuid } : Manager) = m := by rw [← h.currentUuid]
  rw [Manager.updateCurrentConfiguration, networkMatch, ConfigurationDelegate.updateCurrentConfiguration]
  cases hnet : d.savedNetworkConfig with
  | none =>
    simp only [Manager.selected, hsame]
    rfl
  | some net =>
    by_cases hcurrent : (d.currentConfig.any fun cfg => cfg.isMatch net.config) = true
    · simp only [if_pos hcurrent, Manager.selected, h.currentUuid, h.onDemandEnabled]
      cases huuid : d.currentUuid with
      | none =>
        rw [huuid, h.onDemandEnabled] at hsame
        rw [hsame]
        cases d.onDemandEnabled <;> rfl
      | some uuid => cases d.onDemandEnabled <;> rfl
    · simp only [if_neg hcurrent]
      cases hsearch : search net.config reach d.configInfoList with
      | none =>
        simp only [Manager.selected, hsame]
        rfl
      | some found =>
        obtain ⟨uuid, cfg⟩ := found
        have hknown : (m.configInfo.any fun data => data.payloadUuid = uuid) = true := by
          obtain ⟨before, info, after, hsplit, -, -, huuid, -⟩ := search_eq_some.mp hsearch
          rw [h.configInfo, hsplit]
          simp [huuid]
        simp only [Manager.selected, hknown, if_true, h.onDemandEnabled]
        cases d.onDemandEnabled <;> rfl

theorem Agrees.update {m : Manager} (h : d.Agrees m) (reach : Reach) :
    (d.updateCurrentConfiguration reach).1.Agrees
      { m with currentUuid := (d.updateCurrentConfiguration reach).1.currentUuid } := by
  rcases update_cases d reach with ⟨heq, -⟩ | ⟨net, uuid, cfg, -, -, -, heq⟩
  · rw [heq]
    exact ⟨h.configInfo, rfl, h.onDemandEnabled⟩
  · rw [heq]
    exact ⟨h.configInfo, rfl, h.onDemandEnabled⟩

end ConfigurationDelegate

/-! ## Requests -/

namespace Manager

variable {m m' : Manager} {uuid : Uuid}

/-- A tunnel is made for `uuid`, or it is put down for when the service is started. -/
def Activates (m m' : Manager) (uuid : Uuid) : Prop :=
  m'.established = m.established ++ [uuid] ∨
    (m'.pendingVpnTunnelUuid = some uuid ∧ m.pendingVpnTunnelUuid ≠ some uuid)

/-- A request for `uuid` would be of use: its tunnel is not the current one and can be made,
or put down where the service is not started. -/
def WouldActivate (m : Manager) (uuid : Uuid) : Prop :=
  ¬ m.isActivated (some uuid) ∧
    (m.vpnServiceState = .started → m.CanCreate (some uuid)) ∧
    (m.vpnServiceState ≠ .started → m.pendingVpnTunnelUuid ≠ some uuid)

theorem not_activates (hest : m'.established = m.established)
    (hpending : m'.pendingVpnTunnelUuid = none ∨ m'.pendingVpnTunnelUuid = m.pendingVpnTunnelUuid) :
    ¬ m.Activates m' uuid := by
  intro h'
  obtain h | ⟨h, hne⟩ := h'
  · rw [hest] at h
    simp at h
  · rcases hpending with hnone | hsame
    · rw [hnone] at h
      cases h
    · exact hne (hsame ▸ h)

/-- A new tunnel, also where the handler stops behind it. -/
theorem leaves_activateVpnTunnel_new {vpnData : VpnDataEx} {tun : ManagedTunnel}
    (ran : ConnectionStatus) (hs : m.vpnServiceState = .started)
    (ha : ¬ m.isActivated (some uuid)) (hdata : m.getTunnelData (some uuid) = some vpnData)
    (htun : getTunnel m.routerLoop vpnData = some tun) :
    (leaves (m.activateVpnTunnel (some uuid) ran)).established = m.established ++ [uuid] := by
  obtain ⟨last, hlast⟩ := establish_eq { m with pendingVpnTunnelUuid := none } tun ran
  have hid : tun.tunnelId = uuid := by
    obtain ⟨-, kind, -, rfl⟩ := getTunnel_eq_some.mp htun
    exact getTunnelData_uuid hdata
  rw [activateVpnTunnel, if_neg (not_not.mpr hs)]
  show (leaves (if m.isActivated (some uuid) then _ else _)).established = _
  rw [if_neg ha]
  simp only [Option.some_or, getTunnelData_pending, hdata, htun, hlast]
  split_ifs
  · obtain ⟨last', hlast'⟩ := terminateOld_leaves { m with
      pendingVpnTunnelUuid := none
      lastVpnTunnelUuid := last
      currentTunnel := some ({ tun with vpnTunnelCtx := true }.setConnectionStatus ran)
      established := m.established ++ [tun.tunnelId] } m.currentTunnel
    rw [hlast', hid]
  · exact congrArg (fun t => m.established ++ [t]) hid

/-- Which requests of the delegate activate a tunnel. -/
theorem onCurrentConfigChanged_activates (m : Manager) (uuid : Uuid) (ran : ConnectionStatus) :
    m.Activates (leaves (m.onCurrentConfigChanged (some uuid) ran)) uuid ↔ m.WouldActivate uuid := by
  by_cases ha : m.isActivated (some uuid)
  · have hkept : m.onCurrentConfigChanged (some uuid) ran = .ok m := if_pos ha
    rw [hkept]
    exact iff_of_false (not_activates rfl (Or.inr rfl)) fun h => h.1 ha
  have hcall : m.onCurrentConfigChanged (some uuid) ran = m.activateVpnTunnel (some uuid) ran :=
    if_neg ha
  rw [hcall]
  by_cases hs : m.vpnServiceState = .started
  swap
  · have hput : m.activateVpnTunnel (some uuid) ran = .ok { m with pendingVpnTunnelUuid := some uuid } :=
      if_pos hs
    rw [hput]
    by_cases hpending : m.pendingVpnTunnelUuid = some uuid
    · refine iff_of_false (not_activates rfl (Or.inr hpending.symm)) fun h => h.2.2 hs hpending
    · exact iff_of_true (Or.inr ⟨rfl, hpending⟩) ⟨ha, fun h => absurd h hs, fun _ => hpending⟩
  cases hdata : m.getTunnelData (some uuid) with
  | none =>
    rw [activateVpnTunnel_unknown (some uuid) ran hs ha hdata]
    refine iff_of_false (not_activates rfl (Or.inl rfl)) fun h => ?_
    obtain ⟨vpnData, tun, hdata', -⟩ := h.2.1 hs
    rw [Option.some_or, hdata] at hdata'
    cases hdata'
  | some vpnData =>
    cases htun : getTunnel m.routerLoop vpnData with
    | none =>
      rw [activateVpnTunnel_unsupported (some uuid) ran hs ha hdata htun]
      refine iff_of_false (not_activates rfl (Or.inl rfl)) fun h => ?_
      obtain ⟨vpnData', tun, hdata', htun'⟩ := h.2.1 hs
      obtain rfl := Option.some.inj (hdata.symm.trans hdata')
      rw [htun] at htun'
      cases htun'
    | some tun =>
      refine iff_of_true (Or.inl (leaves_activateVpnTunnel_new ran hs ha hdata htun)) ?_
      exact ⟨ha, fun _ => ⟨vpnData, tun, hdata, htun⟩, fun h => absurd hs h⟩

end Manager

/-! ## The rule that decides -/

/-- The actions against a connection. -/
def VpnOnDemandConfig.Unwanted (rule : VpnOnDemandConfig) : Prop :=
  rule.action = .disconnect ∨ rule.action = .ignore

namespace VpnOnDemandConfig

/-- They are those of the rules that say so. -/
theorem unwanted_fromRule {R : Type} {params : List ActionParameter} {map : List (String × Obj R)}
    {rule : VpnOnDemandConfig} (h : fromRule params map = some rule) :
    rule.Unwanted ↔ getString map "Action" = some "Disconnect" ∨ getString map "Action" = some "Ignore" := by
  obtain ⟨-, action, haction, hrule⟩ := fromRule_eq_some h
  have hget : getString map "Action" = action := by
    unfold mapGet at haction
    unfold getString
    cases hlookup : map.lookup "Action" with
    | none =>
      rw [hlookup] at haction
      exact Option.some.inj haction
    | some x =>
      rw [hlookup] at haction
      cases x with
      | null | string => exact Option.some.inj haction
      | _ => cases haction
  rw [Unwanted, hrule, hget]
  unfold actionByString
  split_ifs <;> simp_all

end VpnOnDemandConfig

namespace ConfigurationDelegate

variable (d : ConfigurationDelegate) (reach : Reach)

/-- The rule and the profile that an evaluation settles on: the rule selected before, where
it still matches, or else the first that fits. -/
def Decides (uuid : Uuid) (rule : VpnOnDemandConfig) : Prop :=
  (d.CurrentMatches ∧ d.currentUuid = some uuid ∧ d.currentConfig = some rule) ∨
    (¬ d.CurrentMatches ∧ ∃ net, d.savedNetworkConfig = some net ∧
      FirstFit net.config reach d.configInfoList uuid rule)

variable {d reach} {uuid : Uuid} {rule : VpnOnDemandConfig}

/-- An evaluation selects the rule that decides, and has its profile asked for. -/
theorem update_of_decides (h : d.Decides reach uuid rule) :
    d.updateCurrentConfiguration reach =
      ({ d with currentConfig := some rule, currentUuid := some uuid },
        if d.onDemandEnabled then some (some uuid) else none) := by
  rw [ConfigurationDelegate.updateCurrentConfiguration]
  rcases h with ⟨hcurrent, huuid, hrule⟩ | ⟨hcurrent, net, hnet, hfirst⟩
  · have hsame : ({ d with currentConfig := some rule, currentUuid := some uuid } :
        ConfigurationDelegate) = d := by rw [← hrule, ← huuid]
    obtain ⟨net, -, hnet, -⟩ := id hcurrent
    rw [hsame]
    simp only [hnet, (currentMatches_iff hnet).mp hcurrent, if_true, huuid]
  · have hany := mt (currentMatches_iff hnet).mpr hcurrent
    simp only [hnet, hany, search_eq_some.mpr hfirst, Bool.false_eq_true, if_false]

/-- Where it asks for a profile, the rule selected decides. -/
theorem decides_of_asked {asked : Option Uuid}
    (h : (d.updateCurrentConfiguration reach).2 = some asked) : d.onDemandEnabled = true ∧
      (d.updateCurrentConfiguration reach).1.currentUuid = asked ∧
      ∀ uuid rule, (d.updateCurrentConfiguration reach).1.currentUuid = some uuid →
        (d.updateCurrentConfiguration reach).1.currentConfig = some rule →
        d.Decides reach uuid rule := by
  rw [ConfigurationDelegate.updateCurrentConfiguration] at h ⊢
  cases hnet : d.savedNetworkConfig with
  | none =>
    rw [hnet] at h
    cases h
  | some net =>
    by_cases hcurrent : d.CurrentMatches
    · simp only [hnet, (currentMatches_iff hnet).mp hcurrent, if_true,
        Option.ite_none_right_eq_some, Option.some.injEq] at h ⊢
      exact ⟨h.1, h.2, fun uuid rule huuid hrule => Or.inl ⟨hcurrent, huuid, hrule⟩⟩
    · have hany := mt (currentMatches_iff hnet).mpr hcurrent
      cases hsearch : search net.config reach d.configInfoList with
      | none =>
        simp only [hnet, hany, hsearch, Bool.false_eq_true, if_false] at h
        cases h
      | some found =>
        simp only [hnet, hany, hsearch, Bool.false_eq_true, if_false,
          Option.ite_none_right_eq_some, Option.some.injEq] at h ⊢
        refine ⟨h.1, h.2, fun uuid rule huuid hrule => Or.inr ⟨hcurrent, net, hnet, ?_⟩⟩
        rw [← search_eq_some, hsearch, ← huuid, ← hrule]

/-- No tunnel is activated where the rule selected is against it. -/
def KeepsOut (d : ConfigurationDelegate) (m : Manager) (reach : Reach) (ran : ConnectionStatus) :
    Prop :=
  ∀ uuid rule, (d.updateCurrentConfiguration reach).1.currentUuid = some uuid →
    (d.updateCurrentConfiguration reach).1.currentConfig = some rule → rule.Unwanted →
    ¬ m.Activates (leaves (m.updateCurrentConfiguration (d.networkMatch reach) ran)) uuid

/-- For all profiles, selections and networks: no tunnel is activated against its rule exactly
if on-demand is off, or the rule that decides is not against it, or the request would be of
no use. -/
theorem unwanted_iff {m : Manager} (h : d.Agrees m) (reach : Reach) (ran : ConnectionStatus) :
    d.KeepsOut m reach ran ↔ d.onDemandEnabled = false ∨
      ∀ uuid rule, d.Decides reach uuid rule → rule.Unwanted → ¬ m.WouldActivate uuid := by
  rw [KeepsOut, manager_update h]
  constructor
  · intro hkeeps
    cases henabled : d.onDemandEnabled with
    | false => exact Or.inl rfl
    | true =>
      refine Or.inr fun uuid rule hdecides hunwanted => ?_
      have hkeeps := hkeeps uuid rule
      rw [update_of_decides hdecides, henabled] at hkeeps
      have hnot := hkeeps rfl rfl hunwanted
      exact mt (Manager.onCurrentConfigChanged_activates
        { m with currentUuid := some uuid } uuid ran).mpr hnot
  · intro hcond uuid rule huuid hrule hunwanted
    cases hasked : (d.updateCurrentConfiguration reach).2 with
    | none => exact Manager.not_activates rfl (Or.inr rfl)
    | some asked =>
      obtain ⟨henabled, heq, hdecides⟩ := decides_of_asked hasked
      obtain rfl : asked = some uuid := heq.symm.trans huuid
      have hno : ¬ m.WouldActivate uuid := by
        rcases hcond with hoff | hno
        · rw [henabled] at hoff
          cases hoff
        · exact hno uuid rule (hdecides uuid rule huuid hrule) hunwanted
      exact mt (Manager.onCurrentConfigChanged_activates _ uuid ran).mp hno

/-- A started service without a tunnel, and the profiles of a delegate. -/
def managerOf (d : ConfigurationDelegate) : Manager :=
  { managerInit none with
    vpnServiceState := .started
    routerLoop := true
    currLocalNetConfig := true
    configInfo := d.configInfoList.map (·.toVpnDataEx)
    currentUuid := d.currentUuid
    onDemandEnabled := d.onDemandEnabled }

/-- A delegate that has read one profile, in an active network. -/
def officeDelegate (info : ConfigInfo) : ConfigurationDelegate :=
  ⟨[info], none, none, some officeLocal, true⟩

theorem unwanted_iff_connect :
    (officeDelegate (everyInfo .connect)).Agrees (managerOf (officeDelegate (everyInfo .connect))) ∧
    (officeDelegate (everyInfo .connect)).KeepsOut (managerOf (officeDelegate (everyInfo .connect)))
      (fun _ _ => true) .connected := by
  refine ⟨⟨rfl, rfl, rfl⟩, (unwanted_iff ⟨rfl, rfl, rfl⟩ _ _).mpr (Or.inr ?_)⟩
  intro uuid rule h' hunwanted
  obtain ⟨-, -, hnone⟩ | ⟨-, net, -, hfirst⟩ := h'
  · cases hnone
  · obtain ⟨before, info, after, hsplit, -, -, -, -, first, rest, hrules, -⟩ := hfirst
    have hinfo : info ∈ [everyInfo .connect] := by
      change [everyInfo .connect] = _ at hsplit
      rw [hsplit]
      simp
    obtain rfl := List.mem_singleton.mp hinfo
    have hrule : rule ∈ (everyInfo .connect).onDemandConfiguration := by rw [hrules]; simp
    obtain rfl := List.mem_singleton.mp hrule
    rcases hunwanted with h | h <;> cases h

/-- A rule to disconnect in every network. -/
def disconnectJson : List Token :=
  [.beginObject, .name "OnDemandRules", .beginArray, .beginObject, .name "Action",
    .string "Disconnect", .endObject, .endArray, .endObject]

def disconnectRule : VpnOnDemandConfig := ⟨.disconnect, NetworkConfig.init false, none, none⟩

def disconnectInfo : ConfigInfo := ⟨⟨"office", "IPSec"⟩, true, true, [disconnectRule]⟩

/-- It has the tunnel activated. -/
theorem disconnect_activates :
    VpnOnDemandConfig.fromJson smallPlatform disconnectJson = .ok [disconnectRule] ∧
    (officeDelegate disconnectInfo).Agrees (managerOf (officeDelegate disconnectInfo)) ∧
    ¬ (officeDelegate disconnectInfo).KeepsOut (managerOf (officeDelegate disconnectInfo))
      (fun _ _ => true) .connected := by
  refine ⟨rfl, ⟨rfl, rfl, rfl⟩, fun h => ?_⟩
  exact h "office" disconnectRule rfl rfl (Or.inl rfl) (Or.inl rfl)

end ConfigurationDelegate

end ConfProfile
