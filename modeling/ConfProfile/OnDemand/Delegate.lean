import ConfProfile.OnDemand.Config
import ConfProfile.Vpn.Manager

/-!
# Selecting a profile (`ConfigurationDelegate`)

The delegate keeps the profiles that the helper thread has read and the network as
`NetworkStateListener` reports it. After each change of one of them
`updateCurrentConfiguration` looks whether the rule selected before still matches,
and searches the profiles for another if not.

Nothing else looks at the selection. It is not dropped when the search finds
nothing, and as long as its rule matches nobody asks whether the profile is still
there and enabled. `selection_iff` says along which runs it is never stale.
-/

namespace ConfProfile

open Run Tokens

/-- The network as `NetworkStateListener` reports it. -/
structure LocalNetwork where
  config : NetworkConfig
  strict : config.isStrict = true
  known : config.isActive = true → config.interfaceType.isSome

/-- A profile with its rules (`VpnDataEx`). -/
structure ConfigInfo extends VpnDataEx where
  onDemandEnabled : Bool
  onDemandEnabledByUser : Bool
  onDemandConfiguration : List VpnOnDemandConfig

/-- How the request for the probe URL of a rule ends, for each profile. -/
abbrev Reach := Uuid → VpnOnDemandConfig → Bool

/-- `probe`, with a socket factory. -/
def VpnOnDemandConfig.probe (this : VpnOnDemandConfig) (reach : Reach) (uuid : Uuid) : Bool :=
  this.urlStringProbe.isNone || reach uuid this

/-- `VpnOnDemandConfig.match`. No exception comes of it: the network is strict and of a known
type, and the rules are not strict (`isMatch_isSome`). -/
def VpnOnDemandConfig.isMatch (this : VpnOnDemandConfig) (config : NetworkConfig) : Bool :=
  this.networkConfig.isMatch (some config) = some true

theorem isMatch_isSome (net : LocalNetwork) {cfg : NetworkConfig} (hcfg : cfg.isStrict = false) :
    (net.config.isMatch (some cfg)).isSome ∧ (cfg.isMatch (some net.config)).isSome := by
  have hsome : (net.config.isMatchStrict cfg).isSome := by
    cases hactive : net.config.isActive with
    | false => simp [NetworkConfig.isMatchStrict, hactive]
    | true =>
      obtain ⟨b, hb, -⟩ := NetworkConfig.fits_iff net.strict hactive (net.known hactive) hcfg
      rw [hb]
      rfl
  cases hany : cfg.isAny with
  | true =>
    constructor
    · simp [NetworkConfig.isMatch, hany]
    · simp [NetworkConfig.isMatch, hany]
  | false =>
    obtain ⟨hnet, hrev⟩ := NetworkConfig.isMatch_eq net.strict hcfg hany
    rw [hnet, hrev]
    exact ⟨hsome, hsome⟩

/-- The fields of the delegate. -/
structure ConfigurationDelegate where
  configInfoList : List ConfigInfo
  currentConfig : Option VpnOnDemandConfig
  currentUuid : Option Uuid
  savedNetworkConfig : Option LocalNetwork
  onDemandEnabled : Bool

/-- The constructor. -/
def delegateInit : ConfigurationDelegate := ⟨[], none, none, none, false⟩

namespace ConfigurationDelegate

/-- The rule of the inner loop: it matches and its probe succeeds. -/
def Fits (net : NetworkConfig) (reach : Reach) (info : ConfigInfo) (cfg : VpnOnDemandConfig) : Bool :=
  decide (net.isMatch (some cfg.networkConfig) = some true) && cfg.probe reach info.payloadUuid

/-- The conditions of the outer loop. -/
def Eligible (info : ConfigInfo) : Bool :=
  info.payloadUuid ≠ "" && info.onDemandEnabled && info.onDemandEnabledByUser

/-- The search of `updateCurrentConfiguration`. -/
def search (net : NetworkConfig) (reach : Reach) (configInfoList : List ConfigInfo) :
    Option (Uuid × VpnOnDemandConfig) :=
  configInfoList.findSome? fun info =>
    if Eligible info then
      (info.onDemandConfiguration.find? (Fits net reach info)).map fun cfg => (info.payloadUuid, cfg)
    else none

variable (d : ConfigurationDelegate)

/-- `updateCurrentConfiguration`, and the argument of `onCurrentConfigChanged` where it
is called. -/
def updateCurrentConfiguration (reach : Reach) : ConfigurationDelegate × Option (Option Uuid) :=
  match d.savedNetworkConfig with
  | none => (d, none)
  | some net =>
    if d.currentConfig.any fun cfg => cfg.isMatch net.config then
      (d, if d.onDemandEnabled then some d.currentUuid else none)
    else
      match search net.config reach d.configInfoList with
      | none => (d, none)
      | some (uuid, cfg) =>
        ({ d with currentConfig := some cfg, currentUuid := some uuid },
          if d.onDemandEnabled then some (some uuid) else none)

end ConfigurationDelegate

/-- What makes the delegate evaluate. -/
inductive DelegateAct where
  /-- `notifyConnectivityLost` and `notifyConnectivityChanged` -/
  | connectivity (netConfig : LocalNetwork) (reach : Reach)
  /-- the helper thread has read the profiles (`onSuccess` in `updateVpnProfiles`) -/
  | profiles (result : List ConfigInfo) (reach : Reach)
  /-- the service has started, and no tunnel is pending: `setOnDemandEnabled(true)` -/
  | started (reach : Reach)
  /-- the service is revoked: `setOnDemandEnabled(false)` -/
  | revoked

namespace ConfigurationDelegate

variable (d : ConfigurationDelegate)

/-- The fields as `updateCurrentConfiguration` finds them. -/
def receive : DelegateAct → ConfigurationDelegate
  | .connectivity netConfig _ => { d with savedNetworkConfig := some netConfig }
  -- adding items in reverse order
  | .profiles result _ => { d with configInfoList := result.reverse }
  | .started _ => { d with onDemandEnabled := true }
  | .revoked => { d with onDemandEnabled := false }

end ConfigurationDelegate

/-- One event. -/
def delegateStep (d : ConfigurationDelegate) (a : DelegateAct) : Option ConfigurationDelegate :=
  match a with
  | .connectivity _ reach | .profiles _ reach | .started reach =>
    some ((d.receive a).updateCurrentConfiguration reach).1
  | .revoked => some (d.receive a)

namespace ConfigurationDelegate

variable (d : ConfigurationDelegate)

/-! ## What is found -/

variable {d} {net : NetworkConfig} {reach : Reach} {infos : List ConfigInfo} {uuid : Uuid}
  {cfg : VpnOnDemandConfig}

/-- The rule is the first that fits, of the first eligible profile with one. -/
def FirstFit (net : NetworkConfig) (reach : Reach) (infos : List ConfigInfo) (uuid : Uuid)
    (cfg : VpnOnDemandConfig) : Prop :=
  ∃ before info after, infos = before ++ info :: after ∧
    (∀ other ∈ before, Eligible other → ∀ rule ∈ other.onDemandConfiguration,
      ¬ Fits net reach other rule) ∧
    Eligible info ∧ info.payloadUuid = uuid ∧ Fits net reach info cfg ∧
    ∃ first rest, info.onDemandConfiguration = first ++ cfg :: rest ∧
      ∀ rule ∈ first, ¬ Fits net reach info rule

theorem search_eq_some : search net reach infos = some (uuid, cfg) ↔
    FirstFit net reach infos uuid cfg := by
  rw [search, List.findSome?_eq_some_iff]
  refine exists_congr fun before => exists_congr fun info => exists_congr fun after =>
    and_congr_right fun _ => ?_
  rw [and_comm]
  refine and_congr (forall_congr' fun other => forall_congr' fun _ => ?_) ?_
  · by_cases he : Eligible other
    · rw [if_pos he, Option.map_eq_none_iff, List.find?_eq_none]
      exact ⟨fun h _ => h, fun h => h he⟩
    · rw [if_neg he]
      exact iff_of_true rfl fun h => absurd h he
  · by_cases he : Eligible info
    · rw [if_pos he, Option.map_eq_some_iff]
      simp only [Prod.mk.injEq, List.find?_eq_some_iff_append, Bool.not_eq_true', he, true_and,
        Bool.not_eq_true]
      constructor
      · intro h'
        obtain ⟨cfg, h, rfl, rfl⟩ := h'
        exact ⟨rfl, h⟩
      · intro h'
        obtain ⟨rfl, h⟩ := h'
        exact ⟨cfg, h, rfl, rfl⟩
    · rw [if_neg he]
      simp [he]

/-- It finds nothing if no rule of an eligible profile fits. -/
theorem search_isSome : (search net reach infos).isSome ↔
    ∃ info ∈ infos, Eligible info ∧ ∃ rule ∈ info.onDemandConfiguration, Fits net reach info rule := by
  rw [search, List.findSome?_isSome_iff]
  refine exists_congr fun info => and_congr_right fun _ => ?_
  by_cases he : Eligible info
  · rw [if_pos he, Option.isSome_map, List.find?_isSome]
    simp [he]
  · rw [if_neg he]
    simp [he]

/-! ## The selection -/

variable (d)

/-- The uuid and the configuration are those of an enabled profile, and one of its rules
matches the network. -/
def Qualifies (net : NetworkConfig) (uuid : Uuid) (cfg : VpnOnDemandConfig) : Prop :=
  ∃ info ∈ d.configInfoList, info.payloadUuid = uuid ∧ info.onDemandEnabled = true ∧
    info.onDemandEnabledByUser = true ∧ cfg ∈ info.onDemandConfiguration ∧
    ∃ rule ∈ info.onDemandConfiguration, net.isMatch (some rule.networkConfig) = some true

/-- Nothing is selected, or what is selected qualifies in the current network. -/
def SelectionQualifies : Prop :=
  (d.currentConfig = none ∧ d.currentUuid = none) ∨
    ∃ net cfg uuid, d.savedNetworkConfig = some net ∧ d.currentConfig = some cfg ∧
      d.currentUuid = some uuid ∧ d.Qualifies net.config uuid cfg

/-- The rule selected before matches the network. -/
def CurrentMatches : Prop :=
  ∃ net cfg, d.savedNetworkConfig = some net ∧ d.currentConfig = some cfg ∧
    cfg.isMatch net.config = true

/-- A rule of an eligible profile fits the network. -/
def SomeFits (reach : Reach) : Prop :=
  ∃ net, d.savedNetworkConfig = some net ∧ ∃ info ∈ d.configInfoList, Eligible info ∧
    ∃ rule ∈ info.onDemandConfiguration, Fits net.config reach info rule

/-- The selection is up to date, or it is replaced: nothing was selected, or the profile
selected is there and enabled and has a rule for the network, or the rule selected does not
match and another one fits. -/
def UpToDate (reach : Reach) : Prop :=
  d.currentConfig = none ∨ d.SelectionQualifies ∨ (¬ d.CurrentMatches ∧ d.SomeFits reach)

/-- The two fields of the selection go together, and need a network. -/
structure Paired : Prop where
  uuid : d.currentConfig = none ↔ d.currentUuid = none
  network : d.savedNetworkConfig = none → d.currentConfig = none

variable {d}

theorem currentMatches_iff {net : LocalNetwork} (hnet : d.savedNetworkConfig = some net) :
    d.CurrentMatches ↔ (d.currentConfig.any fun cfg => cfg.isMatch net.config) = true := by
  rw [Option.any_eq_true]
  constructor
  · intro h
    obtain ⟨net', cfg, hnet', hcfg, hmatch⟩ := h
    obtain rfl := Option.some.inj (hnet.symm.trans hnet')
    exact ⟨cfg, hcfg, hmatch⟩
  · intro h
    obtain ⟨cfg, hcfg, hmatch⟩ := h
    exact ⟨net, cfg, hnet, hcfg, hmatch⟩

theorem someFits_iff {net : LocalNetwork} (hnet : d.savedNetworkConfig = some net) :
    d.SomeFits reach ↔ (search net.config reach d.configInfoList).isSome := by
  rw [search_isSome]
  constructor
  · intro h'
    obtain ⟨net', hnet', h⟩ := h'
    obtain rfl := Option.some.inj (hnet.symm.trans hnet')
    exact h
  · exact fun h => ⟨net, hnet, h⟩

/-- What an evaluation does: it leaves the selection, or it replaces it by what is found. -/
theorem update_cases (d : ConfigurationDelegate) (reach : Reach) :
    ((d.updateCurrentConfiguration reach).1 = d ∧
      (d.savedNetworkConfig = none ∨ d.CurrentMatches ∨ ¬ d.SomeFits reach)) ∨
    ∃ net uuid cfg, d.savedNetworkConfig = some net ∧ ¬ d.CurrentMatches ∧
      search net.config reach d.configInfoList = some (uuid, cfg) ∧
      (d.updateCurrentConfiguration reach).1 =
        { d with currentConfig := some cfg, currentUuid := some uuid } := by
  rw [updateCurrentConfiguration]
  cases hnet : d.savedNetworkConfig with
  | none => exact Or.inl ⟨rfl, Or.inl rfl⟩
  | some net =>
    by_cases hcurrent : d.CurrentMatches
    · refine Or.inl ⟨?_, Or.inr (Or.inl hcurrent)⟩
      rw [currentMatches_iff hnet] at hcurrent
      simp only [hcurrent, if_true]
    · have hany := mt (currentMatches_iff hnet).mpr hcurrent
      cases hsearch : search net.config reach d.configInfoList with
      | none =>
        refine Or.inl ⟨by simp only [hany, hsearch, Bool.false_eq_true, if_false], Or.inr (Or.inr ?_)⟩
        rw [someFits_iff hnet, hsearch]
        exact Bool.false_ne_true
      | some found =>
        refine Or.inr ⟨net, found.1, found.2, rfl, hcurrent, hsearch, ?_⟩
        simp only [hany, hsearch, Bool.false_eq_true, if_false]

/-- What is found qualifies. -/
theorem qualifies_of_search {net : LocalNetwork}
    (h : search net.config reach d.configInfoList = some (uuid, cfg)) :
    d.Qualifies net.config uuid cfg := by
  obtain ⟨before, info, after, hsplit, -, he, huuid, hfits, first, rest, hrules, -⟩ :=
    search_eq_some.mp h
  have hmem : info ∈ d.configInfoList := by rw [hsplit]; simp
  have hcfg : cfg ∈ info.onDemandConfiguration := by rw [hrules]; simp
  simp only [Eligible, Bool.and_eq_true] at he
  simp only [Fits, Bool.and_eq_true, decide_eq_true_eq] at hfits
  exact ⟨info, hmem, huuid, he.1.2, he.2, hcfg, cfg, hcfg, hfits.1⟩

theorem Paired.updateCurrentConfiguration (h : d.Paired) (reach : Reach) :
    (d.updateCurrentConfiguration reach).1.Paired := by
  rcases update_cases d reach with ⟨heq, -⟩ | ⟨net, uuid, cfg, hnet, -, -, heq⟩
  · rwa [heq]
  · rw [heq]
    exact ⟨iff_of_false nofun nofun, fun hnone => absurd (hnet.symm.trans hnone) nofun⟩

/-- After an evaluation the selection qualifies exactly if it was up to date or is replaced. -/
theorem selectionQualifies_update (h : d.Paired) (reach : Reach) :
    (d.updateCurrentConfiguration reach).1.SelectionQualifies ↔ d.UpToDate reach := by
  rcases update_cases d reach with ⟨heq, hcases⟩ | ⟨net, uuid, cfg, hnet, hcurrent, hsearch, heq⟩
  · rw [heq, UpToDate]
    constructor
    · exact fun hq => Or.inr (Or.inl hq)
    · intro h'
      obtain hnone | hq | ⟨hcurrent, hfits⟩ := h'
      · exact Or.inl ⟨hnone, h.uuid.mp hnone⟩
      · exact hq
      · rcases hcases with hnet | hmatch | hno
        · exact Or.inl ⟨h.network hnet, h.uuid.mp (h.network hnet)⟩
        · exact absurd hmatch hcurrent
        · exact absurd hfits hno
  · refine iff_of_true ?_ (Or.inr (Or.inr ⟨hcurrent, ?_⟩))
    · rw [heq]
      exact Or.inr ⟨net, cfg, uuid, hnet, rfl, rfl, qualifies_of_search hsearch⟩
    · rw [someFits_iff hnet, hsearch]
      rfl

end ConfigurationDelegate

/-! ## Runs -/

open ConfigurationDelegate

/-- What is asked of an event: that the selection is up to date or replaced by it. -/
def KeepsSelection (d : ConfigurationDelegate) (a : DelegateAct) : Prop :=
  match a with
  | .connectivity _ reach | .profiles _ reach | .started reach => (d.receive a).UpToDate reach
  | .revoked => True

theorem ConfigurationDelegate.Paired.receive {d : ConfigurationDelegate} (h : d.Paired) (a : DelegateAct) :
    (d.receive a).Paired := by
  cases a with
  | connectivity => exact ⟨h.uuid, nofun⟩
  | profiles | started | revoked => exact ⟨h.uuid, h.network⟩

theorem delegateStep_paired (d : ConfigurationDelegate) (a : DelegateAct) (d' : ConfigurationDelegate)
    (h : d.Paired) (hstep : delegateStep d a = some d') : d'.Paired := by
  cases a with
  | connectivity _ reach | profiles _ reach | started reach =>
    obtain rfl := Option.some.inj hstep
    exact (h.receive _).updateCurrentConfiguration reach
  | revoked =>
    obtain rfl := Option.some.inj hstep
    exact h.receive _

theorem delegateStep_selection (d : ConfigurationDelegate) (a : DelegateAct)
    (d' : ConfigurationDelegate) (h : d.Paired) (hq : d.SelectionQualifies)
    (hstep : delegateStep d a = some d') : d'.SelectionQualifies ↔ KeepsSelection d a := by
  cases a with
  | connectivity _ reach | profiles _ reach | started reach =>
    obtain rfl := Option.some.inj hstep
    exact selectionQualifies_update (h.receive _) reach
  | revoked =>
    obtain rfl := Option.some.inj hstep
    exact iff_of_true hq trivial

/-- Along a run the selection qualifies after every event exactly if it is up to date, or
replaced, at every event. -/
theorem selection_iff (as : List DelegateAct) :
    Along delegateStep (fun _ _ d' => d'.SelectionQualifies) delegateInit as ↔
      Along delegateStep (fun d a _ => KeepsSelection d a) delegateInit as :=
  along_iff_cond (I := Paired) (P := SelectionQualifies) delegateStep_paired
    (fun _ _ _ hq => hq) delegateStep_selection as ⟨iff_of_true rfl rfl, fun _ => rfl⟩
    (Or.inl ⟨rfl, rfl⟩)

def officeLocal : LocalNetwork := ⟨Criteria.officeNetwork, rfl, fun _ => rfl⟩

/-- A profile with a rule for every network. -/
def everyInfo (action : Action) : ConfigInfo :=
  ⟨⟨"office", "IPSec"⟩, true, true, [⟨action, NetworkConfig.any, none, none⟩]⟩

/-- The profile that is selected is removed. -/
def removedRun : List DelegateAct :=
  [.profiles [everyInfo .connect] fun _ _ => true, .connectivity officeLocal fun _ _ => true,
    .profiles [] fun _ _ => true]

theorem selection_stale :
    ¬ Along delegateStep (fun _ _ d' => d'.SelectionQualifies) delegateInit removedRun := by
  intro h
  have hlast := ((h _ rfl).2 _ rfl).2 _ rfl
  rcases hlast.1 with ⟨hnone, -⟩ | ⟨net, cfg, uuid, -, -, -, info, hinfo, -⟩
  · have hsome : ∀ d : ConfigurationDelegate, d.currentConfig.isSome → d.currentConfig ≠ none :=
      fun d hs hn => by rw [hn] at hs; cases hs
    exact hsome _ rfl hnone
  · cases hinfo

end ConfProfile
