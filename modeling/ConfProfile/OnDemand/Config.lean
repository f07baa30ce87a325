import ConfProfile.Format.Builtin
import ConfProfile.OnDemand.Network

/-!
# On-demand rules (`VpnOnDemandConfig`)

`fromJson` decodes the rules of a tunnel, and for a profile without rules the three
old lists of domains: one action parameter for the domains never to connect to, in
front, and one for the others.

Both parameters get the action `ConnectIfNeeded`. So the domains in front are
connected to like the others (`evaluate_legacy_iff`).
-/

namespace ConfProfile

open Tokens

variable {R : Type} (P : Platform R)

/-! ## Rules -/

/-- `ACTION_…`. -/
inductive Action where
  | unsupported
  | allow
  | connect
  | disconnect
  | evaluateConnection
  | ignore
  deriving DecidableEq, Repr

def actionByString (action : Option String) : Action :=
  if action = some "Allow" then .allow
  else if action = some "Connect" then .connect
  else if action = some "Disconnect" then .disconnect
  else if action = some "EvaluateConnection" then .evaluateConnection
  else if action = some "Ignore" then .ignore
  else .unsupported

/-- `DOMAIN_ACTION_…`. -/
inductive DomainAction where
  | unsupported
  | connectIfNeeded
  | neverConnect
  deriving DecidableEq, Repr

def domainActionByString (action : Option String) : DomainAction :=
  if action = some "ConnectIfNeeded" then .connectIfNeeded
  else if action = some "NeverConnect" then .neverConnect
  else .unsupported

/-- `ActionParameter`. -/
structure ActionParameter where
  domains : Option (List (Option String))
  domainAction : DomainAction
  requiredDnsServers : Option (List (Option String))
  requiredUrlStringProbe : Option String
  deriving DecidableEq, Repr

/-- The cast to `Map`, or the map of a `Dictionary`; `none` is an exception, also where the
map is null, since it is asked at once. -/
def castMap : Obj R → Option (List (String × Obj R))
  | .dictionary map => some map
  | .map map => some map
  | _ => none

namespace ActionParameter

/-- `checkDns` and `probeUrl`, which are not written yet. -/
def checkDns (_testDomain : String) : Bool := false
def probeUrl : Bool := false

/-- The loop of `match` over the domains; `none` is a null in it. -/
def matchDomains (testDomain : String) : List (Option String) → Option Bool
  | [] => some false
  | none :: _ => none
  | some domain :: domains =>
    if P.equalsIgnoreCase domain testDomain then some true else matchDomains testDomain domains

/-- `ActionParameter.match`. -/
def isMatch (this : ActionParameter) (testDomain : String) : Option Bool := do
  if !(← matchDomains P testDomain (← this.domains)) then some false
  else
    let isMatch := if this.requiredDnsServers.isSome then checkDns testDomain else true
    if !isMatch then some false
    else some (if this.requiredUrlStringProbe.isSome then probeUrl else isMatch)

/-- `ActionParameter.fromMap`. -/
def fromMap (map : List (String × Obj R)) : Option ActionParameter := do
  let domains ← castStrings (mapGet map "Domains")
  let domainAction ← castString (mapGet map "DomainAction")
  let requiredDnsServers ← castStrings (mapGet map "RequiredDNSServers")
  let requiredUrlStringProbe ← castString (mapGet map "RequiredURLStringProbe")
  some ⟨domains, domainActionByString domainAction, requiredDnsServers, requiredUrlStringProbe⟩

end ActionParameter

/-- `VpnOnDemandConfig`. -/
structure VpnOnDemandConfig where
  action : Action
  networkConfig : NetworkConfig
  urlStringProbe : Option String
  actionParameters : Option (List ActionParameter)
  deriving DecidableEq

namespace VpnOnDemandConfig

/-- The loop of `evaluate`. -/
def evaluateParameters (address : String) : List ActionParameter → Option Bool
  | [] => some false
  | param :: params => do
    if ← param.isMatch P address then some (decide (param.domainAction = .connectIfNeeded))
    else evaluateParameters address params

/-- `evaluate`: whether a connection is needed; `none` is an exception. -/
def evaluate (this : VpnOnDemandConfig) (address : String) : Option Bool :=
  if this.action ≠ .evaluateConnection then some false
  else match this.actionParameters with
    | none => some false
    | some params => evaluateParameters P address params

/-- `VpnOnDemandConfig.fromMap`. -/
def fromMap (map : List (String × Obj R)) : Option VpnOnDemandConfig := do
  let action ← castString (mapGet map "Action")
  let networkConfig ← NetworkConfig.fromMap map
  let urlStringProbe ← castString (mapGet map "URLStringProbe")
  let testList ← castList (mapGet map "ActionParameters")
  let actionParameters ← testList.elim (some none) fun list =>
    (list.mapM fun obj => do ActionParameter.fromMap (← castMap obj)).map some
  some ⟨actionByString action, networkConfig, urlStringProbe, actionParameters⟩

/-- A rule decoded in `fromJson`, where the deprecated action gets the default parameters. -/
def fromRule (defaultActionParameters : List ActionParameter) (map : List (String × Obj R)) :
    Option VpnOnDemandConfig := do
  let tmpCfg ← fromMap map
  if tmpCfg.action = .allow then
    some { tmpCfg with
      action := .evaluateConnection
      actionParameters := some defaultActionParameters }
  else some tmpCfg

/-- The map, of an object that is one. -/
def instanceOfMap : Obj R → Option (List (String × Obj R))
  | .map map => some map
  | _ => none

/-- What `addAll` gets of the list under a key; `none` is its exception. -/
def listAt (map : List (String × Obj R)) (key : String) : Option (List (Obj R)) :=
  match map.lookup key with
  | none => some []
  | some (.list tmpList) => some tmpList
  | some _ => none

/-- A parameter for the names, if there are any; both sorts of names get the same action. -/
def domainParameter (names : List (Obj R)) : Option (List ActionParameter) :=
  if names.isEmpty then some []
  else do
    let domains ← names.mapM castString
    some [⟨some domains, domainActionByString (some "ConnectIfNeeded"), none, none⟩]

/-- `fromJson` behind the JSON. -/
def fromJsonMap (map : List (String × Obj R)) : Option (List VpnOnDemandConfig) := do
  let always ← listAt map "OnDemandMatchDomainsAlways"
  let onRetry ← listAt map "OnDemandMatchDomainsOnRetry"
  let domainsNeverNames ← listAt map "OnDemandMatchDomainsNever"
  let domainsNever ← domainParameter domainsNeverNames
  let domainsOnRetry ← domainParameter (always ++ onRetry)
  let defaultActionParameters := domainsNever ++ domainsOnRetry
  match map.lookup "OnDemandRules" with
  | none =>
    some [⟨.evaluateConnection, NetworkConfig.any, none, some defaultActionParameters⟩]
  | some (.list tmpList) =>
    (tmpList.filterMap instanceOfMap).mapM (fromRule defaultActionParameters)
  | some _ => none

/-- `VpnOnDemandConfig.fromJson`. -/
def fromJson (json : List Token) : Except Stop (List VpnOnDemandConfig) := do
  let map ← mapFromJson P json
  (fromJsonMap map).elim (.error .thrown) .ok

/-! ## What is decoded -/

theorem mem_of_mapM {α β : Type} {f : α → Option β} {list : List α} {results : List β}
    (h : list.mapM f = some results) {b : β} (hb : b ∈ results) : ∃ a ∈ list, f a = some b := by
  induction list generalizing results with
  | nil =>
    obtain rfl := Option.some.inj h
    cases hb
  | cons a list ih =>
    simp only [List.mapM_cons, Option.bind_eq_bind, Option.bind_eq_some_iff] at h
    obtain ⟨b', hb', results', hresults, h⟩ := h
    obtain rfl := Option.some.inj h
    rcases List.mem_cons.mp hb with rfl | hb
    · exact ⟨a, List.mem_cons_self, hb'⟩
    · obtain ⟨a', ha', h'⟩ := ih hresults hb
      exact ⟨a', List.mem_cons_of_mem a ha', h'⟩

/-- A rule decoded on its own. -/
theorem fromMap_eq_some {map : List (String × Obj R)} {cfg : VpnOnDemandConfig}
    (h : fromMap map = some cfg) : cfg.networkConfig.isStrict = false ∧
      ∃ action, castString (mapGet map "Action") = some action ∧ cfg.action = actionByString action := by
  simp only [fromMap, Option.bind_eq_bind, Option.bind_eq_some_iff, Option.some.injEq] at h
  obtain ⟨action, haction, networkConfig, hnetwork, probe, -, list, -, parameters, -, rfl⟩ := h
  exact ⟨NetworkConfig.fromMap_strict hnetwork, action, haction, rfl⟩

/-- The rule of a list: the deprecated action is replaced, the others are kept. -/
theorem fromRule_eq_some {params : List ActionParameter} {map : List (String × Obj R)}
    {cfg : VpnOnDemandConfig} (h : fromRule params map = some cfg) :
    cfg.networkConfig.isStrict = false ∧
      ∃ action, castString (mapGet map "Action") = some action ∧
        cfg.action = if actionByString action = .allow then .evaluateConnection
          else actionByString action := by
  simp only [fromRule, Option.bind_eq_bind, Option.bind_eq_some_iff] at h
  obtain ⟨tmpCfg, htmp, h⟩ := h
  obtain ⟨hstrict, action, haction, hcfg⟩ := fromMap_eq_some htmp
  split at h
  next hallow =>
    cases h
    exact ⟨hstrict, action, haction, by rw [if_pos (hcfg ▸ hallow)]⟩
  next hallow =>
    cases h
    exact ⟨hstrict, action, haction, by rw [if_neg (hcfg ▸ hallow), hcfg]⟩

/-- The configurations of a tunnel are not strict. -/
theorem fromJson_strict {json : List Token} {configurations : List VpnOnDemandConfig}
    (h : fromJson P json = .ok configurations) :
    ∀ cfg ∈ configurations, cfg.networkConfig.isStrict = false := by
  intro cfg hcfg
  have hmap : ∃ map, fromJsonMap (R := R) map = some configurations := by
    unfold fromJson at h
    cases hread : mapFromJson P json with
    | error e => rw [hread] at h; cases h
    | ok map =>
      rw [hread] at h
      refine ⟨map, ?_⟩
      change (fromJsonMap map).elim _ _ = _ at h
      cases hdecode : fromJsonMap map with
      | none => rw [hdecode] at h; cases h
      | some decoded => rw [hdecode] at h; exact congrArg some (Except.ok.inj h)
  obtain ⟨map, hmap⟩ := hmap
  simp only [fromJsonMap, Option.bind_eq_bind, Option.bind_eq_some_iff] at hmap
  obtain ⟨always, -, onRetry, -, names, -, domainsNever, -, domainsOnRetry, -, hmap⟩ := hmap
  split at hmap
  next =>
    cases hmap
    obtain rfl := List.mem_singleton.mp hcfg
    rfl
  next =>
    obtain ⟨rule, -, hrule⟩ := mem_of_mapM hmap hcfg
    exact (fromRule_eq_some hrule).1
  next => cases hmap

/-! ## The old lists -/

/-- The old lists of a profile without rules. -/
structure Legacy (map : List (String × Obj R)) (always onRetry never : Option (List String)) :
    Prop where
  always : map.lookup "OnDemandMatchDomainsAlways" = always.map fun l => .list (l.map .string)
  onRetry : map.lookup "OnDemandMatchDomainsOnRetry" = onRetry.map fun l => .list (l.map .string)
  never : map.lookup "OnDemandMatchDomainsNever" = never.map fun l => .list (l.map .string)
  rules : map.lookup "OnDemandRules" = none

/-- The address is, but for its case, a domain of the list. -/
def Listed (domains : Option (List String)) (address : String) : Prop :=
  ∃ domain ∈ domains.getD [], P.equalsIgnoreCase domain address = true

variable {P} {map : List (String × Obj R)} {always onRetry never : Option (List String)}
  {address : String}

theorem matchDomains_strings (names : List String) :
    ActionParameter.matchDomains P address (names.map some) =
      some (names.any fun domain => P.equalsIgnoreCase domain address) := by
  induction names with
  | nil => rfl
  | cons domain names ih =>
    rw [List.map_cons, ActionParameter.matchDomains, ih, List.any_cons]
    cases P.equalsIgnoreCase domain address <;> rfl

/-- Each parameter has its names connected to. -/
theorem evaluate_domainParameter (P : Platform R) (address : String) (names : List String) :
    ∃ params, domainParameter (names.map (Obj.string (R := R))) = some params ∧
      ∀ rest, evaluateParameters P address (params ++ rest) =
        if names.any fun domain => P.equalsIgnoreCase domain address then some true
        else evaluateParameters P address rest := by
  cases names with
  | nil => exact ⟨[], rfl, fun rest => rfl⟩
  | cons name names =>
    refine ⟨[⟨some ((name :: names).map some), .connectIfNeeded, none, none⟩], ?_, fun rest => ?_⟩
    · rw [domainParameter, castStrings_strings]
      rfl
    · rw [List.singleton_append, evaluateParameters, ActionParameter.isMatch]
      simp only [Option.bind_eq_bind, Option.bind_some]
      rw [matchDomains_strings]
      cases (name :: names).any fun domain => P.equalsIgnoreCase domain address <;> rfl

theorem listAt_strings {key : String} {names : Option (List String)}
    (h : map.lookup key = names.map fun l => .list (l.map .string)) :
    listAt map key = some ((names.getD []).map .string) := by
  rw [listAt, h]
  cases names <;> rfl

theorem listed_iff {names : Option (List String)} : Listed P names address ↔
    ((names.getD []).any fun domain => P.equalsIgnoreCase domain address) = true := by
  rw [List.any_eq_true]
  rfl

/-- The configuration made of the lists connects to the domains of all of them. -/
theorem evaluate_legacy (h : Legacy map always onRetry never) (address : String) :
    ∃ cfg b, fromJsonMap map = some [cfg] ∧ cfg.evaluate P address = some b ∧
      (b = true ↔ Listed P never address ∨ Listed P always address ∨ Listed P onRetry address) := by
  obtain ⟨domainsNever, hnever, hevalNever⟩ :=
    evaluate_domainParameter P address (never.getD [])
  obtain ⟨domainsOnRetry, honRetry, hevalOnRetry⟩ :=
    evaluate_domainParameter P address (always.getD [] ++ onRetry.getD [])
  refine ⟨⟨.evaluateConnection, NetworkConfig.any, none, some (domainsNever ++ domainsOnRetry)⟩,
    ((never.getD []).any fun domain => P.equalsIgnoreCase domain address) ||
      (always.getD [] ++ onRetry.getD []).any fun domain => P.equalsIgnoreCase domain address,
    ?_, ?_, ?_⟩
  · rw [fromJsonMap, listAt_strings h.always, listAt_strings h.onRetry, listAt_strings h.never]
    simp only [Option.bind_eq_bind, Option.bind_some, hnever, ← List.map_append, honRetry, h.rules]
  · rw [evaluate, if_neg (not_not.mpr rfl)]
    show evaluateParameters P address (domainsNever ++ domainsOnRetry) = _
    rw [hevalNever, ← List.append_nil domainsOnRetry, hevalOnRetry, evaluateParameters]
    split_ifs with hn hr
    · rw [hn, Bool.true_or]
    · rw [hr, Bool.or_true]
    · rw [eq_false_of_ne_true hn, eq_false_of_ne_true hr]
      rfl
  · rw [listed_iff, listed_iff, listed_iff, List.any_append, Bool.or_eq_true, Bool.or_eq_true]

/-- For all JSON without rules and all addresses: the domains of the first list are kept
out, and the others connected to, exactly where the address is not in the first list. -/
theorem evaluate_legacy_iff {json : List Token} (hjson : mapFromJson P json = .ok map)
    (h : Legacy map always onRetry never) (address : String) :
    ∃ cfg b, fromJson P json = .ok [cfg] ∧ cfg.evaluate P address = some b ∧
      ((b = true ↔ ¬ Listed P never address ∧
          (Listed P always address ∨ Listed P onRetry address)) ↔
        ¬ Listed P never address) := by
  obtain ⟨cfg, b, hcfg, hb, hiff⟩ := evaluate_legacy (P := P) h address
  refine ⟨cfg, b, ?_, hb, ?_⟩
  · rw [fromJson, hjson]
    show (fromJsonMap map).elim _ _ = _
    rw [hcfg]
    rfl
  · rw [hiff]
    tauto

/-- JSON with two lists that have a domain in common. -/
def legacyJson : List Token :=
  [.beginObject, .name "OnDemandMatchDomainsAlways", .beginArray, .string "corp", .string "lan",
    .endArray, .name "OnDemandMatchDomainsNever", .beginArray, .string "LAN", .endArray, .endObject]

def legacyMap : List (String × Obj Bool) :=
  [("OnDemandMatchDomainsAlways", .list [.string "corp", .string "lan"]),
    ("OnDemandMatchDomainsNever", .list [.string "LAN"])]

theorem legacyMap_legacy : Legacy legacyMap (some ["corp", "lan"]) none (some ["LAN"]) :=
  ⟨rfl, rfl, rfl, rfl⟩

theorem evaluate_legacy_iff_corp : mapFromJson smallPlatform legacyJson = .ok legacyMap ∧
    ∃ cfg, fromJson smallPlatform legacyJson = .ok [cfg] ∧
      cfg.evaluate smallPlatform "corp" = some true := by
  have hjson : mapFromJson smallPlatform legacyJson = .ok legacyMap := rfl
  refine ⟨hjson, ?_⟩
  obtain ⟨cfg, b, hcfg, hb, hiff⟩ := evaluate_legacy_iff hjson legacyMap_legacy "corp"
  have hnever : ¬ Listed smallPlatform (some ["LAN"]) "corp" := by
    rw [listed_iff]
    decide
  have halways : Listed smallPlatform (some ["corp", "lan"]) "corp" := listed_iff.mpr rfl
  rw [(hiff.mpr hnever).mpr ⟨hnever, Or.inl halways⟩] at hb
  exact ⟨cfg, hcfg, hb⟩

/-- A domain that is never to be connected to is. -/
theorem evaluate_never : mapFromJson smallPlatform legacyJson = .ok legacyMap ∧
    Legacy legacyMap (some ["corp", "lan"]) none (some ["LAN"]) ∧
    Listed smallPlatform (some ["LAN"]) "lan" ∧
    ∃ cfg, fromJson smallPlatform legacyJson = .ok [cfg] ∧
      cfg.evaluate smallPlatform "lan" = some true :=
  ⟨rfl, legacyMap_legacy, listed_iff.mpr rfl, _, rfl, rfl⟩

end VpnOnDemandConfig

end ConfProfile
