import ConfProfile.OnDemand.Config

/-!
# The rules of a payload (`ConfigUtils.extractOnDemandRules`)

A VPN payload has its on-demand lists and rules in the dictionary of its VPN type.
`extractOnDemandRules` writes them to JSON for `VpnOnDemandConfig.fromJson`. The
rules it takes from where they are; for the lists it asks the payload itself, and
for dictionaries, and for the types L2TP and PPTP it has no dictionary at all.

`rules_seen_iff` says from which payloads the JSON has the lists and rules.
-/

namespace ConfProfile

open Tokens

variable {R : Type} (P : Platform R)

section Payload

variable (root : List (String × Obj R))

/-- `mVpnDictKey`. -/
def vpnDictKey : Option String :=
  if getString root "VPNType" = some "VPN" then some "VPN"
  else if getString root "VPNType" = some "IPSec" then some "IPSec"
  else if getString root "VPNType" = some "PPP" then some "PPP"
  else none

/-- The dictionary under `mVpnDictKey`; `none` is a null. -/
def vpnDictionary : Option (List (String × Obj R)) := do getDictionary root (← vpnDictKey root)

/-- `VpnPayload.getOnDemandRules`; the outer `none` is a `NullPointerException`. -/
def getOnDemandRules : Option (Option (List (Obj R))) :=
  (vpnDictionary root).map fun dict => getArray dict "OnDemandRules"

/-- `VpnPayload.isOnDemandEnabled`, likewise. -/
def isOnDemandEnabled : Option Bool :=
  (vpnDictionary root).map fun dict => (getInteger dict "OnDemandEnabled").getD 0 = 1

/-- The keys of the three lists, in the order of `extractOnDemandRules`. -/
def domainKeys : List String :=
  ["OnDemandMatchDomainsNever", "OnDemandMatchDomainsOnRetry", "OnDemandMatchDomainsAlways"]

/-- The map that `extractOnDemandRules` fills. -/
def onDemandMap : Option (List (String × Obj R)) := do
  let lists := domainKeys.flatMap fun key =>
    ((getDictionary root key).map fun testDict => (key, Obj.map testDict)).toList
  let testArray ← getOnDemandRules root
  some (lists ++ (testArray.map fun list => ("OnDemandRules", Obj.list list)).toList)

/-- `ConfigUtils.extractOnDemandRules`; `entrySet` is the order of the entries of a `HashMap`. -/
def extractOnDemandRules (entrySet : List (String × Obj R) → List (String × Obj R)) :
    Option (List Token) := do
  writeJson P .gson (.map (entrySet (← onDemandMap root)))

end Payload

/-! ## What is seen of a payload -/

/-- The keys that `fromJson` looks at. -/
def onDemandKeys : List String := domainKeys ++ ["OnDemandRules"]

/-- The VPN types and the keys of their dictionaries. -/
def typeKeys : List (String × String) :=
  [("VPN", "VPN"), ("IPSec", "IPSec"), ("PPP", "PPP"), ("L2TP", "PPP"), ("PPTP", "PPP")]

/-- The JSON is there, and is read as a map with the lists and rules of the dictionary. -/
def Sees (json : Option (List Token)) (dict : List (String × Obj R)) : Prop :=
  ∃ toks map, json = some toks ∧ mapFromJson P toks = .ok map ∧
    ∀ key ∈ onDemandKeys, map.lookup key = (getArray dict key).map fun l => (Obj.array l).builtin

/-- The payload has a dictionary for its type, and that has no lists but only rules, without
doubles and bytes. -/
structure OnlyRules (root dict : List (String × Obj R)) : Prop where
  vpnDictKey : (vpnDictKey root).isSome
  lists : ∀ key ∈ domainKeys, getArray dict key = none ∧ getDictionary root key = none
  rules : ∀ list, getArray dict "OnDemandRules" = some list → (Obj.array list).Plain

variable {P} {root dict : List (String × Obj R)} {vpnType key : String}

theorem ne_of_domainKey (hkey : key ∈ domainKeys) : key ≠ "OnDemandRules" := by
  intro heq
  obtain rfl := heq
  exact absurd hkey (by decide)

theorem vpnDictionary_eq (htype : getString root "VPNType" = some vpnType)
    (hkey : (vpnType, key) ∈ typeKeys) (hdict : getDictionary root key = some dict)
    (h : (vpnDictKey root).isSome) : vpnDictionary root = some dict := by
  simp only [typeKeys, List.mem_cons, Prod.mk.injEq, List.not_mem_nil, or_false] at hkey
  rcases hkey with ⟨rfl, rfl⟩ | ⟨rfl, rfl⟩ | ⟨rfl, rfl⟩ | ⟨rfl, rfl⟩ | ⟨rfl, rfl⟩
  all_goals
    simp [vpnDictKey, htype] at h
  all_goals
    simp [vpnDictionary, vpnDictKey, htype, hdict]

variable {result : List (String × Obj R)}

theorem onDemandMap_eq (hdict : vpnDictionary root = some dict) :
    onDemandMap root = some ((domainKeys.flatMap fun key =>
        ((getDictionary root key).map fun testDict => (key, Obj.map testDict)).toList) ++
      ((getArray dict "OnDemandRules").map fun list => ("OnDemandRules", Obj.list list)).toList) := by
  rw [onDemandMap, getOnDemandRules, hdict]
  rfl

theorem mem_onDemandMap (hdict : vpnDictionary root = some dict)
    (hresult : onDemandMap root = some result) {x : Obj R} : (key, x) ∈ result ↔
      (key ∈ domainKeys ∧ ∃ testDict, getDictionary root key = some testDict ∧ x = .map testDict) ∨
      (key = "OnDemandRules" ∧ ∃ list, getArray dict "OnDemandRules" = some list ∧ x = .list list) := by
  obtain rfl := Option.some.inj ((onDemandMap_eq hdict).symm.trans hresult)
  simp only [List.mem_append, List.mem_flatMap, Option.mem_toList, Option.map_eq_some_iff,
    Prod.mk.injEq]
  constructor
  · intro h'
    obtain ⟨key', hkey, testDict, h, rfl, rfl⟩ | ⟨list, h, rfl, rfl⟩ := h'
    · exact Or.inl ⟨hkey, testDict, h, rfl⟩
    · exact Or.inr ⟨rfl, list, h, rfl⟩
  · intro h'
    obtain ⟨hkey, testDict, h, rfl⟩ | ⟨rfl, list, h, rfl⟩ := h'
    · exact Or.inl ⟨key, hkey, testDict, h, rfl, rfl⟩
    · exact Or.inr ⟨list, h, rfl, rfl⟩

theorem nodup_onDemandMap (hdict : vpnDictionary root = some dict)
    (hresult : onDemandMap root = some result) : (result.map Prod.fst).Nodup := by
  obtain rfl := Option.some.inj ((onDemandMap_eq hdict).symm.trans hresult)
  simp only [domainKeys, List.flatMap_cons, List.flatMap_nil]
  cases getDictionary root "OnDemandMatchDomainsNever" <;>
    cases getDictionary root "OnDemandMatchDomainsOnRetry" <;>
    cases getDictionary root "OnDemandMatchDomainsAlways" <;>
    cases getArray dict "OnDemandRules" <;> simp

theorem typed_vpnDictionary (hroot : (Obj.dictionary root).Typed)
    (hdict : vpnDictionary root = some dict) : (Obj.dictionary dict).Typed := by
  obtain ⟨key, -, h⟩ := Option.bind_eq_some_iff.mp hdict
  exact typed_getDictionary hroot h

/-- What is written for each entry is taken again, whatever is made of it. -/
theorem takes_onDemandMap (hroot : (Obj.dictionary root).Typed)
    (hdict : vpnDictionary root = some dict) (hresult : onDemandMap root = some result) :
    ∀ e ∈ result, notNull e ∧ Takes P .gson e.2 := by
  intro p he
  obtain ⟨key, x⟩ := p
  rcases (mem_onDemandMap hdict hresult).mp he with ⟨-, testDict, h, rfl⟩ | ⟨-, list, h, rfl⟩
  · have htyped := typed_getDictionary hroot h
    exact ⟨rfl, takes_object rfl htyped.1 (takes_entries .gson testDict htyped.2)⟩
  · have htyped := typed_getArray (typed_vpnDictionary hroot hdict) h
    exact ⟨rfl, takes_array rfl (takes_items .gson list htyped)⟩

/-- The members of the map that is read are read from the entries. -/
theorem read_onDemandMap {entrySet : List (String × Obj R) → List (String × Obj R)}
    (hperm : ∀ map, (entrySet map).Perm map) (hroot : (Obj.dictionary root).Typed)
    (hdict : vpnDictionary root = some dict) (hresult : onDemandMap root = some result)
    {toks : List Token} (hwrite : writeJson P .gson (.map (entrySet result)) = some toks)
    {map : List (String × Obj R)} (hread : mapFromJson P toks = .ok map) :
    List.Forall₂ (ReadFrom P .gson) (entrySet result) map := by
  obtain ⟨s', hgives⟩ := result_eq_ok.mp hread
  obtain ⟨members, hmembers, rfl⟩ := Option.map_eq_some_iff.mp hwrite
  obtain ⟨toks, htoks, h⟩ := of_gives_readObject (gives_whole.mp hgives).1
  obtain ⟨-, rfl⟩ := List.cons.inj htoks
  have hkeys : ((entrySet result).map Prod.fst).Nodup :=
    ((hperm result).map Prod.fst).nodup_iff.mpr (nodup_onDemandMap hdict hresult)
  obtain ⟨-, entries, rfl, hentries⟩ := takes_members []
    (fun e he => takes_onDemandMap hroot hdict hresult e ((hperm result).mem_iff.mp he))
    hmembers hkeys h
  exact hentries

theorem keys_readFrom {entries map : List (String × Obj R)} {by' : WriteBy}
    (h : List.Forall₂ (ReadFrom P by') entries map) : map.map Prod.fst = entries.map Prod.fst := by
  induction h with
  | nil => rfl
  | cons hread _ ih => rw [List.map_cons, List.map_cons, ih, hread.1]

/-- A dictionary of the payload itself is read as a map. -/
theorem map_readFrom {entries map : List (String × Obj R)} {by' : WriteBy}
    (h : List.Forall₂ (ReadFrom P by') entries map) {testDict : List (String × Obj R)}
    (hmem : (key, .map testDict) ∈ entries) : ∃ m, (key, Obj.map m) ∈ map := by
  induction h with
  | nil => cases hmem
  | @cons e e' entries map hread _ ih =>
    rcases List.mem_cons.mp hmem with rfl | hmem
    · obtain ⟨hkey, toks, n, rest, hwrite, hgives⟩ := hread
      obtain ⟨members, -, rfl⟩ := Option.map_eq_some_iff.mp hwrite
      obtain ⟨m, hm⟩ := map_of_readValue hgives
      obtain rfl : e' = (key, .map m) := Prod.ext hkey hm
      exact ⟨m, List.mem_cons_self⟩
    · obtain ⟨m, hm⟩ := ih hmem
      exact ⟨m, List.mem_cons_of_mem e' hm⟩

theorem onlyRules_of_sees {entrySet : List (String × Obj R) → List (String × Obj R)}
    (hperm : ∀ map, (entrySet map).Perm map) (hroot : (Obj.dictionary root).Typed)
    (htype : getString root "VPNType" = some vpnType) (hkey : (vpnType, key) ∈ typeKeys)
    (hdict : getDictionary root key = some dict)
    (h : Sees P (extractOnDemandRules P root entrySet) dict) : OnlyRules root dict := by
  obtain ⟨toks, map, hextract, hread, hsees⟩ := h
  obtain ⟨result, hresult, hwrite⟩ := Option.bind_eq_some_iff.mp hextract
  have hsome : (vpnDictKey root).isSome := by
    cases hnone : vpnDictKey root with
    | some _ => rfl
    | none =>
      rw [onDemandMap, getOnDemandRules, vpnDictionary, hnone] at hresult
      cases hresult
  have hvpn := vpnDictionary_eq htype hkey hdict hsome
  have hentries := read_onDemandMap hperm hroot hvpn hresult hwrite hread
  have hkeys : map.map Prod.fst = (entrySet result).map Prod.fst := keys_readFrom hentries
  have hnodup : (map.map Prod.fst).Nodup := by
    rw [hkeys]
    exact ((hperm result).map Prod.fst).nodup_iff.mpr (nodup_onDemandMap hvpn hresult)
  have hlist : ∀ key ∈ domainKeys, getDictionary root key = none := by
    intro key hkey
    by_contra hne
    obtain ⟨testDict, htest⟩ := Option.ne_none_iff_exists'.mp hne
    obtain ⟨m, hm⟩ := map_readFrom hentries ((hperm result).mem_iff.mpr
      ((mem_onDemandMap hvpn hresult).mpr (Or.inl ⟨hkey, testDict, htest, rfl⟩)))
    have hlookup := hsees key (List.mem_append_left _ hkey)
    rw [(lookup_eq_some hnodup).mpr hm] at hlookup
    obtain ⟨list, -, hlist⟩ := Option.map_eq_some_iff.mp hlookup.symm
    cases hlist
  refine ⟨hsome, fun key hkey => ⟨?_, hlist key hkey⟩, fun list hrules => ?_⟩
  · -- the key is not in the map that is read
    have hnot : map.lookup key = none := by
      rw [List.lookup_eq_none_iff]
      intro e he
      obtain ⟨k, x⟩ := e
      have hmem : k ∈ (entrySet result).map Prod.fst := hkeys ▸ List.mem_map_of_mem he
      obtain ⟨⟨k', x'⟩, hx', rfl⟩ := List.mem_map.mp hmem
      rcases (mem_onDemandMap hvpn hresult).mp ((hperm result).mem_iff.mp hx') with
        ⟨hk, testDict, htest, -⟩ | ⟨rfl, -⟩
      · rw [hlist _ hk] at htest
        cases htest
      · simp [ne_of_domainKey hkey]
    rw [hsees key (List.mem_append_left _ hkey)] at hnot
    exact Option.map_eq_none_iff.mp hnot
  · have hlookup := hsees "OnDemandRules" (by simp [onDemandKeys])
    rw [hrules] at hlookup
    have hjson := fromJson_of_mapFromJson hread
    have htyped := typed_getArray (typed_vpnDictionary hroot hvpn) hrules
    exact Obj.plain_of_builtin (.array list) htyped
      (Obj.fromJsonEntries_iff.mp hjson _ (mem_of_lookup hlookup))

theorem sees_of_onlyRules {entrySet : List (String × Obj R) → List (String × Obj R)}
    (hperm : ∀ map, (entrySet map).Perm map) (hroot : (Obj.dictionary root).Typed)
    (htype : getString root "VPNType" = some vpnType) (hkey : (vpnType, key) ∈ typeKeys)
    (hdict : getDictionary root key = some dict) (h : OnlyRules root dict) :
    Sees P (extractOnDemandRules P root entrySet) dict := by
  have hvpn := vpnDictionary_eq htype hkey hdict h.vpnDictKey
  have hresult : onDemandMap root = some ((getArray dict "OnDemandRules").map fun list =>
      ("OnDemandRules", Obj.list list)).toList := by
    rw [onDemandMap_eq hvpn, List.flatMap_eq_nil_iff.mpr, List.nil_append]
    intro key hkey
    rw [(h.lists key hkey).2]
    rfl
  have hentries : entrySet ((getArray dict "OnDemandRules").map fun list =>
      ("OnDemandRules", Obj.list list)).toList =
      ((getArray dict "OnDemandRules").map fun list => ("OnDemandRules", Obj.list list)).toList := by
    cases getArray dict "OnDemandRules" with
    | none => exact List.perm_nil.mp (hperm _)
    | some list => exact List.perm_singleton.mp (hperm _)
  have hreads : ∀ e ∈ ((getArray dict "OnDemandRules").map fun list =>
      ("OnDemandRules", Obj.list list)).toList, notNull e ∧ ReadsBack P .gson e.2 := by
    intro e he
    obtain ⟨list, hlist, rfl⟩ := Option.map_eq_some_iff.mp (Option.mem_toList.mp he)
    have htyped := typed_getArray (typed_vpnDictionary hroot hvpn) hlist
    exact ⟨rfl, readsBack_array rfl rfl (readsBack_items .gson list htyped (h.rules list hlist))⟩
  obtain ⟨toks, hwrite, hread⟩ := mapFromJson_of_readsBack hreads
    (by cases getArray dict "OnDemandRules" <;> simp)
  refine ⟨toks, _, ?_, hread, fun key hkey => ?_⟩
  · rw [extractOnDemandRules, hresult]
    show writeJson P .gson (.map (entrySet _)) = _
    rw [hentries, hwrite]
  · rw [Obj.lookup_builtinEntries]
    rcases List.mem_append.mp hkey with hkey | hkey
    · rw [(h.lists key hkey).1]
      cases getArray dict "OnDemandRules" with
      | none => rfl
      | some list =>
        simp [ne_of_domainKey hkey]
    · obtain rfl := List.mem_singleton.mp hkey
      cases getArray dict "OnDemandRules" <;> rfl

/-- For all payloads, types and orders of the map: the JSON has exactly the lists and rules
of the payload if there are only rules, and they are reached. -/
theorem rules_seen_iff {entrySet : List (String × Obj R) → List (String × Obj R)}
    (hperm : ∀ map, (entrySet map).Perm map) (hroot : (Obj.dictionary root).Typed)
    (htype : getString root "VPNType" = some vpnType) (hkey : (vpnType, key) ∈ typeKeys)
    (hdict : getDictionary root key = some dict) :
    Sees P (extractOnDemandRules P root entrySet) dict ↔ OnlyRules root dict :=
  ⟨onlyRules_of_sees hperm hroot htype hkey hdict,
    sees_of_onlyRules hperm hroot htype hkey hdict⟩

/-- A dictionary with a rule. -/
def ruleDict : List (String × Obj Bool) :=
  [("OnDemandEnabled", .integer 1),
    ("OnDemandRules", .array [.dictionary [("Action", .string "Connect")]])]

def ruleRoot : List (String × Obj Bool) :=
  [("VPNType", .string "IPSec"), ("IPSec", .dictionary ruleDict)]

theorem rules_seen_iff_rule : (Obj.dictionary ruleRoot).Typed ∧
    getString ruleRoot "VPNType" = some "IPSec" ∧ getDictionary ruleRoot "IPSec" = some ruleDict ∧
    Sees smallPlatform (extractOnDemandRules smallPlatform ruleRoot id) ruleDict := by
  have htyped : (Obj.dictionary ruleRoot).Typed := by
    simp [ruleRoot, ruleDict, Obj.Typed, Obj.TypedEntries, Obj.TypedItems]
  have htype : getString ruleRoot "VPNType" = some "IPSec" := rfl
  have hkey : ("IPSec", "IPSec") ∈ typeKeys := by decide
  refine ⟨htyped, rfl, rfl, (rules_seen_iff (fun map => List.Perm.refl map) htyped htype hkey
    rfl).mpr ⟨rfl, ?_, fun list h => ?_⟩⟩
  · intro key hkey
    simp only [domainKeys, List.mem_cons, List.not_mem_nil, or_false] at hkey
    rcases hkey with rfl | rfl | rfl <;> exact ⟨rfl, rfl⟩
  · cases h
    simp [Obj.Plain, Obj.PlainItems, Obj.PlainEntries]

/-- A dictionary with a list of domains. -/
def listDict : List (String × Obj Bool) :=
  [("OnDemandMatchDomainsAlways", .array [.string "corp"])]

def listRoot : List (String × Obj Bool) :=
  [("VPNType", .string "IPSec"), ("IPSec", .dictionary listDict)]

/-- The list is not in the JSON. -/
theorem list_not_seen : (Obj.dictionary listRoot).Typed ∧
    getString listRoot "VPNType" = some "IPSec" ∧ getDictionary listRoot "IPSec" = some listDict ∧
    extractOnDemandRules smallPlatform listRoot id = some [.beginObject, .endObject] ∧
    ¬ Sees smallPlatform (extractOnDemandRules smallPlatform listRoot id) listDict := by
  have hjson : extractOnDemandRules smallPlatform listRoot id = some [.beginObject, .endObject] := rfl
  refine ⟨by simp [listRoot, listDict, Obj.Typed, Obj.TypedEntries, Obj.TypedItems], rfl, rfl,
    hjson, ?_⟩
  intro h
  obtain ⟨toks, map, htoks, hread, hsees⟩ := h
  obtain rfl := Option.some.inj (hjson.symm.trans htoks)
  have hempty : mapFromJson smallPlatform [.beginObject, .endObject] = .ok [] := rfl
  obtain rfl := Except.ok.inj (hempty.symm.trans hread)
  have hlookup := hsees "OnDemandMatchDomainsAlways" (by decide)
  cases hlookup

end ConfProfile
