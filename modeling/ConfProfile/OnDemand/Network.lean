import ConfProfile.Format.Plist
import ConfProfile.Lib.Search

/-!
# Networks and rules (`NetworkConfig`)

A `NetworkConfig` stands for the network that is there (strict) or for the criteria
of an on-demand rule. `fits_iff` says what `match` finds out about the two.

`fromMap` stores the address masks of a rule where its domain masks are, so they
are compared with the domains of the network. `network_matches_iff` says for which
rules and networks that makes no difference.
-/

namespace ConfProfile

open Search

/-! ## Masks -/

/-- `NetworkConfig.DomainName`. -/
structure DomainName where
  hasPrefix : Bool
  name : String
  deriving DecidableEq, Repr

namespace DomainName

def ofString (domain : Option String) : DomainName :=
  let domain := domain.getD ""
  if ['*'].isPrefixOf domain.toList then ⟨true, String.ofList (domain.toList.drop 1)⟩
  else ⟨false, domain⟩

variable (this : DomainName)

def isStrict : Bool := !this.hasPrefix

/-- `match` of a strict name. -/
def isMatchStrict (name : DomainName) : Bool :=
  match lastIndexOf this.name.toList name.name.toList with
  | none => false
  | some pos =>
    if pos < this.name.length - name.name.length then false
    else if name.name.length ≠ this.name.length ∧ name.isStrict then false
    else true

/-- `DomainName.match`. -/
def isMatch (name : DomainName) : Bool :=
  if !this.isStrict && !name.isStrict then false
  else if !this.isStrict then name.isMatchStrict this
  else this.isMatchStrict name

/-- A mask with a wildcard accepts what ends with it, another one only itself. -/
def Accepts (mask : DomainName) (name : String) : Prop :=
  if mask.hasPrefix then mask.name.toList <:+ name.toList else name = mask.name

instance (mask : DomainName) (name : String) : Decidable (mask.Accepts name) :=
  inferInstanceAs (Decidable (if mask.hasPrefix then mask.name.toList <:+ name.toList else name = mask.name))

theorem isMatchStrict_iff (mask : DomainName) :
    this.isMatchStrict mask = true ↔ mask.Accepts this.name := by
  have hend := lastIndexOf_at_end (s := this.name.toList) (t := mask.name.toList)
  rw [String.length_toList, String.length_toList] at hend
  have hmatch : this.isMatchStrict mask = true ↔ mask.name.toList <:+ this.name.toList ∧
      ¬ (mask.name.length ≠ this.name.length ∧ mask.isStrict = true) := by
    rw [← hend, isMatchStrict]
    cases lastIndexOf this.name.toList mask.name.toList with
    | none => simp
    | some pos =>
      simp only [Option.some.injEq, exists_eq_left', ← not_lt]
      split_ifs with hpos hlen
      · exact iff_of_false not_false fun h => h.1 hpos
      · exact iff_of_false not_false fun h => h.2 hlen
      · exact iff_of_true rfl ⟨hpos, hlen⟩
  rw [hmatch, Accepts, isStrict]
  cases mask.hasPrefix with
  | true => simp
  | false =>
    simp only [Bool.not_false, and_true, not_not, Bool.false_eq_true, if_false]
    constructor
    · intro h'
      obtain ⟨hsuffix, hlen⟩ := h'
      have heq := hsuffix.eq_of_length (by rwa [String.length_toList, String.length_toList])
      exact (String.toList_inj.mp heq).symm
    · intro h
      exact ⟨h ▸ List.suffix_rfl, congrArg String.length h.symm⟩

theorem isMatch_iff (h : this.isStrict = true) (mask : DomainName) :
    this.isMatch mask = true ↔ mask.Accepts this.name := by
  rw [← isMatchStrict_iff, isMatch, h]
  rfl

end DomainName

/-- `NetworkConfig.DomainAddress`. -/
structure DomainAddress where
  hasSuffix : Bool
  addr : String
  deriving DecidableEq, Repr

namespace DomainAddress

def ofString (domain : Option String) : DomainAddress :=
  let domain := domain.getD ""
  if ['*'].isSuffixOf domain.toList then ⟨true, String.ofList domain.toList.dropLast⟩
  else ⟨false, domain⟩

variable (this : DomainAddress)

def isStrict : Bool := !this.hasSuffix

/-- `match` of a strict address. -/
def isMatchStrict (addr : DomainAddress) : Bool :=
  if indexOf this.addr.toList addr.addr.toList ≠ some 0 then false
  else if addr.addr.length ≠ this.addr.length ∧ addr.isStrict then false
  else true

/-- `DomainAddress.match`. -/
def isMatch (addr : DomainAddress) : Bool :=
  if !this.isStrict && !addr.isStrict then false
  else if !this.isStrict then addr.isMatchStrict this
  else this.isMatchStrict addr

/-- A mask with a wildcard accepts what starts with it, another one only itself. -/
def Accepts (mask : DomainAddress) (addr : String) : Prop :=
  if mask.hasSuffix then mask.addr.toList <+: addr.toList else addr = mask.addr

instance (mask : DomainAddress) (addr : String) : Decidable (mask.Accepts addr) :=
  inferInstanceAs (Decidable (if mask.hasSuffix then mask.addr.toList <+: addr.toList else addr = mask.addr))

theorem isMatchStrict_iff (mask : DomainAddress) :
    this.isMatchStrict mask = true ↔ mask.Accepts this.addr := by
  have hmatch : this.isMatchStrict mask = true ↔ mask.addr.toList <+: this.addr.toList ∧
      ¬ (mask.addr.length ≠ this.addr.length ∧ mask.isStrict = true) := by
    rw [← indexOf_eq_zero, isMatchStrict]
    split_ifs with hpos hlen
    · exact iff_of_false not_false fun h => hpos h.1
    · exact iff_of_false not_false fun h => h.2 hlen
    · exact iff_of_true rfl ⟨not_not.mp hpos, hlen⟩
  rw [hmatch, Accepts, isStrict]
  cases mask.hasSuffix with
  | true => simp
  | false =>
    simp only [Bool.not_false, and_true, not_not, Bool.false_eq_true, if_false]
    constructor
    · intro h'
      obtain ⟨hpre, hlen⟩ := h'
      have heq := hpre.eq_of_length (by rwa [String.length_toList, String.length_toList])
      exact (String.toList_inj.mp heq).symm
    · intro h
      exact ⟨h ▸ List.prefix_rfl, congrArg String.length h.symm⟩

theorem isMatch_iff (h : this.isStrict = true) (mask : DomainAddress) :
    this.isMatch mask = true ↔ mask.Accepts this.addr := by
  rw [← isMatchStrict_iff, isMatch, h]
  rfl

end DomainAddress

/-! ## `NetworkConfig` -/

def IF_UNSUPPORTED : String := "Unsupported"
def IF_ETHER : String := "Ethernet"
def IF_WIFI : String := "WiFi"
def IF_CELL : String := "Cellular"

/-- A network configuration. `isAny` says that the object is `NETWORK_CONFIG_ANY`. -/
structure NetworkConfig where
  isAny : Bool
  isStrict : Bool
  isActive : Bool
  interfaceType : Option String
  ssid : Option String
  dnsDomains : List DomainName
  dnsAddresses : List DomainAddress
  isRoaming : Option Bool
  strict_any : isAny = true → isStrict = false
  strict_domains : isStrict = true → ∀ d ∈ dnsDomains, d.isStrict = true
  strict_addresses : isStrict = true → ∀ a ∈ dnsAddresses, a.isStrict = true
  deriving DecidableEq

namespace NetworkConfig

/-- The constructor. -/
def init (strict : Bool) : NetworkConfig :=
  ⟨false, strict, false, none, none, [], [], none, nofun, fun _ _ => nofun, fun _ _ => nofun⟩

/-- `NETWORK_CONFIG_ANY`. -/
def any : NetworkConfig :=
  ⟨true, false, false, none, none, [], [], none, fun _ => rfl, nofun, nofun⟩

variable (this cfg : NetworkConfig)

/-- `getInterfaceType`; `none` is its exception. -/
def getInterfaceType : Option (Option String) :=
  if this.isStrict ∧ this.interfaceType = none then none else some this.interfaceType

/-- The setters; `none` is their exception. -/
def setInterfaceType (type : Option String) : Option NetworkConfig :=
  if this.isStrict ∧ type = none then none else some { this with interfaceType := type }

def setDnsDomains (domains : Option (List (Option String))) : Option NetworkConfig :=
  let domainList := (domains.getD []).map DomainName.ofString
  if h : this.isStrict = true → ∀ d ∈ domainList, d.isStrict = true then
    some { this with dnsDomains := domainList, strict_domains := h }
  else none

def setDnsAddresses (addrs : Option (List (Option String))) : Option NetworkConfig :=
  let addrList := (addrs.getD []).map DomainAddress.ofString
  if h : this.isStrict = true → ∀ a ∈ addrList, a.isStrict = true then
    some { this with dnsAddresses := addrList, strict_addresses := h }
  else none

/-- Whether the other configuration asks for another interface type. -/
def typeDiffers : Option Bool := do
  match ← cfg.getInterfaceType with
  | none => some false
  | some type => do
    let ownType ← this.getInterfaceType
    some (decide (ownType ≠ some type))

/-- `match` from "we're inside a strict config now" on. -/
def isMatchStrict : Option Bool :=
  if !this.isActive then some false
  else do
    if ← this.typeDiffers cfg then some false
    else if this.ssid.isSome ∧ cfg.ssid.isSome ∧ this.ssid ≠ cfg.ssid then some false
    else if (this.ssid.or cfg.ssid).isSome ∧ this.interfaceType ≠ some IF_WIFI then some false
    else if this.interfaceType = some IF_CELL ∧ cfg.isRoaming.isSome ∧
      cfg.isRoaming ≠ this.isRoaming then some false
    else if cfg.dnsDomains.length > 0 ∧
      !this.dnsDomains.any (fun name => cfg.dnsDomains.any name.isMatch) then some false
    else if cfg.dnsAddresses.length > 0 ∧
      !this.dnsAddresses.any (fun addr => cfg.dnsAddresses.any addr.isMatch) then some false
    else some true

/-- `NetworkConfig.match`. -/
def isMatch (cfg : Option NetworkConfig) : Option Bool :=
  if this.isAny || cfg.any (·.isAny) then some true
  else match cfg with
    | none => some false
    | some cfg =>
      if !this.isStrict && !cfg.isStrict then some false
      else if !this.isStrict then cfg.isMatchStrict this
      else this.isMatchStrict cfg

/-- What `match` asks of an active network. -/
structure Fits : Prop where
  interfaceType : ∀ type, cfg.interfaceType = some type → this.interfaceType = some type
  ssid : ∀ own remote, this.ssid = some own → cfg.ssid = some remote → own = remote
  wifi : (this.ssid.or cfg.ssid).isSome → this.interfaceType = some IF_WIFI
  roaming : this.interfaceType = some IF_CELL → ∀ roaming, cfg.isRoaming = some roaming →
    this.isRoaming = some roaming
  domains : cfg.dnsDomains ≠ [] → ∃ d ∈ this.dnsDomains, ∃ mask ∈ cfg.dnsDomains,
    mask.Accepts d.name
  addresses : cfg.dnsAddresses ≠ [] → ∃ a ∈ this.dnsAddresses, ∃ mask ∈ cfg.dnsAddresses,
    mask.Accepts a.addr

variable {this cfg}

theorem setInterfaceType_strict {type : Option String} (h : this.setInterfaceType type = some cfg) :
    cfg.isStrict = this.isStrict := by
  unfold setInterfaceType at h
  split at h
  · cases h
  · cases h
    rfl

theorem setDnsDomains_strict {domains : Option (List (Option String))}
    (h : this.setDnsDomains domains = some cfg) : cfg.isStrict = this.isStrict := by
  simp only [setDnsDomains, Option.dite_none_right_eq_some, Option.some.injEq] at h
  obtain ⟨-, rfl⟩ := h
  rfl

theorem not_any_of_strict (h : this.isStrict = true) : this.isAny = false := by
  cases hany : this.isAny with
  | false => rfl
  | true => rw [this.strict_any hany] at h; cases h

/-- Two configurations of which one is strict are matched from there, in either order. -/
theorem isMatch_eq (hstrict : this.isStrict = true) (hcfg : cfg.isStrict = false)
    (hany : cfg.isAny = false) :
    this.isMatch (some cfg) = this.isMatchStrict cfg ∧
      cfg.isMatch (some this) = this.isMatchStrict cfg := by
  have hthis := not_any_of_strict hstrict
  constructor
  · simp [isMatch, hthis, hany, hstrict]
  · simp [isMatch, hthis, hany, hstrict, hcfg]

theorem any_domains (h : this.isStrict = true) :
    this.dnsDomains.any (fun name => cfg.dnsDomains.any name.isMatch) = true ↔
      ∃ d ∈ this.dnsDomains, ∃ mask ∈ cfg.dnsDomains, mask.Accepts d.name := by
  rw [List.any_eq_true]
  refine exists_congr fun d => and_congr_right fun hd => ?_
  rw [List.any_eq_true]
  exact exists_congr fun mask => and_congr_right fun _ =>
    d.isMatch_iff (this.strict_domains h d hd) mask

theorem any_addresses (h : this.isStrict = true) :
    this.dnsAddresses.any (fun addr => cfg.dnsAddresses.any addr.isMatch) = true ↔
      ∃ a ∈ this.dnsAddresses, ∃ mask ∈ cfg.dnsAddresses, mask.Accepts a.addr := by
  rw [List.any_eq_true]
  refine exists_congr fun a => and_congr_right fun ha => ?_
  rw [List.any_eq_true]
  exact exists_congr fun mask => and_congr_right fun _ =>
    a.isMatch_iff (this.strict_addresses h a ha) mask

theorem typeDiffers_eq (htype : this.interfaceType.isSome) (hcfg : cfg.isStrict = false) :
    ∃ differs, this.typeDiffers cfg = some differs ∧
      (differs = false ↔
        ∀ type, cfg.interfaceType = some type → this.interfaceType = some type) := by
  have hown : this.getInterfaceType = some this.interfaceType :=
    if_neg fun h => by rw [h.2] at htype; cases htype
  have hremote : cfg.getInterfaceType = some cfg.interfaceType :=
    if_neg fun h => by rw [hcfg] at h; cases h.1
  rw [typeDiffers, hown, hremote]
  cases cfg.interfaceType with
  | none => exact ⟨false, rfl, iff_of_true rfl nofun⟩
  | some type => exact ⟨_, rfl, by simp⟩

/-- `match` of an active network of a known type and a configuration that is not strict. -/
theorem fits_iff (hstrict : this.isStrict = true) (hactive : this.isActive = true)
    (htype : this.interfaceType.isSome) (hcfg : cfg.isStrict = false) :
    ∃ b, this.isMatchStrict cfg = some b ∧ (b = true ↔ this.Fits cfg) := by
  obtain ⟨differs, hdiffers, htypes⟩ := typeDiffers_eq htype hcfg
  simp only [isMatchStrict, hactive, hdiffers, Bool.not_true, Bool.false_eq_true, if_false,
    Option.bind_eq_bind, Option.bind_some]
  cases differs with
  | true =>
    refine ⟨false, rfl, iff_of_false Bool.false_ne_true fun h => ?_⟩
    exact absurd (htypes.mpr h.interfaceType) Bool.noConfusion
  | false =>
    rw [if_neg Bool.false_ne_true]
    split_ifs with hssid hwifi hroaming hdomains haddresses
    · refine ⟨false, rfl, iff_of_false Bool.false_ne_true fun h => ?_⟩
      obtain ⟨own, hown⟩ := Option.isSome_iff_exists.mp hssid.1
      obtain ⟨remote, hremote⟩ := Option.isSome_iff_exists.mp hssid.2.1
      exact hssid.2.2 (by rw [hown, hremote, h.ssid own remote hown hremote])
    · exact ⟨false, rfl, iff_of_false Bool.false_ne_true fun h => hwifi.2 (h.wifi hwifi.1)⟩
    · refine ⟨false, rfl, iff_of_false Bool.false_ne_true fun h => ?_⟩
      obtain ⟨roaming, hr⟩ := Option.isSome_iff_exists.mp hroaming.2.1
      exact hroaming.2.2 (by rw [hr, h.roaming hroaming.1 roaming hr])
    · refine ⟨false, rfl, iff_of_false Bool.false_ne_true fun h => ?_⟩
      have hany := (any_domains hstrict).mpr (h.domains (List.length_pos_iff.mp hdomains.1))
      rw [hany] at hdomains
      exact absurd hdomains.2 Bool.false_ne_true
    · refine ⟨false, rfl, iff_of_false Bool.false_ne_true fun h => ?_⟩
      have hany := (any_addresses hstrict).mpr (h.addresses (List.length_pos_iff.mp haddresses.1))
      rw [hany] at haddresses
      exact absurd haddresses.2 Bool.false_ne_true
    · refine ⟨true, rfl, iff_of_true rfl ⟨htypes.mp rfl, ?_, ?_, ?_, ?_, ?_⟩⟩
      · intro own remote hown hremote
        rw [hown, hremote] at hssid
        simpa using hssid
      · intro h
        exact not_not.mp fun hne => hwifi ⟨h, hne⟩
      · intro hcell roaming hr
        rw [hr] at hroaming
        simpa [hcell, eq_comm] using hroaming
      · intro hne
        rw [← any_domains hstrict]
        simpa [List.length_pos_iff.mpr hne] using hdomains
      · intro hne
        rw [← any_addresses hstrict]
        simpa [List.length_pos_iff.mpr hne] using haddresses

end NetworkConfig

/-! ## Decoding a rule -/

section Casts

variable {R : Type}

/-- `Map.get`. -/
def mapGet (map : List (String × Obj R)) (key : String) : Obj R := (map.lookup key).getD .null

/-- The cast to `String`; `none` is a `ClassCastException`. -/
def castString : Obj R → Option (Option String)
  | .null => some none
  | .string s => some (some s)
  | _ => none

/-- The cast to `Boolean`. -/
def castBoolean : Obj R → Option (Option Bool)
  | .null => some none
  | .boolean b => some (some b)
  | _ => none

/-- The elements of an `Array`, or the cast to `List`. -/
def castList : Obj R → Option (Option (List (Obj R)))
  | .null => some none
  | .array list => some (some list)
  | .list list => some (some list)
  | _ => none

/-- A list whose elements are cast to `String` one by one. -/
def castStrings (x : Obj R) : Option (Option (List (Option String))) := do
  match ← castList x with
  | none => some none
  | some list => (list.mapM castString).map some

theorem castStrings_strings (list : List String) :
    (list.map (Obj.string (R := R))).mapM castString = some (list.map some) := by
  induction list with
  | nil => rfl
  | cons s list ih =>
    rw [List.map_cons, List.mapM_cons, ih]
    rfl

/-- `NetworkConfig.fromMap`; `none` is an exception. -/
def NetworkConfig.fromMap (map : List (String × Obj R)) : Option NetworkConfig := do
  let result := NetworkConfig.init false
  let domains ← castStrings (mapGet map "DNSDomainMatch")
  let result ← domains.elim (some result) fun strList => result.setDnsDomains (some strList)
  let addresses ← castStrings (mapGet map "DNSServerAddressMatch")
  -- sic: the domains are set, not the addresses
  let result ← addresses.elim (some result) fun strList => result.setDnsDomains (some strList)
  let result ← result.setInterfaceType (← castString (mapGet map "InterfaceTypeMatch"))
  let ssid ← castString (mapGet map "SSIDMatch")
  let isRoaming ← castBoolean (mapGet map "IsRoaming")
  some { result with ssid := ssid, isRoaming := isRoaming }

/-- What is decoded is not strict. -/
theorem NetworkConfig.fromMap_strict {map : List (String × Obj R)} {cfg : NetworkConfig}
    (h : fromMap map = some cfg) : cfg.isStrict = false := by
  simp only [fromMap, Option.bind_eq_bind, Option.bind_eq_some_iff, Option.some.injEq] at h
  obtain ⟨domains, -, r₁, h₁, addresses, -, r₂, h₂, type, -, r₃, h₃, ssid, -, roaming, -, rfl⟩ := h
  have helim : ∀ {r r' : NetworkConfig} {strings : Option (List (Option String))},
      strings.elim (some r) (fun strList => r.setDnsDomains (some strList)) = some r' →
      r'.isStrict = r.isStrict := by
    intro r r' strings h
    cases strings with
    | none => cases h; rfl
    | some strList => exact setDnsDomains_strict h
  exact (setInterfaceType_strict h₃).trans ((helim h₂).trans (helim h₁))

end Casts

/-- The criteria that a rule can state. -/
structure Criteria where
  interfaceType : Option String
  ssid : Option String
  dnsDomains : Option (List String)
  dnsAddresses : Option (List String)
  isRoaming : Option Bool
  deriving DecidableEq, Repr

namespace Criteria

variable {R : Type}

/-- A list of strings, of either class, or no entry. -/
def IsStrings (x : Option (Obj R)) (strings : Option (List String)) : Prop :=
  x = strings.map (fun list => .list (list.map .string)) ∨
    x = strings.map (fun list => .array (list.map .string))

variable (c : Criteria)

/-- The criteria that the dictionary states under its five keys. -/
structure Of (rule : List (String × Obj R)) : Prop where
  interfaceType : rule.lookup "InterfaceTypeMatch" = c.interfaceType.map .string
  ssid : rule.lookup "SSIDMatch" = c.ssid.map .string
  dnsDomains : IsStrings (rule.lookup "DNSDomainMatch") c.dnsDomains
  dnsAddresses : IsStrings (rule.lookup "DNSServerAddressMatch") c.dnsAddresses
  isRoaming : rule.lookup "IsRoaming" = c.isRoaming.map .boolean

/-- What becomes of them: a list of addresses takes the place of the domains. -/
def config : NetworkConfig :=
  { NetworkConfig.init false with
    interfaceType := c.interfaceType
    ssid := c.ssid
    dnsDomains := ((c.dnsAddresses.or c.dnsDomains).getD []).map fun s => .ofString (some s)
    isRoaming := c.isRoaming
    strict_domains := nofun }

variable {c}

theorem castStrings_of {rule : List (String × Obj R)} {key : String} {strings : Option (List String)}
    (h : IsStrings (rule.lookup key) strings) :
    castStrings (mapGet rule key) = some (strings.map fun list => list.map some) := by
  rcases h with h | h <;>
  · rw [mapGet, h]
    cases strings with
    | none => rfl
    | some list => exact congrArg (Option.map some) (castStrings_strings list)

theorem castString_of {rule : List (String × Obj R)} {key : String} {s : Option String}
    (h : rule.lookup key = s.map .string) : castString (mapGet rule key) = some s := by
  rw [mapGet, h]
  cases s <;> rfl

theorem castBoolean_of {rule : List (String × Obj R)} {key : String} {b : Option Bool}
    (h : rule.lookup key = b.map .boolean) : castBoolean (mapGet rule key) = some b := by
  rw [mapGet, h]
  cases b <;> rfl

theorem fromMap_eq {rule : List (String × Obj R)} (h : c.Of rule) :
    NetworkConfig.fromMap rule = some c.config := by
  rw [NetworkConfig.fromMap, castStrings_of h.dnsDomains, castStrings_of h.dnsAddresses,
    castString_of h.interfaceType, castString_of h.ssid, castBoolean_of h.isRoaming]
  obtain ⟨type, ssid, domains, addresses, roaming⟩ := c
  cases domains <;> cases addresses <;>
    simp [NetworkConfig.setDnsDomains, NetworkConfig.setInterfaceType, NetworkConfig.init, config]

/-! ## A rule and a network -/

variable (c) (net : NetworkConfig)

/-- A domain of the network is accepted by one of the masks. -/
def DomainsMatch (masks : List String) : Prop :=
  ∃ d ∈ net.dnsDomains, ∃ mask ∈ masks, (DomainName.ofString (some mask)).Accepts d.name

/-- A DNS server of the network is accepted by one of the masks. -/
def AddressesMatch (masks : List String) : Prop :=
  ∃ a ∈ net.dnsAddresses, ∃ mask ∈ masks, (DomainAddress.ofString (some mask)).Accepts a.addr

/-- The criteria on the interface hold of the network. -/
structure InterfaceHolds : Prop where
  interfaceType : ∀ type, c.interfaceType = some type → net.interfaceType = some type
  ssid : ∀ ssid, c.ssid = some ssid → net.ssid = some ssid ∧ net.interfaceType = some IF_WIFI
  isRoaming : ∀ roaming, c.isRoaming = some roaming → net.interfaceType = some IF_CELL →
    net.isRoaming = some roaming

/-- The criteria on the DNS hold of the network. -/
structure DnsHolds : Prop where
  dnsDomains : ∀ masks, c.dnsDomains = some masks → DomainsMatch net masks
  dnsAddresses : ∀ masks, c.dnsAddresses = some masks → AddressesMatch net masks

/-- Every criterion that is present holds of the network. -/
def Holds : Prop := c.InterfaceHolds net ∧ c.DnsHolds net

/-- An SSID on another interface than WiFi. -/
def StraySsid : Prop := net.ssid.isSome ∧ net.interfaceType ≠ some IF_WIFI

/-- It does not matter where the address masks are stored. -/
def Unaffected : Prop :=
  c.InterfaceHolds net →
    (StraySsid net → ¬ c.DnsHolds net) ∧
    (¬ StraySsid net → match c.dnsAddresses with
      | none => c.dnsDomains ≠ some []
      | some masks => masks ≠ [] ∧ (DomainsMatch net masks ↔ c.DnsHolds net))

variable {c net}

theorem fits_config (hssid : net.interfaceType = some IF_WIFI → net.ssid.isSome) :
    net.Fits c.config ↔ c.InterfaceHolds net ∧ ¬ StraySsid net ∧
      ((c.dnsAddresses.or c.dnsDomains).getD [] ≠ [] →
        DomainsMatch net ((c.dnsAddresses.or c.dnsDomains).getD [])) := by
  constructor
  · intro h
    refine ⟨⟨h.interfaceType, fun ssid hs => ?_, fun roaming hr hcell => h.roaming hcell roaming hr⟩,
      fun hstray => hstray.2 (h.wifi ?_), fun hne => ?_⟩
    · have hwifi := h.wifi (by rw [Option.isSome_or, config, hs]; simp)
      obtain ⟨own, hown⟩ := Option.isSome_iff_exists.mp (hssid hwifi)
      exact ⟨by rw [hown, h.ssid own ssid hown hs], hwifi⟩
    · rw [Option.isSome_or, hstray.1, Bool.true_or]
    · obtain ⟨d, hd, mask, hmask, haccepts⟩ := h.domains (by rwa [config, Ne, List.map_eq_nil_iff])
      obtain ⟨s, hs, rfl⟩ := List.mem_map.mp hmask
      exact ⟨d, hd, s, hs, haccepts⟩
  · intro h'
    obtain ⟨hinterface, hstray, hdns⟩ := h'
    refine ⟨hinterface.interfaceType, fun own remote hown hremote => ?_, fun hsome => ?_,
      fun hcell roaming hr => hinterface.isRoaming roaming hr hcell, fun hne => ?_,
      fun hne => absurd rfl hne⟩
    · exact Option.some.inj (hown.symm.trans (hinterface.ssid remote hremote).1)
    · cases hs : c.ssid with
      | some ssid => exact (hinterface.ssid ssid hs).2
      | none =>
        have hown : net.ssid.isSome := by
          rw [Option.isSome_or, config, hs] at hsome
          simpa using hsome
        exact not_not.mp fun hne => hstray ⟨hown, hne⟩
    · obtain ⟨d, hd, s, hs, haccepts⟩ := hdns (by rwa [config, Ne, List.map_eq_nil_iff] at hne)
      exact ⟨d, hd, _, List.mem_map.mpr ⟨s, hs, rfl⟩, haccepts⟩

theorem domainsMatch_nil : ¬ DomainsMatch net [] := by
  intro h
  obtain ⟨d, -, mask, hmask, -⟩ := h
  cases hmask

theorem addressesMatch_nil : ¬ AddressesMatch net [] := by
  intro h
  obtain ⟨a, -, mask, hmask, -⟩ := h
  cases hmask

/-- What is asked of the DNS where the addresses took the place of the domains. -/
theorem dns_iff : ((((c.dnsAddresses.or c.dnsDomains).getD [] ≠ [] →
      DomainsMatch net ((c.dnsAddresses.or c.dnsDomains).getD [])) ↔ c.DnsHolds net) ↔
    match c.dnsAddresses with
      | none => c.dnsDomains ≠ some []
      | some masks => masks ≠ [] ∧ (DomainsMatch net masks ↔ c.DnsHolds net)) := by
  cases haddr : c.dnsAddresses with
  | none =>
    have hdns : c.DnsHolds net ↔ ∀ masks, c.dnsDomains = some masks → DomainsMatch net masks :=
      ⟨fun h => h.dnsDomains, fun h => ⟨h, by rw [haddr]; exact nofun⟩⟩
    rw [hdns]
    cases hdom : c.dnsDomains with
    | none => simp
    | some masks =>
      cases masks with
      | nil => simp [domainsMatch_nil]
      | cons mask masks => simp
  | some masks =>
    cases masks with
    | nil =>
      have hdns : ¬ c.DnsHolds net := fun h => addressesMatch_nil (h.dnsAddresses [] haddr)
      simp [hdns]
    | cons mask masks => simp

/-- For all rules and all active networks of a known type and SSID: the rule and the network
match, in either order, just if the criteria of the rule hold, exactly where the interface
decides or the place of the address masks does not matter. -/
theorem network_matches_iff {R : Type} {rule : List (String × Obj R)} (hrule : c.Of rule)
    (hstrict : net.isStrict = true) (hactive : net.isActive = true)
    (htype : net.interfaceType.isSome)
    (hssid : net.interfaceType = some IF_WIFI → net.ssid.isSome) :
    ∃ cfg b, NetworkConfig.fromMap rule = some cfg ∧ net.isMatch (some cfg) = some b ∧
      cfg.isMatch (some net) = some b ∧ ((b = true ↔ c.Holds net) ↔ c.Unaffected net) := by
  have hweak : c.config.isStrict = false := rfl
  obtain ⟨b, hb, hfits⟩ := NetworkConfig.fits_iff hstrict hactive htype hweak
  obtain ⟨hnet, hcfg⟩ := NetworkConfig.isMatch_eq hstrict hweak rfl
  refine ⟨c.config, b, fromMap_eq hrule, hnet.trans hb, hcfg.trans hb, ?_⟩
  rw [hfits, fits_config hssid, Holds, Unaffected, ← dns_iff]
  by_cases hinterface : c.InterfaceHolds net
  · by_cases hstray : StraySsid net
    · simp [hinterface, hstray]
    · simp [hinterface, hstray]
  · simp [hinterface]

/-- A WiFi network with a search domain and a DNS server. -/
def officeNetwork : NetworkConfig :=
  { NetworkConfig.init true with
    isActive := true
    interfaceType := some IF_WIFI
    ssid := some "Office"
    dnsDomains := [⟨false, "lan.corp"⟩]
    dnsAddresses := [⟨false, "10.0.0.1"⟩]
    strict_any := nofun
    strict_domains := fun _ => by decide
    strict_addresses := fun _ => by decide }

def domainRule : List (String × Obj Bool) :=
  [("Action", .string "Connect"), ("SSIDMatch", .string "Office"),
    ("DNSDomainMatch", .list [.string "*.corp"])]

def domainCriteria : Criteria := ⟨none, some "Office", some ["*.corp"], none, none⟩

theorem network_matches_iff_domain : domainCriteria.Of domainRule ∧
    ∃ cfg, NetworkConfig.fromMap domainRule = some cfg ∧
      officeNetwork.isMatch (some cfg) = some true ∧ cfg.isMatch (some officeNetwork) = some true := by
  have hrule : domainCriteria.Of domainRule := ⟨rfl, rfl, Or.inl rfl, Or.inl rfl, rfl⟩
  have hdns : domainCriteria.DnsHolds officeNetwork := by
    refine ⟨fun masks h => ?_, nofun⟩
    cases h
    exact ⟨_, List.mem_cons_self, "*.corp", List.mem_cons_self, by decide⟩
  have hinterface : domainCriteria.InterfaceHolds officeNetwork := by
    refine ⟨nofun, fun ssid h => ?_, nofun⟩
    cases h
    exact ⟨rfl, rfl⟩
  have hstrict : officeNetwork.isStrict = true := rfl
  obtain ⟨cfg, b, hcfg, hnet, hrev, hb⟩ :=
    network_matches_iff hrule hstrict rfl rfl (fun _ => rfl)
  have hunaffected : domainCriteria.Unaffected officeNetwork :=
    fun _ => ⟨fun hstray => absurd rfl hstray.2, fun _ =>
      show domainCriteria.dnsDomains ≠ some [] by decide⟩
  rw [(hb.mpr hunaffected).mpr ⟨hinterface, hdns⟩] at hnet hrev
  exact ⟨hrule, cfg, hcfg, hnet, hrev⟩

def addressRule : List (String × Obj Bool) := [("DNSServerAddressMatch", .list [.string "10.*"])]

def addressCriteria : Criteria := ⟨none, none, none, some ["10.*"], none⟩

/-- The server of the network is in the rule, but `10.*` is compared with its domain. -/
theorem addresses_not_matched : addressCriteria.Of addressRule ∧
    addressCriteria.Holds officeNetwork ∧
    ∃ cfg, NetworkConfig.fromMap addressRule = some cfg ∧
      officeNetwork.isMatch (some cfg) = some false := by
  refine ⟨⟨rfl, rfl, Or.inl rfl, Or.inl rfl, rfl⟩, ⟨⟨nofun, nofun, nofun⟩, nofun, ?_⟩, _, rfl, ?_⟩
  · intro masks h
    cases h
    exact ⟨_, List.mem_cons_self, "10.*", List.mem_cons_self, by decide⟩
  · decide

end Criteria

end ConfProfile
