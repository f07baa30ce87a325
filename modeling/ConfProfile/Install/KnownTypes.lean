import ConfProfile.Install.VpnData

/-!
# The VPN types that are known (`ConfigUtils.getVpnTypeCode`)

`mapPayload` asks for the code of the type first. `getOnDemandRules` behind it looks
for the dictionary of the type under a key that L2TP and PPTP do not get, and takes
the dictionary for granted. `mapPayload_known` says for which payloads of a known
type `mapPayload` does not throw.
-/

namespace ConfProfile

variable {R : Type}

def VPN_UNKNOWN : Nat := 0
def VPN_OPENVPN : Nat := 1
def VPN_IPSEC : Nat := 2
def VPN_L2TP : Nat := 3
def VPN_PPTP : Nat := 4

/-- `ConfigUtils.getVpnTypeCode`. -/
def getVpnTypeCode (root : List (String × Obj R)) : Nat :=
  if getString root "VPNType" = some "PPTP" then VPN_PPTP
  else if getString root "VPNType" = some "L2TP" then VPN_L2TP
  else if getString root "VPNType" = some "IPSec" then VPN_IPSEC
  else if getString root "VPNType" = some "VPN" then
    if getString root "VPNSubType" = some "net.openvpn.OpenVPN-Connect.vpnplugin" then VPN_OPENVPN
    else VPN_UNKNOWN
  else VPN_UNKNOWN

/-- The payload is of the type VPN or IPSec and has the dictionary of that name, and no double
that JSON does not have is written by an adapter of Gson's own. -/
structure MapsKnown (P : Platform R) (root : List (String × Obj R)) : Prop where
  dictionary : ∃ type ∈ ["VPN", "IPSec"], getString root "VPNType" = some type ∧
    (getDictionary root type).isSome
  members : ∀ key ∈ domainKeys ++ ["PPP", "VendorConfig", "VPN"], ∀ dict,
    getDictionary root key = some dict → AllFinite P (dict.map Prod.snd)
  rules : ∀ type ∈ ["VPN", "IPSec"], getString root "VPNType" = some type →
    ∀ dict list, getDictionary root type = some dict →
      getArray dict "OnDemandRules" = some list → AllFinite P list

variable {P : Platform R} {root : List (String × Obj R)}

/-- A known type other than VPN and IPSec has no key. -/
theorem vpnDictKey_eq_some (hknown : getVpnTypeCode root ≠ VPN_UNKNOWN) {key : String} :
    vpnDictKey root = some key ↔
      key ∈ ["VPN", "IPSec"] ∧ getString root "VPNType" = some key := by
  simp only [List.mem_cons, List.not_mem_nil, or_false]
  unfold vpnDictKey
  split_ifs with hvpn hipsec hppp
  · rw [hvpn]
    constructor
    · intro h
      cases h
      exact ⟨Or.inl rfl, rfl⟩
    · intro h
      exact h.2
  · rw [hipsec]
    constructor
    · intro h
      cases h
      exact ⟨Or.inr rfl, rfl⟩
    · intro h
      exact h.2
  · -- the type PPP is not one of the known ones
    refine absurd ?_ hknown
    rw [getVpnTypeCode, hppp]
    rfl
  · refine iff_of_false not_false fun h => ?_
    rcases h.1 with rfl | rfl
    · exact hvpn h.2
    · exact hipsec h.2

theorem mappable_known (hknown : getVpnTypeCode root ≠ VPN_UNKNOWN) :
    Mappable P root ↔ MapsKnown P root := by
  have hdict {dict : List (String × Obj R)} : vpnDictionary root = some dict ↔
      ∃ type ∈ ["VPN", "IPSec"], getString root "VPNType" = some type ∧
        getDictionary root type = some dict := by
    rw [vpnDictionary, Option.bind_eq_bind, Option.bind_eq_some_iff]
    refine exists_congr fun type => ?_
    rw [vpnDictKey_eq_some hknown, and_assoc]
  constructor
  · intro h
    refine ⟨?_, fun key hkey => ?_, fun type hmem htype dict list hd => ?_⟩
    · obtain ⟨dict, hd⟩ := Option.isSome_iff_exists.mp h.dictionary
      obtain ⟨type, hmem, htype, hd⟩ := hdict.mp hd
      exact ⟨type, hmem, htype, Option.isSome_of_eq_some hd⟩
    · rcases List.mem_append.mp hkey with hkey | hkey
      · exact h.lists key hkey
      · exact h.credentials key hkey
    · exact h.rules dict list (hdict.mpr ⟨type, hmem, htype, hd⟩)
  · intro h
    refine ⟨?_, fun key hkey => ?_, fun dict list hd => ?_, fun key hkey => ?_⟩
    · obtain ⟨type, hmem, htype, hd⟩ := h.dictionary
      obtain ⟨dict, hd⟩ := Option.isSome_iff_exists.mp hd
      exact Option.isSome_of_eq_some (hdict.mpr ⟨type, hmem, htype, hd⟩)
    · exact h.members key (List.mem_append_left _ hkey)
    · obtain ⟨type, hmem, htype, hd⟩ := hdict.mp hd
      exact h.rules type hmem htype dict list hd
    · exact h.members key (List.mem_append_right _ hkey)

/-- For all VPN payloads of a known type, whatever keys they have: `mapPayload` does not throw
exactly if the type is VPN or IPSec and its dictionary is there, and the doubles are numbers. -/
theorem mapPayload_known {entrySet : List (String × Obj R) → List (String × Obj R)}
    (horder : ∀ map, (entrySet map).Perm map) (profileId : Option String) {payload : Payload R}
    (hcls : payload.cls = .vpn) (hknown : getVpnTypeCode payload.dict ≠ VPN_UNKNOWN) :
    (mapPayload P entrySet profileId payload).isSome ↔ MapsKnown P payload.dict :=
  (mapPayload_isSome horder profileId hcls).trans (mappable_known hknown)

def ipsecPayload : Payload Bool where
  dict := [("PayloadIdentifier", .string "example.vpn"), ("PayloadUUID", .string "V1"),
    ("PayloadType", .string "com.apple.vpn.managed"), ("PayloadVersion", .integer 1),
    ("VPNType", .string "IPSec"), ("IPSec", .dictionary [])]
  typed := by simp [Obj.Typed, Obj.TypedEntries]
  accepted := rfl

theorem mapPayload_known_ipsec : getVpnTypeCode ipsecPayload.dict = VPN_IPSEC ∧
    (mapPayload smallPlatform id (some "P1") ipsecPayload).isSome := by
  refine ⟨rfl, (mapPayload_known (fun map => List.Perm.refl map) (some "P1") rfl
    (by decide)).mpr ⟨⟨"IPSec", by decide, rfl, rfl⟩, fun key hkey dict h => ?_, ?_⟩⟩
  · have hnone : ∀ key ∈ domainKeys ++ ["PPP", "VendorConfig", "VPN"],
        (getDictionary ipsecPayload.dict key).isNone = true := by decide
    have hkey := hnone key hkey
    rw [h] at hkey
    cases hkey
  · intro type hmem htype dict list hd hlist
    have heq : type = "IPSec" := (Option.some.inj htype).symm
    rw [heq] at hd
    cases hd
    cases hlist

def l2tpPayload : Payload Bool where
  dict := [("PayloadIdentifier", .string "example.vpn"), ("PayloadUUID", .string "V2"),
    ("PayloadType", .string "com.apple.vpn.managed"), ("PayloadVersion", .integer 1),
    ("UserDefinedName", .string "Office"), ("VPNType", .string "L2TP"),
    ("PPP", .dictionary [("CommRemoteAddress", .string "vpn.example.com")]),
    ("IPSec", .dictionary [("SharedSecret", .string "secret")])]
  typed := by simp [Obj.Typed, Obj.TypedEntries]
  accepted := rfl

/-- A complete payload of the type L2TP has no dictionary key, and `mapPayload` throws. -/
theorem l2tp_not_mapped : l2tpPayload.cls = .vpn ∧
    getVpnTypeCode l2tpPayload.dict = VPN_L2TP ∧
    mapPayload smallPlatform id (some "P1") l2tpPayload = none :=
  ⟨rfl, rfl, rfl⟩

end ConfProfile
