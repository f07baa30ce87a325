import ConfProfile.Packet.ByteOrder
import ConfProfile.Router.Table
import Mathlib.Data.Finset.Max

/-!
# Sending a packet (`send4`, `ip4_addr_match`)

`send4` reads the destination address, walks the route list to a tunnel and
hands the packet over to it, or to the default tunnel when the walk comes back
with none. The walk takes the first link that matches, and gives up at the
first link that does not match and is below the destination.

The list being descending, the first matching link is the one of the longest
prefix (`Longest.key_le`), so the walk is right whenever it gets there. It
need not get there: a link that lies between the network and the destination
without matching ends the walk early (`Longest.walk_eq`). Two nested networks
are enough for that, and `send4_longest_prefix_iff` says which tables and
destinations are affected.
-/

namespace ConfProfile

open Run
open NetPrefix (netOf SharesPrefix)
open DescList (Desc)

/-- An `ocpa_ip_packet_t` with an IPv4 header in it. -/
structure Ip4Packet where
  buff : List (BitVec 8)
  pktLen : Nat
  header : 20 ≤ pktLen
  inside : pktLen ≤ buff.length

/-- A byte of the header. -/
def Ip4Packet.byte (p : Ip4Packet) (i : Nat) (h : i < 20) : BitVec 8 :=
  p.buff.get ⟨i, h.trans_le (p.header.trans p.inside)⟩

/-- `((uint32_t*)(buff + 16))[0]` on the little-endian targets. -/
def Ip4Packet.word16 (p : Ip4Packet) : BitVec 32 :=
  p.byte 19 (by omega) ++ p.byte 18 (by omega) ++ p.byte 17 (by omega) ++ p.byte 16 (by omega)

/-- The destination address of the header, in network byte order. -/
def Ip4Packet.destination (p : Ip4Packet) : BitVec 32 :=
  p.byte 16 (by omega) ++ p.byte 17 (by omega) ++ p.byte 18 (by omega) ++ p.byte 19 (by omega)

/-- `ip4_addr_match`. -/
def ip4AddrMatch (network : BitVec 32) (netmask : Nat) (testIp : BitVec 32) : Bool :=
  let preparedTestIp := (testIp >>> (32 - netmask)) <<< (32 - netmask)
  if network = preparedTestIp then true else false

/-- The route loop of `send4`. -/
def send4Loop (ip4 : BitVec 32) : List Route4Link → Option TunPtr
  | [] => none
  | curr :: next =>
    if ip4AddrMatch curr.ip4 curr.mask ip4 then some curr.tunCtx
    else if curr.ip4 < ip4 then
      -- no such route
      none
    else send4Loop ip4 next

/-- The call of a tunnel's `masqueradeSrc` and then of its `send`. -/
structure Sent where
  tunCtx : TunPtr
  buff : List (BitVec 8)
  len : Nat
  deriving DecidableEq, Repr

/-- The tunnel that the routes of the table give, `none` for "Using default route4". -/
def routed4 (s : Router) (p : Ip4Packet) : Option TunPtr := send4Loop (ntohl p.word16) s.ip4Routes

/-- `send4`; `none` when the packet is dropped. -/
def send4 (s : Router) (p : Ip4Packet) : Option Sent :=
  let tunCtx :=
    match routed4 s p with
    | some t => some t
    | none => s.ip4DefaultTunCtx
  tunCtx.map fun t => ⟨t, p.buff, p.pktLen⟩

/-! ## What is read and what is compared -/

/-- The load and `ntohl` together read the address in network byte order. -/
theorem ntohl_word16 (p : Ip4Packet) : ntohl p.word16 = p.destination := by
  unfold Ip4Packet.word16 Ip4Packet.destination
  exact ntohl_append _ _ _ _

/-- A link at a network matches when its prefix is shared by the address. -/
theorem ip4AddrMatch_iff {r : Route4Link} (h : r.mask ≤ 32 ∧ netOf r.mask r.ip4 = r.ip4)
    (ip4 : BitVec 32) : ip4AddrMatch r.ip4 r.mask ip4 = true ↔ SharesPrefix r.mask r.ip4 ip4 := by
  unfold ip4AddrMatch
  rw [← NetPrefix.netOf_eq_iff_shares h.1 h.2]
  simp [netOf]

/-! ## The walk -/

/-- The first link that ends the walk decides what it gives. -/
theorem send4Loop_eq (ip4 : BitVec 32) (l : List Route4Link) :
    send4Loop ip4 l =
      (l.find? fun r => ip4AddrMatch r.ip4 r.mask ip4 || decide (r.ip4 < ip4)).bind fun r =>
        if ip4AddrMatch r.ip4 r.mask ip4 then some r.tunCtx else none := by
  induction l with
  | nil => rfl
  | cons curr next ih =>
    unfold send4Loop
    by_cases hmatch : ip4AddrMatch curr.ip4 curr.mask ip4 = true
    · simp [hmatch]
    · by_cases hlt : curr.ip4 < ip4
      · simp [hmatch, hlt]
      · simp [hmatch, hlt, ih]

/-- `m` is the installed route of longest prefix for an address. -/
structure Longest (l : List Route4Link) (ip4 : BitVec 32) (m : Route4Link) : Prop where
  mem : m ∈ l
  shares : SharesPrefix m.mask m.ip4 ip4
  longest : ∀ r ∈ l, SharesPrefix r.mask r.ip4 ip4 → r.mask ≤ m.mask

/-- `r` does not match and lies between the network of `m` and the address: it
stands in front of `m` and ends the walk. -/
def Hides (r m : Route4Link) (ip4 : BitVec 32) : Prop :=
  ¬ SharesPrefix r.mask r.ip4 ip4 ∧ m.ip4 ≤ r.ip4 ∧ r.ip4 < ip4

variable {l : List Route4Link} {ip4 : BitVec 32} {m r : Route4Link}

/-- Among the routes that match, the longest one stands first. -/
theorem Longest.key_le (hl : Table4 l) (hm : Longest l ip4 m) (hr : r ∈ l)
    (hshares : SharesPrefix r.mask r.ip4 ip4) : r.key ≤ m.key := by
  have hmask := hm.longest r hr hshares
  have hrnet : r.ip4 = netOf r.mask ip4 :=
    (NetPrefix.netOf_eq_iff_shares (hl.net r hr).1 (hl.net r hr).2).mpr hshares
  have hmnet : m.ip4 = netOf m.mask ip4 :=
    (NetPrefix.netOf_eq_iff_shares (hl.net m hm.mem).1 (hl.net m hm.mem).2).mpr hm.shares
  have hmono := NetPrefix.netOf_mono hmask ip4
  rw [← hrnet, ← hmnet] at hmono
  rw [← not_lt, Route4Link.key_lt_key, BitVec.lt_def]
  omega

/-- The links in front of the longest route that are below the address are those
that hide it. -/
theorem Longest.hides_iff (hl : Table4 l) (hm : Longest l ip4 m) (hr : r ∈ l) :
    m.key < r.key ∧ r.ip4 < ip4 ↔ Hides r m ip4 := by
  refine ⟨?_, ?_⟩
  · intro hx
    obtain ⟨hkey, hlt⟩ := hx
    refine ⟨fun hshares => absurd (hm.key_le hl hr hshares) hkey.not_ge, ?_, hlt⟩
    rcases Route4Link.key_lt_key.mp hkey with h | ⟨h, -⟩
    · rw [BitVec.lt_def] at h
      rw [BitVec.le_def]
      exact h.le
    · rw [h]
      exact BitVec.le_refl _
  · intro hx
    obtain ⟨hnot, hle, hlt⟩ := hx
    refine ⟨?_, hlt⟩
    rw [Route4Link.key_lt_key]
    by_cases heq : m.ip4 = r.ip4
    · refine Or.inr ⟨heq, ?_⟩
      -- a shorter prefix of the same network would match
      by_contra hge
      exact hnot fun i hi => heq ▸ hm.shares i (by omega)
    · refine Or.inl ?_
      rw [BitVec.lt_def]
      rw [BitVec.le_def] at hle
      have hne : m.ip4.toNat ≠ r.ip4.toNat := fun h => heq (BitVec.eq_of_toNat_eq h)
      omega

/-- Nothing matches, nothing is found. -/
theorem send4Loop_of_no_match (hl : Table4 l)
    (h : ∀ r ∈ l, ¬ SharesPrefix r.mask r.ip4 ip4) : send4Loop ip4 l = none := by
  rw [send4Loop_eq]
  cases hfind : l.find? _ with
  | none => rfl
  | some x =>
    have hx := List.mem_of_find?_eq_some hfind
    have hnot : ¬ ip4AddrMatch x.ip4 x.mask ip4 = true := fun hmatch =>
      h x hx ((ip4AddrMatch_iff (hl.net x hx) ip4).mp hmatch)
    simp [hnot]

/-- The walk gets to the longest route, unless a link in front of it is below the
address; then it finds nothing. -/
theorem Longest.walk_eq (hl : Table4 l) (hm : Longest l ip4 m) :
    send4Loop ip4 l =
      if ∀ r ∈ l, ¬ (m.key < r.key ∧ r.ip4 < ip4) then some m.tunCtx else none := by
  have hmatch : ∀ r ∈ l, ip4AddrMatch r.ip4 r.mask ip4 = true → r.key ≤ m.key := fun r hr h =>
    hm.key_le hl hr ((ip4AddrMatch_iff (hl.net r hr) ip4).mp h)
  have hmm : ip4AddrMatch m.ip4 m.mask ip4 = true :=
    (ip4AddrMatch_iff (hl.net m hm.mem) ip4).mpr hm.shares
  rw [send4Loop_eq]
  split
  next hclear =>
    have hfind : l.find? (fun r => ip4AddrMatch r.ip4 r.mask ip4 || decide (r.ip4 < ip4))
        = some m := by
      refine (DescList.find?_eq_greatest hl.desc).mpr ⟨hm.mem, by simp [hmm], fun y hy hstop => ?_⟩
      rcases Bool.or_eq_true_iff.mp hstop with h | h
      · exact hmatch y hy h
      · exact not_lt.mp fun hlt => hclear y hy ⟨hlt, by simpa using h⟩
    simp [hfind, hmm]
  next hblocked =>
    simp only [not_forall, not_not] at hblocked
    obtain ⟨r, hr, hkey, hlt⟩ := hblocked
    cases hfind : l.find? (fun r => ip4AddrMatch r.ip4 r.mask ip4 || decide (r.ip4 < ip4)) with
    | none => rfl
    | some x =>
      obtain ⟨hx, -, hmax⟩ := (DescList.find?_eq_greatest hl.desc).mp hfind
      have hrx : r.key ≤ x.key := hmax r hr (by simp [hlt])
      have hnot : ¬ ip4AddrMatch x.ip4 x.mask ip4 = true := fun h =>
        absurd (hmatch x hx h) (hkey.trans_le hrx).not_ge
      simp [hnot]

/-- There is a longest route as soon as some route matches. -/
theorem exists_longest (hr : r ∈ l) (hshares : SharesPrefix r.mask r.ip4 ip4) :
    ∃ m, Longest l ip4 m := by
  classical
  obtain ⟨m, hm, hmax⟩ := Finset.exists_max_image
    (l.toFinset.filter fun r => SharesPrefix r.mask r.ip4 ip4) Route4Link.mask
    ⟨r, by simp [hr, hshares]⟩
  simp only [Finset.mem_filter, List.mem_toFinset] at hm hmax
  exact ⟨m, hm.1, hm.2, fun x hx hsx => hmax x ⟨hx, hsx⟩⟩

/-! ## `send4` -/

/-- The default tunnel gets the packet where the routes give none. -/
theorem send4_eq (s : Router) (p : Ip4Packet) :
    send4 s p = ((routed4 s p).or s.ip4DefaultTunCtx).map fun t => ⟨t, p.buff, p.pktLen⟩ := by
  unfold send4
  cases routed4 s p <;> rfl

/-- What `send4` is for: the packet goes to the tunnel of the longest matching
route, and to the default tunnel (`send4_eq`) if and only if no route matches. -/
structure SendsByLongestPrefix (s : Router) (p : Ip4Packet) : Prop where
  route : ∀ m, Longest s.ip4Routes p.destination m →
    send4 s p = some ⟨m.tunCtx, p.buff, p.pktLen⟩
  noRoute : routed4 s p = none ↔ ∀ r ∈ s.ip4Routes, ¬ SharesPrefix r.mask r.ip4 p.destination

/-- A packet is sent by longest prefix exactly when no route hides the longest
one that matches its destination. -/
theorem send4_longest_prefix_iff {mem : RouterCtx} {dev : TunPtr} {refs : Refs TunPtr}
    {localFd : TunPtr → Int} {ops : List Op} {s : Router}
    (h : run step (routerInit mem dev refs localFd) ops = some s) (p : Ip4Packet) :
    SendsByLongestPrefix s p ↔
      ∀ m, Longest s.ip4Routes p.destination m → ∀ r ∈ s.ip4Routes,
        ¬ Hides r m p.destination := by
  have hl := table4_run h
  have hrouted : routed4 s p = send4Loop p.destination s.ip4Routes := by
    unfold routed4
    rw [ntohl_word16]
  refine ⟨?_, ?_⟩
  · intro hsends m hm r hr hhides
    -- the walk stops at `r`, so the default is used although `m` matches
    have hnone : routed4 s p = none := by
      rw [hrouted, hm.walk_eq hl, if_neg]
      exact fun hclear => hclear r hr ((hm.hides_iff hl hr).mpr hhides)
    exact hsends.noRoute.mp hnone m hm.mem hm.shares
  · intro hclear
    have hfound : ∀ m, Longest s.ip4Routes p.destination m → routed4 s p = some m.tunCtx := by
      intro m hm
      rw [hrouted, hm.walk_eq hl, if_pos]
      exact fun r hr hhides => hclear m hm r hr ((hm.hides_iff hl hr).mp hhides)
    refine ⟨fun m hm => ?_, fun hnone r hr hshares => ?_, fun hno => ?_⟩
    · rw [send4_eq, hfound m hm]
      rfl
    · obtain ⟨m, hm⟩ := exists_longest hr hshares
      rw [hfound m hm] at hnone
      cases hnone
    · rw [hrouted]
      exact send4Loop_of_no_match hl hno

/-- A bare header to 10.2.0.1. -/
def packetTo10_2_0_1 : Ip4Packet where
  buff := List.replicate 16 0 ++ [10, 2, 0, 1]
  pktLen := 20
  header := le_refl 20
  inside := le_refl 20

/-- Of two routes that match, with another one behind the destination, the packet takes the
longer one. -/
theorem send4_longest_prefix_witness :
    ∃ s, run step freshRouter
        [.route4 0x0A000000#32 8 1, .route4 0x0A020000#32 16 2, .route4 0x0B000000#32 8 3] =
          some s ∧
      SendsByLongestPrefix s packetTo10_2_0_1 ∧
      (send4 s packetTo10_2_0_1).map Sent.tunCtx = some 2 := by
  have hrun : run step freshRouter
      [.route4 0x0A000000#32 8 1, .route4 0x0A020000#32 16 2, .route4 0x0B000000#32 8 3] =
        some (route4 (route4 (route4 freshRouter 0x0A000000#32 8 1) 0x0A020000#32 16 2)
          0x0B000000#32 8 3) := rfl
  refine ⟨_, hrun, (send4_longest_prefix_iff hrun packetTo10_2_0_1).mpr ?_, by decide⟩
  intro m hm r hr hhides
  have hbelow : ∀ r ∈ [(⟨0x0B000000#32, 8, 3⟩ : Route4Link), ⟨0x0A020000#32, 16, 2⟩,
      ⟨0x0A000000#32, 8, 1⟩], ¬ SharesPrefix r.mask r.ip4 packetTo10_2_0_1.destination →
        ¬ r.ip4 < packetTo10_2_0_1.destination := by decide
  exact hbelow r hr hhides.1 hhides.2.2

/-- With 10.0.0.0/8 and 10.1.0.0/16 the packet to 10.2.0.1 goes to the default
tunnel, although the first of the two routes matches. -/
theorem send4_longest_prefix_counterexample :
    ∃ s, run step freshRouter
        [.route4 0x0A000000#32 8 1, .route4 0x0A010000#32 16 2, .default4 3] = some s ∧
      ⟨0x0A000000#32, 8, 1⟩ ∈ s.ip4Routes ∧
      SharesPrefix 8 0x0A000000#32 packetTo10_2_0_1.destination ∧
      (send4 s packetTo10_2_0_1).map Sent.tunCtx = some 3 ∧
      ¬ SendsByLongestPrefix s packetTo10_2_0_1 := by
  refine ⟨_, rfl, by decide, by decide, by decide, fun h => ?_⟩
  exact h.noRoute.mp (by decide) ⟨0x0A000000#32, 8, 1⟩ (by decide) (by decide)

end ConfProfile
