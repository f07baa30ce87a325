import ConfProfile.Router.DevTun
import ConfProfile.Router.Table6

/-!
# Sending an IPv6 packet (`send6`)

`send6` reads the destination at offset 24, walks `ip6_routes` and hands the packet to the tunnel of
the first link that matches, or to the default tunnel when the walk comes back with none. The walk
is the scan of `PrefixTable` (`send6Loop_eq`), so the first match is the longest prefix, and the
early end at a link below the destination hides it in the tables where a link that does not match
lies between (`send6_run`). `ipsend` has the call commented out; JNI installs the routes all the
same.
-/

namespace ConfProfile

open ByteMem
open Run
open NetPrefix (SharesPrefix)
open PrefixTable (walk)

/-- The bytes behind a pointer. -/
def behind (offset : Nat) (m : Mem) : Mem := fun i => m (offset + i)

/-- The route loop of `send6`. -/
def send6Loop (ip6 : Mem) : List Route6Link → Option TunPtr
  | [] => none
  | curr :: next =>
    let cmpAddrs := memcmp curr.bytes ip6 16
    if ip6AddrMatch curr.bytes (BitVec.ofNat 8 curr.mask) ip6 then some curr.tunCtx
    else if cmpAddrs < 0 then
      -- no such route
      none
    else send6Loop ip6 next

/-- The tunnel that the routes give for a destination, or else the default one. -/
def tunFor6 (s : Router) (ip6 : Mem) : Option TunPtr :=
  match send6Loop ip6 s.ip6Routes with
  | some t => some t
  | none => s.ip6DefaultTunCtx

/-- The end of `send6`: the tunnel that got the packet, and what its `send` returned. -/
def handOver (tuns : Tunnels) (p : OcpaIpPacket) : Option TunPtr → MemM (Option TunPtr × Int)
  | some t => do
    masqueradeSrc (tuns.ctx t) p.pktLen
    let result ← tuns.send t p.pktLen
    return (some t, result)
  | none =>
    -- "Destination tunnel is not ready, dropping a packet"
    return (none, 0)

/-- `send6` on the buffer. -/
def send6 (s : Router) (tuns : Tunnels) (p : OcpaIpPacket) : MemM (Option TunPtr × Int) := fun m =>
  handOver tuns p (tunFor6 s (behind 24 m)) m

/-- On a table the route loop is the scan for the destination. -/
theorem send6Loop_eq {l : List Route6Link} (h : Table6 l) (ip6 : Mem) :
    send6Loop ip6 l =
      (walk Route6Link.ip6 Route6Link.mask (addr6 ip6) l).map Route6Link.tunCtx := by
  induction l with
  | nil => rfl
  | cons curr next ih =>
    have hmatch := Route6Link.match_iff (h.net curr List.mem_cons_self) ip6
    have hbelow := (memcmp_bytes curr ip6).1
    unfold send6Loop walk
    dsimp only
    split
    next hyes => rw [if_pos (hmatch.mp hyes), Option.map_some]
    next hno =>
      rw [if_neg fun hshares => hno (hmatch.mpr hshares)]
      split
      next hlt => rw [if_pos (hbelow.mp hlt), Option.map_none]
      next hge =>
        rw [if_neg fun hlt => hge (hbelow.mpr hlt), ih (h.sublist (List.sublist_cons_self curr next))]

/-- `r` is the installed route of longest prefix for an address. -/
abbrev Longest6 (l : List Route6Link) (ip6 : BitVec 128) (r : Route6Link) : Prop :=
  PrefixTable.Longest Route6Link.ip6 Route6Link.mask l ip6 r

/-- `x` does not match and lies between the network of `r` and the address. -/
def Hides6 (x r : Route6Link) (ip6 : BitVec 128) : Prop :=
  ¬ SharesPrefix x.mask x.ip6 ip6 ∧ r.ip6 ≤ x.ip6 ∧ x.ip6 < ip6

/-- The tunnel of the longest prefix, when nothing hides it. -/
theorem tunFor6_of_longest {s : Router} (hs : Table6 s.ip6Routes) {ip6 : Mem} {r : Route6Link}
    (hr : Longest6 s.ip6Routes (addr6 ip6) r)
    (hclear : ∀ x ∈ s.ip6Routes, ¬ Hides6 x r (addr6 ip6)) : tunFor6 s ip6 = some r.tunCtx := by
  have hwalk := (PrefixTable.walk_eq_some hs.prefixTable).mpr ⟨hr, hclear⟩
  rw [tunFor6, send6Loop_eq hs, hwalk]
  rfl

/-- The default tunnel, when no route matches or the longest one is hidden. -/
theorem tunFor6_of_hidden {s : Router} (hs : Table6 s.ip6Routes) {ip6 : Mem}
    (h : ∀ r, Longest6 s.ip6Routes (addr6 ip6) r → ∃ x ∈ s.ip6Routes, Hides6 x r (addr6 ip6)) :
    tunFor6 s ip6 = s.ip6DefaultTunCtx := by
  rw [tunFor6, send6Loop_eq hs, (PrefixTable.walk_eq_none hs.prefixTable).mpr h]
  rfl

/-- Along every run of calls, for every buffer: the packet goes to the tunnel of the longest prefix
that matches its destination if no route hides it, and in every other case to the default tunnel, or
nowhere if there is none. -/
theorem send6_run {s s' : Router} (hs : s.ip6Routes = []) {ops : List Op6}
    (h : run step6 s ops = some s') (tuns : Tunnels) (p : OcpaIpPacket) (m : Mem) :
    (∀ r, Longest6 s'.ip6Routes (addr6 (behind 24 m)) r →
      (∀ x ∈ s'.ip6Routes, ¬ Hides6 x r (addr6 (behind 24 m))) →
      send6 s' tuns p m = handOver tuns p (some r.tunCtx) m) ∧
    ((∀ r, Longest6 s'.ip6Routes (addr6 (behind 24 m)) r →
        ∃ x ∈ s'.ip6Routes, Hides6 x r (addr6 (behind 24 m))) →
      send6 s' tuns p m = handOver tuns p s'.ip6DefaultTunCtx m) := by
  have htable := table6_run hs h
  constructor
  · intro r hr hclear
    rw [send6, tunFor6_of_longest htable hr hclear]
  · intro hhidden
    rw [send6, tunFor6_of_hidden htable hhidden]

/-- 2000::/8 and 2010::/16 with a default, and a packet to 2020::, which the first route matches. -/
theorem send6_run_witness :
    send6 (default6 (route6 (route6 freshRouter (fun _ => 0x00)
        (fun i => if i = 0 then 0x20 else 0x00) 8 1)
        (fun _ => 0x00) (fun i => if i = 0 then 0x20 else if i = 1 then 0x10 else 0x00) 16 2) 3)
      emptyBuff.tuns (newPacket 1500 40) (fun i => if i = 24 ∨ i = 25 then 0x20 else 0x00) =
    handOver emptyBuff.tuns (newPacket 1500 40) (some 3)
      (fun i => if i = 24 ∨ i = 25 then 0x20 else 0x00) := by
  have hrun := @send6_run freshRouter _ rfl
      [.route6 (fun _ => 0x00) (fun i => if i = 0 then 0x20 else 0x00) 8 1,
        .route6 (fun _ => 0x00) (fun i => if i = 0 then 0x20 else if i = 1 then 0x10 else 0x00) 16 2,
        .default6 3] rfl emptyBuff.tuns (newPacket 1500 40)
      (fun i => if i = 24 ∨ i = 25 then 0x20 else 0x00)
  refine hrun.2 fun r hr => ⟨⟨0x20100000000000000000000000000000#128, 16, 2⟩, by decide, ?_⟩
  have hmem : r ∈ [⟨0x20100000000000000000000000000000#128, 16, 2⟩,
      (⟨0x20000000000000000000000000000000#128, 8, 1⟩ : Route6Link)] := hr.mem
  rcases List.mem_pair.mp hmem with rfl | rfl
  · exact absurd hr.shares (by decide)
  · exact ⟨by decide, by decide, by decide⟩

end ConfProfile
