import ConfProfile.Router.Ops

/-!
# The IPv4 route list as a table

What the list is for: a finite map from networks to tunnels. A network
(`Net4`) is an address without host bits and a prefix length of at most 32, and
`tableOf` reads the map off the list. `Table4` is the invariant that makes this
reading right: the list is strictly descending by (address, prefix length) and
every link is at a network. It holds in every state of every run
(`table4_run`).

Under it `route4` is the update of one network, and `unroute` removes the
networks bound to one tunnel. `unroute4` looks neither at the prefix length nor
at host bits: it takes out the first link of the address it is given, which is
the link of greatest prefix length there (`unroute4_routes`). So it undoes
`route4` exactly when the caller cleared the host bits himself and no longer
prefix is installed at the same address.
-/

namespace ConfProfile

open Run
open NetPrefix (netOf)
open DescList (Desc lookup)

/-- An IPv4 network. -/
structure Net4 where
  ip4 : BitVec 32
  mask : Nat
  mask_le : mask ≤ 32
  host_zero : netOf mask ip4 = ip4
  deriving DecidableEq

/-- The network of an address at a prefix length (cut to 32). -/
def Net4.of (ip4 : BitVec 32) (mask : Nat) : Net4 :=
  ⟨netOf (min mask 32) ip4, min mask 32, min_le_right _ _, NetPrefix.netOf_self _ _⟩

/-- Where the list keeps a network. -/
def Net4.key (n : Net4) : ℕ ×ₗ ℕ := toLex (n.ip4.toNat, n.mask)

/-- The tunnel of each network with a route. -/
abbrev RouteMap := Net4 → Option TunPtr

/-- The networks of a tunnel removed, every other binding kept. -/
def RouteMap.dropTun (m : RouteMap) (t : TunPtr) : RouteMap := fun n => (m n).filter (· ≠ t)

/-- The table that a list of links stands for. -/
def tableOf (l : List Route4Link) : RouteMap :=
  fun n => (lookup Route4Link.key n.key l).map Route4Link.tunCtx

/-- Strictly descending, and every link at a network. -/
structure Table4 (l : List Route4Link) : Prop where
  desc : Desc Route4Link.key l
  net : ∀ r ∈ l, r.mask ≤ 32 ∧ netOf r.mask r.ip4 = r.ip4

/-! ## The invariant -/

theorem table4_nil : Table4 [] := ⟨DescList.desc_nil, by simp⟩

theorem Table4.sublist {l₁ l₂ : List Route4Link} (h : Table4 l₂) (hs : l₁.Sublist l₂) :
    Table4 l₁ :=
  ⟨h.desc.sublist hs, fun r hr => h.net r (hs.subset hr)⟩

/-- The link that `route4` builds is at a network. -/
theorem route4Link_net (ip4 : BitVec 32) (mask : Nat) (t : TunPtr) :
    (route4Link ip4 mask t).mask ≤ 32 ∧
      netOf (route4Link ip4 mask t).mask (route4Link ip4 mask t).ip4
        = (route4Link ip4 mask t).ip4 := by
  rw [route4Link_eq]
  exact ⟨min_le_right _ _, NetPrefix.netOf_self _ _⟩

theorem table4_route4 {s : Router} (h : Table4 s.ip4Routes) (ip4 : BitVec 32) (mask : Nat)
    (t : TunPtr) : Table4 (route4 s ip4 mask t).ip4Routes := by
  rw [route4_routes]
  refine ⟨DescList.desc_upsert h.desc, fun r hr => ?_⟩
  rcases (DescList.mem_upsert h.desc).mp hr with rfl | ⟨hr', -⟩
  · exact route4Link_net ip4 mask t
  · exact h.net r hr'

theorem table4_step {s s' : Router} {op : Op} (hs : Table4 s.ip4Routes)
    (h : step s op = some s') : Table4 s'.ip4Routes := by
  cases op with
  | route4 ip4 mask t =>
    obtain rfl : route4 s ip4 mask t = s' := Option.some.inj h
    exact table4_route4 hs ip4 mask t
  | _ => exact hs.sublist (ip4Routes_sublist_step h fun _ _ _ he => nomatch he)

/-- The list is a table in every state of a run. -/
theorem table4_run {mem : RouterCtx} {dev : TunPtr} {refs : Refs TunPtr} {localFd : TunPtr → Int}
    {ops : List Op} {s : Router} (h : run step (routerInit mem dev refs localFd) ops = some s) :
    Table4 s.ip4Routes :=
  inv_run (I := fun s => Table4 s.ip4Routes) (fun _ _ _ => table4_step) ops table4_nil h

/-- No address and prefix length occurs twice. -/
theorem Table4.nodup {l : List Route4Link} (h : Table4 l) :
    (l.map fun r => (r.ip4, r.mask)).Nodup := by
  refine List.pairwise_map.mpr (h.desc.imp fun {a b} hab he => ?_)
  obtain ⟨hip, hmask⟩ := Prod.mk.inj he
  exact hab.ne (Route4Link.key_eq_key.mpr ⟨hip.symm, hmask.symm⟩)

/-! ## `route4` and `unroute` as operations of the table -/

theorem Net4.key_eq_route4Link {n : Net4} {ip4 : BitVec 32} {mask : Nat} {t : TunPtr} :
    n.key = (route4Link ip4 mask t).key ↔ n = Net4.of ip4 mask := by
  rw [route4Link_eq]
  unfold Net4.key Route4Link.key Net4.of
  rw [toLex_inj, Prod.mk.injEq, BitVec.toNat_inj]
  cases n
  simp only [Net4.mk.injEq]

theorem tableOf_route4 {s : Router} (hs : Table4 s.ip4Routes) (ip4 : BitVec 32) (mask : Nat)
    (t : TunPtr) :
    tableOf (route4 s ip4 mask t).ip4Routes
      = Function.update (tableOf s.ip4Routes) (Net4.of ip4 mask) (some t) := by
  funext n
  unfold tableOf
  rw [route4_routes, DescList.lookup_upsert hs.desc]
  by_cases hn : n = Net4.of ip4 mask
  · rw [if_pos (Net4.key_eq_route4Link.mpr hn), hn, Function.update_self]
    rfl
  · rw [if_neg fun h => hn (Net4.key_eq_route4Link.mp h), Function.update_of_ne hn]

theorem tableOf_unroute {s : Router} (hs : Table4 s.ip4Routes) (t : TunPtr) :
    tableOf (unroute s t).ip4Routes = (tableOf s.ip4Routes).dropTun t := by
  funext n
  unfold tableOf RouteMap.dropTun
  rw [unroute_eq]
  show Option.map _ (lookup _ _ (s.ip4Routes.filter _)) = _
  rw [DescList.lookup_filter hs.desc, Option.filter_map]
  rfl

/-- In every run the list is strictly descending, at networks only and without
repetition; the four operations return; and on the finite map that the list
stands for, `route4` updates one network and `unroute` removes the networks of
one tunnel. -/
theorem route_list_is_finite_map {mem : RouterCtx} {dev : TunPtr} {refs : Refs TunPtr}
    {localFd : TunPtr → Int} {ops : List Op} {s : Router}
    (h : run step (routerInit mem dev refs localFd) ops = some s) :
    (s.ip4Routes.Pairwise fun a b => b.ip4 < a.ip4 ∨ (b.ip4 = a.ip4 ∧ b.mask < a.mask)) ∧
    (∀ r ∈ s.ip4Routes, ∀ i, r.mask ≤ i → r.ip4.getMsbD i = false) ∧
    (s.ip4Routes.map fun r => (r.ip4, r.mask)).Nodup ∧
    (∀ op, op ≠ .rebuildEpollStruct → (step s op).isSome) ∧
    (∀ ip4 mask t, step s (.route4 ip4 mask t) = some (route4 s ip4 mask t) ∧
      tableOf (route4 s ip4 mask t).ip4Routes
        = Function.update (tableOf s.ip4Routes) (Net4.of ip4 mask) (some t)) ∧
    (∀ t, step s (.unroute t) = some (unroute s t) ∧
      tableOf (unroute s t).ip4Routes = (tableOf s.ip4Routes).dropTun t) := by
  have htable := table4_run h
  refine ⟨?_, ?_, htable.nodup, fun op => step_isSome s, fun ip4 mask t => ⟨rfl, ?_⟩,
    fun t => ⟨rfl, tableOf_unroute htable t⟩⟩
  · exact htable.desc.imp Route4Link.key_lt_key.mp
  · intro r hr i hi
    obtain ⟨hmask, hnet⟩ := htable.net r hr
    rw [← hnet, NetPrefix.getMsbD_netOf hmask]
    simp [not_lt.mpr hi]
  · exact tableOf_route4 htable ip4 mask t

/-- Two routes at one address and an `unroute`. -/
theorem route_list_is_finite_map_witness :
    tableOf (unroute (route4 (route4 freshRouter 0x0A010203#32 8 1) 0x0A000000#32 16 2) 1).ip4Routes
      (Net4.of 0x0A000000#32 16) = some 2 := by
  have hrun : run step freshRouter
      [.route4 0x0A010203#32 8 1, .route4 0x0A000000#32 16 2] = some _ := rfl
  obtain ⟨-, -, -, -, -, hunroute⟩ := route_list_is_finite_map hrun
  rw [(hunroute 1).2]
  decide

/-! ## `unroute4` -/

/-- The link is the one of that network. -/
def Route4Link.atNet (r : Route4Link) (n : Net4) : Prop := r.ip4 = n.ip4 ∧ r.mask = n.mask

instance (r : Route4Link) (n : Net4) : Decidable (r.atNet n) := by
  unfold Route4Link.atNet
  infer_instance

theorem Route4Link.atNet_of {r : Route4Link} {ip4 : BitVec 32} {mask : Nat} {t : TunPtr} :
    r.atNet (Net4.of ip4 mask) ↔ r.key = (route4Link ip4 mask t).key := by
  rw [Route4Link.key_eq_key, route4Link_eq]
  rfl

/-- The first link at an address. -/
def firstAt (ip4 : BitVec 32) (l : List Route4Link) : Option Route4Link :=
  l.find? fun r => decide (r.ip4 = ip4)

/-- The first link at an address is the one of greatest prefix length there. -/
theorem firstAt_eq_some {l : List Route4Link} (h : Desc Route4Link.key l) {ip4 : BitVec 32}
    {x : Route4Link} :
    firstAt ip4 l = some x ↔
      x ∈ l ∧ x.ip4 = ip4 ∧ ∀ r ∈ l, r.ip4 = ip4 → r.mask ≤ x.mask := by
  have hkey : ∀ r : Route4Link, x.ip4 = ip4 → r.ip4 = ip4 → (r.key ≤ x.key ↔ r.mask ≤ x.mask) := by
    intro r hx hr
    rw [← not_lt, Route4Link.key_lt_key, hx, hr, BitVec.lt_def]
    simp
  unfold firstAt
  rw [DescList.find?_eq_greatest h]
  simp only [decide_eq_true_eq]
  refine and_congr_right fun _ => and_congr_right fun hx => forall₃_congr fun r _ hr => ?_
  exact hkey r hx hr

theorem firstAt_eq_none {l : List Route4Link} {ip4 : BitVec 32} :
    firstAt ip4 l = none ↔ ∀ r ∈ l, r.ip4 ≠ ip4 := by
  simp [firstAt, List.find?_eq_none]

/-- On a descending list, stopping at a smaller address misses nothing: what
`unroute4` takes out is the first link at the very address of the call. -/
theorem unroute4_routes {s : Router} (hs : Desc Route4Link.key s.ip4Routes) (ip4 : BitVec 32)
    (mask : Nat) :
    (unroute4 s ip4 mask).ip4Routes = s.ip4Routes.eraseP fun r => decide (r.ip4 = ip4) := by
  have hgt : ∀ x : Route4Link, ip4 < x.ip4 → ¬ decide (x.ip4 = ip4) = true := by
    intro x hx
    rw [BitVec.lt_def] at hx
    rw [decide_eq_true_eq]
    intro he
    subst he
    omega
  rcases unroute4_cases s ip4 mask with ⟨pre, r, post, hl, hpre, hr, he⟩ | ⟨pre, post, hl, hpre, hpost, he⟩
  · rw [he, hl, List.eraseP_append_right _ fun x hx => hgt x (hpre x hx),
      List.eraseP_cons_of_pos (by simpa using hr)]
  · rw [he, hl]
    symm
    apply List.eraseP_of_forall_not
    intro x hx
    rcases List.mem_append.mp hx with hx' | hx'
    · exact hgt x (hpre x hx')
    · cases post with
      | nil => cases hx'
      | cons z zs =>
        -- everything from the head of the rest on is below the address
        have hz : z.ip4 < ip4 := hpost z rfl
        rw [hl] at hs
        have hbelow := (DescList.desc_cons.mp (List.pairwise_append.mp hs).2.1).1
        have hle : x.ip4.toNat ≤ z.ip4.toNat := by
          rcases List.mem_cons.mp hx' with rfl | hx''
          · exact le_refl _
          · rcases Route4Link.key_lt_key.mp (hbelow x hx'') with hlt | ⟨heq, -⟩
            · exact (BitVec.lt_def.mp hlt).le
            · rw [heq]
        rw [BitVec.lt_def] at hz
        rw [decide_eq_true_eq]
        intro he
        subst he
        omega

theorem mem_unroute4 {s : Router} (hs : Desc Route4Link.key s.ip4Routes) {ip4 : BitVec 32}
    {mask : Nat} {x : Route4Link} :
    x ∈ (unroute4 s ip4 mask).ip4Routes ↔ x ∈ s.ip4Routes ∧ firstAt ip4 s.ip4Routes ≠ some x := by
  rw [unroute4_routes hs, DescList.mem_eraseP hs]
  rfl

/-- `unroute4` removes exactly the link of one network if and only if the first
link at the address of the call is that link. -/
theorem unroute4_removes_iff {s : Router} (hs : Desc Route4Link.key s.ip4Routes)
    (ip4 : BitVec 32) (mask : Nat) :
    (unroute4 s ip4 mask).ip4Routes
        = s.ip4Routes.filter (fun r => ¬ r.atNet (Net4.of ip4 mask)) ↔
      ∀ x ∈ s.ip4Routes, firstAt ip4 s.ip4Routes = some x ↔ x.atNet (Net4.of ip4 mask) := by
  refine ⟨?_, ?_⟩
  · intro h x hx
    have hmem : x ∈ (unroute4 s ip4 mask).ip4Routes ↔ ¬ x.atNet (Net4.of ip4 mask) := by
      rw [h, List.mem_filter]
      simp [hx]
    rw [mem_unroute4 hs] at hmem
    tauto
  · intro h
    have hdesc : Desc Route4Link.key (unroute4 s ip4 mask).ip4Routes := by
      rw [unroute4_routes hs]
      exact hs.sublist List.eraseP_sublist
    refine DescList.desc_ext hdesc (hs.filter _) fun x => ?_
    rw [mem_unroute4 hs, List.mem_filter]
    refine and_congr_right fun hx => ?_
    rw [ne_eq, not_congr (h x hx)]
    simp

/-- After `route4` on a table without the network, `unroute4` restores the table
if and only if the first link at the address of the call is the new one. -/
theorem unroute4_route4_iff {s : Router} (hs : Table4 s.ip4Routes) {ip4 : BitVec 32} {mask : Nat}
    (t : TunPtr) (hnew : ∀ r ∈ s.ip4Routes, ¬ r.atNet (Net4.of ip4 mask)) :
    (unroute4 (route4 s ip4 mask t) ip4 mask).ip4Routes = s.ip4Routes ↔
      firstAt ip4 (route4 s ip4 mask t).ip4Routes = some (route4Link ip4 mask t) := by
  have hdesc := (table4_route4 hs ip4 mask t).desc
  have hmem : ∀ x, x ∈ (route4 s ip4 mask t).ip4Routes ↔
      x = route4Link ip4 mask t ∨ x ∈ s.ip4Routes := by
    intro x
    rw [route4_routes, DescList.mem_upsert hs.desc]
    refine or_congr_right ⟨And.left, fun hx => ⟨hx, fun hk => hnew x hx ?_⟩⟩
    exact Route4Link.atNet_of.mpr hk
  have hfresh : route4Link ip4 mask t ∉ s.ip4Routes := fun h =>
    hnew _ h (Route4Link.atNet_of.mpr rfl)
  refine ⟨?_, ?_⟩
  · intro h
    by_contra hne
    exact hfresh (h ▸ (mem_unroute4 hdesc).mpr ⟨(hmem _).mpr (Or.inl rfl), hne⟩)
  · intro h
    have hdesc' : Desc Route4Link.key (unroute4 (route4 s ip4 mask t) ip4 mask).ip4Routes := by
      rw [unroute4_routes hdesc]
      exact hdesc.sublist List.eraseP_sublist
    refine DescList.desc_ext hdesc' hs.desc fun x => ?_
    rw [mem_unroute4 hdesc, hmem, h]
    refine ⟨?_, ?_⟩
    · intro hcase
      rcases hcase with ⟨rfl | hx, hne⟩
      · exact absurd rfl hne
      · exact hx
    · intro hx
      exact ⟨Or.inr hx, fun he => hfresh (Option.some.inj he ▸ hx)⟩

/-- `unroute4` undoes `route4` (it removes exactly the network that `route4`
installs, and restores a table without it) for exactly those calls whose address
has no host bits and at whose address no other route hides the one meant. -/
theorem unroute4_undoes_route4_iff {mem : RouterCtx} {dev : TunPtr} {refs : Refs TunPtr}
    {localFd : TunPtr → Int} {ops : List Op} {s : Router}
    (h : run step (routerInit mem dev refs localFd) ops = some s) (ip4 : BitVec 32) (mask : Nat) :
    ((unroute4 s ip4 mask).ip4Routes
        = s.ip4Routes.filter (fun r => ¬ r.atNet (Net4.of ip4 mask)) ∧
      ∀ t, (∀ r ∈ s.ip4Routes, ¬ r.atNet (Net4.of ip4 mask)) →
        (unroute4 (route4 s ip4 mask t) ip4 mask).ip4Routes = s.ip4Routes) ↔
    (ip4 = netOf (min mask 32) ip4 ∧
      ∀ r ∈ s.ip4Routes, r.ip4 = ip4 →
        r.mask ≤ min mask 32 ∧ ∃ x ∈ s.ip4Routes, x.ip4 = ip4 ∧ x.mask = min mask 32) := by
  have hs := table4_run h
  rw [unroute4_removes_iff hs.desc]
  refine ⟨?_, ?_⟩
  · intro hx
    obtain ⟨hremoves, hrestores⟩ := hx
    cases hfirst : firstAt ip4 s.ip4Routes with
    | some f =>
      obtain ⟨hf, hfip, hmax⟩ := (firstAt_eq_some hs.desc).mp hfirst
      obtain ⟨hnet, hmask⟩ := (hremoves f hf).mp hfirst
      refine ⟨hfip.symm.trans hnet, fun r hr hrip => ⟨?_, f, hf, hfip, hmask⟩⟩
      exact (hmax r hr hrip).trans_eq hmask
    | none =>
      have hnone := firstAt_eq_none.mp hfirst
      -- the network is not installed, so installing it tells the address
      have hnew : ∀ r ∈ s.ip4Routes, ¬ r.atNet (Net4.of ip4 mask) := by
        intro r hr hat
        have hsome := (hremoves r hr).mpr hat
        rw [hfirst] at hsome
        cases hsome
      have hlink := (unroute4_route4_iff hs 0 hnew).mp (hrestores 0 hnew)
      have hip : (route4Link ip4 mask 0).ip4 = ip4 :=
        ((firstAt_eq_some (table4_route4 hs ip4 mask 0).desc).mp hlink).2.1
      rw [route4Link_eq] at hip
      exact ⟨hip.symm, fun r hr hrip => absurd hrip (hnone r hr)⟩
  · intro hx
    obtain ⟨hip, hall⟩ := hx
    refine ⟨fun x hx => ?_, fun t hnew => ?_⟩
    · rw [firstAt_eq_some hs.desc]
      refine ⟨?_, ?_⟩
      · intro hx
        obtain ⟨-, hxip, hmax⟩ := hx
        obtain ⟨hle, y, hy, hyip, hymask⟩ := hall x hx hxip
        have hge : min mask 32 ≤ x.mask := hymask ▸ hmax y hy hyip
        exact ⟨hxip.trans hip, le_antisymm hle hge⟩
      · intro hx
        obtain ⟨hxnet, hxmask⟩ := hx
        refine ⟨hx, hxnet.trans hip.symm, fun r hr hrip => ?_⟩
        exact (hall r hr hrip).1.trans_eq hxmask.symm
    · rw [unroute4_route4_iff hs t hnew]
      rw [firstAt_eq_some (table4_route4 hs ip4 mask t).desc, route4_routes, DescList.mem_upsert hs.desc]
      refine ⟨Or.inl rfl, by rw [route4Link_eq]; exact hip.symm, fun r hr hrip => ?_⟩
      rcases (DescList.mem_upsert hs.desc).mp hr with rfl | ⟨hr', -⟩
      · exact le_refl _
      · obtain ⟨-, x, hx, hxip, hxmask⟩ := hall r hr' hrip
        exact absurd ⟨hxip.trans hip, hxmask⟩ (hnew x hx)

/-- At an address with two masks the call for the longer one removes its route and no other, and
a route at a new address is taken back. -/
theorem unroute4_undoes_route4_witness :
    ∃ s, run step freshRouter
        [.route4 0x0A000000#32 8 1, .route4 0x0A000000#32 16 2, .route4 0x0B000000#32 8 3] =
          some s ∧
      (unroute4 s 0x0A000000#32 16).ip4Routes =
        [⟨0x0B000000#32, 8, 3⟩, ⟨0x0A000000#32, 8, 1⟩] ∧
      ∀ t, (unroute4 (route4 s 0x0A030000#32 16 t) 0x0A030000#32 16).ip4Routes = s.ip4Routes := by
  have hrun : run step freshRouter
      [.route4 0x0A000000#32 8 1, .route4 0x0A000000#32 16 2, .route4 0x0B000000#32 8 3] =
        some (route4 (route4 (route4 freshRouter 0x0A000000#32 8 1) 0x0A000000#32 16 2)
          0x0B000000#32 8 3) := rfl
  have hremoves := unroute4_undoes_route4_iff hrun 0x0A000000#32 16
  have hrestores := unroute4_undoes_route4_iff hrun 0x0A030000#32 16
  exact ⟨_, hrun, (hremoves.mpr ⟨by decide, by decide⟩).1,
    fun t => (hrestores.mpr ⟨by decide, by decide⟩).2 t (by decide)⟩

/-- A route of the same address and a longer mask is removed in place of the one
asked for, and a call with host bits does not take back what `route4` installed. -/
theorem unroute4_undoes_route4_counterexample :
    (∃ s, run step freshRouter [.route4 0x0A000000#32 8 1, .route4 0x0A000000#32 16 2] = some s ∧
      (unroute4 s 0x0A000000#32 8).ip4Routes = [⟨0x0A000000#32, 8, 1⟩] ∧
      (unroute4 s 0x0A000000#32 8).ip4Routes
        ≠ s.ip4Routes.filter fun r => ¬ r.atNet (Net4.of 0x0A000000#32 8)) ∧
    (unroute4 (route4 freshRouter 0x0A010203#32 8 1) 0x0A010203#32 8).ip4Routes
      ≠ freshRouter.ip4Routes :=
  ⟨⟨_, rfl, by decide, by decide⟩, by decide⟩

end ConfProfile
