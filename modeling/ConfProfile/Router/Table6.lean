import ConfProfile.Lib.PrefixTable
import ConfProfile.Router.Route6

/-!
# The IPv6 route list as a table

The map from IPv6 networks to tunnels that `ip6_routes` stands for (`tableOf6`), and what each call
does to it (`RouteMap6.apply`): `route6` updates one network, `unroute` drops the networks of a
tunnel, and `unroute6` drops the longest network at the very address it is given, since it looks
neither at the mask nor at host bits. Every run of calls on a context without IPv6 routes is the run
of these on the empty map, whatever `malloc` gave and whatever host bits the callers left in
(`tableOf6_run`), and `unroute6_undoes_route6_iff` says for which calls `unroute6` takes back what
`route6` did.
-/

namespace ConfProfile

open ByteMem
open Run
open DescList (Desc lookup upsert)
open NetPrefix (netOf)
open PrefixTable (removeAt)

/-- An IPv6 network. -/
structure Net6 where
  ip6 : BitVec 128
  mask : Nat
  mask_le : mask ≤ 128
  host_zero : netOf mask ip6 = ip6
  deriving DecidableEq

/-- The network of an address at a prefix length (cut to 128). -/
def Net6.of (ip6 : BitVec 128) (mask : Nat) : Net6 :=
  ⟨netOf (min mask 128) ip6, min mask 128, Nat.min_le_right _ _, NetPrefix.netOf_self _ _⟩

/-- Where the list keeps a network. -/
def Net6.key (n : Net6) : ℕ ×ₗ ℕ := toLex (n.ip6.toNat, n.mask)

/-- The tunnel of each network with a route. -/
abbrev RouteMap6 := Net6 → Option TunPtr

/-- The networks of a tunnel removed. -/
def RouteMap6.dropTun (m : RouteMap6) (t : TunPtr) : RouteMap6 := fun n => (m n).filter (· ≠ t)

/-- `n` has a route, and no longer network at its address has one. -/
def RouteMap6.LongestAt (m : RouteMap6) (n : Net6) : Prop :=
  (m n).isSome ∧ ∀ n' : Net6, n'.ip6 = n.ip6 → (m n').isSome → n'.mask ≤ n.mask

open Classical in
/-- The longest network at an address removed. -/
noncomputable def RouteMap6.dropLongestAt (m : RouteMap6) (a : BitVec 128) : RouteMap6 :=
  fun n => if n.ip6 = a ∧ m.LongestAt n then none else m n

/-- What a call does to the map. -/
noncomputable def RouteMap6.apply (m : RouteMap6) : Op6 → RouteMap6
  | .route6 _ ip6 mask t => Function.update m (Net6.of (addr6 ip6) mask) (some t)
  | .unroute6 ip6 _ => m.dropLongestAt (addr6 ip6)
  | .default6 _ => m
  | .other (.unroute t) => m.dropTun t
  | .other _ => m

/-- The map that a list of links stands for. -/
def tableOf6 (l : List Route6Link) : RouteMap6 :=
  fun n => (lookup Route6Link.key n.key l).map Route6Link.tunCtx

theorem Table6.prefixTable {l : List Route6Link} (h : Table6 l) :
    PrefixTable.Table Route6Link.ip6 Route6Link.mask l := ⟨h.desc, h.net⟩

/-! ## `route6` and `unroute` -/

theorem Net6.key_eq_route6Link {n : Net6} {mem ip6 : Mem} {mask : Nat} {t : TunPtr} :
    n.key = (route6Link mem ip6 mask t).key ↔ n = Net6.of (addr6 ip6) mask := by
  rw [route6Link_eq, Net6.key, Route6Link.key, Net6.of, toLex_inj, Prod.mk.injEq, BitVec.toNat_inj]
  cases n
  simp only [Net6.mk.injEq]

/-- The link of a network, in a table. -/
theorem lookup_key_eq_some {l : List Route6Link} (h : Table6 l) {n : Net6} {r : Route6Link} :
    lookup Route6Link.key n.key l = some r ↔ r ∈ l ∧ r.ip6 = n.ip6 ∧ r.mask = n.mask := by
  rw [DescList.lookup_eq_some h.desc, Route6Link.key, Net6.key, toLex_inj, Prod.mk.injEq,
    BitVec.toNat_inj]

theorem tableOf6_route6 {s : Router} (hs : Table6 s.ip6Routes) (mem ip6 : Mem) (mask : Nat)
    (t : TunPtr) :
    tableOf6 (route6 s mem ip6 mask t).ip6Routes
      = Function.update (tableOf6 s.ip6Routes) (Net6.of (addr6 ip6) mask) (some t) := by
  obtain ⟨count, refs, he⟩ := route6_frame s mem ip6 mask t
  funext n
  rw [he, tableOf6, DescList.lookup_upsert hs.desc]
  by_cases hn : n = Net6.of (addr6 ip6) mask
  · rw [if_pos (Net6.key_eq_route6Link.mpr hn), hn, Function.update_self]
    rfl
  · rw [if_neg fun h => hn (Net6.key_eq_route6Link.mp h), Function.update_of_ne hn]
    rfl

theorem tableOf6_unroute {s : Router} (hs : Table6 s.ip6Routes) (t : TunPtr) :
    tableOf6 (unroute s t).ip6Routes = (tableOf6 s.ip6Routes).dropTun t := by
  funext n
  rw [unroute_eq, RouteMap6.dropTun, tableOf6, tableOf6]
  show Option.map _ (lookup _ _ (s.ip6Routes.filter _)) = _
  rw [DescList.lookup_filter hs.desc, Option.filter_map]
  rfl

/-! ## `unroute6` -/

/-- How `memcmp` orders a link and an address. -/
theorem memcmp_bytes (r : Route6Link) (ip6 : Mem) :
    (memcmp r.bytes ip6 16 < 0 ↔ r.ip6 < addr6 ip6) ∧
      (memcmp r.bytes ip6 16 = 0 ↔ r.ip6 = addr6 ip6) := by
  obtain ⟨hlt, heq⟩ := memcmp_ofBytes r.bytes ip6 16
  rw [← addr6_bytes r]
  exact ⟨hlt, heq⟩

/-- The two outcomes of the removal loop. -/
theorem unroute6Loop_cases (ip6 : Mem) (count : Int) (refs : Refs TunPtr) (updated : Bool)
    (l : List Route6Link) (prev : List Route6Link) :
    (∃ pre r post, l = pre ++ r :: post ∧ (∀ x ∈ pre, addr6 ip6 < x.ip6) ∧ r.ip6 = addr6 ip6 ∧
      unroute6Loop ip6 count refs updated prev l
        = ⟨prev.reverse ++ (pre ++ post), count - 1, refs.refPut r.tunCtx, true⟩) ∨
    (∃ pre post, l = pre ++ post ∧ (∀ x ∈ pre, addr6 ip6 < x.ip6) ∧
      (∀ r ∈ post.head?, r.ip6 < addr6 ip6) ∧
      unroute6Loop ip6 count refs updated prev l = ⟨prev.reverse ++ l, count, refs, updated⟩) := by
  induction l generalizing prev with
  | nil => exact Or.inr ⟨[], [], rfl, by simp, by simp, by simp [unroute6Loop]⟩
  | cons curr next ih =>
    obtain ⟨hlt, heq⟩ := memcmp_bytes curr ip6
    unfold unroute6Loop
    dsimp only
    split
    next hsame => exact Or.inl ⟨[], curr, next, rfl, by simp, heq.mp hsame, rfl⟩
    next hne =>
      split
      next hbelow =>
        exact Or.inr ⟨[], curr :: next, rfl, by simp, by simpa using hlt.mp hbelow, rfl⟩
      next hge =>
        have hcurr : addr6 ip6 < curr.ip6 := by
          have hne' : curr.ip6.toNat ≠ (addr6 ip6).toNat := fun h =>
            hne (heq.mpr (BitVec.eq_of_toNat_eq h))
          rw [hlt, BitVec.lt_def] at hge
          rw [BitVec.lt_def]
          omega
        have hpass : ∀ pre : List Route6Link, (∀ x ∈ pre, addr6 ip6 < x.ip6) →
            ∀ x ∈ curr :: pre, addr6 ip6 < x.ip6 := fun pre hpre =>
          List.forall_mem_cons.mpr ⟨hcurr, hpre⟩
        rcases ih (curr :: prev) with
          ⟨pre, r, post, hl, hpre, hr, he⟩ | ⟨pre, post, hl, hpre, hr, he⟩
        · exact Or.inl ⟨curr :: pre, r, post, by rw [hl]; rfl, hpass pre hpre, hr, by simpa using he⟩
        · exact Or.inr ⟨curr :: pre, post, by rw [hl]; rfl, hpass pre hpre, hr, by simpa using he⟩

/-- Everything `unroute6` can do: take out the first link of that very address, or stop at a smaller
address (or at the end) and change nothing. -/
theorem unroute6_cases (s : Router) (ip6 : Mem) (mask : Nat) :
    (∃ pre r post, s.ip6Routes = pre ++ r :: post ∧ (∀ x ∈ pre, addr6 ip6 < x.ip6) ∧
      r.ip6 = addr6 ip6 ∧
      unroute6 s ip6 mask =
        { s with
          ip6Routes := pre ++ post, ip6RoutesCount := s.ip6RoutesCount - 1
          refs := s.refs.refPut r.tunCtx, routesUpdated := true }) ∨
    (∃ pre post, s.ip6Routes = pre ++ post ∧ (∀ x ∈ pre, addr6 ip6 < x.ip6) ∧
      (∀ r ∈ post.head?, r.ip6 < addr6 ip6) ∧ unroute6 s ip6 mask = s) := by
  unfold unroute6
  rcases unroute6Loop_cases ip6 s.ip6RoutesCount s.refs s.routesUpdated s.ip6Routes [] with
    ⟨pre, r, post, hl, hpre, hr, he⟩ | ⟨pre, post, hl, hpre, hr, he⟩
  · exact Or.inl ⟨pre, r, post, hl, hpre, hr, by simp only [he]; rfl⟩
  · exact Or.inr ⟨pre, post, hl, hpre, hr, by simp only [he]; rfl⟩

/-- On a table, stopping at a smaller address misses nothing. -/
theorem unroute6_routes {s : Router} (hs : Table6 s.ip6Routes) (ip6 : Mem) (mask : Nat) :
    (unroute6 s ip6 mask).ip6Routes = removeAt Route6Link.ip6 (addr6 ip6) s.ip6Routes := by
  rcases unroute6_cases s ip6 mask with
    ⟨pre, r, post, hl, hpre, hr, he⟩ | ⟨pre, post, hl, hpre, hpost, he⟩
  · rw [he, hl, PrefixTable.removeAt_append hpre hr]
  · have hdesc := hs.desc
    rw [hl] at hdesc
    rw [he, hl, PrefixTable.removeAt_eq_self hdesc hpre hpost]

theorem table6_unroute6 {s : Router} (hs : Table6 s.ip6Routes) (ip6 : Mem) (mask : Nat) :
    Table6 (unroute6 s ip6 mask).ip6Routes := by
  rw [unroute6_routes hs]
  exact hs.sublist List.eraseP_sublist

/-- A link of a table is at a network, and bound there. -/
theorem exists_net6 {l : List Route6Link} (h : Table6 l) {r : Route6Link} (hr : r ∈ l) :
    ∃ n : Net6, n.ip6 = r.ip6 ∧ n.mask = r.mask ∧ (tableOf6 l n).isSome := by
  obtain ⟨hmask, hnet⟩ := h.net r hr
  refine ⟨⟨r.ip6, r.mask, hmask, hnet⟩, rfl, rfl, ?_⟩
  rw [tableOf6, (lookup_key_eq_some h).mpr ⟨hr, rfl, rfl⟩]
  rfl

theorem tableOf6_isSome {l : List Route6Link} (h : Table6 l) {n : Net6} :
    (tableOf6 l n).isSome ↔ ∃ r ∈ l, r.ip6 = n.ip6 ∧ r.mask = n.mask := by
  rw [tableOf6, Option.isSome_map, Option.isSome_iff_exists]
  exact exists_congr fun r => lookup_key_eq_some h

/-- The link at a network of that address is the first one there exactly if no longer network at the
address is bound. -/
theorem find?_at_iff_longestAt {l : List Route6Link} (h : Table6 l) {n : Net6} {r : Route6Link}
    (hr : r ∈ l) (hip : r.ip6 = n.ip6) (hmask : r.mask = n.mask) :
    l.find? (fun x => decide (x.ip6 = n.ip6)) = some r ↔ (tableOf6 l).LongestAt n := by
  rw [PrefixTable.find?_at_eq_some h.desc]
  constructor
  · intro hfirst
    obtain ⟨-, -, hmax⟩ := hfirst
    refine ⟨(tableOf6_isSome h).mpr ⟨r, hr, hip, hmask⟩, fun n' hn' hsome => ?_⟩
    obtain ⟨r', hr', hip', hmask'⟩ := (tableOf6_isSome h).mp hsome
    rw [← hmask, ← hmask']
    exact hmax r' hr' (hip'.trans hn')
  · intro hlongest
    refine ⟨hr, hip, fun x hx hxip => ?_⟩
    obtain ⟨n', hn'ip, hn'mask, hsome⟩ := exists_net6 h hx
    rw [hmask, ← hn'mask]
    exact hlongest.2 n' (hn'ip.trans hxip) hsome

theorem tableOf6_unroute6 {s : Router} (hs : Table6 s.ip6Routes) (ip6 : Mem) (mask : Nat) :
    tableOf6 (unroute6 s ip6 mask).ip6Routes
      = (tableOf6 s.ip6Routes).dropLongestAt (addr6 ip6) := by
  have htable := table6_unroute6 hs ip6 mask
  funext n
  have hmem : ∀ r, r ∈ (unroute6 s ip6 mask).ip6Routes ↔ r ∈ s.ip6Routes ∧
      s.ip6Routes.find? (fun x => decide (x.ip6 = addr6 ip6)) ≠ some r := by
    intro r
    rw [unroute6_routes hs]
    exact PrefixTable.mem_removeAt hs.desc
  have hlookup : ∀ r, lookup Route6Link.key n.key (unroute6 s ip6 mask).ip6Routes = some r ↔
      lookup Route6Link.key n.key s.ip6Routes = some r ∧
        ¬ (n.ip6 = addr6 ip6 ∧ (tableOf6 s.ip6Routes).LongestAt n) := by
    intro r
    rw [lookup_key_eq_some htable, lookup_key_eq_some hs, hmem, and_right_comm]
    refine and_congr_right fun hr => not_congr ?_
    obtain ⟨hr, hip, hmask⟩ := hr
    constructor
    · intro hfirst
      have hat := ((PrefixTable.find?_at_eq_some hs.desc).mp hfirst).2.1
      have hn : n.ip6 = addr6 ip6 := hip.symm.trans hat
      rw [← hn] at hfirst
      exact ⟨hn, (find?_at_iff_longestAt hs hr hip hmask).mp hfirst⟩
    · intro h
      obtain ⟨hn, hlongest⟩ := h
      rw [← hn]
      exact (find?_at_iff_longestAt hs hr hip hmask).mpr hlongest
  rw [RouteMap6.dropLongestAt]
  by_cases hdrop : n.ip6 = addr6 ip6 ∧ (tableOf6 s.ip6Routes).LongestAt n
  · have hnone : lookup Route6Link.key n.key (unroute6 s ip6 mask).ip6Routes = none :=
      Option.eq_none_iff_forall_ne_some.mpr fun r hr => ((hlookup r).mp hr).2 hdrop
    rw [if_pos hdrop, tableOf6, hnone]
    rfl
  · have hsame : lookup Route6Link.key n.key (unroute6 s ip6 mask).ip6Routes =
        lookup Route6Link.key n.key s.ip6Routes :=
      Option.ext fun r => (hlookup r).trans (and_iff_left hdrop)
    rw [if_neg hdrop, tableOf6, hsame]
    rfl

/-! ## Runs -/

/-- The other calls leave the IPv6 list alone, except `unroute`. -/
theorem ip6Routes_step {s s' : Router} {op : Op} (h : step s op = some s')
    (hop : ∀ t, op ≠ .unroute t) : s'.ip6Routes = s.ip6Routes := by
  cases op with
  | route4 ip4 mask t =>
    obtain ⟨count, refs, rfl⟩ := step_route4 h
    rfl
  | unroute4 ip4 mask =>
    obtain ⟨l, count, refs, updated, -, rfl⟩ := step_unroute4 h
    rfl
  | unroute t => exact absurd rfl (hop t)
  | default4 t =>
    obtain rfl : default4 s t = s' := Option.some.inj h
    rfl
  | setTunDevTunFd fd =>
    obtain rfl : setTunDevTunFd s fd = s' := Option.some.inj h
    rfl
  | rebuildEpollStruct =>
    obtain ⟨links, capacity, count, refs, fds, rfl⟩ := rebuildEpollStruct_frame h
    rfl

/-- One call is one step of the map. -/
theorem tableOf6_step {s s' : Router} {op : Op6} (hs : Table6 s.ip6Routes)
    (h : step6 s op = some s') :
    tableOf6 s'.ip6Routes = RouteMap6.apply (tableOf6 s.ip6Routes) op := by
  cases op with
  | route6 mem ip6 mask t =>
    obtain rfl : route6 s mem ip6 mask t = s' := Option.some.inj h
    exact tableOf6_route6 hs mem ip6 mask t
  | unroute6 ip6 mask =>
    obtain rfl : unroute6 s ip6 mask = s' := Option.some.inj h
    exact tableOf6_unroute6 hs ip6 mask
  | default6 t =>
    obtain rfl : default6 s t = s' := Option.some.inj h
    rfl
  | other op =>
    have h' : step s op = some s' := h
    cases op with
    | unroute t =>
      obtain rfl : unroute s t = s' := Option.some.inj h
      exact tableOf6_unroute hs t
    | _ =>
      rw [ip6Routes_step h' (by simp)]
      rfl

/-- The list is a table in every state of a run. -/
theorem table6_run {s s' : Router} (hs : s.ip6Routes = []) {ops : List Op6}
    (h : run step6 s ops = some s') : Table6 s'.ip6Routes := by
  refine inv_run (I := fun s => Table6 s.ip6Routes) (fun _ _ _ => table6_step6) ops ?_ h
  rw [hs]
  exact table6_nil

theorem tableOf6_run_of {ops : List Op6} : ∀ {s s' : Router}, Table6 s.ip6Routes →
    run step6 s ops = some s' →
    tableOf6 s'.ip6Routes = ops.foldl RouteMap6.apply (tableOf6 s.ip6Routes) := by
  induction ops with
  | nil =>
    intro s s' _ h
    obtain rfl : s = s' := Option.some.inj h
    rfl
  | cons op ops ih =>
    intro s s' hs h
    obtain ⟨s₁, hstep, hrest⟩ := run_cons_some h
    rw [ih (table6_step6 hs hstep) hrest, tableOf6_step hs hstep]
    rfl

/-- Along every run of calls from a context without IPv6 routes, the list is strictly descending and
at networks only, and it stands for the map that the calls make of the empty one. -/
theorem tableOf6_run {s s' : Router} (hs : s.ip6Routes = []) {ops : List Op6}
    (h : run step6 s ops = some s') :
    (s'.ip6Routes.Pairwise fun a b => b.ip6 < a.ip6 ∨ (b.ip6 = a.ip6 ∧ b.mask < a.mask)) ∧
    (∀ r ∈ s'.ip6Routes, r.mask ≤ 128 ∧ netOf r.mask r.ip6 = r.ip6) ∧
    tableOf6 s'.ip6Routes = ops.foldl RouteMap6.apply fun _ => none := by
  have htable := table6_run hs h
  have hempty : tableOf6 s.ip6Routes = fun _ => none := by
    rw [hs]
    rfl
  refine ⟨htable.desc.imp PrefixTable.key_lt_key.mp, htable.net, ?_⟩
  rw [← hempty]
  refine tableOf6_run_of ?_ h
  rw [hs]
  exact table6_nil

/-- Two addresses in one network, behind different memory, and an `unroute6` at the network. -/
theorem tableOf6_run_witness :
    tableOf6 (unroute6 (route6 (route6 freshRouter (fun _ => 0xff) (fun _ => 0x20) 4 1)
      (fun _ => 0x00) (fun i => if i = 0 then 0x21 else 0x00) 8 2)
      (fun i => if i = 0 then 0x21 else 0x00) 0).ip6Routes =
    List.foldl RouteMap6.apply (fun _ => none)
      [.route6 (fun _ => 0xff) (fun _ => 0x20) 4 1,
        .route6 (fun _ => 0x00) (fun i => if i = 0 then 0x21 else 0x00) 8 2,
        .unroute6 (fun i => if i = 0 then 0x21 else 0x00) 0] :=
  (tableOf6_run (s := freshRouter) rfl rfl).2.2

/-! ## `unroute6` against `route6` -/

/-- The link is the one of that network. -/
def Route6Link.atNet (r : Route6Link) (n : Net6) : Prop := r.ip6 = n.ip6 ∧ r.mask = n.mask

instance Route6Link.decidableAtNet (r : Route6Link) (n : Net6) : Decidable (r.atNet n) := by
  unfold Route6Link.atNet
  infer_instance

theorem Route6Link.atNet_of {r : Route6Link} {mem ip6 : Mem} {mask : Nat} {t : TunPtr} :
    r.atNet (Net6.of (addr6 ip6) mask) ↔ r.key = (route6Link mem ip6 mask t).key := by
  have hkey : r.key = (route6Link mem ip6 mask t).key ↔ _ := PrefixTable.key_eq_key
  rw [hkey, route6Link_eq]
  rfl

/-- `unroute6` undoes `route6` (it removes exactly the network that `route6` installs, and restores
a list without it) for exactly those calls whose address has no host bits and at whose address no
longer prefix hides the one meant and, if there is any link, there is one of the given mask. -/
theorem unroute6_undoes_route6_iff {s s' : Router} (hs : s.ip6Routes = []) {ops : List Op6}
    (h : run step6 s ops = some s') (ip6 : Mem) (mask : Nat) :
    ((unroute6 s' ip6 mask).ip6Routes
        = s'.ip6Routes.filter (fun r => ¬ r.atNet (Net6.of (addr6 ip6) mask)) ∧
      ∀ mem t, (∀ r ∈ s'.ip6Routes, ¬ r.atNet (Net6.of (addr6 ip6) mask)) →
        (unroute6 (route6 s' mem ip6 mask t) ip6 mask).ip6Routes = s'.ip6Routes) ↔
    (addr6 ip6 = netOf (min mask 128) (addr6 ip6) ∧
      ∀ r ∈ s'.ip6Routes, r.ip6 = addr6 ip6 →
        r.mask ≤ min mask 128 ∧ ∃ x ∈ s'.ip6Routes, x.ip6 = addr6 ip6 ∧ x.mask = min mask 128) := by
  have htable := table6_run hs h
  -- the link that `route6` would build, from any memory and for any tunnel
  have hlink : ∀ mem t, (route6Link mem ip6 mask t).mask = min mask 128 ∧
      (route6Link mem ip6 mask t).ip6
        = netOf (route6Link mem ip6 mask t).mask (addr6 ip6) := by
    intro mem t
    rw [route6Link_eq]
    exact ⟨rfl, rfl⟩
  have hundo : ∀ mem t, _ := fun mem t =>
    PrefixTable.removeAt_undoes_iff (x := route6Link mem ip6 mask t) htable.prefixTable (hlink mem t).2
  have hfilter : ∀ mem t, s'.ip6Routes.filter (fun r => ¬ r.atNet (Net6.of (addr6 ip6) mask)) =
      s'.ip6Routes.filter fun r => r.key ≠ (route6Link mem ip6 mask t).key := by
    intro mem t
    refine List.filter_congr fun r _ => ?_
    rw [decide_eq_decide]
    exact not_congr Route6Link.atNet_of
  have hrestore : ∀ mem t, (unroute6 (route6 s' mem ip6 mask t) ip6 mask).ip6Routes =
      removeAt Route6Link.ip6 (addr6 ip6)
        (upsert Route6Link.key (route6Link mem ip6 mask t) s'.ip6Routes) := by
    intro mem t
    obtain ⟨count, refs, he⟩ := route6_frame s' mem ip6 mask t
    rw [unroute6_routes (table6_route6 htable mem ip6 mask t), he]
  have hfree : ∀ mem t, (∀ r ∈ s'.ip6Routes, ¬ r.atNet (Net6.of (addr6 ip6) mask)) ↔
      ∀ r ∈ s'.ip6Routes, r.key ≠ (route6Link mem ip6 mask t).key := fun mem t =>
    forall₂_congr fun r _ => not_congr Route6Link.atNet_of
  have hmask := fun mem t => (hlink mem t).1
  constructor
  · intro hundoes
    obtain ⟨hremoves, hrestores⟩ := hundoes
    have hiff := hundo (fun _ => 0) 0
    rw [hmask] at hiff
    refine hiff.mp ⟨?_, fun hnew => ?_⟩
    · exact (unroute6_routes htable ip6 mask).symm.trans (hremoves.trans (hfilter (fun _ => 0) 0))
    · exact (hrestore (fun _ => 0) 0).symm.trans
        (hrestores (fun _ => 0) 0 ((hfree (fun _ => 0) 0).mpr hnew))
  · intro hcond
    have hboth : ∀ mem t, _ := fun mem t => (hundo mem t).mpr (by rw [hmask]; exact hcond)
    refine ⟨?_, fun mem t hnew => ?_⟩
    · rw [unroute6_routes htable, hfilter (fun _ => 0) 0]
      exact (hboth (fun _ => 0) 0).1
    · rw [hrestore]
      exact (hboth mem t).2 ((hfree mem t).mp hnew)

/-- On a fresh router both sides hold of a call with a cleared address. -/
theorem unroute6_undoes_route6_witness :
    (unroute6 (route6 freshRouter (fun _ => 0xff) (fun i => if i = 0 then 0x20 else 0x00) 3 1)
      (fun i => if i = 0 then 0x20 else 0x00) 3).ip6Routes = [] := by
  have hiff := @unroute6_undoes_route6_iff freshRouter _ rfl [] rfl
    (fun i => if i = 0 then 0x20 else 0x00) 3
  exact (hiff.mpr ⟨by decide, fun r hr => by cases hr⟩).2 _ _ fun r hr => by cases hr

end ConfProfile
