import ConfProfile.Router.Epoll
import ConfProfile.Lib.Run

/-!
# Runs of the router

The other files speak about sequences of operations on one router context. An
`Op` is one call, `step` performs it (`none` is a rebuild that never returns),
and the runs are those of `Run` from the context that `routerInit` makes.

Beside the calls that change routes there is `setTunDevTunFd`, with which the
router loop gives the dev tunnel its descriptor: it may come anywhere in a run,
since the VPN service installs routes before and after it starts the loop.

What every run keeps is collected in `Shaped`: the slot array has its recorded
capacity, and the recorded count either is still the initial 0 or is the number
that the capacity was computed from.
-/

namespace ConfProfile

open Run
open DescList (upsert)

/-- A call on a router context. -/
inductive Op where
  | route4 (ip4 : BitVec 32) (mask : Nat) (tunCtx : TunPtr)
  | unroute4 (ip4 : BitVec 32) (mask : Nat)
  | unroute (tunCtx : TunPtr)
  | default4 (tunCtx : TunPtr)
  | setTunDevTunFd (fd : Int)
  | rebuildEpollStruct
  deriving DecidableEq, Repr

/-- One call. -/
def step (s : Router) : Op → Option Router
  | .route4 ip4 mask t => some (route4 s ip4 mask t)
  | .unroute4 ip4 mask => some (unroute4 s ip4 mask)
  | .unroute t => some (unroute s t)
  | .default4 t => some (default4 s t)
  | .setTunDevTunFd fd => some (setTunDevTunFd s fd)
  | .rebuildEpollStruct => rebuildEpollStruct s

/-- Only a rebuild can fail to return. -/
theorem step_isSome (s : Router) {op : Op} (h : op ≠ .rebuildEpollStruct) : (step s op).isSome := by
  cases op with
  | rebuildEpollStruct => exact absurd rfl h
  | _ => rfl

/-! ## What an operation leaves alone -/

/-- `route4` changes the IPv4 list, its counter, the references and the flag. -/
theorem route4_frame (s : Router) (ip4 : BitVec 32) (mask : Nat) (t : TunPtr) :
    ∃ count refs,
      route4 s ip4 mask t =
        { s with
          ip4Routes := upsert Route4Link.key (route4Link ip4 mask t) s.ip4Routes
          ip4RoutesCount := count, refs := refs, routesUpdated := true } := by
  rw [← route4_routes]
  rcases route4_cases s ip4 mask t with
    ⟨-, he⟩ | ⟨pre, r, post, -, -, -, he⟩ | ⟨pre, r, post, -, -, -, he⟩
  · exact ⟨s.ip4RoutesCount, s.refs.refGet t, by rw [he]⟩
  · exact ⟨s.ip4RoutesCount + 1, s.refs.refGet t, by rw [he]⟩
  · exact ⟨s.ip4RoutesCount, (s.refs.refGet t).refPut r.tunCtx, by rw [he]⟩

/-- `unroute4` changes the same fields, and the list only by leaving links out. -/
theorem unroute4_frame (s : Router) (ip4 : BitVec 32) (mask : Nat) :
    ∃ l count refs updated, l.Sublist s.ip4Routes ∧
      unroute4 s ip4 mask =
        { s with
          ip4Routes := l, ip4RoutesCount := count, refs := refs, routesUpdated := updated } := by
  rcases unroute4_cases s ip4 mask with ⟨pre, r, post, hl, -, -, he⟩ | ⟨pre, post, -, -, -, he⟩
  · refine ⟨pre ++ post, s.ip4RoutesCount - 1, s.refs.refPut r.tunCtx, true, ?_, he⟩
    rw [hl]
    exact (List.Sublist.refl pre).append (List.sublist_cons_self r post)
  · exact ⟨s.ip4Routes, s.ip4RoutesCount, s.refs, s.routesUpdated, List.Sublist.refl _, he⟩

/-- A rebuild leaves every route and default alone. -/
theorem rebuildEpollStruct_frame {s s' : Router} (h : rebuildEpollStruct s = some s') :
    ∃ links capacity count refs fds,
      s' =
        { s with
          epollLinks := links, epollLinksCapacity := capacity, epollLinksCount := count
          refs := refs, epollFds := fds, routesUpdated := false } := by
  rcases rebuildEpollStruct_cases h with ⟨-, rfl⟩ | ⟨-, -, ctxs, -, fds, -, ⟨-, rfl⟩ | ⟨-, -, rfl⟩⟩
  · exact ⟨_, _, _, _, _, rfl⟩
  · exact ⟨_, _, _, _, _, rfl⟩
  · exact ⟨_, _, _, _, _, rfl⟩

section Step

variable {s s' : Router} {ip4 : BitVec 32} {mask : Nat} {t : TunPtr}

theorem step_route4 (h : step s (.route4 ip4 mask t) = some s') :
    ∃ count refs,
      s' =
        { s with
          ip4Routes := upsert Route4Link.key (route4Link ip4 mask t) s.ip4Routes
          ip4RoutesCount := count, refs := refs, routesUpdated := true } := by
  obtain ⟨count, refs, he⟩ := route4_frame s ip4 mask t
  exact ⟨count, refs, (Option.some.inj h).symm.trans he⟩

theorem step_unroute4 (h : step s (.unroute4 ip4 mask) = some s') :
    ∃ l count refs updated, l.Sublist s.ip4Routes ∧
      s' =
        { s with
          ip4Routes := l, ip4RoutesCount := count, refs := refs, routesUpdated := updated } := by
  obtain ⟨l, count, refs, updated, hsub, he⟩ := unroute4_frame s ip4 mask
  exact ⟨l, count, refs, updated, hsub, (Option.some.inj h).symm.trans he⟩

/-- Only `route4` adds a route. -/
theorem ip4Routes_sublist_step {op : Op} (h : step s op = some s')
    (hop : ∀ ip4 mask t, op ≠ .route4 ip4 mask t) : s'.ip4Routes.Sublist s.ip4Routes := by
  cases op with
  | route4 ip4 mask t => exact absurd rfl (hop ip4 mask t)
  | unroute4 ip4 mask =>
    obtain ⟨l, count, refs, updated, hsub, rfl⟩ := step_unroute4 h
    exact hsub
  | unroute t =>
    obtain rfl : s' = _ := (Option.some.inj h).symm.trans (unroute_eq s t)
    exact List.filter_sublist
  | default4 t =>
    obtain rfl : default4 s t = s' := Option.some.inj h
    exact List.Sublist.refl _
  | setTunDevTunFd fd =>
    obtain rfl : setTunDevTunFd s fd = s' := Option.some.inj h
    exact List.Sublist.refl _
  | rebuildEpollStruct =>
    obtain ⟨links, capacity, count, refs, fds, rfl⟩ := rebuildEpollStruct_frame h
    exact List.Sublist.refl _

/-- No call here adds an IPv6 route. -/
theorem ip6Routes_sublist_step {op : Op} (h : step s op = some s') :
    s'.ip6Routes.Sublist s.ip6Routes := by
  cases op with
  | route4 ip4 mask t =>
    obtain ⟨count, refs, rfl⟩ := step_route4 h
    exact List.Sublist.refl _
  | unroute4 ip4 mask =>
    obtain ⟨l, count, refs, updated, -, rfl⟩ := step_unroute4 h
    exact List.Sublist.refl _
  | unroute t =>
    obtain rfl : s' = _ := (Option.some.inj h).symm.trans (unroute_eq s t)
    exact List.filter_sublist
  | default4 t =>
    obtain rfl : default4 s t = s' := Option.some.inj h
    exact List.Sublist.refl _
  | setTunDevTunFd fd =>
    obtain rfl : setTunDevTunFd s fd = s' := Option.some.inj h
    exact List.Sublist.refl _
  | rebuildEpollStruct =>
    obtain ⟨links, capacity, count, refs, fds, rfl⟩ := rebuildEpollStruct_frame h
    exact List.Sublist.refl _

end Step

/-! ## The shape of the slot array -/

/-- The slot array has its capacity, and the capacity is that of the count. -/
structure Shaped (s : RouterCtx) : Prop where
  length : s.epollLinks.length = s.epollLinksCapacity
  band : (s.epollLinksCapacity = 4 ∧ s.epollLinksCount = 0) ∨
    (1 ≤ s.epollLinksCount ∧
      s.epollLinksCapacity = s.epollLinksCount + s.epollLinksCount >>> 1)

theorem shaped_routerInit (mem : RouterCtx) (dev : TunPtr) (refs : Refs TunPtr)
    (localFd : TunPtr → Int) : Shaped (routerInit mem dev refs localFd).toRouterCtx :=
  ⟨rfl, Or.inl ⟨rfl, rfl⟩⟩

/-- The dev tunnel is always collected, so there is something to poll. -/
theorem collect_length_pos (s : Router) : 1 ≤ (collect s).1.length := by
  have hfirst : 1 ≤ (collectFirst s).length := by
    unfold collectFirst
    split
    · split <;> simp
    · simp
  exact hfirst.trans (prefix_collectRoutes s.localFd s.ip4Routes (collectFirst s)).length_le

theorem shaped_step {s s' : Router} {op : Op} (hs : Shaped s.toRouterCtx)
    (h : step s op = some s') : Shaped s'.toRouterCtx := by
  cases op with
  | route4 ip4 mask t =>
    obtain ⟨count, refs, rfl⟩ := step_route4 h
    exact ⟨hs.length, hs.band⟩
  | unroute4 ip4 mask =>
    obtain ⟨l, count, refs, updated, -, rfl⟩ := step_unroute4 h
    exact ⟨hs.length, hs.band⟩
  | unroute t =>
    obtain rfl : s' = _ := (Option.some.inj h).symm.trans (unroute_eq s t)
    refine ⟨?_, hs.band⟩
    have hlen := hs.length
    simp only [List.length_append, List.length_map, List.length_take, List.length_drop]
    omega
  | default4 t =>
    obtain rfl : default4 s t = s' := Option.some.inj h
    exact ⟨hs.length, hs.band⟩
  | setTunDevTunFd fd =>
    obtain rfl : setTunDevTunFd s fd = s' := Option.some.inj h
    exact ⟨hs.length, hs.band⟩
  | rebuildEpollStruct =>
    rcases rebuildEpollStruct_cases h with
      ⟨-, rfl⟩ | ⟨-, -, ctxs, hc, fds, -, ⟨-, rfl⟩ | ⟨-, hle, rfl⟩⟩
    · exact ⟨hs.length, hs.band⟩
    · exact ⟨length_filledLinks (Nat.le_add_right _ _),
        Or.inr ⟨hc ▸ collect_length_pos s, rfl⟩⟩
    · exact ⟨length_filledLinks hle, hs.band⟩

/-- Every state of a run of a router has a slot array of the recorded shape. -/
theorem shaped_run {mem : RouterCtx} {dev : TunPtr} {refs : Refs TunPtr} {localFd : TunPtr → Int}
    {ops : List Op} {s : Router} (h : run step (routerInit mem dev refs localFd) ops = some s) :
    Shaped s.toRouterCtx :=
  inv_run (fun _ _ _ => shaped_step) ops (shaped_routerInit mem dev refs localFd) h

/-! ## Tunnels with descriptors -/

/-- Every tunnel of the list has a descriptor. -/
def Described (localFd : TunPtr → Int) (routes : List Route4Link) : Prop :=
  ∀ r ∈ routes, localFd r.tunCtx ≠ UNDEFINED_FD

instance (localFd : TunPtr → Int) (routes : List Route4Link) :
    Decidable (Described localFd routes) :=
  inferInstanceAs (Decidable (∀ r ∈ routes, localFd r.tunCtx ≠ UNDEFINED_FD))

end ConfProfile
