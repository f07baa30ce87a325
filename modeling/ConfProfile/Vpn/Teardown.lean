import ConfProfile.Router.Jni
import ConfProfile.Router.Send4

/-!
# Terminating a tunnel (`VpnTunnel.terminateConnection`)

Each subclass of `VpnTunnel` tears its tunnel down in its own way, and all four
end by dropping the reference that came with the native context
(`deinit…Tun`). Only `IpSecTunnel` takes the tunnel out of the router first. The
other three leave their routes, default and epoll slots where they are, and with
them references that keep the context alive: the router goes on sending packets
through the terminated tunnel.

Even `removeTunnel` can leave something. It scans the slots below
`epoll_links_count` and relies on the rebuild to clear those behind, but a
rebuild whose allocation is refused clears nothing.

What is dropped and not held stays so, since `checkTunnel` refuses a tunnel
without a context (`unheld_step_iff`). So a run is clean exactly if each
termination is (`teardown_along_iff`). They all are if the memory of the context
held no pointer, only IPsec tunnels are routed and no allocation is refused
(`teardown_along_of_ipSec`). But the VPN service makes the user-NAT tunnel the
default as soon as it starts.

The workers, sockets and state notifications of a tunnel have no counterpart.
-/

namespace ConfProfile

open Run

/-! ## The tunnels -/

/-- The subclasses of `VpnTunnel`. -/
inductive TunnelKind where
  | ipSec
  | openVpn
  | l2tp
  | usernat
  deriving DecidableEq, Repr

/-- `VpnTunnel`: what `isTerminated` gives, and `mVpnTunnelCtx` (`none` for 0),
which a terminated tunnel does not have. -/
structure VpnTunnel where
  kind : TunnelKind
  isTerminated : Bool
  vpnTunnelCtx : Option TunPtr
  closed : isTerminated = true → vpnTunnelCtx = none

/-- The tunnel without its context. -/
def VpnTunnel.close (tun : VpnTunnel) (terminated : Bool) : VpnTunnel :=
  { tun with isTerminated := terminated, vpnTunnelCtx := none, closed := fun _ => rfl }

/-- The four `deinit…Tun`: they put the owner's reference, unless the context is
NULL. -/
def deinitTun (s : Router) : Option TunPtr → Router
  | none => s
  | some t => s.refPut t

/-- `IpSecTunnel.deinitIpSecTun`. -/
def deinitIpSecTun (s : Router) (ctx : Option TunPtr) : Router := deinitTun s ctx

/-- `OpenVpnTunnel.deinitOpenVpnTun`. -/
def deinitOpenVpnTun (s : Router) (ctx : Option TunPtr) : Router := deinitTun s ctx

/-- `L2tpTunnel.deinitL2tpTun`. -/
def deinitL2tpTun (s : Router) (ctx : Option TunPtr) : Router := deinitTun s ctx

/-- `UsernatTunnel.deinitUsernatTun`. -/
def deinitUsernatTun (s : Router) (ctx : Option TunPtr) : Router := deinitTun s ctx

/-- `IpSecTunnel.terminateConnection`. -/
def IpSecTunnel.terminateConnection (s : Router) (tun : VpnTunnel) : Option (Router × VpnTunnel) :=
  if tun.isTerminated then some (s, tun)
  else
    match tun.vpnTunnelCtx with
    | none => some (s, tun.close true)
    | some t => (removeTunnel s t).map fun s => (deinitIpSecTun s (some t), tun.close true)

/-- `OpenVpnTunnel.terminateConnection`. -/
def OpenVpnTunnel.terminateConnection (s : Router) (tun : VpnTunnel) : Router × VpnTunnel :=
  if tun.isTerminated then (s, tun)
  else (deinitOpenVpnTun s tun.vpnTunnelCtx, tun.close true)

/-- `L2tpTunnel.terminateConnection`. It keeps a flag of its own, which it does
not test here, and leaves the status alone. -/
def L2tpTunnel.terminateConnection (s : Router) (tun : VpnTunnel) : Router × VpnTunnel :=
  (deinitL2tpTun s tun.vpnTunnelCtx, tun.close tun.isTerminated)

/-- `UsernatTunnel.terminateConnection`. -/
def UsernatTunnel.terminateConnection (s : Router) (tun : VpnTunnel) : Router × VpnTunnel :=
  if tun.isTerminated then (s, tun)
  else (deinitUsernatTun s tun.vpnTunnelCtx, tun.close true)

/-- `terminateConnection` of the tunnel's class; `none` if it does not return. -/
def VpnTunnel.terminateConnection (s : Router) (tun : VpnTunnel) : Option (Router × VpnTunnel) :=
  match tun.kind with
  | .ipSec => IpSecTunnel.terminateConnection s tun
  | .openVpn => some (OpenVpnTunnel.terminateConnection s tun)
  | .l2tp => some (L2tpTunnel.terminateConnection s tun)
  | .usernat => some (UsernatTunnel.terminateConnection s tun)

/-- `RouterLoop.route4`. -/
def RouterLoop.route4 (s : Router) (tun : VpnTunnel) (ip4 : BitVec 32) (mask : Nat) : Router :=
  match tun.vpnTunnelCtx with
  | none => s -- checkTunnel
  | some t => addRoute4 s ip4 mask t

/-- `RouterLoop.defaultRoute4`. -/
def RouterLoop.defaultRoute4 (s : Router) (tun : VpnTunnel) : Router :=
  match tun.vpnTunnelCtx with
  | none => s -- checkTunnel
  | some t => ConfProfile.defaultRoute4 s t

/-! ## The system -/

/-- The router, the tunnels, and the contexts whose owner's reference a
termination has dropped. -/
structure VpnSys where
  router : Router
  tunnels : Nat → VpnTunnel
  dropped : List TunPtr

/-- What the VPN service does to its tunnels, and what the router loop does to
the router before its first rebuild and whenever routes have changed. -/
inductive VpnAct where
  | route4 (i : Nat) (ip4 : BitVec 32) (mask : Nat)
  | defaultRoute4 (i : Nat)
  | terminateConnection (i : Nat)
  | setTunDevTunFd (fd : Int)
  | rebuildEpollStruct
  deriving DecidableEq, Repr

/-- The tunnel that a call routes packets to. -/
def VpnAct.routed : VpnAct → Option Nat
  | .route4 i _ _ => some i
  | .defaultRoute4 i => some i
  | _ => none

/-- The contexts that lost their owner between the two states of a tunnel. -/
def lostCtx (tun tun' : VpnTunnel) : List TunPtr :=
  if tun'.vpnTunnelCtx = none then tun.vpnTunnelCtx.toList else []

/-- One call; `none` if it does not return. -/
def vpnStep (x : VpnSys) : VpnAct → Option VpnSys
  | .route4 i ip4 mask =>
    some { x with router := RouterLoop.route4 x.router (x.tunnels i) ip4 mask }
  | .defaultRoute4 i => some { x with router := RouterLoop.defaultRoute4 x.router (x.tunnels i) }
  | .terminateConnection i =>
    ((x.tunnels i).terminateConnection x.router).map fun p =>
      { router := p.1
        tunnels := Function.update x.tunnels i p.2
        dropped := lostCtx (x.tunnels i) p.2 ++ x.dropped }
  | .setTunDevTunFd fd => some { x with router := setTunDevTunFd x.router fd }
  | .rebuildEpollStruct => (rebuildEpollStruct x.router).map fun s => { x with router := s }

/-- The contexts that the dev tunnel and the established tunnels got: different
addresses, and none for a tunnel that is not established. -/
structure Contexts where
  dev : TunPtr
  kind : Nat → TunnelKind
  ctx : Nat → Option TunPtr
  ctx_inj : ∀ i j t, ctx i = some t → ctx j = some t → i = j
  ctx_ne_dev : ∀ i, ctx i ≠ some dev

/-- A new router and the tunnels, none of them terminated. -/
def vpnInit (mem : RouterCtx) (c : Contexts) (refs : Refs TunPtr) (localFd : TunPtr → Int) :
    VpnSys where
  router := routerInit mem c.dev refs localFd
  tunnels i := ⟨c.kind i, false, c.ctx i, fun h => nomatch h⟩
  dropped := []

/-- The router has neither a route nor a default nor an epoll slot of a dropped
context, and no packet goes to one. -/
def Unheld (x : VpnSys) : Prop :=
  ∀ t ∈ x.dropped, t ∉ held x.router.toRouterCtx ∧
    ∀ p sent, send4 x.router p = some sent → sent.tunCtx ≠ t

/-- The condition on the state before a termination: an IPsec tunnel stands in
no slot behind the recorded ones, or the rebuild after its removal allocates;
any other tunnel is not held. -/
def TeardownMet (x : VpnSys) : VpnAct → Prop
  | .terminateConnection i => ∀ t, (x.tunnels i).vpnTunnelCtx = some t →
      match (x.tunnels i).kind with
      | .ipSec =>
        t ∉ linkTuns (x.router.epollLinks.drop x.router.epollLinksCount) ∨
          ((x.router.ip4Routes.map Route4Link.tunCtx).count t : Int) ≤ x.router.ip4RoutesCount + 2
      | _ => t ∉ held x.router.toRouterCtx
  | _ => True

/-! ## What the router holds -/

/-- A packet goes to a tunnel of the table. -/
theorem tunCtx_mem_routeTuns {s : Router} {p : Ip4Packet} {sent : Sent}
    (h : send4 s p = some sent) : sent.tunCtx ∈ s.routeTuns := by
  rw [send4_eq] at h
  obtain ⟨t, ht, rfl⟩ := Option.map_eq_some_iff.mp h
  show t ∈ s.routeTuns
  unfold RouterCtx.routeTuns
  rcases Option.or_eq_some_iff.mp ht with hr | ⟨-, hd⟩
  · unfold routed4 at hr
    rw [send4Loop_eq] at hr
    obtain ⟨r, hfind, hr⟩ := Option.bind_eq_some_iff.mp hr
    have hmem := List.mem_of_find?_eq_some hfind
    split at hr
    · obtain rfl : r.tunCtx = t := Option.some.inj hr
      exact List.mem_append_left _ (List.mem_map.mpr ⟨r, hmem, rfl⟩)
    · cases hr
  · simp [hd]

/-- Without entries in the table there is nothing to send through. -/
theorem unheld_iff {x : VpnSys} :
    Unheld x ↔ ∀ t ∈ x.dropped, t ∉ held x.router.toRouterCtx := by
  refine forall_congr' fun t => forall_congr' fun _ => ⟨And.left, fun h => ⟨h, ?_⟩⟩
  intro p sent hsent he
  subst he
  exact h (List.mem_append_left _ (tunCtx_mem_routeTuns hsent))

theorem mem_held_addRoute4 {s : Router} {ip4 : BitVec 32} {mask : Nat} {u t : TunPtr}
    (h : t ∈ held (addRoute4 s ip4 mask u).toRouterCtx) : t = u ∨ t ∈ held s.toRouterCtx := by
  have hu : (route4Link ip4 mask u).tunCtx = u := rfl
  have h' : t ∈ held (route4 (s.refGet u) ip4 mask u).toRouterCtx := h
  have hget : held (s.refGet u).toRouterCtx = held s.toRouterCtx := rfl
  rw [← hget]
  unfold held RouterCtx.routeTuns at h' ⊢
  rcases route4_cases (s.refGet u) ip4 mask u with
    ⟨-, he⟩ | ⟨pre, r, post, hl, -, -, he⟩ | ⟨pre, r, post, hl, -, -, he⟩
  · rw [he] at h'
    simp only [List.map_append, List.map_cons, List.map_nil, List.mem_append, List.mem_cons,
      List.not_mem_nil, or_false, hu] at h' ⊢
    tauto
  · rw [he] at h'
    rw [hl]
    simp only [List.map_append, List.map_cons, List.mem_append, List.mem_cons, hu] at h' ⊢
    tauto
  · rw [he] at h'
    rw [hl]
    simp only [List.map_append, List.map_cons, List.mem_append, List.mem_cons, hu] at h' ⊢
    tauto

theorem mem_held_defaultRoute4 {s : Router} {u t : TunPtr}
    (h : t ∈ held (defaultRoute4 s u).toRouterCtx) : t = u ∨ t ∈ held s.toRouterCtx := by
  have h' : t ∈ held { s.toRouterCtx with ip4DefaultTunCtx := some u, routesUpdated := true } := h
  unfold held RouterCtx.routeTuns at h' ⊢
  simp only [List.mem_append, Option.toList_some, List.mem_singleton] at h' ⊢
  tauto

/-- The tunnels to poll are dev and tunnels of the table. -/
theorem mem_routeTuns_of_polled {s : RouterCtx} {t : TunPtr} (h : t ∈ polled s)
    (hdev : t ≠ s.devTunCtx) : t ∈ s.routeTuns := by
  unfold RouterCtx.routeTuns
  rcases mem_polled.mp h with h | h | h
  · exact absurd h hdev
  · simp [h]
  · exact List.mem_append_left _ h

/-- After a rebuild a tunnel is held if the table holds it, or if the rebuild has
left the slots alone and the tunnel stands in one. -/
theorem mem_held_rebuild {s s' : Router} (h : rebuildEpollStruct s = some s') {t : TunPtr}
    (hdev : t ≠ s.devTunCtx) :
    t ∈ held s'.toRouterCtx ↔
      t ∈ s.routeTuns ∨ (ctxsSlots s < 0 ∧ t ∈ linkTuns s.epollLinks) := by
  rw [← List.count_pos_iff, count_held_rebuild h, Nat.add_pos_iff_pos_or_pos, List.count_pos_iff]
  split
  next hslots => rw [List.count_pos_iff, and_iff_right hslots]
  next hslots =>
    have hfd : Described s.localFd s.ip4Routes :=
      ((rebuildEpollStruct_isSome s).mp (Option.isSome_of_eq_some h)).resolve_left hslots
    rw [List.count_pos_iff]
    refine ⟨?_, ?_⟩
    · intro hcase
      rcases hcase with ht | ht
      · exact Or.inl ht
      · exact Or.inl (mem_routeTuns_of_polled (collect_subset_polled hfd ht) hdev)
    · intro hcase
      rcases hcase with ht | ⟨hneg, -⟩
      · exact Or.inl ht
      · exact absurd hneg hslots

/-- `removeTunnel` adds nothing to what the router holds. -/
theorem mem_held_removeTunnel {s s' : Router} {u t : TunPtr} (h : removeTunnel s u = some s')
    (hdev : t ≠ s.devTunCtx) (ht : t ∈ held s'.toRouterCtx) : t ∈ held s.toRouterCtx := by
  obtain ⟨s₁, h₁, rfl⟩ := Option.map_eq_some_iff.mp h
  have hrest : ∀ {v}, v ∈ linkTuns (unroute (s.refGet u) u).epollLinks →
      v ∈ linkTuns s.epollLinks := by
    intro v hv
    rw [linkTuns_unroute, List.mem_append] at hv
    rw [← List.take_append_drop s.epollLinksCount s.epollLinks, linkTuns_append, List.mem_append]
    exact hv.imp_left fun hv => (List.mem_filter.mp hv).1
  rcases (mem_held_rebuild h₁ hdev).mp ht with hr | ⟨-, hl⟩
  · rw [routeTuns_unroute] at hr
    exact List.mem_append_left _ (List.mem_filter.mp hr).1
  · exact List.mem_append_right _ (hrest hl)

/-- The tunnel itself is still held exactly if it stands in a slot behind the
recorded ones and the rebuild is refused. -/
theorem mem_held_removeTunnel_self {s s' : Router} {t : TunPtr} (h : removeTunnel s t = some s')
    (hdev : t ≠ s.devTunCtx) :
    t ∈ held s'.toRouterCtx ↔
      t ∈ linkTuns (s.epollLinks.drop s.epollLinksCount) ∧
        s.ip4RoutesCount + 2 < ((s.ip4Routes.map Route4Link.tunCtx).count t : Int) := by
  obtain ⟨s₁, h₁, rfl⟩ := Option.map_eq_some_iff.mp h
  have hslots : ctxsSlots (unroute (s.refGet t) t)
      = s.ip4RoutesCount - (s.ip4Routes.map Route4Link.tunCtx).count t + 2 := by
    rw [unroute_eq]
    rfl
  show t ∈ held s₁.toRouterCtx ↔ _
  rw [mem_held_rebuild h₁ hdev, routeTuns_unroute, linkTuns_unroute, hslots, List.mem_append,
    List.mem_filter, List.mem_filter]
  have hdrop : linkTuns ((s.refGet t).epollLinks.drop (s.refGet t).epollLinksCount)
      = linkTuns (s.epollLinks.drop s.epollLinksCount) := rfl
  rw [hdrop]
  simp only [ne_eq, not_true_eq_false, decide_false, Bool.false_eq_true, and_false, false_or]
  rw [and_comm]
  refine and_congr_right fun _ => ?_
  omega

/-! ## One step -/

/-- Everything a termination can do to the router: nothing without a context, and
otherwise drop it, an IPsec tunnel's after `removeTunnel`, any other's at once. -/
inductive Teardown (s : Router) (tun : VpnTunnel) : Router → Prop where
  | idle (hctx : tun.vpnTunnelCtx = none) : Teardown s tun s
  | removed {t : TunPtr} {s₁ : Router} (hkind : tun.kind = .ipSec)
      (hctx : tun.vpnTunnelCtx = some t) (h : removeTunnel s t = some s₁) :
      Teardown s tun (s₁.refPut t)
  | left {t : TunPtr} (hkind : tun.kind ≠ .ipSec) (hctx : tun.vpnTunnelCtx = some t) :
      Teardown s tun (s.refPut t)

theorem teardown_deinitTun (s : Router) {tun : VpnTunnel} (hkind : tun.kind ≠ .ipSec) :
    Teardown s tun (deinitTun s tun.vpnTunnelCtx) := by
  cases hctx : tun.vpnTunnelCtx with
  | none => exact .idle hctx
  | some t => exact .left hkind hctx

/-- After a termination the tunnel has no context, and is of its kind. -/
theorem terminateConnection_cases {s s' : Router} {tun tun' : VpnTunnel}
    (h : tun.terminateConnection s = some (s', tun')) :
    tun'.kind = tun.kind ∧ tun'.vpnTunnelCtx = none ∧ Teardown s tun s' := by
  have hguard : tun.isTerminated = true → (s, tun) = (s', tun') →
      tun'.kind = tun.kind ∧ tun'.vpnTunnelCtx = none ∧ Teardown s tun s' := by
    intro ht he
    obtain ⟨rfl, rfl⟩ := Prod.mk.inj he
    exact ⟨rfl, tun.closed ht, .idle (tun.closed ht)⟩
  have hdeinit : ∀ b, tun.kind ≠ .ipSec →
      (deinitTun s tun.vpnTunnelCtx, tun.close b) = (s', tun') →
      tun'.kind = tun.kind ∧ tun'.vpnTunnelCtx = none ∧ Teardown s tun s' := by
    intro b hkind he
    obtain ⟨rfl, rfl⟩ := Prod.mk.inj he
    exact ⟨rfl, rfl, teardown_deinitTun s hkind⟩
  unfold VpnTunnel.terminateConnection at h
  split at h
  next hkind =>
    unfold IpSecTunnel.terminateConnection at h
    split at h
    next ht => exact hguard ht (Option.some.inj h)
    next =>
      split at h
      next hctx =>
        obtain ⟨rfl, rfl⟩ := Prod.mk.inj (Option.some.inj h)
        exact ⟨rfl, rfl, .idle hctx⟩
      next t hctx =>
        obtain ⟨s₁, hs₁, he⟩ := Option.map_eq_some_iff.mp h
        obtain ⟨rfl, rfl⟩ := Prod.mk.inj he
        exact ⟨rfl, rfl, .removed hkind hctx hs₁⟩
  next hkind =>
    unfold OpenVpnTunnel.terminateConnection at h
    split at h
    next ht => exact hguard ht (Option.some.inj h)
    next => exact hdeinit true (by simp [hkind]) (Option.some.inj h)
  next hkind => exact hdeinit tun.isTerminated (by simp [hkind]) (Option.some.inj h)
  next hkind =>
    unfold UsernatTunnel.terminateConnection at h
    split at h
    next ht => exact hguard ht (Option.some.inj h)
    next => exact hdeinit true (by simp [hkind]) (Option.some.inj h)

/-- Everything a call can do to the system: a termination closes one tunnel and
drops its context, any other call changes the router only. -/
theorem vpnStep_cases {x x' : VpnSys} {a : VpnAct} (h : vpnStep x a = some x') :
    (∃ i tun s, a = .terminateConnection i ∧ Teardown x.router (x.tunnels i) s ∧
      tun.kind = (x.tunnels i).kind ∧ tun.vpnTunnelCtx = none ∧
      x' = ⟨s, Function.update x.tunnels i tun, (x.tunnels i).vpnTunnelCtx.toList ++ x.dropped⟩) ∨
    ((∀ i, a ≠ .terminateConnection i) ∧ ∃ s, x' = { x with router := s } ∧
      s.devTunCtx = x.router.devTunCtx ∧
      ∀ t ∈ held s.toRouterCtx, t ∈ held x.router.toRouterCtx ∨ t = x.router.devTunCtx ∨
        ∃ i, a.routed = some i ∧ (x.tunnels i).vpnTunnelCtx = some t) := by
  cases a with
  | route4 i ip4 mask =>
    obtain rfl := Option.some.inj h
    refine Or.inr ⟨fun _ => by simp, _, rfl, ?_⟩
    unfold RouterLoop.route4
    cases hctx : (x.tunnels i).vpnTunnelCtx with
    | none => exact ⟨rfl, fun t ht => Or.inl ht⟩
    | some u =>
      obtain ⟨count, refs, he⟩ := route4_frame (x.router.refGet u) ip4 mask u
      refine ⟨?_, fun t ht => ?_⟩
      · show (route4 (x.router.refGet u) ip4 mask u).devTunCtx = _
        rw [he]
        rfl
      · rcases mem_held_addRoute4 ht with rfl | ht
        · exact Or.inr (Or.inr ⟨i, rfl, hctx⟩)
        · exact Or.inl ht
  | defaultRoute4 i =>
    obtain rfl := Option.some.inj h
    refine Or.inr ⟨fun _ => by simp, _, rfl, ?_⟩
    unfold RouterLoop.defaultRoute4
    cases hctx : (x.tunnels i).vpnTunnelCtx with
    | none => exact ⟨rfl, fun t ht => Or.inl ht⟩
    | some u =>
      refine ⟨rfl, fun t ht => ?_⟩
      rcases mem_held_defaultRoute4 ht with rfl | ht
      · exact Or.inr (Or.inr ⟨i, rfl, hctx⟩)
      · exact Or.inl ht
  | terminateConnection i =>
    obtain ⟨⟨s, tun⟩, hp, rfl⟩ := Option.map_eq_some_iff.mp h
    obtain ⟨hkind, hnone, hdown⟩ := terminateConnection_cases hp
    refine Or.inl ⟨i, tun, s, rfl, hdown, hkind, hnone, ?_⟩
    unfold lostCtx
    rw [if_pos hnone]
  | setTunDevTunFd fd =>
    obtain rfl := Option.some.inj h
    exact Or.inr ⟨fun _ => by simp, _, rfl, rfl, fun t ht => Or.inl ht⟩
  | rebuildEpollStruct =>
    obtain ⟨s, hs, rfl⟩ := Option.map_eq_some_iff.mp h
    refine Or.inr ⟨fun _ => by simp, s, rfl, ?_, fun t ht => ?_⟩
    · obtain ⟨links, capacity, count, refs, fds, rfl⟩ := rebuildEpollStruct_frame hs
      rfl
    · by_cases hdev : t = x.router.devTunCtx
      · exact Or.inr (Or.inl hdev)
      · refine Or.inl ?_
        rcases (mem_held_rebuild hs hdev).mp ht with hr | ⟨-, hl⟩
        · exact List.mem_append_left _ hr
        · exact List.mem_append_right _ hl

theorem removeTunnel_devTunCtx {s s' : Router} {t : TunPtr} (h : removeTunnel s t = some s') :
    s'.devTunCtx = s.devTunCtx := by
  obtain ⟨s₁, h₁, rfl⟩ := Option.map_eq_some_iff.mp h
  obtain ⟨links, capacity, count, refs, fds, rfl⟩ := rebuildEpollStruct_frame h₁
  show (unroute (s.refGet t) t).devTunCtx = _
  rw [unroute_eq]
  rfl

theorem Teardown.devTunCtx {s s' : Router} {tun : VpnTunnel} (h : Teardown s tun s') :
    s'.devTunCtx = s.devTunCtx := by
  cases h with
  | idle hctx => rfl
  | @removed t s₁ hkind hctx h =>
    show s₁.devTunCtx = s.devTunCtx
    exact removeTunnel_devTunCtx h
  | left hkind hctx => rfl

/-- A termination adds nothing to what the router holds. -/
theorem Teardown.mem_held {s s' : Router} {tun : VpnTunnel} (h : Teardown s tun s') {t : TunPtr}
    (hdev : t ≠ s.devTunCtx) (ht : t ∈ held s'.toRouterCtx) : t ∈ held s.toRouterCtx := by
  cases h with
  | idle hctx => exact ht
  | removed hkind hctx h => exact mem_held_removeTunnel h hdev ht
  | left hkind hctx => exact ht

/-- Different tunnels have different contexts, and none has that of dev or a
dropped one. -/
structure VpnInv (x : VpnSys) : Prop where
  inj : ∀ i j t, (x.tunnels i).vpnTunnelCtx = some t → (x.tunnels j).vpnTunnelCtx = some t → i = j
  ne_dev : ∀ i, (x.tunnels i).vpnTunnelCtx ≠ some x.router.devTunCtx
  gone : ∀ t ∈ x.dropped, t ≠ x.router.devTunCtx ∧ ∀ i, (x.tunnels i).vpnTunnelCtx ≠ some t

theorem vpnInv_init (mem : RouterCtx) (c : Contexts) (refs : Refs TunPtr)
    (localFd : TunPtr → Int) : VpnInv (vpnInit mem c refs localFd) :=
  ⟨c.ctx_inj, c.ctx_ne_dev, fun _ ht => absurd ht List.not_mem_nil⟩

theorem unheld_init (mem : RouterCtx) (c : Contexts) (refs : Refs TunPtr)
    (localFd : TunPtr → Int) : Unheld (vpnInit mem c refs localFd) :=
  fun _ ht => absurd ht List.not_mem_nil

/-- A tunnel that has a context after another one was closed had it before. -/
theorem ctx_of_update {tunnels : Nat → VpnTunnel} {i : Nat} {tun : VpnTunnel}
    (hnone : tun.vpnTunnelCtx = none) {j : Nat} {t : TunPtr}
    (h : (Function.update tunnels i tun j).vpnTunnelCtx = some t) :
    j ≠ i ∧ (tunnels j).vpnTunnelCtx = some t := by
  by_cases hij : j = i
  · rw [hij, Function.update_self, hnone] at h
    cases h
  · rw [Function.update_of_ne hij] at h
    exact ⟨hij, h⟩

theorem vpnInv_step {x x' : VpnSys} {a : VpnAct} (hx : VpnInv x) (h : vpnStep x a = some x') :
    VpnInv x' := by
  rcases vpnStep_cases h with ⟨i, tun, s, -, hdown, -, hnone, rfl⟩ | ⟨-, s, rfl, hdev, -⟩
  · have hother := @ctx_of_update x.tunnels i tun hnone
    refine ⟨fun j k t hj hk => hx.inj j k t (hother hj).2 (hother hk).2,
      fun j hj => hx.ne_dev j (hdown.devTunCtx ▸ (hother hj).2), fun t ht => ?_⟩
    show t ≠ s.devTunCtx ∧ _
    rw [hdown.devTunCtx]
    rcases List.mem_append.mp ht with ht | ht
    · have hctx : (x.tunnels i).vpnTunnelCtx = some t := Option.mem_toList.mp ht
      refine ⟨fun he => hx.ne_dev i (he ▸ hctx), fun j hj => ?_⟩
      obtain ⟨hij, hj⟩ := hother hj
      exact hij (hx.inj j i t hj hctx)
    · exact ⟨(hx.gone t ht).1, fun j hj => (hx.gone t ht).2 j (hother hj).2⟩
  · refine ⟨hx.inj, fun j => ?_, fun t ht => ?_⟩
    · show _ ≠ some s.devTunCtx
      rw [hdev]
      exact hx.ne_dev j
    · show t ≠ s.devTunCtx ∧ _
      rw [hdev]
      exact hx.gone t ht

/-- What one termination leaves of the dropped context. -/
theorem Teardown.clears_iff {s s' : Router} {tun : VpnTunnel} (h : Teardown s tun s') {t : TunPtr}
    (hctx : tun.vpnTunnelCtx = some t) (hdev : t ≠ s.devTunCtx) :
    t ∉ held s'.toRouterCtx ↔
      match tun.kind with
      | .ipSec =>
        t ∉ linkTuns (s.epollLinks.drop s.epollLinksCount) ∨
          ((s.ip4Routes.map Route4Link.tunCtx).count t : Int) ≤ s.ip4RoutesCount + 2
      | _ => t ∉ held s.toRouterCtx := by
  cases h with
  | idle hnone =>
    rw [hnone] at hctx
    cases hctx
  | @removed u s₁ hkind hu h =>
    obtain rfl : u = t := Option.some.inj (hu.symm.trans hctx)
    simp only [hkind]
    show u ∉ held s₁.toRouterCtx ↔ _
    rw [mem_held_removeTunnel_self h hdev, not_and_or, not_lt]
  | left hkind hu =>
    cases hk : tun.kind with
    | ipSec => exact absurd hk hkind
    | _ => exact Iff.rfl

/-- From a clean state a call leads to a clean one exactly if it meets the
condition. -/
theorem unheld_step_iff {x x' : VpnSys} {a : VpnAct} (hx : VpnInv x) (hclean : Unheld x)
    (h : vpnStep x a = some x') : Unheld x' ↔ TeardownMet x a := by
  rw [unheld_iff] at hclean ⊢
  rcases vpnStep_cases h with ⟨i, tun, s, rfl, hdown, -, -, rfl⟩ | ⟨hne, s, rfl, -, hheld⟩
  · have hdrop : ∀ t, (x.tunnels i).vpnTunnelCtx = some t → t ≠ x.router.devTunCtx :=
      fun t hctx he => hx.ne_dev i (he ▸ hctx)
    refine ⟨?_, ?_⟩
    · intro hclean' t hctx
      exact (hdown.clears_iff hctx (hdrop t hctx)).mp
        (hclean' t (List.mem_append_left _ (Option.mem_toList.mpr hctx)))
    · intro hmet t ht
      rcases List.mem_append.mp ht with ht | ht
      · have hctx := Option.mem_toList.mp ht
        exact (hdown.clears_iff hctx (hdrop t hctx)).mpr (hmet t hctx)
      · exact fun hmem => hclean t ht (hdown.mem_held (hx.gone t ht).1 hmem)
  · have htrue : TeardownMet x a := by
      cases a with
      | terminateConnection i => exact absurd rfl (hne i)
      | _ => trivial
    refine iff_of_true (fun t ht hmem => ?_) htrue
    -- only a tunnel that still has its context gets new entries
    rcases hheld t hmem with hmem | hdev | ⟨i, -, hctx⟩
    · exact hclean t ht hmem
    · exact (hx.gone t ht).1 hdev
    · exact (hx.gone t ht).2 i hctx

/-! ## Runs -/

/-- In every state of a run the router has nothing left of a dropped context, and
sends nothing through it, exactly if every termination of the run is made in a
state that meets the condition. -/
theorem teardown_along_iff (mem : RouterCtx) (c : Contexts) (refs : Refs TunPtr)
    (localFd : TunPtr → Int) (acts : List VpnAct) :
    Along vpnStep (fun _ _ x' => Unheld x') (vpnInit mem c refs localFd) acts ↔
      Along vpnStep (fun x a _ => TeardownMet x a) (vpnInit mem c refs localFd) acts :=
  along_iff_cond (I := VpnInv) (P := Unheld) (q := fun _ _ x' => Unheld x')
    (c := fun x a _ => TeardownMet x a) (fun _ _ _ => vpnInv_step) (fun _ _ _ => id)
    (fun _ _ _ hx hclean h => unheld_step_iff hx hclean h) acts (vpnInv_init mem c refs localFd)
    (unheld_init mem c refs localFd)

/-- The call routes no tunnel but an IPsec one, and if it is a termination, the
rebuild after the removal of the tunnel allocates. -/
def IpSecOnly (x : VpnSys) (a : VpnAct) : Prop :=
  (∀ i, a.routed = some i → (x.tunnels i).kind = .ipSec) ∧
    ∀ i t, a = .terminateConnection i → (x.tunnels i).vpnTunnelCtx = some t →
      ((x.router.ip4Routes.map Route4Link.tunCtx).count t : Int) ≤ x.router.ip4RoutesCount + 2

/-- The router holds no tunnel of the other kinds. -/
def HoldsIpSec (x : VpnSys) : Prop :=
  ∀ i t, (x.tunnels i).vpnTunnelCtx = some t → (x.tunnels i).kind ≠ .ipSec →
    t ∉ held x.router.toRouterCtx

theorem holdsIpSec_step {x x' : VpnSys} {a : VpnAct} (hx : VpnInv x) (hs : HoldsIpSec x)
    (ha : IpSecOnly x a) (h : vpnStep x a = some x') : HoldsIpSec x' := by
  rcases vpnStep_cases h with ⟨i, tun, s, -, hdown, -, hnone, rfl⟩ | ⟨-, s, rfl, -, hheld⟩
  · intro j t hctx hkind hmem
    obtain ⟨hij, hj⟩ := ctx_of_update hnone hctx
    have hkind' : (x.tunnels j).kind ≠ .ipSec := by
      rw [← Function.update_of_ne hij tun x.tunnels]
      exact hkind
    exact hs j t hj hkind' (hdown.mem_held (fun he => hx.ne_dev j (he ▸ hj)) hmem)
  · intro j t hctx hkind hmem
    rcases hheld t hmem with hmem | hdev | ⟨i, hi, hictx⟩
    · exact hs j t hctx hkind hmem
    · exact hx.ne_dev j (hdev ▸ hctx)
    · exact hkind (hx.inj i j t hictx hctx ▸ ha.1 i hi)

/-- As long as only IPsec tunnels are routed and their removals allocate, nothing
of a terminated tunnel remains. -/
theorem teardown_along_of_ipSec {mem : RouterCtx} (hmem : mem.strayTuns = []) (c : Contexts)
    (refs : Refs TunPtr) (localFd : TunPtr → Int) (acts : List VpnAct)
    (h : Along vpnStep (fun x a _ => IpSecOnly x a) (vpnInit mem c refs localFd) acts) :
    Along vpnStep (fun _ _ x' => Unheld x') (vpnInit mem c refs localFd) acts := by
  have hinit : HoldsIpSec (vpnInit mem c refs localFd) := by
    intro i t _ _ ht
    rw [show held (vpnInit mem c refs localFd).router.toRouterCtx = mem.strayTuns from
      held_routerInit mem c.dev refs localFd, hmem] at ht
    cases ht
  have hrun := along_of_cond (P := fun x => VpnInv x ∧ Unheld x ∧ HoldsIpSec x) (c := IpSecOnly)
    (fun x a x' ⟨hx, hclean, hs⟩ ha h => by
      refine ⟨vpnInv_step hx h, (unheld_step_iff hx hclean h).mpr ?_, holdsIpSec_step hx hs ha h⟩
      cases a with
      | terminateConnection i =>
        intro t hctx
        cases hkind : (x.tunnels i).kind with
        | ipSec => exact Or.inr (ha.2 i t rfl hctx)
        | _ => exact hs i t hctx (by simp [hkind])
      | _ => trivial) acts
    ⟨vpnInv_init mem c refs localFd, unheld_init mem c refs localFd, hinit⟩ h
  exact along_mono (fun _ _ _ hP => hP.2.1) acts hrun

/-- One user-NAT tunnel, with context 1. -/
def usernatContexts : Contexts where
  dev := 0
  kind _ := .usernat
  ctx i := if i = 0 then some 1 else none
  ctx_inj := by
    intro i j t hi hj
    simp only [Option.ite_none_right_eq_some] at hi hj
    exact hi.1.trans hj.1.symm
  ctx_ne_dev := by
    intro i hi
    simp at hi

/-- What the VPN service does at its start and at its end: the user-NAT tunnel is
the default, and is terminated. It still is the default and has a slot, and
every packet goes to it. -/
theorem teardown_counterexample :
    ∃ x, run vpnStep (vpnInit .zeroed usernatContexts ⟨fun _ => 1, fun _ => false⟩ fun t => 10 + t)
        [.defaultRoute4 0, .rebuildEpollStruct, .terminateConnection 0] = some x ∧
      x.dropped = [1] ∧ x.router.ip4DefaultTunCtx = some 1 ∧ 1 ∈ linkTuns x.router.epollLinks ∧
      (∀ p, (send4 x.router p).map Sent.tunCtx = some 1) ∧ ¬ Unheld x := by
  refine ⟨_, rfl, rfl, rfl, by decide, fun p => rfl, fun h => ?_⟩
  exact (h 1 (List.mem_singleton.mpr rfl)).1 (by decide)

end ConfProfile
