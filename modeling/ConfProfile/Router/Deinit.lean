import ConfProfile.Router.RefCount
import ConfProfile.Router.Table6

/-!
# The end of a router (`router_deinit`)

With the IPv6 calls among them, every call of a run still moves the counter of a tunnel by exactly
what it changes in the lists, except for the rebuilds that leak (`excess_run6`). `router_deinit`
frees the lists and puts one reference only, that of the dev tunnel, so what the routes, the
defaults and the slots hold, and what the rebuilds leaked, is never given back
(`routerDeinit_refCount`). The slots hold the dev tunnel from the first rebuild on: the dev tunnel
outlives every router whose loop has run (`routerDeinit_keeps_dev`).
-/

namespace ConfProfile

open ByteMem
open Run

/-- `router_deinit`, up to the `free` of the context itself. The IPv6 fields are not touched. -/
def routerDeinit (s : Router) : Router :=
  { s with
    refs := s.refs.refPut s.devTunCtx
    ip4Routes := []
    ip4RoutesCount := 0
    ip4DefaultTunCtx := none
    epollFds := ∅
    epollLinks := []
    routesUpdated := false
    paused := false
    terminate := false }

/-! ## One call -/

/-- The references of a tunnel that a call leaves behind. -/
def leak (s : Router) : Op6 → TunPtr → Nat
  | .other .rebuildEpollStruct, t => if Leaks s then (linkTuns s.epollLinks).count t else 0
  | _, _ => 0

section

variable {owner : TunPtr → Int}

/-- Everything `route6` can do, as for `route4`. -/
theorem route6_cases (s : Router) (mem ip6 : Mem) (mask : Nat) (t : TunPtr) :
    (route6 s mem ip6 mask t =
        { s with
          ip6Routes := s.ip6Routes ++ [route6Link mem ip6 mask t]
          refs := s.refs.refGet t, routesUpdated := true }) ∨
    (∃ pre r post, s.ip6Routes = pre ++ r :: post ∧
      route6 s mem ip6 mask t =
        { s with
          ip6Routes := pre ++ route6Link mem ip6 mask t :: r :: post
          ip6RoutesCount := s.ip6RoutesCount + 1
          refs := s.refs.refGet t, routesUpdated := true }) ∨
    (∃ pre r post, s.ip6Routes = pre ++ r :: post ∧
      route6 s mem ip6 mask t =
        { s with
          ip6Routes := pre ++ route6Link mem ip6 mask t :: post
          refs := (s.refs.refGet t).refPut r.tunCtx, routesUpdated := true }) := by
  unfold route6
  cases hl : s.ip6Routes with
  | nil => exact Or.inl rfl
  | cons curr next =>
    have hbefore := fun r => (@Route6Link.key_lt_key r (route6Link mem ip6 mask t)).symm
    rcases insertLoop_cases Route6Link.key Route6Link.tunCtx hbefore
        (fun _ => Route6Link.key_eq_key.symm) s.ip6RoutesCount (s.refs.refGet t) (curr :: next) []
        (List.cons_ne_nil curr next) with
      ⟨-, he⟩ | ⟨pre, r, post, hsplit, -, -, he⟩ | ⟨pre, r, post, hsplit, -, -, he⟩
    · refine Or.inl ?_
      dsimp only
      rw [route6Loop, he]
      rfl
    · refine Or.inr (Or.inl ⟨pre, r, post, hsplit, ?_⟩)
      dsimp only
      rw [route6Loop, he]
      rfl
    · refine Or.inr (Or.inr ⟨pre, r, post, hsplit, ?_⟩)
      dsimp only
      rw [route6Loop, he]
      rfl

theorem excess_route6 (s : Router) (mem ip6 : Mem) (mask : Nat) (u t : TunPtr) :
    excess owner (route6 s mem ip6 mask u) t = excess owner s t := by
  have hu : (route6Link mem ip6 mask u).tunCtx = u := rfl
  unfold excess holders held RouterCtx.routeTuns
  rcases route6_cases s mem ip6 mask u with he | ⟨pre, r, post, hl, he⟩ | ⟨pre, r, post, hl, he⟩
  · rw [he]
    simp only [Refs.refCount_refGet, List.map_append, List.map_cons, List.map_nil,
      List.count_append, hu]
    push_cast
    ring
  · rw [he, hl]
    simp only [Refs.refCount_refGet, List.map_append, List.map_cons, List.count_append,
      List.count_cons, List.count_nil, hu]
    push_cast
    ring
  · rw [he, hl]
    simp only [Refs.refCount_refGet, Refs.refCount_refPut, List.map_append, List.map_cons,
      List.count_append, List.count_cons, List.count_nil, hu]
    push_cast
    ring

theorem excess_unroute6 (s : Router) (ip6 : Mem) (mask : Nat) (t : TunPtr) :
    excess owner (unroute6 s ip6 mask) t = excess owner s t := by
  unfold excess holders held RouterCtx.routeTuns
  rcases unroute6_cases s ip6 mask with ⟨pre, r, post, hl, -, -, he⟩ | ⟨-, -, -, -, -, he⟩
  · rw [he, hl]
    simp only [Refs.refCount_refPut, List.map_append, List.map_cons, List.count_append,
      List.count_cons, List.count_nil]
    push_cast
    ring
  · rw [he]

theorem excess_default6 (s : Router) (u t : TunPtr) :
    excess owner (default6 s u) t = excess owner s t := by
  unfold excess holders held RouterCtx.routeTuns default6
  cases s.ip6DefaultTunCtx with
  | none =>
    simp only [Refs.refCount_refGet, List.count_append, Option.toList_some, Option.toList_none,
      List.count_nil]
    push_cast
    ring
  | some old =>
    simp only [Refs.refCount_refGet, Refs.refCount_refPut, List.count_append, Option.toList_some]
    push_cast
    ring

/-- The IPv6 calls leave the slots alone. -/
theorem shaped_step6 {s s' : Router} {op : Op6} (hs : Shaped s.toRouterCtx)
    (h : step6 s op = some s') : Shaped s'.toRouterCtx := by
  cases op with
  | route6 mem ip6 mask t =>
    obtain rfl : route6 s mem ip6 mask t = s' := Option.some.inj h
    obtain ⟨count, refs, he⟩ := route6_frame s mem ip6 mask t
    rw [he]
    exact ⟨hs.length, hs.band⟩
  | unroute6 ip6 mask =>
    obtain rfl : unroute6 s ip6 mask = s' := Option.some.inj h
    exact ⟨hs.length, hs.band⟩
  | default6 t =>
    obtain rfl : default6 s t = s' := Option.some.inj h
    exact ⟨hs.length, hs.band⟩
  | other op => exact shaped_step hs h

/-- A call moves what the counter has over the holders by what it leaves behind. -/
theorem excess_step6 {s s' : Router} {op : Op6} (hshape : Shaped s.toRouterCtx)
    (h : step6 s op = some s') (t : TunPtr) :
    excess owner s' t = excess owner s t + leak s op t := by
  have hnone : (0 : Nat) = leak s op t → excess owner s' t = excess owner s t →
      excess owner s' t = excess owner s t + leak s op t := by
    intro hzero he
    rw [← hzero, he, Nat.cast_zero, add_zero]
  cases op with
  | route6 mem ip6 mask u =>
    obtain rfl : route6 s mem ip6 mask u = s' := Option.some.inj h
    exact hnone rfl (excess_route6 s mem ip6 mask u t)
  | unroute6 ip6 mask =>
    obtain rfl : unroute6 s ip6 mask = s' := Option.some.inj h
    exact hnone rfl (excess_unroute6 s ip6 mask t)
  | default6 u =>
    obtain rfl : default6 s u = s' := Option.some.inj h
    exact hnone rfl (excess_default6 s u t)
  | other op =>
    have h' : step s op = some s' := h
    have hkeeps : op ≠ .rebuildEpollStruct → excess owner s' t = excess owner s t := fun hop =>
      (excess_step hshape h' t).resolve_right fun hx => hop hx.1
    cases op with
    | rebuildEpollStruct =>
      rcases @excess_rebuild owner s s' hshape h' t with ⟨hnot, he⟩ | ⟨hleak, he⟩
      · exact hnone (if_neg hnot).symm he
      · rw [he, leak, if_pos hleak]
    | _ => exact hnone rfl (hkeeps Op.noConfusion)

end

/-! ## Runs -/

/-- The references of a tunnel that the calls of a run leave behind. -/
def leaked : Router → List Op6 → TunPtr → Nat
  | _, [], _ => 0
  | s, op :: ops, t =>
    leak s op t + match step6 s op with
      | some s' => leaked s' ops t
      | none => 0

theorem leaked_cons {s s' : Router} {op : Op6} (h : step6 s op = some s') (ops : List Op6)
    (t : TunPtr) : leaked s (op :: ops) t = leak s op t + leaked s' ops t := by
  rw [leaked, h]

theorem excess_run6 {owner : TunPtr → Int} (t : TunPtr) {ops : List Op6} :
    ∀ {s s' : Router}, Shaped s.toRouterCtx → run step6 s ops = some s' →
      excess owner s' t = excess owner s t + leaked s ops t := by
  induction ops with
  | nil =>
    intro s s' _ h
    obtain rfl : s = s' := Option.some.inj h
    rw [leaked, Nat.cast_zero, add_zero]
  | cons op ops ih =>
    intro s s' hshape h
    obtain ⟨s₁, hstep, hrest⟩ := run_cons_some h
    rw [ih (shaped_step6 hshape hstep) hrest, excess_step6 hshape hstep, leaked_cons hstep]
    push_cast
    ring

/-- No call replaces the dev tunnel. -/
theorem devTunCtx_step6 {s s' : Router} {op : Op6} (h : step6 s op = some s') :
    s'.devTunCtx = s.devTunCtx := by
  cases op with
  | route6 mem ip6 mask t =>
    obtain rfl : route6 s mem ip6 mask t = s' := Option.some.inj h
    obtain ⟨count, refs, he⟩ := route6_frame s mem ip6 mask t
    rw [he]
  | unroute6 ip6 mask =>
    obtain rfl : unroute6 s ip6 mask = s' := Option.some.inj h
    rfl
  | default6 t =>
    obtain rfl : default6 s t = s' := Option.some.inj h
    rfl
  | other op =>
    have h' : step s op = some s' := h
    cases op with
    | route4 ip4 mask t =>
      obtain ⟨count, refs, rfl⟩ := step_route4 h'
      rfl
    | unroute4 ip4 mask =>
      obtain ⟨l, count, refs, updated, -, rfl⟩ := step_unroute4 h'
      rfl
    | unroute t =>
      obtain rfl : s' = _ := (Option.some.inj h').symm.trans (unroute_eq s t)
      rfl
    | default4 t =>
      obtain rfl : default4 s t = s' := Option.some.inj h'
      rfl
    | setTunDevTunFd fd =>
      obtain rfl : setTunDevTunFd s fd = s' := Option.some.inj h'
      rfl
    | rebuildEpollStruct =>
      obtain ⟨links, capacity, count, refs, fds, rfl⟩ := rebuildEpollStruct_frame h'
      rfl

variable {mem : RouterCtx} {dev : TunPtr} {refs : Refs TunPtr} {localFd : TunPtr → Int}
  {ops : List Op6} {s : Router}

theorem devTunCtx_run6 {s₀ : Router} (h : run step6 s₀ ops = some s) :
    s.devTunCtx = s₀.devTunCtx :=
  inv_run (I := fun s => s.devTunCtx = s₀.devTunCtx)
    (fun _ _ _ hs hstep => (devTunCtx_step6 hstep).trans hs) ops rfl h

/-- The counter of a tunnel in every state of a run: its owner's references, the router's, and those
left behind. -/
theorem refCount_run6 (hmem : mem.ip6Routes = [] ∧ mem.ip6DefaultTunCtx = none)
    (h : run step6 (routerInit mem dev refs localFd) ops = some s) (t : TunPtr) :
    s.refs.refCount t = Function.update refs.refCount dev 1 t + (held s.toRouterCtx).count t
      + leaked (routerInit mem dev refs localFd) ops t := by
  have hrun := @excess_run6 (Function.update refs.refCount dev 1) t _ _ _
    (shaped_routerInit mem dev refs localFd) h
  have hstart := balanced_iff.mp ((balanced_routerInit_iff mem dev refs localFd).mpr hmem) t
  rw [hstart, excess, holders] at hrun
  omega

section RouterDeinit

variable (hmem : mem.ip6Routes = [] ∧ mem.ip6DefaultTunCtx = none)
  (h : run step6 (routerInit mem dev refs localFd) ops = some s)

include hmem h

/-- `router_deinit` gives up the reference of `router_init`. -/
theorem refCount_routerDeinit_dev :
    (routerDeinit s).refs.refCount dev = (held s.toRouterCtx).count dev
      + leaked (routerInit mem dev refs localFd) ops dev := by
  have hc := refCount_run6 hmem h dev
  have hdev : s.devTunCtx = dev := devTunCtx_run6 h
  rw [Function.update_self] at hc
  rw [routerDeinit, Refs.refCount_refPut, hdev, hc, List.count_singleton_self]
  omega

/-- `router_deinit` destroys no tunnel but the dev tunnel, and that where no reference is left. -/
theorem destroyed_routerDeinit_iff (t : TunPtr) :
    (routerDeinit s).refs.destroyed t = true ↔ s.refs.destroyed t = true ∨
      (t = dev ∧ dev ∉ held s.toRouterCtx ∧
        leaked (routerInit mem dev refs localFd) ops dev = 0) := by
  have hc := refCount_run6 hmem h dev
  have hdev : s.devTunCtx = dev := devTunCtx_run6 h
  rw [Function.update_self] at hc
  rw [routerDeinit, Refs.destroyed_refPut, hdev, ← List.count_eq_zero, hc]
  refine or_congr_right (and_congr_right fun _ => ?_)
  omega

end RouterDeinit

/-- After a run and `router_deinit`, the counter of every tunnel still has the references of the
routes, the defaults and the slots in it, and those that rebuilds left behind; only the reference
that `router_init` took of the dev tunnel is put, and the dev tunnel is destroyed exactly if nothing
else holds it. -/
theorem routerDeinit_refCount (hmem : mem.ip6Routes = [] ∧ mem.ip6DefaultTunCtx = none)
    (h : run step6 (routerInit mem dev refs localFd) ops = some s) :
    (∀ t, t ≠ dev → (routerDeinit s).refs.refCount t = refs.refCount t
      + (held s.toRouterCtx).count t + leaked (routerInit mem dev refs localFd) ops t) ∧
    (routerDeinit s).refs.refCount dev = (held s.toRouterCtx).count dev
      + leaked (routerInit mem dev refs localFd) ops dev ∧
    (∀ t, (routerDeinit s).refs.destroyed t = true ↔ s.refs.destroyed t = true ∨
      (t = dev ∧ dev ∉ held s.toRouterCtx ∧
        leaked (routerInit mem dev refs localFd) ops dev = 0)) := by
  have hcount := refCount_run6 hmem h
  have hdev : s.devTunCtx = dev := devTunCtx_run6 h
  refine ⟨?_, refCount_routerDeinit_dev hmem h, destroyed_routerDeinit_iff hmem h⟩
  intro t ht
  have hother : [dev].count t = 0 := List.count_eq_zero.mpr (by simpa using ht)
  have hc := hcount t
  rw [Function.update_of_ne ht] at hc
  rw [routerDeinit, Refs.refCount_refPut, hdev, hother, hc]
  omega

/-- A route to tunnel 1, with which the router goes down. -/
theorem routerDeinit_refCount_witness :
    (routerDeinit (route6 freshRouter (fun _ => 0x00) (fun _ => 0x20) 8 1)).refs.refCount 1 = 1 := by
  have hrun : run step6 freshRouter [.route6 (fun _ => 0x00) (fun _ => 0x20) 8 1]
      = some (route6 freshRouter (fun _ => 0x00) (fun _ => 0x20) 8 1) := rfl
  have hcount := (@routerDeinit_refCount .zeroed _ _ _ _ _ ⟨rfl, rfl⟩ hrun).1 1 (by decide)
  rw [hcount]
  rfl

/-! ## The dev tunnel -/

/-- A rebuild that gets its memory puts the dev tunnel into a slot. -/
theorem dev_mem_rebuild {s s' : Router} (hslots : 0 ≤ ctxsSlots s)
    (h : rebuildEpollStruct s = some s') : s.devTunCtx ∈ linkTuns s'.epollLinks := by
  have hfirst : s.devTunCtx ∈ (collect s).1 := by
    refine (prefix_collectRoutes s.localFd s.ip4Routes (collectFirst s)).subset ?_
    unfold collectFirst
    split
    · split <;> simp
    · simp
  rcases rebuildEpollStruct_cases h with
    ⟨hneg, -⟩ | ⟨-, -, ctxs, rfl, fds, -, ⟨-, rfl⟩ | ⟨-, -, rfl⟩⟩
  · exact absurd hneg hslots.not_gt
  · rwa [linkTuns_filledLinks]
  · rwa [linkTuns_filledLinks]

/-- It stays in one until it is unrouted itself. -/
theorem dev_mem_step6 {s s' : Router} {op : Op6} (h : step6 s op = some s')
    (hop : op ≠ .other (.unroute s.devTunCtx)) (hs : s.devTunCtx ∈ linkTuns s.epollLinks) :
    s'.devTunCtx ∈ linkTuns s'.epollLinks := by
  cases op with
  | route6 mem ip6 mask t =>
    obtain rfl : route6 s mem ip6 mask t = s' := Option.some.inj h
    obtain ⟨count, refs, he⟩ := route6_frame s mem ip6 mask t
    rw [he]
    exact hs
  | unroute6 ip6 mask =>
    obtain rfl : unroute6 s ip6 mask = s' := Option.some.inj h
    exact hs
  | default6 t =>
    obtain rfl : default6 s t = s' := Option.some.inj h
    exact hs
  | other op =>
    have h' : step s op = some s' := h
    cases op with
    | route4 ip4 mask t =>
      obtain ⟨count, refs, rfl⟩ := step_route4 h'
      exact hs
    | unroute4 ip4 mask =>
      obtain ⟨l, count, refs, updated, -, rfl⟩ := step_unroute4 h'
      exact hs
    | unroute t =>
      obtain rfl : unroute s t = s' := Option.some.inj h'
      have hne : s.devTunCtx ≠ t := fun he => hop (by rw [he])
      have hdev : (unroute s t).devTunCtx = s.devTunCtx := devTunCtx_step6 h
      rw [hdev, linkTuns_unroute, List.mem_append, List.mem_filter]
      -- the slots are those that are scanned and those behind
      rw [← List.take_append_drop s.epollLinksCount s.epollLinks, linkTuns_append,
        List.mem_append] at hs
      exact hs.imp (fun hfront => ⟨hfront, by simpa using hne⟩) id
    | default4 t =>
      obtain rfl : default4 s t = s' := Option.some.inj h'
      exact hs
    | setTunDevTunFd fd =>
      obtain rfl : setTunDevTunFd s fd = s' := Option.some.inj h'
      exact hs
    | rebuildEpollStruct =>
      by_cases hslots : 0 ≤ ctxsSlots s
      · rw [devTunCtx_step6 h]
        exact dev_mem_rebuild hslots h'
      · rcases rebuildEpollStruct_cases h' with ⟨-, rfl⟩ | ⟨hnonneg, -⟩
        · exact hs
        · exact absurd hnonneg hslots

/-- Once a rebuild has filled the slots, `router_deinit` leaves at least one reference to the dev
tunnel behind and does not destroy it, whatever the other calls of the run are, short of an
`unroute` of the dev tunnel itself. -/
theorem routerDeinit_keeps_dev (hmem : mem.ip6Routes = [] ∧ mem.ip6DefaultTunCtx = none)
    {ops' : List Op6} {s₁ s₂ : Router}
    (h₁ : run step6 (routerInit mem dev refs localFd) ops = some s₁)
    (hslots : 0 ≤ ctxsSlots s₁) (hrebuild : rebuildEpollStruct s₁ = some s₂)
    (hops : ∀ op ∈ ops', op ≠ .other (.unroute dev)) (h₂ : run step6 s₂ ops' = some s) :
    1 ≤ (routerDeinit s).refs.refCount dev ∧
      (routerDeinit s).refs.destroyed dev = s.refs.destroyed dev := by
  have hstep : step6 s₁ (.other .rebuildEpollStruct) = some s₂ := hrebuild
  have hdev₂ : s₂.devTunCtx = dev := (devTunCtx_step6 hstep).trans (devTunCtx_run6 h₁)
  have hrun : run step6 (routerInit mem dev refs localFd)
      (ops ++ .other .rebuildEpollStruct :: ops') = some s := by
    refine run_append h₁ ?_
    simp [run, hstep, h₂]
  have hslot : dev ∈ linkTuns s.epollLinks := by
    have hinv := inv_run_of (I := fun s => s.devTunCtx = dev ∧ dev ∈ linkTuns s.epollLinks)
      (g := fun op => op ≠ .other (.unroute dev)) ?_ ops' hops ⟨hdev₂, ?_⟩ h₂
    · exact hinv.2
    · intro s op s' hop hs hstep
      obtain ⟨hdev, hmem⟩ := hs
      have hdev' := (devTunCtx_step6 hstep).trans hdev
      have hin := dev_mem_step6 hstep (hdev.symm ▸ hop) (hdev.symm ▸ hmem)
      exact ⟨hdev', hdev' ▸ hin⟩
    · have hin := dev_mem_rebuild hslots hrebuild
      rwa [devTunCtx_run6 h₁] at hin
  have hheld : dev ∈ held s.toRouterCtx := List.mem_append_right _ hslot
  constructor
  · rw [refCount_routerDeinit_dev hmem hrun]
    have hpos := List.count_pos_iff.mpr hheld
    omega
  · rw [Bool.eq_iff_iff, destroyed_routerDeinit_iff hmem hrun]
    exact or_iff_left fun hx => hx.2.1 hheld

/-- One rebuild and nothing else. -/
theorem routerDeinit_keeps_dev_witness :
    ∃ s, rebuildEpollStruct freshRouter = some s ∧ 1 ≤ (routerDeinit s).refs.refCount 0 :=
  ⟨_, rfl, (@routerDeinit_keeps_dev .zeroed _ _ _ [] _ ⟨rfl, rfl⟩ [] _ _ rfl (by decide) rfl
    (fun _ hop => by cases hop) rfl).1⟩

end ConfProfile
