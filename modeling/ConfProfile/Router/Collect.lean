import ConfProfile.Lib.Loop
import ConfProfile.Router.Ops

/-!
# Whether a rebuild ends

The route-collecting loop of `rebuild_epoll_struct`, turn by turn: `curr` with what is
linked behind it, and the slots of `ctxs` that are written. A turn that comes to a tunnel
without a descriptor does `continue` in front of `curr = curr->next`, and the next one
finds the same state. So the loop ends exactly if no routed tunnel is without one
(`collectLoop_endsIn_iff`), and then with what `collectRoutes` says (`collectRoutes_eq_iff`).

`UsernatTunnel` never gives its context a descriptor, and `addRoute4` takes any context;
`rebuild_along_iff` says which runs keep every rebuild from hanging.
-/

namespace ConfProfile

open Run

/-- Where the loop is. -/
structure CollectLoop where
  /-- the links from `curr` on, none where it is NULL -/
  curr : List Route4Link
  ctxs : List TunPtr

/-- A turn of the loop. The test of `curr->tun_ctx` for NULL is left out: a link has one. -/
def CollectLoop.turn (localFd : TunPtr → Int) (c : CollectLoop) : CollectLoop :=
  match c.curr with
  | [] => c
  | curr :: next =>
    -- `continue`
    if localFd curr.tunCtx = UNDEFINED_FD then c
    else if curr.tunCtx ∈ c.ctxs then { c with curr := next }
    else ⟨next, c.ctxs ++ [curr.tunCtx]⟩

/-- `curr == NULL`. -/
def CollectLoop.AtEnd (c : CollectLoop) : Prop := c.curr = []

/-- A turn goes on by one link. -/
def CollectLoop.Advances (localFd : TunPtr → Int) (c : CollectLoop) : Prop :=
  (c.turn localFd).curr = c.curr.tail

/-- In front of the loop. -/
def collectStart (s : Router) : CollectLoop := ⟨s.ip4Routes, collectFirst s⟩

section Loop

variable {localFd : TunPtr → Int} {c c' : CollectLoop} {routes : List Route4Link}
  {ctxs ctxs' : List TunPtr}

theorem CollectLoop.turn_stuck {curr : Route4Link} {next : List Route4Link}
    (h : localFd curr.tunCtx = UNDEFINED_FD) :
    CollectLoop.turn localFd ⟨curr :: next, ctxs⟩ = ⟨curr :: next, ctxs⟩ := if_pos h

/-- Behind a tunnel with a descriptor the loop goes on with the rest. -/
theorem CollectLoop.turn_described {curr : Route4Link} (next : List Route4Link)
    (ctxs : List TunPtr) (h : localFd curr.tunCtx ≠ UNDEFINED_FD) : ∃ ctxs₁,
      CollectLoop.turn localFd ⟨curr :: next, ctxs⟩ = ⟨next, ctxs₁⟩ ∧
        collectRoutes localFd (curr :: next) ctxs = collectRoutes localFd next ctxs₁ := by
  unfold CollectLoop.turn
  rw [collectRoutes]
  dsimp only
  rw [if_neg h, if_neg h]
  split
  · exact ⟨ctxs, rfl, rfl⟩
  · exact ⟨ctxs ++ [curr.tunCtx], rfl, rfl⟩

/-- At a tunnel without a descriptor the loop stays for ever. -/
theorem not_endsIn_of_stuck {curr : Route4Link} {next : List Route4Link}
    (h : localFd curr.tunCtx = UNDEFINED_FD) :
    ¬ Loop.EndsIn (CollectLoop.turn localFd) CollectLoop.AtEnd ⟨curr :: next, ctxs⟩ c' := by
  refine Loop.not_endsIn (I := fun c => c = ⟨curr :: next, ctxs⟩) ?_ rfl
  rintro c rfl
  exact ⟨List.cons_ne_nil _ _, CollectLoop.turn_stuck h⟩

/-- The loop ends exactly with what `collectRoutes` calls its end. -/
theorem collectRoutes_eq_iff (localFd : TunPtr → Int) (routes : List Route4Link) :
    ∀ ctxs ctxs', collectRoutes localFd routes ctxs = (ctxs', true) ↔
      Loop.EndsIn (CollectLoop.turn localFd) CollectLoop.AtEnd ⟨routes, ctxs⟩ ⟨[], ctxs'⟩ := by
  induction routes with
  | nil =>
    intro ctxs ctxs'
    have hstop : Loop.EndsIn (CollectLoop.turn localFd) CollectLoop.AtEnd ⟨[], ctxs⟩ ⟨[], ctxs⟩ :=
      .stop rfl
    refine ⟨fun h => ?_, fun h => ?_⟩
    · obtain rfl : ctxs = ctxs' := (Prod.mk.inj h).1
      exact hstop
    · obtain rfl : ctxs = ctxs' := (CollectLoop.mk.inj (hstop.unique h)).2
      rfl
  | cons curr next ih =>
    intro ctxs ctxs'
    by_cases hfd : localFd curr.tunCtx = UNDEFINED_FD
    · refine iff_of_false ?_ (not_endsIn_of_stuck hfd)
      rw [collectRoutes, if_pos hfd]
      exact fun h => Bool.false_ne_true (Prod.mk.inj h).2
    · obtain ⟨ctxs₁, hturn, hroutes⟩ := CollectLoop.turn_described next ctxs hfd
      rw [hroutes, ih, ← hturn]
      refine ⟨fun h => .turn (List.cons_ne_nil _ _) h, fun h => ?_⟩
      cases h with
      | turn _ hrest => exact hrest

/-- The loop ends exactly if every tunnel of the list has a descriptor. -/
theorem collectLoop_endsIn_iff :
    (∃ c, Loop.EndsIn (CollectLoop.turn localFd) CollectLoop.AtEnd ⟨routes, ctxs⟩ c) ↔
      Described localFd routes := by
  rw [Described, ← collectRoutes_done localFd routes ctxs]
  constructor
  · rintro ⟨⟨curr, ctxs'⟩, hend⟩
    obtain rfl : curr = [] := hend.done_of
    rw [(collectRoutes_eq_iff localFd routes ctxs ctxs').mpr hend]
  · intro h
    exact ⟨_, (collectRoutes_eq_iff localFd routes ctxs _).mp (Prod.ext rfl h)⟩

/-- Every turn of the loop advances exactly under the same condition. -/
theorem collectLoop_advances_iff :
    (∀ c, Loop.Visits (CollectLoop.turn localFd) CollectLoop.AtEnd ⟨routes, ctxs⟩ c →
        ¬ c.AtEnd → c.Advances localFd) ↔ Described localFd routes := by
  constructor
  · intro h
    induction routes generalizing ctxs with
    | nil => exact fun r hr => absurd hr List.not_mem_nil
    | cons curr next ih =>
      have hmore : ¬ CollectLoop.AtEnd ⟨curr :: next, ctxs⟩ := List.cons_ne_nil _ _
      have hfd : localFd curr.tunCtx ≠ UNDEFINED_FD := by
        intro hfd
        have hadvances := h _ .start hmore
        rw [CollectLoop.Advances, CollectLoop.turn_stuck hfd] at hadvances
        exact List.cons_ne_self curr next hadvances
      obtain ⟨ctxs₁, hturn, -⟩ := CollectLoop.turn_described next ctxs hfd
      refine List.forall_mem_cons.mpr ⟨hfd, @ih ctxs₁ fun c hc => h c ?_⟩
      exact .of_turn hmore (hturn ▸ hc)
  · intro h c hc hmore
    have hsub : Described localFd c.curr := by
      refine hc.inv (I := fun c => Described localFd c.curr) ?_ h
      rintro ⟨_ | ⟨curr, next⟩, ctxs⟩ hmore hdescribed
      · exact absurd rfl hmore
      · obtain ⟨ctxs₁, hturn, -⟩ := CollectLoop.turn_described next ctxs
          (hdescribed curr List.mem_cons_self)
        rw [hturn]
        exact fun r hr => hdescribed r (List.mem_cons_of_mem _ hr)
    obtain ⟨_ | ⟨curr, next⟩, ctxs'⟩ := c
    · exact absurd rfl hmore
    · obtain ⟨ctxs₁, hturn, -⟩ := CollectLoop.turn_described next ctxs'
        (hsub curr List.mem_cons_self)
      rw [CollectLoop.Advances, hturn]
      rfl

end Loop

/-! ## Rebuilds along a run -/

/-- The rebuild ends: `malloc` refuses the array, or the loop advances in every turn and
comes to the end of the list. -/
def RebuildEnds (s : Router) : Prop :=
  ctxsSlots s < 0 ∨
    (∃ c, Loop.EndsIn (CollectLoop.turn s.localFd) CollectLoop.AtEnd (collectStart s) c) ∧
      ∀ c, Loop.Visits (CollectLoop.turn s.localFd) CollectLoop.AtEnd (collectStart s) c →
        ¬ c.AtEnd → c.Advances s.localFd

theorem rebuildEnds_iff (s : Router) :
    RebuildEnds s ↔ ctxsSlots s < 0 ∨ Described s.localFd s.ip4Routes := by
  unfold RebuildEnds collectStart
  rw [collectLoop_endsIn_iff, collectLoop_advances_iff, and_self]

/-- The rebuild that ends is the one that returns. -/
theorem rebuildEnds_iff_isSome (s : Router) :
    RebuildEnds s ↔ (rebuildEpollStruct s).isSome := by
  rw [rebuildEnds_iff, rebuildEpollStruct_isSome]
  rfl

/-- A call routes a tunnel that has no descriptor, or takes the descriptor from a routed one. -/
def Undescribes (s : Router) : Op → Prop
  | .route4 _ _ t => s.localFd t = UNDEFINED_FD
  | .setTunDevTunFd fd => fd = UNDEFINED_FD ∧ ∃ r ∈ s.ip4Routes, r.tunCtx = s.devTunCtx
  | .unroute4 .. | .unroute _ | .default4 _ | .rebuildEpollStruct => False

/-- Fewer routes are described as well. -/
theorem Described.sublist {localFd : TunPtr → Int} {l l' : List Route4Link}
    (h : Described localFd l) (hsub : l'.Sublist l) : Described localFd l' :=
  fun r hr => h r (hsub.subset hr)

/-- A route that is added is described if its tunnel is. -/
theorem described_route4_iff {s : Router} (ip4 : BitVec 32) (mask : Nat) (t : TunPtr)
    (hs : Described s.localFd s.ip4Routes) :
    Described s.localFd (route4 s ip4 mask t).ip4Routes ↔ s.localFd t ≠ UNDEFINED_FD := by
  have hadd {pre post : List Route4Link} (hpre : Described s.localFd pre)
      (hpost : Described s.localFd post) :
      Described s.localFd (pre ++ route4Link ip4 mask t :: post) ↔
        s.localFd t ≠ UNDEFINED_FD := by
    unfold Described
    rw [List.forall_mem_append, List.forall_mem_cons]
    exact ⟨fun h => h.2.1, fun h => ⟨hpre, h, hpost⟩⟩
  rcases route4_cases s ip4 mask t with
    ⟨-, he⟩ | ⟨pre, r, post, hl, -, -, he⟩ | ⟨pre, r, post, hl, -, -, he⟩
  · rw [he]
    exact hadd hs fun r hr => absurd hr List.not_mem_nil
  · rw [he]
    rw [hl] at hs
    exact hadd (hs.sublist (List.sublist_append_left _ _))
      (hs.sublist (List.sublist_append_right _ _))
  · rw [he]
    rw [hl] at hs
    exact hadd (hs.sublist (List.sublist_append_left _ _))
      (hs.sublist ((List.sublist_cons_self r post).trans (List.sublist_append_right _ _)))

/-- What a call makes of the descriptors of the routed tunnels. -/
theorem described_step_iff {s s' : Router} {op : Op} (hs : Described s.localFd s.ip4Routes)
    (h : step s op = some s') :
    Described s'.localFd s'.ip4Routes ↔ ¬ Undescribes s op := by
  cases op with
  | route4 ip4 mask t =>
    obtain ⟨count, refs, he⟩ := route4_frame s ip4 mask t
    obtain rfl : route4 s ip4 mask t = s' := Option.some.inj h
    rw [show (route4 s ip4 mask t).localFd = s.localFd by rw [he]]
    exact described_route4_iff ip4 mask t hs
  | unroute4 ip4 mask =>
    obtain ⟨l, count, refs, updated, hsub, rfl⟩ := step_unroute4 h
    exact iff_of_true (hs.sublist hsub) id
  | unroute t =>
    obtain rfl : s' = _ := (Option.some.inj h).symm.trans (unroute_eq s t)
    exact iff_of_true (hs.sublist List.filter_sublist) id
  | default4 t =>
    obtain rfl : default4 s t = s' := Option.some.inj h
    exact iff_of_true hs id
  | setTunDevTunFd fd =>
    obtain rfl : setTunDevTunFd s fd = s' := Option.some.inj h
    show (∀ r ∈ s.ip4Routes,
      Function.update s.localFd s.devTunCtx fd r.tunCtx ≠ UNDEFINED_FD) ↔ _
    constructor
    · rintro hnew ⟨hfd, r, hr, hdev⟩
      exact hnew r hr (by rw [hdev, Function.update_self, hfd])
    · intro hkeep r hr
      by_cases hdev : r.tunCtx = s.devTunCtx
      · rw [hdev, Function.update_self]
        exact fun hfd => hkeep ⟨hfd, r, hr, hdev⟩
      · rw [Function.update_of_ne hdev]
        exact hs r hr
  | rebuildEpollStruct =>
    obtain ⟨links, capacity, count, refs, fds, rfl⟩ := rebuildEpollStruct_frame h
    exact iff_of_true hs id

theorem described_routerInit (mem : RouterCtx) (dev : TunPtr) (refs : Refs TunPtr)
    (localFd : TunPtr → Int) : Described (routerInit mem dev refs localFd).localFd
      (routerInit mem dev refs localFd).ip4Routes :=
  fun _ hr => absurd hr List.not_mem_nil

/-- **Which rebuilds end**: in every state of a run the rebuild ends exactly if `malloc`
refuses its array or every routed tunnel has a descriptor; it does end in all of them where no
call routes a tunnel without a descriptor. -/
theorem rebuild_along_iff (mem : RouterCtx) (dev : TunPtr) (refs : Refs TunPtr)
    (localFd : TunPtr → Int) (ops : List Op) :
    (RebuildEnds (routerInit mem dev refs localFd) ∧
        Along step (fun _ _ s' => RebuildEnds s') (routerInit mem dev refs localFd) ops ↔
      Along step (fun _ _ s' => s'.ip4RoutesCount < -2 ∨ Described s'.localFd s'.ip4Routes)
        (routerInit mem dev refs localFd) ops) ∧
    (Along step (fun s op _ => ¬ Undescribes s op) (routerInit mem dev refs localFd) ops →
      Along step (fun _ _ s' => RebuildEnds s') (routerInit mem dev refs localFd) ops) := by
  have hinit := described_routerInit mem dev refs localFd
  constructor
  · rw [and_iff_right ((rebuildEnds_iff _).mpr (Or.inr hinit))]
    refine along_congr (I := fun _ => True) (g := fun _ _ => True) (fun _ _ _ _ _ _ => trivial)
      (fun s op s' _ _ _ => ?_) ops trivial (guarded_true _ ops)
    rw [rebuildEnds_iff]
    refine or_congr_left ?_
    unfold ctxsSlots
    omega
  · intro h
    have hdescribed := along_of_cond (P := fun s => Described s.localFd s.ip4Routes)
      (fun s op s' hs hkeep hstep => (described_step_iff hs hstep).mpr hkeep) ops hinit h
    exact along_mono (fun _ _ s' hs' => (rebuildEnds_iff s').mpr (Or.inr hs')) ops hdescribed

/-- A routed user-NAT tunnel, which has no descriptor: the rebuild does not end. -/
theorem rebuild_counterexample :
    ∃ s, run step (routerInit .zeroed 0 ⟨fun _ => 0, fun _ => false⟩ fun _ => UNDEFINED_FD)
      [.setTunDevTunFd 7, .route4 0x0a000000#32 8 1] = some s ∧ ¬ RebuildEnds s := by
  refine ⟨_, rfl, ?_⟩
  rw [rebuildEnds_iff]
  decide

end ConfProfile
