import ConfProfile.Router.LoopThread

/-!
# The start of the router loop (`notifyVpnServiceStarted`, `activateVpnTunnel`)

The service thread starts the thread of the router loop and goes on at once: it
makes the user-NAT tunnel the default and, when a tunnel is activated, resumes
the loop if it is paused. Both go through `mRouterCtx`, which the other thread
sets in its first step, and a native method called with 0 does nothing.

`startUp_iff`: the settings are there at the end exactly if the service thread
comes second in both places.
-/

namespace ConfProfile

open Run

/-- Where the service thread is. -/
inductive ServicePc where
  /-- in front of `startLoop` -/
  | new
  /-- in front of `establishConnection` of the user-NAT tunnel -/
  | started
  /-- in front of `defaultRoute4` -/
  | established
  /-- in the rest of `notifyVpnServiceStarted`, which only reads -/
  | routed
  | notified
  /-- in `activateVpnTunnel`, in front of `isPaused` -/
  | activating
  /-- in front of `pause(false)` -/
  | resuming
  | activated
  deriving DecidableEq, Repr

/-- The two threads. -/
structure StartUp where
  thread : LoopThread
  service : ServicePc

inductive StartAct where
  /-- a step of `run` -/
  | thread (a : ThreadAct)
  /-- the next step of the service thread -/
  | service
  /-- `activateVpnTunnel` is called, and has made a tunnel -/
  | activate
  deriving DecidableEq, Repr

/-- The steps of `run` up to the native loop, and in it. -/
def ThreadAct.OfStart : ThreadAct → Bool
  | .initIpRouter | .pause | .build | .routerLoop _ | .loop _ => true
  | _ => false

/-- `RouterLoop.isPaused`. -/
def LoopThread.isPaused (s : LoopThread) : Bool := s.routerCtx && s.sys.router.paused

/-- The next step of the service thread, with `usernat` the context of its tunnel. -/
def serviceStep (usernat : TunPtr) (s : StartUp) : Option StartUp :=
  match s.service with
  | .new => some { s with service := .started }
  | .started => some { s with service := .established }
  | .established =>
    (s.thread.withCtx (.defaultRoute4 usernat)).map fun thread => { thread, service := .routed }
  | .routed => some { s with service := .notified }
  | .activating =>
    some { s with service := if s.thread.isPaused then .resuming else .activated }
  | .resuming =>
    (s.thread.withCtx (.pauseRouterLoop false)).map fun thread => { thread, service := .activated }
  | .notified | .activated => none

/-- One step of a thread. -/
def startStep (usernat : TunPtr) (s : StartUp) : StartAct → Option StartUp
  | .thread a =>
    if s.service ≠ .new ∧ a.OfStart then
      (threadStep s.thread a).map fun thread => { s with thread }
    else none
  | .service => serviceStep usernat s
  | .activate => if s.service = .notified then some { s with service := .activating } else none

def startInit (mem : RouterCtx) (dev : TunPtr) (owner : TunPtr → Nat) (localFd : TunPtr → Int) :
    StartUp :=
  ⟨threadInit mem dev owner localFd, .new⟩

/-- Both threads are through: `run` is in the native loop, `notifyVpnServiceStarted` has
returned, and so has `activateVpnTunnel` where it was called. -/
def StartUp.Finished (s : StartUp) : Prop :=
  s.thread.pc = .looping ∧ (s.service = .notified ∨ s.service = .activated)

/-- The user-NAT tunnel is the default, and with a tunnel activated the loop is not paused. -/
def StartUp.Configured (usernat : TunPtr) (s : StartUp) : Prop :=
  s.thread.sys.router.ip4DefaultTunCtx = some usernat ∧
    (s.service = .activated → s.thread.sys.router.paused = false)

/-- The service thread comes second: it sets the default when the context is there, and
asks for the pause when the loop has been paused. -/
structure InOrder (s : StartUp) (a : StartAct) : Prop where
  route : a = .service → s.service = .established → s.thread.pc ≠ .created
  resume : a = .service → s.service = .activating →
    s.thread.pc ≠ .created ∧ s.thread.pc ≠ .inited

instance (s : StartUp) (a : StartAct) : Decidable (InOrder s a) :=
  decidable_of_iff ((a = .service → s.service = .established → s.thread.pc ≠ .created) ∧
      (a = .service → s.service = .activating → s.thread.pc ≠ .created ∧ s.thread.pc ≠ .inited))
    ⟨fun h => ⟨h.1, h.2⟩, fun h => ⟨h.route, h.resume⟩⟩

/-! ## The steps of `run` -/

/-- In front of `pause(true)`. -/
def RouterRunPc.Early : RouterRunPc → Bool
  | .created | .inited => true
  | _ => false

/-- `mRouterCtx` is the context once it is made, and nobody releases it. -/
structure HandleKept (s : LoopThread) : Prop where
  ctx : s.routerCtx = true ↔ s.pc ≠ .created
  live : s.released = 0

section thread

variable {s s' : LoopThread} {x x' : LoopSys}

/-- The native loop leaves the pause and the default alone. -/
theorem sysStep_ofLoop_router {a : Act} (ha : a.OfLoop) (h : sysStep x a = some x') :
    x'.router.paused = x.router.paused ∧
      x'.router.ip4DefaultTunCtx = x.router.ip4DefaultTunCtx := by
  have hhup : ∀ ev evs, (handleHup x ev evs).router.paused = x.router.paused ∧
      (handleHup x ev evs).router.ip4DefaultTunCtx = x.router.ip4DefaultTunCtx := by
    intro ev evs
    unfold handleHup
    split_ifs <;> exact ⟨rfl, rfl⟩
  have hrebuild : ∀ {y}, lockedRebuild x = some y → y.router.paused = x.router.paused ∧
      y.router.ip4DefaultTunCtx = x.router.ip4DefaultTunCtx := by
    intro y hy
    unfold lockedRebuild at hy
    obtain ⟨s, hs, rfl⟩ := Option.map_eq_some_iff.mp hy
    obtain ⟨links, capacity, count, refs, fds, rfl⟩ := rebuildEpollStruct_frame hs
    exact ⟨rfl, rfl⟩
  rcases sysStep_ofLoop ha h with hs | ⟨-, rfl | ⟨evs, rfl⟩⟩ | ⟨t, ev, evs, -, rfl | rfl⟩
  · unfold loopSection at hs
    split at hs
    · obtain ⟨y, hy, rfl⟩ := Option.map_eq_some_iff.mp hs
      obtain ⟨hpaused, hdefault⟩ := hrebuild hy
      exact ⟨hpaused, hdefault⟩
    · obtain rfl := Option.some.inj hs
      split <;> exact ⟨rfl, rfl⟩
    · split at hs
      · obtain ⟨y, hy, rfl⟩ := Option.map_eq_some_iff.mp hs
        obtain ⟨hpaused, hdefault⟩ := hrebuild hy
        exact ⟨hpaused, hdefault⟩
      · obtain rfl := Option.some.inj hs
        exact ⟨rfl, rfl⟩
    · obtain rfl := Option.some.inj hs
      split <;> exact ⟨rfl, rfl⟩
    · obtain rfl := Option.some.inj hs
      exact ⟨rfl, rfl⟩
    next ev evs _ =>
      split at hs
      · split at hs
        · obtain rfl := Option.some.inj hs
          exact ⟨rfl, rfl⟩
        · obtain rfl := Option.some.inj hs
          exact ⟨rfl, rfl⟩
      · obtain rfl := Option.some.inj hs
        exact hhup ev evs
    · cases hs
  · exact ⟨rfl, rfl⟩
  · exact ⟨rfl, rfl⟩
  · exact ⟨rfl, rfl⟩
  · exact hhup ev evs

/-- A native method called with the context. -/
theorem withCtx_live {a : Act} {t : LoopThread} (hs : HandleKept s) (hpc : s.pc ≠ .created)
    (h : s.withCtx a = some t) : ∃ sys, sysStep s.sys a = some sys ∧ t = { s with sys } := by
  rw [LoopThread.withCtx, if_pos ⟨hs.ctx.mpr hpc, hs.live⟩] at h
  obtain ⟨sys, hsys, rfl⟩ := Option.map_eq_some_iff.mp h
  exact ⟨sys, hsys, rfl⟩

/-- And one called with 0. -/
theorem withCtx_null {a : Act} {t : LoopThread} (hs : HandleKept s) (hpc : s.pc = .created)
    (h : s.withCtx a = some t) : t = s := by
  have hctx : ¬ (s.routerCtx = true ∧ s.released = 0) := fun hc => hs.ctx.mp hc.1 hpc
  rw [LoopThread.withCtx, if_neg hctx] at h
  exact (Option.some.inj h).symm

theorem sysStep_pause {b : Bool} (h : sysStep x (.pauseRouterLoop b) = some x') :
    x'.router.paused = b ∧ x'.router.ip4DefaultTunCtx = x.router.ip4DefaultTunCtx := by
  cases sysStep_cases h with
  | pauseRouterLoop => exact ⟨rfl, rfl⟩

theorem sysStep_default {t : TunPtr} (h : sysStep x (.defaultRoute4 t) = some x') :
    x'.router.ip4DefaultTunCtx = some t ∧ x'.router.paused = x.router.paused := by
  cases sysStep_cases h with
  | defaultRoute4 => exact ⟨rfl, rfl⟩

/-- `run` sets the pause once, in its second step, and never the default. -/
theorem threadStep_ofStart {a : ThreadAct} (hs : HandleKept s) (ha : a.OfStart)
    (h : threadStep s a = some s') :
    HandleKept s' ∧ s'.sys.router.ip4DefaultTunCtx = s.sys.router.ip4DefaultTunCtx ∧
    ((s.pc = .created ∧ s'.pc = .inited ∧ s'.sys.router.paused = s.sys.router.paused) ∨
      (s.pc = .inited ∧ s'.pc = .paused ∧ s'.sys.router.paused = true) ∨
      (s.pc.Early = false ∧ s'.pc.Early = false ∧
        s'.sys.router.paused = s.sys.router.paused)) := by
  have hkept : ∀ {pc sys}, s.pc ≠ .created → pc ≠ .created →
      HandleKept { s with sys, pc } := fun h₀ h₁ =>
    ⟨iff_of_true (hs.ctx.mpr h₀) h₁, hs.live⟩
  cases threadStep_cases h with
  | initIpRouter hpc =>
    exact ⟨⟨iff_of_true rfl (by simp), hs.live⟩, rfl, Or.inl ⟨hpc, rfl, rfl⟩⟩
  | pause hpc hsys =>
    have hne : s.pc ≠ .created := by simp [hpc]
    obtain ⟨sys, hstep, heq⟩ := withCtx_live hs hne hsys
    cases congrArg LoopThread.sys heq
    obtain ⟨hpaused, hdefault⟩ := sysStep_pause hstep
    exact ⟨hkept hne (by simp), hdefault, Or.inr (Or.inl ⟨hpc, rfl, hpaused⟩)⟩
  | build hpc =>
    have hne : s.pc ≠ .created := by simp [hpc]
    exact ⟨hkept hne (by simp), rfl, Or.inr (Or.inr ⟨by rw [hpc]; rfl, rfl, rfl⟩)⟩
  | routerLoopNull hpc hctx =>
    have hne : s.pc ≠ .created := by simp [hpc]
    exact absurd (hs.ctx.mpr hne) (by simp [hctx])
  | routerLoop hpc hctx hsys =>
    have hne : s.pc ≠ .created := by simp [hpc]
    have hrouter : ∀ {x x' : LoopSys} {fd}, sysStep x (.routerLoop fd) = some x' →
        x'.router.paused = x.router.paused ∧
          x'.router.ip4DefaultTunCtx = x.router.ip4DefaultTunCtx := by
      intro x x' fd hx
      cases sysStep_cases hx <;> exact ⟨rfl, rfl⟩
    obtain ⟨hpaused, hdefault⟩ := hrouter hsys
    exact ⟨hkept hne (by simp), hdefault, Or.inr (Or.inr ⟨by rw [hpc]; rfl, rfl, hpaused⟩)⟩
  | loop hpc hloop hsys =>
    obtain ⟨hpaused, hdefault⟩ := sysStep_ofLoop_router hloop hsys
    exact ⟨⟨hs.ctx, hs.live⟩, hdefault,
      Or.inr (Or.inr ⟨by rw [hpc]; rfl, by rw [hpc]; rfl, hpaused⟩)⟩
  | _ => cases ha

end thread

/-! ## The two threads -/

/-- `defaultRoute4` has been called. -/
def ServicePc.Routed : ServicePc → Bool
  | .new | .started | .established => false
  | .routed | .notified | .activating | .resuming | .activated => true

/-- The state while the service thread came second everywhere. -/
structure Ordered (usernat : TunPtr) (s : StartUp) : Prop where
  handle : HandleKept s.thread
  early : s.thread.pc.Early → s.thread.sys.router.paused = false
  unrouted : s.service.Routed = false → s.thread.sys.router.ip4DefaultTunCtx = none
  routed : s.service.Routed →
    s.thread.pc ≠ .created ∧ s.thread.sys.router.ip4DefaultTunCtx = some usernat
  resuming : s.service = .resuming ∨ s.service = .activated → s.thread.pc.Early = false
  activated : s.service = .activated → s.thread.sys.router.paused = false

/-- The state once it came first: the default is not set any more, or the loop is paused
or about to be. -/
structure Disordered (usernat : TunPtr) (s : StartUp) : Prop where
  handle : HandleKept s.thread
  lost : (s.service.Routed ∧ s.thread.sys.router.ip4DefaultTunCtx ≠ some usernat) ∨
    (s.service = .activated ∧ (s.thread.pc.Early ∨ s.thread.sys.router.paused = true))

section service

variable {usernat : TunPtr} {s s' : StartUp} {a : StartAct}

/-- A step of `run` keeps an ordered start ordered. -/
theorem ordered_thread {t : ThreadAct} (hs : Ordered usernat s)
    (h : startStep usernat s (.thread t) = some s') : Ordered usernat s' := by
  obtain ⟨⟨-, ht⟩, h⟩ := Option.ite_none_right_eq_some.mp h
  obtain ⟨thread, hstep, rfl⟩ := Option.map_eq_some_iff.mp h
  obtain ⟨hhandle, hdefault, hpc⟩ := threadStep_ofStart hs.handle ht hstep
  have hcreated : s.thread.pc ≠ .created → thread.pc ≠ .created := by
    intro hne
    rcases hpc with ⟨h₀, -⟩ | ⟨-, h₁, -⟩ | ⟨-, h₁, -⟩
    · exact absurd h₀ hne
    · rw [h₁]
      nofun
    · intro hc
      rw [hc] at h₁
      cases h₁
  refine ⟨hhandle, ?_, fun hr => hdefault.trans (hs.unrouted hr),
    fun hr => ⟨hcreated (hs.routed hr).1, hdefault.trans (hs.routed hr).2⟩, ?_, ?_⟩
  · intro hearly
    replace hearly : thread.pc.Early = true := hearly
    rcases hpc with ⟨h₀, -, hp⟩ | ⟨-, h₁, -⟩ | ⟨-, h₁, -⟩
    · exact hp.trans (hs.early (by rw [h₀]; rfl))
    · rw [h₁] at hearly
      cases hearly
    · cases h₁.symm.trans hearly
  · intro hr
    have hlate := hs.resuming hr
    rcases hpc with ⟨h₀, -⟩ | ⟨h₀, -⟩ | ⟨-, h₁, -⟩
    · rw [h₀] at hlate
      cases hlate
    · rw [h₀] at hlate
      cases hlate
    · exact h₁
  · intro hact
    have hlate := hs.resuming (Or.inr hact)
    rcases hpc with ⟨h₀, -⟩ | ⟨h₀, -⟩ | ⟨-, -, hp⟩
    · rw [h₀] at hlate
      cases hlate
    · rw [h₀] at hlate
      cases hlate
    · exact hp.trans (hs.activated hact)

/-- `isPaused` of a loop that `run` has not paused yet. -/
theorem isPaused_early (hs : Ordered usernat s) (hearly : s.thread.pc.Early) :
    s.thread.isPaused = false := by
  rw [LoopThread.isPaused, hs.early hearly, Bool.and_false]

/-- A step of the service thread in order keeps it so. -/
theorem ordered_service (hs : Ordered usernat s) (hin : InOrder s .service)
    (h : startStep usernat s .service = some s') : Ordered usernat s' := by
  have hkeep : ∀ {pc : ServicePc}, pc.Routed = s.service.Routed →
      (pc = .resuming ∨ pc = .activated → s.thread.pc.Early = false) →
      (pc = .activated → s.thread.sys.router.paused = false) →
      Ordered usernat { s with service := pc } := fun hpc hresuming hactivated =>
    ⟨hs.handle, hs.early, fun h => hs.unrouted (hpc ▸ h), fun h => hs.routed (hpc ▸ h),
      hresuming, hactivated⟩
  simp only [startStep, serviceStep] at h
  split at h
  next hpc =>
    cases h
    exact hkeep (by rw [hpc]; rfl) (fun h => h.elim nofun nofun) nofun
  next hpc =>
    cases h
    exact hkeep (by rw [hpc]; rfl) (fun h => h.elim nofun nofun) nofun
  next hpc =>
    obtain ⟨thread, hthread, rfl⟩ := Option.map_eq_some_iff.mp h
    have hne := hin.route rfl hpc
    obtain ⟨sys, hsys, rfl⟩ := withCtx_live hs.handle hne hthread
    obtain ⟨hdefault, hpaused⟩ := sysStep_default hsys
    exact ⟨⟨hs.handle.ctx, hs.handle.live⟩, fun he => hpaused.trans (hs.early he), nofun,
      fun _ => ⟨hne, hdefault⟩, fun h => h.elim nofun nofun, nofun⟩
  next hpc =>
    cases h
    exact hkeep (by rw [hpc]; rfl) (fun h => h.elim nofun nofun) nofun
  next hpc =>
    cases h
    obtain ⟨hcreated, hinited⟩ := hin.resume rfl hpc
    have hlate : s.thread.pc.Early = false := by
      cases hp : s.thread.pc with
      | created => exact absurd hp hcreated
      | inited => exact absurd hp hinited
      | _ => rfl
    cases hpaused : s.thread.isPaused with
    | true => exact hkeep (by rw [hpc]; rfl) (fun _ => hlate) nofun
    | false =>
      refine hkeep (by rw [hpc]; rfl) (fun _ => hlate) fun _ => ?_
      rw [LoopThread.isPaused, hs.handle.ctx.mpr hcreated, Bool.true_and] at hpaused
      exact hpaused
  next hpc =>
    obtain ⟨thread, hthread, rfl⟩ := Option.map_eq_some_iff.mp h
    obtain ⟨hne, hdefault⟩ := hs.routed (by rw [hpc]; rfl)
    obtain ⟨sys, hsys, rfl⟩ := withCtx_live hs.handle hne hthread
    obtain ⟨hpaused, hsame⟩ := sysStep_pause hsys
    exact ⟨⟨hs.handle.ctx, hs.handle.live⟩, fun _ => hpaused, nofun,
      fun _ => ⟨hne, hsame.trans hdefault⟩, fun _ => hs.resuming (Or.inl hpc), fun _ => hpaused⟩
  next => cases h
  next => cases h

theorem ordered_step (hs : Ordered usernat s) (hin : InOrder s a)
    (h : startStep usernat s a = some s') : Ordered usernat s' := by
  cases a with
  | thread t => exact ordered_thread hs h
  | service => exact ordered_service hs hin h
  | activate =>
    obtain ⟨hpc, h⟩ := Option.ite_none_right_eq_some.mp h
    cases h
    exact ⟨hs.handle, hs.early, nofun, fun _ => hs.routed (by rw [hpc]; rfl),
      fun h => h.elim nofun nofun, nofun⟩

/-- A step out of order: the default goes to NULL, or the loop is found not paused before
it is paused. -/
theorem disordered_of_early (hs : Ordered usernat s) (hout : ¬ InOrder s a)
    (h : startStep usernat s a = some s') : Disordered usernat s' := by
  have hcases : a = .service ∧ ((s.service = .established ∧ s.thread.pc = .created) ∨
      (s.service = .activating ∧ s.thread.pc.Early)) := by
    by_contra hno
    refine hout ⟨fun ha hpc hc => hno ⟨ha, Or.inl ⟨hpc, hc⟩⟩, fun ha hpc => ⟨?_, ?_⟩⟩ <;> intro hc
    · exact hno ⟨ha, Or.inr ⟨hpc, by rw [hc]; rfl⟩⟩
    · exact hno ⟨ha, Or.inr ⟨hpc, by rw [hc]; rfl⟩⟩
  obtain ⟨rfl, ⟨hpc, hcreated⟩ | ⟨hpc, hearly⟩⟩ := hcases
  · simp only [startStep, serviceStep, hpc] at h
    obtain ⟨thread, hthread, rfl⟩ := Option.map_eq_some_iff.mp h
    obtain rfl := withCtx_null hs.handle hcreated hthread
    refine ⟨hs.handle, Or.inl ⟨rfl, ?_⟩⟩
    have hnone := hs.unrouted (by rw [hpc]; rfl)
    show s.thread.sys.router.ip4DefaultTunCtx ≠ some usernat
    rw [hnone]
    nofun
  · simp only [startStep, serviceStep, hpc, isPaused_early hs hearly] at h
    cases h
    exact ⟨hs.handle, Or.inr ⟨rfl, Or.inl hearly⟩⟩

/-- Nothing makes up for it. -/
theorem disordered_step (hs : Disordered usernat s) (h : startStep usernat s a = some s') :
    Disordered usernat s' := by
  cases a with
  | thread t =>
    obtain ⟨⟨-, ht⟩, h⟩ := Option.ite_none_right_eq_some.mp h
    obtain ⟨thread, hstep, rfl⟩ := Option.map_eq_some_iff.mp h
    obtain ⟨hhandle, hdefault, hpc⟩ := threadStep_ofStart hs.handle ht hstep
    refine ⟨hhandle, hs.lost.imp ?_ ?_⟩
    · rintro ⟨hrouted, hne⟩
      exact ⟨hrouted, hdefault ▸ hne⟩
    · rintro ⟨hactivated, hlost⟩
      refine ⟨hactivated, ?_⟩
      rcases hpc with ⟨-, h₁, -⟩ | ⟨-, -, hp⟩ | ⟨h₀, -, hp⟩
      · exact Or.inl (by rw [h₁]; rfl)
      · exact Or.inr hp
      · refine hlost.imp (fun he => ?_) fun hpaused => hp.trans hpaused
        cases h₀.symm.trans he
  | service =>
    -- the default is not touched again, and behind `activated` there is no step
    have hrouted : s.service.Routed := by
      rcases hs.lost with ⟨hrouted, -⟩ | ⟨hactivated, -⟩
      · exact hrouted
      · rw [hactivated]
        rfl
    have hlost : s.service ≠ .activated →
        s.thread.sys.router.ip4DefaultTunCtx ≠ some usernat := by
      intro hne
      exact (hs.lost.resolve_right fun h => hne h.1).2
    simp only [startStep, serviceStep] at h
    split at h
    next hpc =>
      rw [hpc] at hrouted
      cases hrouted
    next hpc =>
      rw [hpc] at hrouted
      cases hrouted
    next hpc =>
      rw [hpc] at hrouted
      cases hrouted
    next hpc =>
      cases h
      exact ⟨hs.handle, Or.inl ⟨rfl, hlost (by rw [hpc]; nofun)⟩⟩
    next hpc =>
      cases h
      refine ⟨hs.handle, Or.inl ⟨?_, hlost (by rw [hpc]; nofun)⟩⟩
      cases s.thread.isPaused <;> rfl
    next hpc =>
      obtain ⟨thread, hthread, rfl⟩ := Option.map_eq_some_iff.mp h
      have hne := hlost (by rw [hpc]; nofun)
      by_cases hcreated : s.thread.pc = .created
      · obtain rfl := withCtx_null hs.handle hcreated hthread
        exact ⟨hs.handle, Or.inl ⟨rfl, hne⟩⟩
      · obtain ⟨sys, hsys, rfl⟩ := withCtx_live hs.handle hcreated hthread
        refine ⟨⟨hs.handle.ctx, hs.handle.live⟩, Or.inl ⟨rfl, ?_⟩⟩
        exact (sysStep_pause hsys).2 ▸ hne
    next => cases h
    next => cases h
  | activate =>
    obtain ⟨hpc, h⟩ := Option.ite_none_right_eq_some.mp h
    cases h
    refine ⟨hs.handle, Or.inl ⟨rfl, ?_⟩⟩
    rcases hs.lost with ⟨-, hne⟩ | ⟨hactivated, -⟩
    · exact hne
    · cases hpc.symm.trans hactivated

end service

/-- For every interleaving of the two threads: when both are through, the user-NAT tunnel
is the default and, with a tunnel activated, the loop is not paused, exactly if the
service thread came second in both places. -/
theorem startUp_iff (mem : RouterCtx) (dev : TunPtr) (owner : TunPtr → Nat)
    (localFd : TunPtr → Int) (usernat : TunPtr) (acts : List StartAct) {s : StartUp}
    (hrun : run (startStep usernat) (startInit mem dev owner localFd) acts = some s)
    (hfinished : s.Finished) :
    s.Configured usernat ↔
      Guarded (startStep usernat) InOrder (startInit mem dev owner localFd) acts := by
  have hinit : Ordered usernat (startInit mem dev owner localFd) :=
    ⟨⟨iff_of_false nofun fun h => h rfl, rfl⟩, fun _ => rfl, fun _ => rfl, nofun,
      fun h => h.elim nofun nofun, nofun⟩
  refine end_iff_guarded (fun _ _ _ => ordered_step) (fun _ _ _ => disordered_of_early)
    (fun _ _ _ => disordered_step) acts hinit hrun ?_ ?_
  · intro hordered
    have hrouted : s.service.Routed := by
      rcases hfinished.2 with h | h <;> rw [h] <;> rfl
    exact ⟨(hordered.routed hrouted).2, hordered.activated⟩
  · rintro hdisordered ⟨hdefault, hpaused⟩
    rcases hdisordered.lost with ⟨-, hne⟩ | ⟨hactivated, hlost⟩
    · exact hne hdefault
    · rw [hfinished.1] at hlost
      exact Bool.false_ne_true ((hpaused hactivated).symm.trans (hlost.resolve_left nofun))

/-- The start of a router with a context in zeroed memory. -/
def freshStart : StartUp := ⟨freshThread, .new⟩

/-- What the runs below are checked for. -/
def StartUp.view (s : StartUp) : RouterRunPc × ServicePc × Option TunPtr × Bool :=
  (s.thread.pc, s.service, s.thread.sys.router.ip4DefaultTunCtx, s.thread.sys.router.paused)

/-- `run` up to the native loop. -/
def threadRun : List StartAct := (startRun 5).map .thread

/-- The service thread behind `startLoop`, up to `isPaused`. -/
def serviceRun : List StartAct := [.service, .service, .service, .activate, .service]

/-- The thread of the loop is through before the service thread goes on. -/
theorem startUp_iff_patient :
    ∃ s, run (startStep 1) freshStart
        ([.service] ++ threadRun ++ serviceRun ++ [.service]) = some s ∧
      s.service = .activated ∧ s.Configured 1 := by
  have hrun : (run (startStep 1) freshStart
      ([.service] ++ threadRun ++ serviceRun ++ [.service])).map StartUp.view =
      some (.looping, .activated, some 1, false) := by decide +kernel
  obtain ⟨s, hs, hview⟩ := Option.map_eq_some_iff.mp hrun
  simp only [StartUp.view, Prod.mk.injEq] at hview
  obtain ⟨hpc, hservice, -, -⟩ := hview
  refine ⟨s, hs, hservice, ?_⟩
  exact (startUp_iff .zeroed 0 (fun _ => 0) (fun t => 10 + t) 1 _ hs
    ⟨hpc, Or.inr hservice⟩).mpr (by decide +kernel)

/-- The service thread is through before the thread of the loop takes its first step. -/
theorem hasty_not_configured :
    ∃ s, run (startStep 1) freshStart ([.service] ++ serviceRun ++ threadRun) = some s ∧
      s.Finished ∧ s.service = .activated ∧
      s.thread.sys.router.ip4DefaultTunCtx = none ∧ s.thread.sys.router.paused = true := by
  have hrun : (run (startStep 1) freshStart ([.service] ++ serviceRun ++ threadRun)).map
      StartUp.view = some (.looping, .activated, none, true) := by decide +kernel
  obtain ⟨s, hs, hview⟩ := Option.map_eq_some_iff.mp hrun
  simp only [StartUp.view, Prod.mk.injEq] at hview
  obtain ⟨hpc, hservice, hdefault, hpaused⟩ := hview
  exact ⟨s, hs, ⟨hpc, Or.inr hservice⟩, hservice, hdefault, hpaused⟩

end ConfProfile
