import ConfProfile.Router.Loop

/-!
# The thread of the router loop (`RouterLoop.java`)

`RouterLoop.run` keeps the address of the native context in `mRouterCtx`, and so
do all methods of the class that other threads call. `terminate` sets the flag of
the context and then writes 0 there, which is what `run` finds when it comes to
`deinitIpRouter`. The native loop tests the flag at the end of a round, and the
pause in front of it.

`release_iff` says which calls of `terminate` let the context be released, and in
which states the native loop comes to an end once its flag is set.
-/

namespace ConfProfile

open Run

/-- Where `run` is. -/
inductive RouterRunPc where
  /-- in front of `initIpRouter` -/
  | created
  /-- in front of `pause(true)` -/
  | inited
  /-- in front of the calls of the builder -/
  | paused
  /-- in front of `routerLoop` -/
  | built
  /-- in `routerLoop` -/
  | looping
  /-- in front of `deinitIpRouter` -/
  | returned
  /-- in front of the assignment behind it -/
  | deinited
  | done
  deriving DecidableEq, Repr

/-- A `RouterLoop`. The native context is `sys.router`, once `initIpRouter` has made it;
`routerCtx` says that `mRouterCtx` is not 0. -/
structure LoopThread where
  sys : LoopSys
  routerCtx : Bool
  pc : RouterRunPc
  /-- the calls of `terminate` in front of their assignment -/
  clearing : Nat
  /-- how often `deinitIpRouter` was called with the context -/
  released : Nat

inductive ThreadAct where
  | initIpRouter
  /-- `pause(true)` -/
  | pause
  /-- the interface is built -/
  | build
  | routerLoop (fd : Int)
  /-- a step of the native loop -/
  | loop (a : Act)
  /-- the native loop returns -/
  | loopReturns
  | deinitIpRouter
  /-- the last assignment of `run` -/
  | clear
  /-- another thread calls a native method -/
  | call (a : Act)
  /-- `terminate`, up to its assignment -/
  | terminate
  /-- `mRouterCtx = 0` of a `terminate` -/
  | terminateClear
  deriving DecidableEq, Repr

/-- The steps of the thread in `routerLoop`. -/
def Act.OfLoop : Act → Bool
  | .loopSection | .epollError | .epollWait _ | .recvReturn _ => true
  | _ => false

/-- The calls that read `mRouterCtx` and are one section of the native code. -/
def Act.OfCaller : Act → Bool
  | .addRoute4 _ _ _ | .defaultRoute4 _ | .removeRoute4 _ _ | .pauseRouterLoop _ => true
  | _ => false

namespace LoopThread

variable (s : LoopThread)

/-- A native method called with `mRouterCtx`: nothing on NULL. What it writes to a
context that was released has no counterpart. -/
def withCtx (a : Act) : Option LoopThread :=
  if s.routerCtx ∧ s.released = 0 then (sysStep s.sys a).map fun sys => { s with sys }
  else some s

end LoopThread

/-- One step of `run`, of the native loop, or of another thread. -/
def threadStep (s : LoopThread) : ThreadAct → Option LoopThread
  | .initIpRouter =>
    if s.pc = .created then some { s with routerCtx := true, pc := .inited } else none
  | .pause =>
    if s.pc = .inited then
      (s.withCtx (.pauseRouterLoop true)).map fun s => { s with pc := .paused }
    else none
  | .build => if s.pc = .paused then some { s with pc := .built } else none
  | .routerLoop fd =>
    if s.pc = .built then
      -- "Router context is null"
      if s.routerCtx = false then some { s with pc := .returned }
      else (sysStep s.sys (.routerLoop fd)).map fun sys => { s with sys, pc := .looping }
    else none
  | .loop a =>
    if s.pc = .looping ∧ a.OfLoop then (sysStep s.sys a).map fun sys => { s with sys } else none
  | .loopReturns =>
    match s.pc, s.sys.loop with
    | .looping, .exited => some { s with pc := .returned }
    | _, _ => none
  | .deinitIpRouter =>
    if s.pc = .returned then
      some { s with pc := .deinited, released := s.released + if s.routerCtx then 1 else 0 }
    else none
  | .clear => if s.pc = .deinited then some { s with routerCtx := false, pc := .done } else none
  | .call a => if a.OfCaller then s.withCtx a else none
  | .terminate =>
    (s.withCtx .terminateRouterLoop).map fun t => { t with clearing := t.clearing + 1 }
  | .terminateClear =>
    if 0 < s.clearing then some { s with routerCtx := false, clearing := s.clearing - 1 } else none

/-- A new `RouterLoop`, with what `router_init` will find. -/
def threadInit (mem : RouterCtx) (dev : TunPtr) (owner : TunPtr → Nat) (localFd : TunPtr → Int) :
    LoopThread :=
  ⟨loopInit mem dev owner localFd, false, .created, 0, 0⟩

/-! ## The native loop on its own -/

/-- Left to itself the native loop comes to its end. -/
def LoopSys.Ends (x : LoopSys) : Prop :=
  Inevitably sysStep (fun a => a.OfLoop = true) (fun x => x.loop = .exited) x

/-- With the flag set, where the loop is on the way to the test of it: behind the pause,
unless updated routes send it back there, or in front of the pause of a router that is
not paused; and the rebuilds on the way return. -/
def LoopSys.Leaves (x : LoopSys) : Prop :=
  let returns : Prop := (rebuildEpollStruct x.router).isSome
  match x.loop with
  | .start => False
  | .firstRebuild => x.router.paused = false ∧ returns
  | .top => x.router.paused = false ∧ (x.doRebuild ∨ x.router.routesUpdated → returns)
  | .rebuild =>
    (x.doRebuild → returns) ∧
      (¬ x.doRebuild → x.router.routesUpdated → x.router.paused = false ∧ returns)
  | .check => x.router.routesUpdated → x.router.paused = false ∧ returns
  | .wait | .events _ | .recv _ _ _ | .exited => True

section loop

variable {x x' : LoopSys}

/-- What the loop's thread can do: a section, or the return of the call it is in. -/
theorem sysStep_ofLoop {a : Act} (ha : a.OfLoop) (h : sysStep x a = some x') :
    loopSection x = some x' ∨
    (x.loop = .wait ∧ (x' = { x with loop := .exited } ∨
      ∃ evs, x' = { x with loop := .events evs })) ∨
    ∃ t ev evs, x.loop = .recv t ev evs ∧
      (x' = { x with loop := .events evs } ∨ x' = handleHup x ev evs) := by
  cases sysStep_cases h with
  | loopSection hs => exact Or.inl hs
  | epollError hpc => exact Or.inr (Or.inl ⟨hpc, Or.inl rfl⟩)
  | epollWait hpc => exact Or.inr (Or.inl ⟨hpc, Or.inr ⟨_, rfl⟩⟩)
  | recvFails hpc => exact Or.inr (Or.inr ⟨_, _, _, hpc, Or.inl rfl⟩)
  | recvReturn hpc => exact Or.inr (Or.inr ⟨_, _, _, hpc, Or.inr rfl⟩)
  | _ => cases ha

theorem ends_exited (hpc : x.loop = .exited) : x.Ends := .here hpc

/-- A section is all that the thread can do where it is in front of one. -/
theorem ends_of_section (h : loopSection x = some x') (hx' : x'.Ends) : x.Ends := by
  refine .next ⟨.loopSection, x', rfl, h⟩ fun a y ha hy => ?_
  rcases sysStep_ofLoop ha hy with hsec | ⟨hpc, -⟩ | ⟨t, ev, evs, hpc, -⟩
  · obtain rfl := Option.some.inj (h.symm.trans hsec)
    exact hx'
  · rw [loopSection, hpc] at h
    cases h
  · rw [loopSection, hpc] at h
    cases h

/-- Events left to handle, and then the flag is tested. -/
theorem ends_events (hterm : x.router.terminate = true) (evs : List EpollEvent)
    (hpc : x.loop = .events evs) : x.Ends := by
  induction evs generalizing x with
  | nil =>
    have hsec : loopSection x = some { x with loop := .exited } := by
      rw [loopSection, hpc]
      simp only [hterm, if_true]
    exact ends_of_section hsec (ends_exited rfl)
  | cons ev evs ih =>
    have hhup : ∀ {y : LoopSys}, y.router.terminate = true → (handleHup y ev evs).Ends := by
      intro y hy
      unfold handleHup
      split
      · split
        · exact ih hy rfl
        · exact ends_exited rfl
      · exact ih hy rfl
    by_cases hin : ev.epollin
    · cases hfind : findLink ev.fd x.router.epollLinksCount x.router.epollLinks with
      | none =>
        have hsec : loopSection x = some { x with loop := .events evs } := by
          rw [loopSection, hpc]
          simp only [if_pos hin, hfind]
        exact ends_of_section hsec (ih hterm rfl)
      | some t =>
        have hsec : loopSection x = some { x with loop := .recv t ev evs } := by
          rw [loopSection, hpc]
          simp only [if_pos hin, hfind]
        refine ends_of_section hsec (.next ⟨.recvReturn (-1), _, rfl, rfl⟩ fun a y ha hy => ?_)
        rcases sysStep_ofLoop ha hy with hs | ⟨hp, -⟩ | ⟨t', ev', evs', hp, hres⟩
        · cases hs
        · cases hp
        · cases hp
          rcases hres with rfl | rfl
          · exact ih hterm rfl
          · exact hhup hterm
    · have hsec : loopSection x = some (handleHup x ev evs) := by
        rw [loopSection, hpc]
        simp only [if_neg hin]
      exact ends_of_section hsec (hhup hterm)

/-- In `recv`, the events left come next. -/
theorem ends_recv (hterm : x.router.terminate = true) {t : TunPtr} {ev : EpollEvent}
    {evs : List EpollEvent} (hpc : x.loop = .recv t ev evs) : x.Ends := by
  have hcan : sysStep x (.recvReturn (-1)) = some { x with loop := .events evs } := by
    simp only [sysStep, hpc]
    rfl
  refine .next ⟨.recvReturn (-1), _, rfl, hcan⟩ fun a y ha hy => ?_
  rcases sysStep_ofLoop ha hy with hs | ⟨hp, -⟩ | ⟨t', ev', evs', hp, hres⟩
  · rw [loopSection, hpc] at hs
    cases hs
  · cases hpc.symm.trans hp
  · cases hpc.symm.trans hp
    rcases hres with rfl | rfl
    · exact ends_events hterm evs rfl
    · rcases (handleHup_loop x ev evs).1 with hp' | hp'
      · refine ends_events ?_ evs hp'
        unfold handleHup
        split_ifs <;> exact hterm
      · exact ends_exited hp'

theorem ends_wait (hterm : x.router.terminate = true) (hpc : x.loop = .wait) : x.Ends := by
  have hcan : sysStep x .epollError = some { x with loop := .exited } := by
    simp only [sysStep, hpc]
  refine .next ⟨.epollError, _, rfl, hcan⟩ fun a y ha hy => ?_
  rcases sysStep_ofLoop ha hy with hs | ⟨-, hres⟩ | ⟨t', ev', evs', hp, -⟩
  · rw [loopSection, hpc] at hs
    cases hs
  · rcases hres with rfl | ⟨evs, rfl⟩
    · exact ends_exited rfl
    · exact ends_events hterm evs rfl
  · cases hpc.symm.trans hp

/-- A rebuild that returns clears `routes_updated`, keeps the two flags of the other
threads, and would return again. -/
theorem lockedRebuild_flags (h : lockedRebuild x = some x') :
    x'.router.routesUpdated = false ∧ x'.router.paused = x.router.paused ∧
      x'.router.terminate = x.router.terminate ∧ (rebuildEpollStruct x'.router).isSome ∧
      x'.doRebuild = x.doRebuild := by
  unfold lockedRebuild at h
  obtain ⟨s, hs, rfl⟩ := Option.map_eq_some_iff.mp h
  have hreturns := (rebuildEpollStruct_isSome x.router).mp (by rw [hs]; rfl)
  obtain ⟨links, capacity, count, refs, fds, rfl⟩ := rebuildEpollStruct_frame hs
  exact ⟨rfl, rfl, rfl, (rebuildEpollStruct_isSome _).mpr hreturns, rfl⟩

theorem lockedRebuild_isSome : (lockedRebuild x).isSome = (rebuildEpollStruct x.router).isSome := by
  unfold lockedRebuild
  exact Option.isSome_map

theorem ends_check_clean (hterm : x.router.terminate = true) (hpc : x.loop = .check)
    (hupdated : x.router.routesUpdated = false) : x.Ends := by
  have hsec : loopSection x = some { x with loop := .wait } := by
    rw [loopSection, hpc]
    simp [hupdated]
  exact ends_of_section hsec (ends_wait hterm rfl)

/-- The rebuild that is owed, and then the test of `routes_updated` that lets the loop by. -/
theorem ends_rebuild_owed (hterm : x.router.terminate = true) (hpc : x.loop = .rebuild)
    (howed : x.doRebuild = true) (hreturns : (rebuildEpollStruct x.router).isSome) : x.Ends := by
  obtain ⟨y, hy⟩ := Option.isSome_iff_exists.mp (lockedRebuild_isSome.trans hreturns)
  have hsec : loopSection x = some { y with doRebuild := false, loop := .check } := by
    rw [loopSection, hpc]
    simp only [if_pos howed, hy]
    rfl
  obtain ⟨hupdated, -, hterm', -⟩ := lockedRebuild_flags hy
  exact ends_of_section hsec (ends_check_clean (hterm'.trans hterm) rfl hupdated)

/-- At the pause test of a router that is not paused. -/
theorem section_top (hpc : x.loop = .top) (hpaused : x.router.paused = false) :
    loopSection x = some { x with loop := .rebuild } := by
  rw [loopSection, hpc]
  simp [hpaused]

theorem section_check (hpc : x.loop = .check) (hupdated : x.router.routesUpdated = true) :
    loopSection x = some { x with doRebuild := true, loop := .top } := by
  rw [loopSection, hpc]
  simp [hupdated]

theorem section_rebuild (hpc : x.loop = .rebuild) (howed : ¬ x.doRebuild = true) :
    loopSection x = some { x with loop := .check } := by
  rw [loopSection, hpc]
  exact if_neg howed

theorem ends_check (hterm : x.router.terminate = true) (hpc : x.loop = .check)
    (h : x.router.routesUpdated → x.router.paused = false ∧
      (rebuildEpollStruct x.router).isSome) : x.Ends := by
  cases hupdated : x.router.routesUpdated with
  | false => exact ends_check_clean hterm hpc hupdated
  | true =>
    obtain ⟨hpaused, hreturns⟩ := h hupdated
    refine ends_of_section (section_check hpc hupdated) ?_
    refine ends_of_section (section_top rfl hpaused) ?_
    exact ends_rebuild_owed hterm rfl rfl hreturns

theorem ends_rebuild (hterm : x.router.terminate = true) (hpc : x.loop = .rebuild)
    (howes : x.doRebuild → (rebuildEpollStruct x.router).isSome)
    (h : ¬ x.doRebuild → x.router.routesUpdated → x.router.paused = false ∧
      (rebuildEpollStruct x.router).isSome) : x.Ends := by
  by_cases howed : x.doRebuild = true
  · exact ends_rebuild_owed hterm hpc howed (howes howed)
  · exact ends_of_section (section_rebuild hpc howed) (ends_check hterm rfl (h howed))

theorem ends_top (hterm : x.router.terminate = true) (hpc : x.loop = .top)
    (hpaused : x.router.paused = false)
    (h : x.doRebuild ∨ x.router.routesUpdated → (rebuildEpollStruct x.router).isSome) :
    x.Ends := by
  refine ends_of_section (section_top hpc hpaused) (ends_rebuild hterm rfl ?_ ?_)
  · exact fun howed => h (Or.inl howed)
  · exact fun _ hupdated => ⟨hpaused, h (Or.inr hupdated)⟩

/-- A loop that leaves does so whatever the descriptors bring. -/
theorem ends_of_leaves (hterm : x.router.terminate = true) (h : x.Leaves) : x.Ends := by
  unfold LoopSys.Leaves at h
  cases hpc : x.loop with
  | start =>
    rw [hpc] at h
    exact h.elim
  | firstRebuild =>
    rw [hpc] at h
    obtain ⟨y, hy⟩ := Option.isSome_iff_exists.mp (lockedRebuild_isSome.trans h.2)
    have hsec : loopSection x = some { y with loop := .top } := by
      rw [loopSection, hpc]
      simp only [hy]
      rfl
    obtain ⟨-, hpaused, hterm', hagain, -⟩ := lockedRebuild_flags hy
    exact ends_of_section hsec
      (ends_top (hterm'.trans hterm) rfl (hpaused.trans h.1) fun _ => hagain)
  | top =>
    rw [hpc] at h
    exact ends_top hterm hpc h.1 h.2
  | rebuild =>
    rw [hpc] at h
    exact ends_rebuild hterm hpc h.1 h.2
  | check =>
    rw [hpc] at h
    exact ends_check hterm hpc h
  | wait => exact ends_wait hterm hpc
  | events evs => exact ends_events hterm evs hpc
  | recv t ev evs => exact ends_recv hterm hpc
  | exited => exact ends_exited hpc

/-- A loop that does not is not out, and has a section that keeps it so, or none that
returns. -/
theorem section_of_not_leaves (h : ¬ x.Leaves) : x.loop ≠ .exited ∧
    ((∃ a x', a.OfLoop ∧ sysStep x a = some x' ∧ ¬ x'.Leaves) ∨
      ∀ a x', a.OfLoop → sysStep x a ≠ some x') := by
  have hnone : x.loop ≠ .wait → (∀ t ev evs, x.loop ≠ .recv t ev evs) → loopSection x = none →
      ∀ a x', a.OfLoop → sysStep x a ≠ some x' := by
    intro hwait hrecv hsec a x' ha hx'
    rcases sysStep_ofLoop ha hx' with hs | ⟨hpc, -⟩ | ⟨t, ev, evs, hpc, -⟩
    · cases hsec.symm.trans hs
    · exact hwait hpc
    · exact hrecv t ev evs hpc
  have hstuck : ¬ (rebuildEpollStruct x.router).isSome → lockedRebuild x = none := by
    intro hr
    rw [← lockedRebuild_isSome] at hr
    exact Option.not_isSome_iff_eq_none.mp hr
  have hto : ∀ {x'}, loopSection x = some x' → ¬ x'.Leaves →
      ∃ a x', a.OfLoop ∧ sysStep x a = some x' ∧ ¬ x'.Leaves :=
    fun hs hx' => ⟨.loopSection, _, rfl, hs, hx'⟩
  unfold LoopSys.Leaves at h
  have hout : x.loop ≠ .exited := by
    intro hpc
    rw [hpc] at h
    exact h trivial
  refine ⟨hout, ?_⟩
  cases hpc : x.loop with
  | start =>
    refine Or.inr (hnone (by simp [hpc]) (by simp [hpc]) ?_)
    rw [loopSection, hpc]
  | firstRebuild =>
    rw [hpc] at h
    by_cases hr : (rebuildEpollStruct x.router).isSome
    · obtain ⟨y, hy⟩ := Option.isSome_iff_exists.mp (lockedRebuild_isSome.trans hr)
      have hsec : loopSection x = some { y with loop := .top } := by
        rw [loopSection, hpc]
        simp only [hy]
        rfl
      refine Or.inl (hto hsec fun hleaves => h ⟨?_, hr⟩)
      exact (lockedRebuild_flags hy).2.1.symm.trans hleaves.1
    · refine Or.inr (hnone (by simp [hpc]) (by simp [hpc]) ?_)
      rw [loopSection, hpc]
      simp only [hstuck hr]
      rfl
  | top =>
    rw [hpc] at h
    cases hpaused : x.router.paused with
    | true =>
      have hsec : loopSection x = some x := by
        rw [loopSection, hpc]
        simp [hpaused]
      refine Or.inl (hto hsec fun hleaves => ?_)
      unfold LoopSys.Leaves at hleaves
      rw [hpc] at hleaves
      cases hpaused.symm.trans hleaves.1
    | false =>
      refine Or.inl (hto (section_top hpc hpaused) fun hleaves => h ⟨hpaused, ?_⟩)
      rintro (howed | hupdated)
      · exact hleaves.1 howed
      · by_cases howed : x.doRebuild = true
        · exact hleaves.1 howed
        · exact (hleaves.2 howed hupdated).2
  | rebuild =>
    rw [hpc] at h
    by_cases howed : x.doRebuild = true
    · have hr : ¬ (rebuildEpollStruct x.router).isSome :=
        fun hr => h ⟨fun _ => hr, fun hn => absurd howed hn⟩
      refine Or.inr (hnone (by simp [hpc]) (by simp [hpc]) ?_)
      rw [loopSection, hpc]
      simp only [if_pos howed, hstuck hr]
      rfl
    · refine Or.inl (hto (section_rebuild hpc howed) fun hleaves => ?_)
      exact h ⟨fun hd => absurd hd howed, fun _ => hleaves⟩
  | check =>
    rw [hpc] at h
    obtain ⟨hupdated, hn⟩ := Classical.not_imp.mp h
    refine Or.inl (hto (section_check hpc hupdated) fun hleaves => ?_)
    exact hn ⟨hleaves.1, hleaves.2 (Or.inl rfl)⟩
  | exited => exact absurd hpc hout
  | wait | events evs | recv t ev evs =>
    rw [hpc] at h
    exact absurd trivial h

/-- With its flag set the native loop comes to its end exactly where it leaves. -/
theorem ends_iff_leaves (hterm : x.router.terminate = true) : x.Ends ↔ x.Leaves := by
  refine ⟨?_, ends_of_leaves hterm⟩
  intro hends
  by_contra hleaves
  exact not_inevitably (T := fun y => ¬ y.Leaves) (fun y hy => section_of_not_leaves hy)
    hleaves hends

end loop

/-! ## What a step can do -/

/-- The steps, one constructor for each way through. -/
inductive ThreadStep (s : LoopThread) : ThreadAct → LoopThread → Prop where
  | initIpRouter (hpc : s.pc = .created) :
      ThreadStep s .initIpRouter { s with routerCtx := true, pc := .inited }
  | pause {sys} (hpc : s.pc = .inited)
      (hs : s.withCtx (.pauseRouterLoop true) = some { s with sys }) :
      ThreadStep s .pause { s with sys, pc := .paused }
  | build (hpc : s.pc = .paused) : ThreadStep s .build { s with pc := .built }
  | routerLoopNull {fd} (hpc : s.pc = .built) (hctx : s.routerCtx = false) :
      ThreadStep s (.routerLoop fd) { s with pc := .returned }
  | routerLoop {fd sys} (hpc : s.pc = .built) (hctx : s.routerCtx = true)
      (hs : sysStep s.sys (.routerLoop fd) = some sys) :
      ThreadStep s (.routerLoop fd) { s with sys, pc := .looping }
  | loop {a sys} (hpc : s.pc = .looping) (ha : a.OfLoop) (hs : sysStep s.sys a = some sys) :
      ThreadStep s (.loop a) { s with sys }
  | loopReturns (hpc : s.pc = .looping) (hloop : s.sys.loop = .exited) :
      ThreadStep s .loopReturns { s with pc := .returned }
  | deinitIpRouter (hpc : s.pc = .returned) :
      ThreadStep s .deinitIpRouter
        { s with pc := .deinited, released := s.released + if s.routerCtx then 1 else 0 }
  | clear (hpc : s.pc = .deinited) :
      ThreadStep s .clear { s with routerCtx := false, pc := .done }
  | call {a sys} (ha : a.OfCaller) (hs : s.withCtx a = some { s with sys }) :
      ThreadStep s (.call a) { s with sys }
  | terminate {sys} (hs : s.withCtx .terminateRouterLoop = some { s with sys }) :
      ThreadStep s .terminate { s with sys, clearing := s.clearing + 1 }
  | terminateClear (hpos : 0 < s.clearing) :
      ThreadStep s .terminateClear { s with routerCtx := false, clearing := s.clearing - 1 }

section steps

variable {s s' : LoopThread}

/-- A native method acts on the context alone. -/
theorem withCtx_eq {a : Act} {t : LoopThread} (h : s.withCtx a = some t) :
    ∃ sys, t = { s with sys } := by
  unfold LoopThread.withCtx at h
  split at h
  · obtain ⟨sys, -, rfl⟩ := Option.map_eq_some_iff.mp h
    exact ⟨sys, rfl⟩
  · exact ⟨s.sys, (Option.some.inj h).symm⟩

/-- Every step is one of `ThreadStep`. -/
theorem threadStep_cases {a : ThreadAct} (h : threadStep s a = some s') : ThreadStep s a s' := by
  cases a with
  | initIpRouter =>
    obtain ⟨hpc, h⟩ := Option.ite_none_right_eq_some.mp h
    cases h
    exact .initIpRouter hpc
  | pause =>
    obtain ⟨hpc, h⟩ := Option.ite_none_right_eq_some.mp h
    obtain ⟨t, ht, rfl⟩ := Option.map_eq_some_iff.mp h
    obtain ⟨sys, rfl⟩ := withCtx_eq ht
    exact .pause hpc ht
  | build =>
    obtain ⟨hpc, h⟩ := Option.ite_none_right_eq_some.mp h
    cases h
    exact .build hpc
  | routerLoop fd =>
    obtain ⟨hpc, h⟩ := Option.ite_none_right_eq_some.mp h
    by_cases hctx : s.routerCtx = false
    · rw [if_pos hctx] at h
      cases h
      exact .routerLoopNull hpc hctx
    · rw [if_neg hctx] at h
      obtain ⟨sys, hsys, rfl⟩ := Option.map_eq_some_iff.mp h
      exact .routerLoop hpc (Bool.eq_true_of_not_eq_false hctx) hsys
  | loop a =>
    obtain ⟨⟨hpc, ha⟩, h⟩ := Option.ite_none_right_eq_some.mp h
    obtain ⟨sys, hsys, rfl⟩ := Option.map_eq_some_iff.mp h
    exact .loop hpc ha hsys
  | loopReturns =>
    simp only [threadStep] at h
    split at h
    next hpc hloop =>
      cases h
      exact .loopReturns hpc hloop
    next => cases h
  | deinitIpRouter =>
    obtain ⟨hpc, h⟩ := Option.ite_none_right_eq_some.mp h
    cases h
    exact .deinitIpRouter hpc
  | clear =>
    obtain ⟨hpc, h⟩ := Option.ite_none_right_eq_some.mp h
    cases h
    exact .clear hpc
  | call a =>
    obtain ⟨ha, h⟩ := Option.ite_none_right_eq_some.mp h
    obtain ⟨sys, rfl⟩ := withCtx_eq h
    exact .call ha h
  | terminate =>
    obtain ⟨t, ht, rfl⟩ := Option.map_eq_some_iff.mp h
    obtain ⟨sys, rfl⟩ := withCtx_eq ht
    exact .terminate ht
  | terminateClear =>
    obtain ⟨hpos, h⟩ := Option.ite_none_right_eq_some.mp h
    cases h
    exact .terminateClear hpos

end steps

/-! ## The release of the context -/

/-- `run` has made the context and not come to `deinitIpRouter`. -/
def RouterRunPc.Owns : RouterRunPc → Bool
  | .inited | .paused | .built | .looping | .returned => true
  | .created | .deinited | .done => false

/-- No assignment of a `terminate` comes while `run` owns the context. -/
def ClearsLate (s : LoopThread) (a : ThreadAct) : Prop := a = .terminateClear → s.pc.Owns = false

/-- The state while `mRouterCtx` is what `run` made of it. -/
structure Keeps (s : LoopThread) : Prop where
  created : s.pc = .created → s.released = 0
  owns : s.pc.Owns → s.routerCtx = true ∧ s.released = 0
  released : s.pc = .deinited ∨ s.pc = .done → s.released = 1

/-- The state once `run` has lost the address. -/
structure Loses (s : LoopThread) : Prop where
  started : s.pc ≠ .created
  owns : s.pc.Owns → s.routerCtx = false
  released : s.released = 0

section release

variable {s s' : LoopThread} {a : ThreadAct}

theorem keeps_step (hs : Keeps s) (hlate : ClearsLate s a) (h : threadStep s a = some s') :
    Keeps s' := by
  have hnext : ∀ {pc sys}, s.pc.Owns → pc.Owns → Keeps { s with sys, pc } := by
    intro pc sys howns howns'
    refine ⟨fun hpc => ?_, fun _ => hs.owns howns, ?_⟩
    · obtain rfl : pc = .created := hpc
      cases howns'
    · rintro (hpc | hpc)
      · obtain rfl : pc = .deinited := hpc
        cases howns'
      · obtain rfl : pc = .done := hpc
        cases howns'
  cases threadStep_cases h with
  | initIpRouter hpc => exact ⟨nofun, fun _ => ⟨rfl, hs.created hpc⟩, by rintro (h | h) <;> cases h⟩
  | pause hpc | build hpc | routerLoopNull hpc | routerLoop hpc | loopReturns hpc =>
    exact hnext (by rw [hpc]; rfl) rfl
  | loop hpc => exact ⟨hs.created, hs.owns, hs.released⟩
  | call => exact ⟨hs.created, hs.owns, hs.released⟩
  | terminate => exact ⟨hs.created, hs.owns, hs.released⟩
  | deinitIpRouter hpc =>
    obtain ⟨hctx, hzero⟩ := hs.owns (by rw [hpc]; rfl)
    exact ⟨nofun, nofun, fun _ => by simp only [hctx, hzero, if_true]⟩
  | clear hpc => exact ⟨nofun, nofun, fun _ => hs.released (Or.inl hpc)⟩
  | terminateClear hpos =>
    have howns := hlate rfl
    exact ⟨hs.created, fun h => (Bool.false_ne_true (howns.symm.trans h)).elim, hs.released⟩

/-- An early assignment loses the address. -/
theorem loses_of_early (hs : Keeps s) (hearly : ¬ ClearsLate s a) (h : threadStep s a = some s') :
    Loses s' := by
  obtain ⟨rfl, howns⟩ := Classical.not_imp.mp hearly
  rw [Bool.not_eq_false] at howns
  cases threadStep_cases h with
  | terminateClear hpos =>
    refine ⟨fun hpc => ?_, fun _ => rfl, (hs.owns howns).2⟩
    have hpc' : s.pc = .created := hpc
    rw [hpc'] at howns
    cases howns

theorem loses_step (hs : Loses s) (h : threadStep s a = some s') : Loses s' := by
  cases threadStep_cases h with
  | initIpRouter hpc => exact absurd hpc hs.started
  | pause hpc | build hpc | routerLoopNull hpc | routerLoop hpc | loopReturns hpc =>
    exact ⟨nofun, fun _ => hs.owns (by rw [hpc]; rfl), hs.released⟩
  | loop hpc => exact ⟨hs.started, hs.owns, hs.released⟩
  | call => exact ⟨hs.started, hs.owns, hs.released⟩
  | terminate => exact ⟨hs.started, hs.owns, hs.released⟩
  | deinitIpRouter hpc =>
    have hctx := hs.owns (by rw [hpc]; rfl)
    exact ⟨nofun, nofun, by simp [hctx, hs.released]⟩
  | clear hpc => exact ⟨nofun, nofun, hs.released⟩
  | terminateClear hpos => exact ⟨hs.started, fun _ => rfl, hs.released⟩

/-- The context is released once at most, and when the native loop has come to its end. -/
structure ReleasedOnce (s : LoopThread) : Prop where
  before : s.pc ≠ .deinited → s.pc ≠ .done → s.released = 0
  once : s.released ≤ 1
  returned : s.pc = .returned → s.routerCtx = true → s.sys.loop = .exited
  released : s.released = 1 → s.sys.loop = .exited

/-- Only the loop's thread changes where the loop is. -/
theorem sysStep_loop_other {x x' : LoopSys} {a : Act} (ha : a.OfLoop = false)
    (hstart : ∀ fd, a ≠ .routerLoop fd) (h : sysStep x a = some x') : x'.loop = x.loop := by
  cases sysStep_cases h with
  | routerLoopFails | routerLoop => exact absurd rfl (hstart _)
  | loopSection | epollError | epollWait | recvFails | recvReturn => cases ha
  | removeRebuild hun hy => exact (lockedRebuild_loop hy).1
  | _ => rfl

theorem withCtx_loop {a : Act} {sys : LoopSys} (ha : a.OfLoop = false)
    (hstart : ∀ fd, a ≠ .routerLoop fd) (h : s.withCtx a = some { s with sys }) :
    sys.loop = s.sys.loop := by
  unfold LoopThread.withCtx at h
  split at h
  · obtain ⟨sys', hsys, heq⟩ := Option.map_eq_some_iff.mp h
    obtain rfl : sys' = sys := congrArg LoopThread.sys heq
    exact sysStep_loop_other ha hstart hsys
  · exact congrArg (fun t => t.sys.loop) (Option.some.inj h).symm

theorem ofCaller_other {a : Act} (ha : a.OfCaller) :
    a.OfLoop = false ∧ ∀ fd, a ≠ .routerLoop fd := by
  cases a with
  | addRoute4 | defaultRoute4 | removeRoute4 | pauseRouterLoop => exact ⟨rfl, nofun⟩
  | _ => cases ha

theorem releasedOnce_step (hs : ReleasedOnce s) (h : threadStep s a = some s') :
    ReleasedOnce s' := by
  have hsame : ∀ {sys n}, sys.loop = s.sys.loop →
      ReleasedOnce { s with sys, clearing := n } := fun hloop =>
    ⟨hs.before, hs.once, fun hpc hctx => hloop.trans (hs.returned hpc hctx),
      fun hr => hloop.trans (hs.released hr)⟩
  have hzero : ∀ {pc}, s.pc = pc → pc ≠ .deinited → pc ≠ .done → s.released = 0 :=
    fun hpc h₁ h₂ => hs.before (hpc ▸ h₁) (hpc ▸ h₂)
  have hnext : ∀ {pc sys ctx}, s.released = 0 → (pc = .returned → ctx = true → sys.loop = .exited) →
      ReleasedOnce { s with sys, pc, routerCtx := ctx } := fun hr hret =>
    ⟨fun _ _ => hr, hs.once, hret, fun h => absurd (hr.symm.trans h) Nat.zero_ne_one⟩
  cases threadStep_cases h with
  | initIpRouter hpc => exact hnext (hzero hpc nofun nofun) nofun
  | pause hpc => exact hnext (hzero hpc nofun nofun) nofun
  | build hpc => exact hnext (hzero hpc nofun nofun) nofun
  | routerLoopNull hpc hctx =>
    exact hnext (hzero hpc nofun nofun) fun _ h => (Bool.false_ne_true (hctx.symm.trans h)).elim
  | routerLoop hpc => exact hnext (hzero hpc nofun nofun) nofun
  | loop hpc => exact hnext (hzero hpc nofun nofun) fun h => by cases hpc.symm.trans h
  | loopReturns hpc hloop => exact hnext (hzero hpc nofun nofun) fun _ _ => hloop
  | deinitIpRouter hpc =>
    have hr := hzero hpc nofun nofun
    refine ⟨fun h => absurd rfl h, ?_, nofun, ?_⟩
    · cases s.routerCtx <;> simp [hr]
    · intro hone
      cases hctx : s.routerCtx with
      | false => simp [hr, hctx] at hone
      | true => exact hs.returned hpc hctx
  | clear hpc => exact ⟨fun _ h => absurd rfl h, hs.once, nofun, hs.released⟩
  | call ha hsys =>
    obtain ⟨hother, hstart⟩ := ofCaller_other ha
    exact hsame (withCtx_loop hother hstart hsys)
  | terminate hsys => exact hsame (withCtx_loop rfl (fun _ h => by cases h) hsys)
  | terminateClear => exact ⟨hs.before, hs.once, nofun, hs.released⟩

end release

/-- For every interleaving of `run`, the native loop and the calls of other threads: when
`run` is through, its context has been released exactly if no assignment of a
`terminate` came between `initIpRouter` and `deinitIpRouter`. It is never released
twice, and only behind the end of the native loop. And a native loop whose flag is set
comes to its end by itself exactly if it is behind the pause or not paused, and the
rebuilds in its way return. -/
theorem release_iff (mem : RouterCtx) (dev : TunPtr) (owner : TunPtr → Nat)
    (localFd : TunPtr → Int) (acts : List ThreadAct) {s : LoopThread}
    (hrun : run threadStep (threadInit mem dev owner localFd) acts = some s) :
    (s.pc = .done →
      (s.released = 1 ↔ Guarded threadStep ClearsLate (threadInit mem dev owner localFd) acts)) ∧
    s.released ≤ 1 ∧ (s.released = 1 → s.sys.loop = .exited) ∧
    (s.pc = .looping → s.sys.router.terminate = true → (s.sys.Ends ↔ s.sys.Leaves)) := by
  have honce : ReleasedOnce s := by
    refine inv_run (fun _ _ _ => releasedOnce_step) acts ?_ hrun
    exact ⟨fun _ _ => rfl, Nat.zero_le _, nofun, nofun⟩
  have hinit : Keeps (threadInit mem dev owner localFd) :=
    ⟨fun _ => rfl, nofun, by rintro (h | h) <;> cases h⟩
  refine ⟨fun hdone => ?_, honce.once, honce.released, fun _ hterm => ends_iff_leaves hterm⟩
  refine end_iff_guarded (Q := fun s => s.released = 1) (fun _ _ _ => keeps_step)
    (fun _ _ _ => loses_of_early) (fun _ _ _ => loses_step) acts hinit hrun ?_ ?_
  · exact fun hkeeps => hkeeps.released (Or.inr hdone)
  · exact fun hloses hr => absurd (hloses.released.symm.trans hr) Nat.zero_ne_one

/-- A `RouterLoop` with a context in zeroed memory. -/
def freshThread : LoopThread := threadInit .zeroed 0 (fun _ => 0) fun t => 10 + t

/-- `run` up to the call of `routerLoop`, which gets the descriptor. -/
def startRun (fd : Int) : List ThreadAct :=
  [.initIpRouter, .pause, .build, .routerLoop fd]

/-- The rest of `run` behind the native loop. -/
def endRun : List ThreadAct := [.loopReturns, .deinitIpRouter, .clear]

/-- What the runs below are checked for. -/
structure ThreadView where
  pc : RouterRunPc
  released : Nat
  terminate : Bool
  paused : Bool
  owesRebuild : Bool
  atTop : Bool
  deriving DecidableEq

def LoopThread.view (s : LoopThread) : ThreadView where
  pc := s.pc
  released := s.released
  terminate := s.sys.router.terminate
  paused := s.sys.router.paused
  owesRebuild := s.sys.doRebuild || s.sys.router.routesUpdated
  atTop := s.sys.loop matches .top

theorem loop_of_atTop {s : LoopThread} (h : s.view.atTop = true) : s.sys.loop = .top := by
  cases hloop : s.sys.loop with
  | top => rfl
  | _ => simp [LoopThread.view, hloop] at h

/-- The interface is not established, and nobody calls `terminate`; and a loop that is
resumed and then terminated. -/
theorem release_iff_resumed :
    (∃ s, run threadStep freshThread (startRun (-1) ++ endRun) = some s ∧ s.released = 1) ∧
    ∃ s, run threadStep freshThread
        (startRun 5 ++ [.loop .loopSection, .call (.pauseRouterLoop false), .terminate]) = some s ∧
      s.sys.Ends := by
  refine ⟨?_, ?_⟩
  · have hrun : (run threadStep freshThread (startRun (-1) ++ endRun)).map (·.pc) =
        some .done := by decide +kernel
    obtain ⟨s, hs, hpc⟩ := Option.map_eq_some_iff.mp hrun
    refine ⟨s, hs, ((release_iff .zeroed 0 _ _ _ hs).1 hpc).mpr ?_⟩
    refine guarded_of_mem _ _ fun a ha _ hclear => ?_
    subst hclear
    simp [startRun, endRun] at ha
  · have hrun : (run threadStep freshThread
        (startRun 5 ++ [.loop .loopSection, .call (.pauseRouterLoop false), .terminate])).map
          LoopThread.view = some ⟨.looping, 0, true, false, false, true⟩ := by decide +kernel
    obtain ⟨s, hs, hview⟩ := Option.map_eq_some_iff.mp hrun
    have hpc : s.pc = .looping := congrArg ThreadView.pc hview
    have hterm : s.sys.router.terminate = true := congrArg ThreadView.terminate hview
    have hpaused : s.sys.router.paused = false := congrArg ThreadView.paused hview
    have howes : (s.sys.doRebuild || s.sys.router.routesUpdated) = false :=
      congrArg ThreadView.owesRebuild hview
    have htop := loop_of_atTop (congrArg ThreadView.atTop hview)
    refine ⟨s, hs, ((release_iff .zeroed 0 _ _ _ hs).2.2.2 hpc hterm).mpr ?_⟩
    unfold LoopSys.Leaves
    rw [htop]
    refine ⟨hpaused, fun howed => ?_⟩
    rw [← Bool.or_eq_true, howes] at howed
    cases howed

/-- The loop is resumed and terminated, and ends by a failing `epoll_wait`. -/
def terminatedRun : List ThreadAct :=
  startRun 5 ++ [.loop .loopSection, .call (.pauseRouterLoop false), .loop .loopSection,
    .loop .loopSection, .loop .loopSection, .terminate, .terminateClear, .loop .epollError] ++
    endRun

/-- The loop is terminated while it is paused. -/
def pausedRun : List ThreadAct := startRun 5 ++ [.loop .loopSection, .terminate, .terminateClear]

/-- A loop that is terminated in the middle of its work leaves the context behind, and one
that is terminated while it is paused does not come to its end. -/
theorem terminated_not_released :
    (∃ s, run threadStep freshThread terminatedRun = some s ∧ s.pc = .done ∧ s.released = 0) ∧
    ∃ s, run threadStep freshThread pausedRun = some s ∧ s.pc = .looping ∧
      s.sys.router.terminate = true ∧ s.sys.router.paused = true ∧ ¬ s.sys.Ends := by
  refine ⟨?_, ?_⟩
  · have hrun : (run threadStep freshThread terminatedRun).map LoopThread.view =
        some ⟨.done, 0, true, false, false, false⟩ := by decide +kernel
    obtain ⟨s, hs, hview⟩ := Option.map_eq_some_iff.mp hrun
    exact ⟨s, hs, congrArg ThreadView.pc hview, congrArg ThreadView.released hview⟩
  · have hrun : (run threadStep freshThread pausedRun).map LoopThread.view =
        some ⟨.looping, 0, true, true, false, true⟩ := by decide +kernel
    obtain ⟨s, hs, hview⟩ := Option.map_eq_some_iff.mp hrun
    have hterm : s.sys.router.terminate = true := congrArg ThreadView.terminate hview
    have hpaused : s.sys.router.paused = true := congrArg ThreadView.paused hview
    refine ⟨s, hs, congrArg ThreadView.pc hview, hterm, hpaused, fun hends => ?_⟩
    have hleaves := (ends_iff_leaves hterm).mp hends
    unfold LoopSys.Leaves at hleaves
    rw [loop_of_atTop (congrArg ThreadView.atTop hview)] at hleaves
    cases hpaused.symm.trans hleaves.1

end ConfProfile
