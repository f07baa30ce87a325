import ConfProfile.Router.Jni

/-!
# The router loop beside another thread

`routerLoop` and the thread that Java runs `RouterLoop`'s methods and the
tunnels' `deinit` on, section by section: an `Act` is one lock-held section of
the loop (or its `epoll_wait`, or the return of a `recv`), one call of the other
thread, or one section of its `removeTunnel`. A run of `sysStep` is an
interleaving of the two threads.

The loop looks a ready descriptor up under the lock and calls `recv` on the
tunnel after it gave the lock back, without a reference of its own (the native
methods of the other thread do take one). Whether the tunnel outlives the call
is up to its other holders. `LoopInv` is the account of them over all
interleavings, `recv_refCount_along_iff` says which steps let the tunnel in
`recv` keep a reference, and `recv_refCount_of_ownersWait` what the owners can do
about it.
-/

namespace ConfProfile

open Run

/-- A ready descriptor, with the two event bits that the loop tests. -/
structure EpollEvent where
  fd : Int
  epollin : Bool
  epollhup : Bool
  deriving DecidableEq, Repr

/-- Where the loop is. -/
inductive LoopPc where
  /-- `routerLoop` has not been called -/
  | start
  /-- in front of the rebuild before the loop -/
  | firstRebuild
  /-- at the pause test -/
  | top
  /-- past it, in front of the rebuild it may owe -/
  | rebuild
  /-- at the test of `routes_updated` -/
  | check
  /-- in `epoll_wait` -/
  | wait
  /-- with events left to handle -/
  | events (evs : List EpollEvent)
  /-- in `recv` on a tunnel, for the first of the events left -/
  | recv (tunCtx : TunPtr) (ev : EpollEvent) (evs : List EpollEvent)
  /-- out of the loop -/
  | exited

/-- Where the other thread is in a `removeTunnel`. -/
inductive RemovePc where
  | idle
  | got (tunCtx : TunPtr)
  | unrouted (tunCtx : TunPtr)
  | rebuilt (tunCtx : TunPtr)

/-- The reference that a `removeTunnel` in progress holds. -/
def RemovePc.holds : RemovePc → List TunPtr
  | idle => []
  | got t => [t]
  | unrouted t => [t]
  | rebuilt t => [t]

/-- The router between its two threads. `leaked` is no part of the program: it
counts the references that rebuilds left behind. -/
structure LoopSys where
  router : Router
  loop : LoopPc
  doRebuild : Bool
  removing : RemovePc
  /-- the references that the tunnels' owners have not put yet -/
  owner : TunPtr → Nat
  leaked : TunPtr → Nat

/-- A step of one of the two threads. -/
inductive Act where
  /-- Java starts the loop on the descriptor of the established interface -/
  | routerLoop (fd : Int)
  /-- the next lock-held section of the loop -/
  | loopSection
  /-- `epoll_wait` returns, with an error or with events -/
  | epollError
  | epollWait (evs : List EpollEvent)
  /-- `recv` returns `res` -/
  | recvReturn (res : Int)
  | addRoute4 (ip4 : BitVec 32) (mask : Nat) (tunCtx : TunPtr)
  | defaultRoute4 (tunCtx : TunPtr)
  | removeRoute4 (ip4 : BitVec 32) (mask : Nat)
  | pauseRouterLoop (paused : Bool)
  | terminateRouterLoop
  /-- the steps of `removeTunnel` -/
  | removeGet (tunCtx : TunPtr)
  | removeUnroute
  | removeRebuild
  | removePut
  /-- the owner puts a reference of its own (`deinitIpSecTun` and the like) -/
  | deinit (tunCtx : TunPtr)
  deriving DecidableEq, Repr

/-- A rebuild, with what it leaks. -/
def lockedRebuild (x : LoopSys) : Option LoopSys :=
  (rebuildEpollStruct x.router).map fun s =>
    { x with
      router := s
      leaked := fun t =>
        if Leaks x.router then x.leaked t + (linkTuns x.router.epollLinks).count t
        else x.leaked t }

/-- The rest of an event after its `EPOLLIN` part: on `EPOLLHUP` the descriptor is
deleted, and the loop fails where that fails. -/
def handleHup (x : LoopSys) (ev : EpollEvent) (evs : List EpollEvent) : LoopSys :=
  if ev.epollhup then
    if ev.fd ∈ x.router.epollFds then
      { x with
        router := { x.router with epollFds := x.router.epollFds.erase ev.fd }, loop := .events evs }
    else { x with loop := .exited }
  else { x with loop := .events evs }

/-- One section of the loop. -/
def loopSection (x : LoopSys) : Option LoopSys :=
  match x.loop with
  | .firstRebuild => (lockedRebuild x).map fun x => { x with loop := .top }
  | .top => some (if x.router.paused then x else { x with loop := .rebuild })
  | .rebuild =>
    if x.doRebuild then
      (lockedRebuild x).map fun x => { x with doRebuild := false, loop := .check }
    else some { x with loop := .check }
  | .check =>
    some (if x.router.routesUpdated then { x with doRebuild := true, loop := .top }
      else { x with loop := .wait })
  | .events [] => some { x with loop := if x.router.terminate then .exited else .top }
  | .events (ev :: evs) =>
    if ev.epollin then
      match findLink ev.fd x.router.epollLinksCount x.router.epollLinks with
      | none => some { x with loop := .events evs }
      | some t => some { x with loop := .recv t ev evs }
    else some (handleHup x ev evs)
  | _ => none

/-- One step; `none` where the step is not the thread's next one, or does not
return. -/
def sysStep (x : LoopSys) : Act → Option LoopSys
  | .routerLoop fd =>
    match x.loop with
    | .start =>
      if fd = -1 then some { x with loop := .exited }
      else some { x with router := setTunDevTunFd x.router fd, loop := .firstRebuild }
    | _ => none
  | .loopSection => loopSection x
  | .epollError =>
    match x.loop with
    | .wait => some { x with loop := .exited }
    | _ => none
  | .epollWait evs =>
    match x.loop with
    | .wait =>
      if evs.length ≤ 10 ∧ ∀ ev ∈ evs, ev.fd ∈ x.router.epollFds then
        some { x with loop := .events evs }
      else none
    | _ => none
  | .recvReturn res =>
    match x.loop with
    | .recv _ ev evs => some (if res < 0 then { x with loop := .events evs } else handleHup x ev evs)
    | _ => none
  | .addRoute4 ip4 mask t =>
    match x.removing with
    | .idle => some { x with router := addRoute4 x.router ip4 mask t }
    | _ => none
  | .defaultRoute4 t =>
    match x.removing with
    | .idle => some { x with router := defaultRoute4 x.router t }
    | _ => none
  | .removeRoute4 ip4 mask =>
    match x.removing with
    | .idle => some { x with router := removeRoute4 x.router ip4 mask }
    | _ => none
  | .pauseRouterLoop paused =>
    match x.removing with
    | .idle => some { x with router := routerPause x.router paused }
    | _ => none
  | .terminateRouterLoop =>
    match x.removing with
    | .idle => some { x with router := ConfProfile.terminateRouterLoop x.router }
    | _ => none
  | .removeGet t =>
    match x.removing with
    | .idle => some { x with router := x.router.refGet t, removing := .got t }
    | _ => none
  | .removeUnroute =>
    match x.removing with
    | .got t => some { x with router := unroute x.router t, removing := .unrouted t }
    | _ => none
  | .removeRebuild =>
    match x.removing with
    | .unrouted t => (lockedRebuild x).map fun x => { x with removing := .rebuilt t }
    | _ => none
  | .removePut =>
    match x.removing with
    | .rebuilt t => some { x with router := x.router.refPut t, removing := .idle }
    | _ => none
  | .deinit t =>
    match x.removing with
    | .idle =>
      if 0 < x.owner t then
        some
          { x with
            router := x.router.refPut t, owner := Function.update x.owner t (x.owner t - 1) }
      else none
    | _ => none

/-- A new router and tunnels that only their owners refer to. -/
def loopInit (mem : RouterCtx) (dev : TunPtr) (owner : TunPtr → Nat) (localFd : TunPtr → Int) :
    LoopSys where
  router := routerInit mem dev ⟨fun t => owner t, fun _ => false⟩ localFd
  loop := .start
  doRebuild := false
  removing := .idle
  owner := Function.update owner dev 1
  leaked := fun _ => 0

/-! ## What a step can do -/

/-- The steps, one constructor for each way through. -/
inductive SysStep (x : LoopSys) : Act → LoopSys → Prop where
  | routerLoopFails {fd} (hpc : x.loop = .start) :
      SysStep x (.routerLoop fd) { x with loop := .exited }
  | routerLoop {fd} (hpc : x.loop = .start) :
      SysStep x (.routerLoop fd)
        { x with router := setTunDevTunFd x.router fd, loop := .firstRebuild }
  | loopSection {x'} (hs : loopSection x = some x') : SysStep x .loopSection x'
  | epollError (hpc : x.loop = .wait) : SysStep x .epollError { x with loop := .exited }
  | epollWait {evs} (hpc : x.loop = .wait) :
      SysStep x (.epollWait evs) { x with loop := .events evs }
  | recvFails {res t ev evs} (hpc : x.loop = .recv t ev evs) :
      SysStep x (.recvReturn res) { x with loop := .events evs }
  | recvReturn {res t ev evs} (hpc : x.loop = .recv t ev evs) :
      SysStep x (.recvReturn res) (handleHup x ev evs)
  | addRoute4 {ip4 mask t} (hidle : x.removing = .idle) :
      SysStep x (.addRoute4 ip4 mask t) { x with router := addRoute4 x.router ip4 mask t }
  | defaultRoute4 {t} (hidle : x.removing = .idle) :
      SysStep x (.defaultRoute4 t) { x with router := defaultRoute4 x.router t }
  | removeRoute4 {ip4 mask} (hidle : x.removing = .idle) :
      SysStep x (.removeRoute4 ip4 mask) { x with router := removeRoute4 x.router ip4 mask }
  | pauseRouterLoop {paused} (hidle : x.removing = .idle) :
      SysStep x (.pauseRouterLoop paused) { x with router := routerPause x.router paused }
  | terminateRouterLoop (hidle : x.removing = .idle) :
      SysStep x .terminateRouterLoop
        { x with router := ConfProfile.terminateRouterLoop x.router }
  | removeGet {t} (hidle : x.removing = .idle) :
      SysStep x (.removeGet t) { x with router := x.router.refGet t, removing := .got t }
  | removeUnroute {t} (hgot : x.removing = .got t) :
      SysStep x .removeUnroute { x with router := unroute x.router t, removing := .unrouted t }
  | removeRebuild {t y} (hun : x.removing = .unrouted t) (hy : lockedRebuild x = some y) :
      SysStep x .removeRebuild { y with removing := .rebuilt t }
  | removePut {t} (hre : x.removing = .rebuilt t) :
      SysStep x .removePut { x with router := x.router.refPut t, removing := .idle }
  | deinit {t} (hidle : x.removing = .idle) (hpos : 0 < x.owner t) :
      SysStep x (.deinit t) { x with
        router := x.router.refPut t, owner := Function.update x.owner t (x.owner t - 1) }

/-- Every step is one of `SysStep`. -/
theorem sysStep_cases {x x' : LoopSys} {a : Act} (hs : sysStep x a = some x') :
    SysStep x a x' := by
  cases a with
  | loopSection => exact .loopSection hs
  | routerLoop fd =>
    simp only [sysStep] at hs
    split at hs
    next hpc =>
      split at hs
      · obtain rfl := Option.some.inj hs
        exact .routerLoopFails hpc
      · obtain rfl := Option.some.inj hs
        exact .routerLoop hpc
    next => cases hs
  | epollError =>
    simp only [sysStep] at hs
    split at hs
    next hpc =>
      obtain rfl := Option.some.inj hs
      exact .epollError hpc
    next => cases hs
  | epollWait evs =>
    simp only [sysStep] at hs
    split at hs
    next hpc =>
      split at hs
      · obtain rfl := Option.some.inj hs
        exact .epollWait hpc
      · cases hs
    next => cases hs
  | recvReturn res =>
    simp only [sysStep] at hs
    split at hs
    next hpc =>
      obtain rfl := Option.some.inj hs
      split
      · exact .recvFails hpc
      · exact .recvReturn hpc
    next => cases hs
  | removeUnroute =>
    simp only [sysStep] at hs
    split at hs
    next hgot =>
      obtain rfl := Option.some.inj hs
      exact .removeUnroute hgot
    next => cases hs
  | removeRebuild =>
    simp only [sysStep] at hs
    split at hs
    next hun =>
      obtain ⟨y, hy, rfl⟩ := Option.map_eq_some_iff.mp hs
      exact .removeRebuild hun hy
    next => cases hs
  | removePut =>
    simp only [sysStep] at hs
    split at hs
    next hre =>
      obtain rfl := Option.some.inj hs
      exact .removePut hre
    next => cases hs
  | deinit t =>
    simp only [sysStep] at hs
    split at hs
    next hidle =>
      split at hs
      next hpos =>
        obtain rfl := Option.some.inj hs
        exact .deinit hidle hpos
      next => cases hs
    next => cases hs
  | _ =>
    -- the calls of the other thread that need it idle
    simp only [sysStep] at hs
    split at hs
    next hidle =>
      obtain rfl := Option.some.inj hs
      constructor
      exact hidle
    next => cases hs

/-! ## The account of the references -/

/-- The references that are held outside the router. -/
def LoopSys.outside (x : LoopSys) (t : TunPtr) : Int := x.owner t + x.removing.holds.count t

/-- The slots have their shape, and every counter is its holders and what was
leaked, less what the context's memory pretended to hold. -/
structure LoopInv (mem : RouterCtx) (x : LoopSys) : Prop where
  shaped : Shaped x.router.toRouterCtx
  account : ∀ t, excess x.outside x.router t = x.leaked t - mem.strayTuns.count t

variable {mem : RouterCtx} {x x' : LoopSys}

theorem loopInv_init (mem : RouterCtx) (dev : TunPtr) (owner : TunPtr → Nat)
    (localFd : TunPtr → Int) : LoopInv mem (loopInit mem dev owner localFd) := by
  refine ⟨shaped_routerInit _ _ _ _, fun t => ?_⟩
  have hout : (loopInit mem dev owner localFd).outside
      = Function.update (fun t => (owner t : Int)) dev 1 := by
    funext u
    show ((Function.update owner dev 1 u : Nat) : Int) + ((0 : Nat) : Int) = _
    by_cases hu : u = dev
    · subst hu
      simp
    · rw [Function.update_of_ne hu, Function.update_of_ne hu]
      simp
  rw [hout]
  show excess _ (routerInit mem dev ⟨fun t => owner t, fun _ => false⟩ localFd) t
    = ((0 : Nat) : Int) - _
  rw [excess_routerInit mem dev ⟨fun t => owner t, fun _ => false⟩ localFd t]
  omega

/-- A step that changes neither references nor their holders. -/
theorem LoopInv.of_same (h : LoopInv mem x) (hshaped : Shaped x'.router.toRouterCtx)
    (hout : x'.outside = x.outside)
    (hexcess : ∀ t, excess x.outside x'.router t = excess x.outside x.router t)
    (hleaked : x'.leaked = x.leaked) : LoopInv mem x' := by
  refine ⟨hshaped, fun t => ?_⟩
  rw [hout, hexcess, h.account, hleaked]

/-- A step of the loop alone. -/
theorem LoopInv.of_pc (h : LoopInv mem x) (pc : LoopPc) (b : Bool) :
    LoopInv mem { x with loop := pc, doRebuild := b } :=
  ⟨h.shaped, h.account⟩

theorem loopInv_lockedRebuild (h : LoopInv mem x) (hr : lockedRebuild x = some x') :
    LoopInv mem x' := by
  unfold lockedRebuild at hr
  rw [Option.map_eq_some_iff] at hr
  obtain ⟨s, hs, rfl⟩ := hr
  refine ⟨shaped_step h.shaped (show step x.router .rebuildEpollStruct = some s from hs),
    fun t => ?_⟩
  have hacc := h.account t
  show excess x.outside s t = ((if Leaks x.router then _ else _ : Nat) : Int) - _
  rcases @excess_rebuild x.outside x.router s h.shaped hs t with ⟨hleak, he⟩ | ⟨hleak, he⟩
  · rw [if_neg hleak, he, hacc]
  · rw [if_pos hleak, he, hacc]
    push_cast
    ring

theorem loopInv_handleHup (h : LoopInv mem x) (ev : EpollEvent) (evs : List EpollEvent) :
    LoopInv mem (handleHup x ev evs) := by
  unfold handleHup
  split
  · split
    · exact ⟨⟨h.shaped.length, h.shaped.band⟩, h.account⟩
    · exact ⟨h.shaped, h.account⟩
  · exact ⟨h.shaped, h.account⟩

theorem loopInv_loopSection (h : LoopInv mem x) (hs : loopSection x = some x') :
    LoopInv mem x' := by
  unfold loopSection at hs
  split at hs
  · obtain ⟨y, hy, rfl⟩ := Option.map_eq_some_iff.mp hs
    exact (loopInv_lockedRebuild h hy).of_pc .top y.doRebuild
  · obtain rfl := Option.some.inj hs
    split
    · exact h
    · exact h.of_pc .rebuild x.doRebuild
  · split at hs
    · obtain ⟨y, hy, rfl⟩ := Option.map_eq_some_iff.mp hs
      exact (loopInv_lockedRebuild h hy).of_pc .check false
    · obtain rfl := Option.some.inj hs
      exact h.of_pc .check x.doRebuild
  · obtain rfl := Option.some.inj hs
    split
    · exact h.of_pc .top true
    · exact h.of_pc .wait x.doRebuild
  · obtain rfl := Option.some.inj hs
    exact h.of_pc _ x.doRebuild
  next ev evs hl =>
    split at hs
    · split at hs
      · obtain rfl := Option.some.inj hs
        exact h.of_pc _ x.doRebuild
      · obtain rfl := Option.some.inj hs
        exact h.of_pc _ x.doRebuild
    · obtain rfl := Option.some.inj hs
      exact loopInv_handleHup h ev evs
  · cases hs

/-- Every step of either thread keeps the account. -/
theorem loopInv_step {a : Act} (h : LoopInv mem x) (hs : sysStep x a = some x') :
    LoopInv mem x' := by
  cases sysStep_cases hs with
  | routerLoopFails _ | epollError _ | epollWait _ | recvFails _ => exact h.of_pc _ x.doRebuild
  | routerLoop _ | pauseRouterLoop _ | terminateRouterLoop _ =>
    exact ⟨⟨h.shaped.length, h.shaped.band⟩, h.account⟩
  | loopSection hs => exact loopInv_loopSection h hs
  | @recvReturn res t ev evs hpc => exact loopInv_handleHup h ev evs
  | @addRoute4 ip4 mask u hidle =>
    exact h.of_same (shaped_addRoute4 h.shaped ip4 mask u) rfl
      (fun t => excess_addRoute4 x.router ip4 mask u t) rfl
  | @defaultRoute4 u hidle =>
    exact h.of_same (shaped_defaultRoute4 h.shaped u) rfl
      (fun t => excess_defaultRoute4 x.router u t) rfl
  | @removeRoute4 ip4 mask hidle =>
    exact h.of_same (shaped_removeRoute4 h.shaped ip4 mask) rfl
      (fun t => excess_unroute4 x.router ip4 mask t) rfl
  | @removeGet u hidle =>
    refine ⟨⟨h.shaped.length, h.shaped.band⟩, fun t => ?_⟩
    have hacc := h.account t
    have hget : excess x.outside (x.router.refGet u) t = _ := excess_refGet x.router u t
    -- the new reference has its holder, the call
    unfold excess holders LoopSys.outside at hacc hget ⊢
    rw [hidle] at hacc hget
    simp only [RemovePc.holds, List.count_nil] at hacc hget ⊢
    omega
  | @removeUnroute u hgot =>
    refine h.of_same (shaped_unroute h.shaped u) ?_ (fun t => excess_unroute x.router u t) rfl
    funext t
    unfold LoopSys.outside
    rw [hgot]
    rfl
  | @removeRebuild u y hun hy =>
    have hinv := loopInv_lockedRebuild h hy
    have hsame : y.removing = x.removing := by
      unfold lockedRebuild at hy
      obtain ⟨s, -, rfl⟩ := Option.map_eq_some_iff.mp hy
      rfl
    refine hinv.of_same hinv.shaped ?_ (fun _ => rfl) rfl
    funext t
    unfold LoopSys.outside
    rw [hsame, hun]
    rfl
  | @removePut u hre =>
    refine ⟨⟨h.shaped.length, h.shaped.band⟩, fun t => ?_⟩
    have hacc := h.account t
    have hput : excess x.outside (x.router.refPut u) t = _ := excess_refPut x.router u t
    unfold excess holders LoopSys.outside at hacc hput ⊢
    rw [hre] at hacc hput
    simp only [RemovePc.holds, List.count_nil] at hacc hput ⊢
    omega
  | @deinit u hidle hpos =>
    refine ⟨⟨h.shaped.length, h.shaped.band⟩, fun t => ?_⟩
    have hacc := h.account t
    have hput : excess x.outside (x.router.refPut u) t = _ := excess_refPut x.router u t
    -- the owner's reference goes with the owner
    have howner : ((Function.update x.owner u (x.owner u - 1) t : Nat) : Int)
        = x.owner t - [u].count t := by
      by_cases ht : t = u
      · subst ht
        simp
        omega
      · simp [Function.update_of_ne ht, Ne.symm ht]
    unfold excess holders LoopSys.outside at hacc hput ⊢
    rw [hidle] at hacc hput
    simp only [hidle, RemovePc.holds, List.count_nil] at hacc hput ⊢
    omega

/-! ## The tunnel in `recv` -/

/-- The tunnel that the loop is in `recv` on has a reference. -/
def RecvSafe (x : LoopSys) : Prop :=
  ∀ t ev evs, x.loop = .recv t ev evs → 0 < x.router.refs.refCount t

/-- The holders of a tunnel: its owner, the `removeTunnel` in progress, the routes,
defaults and slots, and the rebuilds that leaked a reference. -/
def LoopSys.holders (x : LoopSys) (t : TunPtr) : Nat :=
  x.owner t + x.removing.holds.count t + (held x.router.toRouterCtx).count t + x.leaked t

/-- What a step of the other thread puts of a tunnel, less what it takes. -/
def LoopSys.puts (x : LoopSys) (t : TunPtr) : Act → Int
  | .addRoute4 ip4 mask u =>
    (overwritten (route4Link ip4 mask u) x.router.ip4Routes).toList.count t - [u].count t
  | .defaultRoute4 u => x.router.ip4DefaultTunCtx.toList.count t - [u].count t
  | .removeRoute4 ip4 _ => (takenOut ip4 x.router.ip4Routes).toList.count t
  | .removeGet u => -[u].count t
  | .removeUnroute =>
    match x.removing with
    | .got u => (List.replicate (x.router.scanned.count u) u).count t
    | _ => 0
  | .removeRebuild => rebuildPuts x.router t
  | .removePut =>
    match x.removing with
    | .rebuilt u => [u].count t
    | _ => 0
  | .deinit u => [u].count t
  | _ => 0

/-- By the account, the counter is the number of holders, less the entries that
the memory of the context pretended to hold. -/
theorem LoopInv.refCount_eq (h : LoopInv mem x) (t : TunPtr) :
    x.router.refs.refCount t = x.holders t - mem.strayTuns.count t := by
  have hacc := h.account t
  unfold excess ConfProfile.holders LoopSys.outside at hacc
  unfold LoopSys.holders
  push_cast
  omega

/-- The condition on a step and the state before it: while the loop is in `recv` on
a tunnel, the step puts fewer references than it has holders, and a tunnel that
the loop finds has a holder; both beyond the entries that the memory of the
context pretended to hold. -/
structure KeepsHolder (mem : RouterCtx) (x : LoopSys) (a : Act) : Prop where
  during : ∀ t ev evs, x.loop = .recv t ev evs → (∀ res, a ≠ .recvReturn res) →
    mem.strayTuns.count t + x.puts t a < x.holders t
  found : ∀ t ev evs, x.loop = .events (ev :: evs) → ev.epollin = true → a = .loopSection →
    findLink ev.fd x.router.epollLinksCount x.router.epollLinks = some t →
      mem.strayTuns.count t < x.holders t

/-- The owners wait for the loop: no owner puts its last reference while the loop
is in `recv` on the tunnel, and the loop finds no tunnel whose owner did. -/
structure OwnersWait (x : LoopSys) (a : Act) : Prop where
  deinit : ∀ t ev evs, x.loop = .recv t ev evs → a = .deinit t → 2 ≤ x.owner t
  found : ∀ t ev evs, x.loop = .events (ev :: evs) → a = .loopSection →
    findLink ev.fd x.router.epollLinksCount x.router.epollLinks = some t → 0 < x.owner t

theorem lockedRebuild_loop (h : lockedRebuild x = some x') :
    x'.loop = x.loop ∧ x'.owner = x.owner := by
  unfold lockedRebuild at h
  obtain ⟨s, -, rfl⟩ := Option.map_eq_some_iff.mp h
  exact ⟨rfl, rfl⟩

theorem handleHup_loop (x : LoopSys) (ev : EpollEvent) (evs : List EpollEvent) :
    ((handleHup x ev evs).loop = .events evs ∨ (handleHup x ev evs).loop = .exited) ∧
      (handleHup x ev evs).owner = x.owner := by
  unfold handleHup
  split
  · split
    · exact ⟨Or.inl rfl, rfl⟩
    · exact ⟨Or.inr rfl, rfl⟩
  · exact ⟨Or.inl rfl, rfl⟩

/-- The loop gets into `recv` by finding the tunnel, and its sections leave the
owners alone. -/
theorem loopSection_recv (h : loopSection x = some x') :
    x'.owner = x.owner ∧ ∀ t ev evs, x'.loop = .recv t ev evs →
      x.loop = .events (ev :: evs) ∧ ev.epollin = true ∧ x'.router = x.router ∧
        findLink ev.fd x.router.epollLinksCount x.router.epollLinks = some t := by
  unfold loopSection at h
  split at h
  · obtain ⟨y, hy, rfl⟩ := Option.map_eq_some_iff.mp h
    exact ⟨(lockedRebuild_loop hy).2, fun t ev evs he => nomatch he⟩
  next hl =>
    obtain rfl := Option.some.inj h
    split
    · exact ⟨rfl, fun t ev evs he => nomatch hl.symm.trans he⟩
    · exact ⟨rfl, fun t ev evs he => nomatch he⟩
  · split at h
    · obtain ⟨y, hy, rfl⟩ := Option.map_eq_some_iff.mp h
      exact ⟨(lockedRebuild_loop hy).2, fun t ev evs he => nomatch he⟩
    · obtain rfl := Option.some.inj h
      exact ⟨rfl, fun t ev evs he => nomatch he⟩
  · obtain rfl := Option.some.inj h
    split
    · exact ⟨rfl, fun t ev evs he => nomatch he⟩
    · exact ⟨rfl, fun t ev evs he => nomatch he⟩
  · obtain rfl := Option.some.inj h
    refine ⟨rfl, fun t ev evs he => ?_⟩
    split at he
    · cases he
    · cases he
  next ev evs hl =>
    split at h
    next hin =>
      split at h
      · obtain rfl := Option.some.inj h
        exact ⟨rfl, fun t ev evs he => nomatch he⟩
      next t hfind =>
        obtain rfl := Option.some.inj h
        refine ⟨rfl, fun u ev' evs' he => ?_⟩
        injection he with hu hev hevs
        subst hu hev hevs
        exact ⟨hl, hin, rfl, hfind⟩
    · obtain rfl := Option.some.inj h
      obtain ⟨hpc, howner⟩ := handleHup_loop x ev evs
      refine ⟨howner, fun t ev' evs' he => ?_⟩
      rcases hpc with hpc | hpc
      · cases hpc.symm.trans he
      · cases hpc.symm.trans he
  · cases h

/-- Only a `deinit` changes what the owners hold. -/
theorem sysStep_owner {a : Act} (hs : sysStep x a = some x') (ha : ∀ t, a ≠ .deinit t) :
    x'.owner = x.owner := by
  cases sysStep_cases hs with
  | @deinit t hidle hpos => exact absurd rfl (ha t)
  | loopSection hs => exact (loopSection_recv hs).1
  | @recvReturn res t ev evs hpc => exact (handleHup_loop x ev evs).2
  | removeRebuild hun hy => exact (lockedRebuild_loop hy).2
  | _ => rfl

/-- The loop is in `recv` because it has been, or because it has just found the
tunnel. -/
theorem sysStep_recv {a : Act} (hs : sysStep x a = some x') {t : TunPtr} {ev : EpollEvent}
    {evs : List EpollEvent} (h : x'.loop = .recv t ev evs) :
    (x.loop = .recv t ev evs ∧ ∀ res, a ≠ .recvReturn res) ∨
      (a = .loopSection ∧ x.loop = .events (ev :: evs) ∧ ev.epollin = true ∧
        x'.router = x.router ∧
        findLink ev.fd x.router.epollLinksCount x.router.epollLinks = some t) := by
  cases sysStep_cases hs with
  | routerLoopFails _ | routerLoop _ | epollError _ | epollWait _ | recvFails _ => cases h
  | loopSection hs => exact Or.inr ⟨rfl, (loopSection_recv hs).2 t ev evs h⟩
  | @recvReturn res u ev' evs' hpc =>
    rcases (handleHup_loop x ev' evs').1 with hpc | hpc
    · cases hpc.symm.trans h
    · cases hpc.symm.trans h
  | removeRebuild hun hy =>
    exact Or.inl ⟨(lockedRebuild_loop hy).1.symm.trans h, fun res he => nomatch he⟩
  | _ => exact Or.inl ⟨h, fun res he => nomatch he⟩

/-- While the loop is in `recv` it stays there until `recv` returns, and every
counter moves by what the other thread puts and takes. -/
theorem refCount_during_recv {a : Act} (hinv : LoopInv mem x) (hs : sysStep x a = some x')
    {t : TunPtr} {ev : EpollEvent} {evs : List EpollEvent} (h : x.loop = .recv t ev evs)
    (ha : ∀ res, a ≠ .recvReturn res) :
    x'.loop = .recv t ev evs ∧
      x'.router.refs.refCount t = x.router.refs.refCount t - x.puts t a := by
  cases sysStep_cases hs with
  | routerLoopFails hpc | routerLoop hpc | epollError hpc | epollWait hpc => cases hpc.symm.trans h
  | loopSection hs => simp [loopSection, h] at hs
  | recvFails _ | recvReturn _ => exact absurd rfl (ha _)
  | @addRoute4 ip4 mask u hidle => exact ⟨h, refCount_addRoute4 x.router ip4 mask u t⟩
  | @defaultRoute4 u hidle => exact ⟨h, refCount_defaultRoute4 x.router u t⟩
  | @removeRoute4 ip4 mask hidle => exact ⟨h, refCount_unroute4 x.router ip4 mask t⟩
  | pauseRouterLoop _ | terminateRouterLoop _ => exact ⟨h, (sub_zero _).symm⟩
  | removeGet hidle =>
    refine ⟨h, (Refs.refCount_refGet _ _ _).trans ?_⟩
    unfold LoopSys.puts
    ring
  | @removeUnroute u hgot =>
    refine ⟨h, (refCount_unroute x.router u t).trans ?_⟩
    simp only [LoopSys.puts, hgot]
  | removeRebuild hun hy =>
    refine ⟨(lockedRebuild_loop hy).1.trans h, ?_⟩
    unfold lockedRebuild at hy
    obtain ⟨s, hs', rfl⟩ := Option.map_eq_some_iff.mp hy
    exact refCount_rebuild hinv.shaped hs' t
  | @removePut u hre =>
    refine ⟨h, (Refs.refCount_refPut _ _ _).trans ?_⟩
    simp only [LoopSys.puts, hre]
  | deinit hidle hpos => exact ⟨h, Refs.refCount_refPut _ _ _⟩

/-- A tunnel that the loop found is in `recv` after the section. -/
theorem loopSection_found {t : TunPtr} {ev : EpollEvent} {evs : List EpollEvent}
    (hs : sysStep x .loopSection = some x') (hl : x.loop = .events (ev :: evs))
    (hin : ev.epollin = true)
    (hfind : findLink ev.fd x.router.epollLinksCount x.router.epollLinks = some t) :
    x' = { x with loop := .recv t ev evs } := by
  simpa [sysStep, loopSection, hl, hin, hfind] using hs.symm

/-- A step keeps the tunnel in `recv` referenced exactly if it meets the condition. -/
theorem recvSafe_step_iff {a : Act} (hinv : LoopInv mem x) (hs : sysStep x a = some x') :
    RecvSafe x' ↔ KeepsHolder mem x a := by
  refine ⟨?_, ?_⟩
  · refine fun hsafe => ⟨fun t ev evs hl ha => ?_, fun t ev evs hl hin ha hfind => ?_⟩
    · obtain ⟨hl', hcount⟩ := refCount_during_recv hinv hs hl ha
      have hpos := hsafe t ev evs hl'
      rw [hcount, hinv.refCount_eq] at hpos
      omega
    · subst ha
      obtain rfl := loopSection_found hs hl hin hfind
      have hpos := hsafe t ev evs rfl
      have heq := hinv.refCount_eq t
      show mem.strayTuns.count t < x.holders t
      change 0 < x.router.refs.refCount t at hpos
      omega
  · intro hkeep t ev evs hl'
    rcases sysStep_recv hs hl' with ⟨hl, ha⟩ | ⟨ha, hl, hin, hrouter, hfind⟩
    · have hlt := hkeep.during t ev evs hl ha
      rw [(refCount_during_recv hinv hs hl ha).2, hinv.refCount_eq]
      omega
    · have hlt := hkeep.found t ev evs hl hin ha hfind
      rw [hrouter, hinv.refCount_eq]
      omega

/-! ## Runs -/

/-- In every interleaving, the tunnel in `recv` always has a positive counter
exactly if no step puts as many of its references as it has holders, and every
tunnel found has one. -/
theorem recv_refCount_along_iff (mem : RouterCtx) (dev : TunPtr) (owner : TunPtr → Nat)
    (localFd : TunPtr → Int) (acts : List Act) :
    Along sysStep (fun _ _ x' => RecvSafe x') (loopInit mem dev owner localFd) acts ↔
      Along sysStep (fun x a _ => KeepsHolder mem x a) (loopInit mem dev owner localFd) acts :=
  along_congr (I := LoopInv mem) (fun _ _ _ h _ hs => loopInv_step h hs)
    (fun _ _ _ h _ hs => recvSafe_step_iff h hs) acts
    (loopInv_init mem dev owner localFd) (guarded_true _ acts)

/-- The owner of the tunnel in `recv` holds it. -/
def RecvOwned (x : LoopSys) : Prop := ∀ t ev evs, x.loop = .recv t ev evs → 0 < x.owner t

theorem recvOwned_step {a : Act} (hP : RecvOwned x) (hc : OwnersWait x a)
    (hs : sysStep x a = some x') : RecvOwned x' := by
  intro t ev evs he
  rcases sysStep_recv hs he with ⟨hl, -⟩ | ⟨rfl, hl, -, -, hfind⟩
  · by_cases ha : ∀ u, a ≠ .deinit u
    · rw [sysStep_owner hs ha]
      exact hP t ev evs hl
    · simp only [not_forall, not_not] at ha
      obtain ⟨u, rfl⟩ := ha
      cases sysStep_cases hs with
      | deinit hidle hpos =>
        show 0 < Function.update x.owner u (x.owner u - 1) t
        by_cases ht : t = u
        · subst ht
          have htwo := hc.deinit t ev evs hl rfl
          rw [Function.update_self]
          omega
        · rw [Function.update_of_ne ht]
          exact hP t ev evs hl
  · rw [sysStep_owner hs (fun u he => nomatch he)]
    exact hc.found t ev evs hl rfl hfind

/-- On memory that held no pointer, the tunnel in `recv` keeps a reference wherever
the owners wait for the loop. -/
theorem recv_refCount_of_ownersWait {mem : RouterCtx} (hmem : mem.strayTuns = []) (dev : TunPtr)
    (owner : TunPtr → Nat) (localFd : TunPtr → Int) (acts : List Act)
    (hwait : Along sysStep (fun x a _ => OwnersWait x a) (loopInit mem dev owner localFd) acts) :
    Along sysStep (fun _ _ x' => RecvSafe x') (loopInit mem dev owner localFd) acts := by
  have hstart : RecvOwned (loopInit mem dev owner localFd) := fun t ev evs he => nomatch he
  have hrun := along_of_cond (P := fun x => LoopInv mem x ∧ RecvOwned x) (c := OwnersWait)
    (fun x a x' hP hc hs => ⟨loopInv_step hP.1 hs, recvOwned_step hP.2 hc hs⟩) acts
    ⟨loopInv_init mem dev owner localFd, hstart⟩ hwait
  refine along_mono (fun x a x' hP t ev evs he => ?_) acts hrun
  have hpos := hP.2 t ev evs he
  rw [hP.1.refCount_eq, hmem, List.count_nil]
  unfold LoopSys.holders
  omega

/-- The interleaving that the counterexample runs: the loop polls dev and tunnel
1, finds tunnel 1 ready and calls `recv` on it, and the other thread removes the
tunnel and puts the owner's reference. -/
def raceActs : List Act :=
  [.routerLoop 7, .loopSection, .addRoute4 0x0A000000#32 8 1,
    .loopSection, .loopSection, .loopSection, .loopSection, .loopSection, .loopSection,
    .epollWait [⟨11, true, false⟩], .loopSection,
    .removeGet 1, .removeUnroute, .removeRebuild, .removePut, .deinit 1]

/-- The loop is still in `recv` on tunnel 1 when its last reference goes and it is
destroyed. -/
theorem recv_refCount_counterexample :
    ∃ x, run sysStep (loopInit .zeroed 0 (fun _ => 1) fun t => 10 + t) raceActs = some x ∧
      (∃ ev evs, x.loop = .recv 1 ev evs) ∧ x.router.refs.refCount 1 = 0 ∧
      x.router.refs.destroyed 1 = true ∧ ¬ RecvSafe x := by
  refine ⟨_, rfl, ⟨_, _, rfl⟩, by decide, by decide, fun h => ?_⟩
  exact absurd (h 1 _ _ rfl) (by decide)

end ConfProfile
