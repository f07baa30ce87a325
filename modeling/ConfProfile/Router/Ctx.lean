import ConfProfile.Refs
import ConfProfile.Lib.NetPrefix
import Mathlib.Data.Finset.Basic

/-!
# The router context (`ocpa/router.h`, `router_init`)

`RouterCtx` is `router_ctx_t` field by field, as far as the router's functions
read and write it, and `Router` adds what lives outside that struct: the
reference counters and local descriptors of the tunnel contexts, and the set of
descriptors the kernel watches for the epoll instance.

The linked lists are `List`s in link order and `epoll_links` is the `List` of
the array's slots, so that its length is the allocated capacity. A `tun_ctx_t*`
is an address (`TunPtr`); NULL is `none` where the source lets the field be
NULL. The lock has no counterpart here: a function of this layer is one
lock-held section. Allocations of a few bytes (a link, the epoll slots)
succeed; the one allocation whose size the source can get wrong is modelled in
`ConfProfile.Router.Epoll`.

`routerInit` starts from the contents of the memory `malloc` returned and
assigns exactly the fields that the source assigns. What it leaves alone, the
IPv6 fields, keeps the old contents.
-/

namespace ConfProfile

open NetPrefix (netOf)

/-- The address of a `tun_ctx_t`. -/
abbrev TunPtr := Nat

/-- `UNDEFINED_FD`. -/
def UNDEFINED_FD : Int := -1

/-- `route4_link_t`. -/
structure Route4Link where
  ip4 : BitVec 32
  mask : Nat
  tunCtx : TunPtr
  deriving DecidableEq, Repr

/-- `route6_link_t`. -/
structure Route6Link where
  ip6 : BitVec 128
  mask : Nat
  tunCtx : TunPtr
  deriving DecidableEq, Repr

/-- `epoll_link_t`, without the event record (always `EPOLLIN` on `fd`). -/
structure EpollLink where
  fd : Int
  tunCtx : Option TunPtr
  deriving DecidableEq, Repr

/-- A slot after `memset(…, 0, …)`. -/
def EpollLink.zero : EpollLink := ⟨0, none⟩

/-- `router_ctx_t`. -/
structure RouterCtx where
  devTunCtx : TunPtr
  ip4Routes : List Route4Link
  ip4RoutesCount : Int
  ip4DefaultTunCtx : Option TunPtr
  ip6Routes : List Route6Link
  ip6RoutesCount : Int
  ip6DefaultTunCtx : Option TunPtr
  epollLinks : List EpollLink
  epollLinksCapacity : Nat
  epollLinksCount : Nat
  routesUpdated : Bool
  paused : Bool
  terminate : Bool

/-- The contents of memory that happens to be all zero. -/
def RouterCtx.zeroed : RouterCtx where
  devTunCtx := 0
  ip4Routes := []
  ip4RoutesCount := 0
  ip4DefaultTunCtx := none
  ip6Routes := []
  ip6RoutesCount := 0
  ip6DefaultTunCtx := none
  epollLinks := []
  epollLinksCapacity := 0
  epollLinksCount := 0
  routesUpdated := false
  paused := false
  terminate := false

/-- A router context with the tunnel contexts and the kernel's interest set. -/
structure Router extends RouterCtx where
  refs : Refs TunPtr
  /-- `getLocalFd` of each tunnel context -/
  localFd : TunPtr → Int
  /-- the descriptors registered in the epoll instance -/
  epollFds : Finset Int

/-- `router_init`, with `mem` the contents of the memory that `malloc` returned
for the context and `dev` the address of the new dev tunnel context, which
starts with one reference and no descriptor. -/
def routerInit (mem : RouterCtx) (dev : TunPtr) (refs : Refs TunPtr) (localFd : TunPtr → Int) :
    Router where
  toRouterCtx :=
    { mem with
      devTunCtx := dev
      ip4Routes := []
      ip4RoutesCount := 0
      ip4DefaultTunCtx := none
      epollLinksCapacity := 4
      epollLinksCount := 0
      epollLinks := List.replicate 4 EpollLink.zero
      routesUpdated := false
      paused := false
      terminate := false }
  refs :=
    { refCount := Function.update refs.refCount dev 1
      destroyed := Function.update refs.destroyed dev false }
  localFd := Function.update localFd dev UNDEFINED_FD
  epollFds := ∅

/-- A new router whose memory was zeroed: the dev tunnel is 0, every other
tunnel `t` is unreferenced and has the descriptor `10 + t`. -/
def freshRouter : Router :=
  routerInit .zeroed 0 ⟨fun _ => 0, fun _ => false⟩ fun t => 10 + t

/-- `set_tun_dev_tun_fd` on the dev tunnel: the router loop, before its first
rebuild, stores the descriptor that the VPN service established. -/
def setTunDevTunFd (s : Router) (fd : Int) : Router :=
  { s with localFd := Function.update s.localFd s.devTunCtx fd }

end ConfProfile
