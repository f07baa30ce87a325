import ConfProfile.Router.RefCount

/-!
# The native methods of `RouterLoop` (`jni_RouterLoop.c`)

What Java calls. `addRoute4`, `defaultRoute4` and `removeTunnel` hold a reference
of their own to the tunnel while they work, `removeRoute4` needs none.
`removeTunnel` is the only one of them that makes several lock-held sections;
the sequence is given here, its interleavings are the subject of
`ConfProfile.Router.Loop`. (The NULL checks have no counterpart, and what
`setRouterContext` stores is read by the tunnels only.)
-/

namespace ConfProfile

/-- `ref_get` on a tunnel. -/
def Router.refGet (s : Router) (t : TunPtr) : Router := { s with refs := s.refs.refGet t }

/-- `ref_put` on a tunnel. -/
def Router.refPut (s : Router) (t : TunPtr) : Router := { s with refs := s.refs.refPut t }

/-- `RouterLoop.addRoute4`. -/
def addRoute4 (s : Router) (ip4 : BitVec 32) (mask : Nat) (t : TunPtr) : Router :=
  (route4 (s.refGet t) ip4 mask t).refPut t

/-- `RouterLoop.defaultRoute4`. -/
def defaultRoute4 (s : Router) (t : TunPtr) : Router := (default4 (s.refGet t) t).refPut t

/-- `RouterLoop.removeRoute4`. -/
def removeRoute4 (s : Router) (ip4 : BitVec 32) (mask : Nat) : Router := unroute4 s ip4 mask

/-- `RouterLoop.removeTunnel`; `none` if the rebuild does not return. -/
def removeTunnel (s : Router) (t : TunPtr) : Option Router :=
  (rebuildEpollStruct (unroute (s.refGet t) t)).map fun s => s.refPut t

/-- `RouterLoop.pauseRouterLoop`. -/
def routerPause (s : Router) (paused : Bool) : Router := { s with paused := paused }

/-- `RouterLoop.terminateRouterLoop`. -/
def terminateRouterLoop (s : Router) : Router := { s with terminate := true }

variable {owner : TunPtr → Int}

theorem excess_refGet (s : Router) (u t : TunPtr) :
    excess owner (s.refGet u) t = excess owner s t + [u].count t := by
  unfold excess Router.refGet
  show (s.refs.refGet u).refCount t - holders owner s.toRouterCtx t = _
  rw [Refs.refCount_refGet]
  ring

theorem excess_refPut (s : Router) (u t : TunPtr) :
    excess owner (s.refPut u) t = excess owner s t - [u].count t := by
  unfold excess Router.refPut
  show (s.refs.refPut u).refCount t - holders owner s.toRouterCtx t = _
  rw [Refs.refCount_refPut]
  ring

/-- The reference of the call itself comes and goes. -/
theorem excess_addRoute4 (s : Router) (ip4 : BitVec 32) (mask : Nat) (u t : TunPtr) :
    excess owner (addRoute4 s ip4 mask u) t = excess owner s t := by
  unfold addRoute4
  rw [excess_refPut, excess_route4, excess_refGet]
  ring

theorem excess_defaultRoute4 (s : Router) (u t : TunPtr) :
    excess owner (defaultRoute4 s u) t = excess owner s t := by
  unfold defaultRoute4
  rw [excess_refPut, excess_default4, excess_refGet]
  ring

theorem refCount_addRoute4 (s : Router) (ip4 : BitVec 32) (mask : Nat) (u t : TunPtr) :
    (addRoute4 s ip4 mask u).refs.refCount t = s.refs.refCount t
      - ((overwritten (route4Link ip4 mask u) s.ip4Routes).toList.count t - [u].count t) := by
  have hroute : (route4 (s.refGet u) ip4 mask u).refs.refCount t
      = (s.refs.refGet u).refCount t + [u].count t
        - (overwritten (route4Link ip4 mask u) s.ip4Routes).toList.count t :=
    refCount_route4 (s.refGet u) ip4 mask u t
  show ((route4 (s.refGet u) ip4 mask u).refs.refPut u).refCount t = _
  rw [Refs.refCount_refPut, hroute, Refs.refCount_refGet]
  ring

theorem refCount_defaultRoute4 (s : Router) (u t : TunPtr) :
    (defaultRoute4 s u).refs.refCount t = s.refs.refCount t
      - (s.ip4DefaultTunCtx.toList.count t - [u].count t) := by
  have hdefault : (default4 (s.refGet u) u).refs.refCount t
      = (s.refs.refGet u).refCount t + [u].count t - s.ip4DefaultTunCtx.toList.count t :=
    refCount_default4 (s.refGet u) u t
  show ((default4 (s.refGet u) u).refs.refPut u).refCount t = _
  rw [Refs.refCount_refPut, hdefault, Refs.refCount_refGet]
  ring

theorem shaped_addRoute4 {s : Router} (h : Shaped s.toRouterCtx) (ip4 : BitVec 32) (mask : Nat)
    (t : TunPtr) : Shaped (addRoute4 s ip4 mask t).toRouterCtx := by
  have hget : Shaped (s.refGet t).toRouterCtx := ⟨h.length, h.band⟩
  have hroute : Shaped (route4 (s.refGet t) ip4 mask t).toRouterCtx :=
    shaped_step hget (show step (s.refGet t) (.route4 ip4 mask t) = some _ from rfl)
  exact ⟨hroute.length, hroute.band⟩

theorem shaped_unroute {s : Router} (h : Shaped s.toRouterCtx) (t : TunPtr) :
    Shaped (unroute s t).toRouterCtx :=
  shaped_step h (show step s (.unroute t) = some _ from rfl)

theorem shaped_defaultRoute4 {s : Router} (h : Shaped s.toRouterCtx) (t : TunPtr) :
    Shaped (defaultRoute4 s t).toRouterCtx := ⟨h.length, h.band⟩

theorem shaped_removeRoute4 {s : Router} (h : Shaped s.toRouterCtx) (ip4 : BitVec 32)
    (mask : Nat) : Shaped (removeRoute4 s ip4 mask).toRouterCtx :=
  shaped_step h (show step s (.unroute4 ip4 mask) = some _ from rfl)

end ConfProfile
