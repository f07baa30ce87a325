import ConfProfile.Router.RefCount
import ConfProfile.Router.Send4

/-!
# What `router_init` leaves in memory

`router_init` does not assign the IPv6 routes, their counter and the IPv6
default: they keep what the memory of the context held before. No function sets
them up later, and of the operations here only `unroute` reads them. It takes
the tunnel out of whatever it finds there and puts one reference for each find.

Two routers made from different memory are compared call by call (`Alike`): the
same calls return, every packet goes to the same tunnel, and the states are the
same but for the IPv6 fields (`visible`). `alike_iff` says when. The contents of
the memory are taken as fields of the right type here, that is as lists of
links; whatever else the bytes may be, following them is undefined.
-/

namespace ConfProfile

open Run

/-- The state without the IPv6 fields. -/
def visible (s : Router) : Router :=
  { s with ip6Routes := [], ip6RoutesCount := 0, ip6DefaultTunCtx := none }

/-- A call on a router: an operation or the sending of a packet. -/
inductive Call where
  | op (op : Op)
  | send4 (p : Ip4Packet)

/-- The state after a call. -/
def callStep (s : Router) : Call → Option Router
  | .op op => step s op
  | .send4 _ => some s

/-- What the call sends. -/
def callSent (s : Router) : Call → Option Sent
  | .op _ => none
  | .send4 p => send4 s p

/-- Two routers behave identically under a sequence of calls. -/
def Alike : Router → Router → List Call → Prop
  | s, s', [] => visible s = visible s'
  | s, s', c :: cs =>
    visible s = visible s' ∧ callSent s c = callSent s' c ∧
      (callStep s c).isSome = (callStep s' c).isSome ∧
      ∀ t t', callStep s c = some t → callStep s' c = some t' → Alike t t' cs

theorem Alike.visible_eq {s s' : Router} {cs : List Call} (h : Alike s s' cs) :
    visible s = visible s' := by
  cases cs with
  | nil => exact h
  | cons c cs => exact h.1

/-! ## The operations that do not look -/

theorem visible_route4 (s : Router) (ip4 : BitVec 32) (mask : Nat) (t : TunPtr) :
    visible (route4 s ip4 mask t) = route4 (visible s) ip4 mask t := by
  have hroutes : (visible s).ip4Routes = s.ip4Routes := rfl
  unfold route4
  simp only [hroutes]
  cases s.ip4Routes with
  | nil => rfl
  | cons curr next => rfl

theorem visible_rebuildEpollStruct (s : Router) :
    (rebuildEpollStruct s).map visible = rebuildEpollStruct (visible s) := by
  have hslots : ctxsSlots (visible s) = ctxsSlots s := rfl
  have hcollect : collect (visible s) = collect s := rfl
  unfold rebuildEpollStruct
  rw [hslots, hcollect]
  split
  · rfl
  · split
    · rfl
    next ctxs hc =>
      cases hr : resizes s ctxs.length with
      | true =>
        have hr' : resizes (visible s) ctxs.length = true := hr
        simp only [hr, hr', if_true]
        rfl
      | false =>
        have hr' : resizes (visible s) ctxs.length = false := hr
        simp only [hr, hr', Bool.false_eq_true, if_false]
        rfl

/-- Everything but `unroute` acts on the visible state, and leaves the rest
alone. -/
theorem visible_step (s : Router) {op : Op} (hop : ∀ t, op ≠ .unroute t) :
    (step s op).map visible = step (visible s) op ∧
      ∀ s', step s op = some s' → s'.strayTuns = s.strayTuns := by
  cases op with
  | route4 ip4 mask t =>
    refine ⟨congrArg some (visible_route4 s ip4 mask t), fun s' h => ?_⟩
    obtain ⟨count, refs, rfl⟩ := step_route4 h
    rfl
  | unroute4 ip4 mask =>
    refine ⟨rfl, fun s' h => ?_⟩
    obtain rfl : unroute4 s ip4 mask = s' := Option.some.inj h
    rfl
  | unroute t => exact absurd rfl (hop t)
  | default4 t =>
    refine ⟨rfl, fun s' h => ?_⟩
    obtain rfl : default4 s t = s' := Option.some.inj h
    rfl
  | setTunDevTunFd fd =>
    refine ⟨rfl, fun s' h => ?_⟩
    obtain rfl : setTunDevTunFd s fd = s' := Option.some.inj h
    rfl
  | rebuildEpollStruct =>
    refine ⟨visible_rebuildEpollStruct s, fun s' h => ?_⟩
    obtain ⟨links, capacity, count, refs, fds, rfl⟩ := rebuildEpollStruct_frame h
    rfl

/-! ## `unroute` -/

/-- `unroute` on a state without IPv6 fields, with `k` finds in them. -/
def unrouteFinding (s : Router) (t : TunPtr) (k : Nat) : Router :=
  { s with
    epollFds := s.epollFds.erase (s.localFd t)
    epollLinks := (s.epollLinks.take s.epollLinksCount).map (EpollLink.clear t)
      ++ s.epollLinks.drop s.epollLinksCount
    ip4Routes := s.ip4Routes.filter (fun r => r.tunCtx ≠ t)
    ip4RoutesCount := s.ip4RoutesCount - (s.ip4Routes.map Route4Link.tunCtx).count t
    ip4DefaultTunCtx := s.ip4DefaultTunCtx.filter (fun u => u ≠ t)
    refs := s.refs.putAll (List.replicate (s.scanned.count t + k) t)
    routesUpdated := s.routesUpdated || (decide (t ∈ s.routeTuns) || decide (0 < k)) }

/-- What is found in the IPv6 fields shows in the counter and in the flag. -/
theorem visible_unroute (s : Router) (t : TunPtr) :
    visible (unroute s t) = unrouteFinding (visible s) t (s.strayTuns.count t) := by
  have hroutes : s.routeTuns
      = s.ip4Routes.map Route4Link.tunCtx ++ (s.ip4DefaultTunCtx.toList ++ s.strayTuns) := rfl
  have hvisible : (visible s).routeTuns
      = s.ip4Routes.map Route4Link.tunCtx ++ (s.ip4DefaultTunCtx.toList ++ []) := rfl
  have hscanned : (visible s).scanned.count t + s.strayTuns.count t = s.scanned.count t := by
    have hv : (visible s).scanned
        = linkTuns (s.epollLinks.take s.epollLinksCount) ++ (visible s).routeTuns := rfl
    have hs : s.scanned = linkTuns (s.epollLinks.take s.epollLinksCount) ++ s.routeTuns := rfl
    rw [hv, hs, hroutes, hvisible]
    simp only [List.count_append, List.count_nil]
    omega
  have hupdated : decide (t ∈ s.routeTuns)
      = (decide (t ∈ (visible s).routeTuns) || decide (0 < s.strayTuns.count t)) := by
    rw [← Bool.decide_or, hroutes, hvisible]
    refine decide_eq_decide.mpr ?_
    rw [List.count_pos_iff]
    simp only [List.mem_append, List.not_mem_nil, or_false]
    tauto
  unfold unrouteFinding
  rw [hscanned, ← hupdated, unroute_eq]
  rfl

theorem strayTuns_unroute (s : Router) (t : TunPtr) :
    (unroute s t).strayTuns = s.strayTuns.filter fun u => u ≠ t := by
  rw [unroute_eq]
  unfold RouterCtx.strayTuns
  simp only [List.filter_append, toList_filter, List.filter_map]
  rfl

/-- On states that look the same, `unroute` does the same exactly if it finds the
tunnel equally often. -/
theorem visible_unroute_iff {s s' : Router} (h : visible s = visible s') (t : TunPtr) :
    visible (unroute s t) = visible (unroute s' t) ↔
      s.strayTuns.count t = s'.strayTuns.count t := by
  rw [visible_unroute, visible_unroute, h]
  refine ⟨?_, ?_⟩
  · intro he
    have hcount : (unrouteFinding (visible s') t (s.strayTuns.count t)).refs.refCount t
        = (unrouteFinding (visible s') t (s'.strayTuns.count t)).refs.refCount t := by
      rw [he]
    unfold unrouteFinding at hcount
    simp only [Refs.refCount_putAll, List.count_replicate_self] at hcount
    omega
  · intro he
    rw [he]

/-! ## Two runs -/

/-- The call is an `unroute` of a tunnel that the two memories hold equally often,
or no `unroute`. -/
def FindsSame (mem mem' : RouterCtx) (c : Call) : Prop :=
  ∀ t, c = .op (.unroute t) → mem.strayTuns.count t = mem'.strayTuns.count t

/-- Where two runs are: they look the same, and what is left in the IPv6 fields of
a tunnel is what the memory held, or nothing if it has been unrouted. -/
structure Twins (mem mem' : RouterCtx) (s s' : Router) : Prop where
  visible : visible s = visible s'
  stray : ∀ t,
    (s.strayTuns.count t = mem.strayTuns.count t ∧
      s'.strayTuns.count t = mem'.strayTuns.count t) ∨
    (s.strayTuns.count t = 0 ∧ s'.strayTuns.count t = 0 ∧
      mem.strayTuns.count t = mem'.strayTuns.count t)

variable {mem mem' : RouterCtx} {s s' : Router}

theorem twins_routerInit (mem mem' : RouterCtx) (dev : TunPtr) (refs : Refs TunPtr)
    (localFd : TunPtr → Int) :
    Twins mem mem' (routerInit mem dev refs localFd) (routerInit mem' dev refs localFd) :=
  ⟨rfl, fun _ => Or.inl ⟨rfl, rfl⟩⟩

/-- What is left is equal for a tunnel exactly if what was held is. -/
theorem Twins.count_eq_iff (h : Twins mem mem' s s') (t : TunPtr) :
    s.strayTuns.count t = s'.strayTuns.count t ↔
      mem.strayTuns.count t = mem'.strayTuns.count t := by
  rcases h.stray t with ⟨h₁, h₂⟩ | ⟨h₁, h₂, he⟩
  · rw [h₁, h₂]
  · rw [h₁, h₂]
    exact iff_of_true rfl he

/-- The same packet goes to the same tunnel. -/
theorem Twins.sent_eq (h : Twins mem mem' s s') (c : Call) : callSent s c = callSent s' c := by
  cases c with
  | op op => rfl
  | send4 p =>
    have hv : send4 (ConfProfile.visible s) p = send4 (ConfProfile.visible s') p := by
      rw [h.visible]
    exact hv

/-- The same calls return. -/
theorem Twins.isSome_eq (h : Twins mem mem' s s') (c : Call) :
    (callStep s c).isSome = (callStep s' c).isSome := by
  cases c with
  | send4 p => rfl
  | op op =>
    by_cases hop : op = .rebuildEpollStruct
    · subst hop
      have hs := visible_rebuildEpollStruct s
      have hs' := visible_rebuildEpollStruct s'
      rw [h.visible] at hs
      show (rebuildEpollStruct s).isSome = (rebuildEpollStruct s').isSome
      rw [← Option.isSome_map (f := ConfProfile.visible), hs, ← hs', Option.isSome_map]
    · show (step s op).isSome = (step s' op).isSome
      rw [step_isSome s hop, step_isSome s' hop]

/-- One call of both: they look the same afterwards exactly if the call finds the
tunnel equally often, and then they are twins again. -/
theorem Twins.step (h : Twins mem mem' s s') {c : Call} {t t' : Router}
    (ht : callStep s c = some t) (ht' : callStep s' c = some t') :
    (ConfProfile.visible t = ConfProfile.visible t' ↔ FindsSame mem mem' c) ∧
      (FindsSame mem mem' c → Twins mem mem' t t') := by
  cases c with
  | send4 p =>
    obtain rfl : s = t := Option.some.inj ht
    obtain rfl : s' = t' := Option.some.inj ht'
    exact ⟨iff_of_true h.visible fun u hu => (nomatch hu), fun _ => h⟩
  | op op =>
    by_cases hop : ∃ u, op = .unroute u
    · obtain ⟨u, rfl⟩ := hop
      obtain rfl : unroute s u = t := Option.some.inj ht
      obtain rfl : unroute s' u = t' := Option.some.inj ht'
      have hsame : FindsSame mem mem' (.op (.unroute u)) ↔
          mem.strayTuns.count u = mem'.strayTuns.count u := by
        refine ⟨?_, ?_⟩
        · intro hf
          exact hf u rfl
        · intro he v hv
          injection hv with hv
          injection hv with hv
          exact hv ▸ he
      have hiff : ConfProfile.visible (unroute s u) = ConfProfile.visible (unroute s' u) ↔
          FindsSame mem mem' (.op (.unroute u)) := by
        rw [visible_unroute_iff h.visible, h.count_eq_iff, hsame]
      refine ⟨hiff, fun hf => ⟨hiff.mpr hf, fun v => ?_⟩⟩
      rw [strayTuns_unroute, strayTuns_unroute, count_filter_ne, count_filter_ne]
      by_cases hv : v = u
      · -- of the unrouted tunnel nothing is left
        rw [if_pos hv, if_pos hv, hv]
        exact Or.inr ⟨rfl, rfl, hsame.mp hf⟩
      · rw [if_neg hv, if_neg hv]
        exact h.stray v
    · have hnot : ∀ u, op ≠ .unroute u := fun u hu => hop ⟨u, hu⟩
      obtain ⟨hs, hstray⟩ := visible_step s hnot
      obtain ⟨hs', hstray'⟩ := visible_step s' hnot
      have hvis : ConfProfile.visible t = ConfProfile.visible t' := by
        have ht₁ : ConfProfile.step s op = some t := ht
        have ht₂ : ConfProfile.step s' op = some t' := ht'
        rw [ht₁, h.visible, ← hs', ht₂] at hs
        exact Option.some.inj hs
      have hfinds : FindsSame mem mem' (.op op) := by
        intro u hu
        injection hu with hu
        exact absurd hu (hnot u)
      refine ⟨iff_of_true hvis hfinds, fun _ => ⟨hvis, fun u => ?_⟩⟩
      rw [hstray t ht, hstray' t' ht']
      exact h.stray u

theorem Twins.alike_iff :
    ∀ (cs : List Call) {s s' : Router}, Twins mem mem' s s' →
      (Alike s s' cs ↔ Guarded callStep (fun _ c => FindsSame mem mem' c) s cs) := by
  intro cs
  induction cs with
  | nil => intro s s' h; exact iff_of_true h.visible trivial
  | cons c cs ih =>
    intro s s' h
    have hsome := h.isSome_eq c
    cases ht : callStep s c with
    | none =>
      -- only a rebuild does not return, and it finds nothing
      have hfinds : FindsSame mem mem' c := by
        intro u he
        subst he
        cases ht
      rw [ht] at hsome
      have ht' : callStep s' c = none := by simpa using hsome.symm
      refine iff_of_true ⟨h.visible, h.sent_eq c, h.isSome_eq c, fun t t' h₁ => ?_⟩
        ⟨hfinds, fun t h₁ => ?_⟩
      · rw [ht] at h₁
        cases h₁
      · rw [ht] at h₁
        cases h₁
    | some t =>
      rw [ht] at hsome
      obtain ⟨t', ht'⟩ := Option.isSome_iff_exists.mp hsome.symm
      obtain ⟨hlook, htwins⟩ := h.step ht ht'
      refine ⟨?_, ?_⟩
      · intro halike
        have hrest : Alike t t' cs := halike.2.2.2 t t' ht ht'
        have hfinds := hlook.mp hrest.visible_eq
        refine ⟨hfinds, fun u hu => ?_⟩
        obtain rfl : t = u := Option.some.inj (ht.symm.trans hu)
        exact (ih (htwins hfinds)).mp hrest
      · intro hx
        obtain ⟨hfinds, hguard⟩ := hx
        refine ⟨h.visible, h.sent_eq c, h.isSome_eq c, fun u u' hu hu' => ?_⟩
        obtain rfl : t = u := Option.some.inj (ht.symm.trans hu)
        obtain rfl : t' = u' := Option.some.inj (ht'.symm.trans hu')
        exact (ih (htwins hfinds)).mpr (hguard t ht)

/-- Two routers made from any two memories behave identically under a sequence of
calls exactly if every `unroute` that the sequence comes to is of a tunnel that
the two memories hold equally often in the IPv6 fields. -/
theorem memory_alike_iff (mem mem' : RouterCtx) (dev : TunPtr) (refs : Refs TunPtr)
    (localFd : TunPtr → Int) (cs : List Call) :
    Alike (routerInit mem dev refs localFd) (routerInit mem' dev refs localFd) cs ↔
      Guarded callStep (fun _ c => FindsSame mem mem' c) (routerInit mem dev refs localFd) cs :=
  (twins_routerInit mem mem' dev refs localFd).alike_iff cs

/-- On zeroed memory `unroute` of an unused tunnel changes no counter; where the
memory held a pointer to it as IPv6 default, one reference is put that nobody
took. -/
theorem memory_alike_counterexample :
    ¬ Alike (routerInit .zeroed 0 ⟨fun _ => 1, fun _ => false⟩ fun t => 10 + t)
      (routerInit { RouterCtx.zeroed with ip6DefaultTunCtx := some 1 } 0
        ⟨fun _ => 1, fun _ => false⟩ fun t => 10 + t)
      [.op (.unroute 1)] := by
  intro h
  have hlook := h.2.2.2 _ _ rfl rfl
  have hcount := congrArg (fun s => s.refs.refCount 1) hlook.visible_eq
  exact absurd hcount (by decide)

end ConfProfile
