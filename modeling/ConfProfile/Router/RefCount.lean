import ConfProfile.Router.Poll

/-!
# The references of the router

A tunnel context is referenced by its owner, by each route entry, by a default,
and by each epoll slot it stands in (`held`). `Balanced` says that its counter
is the number of these holders, and `excess` measures by how much it is not.

Every branch of `route4`, `unroute4`, `unroute` and `default4` is balanced, and
so is a rebuild that resizes the slots: it puts what the old slots held. A
rebuild that keeps the array takes new references for all slots and clears the
old ones without a put, which leaks a reference for every occupied slot
(`excess_step`). Nothing ever gives a leaked reference back.

The IPv6 fields count as route entries here. They are never assigned, so at the
start they are balanced only if the memory happened to hold no pointer.
-/

namespace ConfProfile

open Run

/-- The references that the router holds: routes, defaults, slots. -/
def held (s : RouterCtx) : List TunPtr := s.routeTuns ++ linkTuns s.epollLinks

/-- The references to a tunnel: the owner's and the router's. -/
def holders (owner : TunPtr → Int) (s : RouterCtx) (t : TunPtr) : Int := owner t + (held s).count t

/-- What the counter of a tunnel has over its holders. -/
def excess (owner : TunPtr → Int) (s : Router) (t : TunPtr) : Int :=
  s.refs.refCount t - holders owner s.toRouterCtx t

/-- Every counter is the number of holders, so that a put destroys the tunnel
exactly when it drops the last one. -/
structure Balanced (owner : TunPtr → Int) (s : Router) : Prop where
  count : ∀ t, s.refs.refCount t = holders owner s.toRouterCtx t
  freed : ∀ t, (s.refs.refPut t).destroyed t = true ↔
    s.refs.destroyed t = true ∨ holders owner s.toRouterCtx t = 1

theorem balanced_iff {owner : TunPtr → Int} {s : Router} :
    Balanced owner s ↔ ∀ t, excess owner s t = 0 := by
  unfold excess
  refine ⟨?_, ?_⟩
  · intro h t
    rw [h.count t, sub_self]
  · intro h
    have hcount : ∀ t, s.refs.refCount t = holders owner s.toRouterCtx t := fun t =>
      sub_eq_zero.mp (h t)
    refine ⟨hcount, fun t => ?_⟩
    rw [Refs.destroyed_refPut, hcount t]
    simp

/-! ## Occurrences -/

theorem count_filter_ne (l : List TunPtr) (t u : TunPtr) :
    (l.filter fun v => v ≠ u).count t = if t = u then 0 else l.count t := by
  split
  next h =>
    rw [List.count_eq_zero, List.mem_filter, h]
    simp
  next h => exact List.count_filter (by simpa using h)

theorem linkTuns_append (l₁ l₂ : List EpollLink) :
    linkTuns (l₁ ++ l₂) = linkTuns l₁ ++ linkTuns l₂ := List.filterMap_append

theorem tunCtx_clear (t : TunPtr) (link : EpollLink) :
    (link.clear t).tunCtx = link.tunCtx.filter fun u => u ≠ t := by
  unfold EpollLink.clear
  cases hl : link.tunCtx with
  | none => simp [hl]
  | some u =>
    by_cases h : u = t
    · simp [h, Option.filter_some]
    · simp [h, hl, Option.filter_some]

/-- Clearing the slots of a tunnel leaves the others. -/
theorem linkTuns_map_clear (t : TunPtr) (links : List EpollLink) :
    linkTuns (links.map (EpollLink.clear t)) = (linkTuns links).filter fun u => u ≠ t := by
  unfold linkTuns
  rw [List.filterMap_map, List.filter_filterMap]
  congr 1
  funext link
  exact tunCtx_clear t link

theorem toList_filter (d : Option TunPtr) (t : TunPtr) :
    (d.filter fun u => u ≠ t).toList = d.toList.filter fun u => u ≠ t := by
  cases d with
  | none => rfl
  | some u =>
    by_cases h : u = t
    · simp [h, Option.filter_some]
    · simp [h, Option.filter_some]

/-- `unroute` takes the routes and defaults of the tunnel away. -/
theorem routeTuns_unroute (s : Router) (t : TunPtr) :
    (unroute s t).routeTuns = s.routeTuns.filter fun u => u ≠ t := by
  rw [unroute_eq]
  unfold RouterCtx.routeTuns
  simp only [List.filter_append, toList_filter, List.filter_map]
  rfl

theorem linkTuns_unroute (s : Router) (t : TunPtr) :
    linkTuns (unroute s t).epollLinks
      = ((linkTuns (s.epollLinks.take s.epollLinksCount)).filter fun u => u ≠ t)
        ++ linkTuns (s.epollLinks.drop s.epollLinksCount) := by
  rw [unroute_eq]
  show linkTuns ((s.epollLinks.take s.epollLinksCount).map (EpollLink.clear t)
    ++ s.epollLinks.drop s.epollLinksCount) = _
  rw [linkTuns_append, linkTuns_map_clear]

/-- The slots are those that `unroute` scans and those behind. -/
theorem count_linkTuns_split (s : RouterCtx) (t : TunPtr) :
    (linkTuns s.epollLinks).count t =
      (linkTuns (s.epollLinks.take s.epollLinksCount)).count t
        + (linkTuns (s.epollLinks.drop s.epollLinksCount)).count t := by
  rw [← List.count_append, ← linkTuns_append, List.take_append_drop]

/-! ## One step -/

/-- A rebuild that keeps the array, with an occupied slot in it. -/
def Leaks (s : Router) : Prop :=
  0 ≤ ctxsSlots s ∧ resizes s (pollCount s) = false ∧ linkTuns s.epollLinks ≠ []

instance (s : Router) : Decidable (Leaks s) := by
  unfold Leaks
  infer_instance

/-- The tunnel whose route `route4` overwrites: the walk ends at the first link
that is not above the new one. -/
def overwritten (link : Route4Link) (l : List Route4Link) : Option TunPtr :=
  ((l.find? fun r => !decide (link.key < r.key)).filter fun r => decide (r.key = link.key)).map
    Route4Link.tunCtx

/-- The tunnel whose route `unroute4` takes out, the same way. -/
def takenOut (ip4 : BitVec 32) (l : List Route4Link) : Option TunPtr :=
  ((l.find? fun r => !decide (ip4 < r.ip4)).filter fun r => decide (r.ip4 = ip4)).map
    Route4Link.tunCtx

/-- What a rebuild puts of a tunnel, less what it takes. -/
def rebuildPuts (s : Router) (t : TunPtr) : Int :=
  if ctxsSlots s < 0 then 0
  else
    (if resizes s (pollCount s) then ((linkTuns s.epollLinks).count t : Int) else 0)
      - (collect s).1.count t

theorem refCount_route4 (s : Router) (ip4 : BitVec 32) (mask : Nat) (u t : TunPtr) :
    (route4 s ip4 mask u).refs.refCount t = s.refs.refCount t + [u].count t
      - (overwritten (route4Link ip4 mask u) s.ip4Routes).toList.count t := by
  have hstop : ∀ {pre r post}, s.ip4Routes = pre ++ r :: post →
      (∀ x ∈ pre, (route4Link ip4 mask u).key < x.key) → r.key ≤ (route4Link ip4 mask u).key →
      (s.ip4Routes.find? fun r => !decide ((route4Link ip4 mask u).key < r.key)) = some r := by
    intro pre r post hl hpre hr
    refine List.find?_eq_some_iff_append.mpr ⟨?_, pre, post, hl, fun x hx => ?_⟩
    · simpa using hr
    · simpa using hpre x hx
  unfold overwritten
  rcases route4_cases s ip4 mask u with
    ⟨hall, he⟩ | ⟨pre, r, post, hl, hpre, hr, he⟩ | ⟨pre, r, post, hl, hpre, hr, he⟩
  · have hnone : (s.ip4Routes.find? fun r => !decide ((route4Link ip4 mask u).key < r.key))
        = none := List.find?_eq_none.mpr fun x hx => by simpa using hall x hx
    rw [he, hnone]
    simp
  · rw [he, hstop hl hpre hr.le, Option.filter_some, if_neg (by simpa using hr.ne)]
    simp
  · rw [he, hstop hl hpre hr.le, Option.filter_some, if_pos (by simpa using hr)]
    simp

theorem refCount_unroute4 (s : Router) (ip4 : BitVec 32) (mask : Nat) (t : TunPtr) :
    (unroute4 s ip4 mask).refs.refCount t
      = s.refs.refCount t - (takenOut ip4 s.ip4Routes).toList.count t := by
  unfold takenOut
  rcases unroute4_cases s ip4 mask with
    ⟨pre, r, post, hl, hpre, hr, he⟩ | ⟨pre, post, hl, hpre, hpost, he⟩
  · have hstop : (s.ip4Routes.find? fun r => !decide (ip4 < r.ip4)) = some r := by
      refine List.find?_eq_some_iff_append.mpr ⟨?_, pre, post, hl, fun x hx => ?_⟩
      · simp [hr]
      · simpa using hpre x hx
    rw [he, hstop, Option.filter_some, if_pos (by simpa using hr)]
    simp
  · -- the walk ends at a smaller address, or at the end
    have hpass : (pre.find? fun r => !decide (ip4 < r.ip4)) = none :=
      List.find?_eq_none.mpr fun x hx => by simpa using hpre x hx
    rw [he, hl, List.find?_append, hpass, Option.none_or]
    cases post with
    | nil => simp
    | cons r post =>
      have hr : r.ip4 < ip4 := hpost r rfl
      have hne : r.ip4 ≠ ip4 := by
        intro he
        subst he
        rw [BitVec.lt_def] at hr
        omega
      have hnot : ¬ ip4 < r.ip4 := by
        rw [BitVec.lt_def] at hr ⊢
        omega
      rw [List.find?_cons_of_pos (by simpa using hnot), Option.filter_some,
        if_neg (by simpa using hne)]
      simp

theorem refCount_unroute (s : Router) (u t : TunPtr) :
    (unroute s u).refs.refCount t
      = s.refs.refCount t - (List.replicate (s.scanned.count u) u).count t := by
  rw [unroute_eq]
  exact Refs.refCount_putAll _ _ _

theorem refCount_default4 (s : Router) (u t : TunPtr) :
    (default4 s u).refs.refCount t
      = s.refs.refCount t + [u].count t - s.ip4DefaultTunCtx.toList.count t := by
  unfold default4
  cases s.ip4DefaultTunCtx with
  | none => simp
  | some old =>
    simp only [Refs.refCount_refGet, Refs.refCount_refPut, Option.toList_some]
    ring

theorem refCount_rebuild {s s' : Router} (hshape : Shaped s.toRouterCtx)
    (h : rebuildEpollStruct s = some s') (t : TunPtr) :
    s'.refs.refCount t = s.refs.refCount t - rebuildPuts s t := by
  have hall : s.epollLinks.take s.epollLinksCapacity = s.epollLinks :=
    List.take_of_length_le hshape.length.le
  unfold rebuildPuts
  rcases rebuildEpollStruct_cases h with
    ⟨hslots, rfl⟩ | ⟨hslots, hdone, ctxs, rfl, fds, -, ⟨hresize, rfl⟩ | ⟨hresize, -, rfl⟩⟩
  · rw [if_pos hslots, sub_zero]
  · rw [if_neg hslots.not_gt, ← length_collect_eq hdone, hresize, if_pos rfl, hall]
    simp only [Refs.refCount_putAll, Refs.refCount_getAll]
    ring
  · rw [if_neg hslots.not_gt, ← length_collect_eq hdone, hresize, if_neg Bool.false_ne_true]
    simp only [Refs.refCount_getAll]
    ring

variable {owner : TunPtr → Int}

theorem excess_route4 (s : Router) (ip4 : BitVec 32) (mask : Nat) (u t : TunPtr) :
    excess owner (route4 s ip4 mask u) t = excess owner s t := by
  have hu : (route4Link ip4 mask u).tunCtx = u := rfl
  unfold excess holders held RouterCtx.routeTuns
  rcases route4_cases s ip4 mask u with
    ⟨-, he⟩ | ⟨pre, r, post, hl, -, -, he⟩ | ⟨pre, r, post, hl, -, -, he⟩
  · rw [he]
    simp only [Refs.refCount_refGet, List.map_append, List.map_cons, List.map_nil,
      List.count_append, hu]
    push_cast
    ring
  · rw [he, hl]
    simp only [Refs.refCount_refGet, List.map_append, List.map_cons, List.count_append,
      List.count_cons, List.count_nil, hu]
    push_cast
    ring
  · rw [he, hl]
    simp only [Refs.refCount_refGet, Refs.refCount_refPut, List.map_append, List.map_cons,
      List.count_append, List.count_cons, List.count_nil, hu]
    push_cast
    ring

theorem excess_unroute4 (s : Router) (ip4 : BitVec 32) (mask : Nat) (t : TunPtr) :
    excess owner (unroute4 s ip4 mask) t = excess owner s t := by
  unfold excess holders held RouterCtx.routeTuns
  rcases unroute4_cases s ip4 mask with ⟨pre, r, post, hl, -, -, he⟩ | ⟨-, -, -, -, -, he⟩
  · rw [he, hl]
    simp only [Refs.refCount_refPut, List.map_append, List.map_cons, List.count_append,
      List.count_cons, List.count_nil]
    push_cast
    ring
  · rw [he]

theorem excess_unroute (s : Router) (u t : TunPtr) :
    excess owner (unroute s u) t = excess owner s t := by
  have hrefs := refCount_unroute s u t
  have hsplit := count_linkTuns_split s.toRouterCtx t
  unfold excess holders held
  rw [hrefs, routeTuns_unroute, linkTuns_unroute, List.count_append, List.count_append,
    List.count_append, count_filter_ne, count_filter_ne, List.count_replicate]
  by_cases h : t = u
  · -- one put for each scanned holder of the tunnel
    subst h
    have hscan : s.scanned.count t = (linkTuns (s.epollLinks.take s.epollLinksCount)).count t
        + s.routeTuns.count t := List.count_append
    simp only [if_pos, beq_self_eq_true]
    omega
  · have hne : (u == t) = false := beq_eq_false_iff_ne.mpr (Ne.symm h)
    simp only [hne, h, if_false, Bool.false_eq_true]
    omega

theorem excess_default4 (s : Router) (u t : TunPtr) :
    excess owner (default4 s u) t = excess owner s t := by
  have hrefs := refCount_default4 s u t
  unfold excess holders held RouterCtx.routeTuns
  rw [hrefs]
  show _ - (owner t + ((List.count t (s.ip4Routes.map Route4Link.tunCtx
    ++ ([u] ++ (s.ip6Routes.map Route6Link.tunCtx ++ s.ip6DefaultTunCtx.toList))
    ++ linkTuns s.epollLinks) : Nat) : Int)) = _
  simp only [List.count_append]
  push_cast
  ring

/-- After a rebuild the slots hold what was collected. -/
theorem count_held_rebuild {s s' : Router} (h : rebuildEpollStruct s = some s') (t : TunPtr) :
    (held s'.toRouterCtx).count t = s.routeTuns.count t
      + if ctxsSlots s < 0 then (linkTuns s.epollLinks).count t else (collect s).1.count t := by
  rcases rebuildEpollStruct_cases h with
    ⟨hslots, rfl⟩ | ⟨hslots, -, ctxs, rfl, fds, -, ⟨-, rfl⟩ | ⟨-, -, rfl⟩⟩
  · rw [if_pos hslots]
    exact List.count_append
  · rw [if_neg hslots.not_gt]
    show List.count t (s.routeTuns ++ linkTuns (filledLinks s.localFd (collect s).1 _)) = _
    rw [List.count_append, linkTuns_filledLinks]
  · rw [if_neg hslots.not_gt]
    show List.count t (s.routeTuns ++ linkTuns (filledLinks s.localFd (collect s).1 _)) = _
    rw [List.count_append, linkTuns_filledLinks]

/-- A rebuild is balanced, or it leaks one reference for each occupied slot. -/
theorem excess_rebuild {s s' : Router} (hshape : Shaped s.toRouterCtx)
    (h : rebuildEpollStruct s = some s') (t : TunPtr) :
    (¬ Leaks s ∧ excess owner s' t = excess owner s t) ∨
      (Leaks s ∧ excess owner s' t = excess owner s t + (linkTuns s.epollLinks).count t) := by
  have hheld : (held s.toRouterCtx).count t
      = s.routeTuns.count t + (linkTuns s.epollLinks).count t := List.count_append
  unfold Leaks excess holders
  rw [refCount_rebuild hshape h, count_held_rebuild h, hheld]
  unfold rebuildPuts
  by_cases hslots : ctxsSlots s < 0
  · refine Or.inl ⟨fun hleak => hleak.1.not_gt hslots, ?_⟩
    rw [if_pos hslots, if_pos hslots]
    ring
  · rw [if_neg hslots, if_neg hslots]
    cases hresize : resizes s (pollCount s) with
    | true =>
      refine Or.inl ⟨fun hleak => Bool.noConfusion hleak.2.1, ?_⟩
      rw [if_pos rfl]
      push_cast
      ring
    | false =>
      rw [if_neg Bool.false_ne_true]
      by_cases hempty : linkTuns s.epollLinks = []
      · refine Or.inl ⟨fun hleak => hleak.2.2 hempty, ?_⟩
        rw [hempty, List.count_nil]
        push_cast
        ring
      · refine Or.inr ⟨⟨not_lt.mp hslots, rfl, hempty⟩, ?_⟩
        push_cast
        ring

/-- Every step leaves the excess of every tunnel alone, except a rebuild that
leaks. -/
theorem excess_step {s s' : Router} {op : Op} (hshape : Shaped s.toRouterCtx)
    (h : step s op = some s') (t : TunPtr) :
    excess owner s' t = excess owner s t ∨
      (op = .rebuildEpollStruct ∧ Leaks s ∧
        excess owner s' t = excess owner s t + (linkTuns s.epollLinks).count t) := by
  cases op with
  | route4 ip4 mask u =>
    obtain rfl : route4 s ip4 mask u = s' := Option.some.inj h
    exact Or.inl (excess_route4 s ip4 mask u t)
  | unroute4 ip4 mask =>
    obtain rfl : unroute4 s ip4 mask = s' := Option.some.inj h
    exact Or.inl (excess_unroute4 s ip4 mask t)
  | unroute u =>
    obtain rfl : unroute s u = s' := Option.some.inj h
    exact Or.inl (excess_unroute s u t)
  | default4 u =>
    obtain rfl : default4 s u = s' := Option.some.inj h
    exact Or.inl (excess_default4 s u t)
  | setTunDevTunFd fd =>
    obtain rfl : setTunDevTunFd s fd = s' := Option.some.inj h
    exact Or.inl rfl
  | rebuildEpollStruct =>
    rcases excess_rebuild hshape h t with ⟨-, he⟩ | ⟨hleak, he⟩
    · exact Or.inl he
    · exact Or.inr ⟨rfl, hleak, he⟩

/-- The tunnels in the fields that `router_init` never assigns. -/
def RouterCtx.strayTuns (mem : RouterCtx) : List TunPtr :=
  mem.ip6Routes.map Route6Link.tunCtx ++ mem.ip6DefaultTunCtx.toList

theorem held_routerInit (mem : RouterCtx) (dev : TunPtr) (refs : Refs TunPtr)
    (localFd : TunPtr → Int) : held (routerInit mem dev refs localFd).toRouterCtx = mem.strayTuns := by
  have hlinks : linkTuns (List.replicate 4 EpollLink.zero) = [] := rfl
  show ([] ++ ([] ++ mem.strayTuns)) ++ linkTuns (List.replicate 4 EpollLink.zero) = _
  rw [hlinks, List.append_nil, List.nil_append, List.nil_append]

/-- A new router lacks the references of what its memory happened to hold. -/
theorem excess_routerInit (mem : RouterCtx) (dev : TunPtr) (refs : Refs TunPtr)
    (localFd : TunPtr → Int) (t : TunPtr) :
    excess (Function.update refs.refCount dev 1) (routerInit mem dev refs localFd) t
      = -(mem.strayTuns.count t : Int) := by
  unfold excess holders
  rw [held_routerInit]
  show Function.update refs.refCount dev 1 t - _ = _
  ring

/-- A new router is balanced exactly if its memory held no IPv6 route and no
IPv6 default. -/
theorem balanced_routerInit_iff (mem : RouterCtx) (dev : TunPtr) (refs : Refs TunPtr)
    (localFd : TunPtr → Int) :
    Balanced (Function.update refs.refCount dev 1) (routerInit mem dev refs localFd) ↔
      mem.ip6Routes = [] ∧ mem.ip6DefaultTunCtx = none := by
  have hstray : mem.strayTuns = [] ↔ mem.ip6Routes = [] ∧ mem.ip6DefaultTunCtx = none := by
    unfold RouterCtx.strayTuns
    rw [List.append_eq_nil_iff, List.map_eq_nil_iff]
    simp
  rw [balanced_iff, ← hstray, List.eq_nil_iff_forall_not_mem]
  refine forall_congr' fun t => ?_
  rw [excess_routerInit, ← List.count_eq_zero]
  omega

end ConfProfile
