import ConfProfile.Router.Table

/-!
# The route counter

`ip4_routes_count` is what `rebuild_epoll_struct` sizes its temporary array by.
The removals all count down, but of the three ways in which `route4` changes the
list (`route4_cases`) only the insertion in front of another link counts up: a
link added behind all others, and so also the first link of an empty list, is
never counted.

`uncounted` is the number of links the counter does not know of. One step raises
it by one if it adds a link at the end and leaves it alone otherwise
(`uncounted_step`), so nothing ever repairs the counter, and it agrees with the
list along a run only as long as there are no routes at all.
-/

namespace ConfProfile

open Run

/-- The links that the counter does not know of. -/
def uncounted (s : RouterCtx) : Int := s.ip4Routes.length - s.ip4RoutesCount

/-- The call adds a link behind all others. -/
def AddsAtEnd (s : RouterCtx) : Op → Prop
  | .route4 ip4 mask t => ∀ r ∈ s.ip4Routes, (route4Link ip4 mask t).key < r.key
  | _ => False

/-- The counter is right and the array sized by it large enough. -/
structure Counted (s : Router) : Prop where
  count : s.ip4RoutesCount = s.ip4Routes.length
  inBounds : CtxsInBounds s

/-! ## The temporary array -/

theorem length_collectRoutes_le (localFd : TunPtr → Int) :
    ∀ (l : List Route4Link) (ctxs : List TunPtr),
      (collectRoutes localFd l ctxs).1.length ≤ ctxs.length + l.length := by
  intro l
  induction l with
  | nil => intro ctxs; simp [collectRoutes]
  | cons curr next ih =>
    intro ctxs
    unfold collectRoutes
    split
    · simp
    · split
      · have h := ih ctxs
        rw [List.length_cons]
        omega
      · have h := ih (ctxs ++ [curr.tunCtx])
        rw [List.length_append, List.length_singleton] at h
        rw [List.length_cons]
        omega

/-- One slot for each link and two more are enough. -/
theorem length_collect_le (s : Router) : (collect s).1.length ≤ s.ip4Routes.length + 2 := by
  have hfirst : (collectFirst s).length ≤ 2 := by
    unfold collectFirst
    split
    · split <;> simp
    · simp
  have h := length_collectRoutes_le s.localFd s.ip4Routes (collectFirst s)
  unfold collect
  omega

/-- With a right counter the rebuild stays inside its array. -/
theorem ctxsInBounds_of_count {s : Router} (h : s.ip4RoutesCount = s.ip4Routes.length) :
    CtxsInBounds s := by
  have hle := length_collect_le s
  unfold CtxsInBounds ctxsSlots
  omega

theorem counted_iff (s : Router) : Counted s ↔ uncounted s.toRouterCtx = 0 := by
  unfold uncounted
  refine ⟨?_, ?_⟩
  · intro h
    have hc := h.count
    omega
  · intro h
    have hc : s.ip4RoutesCount = s.ip4Routes.length := by omega
    exact ⟨hc, ctxsInBounds_of_count hc⟩

/-! ## One step -/

/-- A filter by tunnel drops as many links as the tunnel has. -/
theorem length_filter_add_count (t : TunPtr) (l : List Route4Link) :
    (l.filter fun r => r.tunCtx ≠ t).length + (l.map Route4Link.tunCtx).count t = l.length := by
  induction l with
  | nil => rfl
  | cons r l ih =>
    by_cases hr : r.tunCtx = t
    · simp [hr] at ih ⊢
      omega
    · simp [hr] at ih ⊢
      omega

/-- A step adds a link at the end and does not count it, or it leaves the
difference between the list and its counter alone. -/
theorem uncounted_step {s s' : Router} {op : Op} (h : step s op = some s') :
    (AddsAtEnd s.toRouterCtx op ∧ uncounted s'.toRouterCtx = uncounted s.toRouterCtx + 1) ∨
    (¬ AddsAtEnd s.toRouterCtx op ∧ uncounted s'.toRouterCtx = uncounted s.toRouterCtx) := by
  unfold uncounted
  cases op with
  | route4 ip4 mask t =>
    obtain rfl : route4 s ip4 mask t = s' := Option.some.inj h
    rcases route4_cases s ip4 mask t with
      ⟨hall, he⟩ | ⟨pre, r, post, hl, -, hr, he⟩ | ⟨pre, r, post, hl, -, hr, he⟩
    · refine Or.inl ⟨hall, ?_⟩
      rw [he, List.length_append, List.length_singleton]
      push_cast
      ring
    · refine Or.inr ⟨fun hend => hr.not_gt (hend r (by rw [hl]; simp)), ?_⟩
      rw [he, hl]
      simp only [List.length_append, List.length_cons]
      push_cast
      ring
    · refine Or.inr ⟨fun hend => hr.not_gt (hend r (by rw [hl]; simp)), ?_⟩
      rw [he, hl]
      simp only [List.length_append, List.length_cons]
  | unroute4 ip4 mask =>
    obtain rfl : unroute4 s ip4 mask = s' := Option.some.inj h
    refine Or.inr ⟨id, ?_⟩
    rcases unroute4_cases s ip4 mask with ⟨pre, r, post, hl, -, -, he⟩ | ⟨-, -, -, -, -, he⟩
    · rw [he, hl]
      simp only [List.length_append, List.length_cons]
      push_cast
      ring
    · rw [he]
  | unroute t =>
    obtain rfl : s' = _ := (Option.some.inj h).symm.trans (unroute_eq s t)
    refine Or.inr ⟨id, ?_⟩
    have hlen := length_filter_add_count t s.ip4Routes
    show (((s.ip4Routes.filter fun r => r.tunCtx ≠ t).length : Int)
      - (s.ip4RoutesCount - (s.ip4Routes.map Route4Link.tunCtx).count t)) = _
    omega
  | default4 t =>
    obtain rfl : default4 s t = s' := Option.some.inj h
    exact Or.inr ⟨id, rfl⟩
  | setTunDevTunFd fd =>
    obtain rfl : setTunDevTunFd s fd = s' := Option.some.inj h
    exact Or.inr ⟨id, rfl⟩
  | rebuildEpollStruct =>
    obtain ⟨links, capacity, count, refs, fds, rfl⟩ := rebuildEpollStruct_frame h
    exact Or.inr ⟨id, rfl⟩

/-- From a state with a right counter, a step keeps it right exactly if it does
not add a link at the end. -/
theorem counted_step_iff {s s' : Router} {op : Op} (hs : Counted s) (h : step s op = some s') :
    Counted s' ↔ ¬ AddsAtEnd s.toRouterCtx op := by
  rw [counted_iff] at hs ⊢
  rcases uncounted_step h with ⟨hadd, he⟩ | ⟨hadd, he⟩
  · rw [he, hs]
    simp [hadd]
  · rw [he, hs]
    simp [hadd]

/-! ## Runs -/

/-- The call is a `route4`. -/
def Op.isRoute4 : Op → Bool
  | .route4 .. => true
  | _ => false

/-- On an empty list every `route4` adds at the end, and nothing else fills it. -/
theorem along_not_addsAtEnd_iff {ops : List Op} {s : Router} (hs : s.ip4Routes = []) :
    Along step (fun s op _ => ¬ AddsAtEnd s.toRouterCtx op) s ops ↔
      ∀ op ∈ ops, op.isRoute4 = false := by
  induction ops generalizing s with
  | nil => simp
  | cons op ops ih =>
    have hreturns : ∃ s', step s op = some s' := by
      cases op with
      | rebuildEpollStruct =>
        refine Option.isSome_iff_exists.mp ((rebuildEpollStruct_isSome s).mpr (Or.inr ?_))
        simp [hs]
      | _ => exact ⟨_, rfl⟩
    obtain ⟨s', h⟩ := hreturns
    cases hop : op.isRoute4 with
    | true =>
      refine ⟨?_, ?_⟩
      · intro hall
        refine absurd ?_ (hall s' h).1
        cases op with
        | route4 ip4 mask t => simp [AddsAtEnd, hs]
        | _ => cases hop
      · intro hall
        have hfalse := hall op (List.mem_cons_self ..)
        rw [hop] at hfalse
        cases hfalse
    | false =>
      have hs' : s'.ip4Routes = [] := by
        have hsub := ip4Routes_sublist_step h fun _ _ _ he => by
          subst he
          cases hop
        rw [hs] at hsub
        exact List.sublist_nil.mp hsub
      have hnot : ¬ AddsAtEnd s.toRouterCtx op := by
        cases op with
        | route4 ip4 mask t => cases hop
        | _ => exact id
      refine ⟨?_, ?_⟩
      · intro hall x hx
        rcases List.mem_cons.mp hx with rfl | hx'
        · exact hop
        · exact (ih hs').mp (hall s' h).2 x hx'
      · intro hall t ht
        obtain rfl : s' = t := Option.some.inj (h.symm.trans ht)
        exact ⟨hnot, (ih hs').mpr fun x hx => hall x (List.mem_cons_of_mem _ hx)⟩

/-- The counter is the length of the list, and the rebuild inside its array, in
every state of a run exactly if no step adds a link at the end; and since the
list is empty at first, exactly if the run makes no `route4` call. -/
theorem routes_count_along_iff (mem : RouterCtx) (dev : TunPtr) (refs : Refs TunPtr)
    (localFd : TunPtr → Int) (ops : List Op) :
    (Along step (fun _ _ s' => Counted s') (routerInit mem dev refs localFd) ops ↔
      Along step (fun s op _ => ¬ AddsAtEnd s.toRouterCtx op)
        (routerInit mem dev refs localFd) ops) ∧
    (Along step (fun _ _ s' => Counted s') (routerInit mem dev refs localFd) ops ↔
      ∀ op ∈ ops, op.isRoute4 = false) := by
  have hinit : Counted (routerInit mem dev refs localFd) :=
    ⟨rfl, ctxsInBounds_of_count rfl⟩
  have hcond : Along step (fun _ _ s' => Counted s') (routerInit mem dev refs localFd) ops ↔
      Along step (fun s op _ => ¬ AddsAtEnd s.toRouterCtx op)
        (routerInit mem dev refs localFd) ops :=
    along_iff_cond (I := fun _ => True) (P := Counted) (q := fun _ _ s' => Counted s')
      (c := fun s op _ => ¬ AddsAtEnd s.toRouterCtx op) (fun _ _ _ _ _ => trivial) (fun _ _ _ => id)
      (fun _ _ _ _ hs h => counted_step_iff hs h) ops trivial hinit
  exact ⟨hcond, hcond.trans (along_not_addsAtEnd_iff rfl)⟩

/-- Two routes in descending order are not counted, and the rebuild then stores
three tunnels in an array of two. -/
theorem routes_count_counterexample :
    ∃ s, run step freshRouter [.route4 0x14000000#32 8 1, .route4 0x0A000000#32 8 2] = some s ∧
      s.ip4RoutesCount = 0 ∧ s.ip4Routes.length = 2 ∧ ctxsSlots s = 2 ∧
      (collect s).1.length = 3 ∧ ¬ CtxsInBounds s :=
  ⟨_, rfl, by decide, by decide, by decide, by decide, by decide⟩

end ConfProfile
