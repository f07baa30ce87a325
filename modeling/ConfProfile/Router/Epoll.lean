import ConfProfile.Router.Routes

/-!
# Rebuilding the epoll structures (`rebuild_epoll_struct`)

The rebuild collects the tunnels to poll into a temporary array (the dev tunnel,
the default tunnel if it has a descriptor, each routed tunnel once), resizes
`epoll_links` if their number left the hysteresis band, clears the slots, fills
them and registers the descriptors.

Three things of the source are kept as they are:

* the temporary array gets `ip4_routes_count + 2` slots, whatever the length of
  the list is; a negative number of slots is a request that `malloc` refuses.
  The collected tunnels are kept in a list of their own, so that a write past
  the array (`CtxsInBounds` says when there is none) does not damage the rest
  of the state in the model;
* a routed tunnel without a descriptor makes the collecting loop `continue`
  without advancing `curr`: the call never returns, `none`;
* `epoll_links_count` is assigned where the array is resized, and only there.

`rebuildEpollStruct_cases` says everything the call can do.
-/

namespace ConfProfile

/-- The route-collecting loop: the slots written and whether the end of the list
was reached. -/
def collectRoutes (localFd : TunPtr → Int) :
    List Route4Link → List TunPtr → List TunPtr × Bool
  | [], ctxs => (ctxs, true)
  | curr :: next, ctxs =>
    -- `continue`: `curr` stays where it is and the loop never ends
    if localFd curr.tunCtx = UNDEFINED_FD then (ctxs, false)
    else if curr.tunCtx ∈ ctxs then collectRoutes localFd next ctxs
    else collectRoutes localFd next (ctxs ++ [curr.tunCtx])

/-- What is stored before the loop: the dev tunnel and, if it has a descriptor,
the default tunnel. -/
def collectFirst (s : Router) : List TunPtr :=
  match s.ip4DefaultTunCtx with
  | some d => if s.localFd d ≠ UNDEFINED_FD then [s.devTunCtx, d] else [s.devTunCtx]
  | none => [s.devTunCtx]

/-- The contents of the temporary array `ctxs`. -/
def collect (s : Router) : List TunPtr × Bool :=
  collectRoutes s.localFd s.ip4Routes (collectFirst s)

/-- The number of slots requested for `ctxs`. -/
def ctxsSlots (s : Router) : Int := s.ip4RoutesCount + 2

/-- The rebuild does not write past `ctxs`: it stops when the allocation is
refused, and otherwise every slot it writes exists. -/
def CtxsInBounds (s : Router) : Prop :=
  ctxsSlots s < 0 ∨ ((collect s).1.length : Int) ≤ ctxsSlots s

instance (s : Router) : Decidable (CtxsInBounds s) := by
  unfold CtxsInBounds
  infer_instance

/-- The resizing test. -/
def resizes (s : Router) (pollCount : Nat) : Bool :=
  decide (pollCount > s.epollLinksCapacity) || decide (pollCount < s.epollLinksCapacity >>> 1)

/-- The filling loop, one slot per collected tunnel. -/
def fillLinks (localFd : TunPtr → Int) : List TunPtr → List EpollLink → List EpollLink
  | [], links => links
  | _ :: _, [] => []
  | t :: ts, _ :: links => ⟨localFd t, some t⟩ :: fillLinks localFd ts links

/-- `epoll_ctl(…, EPOLL_CTL_ADD, fd, …)`: fails with `EBADF` without a descriptor
and inserts it otherwise. -/
def epollCtlAdd (fds : Finset Int) (fd : Int) : Finset Int :=
  if fd = UNDEFINED_FD then fds else insert fd fds

/-- `rebuild_epoll_struct`; `none` if the call does not return. -/
def rebuildEpollStruct (s : Router) : Option Router :=
  if ctxsSlots s < 0 then
    -- goto error
    some { s with routesUpdated := false }
  else
    match collect s with
    | (_, false) => none
    | (ctxs, true) =>
      let pollCount := ctxs.length
      let refs := s.refs.getAll ctxs
      let newPollCount := pollCount + pollCount >>> 1
      let (capacity, count, refs) :=
        if resizes s pollCount then
          (newPollCount, pollCount,
            refs.putAll (linkTuns (s.epollLinks.take s.epollLinksCapacity)))
        else (s.epollLinksCapacity, s.epollLinksCount, refs)
      let links := List.replicate capacity EpollLink.zero
      some
        { s with
          epollLinks := fillLinks s.localFd ctxs links
          epollLinksCapacity := capacity
          epollLinksCount := count
          refs := refs
          epollFds := ctxs.foldl (fun fds t => epollCtlAdd fds (s.localFd t)) s.epollFds
          routesUpdated := false }

/-! ## The collected tunnels -/

section Cons

variable {localFd : TunPtr → Int} {curr : Route4Link} {ctxs : List TunPtr}

theorem collectRoutes_cons_of_mem (hfd : localFd curr.tunCtx ≠ UNDEFINED_FD)
    (hmem : curr.tunCtx ∈ ctxs) (next : List Route4Link) :
    collectRoutes localFd (curr :: next) ctxs = collectRoutes localFd next ctxs := by
  rw [collectRoutes, if_neg hfd, if_pos hmem]

theorem collectRoutes_cons_of_notMem (hfd : localFd curr.tunCtx ≠ UNDEFINED_FD)
    (hmem : curr.tunCtx ∉ ctxs) (next : List Route4Link) :
    collectRoutes localFd (curr :: next) ctxs =
      collectRoutes localFd next (ctxs ++ [curr.tunCtx]) := by
  rw [collectRoutes, if_neg hfd, if_neg hmem]

end Cons

theorem collectRoutes_done (localFd : TunPtr → Int) :
    ∀ (l : List Route4Link) (ctxs : List TunPtr),
      (collectRoutes localFd l ctxs).2 = true ↔ ∀ r ∈ l, localFd r.tunCtx ≠ UNDEFINED_FD := by
  intro l
  induction l with
  | nil => intro ctxs; simp [collectRoutes]
  | cons curr next ih =>
    intro ctxs
    rw [List.forall_mem_cons]
    by_cases hfd : localFd curr.tunCtx = UNDEFINED_FD
    · rw [collectRoutes, if_pos hfd]
      exact iff_of_false Bool.false_ne_true fun h => h.1 hfd
    · rw [and_iff_right hfd]
      by_cases hmem : curr.tunCtx ∈ ctxs
      · rw [collectRoutes_cons_of_mem hfd hmem, ih]
      · rw [collectRoutes_cons_of_notMem hfd hmem, ih]

/-- A loop that reaches the end has added every tunnel of the list. -/
theorem mem_collectRoutes (localFd : TunPtr → Int) :
    ∀ (l : List Route4Link) (ctxs : List TunPtr), (collectRoutes localFd l ctxs).2 = true →
      ∀ u, u ∈ (collectRoutes localFd l ctxs).1 ↔ u ∈ ctxs ∨ u ∈ l.map Route4Link.tunCtx := by
  intro l
  induction l with
  | nil => intro ctxs _ u; simp [collectRoutes]
  | cons curr next ih =>
    intro ctxs hdone u
    have hfd := (collectRoutes_done localFd _ ctxs).mp hdone curr List.mem_cons_self
    rw [List.map_cons, List.mem_cons]
    by_cases hmem : curr.tunCtx ∈ ctxs
    · rw [collectRoutes_cons_of_mem hfd hmem] at hdone ⊢
      rw [ih ctxs hdone]
      refine ⟨?_, ?_⟩
      · intro hcase
        rcases hcase with h | h
        · exact Or.inl h
        · exact Or.inr (Or.inr h)
      · intro hcase
        rcases hcase with h | rfl | h
        · exact Or.inl h
        · exact Or.inl hmem
        · exact Or.inr h
    · rw [collectRoutes_cons_of_notMem hfd hmem] at hdone ⊢
      rw [ih _ hdone, List.mem_append, List.mem_singleton, or_assoc]

/-- The loop only appends. -/
theorem prefix_collectRoutes (localFd : TunPtr → Int) :
    ∀ (l : List Route4Link) (ctxs : List TunPtr), ctxs <+: (collectRoutes localFd l ctxs).1 := by
  intro l
  induction l with
  | nil => exact fun ctxs => List.prefix_refl ctxs
  | cons curr next ih =>
    intro ctxs
    unfold collectRoutes
    split
    · exact List.prefix_refl ctxs
    · split
      · exact ih ctxs
      · exact (List.prefix_append ctxs [curr.tunCtx]).trans (ih _)

/-! ## The filled slots -/

/-- The slots after the filling loop. -/
def filledLinks (localFd : TunPtr → Int) (ctxs : List TunPtr) (capacity : Nat) : List EpollLink :=
  ctxs.map (fun t => ⟨localFd t, some t⟩)
    ++ List.replicate (capacity - ctxs.length) EpollLink.zero

theorem fillLinks_eq (localFd : TunPtr → Int) :
    ∀ (ctxs : List TunPtr) (capacity : Nat), ctxs.length ≤ capacity →
      fillLinks localFd ctxs (List.replicate capacity EpollLink.zero)
        = filledLinks localFd ctxs capacity := by
  intro ctxs
  induction ctxs with
  | nil => intro capacity _; simp [fillLinks, filledLinks]
  | cons t ts ih =>
    intro capacity h
    cases capacity with
    | zero => simp at h
    | succ n =>
      have hn : ts.length ≤ n := by simpa using h
      rw [List.replicate_succ, fillLinks, ih n hn]
      simp [filledLinks]

theorem length_filledLinks {localFd : TunPtr → Int} {ctxs : List TunPtr} {capacity : Nat}
    (h : ctxs.length ≤ capacity) : (filledLinks localFd ctxs capacity).length = capacity := by
  simp [filledLinks]
  omega

@[simp] theorem linkTuns_filledLinks (localFd : TunPtr → Int) (ctxs : List TunPtr)
    (capacity : Nat) : linkTuns (filledLinks localFd ctxs capacity) = ctxs := by
  have hnone : ∀ n, linkTuns (List.replicate n EpollLink.zero) = [] := by
    intro n
    simp [linkTuns, EpollLink.zero]
  have hsome : linkTuns (ctxs.map fun t => ⟨localFd t, some t⟩) = ctxs := by
    induction ctxs with
    | nil => rfl
    | cons t ts ih => simp [linkTuns]
  unfold filledLinks
  rw [linkTuns, List.filterMap_append]
  show linkTuns _ ++ linkTuns _ = ctxs
  rw [hnone, hsome, List.append_nil]

/-- Everything a rebuild that returns can do: nothing (the allocation is
refused), or collect and then fill a new array, with one reference less for
every old slot, or fill the old array again, with the old slots' references
left as they are. -/
theorem rebuildEpollStruct_cases {s s' : Router} (h : rebuildEpollStruct s = some s') :
    (ctxsSlots s < 0 ∧ s' = { s with routesUpdated := false }) ∨
    (0 ≤ ctxsSlots s ∧ (collect s).2 = true ∧
      ∃ ctxs, ctxs = (collect s).1 ∧ ∃ fds,
        fds = ctxs.foldl (fun fds t => epollCtlAdd fds (s.localFd t)) s.epollFds ∧
        ((resizes s ctxs.length = true ∧
          s' =
            { s with
              epollLinks := filledLinks s.localFd ctxs (ctxs.length + ctxs.length >>> 1)
              epollLinksCapacity := ctxs.length + ctxs.length >>> 1
              epollLinksCount := ctxs.length
              refs := (s.refs.getAll ctxs).putAll
                (linkTuns (s.epollLinks.take s.epollLinksCapacity))
              epollFds := fds, routesUpdated := false }) ∨
        (resizes s ctxs.length = false ∧ ctxs.length ≤ s.epollLinksCapacity ∧
          s' =
            { s with
              epollLinks := filledLinks s.localFd ctxs s.epollLinksCapacity
              refs := s.refs.getAll ctxs
              epollFds := fds, routesUpdated := false }))) := by
  unfold rebuildEpollStruct at h
  split at h
  next hslots => exact Or.inl ⟨hslots, (Option.some.inj h).symm⟩
  next hslots =>
    refine Or.inr ⟨not_lt.mp hslots, ?_⟩
    split at h
    next => cases h
    next ctxs hc =>
      rw [hc]
      refine ⟨rfl, ctxs, rfl, _, rfl, ?_⟩
      cases hr : resizes s ctxs.length with
      | true =>
        simp only [hr, if_true] at h
        rw [fillLinks_eq _ _ _ (Nat.le_add_right _ _)] at h
        exact Or.inl ⟨rfl, (Option.some.inj h).symm⟩
      | false =>
        have hle : ctxs.length ≤ s.epollLinksCapacity := by
          simp only [resizes, Bool.or_eq_false_iff, decide_eq_false_iff_not] at hr
          omega
        simp only [hr, Bool.false_eq_true, if_false] at h
        rw [fillLinks_eq _ _ _ hle] at h
        exact Or.inr ⟨rfl, hle, (Option.some.inj h).symm⟩

/-- The rebuild returns exactly when it does not get as far as a routed tunnel
without a descriptor. -/
theorem rebuildEpollStruct_isSome (s : Router) :
    (rebuildEpollStruct s).isSome ↔
      ctxsSlots s < 0 ∨ ∀ r ∈ s.ip4Routes, s.localFd r.tunCtx ≠ UNDEFINED_FD := by
  rw [← collectRoutes_done s.localFd s.ip4Routes (collectFirst s)]
  unfold rebuildEpollStruct
  split
  next hslots => simp [hslots]
  next hslots =>
    have hc : (collect s).2 = (collectRoutes s.localFd s.ip4Routes (collectFirst s)).2 := rfl
    split
    next hf => simp [← hc, hf, hslots]
    next ht => simp [← hc, ht]

end ConfProfile
