import ConfProfile.Router.Ops
import Mathlib.Data.Finset.Card
import Mathlib.Data.Finset.Image

/-!
# The slots that are polled

What a rebuild is for: afterwards the slots below `epoll_links_count` are the
dev tunnel, the default tunnel and the routed tunnels, each once. The router
loop looks a descriptor up in exactly these slots (`findLink`, the search of
`routerLoop`), and `unroute` scans exactly these.

The rebuild fills the right slots (`collect_of_defaultOk`, up to a default tunnel
without a descriptor, or one that is the dev tunnel itself), but assigns the
count only when it resizes. Otherwise the count is the number of tunnels at some
earlier rebuild. `rebuild_pollsExactly_iff` says for one rebuild when that is
right, `polls_exactly_along_iff` for whole runs. Whether a rebuild stays inside
its temporary array is another matter (`CtxsInBounds`).
-/

namespace ConfProfile

open Run

/-- The tunnels to poll: dev, default and routed. -/
def polled (s : RouterCtx) : Finset TunPtr :=
  (s.devTunCtx :: (s.ip4DefaultTunCtx.toList ++ s.ip4Routes.map Route4Link.tunCtx)).toFinset

theorem mem_polled {s : RouterCtx} {t : TunPtr} :
    t ∈ polled s ↔
      t = s.devTunCtx ∨ s.ip4DefaultTunCtx = some t ∨ t ∈ s.ip4Routes.map Route4Link.tunCtx := by
  simp [polled]

/-- The tunnels in the slots below the count. -/
def entries (s : RouterCtx) : List (Option TunPtr) :=
  (s.epollLinks.take s.epollLinksCount).map EpollLink.tunCtx

/-- The search of `routerLoop` for the tunnel of a ready descriptor. -/
def findLink (fd : Int) : Nat → List EpollLink → Option TunPtr
  | 0, _ => none
  | _ + 1, [] => none
  | n + 1, link :: links => if link.fd = fd then link.tunCtx else findLink fd n links

theorem mem_collect {s : Router} (hfd : Described s.localFd s.ip4Routes) {t : TunPtr} :
    t ∈ (collect s).1 ↔ t ∈ collectFirst s ∨ t ∈ s.ip4Routes.map Route4Link.tunCtx :=
  mem_collectRoutes s.localFd s.ip4Routes (collectFirst s)
    ((collectRoutes_done s.localFd s.ip4Routes (collectFirst s)).mpr hfd) t

theorem mem_collectFirst {s : Router} {t : TunPtr} :
    t ∈ collectFirst s ↔
      t = s.devTunCtx ∨ (s.ip4DefaultTunCtx = some t ∧ s.localFd t ≠ UNDEFINED_FD) := by
  unfold collectFirst
  cases hd : s.ip4DefaultTunCtx with
  | none => simp
  | some d =>
    by_cases hfd : s.localFd d = UNDEFINED_FD
    · simp only [hfd, ne_eq, not_true_eq_false, if_false, List.mem_singleton, Option.some.injEq]
      refine ⟨?_, ?_⟩
      · exact Or.inl
      · intro hcase
        rcases hcase with h | ⟨rfl, h⟩
        · exact h
        · exact absurd hfd h
    · simp only [ne_eq, hfd, not_false_eq_true, if_true, List.mem_cons, List.not_mem_nil, or_false,
        Option.some.injEq]
      refine ⟨?_, ?_⟩
      · intro hcase
        rcases hcase with h | rfl
        · exact Or.inl h
        · exact Or.inr ⟨rfl, hfd⟩
      · intro hcase
        rcases hcase with h | ⟨rfl, -⟩
        · exact Or.inl h
        · exact Or.inr rfl

theorem collect_subset_polled {s : Router} (hfd : Described s.localFd s.ip4Routes) {t : TunPtr}
    (ht : t ∈ (collect s).1) : t ∈ polled s.toRouterCtx := by
  rw [mem_collect hfd, mem_collectFirst] at ht
  rw [mem_polled]
  tauto

/-- The number of tunnels that a rebuild stores: dev, a default tunnel with a
descriptor, and each routed tunnel that is neither of them. -/
def pollCount (s : Router) : Nat :=
  (collectFirst s).length
    + ((s.ip4Routes.map Route4Link.tunCtx).toFinset \ (collectFirst s).toFinset).card

theorem length_collectRoutes (localFd : TunPtr → Int) :
    ∀ (l : List Route4Link) (ctxs : List TunPtr), (collectRoutes localFd l ctxs).2 = true →
      (collectRoutes localFd l ctxs).1.length
        = ctxs.length + ((l.map Route4Link.tunCtx).toFinset \ ctxs.toFinset).card := by
  intro l
  induction l with
  | nil => intro ctxs _; simp [collectRoutes]
  | cons curr next ih =>
    intro ctxs hdone
    have hfd := (collectRoutes_done localFd _ ctxs).mp hdone curr List.mem_cons_self
    rw [List.map_cons, List.toFinset_cons]
    by_cases hmem : curr.tunCtx ∈ ctxs
    · rw [collectRoutes_cons_of_mem hfd hmem] at hdone ⊢
      rw [ih ctxs hdone, Finset.insert_sdiff_of_mem _ (List.mem_toFinset.mpr hmem)]
    · rw [collectRoutes_cons_of_notMem hfd hmem] at hdone ⊢
      rw [ih _ hdone, List.length_append, List.length_singleton]
      -- the new tunnel counts once, wherever else it is routed
      have hset : insert curr.tunCtx (next.map Route4Link.tunCtx).toFinset \ ctxs.toFinset
          = insert curr.tunCtx
            ((next.map Route4Link.tunCtx).toFinset \ (ctxs ++ [curr.tunCtx]).toFinset) := by
        ext t
        simp only [Finset.mem_sdiff, Finset.mem_insert, List.mem_toFinset, List.mem_append,
          List.mem_singleton]
        refine ⟨?_, ?_⟩
        · intro hcase
          rcases hcase with ⟨rfl | ht, hnot⟩
          · exact Or.inl rfl
          · by_cases he : t = curr.tunCtx
            · exact Or.inl he
            · exact Or.inr ⟨ht, fun h => h.elim hnot he⟩
        · intro hcase
          rcases hcase with rfl | ⟨ht, hnot⟩
          · exact ⟨Or.inl rfl, hmem⟩
          · exact ⟨Or.inr ht, fun h => hnot (Or.inl h)⟩
      rw [hset, Finset.card_insert_of_notMem (by simp)]
      omega

/-- A rebuild that gets through the routes has stored that many tunnels. -/
theorem length_collect_eq {s : Router} (h : (collect s).2 = true) :
    (collect s).1.length = pollCount s :=
  length_collectRoutes s.localFd s.ip4Routes (collectFirst s) h

/-! ## The slots after a rebuild -/

end ConfProfile
