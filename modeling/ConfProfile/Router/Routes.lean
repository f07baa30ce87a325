import ConfProfile.Router.Ctx
import ConfProfile.Lib.DescList
import Mathlib.Data.Prod.Lex

/-!
# The IPv4 route operations (`ocpa/router.c`)

`route4`, `unroute4`, `unroute` and `default4` as the source computes them. The
list walks keep the source's cursor: the first list of a loop holds the links
already passed (`prev` is its head, the list is reversed) and the second starts
at `curr`. Relinking `prev->next`, or `ctx->ip4_routes` when there is no
`prev`, is putting the passed links back in front of the rest.

Each operation comes with one lemma that says everything it can do
(`route4_cases`, `unroute4_cases`, `unroute_eq`; `default4` is its own closed
form); the invariants of the later files are derived from these and do not open
the loops again.
The NULL checks of the source have no counterpart, since a `TunPtr` is the
address of a context.
-/

namespace ConfProfile

open NetPrefix (netOf)
open DescList (upsert)

/-- What a walk over a route list changes: the list, its counter, the tunnels'
counters and `routes_updated`. -/
structure RouteWalk (β : Type) where
  routes : List β
  count : Int
  refs : Refs TunPtr
  updated : Bool

/-- The insertion loop of `route4`. -/
def route4Loop (link : Route4Link) (count : Int) (refs : Refs TunPtr) :
    List Route4Link → List Route4Link → RouteWalk Route4Link
  | prev, [] => ⟨prev.reverse, count, refs, true⟩
  | prev, curr :: next =>
    if curr.ip4 < link.ip4 ∨ (curr.ip4 = link.ip4 ∧ curr.mask < link.mask) then
      -- insert link before this
      ⟨prev.reverse ++ link :: curr :: next, count + 1, refs, true⟩
    else if curr.ip4 = link.ip4 ∧ curr.mask = link.mask then
      -- replace this link
      ⟨prev.reverse ++ link :: next, count, refs.refPut curr.tunCtx, true⟩
    else
      match next with
      | [] =>
        -- add to the end
        ⟨prev.reverse ++ [curr, link], count, refs, true⟩
      | _ :: _ => route4Loop link count refs (curr :: prev) next

/-- The insertion loop, of links of either family: `before` and `same` are how `curr` is compared
with the new link. -/
def insertLoop {β : Type} (tunOf : β → TunPtr) (before same : β → Prop) [DecidablePred before]
    [DecidablePred same] (link : β) (count : Int) (refs : Refs TunPtr) :
    List β → List β → RouteWalk β
  | prev, [] => ⟨prev.reverse, count, refs, true⟩
  | prev, curr :: next =>
    if before curr then
      -- insert link before this
      ⟨prev.reverse ++ link :: curr :: next, count + 1, refs, true⟩
    else if same curr then
      -- replace this link
      ⟨prev.reverse ++ link :: next, count, refs.refPut (tunOf curr), true⟩
    else
      match next with
      | [] =>
        -- add to the end
        ⟨prev.reverse ++ [curr, link], count, refs, true⟩
      | _ :: _ => insertLoop tunOf before same link count refs (curr :: prev) next

/-- The link that `route4` builds: `mask` is cut to 32 and the host bits of the
address are cleared by the two shifts (a shift by 32 gives 0). -/
def route4Link (ip4 : BitVec 32) (mask : Nat) (tunCtx : TunPtr) : Route4Link :=
  let mask := if mask > 32 then 32 else mask
  let netmask := mask % 256
  ⟨(ip4 >>> (32 - netmask)) <<< (32 - netmask), netmask, tunCtx⟩

/-- `route4`. Only the insertion in front of another link counts the new link. -/
def route4 (s : Router) (ip4 : BitVec 32) (mask : Nat) (tunCtx : TunPtr) : Router :=
  let link := route4Link ip4 mask tunCtx
  let refs := s.refs.refGet tunCtx
  match s.ip4Routes with
  | [] => { s with ip4Routes := [link], refs := refs, routesUpdated := true }
  | curr :: next =>
    let w := route4Loop link s.ip4RoutesCount refs [] (curr :: next)
    { s with
      ip4Routes := w.routes, ip4RoutesCount := w.count, refs := w.refs, routesUpdated := w.updated }

/-- The removal loop of `unroute4`. The mask is not looked at. -/
def unroute4Loop (ip4 : BitVec 32) (count : Int) (refs : Refs TunPtr) (updated : Bool) :
    List Route4Link → List Route4Link → RouteWalk Route4Link
  | prev, [] => ⟨prev.reverse, count, refs, updated⟩
  | prev, curr :: next =>
    if curr.ip4 = ip4 then
      -- remove this link
      ⟨prev.reverse ++ next, count - 1, refs.refPut curr.tunCtx, true⟩
    else if curr.ip4 < ip4 then
      -- no such route
      ⟨prev.reverse ++ curr :: next, count, refs, updated⟩
    else unroute4Loop ip4 count refs updated (curr :: prev) next

/-- `unroute4`. -/
def unroute4 (s : Router) (ip4 : BitVec 32) (_mask : Nat) : Router :=
  let w := unroute4Loop ip4 s.ip4RoutesCount s.refs s.routesUpdated [] s.ip4Routes
  { s with
    ip4Routes := w.routes, ip4RoutesCount := w.count, refs := w.refs, routesUpdated := w.updated }

/-- The removal loops of `unroute`, over IPv4 and over IPv6 links. After a
removal `curr` goes back to `prev`, so `prev` stays where it was. -/
def unrouteLoop {β : Type} (tunOf : β → TunPtr) (tunCtx : TunPtr) :
    List β → List β → Int → Refs TunPtr → Bool → RouteWalk β
  | prev, [], count, refs, updated => ⟨prev.reverse, count, refs, updated⟩
  | prev, curr :: next, count, refs, updated =>
    if tunOf curr = tunCtx then
      unrouteLoop tunOf tunCtx prev next (count - 1) (refs.refPut tunCtx) true
    else unrouteLoop tunOf tunCtx (curr :: prev) next count refs updated

/-- The scan of `unroute` over the first `epoll_links_count` slots. -/
def unrouteLinks (tunCtx : TunPtr) :
    Nat → List EpollLink → Refs TunPtr → List EpollLink × Refs TunPtr
  | 0, links, refs => (links, refs)
  | _ + 1, [], refs => ([], refs)
  | n + 1, link :: links, refs =>
    if link.tunCtx = some tunCtx then
      let r := unrouteLinks tunCtx n links (refs.refPut tunCtx)
      ({ link with tunCtx := none } :: r.1, r.2)
    else
      let r := unrouteLinks tunCtx n links refs
      (link :: r.1, r.2)

/-- The clearing of a default tunnel in `unroute`, for IPv4 and for IPv6. -/
def unrouteDefault (tunCtx : TunPtr) (dflt : Option TunPtr) (refs : Refs TunPtr) (updated : Bool) :
    Option TunPtr × Refs TunPtr × Bool :=
  if dflt = some tunCtx then (none, refs.refPut tunCtx, true) else (dflt, refs, updated)

/-- `unroute`: the descriptor leaves the epoll instance, then the links, the
routes and the defaults of the tunnel go, each with its reference. -/
def unroute (s : Router) (tunCtx : TunPtr) : Router :=
  let epollFds := s.epollFds.erase (s.localFd tunCtx)
  let (links, refs) := unrouteLinks tunCtx s.epollLinksCount s.epollLinks s.refs
  let w4 := unrouteLoop Route4Link.tunCtx tunCtx [] s.ip4Routes s.ip4RoutesCount refs
    s.routesUpdated
  let (dflt4, refs, updated) := unrouteDefault tunCtx s.ip4DefaultTunCtx w4.refs w4.updated
  let w6 := unrouteLoop Route6Link.tunCtx tunCtx [] s.ip6Routes s.ip6RoutesCount refs updated
  let (dflt6, refs, updated) := unrouteDefault tunCtx s.ip6DefaultTunCtx w6.refs w6.updated
  { s with
    epollFds := epollFds, epollLinks := links
    ip4Routes := w4.routes, ip4RoutesCount := w4.count, ip4DefaultTunCtx := dflt4
    ip6Routes := w6.routes, ip6RoutesCount := w6.count, ip6DefaultTunCtx := dflt6
    refs := refs, routesUpdated := updated }

/-- `default4`. The old default is put before the new one is taken. -/
def default4 (s : Router) (tunCtx : TunPtr) : Router :=
  let refs :=
    match s.ip4DefaultTunCtx with
    | some old => s.refs.refPut old
    | none => s.refs
  { s with ip4DefaultTunCtx := some tunCtx, refs := refs.refGet tunCtx, routesUpdated := true }

/-! ## `route4`: what it can do -/

/-- The order of the list: by address, then by prefix length. -/
def Route4Link.key (r : Route4Link) : ℕ ×ₗ ℕ := toLex (r.ip4.toNat, r.mask)

theorem Route4Link.key_lt_key {r r' : Route4Link} :
    r.key < r'.key ↔ r.ip4 < r'.ip4 ∨ (r.ip4 = r'.ip4 ∧ r.mask < r'.mask) := by
  rw [Route4Link.key, Route4Link.key, Prod.Lex.toLex_lt_toLex, BitVec.toNat_inj, BitVec.lt_def]

theorem Route4Link.key_eq_key {r r' : Route4Link} :
    r.key = r'.key ↔ r.ip4 = r'.ip4 ∧ r.mask = r'.mask := by
  rw [Route4Link.key, Route4Link.key, toLex_inj, Prod.mk.injEq, BitVec.toNat_inj]

theorem route4Link_eq (ip4 : BitVec 32) (mask : Nat) (tunCtx : TunPtr) :
    route4Link ip4 mask tunCtx = ⟨netOf (min mask 32) ip4, min mask 32, tunCtx⟩ := by
  have hmask : (if mask > 32 then 32 else mask) = min mask 32 := by
    rw [Nat.min_def]
    split <;> split <;> omega
  have hmod : min mask 32 % 256 = min mask 32 := Nat.mod_eq_of_lt (by omega)
  simp only [route4Link, hmask, hmod, netOf]

/-- The three outcomes of the insertion loop: behind all links, in front of the
first link of smaller key, or in place of the link of the same key. -/
theorem insertLoop_cases {β κ : Type} [LinearOrder κ] (key : β → κ) (tunOf : β → TunPtr)
    {before same : β → Prop} [DecidablePred before] [DecidablePred same] {link : β}
    (hbefore : ∀ r, before r ↔ key r < key link) (hsame : ∀ r, same r ↔ key r = key link)
    (count : Int) (refs : Refs TunPtr) :
    ∀ (l prev : List β), l ≠ [] →
      ((∀ r ∈ l, key link < key r) ∧
        insertLoop tunOf before same link count refs prev l
          = ⟨prev.reverse ++ (l ++ [link]), count, refs, true⟩) ∨
      (∃ pre r post, l = pre ++ r :: post ∧ (∀ x ∈ pre, key link < key x) ∧ key r < key link ∧
        insertLoop tunOf before same link count refs prev l
          = ⟨prev.reverse ++ (pre ++ link :: r :: post), count + 1, refs, true⟩) ∨
      (∃ pre r post, l = pre ++ r :: post ∧ (∀ x ∈ pre, key link < key x) ∧ key r = key link ∧
        insertLoop tunOf before same link count refs prev l
          = ⟨prev.reverse ++ (pre ++ link :: post), count, refs.refPut (tunOf r), true⟩) := by
  intro l
  induction l with
  | nil => intro _ h; exact absurd rfl h
  | cons curr next ih =>
    intro prev _
    unfold insertLoop
    split
    next hlt => exact Or.inr (Or.inl ⟨[], curr, next, rfl, by simp, (hbefore curr).mp hlt, rfl⟩)
    next hge =>
      split
      next heq => exact Or.inr (Or.inr ⟨[], curr, next, rfl, by simp, (hsame curr).mp heq, rfl⟩)
      next hne =>
        have hcurr : key link < key curr :=
          lt_of_le_of_ne (not_lt.mp fun h => hge ((hbefore curr).mpr h))
            fun h => hne ((hsame curr).mpr h.symm)
        cases next with
        | nil => exact Or.inl ⟨by simpa using hcurr, rfl⟩
        | cons n ns =>
          have hpass : ∀ pre : List β, (∀ x ∈ pre, key link < key x) →
              ∀ x ∈ curr :: pre, key link < key x := by
            intro pre hpre x hx
            rcases List.mem_cons.mp hx with rfl | hx'
            · exact hcurr
            · exact hpre x hx'
          rcases ih (curr :: prev) (by simp) with
            ⟨hall, he⟩ | ⟨pre, r, post, hl, hpre, hr, he⟩ | ⟨pre, r, post, hl, hpre, hr, he⟩
          · exact Or.inl ⟨hpass _ hall, by simpa using he⟩
          · exact Or.inr (Or.inl ⟨curr :: pre, r, post, by rw [hl]; rfl, hpass pre hpre, hr,
              by simpa using he⟩)
          · exact Or.inr (Or.inr ⟨curr :: pre, r, post, by rw [hl]; rfl, hpass pre hpre, hr,
              by simpa using he⟩)

/-- As a list, the result is the insertion or overwriting of one key. -/
theorem insertLoop_upsert {β κ : Type} [LinearOrder κ] (key : β → κ) (tunOf : β → TunPtr)
    {before same : β → Prop} [DecidablePred before] [DecidablePred same] {link : β}
    (hbefore : ∀ r, before r ↔ key r < key link) (hsame : ∀ r, same r ↔ key r = key link)
    (count : Int) (refs : Refs TunPtr) {l : List β} (hne : l ≠ []) :
    ∃ count' refs', insertLoop tunOf before same link count refs [] l
      = ⟨upsert key link l, count', refs', true⟩ := by
  rcases insertLoop_cases key tunOf hbefore hsame count refs l [] hne with
    ⟨hall, he⟩ | ⟨pre, r, post, hl, hpre, hr, he⟩ | ⟨pre, r, post, hl, hpre, hr, he⟩
  · refine ⟨count, refs, he.trans ?_⟩
    have hupsert := DescList.upsert_append hall []
    rw [List.append_nil] at hupsert
    rw [hupsert]
    rfl
  · refine ⟨count + 1, refs, he.trans ?_⟩
    rw [hl, DescList.upsert_append hpre, DescList.upsert, if_pos hr]
    rfl
  · refine ⟨count, refs.refPut (tunOf r), he.trans ?_⟩
    rw [hl, DescList.upsert_append hpre, DescList.upsert, if_neg hr.not_lt, if_pos hr]
    rfl

theorem route4Loop_eq (link : Route4Link) (count : Int) (refs : Refs TunPtr) :
    ∀ l prev : List Route4Link,
      route4Loop link count refs prev l =
        insertLoop Route4Link.tunCtx
          (fun curr => curr.ip4 < link.ip4 ∨ (curr.ip4 = link.ip4 ∧ curr.mask < link.mask))
          (fun curr => curr.ip4 = link.ip4 ∧ curr.mask = link.mask) link count refs prev l := by
  intro l
  induction l with
  | nil => exact fun _ => rfl
  | cons curr next ih =>
    intro prev
    unfold route4Loop insertLoop
    cases next with
    | nil => rfl
    | cons n ns =>
      dsimp only
      rw [ih (curr :: prev)]

theorem route4Loop_cases (link : Route4Link) (count : Int) (refs : Refs TunPtr)
    (l prev : List Route4Link) (hne : l ≠ []) :
    ((∀ r ∈ l, link.key < r.key) ∧
      route4Loop link count refs prev l = ⟨prev.reverse ++ (l ++ [link]), count, refs, true⟩) ∨
    (∃ pre r post, l = pre ++ r :: post ∧ (∀ x ∈ pre, link.key < x.key) ∧ r.key < link.key ∧
      route4Loop link count refs prev l
        = ⟨prev.reverse ++ (pre ++ link :: r :: post), count + 1, refs, true⟩) ∨
    (∃ pre r post, l = pre ++ r :: post ∧ (∀ x ∈ pre, link.key < x.key) ∧ r.key = link.key ∧
      route4Loop link count refs prev l
        = ⟨prev.reverse ++ (pre ++ link :: post), count, refs.refPut r.tunCtx, true⟩) := by
  rw [route4Loop_eq]
  exact insertLoop_cases Route4Link.key Route4Link.tunCtx (fun _ => Route4Link.key_lt_key.symm)
    (fun _ => Route4Link.key_eq_key.symm) count refs l prev hne

/-- Everything `route4` can do. The new link goes to the end of the list (an
empty list included), in front of a link of smaller key, or in place of the link
of its key; only the second way is counted. -/
theorem route4_cases (s : Router) (ip4 : BitVec 32) (mask : Nat) (t : TunPtr) :
    ((∀ r ∈ s.ip4Routes, (route4Link ip4 mask t).key < r.key) ∧
      route4 s ip4 mask t =
        { s with
          ip4Routes := s.ip4Routes ++ [route4Link ip4 mask t]
          refs := s.refs.refGet t, routesUpdated := true }) ∨
    (∃ pre r post, s.ip4Routes = pre ++ r :: post ∧
      (∀ x ∈ pre, (route4Link ip4 mask t).key < x.key) ∧ r.key < (route4Link ip4 mask t).key ∧
      route4 s ip4 mask t =
        { s with
          ip4Routes := pre ++ route4Link ip4 mask t :: r :: post
          ip4RoutesCount := s.ip4RoutesCount + 1
          refs := s.refs.refGet t, routesUpdated := true }) ∨
    (∃ pre r post, s.ip4Routes = pre ++ r :: post ∧
      (∀ x ∈ pre, (route4Link ip4 mask t).key < x.key) ∧ r.key = (route4Link ip4 mask t).key ∧
      route4 s ip4 mask t =
        { s with
          ip4Routes := pre ++ route4Link ip4 mask t :: post
          refs := (s.refs.refGet t).refPut r.tunCtx, routesUpdated := true }) := by
  unfold route4
  cases hl : s.ip4Routes with
  | nil => exact Or.inl ⟨by simp, rfl⟩
  | cons curr next =>
    rcases route4Loop_cases (route4Link ip4 mask t) s.ip4RoutesCount (s.refs.refGet t)
        (curr :: next) [] (by simp) with
      ⟨hall, he⟩ | ⟨pre, r, post, hsplit, hpre, hr, he⟩ | ⟨pre, r, post, hsplit, hpre, hr, he⟩
    · exact Or.inl ⟨hall, by simp only [he]; rfl⟩
    · exact Or.inr (Or.inl ⟨pre, r, post, hsplit, hpre, hr, by simp only [he]; rfl⟩)
    · exact Or.inr (Or.inr ⟨pre, r, post, hsplit, hpre, hr, by simp only [he]; rfl⟩)

/-- `route4` inserts or overwrites one key. -/
theorem route4_routes (s : Router) (ip4 : BitVec 32) (mask : Nat) (t : TunPtr) :
    (route4 s ip4 mask t).ip4Routes
      = upsert Route4Link.key (route4Link ip4 mask t) s.ip4Routes := by
  unfold route4
  cases hl : s.ip4Routes with
  | nil => rfl
  | cons curr next =>
    obtain ⟨count, refs, he⟩ := insertLoop_upsert Route4Link.key Route4Link.tunCtx
      (fun _ => Route4Link.key_lt_key.symm) (fun _ => Route4Link.key_eq_key.symm)
      s.ip4RoutesCount (s.refs.refGet t) (List.cons_ne_nil curr next)
    show (route4Loop _ _ _ [] (curr :: next)).routes = _
    rw [route4Loop_eq, he]

/-! ## `unroute4`: what it can do -/

theorem unroute4Loop_cases (ip4 : BitVec 32) (count : Int) (refs : Refs TunPtr) (updated : Bool) :
    ∀ (l prev : List Route4Link),
      (∃ pre r post, l = pre ++ r :: post ∧ (∀ x ∈ pre, ip4 < x.ip4) ∧ r.ip4 = ip4 ∧
        unroute4Loop ip4 count refs updated prev l
          = ⟨prev.reverse ++ (pre ++ post), count - 1, refs.refPut r.tunCtx, true⟩) ∨
      (∃ pre post, l = pre ++ post ∧ (∀ x ∈ pre, ip4 < x.ip4) ∧ (∀ r ∈ post.head?, r.ip4 < ip4) ∧
        unroute4Loop ip4 count refs updated prev l = ⟨prev.reverse ++ l, count, refs, updated⟩) := by
  intro l
  induction l with
  | nil => exact fun prev => Or.inr ⟨[], [], rfl, by simp, by simp, by simp [unroute4Loop]⟩
  | cons curr next ih =>
    intro prev
    unfold unroute4Loop
    split
    next heq => exact Or.inl ⟨[], curr, next, rfl, by simp, heq, rfl⟩
    next hne =>
      split
      next hlt => exact Or.inr ⟨[], curr :: next, rfl, by simp, by simpa using hlt, rfl⟩
      next hge =>
        have hcurr : ip4 < curr.ip4 := by
          rw [BitVec.lt_def] at hge ⊢
          have hne' : curr.ip4.toNat ≠ ip4.toNat := fun h => hne (BitVec.eq_of_toNat_eq h)
          omega
        have hpass : ∀ pre : List Route4Link, (∀ x ∈ pre, ip4 < x.ip4) →
            ∀ x ∈ curr :: pre, ip4 < x.ip4 := by
          intro pre hpre x hx
          rcases List.mem_cons.mp hx with rfl | hx'
          · exact hcurr
          · exact hpre x hx'
        rcases ih (curr :: prev) with ⟨pre, r, post, hl, hpre, hr, he⟩ | ⟨pre, post, hl, hpre, hr, he⟩
        · exact Or.inl ⟨curr :: pre, r, post, by rw [hl]; rfl, hpass pre hpre, hr, by simpa using he⟩
        · exact Or.inr ⟨curr :: pre, post, by rw [hl]; rfl, hpass pre hpre, hr, by simpa using he⟩

/-- Everything `unroute4` can do: take out the first link of that very address,
or stop at a smaller address (or at the end) and change nothing. -/
theorem unroute4_cases (s : Router) (ip4 : BitVec 32) (mask : Nat) :
    (∃ pre r post, s.ip4Routes = pre ++ r :: post ∧ (∀ x ∈ pre, ip4 < x.ip4) ∧ r.ip4 = ip4 ∧
      unroute4 s ip4 mask =
        { s with
          ip4Routes := pre ++ post, ip4RoutesCount := s.ip4RoutesCount - 1
          refs := s.refs.refPut r.tunCtx, routesUpdated := true }) ∨
    (∃ pre post, s.ip4Routes = pre ++ post ∧ (∀ x ∈ pre, ip4 < x.ip4) ∧
      (∀ r ∈ post.head?, r.ip4 < ip4) ∧ unroute4 s ip4 mask = s) := by
  unfold unroute4
  rcases unroute4Loop_cases ip4 s.ip4RoutesCount s.refs s.routesUpdated s.ip4Routes [] with
    ⟨pre, r, post, hl, hpre, hr, he⟩ | ⟨pre, post, hl, hpre, hr, he⟩
  · exact Or.inl ⟨pre, r, post, hl, hpre, hr, by simp only [he]; rfl⟩
  · exact Or.inr ⟨pre, post, hl, hpre, hr, by simp only [he]; rfl⟩

/-! ## `unroute` and `default4` in closed form -/

/-- The tunnels of a list of epoll slots. -/
def linkTuns (links : List EpollLink) : List TunPtr := links.filterMap EpollLink.tunCtx

/-- A slot after the scan of `unroute`. -/
def EpollLink.clear (t : TunPtr) (link : EpollLink) : EpollLink :=
  if link.tunCtx = some t then { link with tunCtx := none } else link

/-- The tunnels of the IPv4 routes and default and of the IPv6 ones. -/
def RouterCtx.routeTuns (s : RouterCtx) : List TunPtr :=
  s.ip4Routes.map Route4Link.tunCtx ++ (s.ip4DefaultTunCtx.toList
    ++ (s.ip6Routes.map Route6Link.tunCtx ++ s.ip6DefaultTunCtx.toList))

/-- Everything that `unroute` inspects, in the order in which it drops it: the
first `epoll_links_count` slots, then the routes and defaults. -/
def RouterCtx.scanned (s : RouterCtx) : List TunPtr :=
  linkTuns (s.epollLinks.take s.epollLinksCount) ++ s.routeTuns

theorem unrouteLoop_eq {β : Type} (tunOf : β → TunPtr) (t : TunPtr) :
    ∀ (l prev : List β) (count : Int) (refs : Refs TunPtr) (updated : Bool),
      unrouteLoop tunOf t prev l count refs updated =
        ⟨prev.reverse ++ l.filter (fun r => tunOf r ≠ t), count - (l.map tunOf).count t,
          refs.putAll (List.replicate ((l.map tunOf).count t) t),
          updated || decide (t ∈ l.map tunOf)⟩ := by
  intro l
  induction l with
  | nil => intro prev count refs updated; simp [unrouteLoop]
  | cons curr next ih =>
    intro prev count refs updated
    unfold unrouteLoop
    by_cases h : tunOf curr = t
    · rw [if_pos h, ih]
      simp [h, List.replicate_succ]
      omega
    · rw [if_neg h, ih]
      simp [h, Ne.symm h]

theorem unrouteLinks_eq (t : TunPtr) :
    ∀ (n : Nat) (links : List EpollLink) (refs : Refs TunPtr),
      unrouteLinks t n links refs =
        ((links.take n).map (EpollLink.clear t) ++ links.drop n,
          refs.putAll (List.replicate ((linkTuns (links.take n)).count t) t)) := by
  intro n
  induction n with
  | zero => intro links refs; simp [unrouteLinks, linkTuns]
  | succ n ih =>
    intro links refs
    cases links with
    | nil => simp [unrouteLinks, linkTuns]
    | cons link links =>
      unfold unrouteLinks
      by_cases h : link.tunCtx = some t
      · rw [if_pos h, ih]
        simp [linkTuns, EpollLink.clear, h, List.replicate_succ]
      · rw [if_neg h, ih]
        cases hl : link.tunCtx with
        | none => simp [linkTuns, EpollLink.clear, hl]
        | some u =>
          have hu : u ≠ t := fun he => h (by rw [hl, he])
          simp [linkTuns, EpollLink.clear, hl, hu]

theorem unrouteDefault_eq (t : TunPtr) (dflt : Option TunPtr) (refs : Refs TunPtr)
    (updated : Bool) :
    unrouteDefault t dflt refs updated =
      (dflt.filter (fun u => u ≠ t), refs.putAll (List.replicate (dflt.toList.count t) t),
        updated || decide (t ∈ dflt.toList)) := by
  unfold unrouteDefault
  cases dflt with
  | none => simp
  | some u =>
    by_cases h : u = t
    · simp [h, Option.filter]
    · simp [h, Ne.symm h, Option.filter]

/-- What `unroute` does: the descriptor, every scanned link, route and default
of the tunnel go, and one reference for each of them. -/
theorem unroute_eq (s : Router) (t : TunPtr) :
    unroute s t =
      { s with
        epollFds := s.epollFds.erase (s.localFd t)
        epollLinks := (s.epollLinks.take s.epollLinksCount).map (EpollLink.clear t)
          ++ s.epollLinks.drop s.epollLinksCount
        ip4Routes := s.ip4Routes.filter (fun r => r.tunCtx ≠ t)
        ip4RoutesCount := s.ip4RoutesCount - (s.ip4Routes.map Route4Link.tunCtx).count t
        ip4DefaultTunCtx := s.ip4DefaultTunCtx.filter (fun u => u ≠ t)
        ip6Routes := s.ip6Routes.filter (fun r => r.tunCtx ≠ t)
        ip6RoutesCount := s.ip6RoutesCount - (s.ip6Routes.map Route6Link.tunCtx).count t
        ip6DefaultTunCtx := s.ip6DefaultTunCtx.filter (fun u => u ≠ t)
        refs := s.refs.putAll (List.replicate (s.scanned.count t) t)
        routesUpdated := s.routesUpdated || decide (t ∈ s.routeTuns) } := by
  unfold unroute
  simp only [unrouteLinks_eq, unrouteLoop_eq, unrouteDefault_eq, ← Refs.putAll_append,
    List.replicate_append_replicate, List.reverse_nil, List.nil_append]
  simp only [RouterCtx.scanned, RouterCtx.routeTuns, List.count_append, List.mem_append,
    Bool.decide_or, Bool.or_assoc, Nat.add_assoc]

end ConfProfile
