import ConfProfile.Lib.LinkedList
import ConfProfile.Lib.Loop
import ConfProfile.Usernat.Table

/-!
# `usernat_set_pid_for_link` in memory

`ConfProfile.Usernat.Table` has the walk as a function of the list of links. Here it is the
loop of the source: pointers into the memory of the links, a `next` field that is bent around
a deleted link, and the loop that sends the detached queue.

`Walking` is what every turn keeps: the links that are kept lead to `curr_link`, the others
lead on from there to NULL, and `prev_link` is the last of the kept. So the loop ends for
every list (`walk_endsIn`) and leaves what `setPidLoop` says; what that is for the links
themselves is `setPidLoop_eq`. The walk does not stop at a target that has run out itself:
it is deleted and the walk goes on behind it.
-/

namespace ConfProfile

open LinkedList

/-- `instance->links` and the memory of the links. -/
structure LinkMem where
  cells : Cells LinkEntry
  links : Nat

/-- The memory has the links of a list, from `instance->links` on. -/
def LinkMem.Holds (mem : LinkMem) (entries : List LinkEntry) : Prop :=
  IsList LinkEntry.ptr mem.cells mem.links entries

/-- `usernat_set_pid_for_link` in its first loop; `found` is its `break`. -/
structure SetPidWalk extends LinkMem where
  currLink : Nat
  prevLink : Nat
  found : Bool

def LinkMem.walk (mem : LinkMem) : SetPidWalk := ⟨mem, mem.links, 0, false⟩

/-- A turn of the first loop. There is no next state where `curr_link` is dangling. -/
def SetPidWalk.turn (link : Nat) (w : SetPidWalk) : SetPidWalk :=
  match w.cells w.currLink with
  | none => w
  | some ⟨next, curr⟩ =>
    let cells := w.cells.setVal w.currLink curr.age
    if curr.age.link.Expired then
      { w with
        -- if prev_link is NULL, we're at the 1st element of list
        cells := (if w.prevLink = 0 then cells else cells.setNext w.prevLink next).free w.currLink
        links := if w.prevLink = 0 then next else w.links
        currLink := next }
    else if w.currLink = link then { w with cells := cells, found := true }
    else { w with cells := cells, prevLink := w.currLink, currLink := next }

def SetPidWalk.Over (w : SetPidWalk) : Prop := w.currLink = 0 ∨ w.found = true

/-- The rest of the locked section: the memory and `q`. -/
def SetPidWalk.finish (pid : Int) (w : SetPidWalk) : LinkMem × Option (List QueueLink) :=
  if w.currLink = 0 then
    -- no such link
    (w.toLinkMem, none)
  else
    match w.cells w.currLink with
    | none => (w.toLinkMem, none)
    | some ⟨_, curr⟩ =>
      ({ w.toLinkMem with cells := w.cells.setVal w.currLink (curr.setPid pid) },
        curr.link.packetsQueue)

/-- The second loop: what is left in `q`, and what went to `dev_tun_ctx->send`. -/
structure SendQueue where
  queue : List QueueLink
  sent : List QueueLink

def SendQueue.turn (s : SendQueue) : SendQueue := ⟨s.queue.tail, s.sent ++ s.queue.head?.toList⟩

def SendQueue.Over (s : SendQueue) : Prop := s.queue = []

/-- `usernat_set_pid_for_link` returns, and leaves `mem'` with `sent` sent. -/
inductive SetPidReturns (link : Nat) (pid : Int) (mem : LinkMem) :
    LinkMem → List QueueLink → Prop
  | null (hlink : link = 0) : SetPidReturns link pid mem mem []
  | walked {w : SetPidWalk} {s : SendQueue} (hlink : link ≠ 0)
      (hwalk : Loop.EndsIn (SetPidWalk.turn link) SetPidWalk.Over mem.walk w)
      (hsend : Loop.EndsIn SendQueue.turn SendQueue.Over ⟨(w.finish pid).2.getD [], []⟩ s) :
      SetPidReturns link pid mem (w.finish pid).1 s.sent

/-- The call returns in one way only. -/
theorem SetPidReturns.unique {link : Nat} {pid : Int} {mem mem₁ mem₂ : LinkMem}
    {sent₁ sent₂ : List QueueLink} (h₁ : SetPidReturns link pid mem mem₁ sent₁)
    (h₂ : SetPidReturns link pid mem mem₂ sent₂) : mem₁ = mem₂ ∧ sent₁ = sent₂ := by
  cases h₁ with
  | null hlink =>
    cases h₂ with
    | null => exact ⟨rfl, rfl⟩
    | walked hlink' => exact absurd hlink hlink'
  | walked hlink hwalk₁ hsend₁ =>
    cases h₂ with
    | null hlink' => exact absurd hlink' hlink
    | walked _ hwalk₂ hsend₂ =>
      cases hwalk₁.unique hwalk₂
      cases hsend₁.unique hsend₂
      exact ⟨rfl, rfl⟩

/-! ## The loop over the links -/

/-- What every turn keeps: `kept` is behind the walk and `rest` before it; any other memory is
as `base` has it. -/
structure Walking (base : Cells LinkEntry) (kept rest : List LinkEntry) (w : SetPidWalk) : Prop where
  behind : Segment LinkEntry.ptr w.cells w.links kept w.currLink
  ahead : IsList LinkEntry.ptr w.cells w.currLink rest
  nodup : ((kept ++ rest).map LinkEntry.ptr).Nodup
  prev : w.prevLink = (kept.getLast?.map LinkEntry.ptr).getD 0
  going : w.found = false
  outside : ∀ p ∉ (kept ++ rest).map LinkEntry.ptr, w.cells p = base p

section turn

variable {base : Cells LinkEntry} {kept rest : List LinkEntry} {curr : LinkEntry}
  {w : SetPidWalk} {link : Nat}

@[simp] theorem age_ptr (e : LinkEntry) : e.age.ptr = e.ptr := rfl

theorem Walking.not_over (h : Walking base kept (curr :: rest) w) : ¬ w.Over := by
  intro hover
  obtain ⟨hcurr, -⟩ := segment_cons.mp h.ahead
  rcases hover with hnull | hfound
  · exact hcurr hnull
  · rw [h.going] at hfound
    cases hfound

theorem Walking.over_nil (h : Walking base kept [] w) : w.Over :=
  Or.inl (segment_nil.mp h.ahead)

/-- No other link is at the address of the link that the walk is at. -/
theorem Walking.fresh (h : Walking base kept (curr :: rest) w) :
    w.currLink ∉ kept.map LinkEntry.ptr ∧ w.currLink ∉ rest.map LinkEntry.ptr ∧
      ((kept ++ rest).map LinkEntry.ptr).Nodup := by
  obtain ⟨-, hptr, -⟩ := segment_cons.mp h.ahead
  have hnodup := h.nodup
  rw [List.map_append, List.map_cons, List.nodup_middle, ← List.map_append, List.nodup_cons, hptr,
    List.map_append, List.mem_append, not_or] at hnodup
  rw [List.map_append]
  exact ⟨hnodup.1.1, hnodup.1.2, hnodup.2⟩

/-- What the memory that is not of the list has become once `curr_link` is freed. -/
theorem Walking.outside_free (h : Walking base kept (curr :: rest) w)
    (hbase : base w.currLink = none) {cells : Cells LinkEntry}
    (hcells : ∀ p ∉ kept.map LinkEntry.ptr, p ≠ w.currLink → cells p = w.cells p) :
    ∀ p ∉ (kept ++ rest).map LinkEntry.ptr, cells.free w.currLink p = base p := by
  obtain ⟨-, hptr, -⟩ := segment_cons.mp h.ahead
  intro p hp
  rw [List.map_append, List.mem_append, not_or] at hp
  by_cases hpc : p = w.currLink
  · rw [hpc, Cells.free_self, hbase]
  · rw [Cells.free_of_ne _ hpc, hcells p hp.1 hpc]
    refine h.outside p ?_
    rw [List.map_append, List.map_cons, List.mem_append, List.mem_cons, hptr]
    rintro (hmem | heq | hmem)
    · exact hp.1 hmem
    · exact hpc heq
    · exact hp.2 hmem

/-- The turn at a link that has run out: it is deleted. -/
theorem Walking.turn_expired (h : Walking base kept (curr :: rest) w)
    (hexpired : curr.age.link.Expired) (hbase : base w.currLink = none) :
    Walking base kept rest (w.turn link) := by
  obtain ⟨-, -, next, hcell, hrest⟩ := segment_cons.mp h.ahead
  obtain ⟨hkept, hfresh, hnodup⟩ := h.fresh
  have hturn : w.turn link = { w with
      cells := (if w.prevLink = 0 then w.cells.setVal w.currLink curr.age
        else (w.cells.setVal w.currLink curr.age).setNext w.prevLink next).free w.currLink
      links := if w.prevLink = 0 then next else w.links
      currLink := next } := by
    unfold SetPidWalk.turn
    simp only [hcell, if_pos hexpired]
  rw [hturn]
  rcases List.eq_nil_or_concat kept with rfl | ⟨front, last, rfl⟩
  · -- the head of the table is deleted
    have hprev : w.prevLink = 0 := h.prev
    simp only [if_pos hprev]
    refine ⟨.nil, (hrest.setVal_of_not_mem hfresh _).free hfresh, hnodup, hprev, h.going,
      h.outside_free hbase fun p _ hp => Cells.setVal_of_ne _ _ hp⟩
  · -- the link before it is made to point behind it
    rw [List.concat_eq_append] at *
    have hprev : w.prevLink = last.ptr := by
      rw [h.prev, List.getLast?_concat, Option.map_some, Option.getD_some]
    have hmem : last.ptr ∈ (front ++ [last]).map LinkEntry.ptr :=
      List.mem_map_of_mem (List.mem_append_right _ (List.mem_singleton_self _))
    have hlast : last.ptr ≠ 0 := by
      obtain ⟨r, -, hcons⟩ := segment_append.mp h.behind
      obtain ⟨hr, hlr, -⟩ := segment_cons.mp hcons
      rwa [hlr]
    rw [List.map_append, List.nodup_append] at hnodup
    have hrestLast : last.ptr ∉ rest.map LinkEntry.ptr :=
      fun hrest => hnodup.2.2 _ hmem _ hrest rfl
    simp only [hprev, if_neg hlast]
    refine ⟨(h.behind.setVal_of_not_mem hkept _).unlink hnodup.1 hkept next,
      ((hrest.setVal_of_not_mem hfresh _).setNext_of_not_mem hrestLast next).free hfresh,
      by rwa [List.map_append, List.nodup_append], ?_, h.going,
      h.outside_free hbase fun p hp hpc => ?_⟩
    · rw [List.getLast?_concat, Option.map_some, Option.getD_some]
    · have hpl : p ≠ last.ptr := fun heq => hp (heq ▸ hmem)
      rw [Cells.setNext_of_ne _ _ hpl, Cells.setVal_of_ne _ _ hpc]

/-- What a turn that keeps the link leaves of the memory: the link is a cycle older. -/
theorem Walking.aged (h : Walking base kept (curr :: rest) w) :
    Segment LinkEntry.ptr (w.cells.setVal w.currLink curr.age) w.links kept w.currLink ∧
      IsList LinkEntry.ptr (w.cells.setVal w.currLink curr.age) w.currLink (curr.age :: rest) ∧
      ∀ p ∉ (kept ++ curr.age :: rest).map LinkEntry.ptr,
        w.cells.setVal w.currLink curr.age p = base p := by
  obtain ⟨-, hptr, -⟩ := segment_cons.mp h.ahead
  obtain ⟨hkept, hrest, -⟩ := h.fresh
  refine ⟨h.behind.setVal_of_not_mem hkept _, h.ahead.setVal hrest hptr, fun p hp => ?_⟩
  · rw [List.map_append, List.map_cons, age_ptr, ← List.map_cons, ← List.map_append] at hp
    rw [Cells.setVal_of_ne, h.outside p hp]
    rintro rfl
    exact hp (List.mem_map.mpr ⟨curr, List.mem_append_right _ List.mem_cons_self, hptr⟩)

/-- The turn at a link that is passed. -/
theorem Walking.turn_passed (h : Walking base kept (curr :: rest) w)
    (hexpired : ¬ curr.age.link.Expired) (hlink : curr.ptr ≠ link) :
    Walking base (kept ++ [curr.age]) rest (w.turn link) := by
  obtain ⟨hkept, -, houtside⟩ := h.aged
  obtain ⟨hcurr, hptr, next, hcell, hrest⟩ := segment_cons.mp h.ahead
  have hturn : w.turn link = { w with
      cells := w.cells.setVal w.currLink curr.age
      prevLink := w.currLink
      currLink := next } := by
    unfold SetPidWalk.turn
    simp only [hcell, if_neg hexpired, if_neg (hptr ▸ hlink)]
  rw [hturn]
  refine ⟨segment_append.mpr ⟨_, hkept, .cons hcurr hptr (Cells.setVal_self _ hcell) .nil⟩,
    hrest.setVal_of_not_mem h.fresh.2.1 _, ?_, ?_, h.going, ?_⟩
  · have hnodup := h.nodup
    rwa [List.map_append, List.map_cons, ← age_ptr, ← List.map_cons, ← List.map_append,
      List.append_cons] at hnodup
  · rw [List.getLast?_concat, Option.map_some, Option.getD_some]
    exact hptr.symm
  · rwa [← List.append_cons]

/-- The turn at the link that the walk looks for. -/
theorem Walking.turn_found (h : Walking base kept (curr :: rest) w)
    (hexpired : ¬ curr.age.link.Expired) (hlink : curr.ptr = link) :
    w.turn link = { w with cells := w.cells.setVal w.currLink curr.age, found := true } := by
  obtain ⟨-, hptr, next, hcell, -⟩ := segment_cons.mp h.ahead
  unfold SetPidWalk.turn
  simp only [hcell, if_neg hexpired, if_pos (hptr.symm.trans hlink)]

/-- The target gets its pid. -/
theorem Walking.finish_found (pid : Int) (h : Walking base kept (curr :: rest) w)
    (hexpired : ¬ curr.age.link.Expired) (hlink : curr.ptr = link) :
    ((w.turn link).finish pid).1.Holds (kept ++ curr.age.setPid pid :: rest) ∧
      ((w.turn link).finish pid).2 = curr.age.link.packetsQueue ∧
      ∀ p ∉ (kept ++ curr.age.setPid pid :: rest).map LinkEntry.ptr,
        ((w.turn link).finish pid).1.cells p = base p := by
  obtain ⟨hbehind, hahead, houtside⟩ := h.aged
  obtain ⟨hkept, hrest, -⟩ := h.fresh
  obtain ⟨hcurr, hptr, next, hcell, -⟩ := segment_cons.mp h.ahead
  rw [h.turn_found hexpired hlink]
  unfold SetPidWalk.finish
  simp only [if_neg hcurr, Cells.setVal_self _ hcell]
  refine ⟨segment_append.mpr ⟨_, hbehind.setVal_of_not_mem hkept _, hahead.setVal hrest hptr⟩,
    trivial, fun p hp => ?_⟩
  have hmap : (kept ++ curr.age.setPid pid :: rest).map LinkEntry.ptr =
      (kept ++ curr.age :: rest).map LinkEntry.ptr := by
    simp only [List.map_append, List.map_cons]
    rfl
  rw [hmap] at hp
  rw [Cells.setVal_of_ne, houtside p hp]
  rintro rfl
  exact hp (List.mem_map.mpr ⟨curr.age, List.mem_append_right _ List.mem_cons_self, hptr⟩)

/-- The loop ends. It leaves what `setPidLoop` says of the links that were before it, and
frees what it takes out of them. -/
theorem Walking.endsIn (pid : Int) (h : Walking base kept rest w)
    (hbase : ∀ e ∈ rest, base e.ptr = none) :
    ∃ w', Loop.EndsIn (SetPidWalk.turn link) SetPidWalk.Over w w' ∧
      (w'.finish pid).1.Holds (kept ++ (setPidLoop link pid rest).1) ∧
      (w'.finish pid).2 = (setPidLoop link pid rest).2.bind (fun e => e.link.packetsQueue) ∧
      ∀ p ∉ (kept ++ (setPidLoop link pid rest).1).map LinkEntry.ptr,
        (w'.finish pid).1.cells p = base p := by
  induction rest generalizing kept w with
  | nil =>
    have hnull : w.currLink = 0 := segment_nil.mp h.ahead
    have hbehind := h.behind
    have houtside := h.outside
    rw [hnull] at hbehind
    rw [List.append_nil] at houtside
    refine ⟨w, .stop h.over_nil, ?_⟩
    unfold SetPidWalk.finish
    rw [if_pos hnull, setPidLoop, List.append_nil]
    exact ⟨hbehind, rfl, houtside⟩
  | cons curr rest ih =>
    rw [List.forall_mem_cons] at hbase
    obtain ⟨-, hptr, -⟩ := segment_cons.mp h.ahead
    rw [setPidLoop]
    split
    next hexpired =>
      obtain ⟨w', hends, hrest⟩ := ih (h.turn_expired hexpired (hptr ▸ hbase.1)) hbase.2
      exact ⟨w', .turn h.not_over hends, hrest⟩
    next hexpired =>
      split
      next hlink =>
        refine ⟨_, .turn h.not_over (.stop ?_), h.finish_found pid hexpired hlink⟩
        rw [h.turn_found hexpired hlink]
        exact Or.inr rfl
      next hlink =>
        obtain ⟨w', hends, hrest⟩ := ih (h.turn_passed hexpired hlink) hbase.2
        refine ⟨w', .turn h.not_over hends, ?_⟩
        rwa [List.append_assoc] at hrest

end turn

/-! ## The call -/

/-- The loop that empties `q` sends it in order. -/
theorem sendQueue_endsIn (queue sent : List QueueLink) :
    Loop.EndsIn SendQueue.turn SendQueue.Over ⟨queue, sent⟩ ⟨[], sent ++ queue⟩ := by
  induction queue generalizing sent with
  | nil =>
    rw [List.append_nil]
    exact .stop rfl
  | cons ql queue ih =>
    refine .turn (List.cons_ne_nil ql queue) ?_
    rw [List.append_cons]
    exact ih (sent ++ [ql])

/-- The memory with the links of a list taken out. -/
def LinkMem.without (mem : LinkMem) (entries : List LinkEntry) : Cells LinkEntry := fun p =>
  if p ∈ entries.map LinkEntry.ptr then none else mem.cells p

theorem LinkMem.Holds.walking {mem : LinkMem} {entries : List LinkEntry} (h : mem.Holds entries) :
    Walking (mem.without entries) [] entries mem.walk :=
  ⟨.nil, h, h.nodup, rfl, rfl, fun _ hp => (if_neg hp).symm⟩

/-- The call returns for every list of links, and the memory has what
`usernatSetPidForLink` makes of them; the links it takes out are freed, and the rest of the
memory is as it was. -/
theorem setPidReturns_of_holds {mem : LinkMem} {entries : List LinkEntry} (h : mem.Holds entries)
    (link : Nat) (pid : Int) :
    ∃ mem', SetPidReturns link pid mem mem'
        (((usernatSetPidForLink link pid entries).2.bind fun e => e.link.packetsQueue).getD []) ∧
      mem'.Holds (usernatSetPidForLink link pid entries).1 ∧
      ∀ p ∉ (usernatSetPidForLink link pid entries).1.map LinkEntry.ptr,
        mem'.cells p = mem.without entries p := by
  unfold usernatSetPidForLink
  split
  next hlink =>
    exact ⟨mem, .null hlink, h, fun p hp => (if_neg hp).symm⟩
  next hlink =>
    have hbase : ∀ e ∈ entries, mem.without entries e.ptr = none :=
      fun e he => if_pos (List.mem_map_of_mem he)
    obtain ⟨w, hends, hholds, hqueue, houtside⟩ := h.walking.endsIn pid hbase
    have hreturns := SetPidReturns.walked hlink hends (sendQueue_endsIn ((w.finish pid).2.getD []) [])
    rw [List.nil_append, hqueue] at hreturns
    exact ⟨_, hreturns, hholds, houtside⟩


/-! ## What becomes of the links -/

/-- A dead link that has no cycle left once the walk has come to it. -/
def NatLink.RunOut (link : NatLink) : Prop :=
  link.socatPid = -1 ∧ (link.cyclesToLive = 0 ∨ link.cyclesToLive = 1)

instance (link : NatLink) : Decidable link.RunOut := inferInstanceAs (Decidable (_ ∧ _))

/-- How far the walk goes: not at all for NULL, up to the target where the target has not run
out, and else through the whole table. -/
inductive WalkTo (link : Nat) : List LinkEntry → List LinkEntry → Prop
  | null {rest : List LinkEntry} (hlink : link = 0) : WalkTo link [] rest
  | target (front : List LinkEntry) {rest : List LinkEntry} {e : LinkEntry} (hlink : link ≠ 0) (hptr : e.ptr = link)
      (hstays : ¬ e.link.RunOut) : WalkTo link (front ++ [e]) rest
  | all {walked : List LinkEntry} (hlink : link ≠ 0)
      (hgone : ∀ e ∈ walked, e.ptr = link → e.link.RunOut) : WalkTo link walked []

/-- The links that the walk comes to and does not delete. -/
def staying (walked : List LinkEntry) : List LinkEntry := walked.filter fun e => ¬ e.link.RunOut

/-- A link that the walk passes: only the counter of a dead link changes. -/
def LinkEntry.passed (e : LinkEntry) : LinkEntry :=
  { e with link := { e.link with
    cyclesToLive := if e.link.socatPid = -1 ∧ 0 < e.link.cyclesToLive then e.link.cyclesToLive - 1
      else e.link.cyclesToLive } }

/-- What the walk leaves of a link that stays. -/
def LinkEntry.afterSetPid (link : Nat) (pid : Int) (e : LinkEntry) : LinkEntry :=
  if e.ptr = link then
    { e.passed with link := { e.passed.link with
      socatPid := pid
      enqueuePackets := false
      packetsQueue := none
      cyclesToLive := if pid = -1 then 100 else e.passed.link.cyclesToLive } }
  else e.passed

/-- The packets in the queue of the target. -/
def targetQueue (link : Nat) (entries : List LinkEntry) : List QueueLink :=
  entries.flatMap fun e => if e.ptr = link then e.link.packetsQueue.getD [] else []

theorem age_eq_passed (e : LinkEntry) : e.age = e.passed := by
  unfold LinkEntry.age NatLink.age LinkEntry.passed
  simp only [gt_iff_lt, and_comm]
  split <;> rfl

theorem passed_expired_iff (e : LinkEntry) : e.passed.link.Expired ↔ e.link.RunOut := by
  unfold LinkEntry.passed NatLink.Expired NatLink.RunOut
  dsimp only
  split <;> omega

section walkTo

variable {link : Nat} {walked rest : List LinkEntry} {e : LinkEntry}

theorem WalkTo.cons (h : WalkTo link walked rest) (hlink : link ≠ 0)
    (hgone : e.ptr = link → e.link.RunOut) : WalkTo link (e :: walked) rest := by
  cases h with
  | null hnull => exact absurd hnull hlink
  | target front _ hptr hstays => exact .target (e :: front) hlink hptr hstays
  | all _ hrest => exact .all hlink (List.forall_mem_cons.mpr ⟨hgone, hrest⟩)

theorem staying_cons_of_runOut (h : e.link.RunOut) : staying (e :: walked) = staying walked :=
  List.filter_cons_of_neg (by simpa using h)

theorem staying_cons (h : ¬ e.link.RunOut) : staying (e :: walked) = e :: staying walked :=
  List.filter_cons_of_pos (by simpa using h)

theorem targetQueue_cons : targetQueue link (e :: walked) =
    (if e.ptr = link then e.link.packetsQueue.getD [] else []) ++ targetQueue link walked :=
  List.flatMap_cons

end walkTo

/-- The walk takes the links out that have run out, as far as it goes. -/
theorem setPidLoop_eq {link : Nat} (hlink : link ≠ 0) (pid : Int) (entries : List LinkEntry) :
    ∃ walked rest, entries = walked ++ rest ∧ WalkTo link walked rest ∧
      (setPidLoop link pid entries).1 =
        (staying walked).map (LinkEntry.afterSetPid link pid) ++ rest ∧
      ((setPidLoop link pid entries).2.bind fun e => e.link.packetsQueue).getD [] =
        targetQueue link (staying walked) := by
  induction entries with
  | nil => exact ⟨[], [], rfl, .all hlink (by simp), rfl, rfl⟩
  | cons curr entries ih =>
    obtain ⟨walked, rest, hentries, hwalk, hlinks, hqueue⟩ := ih
    rw [setPidLoop]
    simp only [age_eq_passed, passed_expired_iff]
    split
    next hout =>
      refine ⟨curr :: walked, rest, by rw [hentries, List.cons_append],
        hwalk.cons hlink fun _ => hout, ?_, ?_⟩
      · rw [staying_cons_of_runOut hout, hlinks]
      · rw [staying_cons_of_runOut hout, hqueue]
    next hout =>
      split
      next hptr =>
        refine ⟨[curr], entries, rfl, .target [] hlink hptr hout, ?_, ?_⟩
        · rw [staying_cons hout, List.map_cons, LinkEntry.afterSetPid, if_pos hptr]
          rfl
        · rw [staying_cons hout, targetQueue_cons, if_pos hptr]
          exact (List.append_nil _).symm
      next hptr =>
        refine ⟨curr :: walked, rest, by rw [hentries, List.cons_append],
          hwalk.cons hlink fun heq => absurd heq hptr, ?_, ?_⟩
        · rw [staying_cons hout, List.map_cons, LinkEntry.afterSetPid, if_neg hptr, hlinks,
            List.cons_append]
        · rw [hqueue, staying_cons hout, targetQueue_cons, if_neg hptr, List.nil_append]

/-- The same of the whole call. -/
theorem usernatSetPidForLink_eq (link : Nat) (pid : Int) (entries : List LinkEntry) :
    ∃ walked rest, entries = walked ++ rest ∧ WalkTo link walked rest ∧
      (usernatSetPidForLink link pid entries).1 =
        (staying walked).map (LinkEntry.afterSetPid link pid) ++ rest ∧
      ((usernatSetPidForLink link pid entries).2.bind fun e => e.link.packetsQueue).getD [] =
        targetQueue link (staying walked) := by
  unfold usernatSetPidForLink
  split
  next hlink => exact ⟨[], entries, rfl, .null hlink, rfl, rfl⟩
  next hlink => exact setPidLoop_eq hlink pid entries

theorem afterSetPid_ptr (link : Nat) (pid : Int) (e : LinkEntry) :
    (e.afterSetPid link pid).ptr = e.ptr := by
  unfold LinkEntry.afterSetPid
  split <;> rfl

/-- What is in the table afterwards is at addresses that were in it, and not at those of the
links that ran out. -/
theorem mem_ptr_afterSetPid {link : Nat} {pid : Int} {walked rest : List LinkEntry} {p : Nat}
    (h : p ∈ ((staying walked).map (LinkEntry.afterSetPid link pid) ++ rest).map LinkEntry.ptr) :
    ∃ e ∈ staying walked ++ rest, e.ptr = p := by
  rw [List.map_append, List.mem_append, List.map_map] at h
  rcases h with h | h
  · obtain ⟨e, he, heq⟩ := List.mem_map.mp h
    exact ⟨e, List.mem_append_left _ he, (afterSetPid_ptr link pid e).symm.trans heq⟩
  · obtain ⟨e, he, heq⟩ := List.mem_map.mp h
    exact ⟨e, List.mem_append_right _ he, heq⟩

theorem staying_sublist (walked rest : List LinkEntry) :
    (staying walked ++ rest).Sublist (walked ++ rest) :=
  List.filter_sublist.append_right rest

/-- For every list of links and every argument the call returns, in one way. Where the walk
has come it has freed the links that ran out; the others stay in their order, and of these
the ones it passed keep all but the counter of a dead link, and the target is as it was set. -/
theorem set_pid_for_link_effect (link : Nat) (pid : Int) (mem : LinkMem) (entries : List LinkEntry)
    (h : mem.Holds entries) :
    ∃ mem' walked rest, entries = walked ++ rest ∧ WalkTo link walked rest ∧
      (∀ m sent, SetPidReturns link pid mem m sent ↔
        m = mem' ∧ sent = targetQueue link (staying walked)) ∧
      mem'.Holds ((staying walked).map (LinkEntry.afterSetPid link pid) ++ rest) ∧
      (∀ e ∈ walked, e.link.RunOut → mem'.cells e.ptr = none) ∧
      ∀ p ∉ entries.map LinkEntry.ptr, mem'.cells p = mem.cells p := by
  obtain ⟨mem', hreturns, hholds, houtside⟩ := setPidReturns_of_holds h link pid
  obtain ⟨walked, rest, rfl, hwalk, hlinks, hqueue⟩ := usernatSetPidForLink_eq link pid entries
  rw [hqueue] at hreturns
  rw [hlinks] at hholds houtside
  refine ⟨mem', walked, rest, rfl, hwalk, fun m sent => ⟨fun hm => hm.unique hreturns, ?_⟩, hholds,
    fun e he hout => ?_, fun p hp => ?_⟩
  · rintro ⟨rfl, rfl⟩
    exact hreturns
  · have hentry := List.mem_append_left rest he
    rw [houtside e.ptr, LinkMem.without, if_pos (List.mem_map_of_mem hentry)]
    intro hmem
    obtain ⟨e', he', heq⟩ := mem_ptr_afterSetPid hmem
    have hsame : e' = e := List.inj_on_of_nodup_map h.nodup
      ((staying_sublist walked rest).subset he') hentry heq
    rcases List.mem_append.mp (hsame ▸ he') with hstays | hrest
    · exact (by simpa using (List.mem_filter.mp hstays).2 : ¬ e.link.RunOut) hout
    · have hnodup := h.nodup
      rw [List.map_append, List.nodup_append] at hnodup
      exact hnodup.2.2 _ (List.mem_map_of_mem he) _ (List.mem_map_of_mem hrest) rfl
  · rw [houtside p, LinkMem.without, if_neg hp]
    intro hmem
    obtain ⟨e, he, rfl⟩ := mem_ptr_afterSetPid hmem
    exact hp (List.mem_map_of_mem ((staying_sublist walked rest).subset he))

/-- A dead link, a link that has just been made, and one behind it that has run out. -/
def threeLinks : List LinkEntry :=
  [⟨8, 0, { zeroLink with socatPid := -1, cyclesToLive := 5 }⟩, ⟨16, 1, zeroLink⟩,
    ⟨24, 2, { zeroLink with socatPid := -1 }⟩]

/-- `threeLinks` in memory. -/
def threeLinkMem : LinkMem where
  cells p :=
    if p = 8 then some ⟨16, ⟨8, 0, { zeroLink with socatPid := -1, cyclesToLive := 5 }⟩⟩
    else if p = 16 then some ⟨24, ⟨16, 1, zeroLink⟩⟩
    else if p = 24 then some ⟨0, ⟨24, 2, { zeroLink with socatPid := -1 }⟩⟩
    else none
  links := 8

theorem threeLinkMem_holds : threeLinkMem.Holds threeLinks :=
  .cons (by decide) rfl rfl (.cons (by decide) rfl rfl (.cons (by decide) rfl rfl .nil))

/-- The call for the link in the middle stops there. -/
theorem set_pid_for_link_effect_example :
    ∃ mem' walked rest, threeLinks = walked ++ rest ∧ WalkTo 16 walked rest ∧
      (∀ m sent, SetPidReturns 16 77 threeLinkMem m sent ↔
        m = mem' ∧ sent = targetQueue 16 (staying walked)) ∧
      mem'.Holds ((staying walked).map (LinkEntry.afterSetPid 16 77) ++ rest) ∧
      (∀ e ∈ walked, e.link.RunOut → mem'.cells e.ptr = none) ∧
      ∀ p ∉ threeLinks.map LinkEntry.ptr, mem'.cells p = threeLinkMem.cells p :=
  set_pid_for_link_effect 16 77 threeLinkMem threeLinks threeLinkMem_holds

/-- Two dead links, the first with no cycle left and the second with one. -/
def deadLinks : List LinkEntry :=
  [⟨8, 0, { zeroLink with socatPid := -1 }⟩,
    ⟨16, 1, { zeroLink with socatPid := -1, cyclesToLive := 1 }⟩]

/-- `deadLinks` in memory. -/
def deadLinkMem : LinkMem where
  cells p :=
    if p = 8 then some ⟨16, ⟨8, 0, { zeroLink with socatPid := -1 }⟩⟩
    else if p = 16 then some ⟨0, ⟨16, 1, { zeroLink with socatPid := -1, cyclesToLive := 1 }⟩⟩
    else none
  links := 8

theorem deadLinkMem_holds : deadLinkMem.Holds deadLinks :=
  .cons (by decide) rfl rfl (.cons (by decide) rfl rfl .nil)

/-- The pid is set for the first of two dead links, which has run out; the call deletes the
link behind it as well. -/
theorem set_pid_for_link_counterexample :
    ∃ target later, deadLinks = [target, later] ∧ deadLinkMem.Holds [target, later] ∧
      ∃ mem', SetPidReturns target.ptr (-1) deadLinkMem mem' [] ∧ mem'.Holds [] ∧
        mem'.cells later.ptr = none := by
  refine ⟨_, _, rfl, deadLinkMem_holds, ?_⟩
  obtain ⟨mem', hreturns, hholds, houtside⟩ := setPidReturns_of_holds deadLinkMem_holds 8 (-1)
  exact ⟨mem', hreturns, hholds, houtside 16 (by decide)⟩

end ConfProfile
