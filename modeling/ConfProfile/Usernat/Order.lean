import ConfProfile.Usernat.System

/-!
# The order of the packets of a link

While a link is pending its packets go to its queue; `usernat_set_pid_for_link`
takes the queue away and writes it to the dev tunnel after it has given back the
lock. From then on `usernat_tun_ctx_send` writes packets directly, and nothing
makes it wait for the rest of the queue. `OrderInv` is what all interleavings
keep; `order_along_iff` says which of them write the packets of every link in the
order in which they were accepted: those that write no packet directly while
others of its link are pending (`OrderKept`).
-/

namespace ConfProfile

open ByteMem Run

/-- The packets of one link in a log. -/
def itemsOf (k : Nat) (log : List (Nat × QueueLink)) : List QueueLink :=
  log.filterMap fun x => if x.1 = k then some x.2 else none

def NatLink.queued (link : NatLink) : List QueueLink := link.packetsQueue.getD []

/-- The packets in the queue of the link. -/
def queuedOf (k : Nat) (links : List LinkEntry) : List QueueLink :=
  links.flatMap fun e => if e.serial = k then e.link.queued else []

/-- The packets in a queue that a thread has taken away. -/
def drainedOf (k : Nat) (d : Option Drain) : List QueueLink :=
  d.elim [] fun d => if d.serial = k then d.queue else []

/-- The packets that the router thread is about to write. -/
def routerOf (k : Nat) : NatPc → List QueueLink
  | .drain d => drainedOf k (some d)
  | .write serial item => if serial = k then [item] else []
  | _ => []

/-- The accepted packets of the link that are not written yet. -/
def NatSystem.pending (s : NatSystem) (k : Nat) : List QueueLink :=
  drainedOf k s.java ++ queuedOf k s.links ++ routerOf k s.router

/-- The packets of every link are written each once and in the order in which they
were accepted, as far as they are not pending. -/
def NatSystem.InOrder (s : NatSystem) : Prop :=
  ∀ k, itemsOf k s.accepted = itemsOf k s.written ++ s.pending k

/-- The condition on a step: a packet is written directly when no other of its link
is pending, and enqueued in a queue that exists. -/
def OrderKept (s : NatSystem) (a : NatAct) : Prop :=
  match a, s.router with
  | .write, .write serial _ => drainedOf serial s.java = [] ∧ queuedOf serial s.links = []
  | .rewrite true, .rewrite _ ptr _ =>
      (s.linkAt ptr).enqueuePackets = true → (s.linkAt ptr).packetsQueue.isSome
  | _, _ => True

/-! ## Queues -/

section queues

variable {links : List LinkEntry} {k : Nat}

theorem itemsOf_append (k : Nat) (log log' : List (Nat × QueueLink)) :
    itemsOf k (log ++ log') = itemsOf k log ++ itemsOf k log' := List.filterMap_append

theorem itemsOf_singleton (k serial : Nat) (item : QueueLink) :
    itemsOf k [(serial, item)] = if serial = k then [item] else [] := by
  unfold itemsOf
  rw [List.filterMap_cons]
  split
  next h =>
    split at h
    · cases h
    next hne => rw [if_neg hne]; rfl
  next h =>
    split at h
    next heq =>
      rw [if_pos heq]
      obtain rfl := Option.some.inj h
      rfl
    · cases h

theorem stamps_itemsOf (k : Nat) (log : List (Nat × QueueLink)) :
    ((itemsOf k log).map QueueLink.stamp).Sublist (log.map fun x => x.2.stamp) := by
  unfold itemsOf
  induction log with
  | nil => exact List.Sublist.refl _
  | cons x log ih =>
    rw [List.filterMap_cons, List.map_cons]
    by_cases hx : x.1 = k
    · simp only [hx, if_true]
      exact ih.cons_cons _
    · simp only [hx, if_false]
      exact ih.cons _

theorem queuedOf_cons (k : Nat) (e : LinkEntry) (links : List LinkEntry) :
    queuedOf k (e :: links) = (if e.serial = k then e.link.queued else []) ++ queuedOf k links :=
  List.flatMap_cons

/-- A link that is not in the table has no queue in it. -/
theorem queuedOf_eq_nil (h : ∀ e ∈ links, e.serial ≠ k) : queuedOf k links = [] := by
  unfold queuedOf
  rw [List.flatMap_eq_nil_iff]
  intro e he
  rw [if_neg (h e he)]

/-- Where the serials are distinct, the queue of a link is its own. -/
theorem queuedOf_of_mem (hnodup : (links.map LinkEntry.serial).Nodup) {e : LinkEntry}
    (he : e ∈ links) : queuedOf e.serial links = e.link.queued := by
  induction links with
  | nil => cases he
  | cons e' links ih =>
    rw [List.map_cons, List.nodup_cons] at hnodup
    obtain ⟨hfresh, hnodup⟩ := hnodup
    rw [queuedOf_cons]
    rcases List.mem_cons.mp he with rfl | he
    · rw [if_pos rfl, queuedOf_eq_nil, List.append_nil]
      intro e' he' heq
      exact hfresh (List.mem_map.mpr ⟨e', he', heq⟩)
    · rw [if_neg, ih hnodup he, List.nil_append]
      intro heq
      exact hfresh (List.mem_map.mpr ⟨e, he, heq.symm⟩)

/-- A write that leaves the queues alone. -/
theorem queuedOf_updateLink_of_queue (ptr : Nat) {write : NatLink → NatLink}
    (h : ∀ link, (write link).packetsQueue = link.packetsQueue) :
    queuedOf k (updateLink ptr write links) = queuedOf k links := by
  unfold queuedOf updateLink NatLink.queued
  rw [List.flatMap_map]
  congr 1
  funext e
  split
  · simp only [h]
  · rfl

/-- A write leaves the queues of other links alone. -/
theorem queuedOf_updateLink_of_ne {ptr serial : Nat} (write : NatLink → NatLink)
    (hat : ∀ e ∈ links, e.ptr = ptr → e.serial = serial) (hne : serial ≠ k) :
    queuedOf k (updateLink ptr write links) = queuedOf k links := by
  induction links with
  | nil => rfl
  | cons e links ih =>
    have hrest := ih fun e' he' => hat e' (List.mem_cons_of_mem _ he')
    unfold updateLink at hrest ⊢
    rw [List.map_cons, queuedOf_cons, queuedOf_cons, hrest]
    split
    next hptr =>
      have hserial := hat e List.mem_cons_self hptr
      rw [if_neg (by rw [hserial]; exact hne), if_neg (by rw [hserial]; exact hne)]
    next => rfl

theorem queued_queuePut (ql : QueueLink) (link : NatLink) (h : link.packetsQueue.isSome) :
    (link.queuePut ql).queued = link.queued ++ [ql] := by
  obtain ⟨queue, hqueue⟩ := Option.isSome_iff_exists.mp h
  unfold NatLink.queued NatLink.queuePut
  rw [hqueue]
  rfl

theorem queued_age (e : LinkEntry) : e.age.link.queued = e.link.queued := by
  unfold NatLink.queued
  rw [age_packetsQueue]

theorem drainedOf_drainOf (k : Nat) (e : LinkEntry) :
    drainedOf k (drainOf (some e)) = if e.serial = k then e.link.queued else [] := by
  unfold drainOf NatLink.queued drainedOf
  rw [Option.bind_some]
  cases e.link.packetsQueue with
  | none => exact (ite_self _).symm
  | some queue => rfl

/-- The walk of `usernat_set_pid_for_link` takes the queue of the link it finds out
of the table, and no other. Links that fail have nothing in their queues. -/
theorem queuedOf_setPidLoop (ptr : Nat) (pid : Int) (k : Nat)
    (hnodup : (links.map LinkEntry.serial).Nodup)
    (hfailed : ∀ e ∈ links, e.link.socatPid = -1 → e.link.queued = []) :
    queuedOf k links = drainedOf k (drainOf (setPidLoop ptr pid links).2) ++
      queuedOf k (setPidLoop ptr pid links).1 := by
  induction links with
  | nil => rfl
  | cons curr rest ih =>
    rw [List.map_cons, List.nodup_cons] at hnodup
    obtain ⟨hfresh, hnodup⟩ := hnodup
    have hrest := ih hnodup fun e he => hfailed e (List.mem_cons_of_mem _ he)
    rw [setPidLoop, queuedOf_cons]
    by_cases hexpired : curr.age.link.Expired
    · have hpid : curr.link.socatPid = -1 := by
        rw [← age_socatPid]
        exact hexpired.2
      rw [if_pos hexpired, hfailed curr List.mem_cons_self hpid, ite_self, List.nil_append]
      exact hrest
    · rw [if_neg hexpired]
      by_cases hptr : curr.ptr = ptr
      · have hset : (curr.age.setPid pid).link.queued = [] := rfl
        rw [if_pos hptr, drainedOf_drainOf, queuedOf_cons, hset, ite_self, List.nil_append,
          queued_age]
        rfl
      · rw [if_neg hptr, queuedOf_cons, hrest, queued_age]
        show (if curr.serial = k then _ else _) ++ _ =
          _ ++ ((if curr.serial = k then _ else _) ++ _)
        by_cases hk : curr.serial = k
        · -- what the walk found behind this link has another serial
          have hnone : queuedOf k rest = [] := by
            apply queuedOf_eq_nil
            intro e he heq
            exact hfresh (List.mem_map.mpr ⟨e, he, heq.trans hk.symm⟩)
          rw [hrest, List.append_eq_nil_iff] at hnone
          rw [hnone.1, hnone.2, List.nil_append, List.append_nil, List.nil_append]
        · rw [if_neg hk, List.nil_append, List.nil_append]

theorem queuedOf_usernatSetPidForLink (ptr : Nat) (pid : Int) (k : Nat)
    (hnodup : (links.map LinkEntry.serial).Nodup)
    (hfailed : ∀ e ∈ links, e.link.socatPid = -1 → e.link.queued = []) :
    queuedOf k links = drainedOf k (drainOf (usernatSetPidForLink ptr pid links).2) ++
      queuedOf k (usernatSetPidForLink ptr pid links).1 := by
  unfold usernatSetPidForLink
  split
  · rfl
  · exact queuedOf_setPidLoop ptr pid k hnodup hfailed

end queues

/-! ## What all interleavings keep -/

/-- The packet comes behind all that were accepted. -/
def NatSystem.Newest (s : NatSystem) (job : NatJob) : Prop :=
  job.stamp < s.nextStamp ∧ ∀ x ∈ s.accepted, x.2.stamp < job.stamp

/-- Nothing is queued at the link that the pointer is for. -/
def NatSystem.NoQueue (s : NatSystem) (ptr : Nat) : Prop :=
  ∀ e ∈ s.links, e.ptr = ptr → e.link.queued = []

/-- The link whose set-up failed and which the router thread has not reported yet. -/
def NatPc.Failing (pc : NatPc) (ptr : Nat) : Prop :=
  match pc with
  | .built _ p _ => p = ptr
  | .failed p => p = ptr
  | _ => False

/-- What holds of the packet that the router thread has in its hands. -/
def PcOrder (s : NatSystem) : NatPc → Prop
  | .lookup job => s.Newest job
  | .create job => s.Newest job
  | .push job e => s.Newest job ∧ e.link.queued = [] ∧ e.link.socatPid ≠ -1
  | .build job ptr _ => s.Newest job ∧ s.NoQueue ptr
  | .built job ptr _ => s.Newest job ∧ s.NoQueue ptr
  | .failed ptr => s.NoQueue ptr
  | .drain d => d.queue = []
  | .rewrite job _ _ => s.Newest job
  | _ => True

/-- A link with pid -1 queues nothing any more, and packets are accepted in the
order of their calls. -/
structure OrderInv (s : NatSystem) : Prop extends TableInv s where
  failed : ∀ e ∈ s.links, e.link.socatPid = -1 →
    e.link.queued = [] ∧ (e.link.enqueuePackets = false ∨ s.router.Failing e.ptr)
  stamps : (s.accepted.map fun x => x.2.stamp).Nodup
  stampBound : ∀ x ∈ s.accepted, x.2.stamp < s.nextStamp
  order : PcOrder s s.router

section invariant

variable {s s' : NatSystem} {a : NatAct}

theorem natInit_order (inst : UsernatCtx) : OrderInv (natInit inst) :=
  ⟨natInit_table inst, fun _ he => absurd he List.not_mem_nil, List.nodup_nil,
    fun _ hx => absurd hx List.not_mem_nil, trivial⟩

/-- Where no set-up is being failed, no link with pid -1 enqueues. -/
theorem OrderInv.enqueue_false (hI : OrderInv s) (hpc : ∀ ptr, ¬ s.router.Failing ptr)
    {e : LinkEntry} (he : e ∈ s.links) (hpid : e.link.socatPid = -1) :
    e.link.queued = [] ∧ e.link.enqueuePackets = false := by
  obtain ⟨hqueue, henq⟩ := hI.failed e he hpid
  exact ⟨hqueue, henq.resolve_right (hpc e.ptr)⟩

theorem LeftOf.queued {ptr : Nat} {e e' : LinkEntry} (h : e.LeftOf ptr e')
    (hqueue : e.link.queued = []) : e'.link.queued = [] := by
  unfold NatLink.queued at hqueue ⊢
  rcases h.2 with ⟨heq, _, _⟩ | ⟨_, hnone, _⟩
  · rw [heq]
    exact hqueue
  · rw [hnone]
    rfl

theorem noQueue_setPid {ptr ptr' : Nat} {pid : Int} {links : List LinkEntry}
    (h : ∀ e ∈ links, e.ptr = ptr → e.link.queued = []) :
    ∀ e ∈ (usernatSetPidForLink ptr' pid links).1, e.ptr = ptr → e.link.queued = [] := by
  intro e' he' hptr
  obtain ⟨e, he, hleft⟩ := mem_usernatSetPidForLink he'
  exact LeftOf.queued hleft (h e he ((congrArg LinkIdent.ptr hleft.1).symm.trans hptr))

/-- The walk of the Java thread leaves the links with pid -1 as they are. -/
theorem failed_setPid {ptr : Nat} {pid : Int} {links : List LinkEntry} {pc : NatPc}
    (h : ∀ e ∈ links, e.link.socatPid = -1 →
      e.link.queued = [] ∧ (e.link.enqueuePackets = false ∨ pc.Failing e.ptr)) :
    ∀ e ∈ (usernatSetPidForLink ptr pid links).1, e.link.socatPid = -1 →
      e.link.queued = [] ∧ (e.link.enqueuePackets = false ∨ pc.Failing e.ptr) := by
  intro e' he' hpid
  obtain ⟨e, he, hleft⟩ := mem_usernatSetPidForLink he'
  have hptr : e'.ptr = e.ptr := congrArg LinkIdent.ptr hleft.1
  rcases hleft.2 with ⟨_, hpid', henq⟩ | ⟨_, hnone, henq⟩
  · obtain ⟨hqueue, hflag⟩ := h e he (hpid'.symm.trans hpid)
    refine ⟨LeftOf.queued hleft hqueue, ?_⟩
    rw [henq, hptr]
    exact hflag
  · refine ⟨?_, Or.inl henq⟩
    unfold NatLink.queued
    rw [hnone]
    rfl

theorem mem_updateLink {ptr : Nat} {write : NatLink → NatLink} {links : List LinkEntry}
    {e' : LinkEntry} (h : e' ∈ updateLink ptr write links) :
    ∃ e ∈ links, (e.ptr = ptr ∧ e' = { e with link := write e.link }) ∨
      (e.ptr ≠ ptr ∧ e' = e) := by
  obtain ⟨e, he, rfl⟩ := List.mem_map.mp h
  refine ⟨e, he, ?_⟩
  split
  next hptr => exact Or.inl ⟨hptr, rfl⟩
  next hptr => exact Or.inr ⟨hptr, rfl⟩

theorem natStep_failed (hI : OrderInv s) (h : natStep s a = some s') :
    ∀ e ∈ s'.links, e.link.socatPid = -1 →
      e.link.queued = [] ∧ (e.link.enqueuePackets = false ∨ s'.router.Failing e.ptr) := by
  -- where the router thread was not in the middle of a failure, nothing depends on it
  have hquiet : (∀ ptr, ¬ s.router.Failing ptr) → ∀ e ∈ s.links, e.link.socatPid = -1 →
      e.link.queued = [] ∧ (e.link.enqueuePackets = false ∨ s'.router.Failing e.ptr) := by
    intro hpc e he hpid
    obtain ⟨hqueue, henq⟩ := hI.enqueue_false hpc he hpid
    exact ⟨hqueue, Or.inl henq⟩
  have hnone : ∀ {pc}, s.router = pc → (∀ ptr, ¬ pc.Failing ptr) →
      ∀ ptr, ¬ s.router.Failing ptr := by
    intro pc hpc hfail
    rw [hpc]
    exact hfail
  have hpc := hI.order
  cases natStep_cases h with
  | sendDrop hrouter hjob => exact hI.failed
  | send hrouter _ | found hrouter _ | notFound hrouter _ | noCreate hrouter | create hrouter _
  | routerDrained hrouter | routerDrain hrouter | direct hrouter _ | write hrouter =>
    exact hquiet (hnone hrouter fun _ h => h)
  | push hrouter =>
    rw [hrouter] at hpc
    intro e he hpid
    rcases List.mem_cons.mp he with rfl | he
    · exact absurd hpid hpc.2.2
    · exact hquiet (hnone hrouter fun _ h => h) e he hpid
  | @build job ptr serial ok hrouter =>
    rw [hrouter] at hpc
    intro e' he' hpid
    obtain ⟨e, he, ⟨hptr, rfl⟩ | ⟨_, rfl⟩⟩ := mem_updateLink he'
    · exact ⟨hpc.2 e he hptr, Or.inr hptr.symm⟩
    · exact hquiet (hnone hrouter fun _ h => h) _ he hpid
  | checkFailed hrouter hpid =>
    intro e he hfail
    have hold := hI.failed e he hfail
    rw [hrouter] at hold
    exact hold
  | @checkOk job ptr serial hrouter hpid =>
    intro e he hfail
    obtain ⟨hqueue, henq⟩ := hI.failed e he hfail
    refine ⟨hqueue, Or.inl (henq.resolve_right ?_)⟩
    rw [hrouter]
    intro (hptr : ptr = e.ptr)
    rw [hptr, hI.linkAt_eq he] at hpid
    exact hpid hfail
  | @failBuild ptr hrouter =>
    intro e' he' hpid
    have hold := failed_setPid hI.failed e' he' hpid
    refine ⟨hold.1, Or.inl (hold.2.elim id ?_)⟩
    rw [hrouter]
    intro (hptr : ptr = e'.ptr)
    obtain ⟨e, he, hleft⟩ := mem_usernatSetPidForLink he'
    have hne : ptr ≠ 0 := by
      have hident : e'.ptr = e.ptr := congrArg LinkIdent.ptr hleft.1
      rw [hptr, hident]
      exact (hI.bound e he).1
    unfold usernatSetPidForLink at he'
    rw [if_neg hne] at he'
    exact setPidLoop_hit hI.ptrs he' hptr.symm
  | @enqueue job ptr serial alloc hrouter henq halloc =>
    intro e' he' hpid
    obtain ⟨e, he, ⟨hptr, rfl⟩ | ⟨_, rfl⟩⟩ := mem_updateLink he'
    · obtain ⟨_, hflag⟩ := hI.enqueue_false (hnone hrouter fun _ h => h) he hpid
      rw [← hptr, hI.linkAt_eq he, hflag] at henq
      cases henq
    · exact hquiet (hnone hrouter fun _ h => h) _ he hpid
  | pollReady _ _ _ | setPid _ => exact failed_setPid hI.failed
  | poll _ _ _ | javaDrained _ | javaDrain _ | report _ | setDnsIp4 | setVirtualDnsIp4 =>
    exact hI.failed

/-- A packet that comes behind all others is accepted. -/
theorem stamps_append (hI : OrderInv s) {job : NatJob} (hnew : s.Newest job) (serial ptr : Nat) :
    ((s.accepted ++ [(serial, s.item job ptr)]).map fun x => x.2.stamp).Nodup ∧
      ∀ x ∈ s.accepted ++ [(serial, s.item job ptr)], x.2.stamp < s.nextStamp := by
  refine ⟨?_, ?_⟩
  · rw [List.map_append, List.nodup_append]
    refine ⟨hI.stamps, List.nodup_singleton _, ?_⟩
    intro stamp hstamp stamp' hstamp'
    obtain ⟨x, hx, rfl⟩ := List.mem_map.mp hstamp
    obtain rfl : stamp' = job.stamp := List.mem_singleton.mp hstamp'
    exact Nat.ne_of_lt (hnew.2 x hx)
  · intro x hx
    rcases List.mem_append.mp hx with hx | hx
    · exact hI.stampBound x hx
    · rw [List.mem_singleton.mp hx]
      exact hnew.1

theorem natStep_stamps (hI : OrderInv s) (h : natStep s a = some s') :
    (s'.accepted.map fun x => x.2.stamp).Nodup ∧ ∀ x ∈ s'.accepted, x.2.stamp < s'.nextStamp := by
  have hpc := hI.order
  cases natStep_cases h with
  | send hrouter hjob =>
    exact ⟨hI.stamps, fun x hx => Nat.lt_succ_of_lt (hI.stampBound x hx)⟩
  | enqueue hrouter _ _ | direct hrouter _ =>
    rw [hrouter] at hpc
    exact stamps_append hI hpc _ _
  | _ => exact ⟨hI.stamps, hI.stampBound⟩

/-- The walk of the Java thread keeps what holds of the packet. -/
theorem pcOrder_setPid {ptr : Nat} {pid : Int} {pc : NatPc}
    (hlinks : s'.links = (usernatSetPidForLink ptr pid s.links).1)
    (haccepted : s'.accepted = s.accepted) (hstamp : s'.nextStamp = s.nextStamp)
    (h : PcOrder s pc) : PcOrder s' pc := by
  have hnew : ∀ job, s.Newest job → s'.Newest job := by
    intro job hjob
    unfold NatSystem.Newest
    rw [haccepted, hstamp]
    exact hjob
  have hqueue : ∀ p, s.NoQueue p → s'.NoQueue p := by
    intro p hp
    unfold NatSystem.NoQueue
    rw [hlinks]
    exact noQueue_setPid hp
  cases pc with
  | lookup job | create job | rewrite job _ _ => exact hnew job h
  | push job e => exact ⟨hnew job h.1, h.2⟩
  | build job p serial | built job p serial => exact ⟨hnew job h.1, hqueue p h.2⟩
  | failed p => exact hqueue p h
  | drain d => exact h
  | _ => trivial

theorem natStep_pcOrder (hI : OrderInv s) (h : natStep s a = some s') :
    PcOrder s' s'.router := by
  have hpc := hI.order
  cases natStep_cases h with
  | sendDrop hrouter hjob => exact hpc
  | send hrouter hjob =>
    have hstamp := (natJob_eq_some hjob).stamp
    refine ⟨?_, ?_⟩
    · rw [hstamp]
      exact Nat.lt_succ_self _
    · rw [hstamp]
      exact hI.stampBound
  | found hrouter hfind =>
    rw [hrouter] at hpc
    exact hpc
  | @notFound job hrouter hfind =>
    rw [hrouter] at hpc
    show PcOrder _ (if job.key.isIncoming then .idle else .create job)
    split
    · trivial
    · exact hpc
  | @create job answer hrouter hgrants =>
    rw [hrouter] at hpc
    refine ⟨hpc, ?_, show (0 : Int) ≠ -1 by decide⟩
    show ((if answer.queueInit then some [] else none : Option (List QueueLink)).getD []) = []
    split <;> rfl
  | @push job e hrouter =>
    have htable := hI.pc
    rw [hrouter] at hpc htable
    refine ⟨hpc.1, ?_⟩
    intro e' he' hptr
    rcases List.mem_cons.mp he' with rfl | he'
    · exact hpc.2.1
    · exact absurd hptr (htable.2.2 e' he').1
  | @build job ptr serial ok hrouter =>
    rw [hrouter] at hpc
    refine ⟨hpc.1, ?_⟩
    intro e' he' hptr
    obtain ⟨e, he, ⟨_, rfl⟩ | ⟨_, rfl⟩⟩ := mem_updateLink he'
    · exact hpc.2 e he hptr
    · exact hpc.2 _ he hptr
  | checkFailed hrouter hpid =>
    rw [hrouter] at hpc
    exact hpc.2
  | checkOk hrouter hpid =>
    rw [hrouter] at hpc
    exact hpc.1
  | @failBuild ptr hrouter =>
    rw [hrouter] at hpc
    show PcOrder _ (Option.elim _ _ _)
    cases hdrain : drainOf (usernatSetPidForLink ptr (-1) s.links).2 with
    | none => trivial
    | some d =>
      obtain ⟨found, hfound, hqueue⟩ := Option.bind_eq_some_iff.mp hdrain
      obtain ⟨queue, hsome, rfl⟩ := Option.map_eq_some_iff.mp hqueue
      obtain ⟨e, he, hptr, rfl⟩ := usernatSetPidForLink_found hfound
      have hempty := hpc e he hptr
      rw [age_packetsQueue] at hsome
      unfold NatLink.queued at hempty
      rw [hsome] at hempty
      exact hempty
  | routerDrain hrouter =>
    rw [hrouter] at hpc
    cases hpc
  | pollReady _ _ _ | setPid _ => exact pcOrder_setPid rfl rfl rfl hpc
  | poll _ _ _ | javaDrained _ | javaDrain _ | report _ | setDnsIp4 | setVirtualDnsIp4 => exact hpc
  | _ => trivial

theorem natStep_order (hI : OrderInv s) (h : natStep s a = some s') : OrderInv s' := by
  obtain ⟨hstamps, hbound⟩ := natStep_stamps hI h
  exact ⟨natStep_table hI.toTableInv h, natStep_failed hI h, hstamps, hbound, natStep_pcOrder hI h⟩

end invariant

/-! ## The order of one step -/

section order

variable {s s' : NatSystem} {a : NatAct}

/-- A step that moves pending packets only from place to place. -/
theorem inOrder_of_pending (hP : s.InOrder) (haccepted : s'.accepted = s.accepted)
    (hwritten : s'.written = s.written) (hpending : ∀ k, s'.pending k = s.pending k) :
    s'.InOrder := by
  intro k
  rw [haccepted, hwritten, hpending]
  exact hP k

theorem inOrder_javaSetPid (hI : OrderInv s) (hP : s.InOrder) (hjava : s.java = none) (ptr : Nat)
    (pid : Int) : (s.javaSetPid ptr pid).InOrder := by
  refine inOrder_of_pending hP rfl rfl ?_
  intro k
  have hqueue := queuedOf_usernatSetPidForLink ptr pid k hI.serials
    fun e he hpid => (hI.failed e he hpid).1
  unfold NatSystem.pending
  rw [hjava, hqueue]
  rfl

/-- The router thread takes an empty queue at most. -/
theorem inOrder_failBuild (hI : OrderInv s) (hP : s.InOrder) {ptr : Nat}
    (hrouter : s.router = .failed ptr) (h : natStep s .failBuild = some s') : s'.InOrder := by
  have horder := natStep_pcOrder hI h
  cases natStep_cases h with
  | @failBuild ptr' hrouter' =>
    refine inOrder_of_pending hP rfl rfl ?_
    intro k
    have hqueue := queuedOf_usernatSetPidForLink ptr' (-1) k hI.serials
      fun e he hpid => (hI.failed e he hpid).1
    change PcOrder _ (Option.elim _ _ _) at horder
    show drainedOf k s.java ++ _ ++ routerOf k (Option.elim _ _ _) = drainedOf k s.java ++ _ ++ _
    rw [hrouter, hqueue]
    cases hdrain : drainOf (usernatSetPidForLink ptr' (-1) s.links).2 with
    | none => rfl
    | some d =>
      rw [hdrain] at horder
      have hempty : ∀ d' : Drain, d'.queue = [] → drainedOf k (some d') = [] := by
        intro d' hd'
        show (if d'.serial = k then d'.queue else []) = []
        rw [hd', ite_self]
      show _ ++ _ ++ drainedOf k (some d) = _ ++ (drainedOf k (some d) ++ _) ++ []
      rw [hempty d horder, List.nil_append]

theorem inOrder_javaDrain (hP : s.InOrder) {serial : Nat} {item : QueueLink}
    {queue : List QueueLink} (hjava : s.java = some ⟨serial, item :: queue⟩) :
    ({ s with java := some ⟨serial, queue⟩, written := s.written ++ [(serial, item)] } :
      NatSystem).InOrder := by
  intro k
  have hk := hP k
  unfold NatSystem.pending at hk ⊢
  rw [hjava] at hk
  show _ = itemsOf k (s.written ++ [(serial, item)]) ++ _
  rw [itemsOf_append, itemsOf_singleton, hk]
  show _ ++ ((if serial = k then item :: queue else []) ++ _ ++ _) =
    _ ++ ((if serial = k then queue else []) ++ _ ++ _)
  split <;> simp

/-- A packet that is to be written directly is pending. -/
theorem inOrder_direct (hP : s.InOrder) {job : NatJob} {ptr serial : Nat}
    (hrouter : s.router = .rewrite job ptr serial) :
    ({ s with
      router := .write serial (s.item job ptr)
      accepted := s.accepted ++ [(serial, s.item job ptr)] } : NatSystem).InOrder := by
  intro k
  have hk := hP k
  unfold NatSystem.pending at hk ⊢
  rw [hrouter] at hk
  show itemsOf k (s.accepted ++ [(serial, s.item job ptr)]) = _
  rw [itemsOf_append, itemsOf_singleton, hk]
  show _ ++ (_ ++ _ ++ []) ++ _ = _ ++ (_ ++ _ ++ if serial = k then [s.item job ptr] else [])
  simp only [List.append_assoc, List.nil_append]

/-- An enqueued packet keeps the order exactly if there is a queue for it. -/
theorem inOrder_enqueue_iff (hI : OrderInv s) (hP : s.InOrder) {job : NatJob} {ptr serial : Nat}
    (hrouter : s.router = .rewrite job ptr serial) (henq : (s.linkAt ptr).enqueuePackets = true) :
    ({ s with
      links := updateLink ptr (NatLink.queuePut (s.item job ptr)) s.links
      router := .idle
      accepted := s.accepted ++ [(serial, s.item job ptr)] } : NatSystem).InOrder ↔
      (s.linkAt ptr).packetsQueue.isSome := by
  have hat := hI.pc
  rw [hrouter] at hat
  rcases linkAt_cases s ptr with ⟨e, he, hptr, hlink⟩ | ⟨_, hlink⟩
  · have hserial : e.serial = serial := hat e he hptr
    have hold := queuedOf_of_mem hI.serials he
    have hmem : ({ e with link := e.link.queuePut (s.item job ptr) } : LinkEntry) ∈
        updateLink ptr (NatLink.queuePut (s.item job ptr)) s.links := by
      refine List.mem_map.mpr ⟨e, he, ?_⟩
      rw [if_pos hptr]
    have hserials : ((updateLink ptr (NatLink.queuePut (s.item job ptr)) s.links).map
        LinkEntry.serial).Nodup := by
      rw [updateLink_serials]
      exact hI.serials
    have hnew := queuedOf_of_mem hserials hmem
    change queuedOf e.serial _ = (e.link.queuePut (s.item job ptr)).queued at hnew
    rw [hserial] at hold hnew
    rw [hlink]
    refine ⟨?_, ?_⟩
    · intro horder
      by_contra hnone
      -- the packet is accepted and nowhere
      have hlost := horder serial
      have hbefore := hP serial
      unfold NatSystem.pending at hlost hbefore
      rw [hrouter, hold] at hbefore
      change itemsOf serial (s.accepted ++ [(serial, s.item job ptr)]) =
        _ ++ (_ ++ queuedOf serial (updateLink ptr _ s.links) ++ []) at hlost
      have hsame : (e.link.queuePut (s.item job ptr)).queued = e.link.queued := by
        have hqueue : e.link.packetsQueue = none := by simpa using hnone
        unfold NatLink.queued NatLink.queuePut
        rw [hqueue]
        rfl
      rw [itemsOf_append, itemsOf_singleton, if_pos rfl, hnew, hsame, hbefore] at hlost
      have hlen := congrArg List.length hlost
      simp [routerOf] at hlen
    · intro hsome k
      have hk := hP k
      unfold NatSystem.pending at hk ⊢
      rw [hrouter] at hk
      show itemsOf k (s.accepted ++ [(serial, s.item job ptr)]) =
        _ ++ (_ ++ queuedOf k (updateLink ptr _ s.links) ++ [])
      rw [itemsOf_append, itemsOf_singleton, hk]
      by_cases hserialk : serial = k
      · rw [← hserialk, hnew, queued_queuePut _ _ hsome, hold, if_pos rfl]
        simp [routerOf]
      · rw [if_neg hserialk, queuedOf_updateLink_of_ne _ hat hserialk]
        simp [routerOf]
  · rw [hlink] at henq
    cases henq

/-- A packet that is written directly keeps the order exactly if no other of its
link is pending. -/
theorem inOrder_write_iff (hI : OrderInv s) (hP : s.InOrder) {serial : Nat} {item : QueueLink}
    (hrouter : s.router = .write serial item) :
    ({ s with router := .idle, written := s.written ++ [(serial, item)] } :
      NatSystem).InOrder ↔ drainedOf serial s.java = [] ∧ queuedOf serial s.links = [] := by
  have hbefore : ∀ k, itemsOf k s.accepted = itemsOf k s.written ++
      (drainedOf k s.java ++ queuedOf k s.links ++ if serial = k then [item] else []) := by
    intro k
    have hk := hP k
    unfold NatSystem.pending at hk
    rw [hrouter] at hk
    exact hk
  have hafter : ∀ k, itemsOf k (s.written ++ [(serial, item)]) ++
      (drainedOf k s.java ++ queuedOf k s.links ++ []) = itemsOf k s.written ++
        ((if serial = k then [item] else []) ++ (drainedOf k s.java ++ queuedOf k s.links)) := by
    intro k
    rw [itemsOf_append, itemsOf_singleton, List.append_nil, List.append_assoc]
  have horder : ({ s with router := .idle, written := s.written ++ [(serial, item)] } :
      NatSystem).InOrder ↔ ∀ k, drainedOf k s.java ++ queuedOf k s.links ++
        (if serial = k then [item] else []) =
          (if serial = k then [item] else []) ++ (drainedOf k s.java ++ queuedOf k s.links) := by
    refine forall_congr' fun k => ?_
    show itemsOf k s.accepted = itemsOf k (s.written ++ [(serial, item)]) ++
      (drainedOf k s.java ++ queuedOf k s.links ++ []) ↔ _
    rw [hbefore, hafter, List.append_cancel_left_eq]
  rw [horder, ← List.append_eq_nil_iff]
  refine ⟨?_, ?_⟩
  · intro h
    have hcomm := h serial
    rw [if_pos rfl] at hcomm
    by_contra hne
    -- the packet would be one of those pending in front of it, which came before
    have hmem : item ∈ drainedOf serial s.java ++ queuedOf serial s.links := by
      cases hlist : drainedOf serial s.java ++ queuedOf serial s.links with
      | nil => exact absurd hlist hne
      | cons first rest =>
        rw [hlist] at hcomm
        obtain ⟨rfl, _⟩ := List.cons.inj hcomm
        exact List.mem_cons_self
    have hdup : (itemsOf serial s.accepted).Nodup :=
      ((stamps_itemsOf serial s.accepted).nodup hI.stamps).of_map
    rw [hbefore, if_pos rfl] at hdup
    have hpending := (List.nodup_append.mp hdup).2.1
    exact (List.nodup_append.mp hpending).2.2 item hmem item (List.mem_singleton.mpr rfl) rfl
  · intro hempty k
    by_cases hk : serial = k
    · rw [← hk, hempty, List.nil_append, List.append_nil]
    · rw [if_neg hk, List.append_nil, List.nil_append]

/-- One step keeps the order exactly if it meets the condition. -/
theorem natStep_inOrder_iff (hI : OrderInv s) (hP : s.InOrder) (h : natStep s a = some s') :
    s'.InOrder ↔ OrderKept s a := by
  -- a step that neither writes nor changes where packets are
  have hidle : ∀ {pc}, s.router = pc → (∀ k, routerOf k pc = []) → s'.accepted = s.accepted →
      s'.written = s.written → s'.java = s.java →
      (∀ k, queuedOf k s'.links = queuedOf k s.links) → (∀ k, routerOf k s'.router = []) →
      s'.InOrder := by
    intro pc hpc hnone haccepted hwritten hjava hlinks hrouter
    refine inOrder_of_pending hP haccepted hwritten fun k => ?_
    unfold NatSystem.pending
    rw [hjava, hlinks, hrouter, hpc, hnone]
  cases natStep_cases h with
  | sendDrop hpc hjob => exact iff_of_true hP trivial
  | send hpc _ | found hpc _ | noCreate hpc | create hpc _ | checkFailed hpc _ | checkOk hpc _ =>
    exact iff_of_true (hidle hpc (fun _ => rfl) rfl rfl rfl (fun _ => rfl) fun _ => rfl) trivial
  | @notFound job hpc hfind =>
    refine iff_of_true (hidle hpc (fun _ => rfl) rfl rfl rfl (fun _ => rfl) fun k => ?_) trivial
    show routerOf k (if job.key.isIncoming then .idle else .create job) = []
    split <;> rfl
  | @push job e hpc =>
    have horder := hI.order
    rw [hpc] at horder
    refine iff_of_true (hidle hpc (fun _ => rfl) rfl rfl rfl (fun k => ?_) fun _ => rfl) trivial
    rw [queuedOf_cons, horder.2.1, ite_self]
    rfl
  | @build job ptr serial ok hpc =>
    exact iff_of_true (hidle hpc (fun _ => rfl) rfl rfl rfl
      (fun k => queuedOf_updateLink_of_queue ptr fun _ => rfl) fun _ => rfl) trivial
  | failBuild hpc => exact iff_of_true (inOrder_failBuild hI hP hpc h) trivial
  | routerDrained hpc =>
    exact iff_of_true (hidle hpc (fun _ => ite_self _) rfl rfl rfl (fun _ => rfl) fun _ => rfl)
      trivial
  | routerDrain hpc =>
    have horder := hI.order
    rw [hpc] at horder
    cases horder
  | @enqueue job ptr serial alloc hpc henq halloc =>
    rw [inOrder_enqueue_iff hI hP hpc henq, halloc]
    unfold OrderKept
    rw [hpc]
    exact ⟨fun hsome _ => hsome, fun hkept => hkept henq⟩
  | @direct job ptr serial alloc hpc hdirect =>
    refine iff_of_true (inOrder_direct hP hpc) ?_
    cases alloc with
    | false => trivial
    | true =>
      unfold OrderKept
      rw [hpc]
      exact fun henq => absurd ⟨henq, rfl⟩ hdirect
  | write hpc =>
    rw [inOrder_write_iff hI hP hpc]
    unfold OrderKept
    rw [hpc]
  | pollReady hjava _ _ | setPid hjava =>
    exact iff_of_true (inOrder_javaSetPid hI hP hjava _ _) trivial
  | @javaDrained serial hjava =>
    refine iff_of_true (inOrder_of_pending hP rfl rfl fun k => ?_) trivial
    unfold NatSystem.pending
    rw [hjava]
    show [] ++ _ ++ _ = (if serial = k then [] else []) ++ _ ++ _
    rw [ite_self]
  | javaDrain hjava => exact iff_of_true (inOrder_javaDrain hP hjava) trivial
  | poll _ _ _ | report _ | setDnsIp4 | setVirtualDnsIp4 => exact iff_of_true hP trivial

end order

theorem natInit_inOrder (inst : UsernatCtx) : (natInit inst).InOrder := fun _ => rfl

/-- For every interleaving: the packets accepted for a link are written to the dev
tunnel each once and in the order in which they were accepted exactly if no packet
is written directly while others of its link are still queued or being written
from the detached queue, and none is enqueued at a link that got no queue. -/
theorem order_along_iff (inst : UsernatCtx) (acts : List NatAct) :
    Along natStep (fun _ _ s' => s'.InOrder) (natInit inst) acts ↔
      Along natStep (fun s a _ => OrderKept s a) (natInit inst) acts :=
  along_iff_cond (I := OrderInv) (P := NatSystem.InOrder) (fun _ _ _ => natStep_order)
    (fun _ _ _ hq => hq) (fun _ _ _ => natStep_inOrder_iff) acts (natInit_order inst)
    (natInit_inOrder inst)

/-- The first packet is enqueued, its queue is detached, and the second packet is
sent through before the Java thread writes the queue. -/
def overtakingActs : List NatAct :=
  newLinkActs exampleQuery 28 ⟨3, 4, 5000, 1, true⟩ ++
    [.poll 77, .send exampleQuery 28, .lookup, .rewrite true, .write, .javaDrain]

/-- The second packet reaches the dev tunnel in front of the first. -/
theorem order_overtaken :
    ∃ s, run natStep (natInit exampleNat) overtakingActs = some s ∧
      (itemsOf 0 s.accepted).map QueueLink.stamp = [0, 1] ∧
      (itemsOf 0 s.written).map QueueLink.stamp = [1, 0] ∧ ¬ s.InOrder := by
  have hstamps : (run natStep (natInit exampleNat) overtakingActs).map (fun s =>
      ((itemsOf 0 s.accepted).map QueueLink.stamp, (itemsOf 0 s.written).map QueueLink.stamp)) =
        some ([0, 1], [1, 0]) := by
    decide
  obtain ⟨s, hs, heq⟩ := Option.map_eq_some_iff.mp hstamps
  obtain ⟨haccepted, hwritten⟩ := Prod.mk.inj heq
  refine ⟨s, hs, haccepted, hwritten, ?_⟩
  intro horder
  have hmap := congrArg (List.map QueueLink.stamp) (horder 0)
  rw [List.map_append, haccepted, hwritten] at hmap
  cases hmap

end ConfProfile
