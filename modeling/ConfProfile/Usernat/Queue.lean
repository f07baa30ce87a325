import ConfProfile.Lib.LinkedList
import ConfProfile.Lib.Loop
import ConfProfile.Lib.Run

/-!
# The queue of a link in memory (`ocpa/queues.c`)

`ConfProfile.Usernat.Packet` has the queue of a link as a list. Here it is what the source has:
links in memory, and a queue that points to the first and the last of them. `Represents` is what
`queue_put` and `queue_get` keep: the links of a list are linked from `head_link` on, and
`tail_link` is the last of them, or NULL where there is none. Along every run of calls the queue is
the list of a queue that first gives what was first put (`queue_refines`).
-/

namespace ConfProfile

open LinkedList Loop Run

/-- `queue_link` without its `next`. -/
structure QueueEntry where
  ptr : Nat
  /-- 0 is NULL -/
  buff : Nat
  size : Int
  deriving DecidableEq, Repr

/-- `queue`; 0 is NULL. -/
structure Queue where
  headLink : Nat
  tailLink : Nat
  deriving DecidableEq, Repr

/-- The memory of the links and the queue; `none` is NULL. -/
structure QueueMem where
  cells : Cells QueueEntry
  queue : Option Queue

/-! ## The functions, where `none` is an access to a link that is not there -/

/-- `queue_link_init`, where `malloc` gives `ptr`. -/
def queueLinkInit (m : QueueMem) (ptr : Nat) : QueueMem × Nat :=
  if ptr ≠ 0 then
    ({ m with cells := Function.update m.cells ptr (some ⟨0, ⟨ptr, 0, 0⟩⟩) }, ptr)
  else (m, ptr)

/-- What `free` is called with. -/
inductive Freed where
  | buff (ptr : Nat)
  | link (ptr : Nat)
  | queue
  deriving DecidableEq, Repr

def QueueEntry.freed (e : QueueEntry) : List Freed :=
  (if e.buff ≠ 0 then [.buff e.buff] else []) ++ [.link e.ptr]

/-- `queue_link_deinit`. -/
def queueLinkDeinit (m : QueueMem) (ql : Nat) : Option (QueueMem × List Freed) :=
  if ql = 0 then some (m, [])
  else (m.cells ql).map fun cell => ({ m with cells := m.cells.free ql }, cell.val.freed)

/-- `queue_init`, where `malloc` gives a queue or NULL. -/
def queueInit (cells : Cells QueueEntry) (allocated : Bool) : QueueMem :=
  { cells := cells, queue := if allocated then some ⟨0, 0⟩ else none }

/-- `queue_get`. -/
def queueGet (m : QueueMem) : Option (QueueMem × Nat) :=
  match m.queue with
  | none => some (m, 0)
  | some q =>
    if q.headLink = 0 then some (m, 0)
    else
      (m.cells q.headLink).map fun cell =>
        -- the link may be the only one
        let tailLink := if q.headLink = q.tailLink then 0 else q.tailLink
        ({ cells := m.cells.setNext q.headLink 0, queue := some ⟨cell.next, tailLink⟩ }, q.headLink)

/-- `queue_put`. -/
def queuePut (m : QueueMem) (ql : Nat) : Option (QueueMem × Bool) :=
  match m.queue with
  | none => some (m, false)
  | some q =>
    if ql = 0 then some (m, false)
    else do
      let _ ← m.cells ql
      let cells := m.cells.setNext ql 0
      if q.tailLink ≠ 0 then
        let _ ← cells q.tailLink
        some ({ cells := cells.setNext q.tailLink ql, queue := some ⟨q.headLink, ql⟩ }, true)
      else some ({ cells := cells, queue := some ⟨ql, ql⟩ }, true)

/-- The loop of `queue_deinit`, with what it has freed. -/
structure QueueDrain where
  mem : QueueMem
  ql : Nat
  freed : List Freed

/-- `ql = queue_get(q)` at the head of the loop. -/
def drainHead (mem : QueueMem) (freed : List Freed) : Option QueueDrain :=
  (queueGet mem).map fun r => ⟨r.1, r.2, freed⟩

def drainTurn (d : Option QueueDrain) : Option QueueDrain := do
  let d ← d
  let r ← queueLinkDeinit d.mem d.ql
  drainHead r.1 (d.freed ++ r.2)

def DrainOver (d : Option QueueDrain) : Prop := ∃ drain, d = some drain ∧ drain.ql = 0

/-- `queue_deinit` returns, and has freed so much. -/
inductive QueueDeinitReturns (m : QueueMem) : Bool → List Freed → Prop
  | null (h : m.queue = none) : QueueDeinitReturns m false []
  | drained {drain : QueueDrain} (h : m.queue ≠ none)
      (hloop : EndsIn drainTurn DrainOver (drainHead m []) (some drain)) :
      QueueDeinitReturns m true (drain.freed ++ [.queue])

/-! ## The list of a queue -/

/-- The queue has the links of a list. -/
structure Represents (m : QueueMem) (q : Queue) (l : List QueueEntry) : Prop where
  queue : m.queue = some q
  list : IsList QueueEntry.ptr m.cells q.headLink l
  tail : q.tailLink = (l.getLast?.map QueueEntry.ptr).getD 0

section calls

variable {m : QueueMem} {q : Queue} {l : List QueueEntry} {a : QueueEntry} {ql : Nat}

theorem represents_init (cells : Cells QueueEntry) : Represents (queueInit cells true) ⟨0, 0⟩ [] :=
  ⟨rfl, .nil, rfl⟩

/-- The links of a list are in memory, and not at NULL. -/
theorem Represents.cell (h : Represents m q l) (ha : a ∈ l) :
    a.ptr ≠ 0 ∧ ∃ next, m.cells a.ptr = some ⟨next, a⟩ := by
  obtain ⟨pre, post, rfl⟩ := List.append_of_mem ha
  obtain ⟨r, -, hrest⟩ := segment_append.mp h.list
  obtain ⟨hr, rfl, next, hcell, -⟩ := segment_cons.mp hrest
  exact ⟨hr, next, hcell⟩

theorem Represents.headLink_eq (h : Represents m q l) :
    q.headLink = (l.head?.map QueueEntry.ptr).getD 0 := by
  cases l with
  | nil => exact segment_nil.mp h.list
  | cons a l =>
    obtain ⟨-, hptr, -⟩ := segment_cons.mp h.list
    exact hptr.symm

theorem Represents.headLink_null (h : Represents m q l) : q.headLink = 0 ↔ l = [] := by
  rw [h.headLink_eq]
  cases l with
  | nil => exact iff_of_true rfl rfl
  | cons a l => exact iff_of_false (h.cell List.mem_cons_self).1 (List.cons_ne_nil a l)

theorem Represents.tailLink_null (h : Represents m q l) : q.tailLink = 0 ↔ l = [] := by
  rw [h.tail]
  rcases List.eq_nil_or_concat l with rfl | ⟨init, b, rfl⟩
  · exact iff_of_true rfl rfl
  · rw [List.concat_eq_append] at h ⊢
    rw [List.getLast?_concat]
    exact iff_of_false (h.cell (by simp)).1 (by simp)

/-- Nothing is got from an empty queue. -/
theorem Represents.get_nil (h : Represents m q []) : queueGet m = some (m, 0) := by
  rw [queueGet, h.queue]
  exact if_pos (h.headLink_null.mpr rfl)

/-- The first link is got, and is no more in the queue. -/
theorem Represents.get_cons (h : Represents m q (a :: l)) :
    ∃ m' q', queueGet m = some (m', a.ptr) ∧ Represents m' q' l ∧
      m'.cells a.ptr = some ⟨0, a⟩ := by
  obtain ⟨hnull, hptr, next, hcell, hrest⟩ := segment_cons.mp h.list
  have hnodup := h.list.nodup
  rw [List.map_cons, List.nodup_cons] at hnodup
  have hget : queueGet m = some
      ({ cells := m.cells.setNext q.headLink 0,
         queue := some ⟨next, if q.headLink = q.tailLink then 0 else q.tailLink⟩ }, q.headLink) := by
    rw [queueGet, h.queue]
    simp only
    rw [if_neg hnull, hcell, Option.map_some]
  rw [hptr]
  refine ⟨_, _, hget, ⟨rfl, hrest.setNext_of_not_mem (hptr ▸ hnodup.1) 0, ?_⟩,
    Cells.setNext_self 0 hcell⟩
  -- the tail is the head only where there is no other link
  rw [h.tail]
  rcases List.eq_nil_or_concat l with rfl | ⟨init, b, rfl⟩
  · exact if_pos hptr.symm
  · rw [List.concat_eq_append] at hnodup ⊢
    have hlast : (a :: (init ++ [b])).getLast? = some b := by
      rw [← List.cons_append, List.getLast?_concat]
    have hne : q.headLink ≠ b.ptr := by
      intro heq
      refine hnodup.1 ?_
      rw [hptr, heq]
      exact List.mem_map_of_mem (List.mem_append_right _ (List.mem_singleton_self b))
    rw [hlast, List.getLast?_concat]
    exact if_neg hne

/-- A link that is not in the queue is put behind the others. -/
theorem Represents.put (h : Represents m q l) {next : Nat} (ha : m.cells a.ptr = some ⟨next, a⟩)
    (hnull : a.ptr ≠ 0) (hfresh : a.ptr ∉ l.map QueueEntry.ptr) :
    ∃ m' q', queuePut m a.ptr = some (m', true) ∧ Represents m' q' (l ++ [a]) := by
  have hself : m.cells.setNext a.ptr 0 a.ptr = some ⟨0, a⟩ := Cells.setNext_self 0 ha
  have hkeep := h.list.setNext_of_not_mem hfresh 0
  rcases List.eq_nil_or_concat l with rfl | ⟨init, b, rfl⟩
  · have hput : queuePut m a.ptr = some
        ({ cells := m.cells.setNext a.ptr 0, queue := some ⟨a.ptr, a.ptr⟩ }, true) := by
      rw [queuePut, h.queue]
      simp only
      rw [if_neg hnull, ha, if_neg (not_not.mpr (h.tailLink_null.mpr rfl))]
      rfl
    exact ⟨_, _, hput, rfl, .cons hnull rfl hself .nil, rfl⟩
  · rw [List.concat_eq_append] at h hkeep hfresh ⊢
    have htail : q.tailLink = b.ptr := by
      rw [h.tail, List.getLast?_concat]
      rfl
    have hb : q.tailLink ≠ 0 := by
      rw [Ne, h.tailLink_null]
      simp
    have hne : a.ptr ≠ b.ptr := by
      intro heq
      refine hfresh ?_
      rw [heq]
      exact List.mem_map_of_mem (List.mem_append_right _ (List.mem_singleton_self b))
    obtain ⟨r, hinit, hlast⟩ := segment_append.mp hkeep
    obtain ⟨-, hbr, next', hcell, -⟩ := segment_cons.mp hlast
    have hput : queuePut m a.ptr = some
        ({ cells := (m.cells.setNext a.ptr 0).setNext b.ptr a.ptr,
           queue := some ⟨q.headLink, a.ptr⟩ }, true) := by
      rw [queuePut, h.queue]
      simp only
      rw [if_neg hnull, ha, if_pos hb, htail, hbr, hcell]
      rfl
    have hbinit : b.ptr ∉ init.map QueueEntry.ptr := by
      have hnodup := h.list.nodup
      rw [List.map_append, List.map_singleton, ← List.concat_eq_append, List.nodup_concat] at hnodup
      exact hnodup.1
    refine ⟨_, _, hput, rfl, segment_append.mpr
      ⟨a.ptr, hkeep.setNext_last hbinit a.ptr, .cons hnull rfl ?_ .nil⟩, ?_⟩
    · exact (Cells.setNext_of_ne _ _ hne).trans hself
    · rw [List.getLast?_concat]
      rfl

/-- The loop of `queue_deinit` frees the links that are left, one after the other. -/
theorem Represents.drain (h : Represents m q l) (freed : List Freed) :
    ∃ drain, EndsIn drainTurn DrainOver (drainHead m freed) (some drain) ∧
      drain.freed = freed ++ l.flatMap QueueEntry.freed := by
  induction l generalizing m q freed with
  | nil =>
    refine ⟨⟨m, 0, freed⟩, ?_, (List.append_nil freed).symm⟩
    rw [drainHead, h.get_nil]
    exact .stop ⟨_, rfl, rfl⟩
  | cons a l ih =>
    obtain ⟨m', q', hget, hrest, hcell⟩ := h.get_cons
    have hnull : a.ptr ≠ 0 := (h.cell List.mem_cons_self).1
    have hnodup := h.list.nodup
    rw [List.map_cons, List.nodup_cons] at hnodup
    have hfreed : Represents { m' with cells := m'.cells.free a.ptr } q' l :=
      ⟨hrest.queue, hrest.list.free hnodup.1, hrest.tail⟩
    obtain ⟨drain, hloop, hall⟩ := ih hfreed (freed ++ a.freed)
    refine ⟨drain, .turn ?_ ?_, ?_⟩
    · rw [drainHead, hget]
      rintro ⟨drain, heq, hzero⟩
      cases heq
      exact hnull hzero
    · rw [drainHead, hget]
      have hturn : drainTurn (some ⟨m', a.ptr, freed⟩) =
          drainHead { m' with cells := m'.cells.free a.ptr } (freed ++ a.freed) := by
        show (queueLinkDeinit m' a.ptr).bind (fun r => drainHead r.1 (freed ++ r.2)) = _
        rw [queueLinkDeinit, if_neg hnull, hcell]
        rfl
      exact hturn ▸ hloop
    · rw [hall, List.flatMap_cons, List.append_assoc]

end calls

/-! ## Runs -/

/-- The address is that of a link in the queue. -/
def Queued (m : QueueMem) (p : Nat) : Prop :=
  ∃ q l, Represents m q l ∧ p ∈ l.map QueueEntry.ptr

/-- A link that is not in the queue. -/
def FreshLink (m : QueueMem) (ql : Nat) : Prop :=
  ql ≠ 0 ∧ (∃ next a, m.cells ql = some ⟨next, a⟩ ∧ a.ptr = ql) ∧ ¬ Queued m ql

inductive QueueAction where
  | put (ql : Nat)
  | get
  /-- the program does something with the links that are not in the queue -/
  | other (cells : Cells QueueEntry)

def queueStep (m : QueueMem) : QueueAction → Option QueueMem
  | .put ql => (queuePut m ql).map Prod.fst
  | .get => (queueGet m).map Prod.fst
  | .other cells => some { m with cells := cells }

/-- What the program keeps to. -/
def QueueAction.Allowed (m : QueueMem) : QueueAction → Prop
  | .put ql => FreshLink m ql
  | .get => True
  | .other cells => ∀ p, Queued m p → cells p = m.cells p

/-- The links of a queue that first gives what was first put. -/
def fifo (links : List Nat) : QueueAction → List Nat
  | .put ql => links ++ [ql]
  | .get => links.tail
  | .other _ => links

section runs

variable {m : QueueMem} {q : Queue} {l : List QueueEntry}

theorem Represents.unique {q' : Queue} {l' : List QueueEntry} (h : Represents m q l)
    (h' : Represents m q' l') : l = l' := by
  cases h.queue.symm.trans h'.queue
  exact h.list.unique h'.list

theorem Represents.queued (h : Represents m q l) {p : Nat} :
    Queued m p ↔ p ∈ l.map QueueEntry.ptr := by
  constructor
  · rintro ⟨q', l', h', hp⟩
    rwa [h.unique h']
  · exact fun hp => ⟨q, l, h, hp⟩

/-- A link that was allocated is not in the queue. -/
theorem Represents.linkInit (h : Represents m q l) {ptr : Nat} (hptr : ptr ≠ 0)
    (hfree : m.cells ptr = none) :
    Represents (queueLinkInit m ptr).1 q l ∧ FreshLink (queueLinkInit m ptr).1 ptr := by
  have hnot : ptr ∉ l.map QueueEntry.ptr := by
    intro hmem
    obtain ⟨a, ha, rfl⟩ := List.mem_map.mp hmem
    obtain ⟨-, next, hcell⟩ := h.cell ha
    rw [hfree] at hcell
    cases hcell
  have hinit : queueLinkInit m ptr =
      ({ m with cells := Function.update m.cells ptr (some ⟨0, ⟨ptr, 0, 0⟩⟩) }, ptr) := if_pos hptr
  rw [hinit]
  have hrep : Represents { m with cells := Function.update m.cells ptr (some ⟨0, ⟨ptr, 0, 0⟩⟩) }
      q l := by
    refine ⟨h.queue, h.list.congr fun p hp => Function.update_of_ne ?_ _ _, h.tail⟩
    rintro rfl
    exact hnot hp
  exact ⟨hrep, hptr, ⟨0, ⟨ptr, 0, 0⟩, Function.update_self .., rfl⟩, fun hmem =>
    hnot (hrep.queued.mp hmem)⟩

theorem Represents.step (h : Represents m q l) {action : QueueAction} (hallowed : action.Allowed m) :
    ∃ m' q' l', queueStep m action = some m' ∧ Represents m' q' l' ∧
      l'.map QueueEntry.ptr = fifo (l.map QueueEntry.ptr) action := by
  cases action with
  | put ql =>
    obtain ⟨hnull, ⟨next, a, ha, rfl⟩, hfresh⟩ := hallowed
    obtain ⟨m', q', hput, hrep⟩ := h.put ha hnull (fun hmem => hfresh (h.queued.mpr hmem))
    refine ⟨m', q', l ++ [a], ?_, hrep, List.map_append⟩
    rw [queueStep, hput, Option.map_some]
  | get =>
    cases l with
    | nil =>
      refine ⟨m, q, [], ?_, h, rfl⟩
      rw [queueStep, h.get_nil, Option.map_some]
    | cons a l =>
      obtain ⟨m', q', hget, hrep, -⟩ := h.get_cons
      refine ⟨m', q', l, ?_, hrep, rfl⟩
      rw [queueStep, hget, Option.map_some]
  | other cells =>
    refine ⟨_, q, l, rfl, ⟨h.queue, h.list.congr fun p hp => ?_, h.tail⟩, rfl⟩
    exact hallowed p (h.queued.mpr hp)

theorem Represents.run (actions : List QueueAction) (h : Represents m q l)
    (hallowed : Guarded queueStep (fun m action => action.Allowed m) m actions) :
    ∃ m' q' l', Run.run queueStep m actions = some m' ∧ Represents m' q' l' ∧
      l'.map QueueEntry.ptr = actions.foldl fifo (l.map QueueEntry.ptr) := by
  induction actions generalizing m q l with
  | nil => exact ⟨m, q, l, rfl, h, rfl⟩
  | cons action actions ih =>
    obtain ⟨hfirst, hrest⟩ := hallowed
    obtain ⟨m', q', l', hstep, hrep, hlinks⟩ := h.step hfirst
    obtain ⟨m'', q'', l'', hrun, hrep', hlinks'⟩ := ih hrep (hrest m' hstep)
    refine ⟨m'', q'', l'', ?_, hrep', ?_⟩
    · rw [Run.run, hstep, Option.bind_some, hrun]
    · rw [hlinks', hlinks, List.foldl_cons]

/-- Along every run the queue has the links that were put and not yet got, in their order: the next
one is got, or NULL where there is none, and a link that is put is behind the last of them. The
head is NULL exactly if the tail is, and `queue_deinit` frees every link that is left once. -/
theorem queue_refines (cells : Cells QueueEntry) {actions : List QueueAction}
    (hallowed : Guarded queueStep (fun m action => action.Allowed m) (queueInit cells true) actions) :
    ∃ m q l, Run.run queueStep (queueInit cells true) actions = some m ∧ Represents m q l ∧
      l.map QueueEntry.ptr = actions.foldl fifo [] ∧
      (∃ m', queueGet m = some (m', (actions.foldl fifo []).head?.getD 0)) ∧
      (∀ ql, FreshLink m ql → ∃ m', queuePut m ql = some (m', true)) ∧
      (q.headLink = 0 ↔ q.tailLink = 0) ∧
      QueueDeinitReturns m true (l.flatMap QueueEntry.freed ++ [.queue]) ∧
      (l.map QueueEntry.ptr).Nodup := by
  obtain ⟨m, q, l, hrun, hrep, hlinks⟩ := (represents_init cells).run actions hallowed
  refine ⟨m, q, l, hrun, hrep, hlinks, ?_, fun ql hql => ?_, ?_, ?_, hrep.list.nodup⟩
  · rw [← show l.map QueueEntry.ptr = actions.foldl fifo [] from hlinks]
    cases l with
    | nil => exact ⟨m, hrep.get_nil⟩
    | cons a l =>
      obtain ⟨m', q', hget, -⟩ := hrep.get_cons
      exact ⟨m', hget⟩
  · obtain ⟨hnull, ⟨next, a, ha, rfl⟩, hfresh⟩ := hql
    obtain ⟨m', q', hput, -⟩ := hrep.put ha hnull (fun hmem => hfresh (hrep.queued.mpr hmem))
    exact ⟨m', hput⟩
  · rw [hrep.headLink_null, hrep.tailLink_null]
  · obtain ⟨drain, hloop, hfreed⟩ := hrep.drain []
    rw [← List.nil_append (l.flatMap _), ← hfreed]
    refine .drained ?_ hloop
    rw [hrep.queue]
    exact Option.some_ne_none q

end runs

/-- Two links in memory. -/
def twoLinks : Cells QueueEntry := fun p =>
  if p = 16 then some ⟨0, ⟨16, 160, 40⟩⟩ else if p = 32 then some ⟨0, ⟨32, 320, 60⟩⟩ else none

theorem queue_refines_twoLinks :
    ∃ m q l, Run.run queueStep (queueInit twoLinks true) [.put 16, .put 32, .get] = some m ∧
      Represents m q l ∧
      l.map QueueEntry.ptr = [.put 16, .put 32, .get].foldl fifo [] ∧
      (∃ m', queueGet m = some (m', ([.put 16, .put 32, .get].foldl fifo []).head?.getD 0)) ∧
      (∀ ql, FreshLink m ql → ∃ m', queuePut m ql = some (m', true)) ∧
      (q.headLink = 0 ↔ q.tailLink = 0) ∧
      QueueDeinitReturns m true (l.flatMap QueueEntry.freed ++ [.queue]) ∧
      (l.map QueueEntry.ptr).Nodup := by
  refine queue_refines twoLinks ⟨?_, fun m hm => ⟨?_, fun m' _ => ⟨trivial, fun _ _ => trivial⟩⟩⟩
  · refine ⟨by decide, ⟨0, ⟨16, 160, 40⟩, rfl, rfl⟩, fun hqueued => ?_⟩
    cases (represents_init twoLinks).queued.mp hqueued
  · have hmem : m = { cells := twoLinks.setNext 16 0, queue := some ⟨16, 16⟩ } :=
      (Option.some.inj hm).symm
    subst hmem
    have hone : Represents { cells := twoLinks.setNext 16 0, queue := some ⟨16, 16⟩ } ⟨16, 16⟩
        [⟨16, 160, 40⟩] := ⟨rfl, .cons (by decide) rfl rfl .nil, rfl⟩
    refine ⟨by decide, ⟨0, ⟨32, 320, 60⟩, rfl, rfl⟩, fun hqueued => ?_⟩
    exact absurd (hone.queued.mp hqueued) (by decide)

end ConfProfile
