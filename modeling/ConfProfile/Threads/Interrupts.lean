import ConfProfile.Lib.Interrupt
import ConfProfile.Threads.HelperThread
import ConfProfile.Threads.SqliteRequestThread

/-!
# Interrupting the threads (`HelperThread`, `SqliteRequestThread`, `VpnManagerService`)

`onDestroy` interrupts the thread once. `run` asks `interrupted()` at the head of its loop only;
the exception of a `wait` is caught inside the loop, which goes on.

So an interrupt ends the thread if it comes while the thread takes or performs a request, whose
performer lets it be, and is lost if it comes while the thread waits, or between a `poll` that
gives null and the `wait` (`interrupt_iff`).
-/

namespace ConfProfile

open Interrupt Run

/-! ## The loops -/

namespace Helper

variable {R P CB : Type}

def Act.kind : Act R P CB → Kind
  | .call _ | .add | .notify | .leave | .runnable => .other
  | .poll | .lock | .wake | .perform _ => .work
  | .wait => .wait
  | .relock => .awake

/-- A `wait` that throws leaves the monitor for `continue`; a performer may clear the flag. -/
def HelperThread.thrown (s : HelperThread R P CB) : Act R P CB → Option (HelperThread R P CB)
  | .wait =>
    match s.monitor with
    | .worker => some { s with worker := .polling, monitor := .free }
    | _ => none
  | .relock => helperStep s .relock
  | .perform result => helperStep s (.perform result)
  | _ => none

/-- The loop of `HelperThread.run`. `freeResources` is abstract. -/
def helperLoop : WorkerLoop (HelperThread R P CB) (Act R P CB) where
  step := helperStep
  kind := Act.kind
  head s := s.worker = .polling
  waiting s := s.worker = .waiting
  dead _ := false
  dies _ _ := False
  thrown := HelperThread.thrown
  cleanUp := id

theorem helperLoop_lawful : (@helperLoop R P CB).Lawful where
  dead_iff _ := iff_of_false nofun (fun h => h.elim nofun id)
  dead_thrown _ := rfl
  dead_cleanUp _ := rfl
  not_dead _ := rfl
  not_other h := h.elim

end Helper

namespace Sqlite

def Act.kind : Act → Kind
  | .client _ _ | .collect _ => .other
  | .worker .wait => .wait
  | .worker .wake => .awake
  | .worker _ => .work

/-- A `wait` that throws leaves the monitor for `continue`; a request may clear the flag. -/
def SqliteRequestThread.thrown (s : SqliteRequestThread) : Act → Option SqliteRequestThread
  | .worker .wait =>
    match s.worker, s.monitor with
    | .pollNull, none => some { s with worker := .loopHead }
    | _, _ => none
  | .worker .wake => sqliteStep s (.worker .wake)
  | .worker (.perform returns) => sqliteStep s (.worker (.perform returns))
  | _ => none

/-- The loop of `SqliteRequestThread.run`. Behind it the database is closed and the queue
cleared. -/
def sqliteLoop : WorkerLoop SqliteRequestThread Act where
  step := sqliteStep
  kind := Act.kind
  head s := s.worker = .loopHead
  waiting s := s.worker = .waiting
  dead s := s.worker = .dead
  dies s a := match a with
    | .worker .next => s.IteratorFails
    | _ => False
  thrown := SqliteRequestThread.thrown
  cleanUp s := { s with mQueue := [] }

theorem not_iteratorFails {s : SqliteRequestThread} {curr : Nat} {it : Iter}
    {items : List WeakListener} (hworker : s.worker = .iterating curr it items)
    (hit : it.remaining ≠ [] → it.expectedModCount = s.modCount) : ¬ s.IteratorFails := by
  intro hfails
  obtain ⟨curr', it', items', hworker', hne, hmod⟩ := hfails
  cases hworker.symm.trans hworker'
  exact hmod (hit hne)

/-- Only the iterator ends the worker by an exception. -/
theorem dead_iff_step {s s' : SqliteRequestThread} {a : Act} (h : sqliteStep s a = some s') :
    s'.worker = .dead ↔ s.worker = .dead ∨ sqliteLoop.dies s a := by
  cases stepped_of_step h with
  | head hworker | removeAll items hworker | pollNull hworker | poll data mQueue hworker
  | wait hworker | wake hworker | setCurrent data hworker | notify data hworker =>
    exact iff_of_false nofun (by rw [hworker]; exact fun h => h.elim nofun id)
  | nextEnd curr it items hworker hit =>
    refine iff_of_false nofun (not_or.mpr ⟨by rw [hworker]; nofun, ?_⟩)
    exact not_iteratorFails hworker fun hne => absurd hit hne
  | nextFail curr it items hworker hit hmod =>
    exact iff_of_true rfl (Or.inr ⟨curr, it, items, hworker, hit, hmod⟩)
  | nextBreak curr it items _ _ hworker _ hmod | nextPost curr it items _ _ hworker _ hmod =>
    refine iff_of_false nofun (not_or.mpr ⟨by rw [hworker]; nofun, ?_⟩)
    exact not_iteratorFails hworker fun _ => hmod
  | perform data returns hworker =>
    refine iff_of_false ?_ (by rw [hworker]; exact fun h => h.elim nofun id)
    unfold SqliteRequestThread.perform
    dsimp only
    split <;> nofun
  | request | requestAsync | add | leave | move | subscribeRefused | unsubscribeRefused
  | subscribe | check | addListener | remove | collect =>
    exact (or_iff_left id).symm

theorem dead_iff_thrown {s s' : SqliteRequestThread} {a : Act}
    (h : SqliteRequestThread.thrown s a = some s') : s'.worker = .dead ↔ s.worker = .dead := by
  unfold SqliteRequestThread.thrown at h
  split at h
  next =>
    split at h
    next hworker _ =>
      obtain rfl := Option.some.inj h
      exact iff_of_false nofun (by rw [hworker]; nofun)
    next => cases h
  next => exact (dead_iff_step h).trans (or_iff_left id)
  next => exact (dead_iff_step h).trans (or_iff_left id)
  next => cases h

theorem sqliteLoop_lawful : sqliteLoop.Lawful where
  dead_iff h := by
    simp only [sqliteLoop, decide_eq_true_eq]
    exact dead_iff_step h
  dead_thrown h := decide_eq_decide.mpr (dead_iff_thrown h)
  dead_cleanUp _ := rfl
  not_dead {s} h := by
    simp only [sqliteLoop, decide_eq_true_eq] at h
    simp only [sqliteLoop, h]
    rfl
  not_other {s a} h := by
    cases a with
    | worker act => cases act <;> nofun
    | client | collect => exact h.elim

end Sqlite

/-! ## When a thread stops -/

/-- However often a thread is interrupted, it waits no more and reaches its clean-up if nothing
but the test of its loop clears the flag and the iterator over the listeners does not fail. For a
thread that has been interrupted once and come to rest this is the exact condition. -/
theorem interrupt_iff {R P CB : Type} :
    (∀ (acts : List (IntAct (Helper.Act R P CB))) (s : Interruptible (Helper.HelperThread R P CB)),
      run (intStep Helper.helperLoop) (.start .start) acts = some s →
      (Guarded (intStep Helper.helperLoop) (Clear Helper.helperLoop) (.start .start) acts →
        s.Stops Helper.helperLoop) ∧
      (Guarded (intStep Helper.helperLoop) Once (.start .start) acts → s.called = true →
        s.Settled Helper.helperLoop → (s.Stops Helper.helperLoop ↔
          Guarded (intStep Helper.helperLoop) (Clear Helper.helperLoop) (.start .start) acts))) ∧
    ∀ (acts : List (IntAct Sqlite.Act)) (s : Interruptible Sqlite.SqliteRequestThread),
      run (intStep Sqlite.sqliteLoop) (.start .start) acts = some s →
      (Guarded (intStep Sqlite.sqliteLoop) (Clear Sqlite.sqliteLoop) (.start .start) acts →
        s.Stops Sqlite.sqliteLoop) ∧
      (Guarded (intStep Sqlite.sqliteLoop) Once (.start .start) acts → s.called = true →
        s.Settled Sqlite.sqliteLoop → (s.Stops Sqlite.sqliteLoop ↔
          Guarded (intStep Sqlite.sqliteLoop) (Clear Sqlite.sqliteLoop) (.start .start) acts)) := by
  constructor
  · intro acts s hrun
    exact ⟨stops_of_clear Helper.helperLoop_lawful rfl acts hrun,
      stops_iff_clear Helper.helperLoop_lawful rfl acts hrun⟩
  · intro acts s hrun
    exact ⟨stops_of_clear Sqlite.sqliteLoop_lawful rfl acts hrun,
      stops_iff_clear Sqlite.sqliteLoop_lawful rfl acts hrun⟩

/-- The interrupt comes while the thread performs a request. -/
def whilePerforming : List (IntAct (Helper.Act Unit Unit Unit)) :=
  [.act (.call ⟨(), (), ()⟩), .act .add, .test, .act .poll, .interrupt,
    .act (.perform (some true)), .test, .cleanUp]

/-- The interrupt comes while a request is performed that a client has put into the queue. -/
def whileQuerying : List (IntAct Sqlite.Act) :=
  [.act (.client 0 (.requestAsync (.insert 1) none)), .act (.client 0 .add),
    .act (.client 0 .leave), .test, .act (.worker .head), .act (.worker .next),
    .act (.worker .removeAll), .act (.worker .poll), .act (.worker .setCurrent), .interrupt,
    .act (.worker (.perform true)), .test, .cleanUp]

theorem interrupt_iff_example :
    (∃ s, run (intStep Helper.helperLoop) (.start .start) whilePerforming = some s ∧
      s.pc = .ended ∧ s.Stops Helper.helperLoop) ∧
    ∃ s, run (intStep Sqlite.sqliteLoop) (.start .start) whileQuerying = some s ∧
      s.pc = .ended ∧ s.inner.performed = [1] ∧ s.Stops Sqlite.sqliteLoop := by
  obtain ⟨hhelper, hsqlite⟩ := @interrupt_iff Unit Unit Unit
  refine ⟨⟨_, rfl, rfl, (hhelper whilePerforming _ rfl).1 (guarded_of_mem _ _ ?_)⟩,
    _, rfl, rfl, rfl, ((hsqlite whileQuerying _ rfl).2 ?_ rfl (Or.inl rfl)).mpr ?_⟩
  · intro a ha s
    simp only [whilePerforming, List.mem_cons, List.not_mem_nil, or_false] at ha
    rcases ha with rfl | rfl | rfl | rfl | rfl | rfl | rfl | rfl
    all_goals first | exact trivial | exact id
  · unfold whileQuerying
    iterate 13 refine guarded_cons rfl (by first | exact rfl | exact trivial) ?_
    exact trivial
  · unfold whileQuerying
    iterate 5 refine guarded_cons rfl (by first | exact trivial | exact id) ?_
    -- the only step that could end the thread: the list of listeners is empty
    refine guarded_cons rfl (Sqlite.not_iteratorFails rfl fun hne => absurd rfl hne) ?_
    iterate 7 refine guarded_cons rfl (by first | exact trivial | exact id) ?_
    exact trivial

/-- The interrupt comes while the thread waits: it waits again, and for ever. -/
theorem interrupt_counterexample :
    (∃ s : Interruptible (Helper.HelperThread Unit Unit Unit),
      run (intStep Helper.helperLoop) (.start .start)
        [.test, .act .poll, .act .lock, .act .wait, .interrupt, .act .wake, .throws .relock,
          .test, .act .poll, .act .lock, .act .wait] = some s ∧
      s.waited = true ∧ s.Settled Helper.helperLoop ∧ s.pc ≠ .ended) ∧
    ∃ s : Interruptible Sqlite.SqliteRequestThread,
      run (intStep Sqlite.sqliteLoop) (.start .start)
        [.test, .act (.worker .head), .act (.worker .next), .act (.worker .removeAll),
          .act (.worker .poll), .act (.worker .wait), .interrupt, .throws (.worker .wake), .test,
          .act (.worker .head), .act (.worker .next), .act (.worker .removeAll),
          .act (.worker .poll), .act (.worker .wait)] = some s ∧
      s.waited = true ∧ s.Settled Sqlite.sqliteLoop ∧ s.pc ≠ .ended :=
  ⟨⟨_, rfl, rfl, Or.inr ⟨rfl, Or.inr ⟨rfl, rfl⟩⟩, nofun⟩,
    _, rfl, rfl, Or.inr ⟨rfl, Or.inr ⟨rfl, rfl⟩⟩, nofun⟩

end ConfProfile
