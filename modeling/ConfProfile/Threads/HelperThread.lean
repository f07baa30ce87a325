import ConfProfile.Lib.Run
import Mathlib.Data.List.Nodup
import Mathlib.Logic.Function.Basic

/-!
# `HelperThread`

The worker and any number of threads that call the asynchronous `request`, step by step. The
worker polls the queue outside its monitor, and if it finds nothing it locks the monitor and
waits, without a timeout and without a second look at the queue. A request that comes between
the two steps notifies nobody.

`helper_along_iff` says that this is all that goes wrong: the worker never waits beside a
request exactly if the queue is still empty whenever it starts to wait. Every request that is
taken is answered once, with its own performer, in every run.
-/

namespace ConfProfile.Helper

open Run

variable {R P CB : Type}

/-- A call of `request(request, performer, callback)`. -/
structure Asked (R P CB : Type) where
  request : R
  performer : P
  callback : CB
  deriving DecidableEq

structure RequestData (R P CB : Type) where
  request : Option R
  performer : Option P
  callback : Option CB
  isSyncRequest : Bool

/-- A new record, and what `clearRequestData` leaves. -/
def RequestData.blank : RequestData R P CB := ⟨none, none, none, false⟩

def Asked.data (a : Asked R P CB) : RequestData R P CB :=
  ⟨some a.request, some a.performer, some a.callback, false⟩

/-- What `postCallbacks` posts to the main thread. -/
structure Runnable (R P CB : Type) where
  isError : Bool
  request : Option R
  performer : Option P
  callback : Option CB

def RequestData.runnable (data : RequestData R P CB) (isError : Bool) : Runnable R P CB :=
  ⟨isError, data.request, data.performer, data.callback⟩

/-- The call that a runnable answers, if it has all of its parts. -/
def Runnable.asked (r : Runnable R P CB) : Option (Asked R P CB) :=
  match r.request, r.performer, r.callback with
  | some request, some performer, some callback => some ⟨request, performer, callback⟩
  | _, _, _ => none

/-- Where the worker is. -/
inductive Worker
  | polling
  /-- `poll` has returned null -/
  | pollNull
  | waiting
  /-- behind `wait`, before the monitor is locked again -/
  | notified
  | performing (data : Nat)
  deriving DecidableEq

/-- How far the caller in the monitor is. -/
inductive Phase
  | entered
  | added
  | notified
  deriving DecidableEq

/-- The monitor of the thread. -/
inductive Monitor (R P CB : Type)
  | free
  | worker
  | caller (phase : Phase) (asked : Asked R P CB)

/-- `HelperThread`, with the main thread's queue. `asked` and `taken` are no part of the
program: the call that a record was made by, and the records that `poll` has returned. -/
structure HelperThread (R P CB : Type) where
  records : Nat → RequestData R P CB
  fresh : Nat
  mQueue : List Nat
  mRequestDataPool : List Nat
  worker : Worker
  monitor : Monitor R P CB
  handler : List (Runnable R P CB)
  called : List (Runnable R P CB)
  asked : Nat → Option (Asked R P CB)
  taken : List Nat

/-- `REQUEST_DATA_POOL_SIZE`. -/
def requestDataPoolSize : Nat := 5

/-- The thread when it has been started. -/
def HelperThread.start : HelperThread R P CB where
  records _ := .blank
  fresh := requestDataPoolSize
  mQueue := []
  mRequestDataPool := List.range requestDataPoolSize
  worker := .polling
  monitor := .free
  handler := []
  called := []
  asked _ := none
  taken := []

inductive Act (R P CB : Type)
  /-- a thread enters `request` -/
  | call (asked : Asked R P CB)
  | add
  | notify
  | leave
  | poll
  /-- the worker enters its monitor -/
  | lock
  | wait
  /-- the worker wakes without a notification -/
  | wake
  | relock
  /-- `perform` returns, or throws -/
  | perform (result : Option Bool)
  /-- the main thread runs what has been posted -/
  | runnable

/-- `mQueue.add` of a new record. -/
def HelperThread.add (s : HelperThread R P CB) (a : Asked R P CB) : HelperThread R P CB :=
  { s with
    records := Function.update s.records s.fresh a.data
    asked := Function.update s.asked s.fresh (some a)
    fresh := s.fresh + 1
    mQueue := s.mQueue ++ [s.fresh]
    monitor := .caller .added a }

/-- `returnRequestDataToPool`. A full pool takes nothing. -/
def returnRequestDataToPool (pool : List Nat) (data : Nat) : List Nat :=
  if pool.length < requestDataPoolSize then pool ++ [data] else pool

/-- `postCallbacks`: the record is cleared before the callback is run. -/
def HelperThread.postCallbacks (s : HelperThread R P CB) (data : Nat) (isError : Bool) :
    HelperThread R P CB :=
  { s with
    handler := s.handler ++ [(s.records data).runnable isError]
    records := Function.update s.records data .blank
    mRequestDataPool := returnRequestDataToPool s.mRequestDataPool data }

/-- The worker behind `perform`; without a performer this throws. -/
def HelperThread.performed (s : HelperThread R P CB) (data : Nat) (result : Option Bool) :
    HelperThread R P CB :=
  let result := if (s.records data).performer.isSome then result else none
  let s := { s with worker := .polling }
  if (s.records data).isSyncRequest then s
  else s.postCallbacks data (result ≠ some true)

def helperStep (s : HelperThread R P CB) : Act R P CB → Option (HelperThread R P CB)
  | .call a =>
    match s.monitor with
    | .free => some { s with monitor := .caller .entered a }
    | _ => none
  | .add =>
    match s.monitor with
    | .caller .entered a => some (s.add a)
    | _ => none
  | .notify =>
    match s.monitor with
    | .caller .added a => some { s with
        monitor := .caller .notified a
        -- nobody hears it unless the worker waits already
        worker := if s.worker = .waiting then .notified else s.worker }
    | _ => none
  | .leave =>
    match s.monitor with
    | .caller .notified _ => some { s with monitor := .free }
    | _ => none
  | .poll =>
    match s.worker, s.mQueue with
    | .polling, [] => some { s with worker := .pollNull }
    | .polling, data :: mQueue =>
      some { s with worker := .performing data, mQueue, taken := s.taken ++ [data] }
    | _, _ => none
  | .lock =>
    match s.worker, s.monitor with
    | .pollNull, .free => some { s with monitor := .worker }
    | _, _ => none
  | .wait =>
    match s.monitor with
    -- the queue is not looked at again
    | .worker => some { s with worker := .waiting, monitor := .free }
    | _ => none
  | .wake => if s.worker = .waiting then some { s with worker := .notified } else none
  | .relock =>
    match s.worker, s.monitor with
    | .notified, .free => some { s with worker := .polling }
    | _, _ => none
  | .perform result =>
    match s.worker with
    | .performing data => some (s.performed data result)
    | _ => none
  | .runnable =>
    match s.handler with
    | r :: handler => some { s with handler, called := s.called ++ [r] }
    | [] => none

/-! ## What is asked of a run -/

/-- A call in the monitor has yet to notify the worker. -/
def HelperThread.NotificationPending (s : HelperThread R P CB) : Prop :=
  ∃ a, s.monitor = .caller .entered a ∨ s.monitor = .caller .added a

/-- The worker waits beside a request. -/
def HelperThread.Stuck (s : HelperThread R P CB) : Prop :=
  s.worker = .waiting ∧ s.mQueue ≠ [] ∧ ¬ s.NotificationPending

/-- The record that the worker performs. -/
def HelperThread.inHand (s : HelperThread R P CB) : List Nat :=
  match s.worker with
  | .performing data => [data]
  | _ => []

/-- Each request that was taken has been answered once, in the order in which they were taken,
with the request, the performer and the callback of its call; only that in hand has not yet. -/
def HelperThread.Answered (s : HelperThread R P CB) : Prop :=
  s.taken.map s.asked =
      (s.called ++ s.handler).map Runnable.asked ++ s.inHand.map s.asked ∧
    ∀ data ∈ s.taken, s.asked data ≠ none

/-- What every step keeps: the records that are queued or in hand are those of their calls. -/
structure HelperThread.Inv (s : HelperThread R P CB) : Prop where
  answered : s.Answered
  filled : ∀ data ∈ s.inHand ++ s.mQueue,
    ∃ a, s.asked data = some a ∧ s.records data = a.data
  nodup : (s.inHand ++ s.mQueue).Nodup
  used : ∀ data ∈ s.inHand ++ s.mQueue ++ s.taken, data < s.fresh
  locked : s.monitor = .worker → s.worker = .pollNull

theorem start_inv : (HelperThread.start : HelperThread R P CB).Inv where
  answered := ⟨rfl, by simp [HelperThread.start]⟩
  filled := by simp [HelperThread.start, HelperThread.inHand]
  nodup := List.nodup_nil
  used := by simp [HelperThread.start, HelperThread.inHand]
  locked h := by cases h

section steps

variable {s s' : HelperThread R P CB} {data : Nat} {a : Asked R P CB} {result : Option Bool}

/-- A step that has to do with the monitor only. -/
structure SameRequests (s s' : HelperThread R P CB) : Prop where
  records : s'.records = s.records
  asked : s'.asked = s.asked
  fresh : s'.fresh = s.fresh
  mQueue : s'.mQueue = s.mQueue
  taken : s'.taken = s.taken
  inHand : s'.inHand = s.inHand
  runnables : s'.called ++ s'.handler = s.called ++ s.handler

theorem HelperThread.Inv.congr (hI : s.Inv) (h : SameRequests s s')
    (hlocked : s'.monitor = .worker → s'.worker = .pollNull) : s'.Inv where
  answered := by
    unfold HelperThread.Answered
    rw [h.taken, h.asked, h.runnables, h.inHand]
    exact hI.answered
  filled := by
    rw [h.inHand, h.mQueue, h.asked, h.records]
    exact hI.filled
  nodup := by
    rw [h.inHand, h.mQueue]
    exact hI.nodup
  used := by
    rw [h.inHand, h.mQueue, h.taken, h.fresh]
    exact hI.used
  locked := hlocked

/-- A new record is queued. -/
theorem HelperThread.Inv.add (hI : s.Inv) (a : Asked R P CB) : (s.add a).Inv where
  answered := by
    have hold : ∀ data ∈ s.inHand ++ s.mQueue ++ s.taken, (s.add a).asked data = s.asked data :=
      fun data hdata => Function.update_of_ne (Nat.ne_of_lt (hI.used data hdata)) _ _
    have htaken : s.taken.map (s.add a).asked = s.taken.map s.asked :=
      List.map_congr_left fun data hdata => hold data (List.mem_append_right _ hdata)
    have hhand : s.inHand.map (s.add a).asked = s.inHand.map s.asked :=
      List.map_congr_left fun data hdata =>
        hold data (List.mem_append_left _ (List.mem_append_left _ hdata))
    refine ⟨?_, fun data hdata => ?_⟩
    · exact htaken.trans (hI.answered.1.trans (congrArg _ hhand.symm))
    · rw [hold data (List.mem_append_right _ hdata)]
      exact hI.answered.2 data hdata
  filled data hdata := by
    have hmem : data ∈ s.inHand ++ s.mQueue ∨ data = s.fresh := by
      rcases List.mem_append.mp hdata with hhand | hqueue
      · exact Or.inl (List.mem_append_left _ hhand)
      · exact (List.mem_append.mp hqueue).imp (List.mem_append_right _) List.mem_singleton.mp
    by_cases hfresh : data = s.fresh
    · subst hfresh
      exact ⟨a, Function.update_self .., Function.update_self ..⟩
    · obtain ⟨b, hasked, hrecord⟩ := hI.filled data (hmem.resolve_right hfresh)
      refine ⟨b, ?_, ?_⟩
      · exact (Function.update_of_ne hfresh ..).trans hasked
      · exact (Function.update_of_ne hfresh ..).trans hrecord
  nodup := by
    have hnew : s.fresh ∉ s.inHand ++ s.mQueue := fun hmem =>
      Nat.lt_irrefl _ (hI.used _ (List.mem_append_left _ hmem))
    have hqueue : (s.add a).inHand ++ (s.add a).mQueue = (s.inHand ++ s.mQueue).concat s.fresh := by
      rw [List.concat_eq_append, List.append_assoc]
      rfl
    rw [hqueue, List.nodup_concat]
    exact ⟨hnew, hI.nodup⟩
  used data hdata := by
    have hmem : data ∈ s.inHand ++ s.mQueue ++ s.taken ∨ data = s.fresh := by
      simp only [HelperThread.add, HelperThread.inHand, List.mem_append, List.mem_singleton] at hdata ⊢
      tauto
    rcases hmem with hold | rfl
    · exact Nat.lt_succ_of_lt (hI.used data hold)
    · exact Nat.lt_succ_self _
  locked h := by cases h

/-- A record is taken from the queue. -/
theorem HelperThread.Inv.poll (hI : s.Inv) (hworker : s.worker = .polling) {mQueue : List Nat}
    (hqueue : s.mQueue = data :: mQueue) :
    HelperThread.Inv
      { s with worker := .performing data, mQueue, taken := s.taken ++ [data] } := by
  have hhand : s.inHand = [] := by
    unfold HelperThread.inHand
    rw [hworker]
  have hanswered := hI.answered
  have hfilled := hI.filled
  have hnodup := hI.nodup
  have hused := hI.used
  unfold HelperThread.Answered at hanswered
  rw [hhand, hqueue, List.nil_append] at hfilled hnodup hused
  rw [hhand, List.map_nil, List.append_nil] at hanswered
  refine ⟨⟨?_, ?_⟩, hfilled, hnodup, ?_, ?_⟩
  · show (s.taken ++ [data]).map s.asked = _ ++ [s.asked data]
    rw [List.map_append, hanswered.1]
    rfl
  · intro d hd
    rcases List.mem_append.mp hd with hd | hd
    · exact hanswered.2 d hd
    · obtain rfl := List.mem_singleton.mp hd
      obtain ⟨a, hasked, -⟩ := hfilled d List.mem_cons_self
      exact hasked ▸ Option.some_ne_none a
  · intro d hd
    refine hused d ?_
    simp only [HelperThread.inHand, List.mem_append, List.mem_cons] at hd ⊢
    tauto
  · intro hlocked
    have hnull := hI.locked hlocked
    rw [hworker] at hnull
    cases hnull

/-- What the record in hand has. -/
theorem HelperThread.Inv.inHand_filled (hI : s.Inv) (hworker : s.worker = .performing data) :
    s.inHand = [data] ∧ ∃ a, s.asked data = some a ∧ s.records data = a.data := by
  have hhand : s.inHand = [data] := by
    unfold HelperThread.inHand
    rw [hworker]
  exact ⟨hhand, hI.filled data (List.mem_append_left _ (hhand ▸ List.mem_singleton_self _))⟩

/-- `perform` has returned, or thrown: the callback is posted. -/
theorem HelperThread.Inv.performed (hI : s.Inv) (hworker : s.worker = .performing data)
    (result : Option Bool) : (s.performed data result).Inv := by
  obtain ⟨hhand, a, hasked, hrecord⟩ := hI.inHand_filled hworker
  have hanswered := hI.answered
  have hfilled := hI.filled
  have hnodup := hI.nodup
  have hused := hI.used
  unfold HelperThread.Answered at hanswered
  rw [hhand] at hanswered hfilled hnodup hused
  unfold HelperThread.performed HelperThread.postCallbacks
  simp only [hrecord, Asked.data, Option.isSome_some, if_true, Bool.false_eq_true, if_false]
  refine ⟨⟨?_, hanswered.2⟩, fun d hd => ?_, (List.nodup_cons.mp hnodup).2, fun d hd => ?_, ?_⟩
  · show s.taken.map s.asked = (s.called ++ (s.handler ++ [_])).map Runnable.asked ++ []
    rw [List.append_nil, ← List.append_assoc, List.map_append, hanswered.1, List.map_singleton,
      List.map_singleton, hasked]
    rfl
  · have hne : d ≠ data := fun heq => (List.nodup_cons.mp hnodup).1 (heq ▸ hd)
    obtain ⟨b, hb, hrecord'⟩ := hfilled d (List.mem_cons_of_mem _ hd)
    exact ⟨b, hb, (Function.update_of_ne hne ..).trans hrecord'⟩
  · exact hused d (List.mem_cons_of_mem _ hd)
  · intro hlocked
    have hnull := hI.locked hlocked
    rw [hworker] at hnull
    cases hnull

/-- What a step does. -/
inductive Stepped (s : HelperThread R P CB) : Act R P CB → HelperThread R P CB → Prop
  | call (a : Asked R P CB) (hfree : s.monitor = .free) :
      Stepped s (.call a) { s with monitor := .caller .entered a }
  | add (a : Asked R P CB) (hentered : s.monitor = .caller .entered a) : Stepped s .add (s.add a)
  | notify (a : Asked R P CB) (hadded : s.monitor = .caller .added a) :
      Stepped s .notify { s with
        monitor := .caller .notified a
        worker := if s.worker = .waiting then .notified else s.worker }
  | leave (a : Asked R P CB) (hnotified : s.monitor = .caller .notified a) :
      Stepped s .leave { s with monitor := .free }
  | pollNull (hworker : s.worker = .polling) (hqueue : s.mQueue = []) :
      Stepped s .poll { s with worker := .pollNull }
  | poll (data : Nat) (mQueue : List Nat) (hworker : s.worker = .polling)
      (hqueue : s.mQueue = data :: mQueue) :
      Stepped s .poll { s with worker := .performing data, mQueue, taken := s.taken ++ [data] }
  | lock (hworker : s.worker = .pollNull) (hfree : s.monitor = .free) :
      Stepped s .lock { s with monitor := .worker }
  | wait (hlocked : s.monitor = .worker) :
      Stepped s .wait { s with worker := .waiting, monitor := .free }
  | wake (hworker : s.worker = .waiting) : Stepped s .wake { s with worker := .notified }
  | relock (hworker : s.worker = .notified) (hfree : s.monitor = .free) :
      Stepped s .relock { s with worker := .polling }
  | perform (data : Nat) (result : Option Bool) (hworker : s.worker = .performing data) :
      Stepped s (.perform result) (s.performed data result)
  | runnable (r : Runnable R P CB) (handler : List (Runnable R P CB))
      (hhandler : s.handler = r :: handler) :
      Stepped s .runnable { s with handler, called := s.called ++ [r] }

theorem stepped_of_step {act : Act R P CB} (h : helperStep s act = some s') : Stepped s act s' := by
  cases act with
  | call a =>
    rw [helperStep] at h
    cases hmonitor : s.monitor with
    | free =>
      rw [hmonitor] at h
      obtain rfl := Option.some.inj h
      exact .call a hmonitor
    | worker | caller => simp [hmonitor] at h
  | add =>
    rw [helperStep] at h
    split at h
    next a hmonitor =>
      obtain rfl := Option.some.inj h
      exact .add a hmonitor
    next => cases h
  | notify =>
    rw [helperStep] at h
    split at h
    next a hmonitor =>
      obtain rfl := Option.some.inj h
      exact .notify a hmonitor
    next => cases h
  | leave =>
    rw [helperStep] at h
    split at h
    next a hmonitor =>
      obtain rfl := Option.some.inj h
      exact .leave a hmonitor
    next => cases h
  | poll =>
    rw [helperStep] at h
    split at h
    next hworker hqueue =>
      obtain rfl := Option.some.inj h
      exact .pollNull hworker hqueue
    next data mQueue hworker hqueue =>
      obtain rfl := Option.some.inj h
      exact .poll data mQueue hworker hqueue
    next => cases h
  | lock =>
    rw [helperStep] at h
    split at h
    next hworker hmonitor =>
      obtain rfl := Option.some.inj h
      exact .lock hworker hmonitor
    next => cases h
  | wait =>
    rw [helperStep] at h
    split at h
    next hmonitor =>
      obtain rfl := Option.some.inj h
      exact .wait hmonitor
    next => cases h
  | wake =>
    obtain ⟨hworker, hs'⟩ := Option.ite_none_right_eq_some.mp h
    obtain rfl := Option.some.inj hs'
    exact .wake hworker
  | relock =>
    rw [helperStep] at h
    split at h
    next hworker hmonitor =>
      obtain rfl := Option.some.inj h
      exact .relock hworker hmonitor
    next => cases h
  | perform result =>
    rw [helperStep] at h
    split at h
    next data hworker =>
      obtain rfl := Option.some.inj h
      exact .perform data result hworker
    next => cases h
  | runnable =>
    rw [helperStep] at h
    split at h
    next r handler hhandler =>
      obtain rfl := Option.some.inj h
      exact .runnable r handler hhandler
    next => cases h

/-- Nothing is in hand where the worker does not perform. -/
theorem inHand_eq_nil (h : ∀ data, s.worker ≠ .performing data) : s.inHand = [] := by
  unfold HelperThread.inHand
  split
  next data hworker => exact absurd hworker (h data)
  next => rfl

theorem step_inv {act : Act R P CB} (hI : s.Inv) (h : helperStep s act = some s') : s'.Inv := by
  cases stepped_of_step h with
  | call a hfree => exact hI.congr ⟨rfl, rfl, rfl, rfl, rfl, rfl, rfl⟩ (by simp)
  | add a hentered => exact hI.add a
  | notify a hadded =>
    refine hI.congr ⟨rfl, rfl, rfl, rfl, rfl, ?_, rfl⟩ (by simp)
    by_cases hwaiting : s.worker = .waiting
    · rw [inHand_eq_nil (s := s) (by simp [hwaiting]), inHand_eq_nil (by simp [hwaiting])]
    · simp only [if_neg hwaiting]
      rfl
  | leave a hnotified => exact hI.congr ⟨rfl, rfl, rfl, rfl, rfl, rfl, rfl⟩ (by simp)
  | pollNull hworker hqueue =>
    refine hI.congr ⟨rfl, rfl, rfl, rfl, rfl, ?_, rfl⟩ (by simp)
    rw [inHand_eq_nil (s := s) (by simp [hworker]), inHand_eq_nil (by simp)]
  | poll data mQueue hworker hqueue => exact hI.poll hworker hqueue
  | lock hworker hfree =>
    -- from here to `wait` the worker has the monitor, and has seen the queue empty
    exact hI.congr ⟨rfl, rfl, rfl, rfl, rfl, rfl, rfl⟩ fun _ => hworker
  | wait hlocked =>
    refine hI.congr ⟨rfl, rfl, rfl, rfl, rfl, ?_, rfl⟩ (by simp)
    rw [inHand_eq_nil (s := s) (by simp [hI.locked hlocked]), inHand_eq_nil (by simp)]
  | wake hworker =>
    refine hI.congr ⟨rfl, rfl, rfl, rfl, rfl, ?_, rfl⟩ ?_
    · rw [inHand_eq_nil (s := s) (by simp [hworker]), inHand_eq_nil (by simp)]
    · intro hlocked
      have hnull := hI.locked hlocked
      rw [hworker] at hnull
      cases hnull
  | relock hworker hfree =>
    refine hI.congr ⟨rfl, rfl, rfl, rfl, rfl, ?_, rfl⟩ ?_
    · rw [inHand_eq_nil (s := s) (by simp [hworker]), inHand_eq_nil (by simp)]
    · intro hlocked
      rw [hfree] at hlocked
      cases hlocked
  | perform data result hworker => exact hI.performed hworker result
  | runnable r handler hhandler =>
    refine hI.congr ⟨rfl, rfl, rfl, rfl, rfl, rfl, ?_⟩ hI.locked
    rw [hhandler]
    exact List.append_assoc s.called [r] handler

/-- A worker that does not wait is not stuck. -/
theorem not_stuck_of_worker (h : s.worker ≠ .waiting) : ¬ s.Stuck := fun hstuck => h hstuck.1

/-- The worker gets stuck at the step to `wait` only, and there exactly if the queue is not
empty any more. -/
theorem stuck_step_iff {act : Act R P CB} (hs : ¬ s.Stuck) (h : helperStep s act = some s') :
    ¬ s'.Stuck ↔ (act = .wait → s.mQueue = []) := by
  cases stepped_of_step h with
  | call a hfree => exact iff_of_true (fun hstuck => hstuck.2.2 ⟨a, Or.inl rfl⟩) (by simp)
  | add a hentered => exact iff_of_true (fun hstuck => hstuck.2.2 ⟨a, Or.inr rfl⟩) (by simp)
  | notify a hadded =>
    refine iff_of_true (not_stuck_of_worker ?_) (by simp)
    dsimp only
    split
    next => simp
    next hwaiting => exact hwaiting
  | leave a hnotified =>
    -- `leave` gives up no notification: the call has sent its own
    refine iff_of_true (fun hstuck => hs ⟨hstuck.1, hstuck.2.1, ?_⟩) (by simp)
    rintro ⟨b, hb | hb⟩ <;> simp [hnotified] at hb
  | pollNull | poll | relock => exact iff_of_true (not_stuck_of_worker (by simp)) (by simp)
  | lock hworker => exact iff_of_true (not_stuck_of_worker (by simp [hworker])) (by simp)
  | wait hlocked =>
    -- the monitor is free behind this step, so no notification is pending
    rw [forall_prop_of_true rfl]
    constructor
    · intro hstuck
      by_contra hqueue
      exact hstuck ⟨rfl, hqueue, by rintro ⟨b, hb | hb⟩ <;> cases hb⟩
    · intro hqueue hstuck
      exact hstuck.2.1 hqueue
  | wake => exact iff_of_true (not_stuck_of_worker (by simp)) (by simp)
  | perform data result hworker =>
    refine iff_of_true (not_stuck_of_worker ?_) (by simp)
    unfold HelperThread.performed
    dsimp only
    split <;> simp [HelperThread.postCallbacks]
  | runnable r handler hhandler => exact iff_of_true hs (by simp)

end steps

/-- In every state of a run no request lies in the queue of a worker that waits without a
notification to come, and each request that was taken is answered once, exactly if in each step
to `wait` the queue is still empty. -/
theorem helper_along_iff (acts : List (Act R P CB)) :
    Along helperStep (fun _ _ s' => ¬ s'.Stuck ∧ s'.Answered) .start acts ↔
      Along helperStep (fun s act _ => act = .wait → s.mQueue = []) .start acts :=
  along_iff_cond (I := HelperThread.Inv) (P := fun s => ¬ s.Stuck)
    (q := fun _ _ s' => ¬ s'.Stuck ∧ s'.Answered)
    (c := fun s act _ => act = .wait → s.mQueue = [])
    (fun _ _ _ hI h => step_inv hI h) (fun _ _ _ hq => hq.1)
    (fun _ _ _ hI hs h =>
      (and_iff_left (step_inv hI h).answered).trans (stuck_step_iff hs h))
    acts start_inv (not_stuck_of_worker (by simp [HelperThread.start]))

/-- The worker finds the queue empty; then there is a request, and then the worker waits. -/
def lostWakeUp : List (Act Unit Unit Unit) :=
  [.poll, .call ⟨(), (), ()⟩, .add, .notify, .leave, .lock, .wait]

theorem helper_counterexample : ∃ s : HelperThread Unit Unit Unit,
    run helperStep .start lostWakeUp = some s ∧ s.mQueue = [5] ∧ s.Stuck := by
  refine ⟨_, rfl, rfl, rfl, List.cons_ne_nil _ _, ?_⟩
  rintro ⟨a, ha | ha⟩ <;> cases ha

end ConfProfile.Helper
