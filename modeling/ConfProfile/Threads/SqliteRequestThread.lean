import ConfProfile.Lib.Run
import ConfProfile.Lib.SortedSet
import Mathlib.Logic.Function.Basic

/-!
# `SqliteRequestThread`

The worker and any number of client threads, step by step: `request` in both of its forms,
`subscribe` and `unsubscribe`. A step is what one thread does between two points where another
one can come in.

A call draws its number and queues its record in two steps, and only the asynchronous form does
so in the monitor. The set of listeners is locked for each of its operations but not while it is
iterated, so an iterator fails when the set has been changed meanwhile; in the worker this ends
the thread. Nobody interrupts the worker. Its `wait` has a timeout and returns with or without a
notification, so the notifications of the thread itself leave no trace here; those of a record
do, as the caller waits without a timeout.
-/

namespace ConfProfile.Sqlite

open Run

/-- A request, by the class that `postCallbacks` asks for. -/
inductive Request
  | withAffectedRows (request : Nat)
  | insert (request : Nat)
  | other (request : Nat)
  deriving DecidableEq

/-- `caller` is the thread that made a synchronous call. It alone waits on the record. -/
structure RequestData where
  requestId : Nat
  request : Request
  callback : Option Nat
  caller : Option Nat
  deriving DecidableEq

def RequestData.isSyncRequest (data : RequestData) : Bool := data.caller.isSome

/-- `ref` tells the objects apart: a subscription has one of its own. -/
structure WeakListener where
  ref : Nat
  listener : Nat
  mRequestId : Nat
  deriving DecidableEq

/-- What is posted to the main thread. -/
inductive Runnable
  | updateDeleteSuccess (callback : Nat) (request : Request)
  | insertSuccess (callback : Nat) (request : Request)
  | requestSuccess (callback : Nat) (request : Request)
  | requestError (callback : Nat) (request : Request)
  | requestExecuted (subscription : WeakListener)
  deriving DecidableEq

/-- What `postListenerCallback` posts. -/
def postListenerCallback (listener : Option Nat) (w : WeakListener) : List Runnable :=
  if listener.isSome ∧ 0 < w.mRequestId then [.requestExecuted w] else []

/-- What `postCallbacks` posts. -/
def postCallbacks (data : RequestData) : List Runnable :=
  match data.callback, data.request with
  | none, _ => []
  | some callback, .withAffectedRows _ => [.updateDeleteSuccess callback data.request]
  | some callback, .insert _ => [.insertSuccess callback data.request]
  | some callback, .other _ => [.requestSuccess callback data.request]

/-- What is posted when `perform` has thrown. -/
def postError (data : RequestData) : List Runnable :=
  match data.callback with
  | none => []
  | some callback => [.requestError callback data.request]

/-- An iterator over the listeners. -/
structure Iter where
  remaining : List WeakListener
  expectedModCount : Nat
  deriving DecidableEq

/-- Where the worker is. -/
inductive Worker
  | loopHead
  | iterating (currRequestId : Nat) (it : Iter) (deleteItems : List WeakListener)
  | removing (deleteItems : List WeakListener)
  | polling
  | pollNull
  | waiting
  | polled (data : RequestData)
  | performing (data : RequestData)
  | notifying (data : RequestData)
  /-- ended by an exception of the iterator -/
  | dead
  deriving DecidableEq

/-- Where a client is: outside, in `request` from `counted` to `woken`, in `subscribe`, or in
`unsubscribe`. -/
inductive Client
  | idle
  | counted (data : RequestData)
  | queued (data : RequestData)
  /-- in the monitor of the record -/
  | locked (data : RequestData)
  | notified (data : RequestData)
  | waiting (data : RequestData)
  | woken (data : RequestData)
  | subscribing (subscription : WeakListener)
  | adding (subscription : WeakListener)
  | searching (listener requestId : Nat) (it : Iter)
  | removing (found : WeakListener)
  deriving DecidableEq

/-- The thread, its clients and what it has posted. The last five fields are no part of the
program: the number of the next subscription, the requests whose `perform` has ended, the
subscriptions that succeeded and those that were withdrawn, and the listeners whose request had
been performed when the worker last began to look through them. -/
structure SqliteRequestThread where
  mCounter : Nat
  mCurrentRequestId : Nat
  mQueue : List RequestData
  mListeners : List WeakListener
  modCount : Nat
  /-- the asynchronous call in the monitor of the thread -/
  monitor : Option Nat
  worker : Worker
  clients : Nat → Client
  handler : List Runnable
  /-- the listeners that only weak references were left to -/
  collected : List Nat
  fresh : Nat
  performed : List Nat
  subscribed : List WeakListener
  withdrawn : List WeakListener
  due : List WeakListener

def SqliteRequestThread.start : SqliteRequestThread where
  mCounter := 0
  mCurrentRequestId := 0
  mQueue := []
  mListeners := []
  modCount := 0
  monitor := none
  worker := .loopHead
  clients _ := .idle
  handler := []
  collected := []
  fresh := 0
  performed := []
  subscribed := []
  withdrawn := []
  due := []

inductive WorkerAct
  /-- the id is read and the iterator made -/
  | head
  | next
  | removeAll
  | poll
  | wait
  | wake
  | setCurrent
  /-- `perform` returns, or throws -/
  | perform (returns : Bool)
  | notify

inductive ClientAct
  /-- `request(request)` draws its number -/
  | request (request : Request)
  /-- `request(request, callback)` enters the monitor and draws its number -/
  | requestAsync (request : Request) (callback : Option Nat)
  | add
  /-- the asynchronous form notifies and returns -/
  | leave
  | lock
  | notify
  | wait
  | interrupt
  /-- the client wakes without a notification -/
  | wake
  | done
  /-- an id that is not positive stands as 0 -/
  | subscribe (listener requestId : Nat)
  | check
  | addListener
  | unsubscribe (listener requestId : Nat)
  | search
  | remove

inductive Act
  | worker (act : WorkerAct)
  | client (thread : Nat) (act : ClientAct)
  /-- the garbage collector clears the weak references to a listener -/
  | collect (listener : Nat)

namespace SqliteRequestThread

def goto (s : SqliteRequestThread) (c : Nat) (pc : Client) : SqliteRequestThread :=
  { s with clients := Function.update s.clients c pc }

def post (s : SqliteRequestThread) (runnables : List Runnable) : SqliteRequestThread :=
  { s with handler := s.handler ++ runnables }

/-- Each element put in or taken out counts as a modification. -/
def setListeners (s : SqliteRequestThread) (mListeners : List WeakListener) :
    SqliteRequestThread :=
  { s with
    mListeners
    modCount := s.modCount + (mListeners.length - s.mListeners.length) +
      (s.mListeners.length - mListeners.length) }

/-- `WeakReference.get`. -/
def get (s : SqliteRequestThread) (w : WeakListener) : Option Nat :=
  if w.listener ∈ s.collected then none else some w.listener

/-- One turn of the loop over the listeners. -/
def next (s : SqliteRequestThread) (currRequestId : Nat) (it : Iter)
    (deleteItems : List WeakListener) : SqliteRequestThread :=
  match it.remaining with
  | [] => { s with worker := .removing deleteItems }
  | w :: remaining =>
    -- a ConcurrentModificationException, which nothing in `run` catches
    if it.expectedModCount ≠ s.modCount then { s with worker := .dead }
    else if currRequestId < w.mRequestId then { s with worker := .removing deleteItems }
    else { s.post (postListenerCallback (s.get w) w) with
      worker := .iterating currRequestId { it with remaining } (deleteItems ++ [w]) }

/-- The end of `perform`. An exception leads past the notification. -/
def perform (s : SqliteRequestThread) (data : RequestData) (returns : Bool) :
    SqliteRequestThread :=
  { s.post (if returns then postCallbacks data else postError data) with
    performed := s.performed ++ [data.requestId]
    worker := if returns ∧ data.isSyncRequest then .notifying data else .loopHead }

/-- The caller of the request stands there. -/
def CallerAt (s : SqliteRequestThread) (data : RequestData) (pc : Client) : Prop :=
  ∃ c ∈ data.caller, s.clients c = pc

instance decidableCallerAt (s : SqliteRequestThread) (data : RequestData) (pc : Client) :
    Decidable (s.CallerAt data pc) :=
  inferInstanceAs (Decidable (∃ c ∈ data.caller, s.clients c = pc))

/-- `data.notify()`. -/
def wakeCaller (s : SqliteRequestThread) (data : RequestData) : Nat → Client := fun c =>
  if s.clients c = .waiting data then .woken data else s.clients c

end SqliteRequestThread

open SqliteRequestThread SortedSet

def workerStep (s : SqliteRequestThread) : WorkerAct → Option SqliteRequestThread
  | .head =>
    match s.worker with
    -- `mCurrentRequestId.get()` and the iterator are taken together: only the worker sets it
    | .loopHead => some { s with
        worker := .iterating s.mCurrentRequestId ⟨s.mListeners, s.modCount⟩ []
        due := s.mListeners.filter fun w => w.mRequestId ∈ s.performed }
    | _ => none
  | .next =>
    match s.worker with
    | .iterating currRequestId it deleteItems => some (s.next currRequestId it deleteItems)
    | _ => none
  | .removeAll =>
    match s.worker with
    | .removing deleteItems => some { s.setListeners
        (removeAll WeakListener.mRequestId deleteItems s.mListeners) with worker := .polling }
    | _ => none
  | .poll =>
    match s.worker, s.mQueue with
    | .polling, [] => some { s with worker := .pollNull }
    | .polling, data :: mQueue => some { s with worker := .polled data, mQueue }
    | _, _ => none
  | .wait =>
    match s.worker, s.monitor with
    | .pollNull, none => some { s with worker := .waiting }
    | _, _ => none
  | .wake =>
    match s.worker, s.monitor with
    | .waiting, none => some { s with worker := .loopHead }
    | _, _ => none
  | .setCurrent =>
    match s.worker with
    | .polled data =>
      some { s with worker := .performing data, mCurrentRequestId := data.requestId }
    | _ => none
  | .perform returns =>
    match s.worker with
    | .performing data => some (s.perform data returns)
    | _ => none
  | .notify =>
    match s.worker with
    | .notifying data =>
      -- `data.notify()` needs the lock that the caller has until it waits
      if s.CallerAt data (.locked data) ∨ s.CallerAt data (.notified data) then none
      else some { s with worker := .loopHead, clients := s.wakeCaller data }
    | _ => none

/-- One turn of the loop in `unsubscribe`. An exception of the iterator ends the call. -/
def SqliteRequestThread.search (s : SqliteRequestThread) (listener requestId : Nat) (it : Iter) :
    Client :=
  match it.remaining with
  | [] => .idle
  | w :: remaining =>
    if it.expectedModCount ≠ s.modCount then .idle
    else if requestId < w.mRequestId then .idle
    else if w.mRequestId = requestId ∧ s.get w = some listener then .removing w
    else .searching listener requestId { it with remaining }

def clientStep (s : SqliteRequestThread) (c : Nat) : ClientAct → Option SqliteRequestThread
  | .request request =>
    match s.clients c with
    | .idle => some { s.goto c (.counted ⟨s.mCounter + 1, request, none, some c⟩) with
        mCounter := s.mCounter + 1 }
    | _ => none
  | .requestAsync request callback =>
    match s.clients c, s.monitor with
    -- the asynchronous form keeps the monitor from here to `leave`
    | .idle, none => some { s.goto c (.counted ⟨s.mCounter + 1, request, callback, none⟩) with
        mCounter := s.mCounter + 1, monitor := some c }
    | _, _ => none
  | .add =>
    match s.clients c with
    | .counted data => some { s.goto c (.queued data) with mQueue := s.mQueue ++ [data] }
    | _ => none
  | .leave =>
    match s.clients c with
    | .queued data =>
      if data.isSyncRequest then none else some { s.goto c .idle with monitor := none }
    | _ => none
  | .lock =>
    match s.clients c with
    | .queued data => if data.isSyncRequest then some (s.goto c (.locked data)) else none
    | _ => none
  | .notify =>
    match s.clients c, s.monitor with
    | .locked data, none => some (s.goto c (.notified data))
    | _, _ => none
  | .wait =>
    match s.clients c with
    | .notified data => some (s.goto c (.waiting data))
    | _ => none
  | .interrupt =>
    match s.clients c with
    -- the exception is caught, and the loop notifies the thread and waits again
    | .waiting data => some (s.goto c (.locked data))
    | _ => none
  | .wake =>
    match s.clients c with
    | .waiting data => some (s.goto c (.woken data))
    | _ => none
  | .done =>
    match s.clients c with
    | .woken _ => some (s.goto c .idle)
    | _ => none
  | .subscribe listener requestId =>
    match s.clients c with
    | .idle =>
      if s.mCounter < requestId ∨ requestId = 0 then some s
      else some { s.goto c (.subscribing ⟨s.fresh, listener, requestId⟩) with
        fresh := s.fresh + 1 }
    | _ => none
  | .check =>
    match s.clients c with
    | .subscribing w =>
      -- performed before: the callback is posted, and the set left alone
      if w.mRequestId < s.mCurrentRequestId then
        some { (s.post (postListenerCallback (some w.listener) w)).goto c .idle with
          subscribed := s.subscribed ++ [w] }
      else some (s.goto c (.adding w))
    | _ => none
  | .addListener =>
    match s.clients c with
    | .adding w =>
      -- the result of `add` is not looked at
      some { (s.setListeners (insert WeakListener.mRequestId w s.mListeners)).goto c .idle with
        subscribed := s.subscribed ++ [w] }
    | _ => none
  | .unsubscribe listener requestId =>
    match s.clients c with
    | .idle =>
      if s.mCounter < requestId ∨ requestId = 0 then some s
      else some (s.goto c (.searching listener requestId ⟨s.mListeners, s.modCount⟩))
    | _ => none
  | .search =>
    match s.clients c with
    | .searching listener requestId it => some (s.goto c (s.search listener requestId it))
    | _ => none
  | .remove =>
    match s.clients c with
    | .removing found =>
      some { (s.setListeners (erase WeakListener.mRequestId found s.mListeners)).goto c .idle with
        withdrawn := s.withdrawn ++ [found] }
    | _ => none

def sqliteStep (s : SqliteRequestThread) : Act → Option SqliteRequestThread
  | .worker act => workerStep s act
  | .client c act => clientStep s c act
  | .collect listener => some { s with collected := listener :: s.collected }

/-- The set of listeners was changed while the worker iterates it. -/
def SqliteRequestThread.IteratorFails (s : SqliteRequestThread) : Prop :=
  ∃ curr it items, s.worker = .iterating curr it items ∧ it.remaining ≠ [] ∧
    it.expectedModCount ≠ s.modCount

/-! ## What a step does -/

variable {s s' : SqliteRequestThread}

/-- The steps that change nothing but the place of the client. -/
inductive Moves (s : SqliteRequestThread) : ClientAct → Client → Client → Prop
  | lock {data : RequestData} (hsync : data.isSyncRequest) :
      Moves s .lock (.queued data) (.locked data)
  | notify (data : RequestData) : Moves s .notify (.locked data) (.notified data)
  | wait (data : RequestData) : Moves s .wait (.notified data) (.waiting data)
  | interrupt (data : RequestData) : Moves s .interrupt (.waiting data) (.locked data)
  | wake (data : RequestData) : Moves s .wake (.waiting data) (.woken data)
  | done (data : RequestData) : Moves s .done (.woken data) .idle
  | check {w : WeakListener} (hid : ¬ w.mRequestId < s.mCurrentRequestId) :
      Moves s .check (.subscribing w) (.adding w)
  | unsubscribe (listener requestId : Nat) :
      Moves s (.unsubscribe listener requestId) .idle
        (.searching listener requestId ⟨s.mListeners, s.modCount⟩)
  | search (listener requestId : Nat) (it : Iter) :
      Moves s .search (.searching listener requestId it) (s.search listener requestId it)

inductive Stepped (s : SqliteRequestThread) : Act → SqliteRequestThread → Prop
  | head (hworker : s.worker = .loopHead) :
      Stepped s (.worker .head) { s with
        worker := .iterating s.mCurrentRequestId ⟨s.mListeners, s.modCount⟩ []
        due := s.mListeners.filter fun w => w.mRequestId ∈ s.performed }
  | nextEnd (curr : Nat) (it : Iter) (items : List WeakListener)
      (hworker : s.worker = .iterating curr it items) (hit : it.remaining = []) :
      Stepped s (.worker .next) { s with worker := .removing items }
  | nextFail (curr : Nat) (it : Iter) (items : List WeakListener)
      (hworker : s.worker = .iterating curr it items) (hit : it.remaining ≠ [])
      (hmod : it.expectedModCount ≠ s.modCount) :
      Stepped s (.worker .next) { s with worker := .dead }
  | nextBreak (curr : Nat) (it : Iter) (items : List WeakListener) (w : WeakListener)
      (remaining : List WeakListener) (hworker : s.worker = .iterating curr it items)
      (hit : it.remaining = w :: remaining) (hmod : it.expectedModCount = s.modCount)
      (hid : curr < w.mRequestId) :
      Stepped s (.worker .next) { s with worker := .removing items }
  | nextPost (curr : Nat) (it : Iter) (items : List WeakListener) (w : WeakListener)
      (remaining : List WeakListener) (hworker : s.worker = .iterating curr it items)
      (hit : it.remaining = w :: remaining) (hmod : it.expectedModCount = s.modCount)
      (hid : w.mRequestId ≤ curr) :
      Stepped s (.worker .next) { s.post (postListenerCallback (s.get w) w) with
        worker := .iterating curr { it with remaining } (items ++ [w]) }
  | removeAll (items : List WeakListener) (hworker : s.worker = .removing items) :
      Stepped s (.worker .removeAll) { s.setListeners
        (removeAll WeakListener.mRequestId items s.mListeners) with worker := .polling }
  | pollNull (hworker : s.worker = .polling) (hqueue : s.mQueue = []) :
      Stepped s (.worker .poll) { s with worker := .pollNull }
  | poll (data : RequestData) (mQueue : List RequestData) (hworker : s.worker = .polling)
      (hqueue : s.mQueue = data :: mQueue) :
      Stepped s (.worker .poll) { s with worker := .polled data, mQueue }
  | wait (hworker : s.worker = .pollNull) : Stepped s (.worker .wait) { s with worker := .waiting }
  | wake (hworker : s.worker = .waiting) :
      Stepped s (.worker .wake) { s with worker := .loopHead }
  | setCurrent (data : RequestData) (hworker : s.worker = .polled data) :
      Stepped s (.worker .setCurrent)
        { s with worker := .performing data, mCurrentRequestId := data.requestId }
  | perform (data : RequestData) (returns : Bool) (hworker : s.worker = .performing data) :
      Stepped s (.worker (.perform returns)) (s.perform data returns)
  | notify (data : RequestData) (hworker : s.worker = .notifying data) :
      Stepped s (.worker .notify) { s with worker := .loopHead, clients := s.wakeCaller data }
  | request (c : Nat) (request : Request) (hclient : s.clients c = .idle) :
      Stepped s (.client c (.request request))
        { s.goto c (.counted ⟨s.mCounter + 1, request, none, some c⟩) with
          mCounter := s.mCounter + 1 }
  | requestAsync (c : Nat) (request : Request) (callback : Option Nat)
      (hclient : s.clients c = .idle) :
      Stepped s (.client c (.requestAsync request callback))
        { s.goto c (.counted ⟨s.mCounter + 1, request, callback, none⟩) with
          mCounter := s.mCounter + 1, monitor := some c }
  | add (c : Nat) (data : RequestData) (hclient : s.clients c = .counted data) :
      Stepped s (.client c .add)
        { s.goto c (.queued data) with mQueue := s.mQueue ++ [data] }
  | leave (c : Nat) (data : RequestData) (hclient : s.clients c = .queued data) :
      Stepped s (.client c .leave) { s.goto c .idle with monitor := none }
  | move (c : Nat) (act : ClientAct) (pc pc' : Client) (hclient : s.clients c = pc)
      (hmove : Moves s act pc pc') : Stepped s (.client c act) (s.goto c pc')
  | subscribeRefused (c listener requestId : Nat) :
      Stepped s (.client c (.subscribe listener requestId)) s
  | unsubscribeRefused (c listener requestId : Nat) :
      Stepped s (.client c (.unsubscribe listener requestId)) s
  | subscribe (c listener requestId : Nat) (hclient : s.clients c = .idle)
      (hid : 0 < requestId) :
      Stepped s (.client c (.subscribe listener requestId))
        { s.goto c (.subscribing ⟨s.fresh, listener, requestId⟩) with fresh := s.fresh + 1 }
  | check (c : Nat) (w : WeakListener) (hclient : s.clients c = .subscribing w)
      (hid : w.mRequestId < s.mCurrentRequestId) :
      Stepped s (.client c .check)
        { (s.post (postListenerCallback (some w.listener) w)).goto c .idle with
          subscribed := s.subscribed ++ [w] }
  | addListener (c : Nat) (w : WeakListener) (hclient : s.clients c = .adding w) :
      Stepped s (.client c .addListener)
        { (s.setListeners (insert WeakListener.mRequestId w s.mListeners)).goto c .idle with
          subscribed := s.subscribed ++ [w] }
  | remove (c : Nat) (found : WeakListener) (hclient : s.clients c = .removing found) :
      Stepped s (.client c .remove)
        { (s.setListeners (erase WeakListener.mRequestId found s.mListeners)).goto c .idle with
          withdrawn := s.withdrawn ++ [found] }
  | collect (listener : Nat) :
      Stepped s (.collect listener) { s with collected := listener :: s.collected }

theorem stepped_next {curr : Nat} {it : Iter} {items : List WeakListener}
    (hworker : s.worker = .iterating curr it items) :
    Stepped s (.worker .next) (s.next curr it items) := by
  unfold SqliteRequestThread.next
  split
  next hit => exact .nextEnd curr it items hworker hit
  next w remaining hit =>
    split
    next hmod => exact .nextFail curr it items hworker (by simp [hit]) hmod
    next hmod =>
      split
      next hid =>
        exact .nextBreak curr it items w remaining hworker hit (not_ne_iff.mp hmod) hid
      next hid =>
        exact .nextPost curr it items w remaining hworker hit (not_ne_iff.mp hmod)
          (Nat.le_of_not_lt hid)

theorem stepped_of_workerStep {act : WorkerAct} (h : workerStep s act = some s') :
    Stepped s (.worker act) s' := by
  cases act with
  | head =>
    rw [workerStep] at h
    split at h
    next hworker =>
      obtain rfl := Option.some.inj h
      exact .head hworker
    next => cases h
  | next =>
    rw [workerStep] at h
    split at h
    next curr it items hworker =>
      obtain rfl := Option.some.inj h
      exact stepped_next hworker
    next => cases h
  | removeAll =>
    rw [workerStep] at h
    split at h
    next items hworker =>
      obtain rfl := Option.some.inj h
      exact .removeAll items hworker
    next => cases h
  | poll =>
    rw [workerStep] at h
    split at h
    next hworker hqueue =>
      obtain rfl := Option.some.inj h
      exact .pollNull hworker hqueue
    next data mQueue hworker hqueue =>
      obtain rfl := Option.some.inj h
      exact .poll data mQueue hworker hqueue
    next => cases h
  | wait =>
    rw [workerStep] at h
    split at h
    next hworker _ =>
      obtain rfl := Option.some.inj h
      exact .wait hworker
    next => cases h
  | wake =>
    rw [workerStep] at h
    split at h
    next hworker _ =>
      obtain rfl := Option.some.inj h
      exact .wake hworker
    next => cases h
  | setCurrent =>
    rw [workerStep] at h
    split at h
    next data hworker =>
      obtain rfl := Option.some.inj h
      exact .setCurrent data hworker
    next => cases h
  | perform returns =>
    rw [workerStep] at h
    split at h
    next data hworker =>
      obtain rfl := Option.some.inj h
      exact .perform data returns hworker
    next => cases h
  | notify =>
    rw [workerStep] at h
    split at h
    next data hworker =>
      obtain ⟨_, hs'⟩ := Option.ite_none_left_eq_some.mp h
      obtain rfl := Option.some.inj hs'
      exact .notify data hworker
    next => cases h

theorem stepped_of_clientStep {c : Nat} {act : ClientAct} (h : clientStep s c act = some s') :
    Stepped s (.client c act) s' := by
  cases act with
  | request request =>
    rw [clientStep] at h
    split at h
    next hclient =>
      obtain rfl := Option.some.inj h
      exact .request c request hclient
    next => cases h
  | requestAsync request callback =>
    rw [clientStep] at h
    split at h
    next hclient _ =>
      obtain rfl := Option.some.inj h
      exact .requestAsync c request callback hclient
    next => cases h
  | add =>
    rw [clientStep] at h
    split at h
    next data hclient =>
      obtain rfl := Option.some.inj h
      exact .add c data hclient
    next => cases h
  | leave =>
    rw [clientStep] at h
    split at h
    next data hclient =>
      obtain ⟨_, hs'⟩ := Option.ite_none_left_eq_some.mp h
      obtain rfl := Option.some.inj hs'
      exact .leave c data hclient
    next => cases h
  | lock =>
    rw [clientStep] at h
    split at h
    next data hclient =>
      obtain ⟨hsync, hs'⟩ := Option.ite_none_right_eq_some.mp h
      obtain rfl := Option.some.inj hs'
      exact .move c _ _ _ hclient (.lock hsync)
    next => cases h
  | notify =>
    rw [clientStep] at h
    split at h
    next data hclient _ =>
      obtain rfl := Option.some.inj h
      exact .move c _ _ _ hclient (.notify data)
    next => cases h
  | wait =>
    rw [clientStep] at h
    split at h
    next data hclient =>
      obtain rfl := Option.some.inj h
      exact .move c _ _ _ hclient (.wait data)
    next => cases h
  | interrupt =>
    rw [clientStep] at h
    split at h
    next data hclient =>
      obtain rfl := Option.some.inj h
      exact .move c _ _ _ hclient (.interrupt data)
    next => cases h
  | wake =>
    rw [clientStep] at h
    split at h
    next data hclient =>
      obtain rfl := Option.some.inj h
      exact .move c _ _ _ hclient (.wake data)
    next => cases h
  | done =>
    rw [clientStep] at h
    split at h
    next data hclient =>
      obtain rfl := Option.some.inj h
      exact .move c _ _ _ hclient (.done data)
    next => cases h
  | subscribe listener requestId =>
    rw [clientStep] at h
    split at h
    next hclient =>
      split at h
      next =>
        obtain rfl := Option.some.inj h
        exact .subscribeRefused c listener requestId
      next hid =>
        obtain rfl := Option.some.inj h
        exact .subscribe c listener requestId hclient
          (Nat.pos_of_ne_zero fun hzero => hid (Or.inr hzero))
    next => cases h
  | check =>
    rw [clientStep] at h
    split at h
    next w hclient =>
      split at h
      next hid =>
        obtain rfl := Option.some.inj h
        exact .check c w hclient hid
      next hid =>
        obtain rfl := Option.some.inj h
        exact .move c _ _ _ hclient (.check hid)
    next => cases h
  | addListener =>
    rw [clientStep] at h
    split at h
    next w hclient =>
      obtain rfl := Option.some.inj h
      exact .addListener c w hclient
    next => cases h
  | unsubscribe listener requestId =>
    rw [clientStep] at h
    split at h
    next hclient =>
      split at h
      next =>
        obtain rfl := Option.some.inj h
        exact .unsubscribeRefused c listener requestId
      next =>
        obtain rfl := Option.some.inj h
        exact .move c _ _ _ hclient (.unsubscribe listener requestId)
    next => cases h
  | search =>
    rw [clientStep] at h
    split at h
    next listener requestId it hclient =>
      obtain rfl := Option.some.inj h
      exact .move c _ _ _ hclient (.search listener requestId it)
    next => cases h
  | remove =>
    rw [clientStep] at h
    split at h
    next found hclient =>
      obtain rfl := Option.some.inj h
      exact .remove c found hclient
    next => cases h

theorem stepped_of_step {act : Act} (h : sqliteStep s act = some s') : Stepped s act s' := by
  cases act with
  | worker act => exact stepped_of_workerStep h
  | client c act => exact stepped_of_clientStep h
  | collect listener =>
    obtain rfl := Option.some.inj h
    exact .collect listener

/-! ## The numbers of the requests -/

section steps

variable {c c' : Nat} {pc pc' : Client} {act : ClientAct} {data d : RequestData}

@[simp] theorem post_clients (rs : List Runnable) : (s.post rs).clients = s.clients := rfl

@[simp] theorem setListeners_clients (l : List WeakListener) :
    (s.setListeners l).clients = s.clients := rfl

theorem goto_self : (s.goto c pc).clients c = pc := Function.update_self ..

theorem goto_of_ne (h : c' ≠ c) : (s.goto c pc).clients c' = s.clients c' :=
  Function.update_of_ne h ..

/-- Where a client stands after another one, or it, has gone on. -/
theorem goto_eq (h : (s.goto c pc).clients c' = pc') : c' = c ∧ pc = pc' ∨ s.clients c' = pc' := by
  by_cases hc : c' = c
  · subst hc
    exact Or.inl ⟨rfl, goto_self.symm.trans h⟩
  · exact Or.inr ((goto_of_ne hc).symm.trans h)

/-- Before a client has gone where it did not stand, it stood there. -/
theorem of_goto (h : (s.goto c pc).clients c' = pc') (hne : pc ≠ pc') : s.clients c' = pc' :=
  (goto_eq h).resolve_left fun hself => hne hself.2

theorem search_ne {listener requestId : Nat} {it : Iter} :
    s.search listener requestId it ≠ .counted data := by
  unfold SqliteRequestThread.search
  split
  · simp
  · split
    · simp
    · split
      · simp
      · split <;> simp

/-- A record is queued by `add` only. -/
theorem Moves.ne_counted (h : Moves s act pc pc') : pc' ≠ .counted data := by
  cases h with
  | search => exact search_ne
  | _ => simp

/-- The record that the worker has taken, until it is done with it. -/
def SqliteRequestThread.inHand (s : SqliteRequestThread) : List RequestData :=
  match s.worker with
  | .polled data | .performing data | .notifying data => [data]
  | _ => []

/-- The records that the worker is not done with. -/
def SqliteRequestThread.pending (s : SqliteRequestThread) : List RequestData :=
  s.inHand ++ s.mQueue

/-- No number is drawn twice. -/
structure SqliteRequestThread.Drawn (s : SqliteRequestThread) : Prop where
  counted_le : ∀ c data, s.clients c = .counted data → data.requestId ≤ s.mCounter
  counted_new : ∀ c data, s.clients c = .counted data → data ∉ s.pending
  distinct : ∀ c c' data d, s.clients c = .counted data → s.clients c' = .counted d →
    data.requestId = d.requestId → c = c'
  pending_le : ∀ data ∈ s.pending, data.requestId ≤ s.mCounter
  nodup : s.pending.Nodup

theorem start_drawn : SqliteRequestThread.start.Drawn where
  counted_le c data h := by cases h
  counted_new c data h := by cases h
  distinct c c' data d h := by cases h
  pending_le data h := by cases h
  nodup := List.nodup_nil

/-- A step that draws no number and queues nothing. -/
theorem SqliteRequestThread.Drawn.congr (hD : s.Drawn)
    (hcounted : ∀ c data, s'.clients c = .counted data → s.clients c = .counted data)
    (hcounter : s'.mCounter = s.mCounter) (hpending : s'.pending.Sublist s.pending) :
    s'.Drawn where
  counted_le c data h := hcounter ▸ hD.counted_le c data (hcounted c data h)
  counted_new c data h hmem := hD.counted_new c data (hcounted c data h) (hpending.mem hmem)
  distinct c c' data d h h' := hD.distinct c c' data d (hcounted c data h) (hcounted c' d h')
  pending_le data hmem := hcounter ▸ hD.pending_le data (hpending.mem hmem)
  nodup := hD.nodup.sublist hpending

/-- A client draws the next number. -/
theorem SqliteRequestThread.Drawn.draw (hD : s.Drawn) (hdata : data.requestId = s.mCounter + 1)
    (hclients : s'.clients = (s.goto c (.counted data)).clients)
    (hcounter : s'.mCounter = s.mCounter + 1) (hpending : s'.pending = s.pending) :
    s'.Drawn := by
  have hcases : ∀ c' d, s'.clients c' = .counted d →
      c' = c ∧ d = data ∨ s.clients c' = .counted d := by
    intro c' d h
    rw [hclients] at h
    exact (goto_eq h).imp_left fun hself => ⟨hself.1, (Client.counted.inj hself.2).symm⟩
  refine ⟨fun c' d h => ?_, fun c' d h hmem => ?_, fun c₁ c₂ d₁ d₂ h₁ h₂ hid => ?_,
    fun d hmem => ?_, ?_⟩
  · rw [hcounter]
    rcases hcases c' d h with ⟨-, rfl⟩ | h
    · exact hdata.le
    · exact Nat.le_succ_of_le (hD.counted_le c' d h)
  · rw [hpending] at hmem
    rcases hcases c' d h with ⟨-, rfl⟩ | h
    -- a queued record has an older number
    · have hle := hD.pending_le d hmem
      omega
    · exact hD.counted_new c' d h hmem
  · rcases hcases c₁ d₁ h₁ with ⟨rfl, rfl⟩ | h₁ <;> rcases hcases c₂ d₂ h₂ with ⟨rfl, rfl⟩ | h₂
    · rfl
    · have hle := hD.counted_le c₂ d₂ h₂
      omega
    · have hle := hD.counted_le c₁ d₁ h₁
      omega
    · exact hD.distinct c₁ c₂ d₁ d₂ h₁ h₂ hid
  · rw [hpending] at hmem
    rw [hcounter]
    exact Nat.le_succ_of_le (hD.pending_le d hmem)
  · rw [hpending]
    exact hD.nodup

/-- A record is queued. -/
theorem SqliteRequestThread.Drawn.add (hD : s.Drawn) (hclient : s.clients c = .counted data)
    (hclients : s'.clients = (s.goto c (.queued data)).clients)
    (hcounter : s'.mCounter = s.mCounter) (hpending : s'.pending = s.pending ++ [data]) :
    s'.Drawn := by
  have hold : ∀ c' d, s'.clients c' = .counted d → c' ≠ c ∧ s.clients c' = .counted d := by
    intro c' d h
    rw [hclients] at h
    refine ⟨?_, of_goto h (by simp)⟩
    rintro rfl
    rw [goto_self] at h
    cases h
  refine ⟨fun c' d h => ?_, fun c' d h hmem => ?_, fun c₁ c₂ d₁ d₂ h₁ h₂ => ?_,
    fun d hmem => ?_, ?_⟩
  · exact hcounter ▸ hD.counted_le c' d (hold c' d h).2
  · obtain ⟨hne, h⟩ := hold c' d h
    rw [hpending] at hmem
    rcases List.mem_append.mp hmem with hmem | hmem
    · exact hD.counted_new c' d h hmem
    · obtain rfl := List.mem_singleton.mp hmem
      exact hne (hD.distinct c' c d d h hclient rfl)
  · exact hD.distinct c₁ c₂ d₁ d₂ (hold c₁ d₁ h₁).2 (hold c₂ d₂ h₂).2
  · rw [hpending] at hmem
    rw [hcounter]
    rcases List.mem_append.mp hmem with hmem | hmem
    · exact hD.pending_le d hmem
    · obtain rfl := List.mem_singleton.mp hmem
      exact hD.counted_le c d hclient
  · rw [hpending, ← List.concat_eq_append, List.nodup_concat]
    exact ⟨hD.counted_new c data hclient, hD.nodup⟩

/-- Outside of these places there is nothing in hand. -/
theorem pending_eq_of_worker (h : ∀ data, s.worker ≠ .polled data ∧ s.worker ≠ .performing data ∧
    s.worker ≠ .notifying data) : s.pending = s.mQueue := by
  unfold SqliteRequestThread.pending SqliteRequestThread.inHand
  split
  next data hworker => exact absurd hworker (h data).1
  next data hworker => exact absurd hworker (h data).2.1
  next data hworker => exact absurd hworker (h data).2.2
  next => rfl

/-- The worker has gone on, with nothing in hand then. -/
theorem pending_sublist (hqueue : s'.mQueue = s.mQueue)
    (h : ∀ data, s'.worker ≠ .polled data ∧ s'.worker ≠ .performing data ∧
      s'.worker ≠ .notifying data) : s'.pending.Sublist s.pending := by
  rw [pending_eq_of_worker h, hqueue]
  exact List.sublist_append_right ..

theorem pending_poll (hworker : s.worker = .polling) {mQueue : List RequestData}
    (hqueue : s.mQueue = data :: mQueue) :
    SqliteRequestThread.pending { s with worker := .polled data, mQueue } = s.pending := by
  rw [pending_eq_of_worker (s := s) (by simp [hworker]), hqueue]
  rfl

theorem pending_of_worker (h : s.worker = .polled data ∨ s.worker = .performing data ∨
    s.worker = .notifying data) : s.pending = data :: s.mQueue := by
  unfold SqliteRequestThread.pending SqliteRequestThread.inHand
  rcases h with h | h | h <;> rw [h] <;> rfl

/-- What is left to be done when `perform` has ended. -/
theorem pending_perform (returns : Bool) : (s.perform data returns).pending =
    if returns ∧ data.isSyncRequest then data :: s.mQueue else s.mQueue := by
  split
  next hsync => exact pending_of_worker (Or.inr (Or.inr (if_pos hsync)))
  next hsync =>
    have hworker : (s.perform data returns).worker = .loopHead := if_neg hsync
    exact pending_eq_of_worker (by simp [hworker])

/-- Nobody gets a number by being woken. -/
theorem of_wakeCaller (h : s.wakeCaller data c = pc) (hpc : pc ≠ .woken data) :
    s.clients c = pc := by
  unfold SqliteRequestThread.wakeCaller at h
  split at h
  next => exact absurd h.symm hpc
  next => exact h

theorem step_drawn {act : Act} (hD : s.Drawn) (h : sqliteStep s act = some s') : s'.Drawn := by
  cases stepped_of_step h with
  | head hworker => exact hD.congr (fun _ _ => id) rfl (pending_sublist rfl (by simp))
  | nextEnd | nextFail | nextBreak | nextPost | removeAll | pollNull | wait | wake =>
    exact hD.congr (fun _ _ => id) rfl (pending_sublist rfl (by simp))
  | poll data mQueue hworker hqueue =>
    exact hD.congr (fun _ _ => id) rfl (pending_poll hworker hqueue ▸ List.Sublist.refl _)
  | setCurrent data hworker =>
    refine hD.congr (fun _ _ => id) rfl ?_
    rw [pending_of_worker (Or.inl hworker), pending_of_worker (Or.inr (Or.inl rfl))]
  | perform data returns hworker =>
    refine hD.congr (fun _ _ => id) rfl ?_
    rw [pending_perform, pending_of_worker (Or.inr (Or.inl hworker))]
    split
    · exact List.Sublist.refl _
    · exact List.sublist_cons_self ..
  | notify data hworker =>
    exact hD.congr (fun c d hc => of_wakeCaller hc (by simp)) rfl (pending_sublist rfl (by simp))
  | request c request hclient => exact hD.draw rfl rfl rfl rfl
  | requestAsync c request callback hclient => exact hD.draw rfl rfl rfl rfl
  | add c data hclient => exact hD.add hclient rfl rfl (List.append_assoc ..).symm
  | leave c data hclient =>
    exact hD.congr (fun c' d hc => of_goto hc (by simp)) rfl (List.Sublist.refl _)
  | move c act pc pc' hclient hmove =>
    exact hD.congr (fun c' d hc => of_goto hc hmove.ne_counted) rfl (List.Sublist.refl _)
  | subscribeRefused | unsubscribeRefused => exact hD
  | subscribe | check | addListener | remove =>
    exact hD.congr (fun c' d hc => of_goto hc (by simp)) rfl (List.Sublist.refl _)
  | collect listener => exact hD.congr (fun _ _ => id) rfl (List.Sublist.refl _)

end steps

end ConfProfile.Sqlite
