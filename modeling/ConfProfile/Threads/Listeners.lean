import ConfProfile.Threads.SqliteRequestThread

/-!
# `subscribe` and the callbacks of the listeners

What a successful subscription is owed: one callback, not before its request has been performed.
`listeners_along` says that it gets it in every run in which five things do not go wrong. Records
are queued in the order of their numbers; a listener comes to the set only while none with its
request is there, and is collected only after its callback; the set is not changed while the
worker iterates it; and what is removed by its number is what was looked for.
-/

namespace ConfProfile.Sqlite

open Run SortedSet

/-- The subscription that a runnable answers. -/
def Runnable.subscription : Runnable → Option WeakListener
  | .requestExecuted w => some w
  | _ => none

/-- The subscriptions whose callback has been posted. -/
def SqliteRequestThread.called (s : SqliteRequestThread) : List WeakListener :=
  s.handler.filterMap Runnable.subscription

/-- The worker looks through the listeners. -/
def Worker.Iterates (worker : Worker) : Prop :=
  ∃ curr it items, worker = .iterating curr it items

/-- A subscription that has succeeded and is not withdrawn has one callback or will have it: it
stands in the set until a pass of the worker, and each pass calls every listener of the set whose
request has been performed when the pass begins. No callback comes before that. -/
structure SqliteRequestThread.Served (s : SqliteRequestThread) : Prop where
  once : s.called.Nodup
  notEarly : ∀ w ∈ s.called, w.mRequestId ∈ s.performed
  kept : ∀ w ∈ s.subscribed, w ∈ s.withdrawn ∨ w ∈ s.called ∨
    w ∈ s.mListeners ∧ s.get w = some w.listener
  alive : s.worker ≠ .dead
  pass : ¬ s.worker.Iterates → ∀ w ∈ s.due, w ∈ s.called

/-- What must not go wrong in a step. -/
def SqliteRequestThread.Careful (s : SqliteRequestThread) : Act → Prop
  | .client c .add => ∀ data, s.clients c = .counted data →
      ∀ c' d, s.clients c' = .counted d → data.requestId ≤ d.requestId
  | .client c .addListener => ∀ w, s.clients c = .adding w →
      w.listener ∉ s.collected ∧ ∀ x ∈ s.mListeners, x.mRequestId ≠ w.mRequestId
  | .client c .remove => ∀ w, s.clients c = .removing w →
      ∀ x ∈ s.mListeners, x.mRequestId = w.mRequestId → x = w
  | .worker .next => ¬ s.IteratorFails
  | .worker .removeAll => ∀ items, s.worker = .removing items →
      items.length < s.mListeners.length →
      ∀ x ∈ s.mListeners, ∀ w ∈ items, x.mRequestId = w.mRequestId → x = w
  | .collect listener => ∀ w ∈ s.mListeners, w.listener = listener → w ∈ s.called
  | _ => True

/-! ## The numbers in the queue -/

/-- What is queued or polled and not yet the current request. -/
def SqliteRequestThread.toPerform (s : SqliteRequestThread) : List RequestData :=
  match s.worker with
  | .polled data => data :: s.mQueue
  | _ => s.mQueue

/-- The last number that has been queued, if they come in order. -/
def SqliteRequestThread.lastQueued (s : SqliteRequestThread) : Nat :=
  s.mCurrentRequestId + s.toPerform.length

/-- The last request that has been performed, if they come in order. -/
def SqliteRequestThread.lastPerformed (s : SqliteRequestThread) : Nat :=
  match s.worker with
  | .performing _ => s.mCurrentRequestId - 1
  | _ => s.mCurrentRequestId

/-- The numbers are queued and performed without a gap. -/
structure SqliteRequestThread.InOrder (s : SqliteRequestThread) : Prop where
  performed : ∀ id, id ∈ s.performed ↔ 0 < id ∧ id ≤ s.lastPerformed
  performing : ∀ data, s.worker = .performing data →
    data.requestId = s.mCurrentRequestId ∧ 0 < s.mCurrentRequestId
  toPerform : s.toPerform.map RequestData.requestId =
    List.range' (s.mCurrentRequestId + 1) s.toPerform.length
  lastQueued_le : s.lastQueued ≤ s.mCounter
  counted : ∀ c data, s.clients c = .counted data → s.lastQueued < data.requestId
  missing : ∀ id, s.lastQueued < id → id ≤ s.mCounter →
    ∃ c data, s.clients c = .counted data ∧ data.requestId = id

theorem start_inOrder : SqliteRequestThread.start.InOrder where
  performed id := by
    refine iff_of_false (List.not_mem_nil) fun h => ?_
    have hle : id ≤ 0 := h.2
    omega
  performing data h := by cases h
  toPerform := rfl
  lastQueued_le := Nat.le_refl 0
  counted c data h := by cases h
  missing id hlt hle := absurd hlt (Nat.not_lt.mpr hle)

section steps

variable {s s' : SqliteRequestThread} {c c' : Nat} {pc pc' : Client} {data d : RequestData}
  {act : ClientAct}

/-- Between `poll` and `perform` the worker has its number in hand. -/
def Worker.Numbered (worker : Worker) : Prop :=
  ∃ data, worker = .polled data ∨ worker = .performing data

theorem toPerform_eq (h : ¬ s.worker.Numbered) : s.toPerform = s.mQueue := by
  unfold SqliteRequestThread.toPerform
  split
  next data hworker => exact absurd ⟨data, Or.inl hworker⟩ h
  next => rfl

theorem lastPerformed_eq (h : ¬ s.worker.Numbered) : s.lastPerformed = s.mCurrentRequestId := by
  unfold SqliteRequestThread.lastPerformed
  split
  next data hworker => exact absurd ⟨data, Or.inr hworker⟩ h
  next => rfl

/-- A step that neither draws a number nor queues one. -/
theorem SqliteRequestThread.InOrder.transport (hN : s.InOrder)
    (hcounter : s'.mCounter = s.mCounter)
    (hclients : ∀ c data, s'.clients c = .counted data ↔ s.clients c = .counted data)
    (hlast : s'.lastQueued = s.lastQueued)
    (performed : ∀ id, id ∈ s'.performed ↔ 0 < id ∧ id ≤ s'.lastPerformed)
    (performing : ∀ data, s'.worker = .performing data →
      data.requestId = s'.mCurrentRequestId ∧ 0 < s'.mCurrentRequestId)
    (toPerform : s'.toPerform.map RequestData.requestId =
      List.range' (s'.mCurrentRequestId + 1) s'.toPerform.length) : s'.InOrder where
  performed := performed
  performing := performing
  toPerform := toPerform
  lastQueued_le := by
    rw [hlast, hcounter]
    exact hN.lastQueued_le
  counted c data h := by
    rw [hlast]
    exact hN.counted c data ((hclients c data).mp h)
  missing id hlt hle := by
    obtain ⟨c, data, hc, hid⟩ := hN.missing id (hlast ▸ hlt) (hcounter ▸ hle)
    exact ⟨c, data, (hclients c data).mpr hc, hid⟩

/-- A step that has to do with no number. -/
theorem SqliteRequestThread.InOrder.congr (hN : s.InOrder)
    (hworker : s'.worker = s.worker ∨ ¬ s.worker.Numbered ∧ ¬ s'.worker.Numbered)
    (hcounter : s'.mCounter = s.mCounter) (hcurrent : s'.mCurrentRequestId = s.mCurrentRequestId)
    (hqueue : s'.mQueue = s.mQueue) (hperformed : s'.performed = s.performed)
    (hclients : ∀ c data, s'.clients c = .counted data ↔ s.clients c = .counted data) :
    s'.InOrder := by
  have htoPerform : s'.toPerform = s.toPerform := by
    rcases hworker with hworker | ⟨hbefore, hafter⟩
    · unfold SqliteRequestThread.toPerform
      rw [hworker, hqueue]
    · rw [toPerform_eq hbefore, toPerform_eq hafter, hqueue]
  have hlast : s'.lastQueued = s.lastQueued := by
    unfold SqliteRequestThread.lastQueued
    rw [htoPerform, hcurrent]
  have hlastPerformed : s'.lastPerformed = s.lastPerformed := by
    rcases hworker with hworker | ⟨hbefore, hafter⟩
    · unfold SqliteRequestThread.lastPerformed
      rw [hworker, hcurrent]
    · rw [lastPerformed_eq hbefore, lastPerformed_eq hafter, hcurrent]
  refine hN.transport hcounter hclients hlast ?_ (fun data h => ?_) ?_
  · rw [hperformed, hlastPerformed]
    exact hN.performed
  · rw [hcurrent]
    rcases hworker with hworker | ⟨-, hafter⟩
    · exact hN.performing data (hworker.symm.trans h)
    · exact absurd ⟨data, Or.inr h⟩ hafter
  · rw [htoPerform, hcurrent]
    exact hN.toPerform

theorem goto_counted_iff (hpc : pc ≠ .counted data) (hold : s.clients c ≠ .counted data) :
    (s.goto c pc).clients c' = .counted data ↔ s.clients c' = .counted data := by
  refine ⟨fun h => of_goto h hpc, fun h => ?_⟩
  rw [goto_of_ne, h]
  rintro rfl
  exact hold h

theorem Moves.of_ne_counted (h : Moves s act pc pc') : pc ≠ .counted data := by
  cases h <;> simp

theorem wakeCaller_counted_iff : s.wakeCaller data c = .counted d ↔ s.clients c = .counted d := by
  refine ⟨fun h => of_wakeCaller h (by simp), fun h => ?_⟩
  unfold SqliteRequestThread.wakeCaller
  rw [if_neg (by simp [h]), h]

theorem SqliteRequestThread.InOrder.poll (hN : s.InOrder) (hworker : s.worker = .polling)
    {mQueue : List RequestData} (hqueue : s.mQueue = data :: mQueue) :
    SqliteRequestThread.InOrder { s with worker := .polled data, mQueue } := by
  have hbefore : ¬ s.worker.Numbered := by simp [Worker.Numbered, hworker]
  have htoPerform :
      SqliteRequestThread.toPerform { s with worker := .polled data, mQueue } = s.toPerform := by
    rw [toPerform_eq hbefore, hqueue]
    rfl
  refine hN.transport rfl (fun _ _ => Iff.rfl) ?_ (fun id => ?_) (fun d hd => by cases hd) ?_
  · unfold SqliteRequestThread.lastQueued
    rw [htoPerform]
  · rw [hN.performed id, lastPerformed_eq hbefore]
    rfl
  · rw [htoPerform]
    exact hN.toPerform

/-- A polled request becomes the current one. -/
theorem SqliteRequestThread.InOrder.setCurrent (hN : s.InOrder)
    (hworker : s.worker = .polled data) :
    SqliteRequestThread.InOrder
      { s with worker := .performing data, mCurrentRequestId := data.requestId } := by
  have htoPerform : s.toPerform = data :: s.mQueue := by
    unfold SqliteRequestThread.toPerform
    rw [hworker]
  have hnumbers := hN.toPerform
  rw [htoPerform, List.map_cons, List.length_cons, List.range'_succ, List.cons.injEq] at hnumbers
  obtain ⟨hid, hrest⟩ := hnumbers
  have hperformed : s.lastPerformed = data.requestId - 1 := by
    unfold SqliteRequestThread.lastPerformed
    rw [hworker, hid]
    rfl
  refine hN.transport rfl (fun _ _ => Iff.rfl) ?_ (fun id => ?_) (fun d hd => ?_) ?_
  · show data.requestId + s.mQueue.length = s.mCurrentRequestId + s.toPerform.length
    rw [htoPerform, List.length_cons, hid]
    omega
  · show id ∈ s.performed ↔ 0 < id ∧ id ≤ data.requestId - 1
    rw [← hperformed]
    exact hN.performed id
  · obtain rfl := Worker.performing.inj hd
    exact ⟨rfl, hid ▸ Nat.succ_pos _⟩
  · show s.mQueue.map _ = List.range' (data.requestId + 1) s.mQueue.length
    rw [hid]
    exact hrest

/-- `perform` has ended. -/
theorem SqliteRequestThread.InOrder.perform (hN : s.InOrder) (hworker : s.worker = .performing data)
    (returns : Bool) : (s.perform data returns).InOrder := by
  obtain ⟨hid, hpos⟩ := hN.performing data hworker
  have hafter : ¬ (s.perform data returns).worker.Numbered := by
    unfold SqliteRequestThread.perform Worker.Numbered
    dsimp only
    split <;> simp
  have htoPerform : (s.perform data returns).toPerform = s.toPerform := by
    rw [toPerform_eq hafter]
    unfold SqliteRequestThread.toPerform
    rw [hworker]
    rfl
  have hperformed : s.lastPerformed = s.mCurrentRequestId - 1 := by
    unfold SqliteRequestThread.lastPerformed
    rw [hworker]
  refine hN.transport rfl (fun _ _ => Iff.rfl) ?_ (fun id => ?_)
    (fun d hd => absurd ⟨d, Or.inr hd⟩ hafter) ?_
  · unfold SqliteRequestThread.lastQueued
    rw [htoPerform]
    rfl
  · rw [lastPerformed_eq hafter]
    show id ∈ s.performed ++ [data.requestId] ↔ 0 < id ∧ id ≤ s.mCurrentRequestId
    rw [List.mem_append, hN.performed id, hperformed, List.mem_singleton, hid]
    omega
  · rw [htoPerform]
    exact hN.toPerform

/-- A client draws the next number. -/
theorem SqliteRequestThread.InOrder.draw (hN : s.InOrder) (hclient : s.clients c = .idle)
    (hdata : data.requestId = s.mCounter + 1) (monitor : Option Nat) :
    SqliteRequestThread.InOrder
      { s.goto c (.counted data) with mCounter := s.mCounter + 1, monitor } := by
  refine ⟨hN.performed, hN.performing, hN.toPerform, Nat.le_succ_of_le hN.lastQueued_le,
    fun c' d hc' => ?_, fun id hlt hle => ?_⟩
  · rcases goto_eq hc' with ⟨-, hd⟩ | hc'
    · obtain rfl := Client.counted.inj hd
      have hle := hN.lastQueued_le
      show s.lastQueued < data.requestId
      omega
    · exact hN.counted c' d hc'
  -- an older missing number stays with its client; the new one is with this client
  · rcases Nat.le_succ_iff.mp hle with hle | rfl
    · obtain ⟨c', d, hc', hid⟩ := hN.missing id hlt hle
      refine ⟨c', d, ?_, hid⟩
      refine (goto_of_ne ?_).trans hc'
      rintro rfl
      cases hclient.symm.trans hc'
    · exact ⟨c, data, goto_self, hdata⟩

/-- A record is queued behind those of all smaller numbers. -/
theorem SqliteRequestThread.InOrder.add (hN : s.InOrder) (hD : s.Drawn)
    (hclient : s.clients c = .counted data)
    (hleast : ∀ c' d, s.clients c' = .counted d → data.requestId ≤ d.requestId) :
    SqliteRequestThread.InOrder { s.goto c (.queued data) with mQueue := s.mQueue ++ [data] } := by
  -- the number behind the last queued one is drawn by somebody, and this is the least drawn
  have hid : data.requestId = s.lastQueued + 1 := by
    have hlt := hN.counted c data hclient
    obtain ⟨c', d, hc', hd⟩ := hN.missing (s.lastQueued + 1) (Nat.lt_succ_self _)
      (hlt.trans_le (hD.counted_le c data hclient))
    have hle := hleast c' d hc'
    omega
  have hold : ∀ c' d, (s.goto c (.queued data)).clients c' = .counted d →
      c' ≠ c ∧ s.clients c' = .counted d := by
    intro c' d h
    refine ⟨?_, of_goto h (by simp)⟩
    rintro rfl
    cases goto_self.symm.trans h
  have htoPerform : SqliteRequestThread.toPerform
      { s.goto c (.queued data) with mQueue := s.mQueue ++ [data] } = s.toPerform ++ [data] := by
    unfold SqliteRequestThread.toPerform
    show (match s.worker with | .polled d => d :: (s.mQueue ++ [data]) | _ => s.mQueue ++ [data]) = _
    split <;> rfl
  have hlast : SqliteRequestThread.lastQueued
      { s.goto c (.queued data) with mQueue := s.mQueue ++ [data] } = s.lastQueued + 1 := by
    unfold SqliteRequestThread.lastQueued
    rw [htoPerform, List.length_append]
    rfl
  refine ⟨hN.performed, hN.performing, ?_, ?_, fun c' d hc' => ?_, fun id hlt hle => ?_⟩
  · rw [htoPerform, List.map_append, hN.toPerform, List.length_append, List.map_singleton, hid]
    show _ = List.range' (s.mCurrentRequestId + 1) (s.toPerform.length + 1)
    rw [List.range'_1_concat, Nat.add_right_comm]
    rfl
  · rw [hlast, ← hid]
    exact hD.counted_le c data hclient
  · obtain ⟨hne, hc'⟩ := hold c' d hc'
    have hlt := hN.counted c' d hc'
    have hdistinct : data.requestId ≠ d.requestId :=
      fun heq => hne (hD.distinct c c' data d hclient hc' heq).symm
    omega
  · rw [hlast] at hlt
    obtain ⟨c', d, hc', hd⟩ := hN.missing id (Nat.lt_of_succ_lt hlt) hle
    refine ⟨c', d, (goto_of_ne ?_).trans hc', hd⟩
    rintro rfl
    obtain rfl := Client.counted.inj (hclient.symm.trans hc')
    omega

theorem step_inOrder {act : Act} (hN : s.InOrder) (hD : s.Drawn) (hcareful : s.Careful act)
    (h : sqliteStep s act = some s') : s'.InOrder := by
  cases stepped_of_step h with
  | head hworker | nextEnd _ _ _ hworker | nextFail _ _ _ hworker | nextBreak _ _ _ _ _ hworker
  | nextPost _ _ _ _ _ hworker | removeAll _ hworker | pollNull hworker | wait hworker
  | wake hworker =>
    refine hN.congr (Or.inr ⟨?_, ?_⟩) rfl rfl rfl rfl fun _ _ => Iff.rfl
    · simp [Worker.Numbered, hworker]
    · simp [Worker.Numbered]
  | poll data mQueue hworker hqueue => exact hN.poll hworker hqueue
  | setCurrent data hworker => exact hN.setCurrent hworker
  | perform data returns hworker => exact hN.perform hworker returns
  | notify data hworker =>
    refine hN.congr (Or.inr ⟨?_, ?_⟩) rfl rfl rfl rfl fun _ _ => wakeCaller_counted_iff
    · simp [Worker.Numbered, hworker]
    · simp [Worker.Numbered]
  | request c request hclient => exact hN.draw hclient rfl s.monitor
  | requestAsync c request callback hclient => exact hN.draw hclient rfl (some c)
  | add c data hclient => exact hN.add hD hclient (hcareful data hclient)
  | leave c data hclient =>
    exact hN.congr (Or.inl rfl) rfl rfl rfl rfl fun _ _ =>
      goto_counted_iff (by simp) (by simp [hclient])
  | move c act pc pc' hclient hmove =>
    refine hN.congr (Or.inl rfl) rfl rfl rfl rfl fun _ _ => goto_counted_iff hmove.ne_counted ?_
    rw [hclient]
    exact hmove.of_ne_counted
  | subscribeRefused | unsubscribeRefused => exact hN
  | subscribe c _ _ hclient | check c _ hclient | addListener c _ hclient | remove c _ hclient =>
    exact hN.congr (Or.inl rfl) rfl rfl rfl rfl fun _ _ =>
      goto_counted_iff (by simp) (by simp [hclient])
  | collect listener => exact hN.congr (Or.inl rfl) rfl rfl rfl rfl fun _ _ => Iff.rfl

/-! ## The set of listeners -/

/-- The subscription that is being made. -/
def Client.making : Client → Option WeakListener
  | .subscribing w | .adding w => some w
  | _ => none

/-- Each subscription is of its own, and those in the set are sorted by their requests. -/
structure SqliteRequestThread.Distinct (s : SqliteRequestThread) : Prop where
  asc : Asc WeakListener.mRequestId s.mListeners
  pos : ∀ w ∈ s.mListeners, 0 < w.mRequestId
  used : ∀ w, w ∈ s.called ∨ w ∈ s.mListeners → w.ref < s.fresh
  making : ∀ c w, (s.clients c).making = some w →
    0 < w.mRequestId ∧ w.ref < s.fresh ∧ w ∉ s.called ∧ w ∉ s.mListeners
  own : ∀ c c' w, (s.clients c).making = some w → (s.clients c').making = some w → c = c'

theorem start_distinct : SqliteRequestThread.start.Distinct where
  asc := List.Pairwise.nil
  pos w hw := nomatch hw
  used w hw := by rcases hw with hw | hw <;> cases hw
  making c w hw := by cases hw
  own c c' w hw := by cases hw

/-- Nothing is subscribed, and nothing called that is not in the set or being made by the client
that goes on. -/
theorem SqliteRequestThread.Distinct.congr (hS : s.Distinct)
    (hmaking : ∀ c w, (s'.clients c).making = some w → (s.clients c).making = some w)
    (hlisteners : s'.mListeners.Sublist s.mListeners) (hfresh : s'.fresh = s.fresh)
    (hcalled : ∀ w ∈ s'.called, w ∈ s.called ∨ w ∈ s.mListeners ∨
      w.ref < s.fresh ∧ ∀ c, (s'.clients c).making ≠ some w) : s'.Distinct where
  asc := hS.asc.sublist hlisteners
  pos w hw := hS.pos w (hlisteners.mem hw)
  used w hw := by
    rw [hfresh]
    rcases hw with hw | hw
    · rcases hcalled w hw with hw | hw | hw
      · exact hS.used w (Or.inl hw)
      · exact hS.used w (Or.inr hw)
      · exact hw.1
    · exact hS.used w (Or.inr (hlisteners.mem hw))
  making c w hw := by
    obtain ⟨hpos, href, hnew, hnot⟩ := hS.making c w (hmaking c w hw)
    refine ⟨hpos, hfresh ▸ href, fun hmem => ?_, fun hmem => hnot (hlisteners.mem hmem)⟩
    rcases hcalled w hmem with hmem | hmem | hmem
    · exact hnew hmem
    · exact hnot hmem
    · exact hmem.2 c hw
  own c c' w hw hw' := hS.own c c' w (hmaking c w hw) (hmaking c' w hw')

/-- After a client has gone on, no other makes what it made. -/
theorem goto_making {w : WeakListener} (hpc : pc.making = none)
    (h : ((s.goto c pc).clients c').making = some w) :
    c' ≠ c ∧ (s.clients c').making = some w := by
  by_cases hc : c' = c
  · subst hc
    rw [goto_self, hpc] at h
    cases h
  · rw [goto_of_ne hc] at h
    exact ⟨hc, h⟩

theorem called_post (rs : List Runnable) :
    (s.post rs).called = s.called ++ rs.filterMap Runnable.subscription :=
  List.filterMap_append

theorem called_postListener {listener : Option Nat} {w x : WeakListener}
    (h : x ∈ (s.post (postListenerCallback listener w)).called) : x ∈ s.called ∨ x = w := by
  rw [called_post, List.mem_append] at h
  refine h.imp_right fun h => ?_
  unfold postListenerCallback at h
  split at h
  next => exact List.mem_singleton.mp h
  next => cases h

/-- The callbacks of requests are no callbacks of listeners. -/
theorem called_perform (returns : Bool) : (s.perform data returns).called = s.called := by
  have hnone : (if returns then postCallbacks data else postError data).filterMap
      Runnable.subscription = [] := by
    split
    · unfold postCallbacks
      split <;> rfl
    · unfold postError
      split <;> rfl
  show (s.post _).called = s.called
  rw [called_post, hnone, List.append_nil]

theorem search_making {listener requestId : Nat} {it : Iter} :
    (s.search listener requestId it).making = none := by
  unfold SqliteRequestThread.search
  split
  · rfl
  · split
    · rfl
    · split
      · rfl
      · split <;> rfl

theorem wakeCaller_making {w : WeakListener} (h : (s.wakeCaller data c).making = some w) :
    (s.clients c).making = some w := by
  unfold SqliteRequestThread.wakeCaller at h
  split at h
  next => cases h
  next => exact h

/-- A client that goes on makes the same subscription or none. -/
theorem Moves.making (h : Moves s act pc pc') : pc'.making = none ∨ pc'.making = pc.making := by
  cases h with
  | check => exact Or.inr rfl
  | search => exact Or.inl search_making
  | _ => exact Or.inl rfl

theorem move_making {w : WeakListener} (hclient : s.clients c = pc) (h : Moves s act pc pc')
    (hw : ((s.goto c pc').clients c').making = some w) : (s.clients c').making = some w := by
  rcases h.making with hnone | hsame
  · exact (goto_making hnone hw).2
  · by_cases hc : c' = c
    · subst hc
      rw [goto_self, hsame, ← hclient] at hw
      exact hw
    · rwa [goto_of_ne hc] at hw

theorem SqliteRequestThread.Distinct.subscribe (hS : s.Distinct) {w : WeakListener}
    (href : w.ref = s.fresh) (hpos : 0 < w.mRequestId) :
    SqliteRequestThread.Distinct { s.goto c (.subscribing w) with fresh := s.fresh + 1 } := by
  have hcases : ∀ c' x, ((s.goto c (.subscribing w)).clients c').making = some x →
      c' = c ∧ x = w ∨ (s.clients c').making = some x := by
    intro c' x hx
    by_cases hc : c' = c
    · subst hc
      rw [goto_self] at hx
      exact Or.inl ⟨rfl, (Option.some.inj hx).symm⟩
    · rw [goto_of_ne hc] at hx
      exact Or.inr hx
  refine ⟨hS.asc, hS.pos, fun x hx => Nat.lt_succ_of_lt (hS.used x hx), fun c' x hx => ?_,
    fun c₁ c₂ x h₁ h₂ => ?_⟩
  · rcases hcases c' x hx with ⟨-, rfl⟩ | hx
    · refine ⟨hpos, href ▸ Nat.lt_succ_self _, fun hmem => ?_, fun hmem => ?_⟩
      · exact absurd href (hS.used x (Or.inl hmem)).ne
      · exact absurd href (hS.used x (Or.inr hmem)).ne
    · obtain ⟨hpos', href', hnew, hnot⟩ := hS.making c' x hx
      exact ⟨hpos', Nat.lt_succ_of_lt href', hnew, hnot⟩
  · rcases hcases c₁ x h₁ with ⟨hc₁, hx₁⟩ | hx₁ <;> rcases hcases c₂ x h₂ with ⟨hc₂, hx₂⟩ | hx₂
    · exact hc₁.trans hc₂.symm
    · exact absurd (hx₁ ▸ href) (hS.making c₂ x hx₂).2.1.ne
    · exact absurd (hx₂ ▸ href) (hS.making c₁ x hx₁).2.1.ne
    · exact hS.own c₁ c₂ x hx₁ hx₂

theorem SqliteRequestThread.Distinct.addListener (hS : s.Distinct) {w : WeakListener}
    (hclient : s.clients c = .adding w) (subscribed : List WeakListener) :
    SqliteRequestThread.Distinct
      { (s.setListeners (insert WeakListener.mRequestId w s.mListeners)).goto c .idle with
        subscribed } := by
  have hmaking : (s.clients c).making = some w := by rw [hclient]; rfl
  obtain ⟨hpos, href, -, -⟩ := hS.making c w hmaking
  have hmem : ∀ x ∈ insert WeakListener.mRequestId w s.mListeners, x ∈ s.mListeners ∨ x = w :=
    fun x hx => ((mem_insert hS.asc).mp hx).imp_right And.left
  refine ⟨hS.asc.insert, fun x hx => ?_, fun x hx => ?_, fun c' x hx => ?_,
    fun c₁ c₂ x h₁ h₂ => ?_⟩
  · rcases hmem x hx with hx | rfl
    · exact hS.pos x hx
    · exact hpos
  · rcases hx with hx | hx
    · exact hS.used x (Or.inl hx)
    · rcases hmem x hx with hx | rfl
      · exact hS.used x (Or.inr hx)
      · exact href
  · obtain ⟨hc, hx⟩ := goto_making rfl hx
    obtain ⟨hpos', href', hnew, hnot⟩ := hS.making c' x hx
    refine ⟨hpos', href', hnew, fun hx' => ?_⟩
    rcases hmem x hx' with hx' | rfl
    · exact hnot hx'
    · exact hc (hS.own c' c x hx hmaking)
  · exact hS.own c₁ c₂ x (goto_making rfl h₁).2 (goto_making rfl h₂).2

/-- While the worker iterates: what it has called, what is left, and that the set is these two
unless it has been changed. -/
structure SqliteRequestThread.Iterating (s : SqliteRequestThread) (curr : Nat) (it : Iter)
    (items : List WeakListener) : Prop where
  curr_eq : curr = s.mCurrentRequestId
  mod_le : it.expectedModCount ≤ s.modCount
  whole : it.expectedModCount = s.modCount → s.mListeners = items ++ it.remaining
  due : ∀ w ∈ s.due, w.mRequestId ≤ curr ∧ (w ∈ items ∨ w ∈ it.remaining)

/-- The listeners that are called and still to be removed. -/
def Worker.deleteItems : Worker → List WeakListener
  | .iterating _ _ items | .removing items => items
  | _ => []

/-- What every careful step keeps. -/
structure SqliteRequestThread.Passing (s : SqliteRequestThread) : Prop where
  once : s.called.Nodup
  notEarly : ∀ w ∈ s.called, w.mRequestId ∈ s.performed
  kept : ∀ w ∈ s.subscribed, w ∈ s.withdrawn ∨ w ∈ s.called ∨ w ∈ s.mListeners
  alive : s.worker ≠ .dead
  held : ∀ w ∈ s.mListeners, w ∉ s.called → w.listener ∉ s.collected
  listed : ∀ w ∈ s.mListeners, w ∈ s.called → w ∈ s.worker.deleteItems
  items : ∀ w ∈ s.worker.deleteItems, w ∈ s.called
  iterating : ∀ curr it items, s.worker = .iterating curr it items → s.Iterating curr it items
  pass : ¬ s.worker.Iterates → ∀ w ∈ s.due, w ∈ s.called

theorem start_passing : SqliteRequestThread.start.Passing where
  once := List.nodup_nil
  notEarly w hw := nomatch hw
  kept w hw := nomatch hw
  alive h := by cases h
  held w hw := nomatch hw
  listed w hw := nomatch hw
  items w hw := nomatch hw
  iterating curr it items h := by cases h
  pass _ w hw := nomatch hw

theorem SqliteRequestThread.Passing.served (hP : s.Passing) : s.Served where
  once := hP.once
  notEarly := hP.notEarly
  kept w hw := by
    refine (hP.kept w hw).imp_right fun hw => ?_
    by_cases hcalled : w ∈ s.called
    · exact Or.inl hcalled
    · refine hw.imp_right fun hlistener => ⟨hlistener, ?_⟩
      exact if_neg (hP.held w hlistener hcalled)
  alive := hP.alive
  pass := hP.pass

theorem step_distinct {act : Act} (hS : s.Distinct) (hP : s.Passing) (h : sqliteStep s act = some s') :
    s'.Distinct := by
  cases stepped_of_step h with
  | removeAll items =>
    exact hS.congr (fun _ _ => id) removeAll_sublist rfl fun _ => Or.inl
  | nextPost curr it items w remaining hworker hit hmod =>
    refine hS.congr (fun _ _ => id) (List.Sublist.refl _) rfl fun x hx => ?_
    refine (called_postListener hx).imp_right fun heq => Or.inl ?_
    -- the iterator has not failed, so what it comes to is in the set
    rw [(hP.iterating curr it items hworker).whole hmod, hit, heq]
    exact List.mem_append_right _ List.mem_cons_self
  | perform data returns hworker =>
    exact hS.congr (fun _ _ => id) (List.Sublist.refl _) rfl fun w hw =>
      Or.inl (called_perform returns ▸ hw)
  | notify data hworker =>
    exact hS.congr (fun _ _ => wakeCaller_making) (List.Sublist.refl _) rfl fun _ => Or.inl
  | request | requestAsync | add | leave =>
    exact hS.congr (fun _ _ hw => (goto_making rfl hw).2) (List.Sublist.refl _) rfl fun _ => Or.inl
  | move c act pc pc' hclient hmove =>
    exact hS.congr (fun _ _ => move_making hclient hmove) (List.Sublist.refl _) rfl fun _ => Or.inl
  | subscribe c listener requestId hclient hid => exact hS.subscribe rfl hid
  | check c w hclient hid =>
    have hmaking : (s.clients c).making = some w := by rw [hclient]; rfl
    refine hS.congr (fun _ _ hw => (goto_making rfl hw).2) (List.Sublist.refl _) rfl fun x hx => ?_
    refine (called_postListener hx).imp_right fun heq => Or.inr ?_
    -- it was called without ever being in the set, and its client makes it no more
    refine ⟨heq ▸ (hS.making c w hmaking).2.1, fun c' hc' => ?_⟩
    obtain ⟨hne, hc'⟩ := goto_making rfl hc'
    exact hne (hS.own c' c w (heq ▸ hc') hmaking)
  | addListener c w hclient => exact hS.addListener hclient _
  | remove c found hclient =>
    exact hS.congr (fun _ _ hw => (goto_making rfl hw).2) erase_sublist rfl fun _ => Or.inl
  | _ => exact hS.congr (fun _ _ => id) (List.Sublist.refl _) rfl fun _ => Or.inl

/-! ## What careful steps keep -/

theorem SqliteRequestThread.Iterating.congr {curr : Nat} {it : Iter} {items : List WeakListener}
    (hI : s.Iterating curr it items) (hcurrent : s'.mCurrentRequestId = s.mCurrentRequestId)
    (hmod : s'.modCount = s.modCount) (hlisteners : s'.mListeners = s.mListeners)
    (hdue : s'.due = s.due) : s'.Iterating curr it items where
  curr_eq := hI.curr_eq.trans hcurrent.symm
  mod_le := hI.mod_le.trans_eq hmod.symm
  whole h := hlisteners.trans (hI.whole (h.trans hmod))
  due w hw := hI.due w (hdue ▸ hw)

/-- A client has gone on without the listeners. -/
theorem SqliteRequestThread.Passing.client (hP : s.Passing) (clients : Nat → Client)
    (mCounter : Nat) (mQueue : List RequestData) (monitor : Option Nat) (fresh : Nat) :
    SqliteRequestThread.Passing { s with clients, mCounter, mQueue, monitor, fresh } where
  once := hP.once
  notEarly := hP.notEarly
  kept := hP.kept
  alive := hP.alive
  held := hP.held
  listed := hP.listed
  items := hP.items
  iterating curr it items h := (hP.iterating curr it items h).congr rfl rfl rfl rfl
  pass := hP.pass

/-- The worker has nothing to do with the listeners. -/
def Worker.Away (worker : Worker) : Prop :=
  worker.deleteItems = [] ∧ ¬ worker.Iterates ∧ worker ≠ .dead

/-- The worker has gone on without the listeners. -/
theorem SqliteRequestThread.Passing.away (hP : s.Passing) (hbefore : s.worker.Away)
    (worker : Worker) (hafter : worker.Away) (mQueue : List RequestData) (mCurrentRequestId : Nat)
    (clients : Nat → Client) (performed : List Nat) (handler : List Runnable)
    (hperformed : s.performed ⊆ performed)
    (hcalled : handler.filterMap Runnable.subscription = s.called) :
    SqliteRequestThread.Passing
      { s with worker, mQueue, mCurrentRequestId, clients, performed, handler } where
  once := by
    show (handler.filterMap _).Nodup
    rw [hcalled]
    exact hP.once
  notEarly w hw := hperformed (hP.notEarly w (hcalled ▸ hw))
  kept w hw := by
    show w ∈ s.withdrawn ∨ w ∈ handler.filterMap _ ∨ w ∈ s.mListeners
    rw [hcalled]
    exact hP.kept w hw
  alive := hafter.2.2
  held w hw hnot := hP.held w hw (hcalled ▸ hnot)
  listed w hw hmem := by
    have hitems := hP.listed w hw (hcalled ▸ hmem)
    rw [hbefore.1] at hitems
    cases hitems
  items w hw := by
    have hitems : w ∈ worker.deleteItems := hw
    rw [hafter.1] at hitems
    cases hitems
  iterating curr it items h := absurd ⟨curr, it, items, h⟩ hafter.2.1
  pass _ w hw := by
    show w ∈ handler.filterMap _
    rw [hcalled]
    exact hP.pass hbefore.2.1 w hw

theorem modCount_le (l : List WeakListener) : s.modCount ≤ (s.setListeners l).modCount := by
  show _ ≤ s.modCount + _ + _
  omega

/-- A change of the set is seen at the count of its modifications. -/
theorem eq_of_modCount {l : List WeakListener}
    (hl : l.Sublist s.mListeners ∨ s.mListeners.Sublist l)
    (hmod : (s.setListeners l).modCount = s.modCount) : l = s.mListeners := by
  have hlength : l.length = s.mListeners.length := by
    have hmod' : s.modCount + (l.length - s.mListeners.length) +
      (s.mListeners.length - l.length) = s.modCount := hmod
    omega
  -- one of the two lists is a part of the other, of the same length
  rcases hl with hl | hl
  · exact hl.eq_of_length hlength
  · exact (hl.eq_of_length hlength.symm).symm

theorem SqliteRequestThread.Iterating.setListeners {curr : Nat} {it : Iter}
    {items l : List WeakListener} (hI : s.Iterating curr it items)
    (hl : l.Sublist s.mListeners ∨ s.mListeners.Sublist l) :
    (s.setListeners l).Iterating curr it items where
  curr_eq := hI.curr_eq
  mod_le := hI.mod_le.trans (modCount_le l)
  whole h := by
    have hle := modCount_le (s := s) l
    have hmod : (s.setListeners l).modCount = s.modCount :=
      Nat.le_antisymm (h ▸ hI.mod_le) hle
    show l = _
    rw [eq_of_modCount hl hmod]
    exact hI.whole (h.trans hmod)
  due := hI.due

/-- A listener comes to the set. -/
theorem SqliteRequestThread.Passing.addListener (hP : s.Passing) (hS : s.Distinct)
    {w : WeakListener} (hclient : s.clients c = .adding w) (hheld : w.listener ∉ s.collected)
    (hnew : ∀ x ∈ s.mListeners, x.mRequestId ≠ w.mRequestId) :
    SqliteRequestThread.Passing
      { (s.setListeners (insert WeakListener.mRequestId w s.mListeners)).goto c .idle with
        subscribed := s.subscribed ++ [w] } := by
  have hmaking : (s.clients c).making = some w := by rw [hclient]; rfl
  have hnotCalled : w ∉ s.called := (hS.making c w hmaking).2.2.1
  have hmem : ∀ x, x ∈ insert WeakListener.mRequestId w s.mListeners ↔ x ∈ s.mListeners ∨ x = w :=
    fun x => (mem_insert hS.asc).trans (or_congr Iff.rfl (and_iff_left hnew))
  refine ⟨hP.once, hP.notEarly, fun x hx => ?_, hP.alive, fun x hx hnot => ?_, fun x hx hcalled => ?_,
    hP.items, fun curr it items h => ?_, hP.pass⟩
  · rcases List.mem_append.mp hx with hx | hx
    · exact (hP.kept x hx).imp_right (Or.imp_right fun hlistener => (hmem x).mpr (Or.inl hlistener))
    · exact Or.inr (Or.inr ((hmem x).mpr (Or.inr (List.mem_singleton.mp hx))))
  · rcases (hmem x).mp hx with hx | rfl
    · exact hP.held x hx hnot
    · exact hheld
  · rcases (hmem x).mp hx with hx | rfl
    · exact hP.listed x hx hcalled
    · exact absurd hcalled hnotCalled
  · have hl : s.mListeners.Sublist (insert WeakListener.mRequestId w s.mListeners) :=
      sublist_insert
    exact ((hP.iterating curr it items h).setListeners (Or.inr hl)).congr rfl rfl rfl rfl

/-- The listener that was found leaves the set. -/
theorem SqliteRequestThread.Passing.remove (hP : s.Passing) {found : WeakListener}
    (hfound : ∀ x ∈ s.mListeners, x.mRequestId = found.mRequestId → x = found) :
    SqliteRequestThread.Passing
      { (s.setListeners (erase WeakListener.mRequestId found s.mListeners)).goto c .idle with
        withdrawn := s.withdrawn ++ [found] } := by
  have hold : ∀ x ∈ erase WeakListener.mRequestId found s.mListeners, x ∈ s.mListeners :=
    fun x hx => (mem_erase.mp hx).1
  refine ⟨hP.once, hP.notEarly, fun x hx => ?_, hP.alive, fun x hx => hP.held x (hold x hx),
    fun x hx => hP.listed x (hold x hx), hP.items, fun curr it items h => ?_, hP.pass⟩
  · rcases hP.kept x hx with hwithdrawn | hcalled | hlistener
    · exact Or.inl (List.mem_append_left _ hwithdrawn)
    · exact Or.inr (Or.inl hcalled)
    · by_cases hid : x.mRequestId = found.mRequestId
      · exact Or.inl (List.mem_append_right _ (List.mem_singleton.mpr (hfound x hlistener hid)))
      · exact Or.inr (Or.inr (mem_erase.mpr ⟨hlistener, hid⟩))
  · have hl : (erase WeakListener.mRequestId found s.mListeners).Sublist s.mListeners :=
      erase_sublist
    exact ((hP.iterating curr it items h).setListeners (Or.inl hl)).congr rfl rfl rfl rfl

/-- The called listeners leave the set. -/
theorem SqliteRequestThread.Passing.removeAll (hP : s.Passing) {items : List WeakListener}
    (hworker : s.worker = .removing items)
    (hfound : items.length < s.mListeners.length →
      ∀ x ∈ s.mListeners, ∀ w ∈ items, x.mRequestId = w.mRequestId → x = w) :
    SqliteRequestThread.Passing { s.setListeners
      (SortedSet.removeAll WeakListener.mRequestId items s.mListeners) with worker := .polling } := by
  have hitems : s.worker.deleteItems = items := by rw [hworker]; rfl
  have hold : ∀ x ∈ SortedSet.removeAll WeakListener.mRequestId items s.mListeners,
      x ∈ s.mListeners := fun x hx => removeAll_sublist.mem hx
  refine ⟨hP.once, hP.notEarly, fun x hx => ?_, by simp, fun x hx => hP.held x (hold x hx),
    fun x hx hcalled => ?_, fun x hx => (by cases hx), fun curr it items h => (by cases h), fun _ => ?_⟩
  · rcases hP.kept x hx with hwithdrawn | hcalled | hlistener
    · exact Or.inl hwithdrawn
    · exact Or.inr (Or.inl hcalled)
    · by_cases hmem : x ∈ items
      · exact Or.inr (Or.inl (hP.items x (hitems ▸ hmem)))
      · refine Or.inr (Or.inr (mem_removeAll_of hlistener hmem fun hlt w hw hid => ?_))
        exact hmem (hfound hlt x hlistener w hw hid ▸ hw)
  · have hmem := hP.listed x (hold x hx) hcalled
    rw [hitems] at hmem
    exact absurd hmem (notMem_of_mem_removeAll hx)
  · refine hP.pass ?_
    rintro ⟨curr, it, items', h⟩
    cases hworker.symm.trans h

/-- The worker begins a pass: what is due now is in the set. -/
theorem SqliteRequestThread.Passing.head (hP : s.Passing) (hN : s.InOrder)
    (hworker : s.worker = .loopHead) :
    SqliteRequestThread.Passing { s with
      worker := .iterating s.mCurrentRequestId ⟨s.mListeners, s.modCount⟩ []
      due := s.mListeners.filter fun w => w.mRequestId ∈ s.performed } := by
  -- between two requests everything up to the current number has been performed
  have hlast : s.lastPerformed = s.mCurrentRequestId :=
    lastPerformed_eq (by simp [Worker.Numbered, hworker])
  refine ⟨hP.once, hP.notEarly, hP.kept, by simp, hP.held, fun w hw hcalled => ?_,
    fun w hw => (by cases hw), fun curr it items h => ?_, fun h => absurd ⟨_, _, _, rfl⟩ h⟩
  · have hmem := hP.listed w hw hcalled
    rw [hworker] at hmem
    cases hmem
  · cases h
    refine ⟨rfl, Nat.le_refl _, fun _ => rfl, fun w hw => ?_⟩
    obtain ⟨hlistener, hperformed⟩ := List.mem_filter.mp hw
    exact ⟨hlast ▸ ((hN.performed _).mp (of_decide_eq_true hperformed)).2, Or.inr hlistener⟩

/-- The worker ends its iteration: all that is due has been called. -/
theorem SqliteRequestThread.Passing.endIteration (hP : s.Passing) {curr : Nat} {it : Iter}
    {items : List WeakListener} (hworker : s.worker = .iterating curr it items)
    (hrest : ∀ w ∈ it.remaining, curr < w.mRequestId) :
    SqliteRequestThread.Passing { s with worker := .removing items } := by
  have hitems : s.worker.deleteItems = items := by rw [hworker]; rfl
  refine ⟨hP.once, hP.notEarly, hP.kept, by simp, hP.held, fun w hw hcalled => ?_, fun w hw => ?_,
    fun curr it items h => (by cases h), fun _ w hw => ?_⟩
  · exact hitems ▸ hP.listed w hw hcalled
  · exact hP.items w (hitems ▸ hw)
  · obtain ⟨hle, hmem | hmem⟩ := (hP.iterating curr it items hworker).due w hw
    · exact hP.items w (hitems ▸ hmem)
    -- due, but behind the place where the loop broke off
    · exact absurd (hrest w hmem) (Nat.not_lt.mpr hle)

section post

variable {rs : List Runnable} {w : WeakListener}

/-- One callback is posted. -/
theorem called_of_post (hpost : rs = [.requestExecuted w]) :
    (s.post rs).called = s.called ++ [w] := by
  rw [called_post, hpost]
  rfl

theorem mem_called_of_post (hpost : rs = [.requestExecuted w]) {x : WeakListener} :
    x ∈ (s.post rs).called ↔ x ∈ s.called ∨ x = w := by
  rw [called_of_post hpost, List.mem_append, List.mem_singleton]

theorem nodup_called_of_post (hpost : rs = [.requestExecuted w]) (honce : s.called.Nodup)
    (hnew : w ∉ s.called) : (s.post rs).called.Nodup := by
  rw [called_of_post hpost, ← List.concat_eq_append, List.nodup_concat]
  exact ⟨hnew, honce⟩

end post

/-- A listener in front of the iterator has not been called and is there to be called. -/
theorem SqliteRequestThread.Passing.postListenerCallback_eq (hP : s.Passing) (hS : s.Distinct)
    {curr : Nat} {it : Iter} {items : List WeakListener} {w : WeakListener}
    {remaining : List WeakListener} (hworker : s.worker = .iterating curr it items)
    (hlisteners : s.mListeners = items ++ w :: remaining) :
    w ∉ s.called ∧ postListenerCallback (s.get w) w = [.requestExecuted w] := by
  have hmem : w ∈ s.mListeners := hlisteners ▸ List.mem_append_right _ List.mem_cons_self
  have hnew : w ∉ s.called := by
    intro hcalled
    have hitem := hP.listed w hmem hcalled
    rw [hworker] at hitem
    have hnodup := hS.asc.nodup
    rw [hlisteners] at hnodup
    -- called listeners stand behind the iterator, and the set has none twice
    exact (List.nodup_append.mp hnodup).2.2 w hitem w List.mem_cons_self rfl
  have hget : s.get w = some w.listener := if_neg (hP.held w hmem hnew)
  refine ⟨hnew, ?_⟩
  unfold postListenerCallback
  rw [hget, if_pos ⟨rfl, hS.pos w hmem⟩]

/-- A listener is called. -/
theorem SqliteRequestThread.Passing.nextPost (hP : s.Passing) (hN : s.InOrder) (hS : s.Distinct)
    {curr : Nat} {it : Iter} {items : List WeakListener} {w : WeakListener}
    {remaining : List WeakListener} (hworker : s.worker = .iterating curr it items)
    (hit : it.remaining = w :: remaining) (hmod : it.expectedModCount = s.modCount)
    (hid : w.mRequestId ≤ curr) :
    SqliteRequestThread.Passing { s.post (postListenerCallback (s.get w) w) with
      worker := .iterating curr { it with remaining } (items ++ [w]) } := by
  have hI := hP.iterating curr it items hworker
  have hitems : s.worker.deleteItems = items := by rw [hworker]; rfl
  have hlisteners : s.mListeners = items ++ w :: remaining := hit ▸ hI.whole hmod
  obtain ⟨hnew, hpost⟩ := hP.postListenerCallback_eq hS hworker hlisteners
  have hmem : ∀ x, x ∈ (s.post (postListenerCallback (s.get w) w)).called ↔
      x ∈ s.called ∨ x = w := fun x => mem_called_of_post hpost
  have hlast : s.lastPerformed = s.mCurrentRequestId :=
    lastPerformed_eq (by simp [Worker.Numbered, hworker])
  refine ⟨nodup_called_of_post hpost hP.once hnew, fun x hx => ?_, fun x hx => ?_, by simp,
    fun x hx hnot => ?_, fun x hx hx' => ?_, fun x hx => (hmem x).mpr ?_,
    fun curr' it' items' h => ?_, fun h => absurd ⟨_, _, _, rfl⟩ h⟩
  · rcases (hmem x).mp hx with hx | rfl
    · exact hP.notEarly x hx
    · refine (hN.performed _).mpr ⟨hS.pos x ?_, hlast ▸ hI.curr_eq ▸ hid⟩
      exact hlisteners ▸ List.mem_append_right _ List.mem_cons_self
  · exact (hP.kept x hx).imp_right (Or.imp_left fun hx => (hmem x).mpr (Or.inl hx))
  · exact hP.held x hx fun hx' => hnot ((hmem x).mpr (Or.inl hx'))
  · rcases (hmem x).mp hx' with hx' | rfl
    · exact List.mem_append_left _ (hitems ▸ hP.listed x hx hx')
    · exact List.mem_append_right _ (List.mem_singleton_self _)
  · rcases List.mem_append.mp hx with hx | hx
    · exact Or.inl (hP.items x (hitems ▸ hx))
    · exact Or.inr (List.mem_singleton.mp hx)
  · cases h
    refine ⟨hI.curr_eq, hI.mod_le, fun _ => ?_, fun x hx => ?_⟩
    · rw [List.append_assoc]
      exact hlisteners
    · obtain ⟨hle, hx⟩ := hI.due x hx
      rw [hit, List.mem_cons] at hx
      refine ⟨hle, ?_⟩
      rw [List.mem_append, List.mem_singleton, or_assoc]
      exact hx

/-- A subscription to a request that has been performed is answered at once. -/
theorem SqliteRequestThread.Passing.check (hP : s.Passing) (hN : s.InOrder) (hS : s.Distinct)
    {w : WeakListener} (hclient : s.clients c = .subscribing w)
    (hid : w.mRequestId < s.mCurrentRequestId) :
    SqliteRequestThread.Passing
      { (s.post (postListenerCallback (some w.listener) w)).goto c .idle with
        subscribed := s.subscribed ++ [w] } := by
  have hmaking : (s.clients c).making = some w := by rw [hclient]; rfl
  obtain ⟨hpos, -, hnew, hnot⟩ := hS.making c w hmaking
  have hpost : postListenerCallback (some w.listener) w = [.requestExecuted w] :=
    if_pos ⟨rfl, hpos⟩
  have hmem : ∀ x, x ∈ (s.post (postListenerCallback (some w.listener) w)).called ↔
      x ∈ s.called ∨ x = w := fun x => mem_called_of_post hpost
  -- the current request itself may be still in `perform`
  have hlast : s.mCurrentRequestId - 1 ≤ s.lastPerformed := by
    unfold SqliteRequestThread.lastPerformed
    split
    · exact Nat.le_refl _
    · exact Nat.sub_le ..
  refine ⟨nodup_called_of_post hpost hP.once hnew, fun x hx => ?_, fun x hx => ?_, hP.alive,
    fun x hx hnot => ?_, fun x hx hx' => ?_,
    fun x hx => (hmem x).mpr (Or.inl (hP.items x hx)), fun curr it items h => ?_,
    fun h x hx => (hmem x).mpr (Or.inl (hP.pass h x hx))⟩
  · rcases (hmem x).mp hx with hx | rfl
    · exact hP.notEarly x hx
    · exact (hN.performed _).mpr ⟨hpos, by omega⟩
  · rcases List.mem_append.mp hx with hx | hx
    · exact (hP.kept x hx).imp_right (Or.imp_left fun hx => (hmem x).mpr (Or.inl hx))
    · exact Or.inr (Or.inl ((hmem x).mpr (Or.inr (List.mem_singleton.mp hx))))
  · exact hP.held x hx fun hx' => hnot ((hmem x).mpr (Or.inl hx'))
  · rcases (hmem x).mp hx' with hx' | rfl
    · exact hP.listed x hx hx'
    · exact absurd hx hnot
  · exact (hP.iterating curr it items h).congr rfl rfl rfl rfl

theorem SqliteRequestThread.Passing.collect (hP : s.Passing) {listener : Nat}
    (hlistener : ∀ w ∈ s.mListeners, w.listener = listener → w ∈ s.called) :
    SqliteRequestThread.Passing { s with collected := listener :: s.collected } where
  once := hP.once
  notEarly := hP.notEarly
  kept := hP.kept
  alive := hP.alive
  held w hw hnot := by
    show w.listener ∉ listener :: s.collected
    rw [List.mem_cons, not_or]
    exact ⟨fun heq => hnot (hlistener w hw heq), hP.held w hw hnot⟩
  listed := hP.listed
  items := hP.items
  iterating curr it items h := (hP.iterating curr it items h).congr rfl rfl rfl rfl
  pass := hP.pass

theorem step_passing {act : Act} (hP : s.Passing) (hN : s.InOrder) (hS : s.Distinct)
    (hcareful : s.Careful act) (h : sqliteStep s act = some s') : s'.Passing := by
  cases stepped_of_step h with
  | head hworker => exact hP.head hN hworker
  | nextEnd curr it items hworker hit =>
    refine hP.endIteration hworker ?_
    rw [hit]
    exact List.forall_mem_nil _
  | nextFail curr it items hworker hit hmod =>
    exact absurd ⟨curr, it, items, hworker, hit, hmod⟩ hcareful
  | nextBreak curr it items w remaining hworker hit hmod hid =>
    -- the set is sorted: behind the first listener of a later request are only such
    have hasc := hS.asc
    rw [(hP.iterating curr it items hworker).whole hmod, hit] at hasc
    refine hP.endIteration hworker ?_
    rw [hit]
    exact List.forall_mem_cons.mpr ⟨hid, fun x hx => hid.trans (hasc.key_lt hx)⟩
  | nextPost curr it items w remaining hworker hit hmod hid =>
    exact hP.nextPost hN hS hworker hit hmod hid
  | removeAll items hworker => exact hP.removeAll hworker (hcareful items hworker)
  | pollNull hworker | poll _ _ hworker | wait hworker | wake hworker | setCurrent _ hworker =>
    refine hP.away ?_ _ ?_ _ _ _ _ _ (List.Subset.refl _) rfl
    · simp [Worker.Away, Worker.deleteItems, Worker.Iterates, hworker]
    · simp [Worker.Away, Worker.deleteItems, Worker.Iterates]
  | notify data hworker =>
    refine hP.away ?_ _ ?_ _ _ _ _ _ (List.Subset.refl _) rfl
    · simp [Worker.Away, Worker.deleteItems, Worker.Iterates, hworker]
    · simp [Worker.Away, Worker.deleteItems, Worker.Iterates]
  | perform data returns hworker =>
    refine hP.away ?_ _ ?_ _ _ _ _ _ (List.subset_append_left ..) (called_perform returns)
    · simp [Worker.Away, Worker.deleteItems, Worker.Iterates, hworker]
    · split <;> simp [Worker.Away, Worker.deleteItems, Worker.Iterates]
  | request | requestAsync | add | leave | move | subscribe => exact hP.client _ _ _ _ _
  | subscribeRefused | unsubscribeRefused => exact hP
  | check c w hclient hid => exact hP.check hN hS hclient hid
  | addListener c w hclient =>
    obtain ⟨hheld, hnew⟩ := hcareful w hclient
    exact hP.addListener hS hclient hheld hnew
  | remove c found hclient => exact hP.remove (hcareful found hclient)
  | collect listener => exact hP.collect hcareful

/-- What is kept together along a careful run. -/
structure SqliteRequestThread.ListenerInv (s : SqliteRequestThread) : Prop where
  drawn : s.Drawn
  inOrder : s.InOrder
  distinct : s.Distinct
  passing : s.Passing

theorem start_listenerInv : SqliteRequestThread.start.ListenerInv :=
  ⟨start_drawn, start_inOrder, start_distinct, start_passing⟩

theorem step_listenerInv {act : Act} (hI : s.ListenerInv) (hcareful : s.Careful act)
    (h : sqliteStep s act = some s') : s'.ListenerInv where
  drawn := step_drawn hI.drawn h
  inOrder := step_inOrder hI.inOrder hI.drawn hcareful h
  distinct := step_distinct hI.distinct hI.passing h
  passing := step_passing hI.passing hI.inOrder hI.distinct hcareful h

end steps

/-- In every state of a careful run the subscriptions get what they are owed. -/
theorem listeners_along (acts : List Act)
    (hcareful : Along sqliteStep (fun s act _ => s.Careful act) .start acts) :
    Along sqliteStep (fun _ _ s' => s'.Served) .start acts :=
  along_mono (fun _ _ _ hI => SqliteRequestThread.Passing.served hI.passing) acts
    (along_of_cond (P := SqliteRequestThread.ListenerInv)
      (fun _ _ _ hI hc h => step_listenerInv hI hc h) acts start_listenerInv hcareful)

/-- One request and two listeners for it. -/
def twoListeners (second : List Act) : List Act :=
  [.client 0 (.requestAsync (.other 0) none), .client 0 .add, .client 0 .leave,
    .client 1 (.subscribe 1 1), .client 1 .check, .client 1 .addListener] ++ second ++
  [.worker .head, .worker .next, .worker .removeAll, .worker .poll, .worker .setCurrent,
    .worker (.perform true), .worker .head, .worker .next, .worker .next, .worker .removeAll,
    .worker .poll]

theorem listeners_along_example :
    Along sqliteStep (fun _ _ s' => s'.Served) .start (twoListeners []) := by
  refine listeners_along (twoListeners []) ?_
  refine along_cons rfl trivial (along_cons rfl ?_ (along_cons rfl trivial
    (along_cons rfl trivial (along_cons rfl trivial (along_cons rfl ?_ (along_cons rfl trivial
    (along_cons rfl ?_ (along_cons rfl ?_ (along_cons rfl trivial (along_cons rfl trivial
    (along_cons rfl trivial (along_cons rfl trivial (along_cons rfl ?_ (along_cons rfl ?_
    (along_cons rfl ?_ (along_cons rfl trivial trivial))))))))))))))))
  · -- the only number that has been drawn
    have hone : ∀ c d, (SqliteRequestThread.start.goto 0
        (.counted ⟨1, .other 0, none, none⟩)).clients c = .counted d → d.requestId = 1 := by
      intro c d h
      rcases goto_eq h with ⟨-, heq⟩ | hidle
      · cases heq
        rfl
      · cases hidle
    intro data hdata c d hd
    exact ((hone 0 data hdata).trans (hone c d hd).symm).le
  · intro w _
    exact ⟨List.not_mem_nil, List.forall_mem_nil _⟩
  · rintro ⟨curr, it, items, hworker, -, hmod⟩
    cases hworker
    exact hmod rfl
  · rintro items hworker - x - w hw
    cases hworker
    cases hw
  · rintro ⟨curr, it, items, hworker, -, hmod⟩
    cases hworker
    exact hmod rfl
  · rintro ⟨curr, it, items, hworker, -, hmod⟩
    cases hworker
    exact hmod rfl
  · rintro items hworker hlt
    cases hworker
    exact absurd hlt (Nat.lt_irrefl 1)

/-- The second listener is refused by the set, and told that it has subscribed. -/
theorem listeners_counterexample : ∃ s,
    run sqliteStep .start (twoListeners
      [.client 2 (.subscribe 2 1), .client 2 .check, .client 2 .addListener]) = some s ∧
    s.subscribed = [⟨0, 1, 1⟩, ⟨1, 2, 1⟩] ∧ s.withdrawn = [] ∧ s.performed = [1] ∧
    s.called = [⟨0, 1, 1⟩] ∧ s.mListeners = [] ∧ ¬ s.Served := by
  refine ⟨_, rfl, rfl, rfl, rfl, rfl, rfl, fun hserved => ?_⟩
  have hkept := hserved.kept ⟨1, 2, 1⟩
  revert hkept
  decide

end ConfProfile.Sqlite
