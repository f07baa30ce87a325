import ConfProfile.Threads.SqliteRequestThread

/-!
# The synchronous `request`

The caller queues its record first and waits on it later, and the worker notifies once, if
`perform` returns. So there are two ways to wait for ever, and a third with the end of the
worker: `sync_along_iff` says that a caller is never left behind exactly if each call begins to
wait while the worker still has its record to do, and the worker neither comes to an exception in
`perform` while the caller waits nor to one of the iterator while any caller does.
-/

namespace ConfProfile.Sqlite

open Run

/-- The records that the worker still may notify. -/
def SqliteRequestThread.toCome (s : SqliteRequestThread) : List RequestData :=
  if s.worker = .dead then [] else s.pending

/-- A caller waits, and the worker is done with its request. -/
def SqliteRequestThread.Stuck (s : SqliteRequestThread) : Prop :=
  ∃ c data, s.clients c = .waiting data ∧ data ∉ s.toCome

/-- A call waits only for what is still to come, and the worker leaves no waiting caller behind
by an exception. -/
def SqliteRequestThread.Heeded (s : SqliteRequestThread) : Act → Prop
  | .client c .wait => ∀ data, s.clients c = .notified data → data ∈ s.toCome
  | .worker (.perform false) => ∀ data, s.worker = .performing data →
      ∀ c, s.clients c ≠ .waiting data
  | .worker .next => s.IteratorFails → ∀ c data, s.clients c ≠ .waiting data
  | _ => True

/-- The client is in the monitor of the record, or waits in it. -/
def Client.Locks (pc : Client) (data : RequestData) : Prop :=
  pc = .locked data ∨ pc = .notified data ∨ pc = .waiting data

/-- What every step keeps: only the caller of a synchronous request waits. -/
structure SqliteRequestThread.SyncInv (s : SqliteRequestThread) : Prop where
  drawn : s.Drawn
  locks : ∀ c data, (s.clients c).Locks data → data.isSyncRequest

theorem start_syncInv : SqliteRequestThread.start.SyncInv where
  drawn := start_drawn
  locks c data h := by rcases h with h | h | h <;> cases h

section steps

variable {s s' : SqliteRequestThread} {c c' : Nat} {pc pc' : Client} {data : RequestData}

/-- A client that goes outside of the monitor of a record. -/
theorem locks_goto (hlocks : ∀ c data, (s.clients c).Locks data → data.isSyncRequest)
    (h : ∀ data, pc.Locks data → data.isSyncRequest)
    (hc : ((s.goto c pc).clients c').Locks data) : data.isSyncRequest := by
  by_cases hself : c' = c
  · subst hself
    rw [goto_self] at hc
    exact h data hc
  · rw [goto_of_ne hself] at hc
    exact hlocks c' data hc

theorem search_locks {listener requestId : Nat} {it : Iter} :
    ¬ (s.search listener requestId it).Locks data := by
  unfold Client.Locks SqliteRequestThread.search
  split
  · simp
  · split
    · simp
    · split
      · simp
      · split <;> simp

theorem Moves.locks {act : ClientAct} (h : Moves s act pc pc')
    (hlocks : ∀ data, pc.Locks data → data.isSyncRequest) (hpc : pc'.Locks data) :
    data.isSyncRequest := by
  cases h with
  | lock hsync =>
    rcases hpc with hpc | hpc | hpc <;> cases hpc
    exact hsync
  | notify d =>
    rcases hpc with hpc | hpc | hpc <;> cases hpc
    exact hlocks data (Or.inl rfl)
  | wait d =>
    rcases hpc with hpc | hpc | hpc <;> cases hpc
    exact hlocks data (Or.inr (Or.inl rfl))
  | interrupt d =>
    rcases hpc with hpc | hpc | hpc <;> cases hpc
    exact hlocks data (Or.inr (Or.inr rfl))
  | search listener requestId it => exact absurd hpc search_locks
  | wake | done | check | unsubscribe => rcases hpc with hpc | hpc | hpc <;> cases hpc

theorem step_syncInv {act : Act} (hI : s.SyncInv) (h : sqliteStep s act = some s') :
    s'.SyncInv := by
  refine ⟨step_drawn hI.drawn h, fun c' data hc => ?_⟩
  cases stepped_of_step h with
  | move c act pc pc' hclient hmove =>
    exact locks_goto hI.locks
      (fun d => hmove.locks fun d' hd' => hI.locks c d' (hclient ▸ hd')) hc
  | notify d hworker =>
    refine hI.locks c' data ?_
    rcases hc with hc | hc | hc
    · exact Or.inl (of_wakeCaller hc (by simp))
    · exact Or.inr (Or.inl (of_wakeCaller hc (by simp)))
    · exact Or.inr (Or.inr (of_wakeCaller hc (by simp)))
  | request | requestAsync | add | leave | subscribe | check | addListener | remove =>
    exact locks_goto hI.locks (fun d hd => by rcases hd with hd | hd | hd <;> cases hd) hc
  | _ => exact hI.locks c' data hc

theorem mem_toCome : data ∈ s.toCome ↔ s.worker ≠ .dead ∧ data ∈ s.pending := by
  unfold SqliteRequestThread.toCome
  split
  next hdead => simp [hdead]
  next hdead => exact (and_iff_right hdead).symm

/-- Nobody begins to wait, and nothing that a caller waits for is done with. -/
theorem not_stuck_of (hs : ¬ s.Stuck)
    (hwaiting : ∀ c data, s'.clients c = .waiting data → s.clients c = .waiting data)
    (htoCome : ∀ c data, s'.clients c = .waiting data → data ∈ s.toCome → data ∈ s'.toCome) :
    ¬ s'.Stuck := by
  rintro ⟨c, data, hc, hnot⟩
  exact hs ⟨c, data, hwaiting c data hc, fun hmem => hnot (htoCome c data hc hmem)⟩

/-- A step of a client that does not begin to wait. -/
theorem not_stuck_of_goto (hs : ¬ s.Stuck) (hpc : ∀ data, pc ≠ .waiting data)
    (hclients : s'.clients = (s.goto c pc).clients) (hworker : s'.worker = s.worker)
    (hqueue : ∀ data ∈ s.mQueue, data ∈ s'.mQueue) : ¬ s'.Stuck := by
  refine not_stuck_of hs (fun c' data hc => ?_) fun c' data _ hmem => ?_
  · rw [hclients] at hc
    exact of_goto hc (hpc data)
  · rw [mem_toCome] at hmem ⊢
    unfold SqliteRequestThread.pending SqliteRequestThread.inHand at hmem ⊢
    rw [hworker]
    refine hmem.imp_right fun hpending => ?_
    exact (List.mem_append.mp hpending).elim (List.mem_append_left _)
      fun hmem => List.mem_append_right _ (hqueue data hmem)

/-- A step of the worker that is done with no record. -/
theorem not_stuck_of_worker (hs : ¬ s.Stuck) (hclients : s'.clients = s.clients)
    (hdead : s'.worker ≠ .dead) (hpending : s'.pending = s.pending) : ¬ s'.Stuck := by
  refine not_stuck_of hs (fun c data hc => hclients ▸ hc) fun c data _ hmem => ?_
  rw [mem_toCome] at hmem ⊢
  exact ⟨hdead, hpending ▸ hmem.2⟩

/-- A step between two places where the worker has nothing in hand. -/
theorem not_stuck_of_empty (hs : ¬ s.Stuck) (hclients : s'.clients = s.clients)
    (hqueue : s'.mQueue = s.mQueue) (hdead : s'.worker ≠ .dead)
    (hbefore : ∀ data, s.worker ≠ .polled data ∧ s.worker ≠ .performing data ∧
      s.worker ≠ .notifying data)
    (hafter : ∀ data, s'.worker ≠ .polled data ∧ s'.worker ≠ .performing data ∧
      s'.worker ≠ .notifying data) : ¬ s'.Stuck := by
  refine not_stuck_of_worker hs hclients hdead ?_
  rw [pending_eq_of_worker hbefore, pending_eq_of_worker hafter, hqueue]

/-- The notified caller does not wait any more. -/
theorem wakeCaller_ne : s.wakeCaller data c ≠ .waiting data := by
  unfold SqliteRequestThread.wakeCaller
  split
  next => simp
  next hnot => exact hnot

theorem search_ne_waiting {listener requestId : Nat} {it : Iter} :
    s.search listener requestId it ≠ .waiting data :=
  fun h => search_locks (Or.inr (Or.inr h))

/-- A call begins to wait. -/
theorem stuck_wait_iff (hs : ¬ s.Stuck) (hclient : s.clients c = .notified data) :
    ¬ (s.goto c (.waiting data)).Stuck ↔ s.Heeded (.client c .wait) := by
  constructor
  · intro hstuck d hd
    obtain rfl := Client.notified.inj (hclient.symm.trans hd)
    by_contra hmem
    exact hstuck ⟨c, data, goto_self, hmem⟩
  · rintro hheeded ⟨c', d, hc', hmem⟩
    rcases goto_eq hc' with ⟨-, hd⟩ | hc'
    · obtain rfl := Client.waiting.inj hd
      exact hmem (hheeded data hclient)
    · exact hs ⟨c', d, hc', hmem⟩

/-- The worker is done with a record: only its caller may have been left behind. -/
theorem stuck_of_done (hs : ¬ s.Stuck) (hclients : s'.clients = s.clients)
    (hbefore : s.pending = data :: s.mQueue) (hafter : s'.pending = s.mQueue)
    (hdead : s'.worker ≠ .dead) (hnodup : s.pending.Nodup) :
    ¬ s'.Stuck ↔ ∀ c, s.clients c ≠ .waiting data := by
  constructor
  · intro hstuck c hc
    refine hstuck ⟨c, data, hclients ▸ hc, fun hmem => ?_⟩
    rw [mem_toCome, hafter] at hmem
    exact (List.nodup_cons.mp (hbefore ▸ hnodup)).1 hmem.2
  · intro hnone
    refine not_stuck_of hs (fun c d hc => hclients ▸ hc) fun c d hc hmem => ?_
    rw [mem_toCome, hbefore] at hmem
    rw [mem_toCome, hafter]
    refine ⟨hdead, (List.mem_cons.mp hmem.2).resolve_left ?_⟩
    rintro rfl
    exact hnone c (hclients ▸ hc)

/-- A caller is left behind by no step but these three, and by them exactly if the step is not
heeded. -/
theorem stuck_step_iff {act : Act} (hI : s.SyncInv) (hs : ¬ s.Stuck)
    (h : sqliteStep s act = some s') : ¬ s'.Stuck ↔ s.Heeded act := by
  cases stepped_of_step h with
  | head hworker | removeAll items hworker | pollNull hworker | wait hworker | wake hworker =>
    exact iff_of_true
      (not_stuck_of_empty hs rfl rfl (by simp) (by simp [hworker]) (by simp)) trivial
  | nextEnd curr it items hworker hit =>
    refine iff_of_true
      (not_stuck_of_empty hs rfl rfl (by simp) (by simp [hworker]) (by simp)) ?_
    rintro ⟨curr', it', items', hworker', hne, -⟩
    cases hworker.symm.trans hworker'
    exact absurd hit hne
  | nextFail curr it items hworker hit hmod =>
    have hfails : s.IteratorFails := ⟨curr, it, items, hworker, hit, hmod⟩
    refine Iff.trans ?_ (forall_prop_of_true hfails).symm
    constructor
    · intro hstuck c data hc
      exact hstuck ⟨c, data, hc, fun hmem => (mem_toCome.mp hmem).1 rfl⟩
    · rintro hnone ⟨c, data, hc, -⟩
      exact hnone c data hc
  | nextBreak curr it items _ _ hworker _ hmod | nextPost curr it items _ _ hworker _ hmod =>
    refine iff_of_true
      (not_stuck_of_empty hs rfl rfl (by simp) (by simp [hworker]) (by simp)) ?_
    rintro ⟨curr', it', items', hworker', -, hne⟩
    cases hworker.symm.trans hworker'
    exact absurd hmod hne
  | poll data mQueue hworker hqueue =>
    exact iff_of_true (not_stuck_of_worker hs rfl (by simp) (pending_poll hworker hqueue)) trivial
  | setCurrent data hworker =>
    refine iff_of_true (not_stuck_of_worker hs rfl (by simp) ?_) trivial
    rw [pending_of_worker (Or.inl hworker), pending_of_worker (Or.inr (Or.inl rfl))]
  | perform data returns hworker =>
    have hpending := pending_of_worker (Or.inr (Or.inl hworker))
    have hdead : (s.perform data returns).worker ≠ .dead := by
      unfold SqliteRequestThread.perform
      dsimp only
      split <;> simp
    by_cases hsync : returns ∧ data.isSyncRequest
    · -- the notification is still to come
      obtain ⟨rfl, -⟩ := id hsync
      refine iff_of_true (not_stuck_of_worker hs rfl hdead ?_) trivial
      rw [pending_perform, if_pos hsync, hpending]
    · have hafter : (s.perform data returns).pending = s.mQueue :=
        (pending_perform returns).trans (if_neg hsync)
      have hdone : ¬ (s.perform data returns).Stuck ↔ ∀ c, s.clients c ≠ .waiting data :=
        stuck_of_done hs rfl hpending hafter hdead hI.drawn.nodup
      refine hdone.trans ?_
      cases returns with
      | true =>
        -- nobody waits for an asynchronous request
        refine iff_of_true (fun c hc => hsync ⟨rfl, ?_⟩) trivial
        exact hI.locks c data (Or.inr (Or.inr hc))
      | false =>
        constructor
        · intro hnone d hd
          obtain rfl := Worker.performing.inj (hworker.symm.trans hd)
          exact hnone
        · intro hheeded
          exact hheeded data hworker
  | notify data hworker =>
    refine iff_of_true (not_stuck_of hs (fun c d hc => of_wakeCaller hc (by simp)) ?_) trivial
    intro c d hc hmem
    have hne : d ≠ data := by
      rintro rfl
      exact wakeCaller_ne hc
    rw [mem_toCome, pending_of_worker (Or.inr (Or.inr hworker))] at hmem
    rw [mem_toCome, pending_eq_of_worker (by simp)]
    exact ⟨by simp, (List.mem_cons.mp hmem.2).resolve_left hne⟩
  | request | requestAsync | leave | subscribe | check | addListener | remove =>
    exact iff_of_true (not_stuck_of_goto hs (by simp) rfl rfl fun _ hmem => hmem) trivial
  | add c data hclient =>
    exact iff_of_true
      (not_stuck_of_goto hs (by simp) rfl rfl fun _ hmem => List.mem_append_left _ hmem) trivial
  | move c act pc pc' hclient hmove =>
    cases hmove with
    | wait data => exact stuck_wait_iff hs hclient
    | search =>
      exact iff_of_true
        (not_stuck_of_goto hs (fun _ => search_ne_waiting) rfl rfl fun _ hmem => hmem) trivial
    | _ =>
      exact iff_of_true (not_stuck_of_goto hs (by simp) rfl rfl fun _ hmem => hmem) trivial
  | subscribeRefused | unsubscribeRefused => exact iff_of_true hs trivial
  | collect listener =>
    exact iff_of_true (not_stuck_of hs (fun _ _ => id) fun _ _ _ => id) trivial

end steps

/-- In no state of a run has the worker done with a request whose caller waits, exactly if every
step of the run is heeded. -/
theorem sync_along_iff (acts : List Act) :
    Along sqliteStep (fun _ _ s' => ¬ s'.Stuck) .start acts ↔
      Along sqliteStep (fun s act _ => s.Heeded act) .start acts :=
  along_iff_cond (I := SqliteRequestThread.SyncInv) (P := fun s => ¬ s.Stuck)
    (q := fun _ _ s' => ¬ s'.Stuck) (c := fun s act _ => s.Heeded act)
    (fun _ _ _ hI h => step_syncInv hI h) (fun _ _ _ => id)
    (fun _ _ _ hI hs h => stuck_step_iff hI hs h)
    acts start_syncInv (by rintro ⟨c, data, hc, -⟩; cases hc)

/-- The worker performs and notifies between the notification and the wait of the caller. -/
def notifiedTooEarly : List Act :=
  [.client 0 (.request (.other 0)), .client 0 .add,
    .worker .head, .worker .next, .worker .removeAll, .worker .poll, .worker .setCurrent,
    .worker (.perform true), .worker .notify,
    .client 0 .lock, .client 0 .notify, .client 0 .wait]

/-- The request throws while its caller waits. -/
def thrownPast : List Act :=
  [.client 0 (.request (.other 0)), .client 0 .add,
    .client 0 .lock, .client 0 .notify, .client 0 .wait,
    .worker .head, .worker .next, .worker .removeAll, .worker .poll, .worker .setCurrent,
    .worker (.perform false)]

theorem sync_counterexample :
    (∃ s, run sqliteStep .start notifiedTooEarly = some s ∧ s.performed = [1] ∧ s.Stuck) ∧
      ∃ s, run sqliteStep .start thrownPast = some s ∧ s.performed = [1] ∧ s.Stuck := by
  refine ⟨⟨_, rfl, rfl, 0, _, rfl, ?_⟩, ⟨_, rfl, rfl, 0, _, rfl, ?_⟩⟩
  · decide
  · decide

end ConfProfile.Sqlite
