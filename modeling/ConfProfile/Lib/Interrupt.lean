import ConfProfile.Lib.Run

/-!
# Interrupting a worker

A thread whose `run` is `while(!interrupted()) ...` and then a clean-up, with everything that
goes on beside it. `WorkerLoop` is the loop without interrupts, as a step function; `intStep`
adds the flag of the thread, the test of the loop, and the exception of a `wait` that finds the
flag set. Both the test and the exception clear the flag, and so may code that the loop calls.

The worker stops, without another round, if it is the test that finds the flag. If anything else
clears it, and `interrupt()` is not called again, the worker goes on for ever
(`stops_of_clear`, `stops_iff_clear`).
-/

namespace Interrupt

open Run

/-- What a step is to the loop. -/
inductive Kind where
  /-- a step of another thread -/
  | other
  | work
  /-- the worker begins to wait -/
  | wait
  /-- `wait` returns -/
  | awake
  deriving DecidableEq, Repr

/-- A worker and what goes on beside it. -/
structure WorkerLoop (σ α : Type*) where
  step : σ → α → Option σ
  kind : α → Kind
  /-- The worker is in front of the test of its loop. -/
  head : σ → Bool
  waiting : σ → Bool
  /-- The worker has ended by an exception that the loop does not catch. -/
  dead : σ → Bool
  /-- The step is one that ends it so. -/
  dies : σ → α → Prop
  /-- What a step of the worker comes to if it clears the flag: a `wait` that throws, or code
  that does it. -/
  thrown : σ → α → Option σ
  /-- What follows the loop. -/
  cleanUp : σ → σ

variable {σ α : Type*}

structure WorkerLoop.Lawful (L : WorkerLoop σ α) : Prop where
  dead_iff : ∀ {s a s'}, L.step s a = some s' → (L.dead s' = true ↔ L.dead s = true ∨ L.dies s a)
  dead_thrown : ∀ {s a s'}, L.thrown s a = some s' → L.dead s' = L.dead s
  dead_cleanUp : ∀ s, L.dead (L.cleanUp s) = L.dead s
  not_dead : ∀ {s}, L.head s = true → L.dead s = false
  not_other : ∀ {s a}, L.dies s a → L.kind a ≠ .other

inductive LoopPc where
  | loop
  | cleaning
  | ended
  deriving DecidableEq, Repr

/-- The loop with the flag of its thread. The last three fields are no part of the program:
whether `interrupt()` has been called, how many rounds have been begun since, and whether the
worker has begun to wait since. -/
structure Interruptible (σ : Type*) where
  inner : σ
  interrupted : Bool
  /-- The `wait` that the worker is in was ended by the interrupt. -/
  mustThrow : Bool
  /-- The test has let the worker in. -/
  entered : Bool
  pc : LoopPc
  called : Bool
  rounds : Nat
  waited : Bool

def Interruptible.start (s : σ) : Interruptible σ := ⟨s, false, false, false, .loop, false, 0, false⟩

inductive IntAct (α : Type*) where
  | interrupt
  /-- `interrupted()` -/
  | test
  | act (a : α)
  /-- a step that clears the flag -/
  | throws (a : α)
  | cleanUp

variable (L : WorkerLoop σ α)

/-- The worker is in the loop, and not in front of the test. -/
def Interruptible.Inside (s : Interruptible σ) : Prop :=
  s.pc = .loop ∧ (L.head s.inner = true → s.entered = true)

instance (s : Interruptible σ) : Decidable (s.Inside L) :=
  inferInstanceAs (Decidable (_ ∧ (_ → _)))

def intStep (s : Interruptible σ) : IntAct α → Option (Interruptible σ)
  | .interrupt => some { s with
      interrupted := true
      called := true
      mustThrow := s.mustThrow || L.waiting s.inner }
  | .test =>
    if s.pc = .loop ∧ L.head s.inner = true ∧ s.entered = false then
      if s.interrupted then some { s with interrupted := false, pc := .cleaning }
      else some { s with entered := true, rounds := s.rounds + s.called.toNat }
    else none
  | .act a =>
    if L.kind a = .other then (L.step s.inner a).map fun inner => { s with inner }
    -- a `wait` does not begin if the flag is set, and does not return if it was interrupted
    else if s.Inside L ∧ ¬ (L.kind a = .wait ∧ s.interrupted) ∧
        ¬ (L.kind a = .awake ∧ s.mustThrow) then
      (L.step s.inner a).map fun inner => { s with
        inner
        entered := false
        waited := s.waited || (s.called && L.kind a = .wait) }
    else none
  | .throws a =>
    if s.Inside L ∧ s.interrupted then
      (L.thrown s.inner a).map fun inner => { s with
        inner, interrupted := false, mustThrow := false, entered := false }
    else none
  | .cleanUp =>
    if s.pc = .cleaning then some { s with inner := L.cleanUp s.inner, pc := .ended } else none

/-- The worker has come to rest: it has ended, or waits with nothing to wake it. -/
def Interruptible.Settled (s : Interruptible σ) : Prop :=
  s.pc = .ended ∨
    s.pc = .loop ∧ (L.dead s.inner = true ∨ L.waiting s.inner = true ∧ s.interrupted = false)

/-- After an interrupt the worker has not begun to wait, nor another round; and if it has come to
rest, it has been through its clean-up. -/
def Interruptible.Stops (s : Interruptible σ) : Prop :=
  s.called = true → s.waited = false ∧ s.rounds = 0 ∧ (s.Settled L → s.pc = .ended)

/-- Nothing but the test clears the flag, and the worker does not die. -/
def Clear (s : Interruptible σ) : IntAct α → Prop
  | .throws _ => False
  | .act a => ¬ L.dies s.inner a
  | .interrupt | .test | .cleanUp => True

/-- `interrupt()` is called once. -/
def Once (s : Interruptible σ) : IntAct α → Prop
  | .interrupt => s.called = false
  | _ => True

/-! ## What a step does -/

section Step

variable {L} {s s' : Interruptible σ}

inductive IntStepped (L : WorkerLoop σ α) (s : Interruptible σ) :
    IntAct α → Interruptible σ → Prop
  | interrupt : IntStepped L s .interrupt { s with
      interrupted := true
      called := true
      mustThrow := s.mustThrow || L.waiting s.inner }
  | leaves (hpc : s.pc = .loop) (hhead : L.head s.inner = true) (hflag : s.interrupted = true) :
      IntStepped L s .test { s with interrupted := false, pc := .cleaning }
  | enters (hpc : s.pc = .loop) (hhead : L.head s.inner = true) (hflag : s.interrupted = false) :
      IntStepped L s .test { s with entered := true, rounds := s.rounds + s.called.toNat }
  | other {a : α} {inner : σ} (hkind : L.kind a = .other) (hstep : L.step s.inner a = some inner) :
      IntStepped L s (.act a) { s with inner }
  | work {a : α} {inner : σ} (hpc : s.pc = .loop) (hwait : ¬ (L.kind a = .wait ∧ s.interrupted))
      (hstep : L.step s.inner a = some inner) :
      IntStepped L s (.act a) { s with
        inner
        entered := false
        waited := s.waited || (s.called && L.kind a = .wait) }
  | throws {a : α} {inner : σ} (hpc : s.pc = .loop) (hflag : s.interrupted = true)
      (hthrown : L.thrown s.inner a = some inner) :
      IntStepped L s (.throws a) { s with
        inner, interrupted := false, mustThrow := false, entered := false }
  | cleanUp (hpc : s.pc = .cleaning) :
      IntStepped L s .cleanUp { s with inner := L.cleanUp s.inner, pc := .ended }

theorem intStepped_of_step {a : IntAct α} (h : intStep L s a = some s') : IntStepped L s a s' := by
  unfold intStep at h
  split at h
  next => exact Option.some.inj h ▸ .interrupt
  next =>
    split at h
    next hif =>
      split at h
      next hflag => exact Option.some.inj h ▸ .leaves hif.1 hif.2.1 hflag
      next hflag => exact Option.some.inj h ▸ .enters hif.1 hif.2.1 (eq_false_of_ne_true hflag)
    next => cases h
  next a =>
    split at h
    next hkind =>
      obtain ⟨inner, hstep, rfl⟩ := Option.map_eq_some_iff.mp h
      exact .other hkind hstep
    next =>
      split at h
      next hif =>
        obtain ⟨inner, hstep, rfl⟩ := Option.map_eq_some_iff.mp h
        exact .work hif.1.1 hif.2.1 hstep
      next => cases h
  next a =>
    split at h
    next hif =>
      obtain ⟨inner, hthrown, rfl⟩ := Option.map_eq_some_iff.mp h
      exact .throws hif.1.1 hif.2 hthrown
    next => cases h
  next =>
    split at h
    next hpc => exact Option.some.inj h ▸ .cleanUp hpc
    next => cases h

/-! ## When the worker stops -/

/-- Nobody but the test has cleared the flag so far, and the worker lives. -/
structure Unspent (L : WorkerLoop σ α) (s : Interruptible σ) : Prop where
  alive : L.dead s.inner = false
  called : s.interrupted = true → s.called = true
  flag : s.called = true → s.pc = .loop → s.interrupted = true
  waited : s.waited = false
  rounds : s.rounds = 0

/-- The flag is spent in the loop, or the worker is dead. -/
structure Spent (L : WorkerLoop σ α) (s : Interruptible σ) : Prop where
  pc : s.pc = .loop
  spent : L.dead s.inner = true ∨ s.called = true ∧ s.interrupted = false

variable (hL : L.Lawful)

include hL

theorem unspent_step {a : IntAct α} (hs : Unspent L s) (ha : Clear L s a)
    (h : intStep L s a = some s') : Unspent L s' := by
  have halive : ∀ {b : α} {inner : σ}, L.step s.inner b = some inner → ¬ L.dies s.inner b →
      L.dead inner = false := by
    intro b inner hstep hb
    rw [← Bool.not_eq_true, hL.dead_iff hstep, hs.alive]
    exact fun h => h.elim nofun hb
  cases intStepped_of_step h with
  | interrupt => exact ⟨hs.alive, fun _ => rfl, fun _ _ => rfl, hs.waited, hs.rounds⟩
  | leaves hpc hhead hflag => exact ⟨hs.alive, nofun, fun _ => nofun, hs.waited, hs.rounds⟩
  | enters hpc hhead hflag =>
    -- the test would have found the flag
    have hcalled : s.called = false := by
      rw [← Bool.not_eq_true]
      intro hcalled
      exact absurd (hs.flag hcalled hpc) (Bool.eq_false_iff.mp hflag)
    refine ⟨hs.alive, hs.called, hs.flag, hs.waited, ?_⟩
    simp only [hs.rounds, hcalled, Bool.toNat_false]
  | other hkind hstep =>
    exact ⟨halive hstep ha, hs.called, hs.flag, hs.waited, hs.rounds⟩
  | @work b inner hpc hwait hstep =>
    refine ⟨halive hstep ha, hs.called, hs.flag, ?_, hs.rounds⟩
    simp only [hs.waited, Bool.false_or]
    rw [← Bool.not_eq_true, Bool.and_eq_true, decide_eq_true_eq]
    exact fun hcalled => hwait ⟨hcalled.2, hs.flag hcalled.1 hpc⟩
  | throws => exact absurd ha id
  | cleanUp hpc =>
    exact ⟨(hL.dead_cleanUp _).trans hs.alive, hs.called, fun _ => nofun, hs.waited, hs.rounds⟩

theorem spent_of_not_clear {a : IntAct α} (hs : Unspent L s) (ha : ¬ Clear L s a)
    (h : intStep L s a = some s') : Spent L s' := by
  cases intStepped_of_step h with
  | interrupt | leaves | enters | cleanUp => exact absurd trivial ha
  | other hkind hstep => exact absurd hkind (hL.not_other (not_not.mp ha))
  | work hpc hwait hstep => exact ⟨hpc, Or.inl ((hL.dead_iff hstep).mpr (Or.inr (not_not.mp ha)))⟩
  | throws hpc hflag hthrown => exact ⟨hpc, Or.inr ⟨hs.called hflag, rfl⟩⟩

theorem spent_step {a : IntAct α} (hs : Spent L s) (ha : Once s a)
    (h : intStep L s a = some s') : Spent L s' := by
  have hdead : ∀ {b : α} {inner : σ}, L.step s.inner b = some inner → L.dead s.inner = true →
      L.dead inner = true := fun hstep hd => (hL.dead_iff hstep).mpr (Or.inl hd)
  cases intStepped_of_step h with
  | interrupt =>
    refine ⟨hs.pc, hs.spent.imp_right fun hcalled => ?_⟩
    exact absurd hcalled.1 (Bool.eq_false_iff.mp ha)
  | leaves hpc hhead hflag =>
    rcases hs.spent with hd | hcalled
    · exact absurd hd (Bool.eq_false_iff.mp (hL.not_dead hhead))
    · exact absurd hflag (Bool.eq_false_iff.mp hcalled.2)
  | enters hpc hhead hflag => exact ⟨hpc, hs.spent⟩
  | other hkind hstep => exact ⟨hs.pc, hs.spent.imp_left (hdead hstep)⟩
  | work hpc hwait hstep => exact ⟨hpc, hs.spent.imp_left (hdead hstep)⟩
  | throws hpc hflag hthrown =>
    refine ⟨hpc, Or.inl ?_⟩
    rw [hL.dead_thrown hthrown]
    exact hs.spent.resolve_right fun hcalled => absurd hflag (Bool.eq_false_iff.mp hcalled.2)
  | cleanUp hpc => exact absurd (hs.pc.symm.trans hpc) nofun

omit hL

theorem stops_of_unspent (hs : Unspent L s) : s.Stops L := by
  refine fun hcalled => ⟨hs.waited, hs.rounds, ?_⟩
  intro hsettled
  rcases hsettled with hended | ⟨hpc, hdead | hwaiting⟩
  · exact hended
  · exact absurd hdead (Bool.eq_false_iff.mp hs.alive)
  · exact absurd (hs.flag hcalled hpc) (Bool.eq_false_iff.mp hwaiting.2)

theorem unspent_start {s₀ : σ} (h₀ : L.dead s₀ = false) : Unspent L (.start s₀) :=
  ⟨h₀, nofun, nofun, rfl, rfl⟩

end Step

section Runs

variable {L}

/-- However often `interrupt()` is called: if nothing else clears the flag, the worker stops. -/
theorem stops_of_clear (hL : L.Lawful) {s₀ : σ} (h₀ : L.dead s₀ = false) (acts : List (IntAct α))
    {s : Interruptible σ} (hrun : run (intStep L) (.start s₀) acts = some s)
    (hclear : Guarded (intStep L) (Clear L) (.start s₀) acts) : s.Stops L :=
  stops_of_unspent (inv_run_guarded (fun _ _ _ => unspent_step hL) acts (unspent_start h₀) hclear hrun)

/-- One call of `interrupt()`: a worker that has come to rest has stopped exactly if nothing else
has cleared the flag. -/
theorem stops_iff_clear (hL : L.Lawful) {s₀ : σ} (h₀ : L.dead s₀ = false) (acts : List (IntAct α))
    {s : Interruptible σ} (hrun : run (intStep L) (.start s₀) acts = some s)
    (honce : Guarded (intStep L) Once (.start s₀) acts) (hcalled : s.called = true)
    (hsettled : s.Settled L) : s.Stops L ↔ Guarded (intStep L) (Clear L) (.start s₀) acts := by
  rcases good_or_bad_of (fun _ _ _ hs _ => unspent_step hL hs)
    (fun _ _ _ hs _ => spent_of_not_clear hL hs) (fun _ _ _ => spent_step hL) acts
    (unspent_start h₀) honce hrun with ⟨hclear, hend⟩ | ⟨hclear, hend⟩
  · exact iff_of_true (stops_of_unspent hend) hclear
  · refine iff_of_false (fun hstops => ?_) hclear
    exact absurd (hend.pc.symm.trans ((hstops hcalled).2.2 hsettled)) nofun

end Runs

end Interrupt
