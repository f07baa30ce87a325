import Mathlib.Data.List.Basic

/-!
# Nested transactions

A session of a database in which transactions are begun inside one another. What is written in
them can be seen outside once the outermost one has ended, and only if each of them was marked
as successful before its end.

`Session.Inside s s'` is what the rules keep of a session while a transaction is open: the same
transactions are open, and outside it nothing has changed.
-/

namespace Transactions

variable {σ E : Type*}

/-- The exceptions of the engine at `BEGIN` and at `COMMIT`. -/
structure Engine (σ E : Type*) where
  begins : σ → Option E
  commits : σ → Option E

structure Session (σ : Type*) where
  /-- what can be seen outside -/
  committed : σ
  working : σ
  /-- the open transactions from the innermost on, and which are marked as successful -/
  marks : List Bool
  /-- a transaction inside the open ones has ended without its mark -/
  childFailed : Bool

/-- No transaction is open. -/
def Session.idle (state : σ) : Session σ := ⟨state, state, [], false⟩

def Session.beginTransaction (engine : Engine σ E) (s : Session σ) : Option E × Session σ :=
  match s.marks with
  | [] =>
    match engine.begins s.committed with
    | some e => (some e, s)
    | none => (none, { s with marks := [false], childFailed := false })
  | _ :: _ => (none, { s with marks := false :: s.marks })

def Session.setTransactionSuccessful (s : Session σ) : Session σ :=
  { s with marks := true :: s.marks.tail }

def Session.endTransaction (engine : Engine σ E) (s : Session σ) : Option E × Session σ :=
  match s.marks with
  | [] => (none, s)
  | [mark] =>
    if mark = true ∧ s.childFailed = false then
      match engine.commits s.working with
      | some e => (some e, idle s.committed)
      | none => (none, idle s.working)
    else (none, idle s.committed)
  | mark :: outer => (none, { s with marks := outer, childFailed := s.childFailed || !mark })

/-- The state behind a statement. Without a transaction it is committed. -/
def Session.write (s : Session σ) (state : σ) : Session σ :=
  { s with working := state, committed := if s.marks = [] then state else s.committed }

/-- Behind work in an open transaction. -/
structure Session.Inside (s s' : Session σ) : Prop where
  open_ : s.marks ≠ []
  marks : s'.marks = s.marks
  committed : s'.committed = s.committed

variable {engine : Engine σ E} {s s' s'' : Session σ} {state : σ}

theorem Session.Inside.refl (h : s.marks ≠ []) : s.Inside s := ⟨h, rfl, rfl⟩

theorem Session.Inside.trans (h : s.Inside s') (h' : s'.Inside s'') : s.Inside s'' :=
  ⟨h.open_, h'.marks.trans h.marks, h'.committed.trans h.committed⟩

theorem Session.inside_write (h : s.marks ≠ []) : s.Inside (s.write state) :=
  ⟨h, rfl, if_neg h⟩

/-- The outermost transaction is begun. -/
theorem beginTransaction_idle : (Session.idle state).beginTransaction engine =
    match engine.begins state with
    | some e => (some e, .idle state)
    | none => (none, ⟨state, state, [false], false⟩) := rfl

/-- A transaction is begun in another one. -/
theorem beginTransaction_inside (h : s.marks ≠ []) :
    s.beginTransaction engine = (none, { s with marks := false :: s.marks }) := by
  obtain ⟨mark, outer, hmarks⟩ := List.exists_cons_of_ne_nil h
  unfold Session.beginTransaction
  simp only [hmarks]

/-- A transaction in another one ends. -/
theorem endTransaction_inside {mark : Bool} {outer : List Bool} (hmarks : s.marks = mark :: outer)
    (houter : outer ≠ []) : s.endTransaction engine =
      (none, { s with marks := outer, childFailed := s.childFailed || !mark }) := by
  obtain ⟨mark', outer', rfl⟩ := List.exists_cons_of_ne_nil houter
  unfold Session.endTransaction
  simp only [hmarks]

/-- The outermost transaction ends without its mark. -/
theorem endTransaction_unmarked (hmarks : s.marks = [false]) :
    s.endTransaction engine = (none, .idle s.committed) := by
  unfold Session.endTransaction
  simp only [hmarks, Bool.false_eq_true, false_and, if_false]

/-- The outermost transaction is marked and ends, and every one inside it was marked. -/
theorem endTransaction_successful {mark : Bool} (hmarks : s.marks = [mark])
    (hchild : s.childFailed = false) : s.setTransactionSuccessful.endTransaction engine =
      match engine.commits s.working with
      | some e => (some e, .idle s.committed)
      | none => (none, .idle s.working) := by
  unfold Session.setTransactionSuccessful Session.endTransaction
  simp only [hmarks, hchild, List.tail_cons, and_self, if_true]

end Transactions
