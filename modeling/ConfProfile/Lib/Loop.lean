import Mathlib.Order.Basic

/-!
# Loops

`while(!done) body` over states `σ`: where the loop ends (`EndsIn`), and the states at the
head of its turns (`Visits`). A loop that never ends is one that `EndsIn` has no state for;
`not_endsIn` shows it from what each turn keeps.
-/

namespace Loop

variable {σ : Type*} (body : σ → σ) (done : σ → Prop)

/-- The loop that is started in `s` ends in `t`. -/
inductive EndsIn : σ → σ → Prop
  | stop {s : σ} (h : done s) : EndsIn s s
  | turn {s t : σ} (h : ¬ done s) (hrest : EndsIn (body s) t) : EndsIn s t

/-- The loop that is started in `s` comes to the head of a turn in `t`. -/
inductive Visits (s : σ) : σ → Prop
  | start : Visits s s
  | turn {t : σ} (h : Visits s t) (hmore : ¬ done t) : Visits s (body t)

variable {body done} {s t : σ}

theorem EndsIn.done_of (h : EndsIn body done s t) : done t := by
  induction h with
  | stop h => exact h
  | turn _ _ ih => exact ih

/-- A loop ends in one state. -/
theorem EndsIn.unique {t' : σ} (h : EndsIn body done s t) (h' : EndsIn body done s t') :
    t = t' := by
  induction h with
  | stop h =>
    cases h' with
    | stop => rfl
    | turn hmore => exact absurd h hmore
  | turn hmore _ ih =>
    cases h' with
    | stop h => exact absurd h hmore
    | turn _ hrest => exact ih hrest

/-- A loop does not end where every turn keeps it from being done. -/
theorem not_endsIn {I : σ → Prop} (hI : ∀ s, I s → ¬ done s ∧ I (body s)) (hs : I s) :
    ¬ EndsIn body done s t := by
  intro h
  induction h with
  | stop h => exact (hI _ hs).1 h
  | turn _ _ ih => exact ih (hI _ hs).2

/-- What each turn keeps holds at the head of every turn. -/
theorem Visits.inv {I : σ → Prop} (hI : ∀ s, ¬ done s → I s → I (body s)) (hs : I s)
    (h : Visits body done s t) : I t := by
  induction h with
  | start => exact hs
  | turn _ hmore ih => exact hI _ hmore ih

/-- The turns behind the first. -/
theorem Visits.of_turn (hmore : ¬ done s) (h : Visits body done (body s) t) :
    Visits body done s t := by
  induction h with
  | start => exact .turn .start hmore
  | turn _ hmore ih => exact ih.turn hmore

end Loop
