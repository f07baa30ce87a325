import Mathlib.Data.List.Basic

/-!
# Runs of a partial step function

A system is a step function `step : σ → α → Option σ`: `none` means that the
action does not return from that state (it is not enabled, it spins for ever,
it is refused). A *run* is a list of actions performed one after the other.

Three ways of speaking about a run are used throughout:

* `run step s as` — the state after the actions, if every one of them returns;
* `Along step q s as` — every step that the run takes satisfies `q` of the
  state before, the action and the state after;
* `Guarded step g s as` — every action that the run comes to meets `g` in the
  state before it, whether it returns or not.

The rules then are the usual ones: an invariant kept by every step holds after
the run (`inv_run`), an invariant kept by every step *that meets a condition*
holds along every run whose steps meet it (`along_of_cond`), and when one step
keeps the property exactly if it meets the condition, the property holds along
a run exactly if every step of the run does (`along_iff_cond`).
-/

namespace Run

variable {σ α : Type*} (step : σ → α → Option σ)

/-- The state after the actions, `none` as soon as one of them does not return. -/
def run : σ → List α → Option σ
  | s, [] => some s
  | s, a :: as => (step s a).bind fun s' => run s' as

/-- Every step the run takes is related by `q`. Nothing is asked of the actions
behind one that does not return. -/
def Along (q : σ → α → σ → Prop) : σ → List α → Prop
  | _, [] => True
  | s, a :: as => ∀ s', step s a = some s' → q s a s' ∧ Along q s' as

/-- Every action the run comes to is performed in a state that meets `g`. -/
def Guarded (g : σ → α → Prop) : σ → List α → Prop
  | _, [] => True
  | s, a :: as => g s a ∧ ∀ s', step s a = some s' → Guarded g s' as

variable {step}

@[simp] theorem along_nil (q : σ → α → σ → Prop) (s : σ) : Along step q s [] := trivial

/-- A step that is known, and what follows it. -/
theorem along_cons {q : σ → α → σ → Prop} {s s' : σ} {a : α} {as : List α}
    (h : step s a = some s') (hq : q s a s') (hrest : Along step q s' as) :
    Along step q s (a :: as) := by
  intro t ht
  obtain rfl := Option.some.inj (h.symm.trans ht)
  exact ⟨hq, hrest⟩

/-- An action that is performed in a state that meets the guard, and what follows it. -/
theorem guarded_cons {g : σ → α → Prop} {s s' : σ} {a : α} {as : List α}
    (h : step s a = some s') (hg : g s a) (hrest : Guarded step g s' as) :
    Guarded step g s (a :: as) := by
  refine ⟨hg, fun t ht => ?_⟩
  obtain rfl := Option.some.inj (h.symm.trans ht)
  exact hrest

/-- A run of a first action and the rest. -/
theorem run_cons_some {s s'' : σ} {a : α} {as : List α} (h : run step s (a :: as) = some s'') :
    ∃ s', step s a = some s' ∧ run step s' as = some s'' := by
  cases hs : step s a with
  | none => simp [run, hs] at h
  | some s' => exact ⟨s', rfl, by simpa [run, hs] using h⟩

/-- A run can be checked against a guard. -/
instance decidableGuarded {g : σ → α → Prop} [∀ s a, Decidable (g s a)] :
    ∀ (s : σ) (as : List α), Decidable (Guarded step g s as)
  | _, [] => isTrue trivial
  | s, a :: as =>
    match h : step s a with
    | none =>
      decidable_of_iff (g s a) ⟨fun hg => ⟨hg, fun _ hs' => nomatch h.symm.trans hs'⟩, And.left⟩
    | some s' =>
      have : Decidable (Guarded step g s' as) := decidableGuarded s' as
      decidable_of_iff (g s a ∧ Guarded step g s' as)
        ⟨fun hg => ⟨hg.1, fun _ ht => Option.some.inj (h.symm.trans ht) ▸ hg.2⟩,
          fun hg => ⟨hg.1, hg.2 s' h⟩⟩

/-- A run is its first part and what goes on from there. -/
theorem run_append_eq (s : σ) (as bs : List α) :
    run step s (as ++ bs) = (run step s as).bind fun t => run step t bs := by
  induction as generalizing s with
  | nil => rfl
  | cons a as ih =>
    rw [List.cons_append, run, run, Option.bind_assoc]
    exact congrArg _ (funext fun t => ih t)

/-- A run that goes on where another one ends. -/
theorem run_append {as bs : List α} : ∀ {s s' s'' : σ}, run step s as = some s' →
    run step s' bs = some s'' → run step s (as ++ bs) = some s'' := by
  induction as with
  | nil =>
    intro s s' s'' h h'
    obtain rfl : s = s' := Option.some.inj h
    exact h'
  | cons a as ih =>
    intro s s' s'' h h'
    obtain ⟨s₁, hstep, hrest⟩ := run_cons_some h
    have hrun := ih hrest h'
    simpa [run, hstep] using hrun

/-- A property kept by every step whose action meets `g` holds after every run of
such actions. -/
theorem inv_run_of {I : σ → Prop} {g : α → Prop}
    (hI : ∀ s a s', g a → I s → step s a = some s' → I s') :
    ∀ (as : List α) {s s' : σ}, (∀ a ∈ as, g a) → I s → run step s as = some s' → I s' := by
  intro as
  induction as with
  | nil =>
    intro s s' _ hs h
    obtain rfl : s = s' := Option.some.inj h
    exact hs
  | cons a as ih =>
    intro s s'' hg hs h
    obtain ⟨s', h₁, h₂⟩ := run_cons_some h
    exact ih (fun b hb => hg b (List.mem_cons_of_mem _ hb))
      (hI s a s' (hg a List.mem_cons_self) hs h₁) h₂

/-- A property kept by every step holds after every run. -/
theorem inv_run {I : σ → Prop} (hI : ∀ s a s', I s → step s a = some s' → I s') (as : List α)
    {s s' : σ} (hs : I s) (h : run step s as = some s') : I s' :=
  inv_run_of (g := fun _ => True) (fun s a s' _ => hI s a s') as (fun _ _ => trivial) hs h

/-- A guard that the actions meet in every state. -/
theorem guarded_of_mem {g : σ → α → Prop} (s : σ) (as : List α) (h : ∀ a ∈ as, ∀ s, g s a) :
    Guarded step g s as := by
  induction as generalizing s with
  | nil => trivial
  | cons a as ih =>
    exact ⟨h a List.mem_cons_self s, fun s' _ => ih s' fun b hb => h b (List.mem_cons_of_mem _ hb)⟩

/-- A guard on the actions alone. -/
theorem guarded_of_forall {g : α → Prop} (s : σ) (as : List α) (h : ∀ a ∈ as, g a) :
    Guarded step (fun _ a => g a) s as :=
  guarded_of_mem s as fun a ha _ => h a ha

theorem guarded_true (s : σ) (as : List α) : Guarded step (fun _ _ => True) s as :=
  guarded_of_forall s as fun _ _ => trivial

/-- Where an invariant and the guard make two step facts the same, a run along
one is a run along the other. -/
theorem along_congr {I : σ → Prop} {g : σ → α → Prop} {q r : σ → α → σ → Prop}
    (hI : ∀ s a s', I s → g s a → step s a = some s' → I s')
    (h : ∀ s a s', I s → g s a → step s a = some s' → (q s a s' ↔ r s a s')) :
    ∀ (as : List α) {s : σ}, I s → Guarded step g s as →
      (Along step q s as ↔ Along step r s as) := by
  intro as
  induction as with
  | nil => intro s _ _; exact Iff.rfl
  | cons a as ih =>
    intro s hs hg
    refine forall_congr' fun s' => forall_congr' fun hs' => ?_
    exact and_congr (h s a s' hs hg.1 hs') (ih (hI s a s' hs hg.1 hs') (hg.2 s' hs'))

/-- A weaker property of the steps. -/
theorem along_mono {q r : σ → α → σ → Prop} (h : ∀ s a s', q s a s' → r s a s') :
    ∀ (as : List α) {s : σ}, Along step q s as → Along step r s as := by
  intro as
  induction as with
  | nil => intro s _; trivial
  | cons a as ih =>
    intro s hq s' hs'
    exact ⟨h s a s' (hq s' hs').1, ih (hq s' hs').2⟩

/-- A property that every step meeting `c` keeps holds in every state of a run
whose steps all meet `c`. -/
theorem along_of_cond {P : σ → Prop} {c : σ → α → Prop}
    (h : ∀ s a s', P s → c s a → step s a = some s' → P s') :
    ∀ (as : List α) {s : σ}, P s → Along step (fun s a _ => c s a) s as →
      Along step (fun _ _ s' => P s') s as := by
  intro as
  induction as with
  | nil => intro s _ _; trivial
  | cons a as ih =>
    intro s hs hc s' hs'
    have hP : P s' := h s a s' hs (hc s' hs').1 hs'
    exact ⟨hP, ih hP (hc s' hs').2⟩

/-- Where an action that does not meet the guard returns, a guarded run is one whose
steps meet the guard. -/
theorem guarded_iff_along {I : σ → Prop} {g : σ → α → Prop}
    (hI : ∀ s a s', I s → step s a = some s' → I s')
    (h : ∀ s a, I s → ¬ g s a → (step s a).isSome) :
    ∀ (as : List α) {s : σ}, I s →
      (Guarded step g s as ↔ Along step (fun s a _ => g s a) s as) := by
  intro as
  induction as with
  | nil => intro s _; exact Iff.rfl
  | cons a as ih =>
    intro s hs
    refine ⟨?_, ?_⟩
    · intro hg s' hs'
      exact ⟨hg.1, (ih (hI s a s' hs hs')).mp (hg.2 s' hs')⟩
    · intro hrun
      refine ⟨?_, fun s' hs' => (ih (hI s a s' hs hs')).mpr (hrun s' hs').2⟩
      by_contra hg
      obtain ⟨s', hs'⟩ := Option.isSome_iff_exists.mp (h s a hs hg)
      exact hg (hrun s' hs').1

/-- Where every step that meets the guard from a good state does what it should and
leads to a good state, a guarded run does. -/
theorem along_of_guarded {P : σ → Prop} {g : σ → α → Prop} {q : σ → α → σ → Prop}
    (h : ∀ s a s', P s → g s a → step s a = some s' → P s' ∧ q s a s') :
    ∀ (as : List α) {s : σ}, P s → Guarded step g s as → Along step q s as := by
  intro as
  induction as with
  | nil => intro s _ _; trivial
  | cons a as ih =>
    intro s hs hg s' hs'
    obtain ⟨hP, hq⟩ := h s a s' hs hg.1 hs'
    exact ⟨hq, ih hP (hg.2 s' hs')⟩

/-- What every step related by `q` keeps holds at the end of a run along `q`. -/
theorem inv_run_along {I : σ → Prop} {q : σ → α → σ → Prop}
    (hI : ∀ s a s', I s → q s a s' → step s a = some s' → I s') :
    ∀ (as : List α) {s s' : σ}, I s → Along step q s as → run step s as = some s' → I s' := by
  intro as
  induction as with
  | nil =>
    intro s s' hs _ h
    obtain rfl : s = s' := Option.some.inj h
    exact hs
  | cons a as ih =>
    intro s s'' hs hq h
    obtain ⟨s', h₁, h₂⟩ := run_cons_some h
    exact ih (hI s a s' hs (hq s' h₁).1 h₁) (hq s' h₁).2 h₂

/-- What every step that meets the guard keeps holds at the end of a guarded run. -/
theorem inv_run_guarded {I : σ → Prop} {g : σ → α → Prop}
    (hI : ∀ s a s', I s → g s a → step s a = some s' → I s') (as : List α) {s s' : σ}
    (hs : I s) (hg : Guarded step g s as) (h : run step s as = some s') : I s' := by
  have halong : Along step (fun s a _ => g s a) s as :=
    along_of_guarded (P := fun _ => True) (fun _ _ _ _ hg _ => ⟨trivial, hg⟩) as trivial hg
  exact inv_run_along hI as hs halong h

/-- Where the guard keeps a state good, and an action without it makes it bad for ever, a
run ends in a good state if it is guarded, and in a bad one if it is not. What the steps do may
depend on `k`, which every action of the run meets. -/
theorem good_or_bad_of {G B : σ → Prop} {g k : σ → α → Prop}
    (hgood : ∀ s a s', G s → k s a → g s a → step s a = some s' → G s')
    (hbad : ∀ s a s', G s → k s a → ¬ g s a → step s a = some s' → B s')
    (hstay : ∀ s a s', B s → k s a → step s a = some s' → B s') :
    ∀ (as : List α) {s s' : σ}, G s → Guarded step k s as → run step s as = some s' →
      Guarded step g s as ∧ G s' ∨ ¬ Guarded step g s as ∧ B s' := by
  intro as
  induction as with
  | nil =>
    intro s s' hs _ h
    obtain rfl : s = s' := Option.some.inj h
    exact Or.inl ⟨trivial, hs⟩
  | cons a as ih =>
    intro s s'' hs hk h
    obtain ⟨s', h₁, h₂⟩ := run_cons_some h
    have hk' := hk.2 s' h₁
    by_cases hg : g s a
    · refine (ih (hgood s a s' hs hk.1 hg h₁) hk' h₂).imp ?_ ?_
      · rintro ⟨hrest, hend⟩
        refine ⟨⟨hg, fun t ht => ?_⟩, hend⟩
        obtain rfl := Option.some.inj (h₁.symm.trans ht)
        exact hrest
      · rintro ⟨hrest, hend⟩
        exact ⟨fun hall => hrest (hall.2 s' h₁), hend⟩
    · have hB := hbad s a s' hs hk.1 hg h₁
      exact Or.inr ⟨fun hall => hg hall.1, inv_run_guarded hstay as hB hk' h₂⟩

theorem good_or_bad {G B : σ → Prop} {g : σ → α → Prop}
    (hgood : ∀ s a s', G s → g s a → step s a = some s' → G s')
    (hbad : ∀ s a s', G s → ¬ g s a → step s a = some s' → B s')
    (hstay : ∀ s a s', B s → step s a = some s' → B s')
    (as : List α) {s s' : σ} (hs : G s) (h : run step s as = some s') :
    Guarded step g s as ∧ G s' ∨ ¬ Guarded step g s as ∧ B s' :=
  good_or_bad_of (fun s a s' hs _ => hgood s a s' hs) (fun s a s' hs _ => hbad s a s' hs)
    (fun s a s' hs _ => hstay s a s' hs) as hs (guarded_true s as) h

/-- So a property that tells good ends from bad ones holds exactly if the run is guarded. -/
theorem end_iff_guarded {G B Q : σ → Prop} {g : σ → α → Prop}
    (hgood : ∀ s a s', G s → g s a → step s a = some s' → G s')
    (hbad : ∀ s a s', G s → ¬ g s a → step s a = some s' → B s')
    (hstay : ∀ s a s', B s → step s a = some s' → B s')
    (as : List α) {s s' : σ} (hs : G s) (h : run step s as = some s')
    (hG : G s' → Q s') (hB : B s' → ¬ Q s') : Q s' ↔ Guarded step g s as := by
  rcases good_or_bad hgood hbad hstay as hs h with ⟨hguard, hend⟩ | ⟨hguard, hend⟩
  · exact iff_of_true (hG hend) hguard
  · exact iff_of_false (hB hend) hguard

/-- When a step from a good state does what it should (`q`, which includes
leading to a good state) exactly if it meets `c`, a run does what it should
exactly if all of its steps meet `c`. -/
theorem along_iff_cond {I P : σ → Prop} {q c : σ → α → σ → Prop}
    (hI : ∀ s a s', I s → step s a = some s' → I s')
    (hq : ∀ s a s', q s a s' → P s')
    (h : ∀ s a s', I s → P s → step s a = some s' → (q s a s' ↔ c s a s')) :
    ∀ (as : List α) {s : σ}, I s → P s → (Along step q s as ↔ Along step c s as) := by
  intro as
  induction as with
  | nil => intro s _ _; exact Iff.rfl
  | cons a as ih =>
    intro s hs hP
    refine ⟨?_, ?_⟩
    · intro hrun s' hs'
      obtain ⟨hqs, hrest⟩ := hrun s' hs'
      exact ⟨(h s a s' hs hP hs').mp hqs, (ih (hI s a s' hs hs') (hq s a s' hqs)).mp hrest⟩
    · intro hrun s' hs'
      obtain ⟨hc, hrest⟩ := hrun s' hs'
      have hqs : q s a s' := (h s a s' hs hP hs').mpr hc
      exact ⟨hqs, (ih (hI s a s' hs hs') (hq s a s' hqs)).mpr hrest⟩

/-! ## What a part of a system comes to on its own

If only actions in `A` are performed from `s` on, a state in `P` is reached, whichever
of them they are: there is no way to go on for ever without `P`, and no state before `P`
where none of them returns. -/

section Inevitably

variable (step) (A : α → Prop)

/-- Every run of actions in `A` comes to a state in `P`. -/
inductive Inevitably (P : σ → Prop) : σ → Prop
  | here {s : σ} (h : P s) : Inevitably P s
  | next {s : σ} (hcan : ∃ a s', A a ∧ step s a = some s')
      (h : ∀ a s', A a → step s a = some s' → Inevitably P s') : Inevitably P s

variable {step A} {P : σ → Prop}

/-- From states before `P` that can be kept, or where nothing can be performed, `P` is
not inevitable. -/
theorem not_inevitably {T : σ → Prop} (hT : ∀ s, T s → ¬ P s ∧
      ((∃ a s', A a ∧ step s a = some s' ∧ T s') ∨ ∀ a s', A a → step s a ≠ some s'))
    {s : σ} (hs : T s) : ¬ Inevitably step A P s := by
  intro h
  induction h with
  | here hP => exact (hT _ hs).1 hP
  | next hcan _ ih =>
    rcases (hT _ hs).2 with ⟨a, s', ha, hstep, hs'⟩ | hnone
    · exact ih a s' ha hstep hs'
    · obtain ⟨a, s', ha, hstep⟩ := hcan
      exact hnone a s' ha hstep

end Inevitably

end Run
