import Mathlib.Data.List.Basic

/-!
# Readers of a token stream

A reader takes tokens off the front of a stream. It gives a value, or it stops
without one: it throws, or it has used up its fuel. A reader that runs out of
every fuel goes on for ever.

`Gives p s a s'` says that `p`, started on the stream `s`, gives `a` and leaves
`s'`. What a reader gives is read off from its text: the lemmas `gives_…` are
equivalences, one for each way of putting readers together, so that they serve
to show that something is read back and to take apart what has been read.

`Does o p s s'` says how a reader with fuel ends for good: `o` is what stops it, and
if nothing does it leaves `s'`. Readers one after the other do the first of what they
do (`Does.bind`).
-/

namespace Tokens

variable {τ α β : Type}

/-- Why a reader gives nothing. -/
inductive Stop where
  | thrown
  | fuel
  deriving DecidableEq, Repr

/-- A reader of tokens of type `τ`. -/
abbrev Reader (τ α : Type) := StateT (List τ) (Except Stop) α

/-- The next token, which stays there; `none` at the end. -/
def peek : Reader τ (Option τ) := fun s => .ok (s.head?, s)

/-- Takes the next token. -/
def next : Reader τ τ := fun s =>
  match s with
  | [] => .error .thrown
  | t :: s => .ok (t, s)

/-- Takes the next token, which has to be `t`. -/
def expect [DecidableEq τ] (t : τ) : Reader τ Unit := do
  if (← next) = t then pure () else throw .thrown

/-- What `f` makes of a value; throws where it makes nothing of it. -/
def ofOption : Option α → Reader τ α
  | some a => pure a
  | none => throw .thrown

/-- All of the stream has to be taken. -/
def whole [DecidableEq τ] (p : Reader τ α) : Reader τ α := do
  let a ← p
  if (← peek) = none then pure a else throw .thrown

/-- `p` gives `a` and leaves `s'`. -/
def Gives (p : Reader τ α) (s : List τ) (a : α) (s' : List τ) : Prop := p s = .ok (a, s')

/-- What `p` gives on a whole stream. -/
def result (p : Reader τ α) (s : List τ) : Except Stop α := (p s).map Prod.fst

variable {p : Reader τ α} {f : α → Reader τ β} {s s' : List τ} {a : α} {b : β} {t : τ}

/-- A reader gives one thing at most. -/
theorem Gives.unique {a' : α} {s'' : List τ} (h : Gives p s a s') (h' : Gives p s a' s'') :
    a' = a ∧ s'' = s' := by
  have heq : Except.ok (a', s'') = Except.ok (a, s') := h'.symm.trans h
  exact Prod.mk.inj (Except.ok.inj heq)

theorem result_eq_ok : result p s = .ok a ↔ ∃ s', Gives p s a s' := by
  unfold result Gives
  cases p s with
  | error e => exact ⟨nofun, nofun⟩
  | ok r =>
    constructor
    · intro h
      exact ⟨r.2, by rw [← Except.ok.inj h]⟩
    · intro h'
      obtain ⟨s', h⟩ := h'
      rw [Except.ok.inj h]
      rfl

@[simp] theorem gives_pure {a' : α} : Gives (pure a : Reader τ α) s a' s' ↔ a' = a ∧ s' = s := by
  constructor
  · intro h
    obtain ⟨rfl, rfl⟩ := Prod.mk.inj (Except.ok.inj h)
    exact ⟨rfl, rfl⟩
  · intro h'
    obtain ⟨rfl, rfl⟩ := h'
    rfl

@[simp] theorem gives_throw {e : Stop} : ¬ Gives (throw e : Reader τ α) s a s' := nofun

@[simp] theorem gives_bind :
    Gives (p >>= f) s b s' ↔ ∃ a s₁, Gives p s a s₁ ∧ Gives (f a) s₁ b s' := by
  have hbind : (p >>= f) s = (p s).bind fun r => f r.1 r.2 := rfl
  unfold Gives
  rw [hbind]
  cases hp : p s with
  | error e => exact ⟨nofun, by rintro ⟨a, s₁, h, -⟩; cases h⟩
  | ok r =>
    constructor
    · intro h
      exact ⟨r.1, r.2, rfl, h⟩
    · intro h'
      obtain ⟨a, s₁, h, hf⟩ := h'
      obtain rfl := Except.ok.inj h
      exact hf

/-- One reader after the other. -/
theorem Gives.bind {s₁ : List τ} (hp : Gives p s a s₁) (hf : Gives (f a) s₁ b s') :
    Gives (p >>= f) s b s' :=
  gives_bind.mpr ⟨a, s₁, hp, hf⟩

theorem Gives.pure (a : α) (s : List τ) : Gives (Pure.pure a : Reader τ α) s a s :=
  gives_pure.mpr ⟨rfl, rfl⟩

@[simp] theorem gives_peek {o : Option τ} : Gives peek s o s' ↔ o = s.head? ∧ s' = s := by
  constructor
  · intro h
    obtain ⟨rfl, rfl⟩ := Prod.mk.inj (Except.ok.inj h)
    exact ⟨rfl, rfl⟩
  · intro h'
    obtain ⟨rfl, rfl⟩ := h'
    rfl

@[simp] theorem gives_next : Gives next s t s' ↔ s = t :: s' := by
  cases s with
  | nil => exact ⟨nofun, nofun⟩
  | cons t₁ s₁ =>
    constructor
    · intro h
      obtain ⟨rfl, rfl⟩ := Prod.mk.inj (Except.ok.inj h)
      rfl
    · intro h
      obtain ⟨rfl, rfl⟩ := List.cons.inj h
      rfl

@[simp] theorem gives_expect [DecidableEq τ] {u : Unit} : Gives (expect t) s u s' ↔ s = t :: s' := by
  unfold expect
  rw [gives_bind]
  constructor
  · intro hex
    obtain ⟨t₁, s₁, h, h'⟩ := hex
    rw [gives_next] at h
    split at h'
    next heq =>
      obtain ⟨-, rfl⟩ := gives_pure.mp h'
      rw [h, heq]
    next => exact absurd h' gives_throw
  · intro heq'
    obtain rfl := heq'
    exact ⟨t, s', gives_next.mpr rfl, by rw [if_pos rfl]; exact gives_pure.mpr ⟨rfl, rfl⟩⟩

/-- The token that is expected is taken. -/
theorem Gives.expect [DecidableEq τ] (t : τ) (s : List τ) : Gives (Tokens.expect t) (t :: s) () s :=
  gives_expect.mpr rfl

@[simp] theorem gives_whole [DecidableEq τ] : Gives (whole p) s a s' ↔ Gives p s a [] ∧ s' = [] := by
  unfold whole
  rw [gives_bind]
  constructor
  · intro hex
    obtain ⟨a₁, s₁, h, h'⟩ := hex
    obtain ⟨o, s₂, ho, h'⟩ := gives_bind.mp h'
    obtain ⟨rfl, rfl⟩ := gives_peek.mp ho
    split at h'
    next hend =>
      obtain ⟨rfl, rfl⟩ := gives_pure.mp h'
      rw [List.head?_eq_none_iff] at hend
      subst hend
      exact ⟨h, rfl⟩
    next => exact absurd h' gives_throw
  · intro hex
    obtain ⟨h, rfl⟩ := hex
    exact ⟨a, [], h, (gives_peek.mpr ⟨rfl, rfl⟩).bind (Gives.pure a [])⟩

@[simp] theorem gives_ofOption {o : Option α} : Gives (ofOption o) s a s' ↔ o = some a ∧ s' = s := by
  cases o with
  | none => exact ⟨fun h => absurd h gives_throw, nofun⟩
  | some a' =>
    rw [ofOption, gives_pure, Option.some.injEq]
    exact and_congr_left fun _ => eq_comm

/-! ## Readers with fuel -/

/-- Some fuel is enough for the reader to come to its end. -/
def Terminates (p : Nat → Reader τ α) (s : List τ) : Prop := ∃ n, p n s ≠ .error .fuel

/-- From some fuel on the reader does `r`, and with less it runs out. It goes on for ever if `r`
is to run out. -/
def Settles (p : Nat → Reader τ α) (s : List τ) (r : Except Stop (α × List τ)) : Prop :=
  ∃ m, ∀ n, p n s = if m ≤ n then r else .error .fuel

/-- The reader is stopped by `o`; if nothing stops it, it gives something and leaves `s'`. -/
def Does (o : Option Stop) (p : Nat → Reader τ α) (s s' : List τ) : Prop :=
  match o with
  | none => ∃ a, Settles p s (.ok (a, s'))
  | some e => Settles p s (.error e)

/-- `q` does what `p` does wherever the fuel of `p` is enough. -/
def Refines (p q : Reader τ α) : Prop := ∀ s, p s ≠ .error .fuel → q s = p s

theorem bind_of_gives {s₁ : List τ} (h : Gives p s a s₁) : (p >>= f) s = f a s₁ := by
  have hbind : (p >>= f) s = (p s).bind fun r => f r.1 r.2 := rfl
  rw [hbind, h]
  rfl

theorem bind_of_error {e : Stop} (h : p s = .error e) : (p >>= f) s = .error e := by
  have hbind : (p >>= f) s = (p s).bind fun r => f r.1 r.2 := rfl
  rw [hbind, h]
  rfl

theorem terminates_of_bind (h : (p >>= f) s ≠ .error .fuel) : p s ≠ .error .fuel :=
  fun hp => h (bind_of_error hp)

theorem Refines.refl (p : Reader τ α) : Refines p p := fun _ _ => rfl

theorem Refines.trans {p q r : Reader τ α} (hpq : Refines p q) (hqr : Refines q r) :
    Refines p r := by
  intro s hs
  have heq := hpq s hs
  rw [hqr s (by rwa [heq]), heq]

theorem Refines.fuel {q : Reader τ α} : Refines (throw .fuel) q := fun _ h => absurd rfl h

theorem Refines.bind {q : Reader τ α} {g : α → Reader τ β} (hp : Refines p q)
    (hf : ∀ a, Refines (f a) (g a)) : Refines (p >>= f) (q >>= g) := by
  intro s hs
  have hps := hp s (terminates_of_bind hs)
  cases hr : p s with
  | error e => rw [bind_of_error hr, bind_of_error (hps.trans hr)]
  | ok r =>
    have hgives : Gives p s r.1 r.2 := hr
    rw [bind_of_gives hgives] at hs
    rw [bind_of_gives hgives, bind_of_gives (hps.trans hr)]
    exact hf r.1 r.2 hs

/-- If one more unit of fuel changes nothing, then no more fuel does. -/
theorem refines_of_le {p : Nat → Reader τ α} (h : ∀ n, Refines (p n) (p (n + 1))) {m n : Nat}
    (hmn : m ≤ n) : Refines (p m) (p n) := by
  induction hmn with
  | refl => exact Refines.refl _
  | step _ ih => exact ih.trans (h _)

/-- What a reader gives with some fuel it gives with any fuel that is enough. -/
theorem gives_of_gives {p : Nat → Reader τ α} (h : ∀ n, Refines (p n) (p (n + 1))) {m n : Nat}
    (hm : Gives (p m) s a s') (hn : p n s ≠ .error .fuel) : Gives (p n) s a s' := by
  have hm' : Gives (p (max m n)) s a s' := by
    rw [Gives, refines_of_le h (Nat.le_max_left m n) s (by rw [hm]; nofun)]
    exact hm
  rwa [Gives, refines_of_le h (Nat.le_max_right m n) s hn] at hm'

section Does

variable {o o' : Option Stop} {p q : Nat → Reader τ α} {f : α → Nat → Reader τ β} {s₁ : List τ}

theorem Settles.terminates_iff {r : Except Stop (α × List τ)} (h : Settles p s r) :
    Terminates p s ↔ r ≠ .error .fuel := by
  obtain ⟨m, hm⟩ := h
  constructor
  · intro hterm hr
    obtain ⟨n, hn⟩ := hterm
    rw [hm n, hr, ite_self] at hn
    exact hn rfl
  · intro hr
    refine ⟨m, ?_⟩
    rw [hm m, if_pos (Nat.le_refl m)]
    exact hr

theorem Does.terminates_iff (h : Does o p s s') : Terminates p s ↔ o ≠ some .fuel := by
  cases o with
  | none =>
    obtain ⟨a, ha⟩ := h
    exact iff_of_true (ha.terminates_iff.mpr nofun) nofun
  | some e =>
    rw [Settles.terminates_iff h, ne_eq, ne_eq, Except.error.injEq, Option.some.injEq]

/-- A reader that needs no fuel. -/
theorem Settles.const (p : Reader τ α) (s : List τ) : Settles (fun _ => p) s (p s) :=
  ⟨0, fun n => (if_pos (Nat.zero_le n)).symm⟩

theorem Does.of_gives {p : Reader τ α} (h : Gives p s a s') : Does none (fun _ => p) s s' :=
  ⟨a, h ▸ Settles.const p s⟩

theorem Does.of_throws (h : ∀ n, p n s = .error .thrown) : Does (some .thrown) p s s' :=
  ⟨0, fun n => (h n).trans (if_pos (Nat.zero_le n)).symm⟩

/-- The first reader stops, and so the second one does not start. -/
theorem Settles.bind_error {e : Stop} (h : Settles p s (.error e)) :
    Settles (fun n => p n >>= fun a => f a n) s (.error e) := by
  obtain ⟨m, hm⟩ := h
  refine ⟨m, fun n => ?_⟩
  show (p n >>= fun a => f a n) s = _
  have hn := hm n
  split at hn
  next hle => rw [bind_of_error hn, if_pos hle]
  next hlt => rw [bind_of_error hn, if_neg hlt]

theorem Settles.bind {r : Except Stop (β × List τ)} (h : Settles p s (.ok (a, s₁)))
    (hf : Settles (f a) s₁ r) : Settles (fun n => p n >>= fun a => f a n) s r := by
  obtain ⟨m, hm⟩ := h
  obtain ⟨m', hm'⟩ := hf
  refine ⟨max m m', fun n => ?_⟩
  show (p n >>= fun a => f a n) s = _
  have hn := hm n
  split at hn
  next hle =>
    rw [bind_of_gives hn, hm' n]
    exact if_congr (by omega) rfl rfl
  next hlt => rw [bind_of_error hn, if_neg (by omega)]

/-- What stops the first reader, or the second one behind it. -/
theorem Does.bind (hp : Does o p s s₁) (hf : ∀ a, Does o' (f a) s₁ s') :
    Does (o.or o') (fun n => p n >>= fun a => f a n) s s' := by
  cases o with
  | some e => exact Settles.bind_error hp
  | none =>
    obtain ⟨a, ha⟩ := hp
    cases o' with
    | none =>
      obtain ⟨b, hb⟩ := hf a
      exact ⟨b, ha.bind hb⟩
    | some e => exact ha.bind (hf a)

theorem Settles.succ {r : Except Stop (α × List τ)} (h : Settles p s r) (hzero : q 0 s' = .error .fuel)
    (hsucc : ∀ n, q (n + 1) s' = p n s) : Settles q s' r := by
  obtain ⟨m, hm⟩ := h
  refine ⟨m + 1, fun n => ?_⟩
  cases n with
  | zero => rw [hzero, if_neg (by omega)]
  | succ n =>
    rw [hsucc n, hm n]
    exact if_congr (by omega) rfl rfl

/-- A reader that spends one unit of fuel on what it has in front of it. -/
theorem Does.succ {s'' : List τ} (h : Does o p s s'') (hzero : q 0 s' = .error .fuel)
    (hsucc : ∀ n, q (n + 1) s' = p n s) : Does o q s' s'' := by
  cases o with
  | none =>
    obtain ⟨a, ha⟩ := h
    exact ⟨a, ha.succ hzero hsucc⟩
  | some e => exact Settles.succ h hzero hsucc

end Does

end Tokens
