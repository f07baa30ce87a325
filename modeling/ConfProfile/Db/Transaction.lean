import ConfProfile.Lib.Transactions
import Mathlib.Logic.Function.Basic

/-!
# Requests and transactions (`no.infoss.confprofile.db`)

The requests `Insert`, `Update`, `Delete` and `Select`, and `Transaction`, which performs any
number of them, and transactions among them, between `beginTransaction` and `endTransaction`.
The database is a parameter: it answers each statement with an exception or a new state, and an
insert with a row id as well.

An exception of any request undoes all of them and is passed on. A row id of -1 is stored in
the `Insert`, and nobody looks at it: so a transaction is all or nothing exactly if something
throws or no insert is refused (`transaction_perform_iff`).
-/

namespace ConfProfile.Db

open Transactions

variable {σ V : Type}

/-- A `WHERE` expression: `getLiteral` and `getSelectionArgs`. -/
structure Where where
  literal : String
  selectionArgs : List String
  deriving DecidableEq, Repr

/-- `android.database.sqlite.SQLiteDatabase`: the exceptions of its calls and what they come
back with. -/
structure SQLiteDatabase (σ V : Type) extends Engine σ String where
  insert (table : Option String) (values : V) : σ → Except String (σ × Int)
  update (table : Option String) (values : V) (whereClause : Option String) (whereArgs : List String) :
    σ → Except String (σ × Int)
  delete (table : Option String) (whereClause : String) (whereArgs : List String) :
    σ → Except String (σ × Int)
  rawQuery (sql : String) (selectionArgs : List String) : σ → Except String Unit

inductive Kind (V : Type)
  | insert (values : V)
  | update (values : V) (where_ : Option Where)
  | delete (where_ : Option Where)
  | select (where_ : Option Where)

/-- A request other than a transaction; `obj` is its address. -/
structure SqlRequest (V : Type) where
  obj : Nat
  mTableName : Option String
  kind : Kind V

inductive Request (V : Type)
  | sql (request : SqlRequest V)
  | transaction (mRequests : List (Request V))

/-- The fields of a request that `perform` writes. -/
structure RequestFields where
  mIsAlreadyPerformed : Bool := false
  mRowId : Int := -1
  mRowsCount : Int := -1
  deriving DecidableEq, Repr

/-- `mSelectionArgs`. -/
def selectionArgs (where_ : Option Where) : List String := where_.elim [] Where.selectionArgs

/-- `Select.buildQuery`. A null table is formatted as such. -/
def Select.buildQuery (table : Option String) (where_ : Option Where) : String :=
  "SELECT * FROM " ++ table.getD "null" ++ " WHERE " ++ where_.elim "1" Where.literal

/-- `perform` of the four classes: the state of the database and the fields behind it. -/
def SqlRequest.call (db : SQLiteDatabase σ V) (r : SqlRequest V) (state : σ) (f : RequestFields) :
    Except String (σ × RequestFields) :=
  if f.mIsAlreadyPerformed then .error "This request was already performed"
  else
    match r.kind with
    | .insert values => do
      -- the row id is stored, -1 as well
      let (state, rowId) ← db.insert r.mTableName values state
      return (state, { f with mRowId := rowId, mIsAlreadyPerformed := true })
    | .update values where_ => do
      let (state, rows) ← db.update r.mTableName values (where_.map Where.literal)
        (selectionArgs where_) state
      return (state, { f with mRowsCount := rows })
    | .delete where_ => do
      let (state, rows) ← db.delete r.mTableName (where_.elim "1" Where.literal)
        (selectionArgs where_) state
      return (state, { f with mRowsCount := rows })
    | .select where_ => do
      db.rawQuery (Select.buildQuery r.mTableName where_) (selectionArgs where_) state
      return (state, f)

/-- A session, and the fields of the requests by their address. -/
structure DbState (σ : Type) where
  session : Session σ
  fields : Nat → RequestFields

mutual

/-- `Request.perform`: the exception, if there is one, and the state behind it. -/
def Request.perform (db : SQLiteDatabase σ V) : Request V → DbState σ → Option String × DbState σ
  | .sql r, s =>
    match r.call db s.session.working (s.fields r.obj) with
    | .error e => (some e, s)
    | .ok (state, f) => (none, ⟨s.session.write state, Function.update s.fields r.obj f⟩)
  | .transaction mRequests, s =>
    match s.session.beginTransaction db.toEngine with
    | (some e, session) => (some e, { s with session })
    | (none, session) =>
      match performAll db mRequests { s with session } with
      | (some e, s) =>
        -- `finally`: an exception of `endTransaction` takes the place of the other
        let (e', session) := s.session.endTransaction db.toEngine
        (some (e'.getD e), { s with session })
      | (none, s) =>
        let (e', session) := s.session.setTransactionSuccessful.endTransaction db.toEngine
        (e', { s with session })

/-- The loop of `Transaction.perform`. -/
def performAll (db : SQLiteDatabase σ V) : List (Request V) → DbState σ → Option String × DbState σ
  | [], s => (none, s)
  | r :: rs, s =>
    match r.perform db s with
    | (some e, s) => (some e, s)
    | (none, s) => performAll db rs s

end

mutual

/-- The statements of a request, in their order. -/
def Request.statements : Request V → List (SqlRequest V)
  | .sql r => [r]
  | .transaction mRequests => statementsOf mRequests

def statementsOf : List (Request V) → List (SqlRequest V)
  | [] => []
  | r :: rs => r.statements ++ statementsOf rs

end

/-! ## Statements one after the other -/

/-- The database without its transactions, and the fields of the requests. -/
structure World (σ : Type) where
  state : σ
  fields : Nat → RequestFields

/-- A statement on its own. -/
def SqlRequest.run (db : SQLiteDatabase σ V) (r : SqlRequest V) (w : World σ) :
    Except String (World σ) :=
  (r.call db w.state (w.fields r.obj)).map fun (state, f) =>
    ⟨state, Function.update w.fields r.obj f⟩

/-- The statements return, one after the other. -/
inductive Returns (db : SQLiteDatabase σ V) : World σ → List (SqlRequest V) → World σ → Prop
  | nil {w : World σ} : Returns db w [] w
  | cons {w w' w'' : World σ} {r : SqlRequest V} {rs : List (SqlRequest V)}
      (h : r.run db w = .ok w') (rest : Returns db w' rs w'') : Returns db w (r :: rs) w''

/-- A statement that comes behind others throws. -/
def StatementThrows (db : SQLiteDatabase σ V) (w : World σ) (rs : List (SqlRequest V)) : Prop :=
  ∃ before r after w' e, rs = before ++ r :: after ∧ Returns db w before w' ∧
    r.run db w' = .error e

/-- The database answers -1 to an insert. -/
def SqlRequest.Refused (db : SQLiteDatabase σ V) (r : SqlRequest V) (w : World σ) : Prop :=
  ∃ values state, r.kind = .insert values ∧ (w.fields r.obj).mIsAlreadyPerformed = false ∧
    db.insert r.mTableName values w.state = .ok (state, -1)

/-- An insert that comes behind other statements is refused. -/
def InsertRefused (db : SQLiteDatabase σ V) (w : World σ) (rs : List (SqlRequest V)) : Prop :=
  ∃ before r after w', rs = before ++ r :: after ∧ Returns db w before w' ∧ r.Refused db w'

/-- The statements take effect one after the other: they return, and no insert is refused. -/
inductive Applied (db : SQLiteDatabase σ V) : World σ → List (SqlRequest V) → World σ → Prop
  | nil {w : World σ} : Applied db w [] w
  | cons {w w' w'' : World σ} {r : SqlRequest V} {rs : List (SqlRequest V)}
      (h : r.run db w = .ok w') (hdone : ¬ r.Refused db w) (rest : Applied db w' rs w'') :
      Applied db w (r :: rs) w''

section statements

variable {db : SQLiteDatabase σ V} {w w' w'' : World σ} {r : SqlRequest V}
  {rs rs' : List (SqlRequest V)}

theorem Returns.append (h : Returns db w rs w') (h' : Returns db w' rs' w'') :
    Returns db w (rs ++ rs') w'' := by
  induction h with
  | nil => exact h'
  | cons h _ ih => exact .cons h (ih h')

theorem Returns.unique (h : Returns db w rs w') (h' : Returns db w rs w'') : w' = w'' := by
  induction h with
  | nil =>
    cases h'
    rfl
  | cons h _ ih =>
    cases h' with
    | cons h' rest' =>
      obtain rfl := Except.ok.inj (h.symm.trans h')
      exact ih rest'

theorem Returns.split (h : Returns db w (rs ++ rs') w'') :
    ∃ w', Returns db w rs w' ∧ Returns db w' rs' w'' := by
  induction rs generalizing w with
  | nil => exact ⟨w, .nil, h⟩
  | cons r rs ih =>
    cases h with
    | cons hr rest =>
      obtain ⟨w', hrs, hrs'⟩ := ih rest
      exact ⟨w', .cons hr hrs, hrs'⟩

theorem Applied.returns (h : Applied db w rs w') : Returns db w rs w' := by
  induction h with
  | nil => exact .nil
  | cons h _ _ ih => exact .cons h ih

/-- Statements that return have taken effect exactly if no insert was refused. -/
theorem Returns.applied_iff (h : Returns db w rs w') :
    Applied db w rs w' ↔ ¬ InsertRefused db w rs := by
  induction h with
  | nil =>
    refine iff_of_true .nil ?_
    rintro ⟨before, r, after, w', hrs, -⟩
    exact absurd hrs (by simp)
  | @cons w w₁ w₂ r rs h rest ih =>
    constructor
    · intro happlied
      cases happlied with
      | cons h₁ hdone hrest =>
        obtain rfl := Except.ok.inj (h.symm.trans h₁)
        rintro ⟨before, r', after, w', hrs, hbefore, hrefused⟩
        cases hbefore with
        | nil =>
          obtain ⟨rfl, -⟩ := List.cons.inj hrs
          exact hdone hrefused
        | cons h₂ hbefore =>
          obtain ⟨rfl, htail⟩ := List.cons.inj hrs
          obtain rfl := Except.ok.inj (h.symm.trans h₂)
          exact ih.mp hrest ⟨_, r', after, w', htail, hbefore, hrefused⟩
    · intro hnone
      refine .cons h (fun hrefused => hnone ⟨[], r, rs, w, rfl, .nil, hrefused⟩) (ih.mpr ?_)
      rintro ⟨before, r', after, w', rfl, hbefore, hrefused⟩
      exact hnone ⟨r :: before, r', after, w', rfl, .cons h hbefore, hrefused⟩

/-- Statements of which one throws do not return. -/
theorem StatementThrows.not_returns (h : StatementThrows db w rs) : ¬ Returns db w rs w' := by
  obtain ⟨before, r, after, w₁, e, rfl, hbefore, hr⟩ := h
  intro hreturns
  obtain ⟨w₂, hbefore', hafter⟩ := hreturns.split
  obtain rfl := hbefore.unique hbefore'
  cases hafter with
  | cons h => cases hr.symm.trans h

theorem StatementThrows.append_right (h : StatementThrows db w rs) (rs' : List (SqlRequest V)) :
    StatementThrows db w (rs ++ rs') := by
  obtain ⟨before, r, after, w', e, rfl, hbefore, hr⟩ := h
  exact ⟨before, r, after ++ rs', w', e, by simp, hbefore, hr⟩

theorem StatementThrows.append_left (hrs : Returns db w rs w') (h : StatementThrows db w' rs') :
    StatementThrows db w (rs ++ rs') := by
  obtain ⟨before, r, after, w₁, e, rfl, hbefore, hr⟩ := h
  exact ⟨rs ++ before, r, after, w₁, e, by simp, hrs.append hbefore, hr⟩

end statements

/-! ## Performing requests in a transaction -/

/-- What the session works on, and the fields. -/
def DbState.world (s : DbState σ) : World σ := ⟨s.session.working, s.fields⟩

/-- How requests in an open transaction end: their statements have returned and every
transaction among them was marked, or one of the statements has thrown. -/
inductive Ends (db : SQLiteDatabase σ V) (s : DbState σ) (rs : List (SqlRequest V)) :
    Option String × DbState σ → Prop
  | returned {s' : DbState σ} (hinside : s.session.Inside s'.session)
      (hchild : s'.session.childFailed = s.session.childFailed)
      (h : Returns db s.world rs s'.world) : Ends db s rs (none, s')
  | thrown {s' : DbState σ} {e : String} (hinside : s.session.Inside s'.session)
      (h : StatementThrows db s.world rs) : Ends db s rs (some e, s')

section perform

variable {db : SQLiteDatabase σ V} {s : DbState σ}

theorem ends_sql (r : SqlRequest V) (hopen : s.session.marks ≠ []) :
    Ends db s [r] ((Request.sql r).perform db s) := by
  rw [Request.perform]
  cases hcall : r.call db s.session.working (s.fields r.obj) with
  | error e =>
    refine .thrown (.refl hopen) ⟨[], r, [], s.world, e, rfl, .nil, ?_⟩
    unfold SqlRequest.run DbState.world
    rw [hcall]
    rfl
  | ok next =>
    refine .returned (Session.inside_write hopen) rfl (.cons ?_ .nil)
    unfold SqlRequest.run DbState.world
    rw [hcall]
    rfl

/-- A transaction in another one. -/
theorem ends_transaction {mRequests : List (Request V)} (hopen : s.session.marks ≠ [])
    (hall : ∀ s : DbState σ, s.session.marks ≠ [] →
      Ends db s (statementsOf mRequests) (performAll db mRequests s)) :
    Ends db s (statementsOf mRequests) ((Request.transaction mRequests).perform db s) := by
  rw [Request.perform, beginTransaction_inside hopen]
  dsimp only
  have hbegun := hall { s with session := { s.session with marks := false :: s.session.marks } }
    (List.cons_ne_nil _ _)
  generalize performAll db mRequests
    { s with session := { s.session with marks := false :: s.session.marks } } = result at hbegun ⊢
  cases hbegun with
  | @returned s' hinside hchild h =>
    -- marked, so its end does not count as a failed child
    have hmarks : s'.session.setTransactionSuccessful.marks = true :: s.session.marks := by
      unfold Session.setTransactionSuccessful
      rw [hinside.marks]
      rfl
    dsimp only
    rw [endTransaction_inside hmarks hopen]
    refine .returned ⟨hopen, rfl, hinside.committed⟩ ?_ h
    exact (Bool.or_false _).trans hchild
  | @thrown s' e hinside h =>
    dsimp only
    -- not marked: the outer transaction cannot be committed any more, and the exception goes on
    rw [endTransaction_inside hinside.marks hopen]
    exact .thrown ⟨hopen, rfl, hinside.committed⟩ h

/-- A request, and those behind it. -/
theorem ends_cons {r : Request V} {mRequests : List (Request V)}
    (hr : Ends db s r.statements (r.perform db s))
    (hall : ∀ s : DbState σ, s.session.marks ≠ [] →
      Ends db s (statementsOf mRequests) (performAll db mRequests s)) :
    Ends db s (statementsOf (r :: mRequests)) (performAll db (r :: mRequests) s) := by
  rw [performAll, statementsOf]
  generalize r.perform db s = result at hr ⊢
  cases hr with
  | @returned s' hinside hchild h =>
    have hrest := hall s' (by rw [hinside.marks]; exact hinside.open_)
    dsimp only
    generalize performAll db mRequests s' = result at hrest ⊢
    cases hrest with
    | returned hinside' hchild' h' =>
      exact .returned (hinside.trans hinside') (hchild'.trans hchild) (h.append h')
    | thrown hinside' h' => exact .thrown (hinside.trans hinside') (h'.append_left h)
  | thrown hinside h => exact .thrown hinside (h.append_right _)

mutual

theorem ends_perform (db : SQLiteDatabase σ V) : ∀ (r : Request V) (s : DbState σ),
    s.session.marks ≠ [] → Ends db s r.statements (r.perform db s)
  | .sql r, _, hopen => by
    rw [Request.statements]
    exact ends_sql r hopen
  | .transaction mRequests, _, hopen => by
    rw [Request.statements]
    exact ends_transaction hopen (ends_performAll db mRequests)

/-- The requests in an open transaction are their statements one after the other. -/
theorem ends_performAll (db : SQLiteDatabase σ V) : ∀ (rs : List (Request V)) (s : DbState σ),
    s.session.marks ≠ [] → Ends db s (statementsOf rs) (performAll db rs s)
  | [], s, hopen => by
    rw [statementsOf, performAll]
    exact .returned (.refl hopen) rfl .nil
  | r :: rs, s, hopen => ends_cons (ends_perform db r s hopen) (ends_performAll db rs)

end

end perform

/-! ## All or nothing -/

section transaction

variable (db : SQLiteDatabase σ V) (mRequests : List (Request V)) (state : σ)
  (fields : Nat → RequestFields)

/-- `Transaction.perform` on a database without an open transaction. -/
def performTransaction : Option String × DbState σ :=
  (Request.transaction mRequests).perform db ⟨.idle state, fields⟩

/-- Either every request took effect and the effects are committed, or the caller gets an
exception and the database is as it was. -/
def AllOrNothing : Prop :=
  (∃ w, Applied db ⟨state, fields⟩ (statementsOf mRequests) w ∧
      (performTransaction db mRequests state fields).1 = none ∧
      (performTransaction db mRequests state fields).2.session = .idle w.state) ∨
    ((performTransaction db mRequests state fields).1 ≠ none ∧
      (performTransaction db mRequests state fields).2.session = .idle state)

/-- The transaction cannot be begun, a statement that it comes to throws, or the result of all
of them cannot be committed. -/
def SomethingThrows : Prop :=
  db.begins state ≠ none ∨ StatementThrows db ⟨state, fields⟩ (statementsOf mRequests) ∨
    ∃ w, Returns db ⟨state, fields⟩ (statementsOf mRequests) w ∧ db.commits w.state ≠ none

/-- How the transaction ends. -/
inductive TransactionEnds : Option String × DbState σ → Prop
  | returned {w : World σ} {s' : DbState σ}
      (h : Returns db ⟨state, fields⟩ (statementsOf mRequests) w)
      (hno : ¬ SomethingThrows db mRequests state fields) (hs' : s'.session = .idle w.state) :
      TransactionEnds (none, s')
  | thrown {e : String} {s' : DbState σ} (h : SomethingThrows db mRequests state fields)
      (hs' : s'.session = .idle state) : TransactionEnds (some e, s')

theorem transactionEnds :
    TransactionEnds db mRequests state fields (performTransaction db mRequests state fields) := by
  unfold performTransaction
  rw [Request.perform, beginTransaction_idle]
  cases hbegin : db.begins state with
  | some e => exact .thrown (Or.inl (by simp [hbegin])) rfl
  | none =>
    have hopen : (Session.mk state state [false] false).marks ≠ [] := List.cons_ne_nil _ _
    have hall := ends_performAll db mRequests ⟨⟨state, state, [false], false⟩, fields⟩ hopen
    dsimp only
    generalize performAll db mRequests ⟨⟨state, state, [false], false⟩, fields⟩ = result at hall ⊢
    cases hall with
    | @returned s' hinside hchild h =>
      have hworld : Returns db ⟨state, fields⟩ (statementsOf mRequests) s'.world := h
      dsimp only
      rw [endTransaction_successful hinside.marks hchild]
      cases hcommit : db.commits s'.session.working with
      | some e =>
        refine .thrown (Or.inr (Or.inr ⟨s'.world, hworld, ?_⟩)) ?_
        · exact fun hnone => Option.some_ne_none e (hcommit.symm.trans hnone)
        · exact congrArg Session.idle hinside.committed
      | none =>
        refine .returned hworld ?_ rfl
        rintro (hbegin' | hthrows | ⟨w, hw, hcommit'⟩)
        · exact hbegin' hbegin
        · exact hthrows.not_returns hworld
        · obtain rfl := hw.unique hworld
          exact hcommit' hcommit
    | @thrown s' e hinside h =>
      dsimp only
      rw [endTransaction_unmarked hinside.marks]
      exact .thrown (Or.inr (Or.inl h)) (congrArg Session.idle hinside.committed)

/-- A transaction is all or nothing exactly if something throws or no insert that it comes to
is refused. -/
theorem transaction_perform_iff : AllOrNothing db mRequests state fields ↔
    SomethingThrows db mRequests state fields ∨
      ¬ InsertRefused db ⟨state, fields⟩ (statementsOf mRequests) := by
  have hends := transactionEnds db mRequests state fields
  unfold AllOrNothing
  generalize performTransaction db mRequests state fields = result at hends ⊢
  cases hends with
  | @returned w s' h hno hs' =>
    -- nothing threw: what is committed is all of it exactly if no insert was refused
    rw [or_iff_right hno, ← h.applied_iff]
    constructor
    · rintro (⟨w', happlied, -, -⟩ | ⟨hthrown, -⟩)
      · obtain rfl := happlied.returns.unique h
        exact happlied
      · exact absurd rfl hthrown
    · intro happlied
      exact Or.inl ⟨w, happlied, rfl, hs'⟩
  | thrown h hs' => exact iff_of_true (Or.inr ⟨by simp, hs'⟩) (Or.inl h)

end transaction

/-- A table of one column, which is its primary key. -/
def keyTable : SQLiteDatabase (List Nat) Nat where
  begins _ := none
  commits _ := none
  insert _ key state :=
    if key ∈ state then .ok (state, -1) else .ok (state ++ [key], state.length + 1)
  update _ _ _ _ state := .ok (state, 0)
  delete _ _ _ state := .ok (state, 0)
  rawQuery _ _ _ := .ok ()

/-- Two rows with one key. -/
def twoInserts : List (Request Nat) :=
  [.sql ⟨0, some "payloads", .insert 5⟩, .sql ⟨1, some "payloads", .insert 5⟩]

/-- The second insert is refused; the first one is committed, and nothing is thrown. -/
theorem transaction_counterexample :
    (performTransaction keyTable twoInserts [] fun _ => {}).1 = none ∧
      (performTransaction keyTable twoInserts [] fun _ => {}).2.session.committed = [5] ∧
      ((performTransaction keyTable twoInserts [] fun _ => {}).2.fields 1).mRowId = -1 ∧
      ¬ AllOrNothing keyTable twoInserts [] fun _ => {} := by
  refine ⟨by decide, by decide, by decide, ?_⟩
  rintro (⟨w, happlied, -⟩ | ⟨hthrown, -⟩)
  · cases happlied with
    | cons h₁ _ rest =>
      obtain rfl := Except.ok.inj h₁
      cases rest with
      | cons _ hdone _ => exact hdone ⟨5, [5], rfl, rfl, rfl⟩
  · exact hthrown (by decide)

end ConfProfile.Db
