import Mathlib.Data.List.Nodup
import Mathlib.Logic.Function.Basic

/-!
# Tables with constraints

A database has rows in tables; a row has values by column, some of which may be
null. A column may forbid nulls, it may refer to a column of another table, and a
table may have a primary key. A row that breaks one of these is not inserted.

Tables only grow here, and then a reference that is met once is met for ever
(`ForeignKeys.mono`) and the primary keys stay distinct (`nodup_insert`).
-/

namespace Tables

variable {V : Type}

structure Column where
  name : String
  notNull : Bool := false
  references : Option (String × String) := none
  deriving DecidableEq, Repr

structure Table where
  name : String
  primaryKey : Option String
  columns : List Column
  deriving DecidableEq, Repr

/-- Values by column; `none` is a null. -/
abbrev Row (V : Type) := List (String × Option V)

/-- The value in a column, `none` also where the row has no such column. -/
def value (row : Row V) (column : String) : Option V := (row.lookup column).join

/-- The rows of each table, by its name. -/
abbrev Database (V : Type) := String → List (Row V)

def empty : Database V := fun _ => []

/-! ## Constraints -/

/-- Each value is for a column of the table. -/
def Known (t : Table) (row : Row V) : Prop := ∀ e ∈ row, e.1 ∈ t.columns.map Column.name

def NotNull (t : Table) (row : Row V) : Prop :=
  ∀ c ∈ t.columns, c.notNull = true → (value row c.name).isSome = true

/-- Each value of a column with a reference is there, in the column it refers to. -/
def ForeignKeys (db : Database V) (t : Table) (row : Row V) : Prop :=
  ∀ c ∈ t.columns, ∀ r ∈ c.references, ∀ v ∈ value row c.name,
    ∃ row' ∈ db r.1, value row' r.2 = some v

/-- No row has the same primary key. -/
def FreshKey (db : Database V) (t : Table) (row : Row V) : Prop :=
  ∀ key ∈ t.primaryKey, ∀ v ∈ value row key, ∀ row' ∈ db t.name, value row' key ≠ some v

section Decidable

variable [DecidableEq V] (db : Database V) (t : Table) (row : Row V)

instance : Decidable (Known t row) := inferInstanceAs (Decidable (∀ e ∈ row, _))

instance : Decidable (NotNull t row) := inferInstanceAs (Decidable (∀ c ∈ t.columns, _))

instance : Decidable (ForeignKeys db t row) := inferInstanceAs (Decidable (∀ c ∈ t.columns, _))

instance : Decidable (FreshKey db t row) :=
  inferInstanceAs (Decidable (∀ key ∈ t.primaryKey, _))

end Decidable

/-! ## Inserting -/

variable [DecidableEq V] {db db' : Database V} {t : Table} {row : Row V}

/-- The database with the row, `none` where the row breaks a constraint. -/
def insert (db : Database V) (t : Table) (row : Row V) : Option (Database V) :=
  if Known t row ∧ NotNull t row ∧ ForeignKeys db t row ∧ FreshKey db t row then
    some (Function.update db t.name (db t.name ++ [row]))
  else none

theorem insert_isSome : (insert db t row).isSome = true ↔
    Known t row ∧ NotNull t row ∧ ForeignKeys db t row ∧ FreshKey db t row := by
  unfold insert
  split
  · exact iff_of_true rfl ‹_›
  · exact iff_of_false Bool.false_ne_true ‹_›

/-- The rows behind an insertion. -/
theorem insert_eq_some (h : insert db t row = some db') :
    db' t.name = db t.name ++ [row] ∧ ∀ name, name ≠ t.name → db' name = db name := by
  unfold insert at h
  split at h
  · obtain rfl := Option.some.inj h
    exact ⟨Function.update_self .., fun name hne => Function.update_of_ne hne ..⟩
  · cases h

theorem subset_insert (h : insert db t row = some db') (name : String) : db name ⊆ db' name := by
  obtain ⟨hsame, hother⟩ := insert_eq_some h
  by_cases hname : name = t.name
  · subst hname
    rw [hsame]
    exact List.subset_append_left _ _
  · rw [hother name hname]
    exact List.Subset.refl _

omit [DecidableEq V] in
/-- A reference stays met in a larger database. -/
theorem ForeignKeys.mono (h : ForeignKeys db t row) (hsub : ∀ name, db name ⊆ db' name) :
    ForeignKeys db' t row := by
  intro c hc r hr v hv
  obtain ⟨row', hrow', hvalue⟩ := h c hc r hr v hv
  exact ⟨row', hsub r.1 hrow', hvalue⟩

/-- The primary keys of a table that nulls are kept out of are distinct. -/
theorem nodup_insert {key : String} (hkey : t.primaryKey = some key)
    (hnodup : ((db t.name).map (value · key)).Nodup)
    (hnotNull : ∀ row : Row V, NotNull t row → (value row key).isSome = true)
    (h : insert db t row = some db') : ((db' t.name).map (value · key)).Nodup := by
  obtain ⟨-, hnull, -, hunique⟩ := insert_isSome.mp (Option.isSome_of_eq_some h)
  obtain ⟨v, hv⟩ := Option.isSome_iff_exists.mp (hnotNull row hnull)
  rw [(insert_eq_some h).1, List.map_append, List.nodup_append]
  refine ⟨hnodup, List.nodup_singleton _, ?_⟩
  intro a ha b hb
  obtain ⟨row', hrow', rfl⟩ := List.mem_map.mp ha
  obtain rfl : b = value row key := List.mem_singleton.mp hb
  rw [hv]
  exact hunique key hkey v hv row' hrow'

end Tables
