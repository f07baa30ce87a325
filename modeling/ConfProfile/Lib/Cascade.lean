import ConfProfile.Lib.Tables

/-!
# Deleting and updating rows

Where a row is deleted the rows that refer to it go as well, and those that refer to these.
`delete` goes through the tables of a schema once, each behind the tables it refers to, and what it
leaves are the rows that are not `Dropped`. Two deletions one after the other are one
(`delete_delete`), and a row that goes anyway need not be chosen (`delete_of_dropped`).

`Sound` is what the constraints say about all the rows: it is kept by `insert`, by `delete` and by an
update of a column that no key and no reference is about.
-/

namespace Tables

variable {V : Type} [DecidableEq V]

/-! ## Deleting -/

/-- The row refers to one of those that are dropped. -/
def Refers (dropped : Database V) (t : Table) (row : Row V) : Prop :=
  ∃ c ∈ t.columns, ∃ r ∈ c.references, ∃ v ∈ value row c.name,
    ∃ row' ∈ dropped r.1, value row' r.2 = some v

instance decidableRefers (dropped : Database V) (t : Table) (row : Row V) :
    Decidable (Refers dropped t row) :=
  inferInstanceAs (Decidable (∃ c ∈ t.columns, _))

/-- Which rows are chosen, by table. -/
abbrev Choice (V : Type) := String → Row V → Bool

/-- The dropped rows of the tables, one table after the other. -/
def drops (db : Database V) (p : Choice V) : List Table → Database V → Database V
  | [], dropped => dropped
  | t :: schema, dropped =>
    drops db p schema (Function.update dropped t.name
      ((db t.name).filter fun row => p t.name row || decide (Refers dropped t row)))

/-- The database without the rows that are chosen and those that refer to them. -/
def delete (schema : List Table) (db : Database V) (p : Choice V) : Database V :=
  fun name => (db name).filter fun row => decide (row ∉ drops db p schema empty name)

/-- Each table has a name of its own and refers only to tables in front of it. -/
def Ordered : List String → List Table → Prop
  | _, [] => True
  | known, t :: schema =>
    t.name ∉ known ∧ (∀ c ∈ t.columns, ∀ r ∈ c.references, r.1 ∈ known) ∧
      Ordered (t.name :: known) schema

instance decidableOrdered : ∀ (known : List String) (schema : List Table),
    Decidable (Ordered known schema)
  | _, [] => isTrue trivial
  | known, t :: schema =>
    have : Decidable (Ordered (t.name :: known) schema) := decidableOrdered _ schema
    inferInstanceAs (Decidable (_ ∧ _ ∧ _))

/-- The rows that go: the least set with those that are chosen and those that refer to one of
them. -/
inductive Dropped (schema : List Table) (db : Database V) (p : Choice V) : String → Row V → Prop
  | chosen {t : Table} {row : Row V} (ht : t ∈ schema) (hrow : row ∈ db t.name)
      (hp : p t.name row = true) : Dropped schema db p t.name row
  | refers {t : Table} {row row' : Row V} {c : Column} {r : String × String} {v : V}
      (ht : t ∈ schema) (hrow : row ∈ db t.name) (hc : c ∈ t.columns) (hr : r ∈ c.references)
      (hv : v ∈ value row c.name) (hdropped : Dropped schema db p r.1 row')
      (hv' : value row' r.2 = some v) : Dropped schema db p t.name row

variable {schema : List Table} {known : List String} {db db' : Database V} {p q : Choice V}
  {name : String} {row : Row V} {t : Table}

omit [DecidableEq V] in
theorem Dropped.mem (h : Dropped schema db p name row) : row ∈ db name := by
  cases h with
  | chosen ht hrow hp => exact hrow
  | refers ht hrow hc hr hv hdropped hv' => exact hrow

omit [DecidableEq V] in
theorem Dropped.mono (hdb : ∀ name, db name ⊆ db' name)
    (hpq : ∀ name row, p name row = true → q name row = true) (h : Dropped schema db p name row) :
    Dropped schema db' q name row := by
  induction h with
  | chosen ht hrow hp => exact .chosen ht (hdb _ hrow) (hpq _ _ hp)
  | refers ht hrow hc hr hv _ hv' ih => exact .refers ht (hdb _ hrow) hc hr hv ih hv'

theorem Ordered.unique (h : Ordered known schema) : (schema.map Table.name).Nodup ∧
    ∀ t ∈ schema, t.name ∉ known := by
  induction schema generalizing known with
  | nil => exact ⟨List.nodup_nil, fun _ ht => absurd ht List.not_mem_nil⟩
  | cons t schema ih =>
    obtain ⟨hnew, -, hrest⟩ := h
    obtain ⟨hnodup, hother⟩ := ih hrest
    constructor
    · rw [List.map_cons, List.nodup_cons]
      refine ⟨fun hmem => ?_, hnodup⟩
      obtain ⟨u, hu, hname⟩ := List.mem_map.mp hmem
      exact hother u hu (hname ▸ List.mem_cons_self)
    · intro u hu
      rcases List.mem_cons.mp hu with rfl | hu
      · exact hnew
      · exact fun hmem => hother u hu (List.mem_cons_of_mem _ hmem)

/-- Tables of one name are one table. -/
theorem Ordered.eq_of_name (h : Ordered [] schema) {u : Table} (ht : t ∈ schema) (hu : u ∈ schema)
    (hname : t.name = u.name) : t = u :=
  List.inj_on_of_nodup_map h.unique.1 ht hu hname

omit [DecidableEq V] in
/-- A row that goes is chosen or refers to one that goes. -/
theorem Ordered.dropped_iff (h : Ordered [] schema) (ht : t ∈ schema) :
    Dropped schema db p t.name row ↔ row ∈ db t.name ∧ (p t.name row = true ∨
      ∃ c ∈ t.columns, ∃ r ∈ c.references, ∃ v ∈ value row c.name,
        ∃ row', Dropped schema db p r.1 row' ∧ value row' r.2 = some v) := by
  constructor
  · intro hdropped
    refine ⟨hdropped.mem, ?_⟩
    generalize hname : t.name = name at hdropped
    cases hdropped with
    | chosen hu hrow hp => exact .inl hp
    | refers hu hrow hc hr hv hdropped' hv' =>
      obtain rfl := h.eq_of_name ht hu hname
      exact .inr ⟨_, hc, _, hr, _, hv, _, hdropped', hv'⟩
  · rintro ⟨hrow, hp | ⟨c, hc, r, hr, v, hv, row', hdropped, hv'⟩⟩
    · exact .chosen ht hrow hp
    · exact .refers ht hrow hc hr hv hdropped hv'

/-- Going through the tables in their order finds the rows that go. -/
theorem mem_drops {all : List Table} (hall : Ordered [] all) (hsub : ∀ t ∈ schema, t ∈ all) :
    ∀ {known : List String} {dropped : Database V}, Ordered known schema →
      (∀ name ∈ known, ∀ row, row ∈ dropped name ↔ Dropped all db p name row) →
      (∀ name ∉ known, dropped name = []) → ∀ (name : String) (row : Row V),
      row ∈ drops db p schema dropped name ↔
        (name ∈ known ∨ name ∈ schema.map Table.name) ∧ Dropped all db p name row := by
  induction schema with
  | nil =>
    intro known dropped _ hknown hother name row
    by_cases hname : name ∈ known
    · simp [drops, hname, hknown name hname row]
    · simp [drops, hname, hother name hname]
  | cons t schema ih =>
    intro known dropped hordered hknown hother name row
    obtain ⟨ht, hschema⟩ := List.forall_mem_cons.mp hsub
    obtain ⟨hnew, hrefs, hrest⟩ := hordered
    have htable : ∀ row, row ∈ (db t.name).filter
        (fun row => p t.name row || decide (Refers dropped t row)) ↔
        Dropped all db p t.name row := by
      intro row
      rw [hall.dropped_iff ht, List.mem_filter, Bool.or_eq_true, decide_eq_true_iff]
      refine and_congr_right fun _ => or_congr_right ?_
      constructor
      · rintro ⟨c, hc, r, hr, v, hv, row', hrow', hv'⟩
        exact ⟨c, hc, r, hr, v, hv, row', (hknown r.1 (hrefs c hc r hr) row').mp hrow', hv'⟩
      · rintro ⟨c, hc, r, hr, v, hv, row', hrow', hv'⟩
        exact ⟨c, hc, r, hr, v, hv, row', (hknown r.1 (hrefs c hc r hr) row').mpr hrow', hv'⟩
    rw [drops, ih hschema hrest, List.mem_cons, List.map_cons, List.mem_cons]
    · tauto
    · intro name hname row
      rcases List.mem_cons.mp hname with rfl | hname
      · rw [Function.update_self]
        exact htable row
      · have hne : name ≠ t.name := fun heq => hnew (heq ▸ hname)
        rw [Function.update_of_ne hne]
        exact hknown name hname row
    · intro name hname
      rw [List.mem_cons, not_or] at hname
      rw [Function.update_of_ne hname.1]
      exact hother name hname.2

theorem Ordered.mem_drops_empty (h : Ordered [] schema) :
    row ∈ drops db p schema empty name ↔ Dropped schema db p name row := by
  refine (mem_drops h (fun _ ht => ht) h (by simp) (fun _ _ => rfl) name row).trans ?_
  constructor
  · exact And.right
  · intro hdropped
    refine ⟨.inr ?_, hdropped⟩
    cases hdropped with
    | chosen ht hrow hp => exact List.mem_map_of_mem ht
    | refers ht hrow hc hr hv hdropped' hv' => exact List.mem_map_of_mem ht

theorem Ordered.mem_delete (h : Ordered [] schema) :
    row ∈ delete schema db p name ↔ row ∈ db name ∧ ¬ Dropped schema db p name row := by
  rw [delete, List.mem_filter, decide_eq_true_iff, h.mem_drops_empty]

theorem delete_sublist (schema : List Table) (db : Database V) (p : Choice V) (name : String) :
    (delete schema db p name).Sublist (db name) :=
  List.filter_sublist

/-- The rows of a table that are left, in their order. -/
theorem Ordered.delete_eq_filter (h : Ordered [] schema) {f : Row V → Bool}
    (hf : ∀ row ∈ db name, f row = true ↔ ¬ Dropped schema db p name row) :
    delete schema db p name = (db name).filter f := by
  refine List.filter_congr fun row hrow => ?_
  rw [Bool.eq_iff_iff, decide_eq_true_iff, h.mem_drops_empty, hf row hrow]

/-- What goes in two deletions goes in one. -/
theorem Ordered.dropped_or (h : Ordered [] schema) :
    Dropped schema db (fun name row => p name row || q name row) name row ↔
      Dropped schema db p name row ∨ Dropped schema (delete schema db p) q name row := by
  constructor
  · intro hdropped
    induction hdropped with
    | @chosen t row ht hrow hp =>
      by_cases hfirst : Dropped schema db p t.name row
      · exact .inl hfirst
      · rcases Bool.or_eq_true_iff.mp hp with hp | hq
        · exact .inl (.chosen ht hrow hp)
        · exact .inr (.chosen ht (h.mem_delete.mpr ⟨hrow, hfirst⟩) hq)
    | @refers t row row' c r v ht hrow hc hr hv _ hv' ih =>
      by_cases hfirst : Dropped schema db p t.name row
      · exact .inl hfirst
      · rcases ih with ih | ih
        · exact .inl (.refers ht hrow hc hr hv ih hv')
        · exact .inr (.refers ht (h.mem_delete.mpr ⟨hrow, hfirst⟩) hc hr hv ih hv')
  · rintro (hdropped | hdropped)
    · exact hdropped.mono (fun _ => List.Subset.refl _) fun _ _ hp => by simp [hp]
    · exact hdropped.mono (fun name => (delete_sublist schema db p name).subset)
        fun _ _ hq => by simp [hq]

/-- Two deletions, one after the other. -/
theorem Ordered.delete_delete (h : Ordered [] schema) (db : Database V) (p q : Choice V) :
    delete schema (delete schema db p) q =
      delete schema db fun name row => p name row || q name row := by
  funext name
  have hfirst : delete schema db p name = (db name).filter fun row =>
      decide (row ∉ drops db p schema empty name) := rfl
  rw [@Ordered.delete_eq_filter V _ schema db _ name h
    (fun row => decide (row ∉ drops db p schema empty name) &&
      decide (row ∉ drops (delete schema db p) q schema empty name)),
    delete, hfirst, List.filter_filter]
  · refine List.filter_congr fun row _ => Bool.and_comm _ _
  · intro row _
    rw [h.dropped_or, Bool.and_eq_true, decide_eq_true_iff, decide_eq_true_iff, h.mem_drops_empty,
      h.mem_drops_empty, not_or]

/-- Choosing rows that go anyway makes no difference. -/
theorem Ordered.delete_of_dropped (h : Ordered [] schema)
    (hq : ∀ name row, row ∈ db name → q name row = true → Dropped schema db p name row) :
    delete schema db (fun name row => p name row || q name row) = delete schema db p := by
  funext name
  refine h.delete_eq_filter fun row hrow => ?_
  rw [decide_eq_true_iff, h.mem_drops_empty, h.dropped_or, not_or, iff_self_and]
  intro hnot hdropped
  -- what is left over refers to nothing that goes
  clear hrow
  induction hdropped with
  | chosen ht hrow hp => exact hnot (hq _ _ (h.mem_delete.mp hrow).1 hp)
  | refers ht hrow hc hr hv hdropped hv' ih =>
    have hother := Classical.not_not.mp ih
    exact hnot (.refers ht (h.mem_delete.mp hrow).1 hc hr hv hother hv')

/-! ## Updating -/

omit [DecidableEq V] in
/-- The row with another value in a column. -/
def setColumn (column : String) (v : Option V) (row : Row V) : Row V :=
  if column ∈ row.map Prod.fst then row.map fun e => if e.1 = column then (column, v) else e
  else row ++ [(column, v)]

/-- The rows of a table that meet `w` get another value in a column. -/
def updateRows (db : Database V) (table : String) (w : Row V → Bool) (column : String)
    (v : Option V) : Database V :=
  Function.update db table ((db table).map fun row => if w row then setColumn column v row else row)

section SetColumn

variable {column other : String} {v : Option V} {w : Row V → Bool}

omit [DecidableEq V] in
theorem lookup_map_setColumn (row : Row V) :
    (row.map fun e => if e.1 = column then (column, v) else e).lookup other =
      if other = column then (row.lookup other).map fun _ => v else row.lookup other := by
  induction row with
  | nil => simp
  | cons e row ih =>
    obtain ⟨name, x⟩ := e
    rw [List.map_cons]
    by_cases hname : name = column
    · subst hname
      rw [if_pos rfl, List.lookup_cons, List.lookup_cons, ih]
      by_cases hother : other = name
      · simp [hother]
      · simp [hother, beq_false_of_ne hother]
    · rw [if_neg hname, List.lookup_cons, List.lookup_cons, ih]
      by_cases hother : other = column
      · have hne : other ≠ name := fun heq => hname (heq.symm.trans hother)
        simp [hother, beq_false_of_ne (hother ▸ hne)]
      · simp [hother]

omit [DecidableEq V] in
theorem value_setColumn (row : Row V) :
    value (setColumn column v row) other = if other = column then v else value row other := by
  rw [setColumn]
  split
  next hmem =>
    rw [value, lookup_map_setColumn]
    split
    next heq =>
      subst heq
      obtain ⟨e, he, hname⟩ := List.mem_map.mp hmem
      have hsome : (row.lookup other).isSome := by
        rw [List.lookup_isSome_iff]
        exact ⟨e, he, by simp [hname]⟩
      obtain ⟨x, hx⟩ := Option.isSome_iff_exists.mp hsome
      rw [hx]
      rfl
    next => rfl
  next hmem =>
    rw [value, List.lookup_append]
    by_cases heq : other = column
    · subst heq
      have hnone : row.lookup other = none := by
        rw [List.lookup_eq_none_iff]
        exact fun e he => by simpa using fun hname => hmem (List.mem_map.mpr ⟨e, he, hname.symm⟩)
      simp [hnone]
    · simp [heq, value, List.lookup_cons, beq_false_of_ne heq]

end SetColumn

/-! ## All the rows -/

omit [DecidableEq V]

/-- All the rows meet the constraints of their table. -/
structure Sound (schema : List Table) (db : Database V) : Prop where
  notNull : ∀ t ∈ schema, ∀ row ∈ db t.name, NotNull t row
  foreignKeys : ∀ t ∈ schema, ∀ row ∈ db t.name, ForeignKeys db t row
  keys : ∀ t ∈ schema, ∀ key ∈ t.primaryKey, ((db t.name).map (value · key)).Nodup

theorem sound_empty (schema : List Table) : Sound schema (empty : Database V) where
  notNull _ _ _ h := absurd h List.not_mem_nil
  foreignKeys _ _ _ h := absurd h List.not_mem_nil
  keys _ _ _ _ := List.nodup_nil

/-- Primary keys are `NOT NULL`. -/
def Keyed (schema : List Table) : Prop :=
  ∀ t ∈ schema, ∀ key ∈ t.primaryKey, ∃ c ∈ t.columns, c.name = key ∧ c.notNull = true

instance decidableKeyed (schema : List Table) : Decidable (Keyed schema) :=
  inferInstanceAs (Decidable (∀ t ∈ schema, _))

theorem Sound.insert [DecidableEq V] (h : Sound schema db) (hordered : Ordered [] schema)
    (hkeyed : Keyed schema) (ht : t ∈ schema) (hinsert : insert db t row = some db') :
    Sound schema db' := by
  obtain ⟨-, hnull, hforeign, -⟩ := insert_isSome.mp (Option.isSome_of_eq_some hinsert)
  obtain ⟨hsame, hother⟩ := insert_eq_some hinsert
  have hmem : ∀ u ∈ schema, ∀ row' ∈ db' u.name, row' ∈ db u.name ∨ (u = t ∧ row' = row) := by
    intro u hu row' hrow'
    by_cases hname : u.name = t.name
    · rw [hname, hsame, List.mem_append, List.mem_singleton, ← hname] at hrow'
      exact hrow'.imp_right fun heq => ⟨hordered.eq_of_name hu ht hname, heq⟩
    · rw [hother u.name hname] at hrow'
      exact .inl hrow'
  constructor
  · intro u hu row' hrow'
    rcases hmem u hu row' hrow' with hold | ⟨rfl, rfl⟩
    · exact h.notNull u hu row' hold
    · exact hnull
  · intro u hu row' hrow'
    rcases hmem u hu row' hrow' with hold | ⟨rfl, rfl⟩
    · exact (h.foreignKeys u hu row' hold).mono (subset_insert hinsert)
    · exact hforeign.mono (subset_insert hinsert)
  · intro u hu key hkey
    by_cases hname : u.name = t.name
    · obtain rfl := hordered.eq_of_name hu ht hname
      obtain ⟨c, hc, rfl, hnotNull⟩ := hkeyed u hu key hkey
      exact nodup_insert hkey (h.keys u hu _ hkey) (fun row' hrow' => hrow' c hc hnotNull) hinsert
    · rw [hother u.name hname]
      exact h.keys u hu key hkey

/-- What is left has all that it refers to. -/
theorem Sound.delete [DecidableEq V] (h : Sound schema db) (hordered : Ordered [] schema)
    (p : Choice V) : Sound schema (delete schema db p) := by
  constructor
  · intro t ht row hrow
    exact h.notNull t ht row (hordered.mem_delete.mp hrow).1
  · intro t ht row hrow c hc r hr v hv
    obtain ⟨hold, hleft⟩ := hordered.mem_delete.mp hrow
    obtain ⟨row', hrow', hv'⟩ := h.foreignKeys t ht row hold c hc r hr v hv
    refine ⟨row', hordered.mem_delete.mpr ⟨hrow', fun hdropped => ?_⟩, hv'⟩
    exact hleft (.refers ht hold hc hr hv hdropped hv')
  · intro t ht key hkey
    exact (h.keys t ht key hkey).sublist ((delete_sublist schema db p t.name).map _)

/-- No key and no reference is about the column. -/
structure Free (schema : List Table) (t : Table) (column : String) : Prop where
  key : t.primaryKey ≠ some column
  reference : ∀ c ∈ t.columns, c.name = column → c.references = none
  referred : ∀ u ∈ schema, ∀ c ∈ u.columns, ∀ r ∈ c.references, r ≠ (t.name, column)

theorem Sound.updateRows (h : Sound schema db) (hordered : Ordered [] schema) (ht : t ∈ schema)
    {column : String} (hfree : Free schema t column) (w : Row V → Bool) (v : V) :
    Sound schema (updateRows db t.name w column (some v)) := by
  -- the other columns of a row are as they were
  have hvalue : ∀ (row : Row V) (other : String), other ≠ column →
      value (if w row then setColumn column (some v) row else row) other = value row other := by
    intro row other hne
    split
    · rw [value_setColumn, if_neg hne]
    · rfl
  have hmem : ∀ u ∈ schema, ∀ row' ∈ Tables.updateRows db t.name w column (some v) u.name,
      ∃ row ∈ db u.name, row' = row ∨
        u = t ∧ row' = if w row then setColumn column (some v) row else row := by
    intro u hu row' hrow'
    by_cases hname : u.name = t.name
    · obtain rfl := hordered.eq_of_name hu ht hname
      rw [Tables.updateRows, Function.update_self] at hrow'
      obtain ⟨row, hrow, rfl⟩ := List.mem_map.mp hrow'
      exact ⟨row, hrow, .inr ⟨rfl, rfl⟩⟩
    · rw [Tables.updateRows, Function.update_of_ne hname] at hrow'
      exact ⟨row', hrow', .inl rfl⟩
  constructor
  · intro u hu row' hrow' c hc hnotNull
    obtain ⟨row, hrow, rfl | ⟨rfl, rfl⟩⟩ := hmem u hu row' hrow'
    · exact h.notNull u hu _ hrow c hc hnotNull
    · by_cases hname : c.name = column
      · split
        · rw [value_setColumn, if_pos hname]
          rfl
        · exact h.notNull u hu _ hrow c hc hnotNull
      · rw [hvalue row c.name hname]
        exact h.notNull u hu _ hrow c hc hnotNull
  · intro u hu row' hrow' c hc r hr x hx
    have hforeign : ∃ row ∈ db u.name, x ∈ value row c.name := by
      obtain ⟨row, hrow, rfl | ⟨rfl, rfl⟩⟩ := hmem u hu row' hrow'
      · exact ⟨_, hrow, hx⟩
      · have hname : c.name ≠ column := by
          intro hname
          rw [hfree.reference c hc hname] at hr
          cases hr
        rw [hvalue row c.name hname] at hx
        exact ⟨row, hrow, hx⟩
    obtain ⟨row, hrow, hx⟩ := hforeign
    obtain ⟨row₁, hrow₁, hx₁⟩ := h.foreignKeys u hu row hrow c hc r hr x hx
    by_cases hname : r.1 = t.name
    · have hcolumn : r.2 ≠ column := fun heq => hfree.referred u hu c hc r hr (Prod.ext hname heq)
      refine ⟨if w row₁ then setColumn column (some v) row₁ else row₁, ?_, ?_⟩
      · rw [Tables.updateRows, hname, Function.update_self]
        exact List.mem_map_of_mem (hname ▸ hrow₁)
      · rw [hvalue row₁ r.2 hcolumn]
        exact hx₁
    · refine ⟨row₁, ?_, hx₁⟩
      rw [Tables.updateRows, Function.update_of_ne hname]
      exact hrow₁
  · intro u hu key hkey
    by_cases hname : u.name = t.name
    · obtain rfl := hordered.eq_of_name hu ht hname
      have hne : key ≠ column := fun heq => hfree.key (heq ▸ hkey)
      have hsame : ((value · key) ∘ fun row : Row V =>
          if w row then setColumn column (some v) row else row) = (value · key) :=
        funext fun row => hvalue row key hne
      rw [Tables.updateRows, Function.update_self, List.map_map, hsame]
      exact h.keys u hu key hkey
    · rw [Tables.updateRows, Function.update_of_ne hname]
      exact h.keys u hu key hkey

end Tables
