import Mathlib.Data.List.Nodup
import Mathlib.Logic.Function.Basic

/-!
# Linked lists in memory

Cells at addresses, each with a value and the address of the next one; 0 is NULL. A value
knows its own address (`addr`). `Segment cells p l q` says that the values `l` are linked
from `p` on and that `q` is what the last one points to; a list is a segment that ends in
NULL, and its addresses are distinct (`IsList.nodup`).

The rules say how a segment changes with one cell: nothing where the cell is not in it
(`Segment.congr`), its end where the cell is the last one (`Segment.setNext_last`), a value
where it is in it (`Segment.setVal`).
-/

namespace LinkedList

variable {α : Type*}

structure Cell (α : Type*) where
  next : Nat
  val : α

/-- What is at an address, `none` where nothing is allocated. -/
abbrev Cells (α : Type*) := Nat → Option (Cell α)

/-- `free`. -/
def Cells.free (cells : Cells α) (p : Nat) : Cells α := Function.update cells p none

/-- A write to the `next` field at `p`. -/
def Cells.setNext (cells : Cells α) (p q : Nat) : Cells α :=
  Function.update cells p ((cells p).map fun cell => { cell with next := q })

/-- A write to the value at `p`. -/
def Cells.setVal (cells : Cells α) (p : Nat) (a : α) : Cells α :=
  Function.update cells p ((cells p).map fun cell => { cell with val := a })

section updates

variable (cells : Cells α) (p q : Nat) (a : α)

@[simp] theorem Cells.free_self : cells.free p p = none := Function.update_self ..

variable {p} in
@[simp] theorem Cells.free_of_ne {r : Nat} (h : r ≠ p) : cells.free p r = cells r :=
  Function.update_of_ne h ..

variable {p} in
@[simp] theorem Cells.setNext_of_ne {r : Nat} (h : r ≠ p) : cells.setNext p q r = cells r :=
  Function.update_of_ne h ..

variable {p} in
@[simp] theorem Cells.setVal_of_ne {r : Nat} (h : r ≠ p) : cells.setVal p a r = cells r :=
  Function.update_of_ne h ..

variable {cells p} {cell : Cell α}

theorem Cells.setNext_self (h : cells p = some cell) :
    cells.setNext p q p = some { cell with next := q } := by
  rw [setNext, Function.update_self, h, Option.map_some]

theorem Cells.setVal_self (h : cells p = some cell) :
    cells.setVal p a p = some { cell with val := a } := by
  rw [setVal, Function.update_self, h, Option.map_some]

end updates

variable (addr : α → Nat)

/-- The values linked from `p` up to `q`. -/
inductive Segment (cells : Cells α) : Nat → List α → Nat → Prop
  | nil {p : Nat} : Segment cells p [] p
  | cons {p next q : Nat} {a : α} {l : List α} (hp : p ≠ 0) (haddr : addr a = p)
      (hcell : cells p = some ⟨next, a⟩) (rest : Segment cells next l q) :
      Segment cells p (a :: l) q

/-- A list ends in NULL. -/
def IsList (cells : Cells α) (p : Nat) (l : List α) : Prop := Segment addr cells p l 0

variable {addr} {cells cells' : Cells α} {p q r : Nat} {a b : α} {l l' : List α}

@[simp] theorem segment_nil : Segment addr cells p [] q ↔ p = q := by
  constructor
  · intro h
    cases h
    rfl
  · rintro rfl
    exact .nil

theorem segment_cons : Segment addr cells p (a :: l) q ↔
    p ≠ 0 ∧ addr a = p ∧ ∃ next, cells p = some ⟨next, a⟩ ∧ Segment addr cells next l q := by
  constructor
  · intro h
    cases h with
    | cons hp haddr hcell rest => exact ⟨hp, haddr, _, hcell, rest⟩
  · rintro ⟨hp, haddr, next, hcell, rest⟩
    exact .cons hp haddr hcell rest

theorem segment_append : Segment addr cells p (l ++ l') q ↔
    ∃ r, Segment addr cells p l r ∧ Segment addr cells r l' q := by
  induction l generalizing p with
  | nil => simp
  | cons a l ih =>
    rw [List.cons_append, segment_cons]
    constructor
    · rintro ⟨hp, haddr, next, hcell, rest⟩
      obtain ⟨r, hl, hl'⟩ := ih.mp rest
      exact ⟨r, .cons hp haddr hcell hl, hl'⟩
    · rintro ⟨r, hl, hl'⟩
      obtain ⟨hp, haddr, next, hcell, rest⟩ := segment_cons.mp hl
      exact ⟨hp, haddr, next, hcell, ih.mpr ⟨r, rest, hl'⟩⟩

/-- Two segments that lead from `p` to NULL are one. -/
theorem IsList.unique (h : IsList addr cells p l) (h' : IsList addr cells p l') : l = l' := by
  unfold IsList at h h'
  generalize hq : (0 : Nat) = q at h h'
  induction h generalizing l' with
  | nil =>
    cases h' with
    | nil => rfl
    | cons hp => exact absurd hq.symm hp
  | cons hp _ hcell _ ih =>
    cases h' with
    | nil => exact absurd hq.symm hp
    | cons _ _ hcell' rest' =>
      obtain ⟨rfl, rfl⟩ := Cell.mk.inj (Option.some.inj (hcell.symm.trans hcell'))
      rw [ih hq rest']

/-- A list that came back to a cell would not end. -/
theorem IsList.nodup (h : IsList addr cells p l) : (l.map addr).Nodup := by
  induction l generalizing p with
  | nil => exact List.nodup_nil
  | cons a l ih =>
    obtain ⟨hp, haddr, next, hcell, rest⟩ := segment_cons.mp h
    rw [List.map_cons, List.nodup_cons]
    refine ⟨fun hmem => ?_, ih rest⟩
    obtain ⟨b, hb, hba⟩ := List.mem_map.mp hmem
    obtain ⟨pre, post, rfl⟩ := List.append_of_mem hb
    obtain ⟨r, -, hsuffix⟩ := segment_append.mp rest
    have hr : r = p := by
      obtain ⟨-, hbr, -⟩ := segment_cons.mp hsuffix
      rw [← hbr, hba, haddr]
    have hsame : a :: (pre ++ b :: post) = b :: post := h.unique (hr ▸ hsuffix)
    have hlength := congrArg List.length hsame
    simp only [List.length_cons, List.length_append] at hlength
    omega

/-- Memory that is the same at the cells of a segment has it as well. -/
theorem Segment.congr (h : Segment addr cells p l q)
    (hsame : ∀ r ∈ l.map addr, cells' r = cells r) : Segment addr cells' p l q := by
  induction h with
  | nil => exact .nil
  | cons hp haddr hcell _ ih =>
    rw [List.map_cons, List.forall_mem_cons] at hsame
    exact .cons hp haddr ((haddr ▸ hsame.1).trans hcell) (ih hsame.2)

theorem Segment.free (h : Segment addr cells p l q) (hr : r ∉ l.map addr) :
    Segment addr (cells.free r) p l q :=
  h.congr fun _ hs => cells.free_of_ne fun heq => hr (heq ▸ hs)

theorem Segment.setVal_of_not_mem (h : Segment addr cells p l q) (hr : r ∉ l.map addr) (b : α) :
    Segment addr (cells.setVal r b) p l q :=
  h.congr fun _ hs => cells.setVal_of_ne b fun heq => hr (heq ▸ hs)

theorem Segment.setNext_of_not_mem (h : Segment addr cells p l q) (hr : r ∉ l.map addr) (n : Nat) :
    Segment addr (cells.setNext r n) p l q :=
  h.congr fun _ hs => cells.setNext_of_ne n fun heq => hr (heq ▸ hs)

/-- The last cell of a segment is made to point somewhere else. -/
theorem Segment.setNext_last (h : Segment addr cells p (l ++ [a]) q) (ha : addr a ∉ l.map addr)
    (r : Nat) : Segment addr (cells.setNext (addr a) r) p (l ++ [a]) r := by
  obtain ⟨s, hl, hlast⟩ := segment_append.mp h
  obtain ⟨hs, rfl, next, hcell, -⟩ := segment_cons.mp hlast
  exact segment_append.mpr ⟨addr a, hl.setNext_of_not_mem ha r,
    .cons hs rfl (Cells.setNext_self r hcell) .nil⟩

/-- The cell that a segment leads to is taken out of the list and freed. -/
theorem Segment.unlink (h : Segment addr cells p (l ++ [a]) r)
    (hnodup : ((l ++ [a]).map addr).Nodup) (hr : r ∉ (l ++ [a]).map addr) (n : Nat) :
    Segment addr ((cells.setNext (addr a) n).free r) p (l ++ [a]) n := by
  have ha : addr a ∉ l.map addr := by
    rw [List.map_append, List.map_singleton, ← List.concat_eq_append, List.nodup_concat] at hnodup
    exact hnodup.1
  exact (h.setNext_last ha n).free hr

/-- The first value of a segment is written. -/
theorem Segment.setVal (h : Segment addr cells p (a :: l) q) (hp : p ∉ l.map addr)
    (hb : addr b = p) : Segment addr (cells.setVal p b) p (b :: l) q := by
  obtain ⟨hnull, -, next, hcell, rest⟩ := segment_cons.mp h
  exact .cons hnull hb (Cells.setVal_self b hcell) (rest.setVal_of_not_mem hp b)

end LinkedList
