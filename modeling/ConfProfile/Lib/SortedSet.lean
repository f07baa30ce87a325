import Mathlib.Data.List.Sort

/-!
# Sets sorted by a key

A set whose order looks at a key of its elements only, as a list: two elements of one key are
the same to it, however they differ otherwise. So an element is refused when one of its key is
there, and removing one removes whichever has its key.

`removeAll` goes over the shorter side. Over the collection it removes by key; over the set it
keeps the elements that are not in the collection, which is another test.
-/

namespace SortedSet

variable {α κ : Type*} [LinearOrder κ] (key : α → κ)

/-- Strictly ascending by key. -/
def Asc (l : List α) : Prop := l.Pairwise fun a b => key a < key b

/-- The element is put where it belongs, unless one of its key is there. -/
def insert (x : α) : List α → List α
  | [] => [x]
  | y :: ys =>
    if key x < key y then x :: y :: ys
    else if key x = key y then y :: ys
    else y :: insert x ys

/-- Without the element of the key of `x`. -/
def erase (x : α) (l : List α) : List α := l.filter fun y => key y ≠ key x

/-- Without the elements of a collection. -/
def removeAll [DecidableEq α] (items l : List α) : List α :=
  if items.length < l.length then items.foldl (fun l x => erase key x l) l
  else l.filter fun y => y ∉ items

variable {key} {x y z : α} {l items : List α}

theorem asc_cons : Asc key (x :: l) ↔ (∀ y ∈ l, key x < key y) ∧ Asc key l := List.pairwise_cons

theorem Asc.sublist {l' : List α} (h : Asc key l) (hs : l'.Sublist l) : Asc key l' :=
  List.Pairwise.sublist hs h

theorem Asc.nodup (h : Asc key l) : l.Nodup :=
  List.Pairwise.imp (fun hlt heq => absurd (heq ▸ hlt) (lt_irrefl _)) h

/-- What stands behind an element is greater. -/
theorem Asc.key_lt {done : List α} (h : Asc key (done ++ x :: l)) (hy : y ∈ l) : key x < key y :=
  (asc_cons.mp (List.pairwise_append.mp h).2.1).1 y hy

/-! ## Insert -/

theorem sublist_insert : l.Sublist (insert key x l) := by
  induction l with
  | nil => exact List.nil_sublist _
  | cons y ys ih =>
    unfold insert
    split
    · exact List.sublist_cons_self ..
    · split
      · exact List.Sublist.refl _
      · exact ih.cons_cons y

theorem mem_insert (h : Asc key l) :
    z ∈ insert key x l ↔ z ∈ l ∨ z = x ∧ ∀ y ∈ l, key y ≠ key x := by
  induction l with
  | nil => simp [insert]
  | cons y ys ih =>
    obtain ⟨hy, hys⟩ := asc_cons.mp h
    unfold insert
    split
    next hlt =>
      have hnew : ∀ w ∈ y :: ys, key w ≠ key x := by
        intro w hw
        rcases List.mem_cons.mp hw with rfl | hw
        · exact hlt.ne'
        · exact (hlt.trans (hy w hw)).ne'
      rw [List.mem_cons, or_comm]
      exact or_congr Iff.rfl (and_iff_left hnew).symm
    next hge =>
      split
      next heq =>
        refine ⟨Or.inl, fun hz => hz.elim id fun hnew => ?_⟩
        exact absurd heq.symm (hnew.2 y List.mem_cons_self)
      next hne =>
        rw [List.mem_cons, ih hys, List.mem_cons, or_assoc, List.forall_mem_cons]
        exact or_congr Iff.rfl (or_congr Iff.rfl (and_congr Iff.rfl
          (and_iff_right (Ne.symm hne)).symm))

theorem Asc.insert (h : Asc key l) : Asc key (insert key x l) := by
  induction l with
  | nil => exact List.pairwise_singleton ..
  | cons y ys ih =>
    obtain ⟨hy, hys⟩ := asc_cons.mp h
    unfold SortedSet.insert
    split
    next hlt =>
      refine asc_cons.mpr ⟨fun w hw => ?_, h⟩
      rcases List.mem_cons.mp hw with rfl | hw
      · exact hlt
      · exact hlt.trans (hy w hw)
    next hge =>
      split
      next => exact h
      next hne =>
        refine asc_cons.mpr ⟨fun w hw => ?_, ih hys⟩
        rcases (mem_insert hys).mp hw with hw | ⟨rfl, -⟩
        · exact hy w hw
        · exact lt_of_le_of_ne (not_lt.mp hge) (Ne.symm hne)

/-! ## Remove -/

theorem mem_erase : z ∈ erase key x l ↔ z ∈ l ∧ key z ≠ key x := by
  unfold erase
  rw [List.mem_filter, decide_eq_true_iff]

theorem erase_sublist : (erase key x l).Sublist l := List.filter_sublist

theorem foldl_erase_sublist : (items.foldl (fun l x => erase key x l) l).Sublist l := by
  induction items generalizing l with
  | nil => exact List.Sublist.refl l
  | cons x items ih => exact ih.trans erase_sublist

theorem mem_foldl_erase :
    z ∈ items.foldl (fun l x => erase key x l) l ↔ z ∈ l ∧ ∀ x ∈ items, key z ≠ key x := by
  induction items generalizing l with
  | nil => simp
  | cons x items ih =>
    rw [List.foldl_cons, ih, mem_erase, List.forall_mem_cons, and_assoc]

section

variable [DecidableEq α]

theorem removeAll_sublist : (removeAll key items l).Sublist l := by
  unfold removeAll
  split
  · exact foldl_erase_sublist
  · exact List.filter_sublist

/-- What is left is not of the collection. -/
theorem notMem_of_mem_removeAll (h : z ∈ removeAll key items l) : z ∉ items := by
  unfold removeAll at h
  split at h
  · exact fun hz => (mem_foldl_erase.mp h).2 z hz rfl
  · exact of_decide_eq_true (List.mem_filter.mp h).2

/-- An element stays if the collection has neither it nor, where `removeAll` goes by key,
another one of its key. -/
theorem mem_removeAll_of (hz : z ∈ l) (hitems : z ∉ items)
    (hkey : items.length < l.length → ∀ x ∈ items, key z ≠ key x) : z ∈ removeAll key items l := by
  unfold removeAll
  split
  next hlt => exact mem_foldl_erase.mpr ⟨hz, hkey hlt⟩
  next => exact List.mem_filter.mpr ⟨hz, decide_eq_true hitems⟩

end

end SortedSet
