import Mathlib.Logic.Function.Basic
import Mathlib.Data.List.Count

/-!
# Reference counts (`ocpa/refs.h`)

`REFS_DECLARE_METHODS_BODIES` gives every counted type the same two methods:
`ref_get` increments the counter of an instance, `ref_put` decrements it and
calls `destroy` when it reaches zero. The model keeps the counters of all
instances of a type in one `Refs`, indexed by the instance's address, together
with the instances destroyed so far. (`__ref_generation` is only ever logged
and has no counterpart; neither has the wrap-around of the unsigned counter,
which would take 2³² live references.)

`refCount_getAll`/`refCount_putAll` are the two facts that the accounting of
the router's references rests on: a list of gets (puts) moves the counter of
each instance by its number of occurrences in the list.
-/

namespace ConfProfile

/-- The counters (`__ref_count`) of the instances at addresses `ι`, and which of
them have been destroyed. -/
structure Refs (ι : Type) where
  refCount : ι → Int
  destroyed : ι → Bool

namespace Refs

variable {ι : Type} [DecidableEq ι]

/-- `ref_get_##type`. The counter is positive afterwards, so the instance itself
is what the method returns. -/
def refGet (h : Refs ι) (t : ι) : Refs ι :=
  { h with refCount := Function.update h.refCount t (h.refCount t + 1) }

/-- `ref_put_##type`: `destroy` runs when the counter gets to zero. -/
def refPut (h : Refs ι) (t : ι) : Refs ι where
  refCount := Function.update h.refCount t (h.refCount t - 1)
  destroyed :=
    if h.refCount t - 1 = 0 then Function.update h.destroyed t true else h.destroyed

/-- One `ref_get` for each instance of a list, in its order. -/
def getAll (h : Refs ι) (ts : List ι) : Refs ι := ts.foldl refGet h

/-- One `ref_put` for each instance of a list, in its order. -/
def putAll (h : Refs ι) (ts : List ι) : Refs ι := ts.foldl refPut h

@[simp] theorem getAll_nil (h : Refs ι) : h.getAll [] = h := rfl

@[simp] theorem putAll_nil (h : Refs ι) : h.putAll [] = h := rfl

@[simp] theorem getAll_cons (h : Refs ι) (t : ι) (ts : List ι) :
    h.getAll (t :: ts) = (h.refGet t).getAll ts := rfl

@[simp] theorem putAll_cons (h : Refs ι) (t : ι) (ts : List ι) :
    h.putAll (t :: ts) = (h.refPut t).putAll ts := rfl

theorem putAll_append (h : Refs ι) (ts us : List ι) :
    h.putAll (ts ++ us) = (h.putAll ts).putAll us := List.foldl_append

@[simp] theorem refCount_refGet (h : Refs ι) (t u : ι) :
    (h.refGet t).refCount u = h.refCount u + [t].count u := by
  by_cases hu : u = t
  · subst hu
    simp [refGet]
  · simp [refGet, Function.update_of_ne hu, Ne.symm hu]

@[simp] theorem refCount_refPut (h : Refs ι) (t u : ι) :
    (h.refPut t).refCount u = h.refCount u - [t].count u := by
  by_cases hu : u = t
  · subst hu
    simp [refPut]
  · simp [refPut, Function.update_of_ne hu, Ne.symm hu]

@[simp] theorem refCount_getAll (h : Refs ι) (ts : List ι) (u : ι) :
    (h.getAll ts).refCount u = h.refCount u + ts.count u := by
  induction ts generalizing h with
  | nil => simp
  | cons t ts ih =>
    rw [getAll_cons, ih, refCount_refGet, List.count_cons (l := ts), List.count_singleton]
    push_cast
    omega

@[simp] theorem refCount_putAll (h : Refs ι) (ts : List ι) (u : ι) :
    (h.putAll ts).refCount u = h.refCount u - ts.count u := by
  induction ts generalizing h with
  | nil => simp
  | cons t ts ih =>
    rw [putAll_cons, ih, refCount_refPut, List.count_cons (l := ts), List.count_singleton]
    push_cast
    omega

/-- `ref_put` destroys exactly the instance whose last reference it drops. -/
theorem destroyed_refPut (h : Refs ι) (t u : ι) :
    (h.refPut t).destroyed u = true ↔ h.destroyed u = true ∨ (u = t ∧ h.refCount t = 1) := by
  by_cases h1 : h.refCount t = 1
  · by_cases hu : u = t
    · subst hu
      simp [refPut, h1]
    · simp [refPut, h1, hu]
  · have hne : h.refCount t - 1 ≠ 0 := by omega
    simp [refPut, hne, h1]

end Refs

end ConfProfile
