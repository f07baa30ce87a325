import Mathlib.Data.List.Perm.Basic
import Mathlib.Data.List.Count

/-!
# Handles

A program acquires handles and gives them back. `Table` is what it holds after its calls, and
whether it has ever released what it did not hold. `held_perm_iff` says what it means that it
holds what its owners need: each handle is released as often as it was acquired and is not
owned any more.
-/

namespace Handles

variable {α : Type*} [DecidableEq α]

inductive HandleCall (α : Type*)
  | acquire (a : α)
  | release (a : α)
  deriving DecidableEq, Repr

structure Table (α : Type*) where
  held : List α
  /-- something was released that was not held -/
  stray : Bool
  deriving DecidableEq

def Table.call (t : Table α) : HandleCall α → Table α
  | .acquire a => { t with held := a :: t.held }
  | .release a =>
    if a ∈ t.held then { t with held := t.held.erase a } else { t with stray := true }

def Table.calls (t : Table α) (calls : List (HandleCall α)) : Table α := calls.foldl Table.call t

/-- What is held after the calls. -/
def after (calls : List (HandleCall α)) : Table α := Table.calls ⟨[], false⟩ calls

section calls

variable (t : Table α) (a : α) (cs cs' : List (HandleCall α))

@[simp] theorem Table.calls_nil : t.calls [] = t := rfl

@[simp] theorem Table.calls_cons (c : HandleCall α) : t.calls (c :: cs) = (t.call c).calls cs := rfl

theorem after_append : after (cs ++ cs') = (after cs).calls cs' := List.foldl_append

theorem Table.call_acquire : t.call (.acquire a) = { t with held := a :: t.held } := rfl

variable {t a}

theorem Table.call_release (h : a ∈ t.held) :
    t.call (.release a) = { t with held := t.held.erase a } := if_pos h

theorem Table.call_release_stray (h : a ∉ t.held) :
    t.call (.release a) = { t with stray := true } := if_neg h

/-- The handle that was acquired last is released. -/
theorem Table.call_release_head {held : List α} (h : t.held = a :: held) :
    t.call (.release a) = { t with held := held } := by
  rw [Table.call_release (by rw [h]; exact List.mem_cons_self), h, List.erase_cons_head]

end calls

variable {t : Table α} {c : HandleCall α} {cs : List (HandleCall α)}

theorem Table.stray_of_call (h : (t.call c).stray = false) : t.stray = false := by
  cases c with
  | acquire => exact h
  | release a =>
    by_cases ha : a ∈ t.held
    · rwa [Table.call_release ha] at h
    · rw [Table.call_release_stray ha] at h
      cases h

/-- Once something was released that was not held, this stays so. -/
theorem Table.stray_of_calls (h : (t.calls cs).stray = false) : t.stray = false := by
  induction cs generalizing t with
  | nil => exact h
  | cons c cs ih => exact Table.stray_of_call (ih h)

@[simp] theorem Table.calls_acquire (as : List α) :
    t.calls (as.map .acquire) = { t with held := as.reverse ++ t.held } := by
  induction as generalizing t with
  | nil => rfl
  | cons a as ih =>
    rw [List.map_cons, Table.calls_cons, Table.call_acquire, ih, List.reverse_cons,
      List.append_assoc, List.singleton_append]

/-- Everything that is held is released. -/
theorem Table.calls_release {as : List α} (h : t.held.Perm as) :
    t.calls (as.map .release) = { t with held := [] } := by
  induction as generalizing t with
  | nil =>
    rw [List.map_nil, Table.calls_nil, ← List.perm_nil.mp h]
  | cons a as ih =>
    have ha : a ∈ t.held := h.symm.subset List.mem_cons_self
    have hrest : (t.held.erase a).Perm as := by
      have herase := h.erase a
      rwa [List.erase_cons_head] at herase
    rw [List.map_cons, Table.calls_cons, Table.call_release ha, ih hrest]

/-- Each release gives back one handle at most. -/
theorem Table.length_calls_release (as : List α) :
    t.held.length ≤ (t.calls (as.map .release)).held.length + as.length := by
  induction as generalizing t with
  | nil => exact Nat.le_refl _
  | cons a as ih =>
    have hcall : t.held.length ≤ (t.call (.release a)).held.length + 1 := by
      by_cases ha : a ∈ t.held
      · rw [Table.call_release ha, List.length_erase_of_mem ha]
        omega
      · rw [Table.call_release_stray ha]
        exact Nat.le_succ _
    have hrest := ih (t := t.call (.release a))
    rw [List.map_cons, Table.calls_cons, List.length_cons]
    omega

/-- A call acquires a handle, releases one that is held, or has to do with other handles. -/
theorem Table.count_call (h : (t.call c).stray = false) (a : α) :
    [c].count (.acquire a) + t.held.count a =
      [c].count (.release a) + (t.call c).held.count a := by
  rw [List.count_singleton, List.count_singleton]
  cases c with
  | acquire b =>
    rw [Table.call_acquire, List.count_cons]
    simp only [beq_iff_eq, HandleCall.acquire.injEq, reduceCtorEq, if_false]
    omega
  | release b =>
    by_cases hb : b ∈ t.held
    · have hpos : 0 < t.held.count b := List.count_pos_iff.mpr hb
      rw [Table.call_release hb, List.count_erase]
      simp only [beq_iff_eq, HandleCall.release.injEq, reduceCtorEq, if_false]
      split
      next hab =>
        subst hab
        omega
      next => omega
    · rw [Table.call_release_stray hb] at h
      cases h

/-- Each handle is held as often as it was acquired and not released. -/
theorem Table.count_calls (h : (t.calls cs).stray = false) (a : α) :
    cs.count (.acquire a) + t.held.count a = cs.count (.release a) + (t.calls cs).held.count a := by
  induction cs generalizing t with
  | nil => rfl
  | cons c cs ih =>
    have hrest := ih h
    have hcall := Table.count_call (Table.stray_of_calls h) a
    rw [← List.singleton_append, List.count_append, List.count_append, List.singleton_append,
      Table.calls_cons]
    omega

/-- What is held is what is owned exactly if everything else has been released. -/
theorem held_perm_iff (h : (after cs).stray = false) (owned : List α) :
    (after cs).held.Perm owned ↔
      ∀ a, cs.count (.acquire a) = cs.count (.release a) + owned.count a := by
  rw [List.perm_iff_count]
  refine forall_congr' fun a => ?_
  have hcount := Table.count_calls h a
  rw [List.count_nil] at hcount
  unfold after at *
  omega

end Handles
