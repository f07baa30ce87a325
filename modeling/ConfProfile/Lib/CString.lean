import Mathlib.Algebra.BigOperators.Group.List.Basic
import Mathlib.Algebra.GroupWithZero.Nat

/-!
# Strings in a block of memory

A block is the list of its cells. A string in it goes from a pointer up to the next terminator `z`
(`stringAt`), and strings that stand one behind the other are the parts in front of the terminators
(`parts`). `overwrite` is a block after a loop has written cells into it, one behind the other.
-/

namespace CString

variable {α : Type*} [DecidableEq α] (z : α)

/-- The cells up to the terminator, if there is one. -/
def upTo : List α → Option (List α)
  | [] => none
  | c :: rest => if c = z then some [] else (upTo rest).map (c :: ·)

/-- The string at a pointer, if it ends inside the block. -/
def stringAt (block : List α) (p : Nat) : Option (List α) := upTo z (block.drop p)

/-- The parts in front of the terminators; what comes behind the last of them is not one. -/
def parts : List α → List (List α)
  | [] => []
  | c :: rest =>
    if c = z then [] :: parts rest
    else match parts rest with
      | [] => []
      | part :: later => (c :: part) :: later

variable {z} {s l : List α}

theorem upTo_append (h : z ∉ s) (d : List α) : upTo z (s ++ z :: d) = some s := by
  induction s with
  | nil => exact if_pos rfl
  | cons c s ih =>
    rw [List.cons_append, upTo, if_neg (List.ne_of_not_mem_cons h).symm,
      ih (List.not_mem_of_not_mem_cons h), Option.map_some]

theorem notMem_of_upTo : ∀ {l s : List α}, upTo z l = some s → z ∉ s := by
  intro l
  induction l with
  | nil => intro s h; exact absurd h (Option.some_ne_none s).symm
  | cons c l ih =>
    intro s h
    rw [upTo] at h
    split at h
    next =>
      obtain rfl := Option.some.inj h
      exact List.not_mem_nil
    next hc =>
      obtain ⟨t, ht, rfl⟩ := Option.map_eq_some_iff.mp h
      exact List.not_mem_cons_of_ne_of_not_mem (Ne.symm hc) (ih ht)

theorem parts_append (h : z ∉ s) (d : List α) : parts z (s ++ z :: d) = s :: parts z d := by
  induction s with
  | nil => exact if_pos rfl
  | cons c s ih =>
    rw [List.cons_append, parts, if_neg (List.ne_of_not_mem_cons h).symm,
      ih (List.not_mem_of_not_mem_cons h)]

theorem parts_eq_nil (h : z ∉ l) : parts z l = [] := by
  induction l with
  | nil => rfl
  | cons c l ih =>
    rw [parts, if_neg (List.ne_of_not_mem_cons h).symm, ih (List.not_mem_of_not_mem_cons h)]

/-- The strings that were put into a block with their terminators are its parts. -/
theorem parts_flatMap {ss : List (List α)} (h : ∀ s ∈ ss, z ∉ s) :
    parts z (ss.flatMap (· ++ [z])) = ss := by
  induction ss with
  | nil => rfl
  | cons s ss ih =>
    rw [List.flatMap_cons, List.append_assoc, List.singleton_append,
      parts_append (h s List.mem_cons_self), ih fun t ht => h t (List.mem_cons_of_mem s ht)]

/-- The parts and their terminators are in the list. -/
theorem sum_length_parts_le (l : List α) :
    ((parts z l).map fun part => part.length + 1).sum ≤ l.length := by
  induction l with
  | nil => exact Nat.le_refl 0
  | cons c l ih =>
    rw [parts, List.length_cons]
    split
    next =>
      rw [List.map_cons, List.sum_cons, List.length_nil]
      omega
    next =>
      split
      next => exact Nat.zero_le _
      next part later hparts =>
        rw [hparts, List.map_cons, List.sum_cons] at ih
        rw [List.map_cons, List.sum_cons, List.length_cons]
        omega

/-! ## Writing over a block -/

/-- A block with cells written into it from an offset on. -/
def overwrite (block : List α) (o : Nat) (cells : List α) : List α :=
  block.take o ++ (cells ++ block.drop (o + cells.length))

variable {block cells : List α} {o : Nat}

omit [DecidableEq α] in
@[simp] theorem overwrite_nil (block : List α) (o : Nat) : overwrite block o [] = block :=
  List.take_append_drop o block

omit [DecidableEq α] in
theorem length_overwrite (h : o + cells.length ≤ block.length) :
    (overwrite block o cells).length = block.length := by
  simp only [overwrite, List.length_append, List.length_take, List.length_drop]
  omega

omit [DecidableEq α] in
/-- One more cell. -/
theorem set_overwrite (h : o + cells.length < block.length) (c : α) :
    (overwrite block o cells).set (o + cells.length) c = overwrite block o (cells ++ [c]) := by
  have htake : (block.take o).length = o := List.length_take_of_le (by omega)
  have hrest : block.drop (o + cells.length) =
      block[o + cells.length] :: block.drop (o + cells.length + 1) := List.drop_eq_getElem_cons h
  rw [overwrite, overwrite, hrest, List.set_append_right _ _ (by omega), htake,
    Nat.add_sub_cancel_left, List.set_append_right _ _ (Nat.le_refl _), Nat.sub_self,
    List.set_cons_zero, List.length_append, List.length_singleton, List.append_assoc,
    List.singleton_append, Nat.add_assoc]

omit [DecidableEq α] in
/-- What comes behind the cells stays as it was. -/
theorem getElem?_overwrite {k : Nat} (h : o + cells.length ≤ block.length)
    (hk : o + cells.length ≤ k) : (overwrite block o cells)[k]? = block[k]? := by
  have htake : (block.take o).length = o := List.length_take_of_le (by omega)
  rw [overwrite, List.getElem?_append_right (by omega), htake,
    List.getElem?_append_right (by omega), List.getElem?_drop]
  congr 1
  omega

omit [DecidableEq α] in
theorem drop_overwrite (h : o ≤ block.length) :
    (overwrite block o cells).drop o = cells ++ block.drop (o + cells.length) := by
  rw [overwrite, List.drop_left' (List.length_take_of_le h)]

end CString
