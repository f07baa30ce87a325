import Mathlib.Data.BitVec
import Mathlib.Logic.Function.Basic

/-!
# Byte memory with a record of what is touched

A C function that works through a pointer is a computation `MemM α` over a byte
memory `Mem`: a result, the memory after it and the offsets it has touched, in
order. Offsets count from the pointer that the function is given, and the
memory goes on behind the end of any packet in it, as it does in C: whether an
access is inside is a statement, not a condition of the model.

The three parts are read off by `val`, `mem` and `log`, and each has one
equation for each way of building a computation. `Inside n x m` says that `x`
started in `m` stays below `n`; its rules are equivalences, so a question about
a function is rewritten into a question about its header fields.
-/

namespace ByteMem

/-- A byte at every offset. -/
abbrev Mem : Type := Nat → BitVec 8

/-- A computation over a byte memory. -/
def MemM (α : Type) : Type := Mem → α × Mem × List Nat

variable {α β : Type}

namespace MemM

/-- The result. -/
def val (x : MemM α) (m : Mem) : α := (x m).1

/-- The memory afterwards. -/
def mem (x : MemM α) (m : Mem) : Mem := (x m).2.1

/-- The offsets touched. -/
def log (x : MemM α) (m : Mem) : List Nat := (x m).2.2

end MemM

instance : Monad MemM where
  pure a := fun m => (a, m, [])
  bind x f := fun m =>
    let y := f (x m).1 (x m).2.1
    (y.1, y.2.1, (x m).2.2 ++ y.2.2)

/-- Reading a byte. -/
def rd (o : Nat) : MemM (BitVec 8) := fun m => (m o, m, [o])

/-- Writing a byte. -/
def wr (o : Nat) (b : BitVec 8) : MemM Unit := fun m => ((), Function.update m o b, [o])

namespace MemM

variable (m : Mem)

@[simp] theorem val_pure (a : α) : (pure a : MemM α).val m = a := rfl
@[simp] theorem mem_pure (a : α) : (pure a : MemM α).mem m = m := rfl
@[simp] theorem log_pure (a : α) : (pure a : MemM α).log m = [] := rfl

@[simp] theorem val_bind (x : MemM α) (f : α → MemM β) :
    (x >>= f).val m = (f (x.val m)).val (x.mem m) := rfl

@[simp] theorem mem_bind (x : MemM α) (f : α → MemM β) :
    (x >>= f).mem m = (f (x.val m)).mem (x.mem m) := rfl

@[simp] theorem log_bind (x : MemM α) (f : α → MemM β) :
    (x >>= f).log m = x.log m ++ (f (x.val m)).log (x.mem m) := rfl

@[simp] theorem val_rd (o : Nat) : (rd o).val m = m o := rfl
@[simp] theorem mem_rd (o : Nat) : (rd o).mem m = m := rfl
@[simp] theorem log_rd (o : Nat) : (rd o).log m = [o] := rfl
@[simp] theorem mem_wr (o : Nat) (b : BitVec 8) : (wr o b).mem m = Function.update m o b := rfl
@[simp] theorem log_wr (o : Nat) (b : BitVec 8) : (wr o b).log m = [o] := rfl

/-- What comes behind a step matters only where the step leads. -/
theorem bind_congr_at {x : MemM α} {f g : α → MemM β}
    (h : f (x.val m) (x.mem m) = g (x.val m) (x.mem m)) : (x >>= f) m = (x >>= g) m := by
  have hx : ∀ k : α → MemM β, (x >>= k) m =
      ((k (x.val m) (x.mem m)).1, (k (x.val m) (x.mem m)).2.1,
        x.log m ++ (k (x.val m) (x.mem m)).2.2) := fun _ => rfl
  rw [hx, hx, h]

theorem val_ite (c : Prop) [Decidable c] (x y : MemM α) :
    (if c then x else y).val m = if c then x.val m else y.val m := by
  split <;> rfl

theorem mem_ite (c : Prop) [Decidable c] (x y : MemM α) :
    (if c then x else y).mem m = if c then x.mem m else y.mem m := by
  split <;> rfl

end MemM

/-! ## What stays inside -/

/-- Everything that `x` touches from `m` on lies below `n`. -/
def Inside (n : Nat) (x : MemM α) (m : Mem) : Prop := ∀ o ∈ x.log m, o < n

section inside

variable (n : Nat) (m : Mem)

@[simp] theorem inside_pure (a : α) : Inside n (pure a) m := by simp [Inside]

@[simp] theorem inside_rd (o : Nat) : Inside n (rd o) m ↔ o < n := by simp [Inside]

@[simp] theorem inside_wr (o : Nat) (b : BitVec 8) : Inside n (wr o b) m ↔ o < n := by
  simp [Inside]

/-- Only what a computation does from `m` on matters. -/
theorem inside_congr {n : Nat} {m : Mem} {x y : MemM α} (h : x m = y m) :
    Inside n x m ↔ Inside n y m := by
  unfold Inside MemM.log
  rw [h]

@[simp] theorem inside_bind (x : MemM α) (f : α → MemM β) :
    Inside n (x >>= f) m ↔ Inside n x m ∧ Inside n (f (x.val m)) (x.mem m) := by
  simp only [Inside, MemM.log_bind, List.mem_append]
  refine ⟨fun h => ⟨fun o ho => h o (Or.inl ho), fun o ho => h o (Or.inr ho)⟩, ?_⟩
  intro h o ho
  rcases ho with ho | ho
  · exact h.1 o ho
  · exact h.2 o ho

theorem inside_ite (c : Prop) [Decidable c] (x y : MemM α) :
    Inside n (if c then x else y) m ↔ if c then Inside n x m else Inside n y m := by
  split <;> rfl

end inside

/-! ## Words on a little-endian host -/

/-- A 16-bit load. -/
def rd16 (o : Nat) : MemM (BitVec 16) := do
  let b0 ← rd o
  let b1 ← rd (o + 1)
  return b1 ++ b0

/-- A 16-bit store. -/
def wr16 (o : Nat) (w : BitVec 16) : MemM Unit := do
  wr o (w.extractLsb' 0 8)
  wr (o + 1) (w.extractLsb' 8 8)

/-- A 32-bit load. -/
def rd32 (o : Nat) : MemM (BitVec 32) := do
  let lo ← rd16 o
  let hi ← rd16 (o + 2)
  return hi ++ lo

/-- A 32-bit store. -/
def wr32 (o : Nat) (w : BitVec 32) : MemM Unit := do
  wr16 o (w.extractLsb' 0 16)
  wr16 (o + 2) (w.extractLsb' 16 16)

/-- `memcpy` of a byte string to an offset. -/
def wrBytes (o : Nat) : List (BitVec 8) → MemM Unit
  | [] => pure ()
  | b :: bs => do
    wr o b
    wrBytes (o + 1) bs

/-- `memcpy` of the `n` bytes from an offset on. -/
def rdBytes (o : Nat) : Nat → MemM (List (BitVec 8))
  | 0 => pure []
  | n + 1 => do
    let b ← rd o
    let bs ← rdBytes (o + 1) n
    return b :: bs

namespace Mem

/-- The 16-bit word at an offset. -/
def word16 (m : Mem) (o : Nat) : BitVec 16 := m (o + 1) ++ m o

/-- The 32-bit word at an offset. -/
def word32 (m : Mem) (o : Nat) : BitVec 32 := m.word16 (o + 2) ++ m.word16 o

/-- The memory with a 16-bit word put at an offset. -/
def put16 (m : Mem) (o : Nat) (w : BitVec 16) : Mem :=
  Function.update (Function.update m o (w.extractLsb' 0 8)) (o + 1) (w.extractLsb' 8 8)

/-- The memory with a 32-bit word put at an offset. -/
def put32 (m : Mem) (o : Nat) (w : BitVec 32) : Mem :=
  (m.put16 o (w.extractLsb' 0 16)).put16 (o + 2) (w.extractLsb' 16 16)

/-- The memory with a byte string put at an offset. -/
def putBytes (m : Mem) (o : Nat) : List (BitVec 8) → Mem
  | [] => m
  | b :: bs => putBytes (Function.update m o b) (o + 1) bs

/-- The `n` bytes from an offset on. -/
def bytes (m : Mem) (o : Nat) : Nat → List (BitVec 8)
  | 0 => []
  | n + 1 => m o :: bytes m (o + 1) n

end Mem

section words

variable (n : Nat) (m : Mem) (o : Nat)

@[simp] theorem val_rd16 : (rd16 o).val m = m.word16 o := rfl
@[simp] theorem mem_rd16 : (rd16 o).mem m = m := rfl
@[simp] theorem val_rd32 : (rd32 o).val m = m.word32 o := rfl
@[simp] theorem mem_rd32 : (rd32 o).mem m = m := rfl
@[simp] theorem mem_wr16 (w : BitVec 16) : (wr16 o w).mem m = m.put16 o w := rfl
@[simp] theorem mem_wr32 (w : BitVec 32) : (wr32 o w).mem m = m.put32 o w := rfl

@[simp] theorem inside_rd16 : Inside n (rd16 o) m ↔ o + 1 < n := by
  simp [rd16]
  omega

@[simp] theorem inside_wr16 (w : BitVec 16) : Inside n (wr16 o w) m ↔ o + 1 < n := by
  simp [wr16]
  omega

@[simp] theorem inside_rd32 : Inside n (rd32 o) m ↔ o + 3 < n := by
  simp [rd32]
  omega

@[simp] theorem inside_wr32 (w : BitVec 32) : Inside n (wr32 o w) m ↔ o + 3 < n := by
  simp [wr32]
  omega

@[simp] theorem mem_wrBytes (bs : List (BitVec 8)) :
    (wrBytes o bs).mem m = m.putBytes o bs := by
  induction bs generalizing o m with
  | nil => rfl
  | cons b bs ih => exact ih _ _

@[simp] theorem val_rdBytes (k : Nat) : (rdBytes o k).val m = m.bytes o k := by
  induction k generalizing o with
  | zero => rfl
  | succ k ih =>
    rw [rdBytes, MemM.val_bind, MemM.val_bind, MemM.mem_rd, ih]
    rfl

@[simp] theorem mem_rdBytes (k : Nat) : (rdBytes o k).mem m = m := by
  induction k generalizing o with
  | zero => rfl
  | succ k ih =>
    rw [rdBytes, MemM.mem_bind, MemM.mem_bind, MemM.mem_rd, ih]
    rfl

theorem inside_rdBytes {k : Nat} (h : o + k ≤ n) : Inside n (rdBytes o k) m := by
  induction k generalizing o with
  | zero => exact inside_pure n m []
  | succ k ih =>
    rw [rdBytes, inside_bind, inside_bind, inside_rd]
    exact ⟨by omega, ih (o + 1) (by omega), inside_pure n _ _⟩

theorem inside_wrBytes (bs : List (BitVec 8)) (h : bs ≠ []) :
    Inside n (wrBytes o bs) m ↔ o + bs.length ≤ n := by
  induction bs generalizing o m with
  | nil => exact absurd rfl h
  | cons b bs ih =>
    cases bs with
    | nil =>
      have hone : Inside n (wrBytes o [b]) m ↔ o < n := by simp [wrBytes]
      exact hone.trans Nat.lt_iff_add_one_le
    | cons c cs =>
      have hrest := ih (Function.update m o b) (o + 1) (by simp)
      rw [wrBytes, inside_bind, MemM.mem_wr, hrest, inside_wr]
      simp only [List.length_cons]
      omega

end words

/-! ## Reading back -/

namespace Mem

variable (m : Mem) (o : Nat)

@[simp] theorem put16_fst (w : BitVec 16) : m.put16 o w o = w.extractLsb' 0 8 := by
  simp [put16]

@[simp] theorem put16_snd (w : BitVec 16) : m.put16 o w (o + 1) = w.extractLsb' 8 8 := by
  simp [put16]

/-- A 16-bit store changes the two bytes of the word only. -/
theorem put16_of_ne {i : Nat} (w : BitVec 16) (h₀ : i ≠ o) (h₁ : i ≠ o + 1) :
    m.put16 o w i = m i := by
  simp [put16, h₀, h₁]

/-- A 32-bit store changes the four bytes of the word only. -/
theorem put32_of_ne {i : Nat} (w : BitVec 32) (h : i < o ∨ o + 4 ≤ i) : m.put32 o w i = m i := by
  unfold put32
  rw [put16_of_ne _ _ _ (by omega) (by omega), put16_of_ne _ _ _ (by omega) (by omega)]

/-- A store makes no difference where there was none. -/
theorem put16_congr {m' : Mem} {i : Nat} (w : BitVec 16) (h : m i = m' i) :
    m.put16 o w i = m'.put16 o w i := by
  unfold put16
  rw [Function.update_apply, Function.update_apply, Function.update_apply, Function.update_apply, h]

theorem put32_congr {m' : Mem} {i : Nat} (w : BitVec 32) (h : m i = m' i) :
    m.put32 o w i = m'.put32 o w i :=
  put16_congr _ _ _ (put16_congr m o _ h)

theorem putBytes_of_ne {i : Nat} (bs : List (BitVec 8)) (h : i < o ∨ o + bs.length ≤ i) :
    m.putBytes o bs i = m i := by
  induction bs generalizing m o with
  | nil => rfl
  | cons b bs ih =>
    simp only [List.length_cons] at h
    rw [putBytes, ih _ _ (by omega), Function.update_of_ne (by omega)]

theorem putBytes_getElem (bs : List (BitVec 8)) {i : Nat} (h : i < bs.length) :
    m.putBytes o bs (o + i) = bs[i] := by
  induction bs generalizing m o i with
  | nil => simp at h
  | cons b bs ih =>
    rw [putBytes]
    cases i with
    | zero =>
      have hfirst := putBytes_of_ne (Function.update m o b) (o + 1) bs (Or.inl (Nat.lt_succ_self o))
      simp only [Nat.add_zero, List.getElem_cons_zero]
      rw [hfirst, Function.update_self]
    | succ i =>
      have hi : i < bs.length := by simpa using h
      rw [show o + (i + 1) = o + 1 + i by omega, ih _ _ hi, List.getElem_cons_succ]

/-- What `memset` leaves where it was. -/
theorem putBytes_replicate {i k : Nat} (b : BitVec 8) (h : o ≤ i) (hk : i < o + k) :
    m.putBytes o (List.replicate k b) i = b := by
  have hlen : i - o < (List.replicate k b).length := by
    rw [List.length_replicate]
    omega
  have hget := putBytes_getElem m o (List.replicate k b) hlen
  rwa [Nat.add_sub_cancel' h, List.getElem_replicate] at hget

/-- What is put is what is found. -/
theorem bytes_putBytes (bs : List (BitVec 8)) : (m.putBytes o bs).bytes o bs.length = bs := by
  induction bs generalizing m o with
  | nil => rfl
  | cons b bs ih =>
    rw [putBytes, List.length_cons, bytes, ih, putBytes_of_ne _ _ _ (Or.inl (by omega)),
      Function.update_self]

@[simp] theorem length_bytes (n : Nat) : (m.bytes o n).length = n := by
  induction n generalizing o with
  | zero => rfl
  | succ n ih => rw [bytes, List.length_cons, ih]

theorem getElem_bytes (n : Nat) {i : Nat} (h : i < (m.bytes o n).length) :
    (m.bytes o n)[i] = m (o + i) := by
  induction n generalizing o i with
  | zero => simp [bytes] at h
  | succ n ih =>
    cases i with
    | zero => rfl
    | succ i =>
      have hi : i < (m.bytes (o + 1) n).length := by simpa using h
      rw [show o + (i + 1) = o + 1 + i by omega, ← ih (o + 1) hi]
      rfl

theorem bytes_append (a b : Nat) : m.bytes o (a + b) = m.bytes o a ++ m.bytes (o + a) b := by
  induction a generalizing o with
  | zero => simp [bytes]
  | succ a ih =>
    rw [Nat.succ_add, bytes, bytes, ih, List.cons_append, Nat.add_right_comm o 1 a,
      Nat.add_assoc o a 1]

theorem take_bytes {n k : Nat} (h : k ≤ n) : (m.bytes o n).take k = m.bytes o k := by
  obtain ⟨r, rfl⟩ := Nat.exists_eq_add_of_le h
  rw [bytes_append]
  exact List.take_left' (length_bytes m o k)

/-- Memories that agree on a range have the same bytes there. -/
theorem bytes_congr {m m' : Mem} {o n : Nat} (h : ∀ i, o ≤ i → i < o + n → m i = m' i) :
    m.bytes o n = m'.bytes o n := by
  induction n generalizing o with
  | zero => rfl
  | succ n ih =>
    rw [bytes, bytes, h o le_rfl (by omega), ih (fun i hi hn => h i (by omega) (by omega))]

end Mem

end ByteMem
