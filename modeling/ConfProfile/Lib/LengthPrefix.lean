import Mathlib.Data.List.TakeDrop
import ConfProfile.Lib.BigEndian

/-!
# Length-prefixed fields

A field is the number of its bytes, in `k` bytes of network order, and the bytes. A writer cuts the
number to `k` bytes, so what is read back is the field exactly if its length fits (`get_put_iff`),
and the same goes for a counted list of pairs of fields (`getCounted_putCounted_iff`): one field or
one count that does not fit is enough to lose the list.
-/

namespace LengthPrefix

open BigEndian (bytes value)

abbrev Bytes := List (BitVec 8)

/-- A field behind its length. -/
def put (k : Nat) (v : Bytes) : Bytes := bytes k v.length ++ v

/-- Reading some bytes. -/
def take (n : Nat) (s : Bytes) : Option (Bytes × Bytes) :=
  if s.length < n then none else some (s.take n, s.drop n)

/-- Reading a number of `k` bytes. -/
def number (k : Nat) (s : Bytes) : Option (Nat × Bytes) := do
  let (v, s) ← take k s
  return (value v, s)

/-- Reading a field behind its length. -/
def get (k : Nat) (s : Bytes) : Option (Bytes × Bytes) := do
  let (n, s) ← number k s
  take n s

/-- Pairs of fields, one behind the other. -/
def putPairs (k : Nat) (l : List (Bytes × Bytes)) : Bytes :=
  l.flatMap fun p => put k p.1 ++ put k p.2

/-- Reading that many pairs. -/
def getPairs (k : Nat) : Nat → Bytes → Option (List (Bytes × Bytes) × Bytes)
  | 0, s => some ([], s)
  | n + 1, s => do
    let (a, s) ← get k s
    let (b, s) ← get k s
    let (l, s) ← getPairs k n s
    return ((a, b) :: l, s)

/-- The pairs behind their number, which has `c` bytes. -/
def putCounted (c k : Nat) (l : List (Bytes × Bytes)) : Bytes := bytes c l.length ++ putPairs k l

/-- Reading them, to the end. -/
def getCounted (c k : Nat) (s : Bytes) : Option (List (Bytes × Bytes)) := do
  let (n, s) ← number c s
  let (l, s) ← getPairs k n s
  if s = [] then some l else none

/-- Both fields fit their length. -/
def Fits (k : Nat) (p : Bytes × Bytes) : Prop := p.1.length < 256 ^ k ∧ p.2.length < 256 ^ k

variable {k c n : Nat} {v rest : Bytes}

theorem take_append (v rest : Bytes) : take v.length (v ++ rest) = some (v, rest) := by
  rw [take, if_neg (by simp), List.take_left, List.drop_left]

theorem number_bytes (k n : Nat) (rest : Bytes) :
    number k (bytes k n ++ rest) = some (n % 256 ^ k, rest) := by
  have htake := take_append (bytes k n) rest
  rw [BigEndian.length_bytes] at htake
  rw [number, htake, ← BigEndian.value_bytes]
  rfl

/-- What is read behind a length that was cut. -/
theorem get_put (k : Nat) (v rest : Bytes) :
    get k (put k v ++ rest) = take (v.length % 256 ^ k) (v ++ rest) := by
  rw [get, put, List.append_assoc, number_bytes]
  rfl

theorem get_put_of_lt (h : v.length < 256 ^ k) : get k (put k v ++ rest) = some (v, rest) := by
  rw [get_put, Nat.mod_eq_of_lt h, take_append]

/-- Something is always read, of the length that was written. -/
theorem get_put_eq_some (k : Nat) (v rest : Bytes) :
    ∃ s, get k (put k v ++ rest) = some ((v ++ rest).take (v.length % 256 ^ k), s) := by
  have hle : v.length % 256 ^ k ≤ v.length := Nat.mod_le _ _
  rw [get_put, take, if_neg (by rw [List.length_append]; omega)]
  exact ⟨_, rfl⟩

/-- A field that is read as it was written fits its length. -/
theorem lt_of_get_put {s : Bytes} (h : get k (put k v ++ rest) = some (v, s)) :
    v.length < 256 ^ k := by
  obtain ⟨s', hs'⟩ := get_put_eq_some k v rest
  have heq : v = (v ++ rest).take (v.length % 256 ^ k) :=
    congrArg Prod.fst (Option.some.inj (h.symm.trans hs'))
  have hlen := congrArg List.length heq
  rw [List.length_take, List.length_append] at hlen
  have hmod := Nat.mod_lt v.length (Nat.pow_pos (n := k) (show 0 < 256 by decide))
  omega

/-- A field comes back exactly if its length fits. -/
theorem get_put_iff : get k (put k v ++ rest) = some (v, rest) ↔ v.length < 256 ^ k :=
  ⟨lt_of_get_put, get_put_of_lt⟩

theorem getPairs_succ (k n : Nat) (s : Bytes) :
    getPairs k (n + 1) s = (get k s).bind fun x => (get k x.2).bind fun y =>
      (getPairs k n y.2).bind fun z => some ((x.1, y.1) :: z.1, z.2) := rfl

theorem putPairs_cons (k : Nat) (p : Bytes × Bytes) (l : List (Bytes × Bytes)) :
    putPairs k (p :: l) = put k p.1 ++ (put k p.2 ++ putPairs k l) := by
  rw [putPairs, List.flatMap_cons, List.append_assoc]
  rfl

theorem getPairs_putPairs {l : List (Bytes × Bytes)} (h : ∀ p ∈ l, Fits k p) (rest : Bytes) :
    getPairs k l.length (putPairs k l ++ rest) = some (l, rest) := by
  induction l with
  | nil => rfl
  | cons p l ih =>
    obtain ⟨hp, hl⟩ := List.forall_mem_cons.mp h
    rw [List.length_cons, getPairs_succ, putPairs_cons, List.append_assoc, List.append_assoc,
      get_put_of_lt hp.1, Option.bind_some, get_put_of_lt hp.2, Option.bind_some, ih hl]
    rfl

/-- Pairs that are read as they were written fit. -/
theorem fits_of_getPairs {l : List (Bytes × Bytes)} {s : Bytes}
    (h : getPairs k l.length (putPairs k l ++ rest) = some (l, s)) : ∀ p ∈ l, Fits k p := by
  induction l with
  | nil => exact fun _ hp => absurd hp List.not_mem_nil
  | cons p l ih =>
    obtain ⟨v, w⟩ := p
    rw [List.length_cons, getPairs_succ, putPairs_cons, List.append_assoc, List.append_assoc] at h
    obtain ⟨⟨a, s₁⟩, ha, h⟩ := Option.bind_eq_some_iff.mp h
    obtain ⟨⟨b, s₂⟩, hb, h⟩ := Option.bind_eq_some_iff.mp h
    obtain ⟨⟨l', s₃⟩, hl, h⟩ := Option.bind_eq_some_iff.mp h
    obtain ⟨hpair, rfl⟩ := Prod.mk.inj (Option.some.inj h)
    obtain ⟨hp, hrest⟩ := List.cons.inj hpair
    obtain ⟨hv, hw⟩ := Prod.mk.inj hp
    dsimp only at ha hb hl hv hw hrest
    -- the fields in front fit, so the next one starts where it was written
    rw [hv] at ha
    have hfirst := lt_of_get_put ha
    rw [get_put_of_lt hfirst] at ha
    rw [← (Prod.mk.inj (Option.some.inj ha)).2, hw] at hb
    have hsecond := lt_of_get_put hb
    rw [get_put_of_lt hsecond] at hb
    rw [← (Prod.mk.inj (Option.some.inj hb)).2, hrest] at hl
    exact List.forall_mem_cons.mpr ⟨⟨hfirst, hsecond⟩, ih hl⟩

theorem length_of_getPairs {l : List (Bytes × Bytes)} : ∀ {n : Nat} {s s' : Bytes},
    getPairs k n s = some (l, s') → l.length = n := by
  induction l with
  | nil =>
    intro n s s' h
    cases n with
    | zero => rfl
    | succ n =>
      rw [getPairs_succ] at h
      obtain ⟨x, -, h⟩ := Option.bind_eq_some_iff.mp h
      obtain ⟨y, -, h⟩ := Option.bind_eq_some_iff.mp h
      obtain ⟨z, -, h⟩ := Option.bind_eq_some_iff.mp h
      cases h
  | cons p l ih =>
    intro n s s' h
    cases n with
    | zero => cases h
    | succ n =>
      rw [getPairs_succ] at h
      obtain ⟨x, -, h⟩ := Option.bind_eq_some_iff.mp h
      obtain ⟨y, -, h⟩ := Option.bind_eq_some_iff.mp h
      obtain ⟨⟨l', s₃⟩, hz, h⟩ := Option.bind_eq_some_iff.mp h
      obtain ⟨hpair, -⟩ := Prod.mk.inj (Option.some.inj h)
      obtain ⟨-, rfl⟩ := List.cons.inj hpair
      rw [List.length_cons, ih hz]

/-- A counted list comes back exactly if its number fits and every field in it does. -/
theorem getCounted_putCounted_iff {l : List (Bytes × Bytes)} :
    getCounted c k (putCounted c k l) = some l ↔ l.length < 256 ^ c ∧ ∀ p ∈ l, Fits k p := by
  have hread : getCounted c k (putCounted c k l) =
      (getPairs k (l.length % 256 ^ c) (putPairs k l)).bind fun x =>
        if x.2 = [] then some x.1 else none := by
    rw [getCounted, putCounted, number_bytes]
    rfl
  rw [hread]
  constructor
  · intro h
    obtain ⟨⟨l', s⟩, hpairs, h⟩ := Option.bind_eq_some_iff.mp h
    dsimp only at h
    split at h
    next hs =>
      obtain rfl := Option.some.inj h
      have hlen := length_of_getPairs hpairs
      have hlt := Nat.mod_lt l'.length (Nat.pow_pos (n := c) (show 0 < 256 by decide))
      rw [← hlen] at hlt hpairs
      rw [← List.append_nil (putPairs k l')] at hpairs
      exact ⟨hlt, fits_of_getPairs hpairs⟩
    next => cases h
  · intro h
    obtain ⟨hlt, hfits⟩ := h
    have hpairs := getPairs_putPairs hfits []
    rw [List.append_nil] at hpairs
    rw [Nat.mod_eq_of_lt hlt, hpairs, Option.bind_some, if_pos rfl]

end LengthPrefix
