import Mathlib.Data.BitVec
import Mathlib.Data.Int.ModEq
import Mathlib.Data.List.Range
import Mathlib.Data.Nat.ModEq

/-!
# A link with a window of one

Two ends number their messages. An end that has sent one waits until the peer says that it has
arrived, and takes a message of the peer only if it is the next one and nothing of its own is on the
way. `End` is one end with numbers that never wrap around. Whatever the network loses, repeats or
keeps back, it takes the peer's messages in order, each of them once, and no two of its own are on
the way at a time (`Inv`, kept by `inv_receive`, `inv_send` and `inv_accept`).

Numbers on the wire have `w` bits. Two of them that are less than `2 ^ w` apart are equal if their
bits are (`eq_of_ofNat_eq`), and of two that are at most half as far apart the upper bit of the
difference tells which one is behind (`stale_iff`).
-/

namespace StopAndWait

variable {M : Type*}

/-- How many messages an end has sent, which ones of the peer it has taken, and whether the last one
it sent is known to have arrived. -/
structure End (M : Type*) where
  sent : Nat
  taken : List M
  acked : Bool

/-- What arrives: the number of the message, how many messages its sender has accepted, and the
message, unless it only acknowledges. -/
structure Packet (M : Type*) where
  ns : Nat
  nr : Nat
  body : Option M

inductive Verdict
  | stale | ignored | taken
deriving DecidableEq

namespace End

def receive (e : End M) (p : Packet M) : End M × Verdict :=
  if p.ns < e.taken.length then (e, .stale)
  else
    let acked := e.acked || p.nr == e.sent
    if p.ns = e.taken.length ∧ acked then
      ({ e with acked := acked, taken := e.taken ++ p.body.toList }, .taken)
    else ({ e with acked := acked }, .ignored)

def send (e : End M) : End M := { e with sent := e.sent + 1, acked := false }

end End

/-- What an honest peer, which has accepted that many messages, may have written at any time: it
acknowledges no more than it has accepted, and repeats a message as it was. -/
structure Honest (peer : Nat → M) (accepted : Nat) (p : Packet M) : Prop where
  nr_le : p.nr ≤ accepted
  body_eq : ∀ m, p.body = some m → m = peer p.ns

instance decidableHonest [DecidableEq M] (peer : Nat → M) (accepted : Nat) (p : Packet M) :
    Decidable (Honest peer accepted p) :=
  decidable_of_iff (p.nr ≤ accepted ∧ ∀ m ∈ p.body, m = peer p.ns)
    ⟨fun h => ⟨h.1, h.2⟩, fun h => ⟨h.nr_le, h.body_eq⟩⟩

/-- Messages are taken in order, each of them once, and one at most is on the way. -/
structure Inv (peer : Nat → M) (accepted : Nat) (e : End M) : Prop where
  taken_eq : e.taken = (List.range e.taken.length).map peer
  accepted_le : accepted ≤ e.sent
  sent_le : e.sent ≤ accepted + 1
  acked_eq : e.acked = true → accepted = e.sent

variable {peer : Nat → M} {accepted : Nat} {e : End M} {p : Packet M}

/-- What is known to have arrived has been accepted. -/
theorem Inv.acked_receive (h : Inv peer accepted e) (hp : Honest peer accepted p)
    (hacked : (e.acked || p.nr == e.sent) = true) : accepted = e.sent := by
  rcases Bool.or_eq_true_iff.mp hacked with hacked | hnr
  · exact h.acked_eq hacked
  · have hle := hp.nr_le
    have hsent := h.accepted_le
    have hnr : p.nr = e.sent := beq_iff_eq.mp hnr
    omega

theorem inv_receive (h : Inv peer accepted e) (hp : Honest peer accepted p) :
    Inv peer accepted (e.receive p).1 := by
  unfold End.receive
  split
  next => exact h
  next =>
    dsimp only
    split
    next hnext =>
      refine ⟨?_, h.accepted_le, h.sent_le, h.acked_receive hp⟩
      cases hbody : p.body with
      | none => exact (List.append_nil e.taken).symm ▸ h.taken_eq
      | some m =>
        have hm : m = peer e.taken.length := hnext.1 ▸ hp.body_eq m hbody
        rw [Option.toList_some, List.length_append, List.length_singleton, List.range_succ,
          List.map_append, ← h.taken_eq, hm]
        rfl
    next => exact ⟨h.taken_eq, h.accepted_le, h.sent_le, h.acked_receive hp⟩

/-- Only an end that knows that its last message has arrived sends the next one. -/
theorem inv_send (h : Inv peer accepted e) (hacked : e.acked = true) :
    Inv peer accepted e.send := by
  have heq := h.acked_eq hacked
  refine ⟨h.taken_eq, ?_, ?_, fun hfalse => Bool.noConfusion hfalse⟩
  · exact Nat.le_trans h.accepted_le (Nat.le_succ _)
  · exact Nat.succ_le_succ (Nat.le_of_eq heq.symm)

/-- The peer accepts what is on the way. -/
theorem inv_accept (h : Inv peer accepted e) (hlt : accepted < e.sent) :
    Inv peer (accepted + 1) e := by
  refine ⟨h.taken_eq, hlt, Nat.le_succ_of_le h.sent_le, fun hacked => ?_⟩
  exact absurd (h.acked_eq hacked) (Nat.ne_of_lt hlt)

/-- What a packet does to an end. -/
theorem receive_cases (e : End M) (p : Packet M) :
    e.receive p = (e, .stale) ∨ (∃ a, e.receive p = ({ e with acked := a }, .ignored)) ∨
      ∃ a, e.receive p =
        ({ e with acked := a, taken := e.taken ++ p.body.toList }, .taken) := by
  unfold End.receive
  split
  next => exact Or.inl rfl
  next =>
    dsimp only
    split
    next => exact Or.inr (Or.inr ⟨_, rfl⟩)
    next => exact Or.inr (Or.inl ⟨_, rfl⟩)

/-! ## What the network sees -/

/-- Messages sent one after the other, each of them again any number of times before the next
one. -/
inductive Repeats : List M → List M → Prop
  | nil : Repeats [] []
  | send {sent wire : List M} (m : M) (h : Repeats sent wire) : Repeats (sent ++ [m]) (wire ++ [m])
  | again {sent wire : List M} (m : M) (h : Repeats (sent ++ [m]) wire) :
      Repeats (sent ++ [m]) (wire ++ [m])

/-- Nothing else is on the wire. -/
theorem Repeats.mem {sent wire : List M} (h : Repeats sent wire) {m : M} (hm : m ∈ wire) :
    m ∈ sent := by
  induction h with
  | nil => exact hm
  | send m' _ ih =>
    rcases List.mem_append.mp hm with hm | hm
    · exact List.mem_append_left _ (ih hm)
    · exact List.mem_append_right _ hm
  | again m' _ ih =>
    rcases List.mem_append.mp hm with hm | hm
    · exact ih hm
    · exact List.mem_append_right _ hm

/-! ## Numbers of `w` bits -/

variable {w a b : Nat}

theorem eq_of_ofNat_eq (h : BitVec.ofNat w a = BitVec.ofNat w b) (ha : a < b + 2 ^ w)
    (hb : b < a + 2 ^ w) : a = b := by
  have hmod : a % 2 ^ w = b % 2 ^ w := by
    rw [← BitVec.toNat_ofNat, ← BitVec.toNat_ofNat, h]
  refine Nat.ModEq.eq_of_abs_lt hmod ?_
  generalize 2 ^ w = n at ha hb
  rw [abs_lt]
  constructor <;> omega

/-- The upper bit of a difference says which of two numbers is behind. -/
theorem stale_iff (ha : b ≤ a + 2 ^ w) (hb : a < b + 2 ^ w) :
    2 ^ w - 1 < (BitVec.ofNat (w + 1) a - BitVec.ofNat (w + 1) b).toNat ↔ a < b := by
  have hpow : 2 ^ (w + 1) = 2 * 2 ^ w := by rw [Nat.pow_succ, Nat.mul_comm]
  have hpos : 0 < 2 ^ w := Nat.two_pow_pos w
  rcases Nat.lt_or_ge a b with hlt | hge
  · obtain ⟨d, rfl⟩ := Nat.exists_eq_add_of_le (Nat.le_of_lt hlt)
    have hmod : d % 2 ^ (w + 1) = d := Nat.mod_eq_of_lt (by omega)
    have hsub : BitVec.ofNat (w + 1) a - BitVec.ofNat (w + 1) (a + d) = -BitVec.ofNat (w + 1) d := by
      rw [BitVec.ofNat_add, sub_add_cancel_left]
    have hneg : (2 ^ (w + 1) - d) % 2 ^ (w + 1) = 2 ^ (w + 1) - d := Nat.mod_eq_of_lt (by omega)
    rw [hsub, BitVec.toNat_neg, BitVec.toNat_ofNat, hmod, hneg]
    exact iff_of_true (by omega) hlt
  · obtain ⟨d, rfl⟩ := Nat.exists_eq_add_of_le hge
    have hsub : BitVec.ofNat (w + 1) (b + d) - BitVec.ofNat (w + 1) b = BitVec.ofNat (w + 1) d := by
      rw [BitVec.ofNat_add, add_sub_cancel_left]
    rw [hsub, BitVec.toNat_ofNat, Nat.mod_eq_of_lt (by omega)]
    exact iff_of_false (by omega) (Nat.not_lt.mpr hge)

end StopAndWait
