import Mathlib.Data.List.TakeDrop
import ConfProfile.Lib.Feedback
import ConfProfile.Mtpd.Protocol

/-!
# Attributes of control messages

A control message of the tunnel daemon (`l2tp.c`) is a header of 20 bytes and attributes. An
attribute is a flag word with its length in the low ten bits, a vendor, a type and a value, all of
them in network order; the value may be hidden, behind a digest of the shared secret and of the last
random vector in front of it.

`getAttributeRaw` walks over what was received until it finds the attribute or comes to bytes that
are no attribute. `Avp` is what a peer has to say and `wire` is how it says it, hiding what it
wants hidden; the daemon reads the first value of the type that the peer wrote, cut to the size
asked for.
-/

namespace ConfProfile.Mtpd.L2tp

/-- The digest, of which nothing but its size is used. -/
structure Md5 where
  digest : Bytes → Bytes
  length_digest : ∀ s, (digest s).length = 16

def RANDOM_VECTOR : BitVec 16 := 36

def MESSAGE_HEADER_SIZE : Nat := 20

def ATTRIBUTE_HEADER_SIZE : Nat := 6

/-- `ATTRIBUTE_FLAG(length)` -/
def attributeFlag (length : Nat) : BitVec 16 := 0x8006 + BitVec.ofNat 16 length

/-- `ATTRIBUTE_LENGTH(flag)` -/
def attributeLength (flag : BitVec 16) : Nat := (0x03FF &&& flag).toNat

/-- `ATTRIBUTE_HIDDEN(flag)` -/
def attributeHidden (flag : BitVec 16) : Bool := 0x4000 &&& flag != 0

/-- The bytes of `add_attribute_raw`. -/
def addAttributeRaw (type : BitVec 16) (value : Bytes) : Bytes :=
  be16 (attributeFlag value.length) ++ be16 0 ++ be16 type ++ value

variable (md5 : Md5)

/-- The block that the first 16 bytes of a hidden value are combined with. -/
def firstHash (type : BitVec 16) (secret vector : Bytes) : Bytes :=
  md5.digest (be16 type ++ secret ++ vector)

/-- The loop over a hidden value. -/
def unhide (type : BitVec 16) (secret vector value : Bytes) : Bytes :=
  Feedback.decodeBlocks 16 (firstHash md5 type secret vector)
    (fun block => md5.digest (secret ++ block)) value

/-- What is copied of a hidden value: its first two bytes say how long it is. -/
def hiddenValue (type : BitVec 16) (secret vector : Option Bytes) (value : Bytes) (size : Nat) :
    Bytes :=
  match secret, vector with
  | some secret, some vector =>
    if value.length < 2 then []
    else
      let buffer := unhide md5 type secret vector value
      let length := (u16 buffer 0).toNat
      if value.length - 2 < length then [] else (buffer.drop 2).take (min size length)
  | none, _ => []
  | some _, none => []

/-- The loop of `get_attribute_raw` over the bytes that are left, at most `fuel` attributes. -/
def getAttributeLoop (secret : Option Bytes) (type : BitVec 16) (size : Nat) :
    Nat → Option Bytes → Bytes → Bytes
  | 0, _, _ => []
  | fuel + 1, vector, s =>
    if s.length < ATTRIBUTE_HEADER_SIZE then []
    else
      let flag := u16 s 0
      let length := attributeLength flag
      if length < ATTRIBUTE_HEADER_SIZE ∨ s.length < length then []
      else
        let value := (s.take length).drop ATTRIBUTE_HEADER_SIZE
        if u16 s 2 ≠ 0 then getAttributeLoop secret type size fuel vector (s.drop length)
        else if u16 s 4 ≠ type then
          let vector := if u16 s 4 = RANDOM_VECTOR ∧ ¬ attributeHidden flag then some value
            else vector
          getAttributeLoop secret type size fuel vector (s.drop length)
        else if ¬ attributeHidden flag then value.take size
        else hiddenValue md5 type secret vector value size

/-- The bytes that are copied to the caller; their number is what the source returns. Every
attribute takes a byte at least, so the fuel is never used up. -/
def getAttributeRaw (secret : Option Bytes) (incoming : Bytes) (type : BitVec 16) (size : Nat) :
    Bytes :=
  getAttributeLoop md5 secret type size incoming.length none (incoming.drop MESSAGE_HEADER_SIZE)

/-! ## What a peer writes -/

/-- An attribute as it is on the wire: six bits of flags, and a value that fits the other ten. -/
structure Attribute where
  flags : BitVec 6
  vendor : BitVec 16
  type : BitVec 16
  value : Bytes
  fits : value.length ≤ 1017

namespace Attribute

def flag (a : Attribute) : BitVec 16 := a.flags ++ BitVec.ofNat 10 (6 + a.value.length)

def hidden (a : Attribute) : Bool := 0b010000 &&& a.flags != 0

def bytes (a : Attribute) : Bytes := be16 a.flag ++ be16 a.vendor ++ be16 a.type ++ a.value

end Attribute

/-- What a peer has to say: a value, and the padding that it is hidden with, if it is. -/
structure Avp where
  mandatory : Bool
  vendor : BitVec 16
  type : BitVec 16
  value : Bytes
  padding : Option Bytes

/-- A value behind its length and in front of its padding, combined with the stream. -/
def hide (type : BitVec 16) (secret vector : Bytes) (value padding : Bytes) : Bytes :=
  Feedback.encode
    (Feedback.blockStream 16 (firstHash md5 type secret vector)
      fun block => md5.digest (secret ++ block))
    [] (be16 (BitVec.ofNat 16 value.length) ++ value ++ padding)

namespace Avp

def flags (v : Avp) : BitVec 6 :=
  (if v.mandatory then 0b100000 else 0) ||| (if v.padding.isSome then 0b010000 else 0)

/-- What is on the wire instead of the value. Hiding needs a secret and a vector. -/
def wireValue (secret vector : Option Bytes) (v : Avp) : Option Bytes :=
  match v.padding with
  | none => some v.value
  | some padding => do
    let secret ← secret
    let vector ← vector
    return hide md5 v.type secret vector v.value padding

/-- The attribute on the wire, where it fits. -/
def wire (secret vector : Option Bytes) (v : Avp) : Option Attribute := do
  let value ← v.wireValue md5 secret vector
  if h : value.length ≤ 1017 then some ⟨v.flags, v.vendor, v.type, value, h⟩ else none

/-- The random vector behind the attribute. -/
def nextVector (vector : Option Bytes) (v : Avp) : Option Bytes :=
  if v.vendor = 0 ∧ v.type = RANDOM_VECTOR ∧ v.padding = none then some v.value else vector

end Avp

/-- The attributes of a message. -/
def wire (secret : Option Bytes) : Option Bytes → List Avp → Option (List Attribute)
  | _, [] => some []
  | vector, v :: vs => do
    let a ← v.wire md5 secret vector
    let as ← wire secret (v.nextVector vector) vs
    return a :: as

/-- The value a message has for a type. -/
def valueOf (vs : List Avp) (type : BitVec 16) : Bytes :=
  match vs.find? fun v => v.vendor == 0 && v.type == type with
  | some v => v.value
  | none => []

/-- Bytes that no attribute begins with. -/
def Stuck (s : Bytes) : Prop :=
  s.length < ATTRIBUTE_HEADER_SIZE ∨ attributeLength (u16 s 0) < ATTRIBUTE_HEADER_SIZE ∨
    s.length < attributeLength (u16 s 0)

/-! ## One attribute -/

namespace Attribute

theorem toNat_flag (a : Attribute) : a.flag.toNat = a.flags.toNat * 1024 + (6 + a.value.length) := by
  have h := a.fits
  have hlt : (6 + a.value.length) % 2 ^ 10 = 6 + a.value.length := Nat.mod_eq_of_lt (by omega)
  rw [flag, BitVec.toNat_append, ← Nat.shiftLeft_add_eq_or_of_lt (BitVec.isLt _), Nat.shiftLeft_eq,
    BitVec.toNat_ofNat, hlt]

theorem attributeLength_flag (a : Attribute) : attributeLength a.flag = 6 + a.value.length := by
  have h := a.fits
  have hmod : (0x03FF &&& a.flag).toNat = a.flag.toNat % 1024 := by
    rw [BitVec.toNat_and, Nat.and_comm]
    exact Nat.and_two_pow_sub_one_eq_mod _ 10
  rw [attributeLength, hmod, toNat_flag]
  omega

theorem attributeHidden_flag (a : Attribute) : attributeHidden a.flag = a.hidden := by
  have hsplit : (0x4000 : BitVec 16) = (0b010000 : BitVec 6) ++ (0 : BitVec 10) := by decide
  have hand : 0x4000 &&& a.flag = (0b010000 &&& a.flags) ++ (0 : BitVec 10) := by
    rw [hsplit, flag, BitVec.and_append]
    exact congrArg _ BitVec.zero_and
  rw [attributeHidden, hand, hidden, Bool.eq_iff_iff, bne_iff_ne, bne_iff_ne, not_iff_not]
  constructor
  · intro h
    have htoNat := congrArg BitVec.toNat h
    rw [BitVec.toNat_append, ← Nat.shiftLeft_add_eq_or_of_lt (BitVec.isLt _),
      Nat.shiftLeft_eq] at htoNat
    apply BitVec.eq_of_toNat_eq
    simpa using htoNat
  · intro h
    rw [h]
    rfl

theorem length_bytes (a : Attribute) : a.bytes.length = 6 + a.value.length := by
  simp only [bytes, List.length_append, length_be16]

theorem u16_bytes_flag (a : Attribute) (s : Bytes) : u16 (a.bytes ++ s) 0 = a.flag := by
  simp only [bytes, List.append_assoc, u16_be16]

theorem u16_bytes_vendor (a : Attribute) (s : Bytes) : u16 (a.bytes ++ s) 2 = a.vendor := by
  simp only [bytes, List.append_assoc]
  rw [u16_be16_append _ _ 0, u16_be16]

theorem u16_bytes_type (a : Attribute) (s : Bytes) : u16 (a.bytes ++ s) 4 = a.type := by
  simp only [bytes, List.append_assoc]
  rw [u16_be16_append _ _ 2, u16_be16_append _ _ 0, u16_be16]

theorem take_bytes (a : Attribute) (s : Bytes) :
    ((a.bytes ++ s).take (6 + a.value.length)).drop 6 = a.value := by
  rw [List.take_left' a.length_bytes]
  have hlen : (be16 a.flag ++ be16 a.vendor ++ be16 a.type).length = 6 := by
    simp only [List.length_append, length_be16]
  exact List.drop_left' hlen

end Attribute

/-! ## Hidden values -/

section Hidden

variable {md5} {type : BitVec 16} {secret vector v pad : Bytes}

theorem unhide_hide :
    unhide md5 type secret vector (hide md5 type secret vector v pad) =
      be16 (BitVec.ofNat 16 v.length) ++ v ++ pad := by
  rw [unhide, Feedback.decodeBlocks_eq (by decide), hide, Feedback.decode_encode]

@[simp] theorem length_hide :
    (hide md5 type secret vector v pad).length = 2 + v.length + pad.length := by
  rw [hide, Feedback.length_encode, List.length_append, List.length_append, length_be16]

/-- The value comes back without its length and its padding. -/
theorem hiddenValue_hide (hfits : (hide md5 type secret vector v pad).length ≤ 1017) (size : Nat) :
    hiddenValue md5 type (some secret) (some vector) (hide md5 type secret vector v pad) size =
      v.take size := by
  rw [length_hide] at hfits
  have hshort : ¬ (hide md5 type secret vector v pad).length < 2 := by rw [length_hide]; omega
  have hlength : (u16 (be16 (BitVec.ofNat 16 v.length) ++ v ++ pad) 0).toNat = v.length := by
    rw [List.append_assoc, u16_be16, BitVec.toNat_ofNat]
    omega
  have hbuffer : (be16 (BitVec.ofNat 16 v.length) ++ v ++ pad).drop 2 = v ++ pad := by
    rw [List.append_assoc]
    exact List.drop_left' (length_be16 _)
  unfold hiddenValue
  dsimp only
  rw [if_neg hshort, unhide_hide, hlength, if_neg (by rw [length_hide]; omega), hbuffer,
    List.take_append_of_le_length (Nat.min_le_right _ _), ← List.take_take, List.take_length]

end Hidden

/-! ## The walk -/

section Walk

variable {md5} {secret vector : Option Bytes} {type : BitVec 16} {size fuel : Nat} {s : Bytes}

/-- The walk stops at bytes that are no attribute. -/
theorem getAttributeLoop_stuck (h : Stuck s) :
    getAttributeLoop md5 secret type size fuel vector s = [] := by
  cases fuel with
  | zero => rfl
  | succ fuel =>
    rw [getAttributeLoop]
    rcases h with h | h | h
    · rw [if_pos h]
    · rw [if_pos (Or.inl h)]
      exact ite_self _
    · rw [if_pos (Or.inr h)]
      exact ite_self _

/-- One attribute of the walk. -/
theorem getAttributeLoop_bytes (a : Attribute) (s : Bytes) :
    getAttributeLoop md5 secret type size (fuel + 1) vector (a.bytes ++ s) =
      if a.vendor ≠ 0 then getAttributeLoop md5 secret type size fuel vector s
      else if a.type ≠ type then
        getAttributeLoop md5 secret type size fuel
          (if a.type = RANDOM_VECTOR ∧ ¬ a.hidden then some a.value else vector) s
      else if ¬ a.hidden then a.value.take size
      else hiddenValue md5 type secret vector a.value size := by
  have hlen := a.length_bytes
  have hheader : ¬ (a.bytes ++ s).length < ATTRIBUTE_HEADER_SIZE := by
    rw [List.length_append, hlen, ATTRIBUTE_HEADER_SIZE]
    omega
  have hlength : ¬ (6 + a.value.length < ATTRIBUTE_HEADER_SIZE ∨
      (a.bytes ++ s).length < 6 + a.value.length) := by
    rw [List.length_append, hlen, ATTRIBUTE_HEADER_SIZE]
    omega
  have hnext : (a.bytes ++ s).drop (6 + a.value.length) = s := List.drop_left' hlen
  rw [getAttributeLoop, if_neg hheader]
  simp only [a.u16_bytes_flag, a.u16_bytes_vendor, a.u16_bytes_type, a.attributeLength_flag,
    a.attributeHidden_flag, hnext]
  rw [if_neg hlength, ATTRIBUTE_HEADER_SIZE, a.take_bytes]

end Walk

section Wire

variable {md5} {secret : Option Bytes} {type : BitVec 16} {tail : Bytes}

theorem valueOf_cons (v : Avp) (vs : List Avp) :
    valueOf (v :: vs) type =
      if v.vendor = 0 ∧ v.type = type then v.value else valueOf vs type := by
  unfold valueOf
  split_ifs with h
  · rw [List.find?_cons_of_pos (by simpa using h)]
  · rw [List.find?_cons_of_neg (by simpa using h)]

theorem Avp.hidden_flags (v : Avp) : (0b010000 &&& v.flags != 0) = v.padding.isSome := by
  unfold Avp.flags
  generalize v.mandatory = mandatory
  generalize v.padding.isSome = hidden
  revert mandatory hidden
  decide

/-- The fields of an attribute are those of what it was made of. -/
theorem Avp.wire_eq_some {v : Avp} {vector : Option Bytes} {a : Attribute}
    (h : v.wire md5 secret vector = some a) :
    v.wireValue md5 secret vector = some a.value ∧ a.vendor = v.vendor ∧ a.type = v.type ∧
      a.hidden = v.padding.isSome := by
  obtain ⟨value, hvalue, h⟩ := Option.bind_eq_some_iff.mp h
  split at h
  next hfits =>
    obtain rfl := Option.some.inj h
    exact ⟨hvalue, rfl, rfl, v.hidden_flags⟩
  next => cases h

/-- What the daemon copies of an attribute is what the peer put into it. -/
theorem Avp.read_wire {v : Avp} {vector : Option Bytes} {a : Attribute} (size : Nat)
    (h : v.wire md5 secret vector = some a) :
    (if ¬ a.hidden then a.value.take size
      else hiddenValue md5 a.type secret vector a.value size) = v.value.take size := by
  obtain ⟨hvalue, -, htype, hhidden⟩ := Avp.wire_eq_some h
  have hfits := a.fits
  unfold Avp.wireValue at hvalue
  split at hvalue
  next hpad =>
    have hplain : v.value = a.value := Option.some.inj hvalue
    rw [if_pos (by rw [hhidden, hpad]; decide), hplain]
  next pad hpad =>
    obtain ⟨secret', hsecret, hvalue'⟩ := Option.bind_eq_some_iff.mp hvalue
    obtain ⟨vector', hvector, hvalue''⟩ := Option.bind_eq_some_iff.mp hvalue'
    have hhide : hide md5 v.type secret' vector' v.value pad = a.value := Option.some.inj hvalue''
    subst hsecret hvector
    rw [← hhide] at hfits
    rw [hhidden, hpad, if_neg (not_not.mpr (Option.isSome_some (a := pad))), htype, ← hhide,
      hiddenValue_hide hfits]

/-- Reading on behind an attribute of another vendor or type. -/
theorem Avp.nextVector_wire {v : Avp} {vector : Option Bytes} {a : Attribute}
    (h : v.wire md5 secret vector = some a) :
    (if a.vendor = 0 ∧ a.type = RANDOM_VECTOR ∧ ¬ a.hidden then some a.value else vector) =
      v.nextVector vector := by
  obtain ⟨hvalue, hvendor, htype, hhidden⟩ := Avp.wire_eq_some h
  unfold Avp.nextVector
  rw [hvendor, htype, hhidden]
  unfold Avp.wireValue at hvalue
  split at hvalue
  next hpad =>
    have hplain : v.value = a.value := Option.some.inj hvalue
    simp only [hpad, hplain, Option.isSome_none, Bool.false_eq_true, not_false_eq_true]
  next pad hpad =>
    simp only [hpad, Option.isSome_some, not_true_eq_false, and_false, if_false, reduceCtorEq]

/-- The walk over what a peer wrote. -/
theorem getAttributeLoop_wire (size : Nat) (htail : Stuck tail) :
    ∀ (vs : List Avp) {vector : Option Bytes} {as : List Attribute} {fuel : Nat},
      wire md5 secret vector vs = some as → as.length ≤ fuel →
      getAttributeLoop md5 secret type size fuel vector (as.flatMap Attribute.bytes ++ tail) =
        (valueOf vs type).take size := by
  intro vs
  induction vs with
  | nil =>
    intro vector as fuel h _
    obtain rfl : [] = as := Option.some.inj h
    exact (getAttributeLoop_stuck htail).trans List.take_nil.symm
  | cons v vs ih =>
    intro vector as fuel h hfuel
    obtain ⟨a, ha, h⟩ := Option.bind_eq_some_iff.mp h
    obtain ⟨as, has, h⟩ := Option.bind_eq_some_iff.mp h
    obtain rfl := Option.some.inj h
    obtain ⟨-, hvendor, htype, -⟩ := Avp.wire_eq_some ha
    cases fuel with
    | zero => exact absurd hfuel (Nat.not_succ_le_zero _)
    | succ fuel =>
      have hrest := ih has (Nat.le_of_succ_le_succ hfuel)
      have hnext := Avp.nextVector_wire ha
      rw [List.flatMap_cons, List.append_assoc, getAttributeLoop_bytes, valueOf_cons, ← hvendor,
        ← htype]
      split
      next hv =>
        rw [if_neg fun hall => hv hall.1] at hnext
        rw [if_neg fun hall => hv hall.1, hnext, hrest]
      next hv =>
        have hv : a.vendor = 0 := not_not.mp hv
        simp only [hv, true_and] at hnext ⊢
        split
        next ht => rw [hnext, hrest]
        next ht =>
          obtain rfl : a.type = type := not_not.mp ht
          rw [Avp.read_wire size ha, if_pos rfl]

theorem length_flatMap_bytes (as : List Attribute) :
    as.length ≤ (as.flatMap Attribute.bytes).length := by
  induction as with
  | nil => exact Nat.le_refl 0
  | cons a as ih =>
    rw [List.flatMap_cons, List.length_cons, List.length_append, a.length_bytes]
    omega

/-- Whatever a peer can write, hidden or not, the daemon reads the first value of the type, cut to
the size asked for. -/
theorem getAttributeRaw_wire {vs : List Avp} {as : List Attribute} {header : Bytes} (size : Nat)
    (hwire : wire md5 secret none vs = some as) (hheader : header.length = MESSAGE_HEADER_SIZE)
    (htail : Stuck tail) :
    getAttributeRaw md5 secret (header ++ as.flatMap Attribute.bytes ++ tail) type size =
      (valueOf vs type).take size := by
  have hdrop : (header ++ as.flatMap Attribute.bytes ++ tail).drop MESSAGE_HEADER_SIZE =
      as.flatMap Attribute.bytes ++ tail := by
    rw [List.append_assoc]
    exact List.drop_left' hheader
  have hfuel : as.length ≤ (header ++ as.flatMap Attribute.bytes ++ tail).length := by
    have h := length_flatMap_bytes as
    simp only [List.length_append]
    omega
  rw [getAttributeRaw, hdrop, getAttributeLoop_wire size htail vs hwire hfuel]

/-- A tunnel hidden behind a random vector, and three bytes that are no attribute. -/
theorem getAttributeRaw_wire_hidden :
    let md5 : Md5 :=
      { digest := fun s =>
          if s = [0, 9, 0x73, 1, 2, 3, 4] then
            [0x28, 0x98, 0xea, 0x20, 0xe9, 0xe2, 0x58, 0x19, 0x65, 0xb4, 0x87, 0xec, 0xf7, 0xc7, 0xdf,
              0xfd]
          else List.replicate 16 0
        length_digest := fun s => by split <;> rfl }
    let vs : List Avp :=
      [⟨true, 0, RANDOM_VECTOR, [1, 2, 3, 4], none⟩, ⟨true, 0, 9, [0x12, 0x34], some []⟩]
    ∃ as, wire md5 (some [0x73]) none vs = some as ∧
      as.map Attribute.value = [[1, 2, 3, 4], [0x28, 0x9a, 0xf8, 0x14]] ∧
      getAttributeRaw md5 (some [0x73])
        (List.replicate 20 0 ++ as.flatMap Attribute.bytes ++ [0, 0, 0]) 9 2 = [0x12, 0x34] := by
  intro md5 vs
  have hvalues : (wire md5 (some [0x73]) none vs).map (fun as => as.map Attribute.value) =
      some [[1, 2, 3, 4], [0x28, 0x9a, 0xf8, 0x14]] := by decide +kernel
  obtain ⟨as, has, hvalues⟩ := Option.map_eq_some_iff.mp hvalues
  refine ⟨as, has, hvalues, ?_⟩
  exact getAttributeRaw_wire 2 has rfl (Or.inl (by decide))

end Wire

end ConfProfile.Mtpd.L2tp
