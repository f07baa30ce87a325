import ConfProfile.Lib.LengthPrefix

/-!
# The growing byte writer (`BufferedByteWriter`)

A writer fills an array from the front and makes a larger one when the next value does not fit. All
its `put` methods reserve the bytes of what they write and then write it piece by piece (`putAll`).
As long as less than 2²⁹ bytes are written, the arithmetic on the size of the new array does not
wrap, every call succeeds, the result is what the calls wrote one behind the other, and the array
has at most four times as many bytes (`writer_run`).
-/

namespace ConfProfile.Imc

open BigEndian (bytes)

abbrev Byte := BitVec 8

/-- The exceptions that a call can end with. -/
inductive WriterError where
  | negativeArraySize
  | arrayIndexOutOfBounds
  | bufferOverflow
  deriving DecidableEq

/-- `BufferedByteWriter`; the limit of `mWriter` is the length of the array. -/
structure BufferedByteWriter where
  mBuffer : List Byte
  position : Nat
  position_le : position ≤ mBuffer.length

namespace BufferedByteWriter

/-- The constructor with a capacity. -/
def new (capacity : Int) : BufferedByteWriter :=
  let capacity := if capacity > 4 then capacity.toNat else 32
  ⟨List.replicate capacity 0, 0, Nat.zero_le _⟩

variable (w : BufferedByteWriter)

/-- `mWriter.remaining`. -/
def remaining : Nat := w.mBuffer.length - w.position

/-- `ensureCapacity`, with the arithmetic of `int`. -/
def ensureCapacity (required : BitVec 32) : Except WriterError BufferedByteWriter :=
  if (w.remaining : Int) ≥ required.toInt then .ok w
  else
    let size := ((BitVec.ofNat 32 w.mBuffer.length + required) * 2).toInt
    if size < 0 then .error .negativeArraySize
    else if h : size.toNat < w.position then .error .arrayIndexOutOfBounds
    else
      have hle : w.position ≤ (w.mBuffer.take w.position
          ++ List.replicate (size.toNat - w.position) 0).length := by
        have hpos := w.position_le
        rw [List.length_append, List.length_take, List.length_replicate]
        omega
      .ok ⟨w.mBuffer.take w.position ++ List.replicate (size.toNat - w.position) 0, w.position, hle⟩

/-- `mWriter.put`. -/
def write (v : List Byte) : Except WriterError BufferedByteWriter :=
  if h : w.remaining < v.length then .error .bufferOverflow
  else
    have hle : w.position + v.length ≤ (w.mBuffer.take w.position ++ v
        ++ w.mBuffer.drop (w.position + v.length)).length := by
      have hpos := w.position_le
      unfold remaining at h
      rw [List.length_append, List.length_append, List.length_take, List.length_drop]
      omega
    .ok ⟨w.mBuffer.take w.position ++ v ++ w.mBuffer.drop (w.position + v.length),
      w.position + v.length, hle⟩

/-- What the `put` methods do: reserve, and write the parts. -/
def putAll (required : BitVec 32) (parts : List (List Byte)) :
    Except WriterError BufferedByteWriter := do
  let w ← w.ensureCapacity required
  parts.foldlM write w

/-- `put(byte[])`. -/
def put (value : List Byte) := w.putAll (BitVec.ofNat 32 value.length) [value]

/-- `put(byte)`. -/
def putByte (value : Byte) := w.putAll 1 [[value]]

def putLen8 (value : List Byte) :=
  w.putAll (1 + BitVec.ofNat 32 value.length) [[BitVec.ofNat 8 value.length], value]

def putLen16 (value : List Byte) :=
  w.putAll (2 + BitVec.ofNat 32 value.length) [bytes 2 value.length, value]

def put16 (value : BitVec 16) := w.putAll 2 [bytes 2 value.toNat]

def put24 (value : BitVec 32) :=
  w.putAll 3 [[(value.sshiftRight 16).setWidth 8], bytes 2 (value.setWidth 16).toNat]

def put32 (value : BitVec 32) := w.putAll 4 [bytes 4 value.toNat]

def put64 (value : BitVec 64) := w.putAll 8 [bytes 8 value.toNat]

def toByteArray : List Byte := w.mBuffer.take w.position

/-! ## One call -/

variable {w}

theorem ensureCapacity_spec {n : Nat} (h : w.position + n < 2 ^ 29) :
    ∃ w', w.ensureCapacity (BitVec.ofNat 32 n) = .ok w' ∧ w'.position = w.position ∧
      w'.toByteArray = w.toByteArray ∧ n ≤ w'.remaining ∧
      w'.mBuffer.length ≤ max w.mBuffer.length (4 * (w.position + n)) := by
  have hpos := w.position_le
  have hn : (BitVec.ofNat 32 n).toInt = n := by
    rw [BitVec.toInt_ofNat']
    exact Int.bmod_eq_of_le (by omega) (by omega)
  unfold ensureCapacity
  rw [hn]
  split
  next hfits =>
    exact ⟨w, rfl, rfl, rfl, by omega, Nat.le_max_left _ _⟩
  next hfull =>
    -- the array is about as long as what it holds, so the doubled size does not wrap
    have hfull' : w.mBuffer.length < w.position + n := by
      unfold remaining at hfull
      omega
    have hnat : ((BitVec.ofNat 32 w.mBuffer.length + BitVec.ofNat 32 n) * 2).toNat =
        (w.mBuffer.length + n) * 2 := by
      have htwo : (2 : BitVec 32).toNat = 2 := rfl
      rw [BitVec.toNat_mul, BitVec.toNat_add, BitVec.toNat_ofNat, BitVec.toNat_ofNat, htwo]
      omega
    have hsize : ((BitVec.ofNat 32 w.mBuffer.length + BitVec.ofNat 32 n) * 2).toInt =
        ((w.mBuffer.length + n) * 2 : Nat) := by
      rw [BitVec.toInt_eq_toNat_of_lt (by omega), hnat]
    dsimp only
    rw [if_neg (by omega), dif_neg (by omega)]
    refine ⟨_, rfl, rfl, ?_, ?_, ?_⟩
    · simp [toByteArray, Nat.min_eq_left hpos]
    · unfold remaining
      simp only [hsize, List.length_append, List.length_take, List.length_replicate]
      omega
    · simp only [hsize, List.length_append, List.length_take, List.length_replicate]
      omega

theorem write_spec {v : List Byte} (h : v.length ≤ w.remaining) :
    ∃ w', w.write v = .ok w' ∧ w'.position = w.position + v.length ∧
      w'.toByteArray = w.toByteArray ++ v ∧ w'.remaining = w.remaining - v.length ∧
      w'.mBuffer.length = w.mBuffer.length := by
  have hpos := w.position_le
  have hlen : (w.mBuffer.take w.position ++ v
      ++ w.mBuffer.drop (w.position + v.length)).length = w.mBuffer.length := by
    unfold remaining at h
    rw [List.length_append, List.length_append, List.length_take, List.length_drop]
    omega
  have hfront : (w.mBuffer.take w.position ++ v).length = w.position + v.length := by
    rw [List.length_append, List.length_take, Nat.min_eq_left hpos]
  unfold write
  rw [dif_neg (not_lt.mpr h)]
  refine ⟨_, rfl, rfl, ?_, ?_, hlen⟩
  · exact List.take_left' hfront
  · show (w.mBuffer.take w.position ++ v ++ w.mBuffer.drop (w.position + v.length)).length
        - (w.position + v.length) = w.mBuffer.length - w.position - v.length
    rw [hlen, Nat.sub_add_eq]

theorem foldlM_write_spec {parts : List (List Byte)} : ∀ {w : BufferedByteWriter},
    parts.flatten.length ≤ w.remaining →
    ∃ w', parts.foldlM write w = .ok w' ∧ w'.position = w.position + parts.flatten.length ∧
      w'.toByteArray = w.toByteArray ++ parts.flatten ∧
      w'.mBuffer.length = w.mBuffer.length := by
  induction parts with
  | nil =>
    intro w _
    exact ⟨w, rfl, rfl, (List.append_nil _).symm, rfl⟩
  | cons v parts ih =>
    intro w h
    rw [List.flatten_cons, List.length_append] at h
    obtain ⟨w₁, hwrite, hpos, hbytes, hremaining, hlen⟩ := @write_spec w v (by omega)
    obtain ⟨w₂, hrest, hpos₂, hbytes₂, hlen₂⟩ := @ih w₁ (by omega)
    refine ⟨w₂, ?_, ?_, ?_, hlen₂.trans hlen⟩
    · rw [List.foldlM_cons, hwrite]
      exact hrest
    · rw [hpos₂, hpos, List.flatten_cons, List.length_append, Nat.add_assoc]
    · rw [hbytes₂, hbytes, List.flatten_cons, List.append_assoc]

/-- A call that reserves what it writes appends its parts. -/
theorem putAll_spec {required : BitVec 32} {parts : List (List Byte)}
    (hreq : required = BitVec.ofNat 32 parts.flatten.length)
    (h : w.position + parts.flatten.length < 2 ^ 29) :
    ∃ w', w.putAll required parts = .ok w' ∧ w'.position = w.position + parts.flatten.length ∧
      w'.toByteArray = w.toByteArray ++ parts.flatten ∧
      w'.mBuffer.length ≤ max w.mBuffer.length (4 * w'.position) := by
  subst hreq
  obtain ⟨w₁, hensure, hpos, hbytes, hroom, hlen⟩ := ensureCapacity_spec h
  obtain ⟨w₂, hparts, hpos₂, hbytes₂, hlen₂⟩ := foldlM_write_spec hroom
  refine ⟨w₂, ?_, by rw [hpos₂, hpos], by rw [hbytes₂, hbytes], ?_⟩
  · rw [putAll, hensure]
    exact hparts
  · rw [hlen₂, hpos₂, hpos]
    exact hlen

end BufferedByteWriter

/-! ## Runs -/

/-- A call on a writer. -/
inductive WriterOp where
  | put (value : List Byte)
  | putByte (value : Byte)
  | putLen8 (value : List Byte)
  | putLen16 (value : List Byte)
  | put16 (value : BitVec 16)
  | put24 (value : BitVec 32)
  | put32 (value : BitVec 32)
  | put64 (value : BitVec 64)

/-- One call. -/
def writerStep (w : BufferedByteWriter) : WriterOp → Except WriterError BufferedByteWriter
  | .put value => w.put value
  | .putByte value => w.putByte value
  | .putLen8 value => w.putLen8 value
  | .putLen16 value => w.putLen16 value
  | .put16 value => w.put16 value
  | .put24 value => w.put24 value
  | .put32 value => w.put32 value
  | .put64 value => w.put64 value

/-- The bytes that a call stands for, numbers in network order. -/
def WriterOp.bytes : WriterOp → List Byte
  | .put value => value
  | .putByte value => [value]
  | .putLen8 value => LengthPrefix.put 1 value
  | .putLen16 value => LengthPrefix.put 2 value
  | .put16 value => BigEndian.bytes 2 value.toNat
  | .put24 value => BigEndian.bytes 3 value.toNat
  | .put32 value => BigEndian.bytes 4 value.toNat
  | .put64 value => BigEndian.bytes 8 value.toNat

/-- The high byte of three, and the two behind it. -/
theorem bytes_three (value : BitVec 32) :
    [(value.sshiftRight 16).setWidth 8] ++ bytes 2 (value.setWidth 16).toNat =
      bytes 3 value.toNat := by
  have hvalue := value.isLt
  have hhigh : (value.sshiftRight 16).setWidth 8 = BitVec.ofNat 8 (value.toNat / 256 ^ 2) := by
    apply BitVec.eq_of_getLsbD_eq
    intro i hi
    have hdiv : value.toNat / 256 ^ 2 = value.toNat >>> 16 :=
      (Nat.shiftRight_eq_div_pow value.toNat 16).symm
    have hin : 16 + i < 32 := by omega
    rw [BitVec.getLsbD_setWidth, BitVec.getLsbD_sshiftRight, BitVec.getLsbD_ofNat, hdiv,
      Nat.testBit_shiftRight, if_pos hin]
    simp [hi, BitVec.getLsbD, show i < 32 by omega]
  have hlow : ∀ k ≤ 1, BitVec.ofNat 8 ((value.setWidth 16).toNat / 256 ^ k) =
      BitVec.ofNat 8 (value.toNat / 256 ^ k) := by
    intro k hk
    apply BitVec.eq_of_toNat_eq
    rw [BitVec.toNat_ofNat, BitVec.toNat_ofNat, BitVec.toNat_setWidth]
    rcases Nat.le_one_iff_eq_zero_or_eq_one.mp hk with rfl | rfl
    · omega
    · omega
  simp only [bytes, List.singleton_append]
  rw [hhigh, hlow 1 (by omega), hlow 0 (by omega)]

theorem writerStep_spec {w : BufferedByteWriter} (op : WriterOp)
    (h : w.position + op.bytes.length < 2 ^ 29) :
    ∃ w', writerStep w op = .ok w' ∧ w'.position = w.position + op.bytes.length ∧
      w'.toByteArray = w.toByteArray ++ op.bytes ∧
      w'.mBuffer.length ≤ max w.mBuffer.length (4 * w'.position) := by
  have hcall : ∀ (required : BitVec 32) (parts : List (List Byte)),
      required = BitVec.ofNat 32 parts.flatten.length → parts.flatten = op.bytes →
      writerStep w op = w.putAll required parts →
      ∃ w', writerStep w op = .ok w' ∧ w'.position = w.position + op.bytes.length ∧
        w'.toByteArray = w.toByteArray ++ op.bytes ∧
        w'.mBuffer.length ≤ max w.mBuffer.length (4 * w'.position) := by
    intro required parts hreq hparts hstep
    rw [hstep, ← hparts]
    exact BufferedByteWriter.putAll_spec hreq (hparts ▸ h)
  cases op with
  | put value =>
    exact hcall (BitVec.ofNat 32 value.length) [value] (by simp) (by simp [WriterOp.bytes]) rfl
  | putByte value => exact hcall 1 [[value]] (by simp) (by simp [WriterOp.bytes]) rfl
  | putLen8 value =>
    refine hcall (1 + BitVec.ofNat 32 value.length) [[BitVec.ofNat 8 value.length], value] ?_ ?_ rfl
    · simp [BitVec.ofNat_add, BitVec.add_comm]
    · simp [WriterOp.bytes, LengthPrefix.put, bytes]
  | putLen16 value =>
    refine hcall (2 + BitVec.ofNat 32 value.length) [bytes 2 value.length, value] ?_ ?_ rfl
    · simp [BitVec.ofNat_add]
    · simp [WriterOp.bytes, LengthPrefix.put]
  | put16 value => exact hcall 2 [bytes 2 value.toNat] (by simp) (by simp [WriterOp.bytes]) rfl
  | put24 value =>
    refine hcall 3 [[(value.sshiftRight 16).setWidth 8], bytes 2 (value.setWidth 16).toNat]
      (by simp) ?_ rfl
    rw [List.flatten_cons, List.flatten_singleton, bytes_three]
    rfl
  | put32 value => exact hcall 4 [bytes 4 value.toNat] (by simp) (by simp [WriterOp.bytes]) rfl
  | put64 value => exact hcall 8 [bytes 8 value.toNat] (by simp) (by simp [WriterOp.bytes]) rfl

theorem foldlM_writerStep {ops : List WriterOp} : ∀ {w : BufferedByteWriter},
    w.position + (ops.flatMap WriterOp.bytes).length < 2 ^ 29 →
    ∃ w', ops.foldlM writerStep w = .ok w' ∧
      w'.position = w.position + (ops.flatMap WriterOp.bytes).length ∧
      w'.toByteArray = w.toByteArray ++ ops.flatMap WriterOp.bytes ∧
      w'.mBuffer.length ≤ max w.mBuffer.length (4 * w'.position) := by
  induction ops with
  | nil =>
    intro w _
    exact ⟨w, rfl, rfl, (List.append_nil _).symm, Nat.le_max_left _ _⟩
  | cons op ops ih =>
    intro w h
    rw [List.flatMap_cons, List.length_append] at h
    obtain ⟨w₁, hstep, hpos, hbytes, hlen⟩ := writerStep_spec op (w := w) (by omega)
    obtain ⟨w₂, hrest, hpos₂, hbytes₂, hlen₂⟩ := @ih w₁ (by omega)
    refine ⟨w₂, ?_, ?_, ?_, ?_⟩
    · rw [List.foldlM_cons, hstep]
      exact hrest
    · rw [hpos₂, hpos, List.flatMap_cons, List.length_append, Nat.add_assoc]
    · rw [hbytes₂, hbytes, List.flatMap_cons, List.append_assoc]
    · omega

/-- Every sequence of calls on a new writer that writes less than 2²⁹ bytes succeeds, the array that
comes out is what the calls stand for one behind the other, and the internal one has the initial
length or at most four times as many bytes. -/
theorem writer_run (capacity : Int) {ops : List WriterOp}
    (h : (ops.flatMap WriterOp.bytes).length < 2 ^ 29) :
    ∃ w, ops.foldlM writerStep (.new capacity) = .ok w ∧
      w.toByteArray = ops.flatMap WriterOp.bytes ∧
      w.mBuffer.length ≤ max (BufferedByteWriter.new capacity).mBuffer.length
        (4 * (ops.flatMap WriterOp.bytes).length) := by
  have hstart : (BufferedByteWriter.new capacity).position = 0 := rfl
  obtain ⟨w, hrun, hpos, hbytes, hlen⟩ :=
    @foldlM_writerStep ops (.new capacity) (by rw [hstart]; omega)
  refine ⟨w, hrun, hbytes, ?_⟩
  rwa [hpos, hstart, Nat.zero_add] at hlen

/-- Three calls, behind which the first array is full. -/
theorem writer_run_witness :
    ∃ w, [.put16 0, .putLen8 [1, 2], .put24 0x2B79].foldlM writerStep (.new 5) = .ok w ∧
      w.toByteArray = [0, 0, 2, 1, 2, 0x00, 0x2B, 0x79] := by
  obtain ⟨w, hrun, hbytes, -⟩ :=
    @writer_run 5 [.put16 0, .putLen8 [1, 2], .put24 0x2B79] (by decide)
  exact ⟨w, hrun, hbytes.trans (by decide)⟩

end ConfProfile.Imc
