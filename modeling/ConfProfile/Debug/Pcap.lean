import Mathlib.Data.List.TakeDrop
import ConfProfile.Lib.BigEndian

/-!
# Packet captures (`PcapOutputStream`)

A capture is a file header and a record for each packet, all in network order. `parsePcap`
reads such a file, in either byte order. The packets come back as they were written
(`parsePcap_pcapFile`). The field for the microseconds gets the milliseconds, so
that a time comes back only where there are none (`pcap_timestamps`).
-/

namespace ConfProfile.Debug

open BigEndian

abbrev Byte := BitVec 8

/-! ## Writing -/

/-- The objects that `valuesAsByteArray` takes. -/
inductive Value where
  | long (v : BitVec 64)
  | int (v : BitVec 32)
  | short (v : BitVec 16)
  | byte (v : BitVec 8)
  | string (utf8 : List Byte)
  | bytes (v : List Byte)

def Value.asBytes : Value → List Byte
  | .long v => BigEndian.bytes 8 v.toNat
  | .int v => BigEndian.bytes 4 v.toNat
  | .short v => BigEndian.bytes 2 v.toNat
  | .byte v => [v]
  | .string utf8 => utf8
  | .bytes v => v

def valuesAsByteArray (values : List Value) : List Byte := values.flatMap Value.asBytes

def MAGIC : BitVec 32 := 0xa1b2c3d4
def VER_MAJOR : BitVec 16 := 2
def VER_MINOR : BitVec 16 := 4

/-- `writePcapHeader`. -/
def writePcapHeader (mtu linkType : BitVec 32) : List Byte :=
  valuesAsByteArray [.int MAGIC, .short VER_MAJOR, .short VER_MINOR, .int 0, .int 0, .int mtu,
    .int linkType]

/-- A call of `writePacket`, with the clock in milliseconds. -/
structure PacketWrite where
  ts : Int
  buff : List Byte
  offs : Nat
  len : Nat
  origLen : BitVec 32
  fits : offs + len ≤ buff.length
  array : buff.length < 2 ^ 31

/-- The part of the array that is written. -/
def PacketWrite.data (w : PacketWrite) : List Byte := (w.buff.drop w.offs).take w.len

/-- `writePacket(byte[], int, int)`. -/
def PacketWrite.whole (ts : Int) (buff : List Byte) (offs len : Nat)
    (fits : offs + len ≤ buff.length) (array : buff.length < 2 ^ 31) : PacketWrite :=
  ⟨ts, buff, offs, len, BitVec.ofNat 32 len, fits, array⟩

/-- What `writePacket` appends with the two fields of the time. -/
def packetBytes (w : PacketWrite) (ts_sec ts_usec : BitVec 32) : List Byte :=
  valuesAsByteArray [.int ts_sec, .int ts_usec, .int (BitVec.ofNat 32 w.len), .int w.origLen] ++
    w.data

/-- `writePacket`. -/
def writePacket (out : List Byte) (w : PacketWrite) : List Byte :=
  let ts_sec := BitVec.ofInt 32 (w.ts.tdiv 1000)
  let ts_usec := BitVec.ofInt 32 (w.ts.tmod 1000)
  out ++ packetBytes w ts_sec ts_usec

/-- The file behind a sequence of calls. -/
def pcapFile (mtu linkType : BitVec 32) (writes : List PacketWrite) : List Byte :=
  writes.foldl writePacket (writePcapHeader mtu linkType)

/-! ## Parsing -/

/-- A record of a capture. -/
structure Record where
  tsSec : Nat
  tsUsec : Nat
  origLen : Nat
  data : List Byte
  deriving DecidableEq, Repr

/-- A capture. -/
structure Capture where
  versionMajor : Nat
  versionMinor : Nat
  thiszone : Nat
  sigfigs : Nat
  snaplen : Nat
  network : Nat
  records : List Record
  deriving DecidableEq, Repr

/-- The number in a field of a header. -/
def field (little : Bool) (bytes : List Byte) (offs width : Nat) : Nat :=
  let part := (bytes.drop offs).take width
  value (if little then part.reverse else part)

/-- The byte order of a capture, from its magic. -/
def byteOrder (bytes : List Byte) : Option Bool :=
  if field false bytes 0 4 = MAGIC.toNat then some false
  else if field true bytes 0 4 = MAGIC.toNat then some true
  else none

def parseRecords (little : Bool) (bytes : List Byte) : Option (List Record) :=
  if bytes = [] then some []
  else if bytes.length < 16 + field little bytes 8 4 then none
  else do
    let inclLen := field little bytes 8 4
    let records ← parseRecords little (bytes.drop (16 + inclLen))
    some (⟨field little bytes 0 4, field little bytes 4 4, field little bytes 12 4,
      (bytes.drop 16).take inclLen⟩ :: records)
termination_by bytes.length
decreasing_by
  have := List.length_pos_iff.mpr ‹_›
  rw [List.length_drop]
  omega

def parsePcap (bytes : List Byte) : Option Capture :=
  if bytes.length < 24 then none
  else do
    let little ← byteOrder bytes
    let records ← parseRecords little (bytes.drop 24)
    some ⟨field little bytes 4 2, field little bytes 6 2, field little bytes 8 4,
      field little bytes 12 4, field little bytes 16 4, field little bytes 20 4, records⟩

/-! ## What is read of what was written -/

theorem field_eq {before part after : List Byte} {offs width : Nat}
    (hbefore : before.length = offs) (hpart : part.length = width) :
    field false (before ++ (part ++ after)) offs width = value part := by
  subst hbefore hpart
  simp [field]

theorem field_int {before after : List Byte} {offs : Nat} (hbefore : before.length = offs)
    (v : BitVec 32) : field false (before ++ (bytes 4 v.toNat ++ after)) offs 4 = v.toNat := by
  rw [field_eq hbefore (length_bytes 4 _), value_word32]

/-- The record that a packet is read as, with the two fields of its time. -/
def PacketWrite.record (w : PacketWrite) (ts_sec ts_usec : BitVec 32) : Record :=
  ⟨ts_sec.toNat, ts_usec.toNat, w.origLen.toNat, w.data⟩

theorem PacketWrite.length_data (w : PacketWrite) : w.data.length = w.len := by
  have := w.fits
  rw [data, List.length_take, List.length_drop]
  omega

theorem PacketWrite.len_toNat (w : PacketWrite) : (BitVec.ofNat 32 w.len).toNat = w.len := by
  have hfits := w.fits
  have harray := w.array
  rw [BitVec.toNat_ofNat]
  omega

theorem packetBytes_append (w : PacketWrite) (ts_sec ts_usec : BitVec 32) (rest : List Byte) :
    packetBytes w ts_sec ts_usec ++ rest = bytes 4 ts_sec.toNat ++ (bytes 4 ts_usec.toNat ++
      (bytes 4 (BitVec.ofNat 32 w.len).toNat ++ (bytes 4 w.origLen.toNat ++ (w.data ++ rest)))) := by
  simp [packetBytes, valuesAsByteArray, Value.asBytes]

/-- One record is read, and what is behind it. -/
theorem parseRecords_packet (w : PacketWrite) (ts_sec ts_usec : BitVec 32) (rest : List Byte) :
    parseRecords false (packetBytes w ts_sec ts_usec ++ rest) =
      (parseRecords false rest).map (w.record ts_sec ts_usec :: ·) := by
  rw [packetBytes_append]
  generalize hbytes : bytes 4 ts_sec.toNat ++ _ = record
  have hsec : field false record 0 4 = ts_sec.toNat := by
    rw [← hbytes]
    exact field_int List.length_nil ts_sec
  have husec : field false record 4 4 = ts_usec.toNat := by
    rw [← hbytes]
    exact field_int (length_bytes 4 _) ts_usec
  have hlen : field false record 8 4 = w.len := by
    rw [← hbytes, ← List.append_assoc, field_int (by simp), w.len_toNat]
  have horig : field false record 12 4 = w.origLen.toNat := by
    rw [← hbytes, ← List.append_assoc, ← List.append_assoc, field_int (by simp)]
  have hdrop : record.drop 16 = w.data ++ rest := by
    rw [← hbytes]
    simp only [← List.append_assoc]
    rw [List.append_assoc _ w.data rest, List.drop_left' (by simp)]
  have hlength : record.length = 16 + (w.len + rest.length) := by
    rw [← hbytes]
    simp [w.length_data]
    omega
  have hne : record ≠ [] := by
    intro h
    rw [h, List.length_nil] at hlength
    omega
  rw [parseRecords, if_neg hne, hlen, if_neg (by omega)]
  have hrest : record.drop (16 + w.len) = rest := by
    rw [← List.drop_drop, hdrop, ← w.length_data, List.drop_left]
  have hdata : (w.data ++ rest).take w.len = w.data := by
    rw [← w.length_data, List.take_left]
  simp only [hrest, hsec, husec, horig, hdrop, hdata]
  cases parseRecords false rest <;> rfl

/-- The times as they are written. -/
def PacketWrite.tsSec (w : PacketWrite) : BitVec 32 := BitVec.ofInt 32 (w.ts.tdiv 1000)
def PacketWrite.tsUsec (w : PacketWrite) : BitVec 32 := BitVec.ofInt 32 (w.ts.tmod 1000)

theorem pcapFile_eq (mtu linkType : BitVec 32) (writes : List PacketWrite) :
    pcapFile mtu linkType writes = writePcapHeader mtu linkType ++
      writes.flatMap fun w => packetBytes w w.tsSec w.tsUsec := by
  rw [pcapFile]
  generalize writePcapHeader mtu linkType = out
  induction writes generalizing out with
  | nil => exact (List.append_nil out).symm
  | cons w writes ih =>
    rw [List.foldl_cons, ih, List.flatMap_cons, writePacket, List.append_assoc]
    rfl

theorem parseRecords_packets (writes : List PacketWrite) :
    parseRecords false (writes.flatMap fun w => packetBytes w w.tsSec w.tsUsec) =
      some (writes.map fun w => w.record w.tsSec w.tsUsec) := by
  induction writes with
  | nil =>
    rw [List.flatMap_nil, parseRecords]
    rfl
  | cons w writes ih =>
    rw [List.flatMap_cons, parseRecords_packet, ih]
    rfl

/-- Every capture is read: the header, and the packets in order. -/
theorem parsePcap_pcapFile (mtu linkType : BitVec 32) (writes : List PacketWrite) :
    parsePcap (pcapFile mtu linkType writes) = some ⟨2, 4, 0, 0, mtu.toNat, linkType.toNat,
      writes.map fun w => w.record w.tsSec w.tsUsec⟩ := by
  rw [pcapFile_eq]
  generalize hrecords : (writes.flatMap fun w => packetBytes w w.tsSec w.tsUsec) = records
  have hread := parseRecords_packets writes
  rw [hrecords] at hread
  have hheader : writePcapHeader mtu linkType ++ records = bytes 4 MAGIC.toNat ++
      (bytes 2 2 ++ (bytes 2 4 ++ (bytes 4 0 ++ (bytes 4 0 ++ (bytes 4 mtu.toNat ++
        (bytes 4 linkType.toNat ++ records)))))) := by
    simp [writePcapHeader, valuesAsByteArray, Value.asBytes, VER_MAJOR, VER_MINOR]
  rw [hheader]
  generalize hbytes : bytes 4 MAGIC.toNat ++ _ = file
  have hmagic : field false file 0 4 = MAGIC.toNat := by
    rw [← hbytes]
    exact field_int List.length_nil MAGIC
  have hmajor : field false file 4 2 = 2 := by
    rw [← hbytes, field_eq (length_bytes 4 _) (length_bytes 2 _)]
    rfl
  have hminor : field false file 6 2 = 4 := by
    rw [← hbytes, ← List.append_assoc, field_eq (by simp) (length_bytes 2 _)]
    rfl
  have hthiszone : field false file 8 4 = 0 := by
    rw [← hbytes, ← List.append_assoc, ← List.append_assoc,
      field_eq (by simp) (length_bytes 4 _)]
    rfl
  have hsigfigs : field false file 12 4 = 0 := by
    rw [← hbytes, ← List.append_assoc, ← List.append_assoc, ← List.append_assoc,
      field_eq (by simp) (length_bytes 4 _)]
    rfl
  have hsnaplen : field false file 16 4 = mtu.toNat := by
    rw [← hbytes, ← List.append_assoc, ← List.append_assoc, ← List.append_assoc,
      ← List.append_assoc, field_int (by simp)]
  have hnetwork : field false file 20 4 = linkType.toNat := by
    rw [← hbytes, ← List.append_assoc, ← List.append_assoc, ← List.append_assoc,
      ← List.append_assoc, ← List.append_assoc, field_int (by simp)]
  have hdrop : file.drop 24 = records := by
    rw [← hbytes]
    simp only [← List.append_assoc]
    rw [List.drop_left' (by simp)]
  have hlength : file.length = 24 + records.length := by
    rw [← hbytes]
    simp
    omega
  rw [parsePcap, if_neg (by omega), byteOrder, if_pos hmagic]
  simp only [Option.bind_eq_bind, Option.bind_some, hdrop, hread, hmajor, hminor, hthiszone,
    hsigfigs, hsnaplen, hnetwork]

/-! ## The times -/

/-- The time of a call, in seconds and microseconds. -/
def PacketWrite.timestamp (w : PacketWrite) : Int × Int := (w.ts / 1000, w.ts % 1000 * 1000)

/-- The packets come back in order, each with the time of its call. -/
def ReadsBack (mtu linkType : BitVec 32) (writes : List PacketWrite) : Prop :=
  ∃ capture, parsePcap (pcapFile mtu linkType writes) = some capture ∧
    capture.records.map (fun r => (r.data, r.origLen)) =
      writes.map (fun w => (w.data, w.origLen.toNat)) ∧
    capture.records.map (fun r => ((r.tsSec : Int), (r.tsUsec : Int))) =
      writes.map PacketWrite.timestamp

theorem timestamp_iff (w : PacketWrite) :
    ((w.tsSec.toNat : Int), (w.tsUsec.toNat : Int)) = w.timestamp ↔
      w.ts % 1000 = 0 ∧ 0 ≤ w.ts ∧ w.ts < 2 ^ 32 * 1000 := by
  rw [PacketWrite.timestamp, Prod.mk.injEq, PacketWrite.tsSec, PacketWrite.tsUsec,
    BitVec.toNat_ofInt, BitVec.toNat_ofInt]
  by_cases hts : 0 ≤ w.ts
  · rw [Int.tdiv_eq_ediv_of_nonneg hts, Int.tmod_eq_emod_of_nonneg hts]
    omega
  · -- before 1970: the remainder is not positive
    obtain ⟨m, hm⟩ : ∃ m, w.ts = -m := ⟨-w.ts, (neg_neg _).symm⟩
    rw [hm, Int.neg_tdiv, Int.neg_tmod, Int.tdiv_eq_ediv_of_nonneg (by omega),
      Int.tmod_eq_emod_of_nonneg (by omega)]
    omega

/-- For all sequences of packets at any clock times: they come back with the times of their calls
exactly if each time is a whole second that fits into 32 bits. -/
theorem pcap_timestamps (mtu linkType : BitVec 32) (writes : List PacketWrite) :
    ReadsBack mtu linkType writes ↔
      ∀ w ∈ writes, w.ts % 1000 = 0 ∧ 0 ≤ w.ts ∧ w.ts < 2 ^ 32 * 1000 := by
  have hparse := parsePcap_pcapFile mtu linkType writes
  constructor
  · intro h
    obtain ⟨capture, hcapture, -, htimes⟩ := h
    obtain rfl := Option.some.inj (hparse.symm.trans hcapture)
    rw [List.map_map, List.map_inj_left] at htimes
    intro w hw
    exact (timestamp_iff w).mp (htimes w hw)
  · intro h
    refine ⟨_, hparse, ?_, ?_⟩
    · rw [List.map_map]
      rfl
    · rw [List.map_map, List.map_inj_left]
      intro w hw
      exact (timestamp_iff w).mpr (h w hw)

/-- A packet that is written a millisecond after a full second. -/
def onePacket : PacketWrite :=
  .whole 1400000000001 [0x45, 0, 0, 20] 0 4 (by decide) (by decide)

theorem milliseconds_as_microseconds : onePacket.timestamp = (1400000000, 1000) ∧
    (∃ capture, parsePcap (pcapFile 1500 101 [onePacket]) = some capture ∧
      capture.records = [⟨1400000000, 1, 4, [0x45, 0, 0, 20]⟩]) ∧
    ¬ ReadsBack 1500 101 [onePacket] := by
  have hparse := parsePcap_pcapFile 1500 101 [onePacket]
  refine ⟨by decide, ⟨_, hparse, by decide⟩, fun h => ?_⟩
  obtain ⟨capture, hcapture, -, htimes⟩ := h
  obtain rfl := Option.some.inj (hparse.symm.trans hcapture)
  exact absurd htimes (by decide)

end ConfProfile.Debug
