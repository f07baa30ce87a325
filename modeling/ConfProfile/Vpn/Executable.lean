import ConfProfile.OpenVpn.NetUtils

/-!
# The executables in the cache (`MiscUtils.writeExecutableToCache`)

An executable is kept in the assets and copied to the cache before it is started. The loop that
copies reads at its head and once more at the end of its body, and what it reads there is
overwritten by the next read: every second chunk of the stream is lost (`copyLoop_eq`).
-/

namespace ConfProfile.Executable

open OpenVpn (Unchecked)

/-- What one read of a stream gives, into a buffer of 4096 bytes. -/
abbrev Chunk := { chunk : List (BitVec 8) // chunk ≠ [] ∧ chunk.length ≤ 4096 }

/-- The bytes of a stream. -/
def contents (is : List Chunk) : List (BitVec 8) := (is.map Subtype.val).flatten

/-- `InputStream.read`: how many bytes were read, or -1, what is in the buffer, and what is left
of the stream. -/
def read (is : List Chunk) (buff : List (BitVec 8)) : Int × List (BitVec 8) × List Chunk :=
  match is with
  | [] => (-1, buff, [])
  | chunk :: is => (chunk.val.length, chunk.val ++ buff.drop chunk.val.length, is)

/-- `FileOutputStream.write`, of the front of a buffer. -/
def write (fos buff : List (BitVec 8)) (count : Int) : Except Unchecked (List (BitVec 8)) :=
  if count < 0 ∨ buff.length < count then .error .arrayIndexOutOfBounds
  else .ok (fos ++ buff.take count.toNat)

theorem read_length_le (is : List Chunk) (buff : List (BitVec 8)) :
    (read is buff).2.2.length ≤ is.length := by
  cases is with
  | nil => exact le_rfl
  | cons chunk is => exact Nat.le_succ _

theorem read_length_lt {is : List Chunk} {buff : List (BitVec 8)} (h : (read is buff).1 ≠ -1) :
    (read is buff).2.2.length < is.length := by
  cases is with
  | nil => exact absurd rfl h
  | cons chunk is => exact Nat.lt_succ_self _

/-- The loop of `writeExecutableToCache`. -/
def copyLoop (is : List Chunk) (buff fos : List (BitVec 8)) : Except Unchecked (List (BitVec 8)) :=
  let r := read is buff
  if _ : r.1 = -1 then .ok fos
  else do
    let fos ← write fos r.2.1 r.1
    let r := read r.2.2 r.2.1
    copyLoop r.2.2 r.2.1 fos
  termination_by is.length
  decreasing_by exact Nat.lt_of_le_of_lt (read_length_le _ _) (read_length_lt ‹_›)

/-- A file of the cache. -/
structure CacheFile where
  content : List (BitVec 8)
  canExecute : Bool
  deriving DecidableEq, Repr

/-- What the platform has and what its calls come back with. -/
structure Platform where
  /-- `BuildConfig.DEBUG` -/
  debug : Bool
  cpuAbi : String
  cpuAbi2 : String
  /-- `AssetManager.open`; `none` is an `IOException`. -/
  openAsset : String → Option (List Chunk)
  delete : Bool
  /-- The `FileOutputStream` is opened. -/
  openOutput : Bool
  setExecutable : Bool

variable (platform : Platform)

/-- The asset for the first architecture, for the second one, or for none. -/
def Platform.openExecutable (filename : String) : Option (List Chunk) :=
  match platform.openAsset (filename ++ "." ++ platform.cpuAbi) with
  | some is => some is
  | none =>
    match platform.openAsset (filename ++ "." ++ platform.cpuAbi2) with
    | some is => some is
    | none => platform.openAsset filename

/-- `writeExecutableToCache`: whether the file is returned, and the file. -/
def writeExecutableToCache (filename : String) (dstFile : Option CacheFile) :
    Except Unchecked (Bool × Option CacheFile) :=
  let executable := dstFile.any (·.canExecute)
  if executable ∧ ¬ platform.debug then .ok (true, dstFile)
  else
    let dstFile := if executable ∧ platform.delete then none else dstFile
    match platform.openExecutable filename with
    | none => .ok (false, dstFile)
    | some is =>
      if ¬ platform.openOutput then .ok (false, dstFile)
      else do
        let content ← copyLoop is (List.replicate 4096 0) []
        let canExecute := platform.setExecutable || dstFile.any (·.canExecute)
        return (platform.setExecutable, some { content := content, canExecute := canExecute })

/-- The first of every two chunks. -/
def everyOther : List Chunk → List Chunk
  | chunk :: _ :: is => chunk :: everyOther is
  | is => is

/-- What is written is what was read, and the buffer stays as long as it is. -/
theorem write_read (chunk : Chunk) (is : List Chunk) (fos : List (BitVec 8))
    {buff : List (BitVec 8)} (hbuff : buff.length = 4096) :
    write fos (read (chunk :: is) buff).2.1 (read (chunk :: is) buff).1 = .ok (fos ++ chunk.val) ∧
      (read (chunk :: is) buff).2.1.length = 4096 := by
  have hchunk := chunk.property.2
  have hlen : (chunk.val ++ buff.drop chunk.val.length).length = 4096 := by
    rw [List.length_append, List.length_drop]
    omega
  refine ⟨?_, hlen⟩
  rw [write, read, if_neg (by dsimp only; omega), Int.toNat_natCast, List.take_left]

theorem length_read (is : List Chunk) {buff : List (BitVec 8)} (hbuff : buff.length = 4096) :
    (read is buff).2.1.length = 4096 := by
  cases is with
  | nil => exact hbuff
  | cons chunk is => exact (write_read chunk is [] hbuff).2

/-- A turn of the loop. -/
theorem copyLoop_cons (chunk : Chunk) (is : List Chunk) {buff : List (BitVec 8)}
    (fos : List (BitVec 8)) (hbuff : buff.length = 4096) :
    ∃ buff', buff'.length = 4096 ∧
      copyLoop (chunk :: is) buff fos = copyLoop is.tail buff' (fos ++ chunk.val) := by
  obtain ⟨hwrite, hlen⟩ := write_read chunk is fos hbuff
  refine ⟨_, length_read is hlen, ?_⟩
  rw [copyLoop, dif_neg (by rw [read]; dsimp only; omega), hwrite]
  cases is <;> rfl

/-- The loop does not fail, and leaves out every second chunk. -/
theorem copyLoop_eq (is : List Chunk) {buff : List (BitVec 8)} (fos : List (BitVec 8))
    (hbuff : buff.length = 4096) :
    copyLoop is buff fos = .ok (fos ++ contents (everyOther is)) := by
  have hnil (buff fos : List (BitVec 8)) : copyLoop [] buff fos = .ok fos := by
    rw [copyLoop, dif_pos]
    rfl
  induction is using everyOther.induct generalizing buff fos with
  | case1 chunk skipped is ih =>
    obtain ⟨buff', hlen, hturn⟩ := copyLoop_cons chunk (skipped :: is) fos hbuff
    rw [hturn, List.tail_cons, ih _ hlen, everyOther, contents, contents, List.map_cons,
      List.flatten_cons, List.append_assoc]
  | case2 is hshort =>
    match is, hshort with
    | [], _ => exact (hnil buff fos).trans (congrArg _ (List.append_nil fos).symm)
    | [chunk], _ =>
      obtain ⟨buff', -, hturn⟩ := copyLoop_cons chunk [] fos hbuff
      rw [hturn, List.tail_nil, hnil]
      simp [everyOther, contents]
    | chunk :: skipped :: is, hshort => exact absurd rfl (hshort chunk skipped is)

theorem length_contents_everyOther (is : List Chunk) :
    (contents (everyOther is)).length ≤ (contents is).length := by
  induction is using everyOther.induct with
  | case1 chunk skipped is ih =>
    simp only [everyOther, contents, List.map_cons, List.flatten_cons, List.length_append] at ih ⊢
    omega
  | case2 is hshort => rw [everyOther.eq_2 is hshort]

/-- The file has the bytes of the asset, each once and in order, if and only if they are all read
at once. -/
theorem copyLoop_copies_iff (is : List Chunk) :
    copyLoop is (List.replicate 4096 0) [] = .ok (contents is) ↔ is.length ≤ 1 := by
  rw [copyLoop_eq is [] List.length_replicate, List.nil_append]
  match is with
  | [] => exact iff_of_true rfl (Nat.zero_le 1)
  | [chunk] => exact iff_of_true rfl le_rfl
  | chunk :: skipped :: is =>
    refine iff_of_false (fun h => ?_) (by simp)
    have hlen := congrArg List.length (Except.ok.inj h)
    have hskipped := List.length_pos_of_ne_nil skipped.property.1
    have hrest := length_contents_everyOther is
    simp only [everyOther, contents, List.map_cons, List.flatten_cons, List.length_append] at hlen hrest
    omega

/-- The last byte of an asset of 4097 bytes is lost. -/
theorem copyLoop_loses : ∃ is : List Chunk, contents is = List.replicate 4096 1 ++ [2] ∧
    copyLoop is (List.replicate 4096 0) [] = .ok (List.replicate 4096 1) := by
  have hlen : (List.replicate 4096 (1 : BitVec 8)).length = 4096 := List.length_replicate
  refine ⟨[⟨List.replicate 4096 1, List.length_pos_iff.mp (by omega), hlen.le⟩,
    ⟨[2], by decide, by decide⟩], rfl, ?_⟩
  rw [copyLoop_eq _ _ List.length_replicate]
  exact congrArg Except.ok (List.append_nil _)

/-- What is returned as an executable that is not cached yet. -/
theorem writeExecutableToCache_eq {filename : String} {dstFile : Option CacheFile}
    {is : List Chunk} (hcache : dstFile.any (·.canExecute) = false)
    (hasset : platform.openExecutable filename = some is) (hopen : platform.openOutput = true) :
    writeExecutableToCache platform filename dstFile = .ok (platform.setExecutable,
      some { content := contents (everyOther is), canExecute := platform.setExecutable }) := by
  have hcopy := copyLoop_eq is [] (List.length_replicate (n := 4096) (a := (0 : BitVec 8)))
  rw [writeExecutableToCache, hcache, hasset]
  simp only [Bool.false_eq_true, false_and, if_false, hopen, not_true_eq_false, hcopy, hcache,
    Bool.or_false, List.nil_append]
  rfl

end ConfProfile.Executable
