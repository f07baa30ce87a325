import Mathlib.Data.List.TakeDrop

/-!
# The storage file of the installed keys (`AppCertificateManager`)

`doStore` opens `storage.jks` for output, which empties it, lets the key store write itself
there, and loads it again from what was written. Each of these calls may throw. The key store
is a parameter (`KeyStoreSpi`), and so is what the calls come back with (`Calls`).

Nothing is written aside and moved into its place: what has been written of the new key store
when something throws is what the file holds, and the previous one is gone
(`doStore_file_iff`).
-/

namespace ConfProfile.Crypto

abbrev Byte := BitVec 8

/-- `java.security.KeyStore` of the type and the provider that the constructor asks for: the
bytes that `store` writes, which depend on the salt it draws, and what `load` leaves in the key
store and throws. `load` gets the contents of the file and, if reading fails, behind how many
bytes it does and with which exception. -/
structure KeyStoreSpi (K R : Type) where
  store : K → String → R → List Byte
  load : K → List Byte → Option (Nat × String) → String → K × Option String

/-- What is on the device, and the key store in memory. -/
structure Storage (K : Type) where
  /-- `storage.jks`, if there is one. -/
  file : Option (List Byte)
  /-- The preference `PREF_PASSWORD`. -/
  password : Option String
  mKeyStore : K
  deriving DecidableEq, Repr

/-- What the calls of one `doStore` come back with: the exception, if there is one. `store`
throws behind a number of bytes that have been written, `load` behind a number that were read. -/
structure Calls (R : Type) where
  randomString : String
  openFileOutput : Option String
  salt : R
  store : Option (Nat × String)
  flush : Option String
  close : Option String
  openFileInput : Option String
  load : Option (Nat × String)
  closeInput : Option String

variable {K R : Type} (spi : KeyStoreSpi K R) (calls : Calls R) (s : Storage K)

/-- `getPassword`. -/
def getPassword : String × Storage K :=
  match s.password with
  | some password => (password, s)
  | none => (calls.randomString, { s with password := some calls.randomString })

/-- The `finally` behind the output: `flush` and `close`, and an exception of theirs in place of
the one that is on its way. A `flush` that throws leaves out the `close`. -/
def Calls.flushAndClose (e : Option String) : Option String :=
  match calls.flush with
  | some e' => some e'
  | none => calls.close.or e

/-- The first half of `doStore`: `openFileOutput`, which empties the file, and
`KeyStore.store`. -/
def writeFile (password : String) : Option String × Storage K :=
  match calls.openFileOutput with
  -- `os` is null in the `finally`
  | some e => (some e, s)
  | none =>
    let bytes := spi.store s.mKeyStore password calls.salt
    match calls.store with
    | some (written, e) =>
      (calls.flushAndClose (some e), { s with file := some (bytes.take written) })
    | none => (calls.flushAndClose none, { s with file := some bytes })

/-- The second half: the key store is loaded from the file. -/
def readFile (password : String) : Option String × Storage K :=
  match calls.openFileInput with
  | some e => (some e, s)
  | none =>
    let (mKeyStore, e) := spi.load s.mKeyStore (s.file.getD []) calls.load password
    (calls.closeInput.or e, { s with mKeyStore })

/-- `AppCertificateManager.doStore`: the exception, if there is one, and what is left. -/
def doStore : Option String × Storage K :=
  let (password, s) := getPassword calls s
  match writeFile spi calls s password with
  | (some e, s) => (some e, s)
  | (none, s) => readFile spi calls s password

/-- `CertificateManager.store`: what is thrown is logged. -/
def store : Storage K := (doStore spi calls s).2

/-- The complete new key store. -/
def newFile : List Byte := spi.store s.mKeyStore (getPassword calls s).1 calls.salt

/-- How much of it gets into the file. -/
def Calls.written (bytes : List Byte) : List Byte :=
  match calls.store with
  | some (written, _) => bytes.take written
  | none => bytes

variable {spi calls s}

@[simp] theorem getPassword_file : (getPassword calls s).2.file = s.file := by
  unfold getPassword
  cases s.password <;> rfl

@[simp] theorem getPassword_mKeyStore : (getPassword calls s).2.mKeyStore = s.mKeyStore := by
  unfold getPassword
  cases s.password <;> rfl

/-- Only opening and writing change the file. -/
theorem writeFile_file {password : String} : (writeFile spi calls s password).2.file =
    match calls.openFileOutput with
    | some _ => s.file
    | none => some (calls.written (spi.store s.mKeyStore password calls.salt)) := by
  unfold writeFile Calls.written
  cases calls.openFileOutput with
  | some e => rfl
  | none =>
    cases calls.store with
    | some stop => rfl
    | none => rfl

@[simp] theorem readFile_file {password : String} :
    (readFile spi calls s password).2.file = s.file := by
  unfold readFile
  cases calls.openFileInput <;> rfl

/-- What `doStore` leaves in the file, however it ends. -/
theorem doStore_file : (doStore spi calls s).2.file =
    match calls.openFileOutput with
    | some _ => s.file
    | none => some (calls.written (newFile spi calls s)) := by
  have hwrite : (writeFile spi calls (getPassword calls s).2 (getPassword calls s).1).2.file =
      match calls.openFileOutput with
      | some _ => s.file
      | none => some (calls.written (newFile spi calls s)) := by
    rw [writeFile_file, getPassword_file, getPassword_mKeyStore]
    rfl
  unfold doStore
  dsimp only
  split
  next e s' h =>
    rw [h] at hwrite
    exact hwrite
  next s' h =>
    rw [h] at hwrite
    exact readFile_file.trans hwrite

/-- The key store is written to its end. -/
def Calls.Complete (bytes : List Byte) : Prop :=
  ∀ written e, calls.store = some (written, e) → bytes.length ≤ written

variable (spi calls s)

theorem written_eq_self_iff (bytes : List Byte) :
    calls.written bytes = bytes ↔ calls.Complete bytes := by
  unfold Calls.written Calls.Complete
  cases calls.store with
  | none =>
    constructor
    · intro _ written e h
      cases h
    · intro _
      rfl
  | some stop =>
    obtain ⟨written, e⟩ := stop
    constructor
    · intro h written' e' heq
      cases heq
      exact (List.take_eq_self_iff bytes).mp h
    · intro h
      exact List.take_of_length_le (h written e rfl)

/-- However `doStore` ends, the file is the previous one if it could not be opened, and the part
of the new one that was written if it could. So it is a complete one, the previous or the new,
exactly if it could not be opened, or was written to its end, or what was written of the new one
is just what the previous one was. -/
theorem doStore_file_iff :
    (calls.openFileOutput.isSome → (doStore spi calls s).2.file = s.file) ∧
    (calls.openFileOutput = none →
      (doStore spi calls s).2.file = some (calls.written (newFile spi calls s))) ∧
    ((doStore spi calls s).2.file = s.file ∨
        (doStore spi calls s).2.file = some (newFile spi calls s) ↔
      calls.openFileOutput.isSome ∨ calls.Complete (newFile spi calls s) ∨
        s.file = some (calls.written (newFile spi calls s))) := by
  rw [doStore_file]
  cases hopen : calls.openFileOutput with
  | some e => simp
  | none =>
    refine ⟨by simp, by simp, ?_⟩
    have hnew := written_eq_self_iff calls (newFile spi calls s)
    constructor
    · intro hfile
      rcases hfile with hold | hwhole
      · exact Or.inr (Or.inr hold.symm)
      · exact Or.inr (Or.inl (hnew.mp (Option.some.inj hwhole)))
    · intro hcases
      rcases hcases with hsome | hcomplete | hold
      · simp at hsome
      · exact Or.inr (congrArg some (hnew.mpr hcomplete))
      · exact Or.inl hold.symm

/-- A key store that is written as its bytes stand. -/
def plainKeyStore : KeyStoreSpi (List Byte) Unit where
  store bytes _ _ := bytes
  load _ file _ _ := (file, none)

/-- The disk is full behind the first byte. -/
def diskFull : Calls Unit where
  randomString := "password"
  openFileOutput := none
  salt := ()
  store := some (1, "IOException")
  flush := none
  close := none
  openFileInput := none
  load := none
  closeInput := none

/-- The file held the keys 1 2, and the keys 3 4 5 were to take their place. -/
theorem doStore_file_counterexample :
    let s : Storage (List Byte) := ⟨some [1, 2], some "password", [3, 4, 5]⟩
    (doStore plainKeyStore diskFull s).1 = some "IOException" ∧
      (doStore plainKeyStore diskFull s).2.file = some [3] ∧
      ¬ ((doStore plainKeyStore diskFull s).2.file = s.file ∨
        (doStore plainKeyStore diskFull s).2.file = some (newFile plainKeyStore diskFull s)) := by
  decide

end ConfProfile.Crypto
