import ConfProfile.Jcajce.Pkcs1Padding
import ConfProfile.Lib.Rsa
import Mathlib.Tactic.NormNum.Prime

/-!
# `NoneWithRsaSignatureSpi`

The signature object with its mode, its stream and its keys. `engineSign` raises the padded
stream to the private exponent. `engineVerify` does not undo that: it raises the padded stream to
the public exponent and compares the two. So it accepts a signature exactly if the public
exponent undoes itself at the padded message (`engineVerify_engineSign_iff`).

`Cipher` with the transformation "RSA" is taken to be the RSA primitive on blocks of the length
of the modulus.
-/

namespace ConfProfile.Jcajce

open Rsa

inductive Mode
  | uninitialized
  | sign
  | verify
  deriving DecidableEq, Repr

/-- `RSAPublicKey` and `RSAPrivateKey`, or a key of another kind. -/
inductive Key
  | rsa (n exponent : Nat)
  | other
  deriving DecidableEq, Repr

inductive SpiException
  | invalidKey (message : String)
  /-- without a message where it has another exception as its cause -/
  | signature (message : Option String)
  deriving DecidableEq, Repr

structure NoneWithRsaSignatureSpi where
  mMode : Mode
  mOutputStream : Option (List Byte)
  mPublicKey : Option (Nat × Nat)
  mPrivateKey : Option (Nat × Nat)
  deriving DecidableEq, Repr

namespace NoneWithRsaSignatureSpi

def new : NoneWithRsaSignatureSpi := ⟨.uninitialized, none, none, none⟩

def reset (spi : NoneWithRsaSignatureSpi) : NoneWithRsaSignatureSpi :=
  { spi with mMode := .uninitialized, mOutputStream := some [] }

def engineInitVerify (spi : NoneWithRsaSignatureSpi) :
    Key → Except SpiException NoneWithRsaSignatureSpi
  | .rsa n e => .ok { spi.reset with mMode := .verify, mPublicKey := some (n, e) }
  | .other => .error (.invalidKey "RSA public key is required")

def engineInitSign (spi : NoneWithRsaSignatureSpi) :
    Key → Except SpiException NoneWithRsaSignatureSpi
  | .rsa n d => .ok { spi.reset with mMode := .sign, mPrivateKey := some (n, d) }
  | .other => .error (.invalidKey "RSA private key is required")

end NoneWithRsaSignatureSpi

/-- A call of `engineUpdate`. -/
inductive UpdateCall
  | byte (b : Byte)
  | range (b : List Byte) (off len : Int)
  deriving DecidableEq, Repr

/-- What `ByteArrayOutputStream.write` appends, none where it is out of bounds. -/
def UpdateCall.written : UpdateCall → Option (List Byte)
  | .byte b => some [b]
  | .range b off len =>
    if 0 ≤ off ∧ 0 ≤ len ∧ off + len ≤ b.length then some ((b.drop off.toNat).take len.toNat)
    else none

/-- What some calls append. -/
def writtenBy (calls : List UpdateCall) : Option (List Byte) :=
  (calls.mapM UpdateCall.written).map List.flatten

/-- `Cipher.doFinal` on a block. -/
def rsaDoFinal (n exponent : Nat) (block : List Byte) : Option (List Byte) :=
  if os2ip block < n then some (i2osp (os2ip block ^ exponent % n) (modulusLen n)) else none

/-- The cipher on the padded stream, none where something throws; its block size is the length
of the modulus. -/
def cipherOfStream (n exponent : Nat) (stream : List Byte) : Option (List Byte) :=
  (wrapWhole stream (modulusLen n)).toOption.bind (rsaDoFinal n exponent)

/-- The loop over two arrays of one length. -/
def equalBytes : List Byte → List Byte → Bool
  | b :: bs, c :: cs => if b ≠ c then false else equalBytes bs cs
  | _, _ => true

/-- `catch(Exception e)`. -/
def orSignatureException {α : Type} : Option α → Except SpiException α
  | some result => .ok result
  | none => .error (.signature none)

namespace NoneWithRsaSignatureSpi

variable (spi : NoneWithRsaSignatureSpi)

def engineUpdate (call : UpdateCall) : Except SpiException NoneWithRsaSignatureSpi :=
  match spi.mOutputStream, call.written with
  | some stream, some bytes => .ok { spi with mOutputStream := some (stream ++ bytes) }
  | _, _ => .error (.signature none)

def engineSign : Except SpiException (List Byte) :=
  if spi.mMode ≠ .sign then .error (.signature (some "Invalid mode"))
  else
    match spi.mPrivateKey, spi.mOutputStream with
    | some (n, d), some stream => orSignatureException (cipherOfStream n d stream)
    | _, _ => .error (.signature none)

def engineVerify (sigBytes : List Byte) : Except SpiException Bool :=
  if spi.mMode ≠ .verify then .error (.signature (some "Invalid mode"))
  else
    match spi.mPublicKey, spi.mOutputStream with
    -- `doFinal` with the public exponent over the padded stream, not over `sigBytes`
    | some (n, e), some stream =>
      orSignatureException ((cipherOfStream n e stream).map fun sigCalcBytes =>
        if sigBytes.length = sigCalcBytes.length then equalBytes sigBytes sigCalcBytes else false)
    | _, _ => .error (.signature none)

/-- `initSign`, any calls of `update`, and `sign`. -/
def signing (privateKey : Key) (calls : List UpdateCall) : Except SpiException (List Byte) := do
  let spi ← spi.engineInitSign privateKey
  let spi ← calls.foldlM engineUpdate spi
  spi.engineSign

/-- `initVerify`, any calls of `update`, and `verify`. -/
def verifying (publicKey : Key) (calls : List UpdateCall) (sigBytes : List Byte) :
    Except SpiException Bool := do
  let spi ← spi.engineInitVerify publicKey
  let spi ← calls.foldlM engineUpdate spi
  spi.engineVerify sigBytes

end NoneWithRsaSignatureSpi

/-! ## The stream -/

theorem writtenBy_nil : writtenBy [] = some [] := rfl

theorem writtenBy_cons (call : UpdateCall) (calls : List UpdateCall) :
    writtenBy (call :: calls) =
      call.written.bind fun bytes => (writtenBy calls).map (bytes ++ ·) := by
  unfold writtenBy
  rw [List.mapM_cons]
  cases call.written with
  | none => rfl
  | some bytes => cases calls.mapM UpdateCall.written <;> rfl

/-- The calls append what they write, or one of them throws. -/
theorem foldlM_engineUpdate (calls : List UpdateCall) {spi : NoneWithRsaSignatureSpi}
    {stream : List Byte} (h : spi.mOutputStream = some stream) :
    calls.foldlM NoneWithRsaSignatureSpi.engineUpdate spi =
      match writtenBy calls with
      | some bytes => .ok { spi with mOutputStream := some (stream ++ bytes) }
      | none => .error (.signature none) := by
  induction calls generalizing spi stream with
  | nil =>
    have hsame : { spi with mOutputStream := some (stream ++ []) } = spi := by
      rw [List.append_nil, ← h]
    exact (congrArg Except.ok hsame).symm
  | cons call calls ih =>
    rw [List.foldlM_cons, writtenBy_cons]
    unfold NoneWithRsaSignatureSpi.engineUpdate
    rw [h]
    cases call.written with
    | none => rfl
    | some bytes =>
      refine (ih rfl).trans ?_
      cases writtenBy calls with
      | none => rfl
      | some rest =>
        dsimp only [Option.bind_some, Option.map_some]
        rw [List.append_assoc]

/-! ## Signing and verifying -/

theorem equalBytes_eq {bs cs : List Byte} (h : bs.length = cs.length) :
    equalBytes bs cs = decide (bs = cs) := by
  induction bs generalizing cs with
  | nil =>
    cases cs with
    | nil => rfl
    | cons => cases h
  | cons b bs ih =>
    cases cs with
    | nil => cases h
    | cons c cs =>
      rw [equalBytes]
      by_cases hbc : b = c
      · rw [if_neg (not_not.mpr hbc), ih (Nat.succ.inj h)]
        simp [hbc]
      · rw [if_pos hbc]
        simp [hbc]

/-- A key pair whose modulus has a length that is an `int`. -/
structure RsaKeyPair extends KeyPair where
  lengthInt : modulusLen n < 2147483648

/-- The number that is signed for a message. -/
def RsaKeyPair.padded (key : RsaKeyPair) (message : List Byte) : Nat :=
  os2ip (type1Block message (modulusLen key.n))

section signing

variable {key : RsaKeyPair} {message : List Byte}

/-- The cipher works on the padded message, where it returns. -/
theorem cipherOfStream_eq_some {exponent : Nat} {result : List Byte}
    (h : cipherOfStream key.n exponent message = some result) :
    wrapWhole message (modulusLen key.n) = .ok (type1Block message (modulusLen key.n)) ∧
      key.padded message < key.n ∧
      result = i2osp (key.padded message ^ exponent % key.n) (modulusLen key.n) := by
  unfold cipherOfStream at h
  cases hwrap : wrapWhole message (modulusLen key.n) with
  | error e =>
    rw [hwrap] at h
    cases h
  | ok block =>
    obtain ⟨-, rfl⟩ := (wrapWhole_eq_ok_iff key.lengthInt).mp hwrap
    rw [hwrap] at h
    obtain ⟨hlt, hresult⟩ := Option.ite_none_right_eq_some.mp h
    exact ⟨rfl, hlt, (Option.some.inj hresult).symm⟩

/-- So it returns for the other exponent as well. -/
theorem cipherOfStream_of_wrap
    (hwrap : wrapWhole message (modulusLen key.n) = .ok (type1Block message (modulusLen key.n)))
    (hlt : key.padded message < key.n) (exponent : Nat) :
    cipherOfStream key.n exponent message =
      some (i2osp (key.padded message ^ exponent % key.n) (modulusLen key.n)) := by
  unfold cipherOfStream
  rw [hwrap]
  exact if_pos hlt

theorem ok_bind {ε α β : Type} (a : α) (f : α → Except ε β) : (Except.ok a >>= f) = f a := rfl

/-- What is signed is what the calls wrote. -/
theorem signing_eq {calls : List UpdateCall} (h : writtenBy calls = some message)
    (spi : NoneWithRsaSignatureSpi) (n d : Nat) :
    spi.signing (.rsa n d) calls = orSignatureException (cipherOfStream n d message) := by
  have hstream : ({ spi.reset with mMode := .sign, mPrivateKey := some (n, d) } :
      NoneWithRsaSignatureSpi).mOutputStream = some [] := rfl
  have hfold := foldlM_engineUpdate calls hstream
  rw [h] at hfold
  dsimp only [List.nil_append] at hfold
  unfold NoneWithRsaSignatureSpi.signing NoneWithRsaSignatureSpi.engineInitSign
  rw [ok_bind, hfold, ok_bind]
  unfold NoneWithRsaSignatureSpi.engineSign
  dsimp only
  rw [if_neg (by decide)]

/-- What is verified is what the calls wrote. -/
theorem verifying_eq {calls : List UpdateCall} (h : writtenBy calls = some message)
    (spi : NoneWithRsaSignatureSpi) (n e : Nat) (sigBytes : List Byte) :
    spi.verifying (.rsa n e) calls sigBytes =
      orSignatureException ((cipherOfStream n e message).map fun sigCalcBytes =>
        if sigBytes.length = sigCalcBytes.length then equalBytes sigBytes sigCalcBytes
        else false) := by
  have hstream : ({ spi.reset with mMode := .verify, mPublicKey := some (n, e) } :
      NoneWithRsaSignatureSpi).mOutputStream = some [] := rfl
  have hfold := foldlM_engineUpdate calls hstream
  rw [h] at hfold
  dsimp only [List.nil_append] at hfold
  unfold NoneWithRsaSignatureSpi.verifying NoneWithRsaSignatureSpi.engineInitVerify
  rw [ok_bind, hfold, ok_bind]
  unfold NoneWithRsaSignatureSpi.engineVerify
  dsimp only
  rw [if_neg (by decide)]

end signing

/-- `engineVerify` returns for a signature that `engineSign` has made over the same bytes. It
accepts it exactly if the public exponent undoes itself at the padded message. -/
theorem engineVerify_engineSign_iff (key : RsaKeyPair) (signer verifier : NoneWithRsaSignatureSpi)
    (signed verified : List UpdateCall) (message sig : List Byte)
    (hsigned : writtenBy signed = some message) (hverified : writtenBy verified = some message)
    (hsig : signer.signing (.rsa key.n key.d) signed = .ok sig) :
    ∃ accepted, verifier.verifying (.rsa key.n key.e) verified sig = .ok accepted ∧
      (accepted = true ↔ key.SelfInverseAt (key.padded message)) := by
  rw [signing_eq hsigned] at hsig
  cases hresult : cipherOfStream key.n key.d message with
  | none =>
    rw [hresult] at hsig
    cases hsig
  | some result =>
    rw [hresult] at hsig
    obtain rfl : result = sig := Except.ok.inj hsig
    obtain ⟨hwrap, hlt, rfl⟩ := cipherOfStream_eq_some hresult
    -- both results fit into the length of the modulus, so their octets can be compared as numbers
    have hmod : ∀ y, y % key.n < 256 ^ modulusLen key.n :=
      fun y => (Nat.mod_lt y (Nat.zero_lt_of_lt hlt)).trans (lt_pow_modulusLen key.n)
    rw [verifying_eq hverified, cipherOfStream_of_wrap hwrap hlt, Option.map_some, length_i2osp,
      length_i2osp, if_pos rfl]
    refine ⟨_, rfl, ?_⟩
    rw [equalBytes_eq (by rw [length_i2osp, length_i2osp]), decide_eq_true_iff,
      i2osp_inj (hmod _) (hmod _), ← key.pow_e_modEq_pow_d_iff_order]
    exact eq_comm

/-! ## A key pair of three octets -/

theorem modulusLen_small : modulusLen 81317 = 3 := by
  unfold modulusLen
  rw [(Nat.log_eq_iff (Or.inl (by decide))).mpr (by decide : 256 ^ 2 ≤ 81317 ∧ 81317 < 256 ^ 3)]

/-- 233 · 349, with the exponents 17 and 41. -/
def smallKey : RsaKeyPair where
  n := 81317
  e := 17
  d := 41
  squarefree := by
    have h233 : Nat.Prime 233 := by norm_num
    have h349 : Nat.Prime 349 := by norm_num
    have hn : 81317 = 233 * 349 := rfl
    rw [hn, Nat.squarefree_mul_iff]
    exact ⟨by decide, h233.prime.squarefree, h349.prime.squarefree⟩
  e_pos := by decide
  d_pos := by decide
  inverse p hp hdvd := by
    have h233 : Nat.Prime 233 := by norm_num
    have h349 : Nat.Prime 349 := by norm_num
    have hn : 81317 = 233 * 349 := rfl
    rw [hn, hp.dvd_mul, Nat.prime_dvd_prime_iff_eq hp h233, Nat.prime_dvd_prime_iff_eq hp h349] at hdvd
    rcases hdvd with rfl | rfl <;> decide
  lengthInt := by
    rw [modulusLen_small]
    decide

/-- The empty message is padded to 00 01 00. -/
theorem smallKey_cipher (exponent : Nat) : cipherOfStream smallKey.n exponent [] =
    some (i2osp (256 ^ exponent % 81317) 3) := by
  have hlen : modulusLen smallKey.n = 3 := modulusLen_small
  have hwrap : wrapWhole [] (modulusLen smallKey.n) =
      .ok (type1Block [] (modulusLen smallKey.n)) :=
    (wrapWhole_eq_ok_iff smallKey.lengthInt).mpr ⟨by rw [hlen]; decide, rfl⟩
  have hpadded : smallKey.padded [] = 256 := by
    unfold RsaKeyPair.padded
    rw [hlen]
    rfl
  have hlt : smallKey.padded [] < smallKey.n := by
    rw [hpadded]
    decide
  rw [cipherOfStream_of_wrap hwrap hlt, hpadded, hlen]
  rfl

theorem smallKey_signing : NoneWithRsaSignatureSpi.new.signing (.rsa smallKey.n smallKey.d) [] =
    .ok [0x00, 0xfa, 0x79] := by
  rw [signing_eq writtenBy_nil, smallKey_cipher]
  rfl

theorem engineVerify_engineSign_example :
    ∃ accepted, NoneWithRsaSignatureSpi.new.verifying (.rsa smallKey.n smallKey.e) []
        [0x00, 0xfa, 0x79] = .ok accepted ∧
      (accepted = true ↔ smallKey.SelfInverseAt (smallKey.padded [])) :=
  engineVerify_engineSign_iff smallKey .new .new [] [] [] _ rfl rfl smallKey_signing

/-- The signature of the empty message is not accepted for it. -/
theorem engineVerify_counterexample : ∃ sig,
    NoneWithRsaSignatureSpi.new.signing (.rsa smallKey.n smallKey.d) [] = .ok sig ∧
      NoneWithRsaSignatureSpi.new.verifying (.rsa smallKey.n smallKey.e) [] sig = .ok false := by
  refine ⟨_, smallKey_signing, ?_⟩
  rw [verifying_eq writtenBy_nil, smallKey_cipher]
  rfl

end ConfProfile.Jcajce
