import ConfProfile.Jcajce.NoneWithRsa
import ConfProfile.Jcajce.WrapRange
import ConfProfile.Lib.Run

/-!
# Signing one message after the other

Any calls of `engineUpdate` and `engineSign` behind one `engineInitSign`. A signature is to be
that of the bytes since the last one. `engineSign` leaves the stream as it is, so it signs what
was signed before as well; and different streams have different signatures
(`cipherOfStream_inj`). So a signature is right exactly if all messages before it were empty, or
if its own is too long to be signed (`signing_along_iff`).
-/

namespace ConfProfile.Jcajce

open Rsa Run

inductive SignerCall
  | update (call : UpdateCall)
  | sign
  deriving DecidableEq, Repr

/-- A signature object behind `engineInitSign`, the bytes that were passed in front of each
`engineSign` and since the last one, and what `engineSign` came back with. -/
structure Signer where
  spi : NoneWithRsaSignatureSpi
  messages : List (List Byte)
  own : List Byte
  results : List (Except SpiException (List Byte))

/-- A call. What throws in `engineUpdate` passes no bytes. -/
def signerStep (s : Signer) : SignerCall → Option Signer
  | .update call =>
    match s.spi.engineUpdate call with
    | .ok spi => some { s with spi, own := s.own ++ call.written.getD [] }
    | .error _ => some s
  | .sign => some { s with
      messages := s.messages ++ [s.own]
      own := []
      results := s.results ++ [s.spi.engineSign] }

/-- What signing a message with a new object comes back with. -/
def signatureOf (privateKey : Key) (message : List Byte) : Except SpiException (List Byte) :=
  NoneWithRsaSignatureSpi.new.signing privateKey [.range message 0 message.length]

/-- Each signature is that of its own message. -/
def Signer.Independent (privateKey : Key) (s : Signer) : Prop :=
  s.results = s.messages.map (signatureOf privateKey)

/-- A message can be signed. -/
def RsaKeyPair.Signs (key : RsaKeyPair) (message : List Byte) : Prop :=
  message.length + 3 ≤ modulusLen key.n

/-! ## Different streams have different signatures -/

section cipher

variable {key : RsaKeyPair} {message message' : List Byte}

/-- A padded message begins with a zero, so it is less than the modulus. -/
theorem RsaKeyPair.Signs.padded_lt (h : key.Signs message) : key.padded message < key.n := by
  unfold RsaKeyPair.Signs at h
  have hlen := length_type1Block h
  unfold RsaKeyPair.padded
  have hblock : type1Block message (modulusLen key.n) =
      0 :: (type1Block message (modulusLen key.n)).tail := rfl
  rw [hblock, os2ip_zero_cons]
  refine (os2ip_lt _).trans_le ?_
  rw [List.length_tail, hlen]
  exact pow_modulusLen_le key.squarefree.ne_zero

/-- The cipher returns exactly for the messages that can be signed. -/
theorem cipherOfStream_eq (exponent : Nat) (h : key.Signs message) :
    cipherOfStream key.n exponent message =
      some (i2osp (key.padded message ^ exponent % key.n) (modulusLen key.n)) :=
  cipherOfStream_of_wrap ((wrapWhole_eq_ok_iff key.lengthInt).mpr ⟨h, rfl⟩) h.padded_lt exponent

theorem cipherOfStream_eq_none (exponent : Nat) (h : ¬ key.Signs message) :
    cipherOfStream key.n exponent message = none := by
  cases hresult : cipherOfStream key.n exponent message with
  | none => rfl
  | some result =>
    have hwrap := (cipherOfStream_eq_some hresult).1
    exact absurd ((wrapWhole_eq_ok_iff key.lengthInt).mp hwrap).1 h

theorem cipherOfStream_inj (h : key.Signs message) :
    cipherOfStream key.n key.d message' = cipherOfStream key.n key.d message ↔
      message' = message := by
  refine ⟨fun heq => ?_, fun heq => heq ▸ rfl⟩
  by_cases h' : key.Signs message'
  · rw [cipherOfStream_eq _ h', cipherOfStream_eq _ h, Option.some.injEq] at heq
    have hmod : ∀ y, y % key.n < 256 ^ modulusLen key.n := fun y =>
      (Nat.mod_lt y (Nat.zero_lt_of_lt h.padded_lt)).trans (lt_pow_modulusLen key.n)
    have hpadded := key.pow_d_inj h'.padded_lt h.padded_lt ((i2osp_inj (hmod _) (hmod _)).mp heq)
    have hlen := (length_type1Block h').trans (length_type1Block h).symm
    exact type1Block_inj (os2ip_inj hlen hpadded)
  · rw [cipherOfStream_eq_none _ h', cipherOfStream_eq _ h] at heq
    cases heq

end cipher

/-! ## Runs -/

/-- What every call keeps: the stream has everything since `engineInitSign`. -/
structure Signer.Inv (n d : Nat) (s : Signer) : Prop where
  mode : s.spi.mMode = .sign
  privateKey : s.spi.mPrivateKey = some (n, d)
  stream : s.spi.mOutputStream = some (s.messages.flatten ++ s.own)

section runs

variable {n d : Nat} {s s' : Signer}

theorem engineInitSign_inv {spi signer : NoneWithRsaSignatureSpi}
    (h : spi.engineInitSign (.rsa n d) = .ok signer) : Signer.Inv n d ⟨signer, [], [], []⟩ := by
  obtain rfl := Except.ok.inj h
  exact ⟨rfl, rfl, rfl⟩

theorem Signer.Inv.engineSign_eq (hI : s.Inv n d) :
    s.spi.engineSign = orSignatureException (cipherOfStream n d (s.messages.flatten ++ s.own)) := by
  unfold NoneWithRsaSignatureSpi.engineSign
  rw [if_neg (not_not.mpr hI.mode), hI.privateKey, hI.stream]

theorem signatureOf_eq (message : List Byte) :
    signatureOf (.rsa n d) message = orSignatureException (cipherOfStream n d message) := by
  refine signing_eq ?_ _ n d
  unfold Jcajce.writtenBy UpdateCall.written
  simp

theorem orSignatureException_inj {α : Type} {a b : Option α} :
    orSignatureException a = orSignatureException b ↔ a = b := by
  cases a <;> cases b <;> simp [orSignatureException]

theorem step_inv {call : SignerCall} (hI : s.Inv n d) (h : signerStep s call = some s') :
    s'.Inv n d := by
  cases call with
  | update call =>
    rw [signerStep] at h
    split at h
    next spi hupdate =>
      obtain rfl := Option.some.inj h
      unfold NoneWithRsaSignatureSpi.engineUpdate at hupdate
      rw [hI.stream] at hupdate
      cases hwritten : call.written with
      | none =>
        rw [hwritten] at hupdate
        cases hupdate
      | some bytes =>
        rw [hwritten] at hupdate
        obtain rfl := Except.ok.inj hupdate
        refine ⟨hI.mode, hI.privateKey, ?_⟩
        rw [Option.getD_some, ← List.append_assoc]
    next =>
      obtain rfl := Option.some.inj h
      exact hI
  | sign =>
    obtain rfl := Option.some.inj h
    refine ⟨hI.mode, hI.privateKey, hI.stream.trans ?_⟩
    rw [List.flatten_append, List.flatten_singleton, List.append_nil]

/-- A signature is right exactly if nothing was passed before, or its message cannot be signed. -/
theorem engineSign_eq_iff (key : RsaKeyPair) (hI : s.Inv key.n key.d) :
    s.spi.engineSign = signatureOf (.rsa key.n key.d) s.own ↔
      s.messages.flatten = [] ∨ ¬ key.Signs s.own := by
  rw [hI.engineSign_eq, signatureOf_eq, orSignatureException_inj]
  by_cases h : key.Signs s.own
  · rw [cipherOfStream_inj h, List.append_left_eq_self, or_iff_left (not_not.mpr h)]
  · have hlong : ¬ key.Signs (s.messages.flatten ++ s.own) := by
      unfold RsaKeyPair.Signs at h ⊢
      rw [List.length_append]
      omega
    rw [cipherOfStream_eq_none _ hlong, cipherOfStream_eq_none _ h]
    exact iff_of_true rfl (Or.inr h)

theorem independent_step_iff (key : RsaKeyPair) {call : SignerCall} (hI : s.Inv key.n key.d)
    (hs : s.Independent (.rsa key.n key.d)) (h : signerStep s call = some s') :
    s'.Independent (.rsa key.n key.d) ↔
      (call = .sign → s.messages.flatten = [] ∨ ¬ key.Signs s.own) := by
  cases call with
  | update call =>
    have hsame : s'.results = s.results ∧ s'.messages = s.messages := by
      rw [signerStep] at h
      split at h <;> obtain rfl := Option.some.inj h <;> exact ⟨rfl, rfl⟩
    refine iff_of_true ?_ (by simp)
    unfold Signer.Independent
    rw [hsame.1, hsame.2]
    exact hs
  | sign =>
    obtain rfl := Option.some.inj h
    rw [forall_prop_of_true rfl, ← engineSign_eq_iff key hI]
    unfold Signer.Independent at hs ⊢
    dsimp only
    rw [List.map_append, List.map_singleton, hs, List.append_cancel_left_eq, List.cons.injEq,
      and_iff_left rfl]

end runs

/-- **Signing one message after the other**: each signature is that of its own message exactly
if, whenever `engineSign` is called, all messages before were empty or the message is too long
to be signed. -/
theorem signing_along_iff (key : RsaKeyPair) (spi signer : NoneWithRsaSignatureSpi)
    (hinit : spi.engineInitSign (.rsa key.n key.d) = .ok signer) (calls : List SignerCall) :
    Along signerStep (fun _ _ s' => s'.Independent (.rsa key.n key.d)) ⟨signer, [], [], []⟩ calls ↔
      Along signerStep (fun s call _ => call = .sign → s.messages.flatten = [] ∨ ¬ key.Signs s.own)
        ⟨signer, [], [], []⟩ calls :=
  along_iff_cond (I := Signer.Inv key.n key.d) (P := Signer.Independent (.rsa key.n key.d))
    (fun _ _ _ => step_inv) (fun _ _ _ => id)
    (fun _ _ _ hI hs h => independent_step_iff key hI hs h) calls (engineInitSign_inv hinit) rfl

/-! ## A key pair of five octets -/

theorem modulusLen_five : modulusLen 4295229443 = 5 := by
  unfold modulusLen
  rw [(Nat.log_eq_iff (Or.inl (by decide))).mpr
    (by decide : 256 ^ 4 ≤ 4295229443 ∧ 4295229443 < 256 ^ 5)]

/-- 65537 · 65539, with the exponents 5 and 429509837. -/
def fiveOctetKey : RsaKeyPair where
  n := 4295229443
  e := 5
  d := 429509837
  squarefree := by
    have hp : Nat.Prime 65537 := by norm_num
    have hq : Nat.Prime 65539 := by norm_num
    have hn : 4295229443 = 65537 * 65539 := rfl
    rw [hn, Nat.squarefree_mul_iff]
    exact ⟨by decide, hp.prime.squarefree, hq.prime.squarefree⟩
  e_pos := by decide
  d_pos := by decide
  inverse r hr hdvd := by
    have hp : Nat.Prime 65537 := by norm_num
    have hq : Nat.Prime 65539 := by norm_num
    have hn : 4295229443 = 65537 * 65539 := rfl
    rw [hn, hr.dvd_mul, Nat.prime_dvd_prime_iff_eq hr hp, Nat.prime_dvd_prime_iff_eq hr hq] at hdvd
    rcases hdvd with rfl | rfl <;> decide
  lengthInt := by
    rw [modulusLen_five]
    decide

/-- Signing 01, and then 02 with the same object. -/
def twoMessages : List SignerCall :=
  [.update (.byte 1), .sign, .update (.byte 2), .sign]

/-- An object that is to sign with the key of five octets. -/
def fiveOctetSigner : NoneWithRsaSignatureSpi :=
  ⟨.sign, some [], none, some (fiveOctetKey.n, fiveOctetKey.d)⟩

theorem signing_along_iff_example :
    Along signerStep (fun _ _ s' => s'.Independent (.rsa fiveOctetKey.n fiveOctetKey.d))
        ⟨fiveOctetSigner, [], [], []⟩ twoMessages ↔
      Along signerStep
        (fun s call _ => call = .sign → s.messages.flatten = [] ∨ ¬ fiveOctetKey.Signs s.own)
        ⟨fiveOctetSigner, [], [], []⟩ twoMessages :=
  signing_along_iff fiveOctetKey .new fiveOctetSigner rfl twoMessages

/-- The second signature is that of 01 02. -/
theorem signing_counterexample : ∃ s sig, run signerStep ⟨fiveOctetSigner, [], [], []⟩ twoMessages =
      some s ∧ s.messages = [[1], [2]] ∧
    s.results = [signatureOf (.rsa fiveOctetKey.n fiveOctetKey.d) [1],
      signatureOf (.rsa fiveOctetKey.n fiveOctetKey.d) [1, 2]] ∧
    signatureOf (.rsa fiveOctetKey.n fiveOctetKey.d) [1, 2] = .ok sig ∧
    ¬ s.Independent (.rsa fiveOctetKey.n fiveOctetKey.d) := by
  have hsigns : fiveOctetKey.Signs [1, 2] ∧ fiveOctetKey.Signs [2] := by
    unfold RsaKeyPair.Signs
    rw [show modulusLen fiveOctetKey.n = 5 from modulusLen_five]
    exact ⟨by decide, by decide⟩
  refine ⟨⟨⟨.sign, some [1, 2], none, some (fiveOctetKey.n, fiveOctetKey.d)⟩, [[1], [2]], [],
    [orSignatureException (cipherOfStream fiveOctetKey.n fiveOctetKey.d [1]),
      orSignatureException (cipherOfStream fiveOctetKey.n fiveOctetKey.d [1, 2])]⟩,
    i2osp (fiveOctetKey.padded [1, 2] ^ fiveOctetKey.d % fiveOctetKey.n)
      (modulusLen fiveOctetKey.n), rfl, rfl, ?_, ?_, fun hsame => ?_⟩
  · rw [signatureOf_eq, signatureOf_eq]
  · rw [signatureOf_eq, cipherOfStream_eq _ hsigns.1]
    rfl
  · have hboth : orSignatureException (cipherOfStream fiveOctetKey.n fiveOctetKey.d [1, 2]) =
        signatureOf (.rsa fiveOctetKey.n fiveOctetKey.d) [2] :=
      (List.cons.inj (List.cons.inj hsame).2).1
    rw [signatureOf_eq, orSignatureException_inj, cipherOfStream_inj hsigns.2] at hboth
    cases hboth

end ConfProfile.Jcajce
