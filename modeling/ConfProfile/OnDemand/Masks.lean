import ConfProfile.OnDemand.Network

/-!
# Matching two masks (`NetworkConfig`)

`match` of a `DomainName` takes either side as the mask, and decides from the last
occurrence of one text in the other. `DomainAddress` does the same from the first
one. `match_masks` says what comes out for any two of them, and for `null`.
-/

namespace ConfProfile

section MaskMatch

variable {M : Type} (isStrict : M → Bool) (text : M → String)
  (within : List Char → List Char → Prop) (isMatch : M → Option M → Bool)

/-- What is asked of a `match`: `within t s` is what the text `t` of a wildcard has to be in the
text `s` of a strict value. -/
structure MaskMatch (a b : M) : Prop where
  symm : isMatch a (some b) = isMatch b (some a)
  strict : isStrict a = true → isStrict b = true → (isMatch a (some b) = true ↔ a = b)
  wildcard : isStrict a = true → isStrict b = false →
    (isMatch a (some b) = true ↔ within (text b).toList (text a).toList)
  wildcards : isStrict a = false → isStrict b = false → isMatch a (some b) = false
  null : isMatch a none = false

variable {isStrict text within isMatch}

/-- A `match` that hands over to a test of a strict value against a mask. -/
theorem MaskMatch.of_test {test : M → M → Bool}
    (hext : ∀ a b, isStrict a = true → isStrict b = true → text a = text b → a = b)
    (htest : ∀ a b, test a b = true ↔
      if isStrict b = true then text a = text b else within (text b).toList (text a).toList)
    (hmatch : ∀ a b, isMatch a (some b) =
      if !isStrict a && !isStrict b then false else if !isStrict a then test b a else test a b)
    (hnull : ∀ a, isMatch a none = false) (a b : M) :
    MaskMatch isStrict text within isMatch a b := by
  have hstrict : isStrict a = true → isStrict b = true → (test a b = true ↔ text a = text b) :=
    fun _ hb => by rw [htest, if_pos hb]
  have hsymm : isStrict a = true → isStrict b = true → test a b = test b a := by
    intro ha hb
    rw [Bool.eq_iff_iff, htest, htest, if_pos ha, if_pos hb]
    exact eq_comm
  refine ⟨?_, fun ha hb => ?_, fun ha hb => ?_, fun ha hb => ?_, hnull a⟩
  · rw [hmatch, hmatch]
    cases ha : isStrict a with
    | false => cases hb : isStrict b <;> rfl
    | true =>
      cases hb : isStrict b with
      | false => rfl
      | true => exact hsymm ha hb
  · rw [hmatch, ha, hb]
    constructor
    · intro h
      exact hext a b ha hb ((hstrict ha hb).mp h)
    · intro h
      exact (hstrict ha hb).mpr (congrArg text h)
  · have hiff := htest a b
    rw [if_neg (Bool.eq_false_iff.mp hb)] at hiff
    rw [hmatch, ha, hb]
    exact hiff
  · rw [hmatch, ha, hb]
    rfl

end MaskMatch

/-- `DomainName.match` of an argument that may be `null`. -/
def DomainName.matchNullable (this : DomainName) (name : Option DomainName) : Bool :=
  match name with
  | none => false
  | some name => this.isMatch name

/-- `DomainAddress.match` of an argument that may be `null`. -/
def DomainAddress.matchNullable (this : DomainAddress) (addr : Option DomainAddress) : Bool :=
  match addr with
  | none => false
  | some addr => this.isMatch addr

theorem DomainName.maskMatch (a b : DomainName) :
    MaskMatch isStrict name (· <:+ ·) matchNullable a b := by
  refine @MaskMatch.of_test _ _ _ _ _ isMatchStrict ?_ (fun a b => ?_) (fun a b => rfl)
    (fun _ => rfl) a b
  · intro a b ha hb hname
    cases a
    cases b
    simp_all [isStrict]
  · rw [isMatchStrict_iff, Accepts, isStrict]
    cases b.hasPrefix <;> rfl

theorem DomainAddress.maskMatch (a b : DomainAddress) :
    MaskMatch isStrict addr (· <+: ·) matchNullable a b := by
  refine @MaskMatch.of_test _ _ _ _ _ isMatchStrict ?_ (fun a b => ?_) (fun a b => rfl)
    (fun _ => rfl) a b
  · intro a b ha hb haddr
    cases a
    cases b
    simp_all [isStrict]
  · rw [isMatchStrict_iff, Accepts, isStrict]
    cases b.hasSuffix <;> rfl

/-- For all two strings, `null` included, the names made of them are matched as asked with
suffixes, the addresses made of them with prefixes. -/
theorem match_masks (s t : Option String) :
    MaskMatch DomainName.isStrict DomainName.name (· <:+ ·) DomainName.matchNullable
        (DomainName.ofString s) (DomainName.ofString t) ∧
      MaskMatch DomainAddress.isStrict DomainAddress.addr (· <+: ·) DomainAddress.matchNullable
        (DomainAddress.ofString s) (DomainAddress.ofString t) :=
  ⟨DomainName.maskMatch _ _, DomainAddress.maskMatch _ _⟩

end ConfProfile
