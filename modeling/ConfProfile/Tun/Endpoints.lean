import ConfProfile.Tun.Frame

/-!
# Addresses and ports of a packet

What a receiver reads in an IPv4 packet, and what a rewrite makes of it: the
patches go into the fields, one after the other, and the checksums lie elsewhere
(`endpoints_rewriteOnce`).
-/

namespace ConfProfile

open ByteMem

/-- Addresses and ports of a packet, as a receiver reads them. -/
structure Endpoints where
  saddr : BitVec 32
  daddr : BitVec 32
  source : BitVec 16
  dest : BitVec 16
  deriving DecidableEq, Repr

def Endpoints.swap (p : Endpoints) : Endpoints := ⟨p.daddr, p.saddr, p.dest, p.source⟩

def endpoints (m : Mem) : Endpoints where
  saddr := addr4 m 12
  daddr := addr4 m 16
  source := ntohs (m.word16 (segOffs m))
  dest := ntohs (m.word16 (segOffs m + 2))

/-- What a patch makes of addresses and ports. -/
def Patch.put (p : Endpoints) : Patch → Endpoints
  | .saddr ip => { p with saddr := ip }
  | .daddr ip => { p with daddr := ip }
  | .source port => { p with source := port }
  | .dest port => { p with dest := port }

/-! ## Endpoints of a translated packet -/

section endpoints

variable {m m' : Mem} {len : Nat}

theorem ntohs_word16_put16 (m : Mem) (o : Nat) (port : BitVec 16) :
    ntohs ((m.put16 o (htons port)).word16 o) = port := by
  apply BitVec.eq_of_toNat_eq
  rw [ntohs_word16, net16_put16]

theorem word16_congr {o : Nat} (h₀ : m' o = m o) (h₁ : m' (o + 1) = m (o + 1)) :
    m'.word16 o = m.word16 o := by
  unfold Mem.word16
  rw [h₀, h₁]

/-- Endpoints are read from their bytes and the place of the segment. -/
theorem endpoints_congr (hoffs : segOffs m' = segOffs m) (haddr : ∀ i, 12 ≤ i → i < 20 → m' i = m i)
    (hport : ∀ i, segOffs m ≤ i → i < segOffs m + 4 → m' i = m i) :
    endpoints m' = endpoints m := by
  unfold endpoints
  rw [hoffs, addr4_congr fun i h₀ h₁ => haddr i h₀ (by omega),
    addr4_congr fun i h₀ h₁ => haddr i (by omega) h₁,
    word16_congr (hport _ (by omega) (by omega)) (hport _ (by omega) (by omega)),
    word16_congr (hport (segOffs m + 2) (by omega) (by omega)) (hport _ (by omega) (by omega))]

theorem endpoints_apply (hoffs : 20 ≤ segOffs m) (patch : Patch) :
    endpoints (patch.apply m) = patch.put (endpoints m) := by
  have hseg := (Patch.apply_sameFields hoffs patch).segOffs_eq
  unfold endpoints
  rw [hseg]
  cases patch with
  | saddr ip =>
    have hkeep : ∀ i, 16 ≤ i → Mem.put32 m 12 (htonl ip) i = m i :=
      fun i hi => Mem.put32_of_ne _ _ _ (Or.inr (by omega))
    unfold Patch.apply Patch.put
    rw [addr4_put32, addr4_congr fun i h₀ _ => hkeep i h₀,
      word16_congr (hkeep _ (by omega)) (hkeep _ (by omega)),
      word16_congr (hkeep (segOffs m + 2) (by omega)) (hkeep _ (by omega))]
  | daddr ip =>
    have hkeep : ∀ i, i < 16 ∨ 20 ≤ i → Mem.put32 m 16 (htonl ip) i = m i :=
      fun i hi => Mem.put32_of_ne _ _ _ (by omega)
    unfold Patch.apply Patch.put
    rw [addr4_put32, addr4_congr fun i _ h₁ => hkeep i (by omega),
      word16_congr (hkeep _ (by omega)) (hkeep _ (by omega)),
      word16_congr (hkeep (segOffs m + 2) (by omega)) (hkeep _ (by omega))]
  | source port =>
    have hkeep : ∀ i, i < segOffs m ∨ segOffs m + 2 ≤ i →
        Mem.put16 m (segOffs m) (htons port) i = m i :=
      fun i hi => Mem.put16_of_ne _ _ _ (by omega) (by omega)
    unfold Patch.apply Patch.put
    rw [ntohs_word16_put16, addr4_congr fun i _ h₁ => hkeep i (by omega),
      addr4_congr fun i _ h₁ => hkeep i (by omega),
      word16_congr (hkeep (segOffs m + 2) (by omega)) (hkeep _ (by omega))]
  | dest port =>
    have hkeep : ∀ i, i < segOffs m + 2 ∨ segOffs m + 4 ≤ i →
        Mem.put16 m (segOffs m + 2) (htons port) i = m i :=
      fun i hi => Mem.put16_of_ne _ _ _ (by omega) (by omega)
    unfold Patch.apply Patch.put
    rw [ntohs_word16_put16, addr4_congr fun i _ h₁ => hkeep i (by omega),
      addr4_congr fun i _ h₁ => hkeep i (by omega),
      word16_congr (hkeep (segOffs m) (by omega)) (hkeep _ (by omega))]

theorem endpoints_patchAll (hoffs : 20 ≤ segOffs m) (patches : List Patch) :
    endpoints (patchAll m patches) = patches.foldl Patch.put (endpoints m) := by
  induction patches generalizing m with
  | nil => rfl
  | cons patch patches ih =>
    rw [List.foldl_cons, ← endpoints_apply hoffs patch]
    exact ih (hoffs.trans_eq (Patch.apply_sameFields hoffs patch).segOffs_eq.symm)

/-- The checksums lie elsewhere. -/
theorem endpoints_rewriteOnce (hoffs : 20 ≤ segOffs m) (patches : List Patch) :
    endpoints (rewriteOnce len m patches) = patches.foldl Patch.put (endpoints m) := by
  have hplace := checksumOffs_ge hoffs
  have hpatch := (patchAll_sameFields hoffs patches).segOffs_eq
  have hseg := (rewriteOnce_sameFields hoffs len patches).segOffs_eq
  have hkeep : ∀ i, 12 ≤ i → i < segOffs m + 6 →
      (i < 20 ∨ segOffs m ≤ i) → rewriteOnce len m patches i = patchAll m patches i := by
    intro i h₀ h₁ _
    exact rewriteOnce_eq_patchAll hoffs patches (by omega) (by omega) fun _ _ => by omega
  rw [← endpoints_patchAll hoffs]
  refine endpoints_congr (hseg.trans hpatch.symm) ?_ ?_
  · intro i h₀ h₁
    exact hkeep i h₀ (by omega) (Or.inl h₁)
  · intro i h₀ h₁
    rw [hpatch] at h₀ h₁
    exact hkeep i (by omega) (by omega) (Or.inr h₀)

end endpoints

end ConfProfile
