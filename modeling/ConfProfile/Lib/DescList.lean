import Mathlib.Data.List.Sort

/-!
# Lists strictly descending by a key

The finite-map reading of a list whose elements carry a key and stand in
strictly descending key order: at most one element per key, found by scanning
from the front (`lookup`), inserted or overwritten in place (`upsert`).

* `desc_upsert`, `lookup_upsert` — `upsert` keeps the order and is the update
  of one key;
* `Desc.filter`, `lookup_filter` — filtering keeps the order and is the removal
  of the bindings it rejects;
* `desc_ext` — two descending lists with the same elements are the same list;
* `find?_eq_greatest` — the first element a predicate accepts is the accepted
  element of greatest key, and `mem_eraseP` erases just that one.
-/

namespace DescList

variable {α κ : Type*} [LinearOrder κ] (key : α → κ)

/-- Strictly descending by key. -/
def Desc (l : List α) : Prop := l.Pairwise fun a b => key b < key a

/-- The element at key `k`, scanning from the front. -/
def lookup (k : κ) (l : List α) : Option α := l.find? fun x => decide (key x = k)

/-- Insert `x` before the first element of smaller key, or overwrite the element
of equal key. -/
def upsert (x : α) : List α → List α
  | [] => [x]
  | y :: ys =>
    if key y < key x then x :: y :: ys
    else if key y = key x then x :: ys
    else y :: upsert x ys

variable {key}

@[simp] theorem desc_nil : Desc key ([] : List α) := List.Pairwise.nil

theorem desc_cons {x : α} {l : List α} :
    Desc key (x :: l) ↔ (∀ y ∈ l, key y < key x) ∧ Desc key l := List.pairwise_cons

theorem Desc.filter {l : List α} (h : Desc key l) (p : α → Bool) : Desc key (l.filter p) :=
  List.Pairwise.sublist List.filter_sublist h

theorem Desc.sublist {l₁ l₂ : List α} (h : Desc key l₂) (hs : l₁.Sublist l₂) : Desc key l₁ :=
  List.Pairwise.sublist hs h

/-- In a descending list a key determines its element. -/
theorem Desc.eq_of_key_eq {l : List α} (h : Desc key l) {x y : α} (hx : x ∈ l) (hy : y ∈ l)
    (hk : key x = key y) : x = y := by
  induction l with
  | nil => cases hx
  | cons a l ih =>
    obtain ⟨ha, hl⟩ := desc_cons.mp h
    rcases List.mem_cons.mp hx with rfl | hx' <;> rcases List.mem_cons.mp hy with rfl | hy'
    · rfl
    · exact absurd hk (ha y hy').ne'
    · exact absurd hk (ha x hx').ne
    · exact ih hl hx' hy'

/-- Descending lists with the same elements are equal. -/
theorem desc_ext {l₁ l₂ : List α} (h₁ : Desc key l₁) (h₂ : Desc key l₂)
    (h : ∀ x, x ∈ l₁ ↔ x ∈ l₂) : l₁ = l₂ := by
  have nodup : ∀ {l : List α}, Desc key l → l.Nodup := fun hl =>
    List.Pairwise.imp (fun hab he => absurd (he ▸ hab) (lt_irrefl _)) hl
  have hperm : l₁.Perm l₂ := (List.perm_ext_iff_of_nodup (nodup h₁) (nodup h₂)).mpr h
  exact List.Perm.eq_of_pairwise (fun a b _ _ hab hba => absurd hab hba.not_gt) h₁ h₂ hperm

/-! ## Lookup -/

theorem lookup_eq_some {l : List α} (h : Desc key l) {k : κ} {x : α} :
    lookup key k l = some x ↔ x ∈ l ∧ key x = k := by
  refine ⟨?_, ?_⟩
  · intro hx
    exact ⟨List.mem_of_find?_eq_some hx, by simpa using List.find?_some hx⟩
  · intro hx
    obtain ⟨hx, hk⟩ := hx
    cases hf : lookup key k l with
    | none =>
      have hnone := List.find?_eq_none.mp hf x hx
      exact absurd hk (by simpa using hnone)
    | some y =>
      have hy : key y = k := by simpa using List.find?_some hf
      rw [h.eq_of_key_eq (List.mem_of_find?_eq_some hf) hx (hy.trans hk.symm)]

theorem lookup_filter {l : List α} (h : Desc key l) (p : α → Bool) (k : κ) :
    lookup key k (l.filter p) = (lookup key k l).filter p := by
  ext x
  rw [lookup_eq_some (h.filter p), Option.filter_eq_some_iff, lookup_eq_some h, List.mem_filter]
  tauto

/-- The first accepted element is the accepted element of greatest key. -/
theorem find?_eq_greatest {l : List α} (h : Desc key l) {p : α → Bool} {x : α} :
    l.find? p = some x ↔ x ∈ l ∧ p x = true ∧ ∀ y ∈ l, p y = true → key y ≤ key x := by
  induction l with
  | nil => simp
  | cons a l ih =>
    obtain ⟨ha, hl⟩ := desc_cons.mp h
    cases hp : p a with
    | true =>
      rw [List.find?_cons_of_pos hp]
      refine ⟨?_, ?_⟩
      · intro he
        obtain rfl : a = x := Option.some.inj he
        refine ⟨List.mem_cons_self .., hp, fun y hy _ => ?_⟩
        rcases List.mem_cons.mp hy with rfl | hy'
        · exact le_refl _
        · exact (ha y hy').le
      · intro hx
        obtain ⟨hx, -, hmax⟩ := hx
        rcases List.mem_cons.mp hx with rfl | hx'
        · rfl
        · exact absurd (hmax a (List.mem_cons_self ..) hp) (ha x hx').not_ge
    | false =>
      rw [List.find?_cons_of_neg (by simp [hp]), ih hl]
      refine ⟨?_, ?_⟩
      · intro hx
        obtain ⟨hx, hpx, hmax⟩ := hx
        refine ⟨List.mem_cons_of_mem _ hx, hpx, fun y hy hpy => ?_⟩
        rcases List.mem_cons.mp hy with rfl | hy'
        · rw [hp] at hpy; cases hpy
        · exact hmax y hy' hpy
      · intro hx
        obtain ⟨hx, hpx, hmax⟩ := hx
        rcases List.mem_cons.mp hx with rfl | hx'
        · rw [hp] at hpx; cases hpx
        · exact ⟨hx', hpx, fun y hy => hmax y (List.mem_cons_of_mem _ hy)⟩

/-- In a descending list, erasing the first accepted element erases that
element and nothing equal to it. -/
theorem mem_eraseP {l : List α} (h : Desc key l) {p : α → Bool} {x : α} :
    x ∈ l.eraseP p ↔ x ∈ l ∧ l.find? p ≠ some x := by
  induction l with
  | nil => simp
  | cons a l ih =>
    obtain ⟨ha, hl⟩ := desc_cons.mp h
    have hnotin : a ∉ l := fun hmem => lt_irrefl _ (ha a hmem)
    cases hp : p a with
    | true =>
      rw [List.eraseP_cons_of_pos hp, List.find?_cons_of_pos hp, List.mem_cons]
      refine ⟨?_, ?_⟩
      · intro hx
        exact ⟨Or.inr hx, fun he => hnotin (Option.some.inj he ▸ hx)⟩
      · intro hcase
        rcases hcase with ⟨rfl | hx, hne⟩
        · exact absurd rfl hne
        · exact hx
    | false =>
      have hneg : ¬ p a = true := by simp [hp]
      rw [List.eraseP_cons_of_neg hneg, List.find?_cons_of_neg hneg, List.mem_cons, ih hl,
        List.mem_cons]
      refine ⟨?_, ?_⟩
      · intro hcase
        rcases hcase with rfl | ⟨hx, hne⟩
        · exact ⟨Or.inl rfl, fun he => hnotin (List.mem_of_find?_eq_some he)⟩
        · exact ⟨Or.inr hx, hne⟩
      · intro hcase
        rcases hcase with ⟨rfl | hx, hne⟩
        · exact Or.inl rfl
        · exact Or.inr ⟨hx, hne⟩

/-! ## Insert or overwrite -/

theorem mem_upsert {x z : α} {l : List α} (h : Desc key l) :
    z ∈ upsert key x l ↔ z = x ∨ (z ∈ l ∧ key z ≠ key x) := by
  induction l with
  | nil => simp [upsert]
  | cons y ys ih =>
    obtain ⟨hy, hys⟩ := desc_cons.mp h
    unfold upsert
    split
    · next hlt =>
      -- everything from `y` on is below the new key
      have hbelow : ∀ w ∈ y :: ys, key w ≠ key x := by
        intro w hw
        rcases List.mem_cons.mp hw with rfl | hw'
        · exact hlt.ne
        · exact ((hy w hw').trans hlt).ne
      rw [List.mem_cons]
      exact or_congr Iff.rfl ⟨fun hz => ⟨hz, hbelow z hz⟩, And.left⟩
    · next hge =>
      split
      · next heq =>
        rw [List.mem_cons]
        refine or_congr Iff.rfl ⟨fun hz => ⟨List.mem_cons_of_mem _ hz, ?_⟩, ?_⟩
        · exact heq ▸ (hy z hz).ne
        · intro hx
          obtain ⟨hz, hne⟩ := hx
          rcases List.mem_cons.mp hz with rfl | hz'
          · exact absurd heq hne
          · exact hz'
      · next hne =>
        rw [List.mem_cons, ih hys, List.mem_cons]
        refine ⟨?_, ?_⟩
        · intro hcase
          rcases hcase with rfl | rfl | ⟨hz, hzne⟩
          · exact Or.inr ⟨Or.inl rfl, hne⟩
          · exact Or.inl rfl
          · exact Or.inr ⟨Or.inr hz, hzne⟩
        · intro hcase
          rcases hcase with rfl | ⟨rfl | hz, hzne⟩
          · exact Or.inr (Or.inl rfl)
          · exact Or.inl rfl
          · exact Or.inr (Or.inr ⟨hz, hzne⟩)

theorem desc_upsert {x : α} {l : List α} (h : Desc key l) : Desc key (upsert key x l) := by
  induction l with
  | nil => exact desc_cons.mpr ⟨fun _ hz => absurd hz (by simp), desc_nil⟩
  | cons y ys ih =>
    obtain ⟨hy, hys⟩ := desc_cons.mp h
    unfold upsert
    split
    · next hlt =>
      refine desc_cons.mpr ⟨fun z hz => ?_, h⟩
      rcases List.mem_cons.mp hz with rfl | hz'
      · exact hlt
      · exact (hy z hz').trans hlt
    · next hge =>
      split
      · next heq => exact desc_cons.mpr ⟨fun z hz => heq ▸ hy z hz, hys⟩
      · next hne =>
        refine desc_cons.mpr ⟨fun z hz => ?_, ih hys⟩
        rcases (mem_upsert hys).mp hz with rfl | ⟨hz', -⟩
        · exact lt_of_le_of_ne (not_lt.mp hge) (Ne.symm hne)
        · exact hy z hz'

/-- `upsert` is the update of one key. -/
theorem lookup_upsert {x : α} {l : List α} (h : Desc key l) (k : κ) :
    lookup key k (upsert key x l) = if k = key x then some x else lookup key k l := by
  ext z
  rw [lookup_eq_some (desc_upsert h), mem_upsert h]
  split
  · next hk =>
    subst hk
    refine ⟨?_, ?_⟩
    · intro hcase
      rcases hcase with ⟨rfl | ⟨-, hne⟩, hz⟩
      · rfl
      · exact absurd hz hne
    · intro hz
      obtain rfl : x = z := Option.some.inj hz
      exact ⟨Or.inl rfl, rfl⟩
  · next hk =>
    rw [lookup_eq_some h]
    refine ⟨?_, ?_⟩
    · intro hcase
      rcases hcase with ⟨rfl | ⟨hz, -⟩, hzk⟩
      · exact absurd hzk.symm hk
      · exact ⟨hz, hzk⟩
    · intro hx
      obtain ⟨hz, rfl⟩ := hx
      exact ⟨Or.inr ⟨hz, hk⟩, rfl⟩

/-- Elements of greater key are passed over. -/
theorem upsert_append {x : α} {pre : List α} (h : ∀ y ∈ pre, key x < key y) (l : List α) :
    upsert key x (pre ++ l) = pre ++ upsert key x l := by
  induction pre with
  | nil => rfl
  | cons y pre ih =>
    have hy : key x < key y := h y (List.mem_cons_self ..)
    rw [List.cons_append, upsert, if_neg hy.not_gt, if_neg hy.ne',
      ih fun z hz => h z (List.mem_cons_of_mem _ hz)]
    rfl

end DescList
