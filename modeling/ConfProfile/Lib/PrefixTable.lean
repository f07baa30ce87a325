import ConfProfile.Lib.DescList
import ConfProfile.Lib.NetPrefix
import Mathlib.Data.Finset.Max
import Mathlib.Data.Prod.Lex

/-!
# Descending tables of networks

A table holds entries with an address of `w` bits and a prefix length, strictly descending by the
two, and every entry is at a network: its address has no host bits.

* `walk` looks an address up the way a scan with an early end does: it takes the first entry that
  matches, and gives up at the first one that does not match and is below the address. The first
  match is the longest one, so the scan is right whenever it gets there; `walk_eq_some` and
  `walk_eq_none` say when it does.
* `removeAt` takes out the first entry at an address. Of the entries at one address that is the
  longest (`find?_at_eq_some`), and `removeAt_undoes_iff` says when it is the one meant.
-/

namespace PrefixTable

open DescList (Desc upsert)
open NetPrefix (netOf SharesPrefix)

variable {α : Type*} {w : ℕ} (addr : α → BitVec w) (len : α → ℕ)

/-- The order of a table: by address, then by prefix length. -/
def key (r : α) : ℕ ×ₗ ℕ := toLex ((addr r).toNat, len r)

/-- Strictly descending, and every entry at a network. -/
structure Table (l : List α) : Prop where
  desc : Desc (key addr len) l
  net : ∀ r ∈ l, len r ≤ w ∧ netOf (len r) (addr r) = addr r

/-- The scan for an address. -/
def walk (a : BitVec w) : List α → Option α
  | [] => none
  | r :: l =>
    if SharesPrefix (len r) (addr r) a then some r
    else if addr r < a then none
    else walk a l

/-- `m` is the entry of longest prefix for an address. -/
structure Longest (l : List α) (a : BitVec w) (m : α) : Prop where
  mem : m ∈ l
  shares : SharesPrefix (len m) (addr m) a
  longest : ∀ r ∈ l, SharesPrefix (len r) (addr r) a → len r ≤ len m

/-- `r` does not match and lies between the network of `m` and the address: it stands in front of
`m` and ends the scan. -/
def Hides (r m : α) (a : BitVec w) : Prop :=
  ¬ SharesPrefix (len r) (addr r) a ∧ addr m ≤ addr r ∧ addr r < a

/-- The entries without the first one at an address. -/
def removeAt (a : BitVec w) (l : List α) : List α := l.eraseP fun r => decide (addr r = a)

variable {addr len} {l : List α} {a : BitVec w} {m r : α}

theorem key_lt_key {r r' : α} : key addr len r < key addr len r' ↔
    addr r < addr r' ∨ (addr r = addr r' ∧ len r < len r') := by
  rw [key, key, Prod.Lex.toLex_lt_toLex, BitVec.toNat_inj, BitVec.lt_def]

theorem key_eq_key {r r' : α} :
    key addr len r = key addr len r' ↔ addr r = addr r' ∧ len r = len r' := by
  rw [key, key, toLex_inj, Prod.mk.injEq, BitVec.toNat_inj]

theorem key_le_key_of_addr (h : addr r = addr m) :
    key addr len r ≤ key addr len m ↔ len r ≤ len m := by
  rw [← not_lt, key_lt_key, h, BitVec.lt_def]
  simp

/-! ## What keeps a table -/

theorem table_nil : Table addr len [] := ⟨DescList.desc_nil, by simp⟩

theorem Table.sublist {l₁ l₂ : List α} (h : Table addr len l₂) (hs : l₁.Sublist l₂) :
    Table addr len l₁ :=
  ⟨h.desc.sublist hs, fun r hr => h.net r (hs.subset hr)⟩

theorem Table.upsert (h : Table addr len l)
    (hr : len r ≤ w ∧ netOf (len r) (addr r) = addr r) :
    Table addr len (upsert (key addr len) r l) := by
  refine ⟨DescList.desc_upsert h.desc, fun x hx => ?_⟩
  rcases (DescList.mem_upsert h.desc).mp hx with rfl | ⟨hx', -⟩
  · exact hr
  · exact h.net x hx'

/-! ## The scan -/

/-- The first entry that ends the scan decides what it gives. -/
theorem walk_eq (a : BitVec w) (l : List α) :
    walk addr len a l =
      (l.find? fun r => decide (SharesPrefix (len r) (addr r) a ∨ addr r < a)).filter fun r =>
        decide (SharesPrefix (len r) (addr r) a) := by
  induction l with
  | nil => rfl
  | cons r l ih =>
    unfold walk
    split
    next hshares =>
      rw [List.find?_cons_of_pos (by simp [hshares]), Option.filter_some, if_pos (by simpa)]
    next hnot =>
      split
      next hlt =>
        rw [List.find?_cons_of_pos (by simp [hlt]), Option.filter_some, if_neg (by simpa)]
      next hge => rw [List.find?_cons_of_neg (by simp [hnot, hge]), ih]

/-- Among the entries that match, the longest one stands first. -/
theorem Longest.key_le (hl : Table addr len l) (hm : Longest addr len l a m) (hr : r ∈ l)
    (hshares : SharesPrefix (len r) (addr r) a) : key addr len r ≤ key addr len m := by
  have hlen := hm.longest r hr hshares
  have hrnet : addr r = netOf (len r) a :=
    (NetPrefix.netOf_eq_iff_shares (hl.net r hr).1 (hl.net r hr).2).mpr hshares
  have hmnet : addr m = netOf (len m) a :=
    (NetPrefix.netOf_eq_iff_shares (hl.net m hm.mem).1 (hl.net m hm.mem).2).mpr hm.shares
  have hmono := NetPrefix.netOf_mono hlen a
  rw [← hrnet, ← hmnet] at hmono
  rw [← not_lt, key_lt_key, BitVec.lt_def]
  omega

/-- What stands in front of the longest entry and is below the address is what hides it. -/
theorem Longest.hides_iff (hl : Table addr len l) (hm : Longest addr len l a m) (hr : r ∈ l) :
    Hides addr len r m a ↔ key addr len m < key addr len r ∧ addr r < a := by
  constructor
  · intro hhides
    obtain ⟨hnot, hle, hlt⟩ := hhides
    refine ⟨?_, hlt⟩
    rw [key_lt_key]
    rcases Nat.lt_or_eq_of_le (BitVec.le_def.mp hle) with hless | heq
    · exact Or.inl (BitVec.lt_def.mpr hless)
    · have haddr := BitVec.eq_of_toNat_eq heq
      refine Or.inr ⟨haddr, ?_⟩
      -- a shorter prefix of the same network would match
      by_contra hge
      exact hnot fun i hi => haddr ▸ hm.shares i (by omega)
  · intro hfront
    obtain ⟨hkey, hlt⟩ := hfront
    refine ⟨fun hshares => absurd (hm.key_le hl hr hshares) hkey.not_ge, ?_, hlt⟩
    rcases key_lt_key.mp hkey with h | ⟨h, -⟩
    · exact BitVec.le_of_lt h
    · rw [h]
      exact BitVec.le_refl _

/-- There is a longest entry as soon as some entry matches. -/
theorem exists_longest (hr : r ∈ l) (hshares : SharesPrefix (len r) (addr r) a) :
    ∃ m, Longest addr len l a m := by
  classical
  obtain ⟨m, hm, hmax⟩ := Finset.exists_max_image
    (l.toFinset.filter fun r => SharesPrefix (len r) (addr r) a) len ⟨r, by simp [hr, hshares]⟩
  simp only [Finset.mem_filter, List.mem_toFinset] at hm hmax
  exact ⟨m, hm.1, hm.2, fun x hx hsx => hmax x ⟨hx, hsx⟩⟩

/-- The scan finds an entry exactly if it is the longest one for the address and no entry hides
it. -/
theorem walk_eq_some (hl : Table addr len l) :
    walk addr len a l = some m ↔
      Longest addr len l a m ∧ ∀ r ∈ l, ¬ Hides addr len r m a := by
  rw [walk_eq, Option.filter_eq_some_iff, DescList.find?_eq_greatest hl.desc]
  simp only [decide_eq_true_eq]
  constructor
  · intro hfound
    obtain ⟨⟨hmem, -, hgreatest⟩, hshares⟩ := hfound
    have hlongest : Longest addr len l a m := by
      obtain ⟨n, hn⟩ := exists_longest hmem hshares
      have hle := hgreatest n hn.mem (Or.inl hn.shares)
      have hge := hn.key_le hl hmem hshares
      rwa [hl.desc.eq_of_key_eq hmem hn.mem (le_antisymm hge hle)]
    refine ⟨hlongest, fun r hr hhides => ?_⟩
    obtain ⟨hkey, hlt⟩ := (hlongest.hides_iff hl hr).mp hhides
    exact absurd (hgreatest r hr (Or.inr hlt)) hkey.not_ge
  · intro h
    obtain ⟨hm, hclear⟩ := h
    refine ⟨⟨hm.mem, Or.inl hm.shares, fun r hr hstop => ?_⟩, hm.shares⟩
    rcases hstop with hshares | hlt
    · exact hm.key_le hl hr hshares
    · exact not_lt.mp fun hkey => hclear r hr ((hm.hides_iff hl hr).mpr ⟨hkey, hlt⟩)

/-- It finds none exactly if every longest entry is hidden, in particular if nothing matches. -/
theorem walk_eq_none (hl : Table addr len l) :
    walk addr len a l = none ↔
      ∀ m, Longest addr len l a m → ∃ r ∈ l, Hides addr len r m a := by
  rw [Option.eq_none_iff_forall_ne_some]
  refine forall_congr' fun m => ?_
  rw [ne_eq, walk_eq_some hl]
  push Not
  rfl

/-! ## The removal -/

/-- The first entry at an address is the one of greatest prefix length there. -/
theorem find?_at_eq_some (hl : Desc (key addr len) l) :
    l.find? (fun r => decide (addr r = a)) = some m ↔
      m ∈ l ∧ addr m = a ∧ ∀ r ∈ l, addr r = a → len r ≤ len m := by
  rw [DescList.find?_eq_greatest hl]
  simp only [decide_eq_true_eq]
  refine and_congr_right fun _ => and_congr_right fun hm => forall₃_congr fun r _ hr => ?_
  exact key_le_key_of_addr (hr.trans hm.symm)

theorem removeAt_append {pre post : List α} (hpre : ∀ x ∈ pre, a < addr x) (hr : addr r = a) :
    removeAt addr a (pre ++ r :: post) = pre ++ post := by
  have hpass : ∀ x ∈ pre, ¬ decide (addr x = a) = true := by
    intro x hx
    have hlt := BitVec.lt_def.mp (hpre x hx)
    rw [decide_eq_true_eq]
    intro he
    rw [he] at hlt
    exact lt_irrefl _ hlt
  rw [removeAt, List.eraseP_append_right _ hpass, List.eraseP_cons_of_pos (by simpa using hr)]

/-- An early end at a smaller address misses nothing. -/
theorem removeAt_eq_self {pre post : List α} (hl : Desc (key addr len) (pre ++ post))
    (hpre : ∀ x ∈ pre, a < addr x) (hpost : ∀ x ∈ post.head?, addr x < a) :
    removeAt addr a (pre ++ post) = pre ++ post := by
  apply List.eraseP_of_forall_not
  intro x hx
  rw [decide_eq_true_eq]
  intro he
  subst he
  rcases List.mem_append.mp hx with hx' | hx'
  · exact lt_irrefl _ (BitVec.lt_def.mp (hpre x hx'))
  · cases post with
    | nil => cases hx'
    | cons y ys =>
      -- everything from the head of the rest on is below the address
      have hy : addr y < addr x := hpost y rfl
      have hbelow := (DescList.desc_cons.mp (List.pairwise_append.mp hl).2.1).1
      rw [BitVec.lt_def] at hy
      rcases List.mem_cons.mp hx' with rfl | hx''
      · exact lt_irrefl _ hy
      · rcases key_lt_key.mp (hbelow x hx'') with hlt | ⟨heq, -⟩
        · rw [BitVec.lt_def] at hlt
          omega
        · rw [heq] at hy
          exact lt_irrefl _ hy

theorem mem_removeAt (hl : Desc (key addr len) l) :
    r ∈ removeAt addr a l ↔ r ∈ l ∧ l.find? (fun r => decide (addr r = a)) ≠ some r :=
  DescList.mem_eraseP hl

/-- The removal takes out exactly the entries of a key if and only if the first entry at the address
is the one of that key. -/
theorem removeAt_eq_filter_iff (hl : Desc (key addr len) l) (k : ℕ ×ₗ ℕ) :
    removeAt addr a l = l.filter (fun r => key addr len r ≠ k) ↔
      ∀ r ∈ l, l.find? (fun r => decide (addr r = a)) = some r ↔ key addr len r = k := by
  constructor
  · intro h r hr
    have hmem : r ∈ removeAt addr a l ↔ ¬ key addr len r = k := by
      rw [h, List.mem_filter]
      simp [hr]
    rw [mem_removeAt hl] at hmem
    tauto
  · intro h
    have hdesc : Desc (key addr len) (removeAt addr a l) := hl.sublist List.eraseP_sublist
    refine DescList.desc_ext hdesc (hl.filter _) fun r => ?_
    rw [mem_removeAt hl, List.mem_filter]
    refine and_congr_right fun hr => ?_
    rw [ne_eq, not_congr (h r hr)]
    simp

/-- After the insertion of a new key, the removal restores the table if and only if the first entry
at the address is the inserted one. -/
theorem removeAt_upsert_iff {x : α} (hl : Desc (key addr len) l)
    (hnew : ∀ r ∈ l, key addr len r ≠ key addr len x) :
    removeAt addr a (upsert (key addr len) x l) = l ↔
      (upsert (key addr len) x l).find? (fun r => decide (addr r = a)) = some x := by
  have hdesc : Desc (key addr len) (upsert (key addr len) x l) := DescList.desc_upsert hl
  have hmem : ∀ r, r ∈ upsert (key addr len) x l ↔ r = x ∨ r ∈ l := by
    intro r
    rw [DescList.mem_upsert hl]
    exact or_congr_right ⟨And.left, fun hr => ⟨hr, hnew r hr⟩⟩
  have hfresh : x ∉ l := fun hx => hnew x hx rfl
  constructor
  · intro h
    by_contra hne
    have hstays : x ∈ removeAt addr a (upsert (key addr len) x l) :=
      (mem_removeAt hdesc).mpr ⟨(hmem x).mpr (Or.inl rfl), hne⟩
    exact hfresh (h ▸ hstays)
  · intro h
    refine DescList.desc_ext (hdesc.sublist List.eraseP_sublist) hl fun r => ?_
    rw [mem_removeAt hdesc, hmem, h]
    constructor
    · intro hr
      obtain ⟨rfl | hr, hne⟩ := hr
      · exact absurd rfl hne
      · exact hr
    · intro hr
      exact ⟨Or.inr hr, fun he => hfresh (Option.some.inj he ▸ hr)⟩

/-- The removal at an address undoes the insertion of an entry at the network of that address and a
prefix length (it takes out exactly that network, and restores a table without it) if and only if
the address has no host bits and no longer prefix at it hides the entry meant. -/
theorem removeAt_undoes_iff {x : α} (hl : Table addr len l) (hx : addr x = netOf (len x) a) :
    (removeAt addr a l = l.filter (fun r => key addr len r ≠ key addr len x) ∧
      ((∀ r ∈ l, key addr len r ≠ key addr len x) →
        removeAt addr a (upsert (key addr len) x l) = l)) ↔
    (a = netOf (len x) a ∧ ∀ r ∈ l, addr r = a →
      len r ≤ len x ∧ ∃ y ∈ l, addr y = a ∧ len y = len x) := by
  rw [removeAt_eq_filter_iff hl.desc]
  constructor
  · intro h
    obtain ⟨hremoves, hrestores⟩ := h
    cases hfirst : l.find? (fun r => decide (addr r = a)) with
    | some f =>
      obtain ⟨hf, hfa, hmax⟩ := (find?_at_eq_some hl.desc).mp hfirst
      obtain ⟨hnet, hlen⟩ := key_eq_key.mp ((hremoves f hf).mp hfirst)
      refine ⟨hfa.symm.trans (hnet.trans hx), fun r hr hra => ⟨?_, f, hf, hfa, hlen⟩⟩
      exact (hmax r hr hra).trans_eq hlen
    | none =>
      -- the network is not in the table, so inserting it tells the address
      have hnew : ∀ r ∈ l, key addr len r ≠ key addr len x := by
        intro r hr hkey
        have hsome := (hremoves r hr).mpr hkey
        rw [hfirst] at hsome
        cases hsome
      have hinserted := (removeAt_upsert_iff hl.desc hnew).mp (hrestores hnew)
      have hxa : addr x = a :=
        ((find?_at_eq_some (DescList.desc_upsert hl.desc)).mp hinserted).2.1
      refine ⟨hxa.symm.trans hx, fun r hr hra => ?_⟩
      have hnone := List.find?_eq_none.mp hfirst r hr
      exact absurd hra (by simpa using hnone)
  · intro h
    obtain ⟨ha, hall⟩ := h
    have hxa : addr x = a := hx.trans ha.symm
    constructor
    · intro r hr
      rw [find?_at_eq_some hl.desc, key_eq_key, hxa]
      constructor
      · intro hfirst
        obtain ⟨-, hra, hmax⟩ := hfirst
        obtain ⟨hle, y, hy, hya, hylen⟩ := hall r hr hra
        have hge : len x ≤ len r := hylen ▸ hmax y hy hya
        exact ⟨hra, le_antisymm hle hge⟩
      · intro hkey
        obtain ⟨hra, hlen⟩ := hkey
        exact ⟨hr, hra, fun z hz hza => (hall z hz hza).1.trans_eq hlen.symm⟩
    · intro hnew
      rw [removeAt_upsert_iff hl.desc hnew, find?_at_eq_some (DescList.desc_upsert hl.desc),
        DescList.mem_upsert hl.desc]
      refine ⟨Or.inl rfl, hxa, fun r hr hra => ?_⟩
      rcases (DescList.mem_upsert hl.desc).mp hr with rfl | ⟨hr', -⟩
      · exact le_refl _
      · obtain ⟨-, y, hy, hya, hylen⟩ := hall r hr' hra
        exact absurd (key_eq_key.mpr ⟨hya.trans hxa.symm, hylen⟩) (hnew y hy)

end PrefixTable
