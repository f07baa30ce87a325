import ConfProfile.Lib.Fields
import ConfProfile.OpenVpn.Chain
import Mathlib.Data.BitVec

/-!
# Numbers and addresses in texts (`NetUtils`)

The management interface sends numbers and addresses as texts. What the platform and
`NetUtils` make of them is modelled with the exceptions they throw; `digit` is
`Character.digit` in base ten.
-/

namespace ConfProfile.OpenVpn

/-- The unchecked exceptions and errors. -/
inductive Unchecked where
  | stringIndexOutOfBounds
  | arrayIndexOutOfBounds
  | numberFormat
  | illegalArgument
  | nullPointer
  | classCast
  /-- a native method that no library has -/
  | unsatisfiedLink
  deriving DecidableEq, Repr

/-- The call returns. -/
def Returns {α : Type} (r : Except Unchecked α) : Prop := ∃ a, r = .ok a

section Returns

variable {α β : Type}

@[simp] theorem returns_ok (a : α) : Returns (.ok a) := ⟨a, rfl⟩

@[simp] theorem returns_pure (a : α) : Returns (pure a) := ⟨a, rfl⟩

@[simp] theorem not_returns_error (e : Unchecked) : ¬ Returns (.error e : Except Unchecked α) := by
  intro h
  obtain ⟨a, ha⟩ := h
  cases ha

theorem bind_eq_ok {r : Except Unchecked α} {f : α → Except Unchecked β} {b : β} :
    (r >>= f) = .ok b ↔ ∃ a, r = .ok a ∧ f a = .ok b := by
  constructor
  · intro h
    cases r with
    | error e => cases h
    | ok a => exact ⟨a, rfl, h⟩
  · intro h
    obtain ⟨a, rfl, h⟩ := h
    exact h

theorem returns_bind {r : Except Unchecked α} {f : α → Except Unchecked β} :
    Returns (r >>= f) ↔ ∃ a, r = .ok a ∧ Returns (f a) := by
  constructor
  · intro h
    obtain ⟨b, hb⟩ := h
    obtain ⟨a, ha, hb⟩ := bind_eq_ok.mp hb
    exact ⟨a, ha, b, hb⟩
  · intro h
    obtain ⟨a, ha, b, hb⟩ := h
    exact ⟨b, bind_eq_ok.mpr ⟨a, ha, hb⟩⟩

@[simp] theorem returns_map {r : Except Unchecked α} {f : α → β} :
    Returns (f <$> r) ↔ Returns r := by
  cases r with
  | error e => exact iff_of_false (not_returns_error e) (not_returns_error e)
  | ok a => exact iff_of_true (returns_ok _) (returns_ok a)

end Returns

/-! ## Numbers -/

/-- The digits of ASCII. -/
def asciiDigit (c : Char) : Option Nat := if c.isDigit then some (c.toNat - 48) else none

variable (digit : Char → Option Nat)

def parseDigits (s : List Char) : Option Nat :=
  if s = [] then none else (s.mapM digit).map fun digits => digits.foldl (fun n d => 10 * n + d) 0

/-- A number of so many bits, with a sign or without. -/
def parseNumber (bits : Nat) : List Char → Option Int
  | '-' :: s => (parseDigits digit s).bind fun n =>
    if n ≤ 2 ^ (bits - 1) then some (-(n : Int)) else none
  | '+' :: s => (parseDigits digit s).bind fun n =>
    if n < 2 ^ (bits - 1) then some (n : Int) else none
  | s => (parseDigits digit s).bind fun n =>
    if n < 2 ^ (bits - 1) then some (n : Int) else none

/-- `Integer.parseInt`. -/
def parseInt (s : List Char) : Except Unchecked Int :=
  match parseNumber digit 32 s with
  | some n => .ok n
  | none => .error .numberFormat

/-- `Long.parseLong`. -/
def parseLong (s : List Char) : Except Unchecked Int :=
  match parseNumber digit 64 s with
  | some n => .ok n
  | none => .error .numberFormat

theorem returns_parseInt {s : List Char} :
    Returns (parseInt digit s) ↔ (parseNumber digit 32 s).isSome = true := by
  rw [parseInt]
  cases parseNumber digit 32 s <;> simp

theorem returns_parseLong {s : List Char} :
    Returns (parseLong digit s) ↔ (parseNumber digit 64 s).isSome = true := by
  rw [parseLong]
  cases parseNumber digit 64 s <;> simp

/-! ## Addresses -/

/-- An octet of `ip4StrToInt`. -/
def octet (part : List Char) : Option (BitVec 32) :=
  (parseNumber digit 32 (trim part)).bind fun octet =>
    if octet < 0 ∨ octet > 255 then none else some (BitVec.ofInt 32 octet)

/-- `ip4StrToInt`. -/
def ip4StrToInt (ip4 : List Char) : Except Unchecked (BitVec 32) :=
  let parts := Fields.split '.' ip4
  if parts.length ≠ 4 then .error .illegalArgument
  else match parts.mapM (octet digit) with
    | none => .error .illegalArgument
    | some octets =>
      .ok (octets.zipIdx.foldl
        (fun (result : BitVec 32) (e : BitVec 32 × Nat) => result ||| e.1 <<< (24 - e.2 * 8)) 0)

/-- `mask4StrToInt`: the number of ones in front. -/
def mask4StrToInt (mask4 : List Char) : Except Unchecked Nat := do
  let maskIp ← ip4StrToInt digit mask4
  return ((List.range 32).takeWhile fun i => maskIp.getLsbD (31 - i)).length

/-- The text is an IPv4 address. -/
structure IsIp4 (ip4 : List Char) : Prop where
  length : (Fields.split '.' ip4).length = 4
  octets : ∀ part ∈ Fields.split '.' ip4, ∃ n : Int,
    parseNumber digit 32 (trim part) = some n ∧ 0 ≤ n ∧ n ≤ 255

def HEX : List Char := "0123456789abcdef".toList

def hexToIntDigit (ch : Char) : Except Unchecked (BitVec 8) :=
  match HEX.idxOf? ch with
  | some i => .ok (BitVec.ofNat 8 i)
  | none => .error .illegalArgument

/-- The two bytes of a group. -/
def groupBytes (part : List Char) : Except Unchecked (List (BitVec 8)) :=
  if part.length < 1 ∨ part.length > 4 then .error .illegalArgument
  else match (List.replicate (4 - part.length) '0' ++ part).map Char.toLower with
    | [a, b, c, d] => do
      return [(((← hexToIntDigit a) <<< 4) &&& 0xF0) ||| ((← hexToIntDigit b) &&& 0x0F),
        (((← hexToIntDigit c) <<< 4) &&& 0xF0) ||| ((← hexToIntDigit d) &&& 0x0F)]
    | _ => .error .illegalArgument

/-- The loop of `ip6StrToBytes`, with the bytes up to `pos`. `split` gives no null, so that the
branch for a double colon is never taken. -/
def ip6Loop (hybridIp6Ip4 : Bool) (result : List (BitVec 8)) :
    List (List Char) → Except Unchecked (List (BitVec 8))
  | [] => .ok result
  | part :: parts =>
    if hybridIp6Ip4 ∧ parts = [] then do
      let ip4 ← ip4StrToInt digit part
      if result.length ≠ 12 then .error .illegalArgument
      else .ok (result ++ [3, 2, 1, 0].map fun i => (ip4 >>> (8 * i)).setWidth 8)
    else if result.length > 14 then .error .illegalArgument
    else do
      ip6Loop hybridIp6Ip4 (result ++ (← groupBytes part)) parts

/-- `ip6StrToBytes(ip6, null)`; the groups that are missing at the end stay zero. -/
def ip6StrToBytes (ip6 : List Char) : Except Unchecked (List (BitVec 8)) :=
  let parts := Fields.split ':' ip6
  if parts.length < 1 ∨ parts.length > 8 then .error .illegalArgument
  else do
    let result ← ip6Loop digit (parts.getLast?.any (·.contains '.')) [] parts
    return result ++ List.replicate (16 - result.length) 0

variable {digit}

theorem mapM_isSome {α β : Type} (f : α → Option β) (l : List α) :
    (l.mapM f).isSome = true ↔ ∀ x ∈ l, (f x).isSome = true := by
  induction l with
  | nil => simp
  | cons x l ih =>
    rw [List.mapM_cons, List.forall_mem_cons, ← ih]
    cases f x with
    | none => simp
    | some y => cases l.mapM f <;> simp

theorem mapM_eq_map {α β : Type} {f : α → Option β} {g : α → β} {l : List α}
    (h : ∀ x ∈ l, f x = some (g x)) : l.mapM f = some (l.map g) := by
  induction l with
  | nil => rfl
  | cons x l ih =>
    obtain ⟨hx, hl⟩ := List.forall_mem_cons.mp h
    rw [List.mapM_cons, hx, ih hl]
    rfl

theorem mapM_eq_some {α β : Type} {f : α → Option β} {l : List α} {r : List β} :
    l.mapM f = some r ↔ List.Forall₂ (fun a b => f a = some b) l r := by
  induction l generalizing r with
  | nil =>
    rw [List.mapM_nil, List.forall₂_nil_left_iff, eq_comm]
    exact Option.some_inj
  | cons x l ih =>
    rw [List.mapM_cons, List.forall₂_cons_left_iff]
    constructor
    · intro h
      obtain ⟨y, hy, h⟩ := Option.bind_eq_some_iff.mp h
      obtain ⟨ys, hys, h⟩ := Option.bind_eq_some_iff.mp h
      cases h
      exact ⟨y, ys, hy, ih.mp hys, rfl⟩
    · intro h
      obtain ⟨y, ys, hy, hys, rfl⟩ := h
      rw [hy, ih.mpr hys]
      rfl

theorem octet_isSome {part : List Char} : (octet digit part).isSome = true ↔
    ∃ n : Int, parseNumber digit 32 (trim part) = some n ∧ 0 ≤ n ∧ n ≤ 255 := by
  rw [octet]
  cases parseNumber digit 32 (trim part) with
  | none => simp
  | some n =>
    rw [Option.bind_some]
    split_ifs with hn
    · refine iff_of_false (by simp) fun h => ?_
      obtain ⟨n', heq, hle⟩ := h
      cases heq
      omega
    · refine iff_of_true rfl ⟨n, rfl, by omega⟩

/-- Everything but an address is an `IllegalArgumentException`. -/
theorem ip4StrToInt_cases (digit : Char → Option Nat) (ip4 : List Char) :
    (IsIp4 digit ip4 ∧ ∃ n, ip4StrToInt digit ip4 = .ok n) ∨
    (¬ IsIp4 digit ip4 ∧ ip4StrToInt digit ip4 = .error .illegalArgument) := by
  have hsome := mapM_isSome (octet digit) (Fields.split '.' ip4)
  rw [ip4StrToInt]
  by_cases hlen : (Fields.split '.' ip4).length = 4
  · rw [if_neg (not_not.mpr hlen)]
    cases hoctets : (Fields.split '.' ip4).mapM (octet digit) with
    | none =>
      refine Or.inr ⟨fun h => ?_, rfl⟩
      have hall := hsome.mpr fun part hpart => octet_isSome.mpr (h.octets part hpart)
      rw [hoctets] at hall
      cases hall
    | some octets =>
      rw [hoctets] at hsome
      exact Or.inl ⟨⟨hlen, fun part hpart => octet_isSome.mp (hsome.mp rfl part hpart)⟩, _, rfl⟩
  · exact Or.inr ⟨fun h => hlen h.length, if_pos hlen⟩

theorem returns_ip4StrToInt {ip4 : List Char} :
    Returns (ip4StrToInt digit ip4) ↔ IsIp4 digit ip4 := by
  rcases ip4StrToInt_cases digit ip4 with ⟨hip4, n, heq⟩ | ⟨hip4, heq⟩
  · rw [heq]
    exact iff_of_true (returns_ok n) hip4
  · rw [heq]
    exact iff_of_false (not_returns_error _) hip4

theorem mask4StrToInt_cases (digit : Char → Option Nat) (mask4 : List Char) :
    (IsIp4 digit mask4 ∧ ∃ n, mask4StrToInt digit mask4 = .ok n) ∨
    (¬ IsIp4 digit mask4 ∧ mask4StrToInt digit mask4 = .error .illegalArgument) := by
  rcases ip4StrToInt_cases digit mask4 with ⟨hip4, n, heq⟩ | ⟨hip4, heq⟩
  · refine Or.inl ⟨hip4, ?_⟩
    rw [mask4StrToInt, heq]
    exact ⟨_, rfl⟩
  · refine Or.inr ⟨hip4, ?_⟩
    rw [mask4StrToInt, heq]
    rfl

theorem groupBytes_length {part : List Char} {bytes : List (BitVec 8)}
    (h : groupBytes part = .ok bytes) : bytes.length = 2 := by
  rw [groupBytes] at h
  split_ifs at h
  split at h
  · obtain ⟨a, -, h⟩ := bind_eq_ok.mp h
    obtain ⟨b, -, h⟩ := bind_eq_ok.mp h
    obtain ⟨c, -, h⟩ := bind_eq_ok.mp h
    obtain ⟨d, -, h⟩ := bind_eq_ok.mp h
    cases h
    rfl
  · cases h

/-- The loop gives no more bytes than there is place for. -/
theorem ip6Loop_length {hybrid : Bool} {parts : List (List Char)}
    {result bytes : List (BitVec 8)} (hlen : result.length ≤ 16)
    (h : ip6Loop digit hybrid result parts = .ok bytes) : bytes.length ≤ 16 := by
  induction parts generalizing result with
  | nil =>
    cases h
    exact hlen
  | cons part parts ih =>
    rw [ip6Loop] at h
    split_ifs at h with hlast htwelve hfull
    · obtain ⟨ip4, -, h⟩ := bind_eq_ok.mp h
      cases h
    · obtain ⟨ip4, -, h⟩ := bind_eq_ok.mp h
      cases h
      rw [List.length_append, not_not.mp htwelve, List.length_map]
      exact le_rfl
    · obtain ⟨group, hgroup, h⟩ := bind_eq_ok.mp h
      refine ih ?_ h
      rw [List.length_append, groupBytes_length hgroup]
      omega

theorem ip6StrToBytes_length {ip6 : List Char} {bytes : List (BitVec 8)}
    (h : ip6StrToBytes digit ip6 = .ok bytes) : bytes.length = 16 := by
  rw [ip6StrToBytes] at h
  split_ifs at h
  obtain ⟨result, hresult, h⟩ := bind_eq_ok.mp h
  cases h
  have hnil : ([] : List (BitVec 8)).length ≤ 16 := Nat.zero_le 16
  have hlen := ip6Loop_length hnil hresult
  rw [List.length_append, List.length_replicate]
  omega

end ConfProfile.OpenVpn
