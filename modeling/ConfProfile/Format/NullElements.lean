import ConfProfile.Format.Builtin
import Mathlib.Logic.Relation

/-!
# Reading nulls (`BuiltinTypeAdapterFactory`)

`MapTypeAdapter.read` and `ListTypeAdapter.read` take nothing for a null. The loop over the
members of an object ends there, and `endObject` throws. The loop over the elements of an array
only ends at the end of the array: it finds the same null again, and goes on for ever.

So a document is read to an end exactly if no array has a null in it, or if the readers throw
at something in front of the first such null (`read_terminates_iff`).
-/

namespace ConfProfile

open Tokens

variable {R : Type} (P : Platform R)

/-- `ListTypeAdapter.read`. -/
def readList (n : Nat) : JsonReader (List (Obj R)) := readArray (readElements P n)

/-! ## Documents -/

/-- A JSON document; a number is what stands there for it. -/
inductive Json where
  | null
  | boolean (b : Bool)
  | number (literal : String)
  | string (s : String)
  | array (items : List Json)
  | object (members : List (String × Json))

namespace Json

mutual

/-- What `JsonReader` makes of a document. -/
def tokens : Json → List Token
  | .null => [.null]
  | .boolean b => [.boolean b]
  | .number literal => [.number literal]
  | .string s => [.string s]
  | .array items => arrayTokens (itemTokens items)
  | .object members => objectTokens (memberTokens members)

def itemTokens : List Json → List Token
  | [] => []
  | x :: items => x.tokens ++ itemTokens items

def memberTokens : List (String × Json) → List Token
  | [] => []
  | (name, x) :: members => .name name :: (x.tokens ++ memberTokens members)

end

/-- What the readers cannot read. -/
inductive Obstacle where
  /-- A number that is no int, or a null that is not an element of an array. -/
  | refused
  | nullElement
  deriving DecidableEq, Repr

mutual

/-- The first obstacle of a document, in the order in which it is written. -/
def obstacle : Json → Option Obstacle
  | .null => some .refused
  | .boolean _ | .string _ => none
  | .number literal =>
    if ((P.integerValueOf literal).or ((P.realValueOf literal).bind P.asInt)).isSome then none
    else some .refused
  | .array items => itemObstacle items
  | .object members => memberObstacle members

def itemObstacle : List Json → Option Obstacle
  | [] => none
  | .null :: _ => some .nullElement
  | x :: items => x.obstacle.or (itemObstacle items)

def memberObstacle : List (String × Json) → Option Obstacle
  | [] => none
  | (_, x) :: members => x.obstacle.or (memberObstacle members)

end

/-- The first obstacle for `MapTypeAdapter.read`, which wants an object. -/
def mapObstacle : Json → Option Obstacle
  | .object members => memberObstacle P members
  | _ => some .refused

/-- The first obstacle for `ListTypeAdapter.read`, which wants an array. -/
def listObstacle : Json → Option Obstacle
  | .array items => itemObstacle P items
  | _ => some .refused

/-- What an obstacle does to the readers. -/
def Obstacle.stop : Obstacle → Stop
  | .refused => .thrown
  | .nullElement => .fuel

end Json

/-! ## What the readers do with a document -/

section Document

open Json

variable {P}

theorem readElements_cons {t : Token} (ht : t ≠ .endArray) (n : Nat) (s : List Token) :
    readElements P (n + 1) (t :: s) =
      (readValue P n >>= fun value => readElements P n >>= fun list => pure (value :: list)) (t :: s) := by
  cases t <;> first | rfl | exact absurd rfl ht

/-- The loop of `ListTypeAdapter.read` in front of a null. -/
theorem readElements_null (n : Nat) (s : List Token) :
    readElements P n (.null :: s) = .error .fuel := by
  induction n with
  | zero => rfl
  | succ n ih =>
    have hne : Token.null ≠ .endArray := nofun
    rw [readElements_cons hne]
    cases n with
    | zero => rfl
    | succ n =>
      -- the value is null, and nothing is taken for it
      have hvalue : Gives (readValue P (n + 1)) (.null :: s) .null (.null :: s) := rfl
      rw [bind_of_gives hvalue, bind_of_error ih]

theorem does_pure {α : Type} (a : α) (s : List Token) :
    Does none (fun _ => (pure a : JsonReader α)) s s := Does.of_gives (Gives.pure a s)

theorem does_expect (t : Token) (s : List Token) : Does none (fun _ => expect t) (t :: s) s :=
  Does.of_gives (Gives.expect t s)

theorem does_readArray {α : Type} {o : Option Stop} {elements : Nat → JsonReader α}
    {toks rest : List Token}
    (h : Does o elements (toks ++ .endArray :: rest) (.endArray :: rest)) :
    Does o (fun n => readArray (elements n)) (arrayTokens toks ++ rest) rest := by
  rw [arrayTokens, List.cons_append, List.append_assoc]
  have hend := h.bind fun list => (does_expect .endArray rest).bind fun _ => does_pure list rest
  have hwhole := (does_expect .beginArray (toks ++ .endArray :: rest)).bind fun _ => hend
  rwa [Option.none_or, Option.none_or, Option.or_none] at hwhole

/-- `members` is the loop of `MapTypeAdapter.read` and what follows it. -/
def toEndObject {α : Type} (members : JsonReader α) : JsonReader α := do
  let map ← members
  expect .endObject
  pure map

theorem does_readObject {α : Type} {o : Option Stop} {members : Nat → JsonReader α}
    {toks rest : List Token}
    (h : Does o (fun n => toEndObject (members n)) (toks ++ .endObject :: rest) rest) :
    Does o (fun n => readObject (members n)) (objectTokens toks ++ rest) rest := by
  rw [objectTokens, List.cons_append, List.append_assoc]
  have hwhole := (does_expect .beginObject (toks ++ .endObject :: rest)).bind fun _ => h
  rwa [Option.none_or] at hwhole

theorem readMembers_name (before : List (String × Obj R)) (name : String) (n : Nat) (s : List Token) :
    toEndObject (readMembers P (n + 1) before) (.name name :: s) =
      (readValue P n >>= fun value => toEndObject (readMembers P n (mapPut before name value))) s := by
  have hname : toEndObject (readMembers P (n + 1) before) (.name name :: s) =
    toEndObject (readValue P n >>= fun value => readMembers P n (mapPut before name value)) s := rfl
  rw [hname]
  simp only [toEndObject, bind_assoc]

/-- The loop of `MapTypeAdapter.read` ends in front of a null, and `endObject` throws. -/
theorem does_members_null (before : List (String × Obj R)) (s s' : List Token) :
    Does (some .thrown) (fun n => toEndObject (readMembers P n before)) (.null :: s) s' := by
  have hloop : Does none (fun n => readMembers P n before) (.null :: s) (.null :: s) :=
    (does_pure before _).succ rfl fun _ => rfl
  have hend : ∀ map : List (String × Obj R), Does (some .thrown) (fun _ : Nat => (do
      expect .endObject
      pure map : JsonReader _)) (.null :: s) s' := fun map => Does.of_throws fun _ => rfl
  exact hloop.bind hend

theorem does_nextInt (literal : String) (rest : List Token) :
    Does (((Json.number literal).obstacle P).map Obstacle.stop) (fun _ => nextInt P)
      (.number literal :: rest) rest := by
  have htext : Gives nextText (.number literal :: rest) literal rest := rfl
  unfold obstacle
  cases hint : (P.integerValueOf literal).or ((P.realValueOf literal).bind P.asInt) with
  | none => exact Does.of_throws fun _ => (bind_of_gives htext).trans (by rw [hint]; rfl)
  | some i => exact Does.of_gives (htext.bind (gives_ofOption.mpr ⟨hint, rfl⟩))

theorem tokens_head (x : Json) : ∃ t s, x.tokens = t :: s ∧ t ≠ .endArray := by
  cases x <;> exact ⟨_, _, rfl, by simp⟩

theorem itemObstacle_cons {x : Json} (hx : x ≠ .null) (items : List Json) :
    itemObstacle P (x :: items) = (x.obstacle P).or (itemObstacle P items) := by
  cases x <;> first | rfl | exact absurd rfl hx

mutual

theorem does_value : ∀ (x : Json), x ≠ .null → ∀ rest,
    Does ((x.obstacle P).map Obstacle.stop) (readValue P) (x.tokens ++ rest) rest
  | .null, hx, _ => absurd rfl hx
  | .boolean b, _, rest => (does_pure (.boolean b) rest).succ rfl fun _ => rfl
  | .string s, _, rest => (does_pure (.string s) rest).succ rfl fun _ => rfl
  | .number literal, _, rest => by
    have hnumber := (does_nextInt (P := P) literal rest).bind fun i => does_pure (Obj.integer i : Obj R) rest
    rw [Option.or_none] at hnumber
    exact hnumber.succ rfl fun _ => rfl
  | .array items, _, rest => by
    have harray := (does_readArray (does_items items rest)).bind fun list => does_pure (Obj.list list) rest
    rw [Option.or_none] at harray
    exact harray.succ rfl fun _ => rfl
  | .object members, _, rest => by
    have hobject := (does_readObject (does_members members [] rest)).bind
      fun map => does_pure (Obj.map map) rest
    rw [Option.or_none] at hobject
    exact hobject.succ rfl fun _ => rfl

theorem does_items : ∀ (items : List Json) (rest : List Token),
    Does ((itemObstacle P items).map Obstacle.stop) (readElements P)
      (itemTokens items ++ .endArray :: rest) (.endArray :: rest)
  | [], rest => (does_pure [] _).succ rfl fun _ => rfl
  | x :: items, rest => by
    rcases Classical.em (x = .null) with rfl | hx
    · exact ⟨0, fun n => (readElements_null n _).trans (ite_self _).symm⟩
    · obtain ⟨t, s, htokens, ht⟩ := tokens_head x
      have hloop := (does_value x hx (itemTokens items ++ .endArray :: rest)).bind fun value =>
        (does_items items rest).bind fun list => does_pure (value :: list) (.endArray :: rest)
      rw [Option.or_none, ← Option.map_or, ← itemObstacle_cons hx] at hloop
      rw [itemTokens, List.append_assoc]
      refine hloop.succ rfl fun n => ?_
      rw [htokens, List.cons_append]
      exact readElements_cons ht n _

theorem does_members : ∀ (members : List (String × Json)) (before : List (String × Obj R))
    (rest : List Token),
    Does ((memberObstacle P members).map Obstacle.stop) (fun n => toEndObject (readMembers P n before))
      (memberTokens members ++ .endObject :: rest) rest
  | [], before, rest => by
    have hloop : Does none (fun n => readMembers P n before) (.endObject :: rest) (.endObject :: rest) :=
      (does_pure before _).succ rfl fun _ => rfl
    exact hloop.bind fun map => (does_expect .endObject rest).bind fun _ => does_pure map rest
  | (name, x) :: members, before, rest => by
    rw [memberTokens, List.cons_append, List.append_assoc]
    rcases Classical.em (x = .null) with rfl | hx
    · have hvalue : Does none (readValue P) (.null :: (memberTokens members ++ .endObject :: rest))
          (.null :: (memberTokens members ++ .endObject :: rest)) :=
        (does_pure Obj.null _).succ rfl fun _ => rfl
      exact (hvalue.bind fun value => does_members_null (mapPut before name value) _ rest).succ rfl
        fun n => readMembers_name before name n _
    · have hmember := (does_value x hx (memberTokens members ++ .endObject :: rest)).bind fun value =>
        does_members members (mapPut before name value) rest
      rw [← Option.map_or] at hmember
      exact hmember.succ rfl fun n => readMembers_name before name n _

end

end Document

/-! ## The rounds of the loops -/

/-- One of the two loops at its head; that of `MapTypeAdapter.read` with the map so far. -/
inductive ReadLoop (R : Type) where
  | elements
  | members (map : List (String × Obj R))

/-- The loop that is entered behind a token. -/
def ReadLoop.inside : Token → Option (ReadLoop R)
  | .beginArray => some .elements
  | .beginObject => some (.members [])
  | _ => none

/-- A round of a loop that comes back to its head, and the tokens in front of it and behind. -/
inductive ReadRound : ReadLoop R × List Token → ReadLoop R × List Token → Prop where
  | element {n : Nat} {t : Token} {s s' : List Token} {x : Obj R} (ht : t ≠ .endArray)
    (hx : Gives (readValue P n) (t :: s) x s') : ReadRound (.elements, t :: s) (.elements, s')
  | member {n : Nat} {map : List (String × Obj R)} {name : String} {s s' : List Token} {x : Obj R}
    (hx : Gives (readValue P n) s x s') :
    ReadRound (.members map, .name name :: s) (.members (mapPut map name x), s')

/-- From the head of a loop to that of a loop inside. -/
inductive EntersLoop : ReadLoop R × List Token → ReadLoop R × List Token → Prop where
  | element {t : Token} {s : List Token} {l : ReadLoop R} (h : ReadLoop.inside t = some l) :
    EntersLoop (.elements, t :: s) (l, s)
  | member {map : List (String × Obj R)} {name : String} {t : Token} {s : List Token} {l : ReadLoop R}
    (h : ReadLoop.inside t = some l) : EntersLoop (.members map, .name name :: t :: s) (l, s)

/-- The head of a loop that is come to from another one. -/
def ReachesLoop : ReadLoop R × List Token → ReadLoop R × List Token → Prop :=
  Relation.ReflTransGen fun a b => ReadRound P a b ∨ EntersLoop a b

/-- Every round takes a token, or leaves its loop. -/
def RoundsConsume (start : ReadLoop R × List Token) : Prop :=
  ∀ a b, ReachesLoop P start a → ReadRound P a b → b.2.length < a.2.length

def ReadLoop.Terminates : ReadLoop R × List Token → Prop
  | (.elements, s) => Tokens.Terminates (readElements P) s
  | (.members map, s) => Tokens.Terminates (fun n => readMembers P n map) s

section Rounds

variable {P}

theorem refines_readArray {α : Type} {p q : JsonReader α} (h : Refines p q) :
    Refines (readArray p) (readArray q) :=
  (Refines.refl _).bind fun _ => h.bind fun _ => Refines.refl _

theorem refines_readObject {α : Type} {p q : JsonReader α} (h : Refines p q) :
    Refines (readObject p) (readObject q) :=
  (Refines.refl _).bind fun _ => h.bind fun _ => Refines.refl _

/-- One more unit of fuel changes nothing where it was enough. -/
theorem refines_readers (n : Nat) :
    Refines (readValue P n) (readValue P (n + 1)) ∧
    Refines (readElements P n) (readElements P (n + 1)) ∧
    ∀ map, Refines (readMembers P n map) (readMembers P (n + 1) map) := by
  induction n with
  | zero => exact ⟨Refines.fuel, Refines.fuel, fun _ => Refines.fuel⟩
  | succ n ih =>
    obtain ⟨ihValue, ihElements, ihMembers⟩ := ih
    refine ⟨?_, ?_, fun map => ?_⟩
    · refine (Refines.refl peek).bind fun o => ?_
      split
      next => exact (refines_readArray ihElements).bind fun _ => Refines.refl _
      next => exact (refines_readObject (ihMembers [])).bind fun _ => Refines.refl _
      all_goals exact Refines.refl _
    · refine (Refines.refl peek).bind fun o => ?_
      split
      next => exact Refines.refl _
      next => exact Refines.refl _
      next => exact ihValue.bind fun _ => ihElements.bind fun _ => Refines.refl _
    · refine (Refines.refl peek).bind fun o => ?_
      split
      next => exact (Refines.refl _).bind fun _ => ihValue.bind fun _ => ihMembers _
      next => exact Refines.refl _

/-- A reader that starts with a token takes it, and puts nothing back behind it. -/
theorem length_of_next {α : Type} {f : Token → JsonReader α} {s s' : List Token} {a : α}
    (hf : ∀ t s₁, Gives (f t) s₁ a s' → s'.length ≤ s₁.length) (h : Gives (next >>= f) s a s') :
    s'.length < s.length := by
  obtain ⟨t, s₁, ht, h⟩ := gives_bind.mp h
  rw [gives_next.mp ht, List.length_cons]
  exact Nat.lt_succ_of_le (hf t s₁ h)

theorem length_nextName {s s' : List Token} {name : String} (h : Gives nextName s name s') :
    s'.length < s.length := by
  refine length_of_next (fun t s₁ h => ?_) h
  split at h
  next => exact (gives_pure.mp h).2 ▸ Nat.le_refl _
  next => exact absurd h gives_throw

theorem length_nextText {s s' : List Token} {text : String} (h : Gives nextText s text s') :
    s'.length < s.length := by
  refine length_of_next (fun t s₁ h => ?_) h
  split at h
  next => exact (gives_pure.mp h).2 ▸ Nat.le_refl _
  next => exact (gives_pure.mp h).2 ▸ Nat.le_refl _
  next => exact absurd h gives_throw

theorem length_nextBoolean {s s' : List Token} {b : Bool} (h : Gives nextBoolean s b s') :
    s'.length < s.length := by
  refine length_of_next (fun t s₁ h => ?_) h
  split at h
  next => exact (gives_pure.mp h).2 ▸ Nat.le_refl _
  next => exact absurd h gives_throw

theorem length_nextInt {s s' : List Token} {i : Int32} (h : Gives (nextInt P) s i s') :
    s'.length < s.length := by
  obtain ⟨text, s₁, htext, h⟩ := gives_bind.mp h
  rw [(gives_ofOption.mp h).2]
  exact length_nextText htext

/-- No reader puts tokens back; one of a value takes something, or nothing at all. -/
theorem length_of_gives (n : Nat) :
    (∀ s (x : Obj R) s', Gives (readValue P n) s x s' →
      s'.length < s.length ∨ s' = s) ∧
    (∀ s (list : List (Obj R)) s', Gives (readElements P n) s list s' → s'.length ≤ s.length) ∧
    ∀ s (before map : List (String × Obj R)) s', Gives (readMembers P n before) s map s' →
      s'.length ≤ s.length := by
  induction n with
  | zero => exact ⟨fun _ _ _ => nofun, fun _ _ _ => nofun, fun _ _ _ _ => nofun⟩
  | succ n ih =>
    obtain ⟨ihValue, ihElements, ihMembers⟩ := ih
    refine ⟨fun s x s' h => ?_, fun s list s' h => ?_, fun s before map s' h => ?_⟩
    · rw [readValue] at h
      obtain ⟨o, s₁, ho, hrest⟩ := gives_bind.mp h
      obtain ⟨-, rfl⟩ := gives_peek.mp ho
      split at hrest
      next =>
        obtain ⟨list, s₂, hlist, hend⟩ := gives_bind.mp hrest
        obtain ⟨toks, rfl, hloop⟩ := of_gives_readArray hlist
        obtain ⟨-, rfl⟩ := gives_pure.mp hend
        have hle := ihElements _ _ _ hloop
        exact Or.inl (Nat.lt_succ_of_lt hle)
      next =>
        obtain ⟨map, s₂, hmap, hend⟩ := gives_bind.mp hrest
        obtain ⟨toks, rfl, hloop⟩ := of_gives_readObject hmap
        obtain ⟨-, rfl⟩ := gives_pure.mp hend
        have hle := ihMembers _ _ _ _ hloop
        exact Or.inl (Nat.lt_succ_of_lt hle)
      next =>
        obtain ⟨value, s₂, hvalue, hrest⟩ := gives_bind.mp hrest
        obtain ⟨-, rfl⟩ := gives_pure.mp hrest
        exact Or.inl (length_nextText hvalue)
      next =>
        obtain ⟨value, s₂, hvalue, hrest⟩ := gives_bind.mp hrest
        obtain ⟨-, rfl⟩ := gives_pure.mp hrest
        exact Or.inl (length_nextInt hvalue)
      next =>
        obtain ⟨value, s₂, hvalue, hrest⟩ := gives_bind.mp hrest
        obtain ⟨-, rfl⟩ := gives_pure.mp hrest
        exact Or.inl (length_nextBoolean hvalue)
      next => exact Or.inr (gives_pure.mp hrest).2
    · rw [readElements] at h
      obtain ⟨o, s₁, ho, hrest⟩ := gives_bind.mp h
      obtain ⟨-, rfl⟩ := gives_peek.mp ho
      split at hrest
      next => exact (gives_pure.mp hrest).2 ▸ Nat.le_refl _
      next => exact absurd hrest gives_throw
      next =>
        obtain ⟨x, s₂, hx, hrest⟩ := gives_bind.mp hrest
        obtain ⟨items, s₃, hitems, hrest⟩ := gives_bind.mp hrest
        obtain ⟨-, rfl⟩ := gives_pure.mp hrest
        have hle := ihElements _ _ _ hitems
        rcases ihValue _ _ _ hx with hlt | rfl
        · omega
        · exact hle
    · rw [readMembers] at h
      obtain ⟨o, s₁, ho, hrest⟩ := gives_bind.mp h
      obtain ⟨-, rfl⟩ := gives_peek.mp ho
      split at hrest
      next =>
        obtain ⟨name, s₂, hname, hrest⟩ := gives_bind.mp hrest
        obtain ⟨x, s₃, hx, hrest⟩ := gives_bind.mp hrest
        have hlt := length_nextName hname
        have hle := ihMembers _ _ _ _ hrest
        rcases ihValue _ _ _ hx with hlt' | rfl
        · omega
        · omega
      next => exact (gives_pure.mp hrest).2 ▸ Nat.le_refl _

/-- The value of a round, if the loop comes to its end, and what is left for the next round. -/
theorem round_element {n m : Nat} {t : Token} {s s' : List Token} {x : Obj R} (ht : t ≠ .endArray)
    (hx : Gives (readValue P m) (t :: s) x s')
    (hn : readElements P (n + 1) (t :: s) ≠ .error .fuel) : readElements P n s' ≠ .error .fuel := by
  rw [readElements_cons ht] at hn
  have hvalue := gives_of_gives (fun k => (refines_readers k).1) hx (terminates_of_bind hn)
  rw [bind_of_gives hvalue] at hn
  exact terminates_of_bind hn

theorem round_member {n m : Nat} {map : List (String × Obj R)} {name : String} {s s' : List Token}
    {x : Obj R} (hx : Gives (readValue P m) s x s')
    (hn : readMembers P (n + 1) map (.name name :: s) ≠ .error .fuel) :
    readMembers P n (mapPut map name x) s' ≠ .error .fuel := by
  have hmembers : readMembers P (n + 1) map (.name name :: s) =
    (readValue P n >>= fun value => readMembers P n (mapPut map name value)) s := rfl
  rw [hmembers] at hn
  have hvalue := gives_of_gives (fun k => (refines_readers k).1) hx (terminates_of_bind hn)
  rwa [bind_of_gives hvalue] at hn

theorem terminates_round {a b : ReadLoop R × List Token} (hround : ReadRound P a b)
    (hterm : ReadLoop.Terminates P a) : ReadLoop.Terminates P b := by
  cases hround with
  | element ht hx =>
    obtain ⟨n, hn⟩ := hterm
    cases n with
    | zero => exact absurd rfl hn
    | succ n => exact ⟨n, round_element ht hx hn⟩
  | member hx =>
    obtain ⟨n, hn⟩ := hterm
    cases n with
    | zero => exact absurd rfl hn
    | succ n => exact ⟨n, round_member hx hn⟩

/-- A round of a loop that comes to its end takes a token: else all that follow were the same. -/
theorem round_consumes {a b : ReadLoop R × List Token} (hround : ReadRound P a b)
    (hterm : ReadLoop.Terminates P a) : b.2.length < a.2.length := by
  cases hround with
  | @element m t s s' x ht hx =>
    rcases (length_of_gives m).1 _ _ _ hx with hlt | rfl
    · exact hlt
    · obtain ⟨n, hn⟩ := hterm
      exfalso
      induction n with
      | zero => exact hn rfl
      | succ n ih => exact ih (round_element ht hx hn)
  | @member m map name s s' x hx =>
    rcases (length_of_gives m).1 _ _ _ hx with hlt | rfl
    · exact Nat.lt_succ_of_lt hlt
    · exact Nat.lt_succ_self _

/-- What is read inside of a value that is read to its end is read to its end. -/
theorem terminates_inside {t : Token} {s : List Token} {l : ReadLoop R} {n : Nat}
    (hl : ReadLoop.inside t = some l) (hn : readValue P n (t :: s) ≠ .error .fuel) :
    ReadLoop.Terminates P (l, s) := by
  cases n with
  | zero => exact absurd rfl hn
  | succ n =>
    unfold ReadLoop.inside at hl
    split at hl
    next =>
      obtain rfl := Option.some.inj hl
      have hread : (readArray (readElements P n)) (.beginArray :: s) ≠ .error .fuel :=
        terminates_of_bind (f := fun list => pure (Obj.list list)) hn
      rw [readArray, bind_of_gives (Gives.expect _ _)] at hread
      exact ⟨n, terminates_of_bind hread⟩
    next =>
      obtain rfl := Option.some.inj hl
      have hread : (readObject (readMembers P n [])) (.beginObject :: s) ≠ .error .fuel :=
        terminates_of_bind (f := fun map => pure (Obj.map map)) hn
      rw [readObject, bind_of_gives (Gives.expect _ _)] at hread
      exact ⟨n, terminates_of_bind hread⟩
    next => cases hl

theorem terminates_enters {a b : ReadLoop R × List Token} (henters : EntersLoop a b)
    (hterm : ReadLoop.Terminates P a) : ReadLoop.Terminates P b := by
  cases henters with
  | @element t s l hl =>
    obtain ⟨n, hn⟩ := hterm
    cases n with
    | zero => exact absurd rfl hn
    | succ n =>
      have ht : t ≠ .endArray := by
        intro heq
        subst heq
        cases hl
      rw [readElements_cons ht] at hn
      exact terminates_inside hl (terminates_of_bind hn)
  | @member map name t s l hl =>
    obtain ⟨n, hn⟩ := hterm
    cases n with
    | zero => exact absurd rfl hn
    | succ n =>
      have hvalue : (readValue P n >>= fun value => readMembers P n (mapPut map name value))
        (t :: s) ≠ .error .fuel := hn
      exact terminates_inside hl (terminates_of_bind hvalue)

/-- In a loop that comes to its end every round takes a token, and in those inside. -/
theorem roundsConsume_of_terminates {start : ReadLoop R × List Token}
    (hterm : ReadLoop.Terminates P start) : RoundsConsume P start := by
  intro a b hreached hround
  refine round_consumes hround ?_
  clear hround
  induction hreached with
  | refl => exact hterm
  | tail _ hnext ih =>
    rcases hnext with hnext | hnext
    · exact terminates_round hnext ih
    · exact terminates_enters hnext ih

end Rounds

/-! ## Both adapters -/

/-- `MapTypeAdapter.read` comes to an end, and every round of a loop takes a token or leaves it. -/
def MapEnds (s : List Token) : Prop :=
  Terminates (readMap P) s ∧ ∀ s', s = .beginObject :: s' → RoundsConsume P (.members [], s')

/-- The same of `ListTypeAdapter.read`. -/
def ListEnds (s : List Token) : Prop :=
  Terminates (readList P) s ∧ ∀ s', s = .beginArray :: s' → RoundsConsume P (.elements, s')

section Adapters

open Json

variable {P}

theorem mapEnds_iff (s : List Token) : MapEnds P s ↔ Terminates (readMap P) s := by
  refine ⟨And.left, fun hterm => ⟨hterm, fun s' hs => roundsConsume_of_terminates ?_⟩⟩
  obtain ⟨n, hn⟩ := hterm
  rw [hs, readMap, readObject, bind_of_gives (Gives.expect _ _)] at hn
  exact ⟨n, terminates_of_bind hn⟩

theorem listEnds_iff (s : List Token) : ListEnds P s ↔ Terminates (readList P) s := by
  refine ⟨And.left, fun hterm => ⟨hterm, fun s' hs => roundsConsume_of_terminates ?_⟩⟩
  obtain ⟨n, hn⟩ := hterm
  rw [hs, readList, readArray, bind_of_gives (Gives.expect _ _)] at hn
  exact ⟨n, terminates_of_bind hn⟩

theorem does_readMap (document : Json) :
    Does ((mapObstacle P document).map Obstacle.stop) (readMap P) document.tokens [] := by
  cases document with
  | object members =>
    have hobject := does_readObject (does_members (P := P) members [] [])
    rwa [List.append_nil] at hobject
  | _ => exact Does.of_throws fun _ => rfl

theorem does_readList (document : Json) :
    Does ((listObstacle P document).map Obstacle.stop) (readList P) document.tokens [] := by
  cases document with
  | array items =>
    have harray := does_readArray (does_items (P := P) items [])
    rwa [List.append_nil] at harray
  | _ => exact Does.of_throws fun _ => rfl

theorem stop_ne_fuel_iff (o : Option Obstacle) :
    o.map Obstacle.stop ≠ some .fuel ↔ o ≠ some .nullElement := by
  cases o with
  | none => exact iff_of_true nofun nofun
  | some o => cases o <;> simp [Obstacle.stop]

/-- A document is read to its end exactly if the first thing in it that cannot be read, if
there is one, is not a null in an array. -/
theorem read_terminates_iff (document : Json) :
    (MapEnds P document.tokens ↔ mapObstacle P document ≠ some .nullElement) ∧
    (ListEnds P document.tokens ↔ listObstacle P document ≠ some .nullElement) := by
  rw [mapEnds_iff, listEnds_iff, (does_readMap document).terminates_iff,
    (does_readList document).terminates_iff]
  exact ⟨stop_ne_fuel_iff _, stop_ne_fuel_iff _⟩

/-- The object with the member `a`, which is the array of a null, and the array itself. -/
theorem read_terminates_counterexample :
    ¬ MapEnds smallPlatform (Json.object [("a", .array [.null])]).tokens ∧
      ¬ ListEnds smallPlatform (Json.array [.null]).tokens := by
  refine ⟨fun h => ?_, fun h => ?_⟩
  · exact ((does_readMap _).terminates_iff.mp h.1) rfl
  · exact ((does_readList _).terminates_iff.mp h.1) rfl

end Adapters

end ConfProfile
