import ConfProfile.Format.Plist

/-!
# Remediation instructions (`RemediationInstruction.fromXml`)

The instructions come as an XML document. `fromXml` goes through it with a pull parser: a loop over
the tags inside of an element, which calls the loop of the next level, reads a text or skips what it
does not know. An exception ends the reading, and the instructions that are complete by then are
what is returned.

`instructionsOf` says what that is on the tree of a document, and `fromXml_document` that the loops
compute it: an instruction with a tag inside of a title, a description, a header or an item is where
the list ends, and whatever else is in the tree is passed over.
-/

namespace ConfProfile.Imc

open Tokens

/-- `RemediationInstruction`. -/
structure RemediationInstruction where
  mTitle : Option String := none
  mDescription : Option String := none
  mHeader : Option String := none
  mItems : List String := []
  deriving DecidableEq

/-- `XmlPullParser.nextText`, on a start tag. -/
def nextText : XmlPullParser String := do
  match ← nextEvent with
  | .text s => do
    match ← nextEvent with
    | .endTag _ => pure s
    | .startDocument | .startTag _ | .text _ | .endDocument => throw .thrown
  | .endTag _ => pure ""
  | .startDocument | .startTag _ | .endDocument => throw .thrown

/-- The loop of `skipTag`. -/
def skipDepth : Nat → Nat → XmlPullParser Unit
  | _, 0 => pure ()
  | 0, _ + 1 => throw .fuel
  | n + 1, depth + 1 => do
    match ← nextEvent with
    | .endTag _ => skipDepth n depth
    | .startTag _ => skipDepth n (depth + 2)
    | .startDocument | .text _ | .endDocument => skipDepth n (depth + 1)

/-- `skipTag`, on a start tag. -/
def skipTag (n : Nat) : XmlPullParser Unit := skipDepth n 1

/-- The loop over the tags inside of an element, of `readItems` and `readInstruction`. -/
def eachTag {σ : Type} (body : Nat → String → σ → XmlPullParser σ) : Nat → σ → XmlPullParser σ
  | 0, _ => throw .fuel
  | n + 1, st => do
    match ← nextEvent with
    | .endTag _ => pure st
    | .startTag name => do
      let st ← body n name st
      eachTag body n st
    | .startDocument | .text _ | .endDocument => eachTag body n st

/-- The tags of `readItems`. -/
def readItem (n : Nat) (name : String) (instruction : RemediationInstruction) :
    XmlPullParser RemediationInstruction := do
  if name = "item" then
    let item ← nextText
    pure { instruction with mItems := instruction.mItems ++ [item] }
  else
    skipTag n
    pure instruction

def readItems (n : Nat) (instruction : RemediationInstruction) :
    XmlPullParser RemediationInstruction := eachTag readItem n instruction

/-- The tags of `readInstruction`. -/
def readPart (n : Nat) (name : String) (instruction : RemediationInstruction) :
    XmlPullParser RemediationInstruction := do
  if name = "title" then
    let title ← nextText
    pure { instruction with mTitle := some title }
  else if name = "description" then
    let description ← nextText
    pure { instruction with mDescription := some description }
  else if name = "itemsheader" then
    let header ← nextText
    pure { instruction with mHeader := some header }
  else if name = "items" then
    readItems n instruction
  else
    skipTag n
    pure instruction

def readInstruction (n : Nat) (instruction : RemediationInstruction) :
    XmlPullParser RemediationInstruction := do
  require (.startTag "instruction")
  eachTag readPart n instruction

/-- The loop of `readInstructions`. The list is the caller's: an exception leaves it as it is. -/
def readInstructions : Nat → List RemediationInstruction → List XmlEvent →
    List RemediationInstruction
  | 0, instructions, _ => instructions
  | n + 1, instructions, s =>
    match nextEvent s with
    | .error _ => instructions
    | .ok (.endTag _, _) => instructions
    | .ok (.startTag name, s) =>
      if name = "instruction" then
        match readInstruction n {} s with
        | .error _ => instructions
        | .ok (instruction, s) => readInstructions n (instructions ++ [instruction]) s
      else
        match skipTag n s with
        | .error _ => instructions
        | .ok (_, s) => readInstructions n instructions s
    | .ok (.startDocument, s) => readInstructions n instructions s
    | .ok (.text _, s) => readInstructions n instructions s
    | .ok (.endDocument, s) => readInstructions n instructions s

/-- `fromXml`, of what the parser reports. -/
def fromXml (events : List XmlEvent) : List RemediationInstruction :=
  let root : XmlPullParser Unit := do
    let _ ← nextTag
    require (.startTag "remediationinstructions")
  match root events with
  | .error _ => []
  | .ok (_, s) => readInstructions events.length [] s

/-! ## Documents -/

/-- What is inside of an element. -/
inductive Node where
  | text (s : String)
  | element (name : String) (children : List Node)

mutual

/-- What the parser reports of it. -/
def Node.events : Node → List XmlEvent
  | .text s => [.text s]
  | .element name children => .startTag name :: (eventsOf children ++ [.endTag name])

def eventsOf : List Node → List XmlEvent
  | [] => []
  | node :: nodes => node.events ++ eventsOf nodes

end

/-- The text of an element without tags. -/
def textOf : List Node → Option String
  | [] => some ""
  | [.text s] => some s
  | _ => none

/-- Going through what is inside of an element, with `f` for the tags. -/
def through {σ : Type} (f : String → List Node → σ → Option σ) : List Node → σ → Option σ
  | [], st => some st
  | .text _ :: nodes, st => through f nodes st
  | .element name children :: nodes, st => (f name children st).bind (through f nodes)

/-- What a tag adds to the items. -/
def itemOf (name : String) (children : List Node) (i : RemediationInstruction) :
    Option RemediationInstruction :=
  if name = "item" then (textOf children).map fun s => { i with mItems := i.mItems ++ [s] }
  else some i

/-- What a tag adds to an instruction. -/
def partOf (name : String) (children : List Node) (i : RemediationInstruction) :
    Option RemediationInstruction :=
  if name = "title" then (textOf children).map fun s => { i with mTitle := some s }
  else if name = "description" then (textOf children).map fun s => { i with mDescription := some s }
  else if name = "itemsheader" then (textOf children).map fun s => { i with mHeader := some s }
  else if name = "items" then through itemOf children i
  else some i

/-- The instructions up to the first one that cannot be read. -/
def instructionsOf : List Node → List RemediationInstruction
  | [] => []
  | .text _ :: nodes => instructionsOf nodes
  | .element name children :: nodes =>
    if name = "instruction" then
      match through partOf children {} with
      | none => []
      | some i => i :: instructionsOf nodes
    else instructionsOf nodes

/-- What a reader makes of an element that it reads as `o`: the cursor gets to its end tag. -/
def atEnd {α : Type} (o : Option α) (name : String) (rest : List XmlEvent) :
    Except Stop (α × List XmlEvent) :=
  match o with
  | some a => .ok (a, .endTag name :: rest)
  | none => .error .thrown

/-! ## The readers on a tree -/

section Readers

variable {c e : XmlEvent} {name : String} {rest s : List XmlEvent}

theorem nextText_events (children : List Node) :
    nextText (.startTag name :: (eventsOf children ++ .endTag name :: rest)) =
      atEnd (textOf children) name rest := by
  rw [nextText]
  match children with
  | [] =>
    rw [eventsOf, List.nil_append, bind_of_gives gives_nextEvent]
    rfl
  | [.text t] =>
    rw [eventsOf, eventsOf, Node.events, List.append_nil, List.cons_append, List.nil_append,
      bind_of_gives gives_nextEvent]
    dsimp only
    rw [bind_of_gives gives_nextEvent]
    rfl
  | .text t :: .text t' :: nodes =>
    rw [eventsOf, Node.events, eventsOf, Node.events, List.cons_append, List.cons_append,
      bind_of_gives gives_nextEvent]
    dsimp only
    rw [List.nil_append, List.cons_append, List.cons_append, bind_of_gives gives_nextEvent]
    rfl
  | .text t :: .element tag inside :: nodes =>
    rw [eventsOf, Node.events, eventsOf, Node.events, List.cons_append, List.cons_append,
      bind_of_gives gives_nextEvent]
    dsimp only
    rw [List.nil_append, List.cons_append, List.cons_append, bind_of_gives gives_nextEvent]
    rfl
  | .element tag inside :: nodes =>
    rw [eventsOf, Node.events, List.cons_append, List.cons_append, bind_of_gives gives_nextEvent]
    rfl

theorem skipDepth_endTag (n depth : Nat) :
    skipDepth (n + 1) (depth + 1) (c :: .endTag name :: s) =
      skipDepth n depth (.endTag name :: s) := by
  rw [skipDepth, bind_of_gives gives_nextEvent]

theorem skipDepth_startTag (n depth : Nat) :
    skipDepth (n + 1) (depth + 1) (c :: .startTag name :: s) =
      skipDepth n (depth + 2) (.startTag name :: s) := by
  rw [skipDepth, bind_of_gives gives_nextEvent]

theorem skipDepth_text (n depth : Nat) {t : String} :
    skipDepth (n + 1) (depth + 1) (c :: .text t :: s) = skipDepth n (depth + 1) (.text t :: s) := by
  rw [skipDepth, bind_of_gives gives_nextEvent]

mutual

/-- Whatever is inside of an element is passed over, at the depth it has. -/
theorem skipDepth_node : ∀ (node : Node) (n depth : Nat) (c : XmlEvent) (rest : List XmlEvent),
    ∃ c', skipDepth (n + node.events.length) (depth + 1) (c :: (node.events ++ rest)) =
      skipDepth n (depth + 1) (c' :: rest)
  | .text t, n, depth, c, rest => ⟨.text t, skipDepth_text n depth⟩
  | .element tag children, n, depth, c, rest => by
    obtain ⟨c', hinside⟩ :=
      skipDepth_eventsOf children (n + 1) (depth + 1) (.startTag tag) (.endTag tag :: rest)
    refine ⟨.endTag tag, ?_⟩
    have hlen : n + (Node.element tag children).events.length =
        n + 1 + (eventsOf children).length + 1 := by
      rw [Node.events, List.length_cons, List.length_append, List.length_singleton]
      omega
    rw [hlen, Node.events, List.cons_append, List.append_assoc, skipDepth_startTag,
      List.singleton_append, hinside, skipDepth_endTag]

theorem skipDepth_eventsOf : ∀ (nodes : List Node) (n depth : Nat) (c : XmlEvent)
    (rest : List XmlEvent), ∃ c', skipDepth (n + (eventsOf nodes).length) (depth + 1)
      (c :: (eventsOf nodes ++ rest)) = skipDepth n (depth + 1) (c' :: rest)
  | [], n, depth, c, rest => ⟨c, rfl⟩
  | node :: nodes, n, depth, c, rest => by
    obtain ⟨c₁, hnode⟩ :=
      skipDepth_node node (n + (eventsOf nodes).length) depth c (eventsOf nodes ++ rest)
    obtain ⟨c₂, hnodes⟩ := skipDepth_eventsOf nodes n depth c₁ rest
    refine ⟨c₂, ?_⟩
    have hlen : n + (eventsOf (node :: nodes)).length =
        n + (eventsOf nodes).length + node.events.length := by
      rw [eventsOf, List.length_append]
      omega
    rw [hlen, eventsOf, List.append_assoc, hnode, hnodes]

end

/-- `skipTag` stops at the end tag of its element. -/
theorem skipTag_events {n : Nat} (children : List Node) (h : (eventsOf children).length < n) :
    skipTag n (.startTag name :: (eventsOf children ++ .endTag name :: rest)) =
      .ok ((), .endTag name :: rest) := by
  obtain ⟨m, rfl⟩ : ∃ m, n = m + 1 + (eventsOf children).length :=
    ⟨n - 1 - (eventsOf children).length, by omega⟩
  obtain ⟨c', hinside⟩ :=
    skipDepth_eventsOf children (m + 1) 0 (.startTag name) (.endTag name :: rest)
  rw [skipTag, hinside, skipDepth_endTag]
  cases m with
  | zero => rfl
  | succ m => rfl

/-- The reader `body` makes of a tag what `f` says, and gets to its end. -/
def Reads {σ : Type} (body : Nat → String → σ → XmlPullParser σ)
    (f : String → List Node → σ → Option σ) : Prop :=
  ∀ (n : Nat) (name : String) (children : List Node) (st : σ) (rest : List XmlEvent),
    (eventsOf children).length < n →
    body n name st (.startTag name :: (eventsOf children ++ .endTag name :: rest)) =
      atEnd (f name children st) name rest

/-- So the loop over the tags makes of an element what going through it does. -/
theorem eachTag_events {σ : Type} {body : Nat → String → σ → XmlPullParser σ}
    {f : String → List Node → σ → Option σ} (hbody : Reads body f) (nodes : List Node) :
    ∀ {n : Nat} {st : σ} {c : XmlEvent}, (eventsOf nodes).length < n →
      eachTag body n st (c :: (eventsOf nodes ++ .endTag name :: rest)) =
        atEnd (through f nodes st) name rest := by
  induction nodes with
  | nil =>
    intro n st c h
    obtain ⟨n, rfl⟩ := Nat.exists_eq_add_of_lt h
    rw [eventsOf, List.nil_append, eachTag, bind_of_gives gives_nextEvent]
    rfl
  | cons node nodes ih =>
    intro n st c h
    obtain ⟨n, rfl⟩ : ∃ m, n = m + 1 := ⟨n - 1, by omega⟩
    rw [eventsOf, List.length_append] at h
    cases node with
    | text t =>
      rw [Node.events, List.length_singleton] at h
      rw [eventsOf, Node.events, List.singleton_append, List.cons_append, eachTag,
        bind_of_gives gives_nextEvent, through]
      exact ih (by omega)
    | element tag children =>
      rw [Node.events, List.length_cons, List.length_append, List.length_singleton] at h
      have htag := hbody n tag children st (eventsOf nodes ++ .endTag name :: rest) (by omega)
      rw [eventsOf, Node.events, List.cons_append, List.append_assoc, List.cons_append,
        List.append_assoc, List.singleton_append, List.cons_append, eachTag,
        bind_of_gives gives_nextEvent, through]
      dsimp only
      cases hf : f tag children st with
      | none =>
        rw [hf] at htag
        exact bind_of_error htag
      | some st' =>
        rw [hf] at htag
        rw [bind_of_gives htag]
        exact ih (by omega)

theorem require_of_ne (h : c ≠ e) : require e (c :: s) = .error .thrown := by
  have hcurrent : Gives currentEvent (c :: s) c (c :: s) := gives_currentEvent
  rw [require, bind_of_gives hcurrent, if_neg h]
  rfl

/-- A text, and what is done with it. -/
theorem bind_nextText {σ : Type} (g : String → σ) (children : List Node) :
    (nextText >>= fun t => pure (g t) : XmlPullParser σ)
        (.startTag name :: (eventsOf children ++ .endTag name :: rest)) =
      atEnd ((textOf children).map g) name rest := by
  have htext := @nextText_events name rest children
  cases ht : textOf children with
  | none =>
    rw [ht] at htext
    exact bind_of_error htext
  | some t =>
    rw [ht] at htext
    exact bind_of_gives htext

/-- A tag that is skipped. -/
theorem bind_skipTag {σ : Type} {n : Nat} {children : List Node}
    (h : (eventsOf children).length < n) (st : σ) :
    (skipTag n >>= fun _ => pure st : XmlPullParser σ)
        (.startTag name :: (eventsOf children ++ .endTag name :: rest)) =
      atEnd (some st) name rest :=
  bind_of_gives (skipTag_events children h)

theorem readItem_reads : Reads readItem itemOf := by
  intro n name children i rest h
  unfold readItem itemOf
  split
  next => exact bind_nextText _ children
  next => exact bind_skipTag h i

theorem readPart_reads : Reads readPart partOf := by
  intro n name children i rest h
  unfold readPart partOf
  split
  next => exact bind_nextText _ children
  next =>
  split
  next => exact bind_nextText _ children
  next =>
  split
  next => exact bind_nextText _ children
  next =>
  split
  next => exact eachTag_events readItem_reads children h
  next => exact bind_skipTag h i

theorem readInstruction_events {n : Nat} {children : List Node} (i : RemediationInstruction)
    (h : (eventsOf children).length < n) :
    readInstruction n i (.startTag "instruction" ::
        (eventsOf children ++ .endTag "instruction" :: rest)) =
      atEnd (through partOf children i) "instruction" rest := by
  rw [readInstruction, bind_of_gives gives_require]
  exact eachTag_events readPart_reads children h

/-- The instructions that are complete before the first one that cannot be read. -/
theorem readInstructions_events (nodes : List Node) :
    ∀ {n : Nat} {instructions : List RemediationInstruction} {c : XmlEvent},
      (eventsOf nodes).length < n →
      readInstructions n instructions (c :: (eventsOf nodes ++ .endTag name :: rest)) =
        instructions ++ instructionsOf nodes := by
  induction nodes with
  | nil =>
    intro n instructions c h
    obtain ⟨n, rfl⟩ := Nat.exists_eq_add_of_lt h
    rw [instructionsOf, List.append_nil]
    rfl
  | cons node nodes ih =>
    intro n instructions c h
    obtain ⟨n, rfl⟩ : ∃ m, n = m + 1 := ⟨n - 1, by omega⟩
    rw [eventsOf, List.length_append] at h
    cases node with
    | text t =>
      rw [Node.events, List.length_singleton] at h
      exact ih (by omega)
    | element tag children =>
      rw [Node.events, List.length_cons, List.length_append, List.length_singleton] at h
      have hnext : nextEvent (c :: (eventsOf (.element tag children :: nodes) ++
          .endTag name :: rest)) = .ok (.startTag tag, .startTag tag ::
            (eventsOf children ++ .endTag tag :: (eventsOf nodes ++ .endTag name :: rest))) := by
        rw [eventsOf, Node.events, List.cons_append, List.append_assoc, List.cons_append,
          List.append_assoc, List.singleton_append, List.cons_append]
        exact gives_nextEvent
      rw [readInstructions, hnext, instructionsOf]
      dsimp only
      split
      next htag =>
        subst htag
        rw [readInstruction_events {} (by omega)]
        cases through partOf children {} with
        | none => exact (List.append_nil _).symm
        | some i =>
          refine (ih (by omega)).trans ?_
          rw [List.append_assoc, List.singleton_append]
      next =>
        rw [skipTag_events children (by omega)]
        exact ih (by omega)

/-- On every document the loops of the pull parser return what the tree of the document says: the
instructions in its root, if that is what the root has to be, up to the first one that cannot be
read. -/
theorem fromXml_document (root : String) (children : List Node) :
    fromXml (.startDocument :: ((Node.element root children).events ++ [.endDocument])) =
      if root = "remediationinstructions" then instructionsOf children else [] := by
  have hstream : (.startDocument :: ((Node.element root children).events ++ [.endDocument]) :
      List XmlEvent) = .startDocument :: .startTag root ::
        (eventsOf children ++ .endTag root :: [.endDocument]) := by
    rw [Node.events, List.cons_append, List.append_assoc, List.singleton_append]
  have htag : Gives nextTag (.startDocument :: .startTag root ::
      (eventsOf children ++ .endTag root :: [.endDocument])) (.startTag root) (.startTag root ::
        (eventsOf children ++ .endTag root :: [.endDocument])) := gives_nextTag (.inl rfl)
  rw [hstream, fromXml, bind_of_gives htag]
  by_cases hroot : root = "remediationinstructions"
  · subst hroot
    rw [gives_require, if_pos rfl]
    refine (readInstructions_events children ?_).trans (List.nil_append _)
    simp only [List.length_cons, List.length_append]
    omega
  · rw [require_of_ne fun h => hroot (XmlEvent.startTag.inj h), if_neg hroot]

/-- A second instruction with a tag in its title ends the list. -/
example : fromXml (.startDocument :: ((Node.element "remediationinstructions"
    [.element "instruction" [.element "title" [.text "Update"], .element "b" []],
      .element "instruction" [.element "title" [.element "b" [.text "No"]]],
      .element "instruction" []]).events ++ [.endDocument])) =
    [{ mTitle := some "Update" }] := by decide +kernel

end Readers

end ConfProfile.Imc
