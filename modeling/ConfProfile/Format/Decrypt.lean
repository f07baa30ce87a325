import Mathlib.Data.List.TakeWhile
import ConfProfile.Format.Profile

/-!
# Decrypting a profile (`ConfigurationProfile.decryptPayloadContent`)

Each recipient of the envelope is tried, and what it decrypts is put into the property
list and its payloads are appended before the next one is tried. Nothing is taken back
where a later step throws, and nothing is removed before the payloads of a second
recipient are appended: `decryptPayloadContent_iff` says when neither of them shows.

What the CMS library does with the key is an input: `none` for an envelope that cannot be
read, and for each recipient a property list or an exception.
-/

namespace ConfProfile

open Tokens

variable {R : Type}

/-! ## The object -/

/-- A `ConfigurationProfile` object. -/
structure ProfileState (R : Type) where
  plist : List (String × Obj R)
  typed : (Obj.dictionary plist).Typed
  payloads : List (Payload R)
  isPayloadContentEncrypted : Bool

/-- `Dictionary.getData`. -/
def getData (map : List (String × Obj R)) (key : String) : Option (List (BitVec 8)) :=
  match map.lookup key with
  | some (.data bytes) => some bytes
  | _ => none

/-- The object that the constructor makes. -/
def ConfigurationProfile.state (profile : ConfigurationProfile R) : ProfileState R :=
  ⟨profile.plist, profile.typed, profile.payloads,
    (getData profile.plist "EncryptedPayloadContent").isSome⟩

/-- What is wrapped by a `Plist` that was parsed. -/
structure Content (R : Type) where
  value : Obj R
  typed : value.Typed

/-- What comes of a recipient: an exception, of the library or of the parser, or a content. -/
inductive Recipient (R : Type) where
  | fails
  | content (x : Content R)

/-! ## Putting a content -/

theorem nodup_mapPut {map : List (String × Obj R)} (h : (map.map Prod.fst).Nodup) (key : String)
    (x : Obj R) : ((mapPut map key x).map Prod.fst).Nodup := by
  unfold mapPut
  split
  next hmem =>
    have hkeys : (map.map fun e => if e.1 = key then (key, x) else e).map Prod.fst =
        map.map Prod.fst := by
      rw [List.map_map]
      refine List.map_congr_left fun e _ => ?_
      by_cases he : e.1 = key <;> simp [he]
    rw [hkeys]
    exact h
  next hnot =>
    rw [List.map_append, List.nodup_append]
    refine ⟨h, by simp, fun k hk k' hk' heq => hnot ?_⟩
    rw [List.map_singleton, List.mem_singleton] at hk'
    rw [heq, hk'] at hk
    exact hk

theorem typed_mapPut {map : List (String × Obj R)} (h : (Obj.dictionary map).Typed) (key : String)
    {x : Obj R} (hx : x.Typed) : (Obj.dictionary (mapPut map key x)).Typed := by
  refine ⟨nodup_mapPut h.1 key x, Obj.typedEntries_iff.mpr fun e he => ?_⟩
  have hlookup := (lookup_eq_some (nodup_mapPut h.1 key x)).mpr he
  rw [lookup_mapPut] at hlookup
  split at hlookup
  · cases hlookup
    exact hx
  · exact Obj.typedEntries_iff.mp h.2 _ (mem_of_lookup hlookup)

/-- `mPlist.put(KEY_PAYLOAD_CONTENT, encryptedPlist.get())`. -/
def ProfileState.put (s : ProfileState R) (x : Content R) : ProfileState R :=
  { s with
    plist := mapPut s.plist "PayloadContent" x.value
    typed := typed_mapPut s.typed "PayloadContent" x.typed }

/-- The dictionaries among the elements of a content. -/
def contentDicts : Obj R → List (List (String × Obj R))
  | .array list => dictionariesOf list
  | _ => []

theorem payloadDicts_put (s : ProfileState R) (x : Content R) :
    payloadDicts (s.put x).plist = contentDicts x.value := by
  unfold payloadDicts getArray
  rw [ProfileState.put, lookup_mapPut, if_pos rfl]
  obtain ⟨x, hx⟩ := x
  cases x <;> rfl

/-! ## The loops -/

theorem typed_head {dict : List (String × Obj R)} {dicts : List (List (String × Obj R))}
    (htyped : ∀ dict' ∈ dict :: dicts, (Obj.dictionary dict').Typed) :
    (Obj.dictionary dict).Typed :=
  htyped dict List.mem_cons_self

theorem typed_tail {dict : List (String × Obj R)} {dicts : List (List (String × Obj R))}
    (htyped : ∀ dict' ∈ dict :: dicts, (Obj.dictionary dict').Typed) :
    ∀ dict' ∈ dicts, (Obj.dictionary dict').Typed :=
  fun dict' hdict => htyped dict' (List.mem_cons_of_mem dict hdict)

/-- The loop of `parsePayloadContent`: the payloads before the first one that is refused, and
whether there is none. -/
def createUntil : (dicts : List (List (String × Obj R))) →
    (∀ dict ∈ dicts, (Obj.dictionary dict).Typed) → List (Payload R) × Bool
  | [], _ => ([], true)
  | dict :: dicts, htyped =>
    match createPayload dict (typed_head htyped) with
    | .error _ => ([], false)
    | .ok payload =>
      let rest := createUntil dicts (typed_tail htyped)
      (payload :: rest.1, rest.2)

/-- `parsePayloadContent`; `false` is an exception. -/
def ProfileState.parsePayloadContent (s : ProfileState R) : ProfileState R × Bool :=
  let created := createUntil (payloadDicts s.plist) (typed_payloadDicts s.typed)
  ({ s with payloads := s.payloads ++ created.1 }, created.2)

/-- The loop of `decryptPayloadContent`, with what is returned behind it. -/
def decryptRecipients : List (Recipient R) → ProfileState R → ProfileState R × Bool
  | [], s => ({ s with isPayloadContentEncrypted := false }, true)
  | .fails :: _, s => (s, false)
  | .content x :: recipients, s =>
    let parsed := (s.put x).parsePayloadContent
    if parsed.2 then decryptRecipients recipients parsed.1 else (parsed.1, false)

/-- `decryptPayloadContent`. -/
def decryptPayloadContent (envelope : Option (List (Recipient R))) (s : ProfileState R) :
    ProfileState R × Bool :=
  if !s.isPayloadContentEncrypted then (s, true)
  else match envelope with
    | none => (s, false)
    | some recipients => decryptRecipients recipients s

/-! ## One pass -/

/-- The constructor of the payload takes the dictionary. -/
def accepts (dict : List (String × Obj R)) : Bool := (checkCreate dict).isOk

theorem checkCreate_of_accepts {dict : List (String × Obj R)} (h : accepts dict = true) :
    checkCreate dict = .ok () := by
  unfold accepts at h
  cases hcheck : checkCreate dict with
  | error e => rw [hcheck] at h; cases h
  | ok u => rfl

/-- What is created is what is accepted up to the first dictionary that is not. -/
theorem createUntil_eq {dicts : List (List (String × Obj R))}
    (htyped : ∀ dict ∈ dicts, (Obj.dictionary dict).Typed) :
    (createUntil dicts htyped).1.map Payload.dict = dicts.takeWhile accepts ∧
      (createUntil dicts htyped).2 = dicts.all accepts := by
  induction dicts with
  | nil => exact ⟨rfl, rfl⟩
  | cons dict dicts ih =>
    obtain ⟨hrest, hall⟩ := ih (typed_tail htyped)
    rw [createUntil, List.takeWhile_cons, List.all_cons]
    cases hcreate : createPayload dict (typed_head htyped) with
    | error e =>
      have haccepts : accepts dict = false := by
        by_contra h
        have hcheck := checkCreate_of_accepts (Bool.not_eq_false _ ▸ h)
        have hok : createPayload dict (typed_head htyped) =
            .ok ⟨dict, typed_head htyped, hcheck⟩ := createPayload_eq_ok.mpr rfl
        rw [hcreate] at hok
        cases hok
      rw [haccepts]
      exact ⟨rfl, rfl⟩
    | ok payload =>
      have hdict := createPayload_eq_ok.mp hcreate
      have haccepts : accepts dict = true := by
        rw [accepts, ← hdict, payload.accepted]
        rfl
      rw [haccepts, if_pos rfl, List.map_cons, hdict, hrest, hall]
      exact ⟨rfl, rfl⟩

/-- The object that the constructor makes is what parsing gives from an empty list. -/
theorem ConfigurationProfile.parsePayloadContent_state (profile : ConfigurationProfile R) :
    ({ profile.state with payloads := [] }).parsePayloadContent = (profile.state, true) := by
  obtain ⟨hdicts, hall⟩ := createUntil_eq (typed_payloadDicts profile.typed)
  have haccepts : (payloadDicts profile.plist).all accepts = true := by
    rw [← profile.content, List.all_map, List.all_eq_true]
    intro payload _
    rw [Function.comp_apply, accepts, payload.accepted]
    rfl
  have hinj : Function.Injective (Payload.dict (R := R)) := by
    intro p q h
    cases p
    cases q
    cases h
    rfl
  rw [List.takeWhile_eq_self_iff.mpr (List.all_eq_true.mp haccepts)] at hdicts
  have hpayloads := List.map_injective_iff.mpr hinj (hdicts.trans profile.content.symm)
  rw [haccepts] at hall
  unfold ProfileState.parsePayloadContent
  simp only [state, hpayloads, hall, List.nil_append]

/-- The dictionaries of a content are all accepted. -/
def Content.accepted (x : Content R) : Bool := (contentDicts x.value).all accepts

/-- One recipient: a content is put, and payloads are appended up to the first refused one. -/
theorem parsePayloadContent_put (s : ProfileState R) (x : Content R) :
    ((s.put x).parsePayloadContent).2 = x.accepted ∧
      ((s.put x).parsePayloadContent).1.plist = mapPut s.plist "PayloadContent" x.value ∧
      ∃ payloads, ((s.put x).parsePayloadContent).1.payloads = s.payloads ++ payloads ∧
        payloads.map Payload.dict = (contentDicts x.value).takeWhile accepts := by
  obtain ⟨hdicts, hall⟩ := createUntil_eq (typed_payloadDicts (s.put x).typed)
  refine ⟨hall.trans ?_, rfl, _, rfl, hdicts.trans ?_⟩
  · rw [payloadDicts_put]
    rfl
  · rw [payloadDicts_put]

/-! ## All passes -/

/-- No recipient fails and all dictionaries are accepted. -/
def allAccepted : List (Recipient R) → Bool
  | [] => true
  | .fails :: _ => false
  | .content x :: recipients => x.accepted && allAccepted recipients

/-- The dictionaries whose payloads are appended. -/
def appended : List (Recipient R) → List (List (String × Obj R))
  | [] => []
  | .fails :: _ => []
  | .content x :: recipients =>
    if x.accepted then contentDicts x.value ++ appended recipients
    else (contentDicts x.value).takeWhile accepts

/-- The content that is put last. -/
def lastPut : List (Recipient R) → Option (Content R)
  | [] => none
  | .fails :: _ => none
  | .content x :: recipients => some (if x.accepted then (lastPut recipients).getD x else x)

theorem takeWhile_accepted {x : Content R} (h : x.accepted = true) :
    (contentDicts x.value).takeWhile accepts = contentDicts x.value :=
  List.takeWhile_eq_self_iff.mpr (List.all_eq_true.mp h)

/-- What the call returns, what it has appended and what it has put. -/
theorem decryptRecipients_eq (recipients : List (Recipient R)) (s : ProfileState R) :
    (decryptRecipients recipients s).2 = allAccepted recipients ∧
      (∃ payloads, (decryptRecipients recipients s).1.payloads = s.payloads ++ payloads ∧
        payloads.map Payload.dict = appended recipients) ∧
      ∀ key, (decryptRecipients recipients s).1.plist.lookup key =
        if key = "PayloadContent" then
          ((lastPut recipients).map Content.value).or (s.plist.lookup key)
        else s.plist.lookup key := by
  induction recipients generalizing s with
  | nil => exact ⟨rfl, ⟨[], (List.append_nil _).symm, rfl⟩, fun key => (ite_self _).symm⟩
  | cons recipient recipients ih =>
    cases recipient with
    | fails => exact ⟨rfl, ⟨[], (List.append_nil _).symm, rfl⟩, fun key => (ite_self _).symm⟩
    | content x =>
      obtain ⟨hparsed, hplist, payloads, hpayloads, hdicts⟩ := parsePayloadContent_put s x
      rw [decryptRecipients, hparsed, allAccepted, appended, lastPut]
      cases hx : x.accepted with
      | false =>
        refine ⟨rfl, ⟨payloads, hpayloads, hdicts⟩, fun key => ?_⟩
        rw [if_neg Bool.false_ne_true, hplist, lookup_mapPut]
        rfl
      | true =>
        obtain ⟨hresult, ⟨rest, hrest, hrestDicts⟩, hlookup⟩ := ih (s.put x).parsePayloadContent.1
        rw [if_pos rfl, if_pos rfl, if_pos rfl, hresult]
        refine ⟨rfl, ⟨payloads ++ rest, ?_, ?_⟩, fun key => ?_⟩
        · rw [hrest, hpayloads, List.append_assoc]
        · rw [List.map_append, hdicts, hrestDicts, takeWhile_accepted hx]
        · rw [hlookup key, hplist, lookup_mapPut]
          by_cases hkey : key = "PayloadContent"
          · rw [if_pos hkey, if_pos hkey, if_pos hkey]
            cases lastPut recipients <;> rfl
          · rw [if_neg hkey, if_neg hkey, if_neg hkey]

/-! ## What is asked -/

/-- A failed call leaves the payloads and the property list as they are; after one that returns
true the content is one that was decrypted, and the payloads are its payloads. -/
structure DecryptsExactly (envelope : Option (List (Recipient R))) (s : ProfileState R) : Prop where
  failed : (decryptPayloadContent envelope s).2 = false →
    (decryptPayloadContent envelope s).1.payloads = s.payloads ∧
      ∀ key, (decryptPayloadContent envelope s).1.plist.lookup key = s.plist.lookup key
  decrypted : (decryptPayloadContent envelope s).2 = true →
    ∃ recipients x, envelope = some recipients ∧ .content x ∈ recipients ∧
      (decryptPayloadContent envelope s).1.plist.lookup "PayloadContent" = some x.value ∧
      (decryptPayloadContent envelope s).1.payloads.map Payload.dict = contentDicts x.value

/-- What the recipients may decrypt; `put` is the content that was put before them. Contents
without payload dictionaries come first, and behind them
* no recipient, where a content was put and there were no payloads,
* one that fails, where the content put last is the one there was before,
* a last content that is accepted, where there were no payloads, or
* a content whose first dictionary is refused, and which is the one there was before. -/
def Clean (s : ProfileState R) : Option (Content R) → List (Recipient R) → Prop
  | put, [] => put.isSome ∧ s.payloads = []
  | put, .fails :: _ => ∀ x ∈ put, s.plist.lookup "PayloadContent" = some x.value
  | _, .content x :: recipients =>
    match contentDicts x.value with
    | [] => Clean s (some x) recipients
    | dict :: _ =>
      if x.accepted then recipients = [] ∧ s.payloads = []
      else accepts dict = false ∧ s.plist.lookup "PayloadContent" = some x.value

theorem lastPut_mem {recipients : List (Recipient R)} {x : Content R}
    (h : lastPut recipients = some x) : .content x ∈ recipients := by
  induction recipients with
  | nil => cases h
  | cons recipient recipients ih =>
    cases recipient with
    | fails => cases h
    | content y =>
      rw [lastPut, Option.some.injEq] at h
      split at h
      · cases hlast : lastPut recipients with
        | none =>
          rw [hlast] at h
          exact h ▸ List.mem_cons_self
        | some z =>
          rw [hlast] at h
          exact List.mem_cons_of_mem _ (ih (hlast.trans (congrArg some h)))
      · exact h ▸ List.mem_cons_self

/-- Where all are accepted, the dictionaries of the last content come last. -/
theorem appended_eq {recipients : List (Recipient R)} (hall : allAccepted recipients = true)
    (hne : recipients ≠ []) : ∃ x before, lastPut recipients = some x ∧
      appended recipients = before ++ contentDicts x.value := by
  induction recipients with
  | nil => exact absurd rfl hne
  | cons recipient recipients ih =>
    cases recipient with
    | fails => cases hall
    | content x =>
      rw [allAccepted, Bool.and_eq_true] at hall
      rw [lastPut, appended, if_pos hall.1, if_pos hall.1]
      by_cases hnil : recipients = []
      · exact ⟨x, [], by rw [hnil]; rfl, by rw [hnil, appended, List.append_nil, List.nil_append]⟩
      · obtain ⟨y, before, hlast, happended⟩ := ih hall.2 hnil
        exact ⟨y, contentDicts x.value ++ before, by rw [hlast]; rfl,
          by rw [happended, List.append_assoc]⟩

/-- What was put and what is put by the recipients, and what they append. -/
structure PutsExactly (s : ProfileState R) (put : Option (Content R))
    (recipients : List (Recipient R)) : Prop where
  failed : allAccepted recipients = false → appended recipients = [] ∧
    ∀ x ∈ (lastPut recipients).or put, s.plist.lookup "PayloadContent" = some x.value
  decrypted : allAccepted recipients = true → ∃ x ∈ (lastPut recipients).or put,
    s.payloads.map Payload.dict ++ appended recipients = contentDicts x.value

section Puts

variable {s : ProfileState R} {put : Option (Content R)} {recipients : List (Recipient R)}
  {x : Content R} {dict : List (String × Obj R)} {dicts : List (List (String × Obj R))}

/-- Behind an accepted content the recipients go on. -/
theorem allAccepted_of_accepted (hx : x.accepted = true) :
    allAccepted (.content x :: recipients) = allAccepted recipients := by
  rw [allAccepted, hx, Bool.true_and]

theorem appended_of_accepted (hx : x.accepted = true) :
    appended (.content x :: recipients) = contentDicts x.value ++ appended recipients := by
  rw [appended, if_pos hx]

theorem lastPut_of_accepted (hx : x.accepted = true) (put : Option (Content R)) :
    (lastPut (.content x :: recipients)).or put = (lastPut recipients).or (some x) := by
  rw [lastPut, if_pos hx]
  cases lastPut recipients <;> rfl

/-- A content without dictionaries is put, and appends nothing. -/
theorem putsExactly_empty (hdicts : contentDicts x.value = []) :
    PutsExactly s put (.content x :: recipients) ↔ PutsExactly s (some x) recipients := by
  have hx : x.accepted = true := by
    rw [Content.accepted, hdicts]
    rfl
  have hlast : (lastPut (.content x :: recipients)).or put =
      (lastPut recipients).or (some x) := lastPut_of_accepted hx put
  have hall : allAccepted (.content x :: recipients) = allAccepted recipients :=
    allAccepted_of_accepted hx
  have happended : appended (.content x :: recipients) = appended recipients := by
    rw [appended_of_accepted hx, hdicts, List.nil_append]
  constructor
  · intro h
    exact ⟨hlast ▸ happended ▸ hall ▸ h.failed, hlast ▸ happended ▸ hall ▸ h.decrypted⟩
  · intro h
    exact ⟨hlast ▸ happended ▸ hall ▸ h.failed, hlast ▸ happended ▸ hall ▸ h.decrypted⟩

theorem putsExactly_refused (hx : x.accepted = false) (hdicts : contentDicts x.value = dict :: dicts) :
    PutsExactly s put (.content x :: recipients) ↔
      accepts dict = false ∧ s.plist.lookup "PayloadContent" = some x.value := by
  have hlast : (lastPut (.content x :: recipients)).or put = some x := by
    rw [lastPut, hx]
    rfl
  have happended : appended (.content x :: recipients) = (dict :: dicts).takeWhile accepts := by
    rw [appended, hx, hdicts]
    rfl
  have hall : allAccepted (.content x :: recipients) = false := by
    rw [allAccepted, hx, Bool.false_and]
  have hrefused : (dict :: dicts).takeWhile accepts = [] ↔ accepts dict = false := by
    rw [List.takeWhile_cons]
    cases accepts dict <;> simp
  constructor
  · intro h
    obtain ⟨hnil, hsame⟩ := h.failed hall
    exact ⟨hrefused.mp (happended ▸ hnil), hsame x hlast⟩
  · intro h'
    obtain ⟨hdict, hsame⟩ := h'
    refine ⟨fun _ => ⟨happended.trans (hrefused.mpr hdict), fun y hy => ?_⟩, fun h => ?_⟩
    · rw [hlast] at hy
      exact Option.some.inj hy ▸ hsame
    · rw [hall] at h
      cases h

theorem putsExactly_accepted (hx : x.accepted = true) (hdicts : contentDicts x.value = dict :: dicts) :
    PutsExactly s put (.content x :: recipients) ↔ recipients = [] ∧ s.payloads = [] := by
  have happended : appended (.content x :: recipients) = dict :: dicts ++ appended recipients := by
    rw [appended_of_accepted hx, hdicts]
  have hall : allAccepted (.content x :: recipients) = allAccepted recipients :=
    allAccepted_of_accepted hx
  constructor
  · intro h
    cases hrest : allAccepted recipients with
    | false =>
      have hnil := (h.failed (hall.trans hrest)).1
      rw [happended] at hnil
      cases hnil
    | true =>
      obtain ⟨y, hy, heq⟩ := h.decrypted (hall.trans hrest)
      have hlen := congrArg List.length heq
      rw [happended, List.length_append, List.length_append, List.length_map,
        List.length_cons] at hlen
      have hnil : recipients = [] := by
        by_contra hne
        -- the payloads of `x` are in front of those of the last content
        obtain ⟨z, before, hlast, hz⟩ := appended_eq hrest hne
        rw [lastPut_of_accepted hx, hlast] at hy
        obtain rfl : z = y := Option.some.inj hy
        rw [hz, List.length_append] at hlen
        omega
      refine ⟨hnil, List.length_eq_zero_iff.mp ?_⟩
      rw [lastPut_of_accepted hx, hnil] at hy
      obtain rfl : x = y := Option.some.inj hy
      rw [hdicts, List.length_cons] at hlen
      omega
  · intro h'
    obtain ⟨rfl, hpayloads⟩ := h'
    refine ⟨fun h => ?_, fun _ => ⟨x, ?_, ?_⟩⟩
    · rw [hall] at h
      cases h
    · rw [lastPut, hx]
      rfl
    · rw [happended, hpayloads, hdicts]
      exact List.append_nil _

end Puts

theorem putsExactly_iff (s : ProfileState R) {put : Option (Content R)}
    (hput : ∀ x ∈ put, contentDicts x.value = []) (recipients : List (Recipient R)) :
    PutsExactly s put recipients ↔ Clean s put recipients := by
  induction recipients generalizing put with
  | nil =>
    constructor
    · intro h
      obtain ⟨x, hx, hdicts⟩ := h.decrypted rfl
      rw [lastPut, Option.none_or] at hx
      rw [hput x hx, appended, List.append_nil, List.map_eq_nil_iff] at hdicts
      exact ⟨Option.isSome_of_mem hx, hdicts⟩
    · intro h
      obtain ⟨x, hx⟩ := Option.isSome_iff_exists.mp h.1
      refine ⟨nofun, fun _ => ⟨x, hx, ?_⟩⟩
      rw [h.2, hput x hx]
      rfl
  | cons recipient recipients ih =>
    cases recipient with
    | fails =>
      constructor
      · intro h
        exact (h.failed rfl).2
      · intro h
        exact ⟨fun _ => ⟨rfl, h⟩, nofun⟩
    | content x =>
      rw [Clean]
      cases hdicts : contentDicts x.value with
      | nil =>
        rw [putsExactly_empty hdicts]
        exact ih fun y hy => Option.some.inj hy ▸ hdicts
      | cons dict dicts =>
        show _ ↔ if x.accepted = true then _ else _
        split_ifs with hx
        · exact putsExactly_accepted hx hdicts
        · exact putsExactly_refused (Bool.eq_false_iff.mpr hx) hdicts

/-- A call for an envelope that cannot be read changes nothing. -/
theorem decryptsExactly_none {s : ProfileState R} (hencrypted : s.isPayloadContentEncrypted = true) :
    DecryptsExactly none s := by
  have hcall : decryptPayloadContent none s = (s, false) := by
    rw [decryptPayloadContent, hencrypted]
    rfl
  refine ⟨fun _ => ?_, fun h => ?_⟩
  · rw [hcall]
    exact ⟨rfl, fun _ => rfl⟩
  · rw [hcall] at h
    cases h

theorem decryptsExactly_some {s : ProfileState R} (hencrypted : s.isPayloadContentEncrypted = true)
    (recipients : List (Recipient R)) :
    DecryptsExactly (some recipients) s ↔ PutsExactly s none recipients := by
  have hcall : decryptPayloadContent (some recipients) s = decryptRecipients recipients s := by
    rw [decryptPayloadContent, hencrypted]
    rfl
  obtain ⟨hresult, ⟨payloads, hpayloads, hdicts⟩, hlookup⟩ := decryptRecipients_eq recipients s
  have hcontent := hlookup "PayloadContent"
  rw [if_pos rfl] at hcontent
  constructor
  · intro h
    refine ⟨fun hall => ?_, fun hall => ?_⟩
    · obtain ⟨hsame, hkeys⟩ := h.failed (by rw [hcall, hresult, hall])
      rw [hcall, hpayloads] at hsame
      have hnil : payloads = [] := by simpa using hsame
      refine ⟨by rw [← hdicts, hnil]; rfl, fun x hx => ?_⟩
      rw [Option.or_none] at hx
      rw [← hkeys, hcall, hcontent, hx]
      rfl
    · obtain ⟨recipients', x, heq, hmem, hput, hsame⟩ :=
        h.decrypted (by rw [hcall, hresult, hall])
      obtain rfl := Option.some.inj heq
      rw [hcall] at hput hsame
      obtain ⟨y, -, hlast, -⟩ := appended_eq hall (List.ne_nil_of_mem hmem)
      rw [hcontent, hlast] at hput
      refine ⟨y, by rw [hlast]; rfl, ?_⟩
      rw [← hdicts, ← List.map_append, ← hpayloads, hsame, Option.some.inj hput]
  · intro h
    refine ⟨fun hfailed => ?_, fun htrue => ?_⟩
    · rw [hcall] at hfailed ⊢
      obtain ⟨hnil, hsame⟩ := h.failed (hresult.symm.trans hfailed)
      rw [hnil, List.map_eq_nil_iff] at hdicts
      refine ⟨by rw [hpayloads, hdicts, List.append_nil], fun key => ?_⟩
      rw [hlookup key]
      split_ifs with hkey
      · cases hlast : lastPut recipients with
        | none => rfl
        | some x => rw [hkey, hsame x (by rw [hlast]; rfl)]; rfl
      · rfl
    · rw [hcall] at htrue ⊢
      obtain ⟨x, hx, hsame⟩ := h.decrypted (hresult.symm.trans htrue)
      rw [Option.or_none] at hx
      refine ⟨recipients, x, rfl, lastPut_mem hx, ?_, ?_⟩
      · rw [hcontent, hx]
        rfl
      · rw [hpayloads, List.map_append, hdicts, hsame]

/-- For all objects with an encrypted content, all numbers of recipients and all outcomes: a
failure changes nothing and a success leaves the decrypted payloads, once each, exactly if the
envelope cannot be read or what the recipients decrypt is clean. -/
theorem decryptPayloadContent_iff {s : ProfileState R}
    (hencrypted : s.isPayloadContentEncrypted = true) (envelope : Option (List (Recipient R))) :
    DecryptsExactly envelope s ↔
      ∀ recipients, envelope = some recipients → Clean s none recipients := by
  cases envelope with
  | none => exact iff_of_true (decryptsExactly_none hencrypted) nofun
  | some recipients =>
    have hclean : PutsExactly s none recipients ↔ Clean s none recipients :=
      putsExactly_iff s (fun x hx => by cases hx) recipients
    rw [decryptsExactly_some hencrypted, hclean]
    simp

/-! ### One recipient, and two recipients -/

def rootDict : List (String × Obj Bool) :=
  [("PayloadIdentifier", .string "example.ca"), ("PayloadUUID", .string "C1"),
    ("PayloadType", .string "com.apple.security.root"), ("PayloadVersion", .integer 1)]

def rootContent : Content Bool where
  value := .array [.dictionary rootDict]
  typed := by simp [rootDict, Obj.Typed, Obj.TypedItems, Obj.TypedEntries]

def encryptedProfile : ConfigurationProfile Bool where
  plist := [("PayloadIdentifier", .string "example"), ("PayloadUUID", .string "P1"),
    ("PayloadType", .string "Configuration"), ("PayloadVersion", .integer 1),
    ("EncryptedPayloadContent", .data [])]
  typed := by simp [Obj.Typed, Obj.TypedEntries]
  accepted := rfl
  payloads := []
  content := rfl

theorem decryptPayloadContent_iff_one : encryptedProfile.state.isPayloadContentEncrypted = true ∧
    DecryptsExactly (some [.content rootContent]) encryptedProfile.state := by
  refine ⟨rfl, (decryptPayloadContent_iff rfl _).mpr fun recipients h => ?_⟩
  obtain rfl := Option.some.inj h
  exact ⟨rfl, rfl⟩

/-- With a second recipient that has another key, the call fails and the payload is there. -/
theorem failed_with_payload : encryptedProfile.state.isPayloadContentEncrypted = true ∧
    encryptedProfile.state.payloads = [] ∧
    (decryptPayloadContent (some [.content rootContent, .fails]) encryptedProfile.state).2 = false ∧
    (decryptPayloadContent (some [.content rootContent, .fails])
      encryptedProfile.state).1.payloads.map Payload.dict = [rootDict] ∧
    ¬ DecryptsExactly (some [.content rootContent, .fails]) encryptedProfile.state := by
  have hresult : (decryptPayloadContent (some [.content rootContent, .fails])
      encryptedProfile.state).2 = false := rfl
  have hpayload : (decryptPayloadContent (some [.content rootContent, .fails])
      encryptedProfile.state).1.payloads.map Payload.dict = [rootDict] := rfl
  refine ⟨rfl, rfl, hresult, hpayload, fun h => ?_⟩
  rw [(h.failed hresult).1] at hpayload
  cases hpayload

end ConfProfile
