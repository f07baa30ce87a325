import ConfProfile.Usernat.Unique

/-!
# Lookups and dead links

Two kinds of report say that nobody serves a link any more: `setPidForLink` with
pid -1, and "terminated <pid>" from the usernat process. The first is written into
the link, which stays in the table for a hundred more walks; the second is only
logged. `find_link4` looks at neither, so that a packet is sent to a dead hop
exactly if its flow has such a link in the table (`lookup_alive_along`).
-/

namespace ConfProfile

open ByteMem Run

/-- The relay of the link was reported failed or terminated. -/
def NatSystem.Dead (s : NatSystem) (e : LinkEntry) : Prop :=
  e.link.socatPid = -1 ∨ e.serial ∈ s.terminated

instance (s : NatSystem) (e : LinkEntry) : Decidable (s.Dead e) :=
  inferInstanceAs (Decidable (_ ∨ _))

/-- What the next lookup for an outgoing packet comes back with. -/
def NatSystem.outgoingLookup (s : NatSystem) : Option LinkEntry :=
  match s.router with
  | .lookup job =>
    if job.key.isIncoming then none else findLink4 s.inst job.linkType job.key s.links
  | _ => none

/-- A lookup for an outgoing packet returns no dead link. -/
def LookupAlive (s : NatSystem) (a : NatAct) : Prop :=
  match a with
  | .lookup => ∀ e ∈ s.outgoingLookup, ¬ s.Dead e
  | _ => True

/-- No link in the table that fits the outgoing packet to be looked up is dead. -/
def FlowAlive (s : NatSystem) (a : NatAct) : Prop :=
  match a, s.router with
  | .lookup, .lookup job => job.key.isIncoming = false →
      ∀ e ∈ s.links, e.link.Matches s.inst job.linkType job.key → ¬ s.Dead e
  | _, _ => True

section lookup

variable {s : NatSystem} {a : NatAct}

theorem lookupAlive_of_flowAlive (h : FlowAlive s a) : LookupAlive s a := by
  cases a with
  | lookup =>
    intro e he
    unfold NatSystem.outgoingLookup at he
    split at he
    next job hpc =>
      split at he
      next => cases he
      next hout =>
        have hfind : findLink4 s.inst job.linkType job.key s.links = some e := he
        rw [findLink4_eq_find] at hfind
        unfold FlowAlive at h
        rw [hpc] at h
        exact h (by simpa using hout) e (List.mem_of_find?_eq_some hfind)
          (by simpa using List.find?_some hfind)
    next => cases he
  | _ => trivial

/-- Links that fit the same outgoing packet have the same flow. -/
theorem flow_eq_of_matches {inst : UsernatCtx} {linkType : BitVec 8} {key : LinkKey}
    {link link' : NatLink} (hout : key.isIncoming = false) (h : link.Matches inst linkType key)
    (h' : link'.Matches inst linkType key) : link.flow = link'.flow := by
  have hremote := h.remote
  have hremote' := h'.remote
  unfold NatLink.RemoteMatches at hremote hremote'
  rw [if_neg (by simp [hout])] at hremote hremote'
  unfold NatLink.flow
  rw [h.type, h'.type, h.addr, h'.addr, ← h.port, ← h'.port, hremote.1, hremote'.1, ← hremote.2,
    ← hremote'.2]

/-- Where the flows in the table are distinct, the link that the lookup returns is
the only one that fits. -/
theorem flowAlive_of_lookupAlive (hI : UniqueInv s) (h : LookupAlive s a) : FlowAlive s a := by
  unfold FlowAlive
  split
  next job hpc =>
    intro hout e he hmatch
    obtain ⟨e', hfind⟩ : ∃ e', findLink4 s.inst job.linkType job.key s.links = some e' := by
      rw [findLink4_eq_find]
      exact Option.isSome_iff_exists.mp
        (List.find?_isSome.mpr ⟨e, he, by simpa using hmatch⟩)
    have hresult : s.outgoingLookup = some e' := by
      unfold NatSystem.outgoingLookup
      rw [hpc]
      simp only [hout, hfind, Bool.false_eq_true, if_false]
    have halive := h e' (by rw [hresult]; rfl)
    rw [findLink4_eq_find] at hfind
    have hmatch' : e'.link.Matches s.inst job.linkType job.key := by
      simpa using List.find?_some hfind
    have hsame : e' = e :=
      List.inj_on_of_nodup_map hI.nodup (List.mem_of_find?_eq_some hfind) he
        (flow_eq_of_matches hout hmatch' hmatch)
    rw [hsame] at halive
    exact halive
  next => trivial

end lookup

/-- In every run in which no link in the table that fits an outgoing packet is dead
when the packet is looked up, no lookup returns a dead link; and where every flow
has one link, no other run does without. -/
theorem lookup_alive_along (inst : UsernatCtx) (acts : List NatAct) :
    (Along natStep (fun s a _ => FlowAlive s a) (natInit inst) acts →
      Along natStep (fun s a _ => LookupAlive s a) (natInit inst) acts) ∧
    ((∀ a ∈ acts, a.HeaderOk) →
      Along natStep (fun s a _ => LookupAlive s a) (natInit inst) acts →
        Along natStep (fun s a _ => FlowAlive s a) (natInit inst) acts) := by
  refine ⟨along_mono (fun s a _ h => lookupAlive_of_flowAlive h) acts, ?_⟩
  intro hhead
  refine (along_congr (I := UniqueInv) (g := fun _ a => a.HeaderOk)
    (fun s a s' hI hg h => natStep_unique hg hI h) (fun s a s' hI _ _ => ?_) acts
    (natInit_unique inst) (guarded_of_forall _ acts hhead)).mp
  exact ⟨flowAlive_of_lookupAlive hI, lookupAlive_of_flowAlive⟩

/-- A link is set up, its relay is reported, and then a second packet of the flow
comes. -/
def deadLinkActs (reports : List NatAct) : List NatAct :=
  newLinkActs exampleQuery 28 ⟨3, 4, 5000, 1, true⟩ ++ reports ++ [.send exampleQuery 28]

/-- The second packet gets the link whose set-up was reported failed, or whose relay
was reported terminated. -/
theorem lookup_returns_dead_link :
    (∃ s e, run natStep (natInit exampleNat) (deadLinkActs [.poll (-1)]) = some s ∧
      s.outgoingLookup = some e ∧ e.link.socatPid = -1 ∧ s.Dead e) ∧
    (∃ s e, run natStep (natInit exampleNat)
        (deadLinkActs [.poll 77, .javaDrain, .javaDrain, .report 77]) = some s ∧
      s.outgoingLookup = some e ∧ e.serial ∈ s.terminated ∧ s.Dead e) := by
  have hpid : (run natStep (natInit exampleNat) (deadLinkActs [.poll (-1)])).map
      (fun s => s.outgoingLookup.map fun e => e.link.socatPid) = some (some (-1)) := by
    decide
  have hreport : (run natStep (natInit exampleNat)
      (deadLinkActs [.poll 77, .javaDrain, .javaDrain, .report 77])).map
      (fun s => s.outgoingLookup.map fun e => decide (e.serial ∈ s.terminated)) =
        some (some true) := by
    decide
  refine ⟨?_, ?_⟩
  · obtain ⟨s, hs, hmap⟩ := Option.map_eq_some_iff.mp hpid
    obtain ⟨e, he, hdead⟩ := Option.map_eq_some_iff.mp hmap
    exact ⟨s, e, hs, he, hdead, Or.inl hdead⟩
  · obtain ⟨s, hs, hmap⟩ := Option.map_eq_some_iff.mp hreport
    obtain ⟨e, he, hdead⟩ := Option.map_eq_some_iff.mp hmap
    exact ⟨s, e, hs, he, of_decide_eq_true hdead, Or.inr (of_decide_eq_true hdead)⟩

end ConfProfile
