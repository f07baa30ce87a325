import ConfProfile.Lib.Run

/-!
# Streams read in chunks

A machine reads a stream in chunks that someone else cuts. Where a chunk does what its first byte
and then the rest of it do (`Splits`), a run over chunks is a run over their bytes
(`run_flatten`), so the cuts do not matter.
-/

namespace Chunks

variable {σ β : Type*}

/-- A longer chunk can be cut behind its first byte. -/
def Splits (step : σ → List β → Option σ) : Prop :=
  ∀ s b c s', c ≠ [] → step s (b :: c) = some s' → ∃ t, step s [b] = some t ∧ step t c = some s'

/-- The bytes of a chunk, one by one. -/
def single (c : List β) : List (List β) := c.map fun b => [b]

variable {step : σ → List β → Option σ}

theorem run_single (h : Splits step) {c : List β} : ∀ {s s' : σ}, c ≠ [] →
    step s c = some s' → Run.run step s (single c) = some s' := by
  induction c with
  | nil => intro s s' hne; exact absurd rfl hne
  | cons b c ih =>
    intro s s' _ hstep
    rcases eq_or_ne c [] with rfl | hne
    · simpa [single, Run.run] using hstep
    · obtain ⟨t, hfirst, hrest⟩ := h s b c s' hne hstep
      have hrun := ih hne hrest
      simpa [single, Run.run, hfirst] using hrun

/-- A run over chunks is a run over their bytes. -/
theorem run_flatten (h : Splits step) {cs : List (List β)} : ∀ {s s' : σ}, (∀ c ∈ cs, c ≠ []) →
    Run.run step s cs = some s' → Run.run step s (single cs.flatten) = some s' := by
  induction cs with
  | nil => intro s s' _ hrun; exact hrun
  | cons c cs ih =>
    intro s s' hne hrun
    obtain ⟨t, hstep, hrest⟩ := Run.run_cons_some hrun
    have hfirst := run_single h (hne c List.mem_cons_self) hstep
    have hlater := ih (fun d hd => hne d (List.mem_cons_of_mem c hd)) hrest
    rw [List.flatten_cons, single, List.map_append]
    exact Run.run_append hfirst hlater

end Chunks
