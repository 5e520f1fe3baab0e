/-
# Runs that come to an end

A measure that falls with every step bounds the runs, and where every state that is not final
has a next step, every run can be completed.

`length_le_of_falls` bounds the length of a run by the measure of its start, and
`exists_completion` continues a run to a final state.  Both are about steps that meet a
condition, such as that nothing fails, and about any system with a partial step function.
-/
import IrohExperiment.History.Run

namespace IrohExperiment.History

variable {σ ε : Type} {step : ε → σ → Option σ} {cond : ε → σ → Prop} {inv final : σ → Prop}
  {left : σ → ℕ} {s t : σ} {es : List ε}

/-- An invariant of the steps under a condition holds after every run under it. -/
theorem inv_of_meets (hkeep : ∀ e s t, inv s → cond e s → step e s = some t → inv t) (hs : inv s)
    (hmeets : Meets step cond s es) (hrun : run step s es = some t) : inv t :=
  run_induct_meets (P := fun _ t => inv t) hs
    (fun _ m e t _ hm hcond hstep => hkeep e m t hm hcond hstep) hmeets hrun

/-- A run along which a measure falls is no longer than the measure of its start. -/
theorem length_le_of_falls (hkeep : ∀ e s t, inv s → cond e s → step e s = some t → inv t)
    (hfall : ∀ e s t, inv s → cond e s → step e s = some t → left t < left s) (hs : inv s)
    (hmeets : Meets step cond s es) (hrun : run step s es = some t) :
    es.length + left t ≤ left s := by
  refine (run_induct_meets (P := fun es t => inv t ∧ es.length + left t ≤ left s)
    ⟨hs, Nat.le_of_eq (Nat.zero_add _)⟩ ?_ hmeets hrun).2
  rintro es m e t - ⟨hm, hle⟩ hcond hstep
  refine ⟨hkeep e m t hm hcond hstep, ?_⟩
  have := hfall e m t hm hcond hstep
  rw [List.length_append, List.length_singleton]
  omega

/-- Where there is always a next step but at a final state, a final state can be reached. -/
theorem exists_completion (hkeep : ∀ e s t, inv s → cond e s → step e s = some t → inv t)
    (hfall : ∀ e s t, inv s → cond e s → step e s = some t → left t < left s)
    (hnext : ∀ s, inv s → final s ∨ ∃ e t, cond e s ∧ step e s = some t) (hs : inv s) :
    ∃ es t, Meets step cond s es ∧ run step s es = some t ∧ final t := by
  induction hn : left s using Nat.strongRecOn generalizing s with
  | ind n ih =>
    rcases hnext s hs with hfinal | ⟨e, m, hcond, hstep⟩
    · exact ⟨[], s, trivial, rfl, hfinal⟩
    · have hlt := hfall e s m hs hcond hstep
      obtain ⟨es, t, hmeets, hrun, hfinal⟩ :=
        ih (left m) (hn ▸ hlt) (hkeep e s m hs hcond hstep) rfl
      refine ⟨e :: es, t, ⟨hcond, ?_⟩, run_cons.mpr ⟨m, hstep, hrun⟩, hfinal⟩
      rw [hstep]
      exact hmeets

/-- Two runs under a condition, one behind the other. -/
theorem meets_of_append {fs : List ε} (hmeets : Meets step cond s es)
    (hrun : run step s es = some t) (hrest : Meets step cond t fs) :
    Meets step cond s (es ++ fs) := by
  induction es generalizing s with
  | nil =>
    obtain rfl := Option.some.inj hrun
    exact hrest
  | cons e es ih =>
    obtain ⟨m, hstep, hafter⟩ := run_cons.mp hrun
    obtain ⟨hcond, hmeets⟩ := hmeets
    rw [hstep] at hmeets
    refine ⟨hcond, ?_⟩
    rw [hstep]
    exact ih hmeets hafter

end IrohExperiment.History
