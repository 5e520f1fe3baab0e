/-
# Runs of a partial step function

A system that some events take from state to state and that refuses the others: what
holds at the start and is kept by every step holds after every run.

`run step s es` is the state after the events `es`, if none of them is refused.
`run_induct` is the induction over a run, and `run_induct_meets` the one over a run all of
whose steps meet a condition on the event and the state before it.
-/
import Mathlib.Data.List.Induction
import Mathlib.Tactic.SplitIfs

namespace IrohExperiment.History

variable {σ ε : Type} {step : ε → σ → Option σ} {s t : σ} {e : ε} {es fs : List ε}

/-- What a guarded step comes to. -/
theorem of_guarded {p : Prop} [Decidable p] (h : (if p then some s else none) = some t) :
    p ∧ s = t := by
  split_ifs at h with hp
  exact ⟨hp, Option.some.inj h⟩

/-- The state after some events, if none of them is refused. -/
def run (step : ε → σ → Option σ) (s : σ) (es : List ε) : Option σ :=
  es.foldlM (fun s e => step e s) s

@[simp] theorem run_nil : run step s [] = some s := rfl

theorem run_append : run step s (es ++ fs) = (run step s es).bind fun m => run step m fs := by
  unfold run
  rw [List.foldlM_append]
  rfl

theorem run_concat :
    run step s (es ++ [e]) = some t ↔ ∃ m, run step s es = some m ∧ step e m = some t := by
  rw [run_append, Option.bind_eq_some_iff]
  have hlast : ∀ m, run step m [e] = step e m := by
    intro m
    show (step e m).bind pure = step e m
    exact Option.bind_fun_some (step e m)
  simp only [hlast]

theorem run_cons :
    run step s (e :: es) = some t ↔ ∃ m, step e s = some m ∧ run step m es = some t :=
  Option.bind_eq_some_iff

/-- A run in two parts. -/
theorem run_append_eq_some :
    run step s (es ++ fs) = some t ↔ ∃ m, run step s es = some m ∧ run step m fs = some t := by
  rw [run_append, Option.bind_eq_some_iff]

/-- What holds of the empty run and is kept by every step holds of every run. -/
theorem run_induct {P : List ε → σ → Prop} (nil : P [] s)
    (concat : ∀ es m e t, run step s es = some m → P es m → step e m = some t → P (es ++ [e]) t)
    (hrun : run step s es = some t) : P es t := by
  induction es using List.reverseRecOn generalizing t with
  | nil =>
    obtain rfl := Option.some.inj hrun
    exact nil
  | append_singleton es e ih =>
    obtain ⟨m, hbefore, hstep⟩ := run_concat.mp hrun
    exact concat es m e t hbefore (ih hbefore) hstep

/-! ## Runs under a condition -/

/-- Every step of the run is made under a condition on the event and the state before it. -/
def Meets (step : ε → σ → Option σ) (cond : ε → σ → Prop) : σ → List ε → Prop
  | _, [] => True
  | s, e :: es =>
    cond e s ∧
      match step e s with
      | some m => Meets step cond m es
      | none => True

variable {cond : ε → σ → Prop}

instance decidableMeets [∀ e s, Decidable (cond e s)] (s : σ) (es : List ε) :
    Decidable (Meets step cond s es) :=
  match es with
  | [] => isTrue trivial
  | e :: es =>
    match hstep : step e s with
    | some m =>
      have := decidableMeets m es
      decidable_of_iff (cond e s ∧ Meets step cond m es) (by rw [Meets, hstep])
    | none => decidable_of_iff (cond e s) (by rw [Meets, hstep]; exact (and_iff_left trivial).symm)

theorem meets_append (h : Meets step cond s (es ++ fs)) (hrun : run step s es = some t) :
    Meets step cond s es ∧ Meets step cond t fs := by
  induction es generalizing s with
  | nil =>
    obtain rfl := Option.some.inj hrun
    exact ⟨trivial, h⟩
  | cons e es ih =>
    obtain ⟨m, hstep, hrest⟩ := run_cons.mp hrun
    obtain ⟨hcond, hmeets⟩ := h
    rw [hstep] at hmeets
    obtain ⟨hbefore, hafter⟩ := ih hmeets hrest
    refine ⟨⟨hcond, ?_⟩, hafter⟩
    rw [hstep]
    exact hbefore

/-- The condition, step by step. -/
theorem meets_iff : Meets step cond s es ↔
    ∀ before e after m, es = before ++ e :: after → run step s before = some m → cond e m := by
  induction es generalizing s with
  | nil =>
    refine iff_of_true trivial fun before e after m heq => ?_
    cases before <;> cases heq
  | cons e es ih =>
    constructor
    · rintro ⟨hcond, hrest⟩ before e' after m heq hrun
      cases before with
      | nil =>
        obtain ⟨rfl, -⟩ := List.cons.inj heq
        obtain rfl := Option.some.inj hrun
        exact hcond
      | cons e'' before =>
        obtain ⟨rfl, hes⟩ := List.cons.inj heq
        obtain ⟨m', hstep, hafter⟩ := run_cons.mp hrun
        rw [hstep] at hrest
        exact ih.mp hrest before e' after m hes hafter
    · intro h
      refine ⟨h [] e es s rfl rfl, ?_⟩
      cases hstep : step e s with
      | none => trivial
      | some m' =>
        refine ih.mpr fun before e' after m hes hrun => ?_
        refine h (e :: before) e' after m (by rw [hes, List.cons_append]) ?_
        exact run_cons.mpr ⟨m', hstep, hrun⟩

/-- What holds of the empty run and is kept by every step under the condition holds of
every run under the condition. -/
theorem run_induct_meets {P : List ε → σ → Prop} (nil : P [] s)
    (concat : ∀ es m e t, run step s es = some m → P es m → cond e m → step e m = some t →
      P (es ++ [e]) t)
    (hmeets : Meets step cond s es) (hrun : run step s es = some t) : P es t := by
  refine run_induct (P := fun es t => Meets step cond s es → P es t) (fun _ => nil) ?_ hrun hmeets
  intro es m e t hbefore hP hstep hmeets
  obtain ⟨hearlier, hlast, -⟩ := meets_append hmeets hbefore
  exact concat es m e t hbefore (hP hearlier) hlast hstep

end IrohExperiment.History
