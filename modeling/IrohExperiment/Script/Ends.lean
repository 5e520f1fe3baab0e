/-
# Scripts: programs with a state and exceptions

How a program of type `EStateM ε σ α` ends.  `Ends x s Q E` says of the program `x`
started in the state `s` that it either returns with `Q` or throws with `E`; what it has
done to the state until it throws stays done.  There is one rule for each way to build a
program, and one for a loop over a list.

`ends_bind`, `ends_tryCatch` and `ends_forM` are the rules.
-/
import Mathlib

namespace Script

variable {ε σ α β : Type}

/-- `x`, started in `s`, returns a value and a state with `Q`, or throws and leaves a state
with `E`. -/
def Ends (x : EStateM ε σ α) (s : σ) (Q : α → σ → Prop) (E : ε → σ → Prop) : Prop :=
  match x.run s with
  | .ok a s' => Q a s'
  | .error e s' => E e s'

variable {Q Q' : α → σ → Prop} {E E' : ε → σ → Prop} {s : σ}

/-- What holds however the program ends. -/
theorem Ends.run {x : EStateM ε σ α} (h : Ends x s Q E) :
    (∀ a s', x.run s = .ok a s' → Q a s') ∧ ∀ e s', x.run s = .error e s' → E e s' := by
  unfold Ends at h
  constructor
  · intro a s' hx
    rwa [hx] at h
  · intro e s' hx
    rwa [hx] at h

/-- The rule of consequence. -/
theorem Ends.mono {x : EStateM ε σ α} (h : Ends x s Q E) (hQ : ∀ a s', Q a s' → Q' a s')
    (hE : ∀ e s', E e s' → E' e s') : Ends x s Q' E' := by
  unfold Ends at h ⊢
  cases hx : x.run s with
  | ok a s' =>
    rw [hx] at h
    exact hQ a s' h
  | error e s' =>
    rw [hx] at h
    exact hE e s' h

/-! ## One rule for each construct -/

theorem ends_bind (x : EStateM ε σ α) (f : α → EStateM ε σ β) {Q : β → σ → Prop} :
    Ends (x >>= f) s Q E ↔ Ends x s (fun a s' => Ends (f a) s' Q E) E := by
  unfold Ends
  rw [EStateM.run_bind]
  cases x.run s with
  | ok a s' => exact Iff.rfl
  | error e s' => exact Iff.rfl

/-- `x.catch(h)`: what `x` has done stays done. -/
theorem ends_tryCatch (x : EStateM ε σ α) (h : ε → EStateM ε σ α) :
    Ends (tryCatch x h) s Q E ↔ Ends x s Q fun e s' => Ends (h e) s' Q E := by
  unfold Ends
  have hrun : (tryCatch x h : EStateM ε σ α).run s = match x s with
    | .error e s' => h e s'
    | .ok a s' => .ok a s' := by
    show EStateM.tryCatch x h s = _
    unfold EStateM.tryCatch
    cases x s with
    | ok a s' => rfl
    | error e s' => rfl
  rw [hrun]
  unfold EStateM.run
  cases x s with
  | ok a s' => exact Iff.rfl
  | error e s' => exact Iff.rfl

/-- The rule for a loop: an invariant of what is still to be done and the state. -/
theorem ends_forM {f : β → EStateM ε σ PUnit} {I : List β → σ → Prop}
    (step : ∀ b bs s, I (b :: bs) s → Ends (f b) s (fun _ s' => I bs s') E) (l : List β)
    (h : I l s) : Ends (l.forM f) s (fun _ s' => I [] s') E := by
  induction l generalizing s with
  | nil => exact h
  | cons b bs ih =>
    show Ends (f b >>= fun _ => bs.forM f) s _ E
    rw [ends_bind]
    exact (step b bs s h).mono (fun _ _ hs' => ih hs') fun _ _ he => he

end Script
