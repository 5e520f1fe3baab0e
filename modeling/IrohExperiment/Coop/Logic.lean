/-
# A rely-guarantee logic for coroutines

`Outcome.Sat K Q E s₀ o` says of a computation `o` whose current stretch began
(or was last accounted for) in state `s₀`: every stretch it runs satisfies the
guarantee of the contract `K`, provided that what happens to the state while it
is suspended satisfies the rely; if it ends, `Q` holds of the value, and `E` of
the exception, together with the state last accounted for and the final state.

The second state of `Q` and `E` lets a caller account for a callee's last
stretch together with its own: several small updates between two suspension
points may amount to a single guaranteed step.
-/
import IrohExperiment.Coop.Coroutine

namespace Coop

/-- What a coroutine promises about each of its stretches, what it may assume
about the time it is suspended, and in which states it may be resumed. -/
structure Contract (π σ : Type) where
  guar : σ → σ → Prop
  rely : σ → σ → Prop
  admits : π → σ → Prop

variable {π σ ε ε' α β : Type} {K : Contract π σ}
  {Q Q' : α → σ → σ → Prop} {E E' : ε → σ → σ → Prop} {s₀ s : σ}

/-- The judgement of the logic. -/
def Outcome.Sat (K : Contract π σ) (Q : α → σ → σ → Prop) (E : ε → σ → σ → Prop) :
    σ → Outcome π σ ε α → Prop
  | s₀, .done a s => Q a s₀ s
  | s₀, .fail e s => E e s₀ s
  | s₀, .suspend p s k =>
      K.guar s₀ s ∧ ∀ s', K.rely s s' → K.admits p s' → (k s').Sat K Q E s'

/-! ## Structural rules -/

theorem Outcome.sat_handle {f : α → σ → Outcome π σ ε' β} {g : ε → σ → Outcome π σ ε' β}
    {Q : β → σ → σ → Prop} {E : ε' → σ → σ → Prop} (o : Outcome π σ ε α) :
    (o.handle f g).Sat K Q E s₀ ↔
      o.Sat K (fun a s₁ s => (f a s).Sat K Q E s₁) (fun e s₁ s => (g e s).Sat K Q E s₁) s₀ := by
  induction o generalizing s₀ with
  | done a s => exact Iff.rfl
  | fail e s => exact Iff.rfl
  | suspend p s k ih => simp only [Outcome.handle, Outcome.Sat, ih]

/-- The rule of consequence. -/
theorem Outcome.Sat.mono {o : Outcome π σ ε α} (h : o.Sat K Q E s₀)
    (hQ : ∀ a s₁ s, Q a s₁ s → Q' a s₁ s) (hE : ∀ e s₁ s, E e s₁ s → E' e s₁ s) :
    o.Sat K Q' E' s₀ := by
  induction o generalizing s₀ with
  | done a s => exact hQ _ _ _ h
  | fail e s => exact hE _ _ _ h
  | suspend p s k ih => exact ⟨h.1, fun s' hr ha => ih s' (h.2 s' hr ha)⟩

namespace Coroutine

/-- The rule of sequencing: the second part starts where the first one ends. -/
theorem sat_bind (t : Coroutine π σ ε α) (f : α → Coroutine π σ ε β)
    {Q : β → σ → σ → Prop} :
    ((t >>= f) s).Sat K Q E s₀ ↔
      (t s).Sat K (fun a s₁ s' => (f a s').Sat K Q E s₁) E s₀ :=
  Outcome.sat_handle (t s)

/-- The rule of `catch`: the handler starts where the error was thrown. -/
theorem sat_rescue (t : Coroutine π σ ε α) (h : ε → Coroutine π σ ε α) :
    ((t.rescue h) s).Sat K Q E s₀ ↔
      (t s).Sat K Q (fun e s₁ s' => (h e s').Sat K Q E s₁) s₀ :=
  Outcome.sat_handle (t s)

/-- The rule of a suspension: the guarantee holds before it, and the rely is all that is known
after it. -/
theorem sat_yield (p : π) {Q : Unit → σ → σ → Prop} :
    ((yield p : Coroutine π σ ε Unit) s).Sat K Q E s₀ ↔
      K.guar s₀ s ∧ ∀ s', K.rely s s' → K.admits p s' → Q () s' s' := Iff.rfl

/-- The rule of an awaited call: its result is known, and then only what the others keep. -/
theorem sat_await (p : Except ε α → π) (t : Coroutine π σ ε α) :
    ((await p t) s).Sat K Q E s₀ ↔
      (t s).Sat K
        (fun a s₁ s' => K.guar s₁ s' ∧
          ∀ s'', K.rely s' s'' → K.admits (p (.ok a)) s'' → Q a s'' s'')
        (fun e s₁ s' => K.guar s₁ s' ∧
          ∀ s'', K.rely s' s'' → K.admits (p (.error e)) s'' → E e s'' s'')
        s₀ :=
  Outcome.sat_handle (t s)

/-- The rule of a conditional without an `else`. -/
theorem sat_when (b : Bool) (t : Coroutine π σ ε Unit) {Q : Unit → σ → σ → Prop} :
    ((when b t) s).Sat K Q E s₀ ↔
      (b = true → (t s).Sat K Q E s₀) ∧ (b = false → Q () s₀ s) := by
  cases b with
  | false => exact ⟨fun h => ⟨nofun, fun _ => h⟩, fun h => h.2 rfl⟩
  | true => exact ⟨fun h => ⟨fun _ => h, nofun⟩, fun h => h.1 rfl⟩

end Coroutine

end Coop
