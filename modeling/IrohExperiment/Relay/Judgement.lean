/-
# The contract of a handler (`worker/src/iroh-relay.js`)

`Ensures P κ h Q E s₀ o` says that the computation `o` of handler `h` makes its
stretches of acts, whatever the others do while it waits, and that it ends with
`Q` of its value or with `E` of its exception.  The rules below take a handler
apart along its source.

`Ensures` is an instance of `Coop.Logic`, with the invariant of the room as what everybody
keeps.  Callers use the contract of a callee and never its source.
-/
import IrohExperiment.Relay.Interference

namespace IrohExperiment.Relay

open Coop Coroutine

variable {P : Platform} {κ : Trigger Event Point → World → Prop} {h : ℕ} {α β : Type}
  {Q Q' : α → World → Prop} {E E' : Fault → World → Prop} {s₀ w w' : World}

/-- The contract of handler `h`. -/
abbrev pact (P : Platform) (κ : Trigger Event Point → World → Prop) (h : ℕ) :
    Contract Point World :=
  (room P).contract κ (Stretch P κ) (Inv P) h

/-- Handler `h` runs; since `s₀`, where its stretch began or was last accounted
for, it has only acted. -/
structure At (P : Platform) (κ : Trigger Event Point → World → Prop) (h : ℕ) (s₀ w : World) :
    Prop where
  acts : Stretch P κ s₀ w
  inv : Inv P w
  current : w.past.current = h

/-- The computation keeps the contract of `h` and ends as described. -/
def Ensures (P : Platform) (κ : Trigger Event Point → World → Prop) (h : ℕ)
    (Q : α → World → Prop) (E : Fault → World → Prop) (s₀ : World)
    (o : Outcome Point World Fault α) : Prop :=
  o.Sat (pact P κ h) (fun a s₁ s => At P κ h s₁ s ∧ Q a s) (fun e s₁ s => At P κ h s₁ s ∧ E e s) s₀

/-- A step of the running handler. -/
theorem At.act (hw : At P κ h s₀ w) (ha : Act P κ w w') : At P κ h s₀ w' :=
  ⟨hw.acts.tail ha, hw.inv.act ha, ha.current_eq.trans hw.current⟩

theorem At.start (hI : Inv P w) (hcur : w.past.current = h) : At P κ h w w := ⟨.refl, hI, hcur⟩

/-- When `h` goes on, the others have spared what is in its care. -/
theorem At.resume (hw : At P κ h s₀ w) (hr : (pact P κ h).rely w w') :
    At P κ h w' w' ∧ Kept h w w' := by
  obtain ⟨⟨u, hu, rfl⟩, hI⟩ := hr
  obtain ⟨hIu, hk⟩ := hw.inv.interferes hu
  exact ⟨.start hI rfl, hk.trans hw.inv ((rests_enter P h u).kept h)⟩

namespace Ensures

/-- The rule of consequence. -/
theorem mono {o : Outcome Point World Fault α} (ho : Ensures P κ h Q E s₀ o)
    (hQ : ∀ a s s₁, At P κ h s₁ s → Q a s → Q' a s)
    (hE : ∀ e s s₁, At P κ h s₁ s → E e s → E' e s) : Ensures P κ h Q' E' s₀ o :=
  Outcome.Sat.mono ho (fun a s₁ s hs => ⟨hs.1, hQ a s s₁ hs.1 hs.2⟩)
    (fun e s₁ s hs => ⟨hs.1, hE e s s₁ hs.1 hs.2⟩)

theorem done {a : α} (hw : At P κ h s₀ w) (hQ : Q a w) : Ensures P κ h Q E s₀ (.done a w) :=
  ⟨hw, hQ⟩

theorem pure {a : α} (hw : At P κ h s₀ w) (hQ : Q a w) :
    Ensures P κ h Q E s₀ ((Pure.pure a : Async α) w) := ⟨hw, hQ⟩

theorem fail {e : Fault} (hw : At P κ h s₀ w) (hE : E e w) :
    Ensures P κ h Q E s₀ (.fail e w : Outcome Point World Fault α) := ⟨hw, hE⟩

theorem raise {e : Fault} (hw : At P κ h s₀ w) (hE : E e w) :
    Ensures P κ h Q E s₀ ((Coroutine.raise e : Async α) w) := ⟨hw, hE⟩

/-- The rule of sequencing; what the first part ensures is all that the second may use. -/
theorem bind {t : Async α} {f : α → Async β} {Q : α → World → Prop} {Q' : β → World → Prop}
    (ht : Ensures P κ h Q E s₀ (t w))
    (hf : ∀ a s s₁, At P κ h s₁ s → Q a s → Ensures P κ h Q' E s₁ (f a s)) :
    Ensures P κ h Q' E s₀ ((t >>= f) w) :=
  (sat_bind t f).mpr (Outcome.Sat.mono ht (fun a s₁ s hs => hf a s s₁ hs.1 hs.2) fun _ _ _ => id)

/-- A step that ends at once. -/
theorem step {t : Async α} {f : α → Async β} {a : α} {u : World} {Q : β → World → Prop}
    (ht : t w = .done a u) (hf : Ensures P κ h Q E s₀ (f a u)) :
    Ensures P κ h Q E s₀ ((t >>= f) w) := by
  have hstep : (t >>= f) w = f a u := by
    show (t w).handle f .fail = f a u
    rw [ht]
    rfl
  rwa [hstep]

/-- The rule of `catch`. -/
theorem rescue {t : Async α} {f : Fault → Async α} {E : Fault → World → Prop}
    (ht : Ensures P κ h Q E s₀ (t w))
    (hf : ∀ e s s₁, At P κ h s₁ s → E e s → Ensures P κ h Q E' s₁ (f e s)) :
    Ensures P κ h Q E' s₀ ((t.rescue f) w) :=
  (sat_rescue t f).mpr (Outcome.Sat.mono ht (fun _ _ _ => id) fun e s₁ s hs => hf e s s₁ hs.1 hs.2)

/-- A step that ends at once and amounts to one act. -/
theorem act {a : α} (hw : At P κ h s₀ w) (ha : Act P κ w w') (hQ : At P κ h s₀ w' → Q a w') :
    Ensures P κ h Q E s₀ (.done a w') :=
  ⟨hw.act ha, hQ (hw.act ha)⟩

theorem gets {f : World → α} (hw : At P κ h s₀ w) (hQ : Q (f w) w) :
    Ensures P κ h Q E s₀ ((Coroutine.gets f : Async α) w) := ⟨hw, hQ⟩

/-- The rule of a conditional without an `else`. -/
theorem when {b : Bool} {t : Async Unit} {Q : Unit → World → Prop} (hw : At P κ h s₀ w)
    (ht : b = true → Ensures P κ h Q E s₀ (t w)) (hf : b = false → Q () w) :
    Ensures P κ h Q E s₀ ((Coroutine.when b t) w) :=
  (sat_when b t).mpr ⟨ht, fun hb => ⟨hw, hf hb⟩⟩

/-- Awaiting a computation at a point that shows its value. -/
theorem awaiting {p : Except Fault α → Point} {t : Async α} (ht : Ensures P κ h
      (fun a s => ∀ s', At P κ h s' s' → Kept h s s' → κ (.resume (p (.ok a))) s' → Q a s')
      (fun e s => ∀ s', At P κ h s' s' → Kept h s s' → κ (.resume (p (.error e))) s' → E e s')
      s₀ (t w)) : Ensures P κ h Q E s₀ ((Coroutine.await p t) w) := by
  refine (sat_await _ t).mpr (Outcome.Sat.mono ht (fun a s₁ s hs => ?_) fun e s₁ s hs => ?_)
  · refine ⟨hs.1.acts, fun s' hr hκ => ?_⟩
    obtain ⟨hs', hk⟩ := hs.1.resume hr
    exact ⟨hs', hs.2 s' hs' hk hκ⟩
  · refine ⟨hs.1.acts, fun s' hr hκ => ?_⟩
    obtain ⟨hs', hk⟩ := hs.1.resume hr
    exact ⟨hs', hs.2 s' hs' hk hκ⟩

/-- Awaiting an async method: it runs, and after that the others do. -/
theorem await {site : Site} {t : Async α} (ht : Ensures P κ h
      (fun a s => ∀ s', At P κ h s' s' → Kept h s s' → κ (.resume (.answered site)) s' → Q a s')
      (fun e s => ∀ s', At P κ h s' s' → Kept h s s' → κ (.resume (.answered site)) s' → E e s')
      s₀ (t w)) : Ensures P κ h Q E s₀ ((await site t) w) :=
  awaiting ht

/-- A point where the others run. -/
theorem yield {p : Point} {Q : Unit → World → Prop} (hw : At P κ h s₀ w)
    (hQ : ∀ s', At P κ h s' s' → Kept h w s' → κ (.resume p) s' → Q () s') :
    Ensures P κ h Q E s₀ ((Coroutine.yield p : Async Unit) w) :=
  (sat_yield p).mpr ⟨hw.acts, fun s' hr hκ => by
    obtain ⟨hs', hk⟩ := hw.resume hr
    exact ⟨hs', hQ s' hs' hk hκ⟩⟩

/-- A request to the storage or to the crypto module: the others run, it is carried
out, and the others run again. -/
theorem request {site : Site} {op : Async α} (hw : At P κ h s₀ w)
    (hop : ∀ s s₁, At P κ h s₁ s → Kept h w s → κ (.resume (.issued site)) s →
      Ensures P κ h
        (fun a s' => ∀ s'', At P κ h s'' s'' → Kept h s' s'' →
          κ (.resume (.answered site)) s'' → Q a s'')
        (fun e s' => ∀ s'', At P κ h s'' s'' → Kept h s' s'' →
          κ (.resume (.answered site)) s'' → E e s'') s₁ (op s)) :
    Ensures P κ h Q E s₀ ((request site op) w) := by
  refine await (bind (Q := fun _ s => Kept h w s ∧ κ (.resume (.issued site)) s) ?_ ?_)
  · exact yield hw fun _ _ hk hκ => ⟨hk, hκ⟩
  · exact fun _ s s₁ hs hkκ => hop s s₁ hs hkκ.1 hkκ.2

/-- A computation only extends the world that its stretch began in. -/
theorem extends_ {α : Type} {Q : α → World → Prop} {o : Outcome Point World Fault α}
    (hI : Inv P s₀) (ho : Ensures P κ h Q E s₀ o) :
    Ensures P κ h (fun a s => Q a s ∧ s₀.Extends s) (fun e s => E e s ∧ s₀.Extends s) s₀ o := by
  suffices H : ∀ s₁, Inv P s₁ → s₀.Extends s₁ → Ensures P κ h Q E s₁ o →
      Ensures P κ h (fun a s => Q a s ∧ s₀.Extends s) (fun e s => E e s ∧ s₀.Extends s) s₁ o from
    H s₀ hI s₀.extends_refl ho
  clear ho
  induction o with
  | done a s =>
    exact fun s₁ hI₁ hext hs => ⟨hs.1, hs.2, hext.trans (Stretch.extends hI₁ hs.1.acts)⟩
  | fail e s =>
    exact fun s₁ hI₁ hext hs => ⟨hs.1, hs.2, hext.trans (Stretch.extends hI₁ hs.1.acts)⟩
  | suspend p s k ih =>
    rintro s₁ hI₁ hext ⟨hg, hk⟩
    refine ⟨hg, fun s' hr hκ => ih s' s' hr.2 ?_ (hk s' hr hκ)⟩
    have hIs : Inv P s := hI₁.stretch hg
    obtain ⟨⟨u, hu, rfl⟩, -⟩ := hr
    obtain ⟨-, hkept⟩ := hIs.interferes hu
    exact (hext.trans (Stretch.extends hI₁ hg)).trans
      (hkept.extends_.trans (rests_enter P h u).extends_)

end Ensures

end IrohExperiment.Relay
