/-
# An event loop of coroutines

Events start handlers; a handler is a coroutine; at most one of them runs at a
time and it runs until its next suspension point.  `Config.step` performs one
scheduling decision: deliver an event, resume a suspended handler, or let the
environment change the state.  `Runs κ` are the finite sequences of decisions in
which every stretch begins in a state that `κ` admits.

`Runs.legit` is the soundness of the logic: if every handler satisfies its
contract, the state evolves by guaranteed stretches only, and what a handler
established when it ended has since been exposed to the others' steps alone.
-/
import IrohExperiment.Coop.Logic

namespace Coop

/-- A program for the event loop: what a handler does with its event, how the
state records that handler `h` was started by an event or goes on running, and
what the environment does by itself.  `begin` and `env` are partial: an event
or an environment step may be impossible in a state. -/
structure Machine (ι δ π σ ε ρ : Type) where
  program : ι → Coroutine π σ ε ρ
  begin : ℕ → ι → σ → Option σ
  enter : ℕ → σ → σ
  env : δ → σ → Option σ

/-- A scheduling decision. -/
inductive Label (ι δ : Type) : Type where
  | start (e : ι)
  | resume (h : ℕ)
  | env (d : δ)

/-- What sets a stretch off: an event, or the point where a handler waits. -/
inductive Trigger (ι π : Type) : Type where
  | start (e : ι)
  | resume (p : π)

/-- The state, the handlers in flight with the point each one waits at, the
number of handlers started, and the results of those that ended. -/
structure Config (π σ ε ρ : Type) where
  state : σ
  pool : ℕ → Option (π × (σ → Outcome π σ ε ρ))
  started : ℕ
  result : ℕ → Option (Except ε ρ)

namespace Config

variable {ι δ π σ ε ρ : Type}

/-- Nothing has been started yet. -/
def initial (s : σ) : Config π σ ε ρ := ⟨s, fun _ => none, 0, fun _ => none⟩

/-- No handler is in flight. -/
def Quiet (c : Config π σ ε ρ) : Prop := ∀ h < c.started, c.pool h = none

instance (c : Config π σ ε ρ) : Decidable c.Quiet :=
  decidable_of_iff (∀ h < c.started, (c.pool h).isNone = true) (by simp [Quiet])

/-- Handler `h` is over. -/
def conclude (c : Config π σ ε ρ) (h : ℕ) (r : Except ε ρ) (s : σ) : Config π σ ε ρ :=
  { c with
    state := s, pool := Function.update c.pool h none,
    result := Function.update c.result h (some r) }

/-- Record how the stretch of handler `h` ended. -/
def settle (c : Config π σ ε ρ) (h : ℕ) : Outcome π σ ε ρ → Config π σ ε ρ
  | .done a s => c.conclude h (.ok a) s
  | .fail e s => c.conclude h (.error e) s
  | .suspend p s k => { c with state := s, pool := Function.update c.pool h (some (p, k)) }

/-- One scheduling decision, when it is possible. -/
def step (M : Machine ι δ π σ ε ρ) (c : Config π σ ε ρ) :
    Label ι δ → Option (Config π σ ε ρ)
  | .start e =>
      match M.begin c.started e c.state with
      | some s => some ({ c with started := c.started + 1 }.settle c.started (M.program e s))
      | none => none
  | .resume h =>
      match c.pool h with
      | some (_, k) => some (c.settle h (k (M.enter h c.state)))
      | none => none
  | .env d =>
      match M.env d c.state with
      | some s => some { c with state := s }
      | none => none

/-- The stretch that a decision sets off begins in a state that `κ` admits. -/
def Meets (M : Machine ι δ π σ ε ρ) (κ : Trigger ι π → σ → Prop) (c : Config π σ ε ρ) :
    Label ι δ → Prop
  | .start e => ∀ s, M.begin c.started e c.state = some s → κ (.start e) s
  | .resume h => ∀ p k, c.pool h = some (p, k) → κ (.resume p) (M.enter h c.state)
  | .env _ => True

variable (M : Machine ι δ π σ ε ρ) (κ : Trigger ι π → σ → Prop) [∀ t s, Decidable (κ t s)]

instance (c : Config π σ ε ρ) (ℓ : Label ι δ) : Decidable (c.Meets M κ ℓ) :=
  match ℓ with
  | .start e => decidable_of_iff (∀ s ∈ M.begin c.started e c.state, κ (.start e) s) Iff.rfl
  | .resume h =>
      decidable_of_iff (∀ r ∈ c.pool h, κ (.resume r.1) (M.enter h c.state))
        ⟨fun hr p k hp => hr (p, k) hp, fun hr r hp => hr r.1 r.2 hp⟩
  | .env _ => inferInstanceAs (Decidable True)

/-- Carry a schedule out, as long as every stretch begins in a state that `κ`
admits. -/
def replay (c : Config π σ ε ρ) : List (Label ι δ) → Option (Config π σ ε ρ)
  | [] => some c
  | ℓ :: ls => if c.Meets M κ ℓ then (c.step M ℓ).bind fun c' => c'.replay ls else none

end Config

variable {ι δ π σ ε ρ : Type} {M : Machine ι δ π σ ε ρ} {κ : Trigger ι π → σ → Prop}
  {c c' c₀ : Config π σ ε ρ}

/-- The runs from `c₀` all of whose stretches begin in a state that `κ` admits. -/
inductive Runs (M : Machine ι δ π σ ε ρ) (κ : Trigger ι π → σ → Prop)
    (c₀ : Config π σ ε ρ) : List (Label ι δ) → Config π σ ε ρ → Prop
  | nil : Runs M κ c₀ [] c₀
  | snoc {ls ℓ c c'} : Runs M κ c₀ ls c → c.Meets M κ ℓ → c.step M ℓ = some c' →
      Runs M κ c₀ (ls ++ [ℓ]) c'

theorem Runs.trans {ls ls' : List (Label ι δ)} (h : Runs M κ c₀ ls c) (h' : Runs M κ c ls' c') :
    Runs M κ c₀ (ls ++ ls') c' := by
  induction h' with
  | nil => rwa [List.append_nil]
  | snoc _ hκ hstep ih =>
    rw [← List.append_assoc]
    exact ih.snoc hκ hstep

/-- A schedule that was carried out is a run. -/
theorem runs_of_replay [∀ t s, Decidable (κ t s)] {ls : List (Label ι δ)}
    (h : c.replay M κ ls = some c') : Runs M κ c ls c' := by
  induction ls generalizing c with
  | nil =>
    obtain rfl := Option.some.inj h
    exact .nil
  | cons ℓ ls ih =>
    rw [Config.replay] at h
    split_ifs at h with hκ
    obtain ⟨d, hd, h⟩ := Option.bind_eq_some_iff.mp h
    have hfirst : Runs M κ c [ℓ] d := Runs.nil.snoc hκ hd
    exact hfirst.trans (ih h)

/-! ## What the state goes through -/

/-- What happens to the state in one scheduling decision; the index is the
handler that ran, if one did. -/
inductive Move (M : Machine ι δ π σ ε ρ) (guar : σ → σ → Prop) : Option ℕ → σ → σ → Prop
  | start {h e s s₁ s'} : M.begin h e s = some s₁ → guar s₁ s' → Move M guar (some h) s s'
  | run {h s s'} : guar (M.enter h s) s' → Move M guar (some h) s s'
  | env {d s s'} : M.env d s = some s' → Move M guar none s s'

/-- The state evolves by moves of anybody. -/
def Evolves (M : Machine ι δ π σ ε ρ) (guar : σ → σ → Prop) : σ → σ → Prop :=
  Relation.ReflTransGen fun s s' => ∃ m, Move M guar m s s'

/-- The state evolves by moves of anybody but handler `h`. -/
def Interferes (M : Machine ι δ π σ ε ρ) (guar : σ → σ → Prop) (h : ℕ) : σ → σ → Prop :=
  Relation.ReflTransGen fun s s' => ∃ m, m ≠ some h ∧ Move M guar m s s'

/-- `I` is established by every move, provided that stretches keep it. -/
structure Machine.Invariant (M : Machine ι δ π σ ε ρ) (guar : σ → σ → Prop)
    (I : σ → Prop) : Prop where
  begin : ∀ h e s s₁, I s → M.begin h e s = some s₁ → I s₁
  enter : ∀ h s, I s → I (M.enter h s)
  guar : ∀ s s', I s → guar s s' → I s'
  env : ∀ d s s', I s → M.env d s = some s' → I s'

/-- The contract of handler `h`: while it waits the others move, and it is then
entered again, in a state that satisfies the invariant and that `κ` admits at
the point where it waits. -/
def Machine.contract (M : Machine ι δ π σ ε ρ) (κ : Trigger ι π → σ → Prop)
    (guar : σ → σ → Prop) (I : σ → Prop) (h : ℕ) : Contract π σ where
  guar := guar
  rely s s' := (∃ u, Interferes M guar h s u ∧ s' = M.enter h u) ∧ I s'
  admits p s := κ (.resume p) s

/-- Handler `h` keeps its contract until it ends, and ends with `Post h`. -/
def Machine.Keeps (M : Machine ι δ π σ ε ρ) (κ : Trigger ι π → σ → Prop)
    (guar : σ → σ → Prop) (I : σ → Prop) (Post : ℕ → Except ε ρ → σ → Prop) (h : ℕ) :
    σ → Outcome π σ ε ρ → Prop :=
  Outcome.Sat (M.contract κ guar I h) (fun a s₀ s => guar s₀ s ∧ Post h (.ok a) s)
    (fun e s₀ s => guar s₀ s ∧ Post h (.error e) s)

/-- Every handler keeps its contract, whichever event starts it in a state that
`κ` admits. -/
def Machine.Sound (M : Machine ι δ π σ ε ρ) (κ : Trigger ι π → σ → Prop)
    (guar : σ → σ → Prop) (I : σ → Prop) (Post : ℕ → Except ε ρ → σ → Prop) : Prop :=
  ∀ h e s s₁, I s → M.begin h e s = some s₁ → κ (.start e) s₁ →
    M.Keeps κ guar I Post h s₁ (M.program e s₁)

/-- What is true of a configuration reached from `c₀`. -/
structure Legit (M : Machine ι δ π σ ε ρ) (κ : Trigger ι π → σ → Prop)
    (guar : σ → σ → Prop) (I : σ → Prop) (Post : ℕ → Except ε ρ → σ → Prop)
    (c₀ c : Config π σ ε ρ) : Prop where
  evolves : Evolves M guar c₀.state c.state
  inv : I c.state
  started_le : c₀.started ≤ c.started
  /-- A handler in flight keeps its contract from here on. -/
  waiting : ∀ h p k, c.pool h = some (p, k) → c₀.started ≤ h ∧ h < c.started ∧
    ∃ s, Interferes M guar h s c.state ∧
      ∀ s', (M.contract κ guar I h).rely s s' → κ (.resume p) s' →
        M.Keeps κ guar I Post h s' (k s')
  /-- A handler that is no longer in flight ended, and only others moved since. -/
  ended : ∀ h, c₀.started ≤ h → h < c.started → c.pool h = none →
    ∃ r s, c.result h = some r ∧ Post h r s ∧ Interferes M guar h s c.state

variable {guar : σ → σ → Prop} {I : σ → Prop} {Post : ℕ → Except ε ρ → σ → Prop}

theorem Interferes.snoc {h : ℕ} {m : Option ℕ} {s s' s'' : σ} (hs : Interferes M guar h s s')
    (hne : m ≠ some h) (hm : Move M guar m s' s'') : Interferes M guar h s s'' :=
  hs.tail ⟨m, hne, hm⟩

/-- The stretch of a handler keeps a configuration legitimate: the handler's
own entry is renewed, and for everybody else the stretch is interference.  The
handler is either one of those started before or the one started just now. -/
theorem Legit.settle {h n : ℕ} {s₁ : σ} {o : Outcome π σ ε ρ}
    (hI : M.Invariant guar I) (hc : Legit M κ guar I Post c₀ c) (hn : c.started ≤ n)
    (hlo : c₀.started ≤ h) (hhi : h < n) (hnew : ∀ k, c.started ≤ k → k < n → k = h)
    (hmove : ∀ s', guar s₁ s' → Move M guar (some h) c.state s') (hs₁ : I s₁)
    (ho : M.Keeps κ guar I Post h s₁ o) :
    Legit M κ guar I Post c₀ (Config.settle { c with started := n } h o) := by
  -- whatever way the stretch ends, its final state is one move of `h` away
  have others : ∀ {s'}, guar s₁ s' → ∀ {k s}, k ≠ h → Interferes M guar k s c.state →
      Interferes M guar k s s' := by
    intro s' hg k s hk hs
    exact Interferes.snoc hs (m := some h) (fun heq => hk (Option.some.inj heq).symm)
      (hmove _ hg)
  have waiting : ∀ {s'}, guar s₁ s' → ∀ k p r, k ≠ h → c.pool k = some (p, r) →
      c₀.started ≤ k ∧ k < n ∧ ∃ s, Interferes M guar k s s' ∧
        ∀ t, (M.contract κ guar I k).rely s t → κ (.resume p) t →
          M.Keeps κ guar I Post k t (r t) := by
    intro s' hg k p r hk hp
    obtain ⟨h1, h2, s, hs, hr⟩ := hc.waiting k p r hp
    exact ⟨h1, by omega, s, others hg hk hs, hr⟩
  have ended : ∀ {s'}, guar s₁ s' → ∀ k, k ≠ h → c₀.started ≤ k → k < n → c.pool k = none →
      ∃ r s, c.result k = some r ∧ Post k r s ∧ Interferes M guar k s s' := by
    intro s' hg k hk h1 h2 hp
    have h3 : k < c.started := by
      by_contra hcon
      exact hk (hnew k (by omega) h2)
    obtain ⟨r, s, hr, hP, hs⟩ := hc.ended k h1 h3 hp
    exact ⟨r, s, hr, hP, others hg hk hs⟩
  have conclude : ∀ (r : Except ε ρ) {s'}, guar s₁ s' → Post h r s' →
      Legit M κ guar I Post c₀ (Config.conclude { c with started := n } h r s') := by
    intro r s' hg hP
    refine ⟨hc.evolves.tail ⟨_, hmove _ hg⟩, hI.guar _ _ hs₁ hg, hc.started_le.trans hn,
      fun k p r' hp => ?_,
      fun k h1 h2 hp => ?_⟩
    · by_cases hk : k = h
      · simp [Config.conclude, hk] at hp
      · exact waiting hg k p r' hk (by simpa [Config.conclude, Function.update_of_ne hk] using hp)
    · by_cases hk : k = h
      · subst hk
        exact ⟨r, s', Function.update_self .., hP, .refl⟩
      · simp only [Config.conclude, Function.update_of_ne hk] at hp h2 ⊢
        exact ended hg k hk h1 h2 hp
  cases o with
  | done a s' => exact conclude (.ok a) ho.1 ho.2
  | fail e s' => exact conclude (.error e) ho.1 ho.2
  | suspend p s' k =>
    obtain ⟨hg, hk'⟩ := ho
    refine ⟨hc.evolves.tail ⟨_, hmove _ hg⟩, hI.guar _ _ hs₁ hg, hc.started_le.trans hn,
      fun j q r hp => ?_,
      fun j h1 h2 hp => ?_⟩
    · by_cases hj : j = h
      · subst hj
        obtain ⟨rfl, rfl⟩ : p = q ∧ k = r := by simpa [Config.settle] using hp
        exact ⟨hlo, hhi, s', .refl, hk'⟩
      · exact waiting hg j q r hj (by simpa [Config.settle, Function.update_of_ne hj] using hp)
    · by_cases hj : j = h
      · simp [Config.settle, hj] at hp
      · simp only [Config.settle, Function.update_of_ne hj] at hp h2 ⊢
        exact ended hg j hj h1 h2 hp

/-- One scheduling decision keeps a configuration legitimate. -/
theorem Legit.step {ℓ : Label ι δ} (hM : M.Sound κ guar I Post) (hI : M.Invariant guar I)
    (hc : Legit M κ guar I Post c₀ c)
    (hκ : c.Meets M κ ℓ) (hstep : c.step M ℓ = some c') : Legit M κ guar I Post c₀ c' := by
  cases ℓ with
  | start e =>
    simp only [Config.step] at hstep
    split at hstep
    · rename_i s hs
      obtain rfl := Option.some.inj hstep
      exact hc.settle hI (by omega) hc.started_le (by omega) (fun k h1 h2 => by omega)
        (fun s' hg => .start hs hg) (hI.begin _ _ _ _ hc.inv hs) (hM _ _ _ _ hc.inv hs (hκ s hs))
    · cases hstep
  | resume h =>
    simp only [Config.step] at hstep
    split at hstep
    · rename_i p k hp
      obtain rfl := Option.some.inj hstep
      obtain ⟨h1, h2, s, hs, hk⟩ := hc.waiting h p k hp
      have hin : I (M.enter h c.state) := hI.enter _ _ hc.inv
      exact hc.settle hI le_rfl h1 h2 (fun k h1 h2 => by omega) (fun s' hg => .run hg) hin
        (hk _ ⟨⟨_, hs, rfl⟩, hin⟩ (hκ p k hp))
    · cases hstep
  | env d =>
    simp only [Config.step] at hstep
    split at hstep
    · rename_i s hs
      obtain rfl := Option.some.inj hstep
      refine ⟨hc.evolves.tail ⟨_, .env hs⟩, hI.env _ _ _ hc.inv hs, hc.started_le,
        fun k p r hp => ?_,
        fun k h1 h2 hp => ?_⟩
      · obtain ⟨h1, h2, t, ht, hr⟩ := hc.waiting k p r hp
        exact ⟨h1, h2, t, ht.snoc (by simp) (.env hs), hr⟩
      · obtain ⟨r, t, hr, hP, ht⟩ := hc.ended k h1 h2 hp
        exact ⟨r, t, hr, hP, ht.snoc (by simp) (.env hs)⟩
    · cases hstep

/-- **Soundness**: every configuration reached from one with no handler in
flight is legitimate. -/
theorem Runs.legit {ls : List (Label ι δ)} (hM : M.Sound κ guar I Post)
    (hI : M.Invariant guar I) (hI₀ : I c₀.state) (hc₀ : ∀ h, c₀.pool h = none)
    (hr : Runs M κ c₀ ls c) : Legit M κ guar I Post c₀ c := by
  induction hr with
  | nil =>
    refine ⟨.refl, hI₀, le_rfl, fun h p k hp => ?_, fun h h1 h2 => by omega⟩
    rw [hc₀ h] at hp
    cases hp
  | snoc _ hκ hstep ih => exact ih.step hM hI hκ hstep

/-- In a quiet configuration nothing is in flight. -/
theorem Legit.idle (hc : Legit M κ guar I Post c₀ c) (hq : c.Quiet) (h : ℕ) : c.pool h = none := by
  cases hp : c.pool h with
  | none => rfl
  | some r =>
    obtain ⟨p, k⟩ := r
    exact (hp.symm.trans (hq h (hc.waiting h p k hp).2.1)).symm ▸ rfl

/-! ## Properties of runs -/

/-- The state in which handler `h` begins a stretch. -/
def Entered (M : Machine ι δ π σ ε ρ) (h : ℕ) (s : σ) : Prop :=
  (∃ e u, M.begin h e u = some s) ∨ ∃ u, s = M.enter h u

/-- What one scheduling decision does. -/
inductive Progress (M : Machine ι δ π σ ε ρ) (κ : Trigger ι π → σ → Prop) (guar : σ → σ → Prop)
    (c : Config π σ ε ρ) : Label ι δ → Config π σ ε ρ → Prop
  | start {e s c'} (hbegin : M.begin c.started e c.state = some s) (hκ : κ (.start e) s)
      (hguar : guar s c'.state) (hstarted : c'.started = c.started + 1) :
      Progress M κ guar c (.start e) c'
  | resume {h p k c'} (hpool : c.pool h = some (p, k)) (hκ : κ (.resume p) (M.enter h c.state))
      (hguar : guar (M.enter h c.state) c'.state) (hstarted : c'.started = c.started) :
      Progress M κ guar c (.resume h) c'
  | env {d c'} (henv : M.env d c.state = some c'.state) (hstarted : c'.started = c.started) :
      Progress M κ guar c (.env d) c'

theorem Config.settle_started (c : Config π σ ε ρ) (h : ℕ) (o : Outcome π σ ε ρ) :
    (c.settle h o).started = c.started := by
  cases o <;> rfl

/-- A stretch of a handler that keeps its contract is guaranteed. -/
theorem Machine.Keeps.guar_settle {h : ℕ} {s : σ} {o : Outcome π σ ε ρ}
    (ho : M.Keeps κ guar I Post h s o) (c : Config π σ ε ρ) : guar s (c.settle h o).state := by
  cases o with
  | done a s' => exact ho.1
  | fail e s' => exact ho.1
  | suspend p s' k => exact ho.1

theorem Legit.progress {ℓ : Label ι δ} (hM : M.Sound κ guar I Post) (hI : M.Invariant guar I)
    (hc : Legit M κ guar I Post c₀ c) (hκ : c.Meets M κ ℓ) (hstep : c.step M ℓ = some c') :
    Progress M κ guar c ℓ c' := by
  cases ℓ with
  | start e =>
    simp only [Config.step] at hstep
    split at hstep
    · rename_i s hs
      obtain rfl := Option.some.inj hstep
      exact .start hs (hκ s hs) ((hM _ _ _ _ hc.inv hs (hκ s hs)).guar_settle _)
        (Config.settle_started _ _ _)
    · cases hstep
  | resume h =>
    simp only [Config.step] at hstep
    split at hstep
    · rename_i p k hp
      obtain rfl := Option.some.inj hstep
      obtain ⟨-, -, s, hs, hk⟩ := hc.waiting h p k hp
      exact .resume hp (hκ p k hp)
        ((hk _ ⟨⟨_, hs, rfl⟩, hI.enter _ _ hc.inv⟩ (hκ p k hp)).guar_settle _)
        (Config.settle_started _ _ _)
    · cases hstep
  | env d =>
    simp only [Config.step] at hstep
    split at hstep
    · rename_i s hs
      obtain rfl := Option.some.inj hstep
      exact .env hs rfl
    · cases hstep

/-- Induction along a run. -/
theorem Runs.induct {motive : List (Label ι δ) → Config π σ ε ρ → Prop} {ls : List (Label ι δ)}
    (hM : M.Sound κ guar I Post) (hI : M.Invariant guar I) (hI₀ : I c₀.state)
    (hc₀ : ∀ h, c₀.pool h = none) (hr : Runs M κ c₀ ls c) (nil : motive [] c₀)
    (snoc : ∀ {ls ℓ c c'}, Legit M κ guar I Post c₀ c → Progress M κ guar c ℓ c' → motive ls c →
      motive (ls ++ [ℓ]) c') : motive ls c := by
  induction hr with
  | nil => exact nil
  | snoc hr hκ hstep ih =>
    have hc := hr.legit hM hI hI₀ hc₀
    exact snoc hc (hc.progress hM hI hκ hstep) ih

/-- **Invariants of runs.**  What holds at first and is kept by every stretch,
begin, entry and environment step holds throughout.  The stretches may use that
it held wherever `κ` was met. -/
theorem Runs.invariant {G : (Trigger ι π → σ → Prop) → σ → σ → Prop} {J : σ → Prop}
    {ls : List (Label ι δ)} (hM : ∀ κ, M.Sound κ (G κ) I Post)
    (hI : ∀ κ, M.Invariant (G κ) I) (hI₀ : I c₀.state) (hc₀ : ∀ h, c₀.pool h = none)
    (hr : Runs M κ c₀ ls c) (hJ₀ : J c₀.state)
    (hbegin : ∀ h e s s', c₀.started ≤ h → I s → J s → M.begin h e s = some s' →
      κ (.start e) s' → J s')
    (henter : ∀ h s, I s → J s → J (M.enter h s))
    (henv : ∀ d s s', I s → J s → M.env d s = some s' → J s')
    (hguar : ∀ h s s', c₀.started ≤ h → Entered M h s → I s → J s →
      G (fun t s => κ t s ∧ I s ∧ J s) s s' → J s') :
    Runs M (fun t s => κ t s ∧ I s ∧ J s) c₀ ls c ∧ J c.state := by
  induction hr with
  | nil => exact ⟨.nil, hJ₀⟩
  | @snoc ls ℓ c c' hr hκ hstep ih =>
    obtain ⟨hr', hJ⟩ := ih
    have hc := hr'.legit (hM _) (hI _) hI₀ hc₀
    have hκ' : c.Meets M (fun t s => κ t s ∧ I s ∧ J s) ℓ := by
      cases ℓ with
      | start e => exact fun s hs => ⟨hκ s hs, (hI κ).begin _ _ _ _ hc.inv hs,
          hbegin _ _ _ _ hc.started_le hc.inv hJ hs (hκ s hs)⟩
      | resume h => exact fun p k hp => ⟨hκ p k hp, (hI κ).enter _ _ hc.inv, henter _ _ hc.inv hJ⟩
      | env d => trivial
    refine ⟨hr'.snoc hκ' hstep, ?_⟩
    cases hc.progress (hM _) (hI _) hκ' hstep with
    | start hb hs hg =>
      exact hguar _ _ _ hc.started_le (.inl ⟨_, _, hb⟩) hs.2.1 hs.2.2 hg
    | resume hp hs hg =>
      exact hguar _ _ _ (hc.waiting _ _ _ hp).1 (.inr ⟨_, rfl⟩) hs.2.1 hs.2.2 hg
    | env he => exact henv _ _ _ hc.inv hJ he

/-- Invariants of the rest of a run. -/
theorem Runs.later {J : σ → Prop} {ls ls' : List (Label ι δ)} (hM : M.Sound κ guar I Post)
    (hI : M.Invariant guar I) (hI₀ : I c₀.state) (hc₀ : ∀ h, c₀.pool h = none)
    (hr : Runs M κ c₀ ls c) (hr' : Runs M κ c ls' c') (hJ : J c.state)
    (hbegin : ∀ h e s s', I s → J s → M.begin h e s = some s' → J s')
    (henter : ∀ h s, I s → J s → J (M.enter h s))
    (henv : ∀ d s s', I s → J s → M.env d s = some s' → J s')
    (hguar : ∀ s s', I s → J s → guar s s' → J s') : J c'.state := by
  induction hr' with
  | nil => exact hJ
  | snoc hr' hκ hstep ih =>
    have hc := (hr.trans hr').legit hM hI hI₀ hc₀
    cases hc.progress hM hI hκ hstep with
    | start hb _ hg =>
      exact hguar _ _ (hI.begin _ _ _ _ hc.inv hb) (hbegin _ _ _ _ hc.inv ih hb) hg
    | resume _ _ hg =>
      exact hguar _ _ (hI.enter _ _ hc.inv) (henter _ _ hc.inv ih) hg
    | env he => exact henv _ _ _ hc.inv ih he

end Coop
