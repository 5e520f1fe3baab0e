/-
# Handlers with modes

A contract speaks of single stretches.  Some obligations span several of them: what
a handler begins in one stretch it has to see to in a later one.  Here a handler in
flight is in a *mode*, and a `Regime` says how its stretches may turn the mode.
`Outcome.Follows R Q E m s₀ o` says of a computation `o` whose current stretch began
in mode `m` and state `s₀` that all its stretches turn the mode as `R` allows; the
mode and the state that its last stretch began in are told to `Q` and `E`.

`Tracked` follows one handler along a run.  `Queued.replay` carries a schedule out
in which requests of one kind are carried out in the order in which they were made.
-/
import IrohExperiment.Coop.Machine

namespace Coop

/-- How a stretch that waits at some point turns the mode it began in, and what
happens to the state while it waits. -/
structure Regime (μ π σ : Type) where
  turn : μ → σ → π → σ → μ → Prop
  rely : σ → σ → Prop

variable {μ ι δ π σ ε ε' ρ α β : Type} {R : Regime μ π σ}
  {Q Q' : α → μ → σ → σ → Prop} {E E' : ε → μ → σ → σ → Prop} {m : μ} {s₀ s : σ}

/-- The judgement. -/
def Outcome.Follows (R : Regime μ π σ) (Q : α → μ → σ → σ → Prop) (E : ε → μ → σ → σ → Prop) :
    μ → σ → Outcome π σ ε α → Prop
  | m, s₀, .done a s => Q a m s₀ s
  | m, s₀, .fail e s => E e m s₀ s
  | m, s₀, .suspend p s k =>
      ∃ m', R.turn m s₀ p s m' ∧ ∀ s', R.rely s s' → (k s').Follows R Q E m' s'

/-! ## Structural rules -/

theorem Outcome.follows_handle {f : α → σ → Outcome π σ ε' β} {g : ε → σ → Outcome π σ ε' β}
    {Q : β → μ → σ → σ → Prop} {E : ε' → μ → σ → σ → Prop} (o : Outcome π σ ε α) :
    (o.handle f g).Follows R Q E m s₀ ↔
      o.Follows R (fun a m s₁ s => (f a s).Follows R Q E m s₁)
        (fun e m s₁ s => (g e s).Follows R Q E m s₁) m s₀ := by
  induction o generalizing m s₀ with
  | done a s => exact Iff.rfl
  | fail e s => exact Iff.rfl
  | suspend p s k ih => simp only [Outcome.handle, Outcome.Follows, ih]

/-- The rule of consequence. -/
theorem Outcome.Follows.mono {o : Outcome π σ ε α} (h : o.Follows R Q E m s₀)
    (hQ : ∀ a m s₁ s, Q a m s₁ s → Q' a m s₁ s) (hE : ∀ e m s₁ s, E e m s₁ s → E' e m s₁ s) :
    o.Follows R Q' E' m s₀ := by
  induction o generalizing m s₀ with
  | done a s => exact hQ _ _ _ _ h
  | fail e s => exact hE _ _ _ _ h
  | suspend p s k ih =>
    obtain ⟨m', hturn, hk⟩ := h
    exact ⟨m', hturn, fun s' hs' => ih s' (hk s' hs')⟩

namespace Coroutine

theorem follows_bind (t : Coroutine π σ ε α) (f : α → Coroutine π σ ε β)
    {Q : β → μ → σ → σ → Prop} :
    ((t >>= f) s).Follows R Q E m s₀ ↔
      (t s).Follows R (fun a m s₁ s' => (f a s').Follows R Q E m s₁) E m s₀ :=
  Outcome.follows_handle (t s)

theorem follows_rescue (t : Coroutine π σ ε α) (h : ε → Coroutine π σ ε α) :
    ((t.rescue h) s).Follows R Q E m s₀ ↔
      (t s).Follows R Q (fun e m s₁ s' => (h e s').Follows R Q E m s₁) m s₀ :=
  Outcome.follows_handle (t s)

theorem follows_yield (p : π) {Q : Unit → μ → σ → σ → Prop} :
    ((yield p : Coroutine π σ ε Unit) s).Follows R Q E m s₀ ↔
      ∃ m', R.turn m s₀ p s m' ∧ ∀ s', R.rely s s' → Q () m' s' s' := Iff.rfl

theorem follows_await (p : Except ε α → π) (t : Coroutine π σ ε α) :
    ((await p t) s).Follows R Q E m s₀ ↔
      (t s).Follows R
        (fun a m s₁ s' => ∃ m', R.turn m s₁ (p (.ok a)) s' m' ∧
          ∀ s'', R.rely s' s'' → Q a m' s'' s'')
        (fun e m s₁ s' => ∃ m', R.turn m s₁ (p (.error e)) s' m' ∧
          ∀ s'', R.rely s' s'' → E e m' s'' s'') m s₀ :=
  Outcome.follows_handle (t s)

end Coroutine

/-! ## Along a run -/

variable {M : Machine ι δ π σ ε ρ} {κ : Trigger ι π → σ → Prop} {guar : σ → σ → Prop}
  {I : σ → Prop} {Post : ℕ → Except ε ρ → σ → Prop} {Fin : Except ε ρ → μ → σ → σ → Prop}
  {c c' c₀ : Config π σ ε ρ} {h : ℕ} {m' : μ}

/-- A computation that stands for a whole handler. -/
abbrev Outcome.Obeys (R : Regime μ π σ) (Fin : Except ε ρ → μ → σ → σ → Prop) :
    μ → σ → Outcome π σ ε ρ → Prop :=
  Outcome.Follows R (fun a => Fin (.ok a)) (fun e => Fin (.error e))

/-- Handler `h` waits in mode `m` and obeys `R` from here on, or it has ended. -/
def Tracked (M : Machine ι δ π σ ε ρ) (guar : σ → σ → Prop) (I : σ → Prop) (R : Regime μ π σ)
    (Fin : Except ε ρ → μ → σ → σ → Prop) (h : ℕ) (m : μ) (c : Config π σ ε ρ) : Prop :=
  (∃ p k s, c.pool h = some (p, k) ∧ I s ∧ Interferes M guar h s c.state ∧
    ∀ s', R.rely s s' → (k s').Obeys R Fin m s') ∨
  (c.pool h = none ∧ ∃ r m₁ s₁ s, c.result h = some r ∧ Fin r m₁ s₁ s ∧ I s ∧
    Interferes M guar h s c.state)

/-- What a stretch of handler `h` that began in mode `m` and state `s₀` came to. -/
inductive Stint (R : Regime μ π σ) (Fin : Except ε ρ → μ → σ → σ → Prop) (h : ℕ) (m : μ)
    (s₀ : σ) (c : Config π σ ε ρ) (m' : μ) : Prop
  | waits {p k} (hpool : c.pool h = some (p, k)) (hturn : R.turn m s₀ p c.state m')
  | ends {r} (hpool : c.pool h = none) (hresult : c.result h = some r)
      (hfin : Fin r m s₀ c.state)

/-- The configurations agree on handler `h`. -/
def Config.Agrees (c c' : Config π σ ε ρ) (h : ℕ) : Prop :=
  c'.pool h = c.pool h ∧ c'.result h = c.result h

theorem Config.agrees_settle {j : ℕ} (hj : j ≠ h) (c : Config π σ ε ρ) (o : Outcome π σ ε ρ) :
    c.Agrees (c.settle h o) j := by
  cases o <;> simp [Agrees, settle, conclude, hj]

/-- The stretch of a handler that obeys. -/
theorem Tracked.of_settle {o : Outcome π σ ε ρ} (M : Machine ι δ π σ ε ρ) (guar : σ → σ → Prop)
    (ho : o.Obeys R Fin m s₀)
    (hI : I (c.settle h o).state) :
    ∃ m', Stint R Fin h m s₀ (c.settle h o) m' ∧ Tracked M guar I R Fin h m' (c.settle h o) := by
  cases o with
  | done a s =>
    have hresult : (c.settle h (.done a s)).result h = some (.ok a) := by
      simp [Config.settle, Config.conclude]
    exact ⟨m, .ends (by simp [Config.settle, Config.conclude]) hresult ho,
      .inr ⟨by simp [Config.settle, Config.conclude], _, _, _, _, hresult, ho, hI, .refl⟩⟩
  | fail e s =>
    have hresult : (c.settle h (.fail e s)).result h = some (.error e) := by
      simp [Config.settle, Config.conclude]
    exact ⟨m, .ends (by simp [Config.settle, Config.conclude]) hresult ho,
      .inr ⟨by simp [Config.settle, Config.conclude], _, _, _, _, hresult, ho, hI, .refl⟩⟩
  | suspend p s k =>
    obtain ⟨m', hturn, hk⟩ := ho
    have hpool : (c.settle h (.suspend p s k)).pool h = some (p, k) := by simp [Config.settle]
    exact ⟨m', .waits hpool hturn, .inl ⟨p, k, s, hpool, hI, .refl, hk⟩⟩

/-- The moves of the others leave a handler as it is. -/
theorem Tracked.other {j : Option ℕ} (ht : Tracked M guar I R Fin h m c) (hj : j ≠ some h)
    (hagrees : c.Agrees c' h) (hmove : Move M guar j c.state c'.state) :
    Tracked M guar I R Fin h m c' := by
  rcases ht with ⟨p, k, s, hpool, hI, hs, hk⟩ | ⟨hpool, r, m₁, s₁, s, hresult, hfin, hI, hs⟩
  · exact .inl ⟨p, k, s, hagrees.1.trans hpool, hI, hs.snoc hj hmove, hk⟩
  · exact .inr ⟨hagrees.1.trans hpool, r, m₁, s₁, s, hagrees.2.trans hresult, hfin, hI,
      hs.snoc hj hmove⟩

/-- A handler that obeys starts. -/
theorem Tracked.start {e : ι} (hM : M.Sound κ guar I Post) (hI : M.Invariant guar I)
    (hc : Legit M κ guar I Post c₀ c) (hκ : c.Meets M κ (.start e))
    (hstep : c.step M (.start e) = some c')
    (ho : ∀ s, M.begin c.started e c.state = some s → I s → (M.program e s).Obeys R Fin m s) :
    ∃ s m', M.begin c.started e c.state = some s ∧ Stint R Fin c.started m s c' m' ∧
      Tracked M guar I R Fin c.started m' c' := by
  have hlegit := hc.step hM hI hκ hstep
  simp only [Config.step] at hstep
  split at hstep
  · rename_i s hs
    obtain rfl := Option.some.inj hstep
    obtain ⟨m', hstint, ht⟩ := Tracked.of_settle M guar
      (ho s hs (hI.begin _ _ _ _ hc.inv hs)) hlegit.inv
    exact ⟨s, m', hs, hstint, ht⟩
  · cases hstep

/-- What a decision does to the mode of a handler that was started before. -/
theorem Tracked.step {ℓ : Label ι δ} (hM : M.Sound κ guar I Post) (hI : M.Invariant guar I)
    (hc : Legit M κ guar I Post c₀ c) (hκ : c.Meets M κ ℓ) (hstep : c.step M ℓ = some c')
    (hh : h < c.started) (ht : Tracked M guar I R Fin h m c)
    (hrely : ∀ s, I s → Interferes M guar h s c.state → ℓ = .resume h →
      R.rely s (M.enter h c.state)) :
    ∃ m', Tracked M guar I R Fin h m' c' ∧
      ((ℓ = .resume h ∧ (c.pool h).isSome = true ∧ Stint R Fin h m (M.enter h c.state) c' m') ∨
        (ℓ ≠ .resume h ∧ m' = m ∧ c.Agrees c' h)) := by
  have hlegit := hc.step hM hI hκ hstep
  have hprogress := hc.progress hM hI hκ hstep
  cases hprogress with
  | @start e s _ hb hκ' hg hstarted =>
    have hagrees : c.Agrees c' h := by
      simp only [Config.step, hb] at hstep
      obtain rfl := Option.some.inj hstep
      exact Config.agrees_settle hh.ne _ _
    exact ⟨m, ht.other (fun heq => hh.ne (Option.some.inj heq).symm) hagrees (.start hb hg),
      .inr ⟨fun heq => (by cases heq), rfl, hagrees⟩⟩
  | @env d _ he hstarted =>
    have hagrees : c.Agrees c' h := by
      simp only [Config.step] at hstep
      split at hstep
      · obtain rfl := Option.some.inj hstep
        exact ⟨rfl, rfl⟩
      · cases hstep
    exact ⟨m, ht.other (j := none) (Option.some_ne_none h).symm hagrees (.env he),
      .inr ⟨fun heq => (by cases heq), rfl, hagrees⟩⟩
  | @resume j p k _ hp hκ' hg hstarted =>
    simp only [Config.step, hp] at hstep
    obtain rfl := Option.some.inj hstep
    by_cases hj : h = j
    · subst hj
      rcases ht with ⟨p', k', s, hpool, hIs, hs, hk⟩ | ⟨hpool, -⟩
      · obtain ⟨rfl, rfl⟩ : p = p' ∧ k = k' := by simpa [hp] using hpool
        obtain ⟨m', hstint, ht'⟩ := Tracked.of_settle M guar
          (hk _ (hrely s hIs hs rfl)) hlegit.inv
        exact ⟨m', ht', .inl ⟨rfl, by simp [hp], hstint⟩⟩
      · simp [hp] at hpool
    · have hagrees := Config.agrees_settle hj c (k (M.enter j c.state))
      exact ⟨m, ht.other (fun heq => hj (Option.some.inj heq).symm) hagrees (.run hg),
        .inr ⟨fun heq => hj (Label.resume.inj heq).symm, rfl, hagrees⟩⟩

/-! ## Requests carried out in order -/

/-- A configuration, the handlers whose request of a certain kind is still to be
carried out, oldest first, and the states in which such requests were made. -/
structure Queued (π σ ε ρ : Type) where
  config : Config π σ ε ρ
  queue : List ℕ
  made : List σ

namespace Queued

/-- Handler `h` waits for a request of the kind to be carried out. -/
def asks (kind : π → Bool) (c : Config π σ ε ρ) (h : ℕ) : Bool :=
  (c.pool h).any fun r => kind r.1

/-- The handler that a decision lets run. -/
def runner (c : Config π σ ε ρ) : Label ι δ → Option ℕ
  | .start _ => some c.started
  | .resume h => some h
  | .env _ => none

/-- Record what the decision that led to `c'` did to the requests. -/
def record (kind : π → Bool) (q : Queued π σ ε ρ) (ℓ : Label ι δ) (c' : Config π σ ε ρ) :
    Queued π σ ε ρ :=
  match runner q.config ℓ with
  | none => { q with config := c' }
  | some h =>
      if asks kind c' h then ⟨c', q.queue.erase h ++ [h], q.made ++ [c'.state]⟩
      else ⟨c', q.queue.erase h, q.made⟩

/-- A decision that carries a request out carries the oldest one out. -/
def inTurn (q : Queued π σ ε ρ) : Label ι δ → Bool
  | .resume h => h ∉ q.queue || q.queue.head? = some h
  | _ => true

/-- One decision. -/
def step (M : Machine ι δ π σ ε ρ) (kind : π → Bool) (q : Queued π σ ε ρ) (ℓ : Label ι δ) :
    Option (Queued π σ ε ρ) :=
  if q.inTurn ℓ then (q.config.step M ℓ).map fun c' => q.record kind ℓ c' else none

/-- Carry a schedule out. -/
def replay (M : Machine ι δ π σ ε ρ) (kind : π → Bool) (q : Queued π σ ε ρ) :
    List (Label ι δ) → Option (Queued π σ ε ρ)
  | [] => some q
  | ℓ :: ls => (q.step M kind ℓ).bind fun q' => q'.replay M kind ls

/-- No request has been made. -/
def initial (c : Config π σ ε ρ) : Queued π σ ε ρ := ⟨c, [], []⟩

variable {kind : π → Bool} {q q' : Queued π σ ε ρ} {ℓ : Label ι δ}

theorem record_config : (q.record kind ℓ c').config = c' := by
  unfold record
  split
  · rfl
  · split <;> rfl

theorem step_eq_some (hstep : q.step M kind ℓ = some q') :
    q.inTurn ℓ = true ∧ q.config.step M ℓ = some q'.config ∧ q' = q.record kind ℓ q'.config := by
  unfold step at hstep
  split_ifs at hstep with hturn
  obtain ⟨c', hc', rfl⟩ := Option.map_eq_some_iff.mp hstep
  rw [record_config]
  exact ⟨hturn, hc', rfl⟩

/-- Nobody has run. -/
theorem record_of_none (hrunner : runner q.config ℓ = none) :
    q.record kind ℓ c' = { q with config := c' } := by
  unfold record
  rw [hrunner]

/-- Handler `h` has run. -/
theorem record_of_some (hrunner : runner q.config ℓ = some h) : q.record kind ℓ c' =
    if asks kind c' h then ⟨c', q.queue.erase h ++ [h], q.made ++ [c'.state]⟩
    else ⟨c', q.queue.erase h, q.made⟩ := by
  unfold record
  rw [hrunner]

/-- The queue lists the handlers that wait for a request of the kind, each once. -/
structure Faithful (kind : π → Bool) (q : Queued π σ ε ρ) : Prop where
  nodup : q.queue.Nodup
  mem : ∀ h, h ∈ q.queue ↔ asks kind q.config h = true

theorem asks_congr (ha : c.Agrees c' h) : asks kind c' h = asks kind c h := by
  unfold asks
  rw [ha.1]

/-- A decision touches no handler but the one that it lets run. -/
theorem agrees_of_step {ℓ : Label ι δ} (hstep : c.step M ℓ = some c')
    (hh : runner c ℓ ≠ some h) : c.Agrees c' h := by
  cases ℓ with
  | start e =>
    simp only [Config.step] at hstep
    split at hstep
    · obtain rfl := Option.some.inj hstep
      exact Config.agrees_settle (fun heq => hh (congrArg some heq.symm)) _ _
    · cases hstep
  | resume j =>
    simp only [Config.step] at hstep
    split at hstep
    · obtain rfl := Option.some.inj hstep
      exact Config.agrees_settle (fun heq => hh (congrArg some heq.symm)) c _
    · cases hstep
  | env d =>
    simp only [Config.step] at hstep
    split at hstep
    · obtain rfl := Option.some.inj hstep
      exact ⟨rfl, rfl⟩
    · cases hstep

/-- Every decision keeps the queue faithful. -/
theorem Faithful.step (hq : q.Faithful kind) (hstep : q.step M kind ℓ = some q') :
    q'.Faithful kind := by
  obtain ⟨-, hc, hq'⟩ := step_eq_some hstep
  cases hrunner : runner q.config ℓ with
  | none =>
    rw [hq', record_of_none hrunner]
    refine ⟨hq.nodup, fun k => (hq.mem k).trans ?_⟩
    rw [asks_congr (agrees_of_step hc (h := k) (by simp [hrunner]))]
  | some h =>
    have others : ∀ k, k ≠ h → (k ∈ q.queue.erase h ↔ asks kind q'.config k = true) := by
      intro k hk
      have hagrees := agrees_of_step hc (h := k) (by simpa [hrunner] using Ne.symm hk)
      rw [asks_congr hagrees, ← hq.mem k, List.mem_erase_of_ne hk]
    have hgone : h ∉ q.queue.erase h := hq.nodup.not_mem_erase
    have hnodup := hq.nodup.erase h
    rw [hq', record_of_some hrunner]
    split_ifs with hasks
    · refine ⟨?_, fun k => ?_⟩
      · show (q.queue.erase h ++ [h]).Nodup
        rw [List.nodup_append]
        refine ⟨hnodup, List.nodup_singleton h, fun a ha b hb hab => hgone ?_⟩
        rw [List.mem_singleton] at hb
        rwa [hab, hb] at ha
      · show k ∈ q.queue.erase h ++ [h] ↔ _
        rw [List.mem_append, List.mem_singleton]
        by_cases hk : k = h
        · subst hk
          simp [hasks]
        · simp [hk, others k hk]
    · refine ⟨hnodup, fun k => ?_⟩
      show k ∈ q.queue.erase h ↔ _
      by_cases hk : k = h
      · subst hk
        simp [hasks, hgone]
      · exact others k hk

/-- What every decision keeps holds throughout. -/
theorem replay_induct {J : Queued π σ ε ρ → Prop} {ls : List (Label ι δ)}
    (hstep : ∀ q ℓ q', J q → q.step M kind ℓ = some q' → J q') (hq : J q)
    (hr : q.replay M kind ls = some q') : J q' := by
  induction ls generalizing q with
  | nil =>
    obtain rfl := Option.some.inj hr
    exact hq
  | cons ℓ ls ih =>
    obtain ⟨q₁, hq₁, hr⟩ := Option.bind_eq_some_iff.mp hr
    exact ih (hstep q ℓ q₁ hq hq₁) hr

end Queued

end Coop
