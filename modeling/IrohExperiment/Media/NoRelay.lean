/-
# The no-relay proof (`media-separation/src/lib.rs`)

When a count of zero means that no relay path was open: as long as the evidence of a relay
path, an event on its way to the monitor or the open path itself, is not lost.

The main result is `no_relay_proof`, about every run whose steps lose no such evidence; its
invariant is that a relay path that has ever been open is counted, still open, or on its
way.  `relay_overlooked` is a run that loses it, by a stop while the event is under way.
-/
import IrohExperiment.Media.Monitor

namespace IrohExperiment.Media

open History

variable {gate : MediaGate} {c c' : Monitoring} {event : MonitorEvent} {history : List MonitorEvent}

/-! ## Evidence -/

/-- A relay path that was opened before the monitor was asked to stop. -/
def Path.counts (path : Path) : Bool := path.relay && path.early

/-- The event is about such a path. -/
def PathEvent.counts : PathEvent → Bool
  | .opened path | .selected path | .closed path => path.counts
  | .lagged => false

namespace Monitoring

/-- An event about such a path is on its way, or such a path is open. -/
def pendingEvidence (c : Monitoring) : Bool :=
  c.events.any PathEvent.counts || c.paths.any Path.counts

/-- A relay path has been counted, or will be if nothing is lost. -/
def Evidence (c : Monitoring) : Prop :=
  0 < c.everRelayPaths ∨ c.subscribed = true ∧ c.pendingEvidence = true

/-- The step loses the last evidence of a relay path that has not been counted: the event
stream replaces it, or the monitor ends without looking at it. -/
def loses (event : MonitorEvent) (c : Monitoring) : Bool :=
  c.everRelayPaths = 0 &&
    match event with
    | .lag count => c.pendingEvidence && !(c.lag count).pendingEvidence
    | .closed _ | .stopped => c.pendingEvidence
    | .reconcile now => c.pendingEvidence && !c.paths.any Path.relay &&
        (c.gate.apply c.snapshot now).state.isStopped
    | _ => false

end Monitoring

open Monitoring

/-- An event that is not about a relay path is no evidence. -/
theorem counts_of_not_relay {event : PathEvent} (h : ¬ eventHasRelayPath event = true) :
    event.counts = false := by
  cases event with
  | opened path | selected path | closed path =>
    have hrelay : path.relay = false := Bool.eq_false_iff.mpr h
    show (path.relay && path.early) = false
    rw [hrelay, Bool.false_and]
  | lagged => rfl

theorem evidence_of_count (h : 0 < c.everRelayPaths) : Evidence c := .inl h

/-- What is emitted is added to the evidence. -/
theorem emit_pendingEvidence (event : PathEvent) (h : c.subscribed = true) :
    (c.emit event).pendingEvidence = (c.pendingEvidence || event.counts) := by
  unfold Monitoring.emit
  rw [if_pos h]
  simp only [pendingEvidence, List.any_append, List.any_cons, List.any_nil, Bool.or_false]
  cases c.events.any PathEvent.counts <;> cases c.paths.any Path.counts <;>
    cases event.counts <;> rfl

@[simp] theorem emit_everRelayPaths (event : PathEvent) :
    (c.emit event).everRelayPaths = c.everRelayPaths := by
  unfold Monitoring.emit
  split_ifs <;> rfl

@[simp] theorem emit_phase (event : PathEvent) : (c.emit event).phase = c.phase := by
  unfold Monitoring.emit
  split_ifs <;> rfl

@[simp] theorem emit_paths (event : PathEvent) : (c.emit event).paths = c.paths := by
  unfold Monitoring.emit
  split_ifs <;> rfl

@[simp] theorem emit_gate (event : PathEvent) : (c.emit event).gate = c.gate := by
  unfold Monitoring.emit
  split_ifs <;> rfl

@[simp] theorem emit_stopAsked (event : PathEvent) : (c.emit event).stopAsked = c.stopAsked := by
  unfold Monitoring.emit
  split_ifs <;> rfl

@[simp] theorem emit_connClosed (event : PathEvent) : (c.emit event).connClosed = c.connClosed := by
  unfold Monitoring.emit
  split_ifs <;> rfl

@[simp] theorem emit_subscribed (event : PathEvent) : (c.emit event).subscribed = c.subscribed := by
  unfold Monitoring.subscribed
  rw [emit_phase]

/-! ## Steps of the paths -/

/-- A step of the connection keeps the evidence, if what it takes from the open paths it
reports. -/
theorem evidence_emit {paths : List Path} {report : PathEvent} (h : Evidence c)
    (hpaths : c.paths.any Path.counts = true → paths.any Path.counts = true ∨
      report.counts = true) :
    Evidence (Monitoring.emit { c with paths := paths } report) := by
  rcases h with hcount | ⟨hsubscribed, hpending⟩
  · exact .inl (by rw [emit_everRelayPaths]; exact hcount)
  · refine .inr ⟨by rw [emit_subscribed]; exact hsubscribed, ?_⟩
    rw [emit_pendingEvidence (c := { c with paths := paths }) report hsubscribed]
    simp only [pendingEvidence, Bool.or_eq_true] at hpending ⊢
    rcases hpending with hevents | hopen
    · exact .inl (.inl hevents)
    · exact (hpaths hopen).imp .inr id

/-- Selecting a path opens and closes none. -/
theorem any_select (paths : List Path) (id : ℕ) (p : Path → Bool)
    (hp : ∀ path selected, p { path with selected := selected } = p path) :
    (paths.map fun path => { path with selected := path.id == id }).any p = paths.any p := by
  rw [List.any_map]
  exact congrArg paths.any (funext fun path => hp path _)

/-- A path that is not closed stays. -/
theorem any_close {paths : List Path} (path : Path) (p : Path → Bool) (hany : paths.any p = true) :
    (paths.filter (· ≠ path)).any p = true ∨ p path = true := by
  obtain ⟨q, hq, hcounts⟩ := List.any_eq_true.mp hany
  by_cases heq : q = path
  · rw [← heq]
    exact .inr hcounts
  · exact .inl (List.any_eq_true.mpr ⟨q, List.mem_filter.mpr ⟨hq, by simpa using heq⟩, hcounts⟩)

/-! ## What is kept -/

/-- What is known of the monitor and the connection. -/
structure Vigilant (c : Monitoring) : Prop where
  early : c.stopAsked = false → ∀ p ∈ c.paths, p.early = true
  ended : c.phase = .done → c.stopAsked = false →
    c.connClosed = true ∧ (c.RelayOpen → 0 < c.everRelayPaths)

theorem vigilant_start : Vigilant (Monitoring.start gate) := by
  refine ⟨fun _ p hp => ?_, fun hdone => ?_⟩
  · cases hp
  · cases hdone

/-- A path that is open in the window counts. -/
theorem Vigilant.counts (h : Vigilant c) (hasked : c.stopAsked = false) {p : Path}
    (hp : p ∈ c.paths) (hrelay : p.relay = true) : p.counts = true := by
  unfold Path.counts
  rw [hrelay, h.early hasked p hp]
  rfl

/-- A relay path that is open in the window is evidence. -/
theorem Vigilant.evidence (h : Vigilant c) (hwindow : c.InWindow) (hopen : c.RelayOpen) :
    Evidence c := by
  obtain ⟨p, hp, hrelay⟩ := hopen
  have hpending : c.pendingEvidence = true := by
    unfold pendingEvidence
    rw [Bool.or_eq_true]
    exact .inr (List.any_eq_true.mpr ⟨p, hp, h.counts hwindow.2 hp hrelay⟩)
  cases hphase : c.phase with
  | spawned => exact absurd hphase hwindow.1
  | selecting => exact .inr ⟨by unfold Monitoring.subscribed; rw [hphase], hpending⟩
  | reconciling => exact .inr ⟨by unfold Monitoring.subscribed; rw [hphase], hpending⟩
  | done => exact .inl ((h.ended hphase hwindow.2).2 ⟨p, hp, hrelay⟩)

/-- A step that changes neither paths nor counts, nor ends anything. -/
theorem Vigilant.same (h : Vigilant c) (hpaths : c'.paths = c.paths)
    (hcount : c'.everRelayPaths = c.everRelayPaths)
    (hclosed : c.connClosed = true → c'.connClosed = true)
    (hphase : c'.phase = .done → c.phase = .done)
    (hasked : c'.stopAsked = false → c.stopAsked = false) :
    Vigilant c' := by
  constructor
  · intro hnot
    rw [hpaths]
    exact h.early (hasked hnot)
  · intro hdone hnot
    obtain ⟨hconn, hrelay⟩ := h.ended (hphase hdone) (hasked hnot)
    unfold Monitoring.RelayOpen
    rw [hpaths, hcount]
    exact ⟨hclosed hconn, hrelay⟩

/-- A step of the connection that opens no relay path. -/
theorem Vigilant.emit (h : Vigilant c) {paths : List Path} (report : PathEvent)
    (hearly : c.stopAsked = false → ∀ p ∈ paths, p.early = true)
    (hopen : c.phase = .done → c.stopAsked = false → (∃ p ∈ paths, p.relay = true) → c.RelayOpen) :
    Vigilant (Monitoring.emit { c with paths := paths } report) := by
  constructor
  · rw [emit_stopAsked, emit_paths]
    exact hearly
  · rw [emit_phase, emit_stopAsked, emit_connClosed, emit_everRelayPaths]
    unfold Monitoring.RelayOpen
    rw [emit_paths]
    intro hdone hnot
    obtain ⟨hconn, hrelay⟩ := h.ended hdone hnot
    exact ⟨hconn, fun hany => hrelay (hopen hdone hnot hany)⟩

/-- Evidence that is not counted is on its way. -/
theorem Monitoring.Evidence.pending (h : Evidence c) (hzero : ¬ 0 < c.everRelayPaths) :
    c.pendingEvidence = true := by
  rcases h with hcount | ⟨-, hpending⟩
  · exact absurd hcount hzero
  · exact hpending

/-- A monitor that ends without losing evidence has counted it. -/
theorem counted_of_kept (hkept : (decide (c.everRelayPaths = 0) && c.pendingEvidence) = false)
    (hpending : c.pendingEvidence = true) : 0 < c.everRelayPaths := by
  by_contra hzero
  simp [Nat.eq_zero_of_not_pos hzero, hpending] at hkept

/-- A snapshot counts the open relay paths. -/
theorem countP_relay_pos (hopen : c.paths.any Path.relay = true) :
    0 < c.paths.countP Path.relay := by
  obtain ⟨p, hp, hrelay⟩ := List.any_eq_true.mp hopen
  exact List.countP_pos_iff.mpr ⟨p, hp, hrelay⟩

theorem Vigilant.step (h : Vigilant c) (hkept : c.loses event = false)
    (hstep : Monitoring.step event c = some c') : Vigilant c' := by
  unfold Monitoring.step at hstep
  cases event with
  | openPath id relay =>
    obtain ⟨⟨hconn, -⟩, rfl⟩ := of_guarded hstep
    refine h.emit _ (fun hnot p hp => ?_) (fun hdone hnot => ?_)
    · rcases List.mem_append.mp hp with hold | hnew
      · exact h.early hnot p hold
      · rw [List.mem_singleton.mp hnew, hnot]
        rfl
    · -- nothing is opened on a closed connection
      have hclosed := (h.ended hdone hnot).1
      rw [hconn] at hclosed
      cases hclosed
  | selectPath id =>
    obtain ⟨path, -, rfl⟩ := Option.map_eq_some_iff.mp hstep
    refine h.emit _ (fun hnot p hp => ?_) (fun _ _ hany => ?_)
    · obtain ⟨q, hq, rfl⟩ := List.mem_map.mp hp
      exact h.early hnot q hq
    · obtain ⟨p, hp, hrelay⟩ := hany
      obtain ⟨q, hq, rfl⟩ := List.mem_map.mp hp
      exact ⟨q, hq, hrelay⟩
  | closePath id =>
    obtain ⟨path, -, rfl⟩ := Option.map_eq_some_iff.mp hstep
    refine h.emit _ (fun hnot p hp => ?_) (fun _ _ hany => ?_)
    · exact h.early hnot p (List.mem_of_mem_filter hp)
    · obtain ⟨p, hp, hrelay⟩ := hany
      exact ⟨p, List.mem_of_mem_filter hp, hrelay⟩
  | closeConnection =>
    obtain rfl := Option.some.inj hstep
    exact h.same rfl rfl (fun _ => rfl) id id
  | lag count =>
    obtain ⟨-, rfl⟩ := of_guarded hstep
    exact h.same rfl rfl id id id
  | stop =>
    obtain rfl := Option.some.inj hstep
    exact h.same rfl rfl id id (fun hnot => (by cases hnot))
  | subscribe =>
    obtain ⟨-, rfl⟩ := of_guarded hstep
    exact h.same rfl rfl id (fun hdone => (by cases hdone)) id
  | next now =>
    cases hevents : c.events with
    | nil =>
      rw [hevents] at hstep
      cases hstep
    | cons event rest =>
      rw [hevents] at hstep
      obtain ⟨-, rfl⟩ := of_guarded hstep
      unfold Monitoring.next
      split_ifs
      · exact ⟨h.early, fun hdone => (by cases hdone)⟩
      · exact h.same rfl rfl id (fun hdone => (by cases hdone)) id
  | streamEnd =>
    obtain ⟨-, rfl⟩ := of_guarded hstep
    exact h.same rfl rfl id (fun hdone => (by cases hdone)) id
  | tick =>
    obtain ⟨-, rfl⟩ := of_guarded hstep
    exact h.same rfl rfl id (fun hdone => (by cases hdone)) id
  | closed now =>
    obtain ⟨⟨-, hconn⟩, rfl⟩ := of_guarded hstep
    refine ⟨h.early, fun _ hnot => ⟨hconn, fun hopen => ?_⟩⟩
    · obtain ⟨p, hp, hrelay⟩ := hopen
      -- an open relay path is evidence, and what is kept has been counted
      have hpending : c.pendingEvidence = true := by
        unfold pendingEvidence
        rw [Bool.or_eq_true]
        exact .inr (List.any_eq_true.mpr ⟨p, hp, h.counts hnot hp hrelay⟩)
      exact counted_of_kept hkept hpending
  | reconcile now =>
    obtain ⟨-, rfl⟩ := of_guarded hstep
    -- a gate that the snapshot stops ends the monitor, with the open paths counted
    by_cases hstopped : (c.gate.apply c.snapshot now).state.isStopped = true
    · rw [reconcile_stopped hstopped]
      refine ⟨h.early, fun _ _ => ⟨rfl, fun hopen => ?_⟩⟩
      obtain ⟨p, hp, hrelay⟩ := hopen
      have hpos := countP_relay_pos (List.any_eq_true.mpr ⟨p, hp, hrelay⟩)
      exact Nat.add_pos_right _ hpos
    · rw [reconcile_on hstopped]
      exact ⟨h.early, fun hdone => (by cases hdone)⟩
  | stopped =>
    -- the monitor is stopped only when it has been asked to
    obtain ⟨⟨-, hasked⟩, rfl⟩ := of_guarded hstep
    refine ⟨h.early, fun _ hnot => ?_⟩
    rw [hasked] at hnot
    cases hnot

/-- The monitor has its end of the event stream, or has counted. -/
theorem evidence_of_subscribed (h : Evidence c) (hcount : c.everRelayPaths ≤ c'.everRelayPaths)
    (hsubscribed : c.subscribed = true → c'.subscribed = true ∨ 0 < c'.everRelayPaths)
    (hpending : c.pendingEvidence = true → c'.pendingEvidence = true ∨ 0 < c'.everRelayPaths) :
    Evidence c' := by
  rcases h with hpos | ⟨hsub, hpend⟩
  · exact .inl (hpos.trans_le hcount)
  · rcases hsubscribed hsub with hsub' | hpos
    · rcases hpending hpend with hpend' | hpos
      · exact .inr ⟨hsub', hpend'⟩
      · exact .inl hpos
    · exact .inl hpos

/-- A step that loses no evidence keeps it. -/
theorem evidence_step (h : Evidence c) (hkept : c.loses event = false)
    (hstep : Monitoring.step event c = some c') : Evidence c' := by
  unfold Monitoring.step at hstep
  cases event with
  | openPath id relay =>
    obtain ⟨-, rfl⟩ := of_guarded hstep
    refine evidence_emit h (fun hopen => .inl ?_)
    rw [List.any_append, hopen, Bool.true_or]
  | selectPath id =>
    obtain ⟨path, -, rfl⟩ := Option.map_eq_some_iff.mp hstep
    refine evidence_emit h (fun hopen => .inl ?_)
    rw [any_select _ _ _ (fun _ _ => rfl)]
    exact hopen
  | closePath id =>
    obtain ⟨path, -, rfl⟩ := Option.map_eq_some_iff.mp hstep
    exact evidence_emit h (any_close path Path.counts)
  | closeConnection =>
    obtain rfl := Option.some.inj hstep
    exact evidence_of_subscribed h (Nat.le_refl _) .inl .inl
  | lag count =>
    obtain ⟨-, rfl⟩ := of_guarded hstep
    refine evidence_of_subscribed h (Nat.le_refl _) .inl (fun hpending => ?_)
    -- evidence that nothing has been counted for survives the lag
    by_cases hpos : 0 < c.everRelayPaths
    · exact .inr hpos
    · left
      simpa [Monitoring.loses, Nat.eq_zero_of_not_pos hpos, hpending] using hkept
  | stop =>
    obtain rfl := Option.some.inj hstep
    exact evidence_of_subscribed h (Nat.le_refl _) .inl .inl
  | subscribe =>
    obtain ⟨-, rfl⟩ := of_guarded hstep
    exact evidence_of_subscribed h (Nat.le_refl _) (fun _ => .inl rfl) .inl
  | next now =>
    cases hevents : c.events with
    | nil =>
      rw [hevents] at hstep
      cases hstep
    | cons event rest =>
      rw [hevents] at hstep
      obtain ⟨-, rfl⟩ := of_guarded hstep
      unfold Monitoring.next
      split_ifs with hrelay
      · exact evidence_of_count (Nat.succ_pos _)
      · -- an event that is not about a relay path is no evidence
        refine evidence_of_subscribed h (Nat.le_refl _) (fun _ => .inl rfl)
          (fun hpending => .inl ?_)
        unfold pendingEvidence at hpending ⊢
        rw [hevents, List.any_cons, counts_of_not_relay hrelay, Bool.false_or] at hpending
        exact hpending
  | streamEnd =>
    obtain ⟨-, rfl⟩ := of_guarded hstep
    exact evidence_of_subscribed h (Nat.le_refl _) (fun _ => .inl rfl) .inl
  | tick =>
    obtain ⟨-, rfl⟩ := of_guarded hstep
    exact evidence_of_subscribed h (Nat.le_refl _) (fun _ => .inl rfl) .inl
  | closed now =>
    obtain ⟨-, rfl⟩ := of_guarded hstep
    refine .inl ?_
    by_contra hzero
    -- the monitor ends here, so what was pending would be lost
    exact hzero (counted_of_kept hkept (h.pending hzero))
  | reconcile now =>
    obtain ⟨-, rfl⟩ := of_guarded hstep
    by_cases hstopped : (c.gate.apply c.snapshot now).state.isStopped = true
    · rw [reconcile_stopped hstopped]
      left
      by_contra hzero
      -- else no relay path is open, and the evidence in the queue is lost
      have hnone : c.everRelayPaths = 0 ∧ c.paths.countP Path.relay = 0 :=
        Nat.add_eq_zero_iff.mp (Nat.eq_zero_of_not_pos hzero)
      have hclosed : c.paths.any Path.relay = false := by
        by_contra hopen
        have hpos := countP_relay_pos (Bool.eq_true_of_not_eq_false hopen)
        rw [hnone.2] at hpos
        exact Nat.lt_irrefl 0 hpos
      have hpending := h.pending (by rw [hnone.1]; exact Nat.lt_irrefl 0)
      simp [Monitoring.loses, hnone.1, hpending, hclosed, hstopped] at hkept
    · rw [reconcile_on hstopped]
      exact evidence_of_subscribed h (Nat.le_add_right _ _) (fun _ => .inl rfl) .inl
  | stopped =>
    obtain ⟨-, rfl⟩ := of_guarded hstep
    refine .inl ?_
    by_contra hzero
    exact hzero (counted_of_kept hkept (h.pending hzero))

/-! ## The proof -/

/-- Some state of the history, after the subscription and before the request to stop, had
an open relay path. -/
def SawRelay (gate : MediaGate) (history : List MonitorEvent) : Prop :=
  ∃ before after m, history = before ++ after ∧ monitorRun gate before = some m ∧ m.InWindow ∧
    m.RelayOpen

theorem sawRelay_concat (hrun : monitorRun gate (history ++ [event]) = some c)
    (h : SawRelay gate (history ++ [event])) : SawRelay gate history ∨ c.InWindow ∧
      c.RelayOpen := by
  obtain ⟨before, after, m, heq, hbefore, hwindow, hopen⟩ := h
  rcases List.eq_nil_or_concat after with rfl | ⟨rest, last, rfl⟩
  · rw [List.append_nil] at heq
    subst heq
    rw [hrun] at hbefore
    obtain rfl := Option.some.inj hbefore
    exact .inr ⟨hwindow, hopen⟩
  · rw [List.concat_eq_append, ← List.append_assoc] at heq
    exact .inl ⟨before, rest, m, (List.append_inj' heq rfl).1, hbefore, hwindow, hopen⟩

/-- In a run that loses no evidence, a relay path that was open is counted or will be. -/
theorem evidence_run (hkept : Meets Monitoring.step (fun event m => m.loses event = false)
      (Monitoring.start gate) history)
    (hrun : monitorRun gate history = some c) :
    Vigilant c ∧ (SawRelay gate history → Evidence c) := by
  refine run_induct_meets (P := fun history c => Vigilant c ∧ (SawRelay gate history → Evidence c))
    ⟨vigilant_start, ?_⟩ ?_ hkept hrun
  · rintro ⟨before, after, m, heq, hbefore, hwindow, -⟩
    obtain ⟨rfl, -⟩ := List.append_eq_nil_iff.mp heq.symm
    obtain rfl := Option.some.inj hbefore
    exact absurd rfl hwindow.1
  · rintro history m event c hbefore ⟨hvigilant, hevidence⟩ hkept hstep
    have hvigilant' := hvigilant.step hkept hstep
    refine ⟨hvigilant', fun hsaw => ?_⟩
    rcases sawRelay_concat (run_concat.mpr ⟨m, hbefore, hstep⟩) hsaw with hold | ⟨hwindow, hopen⟩
    · exact evidence_step (hevidence hold) hkept hstep
    · exact hvigilant'.evidence hwindow hopen

/-- A relay path stops the gate. -/
theorem apply_relay (gate : MediaGate) (openDirect : ℕ) (selectedDirect : Bool) (now : ℕ) :
    (gate.apply (.snapshot openDirect true selectedDirect) now).state.isStopped = true := by
  unfold MediaGate.apply
  split_ifs with hstopped
  · exact hstopped
  · rfl

/-- Where a relay path is counted, the gate is stopped, whatever is lost. -/
def Latched (c : Monitoring) : Prop := 0 < c.everRelayPaths → c.gate.state.isStopped = true

theorem Latched.same (h : Latched c) (hcount : c'.everRelayPaths = c.everRelayPaths)
    (hgate : c'.gate = c.gate) : Latched c' := by
  unfold Latched
  rw [hcount, hgate]
  exact h

/-- A snapshot counts what it shows to the gate. -/
theorem Latched.reconcile (h : Latched c) (now : ℕ)
    (hpos : 0 < c.everRelayPaths + c.paths.countP Path.relay) :
    (c.gate.apply c.snapshot now).state.isStopped = true := by
  rcases Nat.eq_zero_or_pos c.everRelayPaths with hzero | hcount
  · have hopen : c.paths.any Path.relay = true := by
      rw [hzero, Nat.zero_add] at hpos
      obtain ⟨p, hp, hrelay⟩ := List.countP_pos_iff.mp hpos
      exact List.any_eq_true.mpr ⟨p, hp, hrelay⟩
    unfold Monitoring.snapshot
    rw [hopen]
    exact apply_relay ..
  · exact isStopped_apply (h hcount) _ _

theorem Latched.step (h : Latched c) (hstep : Monitoring.step event c = some c') : Latched c' := by
  unfold Monitoring.step at hstep
  cases event with
  | openPath id relay =>
    obtain ⟨-, rfl⟩ := of_guarded hstep
    exact h.same (emit_everRelayPaths _) (emit_gate _)
  | selectPath id | closePath id =>
    obtain ⟨path, -, rfl⟩ := Option.map_eq_some_iff.mp hstep
    exact h.same (emit_everRelayPaths _) (emit_gate _)
  | closeConnection | stop =>
    obtain rfl := Option.some.inj hstep
    exact h.same rfl rfl
  | lag count =>
    obtain ⟨-, rfl⟩ := of_guarded hstep
    exact h.same rfl rfl
  | subscribe | streamEnd | tick | stopped =>
    obtain ⟨-, rfl⟩ := of_guarded hstep
    exact h.same rfl rfl
  | next now =>
    cases hevents : c.events with
    | nil =>
      rw [hevents] at hstep
      cases hstep
    | cons event rest =>
      rw [hevents] at hstep
      obtain ⟨-, rfl⟩ := of_guarded hstep
      unfold Monitoring.next
      split_ifs
      · exact fun _ => apply_relay ..
      · exact h.same rfl rfl
  | closed now =>
    obtain ⟨-, rfl⟩ := of_guarded hstep
    exact fun hpos => isStopped_apply (h hpos) _ _
  | reconcile now =>
    obtain ⟨-, rfl⟩ := of_guarded hstep
    by_cases hstopped : (c.gate.apply c.snapshot now).state.isStopped = true
    · rw [reconcile_stopped hstopped]
      exact fun _ => hstopped
    · rw [reconcile_on hstopped]
      exact fun hpos => h.reconcile now hpos

theorem latched_run (hrun : monitorRun gate history = some c) : Latched c :=
  run_induct (P := fun _ c => Latched c) (fun hpos => absurd hpos (Nat.lt_irrefl 0))
    (fun _ _ _ _ _ h hstep => h.step hstep) hrun

/-- In every run in which no step loses the last evidence of a relay path, a monitor that
is done and has counted nothing proves that no relay path was open; and in every run, one
that has counted something has stopped the gate. -/
theorem no_relay_proof (hrun : monitorRun gate history = some c) :
    (Meets Monitoring.step (fun event m => m.loses event = false) (Monitoring.start gate) history →
      c.phase = .done → c.everRelayPaths = 0 → ¬ SawRelay gate history) ∧
    (0 < c.everRelayPaths → c.gate.state.isStopped = true) := by
  refine ⟨fun hkept hdone hzero hsaw => ?_, latched_run hrun⟩
  rcases (evidence_run hkept hrun).2 hsaw with hpos | ⟨hsubscribed, -⟩
  · rw [hzero] at hpos
    exact Nat.lt_irrefl 0 hpos
  · unfold Monitoring.subscribed at hsubscribed
    rw [hdone] at hsubscribed
    cases hsubscribed

/-- A relay path is opened, and the monitor is stopped with the event on its way. -/
def stoppedShort : List MonitorEvent :=
  [.subscribe, .openPath 0 false, .selectPath 0, .next 5, .reconcile 5, .openPath 1 true,
    .stop, .stopped]

/-- The monitor is done and has counted nothing, while a relay path is open. -/
theorem relay_overlooked :
    ∃ c, monitorRun .new stoppedShort = some c ∧ c.phase = .done ∧ c.everRelayPaths = 0 ∧
      SawRelay .new stoppedShort := by
  refine ⟨_, rfl, rfl, rfl, stoppedShort.take 6, stoppedShort.drop 6, _, rfl, rfl, ?_, ?_⟩
  · exact ⟨MonitorPhase.noConfusion, rfl⟩
  · exact ⟨⟨1, true, false, true⟩, by decide, rfl⟩

/-- A connection with a direct path only. -/
def directOnly : List MonitorEvent :=
  [.subscribe, .openPath 0 false, .selectPath 0, .next 5, .reconcile 5, .next 6,
    .reconcile 7, .stop, .stopped]

theorem no_relay_proof_direct : ¬ SawRelay .new directOnly := by
  obtain ⟨c, hrun, hdone, hzero⟩ : ∃ c, monitorRun .new directOnly = some c ∧ c.phase = .done ∧
    c.everRelayPaths = 0 := ⟨_, rfl, rfl, rfl⟩
  exact (no_relay_proof hrun).1 (by decide +kernel) hdone hzero

end IrohExperiment.Media
