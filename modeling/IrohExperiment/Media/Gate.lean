/-
# The media gate (`media-separation/src/lib.rs`)

The latching gate of the direct-only media path: what it does with each signal, and
what its state is after any history of signals.

`MediaGate.apply` and `MediaGate.stop` are the two ways to change it.  The main result is
`gate_spec`: after any history the state is settled by the first signal that trips the gate
and by whether a direct path has been shown before, and a gate that has stopped stays so.
-/
import IrohExperiment.History.First
import Mathlib.Tactic

namespace IrohExperiment.Media

open History

/-! ## The gate -/

/-- Why media was stopped. -/
inductive StopReason where
  | relayPathObserved
  | directPathLost
  | connectionClosed
  deriving DecidableEq, Repr

/-- Current gate decision derived from path telemetry. -/
inductive GateState where
  | awaitingDirect
  | directReady
  | stopped (reason : StopReason)
  deriving DecidableEq, Repr

/-- Raw signals the monitor derives from path telemetry. -/
inductive PathSignal where
  | snapshot (openDirect : ℕ) (hasRelay selectedDirect : Bool)
  | connectionClosed
  deriving DecidableEq, Repr

/-- The gate is shut for good. -/
def GateState.isStopped : GateState → Bool
  | .stopped _ => true
  | _ => false

/-- Latching fail-closed gate.  Of the watch channel it keeps the current value and
how often its subscribers have been notified. -/
structure MediaGate where
  state : GateState
  notified : ℕ
  everHadDirect : Bool
  directReadyAtUnixMs : Option ℕ
  deriving DecidableEq, Repr

namespace MediaGate

/-- `MediaGate::new` -/
def new : MediaGate := ⟨.awaitingDirect, 0, false, none⟩

/-- `watch::Sender::send_replace`: the value is replaced, and subscribers are notified. -/
def sendReplace (gate : MediaGate) (state : GateState) : MediaGate :=
  { gate with state := state, notified := gate.notified + 1 }

/-- `MediaGate::stop`, which returns the state it sets. -/
def stop (gate : MediaGate) (reason : StopReason) : MediaGate := gate.sendReplace (.stopped reason)

/-- `MediaGate::apply`, when the clock shows `now`; the source's function returns the state
of the result. -/
def apply (gate : MediaGate) (signal : PathSignal) (now : ℕ) : MediaGate :=
  if gate.state.isStopped then gate
  else
    match signal with
    | .connectionClosed => gate.stop .connectionClosed
    | .snapshot openDirect hasRelay selectedDirect =>
      if hasRelay then gate.stop .relayPathObserved
      else if openDirect = 0 ∧ gate.everHadDirect then gate.stop .directPathLost
      else
        let gate := if 0 < openDirect then { gate with everHadDirect := true } else gate
        if selectedDirect then
          let gate :=
            if gate.directReadyAtUnixMs = none then { gate with directReadyAtUnixMs := some now }
              else gate
          if gate.state ≠ .directReady then gate.sendReplace .directReady else gate
        else if gate.state = .directReady then gate.stop .directPathLost
        else gate

/-- `gate_stop_reason` -/
def stopReason (gate : MediaGate) : Option StopReason :=
  match gate.state with
  | .stopped reason => some reason
  | _ => none

/-- A stopped gate ignores every signal. -/
theorem apply_of_stopped {gate : MediaGate} {reason : StopReason}
    (hstate : gate.state = .stopped reason) (signal : PathSignal) (now : ℕ) :
    gate.apply signal now = gate := by
  unfold apply
  rw [hstate]
  rfl

end MediaGate

theorem isStopped_apply {gate : MediaGate} (h : gate.state.isStopped = true) (signal : PathSignal)
    (now : ℕ) : (gate.apply signal now).state.isStopped = true := by
  unfold MediaGate.apply
  rw [if_pos h]
  exact h

/-! ## Histories -/

/-- A history of a gate: signals, and what the clock shows when they are applied. -/
abbrev Signals := List (PathSignal × ℕ)

/-- The gate after a history. -/
def gateAfter (history : Signals) : MediaGate :=
  history.foldl (fun gate entry => gate.apply entry.1 entry.2) .new

@[simp] theorem gateAfter_nil : gateAfter [] = .new := rfl

@[simp] theorem gateAfter_concat (history : Signals) (entry : PathSignal × ℕ) :
    gateAfter (history ++ [entry]) = (gateAfter history).apply entry.1 entry.2 := by
  unfold gateAfter
  rw [List.foldl_append]
  rfl

/-- The signal is a snapshot with an open direct path. -/
def PathSignal.opensDirect : PathSignal → Bool
  | .snapshot openDirect _ _ => 0 < openDirect
  | .connectionClosed => false

/-- The signal is a snapshot with a selected direct path. -/
def PathSignal.selectsDirect : PathSignal → Bool
  | .snapshot _ _ selectedDirect => selectedDirect
  | .connectionClosed => false

/-- What trips the gate: a closed connection, a relay path, no direct path any more, or
no selected direct path any more. -/
def trips (before : Signals) (entry : PathSignal × ℕ) : Option StopReason :=
  match entry.1 with
  | .connectionClosed => some .connectionClosed
  | .snapshot openDirect hasRelay selectedDirect =>
    if hasRelay then some .relayPathObserved
    else if openDirect = 0 ∧ before.any (·.1.opensDirect) then some .directPathLost
    else if selectedDirect = false ∧ before.any (·.1.selectsDirect) then some .directPathLost
    else none

/-! ## What is kept along a history -/

/-- How often the state changes in a history. -/
def stateChanges (history : Signals) : ℕ :=
  (List.range history.length).countP fun k =>
    (gateAfter (history.take k)).state ≠ (gateAfter (history.take (k + 1))).state

theorem stateChanges_concat (history : Signals) (entry : PathSignal × ℕ) :
    stateChanges (history ++ [entry]) = stateChanges history +
      if (gateAfter history).state ≠ (gateAfter (history ++ [entry])).state then 1 else 0 := by
  unfold stateChanges
  rw [List.length_append, List.length_singleton, List.range_succ, List.countP_append,
    List.countP_singleton]
  congr 1
  · apply List.countP_congr
    intro k hk
    have hk := List.mem_range.mp hk
    rw [List.take_append_of_le_length hk.le, List.take_append_of_le_length hk]
  · rw [List.take_left, List.take_of_length_le (by simp)]
    simp

/-- The gate and its history, as long as nothing has tripped it. -/
structure Open (history : Signals) (gate : MediaGate) : Prop where
  everHadDirect : gate.everHadDirect = history.any (·.1.opensDirect)
  state : gate.state = if history.any (·.1.selectsDirect) then .directReady else .awaitingDirect
  ready : gate.directReadyAtUnixMs = none ↔ gate.state = .awaitingDirect

theorem open_new : Open [] .new := ⟨rfl, rfl, by decide⟩

theorem Open.not_stopped {history : Signals} {gate : MediaGate} (hopen : Open history gate) :
    gate.state.isStopped = false := by
  rw [hopen.state]
  split_ifs <;> rfl

/-- The gate after a snapshot that shows no relay path and no loss of all direct ones. -/
def MediaGate.settle (gate : MediaGate) (openDirect : ℕ) (selectedDirect : Bool) (now : ℕ) :
    MediaGate :=
  let gate := if 0 < openDirect then { gate with everHadDirect := true } else gate
  if selectedDirect then
    let gate :=
      if gate.directReadyAtUnixMs = none then { gate with directReadyAtUnixMs := some now }
        else gate
    if gate.state ≠ .directReady then gate.sendReplace .directReady else gate
  else if gate.state = .directReady then gate.stop .directPathLost
  else gate

/-- What an open gate does with a signal. -/
theorem Open.apply_eq {history : Signals} {gate : MediaGate} (hopen : Open history gate)
    (signal : PathSignal) (now : ℕ) :
    gate.apply signal now =
      match signal with
      | .connectionClosed => gate.stop .connectionClosed
      | .snapshot openDirect hasRelay selectedDirect =>
        if hasRelay then gate.stop .relayPathObserved
        else if openDirect = 0 ∧ history.any (·.1.opensDirect) then gate.stop .directPathLost
        else gate.settle openDirect selectedDirect now := by
  unfold MediaGate.apply
  rw [if_neg (by rw [hopen.not_stopped]; decide), ← hopen.everHadDirect]
  rfl

/-- A signal that trips an open gate stops it. -/
theorem Open.trip {history : Signals} {gate : MediaGate} (hopen : Open history gate)
    {signal : PathSignal} {now : ℕ} {reason : StopReason}
    (htrip : trips history (signal, now) = some reason) :
    (gate.apply signal now).state = .stopped reason ∧
      (gate.apply signal now).notified = gate.notified + 1 ∧
      (gate.apply signal now).directReadyAtUnixMs = gate.directReadyAtUnixMs := by
  rw [hopen.apply_eq]
  cases signal with
  | connectionClosed =>
    obtain rfl := Option.some.inj htrip
    exact ⟨rfl, rfl, rfl⟩
  | snapshot openDirect hasRelay selectedDirect =>
    simp only [trips] at htrip ⊢
    split_ifs at htrip ⊢ with hrelay hlost hdeselected
    · obtain rfl := Option.some.inj htrip
      exact ⟨rfl, rfl, rfl⟩
    · obtain rfl := Option.some.inj htrip
      exact ⟨rfl, rfl, rfl⟩
    · -- the selection has left the direct path
      obtain rfl := Option.some.inj htrip
      have hready : gate.state = .directReady := by rw [hopen.state, if_pos hdeselected.2]
      rw [hdeselected.1]
      by_cases hdirect : 0 < openDirect <;>
        simp [MediaGate.settle, MediaGate.stop, MediaGate.sendReplace,
        hdirect, hready]

/-- What an open gate shows has been there before. -/
theorem Open.ever_eq {history : Signals} {gate : MediaGate} (hopen : Open history gate)
    (openDirect : ℕ) :
    (if 0 < openDirect then { gate with everHadDirect := true } else gate) =
      { gate with everHadDirect := history.any (·.1.opensDirect) || decide (0 < openDirect) } := by
  split_ifs with hdirect
  · simp [hdirect]
  · simp [hdirect, ← hopen.everHadDirect]

/-- What a snapshot that trips nothing makes of an open gate. -/
theorem Open.settle_eq {history : Signals} {gate : MediaGate} (hopen : Open history gate)
    {openDirect : ℕ} {selectedDirect : Bool} (now : ℕ)
    (hkept : ¬ (selectedDirect = false ∧ history.any (·.1.selectsDirect) = true)) :
    gate.settle openDirect selectedDirect now =
      { state := if history.any (·.1.selectsDirect) || selectedDirect then .directReady
          else .awaitingDirect,
        notified := gate.notified +
          if history.any (·.1.selectsDirect) = false ∧ selectedDirect = true then 1 else 0,
        everHadDirect := history.any (·.1.opensDirect) || decide (0 < openDirect),
        directReadyAtUnixMs :=
          if history.any (·.1.selectsDirect) = false ∧ selectedDirect = true then some now
          else gate.directReadyAtUnixMs } := by
  have hstate := hopen.state
  have hready := hopen.ready
  unfold MediaGate.settle
  rw [hopen.ever_eq]
  cases hbefore : history.any (·.1.selectsDirect) with
  | true =>
    rw [hbefore, if_pos rfl] at hstate
    have hset : ¬ gate.directReadyAtUnixMs = none := by rw [hready, hstate]; decide
    have hselected : selectedDirect = true := by
      cases selectedDirect with
      | true => rfl
      | false => exact absurd ⟨rfl, hbefore⟩ hkept
    simp [hselected, hset, hstate]
  | false =>
    rw [hbefore, if_neg (by decide)] at hstate
    have hunset : gate.directReadyAtUnixMs = none := hready.mpr hstate
    cases selectedDirect <;> simp [hunset, hstate, MediaGate.sendReplace]

/-- A signal that does not trip an open gate leaves it open. -/
theorem Open.pass {history : Signals} {gate : MediaGate} (hopen : Open history gate)
    {signal : PathSignal} {now : ℕ} (hpass : trips history (signal, now) = none) :
    Open (history ++ [(signal, now)]) (gate.apply signal now) ∧
      (gate.apply signal now).notified = gate.notified +
        (if gate.state ≠ (gate.apply signal now).state then 1 else 0) ∧
      (gate.apply signal now).directReadyAtUnixMs =
        if gate.state = .awaitingDirect ∧ (gate.apply signal now).state = .directReady then some now
        else gate.directReadyAtUnixMs := by
  cases signal with
  | connectionClosed => cases hpass
  | snapshot openDirect hasRelay selectedDirect =>
    have happly := hopen.apply_eq (.snapshot openDirect hasRelay selectedDirect) now
    simp only [trips] at hpass happly
    split_ifs at hpass happly with hrelay hlost hkept
    rw [hopen.settle_eq now hkept] at happly
    have hstate := hopen.state
    have hready := hopen.ready
    simp only [happly]
    refine ⟨⟨?_, ?_, ?_⟩, ?_, ?_⟩
    · simp [List.any_append, PathSignal.opensDirect]
    · rw [List.any_append, List.any_cons, List.any_nil, Bool.or_false]
      rfl
    all_goals
      cases hbefore : history.any (·.1.selectsDirect) <;> cases selectedDirect <;> simp_all

/-! ## The specification -/

/-- The gate became direct-ready when the clock showed `now`. -/
def Entered (history : Signals) (now : ℕ) : Prop :=
  ∃ before signal after, history = before ++ (signal, now) :: after ∧
    (gateAfter before).state = .awaitingDirect ∧
    (gateAfter (before ++ [(signal, now)])).state = .directReady

theorem entered_concat {history : Signals} {entry : PathSignal × ℕ} {now : ℕ} :
    Entered (history ++ [entry]) now ↔ Entered history now ∨ entry.2 = now ∧
      (gateAfter history).state = .awaitingDirect ∧
      (gateAfter (history ++ [entry])).state = .directReady := by
  constructor
  · rintro ⟨before, signal, after, heq, hbefore, hafter⟩
    rcases concat_eq_append heq with ⟨rest, -, hrest⟩ | ⟨-, rfl, rfl⟩
    · exact .inl ⟨before, signal, rest, hrest, hbefore, hafter⟩
    · exact .inr ⟨rfl, hbefore, hafter⟩
  · rintro (⟨before, signal, after, rfl, hbefore, hafter⟩ | ⟨rfl, hbefore, hafter⟩)
    · exact ⟨before, signal, after ++ [entry], by simp, hbefore, hafter⟩
    · exact ⟨history, entry.1, [], rfl, hbefore, hafter⟩

/-- How often subscribers can have been notified. -/
def GateState.budget : GateState → ℕ
  | .awaitingDirect => 0
  | .directReady => 1
  | .stopped _ => 2

/-- An open gate that stays open never goes back. -/
theorem Open.kept {history : Signals} {entry : PathSignal × ℕ} {gate gate' : MediaGate}
    (hopen : Open history gate) (hopen' : Open (history ++ [entry]) gate')
    (hstate : gate.state = .directReady) : gate'.state = .directReady := by
  rw [hopen.state] at hstate
  split_ifs at hstate with hbefore
  rw [hopen'.state, List.any_append, hbefore, Bool.true_or, if_pos rfl]

/-- The notifications of an open gate stay within what its state allows. -/
theorem Open.budget_pass {history : Signals} {entry : PathSignal × ℕ} {gate gate' : MediaGate}
    (hopen : Open history gate) (hopen' : Open (history ++ [entry]) gate')
    (hbudget : gate.notified ≤ gate.state.budget) :
    gate.notified + (if gate.state ≠ gate'.state then 1 else 0) ≤ gate'.state.budget := by
  cases hstate : gate.state with
  | awaitingDirect =>
    rw [hstate] at hbudget
    cases hstate' : gate'.state with
    | awaitingDirect => simpa using hbudget
    | directReady => simpa [GateState.budget] using hbudget
    | stopped reason =>
      have hnot := hopen'.not_stopped
      rw [hstate'] at hnot
      cases hnot
  | directReady =>
    rw [hopen.kept hopen' hstate]
    rw [hstate] at hbudget
    simpa using hbudget
  | stopped reason =>
    have hnot := hopen.not_stopped
    rw [hstate] at hnot
    cases hnot

theorem GateState.budget_le (state : GateState) : state.budget ≤ 2 := by
  cases state with
  | awaitingDirect => exact Nat.zero_le 2
  | directReady => exact Nat.le_succ 1
  | stopped reason => exact Nat.le_refl 2

/-- What is known of a gate and its history. -/
structure Tracks (history : Signals) (gate : MediaGate) : Prop where
  untripped : Untriggered trips history → Open history gate
  tripped : ∀ reason, FirstTriggered trips history reason → gate.state = .stopped reason
  notified : gate.notified = stateChanges history
  budget : gate.notified ≤ gate.state.budget
  ready : ∀ now, gate.directReadyAtUnixMs = some now ↔ Entered history now

theorem tracks_nil : Tracks [] .new := by
  refine ⟨fun _ => open_new, fun _ h => absurd h not_firstTriggered_nil, rfl, Nat.zero_le _, ?_⟩
  intro now
  constructor
  · intro h
    cases h
  · rintro ⟨before, signal, after, heq, -⟩
    cases before <;> cases heq

/-- A signal that trips nothing. -/
theorem Tracks.pass {history : Signals} {entry : PathSignal × ℕ}
    (h : Tracks history (gateAfter history)) (hun : Untriggered trips history)
    (hnone : trips history entry = none) :
    Tracks (history ++ [entry]) (gateAfter (history ++ [entry])) := by
  have hopen := h.untripped hun
  obtain ⟨hopen', hnotified, hready⟩ := hopen.pass hnone
  rw [← gateAfter_concat] at hopen' hnotified hready
  constructor
  · exact fun _ => hopen'
  · intro reason hfirst
    rcases firstTriggered_concat.mp hfirst with hold | ⟨-, hsome⟩
    · exact absurd hun hold.not_untriggered
    · rw [hnone] at hsome
      cases hsome
  · rw [hnotified, h.notified, stateChanges_concat]
  · have hbudget := h.budget
    rw [hnotified]
    exact hopen.budget_pass hopen' hbudget
  · intro now
    rw [entered_concat, ← h.ready, hready]
    by_cases hentered : (gateAfter history).state = .awaitingDirect ∧
        (gateAfter (history ++ [entry])).state = .directReady
    · have hunset : (gateAfter history).directReadyAtUnixMs = none := hopen.ready.mpr hentered.1
      rw [if_pos hentered, hunset]
      simp only [hentered, and_true, false_or, Option.some.injEq, reduceCtorEq]
    · rw [if_neg hentered]
      simp only [hentered, and_false, or_false]

/-- A signal that trips an open gate. -/
theorem Tracks.trip {history : Signals} {entry : PathSignal × ℕ}
    (h : Tracks history (gateAfter history)) (hun : Untriggered trips history) {reason : StopReason}
    (hsome : trips history entry = some reason) :
    Tracks (history ++ [entry]) (gateAfter (history ++ [entry])) := by
  have hopen := h.untripped hun
  obtain ⟨hstate, hnotified, hready⟩ := hopen.trip hsome
  rw [← gateAfter_concat] at hstate hnotified hready
  constructor
  · intro hun'
    rw [(untriggered_concat.mp hun').2] at hsome
    cases hsome
  · intro reason' hfirst
    rcases firstTriggered_concat.mp hfirst with hold | ⟨-, hsome'⟩
    · exact absurd hun hold.not_untriggered
    · rw [hsome] at hsome'
      rw [hstate, Option.some.inj hsome']
  · have hchanged : (gateAfter history).state ≠ (gateAfter (history ++ [entry])).state := by
      intro heq
      have hnot := hopen.not_stopped
      rw [heq, hstate] at hnot
      cases hnot
    rw [hnotified, h.notified, stateChanges_concat, if_pos hchanged]
  · have hbudget := h.budget
    rw [hnotified, hstate]
    rw [hopen.state] at hbudget
    split_ifs at hbudget
    · exact Nat.succ_le_succ hbudget
    · exact Nat.le_succ_of_le (Nat.succ_le_succ hbudget)
  · intro now
    rw [entered_concat, ← h.ready, hready, hstate]
    simp

/-- A gate that has been stopped stays as it is. -/
theorem Tracks.stopped {history : Signals} {entry : PathSignal × ℕ}
    (h : Tracks history (gateAfter history)) {reason : StopReason}
    (hfirst : FirstTriggered trips history reason) :
    Tracks (history ++ [entry]) (gateAfter (history ++ [entry])) ∧
      gateAfter (history ++ [entry]) = gateAfter history := by
  have hstate := h.tripped reason hfirst
  have hsame : gateAfter (history ++ [entry]) = gateAfter history := by
    rw [gateAfter_concat, MediaGate.apply_of_stopped hstate]
  refine ⟨?_, hsame⟩
  constructor
  · intro hun
    exact absurd (untriggered_concat.mp hun).1 hfirst.not_untriggered
  · intro reason' hfirst'
    rw [hsame]
    rcases firstTriggered_concat.mp hfirst' with hold | ⟨hun, -⟩
    · exact h.tripped reason' hold
    · exact absurd hun hfirst.not_untriggered
  · rw [stateChanges_concat, hsame, h.notified]
    simp
  · rw [hsame]
    exact h.budget
  · intro now
    rw [entered_concat, hsame, ← h.ready, hstate]
    simp

theorem tracks (history : Signals) : Tracks history (gateAfter history) := by
  induction history using List.reverseRecOn with
  | nil => exact tracks_nil
  | append_singleton history entry ih =>
    rcases untriggered_or_firstTriggered trips history with hun | ⟨reason, hfirst⟩
    · cases htrip : trips history entry with
      | none => exact ih.pass hun htrip
      | some reason => exact ih.trip hun htrip
    · exact (ih.stopped hfirst).1

/-- A gate that has been stopped keeps its state, whatever comes after. -/
theorem stopped_stays {history : Signals} {reason : StopReason}
    (hfirst : FirstTriggered trips history reason) (later : Signals) :
    (gateAfter (history ++ later)).state = .stopped reason := by
  induction later using List.reverseRecOn with
  | nil =>
    rw [List.append_nil]
    exact (tracks history).tripped reason hfirst
  | append_singleton later entry ih =>
    rw [← List.append_assoc, gateAfter_concat, MediaGate.apply_of_stopped ih]
    exact ih

/-- The gate after any history of signals: it is stopped for the reason of the first
signal that trips it and stays so, without such a signal it is ready once a snapshot had
a selected direct path, the time it became ready is kept, and subscribers are notified
once for every change of its state, at most twice. -/
theorem gate_spec (history : Signals) :
    (∀ reason, (gateAfter history).state = .stopped reason ↔ FirstTriggered trips history reason) ∧
    (Untriggered trips history → (gateAfter history).state =
      if history.any (·.1.selectsDirect) then .directReady else .awaitingDirect) ∧
    (∀ reason, (gateAfter history).state = .stopped reason →
      ∀ later, (gateAfter (history ++ later)).state = .stopped reason) ∧
    (∀ now, (gateAfter history).directReadyAtUnixMs = some now ↔ Entered history now) ∧
    (gateAfter history).notified = stateChanges history ∧
    (gateAfter history).notified ≤ 2 := by
  have htracks := tracks history
  have hstopped : ∀ reason, (gateAfter history).state = .stopped reason ↔
      FirstTriggered trips history reason := by
    intro reason
    refine ⟨fun hstate => ?_, htracks.tripped reason⟩
    rcases untriggered_or_firstTriggered trips history with hun | ⟨first, hfirst⟩
    · have hnot := (htracks.untripped hun).not_stopped
      rw [hstate] at hnot
      cases hnot
    · have hsame := htracks.tripped first hfirst
      rw [hstate] at hsame
      cases hsame
      exact hfirst
  refine ⟨hstopped, fun hun => (htracks.untripped hun).state, ?_, htracks.ready,
    htracks.notified, ?_⟩
  · intro reason hstate later
    exact stopped_stays ((hstopped reason).mp hstate) later
  · exact htracks.budget.trans (GateState.budget_le _)

end IrohExperiment.Media
