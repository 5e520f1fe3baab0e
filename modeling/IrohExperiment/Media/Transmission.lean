/-
# Transmission of the synthetic stream (`media-separation/src/lib.rs`)

What the sender has handed to the stream, and when, in any order of gate changes, ticks
and steps of the sender.

The steps are those of the sender and of the gate that others change at any time.  The main
result is `streams_under_gate`: nothing is written before the gate is ready, every frame has
its tick, at most one write ends after a stop, and the statistics are those of what has been
flushed.
-/
import IrohExperiment.Media.Sender

namespace IrohExperiment.Media

open Rust History

variable {payloadBytes : UInt16} {gate : MediaGate} {seen : ℕ} {c c' m : Sending}
    {event : SendEvent}
  {events : List SendEvent}

/-! ## The steps -/

/-- The steps of the sender, with the state after each. -/
inductive Steps (payloadBytes : UInt16) (c : Sending) : SendEvent → Sending → Prop where
  | signal (signal : PathSignal) (now : ℕ) :
      Steps payloadBytes c (.signal signal now) { c with gate := c.gate.apply signal now }
  | awaitReady (phase : c.phase = .waiting) (ready : c.gate.state = .directReady) :
      Steps payloadBytes c .await (c.look.goto .spawned)
  | awaitStopped (phase : c.phase = .waiting) (stopped : c.gate.state.isStopped = true) :
      Steps payloadBytes c .await (c.look.finish c.gate.stopReason)
  | awaitParked (phase : c.phase = .waiting) : Steps payloadBytes c .await (c.look.goto .parked)
  | awaited (phase : c.phase = .parked) : Steps payloadBytes c .awaited (c.look.goto .waiting)
  | timeout (phase : c.phase = .parked) :
      Steps payloadBytes c .timeout (c.goto (.returned (.error .notReady)))
  | subscribe (phase : c.phase = .spawned) : Steps payloadBytes c .subscribe (c.look.goto .opening)
  | firstTick (phase : c.phase = .opening) : Steps payloadBytes c .firstTick (c.goto .selecting)
  | tick (phase : c.phase = .selecting) : Steps payloadBytes c .tick (c.goto .woken)
  | changed (phase : c.phase = .selecting) (unseen : c.seen ≠ c.gate.notified) :
      Steps payloadBytes c .changed (c.look.goto .woken)
  | deadline (phase : c.phase = .selecting) : Steps payloadBytes c .deadline (c.goto .closing)
  | lookStopped (overdue : Bool) (phase : c.phase = .woken)
      (stopped : c.gate.state.isStopped = true) :
      Steps payloadBytes c (.look overdue) (c.look.finish c.gate.stopReason)
  | lookOverdue (phase : c.phase = .woken) (stopped : c.gate.state.isStopped = false) :
      Steps payloadBytes c (.look true) (c.look.goto .closing)
  | lookOn (phase : c.phase = .woken) (stopped : c.gate.state.isStopped = false) :
      Steps payloadBytes c (.look false) (c.look.goto .looked)
  | checkReady (phase : c.phase = .looked) (ready : c.gate.state = .directReady) :
      Steps payloadBytes c .check (c.goto .checked)
  | checkStopped (phase : c.phase = .looked) (ready : c.gate.state ≠ .directReady) :
      Steps payloadBytes c .check (c.finish c.gate.stopReason)
  | write (now : UInt64) (phase : c.phase = .checked) :
      Steps payloadBytes c (.write now) (c.write payloadBytes now)
  | acceptSome {frame : WireFrame} {remaining : Bytes} (count : ℕ)
      (phase : c.phase = .writing frame remaining) (left : remaining.drop count ≠ []) :
      Steps payloadBytes c (.accept count)
        { c with
          wire := c.wire ++ remaining.take count
          phase := .writing frame (remaining.drop count) }
  | acceptAll {frame : WireFrame} {remaining : Bytes} (count : ℕ)
      (phase : c.phase = .writing frame remaining) :
      Steps payloadBytes c (.accept count)
        { c with wire := c.wire ++ remaining, phase := .flushing frame }
  | writeFails {frame : WireFrame} {remaining : Bytes} (kind : ErrorKind)
      (phase : c.phase = .writing frame remaining) :
      Steps payloadBytes c (.writeFails kind) (c.fail kind)
  | flushed {frame : WireFrame} (phase : c.phase = .flushing frame) :
      Steps payloadBytes c .flushed (c.count frame)
  | flushFails {frame : WireFrame} (kind : ErrorKind) (phase : c.phase = .flushing frame) :
      Steps payloadBytes c (.flushFails kind) (c.fail kind)
  | shutdown (phase : c.phase = .closing) :
      Steps payloadBytes c .shutdown (c.goto (.returned (.ok c.stats)))

/-- Every step is one of these. -/
theorem steps_of_step (hstep : Sending.step payloadBytes event c = some c') :
    Steps payloadBytes c event c' := by
  unfold Sending.step at hstep
  cases event with
  | signal signal now =>
    obtain rfl := Option.some.inj hstep
    exact .signal signal now
  | await =>
    obtain ⟨hphase, rfl⟩ := of_guarded hstep
    -- the gate is ready, stopped or neither when the wait looks at it
    unfold Sending.await
    split
    · next hready => exact .awaitReady hphase hready
    · next reason hstopped => exact .awaitStopped hphase (by rw [hstopped]; rfl)
    · exact .awaitParked hphase
  | awaited =>
    obtain ⟨⟨hphase, -⟩, rfl⟩ := of_guarded hstep
    exact .awaited hphase
  | timeout =>
    obtain ⟨hphase, rfl⟩ := of_guarded hstep
    exact .timeout hphase
  | subscribe =>
    obtain ⟨hphase, rfl⟩ := of_guarded hstep
    exact .subscribe hphase
  | firstTick =>
    obtain ⟨hphase, rfl⟩ := of_guarded hstep
    exact .firstTick hphase
  | tick =>
    obtain ⟨hphase, rfl⟩ := of_guarded hstep
    exact .tick hphase
  | changed =>
    obtain ⟨⟨hphase, hunseen⟩, rfl⟩ := of_guarded hstep
    exact .changed hphase hunseen
  | deadline =>
    obtain ⟨hphase, rfl⟩ := of_guarded hstep
    exact .deadline hphase
  | look overdue =>
    obtain ⟨hphase, rfl⟩ := of_guarded hstep
    -- the loop looks at the gate before it looks at the deadline
    unfold Sending.turn
    split_ifs with hstopped hoverdue
    · exact .lookStopped overdue hphase hstopped
    · subst hoverdue
      exact .lookOverdue hphase (Bool.eq_false_iff.mpr hstopped)
    · rw [Bool.eq_false_iff.mpr hoverdue]
      exact .lookOn hphase (Bool.eq_false_iff.mpr hstopped)
  | check =>
    obtain ⟨hphase, rfl⟩ := of_guarded hstep
    unfold Sending.check
    split_ifs with hready
    · exact .checkReady hphase hready
    · exact .checkStopped hphase hready
  | write now =>
    obtain ⟨hphase, rfl⟩ := of_guarded hstep
    exact .write now hphase
  | accept count =>
    cases hphase : c.phase with
    | writing frame remaining =>
      simp only [hphase] at hstep
      obtain ⟨-, rfl⟩ := of_guarded hstep
      -- a write that takes all that is left ends the phase
      unfold Sending.accept
      split_ifs with hleft
      · rw [List.take_of_length_le (List.drop_eq_nil_iff.mp hleft)]
        exact .acceptAll count hphase
      · exact .acceptSome count hphase hleft
    | _ =>
      simp only [hphase] at hstep
      cases hstep
  | writeFails kind =>
    cases hphase : c.phase with
    | writing frame remaining =>
      simp only [hphase] at hstep
      obtain rfl := Option.some.inj hstep
      exact .writeFails kind hphase
    | _ =>
      simp only [hphase] at hstep
      cases hstep
  | flushed =>
    cases hphase : c.phase with
    | flushing frame =>
      simp only [hphase] at hstep
      obtain rfl := Option.some.inj hstep
      exact .flushed hphase
    | _ =>
      simp only [hphase] at hstep
      cases hstep
  | flushFails kind =>
    cases hphase : c.phase with
    | flushing frame =>
      simp only [hphase] at hstep
      obtain rfl := Option.some.inj hstep
      exact .flushFails kind hphase
    | _ =>
      simp only [hphase] at hstep
      cases hstep
  | shutdown =>
    obtain ⟨hphase, rfl⟩ := of_guarded hstep
    exact .shutdown hphase

/-! ## The gate while the sender streams -/

/-- A ready gate stays as it is, without a notification, or is stopped. -/
theorem apply_ready (hready : gate.state = .directReady) (signal : PathSignal) (now : ℕ) :
    (gate.apply signal now).state.isStopped = true ∨
    (gate.apply signal now).state = .directReady ∧
      (gate.apply signal now).notified = gate.notified := by
  have hnot : ¬ gate.state.isStopped = true := by
    rw [hready]
    decide
  unfold MediaGate.apply
  rw [if_neg hnot]
  cases signal with
  | connectionClosed => exact .inl rfl
  | snapshot openDirect hasRelay selectedDirect =>
    simp only [hready]
    split_ifs <;> simp_all [MediaGate.stop, MediaGate.sendReplace, GateState.isStopped]

/-- The gate is stopped, or ready and the sender knows. -/
def Attentive (c : Sending) : Prop :=
  c.gate.state.isStopped = true ∨ c.gate.state = .directReady ∧ c.seen = c.gate.notified

/-- The sender is in the streaming task and has subscribed to the gate. -/
def SendPhase.subscribed : SendPhase → Bool
  | .waiting | .parked | .spawned | .returned _ => false
  | _ => true

/-- From the start of the streaming task on, the gate only changes by being stopped. -/
structure Watching (c : Sending) : Prop where
  spawned : c.phase = .spawned → c.gate.state.isStopped = true ∨ c.gate.state = .directReady
  subscribed : c.phase.subscribed = true → Attentive c

theorem Attentive.signal (h : Attentive c) (signal : PathSignal) (now : ℕ) :
    Attentive { c with gate := c.gate.apply signal now } := by
  rcases h with hstopped | ⟨hready, hseen⟩
  · exact .inl (isStopped_apply hstopped signal now)
  · rcases apply_ready hready signal now with hstopped | ⟨hready', hsame⟩
    · exact .inl hstopped
    · exact .inr ⟨hready', hseen.trans hsame.symm⟩

/-- A step within the loop. -/
theorem Watching.within (h : Watching c) (hphase : c.phase.subscribed = true)
    (hgate : c'.gate = c.gate) (hseen : c'.seen = c.seen ∨ c'.seen = c.gate.notified)
    (hphase' : c'.phase ≠ .spawned) : Watching c' := by
  refine ⟨fun hspawned => absurd hspawned hphase', fun _ => ?_⟩
  unfold Attentive
  rw [hgate]
  rcases h.subscribed hphase with hstopped | ⟨hready, hsame⟩
  · exact .inl hstopped
  · refine .inr ⟨hready, ?_⟩
    rcases hseen with hseen | hseen
    · exact hseen.trans hsame
    · exact hseen

/-- A step to a place where the gate is not watched. -/
theorem watching_of_unsubscribed (hphase : c.phase.subscribed = false)
    (hspawned : c.phase ≠ .spawned) :
    Watching c := by
  refine ⟨fun h => absurd h hspawned, fun h => ?_⟩
  rw [hphase] at h
  cases h

theorem fail_phase (kind : ErrorKind) : ∃ result, (c.fail kind).phase = .returned result := by
  unfold Sending.fail
  split_ifs
  · exact ⟨_, rfl⟩
  · exact ⟨_, rfl⟩

theorem Watching.step (h : Watching c) (hstep : Steps payloadBytes c event c') : Watching c' := by
  cases hstep with
  | signal signal now =>
    refine ⟨fun hspawned => ?_, fun hsubscribed => (h.subscribed hsubscribed).signal signal now⟩
    rcases h.spawned hspawned with hstopped | hready
    · exact .inl (isStopped_apply hstopped signal now)
    · exact (apply_ready hready signal now).imp id And.left
  | awaitReady phase ready => exact ⟨fun _ => .inr ready, fun hsubscribed => by cases hsubscribed⟩
  | awaitStopped => exact watching_of_unsubscribed rfl SendPhase.noConfusion
  | awaitParked => exact watching_of_unsubscribed rfl SendPhase.noConfusion
  | awaited => exact watching_of_unsubscribed rfl SendPhase.noConfusion
  | timeout => exact watching_of_unsubscribed rfl SendPhase.noConfusion
  | subscribe phase =>
    refine ⟨fun hspawned => (by cases hspawned), fun _ => ?_⟩
    rcases h.spawned phase with hstopped | hready
    · exact .inl hstopped
    · exact .inr ⟨hready, rfl⟩
  | firstTick phase => exact h.within (by rw [phase]; rfl) rfl (.inl rfl) SendPhase.noConfusion
  | tick phase => exact h.within (by rw [phase]; rfl) rfl (.inl rfl) SendPhase.noConfusion
  | changed phase => exact h.within (by rw [phase]; rfl) rfl (.inr rfl) SendPhase.noConfusion
  | deadline phase => exact h.within (by rw [phase]; rfl) rfl (.inl rfl) SendPhase.noConfusion
  | lookStopped => exact watching_of_unsubscribed rfl SendPhase.noConfusion
  | lookOverdue phase => exact h.within (by rw [phase]; rfl) rfl (.inr rfl) SendPhase.noConfusion
  | lookOn phase => exact h.within (by rw [phase]; rfl) rfl (.inr rfl) SendPhase.noConfusion
  | checkReady phase => exact h.within (by rw [phase]; rfl) rfl (.inl rfl) SendPhase.noConfusion
  | checkStopped => exact watching_of_unsubscribed rfl SendPhase.noConfusion
  | write now phase => exact h.within (by rw [phase]; rfl) rfl (.inl rfl) SendPhase.noConfusion
  | acceptSome count phase =>
      exact h.within (by rw [phase]; rfl) rfl (.inl rfl) SendPhase.noConfusion
  | acceptAll count phase =>
      exact h.within (by rw [phase]; rfl) rfl (.inl rfl) SendPhase.noConfusion
  | flushed phase => exact h.within (by rw [phase]; rfl) rfl (.inl rfl) SendPhase.noConfusion
  | writeFails kind | flushFails kind =>
    obtain ⟨result, hresult⟩ := fail_phase (c := c) kind
    refine watching_of_unsubscribed (by rw [hresult]; rfl) ?_
    rw [hresult]
    exact SendPhase.noConfusion
  | shutdown => exact watching_of_unsubscribed rfl SendPhase.noConfusion

/-! ## Every write has its own tick -/

/-- The gate is fed. -/
def SendEvent.isSignal : SendEvent → Bool
  | .signal _ _ => true
  | _ => false

/-- Nothing but signals. -/
def Quiet (events : List SendEvent) : Prop := ∀ event ∈ events, event.isSignal = true

theorem quiet_nil : Quiet [] := by
  intro event hevent
  cases hevent

theorem Quiet.concat (h : Quiet events) (signal : PathSignal) (now : ℕ) :
    Quiet (events ++ [.signal signal now]) := by
  intro event hevent
  rcases List.mem_append.mp hevent with hold | hnew
  · exact h event hold
  · rw [List.mem_singleton.mp hnew]
    rfl

/-- The last iteration of the loop was woken by a tick, looked at the gate and the clock,
and found the gate ready; nothing else happened in it but signals. -/
def OwnTick (payloadBytes : UInt16) (gate : MediaGate) (seen : ℕ)
    (events : List SendEvent) : Prop :=
  ∃ earlier signals₁ signals₂ signals₃ c,
    events = earlier ++ .tick :: (signals₁ ++ .look false :: (signals₂ ++ .check :: signals₃)) ∧
    Quiet signals₁ ∧ Quiet signals₂ ∧ Quiet signals₃ ∧
    sendRun payloadBytes gate seen
      (earlier ++ .tick :: (signals₁ ++ .look false :: signals₂)) = some c ∧
    c.gate.state = .directReady

/-- How far the current iteration has come. -/
structure Turning (payloadBytes : UInt16) (gate : MediaGate) (seen : ℕ) (events : List SendEvent)
    (c : Sending) : Prop where
  woken : c.phase = .woken → c.gate.state.isStopped = true ∨
    ∃ earlier signals, events = earlier ++ .tick :: signals ∧ Quiet signals
  looked : c.phase = .looked → ∃ earlier signals₁ signals₂,
    events = earlier ++ .tick :: (signals₁ ++ .look false :: signals₂) ∧ Quiet signals₁ ∧
      Quiet signals₂
  checked : c.phase = .checked → OwnTick payloadBytes gate seen events

/-- Where no iteration is under way. -/
theorem turning_of_ne (hwoken : c.phase ≠ .woken) (hlooked : c.phase ≠ .looked)
    (hchecked : c.phase ≠ .checked) : Turning payloadBytes gate seen events c :=
  ⟨fun h => absurd h hwoken, fun h => absurd h hlooked, fun h => absurd h hchecked⟩

theorem Turning.signal (h : Turning payloadBytes gate seen events c)
    (signal : PathSignal) (now : ℕ) :
    Turning payloadBytes gate seen (events ++ [.signal signal now])
      { c with gate := c.gate.apply signal now } := by
  constructor
  · intro hphase
    rcases h.woken hphase with hstopped | ⟨earlier, signals, rfl, hquiet⟩
    · exact .inl (isStopped_apply hstopped signal now)
    · exact .inr ⟨earlier, signals ++ [.signal signal now], by simp, hquiet.concat signal now⟩
  · intro hphase
    obtain ⟨earlier, signals₁, signals₂, rfl, hquiet₁, hquiet₂⟩ := h.looked hphase
    exact ⟨earlier, signals₁, signals₂ ++ [.signal signal now], by simp, hquiet₁,
      hquiet₂.concat signal now⟩
  · intro hphase
    obtain ⟨earlier, signals₁, signals₂, signals₃, m, rfl, hquiet₁, hquiet₂, hquiet₃,
        hrun, hready⟩ :=
      h.checked hphase
    exact ⟨earlier, signals₁, signals₂, signals₃ ++ [.signal signal now], m,
      by simp, hquiet₁, hquiet₂, hquiet₃.concat signal now, hrun, hready⟩

theorem Turning.step (h : Turning payloadBytes gate seen events c) (hwatching : Watching c)
    (hrun : sendRun payloadBytes gate seen events = some c)
    (hstep : Steps payloadBytes c event c') :
    Turning payloadBytes gate seen (events ++ [event]) c' := by
  cases hstep with
  | signal signal now => exact h.signal signal now
  | tick phase =>
    refine ⟨fun _ => .inr ⟨events, [], rfl, quiet_nil⟩, fun hphase => ?_, fun hphase => ?_⟩
    · cases hphase
    · cases hphase
  | changed phase unseen =>
    -- a notification that has not been seen is that of a stop
    refine ⟨fun _ => .inl ?_, fun hphase => ?_, fun hphase => ?_⟩
    · rcases hwatching.subscribed (by rw [phase]; rfl) with hstopped | ⟨-, hseen⟩
      · exact hstopped
      · exact absurd hseen unseen
    · cases hphase
    · cases hphase
  | lookOn phase stopped =>
    refine ⟨fun hphase => ?_, fun _ => ?_, fun hphase => ?_⟩
    · cases hphase
    · rcases h.woken phase with hstopped | ⟨earlier, signals, rfl, hquiet⟩
      · rw [stopped] at hstopped
        cases hstopped
      · exact ⟨earlier, signals, [], by simp, hquiet, quiet_nil⟩
    · cases hphase
  | checkReady phase ready =>
    refine ⟨fun hphase => ?_, fun hphase => ?_, fun _ => ?_⟩
    · cases hphase
    · cases hphase
    · obtain ⟨earlier, signals₁, signals₂, rfl, hquiet₁, hquiet₂⟩ := h.looked phase
      exact ⟨earlier, signals₁, signals₂, [], c, by simp, hquiet₁, hquiet₂, quiet_nil, hrun, ready⟩
  | writeFails kind | flushFails kind =>
    obtain ⟨result, hresult⟩ := fail_phase (c := c) kind
    refine turning_of_ne ?_ ?_ ?_ <;> rw [hresult] <;> exact SendPhase.noConfusion
  | _ => exact turning_of_ne SendPhase.noConfusion SendPhase.noConfusion SendPhase.noConfusion

theorem turning_run (hrun : sendRun payloadBytes gate seen events = some c) :
    Watching c ∧ Turning payloadBytes gate seen events c := by
  refine run_induct (P := fun events c => Watching c ∧ Turning payloadBytes gate seen events c)
    ⟨?_, ?_⟩ ?_ hrun
  · exact watching_of_unsubscribed rfl SendPhase.noConfusion
  · exact turning_of_ne SendPhase.noConfusion SendPhase.noConfusion SendPhase.noConfusion
  · rintro events c event c' hbefore ⟨hwatching, hturning⟩ hstep
    have hsteps := steps_of_step hstep
    exact ⟨hwatching.step hsteps, hturning.step hwatching hbefore hsteps⟩

/-- A write starts in an iteration with a tick of its own. -/
theorem write_ownTick {now : UInt64} {before after : List SendEvent}
    (hrun : sendRun payloadBytes gate seen (before ++ .write now :: after) = some c) :
    OwnTick payloadBytes gate seen before := by
  obtain ⟨m, hbefore, hafter⟩ := run_append_eq_some.mp hrun
  obtain ⟨m', hwrite, -⟩ := run_cons.mp hafter
  cases steps_of_step hwrite with
  | write now phase => exact (turning_run hbefore).2.checked phase

/-! ## Writes after a stop -/

/-- A frame write starts. -/
def SendEvent.isWrite : SendEvent → Bool
  | .write _ => true
  | _ => false

/-- How many writes can start once the gate is stopped. -/
def SendPhase.credit : SendPhase → ℕ
  | .checked => 1
  | _ => 0

theorem SendPhase.credit_le (phase : SendPhase) : phase.credit ≤ 1 := by
  unfold SendPhase.credit
  split <;> decide

/-- Once the gate is stopped, a write takes the credit, and nothing gives it back. -/
theorem credit_step (hstopped : c.gate.state.isStopped = true)
    (hstep : Steps payloadBytes c event c') :
    c'.gate.state.isStopped = true ∧
      (if event.isWrite then 1 else 0) + c'.phase.credit ≤ c.phase.credit := by
  cases hstep with
  | signal signal now => exact ⟨isStopped_apply hstopped signal now, Nat.le_of_eq (Nat.zero_add _)⟩
  | checkReady phase ready =>
    rw [ready] at hstopped
    cases hstopped
  | write now phase =>
    rw [phase]
    exact ⟨hstopped, Nat.le_refl 1⟩
  | writeFails kind | flushFails kind =>
    have hgate : (c.fail kind).gate = c.gate := by
      unfold Sending.fail
      split_ifs <;> rfl
    obtain ⟨result, hresult⟩ := fail_phase (c := c) kind
    rw [hgate, hresult]
    exact ⟨hstopped, Nat.zero_le _⟩
  | _ => exact ⟨hstopped, Nat.zero_le _⟩

/-- Once the gate is stopped, at most one write starts. -/
theorem writes_after_stop (hstopped : m.gate.state.isStopped = true) {after : List SendEvent}
    (hrun : run (Sending.step payloadBytes) m after = some c) :
    after.countP SendEvent.isWrite ≤ m.phase.credit := by
  induction after generalizing m with
  | nil => exact Nat.zero_le _
  | cons event after ih =>
    obtain ⟨m', hstep, hafter⟩ := run_cons.mp hrun
    obtain ⟨hstopped', hcredit⟩ := credit_step hstopped (steps_of_step hstep)
    have hlater := ih hstopped' hafter
    rw [List.countP_cons]
    omega

/-! ## What has been handed to the stream -/

/-- The frame that is being written or flushed. -/
def SendPhase.current : SendPhase → List WireFrame
  | .writing frame _ | .flushing frame => [frame]
  | _ => []

/-- What the stream has not yet accepted of it. -/
def SendPhase.remaining : SendPhase → Bytes
  | .writing _ remaining => remaining
  | _ => []

/-- The frames handed to the stream are those that are done, and at most one more. -/
structure Sent (payloadBytes : UInt16) (c : Sending) (done current : List WireFrame) : Prop where
  handed : c.handed = encodeAll (done ++ current)
  numbered : Numbered (done ++ current)
  payload : ∀ f ∈ done ++ current, f.payload = List.replicate payloadBytes.toNat 0xab
  counts : c.stats.Counts done
  seq : c.seq = UInt32.ofNat done.length
  accepted : ∃ rest, c.wire ++ rest = c.handed ∧
    ((∀ result, c.phase ≠ .returned result) → current = c.phase.current ∧ rest = c.phase.remaining)
  reported : ∀ stats, c.phase = .returned (.ok stats) → stats = c.stats

theorem sent_start : Sent payloadBytes (Sending.start gate seen) [] [] :=
  ⟨rfl, numbered_nil, fun f hf => (by cases hf), counts_nil, rfl, ⟨[], rfl, fun _ => ⟨rfl, rfl⟩⟩,
    fun stats h => (by cases h)⟩

variable {done current : List WireFrame}

/-- A step in which nothing is handed over or accepted. -/
theorem Sent.keep (h : Sent payloadBytes c done current) (hhanded : c'.handed = c.handed)
    (hwire : c'.wire = c.wire) (hseq : c'.seq = c.seq) (hcounts : c'.stats.Counts done)
    (hnot : ∀ result, c.phase ≠ .returned result)
    (hphase : (∀ result, c'.phase ≠ .returned result) →
      c'.phase.current = c.phase.current ∧ c'.phase.remaining = c.phase.remaining)
    (hreported : ∀ stats, c'.phase = .returned (.ok stats) → stats = c'.stats) :
    Sent payloadBytes c' done current := by
  obtain ⟨rest, hrest, hopen⟩ := h.accepted
  refine ⟨hhanded.trans h.handed, h.numbered, h.payload, hcounts, hseq.trans h.seq,
    ⟨rest, ?_, fun hnot' => ?_⟩, hreported⟩
  · rw [hwire, hhanded]
    exact hrest
  · obtain ⟨hcurrent, hremaining⟩ := hphase hnot'
    rw [hcurrent, hremaining]
    exact hopen hnot

/-- The sender returns without writing. -/
theorem Sent.finish (h : Sent payloadBytes c done current)
    (hnot : ∀ result, c.phase ≠ .returned result) (reason : Option StopReason) :
    Sent payloadBytes (c.finish reason) done current := by
  refine h.keep rfl rfl rfl (h.counts.stopReason reason) hnot (fun hnot' => absurd rfl (hnot' _)) ?_
  rintro stats hstats
  cases hstats
  rfl

theorem Sent.fail (h : Sent payloadBytes c done current)
    (hnot : ∀ result, c.phase ≠ .returned result) (kind : ErrorKind) :
    Sent payloadBytes (c.fail kind) done current := by
  unfold Sending.fail
  split_ifs
  · exact h.finish hnot _
  · refine h.keep rfl rfl rfl h.counts hnot (fun hnot' => absurd rfl (hnot' _)) ?_
    intro stats hstats
    cases hstats

theorem Sent.look (h : Sent payloadBytes c done current) : Sent payloadBytes c.look done current :=
  ⟨h.handed, h.numbered, h.payload, h.counts, h.seq, h.accepted, h.reported⟩

/-- A step between two places without a frame. -/
theorem Sent.goto (h : Sent payloadBytes c done current)
    (hnot : ∀ result, c.phase ≠ .returned result) {phase : SendPhase}
    (hcurrent : phase.current = c.phase.current) (hremaining : phase.remaining = c.phase.remaining)
    (hreported : ∀ stats, phase ≠ .returned (.ok stats)) :
    Sent payloadBytes (c.goto phase) done current :=
  h.keep rfl rfl rfl h.counts hnot (fun _ => ⟨hcurrent, hremaining⟩)
    (fun stats hstats => absurd hstats (hreported stats))

/-- A frame is handed to the stream. -/
theorem Sent.write (h : Sent payloadBytes c done current) (phase : c.phase = .checked)
    (now : UInt64) :
    Sent payloadBytes (c.write payloadBytes now) done [syntheticFrame payloadBytes c.seq now] := by
  obtain ⟨rest, hrest, hopen⟩ := h.accepted
  obtain ⟨hcurrent, hremaining⟩ := hopen (by rw [phase]; exact fun _ => SendPhase.noConfusion)
  rw [phase] at hcurrent hremaining
  obtain rfl : current = [] := hcurrent
  obtain rfl : rest = [] := hremaining
  have hhanded := h.handed
  have hnumbered := h.numbered
  rw [List.append_nil] at hhanded hnumbered hrest
  refine ⟨?_, numbered_concat.mpr ⟨hnumbered, h.seq⟩, ?_, h.counts, h.seq,
    ⟨(syntheticFrame payloadBytes c.seq now).encode, ?_, fun _ => ⟨rfl, rfl⟩⟩,
    fun stats hstats => (by cases hstats)⟩
  · show c.handed ++ _ = _
    rw [hhanded, encodeAll_append, encodeAll_cons, encodeAll_nil, List.append_nil]
  · intro f hf
    rcases List.mem_append.mp hf with hdone | hnew
    · exact h.payload f (List.mem_append_left _ hdone)
    · rw [List.mem_singleton.mp hnew]
      rfl
  · show c.wire ++ _ = c.handed ++ _
    rw [hrest]

/-- The stream accepts some bytes of a frame. -/
theorem Sent.accept (h : Sent payloadBytes c done current) {frame : WireFrame}
    {remaining : Bytes} (phase : c.phase = .writing frame remaining) {part rest : Bytes}
    (hpart : part ++ rest = remaining) {phase' : SendPhase} (hcurrent : phase'.current = [frame])
    (hremaining : phase'.remaining = rest) (hreported : ∀ stats, phase' ≠ .returned (.ok stats)) :
    Sent payloadBytes { c with wire := c.wire ++ part, phase := phase' } done current := by
  obtain ⟨rest', hrest, hopen⟩ := h.accepted
  obtain ⟨hcurrent', hremaining'⟩ := hopen (by rw [phase]; exact fun _ => SendPhase.noConfusion)
  rw [phase] at hcurrent' hremaining'
  refine ⟨h.handed, h.numbered, h.payload, h.counts, h.seq,
    ⟨rest, ?_, fun _ => ⟨?_, hremaining.symm⟩⟩,
    fun stats hstats => absurd hstats (hreported stats)⟩
  · show c.wire ++ part ++ rest = c.handed
    rw [List.append_assoc, hpart, ← hrest, hremaining']
    rfl
  · rw [hcurrent', hcurrent]
    rfl

/-- A frame is done. -/
theorem Sent.count (h : Sent payloadBytes c done current) {frame : WireFrame}
    (phase : c.phase = .flushing frame) :
    Sent payloadBytes (c.count frame) (done ++ [frame]) [] := by
  obtain ⟨rest, hrest, hopen⟩ := h.accepted
  obtain ⟨hcurrent, hremaining⟩ := hopen (by rw [phase]; exact fun _ => SendPhase.noConfusion)
  rw [phase] at hcurrent hremaining
  obtain rfl : current = [frame] := hcurrent
  obtain rfl : rest = [] := hremaining
  refine ⟨?_, ?_, ?_, h.counts.concat frame _, ?_, ⟨[], hrest, fun _ => ⟨rfl, rfl⟩⟩,
    fun stats hstats => (by cases hstats)⟩
  · rw [List.append_nil]
    exact h.handed
  · rw [List.append_nil]
    exact h.numbered
  · rw [List.append_nil]
    exact h.payload
  · show c.seq + 1 = _
    rw [h.seq, List.length_append, List.length_singleton, ofNat_succ]

/-- A frame is written and flushed. -/
def SendEvent.isFlushed : SendEvent → Bool
  | .flushed => true
  | _ => false

/-- What has been handed to the stream is accounted for after every step. -/
theorem Sent.step (h : Sent payloadBytes c done current) (hstep : Steps payloadBytes c event c') :
    ∃ done' current', Sent payloadBytes c' done' current' ∧
      done'.length = done.length + if event.isFlushed then 1 else 0 := by
  cases hstep with
  | signal signal now =>
    exact ⟨done, current,
      ⟨h.handed, h.numbered, h.payload, h.counts, h.seq, h.accepted, h.reported⟩, rfl⟩
  | write now phase => exact ⟨done, _, h.write phase now, rfl⟩
  -- what is accepted moves from the rest of the frame to the wire
  | acceptSome count phase left =>
    exact ⟨done, current, h.accept phase (List.take_append_drop _ _) rfl rfl
      (fun _ => SendPhase.noConfusion), rfl⟩
  | acceptAll count phase =>
    exact ⟨done, current,
      h.accept phase (List.append_nil _) rfl rfl (fun _ => SendPhase.noConfusion), rfl⟩
  -- only a flushed frame is counted
  | flushed phase => exact ⟨_, _, h.count phase, by simp [SendEvent.isFlushed]⟩
  | writeFails kind phase | flushFails kind phase =>
    exact ⟨done, current, h.fail (by rw [phase]; exact fun _ => SendPhase.noConfusion) kind, rfl⟩
  | shutdown phase =>
    have hnot : ∀ result, c.phase ≠ .returned result := by
      rw [phase]
      exact fun _ => SendPhase.noConfusion
    refine ⟨done, current,
      h.keep rfl rfl rfl h.counts hnot (fun hnot' => absurd rfl (hnot' _)) ?_, rfl⟩
    intro stats hstats
    cases hstats
    rfl
  -- the gate has stopped: nothing more is sent
  | awaitStopped phase | lookStopped _ phase =>
    have hnot : ∀ result, c.look.phase ≠ .returned result := by
      show ∀ result, c.phase ≠ _
      rw [phase]
      exact fun _ => SendPhase.noConfusion
    exact ⟨done, current, h.look.finish hnot _, rfl⟩
  | checkStopped phase =>
    exact ⟨done, current, h.finish (by rw [phase]; exact fun _ => SendPhase.noConfusion) _, rfl⟩
  | awaitReady phase | awaitParked phase | awaited phase | subscribe phase | changed phase
  | lookOverdue phase | lookOn phase =>
    refine ⟨done, current, h.look.goto ?_ ?_ ?_ (fun _ => SendPhase.noConfusion), rfl⟩
    · show ∀ result, c.phase ≠ _
      rw [phase]
      exact fun _ => SendPhase.noConfusion
    · show _ = c.phase.current
      rw [phase]
      rfl
    · show _ = c.phase.remaining
      rw [phase]
      rfl
  -- nothing but the phase changes
  | firstTick phase | tick phase | deadline phase | checkReady phase =>
    refine ⟨done, current, h.goto ?_ ?_ ?_ (fun _ => SendPhase.noConfusion), rfl⟩
    · rw [phase]
      exact fun _ => SendPhase.noConfusion
    · rw [phase]
      rfl
    · rw [phase]
      rfl
  | timeout phase =>
    refine ⟨done, current,
      h.keep rfl rfl rfl h.counts ?_ (fun hnot' => absurd rfl (hnot' _)) ?_, rfl⟩
    · rw [phase]
      exact fun _ => SendPhase.noConfusion
    · intro stats hstats
      cases hstats

theorem sent_run (hrun : sendRun payloadBytes gate seen events = some c) :
    ∃ done current, Sent payloadBytes c done current ∧
      done.length = events.countP SendEvent.isFlushed := by
  refine run_induct (P := fun events c => ∃ done current, Sent payloadBytes c done current ∧
    done.length = events.countP SendEvent.isFlushed) ⟨[], [], sent_start, rfl⟩ ?_ hrun
  rintro events c event c' - ⟨done, current, h, hlen⟩ hstep
  obtain ⟨done', current', h', hlen'⟩ := h.step (steps_of_step hstep)
  refine ⟨done', current', h', ?_⟩
  rw [hlen', hlen, List.countP_append, List.countP_singleton]

/-! ## The sender under the gate -/

/-- The sender in any order of gate changes and wake-ups: it hands numbered frames to the
stream, each in an iteration with a tick of its own that found the gate ready, at most one
after the gate is stopped, and it reports the frames that were written and flushed. -/
theorem streams_under_gate (hrun : sendRun payloadBytes gate seen events = some c) :
    (∃ frames, c.handed = encodeAll frames ∧ Numbered frames ∧
      (∀ f ∈ frames, f.payload = List.replicate payloadBytes.toNat 0xab) ∧ c.wire <+: c.handed) ∧
    (∀ before now after, events = before ++ .write now :: after →
      OwnTick payloadBytes gate seen before) ∧
    (∀ before after m, events = before ++ after → sendRun payloadBytes gate seen before = some m →
      m.gate.state.isStopped = true → after.countP SendEvent.isWrite ≤ 1) ∧
    (∀ stats, c.phase = .returned (.ok stats) →
      ∃ frames done, c.handed = encodeAll frames ∧ done <+: frames ∧
        done.length = events.countP SendEvent.isFlushed ∧ stats.Counts done) := by
  obtain ⟨done, current, h, hlen⟩ := sent_run hrun
  refine ⟨?_, ?_, ?_, ?_⟩
  · obtain ⟨rest, hrest, -⟩ := h.accepted
    exact ⟨done ++ current, h.handed, h.numbered, h.payload, rest, hrest⟩
  · rintro before now after rfl
    exact write_ownTick hrun
  · rintro before after m rfl hbefore hstopped
    obtain ⟨m', hbefore', hafter⟩ := run_append_eq_some.mp hrun
    obtain rfl : m = m' := Option.some.inj (hbefore.symm.trans hbefore')
    exact (writes_after_stop hstopped hafter).trans m.phase.credit_le
  · intro stats hphase
    refine ⟨done ++ current, done, h.handed, List.prefix_append _ _, hlen, ?_⟩
    rw [h.reported stats hphase]
    exact h.counts

/-- A gate that is ready. -/
def readyGate : MediaGate := gateAfter [(.snapshot 1 false true, 5)]

/-- The gate stops while the second frame is about to be written. -/
def sampleSending : List SendEvent :=
  [.await, .subscribe, .firstTick, .tick, .look false, .check, .write 7, .accept 16, .flushed,
    .tick, .look false, .check, .signal .connectionClosed 8, .write 9, .accept 3,
    .writeFails .connectionReset]

/-- One frame is reported. -/
def sampleReport : StreamStats :=
  { frames := 1, bytesOnWire := 16, payloadBytes := 2, firstFrameUnixMs := some 7,
    lastFrameUnixMs := some 7, stopReason := some .connectionClosed }

def sampleSent : Sending where
  gate := gateAfter [(.snapshot 1 false true, 5), (.connectionClosed, 8)]
  seen := 1
  seq := 1
  stats := sampleReport
  handed := encodeAll [syntheticFrame 2 0 7, syntheticFrame 2 1 9]
  wire := (syntheticFrame 2 0 7).encode ++ [0, 0, 0]
  phase := .returned (.ok sampleReport)

theorem sampleSent_run : sendRun 2 readyGate 0 sampleSending = some sampleSent := by
  decide +kernel

/-- The second write starts after the stop, and is not reported. -/
theorem streams_under_gate_stop :
    ∃ frames done, sampleSent.handed = encodeAll frames ∧ done <+: frames ∧
      done.length = sampleSending.countP SendEvent.isFlushed ∧ sampleReport.Counts done :=
  (streams_under_gate sampleSent_run).2.2.2 sampleReport rfl

end IrohExperiment.Media
