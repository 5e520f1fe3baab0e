/-
# The sender's half, whatever its peer answers (`media-separation/src/lib.rs`)

What the sender's half of a session has put on its stream, in any order of its steps: the
frame with the token, and behind it, once the receiver has said that it is ready, the bytes of
the synthetic stream.

`SenderSession.step` is `run_sender_session`.  The invariants are `Speaks`, what has been
written in every stage, and `Confirms`, what the sender has read before it streams
(`speaks_run`, `confirms_run`).
-/
import IrohExperiment.Media.ReceiverSide
import IrohExperiment.Media.Transmission

namespace IrohExperiment.Media

open Rust History

variable {payloadBytes : UInt16} {c c' : Sending} {event : SendEvent}
    {done current : List WireFrame}

/-! ## A sender that returns -/

/-- The step in which the sender returns hands nothing over. -/
theorem handed_of_returned (hstep : Steps payloadBytes c event c')
    (hnot : ∀ result, c.phase ≠ .returned result) {result : Except SendError StreamStats}
    (hreturned : c'.phase = .returned result) :
    c'.handed = c.handed ∧ event.isFlushed = false := by
  cases hstep with
  | signal => exact absurd hreturned (hnot _)
  | writeFails kind | flushFails kind =>
    refine ⟨?_, rfl⟩
    unfold Sending.fail
    split_ifs <;> rfl
  | awaitStopped | timeout | lookStopped | checkStopped | shutdown => exact ⟨rfl, rfl⟩
  | _ => cases hreturned

/-- The same bytes are the same frames. -/
theorem Sent.frames_eq {done' current' : List WireFrame} (h : Sent payloadBytes c done current)
    (h' : Sent payloadBytes c' done' current') (hsame : c'.handed = c.handed) :
    done' ++ current' = done ++ current := by
  have heq : encodeAll (done' ++ current') = encodeAll (done ++ current) := by
    rw [← h'.handed, hsame, h.handed]
  have hfront : done' ++ current' <+: done ++ current := frames_of_encodeAll (heq ▸ List.prefix_rfl)
  have hback : done ++ current <+: done' ++ current' := frames_of_encodeAll (heq ▸ List.prefix_rfl)
  exact hfront.eq_of_length_le hback.length_le

/-- At most one frame is handed over and not done. -/
theorem Sent.current_le {done' current' : List WireFrame} (h : Sent payloadBytes c done current)
    (hle : current.length ≤ 1) (hstep : Steps payloadBytes c event c')
    (hnot : ∀ result, c.phase ≠ .returned result) (h' : Sent payloadBytes c' done' current')
    (hlen : done'.length = done.length + if event.isFlushed then 1 else 0) :
    current'.length ≤ 1 := by
  by_cases hreturned : ∃ result, c'.phase = .returned result
  · obtain ⟨result, hreturned⟩ := hreturned
    obtain ⟨hsame, hflushed⟩ := handed_of_returned hstep hnot hreturned
    have hframes := congrArg List.length (h.frames_eq h' hsame)
    rw [List.length_append, List.length_append] at hframes
    rw [hflushed] at hlen
    simp only [Bool.false_eq_true, if_false] at hlen
    omega
  · obtain ⟨rest, -, hopen⟩ := h'.accepted
    rw [(hopen fun result hs => hreturned ⟨result, hs⟩).1]
    unfold SendPhase.current
    split <;> simp

/-- A sender that returns without a failed write has written all that it has handed over. -/
theorem Sent.returns (h : Sent payloadBytes c done current) (hstep : Steps payloadBytes c event c')
    (hnot : ∀ result, c.phase ≠ .returned result) (hfine : event.isFailure = false)
    {result : Except SendError StreamStats} (hreturned : c'.phase = .returned result) :
    ∃ done', Sent payloadBytes c' done' [] ∧ c'.wire = encodeAll done' := by
  obtain ⟨rest, hrest, hopen⟩ := h.accepted
  obtain ⟨hcurrent, hremaining⟩ := hopen hnot
  -- no frame is under way where the sender returns
  have hidle : c.phase.current = [] ∧ c.phase.remaining = [] ∧ c'.wire = c.wire := by
    cases hstep with
    | writeFails | flushFails => cases hfine
    | signal => exact absurd hreturned (hnot _)
    | awaitStopped phase | timeout phase | lookStopped _ phase | checkStopped phase
    | shutdown phase =>
      rw [phase]
      exact ⟨rfl, rfl, rfl⟩
    | _ => cases hreturned
  obtain ⟨hnone, hleft, hwire⟩ := hidle
  obtain rfl : current = [] := hcurrent.trans hnone
  obtain rfl : rest = [] := hremaining.trans hleft
  obtain ⟨done', current', h', hlen⟩ := h.step hstep
  obtain ⟨hsame, hflushed⟩ := handed_of_returned hstep hnot hreturned
  have hframes := congrArg List.length (h.frames_eq h' hsame)
  obtain rfl : current' = [] := by
    rw [hflushed] at hlen
    simp only [Bool.false_eq_true, if_false] at hlen
    rw [List.length_append, List.length_append, List.length_nil] at hframes
    exact List.length_eq_zero_iff.mp (by omega)
  refine ⟨done', h', ?_⟩
  rw [hwire, ← List.append_nil c.wire, hrest, ← hsame, h'.handed, List.append_nil]

/-! ## What the sender's half has said -/

/-- `send_synthetic` has started. -/
def SenderStage.started : SenderStage → Bool
  | .streaming | .confirming _ | .stopping _ _ | .returned (.ok _) | .returned (.error (.send _)) =>
    true
  | _ => false

/-- What the session has been given by `send_synthetic`. -/
def SenderStage.result : SenderStage → Option (Except SendError StreamStats)
  | .confirming stats | .stopping stats _ => some (.ok stats)
  | .returned (.ok outcome) => some (.ok outcome.stream)
  | .returned (.error (.send error)) => some (.error error)
  | _ => none

/-- Behind the handshake: the receiver has said that it is ready, and the frames that have been
handed to the stream are those that are done, and at most one more; a sender that has returned
without a failed write has none under way. -/
structure Streams (token : Bytes) (payloadBytes : UInt16) (a : Attached SenderSession)
    (done current : List WireFrame) : Prop where
  ready : frame readyAnswer <+: a.link.brought
  sent_eq : a.state.sent = frame token ++ a.state.sending.wire
  sent : Sent payloadBytes a.state.sending done current
  atMost : current.length ≤ 1
  whole : a.state.stage ≠ .streaming → a.state.broken = false →
    current = [] ∧ a.state.sending.wire = encodeAll done

/-- What holds of the sender's half and its incoming stream. -/
structure Speaks (token : Bytes) (payloadBytes : UInt16) (startedUnixMs : ℕ)
    (a : Attached SenderSession) : Prop where
  heard : a.state.handshaking = true → a.link.brought = a.state.source.bytes
  opening : a.state.stage = .opening → a.state.sent = []
  presenting : ∀ remaining, a.state.stage = .presenting remaining →
    a.state.sent ++ remaining = frame token
  awaiting : a.state.stage = .awaitingReady → a.state.sent = frame token
  fits : a.state.sent ≠ [] ∨ a.state.stage ≠ .opening ∧ a.state.handshaking = true →
    token.length < 2 ^ 32
  fresh : a.state.stage.started = false →
    a.state.sent <+: frame token ∧ ∃ gate, a.state.sending = Sending.start gate 0
  started : a.state.stage.started = true →
    ∃ done current, Streams token payloadBytes a done current
  streaming : a.state.stage = .streaming → ∀ result, a.state.sending.phase ≠ .returned result
  result : ∀ stats, a.state.stage.result = some (.ok stats) →
    a.state.sending.phase = .returned (.ok stats)
  returned : ∀ o, a.state.stage = .returned (.ok o) → ∃ confirmed, o =
    outcome .sender startedUnixMs a.state.sending.gate a.state.everRelayPaths confirmed o.stream
  counted : 0 < a.state.everRelayPaths → a.state.sending.gate.state.isStopped = true

variable {token : Bytes} {startedUnixMs : ℕ} {a a' : Attached SenderSession}

theorem speaks_start : Speaks token payloadBytes startedUnixMs ⟨.start, .idle⟩ where
  heard _ := rfl
  opening _ := rfl
  presenting _ h := by cases h
  awaiting h := by cases h
  fits h := by
    rcases h with h | h
    · exact absurd rfl h
    · exact absurd rfl h.1
  fresh _ := ⟨List.nil_prefix, .new, rfl⟩
  started h := by cases h
  streaming h := by cases h
  result _ h := by cases h
  returned _ h := by cases h
  counted h := absurd h (Nat.lt_irrefl 0)

/-- A step to an error of the handshake. -/
theorem Speaks.fail (h : Speaks token payloadBytes startedUnixMs a)
    (hstage : a.state.stage.started = false) {s : SenderSession}
    (hsending : s.sending = a.state.sending) (hrelays : s.everRelayPaths = a.state.everRelayPaths)
    (hsent : s.sent = a.state.sent) {error : SessionError} (herror : ∀ e, error ≠ .send e) :
    Speaks token payloadBytes startedUnixMs ⟨s.fail error, a.link⟩ := by
  have hnone : (SenderStage.returned (.error error)).result = none := by
    cases error with
    | send e => exact absurd rfl (herror e)
    | _ => rfl
  refine ⟨fun hs => ?_, fun hs => ?_, fun _ hs => ?_, fun hs => ?_, fun hs => ?_, fun _ => ?_,
    fun hs => ?_, fun hs => ?_, fun _ hs => ?_, fun _ hs => ?_, fun hpos => ?_⟩
  · cases hs
  · cases hs
  · cases hs
  · cases hs
  · rcases hs with hs | hs
    · exact h.fits (.inl (by rw [← hsent]; exact hs))
    · cases hs.2
  · obtain ⟨hfront, gate, hfresh⟩ := h.fresh hstage
    exact ⟨hsent ▸ hfront, gate, hsending.trans hfresh⟩
  · cases error with
    | send e => exact absurd rfl (herror e)
    | _ => cases hs
  · cases hs
  · cases hnone.symm.trans hs
  · cases hs
  · show s.sending.gate.state.isStopped = true
    rw [hsending]
    exact h.counted (hrelays ▸ hpos)

/-- A step within the handshake. -/
theorem Speaks.shake (h : Speaks token payloadBytes startedUnixMs a)
    (hstarted : a.state.stage.started = false) {s : SenderSession}
    (hsending : s.sending = a.state.sending) (hrelays : s.everRelayPaths = a.state.everRelayPaths)
    (hsource : s.source = a.state.source) (hshaking : a.state.handshaking = true)
    (hfits : token.length < 2 ^ 32)
    (hstage : (∃ remaining, s.stage = .presenting remaining ∧ s.sent ++ remaining = frame token) ∨
      s.stage = .awaitingReady ∧ s.sent = frame token) :
    Speaks token payloadBytes startedUnixMs ⟨s, a.link⟩ := by
  obtain ⟨-, gate, hfresh⟩ := h.fresh hstarted
  have hheard : a.link.brought = s.source.bytes := by
    rw [hsource]
    exact h.heard hshaking
  have hcounted : 0 < s.everRelayPaths → s.sending.gate.state.isStopped = true := by
    rw [hrelays, hsending]
    exact h.counted
  rcases hstage with ⟨remaining, hstage, hsent⟩ | ⟨hstage, hsent⟩
  · refine ⟨fun _ => hheard, fun hs => ?_, fun r hs => ?_, fun hs => ?_, fun _ => hfits,
      fun _ => ⟨⟨remaining, hsent⟩, gate, hsending.trans hfresh⟩, fun hs => ?_, fun hs => ?_,
      fun _ hs => ?_, fun _ hs => ?_, hcounted⟩
    · cases hstage.symm.trans hs
    · cases hstage.symm.trans hs
      exact hsent
    · cases hstage.symm.trans hs
    all_goals
      simp only at hs
      rw [hstage] at hs
      cases hs
  · refine ⟨fun _ => hheard, fun hs => ?_, fun r hs => ?_, fun _ => hsent, fun _ => hfits,
      fun _ => ⟨hsent ▸ List.prefix_rfl, gate, hsending.trans hfresh⟩, fun hs => ?_, fun hs => ?_,
      fun _ hs => ?_, fun _ hs => ?_, hcounted⟩
    all_goals
      simp only at hs
      rw [hstage] at hs
      cases hs

theorem Speaks.opened (h : Speaks token payloadBytes startedUnixMs a)
    (hstage : a.state.stage = .opening) :
    Speaks token payloadBytes startedUnixMs ⟨a.state.opened token, a.link⟩ := by
  have hstarted : a.state.stage.started = false := by rw [hstage]; rfl
  have hshaking : a.state.handshaking = true := by
    unfold SenderSession.handshaking
    rw [hstage]
  unfold SenderSession.opened
  split_ifs with hfits
  · refine h.shake hstarted rfl rfl rfl hshaking hfits (.inl ⟨frame token, rfl, ?_⟩)
    show a.state.sent ++ frame token = _
    rw [h.opening hstage, List.nil_append]
  · exact h.fail hstarted rfl rfl rfl (fun _ heq => by cases heq)

theorem Speaks.accept (h : Speaks token payloadBytes startedUnixMs a) {remaining : Bytes}
    (hstage : a.state.stage = .presenting remaining) (count : ℕ) :
    Speaks token payloadBytes startedUnixMs ⟨a.state.accept remaining count, a.link⟩ := by
  have hshaking : a.state.handshaking = true := by
    unfold SenderSession.handshaking
    rw [hstage]
  have hopening : a.state.stage ≠ .opening := by
    rw [hstage]
    exact fun heq => by cases heq
  have hall : a.state.sent ++ remaining.take count ++ remaining.drop count = frame token := by
    rw [List.append_assoc, List.take_append_drop]
    exact h.presenting remaining hstage
  have hfits := h.fits (.inr ⟨hopening, hshaking⟩)
  unfold SenderSession.accept
  split_ifs with hleft
  · rw [hleft, List.append_nil] at hall
    exact h.shake (by rw [hstage]; rfl) rfl rfl rfl hshaking hfits (.inr ⟨rfl, hall⟩)
  · exact h.shake (by rw [hstage]; rfl) rfl rfl rfl hshaking hfits (.inl ⟨_, rfl, hall⟩)

theorem Speaks.ready (h : Speaks token payloadBytes startedUnixMs a)
    (hstage : a.state.stage = .awaitingReady) {s : SenderSession}
    (hready : a.state.ready = some s) :
    Speaks token payloadBytes startedUnixMs ⟨s, a.link⟩ := by
  have hstarted : a.state.stage.started = false := by rw [hstage]; rfl
  unfold SenderSession.ready at hready
  cases hread : readFrame.run a.state.source with
  | done answer source =>
    obtain ⟨hbytes, -, -⟩ := readFrame_eq_done hread
    simp only [hread] at hready
    split_ifs at hready with hanswer <;> obtain rfl := Option.some.inj hready
    · subst hanswer
      have hshaking : a.state.handshaking = true := by
        unfold SenderSession.handshaking
        rw [hstage]
      obtain ⟨-, gate, hfresh⟩ := h.fresh hstarted
      have hbrought := h.heard hshaking
      refine ⟨fun hs => ?_, fun hs => ?_, fun _ hs => ?_, fun hs => ?_, fun hs => ?_, fun hs => ?_,
        fun _ => ⟨[], [], ?_, ?_, ?_, Nat.zero_le _, fun hs => absurd rfl hs⟩,
        fun _ result hs => ?_,
        fun _ hs => ?_, fun _ hs => ?_, h.counted⟩
      · cases hs
      · cases hs
      · cases hs
      · cases hs
      · rcases hs with hs | hs
        · exact h.fits (.inl hs)
        · cases hs.2
      · cases hs
      · exact ⟨source.bytes, by rw [hbrought, hbytes]⟩
      · show a.state.sent = _ ++ a.state.sending.wire
        rw [h.awaiting hstage, hfresh]
        exact (List.append_nil _).symm
      · show Sent payloadBytes a.state.sending [] []
        rw [hfresh]
        exact sent_start
      · rw [hfresh] at hs
        cases hs
      · cases hs
      · cases hs
    · exact h.fail hstarted (s := { a.state with source := source }) rfl rfl rfl
        (fun _ heq => by cases heq)
  | failed error =>
    simp only [hread] at hready
    obtain rfl := Option.some.inj hready
    exact h.fail hstarted rfl rfl rfl (fun _ heq => by cases heq)
  | waits =>
    simp only [hread] at hready
    cases hready

/-- The stream has accepted what is new on the wire. -/
theorem wire_step (hstep : Steps payloadBytes c event c') : c.wire <+: c'.wire := by
  cases hstep with
  | acceptSome | acceptAll => exact List.prefix_append _ _
  | writeFails kind | flushFails kind =>
    unfold Sending.fail
    split_ifs <;> exact List.prefix_rfl
  | _ => exact List.prefix_rfl

theorem Streams.step {done current : List WireFrame} (h : Streams token payloadBytes a done current)
    (hnot : ∀ result, a.state.sending.phase ≠ .returned result)
    (hstep : Steps payloadBytes a.state.sending event c) :
    ∃ done' current', Streams token payloadBytes ⟨a.state.follow event c, a.link⟩ done'
      current' := by
  have hsent : (a.state.follow event c).sent = frame token ++ c.wire := by
    obtain ⟨new, hnew⟩ := wire_step hstep
    show a.state.sent ++ c.wire.drop a.state.sending.wire.length = _
    rw [h.sent_eq, ← hnew, List.drop_left, List.append_assoc]
  by_cases hover : event.isFailure = false ∧ ∃ result, c.phase = .returned result
  · obtain ⟨hfine, result, hreturned⟩ := hover
    obtain ⟨done', h', hwire⟩ := h.sent.returns hstep hnot hfine hreturned
    exact ⟨done', [], h.ready, hsent, h', Nat.zero_le _, fun _ _ => ⟨rfl, hwire⟩⟩
  · obtain ⟨done', current', h', hlen⟩ := h.sent.step hstep
    refine ⟨done', current', h.ready, hsent, h', h.sent.current_le h.atMost hstep hnot h' hlen,
      fun hs hbroken => ?_⟩
    have hfine : event.isFailure = false := (Bool.or_eq_false_iff.mp hbroken).2
    refine absurd ⟨hfine, ?_⟩ hover
    unfold SenderSession.follow at hs
    cases hphase : c.phase with
    | returned result => exact ⟨result, rfl⟩
    | _ =>
      simp only [hphase] at hs
      exact absurd rfl hs

theorem Speaks.follow (h : Speaks token payloadBytes startedUnixMs a)
    (hstage : a.state.stage = .streaming) (hgate : event.isGate = false)
    (hstep : Steps payloadBytes a.state.sending event c) :
    Speaks token payloadBytes startedUnixMs ⟨a.state.follow event c, a.link⟩ := by
  obtain ⟨done, current, hstreams⟩ := h.started (by rw [hstage]; rfl)
  have hstreams' := hstreams.step (h.streaming hstage) hstep
  -- no event of the transfer but a signal moves the gate
  have hsame : c.gate = a.state.sending.gate := by
    cases hstep with
    | signal => cases hgate
    | writeFails kind | flushFails kind =>
      unfold Sending.fail
      split_ifs <;> rfl
    | _ => rfl
  have hcounted : 0 < a.state.everRelayPaths → c.gate.state.isStopped = true := by
    rw [hsame]
    exact h.counted
  have hsome : a.state.sent ≠ [] := by
    rw [hstreams.sent_eq]
    unfold frame
    simp [toBe]
  have hfits := h.fits (.inl hsome)
  have hpast : (a.state.follow event c).handshaking = false := by
    unfold SenderSession.handshaking SenderSession.follow
    cases hphase : c.phase with
    | returned result => cases result <;> rfl
    | _ => rfl
  have hon : (a.state.follow event c).stage.started = true := by
    unfold SenderSession.follow
    cases hphase : c.phase with
    | returned result => cases result <;> rfl
    | _ => rfl
  -- the session does not go back to a stage of the handshake
  have hearly : ∀ stage : SenderStage, stage.started = false →
      (a.state.follow event c).stage ≠ stage := by
    rintro stage hfalse rfl
    rw [hon] at hfalse
    cases hfalse
  refine ⟨fun hs => ?_, fun hs => absurd hs (hearly _ rfl), fun _ hs => absurd hs (hearly _ rfl),
    fun hs => absurd hs (hearly _ rfl), fun _ => hfits, fun hs => ?_, fun _ => hstreams',
    fun hs result hphase => ?_, fun stats hs => ?_, fun o hs => ?_, hcounted⟩
  · rw [hpast] at hs
    cases hs
  · rw [hon] at hs
    cases hs
  · have hphase : c.phase = .returned result := hphase
    unfold SenderSession.follow at hs
    cases result <;> simp only [hphase] at hs <;> cases hs
  · unfold SenderSession.follow at hs
    show c.phase = _
    cases hphase : c.phase with
    | returned result =>
      cases result with
      | ok stats' =>
        simp only [hphase] at hs
        cases hs
        rfl
      | error error =>
        simp only [hphase] at hs
        cases hs
    | _ =>
      simp only [hphase] at hs
      cases hs
  · unfold SenderSession.follow at hs
    cases hphase : c.phase with
    | returned result => cases result <;> simp only [hphase] at hs <;> cases hs
    | _ =>
      simp only [hphase] at hs
      cases hs

/-- A step behind the stream, which only moves the stage on. -/
theorem Speaks.goto (h : Speaks token payloadBytes startedUnixMs a) (source : Source)
    {stage : SenderStage} {stats : StreamStats} (hold : a.state.stage.result = some (.ok stats))
    (hresult : stage.result = some (.ok stats))
    (hreturned : ∀ o, stage = .returned (.ok o) → ∃ confirmed, o =
      outcome .sender startedUnixMs a.state.sending.gate a.state.everRelayPaths confirmed
        o.stream) :
    Speaks token payloadBytes startedUnixMs
      ⟨{ a.state with source := source, stage := stage }, a.link⟩ := by
  have hstarted : ∀ stage : SenderStage, stage.result = some (.ok stats) →
      stage.started = true ∧ stage ≠ .streaming ∧
        ∀ s : SenderSession, s.stage = stage → s.handshaking = false := by
    intro stage hs
    cases stage with
    | confirming | stopping =>
      exact ⟨rfl, fun heq => (by cases heq), fun s heq => by simp [SenderSession.handshaking, heq]⟩
    | returned result =>
      match result, hs with
      | .ok _, _ =>
        exact ⟨rfl, fun heq => (by cases heq),
          fun s heq => by simp [SenderSession.handshaking, heq]⟩
    | _ => cases hs
  obtain ⟨hon, hnot, hpast⟩ := hstarted stage hresult
  obtain ⟨holdOn, holdNot, -⟩ := hstarted _ hold
  obtain ⟨done, current, hstreams⟩ := h.started holdOn
  have hearly : ∀ stage' : SenderStage, stage'.started = false → stage ≠ stage' := by
    rintro stage' hfalse rfl
    rw [hon] at hfalse
    cases hfalse
  refine ⟨fun hs => ?_, fun hs => absurd hs (hearly _ rfl), fun _ hs => absurd hs (hearly _ rfl),
    fun hs => absurd hs (hearly _ rfl), fun hs => ?_, fun hs => ?_,
    fun _ => ⟨done, current, hstreams.ready, hstreams.sent_eq, hstreams.sent,
      hstreams.atMost, fun _ hbroken => hstreams.whole holdNot hbroken⟩,
    fun hs => absurd hs hnot, fun stats' hs => ?_, hreturned, h.counted⟩
  · rw [hpast _ rfl] at hs
    cases hs
  · rcases hs with hs | ⟨-, hs⟩
    · exact h.fits (.inl hs)
    · rw [hpast _ rfl] at hs
      cases hs
  · rw [hon] at hs
    cases hs
  · exact h.result stats' (hold.trans (hresult.symm.trans hs))

theorem Speaks.monitor (h : Speaks token payloadBytes startedUnixMs a)
    (hstage : ∀ result, a.state.stage ≠ .returned result) {relays : ℕ} {signal : PathSignal}
    (hrelay : relays = 0 ∨ signal.hasRelay = true) (now : ℕ) :
    Speaks token payloadBytes startedUnixMs ⟨a.state.monitor relays signal now, a.link⟩ := by
  refine ⟨h.heard, h.opening, h.presenting, h.awaiting, h.fits, fun hs => ?_, fun hs => ?_,
    h.streaming, h.result, fun o hs => absurd hs (hstage _), fun hpos => ?_⟩
  · obtain ⟨hfront, gate, hfresh⟩ := h.fresh hs
    refine ⟨hfront, gate.apply signal now, ?_⟩
    unfold SenderSession.monitor
    rw [hfresh]
    rfl
  · obtain ⟨done, current, hstreams⟩ := h.started hs
    have hsent := hstreams.sent
    exact ⟨done, current, hstreams.ready, hstreams.sent_eq, ⟨hsent.handed, hsent.numbered,
      hsent.payload, hsent.counts, hsent.seq, hsent.accepted, hsent.reported⟩, hstreams.atMost,
      hstreams.whole⟩
  · rcases hrelay with rfl | hrelay
    · exact isStopped_apply (h.counted hpos) signal now
    · cases signal with
      | snapshot openDirect hasRelay selectedDirect =>
        obtain rfl : hasRelay = true := hrelay
        exact apply_relay _ _ _ _
      | connectionClosed => cases hrelay

/-- One step of the sender's half. -/
theorem Speaks.own (h : Speaks token payloadBytes startedUnixMs a) {event : SenderEvent}
    {s : SenderSession}
    (hstep : SenderSession.step token payloadBytes startedUnixMs event a.state = some s) :
    Speaks token payloadBytes startedUnixMs ⟨s, a.link⟩ := by
  unfold SenderSession.step at hstep
  cases event with
  | opened =>
    obtain ⟨hstage, rfl⟩ := of_guarded hstep
    exact h.opened hstage
  | openFails error =>
    obtain ⟨hstage, rfl⟩ := of_guarded hstep
    exact h.fail (by rw [hstage]; rfl) rfl rfl rfl (fun _ heq => by cases heq)
  | accept count =>
    cases hstage : a.state.stage with
    | presenting remaining =>
      simp only [hstage] at hstep
      obtain ⟨-, rfl⟩ := of_guarded hstep
      exact h.accept hstage count
    | _ =>
      simp only [hstage] at hstep
      cases hstep
  | presentFails kind =>
    cases hstage : a.state.stage with
    | presenting remaining =>
      simp only [hstage] at hstep
      obtain rfl := Option.some.inj hstep
      exact h.fail (s := { a.state with broken := true }) (by rw [hstage]; rfl) rfl rfl rfl
        (fun _ heq => by cases heq)
    | _ =>
      simp only [hstage] at hstep
      cases hstep
  | ready =>
    simp only at hstep
    split_ifs at hstep with hstage
    exact h.ready hstage hstep
  | timeout =>
    obtain ⟨hstage, rfl⟩ := of_guarded hstep
    refine h.fail ?_ rfl rfl rfl (fun _ heq => by cases heq)
    -- only the handshake can time out, and in it nothing has been streamed
    unfold SenderSession.handshaking at hstage
    cases hs : a.state.stage with
    | opening | presenting | awaitingReady => rfl
    | _ =>
      rw [hs] at hstage
      cases hstage
  -- the transfer is that of a sender without a session
  | send event =>
    simp only at hstep
    split_ifs at hstep with hcond
    obtain ⟨c, hsend, rfl⟩ := Option.map_eq_some_iff.mp hstep
    exact h.follow hcond.1 hcond.2 (steps_of_step hsend)
  | confirm =>
    cases hstage : a.state.stage with
    | confirming stats =>
      have hold : a.state.stage.result = some (.ok stats) := by rw [hstage]; rfl
      simp only [hstage] at hstep
      split at hstep <;> cases hstep
      · exact h.goto _ hold rfl (fun _ hs => by cases hs)
      · exact h.goto a.state.source hold rfl (fun _ hs => by cases hs)
    | _ =>
      simp only [hstage] at hstep
      cases hstep
  | unconfirmed =>
    cases hstage : a.state.stage with
    | confirming stats =>
      simp only [hstage] at hstep
      obtain rfl := Option.some.inj hstep
      exact h.goto a.state.source (by rw [hstage]; rfl) rfl (fun _ hs => by cases hs)
    | _ =>
      simp only [hstage] at hstep
      cases hstep
  -- the monitor goes on until the session has returned
  | monitor relays signal now =>
    cases hstage : a.state.stage with
    | returned result =>
      simp only [hstage] at hstep
      cases hstep
    | _ =>
      simp only [hstage] at hstep
      obtain ⟨hrelay, rfl⟩ := of_guarded hstep
      refine h.monitor (fun result hs => ?_) hrelay now
      rw [hstage] at hs
      cases hs
  | monitored =>
    cases hstage : a.state.stage with
    | stopping stats confirmed =>
      simp only [hstage] at hstep
      obtain rfl := Option.some.inj hstep
      refine h.goto a.state.source (by rw [hstage]; rfl) rfl (fun o hs => ?_)
      cases hs
      exact ⟨confirmed, rfl⟩
    | _ =>
      simp only [hstage] at hstep
      cases hstep

/-- The transport brings more bytes, or the end of the stream. -/
theorem Speaks.deliver (h : Speaks token payloadBytes startedUnixMs a) (chunk : Chunk) :
    Speaks token payloadBytes startedUnixMs
      ⟨{ a.state with source := Source.push a.state.source chunk },
        ⟨a.link.brought ++ chunk.bytes, .silent⟩⟩ := by
  refine ⟨fun hs => ?_, h.opening, h.presenting, h.awaiting, h.fits, h.fresh, fun hs => ?_,
    h.streaming, h.result, h.returned, h.counted⟩
  · show _ = (Source.push a.state.source chunk).bytes
    rw [Source.push_bytes, ← h.heard hs]
  · obtain ⟨done, current, hstreams⟩ := h.started hs
    exact ⟨done, current, hstreams.ready.trans (List.prefix_append _ _), hstreams.sent_eq,
      hstreams.sent, hstreams.atMost, hstreams.whole⟩

theorem Speaks.finish (h : Speaks token payloadBytes startedUnixMs a) (ending : Ending) :
    Speaks token payloadBytes startedUnixMs
      ⟨{ a.state with source := Source.close a.state.source ending },
        ⟨a.link.brought, ending⟩⟩ := by
  refine ⟨h.heard, h.opening, h.presenting, h.awaiting, h.fits, h.fresh, fun hs => ?_,
    h.streaming, h.result, h.returned, h.counted⟩
  obtain ⟨done, current, hstreams⟩ := h.started hs
  exact ⟨done, current, hstreams.ready, hstreams.sent_eq, hstreams.sent, hstreams.atMost,
    hstreams.whole⟩

/-- It holds after every run, whatever the peer answers. -/
theorem speaks_run {moves : List (Move SenderEvent)}
    (hrun : run (senderParty token payloadBytes startedUnixMs).step ⟨.start, .idle⟩
      moves = some a) :
    Speaks token payloadBytes startedUnixMs a := by
  refine run_induct (P := fun _ a => Speaks token payloadBytes startedUnixMs a) speaks_start ?_ hrun
  rintro moves a move ⟨s, link⟩ - h hstep
  cases move with
  | own event =>
    obtain ⟨hown, rfl⟩ := Party.own_of_step hstep
    exact h.own hown
  | carry chunk =>
    obtain ⟨-, heq⟩ := Party.carry_of_step hstep
    exact heq ▸ h.deliver chunk
  | finish ending =>
    obtain ⟨-, heq⟩ := Party.finish_of_step hstep
    exact heq ▸ h.finish ending

/-! ## The confirmation -/

/-- The sender has read its incoming stream to the end. -/
def SenderStage.confirmed : SenderStage → Bool
  | .stopping _ confirmed => confirmed
  | .returned (.ok outcome) => outcome.receiverConfirmed
  | _ => false

/-- A confirmation is the end of the incoming stream. -/
structure Confirms (a : Attached SenderSession) : Prop where
  ending : a.state.source.ending = a.link.ending
  confirmed : a.state.stage.confirmed = true → a.link.ending = .finished

/-- A step that leaves the source alone and confirms nothing. -/
theorem Confirms.quiet (h : Confirms a) {s : SenderSession} (hsource : s.source = a.state.source)
    (hstage : s.stage.confirmed = true → a.state.stage.confirmed = true) : Confirms ⟨s, a.link⟩ :=
  ⟨(congrArg Source.ending hsource).trans h.ending, fun hs => h.confirmed (hstage hs)⟩

theorem Confirms.own (h : Confirms a) {event : SenderEvent} {s : SenderSession}
    (hstep : SenderSession.step token payloadBytes startedUnixMs event a.state = some s) :
    Confirms ⟨s, a.link⟩ := by
  unfold SenderSession.step at hstep
  cases event with
  | opened =>
    obtain ⟨-, rfl⟩ := of_guarded hstep
    unfold SenderSession.opened
    split_ifs <;> exact h.quiet rfl (fun hs => by cases hs)
  | openFails | timeout =>
    obtain ⟨-, rfl⟩ := of_guarded hstep
    exact h.quiet rfl (fun hs => by cases hs)
  | accept count =>
    simp only at hstep
    split at hstep
    · obtain ⟨-, rfl⟩ := of_guarded hstep
      unfold SenderSession.accept
      refine h.quiet rfl (fun hs => ?_)
      simp only at hs
      split_ifs at hs <;> cases hs
    · cases hstep
  | presentFails | unconfirmed =>
    simp only at hstep
    split at hstep
    · obtain rfl := Option.some.inj hstep
      exact h.quiet rfl (fun hs => by cases hs)
    · cases hstep
  | ready =>
    simp only at hstep
    split_ifs at hstep
    unfold SenderSession.ready at hstep
    split at hstep
    · next answer source hread =>
      obtain ⟨-, hending, -⟩ := readFrame_eq_done hread
      split_ifs at hstep <;> obtain rfl := Option.some.inj hstep
      · exact ⟨hending.trans h.ending, fun hs => by cases hs⟩
      · exact ⟨hending.trans h.ending, fun hs => by cases hs⟩
    · obtain rfl := Option.some.inj hstep
      exact h.quiet rfl (fun hs => by cases hs)
    · cases hstep
  | send event =>
    simp only at hstep
    split_ifs at hstep
    obtain ⟨sending, -, rfl⟩ := Option.map_eq_some_iff.mp hstep
    refine h.quiet rfl (fun hs => ?_)
    -- the end of the transfer is not yet a confirmation
    unfold SenderSession.follow at hs
    simp only at hs
    split at hs <;> cases hs
  | confirm =>
    simp only at hstep
    split at hstep
    · split at hstep
      · next hread =>
        obtain rfl := Option.some.inj hstep
        -- a read to the end that returns has seen the stream finished
        obtain ⟨-, hending, -, rfl⟩ := readToEnd_eq_done.mp hread
        have hlink := h.ending.symm.trans hending
        exact ⟨hlink.symm, fun _ => hlink⟩
      · obtain rfl := Option.some.inj hstep
        exact h.quiet rfl (fun hs => by cases hs)
      · cases hstep
    · cases hstep
  | monitor relays signal now =>
    simp only at hstep
    split at hstep
    · cases hstep
    · obtain ⟨-, rfl⟩ := of_guarded hstep
      exact h.quiet rfl id
  | monitored =>
    simp only at hstep
    split at hstep
    · next stats confirmed hstage =>
      obtain rfl := Option.some.inj hstep
      refine h.quiet rfl (fun hs => ?_)
      rw [hstage]
      exact hs
    · cases hstep

theorem confirms_run {moves : List (Move SenderEvent)}
    (hrun : run (senderParty token payloadBytes startedUnixMs).step ⟨.start, .idle⟩
      moves = some a) :
    Confirms a := by
  refine run_induct (P := fun _ a => Confirms a) ⟨rfl, fun hs => by cases hs⟩ ?_ hrun
  rintro moves a move ⟨s, link⟩ - h hstep
  cases move with
  | own event =>
    obtain ⟨hown, rfl⟩ := Party.own_of_step hstep
    exact h.own hown
  | carry chunk =>
    obtain ⟨hsilent, heq⟩ := Party.carry_of_step hstep
    rw [heq]
    refine ⟨h.ending.trans hsilent, fun hs => ?_⟩
    have hfinished := h.confirmed hs
    rw [hsilent] at hfinished
    cases hfinished
  | finish ending =>
    obtain ⟨hsilent, heq⟩ := Party.finish_of_step hstep
    rw [heq]
    refine ⟨rfl, fun hs => ?_⟩
    have hfinished := h.confirmed hs
    rw [hsilent] at hfinished
    cases hfinished

end IrohExperiment.Media
