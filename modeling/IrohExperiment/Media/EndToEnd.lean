/-
# A media session end to end (`media-separation/src/lib.rs`)

A sender and a receiver joined by the two streams of one bidirectional stream: what the
receiver counts is what the sender has handed over, in every order of steps, and a session
that ends cleanly is counted alike on both sides.

The halves are those of `Media.SenderSide` and `Media.ReceiverSide`, joined by
`Rust.Parties`.  The main results are `media_end_to_end` (what is counted is a front of what
was sent, and nothing before the token) and `media_agreement` (a clean end is the same end
on both sides).
-/
import IrohExperiment.Media.SenderSide

namespace IrohExperiment.Media

open Rust History

variable {token : Bytes} {payloadBytes : UInt16} {startedUnixMs : ℕ}

/-! ## The two halves as parties -/

theorem follow_sent (s : SenderSession) (event : SendEvent) (sending : Sending) :
    s.sent <+: (s.follow event sending).sent :=
  List.prefix_append _ _

/-- What the sender's half has sent only grows. -/
theorem SenderSession.step_sent {event : SenderEvent} {s s' : SenderSession}
    (hstep : SenderSession.step token payloadBytes startedUnixMs event s = some s') :
    s.sent <+: s'.sent := by
  unfold SenderSession.step at hstep
  cases event with
  | opened =>
    obtain ⟨-, rfl⟩ := of_guarded hstep
    unfold SenderSession.opened
    split_ifs <;> exact List.prefix_rfl
  | openFails error =>
    obtain ⟨-, rfl⟩ := of_guarded hstep
    exact List.prefix_rfl
  | ready =>
    simp only at hstep
    split_ifs at hstep
    unfold SenderSession.ready at hstep
    split at hstep
    · split_ifs at hstep <;> obtain rfl := Option.some.inj hstep <;> exact List.prefix_rfl
    · obtain rfl := Option.some.inj hstep
      exact List.prefix_rfl
    · cases hstep
  | timeout =>
    obtain ⟨-, rfl⟩ := of_guarded hstep
    exact List.prefix_rfl
  | send event =>
    simp only at hstep
    split_ifs at hstep
    obtain ⟨sending, -, rfl⟩ := Option.map_eq_some_iff.mp hstep
    exact follow_sent s event sending
  | accept count =>
    simp only at hstep
    split at hstep
    · obtain ⟨-, rfl⟩ := of_guarded hstep
      exact List.prefix_append _ _
    · cases hstep
  | confirm =>
    simp only at hstep
    split at hstep
    · split at hstep <;> cases hstep <;> exact List.prefix_rfl
    · cases hstep
  | monitor relays signal now =>
    simp only at hstep
    split at hstep
    · cases hstep
    · obtain ⟨-, rfl⟩ := of_guarded hstep
      exact List.prefix_rfl
  | presentFails | unconfirmed | monitored =>
    simp only at hstep
    split at hstep
    · obtain rfl := Option.some.inj hstep
      exact List.prefix_rfl
    · cases hstep

/-- A sender that has finished its stream is behind it for good. -/
theorem SenderSession.step_finished {event : SenderEvent} {s s' : SenderSession}
    (hstep : SenderSession.step token payloadBytes startedUnixMs event s = some s')
    (hfinished : s.writer = .finished) : s'.writer = .finished ∧ s'.sent = s.sent := by
  unfold SenderSession.writer at hfinished
  split_ifs at hfinished with hbroken
  have hfine : s.broken = false := Bool.eq_false_iff.mpr hbroken
  unfold SenderSession.step at hstep
  cases hstage : s.stage with
  | opening | presenting | awaitingReady | streaming =>
    rw [hstage] at hfinished
    cases hfinished
  | confirming stats =>
    cases event with
    | confirm =>
      simp only [hstage] at hstep
      split at hstep <;> cases hstep <;> simp [SenderSession.writer, SenderSession.goto, hfine]
    | unconfirmed =>
      simp only [hstage] at hstep
      obtain rfl := Option.some.inj hstep
      simp [SenderSession.writer, SenderSession.goto, hfine]
    | monitor relays signal now =>
      simp only [hstage] at hstep
      obtain ⟨-, rfl⟩ := of_guarded hstep
      simp [SenderSession.writer, SenderSession.monitor, hfine, hstage]
    | _ => simp [hstage, SenderSession.handshaking] at hstep
  | stopping stats confirmed =>
    cases event with
    | monitor relays signal now =>
      simp only [hstage] at hstep
      obtain ⟨-, rfl⟩ := of_guarded hstep
      simp [SenderSession.writer, SenderSession.monitor, hfine, hstage]
    | monitored =>
      simp only [hstage] at hstep
      obtain rfl := Option.some.inj hstep
      simp [SenderSession.writer, SenderSession.goto, hfine]
    | _ => simp [hstage, SenderSession.handshaking] at hstep
  | returned result =>
    cases event <;> simp [hstage, SenderSession.handshaking] at hstep

theorem senderParty_lawful : (senderParty token payloadBytes startedUnixMs).Lawful where
  own_sent := SenderSession.step_sent
  own_finished := SenderSession.step_finished
  deliver_sent _ _ := rfl
  deliver_writer _ _ := rfl
  finish_sent _ _ := rfl
  finish_writer _ _ := rfl

/-- What the receiver's half has sent only grows. -/
theorem ReceiverSession.step_sent {event : ReceiverEvent} {s s' : ReceiverSession}
    (hstep : ReceiverSession.step token startedUnixMs event s = some s') : s.sent <+: s'.sent := by
  unfold ReceiverSession.step at hstep
  cases event with
  | accepted | acceptFails | timeout =>
    obtain ⟨-, rfl⟩ := of_guarded hstep
    exact List.prefix_rfl
  | request =>
    simp only at hstep
    split_ifs at hstep
    unfold ReceiverSession.request at hstep
    split at hstep
    · simp only at hstep
      split_ifs at hstep <;> obtain rfl := Option.some.inj hstep <;> exact List.prefix_rfl
    · obtain rfl := Option.some.inj hstep
      exact List.prefix_rfl
    · cases hstep
  | accept count =>
    simp only at hstep
    split at hstep
    · obtain ⟨-, rfl⟩ := of_guarded hstep
      exact List.prefix_append _ _
    · cases hstep
  | receive event =>
    simp only at hstep
    split_ifs at hstep
    obtain ⟨reception, -, rfl⟩ := Option.map_eq_some_iff.mp hstep
    exact List.prefix_rfl
  | monitor relays signal now =>
    simp only at hstep
    split at hstep
    · cases hstep
    · obtain ⟨-, rfl⟩ := of_guarded hstep
      exact List.prefix_rfl
  | answerFails | shutdown | monitored =>
    simp only at hstep
    split at hstep
    · obtain rfl := Option.some.inj hstep
      exact List.prefix_rfl
    · cases hstep

/-- A receiver that has finished its stream is behind it for good. -/
theorem ReceiverSession.step_finished {event : ReceiverEvent} {s s' : ReceiverSession}
    (hstep : ReceiverSession.step token startedUnixMs event s = some s')
    (hfinished : s.writer = .finished) : s'.writer = .finished ∧ s'.sent = s.sent := by
  unfold ReceiverSession.writer at hfinished
  split_ifs at hfinished with hbroken
  have hfine : s.broken = false := Bool.eq_false_iff.mpr hbroken
  unfold ReceiverSession.step at hstep
  cases hstage : s.stage with
  | accepting | reading | answering | receiving | closing =>
    rw [hstage] at hfinished
    cases hfinished
  | stopping stats =>
    cases event with
    | monitor relays signal now =>
      simp only [hstage] at hstep
      obtain ⟨-, rfl⟩ := of_guarded hstep
      simp [ReceiverSession.writer, ReceiverSession.monitor, hfine, hstage]
    | monitored =>
      simp only [hstage] at hstep
      obtain rfl := Option.some.inj hstep
      simp [ReceiverSession.writer, ReceiverSession.goto, hfine]
    | _ => simp [hstage, ReceiverSession.handshaking] at hstep
  | returned result =>
    cases event <;> simp [hstage, ReceiverSession.handshaking] at hstep

theorem receiverParty_lawful : (receiverParty token startedUnixMs).Lawful where
  own_sent := ReceiverSession.step_sent
  own_finished := ReceiverSession.step_finished
  deliver_sent _ _ := rfl
  deliver_writer _ _ := rfl
  finish_sent _ _ := rfl
  finish_writer _ _ := rfl

/-! ## The joined session -/

/-- A sender with the token it has been given and a receiver with the token it expects, after
some events. -/
def mediaRun (given expected : Bytes) (payloadBytes : UInt16) (startedUnixMs window : ℕ)
    (events : List (Move SenderEvent ⊕ Move ReceiverEvent)) :
    Option (Joined SenderSession ReceiverSession) :=
  run (Joined.step (senderParty given payloadBytes startedUnixMs)
    (receiverParty expected startedUnixMs) window) (Joined.start .start .start) events

variable {given expected : Bytes} {window : ℕ}
  {events : List (Move SenderEvent ⊕ Move ReceiverEvent)} {c : Joined SenderSession ReceiverSession}

/-- What holds of both halves, and of the streams between them. -/
structure Session (given expected : Bytes) (payloadBytes : UInt16) (startedUnixMs : ℕ)
    (c : Joined SenderSession ReceiverSession) : Prop where
  speaks : Speaks given payloadBytes startedUnixMs c.left
  hears : Hears expected startedUnixMs c.right
  back : InOrder c.left.link c.right.state.sent c.right.state.writer
  forward : InOrder c.right.link c.left.state.sent c.left.state.writer

theorem session_run (hrun : mediaRun given expected payloadBytes startedUnixMs window
    events = some c) :
    Session given expected payloadBytes startedUnixMs c := by
  obtain ⟨⟨lefts, hleft⟩, rights, hright⟩ := parties_run hrun
  obtain ⟨hback, hforward⟩ := inOrder_run senderParty_lawful receiverParty_lawful hrun
  exact ⟨speaks_run hleft, hears_run hright, hback, hforward⟩

/-- The frames that the sender has handed over. -/
theorem Session.frames (h : Session given expected payloadBytes startedUnixMs c) :
    ∃ done current, Sent payloadBytes c.left.state.sending done current ∧ current.length ≤ 1 := by
  cases hstarted : c.left.state.stage.started with
  | true =>
    obtain ⟨done, current, hstreams⟩ := h.speaks.started hstarted
    exact ⟨done, current, hstreams.sent, hstreams.atMost⟩
  | false =>
    obtain ⟨-, gate, hfresh⟩ := h.speaks.fresh hstarted
    rw [hfresh]
    exact ⟨[], [], sent_start, Nat.zero_le _⟩

/-- What the receiver has been brought behind the token is what the sender has put on the wire,
and the tokens are the same. -/
theorem Session.behind (h : Session given expected payloadBytes startedUnixMs c) {behind : Bytes}
    (hlimit : expected.length ≤ 64 * 1024)
    (hbrought : c.right.link.brought = frame expected ++ behind) :
    given = expected ∧ behind <+: c.left.state.sending.wire := by
  have hin := h.forward.brought
  rw [hbrought] at hin
  have hsome : c.left.state.sent ≠ [] := by
    intro hnil
    rw [hnil] at hin
    have hlen := hin.length_le
    unfold frame at hlen
    simp at hlen
  have hfits := h.speaks.fits (.inl hsome)
  cases hstarted : c.left.state.stage.started with
  | true =>
    obtain ⟨done, current, hstreams⟩ := h.speaks.started hstarted
    obtain ⟨rest, hrest⟩ := hin
    rw [hstreams.sent_eq, List.append_assoc] at hrest
    obtain ⟨rfl, hwire⟩ := frame_append_inj (by omega) hfits hrest
    exact ⟨rfl, rest, hwire⟩
  | false =>
    obtain ⟨hfront, -⟩ := h.speaks.fresh hstarted
    obtain ⟨rest, hrest⟩ := hin.trans hfront
    rw [List.append_assoc, ← List.append_nil (frame given)] at hrest
    obtain ⟨rfl, hnil⟩ := frame_append_inj (by omega) hfits hrest
    rw [(List.append_eq_nil_iff.mp hnil).1]
    exact ⟨rfl, List.nil_prefix⟩

/-- A sender is told that the receiver is ready for the token that is expected only. -/
theorem Session.tokens (h : Session given expected payloadBytes startedUnixMs c)
    (hready : frame readyAnswer <+: c.left.link.brought) : given = expected := by
  obtain ⟨hlimit, behind, hbrought⟩ := h.hears.spoken (by
    intro hnil
    have hlen := (hready.trans h.back.brought).length_le
    rw [hnil] at hlen
    exact absurd hlen (by decide))
  exact (h.behind hlimit hbrought.symm).1

theorem wire_prefix {c : Sending} {done current : List WireFrame}
    (h : Sent payloadBytes c done current) :
    c.wire <+: encodeAll (done ++ current) := by
  obtain ⟨rest, hrest, -⟩ := h.accepted
  exact ⟨rest, hrest.trans h.handed⟩

/-- In every order of steps of the two halves and of the streams between them, what the receiver
has counted are the first frames that the sender has handed over, at most one more than the
sender has counted itself; the receiver never finds a gap; and neither side has frames unless the
sender has presented the token that the receiver expects. -/
theorem media_end_to_end
    (hrun : mediaRun given expected payloadBytes startedUnixMs window events = some c) :
    (∃ frames counted, c.left.state.sending.handed = encodeAll frames ∧ Numbered frames ∧
      (∀ f ∈ frames, f.payload.length = payloadBytes.toNat) ∧ counted <+: frames ∧
      c.right.state.reception.stats.Counts counted ∧
      counted.length ≤ c.left.state.sending.stats.frames + 1) ∧
    (∀ got next, c.right.state.stage ≠ .returned (.error (.receive (.discontinuity got next)))) ∧
    (c.left.state.sending.handed ≠ [] ∨ c.right.state.reception.stats.frames ≠ 0 →
      given = expected) := by
  have h := session_run hrun
  obtain ⟨done, current, hsent, hle⟩ := h.frames
  have hwhole := wire_prefix hsent
  have hpayload : ∀ f ∈ done ++ current, f.payload.length = payloadBytes.toNat := by
    intro f hf
    rw [hsent.payload f hf, List.length_replicate]
  have hlength : (done ++ current).length ≤ c.left.state.sending.stats.frames + 1 := by
    rw [List.length_append, hsent.counts.frames_eq]
    omega
  have hready : c.left.state.sending.handed ≠ [] → given = expected := by
    intro hhanded
    cases hstarted : c.left.state.stage.started with
    | true =>
      obtain ⟨_, _, hstreams⟩ := h.speaks.started hstarted
      exact h.tokens hstreams.ready
    | false =>
      obtain ⟨-, gate, hfresh⟩ := h.speaks.fresh hstarted
      rw [hfresh] at hhanded
      exact absurd rfl hhanded
  cases hstarted : c.right.state.stage.started with
  | true =>
    obtain ⟨hlimit, behind, hbrought, hadmitted⟩ := h.hears.started hstarted
    obtain ⟨htokens, hbehind⟩ := h.behind hlimit hbrought
    obtain ⟨counted, frames, tail, hsound⟩ := hadmitted.sound
    have hall : behind <+: encodeAll (done ++ current) := hbehind.trans hwhole
    have hfront : counted <+: done ++ current := frames_of_bytes (hsound.bytes_eq ▸ hall)
    refine ⟨⟨done ++ current, counted, hsent.handed, hsent.numbered, hpayload, hfront,
      hsound.counts, hfront.length_le.trans hlength⟩, fun got next hstage => ?_, fun _ => htokens⟩
    -- the frame that comes next has the number that is expected
    have hphase := h.hears.failed (.discontinuity got next) (by rw [hstage]; rfl)
    have hstanding := hsound.standing
    unfold Standing at hstanding
    rw [hphase] at hstanding
    obtain ⟨hexpected, hne, f, later, rfl, rfl⟩ := hstanding
    have hnext : counted ++ [f] <+: done ++ current :=
      frames_of_encodeAll (hsound.next_on_wire.trans hall)
    rw [hexpected, hsound.expected] at hne
    exact hne (numbered_concat.mp (hsent.numbered.of_prefix hnext)).2
  | false =>
    obtain ⟨gate, source, hfresh⟩ := h.hears.fresh hstarted
    refine ⟨⟨done ++ current, [], hsent.handed, hsent.numbered, hpayload, List.nil_prefix, ?_,
      Nat.zero_le _⟩, fun got next hstage => ?_, fun hsome => ?_⟩
    · rw [hfresh]
      exact counts_nil
    · rw [hstage] at hstarted
      cases hstarted
    · rcases hsome with hsome | hsome
      · exact hready hsome
      · rw [hfresh] at hsome
        exact absurd rfl hsome

/-- A whole session with one frame. -/
def sampleSession : List (Move SenderEvent ⊕ Move ReceiverEvent) :=
  [.inl (.own .opened), .inl (.own (.accept 5)), .inr (.own .accepted),
    .inr (.carry ⟨frame [7], by decide⟩), .inr (.own .request), .inr (.own (.accept 9)),
    .inl (.carry ⟨frame readyAnswer, by decide⟩), .inl (.own .ready),
    .inl (.own (.monitor 0 (.snapshot 1 false true) 5)), .inl (.own (.send .await)),
    .inl (.own (.send .subscribe)), .inl (.own (.send .firstTick)), .inl (.own (.send .tick)),
    .inl (.own (.send (.look false))), .inl (.own (.send .check)), .inl (.own (.send (.write 7))),
    .inl (.own (.send (.accept 16))), .inl (.own (.send .flushed)),
    .inl (.own (.send .deadline)), .inl (.own (.send .shutdown)),
    .inr (.carry ⟨(syntheticFrame 2 0 7).encode, by decide⟩), .inr (.finish .finished),
    .inr (.own (.receive (.read 3))), .inr (.own (.receive .send)),
    .inr (.own (.receive (.read 4))), .inr (.own (.receive .send)),
    .inr (.own (.receive .turn)), .inr (.own (.receive .recv)), .inr (.own (.receive .turn)),
    .inr (.own (.receive .recv)), .inr (.own .shutdown), .inr (.own .monitored),
    .inl (.finish .finished), .inl (.own .confirm), .inl (.own .monitored)]

def sentStats : StreamStats :=
  { frames := 1, bytesOnWire := 16, payloadBytes := 2, firstFrameUnixMs := some 7,
    lastFrameUnixMs := some 7 }

/-- The outcomes of its two sides. -/
def sentOutcome : SessionOutcome := outcome .sender 0 readyGate 0 true sentStats

def receivedOutcome : SessionOutcome := outcome .receiver 0 .new 0 true oneFrameStats

def sampleJoined : Joined SenderSession ReceiverSession where
  left :=
    { state :=
        { source := ⟨[], .finished⟩
          sending := ⟨readyGate, 1, 1, sentStats, (syntheticFrame 2 0 7).encode,
            (syntheticFrame 2 0 7).encode, .returned (.ok sentStats)⟩
          everRelayPaths := 0
          sent := frame [7] ++ (syntheticFrame 2 0 7).encode
          broken := false
          stage := .returned (.ok sentOutcome) }
      link := ⟨frame readyAnswer, .finished⟩ }
  right :=
    { state :=
        { reception := ⟨⟨[], .finished⟩, .gone, [], .new, 0, 1, oneFrameStats,
            .returned (.ok (oneFrameStats, 1))⟩
          everRelayPaths := 0
          sent := frame readyAnswer
          broken := false
          stage := .returned (.ok receivedOutcome) }
      link := ⟨frame [7] ++ (syntheticFrame 2 0 7).encode, .finished⟩ }

theorem sampleJoined_run : mediaRun [7] [7] 2 0 64 sampleSession = some sampleJoined := by
  decide +kernel

/-- The receiver counts the frame that the sender has handed over. -/
theorem media_end_to_end_one_frame : ∃ frames counted,
    (syntheticFrame 2 0 7).encode = encodeAll frames ∧ Numbered frames ∧
      (∀ f ∈ frames, f.payload.length = 2) ∧ counted <+: frames ∧
      oneFrameStats.Counts counted ∧ counted.length ≤ 2 :=
  (media_end_to_end sampleJoined_run).1

/-! ## A clean end -/

/-- The frames are behind the sender for good: it has returned from `send_synthetic`, or has
never started it. -/
theorem Session.finished (h : Session given expected payloadBytes startedUnixMs c)
    (hwriter : c.left.state.writer = .finished) :
    ∃ done, Sent payloadBytes c.left.state.sending done [] ∧
      c.left.state.sending.wire = encodeAll done := by
  unfold SenderSession.writer at hwriter
  split_ifs at hwriter with hbroken
  have hfine : c.left.state.broken = false := Bool.eq_false_iff.mpr hbroken
  cases hstarted : c.left.state.stage.started with
  | true =>
    obtain ⟨done, current, hstreams⟩ := h.speaks.started hstarted
    obtain ⟨rfl, hwire⟩ := hstreams.whole (fun hs => by rw [hs] at hwriter; cases hwriter) hfine
    exact ⟨done, hstreams.sent, hwire⟩
  | false =>
    obtain ⟨-, gate, hfresh⟩ := h.speaks.fresh hstarted
    rw [hfresh]
    exact ⟨[], sent_start, rfl⟩

/-- When the receiver's half has its outcome and its gate is still open, the sender has finished
the stream, and both have counted the same frames, which are all that were handed over. -/
theorem media_agreement
    (hrun : mediaRun given expected payloadBytes startedUnixMs window events = some c)
    {o : SessionOutcome} (houtcome : c.right.state.stage = .returned (.ok o))
    (hopen : c.right.state.reception.gate.state.isStopped = false) :
    given = expected ∧ c.left.state.writer = .finished ∧ o.everRelayPaths = 0 ∧
      (∃ frames, c.left.state.sending.handed = encodeAll frames ∧ Numbered frames ∧
        o.stream.Counts frames ∧ c.left.state.sending.stats.Counts frames) ∧
      o.stream.payloadBytes = o.stream.frames * payloadBytes.toNat ∧
      ∀ o', c.left.state.stage = .returned (.ok o') →
        o'.stream.frames = o.stream.frames ∧ o'.stream.bytesOnWire = o.stream.bytesOnWire ∧
          o'.stream.payloadBytes = o.stream.payloadBytes ∧
          o'.directConnectionSuccess = o.directConnectionSuccess := by
  have h := session_run hrun
  have hstarted : c.right.state.stage.started = true := by rw [houtcome]; rfl
  obtain ⟨hover, behind, counted, hbrought, ⟨tail, htail, hincomplete⟩, -, hcounts⟩ :=
    h.hears.complete (show c.right.state.stage.result = some (.ok o.stream) by rw [houtcome]; rfl)
      hopen
  have hfinished : c.right.link.ending = .finished := by
    rcases hover with hover | hover
    · exact hover
    · exact absurd rfl (h.forward.failed _ hover)
  obtain ⟨hwriter, hall⟩ := h.forward.finished hfinished
  obtain ⟨htokens, hbehind⟩ := h.behind (h.hears.started hstarted).1 hbrought
  obtain ⟨done, hsent, hwire⟩ := h.finished hwriter
  -- nothing of what the sender has sent is left
  have hwhole : behind = encodeAll done := by
    have hlen := congrArg List.length hall
    rw [hbrought] at hlen
    cases hs : c.left.state.stage.started with
    | true =>
      obtain ⟨_, _, hstreams⟩ := h.speaks.started hs
      rw [hstreams.sent_eq, htokens, List.length_append, List.length_append] at hlen
      exact (hbehind.eq_of_length (by omega)).trans hwire
    | false =>
      obtain ⟨-, gate, hfresh⟩ := h.speaks.fresh hs
      rw [hfresh] at hbehind hwire
      rw [List.prefix_nil.mp hbehind]
      exact hwire
  obtain ⟨rfl, -⟩ : counted = done ∧ tail = [] := by
    have hnil : Incomplete [] := incomplete_of_short (by decide)
    refine completeFrames_unique hincomplete hnil ?_
    rw [← htail, hwhole, List.append_nil]
  have hpayload : (counted.map fun f => f.payload.length).sum = counted.length *
      payloadBytes.toNat := by
    have hsame : ∀ f ∈ counted, f.payload.length = payloadBytes.toNat := by
      intro f hf
      rw [hsent.payload f (List.mem_append_left _ hf), List.length_replicate]
    rw [List.map_congr_left hsame, List.map_const', List.sum_replicate, smul_eq_mul]
  have hrelays : o.everRelayPaths = 0 := by
    have hreturned := h.hears.returned o houtcome
    by_contra hne
    rw [hreturned] at hne
    have hstopped := h.hears.counted (Nat.pos_of_ne_zero hne)
    rw [hopen] at hstopped
    cases hstopped
  refine ⟨htokens, hwriter, hrelays, ⟨counted, ?_, ?_, hcounts, hsent.counts⟩, ?_, ?_⟩
  · rw [hsent.handed, List.append_nil]
  · rw [← List.append_nil counted]
    exact hsent.numbered
  · rw [hcounts.payloadBytes_eq, hcounts.frames_eq, hpayload]
  · intro o' hs
    have hreported := hsent.reported o'.stream (h.speaks.result o'.stream (by rw [hs]; rfl))
    have hcounts' : o'.stream.Counts counted := hreported ▸ hsent.counts
    obtain ⟨confirmed, heq⟩ := h.speaks.returned o' hs
    have hframes : o'.stream.frames = o.stream.frames :=
      hcounts'.frames_eq.trans hcounts.frames_eq.symm
    refine ⟨hframes, hcounts'.bytesOnWire_eq.trans hcounts.bytesOnWire_eq.symm,
      hcounts'.payloadBytes_eq.trans hcounts.payloadBytes_eq.symm, ?_⟩
    rw [heq, h.hears.returned o houtcome]
    show decide (0 < o'.stream.frames) = decide (0 < o.stream.frames)
    rw [hframes]

/-- Both sides have counted one frame. -/
theorem media_agreement_one_frame : sentOutcome.stream.frames = receivedOutcome.stream.frames :=
  ((media_agreement sampleJoined_run (o := receivedOutcome) rfl rfl).2.2.2.2.2 sentOutcome rfl).1

end IrohExperiment.Media
