/-
# The receiver's half, whatever its peer sends (`media-separation/src/lib.rs`)

What the receiver's half of a session has let in and counted, in any order of its steps, for
a peer that sends any bytes at all: nothing is counted before the frame with the session
token, and what is counted are the frames behind it.

`ReceiverSession.step` is `run_receiver_session`.  The invariant is `Hears`, kept by every
step (`hears_run`); the main result is `token_first`.
-/
import IrohExperiment.Media.NoRelay
import IrohExperiment.Media.Session
import IrohExperiment.Media.Truncation

namespace IrohExperiment.Media

open Rust History

/-! ## Frames of the handshake -/

theorem readU32_eq_done {source source' : Source} {n : UInt32}
    (h : readU32.run source = .done n source') :
    source.bytes = toBe 4 n.toNat ++ source'.bytes ∧ source'.ending = source.ending := by
  unfold readU32 at h
  obtain ⟨head, source₁, hread, hrest⟩ := Async.bind_eq_done.mp h
  obtain ⟨rfl, rfl⟩ := Outcome.done.inj hrest
  obtain ⟨hlen, hbytes, hending⟩ := readExact_eq_done hread
  have hlt : beNat head < 2 ^ 32 := (beNat_lt head).trans_eq (by rw [hlen]; rfl)
  refine ⟨?_, hending⟩
  rw [UInt32.toNat_ofNat', Nat.mod_eq_of_lt hlt, ← hlen, toBe_beNat]
  exact hbytes

/-- What `read_frame` has read is a frame. -/
theorem readFrame_eq_done {source source' : Source} {payload : Bytes}
    (h : readFrame.run source = .done payload source') :
    source.bytes = frame payload ++ source'.bytes ∧ source'.ending = source.ending ∧
      payload.length ≤ 64 * 1024 := by
  unfold readFrame at h
  obtain ⟨len, source₁, hlen, hrest⟩ := Async.bind_eq_done.mp h
  obtain ⟨hbytes₁, hending₁⟩ := readU32_eq_done (Async.mapErr_eq_done.mp hlen)
  obtain ⟨_, source₂, hensure, hbody⟩ := Async.bind_eq_done.mp hrest
  obtain ⟨hlimit, rfl⟩ := Async.ensure_eq_done.mp hensure
  obtain ⟨hsize, hbytes₂, hending₂⟩ := readExact_eq_done (Async.mapErr_eq_done.mp hbody)
  refine ⟨?_, hending₂.trans hending₁, ?_⟩
  · unfold frame
    rw [hbytes₁, hbytes₂, hsize, List.append_assoc]
  · rw [hsize]
    exact le_limit_iff.mp hlimit

/-- A stream begins with the frame of one payload only. -/
theorem frame_append_inj {payload payload' rest rest' : Bytes} (hfit : payload.length < 2 ^ 32)
    (hfit' : payload'.length < 2 ^ 32) (h : frame payload ++ rest = frame payload' ++ rest') :
    payload = payload' ∧ rest = rest' := by
  unfold frame at h
  rw [List.append_assoc, List.append_assoc] at h
  obtain ⟨hhead, htail⟩ := List.append_inj h (by simp)
  have hlen : payload.length = payload'.length := by
    rw [← beNat_toBe_of_lt (k := 4) hfit, hhead, beNat_toBe_of_lt hfit']
  exact List.append_inj htail hlen

/-! ## Clean ends -/

/-- The stream is over, in a way that the reader takes for a clean end. -/
def Over (ending : Ending) : Prop := ending = .finished ∨ ending = .failed .unexpectedEof

/-- The reader reports a clean end only at the end of the stream. -/
theorem over_of_none {source source' : Source} {now : ℕ} (hincomplete : Incomplete source.bytes)
    (h : (readFrameSynced now).run source = .done none source') : Over source.ending := by
  rcases Nat.lt_or_ge source.bytes.length headerBytes with hshort | hheader
  · rw [run_readFrameSynced, readExact_short hshort] at h
    cases hending : source.ending with
    | finished => exact .inl rfl
    | failed kind =>
      rw [hending] at h
      cases kind with
      | unexpectedEof => exact .inr rfl
      | _ => cases h
    | silent =>
      rw [hending] at h
      cases h
  · rw [readFrameSynced_payload hincomplete hheader] at h
    cases hending : source.ending <;> rw [hending] at h <;> cases h

/-- A clean end is reported only when the stream is over. -/
def TellsOver (c : Reception) : Prop := Tells c (Over c.source.ending) True

variable {c c' : Reception} {counted frames : List WireFrame} {bytes tail : Bytes}

/-- The transport alone ends the stream, and the monitor alone feeds the gate. -/
theorem receives_inside {event : ReceiveEvent} (hstep : Receives c event c')
    (hinside : event.isOutside = false) :
    c'.source.ending = c.source.ending ∧ c'.gate = c.gate := by
  cases hstep with
  | deliver | finish | signal => cases hinside
  | read now reading result => exact ⟨read_ending result, (read_kept result).2.2.2⟩
  | send sending result =>
    simp only [Reception.send] at result
    split_ifs at result <;> cases result <;> exact ⟨rfl, rfl⟩
  | recv phase queued =>
    unfold Reception.receive
    split
    · exact ⟨rfl, rfl⟩
    · split_ifs <;> exact ⟨rfl, rfl⟩
    · exact ⟨rfl, rfl⟩
  | _ => exact ⟨rfl, rfl⟩

theorem TellsOver.step (h : TellsOver c) (hsound : Sound bytes c counted frames tail)
    {event : ReceiveEvent} (hstep : Receives c event c') (hinside : event.isOutside = false) :
    TellsOver c' := by
  unfold TellsOver
  rw [(receives_inside hstep hinside).1]
  cases hstep with
  | deliver | finish | signal => cases hinside
  | read now reading result =>
    refine Tells.read h result fun _ hincomplete _ => ⟨?_, fun _ _ => trivial⟩
    intro source hnone
    exact over_of_none hincomplete hnone
  | send sending result => exact Tells.send h sending result
  | turnStopped _ stopped => exact tells_finish (.inl stopped)
  | turn phase => exact Tells.loop h (.inl phase) rfl (.inr rfl)
  | recv phase queued => exact Tells.recv h phase queued
  | closed phase empty gone =>
    have hunder := (standing_loop (.inr phase)).mp hsound.standing
    exact absurd gone (hunder.reader_ne_gone empty)
  | changedStopped _ stopped => exact tells_finish (.inl stopped)
  | changed phase => exact Tells.loop h (.inr phase) rfl (.inl rfl)
  | settle _ stopped => exact tells_finish (.inl stopped)
  | timeout phase =>
    refine ⟨fun hrunning => ?_, trivial⟩
    rcases hrunning with hrunning | hrunning <;> cases hrunning

/-! ## What the receiver's half has let in -/

/-- What `receive_synthetic` works on are the bytes behind the handshake. -/
structure Admitted (behind : Bytes) (c : Reception) : Prop where
  sound : ∃ counted frames tail, Sound behind c counted frames tail
  tells : TellsOver c

theorem Admitted.step (h : Admitted bytes c) {event : ReceiveEvent} (hstep : c.step event = some c')
    (hinside : event.isOutside = false) : Admitted bytes c' := by
  obtain ⟨counted, frames, tail, hsound⟩ := h.sound
  have hquiet : ∀ chunk, event ≠ .deliver chunk := by
    rintro chunk rfl
    cases hinside
  have hreceives := receives_of_step hstep
  exact ⟨hsound.step_quiet hquiet hreceives , h.tells.step hsound hreceives hinside⟩

theorem Admitted.signal (h : Admitted bytes c) (signal : PathSignal) (now : ℕ) :
    Admitted bytes { c with gate := c.gate.apply signal now } := by
  obtain ⟨counted, frames, tail, hsound⟩ := h.sound
  refine ⟨hsound.step_quiet (fun _ => ReceiveEvent.noConfusion) (.signal signal now), ?_⟩
  exact Tells.keep h.tells id id (fun _ _ hmsg => .inl hmsg) rfl
    (fun hstopped => isStopped_apply hstopped signal now)

theorem Admitted.deliver (h : Admitted bytes c) (hsilent : c.source.ending = .silent)
    (chunk : Chunk) :
    Admitted (bytes ++ chunk.bytes) { c with source := Source.push c.source chunk } := by
  obtain ⟨counted, frames, tail, hsound⟩ := h.sound
  have hpush : Source.push c.source chunk = ⟨c.source.chunks ++ [chunk], .silent⟩ := by
    rw [← hsilent]
    rfl
  rw [hpush]
  refine ⟨hsound.step (show c.step (.deliver chunk) = some _ from if_pos hsilent), ?_⟩
  refine Tells.keep h.tells (fun hover => ?_) id (fun _ _ hmsg => .inl hmsg) rfl id
  rcases hover with hover | hover <;> rw [hsilent] at hover <;> cases hover

theorem Admitted.finish (h : Admitted bytes c) (hsilent : c.source.ending = .silent)
    (ending : Ending) :
    Admitted bytes { c with source := Source.close c.source ending } := by
  obtain ⟨counted, frames, tail, hsound⟩ := h.sound
  refine ⟨hsound.step_quiet (fun _ => ReceiveEvent.noConfusion) (.finish ending hsilent), ?_⟩
  refine Tells.keep h.tells (fun hover => ?_) id (fun _ _ hmsg => .inl hmsg) rfl id
  rcases hover with hover | hover <;> rw [hsilent] at hover <;> cases hover

/-- Nothing has been read for `receive_synthetic` yet. -/
theorem admitted_start (gate : MediaGate) (source : Source) :
    Admitted source.bytes { Reception.start gate 0 with source := source } :=
  ⟨⟨[], [], source.bytes, rfl, numbered_nil, rfl, counts_nil, .live Reader.noConfusion .nil rfl⟩,
    fun _ _ hmsg => absurd hmsg List.not_mem_nil, trivial⟩

/-- `receive_synthetic` has started. -/
def ReceiverStage.started : ReceiverStage → Bool
  | .receiving | .closing _ | .stopping _ | .returned (.ok _) | .returned (.error (.receive _)) =>
      true
  | _ => false

/-- What the session has been given by `receive_synthetic`. -/
def ReceiverStage.result : ReceiverStage → Option (Except ReceiveError StreamStats)
  | .closing stats | .stopping stats => some (.ok stats)
  | .returned (.ok outcome) => some (.ok outcome.stream)
  | .returned (.error (.receive error)) => some (.error error)
  | _ => none

/-- What holds of the receiver's half and its incoming stream. -/
structure Hears (token : Bytes) (startedUnixMs : ℕ) (a : Attached ReceiverSession) : Prop where
  ending : a.state.reception.source.ending = a.link.ending
  waiting : a.state.stage = .accepting ∨ a.state.stage = .reading →
    a.link.brought = a.state.reception.source.bytes
  answering : ∀ remaining, a.state.stage = .answering remaining →
    a.link.brought = frame token ++ a.state.reception.source.bytes ∧ token.length ≤ 64 * 1024
  fresh : a.state.stage.started = false → ∃ gate source,
    a.state.reception = { Reception.start gate 0 with source := source }
  started : a.state.stage.started = true → token.length ≤ 64 * 1024 ∧
    ∃ behind, a.link.brought = frame token ++ behind ∧ Admitted behind a.state.reception
  result : ∀ stats, a.state.stage.result = some (.ok stats) →
    ∃ n, a.state.reception.phase = .returned (.ok (stats, n))
  failed : ∀ error, a.state.stage.result = some (.error error) →
    a.state.reception.phase = .returned (.error error)
  returned : ∀ o, a.state.stage = .returned (.ok o) → o =
    outcome .receiver startedUnixMs a.state.reception.gate a.state.everRelayPaths true o.stream
  counted : 0 < a.state.everRelayPaths → a.state.reception.gate.state.isStopped = true
  spoken : a.state.sent ≠ [] → token.length ≤ 64 * 1024 ∧ frame token <+: a.link.brought

variable {token : Bytes} {startedUnixMs : ℕ} {a a' : Attached ReceiverSession}

theorem hears_start : Hears token startedUnixMs ⟨.start, .idle⟩ where
  ending := rfl
  waiting _ := rfl
  answering _ h := by cases h
  fresh _ := ⟨.new, ⟨[], .silent⟩, rfl⟩
  started h := by cases h
  result _ h := by cases h
  failed _ h := by cases h
  returned _ h := by cases h
  counted h := absurd h (Nat.lt_irrefl 0)
  spoken h := absurd rfl h

/-- A step to an error of the handshake. -/
theorem Hears.fail (h : Hears token startedUnixMs a) (hstage : a.state.stage.started = false)
    {s : ReceiverSession} (hgate : s.reception.gate = a.state.reception.gate)
    (hrelays : s.everRelayPaths = a.state.everRelayPaths) (hsent : s.sent = a.state.sent)
    (hending : s.reception.source.ending = a.link.ending)
    (hreception : ∃ source, s.reception = { a.state.reception with source := source })
    {error : SessionError} (herror : ∀ e, error ≠ .receive e) :
    Hears token startedUnixMs ⟨s.fail error, a.link⟩ := by
  have hstage' : ∀ stage, (s.fail error).stage = stage → stage = .returned (.error error) :=
    fun stage hs => hs.symm
  have hnone : (ReceiverStage.returned (.error error)).result = none := by
    cases error with
    | receive e => exact absurd rfl (herror e)
    | _ => rfl
  refine ⟨hending, fun hs => ?_, fun _ hs => ?_, fun _ => ?_, fun hs => ?_, fun _ hs => ?_,
    fun _ hs => ?_, fun _ hs => ?_, fun hpos => ?_, fun hs => h.spoken (hsent ▸ hs)⟩
  · rcases hs with hs | hs <;> cases hstage' _ hs
  · cases hstage' _ hs
  · obtain ⟨gate, source, hfresh⟩ := h.fresh hstage
    obtain ⟨source', heq⟩ := hreception
    refine ⟨gate, source', ?_⟩
    show s.reception = _
    rw [heq, hfresh]
  · cases error with
    | receive e => exact absurd rfl (herror e)
    | _ => cases hs
  · cases hnone.symm.trans hs
  · cases hnone.symm.trans hs
  · cases hstage' _ hs
  · show s.reception.gate.state.isStopped = true
    rw [hgate]
    exact h.counted (hrelays ▸ hpos)

theorem Hears.request (h : Hears token startedUnixMs a) (hstage : a.state.stage = .reading)
    {s : ReceiverSession} (hrequest : a.state.request token = some s) :
    Hears token startedUnixMs ⟨s, a.link⟩ := by
  have hstarted : a.state.stage.started = false := by rw [hstage]; rfl
  unfold ReceiverSession.request at hrequest
  cases hread : readFrame.run a.state.reception.source with
  | done req source =>
    obtain ⟨hbytes, hending, hlimit⟩ := readFrame_eq_done hread
    simp only [hread] at hrequest
    split_ifs at hrequest with hreq <;> obtain rfl := Option.some.inj hrequest
    · subst hreq
      refine ⟨hending.trans h.ending, fun hs => ?_, fun _ _ => ⟨?_, hlimit⟩, fun _ => ?_,
        fun hs => ?_, fun _ hs => ?_, fun _ hs => ?_, fun _ hs => ?_, h.counted, h.spoken⟩
      · rcases hs with hs | hs <;> cases hs
      · rw [h.waiting (.inr hstage), hbytes]
        rfl
      · obtain ⟨gate, source', hfresh⟩ := h.fresh hstarted
        refine ⟨gate, source, ?_⟩
        show ({ a.state.reception with source := source } : Reception) = _
        rw [hfresh]
      all_goals cases hs
    · exact h.fail hstarted
        (s := { a.state with reception := { a.state.reception with source := source } })
        rfl rfl rfl (hending.trans h.ending) ⟨source, rfl⟩ (fun _ heq => by cases heq)
  | failed error =>
    simp only [hread] at hrequest
    obtain rfl := Option.some.inj hrequest
    exact h.fail hstarted rfl rfl rfl h.ending ⟨_, rfl⟩ (fun _ heq => by cases heq)
  | waits =>
    simp only [hread] at hrequest
    cases hrequest

theorem Hears.accept (h : Hears token startedUnixMs a) {remaining : Bytes}
    (hstage : a.state.stage = .answering remaining) (count : ℕ) :
    Hears token startedUnixMs ⟨a.state.accept remaining count, a.link⟩ := by
  obtain ⟨hbrought, hlimit⟩ := h.answering remaining hstage
  obtain ⟨gate, source, hfresh⟩ := h.fresh (by rw [hstage]; rfl)
  unfold ReceiverSession.accept
  split_ifs
  · refine ⟨h.ending, fun hs => ?_, fun _ hs => ?_, fun hs => ?_,
      fun _ => ⟨hlimit, _, hbrought, ?_⟩,
      fun _ hs => ?_, fun _ hs => ?_, fun _ hs => ?_, h.counted,
      fun _ => ⟨hlimit, _, hbrought.symm⟩⟩
    · rcases hs with hs | hs <;> cases hs
    · cases hs
    · cases hs
    · show Admitted a.state.reception.source.bytes a.state.reception
      rw [hfresh]
      exact admitted_start gate source
    all_goals cases hs
  · refine ⟨h.ending, fun hs => ?_, fun _ _ => ⟨hbrought, hlimit⟩, fun _ => ⟨gate, source, hfresh⟩,
      fun hs => ?_, fun _ hs => ?_, fun _ hs => ?_, fun _ hs => ?_, h.counted,
      fun _ => ⟨hlimit, _, hbrought.symm⟩⟩
    · rcases hs with hs | hs <;> cases hs
    all_goals cases hs

theorem Hears.follow (h : Hears token startedUnixMs a) (hstage : a.state.stage = .receiving)
    {event : ReceiveEvent} (hinside : event.isOutside = false) {c : Reception}
    (hstep : a.state.reception.step event = some c) :
    Hears token startedUnixMs ⟨a.state.follow c, a.link⟩ := by
  obtain ⟨hlimit, behind, hbrought, hadmitted⟩ := h.started (by rw [hstage]; rfl)
  obtain ⟨hending, hgate⟩ := receives_inside (receives_of_step hstep) hinside
  have hadmitted' := hadmitted.step hstep hinside
  have hcounted : 0 < a.state.everRelayPaths → c.gate.state.isStopped = true := by
    rw [hgate]
    exact h.counted
  unfold ReceiverSession.follow
  split
  · next stats n hphase =>
    refine ⟨hending.trans h.ending, fun hs => ?_, fun _ hs => ?_, fun hs => ?_,
      fun _ => ⟨hlimit, behind, hbrought, hadmitted'⟩, fun _ hs => ?_, fun _ hs => ?_,
      fun _ hs => ?_, hcounted, h.spoken⟩
    · rcases hs with hs | hs <;> cases hs
    · cases hs
    · cases hs
    · cases hs
      exact ⟨n, hphase⟩
    all_goals cases hs
  · next error hphase =>
    refine ⟨hending.trans h.ending, fun hs => ?_, fun _ hs => ?_, fun hs => ?_,
      fun _ => ⟨hlimit, behind, hbrought, hadmitted'⟩, fun _ hs => ?_, fun _ hs => ?_,
      fun _ hs => ?_, hcounted, h.spoken⟩
    · rcases hs with hs | hs <;> cases hs
    · cases hs
    · cases hs
    · cases hs
    · cases hs
      exact hphase
    · cases hs
  · refine ⟨hending.trans h.ending, fun hs => ?_, fun _ hs => ?_, fun hs => ?_,
      fun _ => ⟨hlimit, behind, hbrought, hadmitted'⟩, fun _ hs => ?_, fun _ hs => ?_,
      fun _ hs => ?_, hcounted, h.spoken⟩
    · rcases hs with hs | hs <;> cases hs
    all_goals cases hs

theorem Hears.monitor (h : Hears token startedUnixMs a)
    (hstage : ∀ result, a.state.stage ≠ .returned result) {relays : ℕ} {signal : PathSignal}
    (hrelay : relays = 0 ∨ signal.hasRelay = true) (now : ℕ) :
    Hears token startedUnixMs ⟨a.state.monitor relays signal now, a.link⟩ := by
  refine ⟨h.ending, h.waiting, h.answering, fun hs => ?_, fun hs => ?_, h.result, h.failed,
    fun o hs => absurd hs (hstage _), fun hpos => ?_, h.spoken⟩
  · obtain ⟨gate, source, hfresh⟩ := h.fresh hs
    refine ⟨gate.apply signal now, source, ?_⟩
    unfold ReceiverSession.monitor
    rw [hfresh]
    rfl
  · obtain ⟨hlimit, behind, hbrought, hadmitted⟩ := h.started hs
    exact ⟨hlimit, behind, hbrought, hadmitted.signal signal now⟩
  · rcases hrelay with rfl | hrelay
    · exact isStopped_apply (h.counted hpos) signal now
    · cases signal with
      | snapshot openDirect hasRelay selectedDirect =>
        obtain rfl : hasRelay = true := hrelay
        exact apply_relay _ _ _ _
      | connectionClosed => cases hrelay

/-- A step that only moves the stage on. -/
theorem Hears.goto (h : Hears token startedUnixMs a) {stage : ReceiverStage}
    (hstarted : stage.started = a.state.stage.started)
    (hresult : stage.result = a.state.stage.result)
    (hwaiting : stage = .accepting ∨ stage = .reading →
      a.state.stage = .accepting ∨ a.state.stage = .reading)
    (hanswering : ∀ remaining, stage ≠ .answering remaining)
    (houtcome : ∀ o, stage = .returned (.ok o) → o =
      outcome .receiver startedUnixMs a.state.reception.gate a.state.everRelayPaths true o.stream) :
    Hears token startedUnixMs ⟨a.state.goto stage, a.link⟩ :=
  ⟨h.ending, fun hs => h.waiting (hwaiting hs),
    fun remaining hs => absurd hs (hanswering remaining),
    fun hs => h.fresh (hstarted ▸ hs), fun hs => h.started (hstarted ▸ hs),
    fun stats hs => h.result stats (hresult ▸ hs), fun error hs => h.failed error (hresult ▸ hs),
    houtcome, h.counted, h.spoken⟩

/-- One step of the receiver's half. -/
theorem Hears.own (h : Hears token startedUnixMs a) {event : ReceiverEvent} {s : ReceiverSession}
    (hstep : ReceiverSession.step token startedUnixMs event a.state = some s) :
    Hears token startedUnixMs ⟨s, a.link⟩ := by
  unfold ReceiverSession.step at hstep
  cases event with
  | accepted =>
    obtain ⟨hstage, rfl⟩ := of_guarded hstep
    refine h.goto ?_ ?_ (fun _ => .inl hstage) (fun _ hs => by cases hs)
      (fun _ hs => by cases hs) <;>
      rw [hstage] <;> rfl
  | acceptFails error =>
    obtain ⟨hstage, rfl⟩ := of_guarded hstep
    exact h.fail (by rw [hstage]; rfl) rfl rfl rfl h.ending ⟨_, rfl⟩ (fun _ heq => by cases heq)
  | request =>
    simp only at hstep
    split_ifs at hstep with hstage
    exact h.request hstage hstep
  | accept count =>
    cases hstage : a.state.stage with
    | answering remaining =>
      simp only [hstage] at hstep
      obtain ⟨-, rfl⟩ := of_guarded hstep
      exact h.accept hstage count
    | _ =>
      simp only [hstage] at hstep
      cases hstep
  | answerFails kind =>
    cases hstage : a.state.stage with
    | answering remaining =>
      simp only [hstage] at hstep
      obtain rfl := Option.some.inj hstep
      exact h.fail (s := { a.state with broken := true }) (by rw [hstage]; rfl) rfl rfl rfl h.ending
        ⟨_, rfl⟩ (fun _ heq => by cases heq)
    | _ =>
      simp only [hstage] at hstep
      cases hstep
  | timeout =>
    obtain ⟨hstage, rfl⟩ := of_guarded hstep
    refine h.fail ?_ rfl rfl rfl h.ending ⟨_, rfl⟩ (fun _ heq => by cases heq)
    -- only the handshake can time out, and in it nothing has been counted
    unfold ReceiverSession.handshaking at hstage
    cases hs : a.state.stage with
    | accepting | reading | answering remaining => rfl
    | _ =>
      rw [hs] at hstage
      cases hstage
  -- the counting is that of a receiver without a session
  | receive event =>
    simp only at hstep
    split_ifs at hstep with hcond
    obtain ⟨c, hreceive, rfl⟩ := Option.map_eq_some_iff.mp hstep
    exact h.follow hcond.1 hcond.2 hreceive
  | shutdown =>
    cases hstage : a.state.stage with
    | closing stats =>
      simp only [hstage] at hstep
      obtain rfl := Option.some.inj hstep
      refine h.goto ?_ ?_ (fun hs => ?_) (fun _ hs => by cases hs) (fun _ hs => by cases hs)
      · rw [hstage]
        rfl
      · rw [hstage]
        rfl
      · rcases hs with hs | hs <;> cases hs
    | _ =>
      simp only [hstage] at hstep
      cases hstep
  | monitor relays signal now =>
    cases hstage : a.state.stage with
    | returned result =>
      simp only [hstage] at hstep
      cases hstep
    | _ =>
      simp only [hstage] at hstep
      obtain ⟨hrelay, rfl⟩ := of_guarded hstep
      refine h.monitor (fun result hs => ?_) hrelay now
      rw [hstage] at hs
      cases hs
  | monitored =>
    cases hstage : a.state.stage with
    | stopping stats =>
      simp only [hstage] at hstep
      obtain rfl := Option.some.inj hstep
      refine h.goto ?_ ?_ (fun hs => ?_) (fun _ hs => by cases hs) (fun o hs => ?_)
      · rw [hstage]
        rfl
      · rw [hstage]
        rfl
      · rcases hs with hs | hs <;> cases hs
      · cases hs
        rfl
    | _ =>
      simp only [hstage] at hstep
      cases hstep

/-- The transport brings more bytes, or the end of the stream. -/
theorem Hears.deliver (h : Hears token startedUnixMs a) (hsilent : a.link.ending = .silent)
    (chunk : Chunk) :
    Hears token startedUnixMs
      ⟨(receiverParty token startedUnixMs).deliver chunk a.state,
        ⟨a.link.brought ++ chunk.bytes, .silent⟩⟩ := by
  have hending := h.ending.trans hsilent
  refine ⟨hending, fun hs => ?_, fun remaining hs => ?_, fun hs => ?_, fun hs => ?_, h.result,
    h.failed, h.returned, h.counted, fun hs => (h.spoken hs).imp_right fun hfront =>
      hfront.trans (List.prefix_append _ _)⟩
  · show _ = (Source.push a.state.reception.source chunk).bytes
    rw [Source.push_bytes, h.waiting hs]
  · obtain ⟨hbrought, hlimit⟩ := h.answering remaining hs
    refine ⟨?_, hlimit⟩
    show _ = frame token ++ (Source.push a.state.reception.source chunk).bytes
    rw [Source.push_bytes, ← List.append_assoc, ← hbrought]
  · obtain ⟨gate, source, hfresh⟩ := h.fresh hs
    refine ⟨gate, Source.push source chunk, ?_⟩
    show ({ a.state.reception with source := _ } : Reception) = _
    rw [hfresh]
  · obtain ⟨hlimit, behind, hbrought, hadmitted⟩ := h.started hs
    refine ⟨hlimit, behind ++ chunk.bytes, ?_, hadmitted.deliver hending chunk⟩
    show a.link.brought ++ chunk.bytes = _
    rw [hbrought, List.append_assoc]

theorem Hears.finish (h : Hears token startedUnixMs a) (hsilent : a.link.ending = .silent)
    (ending : Ending) :
    Hears token startedUnixMs
      ⟨(receiverParty token startedUnixMs).finish ending a.state, ⟨a.link.brought, ending⟩⟩ := by
  refine ⟨rfl, h.waiting, h.answering, fun hs => ?_, fun hs => ?_, h.result, h.failed, h.returned,
    h.counted, h.spoken⟩
  · obtain ⟨gate, source, hfresh⟩ := h.fresh hs
    refine ⟨gate, Source.close source ending, ?_⟩
    show ({ a.state.reception with source := _ } : Reception) = _
    rw [hfresh]
  · obtain ⟨hlimit, behind, hbrought, hadmitted⟩ := h.started hs
    exact ⟨hlimit, behind, hbrought, hadmitted.finish (h.ending.trans hsilent) ending⟩

/-- It holds after every run, whatever the peer sends. -/
theorem hears_run {moves : List (Move ReceiverEvent)}
    (hrun : run (receiverParty token startedUnixMs).step ⟨.start, .idle⟩ moves = some a) :
    Hears token startedUnixMs a := by
  refine run_induct (P := fun _ a => Hears token startedUnixMs a) hears_start ?_ hrun
  rintro moves a move ⟨s, link⟩ - h hstep
  cases move with
  | own event =>
    obtain ⟨hown, rfl⟩ := Party.own_of_step hstep
    exact h.own hown
  | carry chunk =>
    obtain ⟨hsilent, heq⟩ := Party.carry_of_step hstep
    exact heq ▸ h.deliver hsilent chunk
  | finish ending =>
    obtain ⟨hsilent, heq⟩ := Party.finish_of_step hstep
    exact heq ▸ h.finish hsilent ending

/-! ## The token comes first -/

/-- What has been counted, once the handshake is over. -/
theorem Hears.admits (h : Hears token startedUnixMs a) (hstarted : a.state.stage.started = true) :
    ∃ behind counted, a.link.brought = frame token ++ behind ∧ encodeAll counted <+: behind ∧
      Numbered counted ∧ a.state.reception.stats.Counts counted := by
  obtain ⟨-, behind, hbrought, hadmitted⟩ := h.started hstarted
  obtain ⟨counted, frames, tail, hsound⟩ := hadmitted.sound
  exact ⟨behind, counted, hbrought, ⟨_, hsound.bytes_eq.symm⟩, hsound.numbered, hsound.counts⟩

/-- A session that has its result with the gate still open has counted all there was. -/
theorem Hears.complete (h : Hears token startedUnixMs a) {stats : StreamStats}
    (hresult : a.state.stage.result = some (.ok stats))
    (hopen : a.state.reception.gate.state.isStopped = false) :
    Over a.link.ending ∧ ∃ behind counted, a.link.brought = frame token ++ behind ∧
      CompleteFrames counted behind ∧ Numbered counted ∧ stats.Counts counted := by
  have hstarted : a.state.stage.started = true := by
    cases hs : a.state.stage with
    | returned result =>
      rw [hs] at hresult
      match result, hresult with
      | .ok _, _ => rfl
      | .error (.receive _), _ => rfl
    | closing | stopping | receiving => rfl
    | _ =>
      rw [hs] at hresult
      cases hresult
  obtain ⟨n, hphase⟩ := h.result stats hresult
  obtain ⟨-, behind, hbrought, hadmitted⟩ := h.started hstarted
  obtain ⟨counted, frames, tail, hsound⟩ := hadmitted.sound
  have htells := hadmitted.tells.phase
  have hstanding := hsound.standing
  unfold Standing at hstanding
  rw [hphase] at htells hstanding
  obtain ⟨hstats, -, hend⟩ := hstanding
  have hover : Over a.link.ending := by
    rw [← h.ending]
    exact htells.resolve_left (by rw [hopen]; exact Bool.false_ne_true)
  obtain ⟨rfl, hincomplete, -⟩ := hend.resolve_left (by rw [hopen]; exact Bool.false_ne_true)
  exact ⟨hover, behind, counted, hbrought, ⟨tail, hsound.bytes_eq, hincomplete⟩, hsound.numbered,
    hstats ▸ hsound.counts⟩

/-- Whatever the peer sends and in every order of steps, the receiver's half counts nothing
unless the first frame is the token; what its outcome counts are the numbered frames behind it,
all of them if the gate is still open, and then no relay path has been counted. -/
theorem token_first {moves : List (Move ReceiverEvent)}
    (hrun : run (receiverParty token startedUnixMs).step ⟨.start, .idle⟩ moves = some a) :
    (a.state.reception.stats.frames ≠ 0 → ∃ behind counted,
      a.link.brought = frame token ++ behind ∧ encodeAll counted <+: behind ∧ Numbered counted ∧
        a.state.reception.stats.Counts counted) ∧
    ∀ o, a.state.stage = .returned (.ok o) → ∃ behind counted,
      a.link.brought = frame token ++ behind ∧ encodeAll counted <+: behind ∧ Numbered counted ∧
        o.stream.Counts counted ∧ (o.directConnectionSuccess = true ↔ counted ≠ []) ∧
        (a.state.reception.gate.state.isStopped = false →
          o.everRelayPaths = 0 ∧ Over a.link.ending ∧ CompleteFrames counted behind) := by
  have h := hears_run hrun
  constructor
  · intro hframes
    cases hstarted : a.state.stage.started with
    | true => exact h.admits hstarted
    | false =>
      obtain ⟨gate, source, hfresh⟩ := h.fresh hstarted
      rw [hfresh] at hframes
      exact absurd rfl hframes
  · intro o hstage
    have hresult : a.state.stage.result = some (.ok o.stream) := by rw [hstage]; rfl
    have hdirect : ∀ counted, o.stream.Counts counted →
        (o.directConnectionSuccess = true ↔ counted ≠ []) := by
      intro counted hcounts
      rw [h.returned o hstage]
      show decide (0 < o.stream.frames) = true ↔ _
      rw [decide_eq_true_iff, hcounts.frames_eq, List.length_pos_iff]
    -- behind an open gate every complete frame has been taken
    cases hgate : a.state.reception.gate.state.isStopped with
    | false =>
      obtain ⟨hover, behind, counted, hbrought, hcomplete, hnumbered, hcounts⟩ :=
        h.complete hresult hgate
      obtain ⟨tail, htail, hincomplete⟩ := hcomplete
      refine ⟨behind, counted, hbrought, ⟨tail, htail.symm⟩, hnumbered, hcounts, hdirect _ hcounts,
        fun _ => ⟨?_, hover, tail, htail, hincomplete⟩⟩
      -- a relay path that is counted stops the gate
      by_contra hne
      have hstopped := h.counted (by rw [h.returned o hstage] at hne; exact Nat.pos_of_ne_zero hne)
      rw [hgate] at hstopped
      cases hstopped
    | true =>
      obtain ⟨behind, counted, hbrought, hfront, hnumbered, hcounts⟩ :=
        h.admits (by rw [hstage]; rfl)
      obtain ⟨n, hphase⟩ := h.result _ hresult
      obtain ⟨-, _, -, hadmitted⟩ := h.started (by rw [hstage]; rfl)
      obtain ⟨_, _, _, hsound⟩ := hadmitted.sound
      have hstanding := hsound.standing
      unfold Standing at hstanding
      rw [hphase] at hstanding
      have hcounts : o.stream.Counts counted := hstanding.1 ▸ hcounts
      exact ⟨behind, counted, hbrought, hfront, hnumbered, hcounts, hdirect _ hcounts,
        fun hopen => by cases hopen⟩

/-- A peer that presents the token, sends one frame and finishes the stream. -/
def sampleHearing : List (Move ReceiverEvent) :=
  [.own .accepted, .carry ⟨frame [7] ++ sampleFrame.encode, by decide⟩, .own .request,
    .own (.accept 9), .finish .finished, .own (.receive (.read 3)), .own (.receive .send),
    .own (.receive (.read 4)), .own (.receive .send), .own (.receive .turn),
    .own (.receive .recv), .own (.receive .turn), .own (.receive .recv), .own .shutdown,
    .own .monitored]

def oneFrameStats : StreamStats :=
  { frames := 1, bytesOnWire := 16, payloadBytes := 2, firstFrameUnixMs := some 3,
    lastFrameUnixMs := some 3 }

def sampleHeard : Attached ReceiverSession where
  state :=
    { reception := ⟨⟨[], .finished⟩, .gone, [], .new, 0, 1, oneFrameStats,
        .returned (.ok (oneFrameStats, 1))⟩
      everRelayPaths := 0
      sent := frame readyAnswer
      broken := false
      stage := .returned (.ok (outcome .receiver 0 .new 0 true oneFrameStats)) }
  link := ⟨frame [7] ++ sampleFrame.encode, .finished⟩

theorem sampleHeard_run :
    run (receiverParty [7] 0).step ⟨.start, .idle⟩ sampleHearing = some sampleHeard := by
  decide +kernel

/-- The frame behind the token is counted. -/
theorem token_first_one_frame : ∃ behind counted,
    sampleHeard.link.brought = frame [7] ++ behind ∧ encodeAll counted <+: behind ∧
      Numbered counted ∧ oneFrameStats.Counts counted :=
  (token_first sampleHeard_run).1 (by decide)

end IrohExperiment.Media
