/-
# The baseline echo comes to its end (`baseline/src/bin/dialer.rs`, `acceptor.rs`)

Writing and reading the echo at the same time keeps the two programs from waiting for each
other: as long as nothing fails, something can go on until both are done, whatever the window
of the streams.

Three facts give this.  What is clear of failures stays so (`Clear.step`); every step leaves
less to do, by a measure that counts a byte for each place it has still to pass
(`Clear.falls`); and some step is always possible (`Clear.next`).  The main result is
`echo_completes`.
-/
import IrohExperiment.Baseline.Rows
import IrohExperiment.History.Progress

namespace IrohExperiment.Baseline

open Rust History

/-! ## Steps without a failure -/

/-- The bytes that have been brought and not yet read. -/
def Dialer.unread (d : Dialer) : ℕ := d.source.bytes.length

/-- The bytes that have been brought and not yet read. -/
def Acceptor.unread (a : Acceptor) : ℕ := a.source.bytes.length

/-- An event that is not a failure; `buffer` is what a receiver holds of unread bytes. -/
def Smooth (buffer : ℕ) (event : Move DialEvent ⊕ Move AcceptEvent) (c : Joined Dialer Acceptor) :
    Prop :=
  match event with
  | .inl (.own (.openFails _)) | .inl (.own (.writeFails _)) => False
  | .inr (.own (.acceptFails _)) | .inr (.own (.writeFails _)) | .inr (.own (.finishFails _)) =>
    False
  | .inl (.own _) | .inr (.own _) => True
  | .inl (.carry chunk) => c.left.state.unread + chunk.bytes.length ≤ buffer
  | .inr (.carry chunk) => c.right.state.unread + chunk.bytes.length ≤ buffer
  | .inl (.finish ending) | .inr (.finish ending) => ending = .finished

instance (buffer : ℕ) (event : Move DialEvent ⊕ Move AcceptEvent) (c : Joined Dialer Acceptor) :
    Decidable (Smooth buffer event c) := by
  unfold Smooth
  split <;> infer_instance

/-- Nothing has failed. -/
structure Clear (runId : Text) (payload : Bytes) (window : ℕ) (c : Joined Dialer Acceptor) :
    Prop where
  reached : ∃ events, echoRun runId payload window events = some c
  dialer : ∀ failure, c.left.state.phase ≠ .done (some failure)
  task : ∀ error, c.left.state.task ≠ .failed error
  acceptor : ∀ failure, c.right.state.phase ≠ .done (some failure)
  back : ∀ kind, c.left.link.ending ≠ .failed kind
  forward : ∀ kind, c.right.link.ending ≠ .failed kind

/-- Both programs are done, without a failure. -/
def Final (c : Joined Dialer Acceptor) : Prop :=
  c.left.state.phase = .done none ∧ c.right.state.phase = .done none

variable {runId : Text} {payload : Bytes} {window buffer : ℕ} {c c' : Joined Dialer Acceptor}

theorem Clear.echo (h : Clear runId payload window c) : Echo runId payload c := by
  obtain ⟨events, hrun⟩ := h.reached
  exact echo_run hrun

theorem Clear.inFlight (h : Clear runId payload window c) :
    c.left.state.sent.length ≤ c.right.link.brought.length + window ∧
      c.right.state.sent.length ≤ c.left.link.brought.length + window := by
  obtain ⟨events, hrun⟩ := h.reached
  exact inFlight_run (dialParty_lawful (wire runId payload)) (acceptParty_lawful payload.length)
    rfl rfl hrun

/-- The dialer finishes its stream behind the whole wire. -/
theorem Clear.forward_finished (h : Clear runId payload window c)
    (hfinished : c.right.link.ending = .finished) : c.right.link.brought = wire runId payload := by
  obtain ⟨hwriter, hall⟩ := h.echo.forward.finished hfinished
  have hwriter : c.left.state.writer = .finished := hwriter
  unfold Dialer.writer at hwriter
  cases htask : c.left.state.task with
  | unspawned | writing | failed => simp [htask] at hwriter
  | finished => rw [hall, ← h.echo.dials.finished htask]
  | aborted =>
    obtain ⟨failure, hfailed⟩ := h.echo.dials.aborted htask
    exact absurd hfailed (h.dialer failure)

/-- The acceptor finishes its stream behind the whole echo. -/
theorem Clear.back_finished (h : Clear runId payload window c)
    (hid : (utf8 runId).length ≤ runIdMaxBytes) (hfinished : c.left.link.ending = .finished) :
    c.left.link.brought = wire runId payload := by
  obtain ⟨hwriter, hall⟩ := h.echo.back.finished hfinished
  have hwriter : c.right.state.writer = .finished := hwriter
  unfold Acceptor.writer at hwriter
  split_ifs at hwriter
  split at hwriter
  · next failure hphase =>
    cases failure with
    | none => rw [hall, (h.echo.complete hid (h.echo.over hid hphase)).1]
    | some failure => exact absurd hphase (h.acceptor failure)
  · cases hwriter

/-! ## What is kept -/

/-- The steps of a run go on from where it is. -/
theorem Clear.reached_step (h : Clear runId payload window c)
    {event : Move DialEvent ⊕ Move AcceptEvent}
    (hstep : Joined.step (dialParty (wire runId payload)) (acceptParty payload.length) window
      event c = some c') : ∃ events, echoRun runId payload window events = some c' := by
  obtain ⟨events, hrun⟩ := h.reached
  exact ⟨events ++ [event], run_concat.mpr ⟨c, hrun, hstep⟩⟩

/-- A turn of the loop that reads the echo does not fail. -/
theorem Clear.read (h : Clear runId payload window c) (hid : (utf8 runId).length ≤ runIdMaxBytes)
    (hphase : c.left.state.phase = .reading) {d : Dialer}
    (hread : c.left.state.read (wire runId payload) = some d) (failure : DialFailure)
    (hmismatch : ∀ offset, failure ≠ .echoMismatch offset) : d.phase ≠ .done (some failure) := by
  intro hfailed
  unfold Dialer.read at hread
  split_ifs at hread with hmore
  · simp only at hread
    split at hread
    · split_ifs at hread <;> obtain rfl := Option.some.inj hread
      · exact absurd (hphase.symm.trans hfailed) (fun heq => by cases heq)
      · exact hmismatch _ (Option.some.inj (DialPhase.done.inj hfailed)).symm
    · next error hrun =>
      obtain ⟨hshort, hending⟩ := readExact_eq_failed hrun
      rw [h.echo.dials.ending] at hending
      rcases hending with hfinished | hbroken
      · have hall := h.back_finished hid hfinished
        rw [h.echo.dials.reading (.inr hphase)] at hall
        have hlen := congrArg List.length hall
        rw [List.length_append, List.length_take, Nat.min_eq_left hmore.le] at hlen
        omega
      · exact h.back error hbroken
    · cases hread
  · obtain rfl := Option.some.inj hread
    cases hfailed

/-- The dialer's own steps do not fail. -/
theorem Clear.dialer_own (h : Clear runId payload window c)
    (hid : (utf8 runId).length ≤ runIdMaxBytes) {event : DialEvent}
    (hsmooth : Smooth buffer (.inl (.own event)) c) {d : Dialer}
    (hstep : Dialer.step (wire runId payload) event c.left.state = some d) :
    (∀ failure, (∀ offset, failure ≠ .echoMismatch offset) → d.phase ≠ .done (some failure)) ∧
      ∀ error, d.task ≠ .failed error := by
  unfold Dialer.step at hstep
  cases event with
  | opened =>
    obtain ⟨-, rfl⟩ := of_guarded hstep
    exact ⟨fun _ _ hs => (by cases hs), fun _ hs => (by cases hs)⟩
  | openFails | writeFails => exact absurd hsmooth id
  | accept count =>
    simp only at hstep
    split at hstep
    · obtain ⟨-, rfl⟩ := of_guarded hstep
      exact ⟨fun failure _ => h.dialer failure, fun _ hs => (by cases hs)⟩
    · cases hstep
  | nextChunk =>
    simp only at hstep
    split at hstep
    · obtain rfl := Option.some.inj hstep
      refine ⟨fun failure _ => h.dialer failure, fun error hs => ?_⟩
      unfold Dialer.nextChunk at hs
      simp only at hs
      split_ifs at hs
    · cases hstep
  | read =>
    simp only at hstep
    split_ifs at hstep with hphase
    exact ⟨h.read hid hphase hstep, fun error hs =>
      h.task error ((Dialer.read_kept hstep).2.2 error hs)⟩
  | join =>
    simp only at hstep
    split_ifs at hstep
    unfold Dialer.join at hstep
    split at hstep
    · obtain rfl := Option.some.inj hstep
      exact ⟨fun _ _ hs => (by cases hs), h.task⟩
    · next error htask => exact absurd htask (h.task error)
    · cases hstep

/-- What the acceptor has been brought before it knows the id. -/
theorem Clear.early (h : Clear runId payload window c) (front : Bytes) {n : ℕ}
    (hbrought : c.right.link.brought = front ++ c.right.state.source.bytes)
    (hneeds : front.length + n ≤ (wire runId payload).length) {kind : ErrorKind}
    (hread : (readExact n).run c.right.state.source = .failed kind) : False := by
  obtain ⟨hshort, hending⟩ := readExact_eq_failed hread
  rw [h.echo.echoes.ending] at hending
  rcases hending with hfinished | hbroken
  · have hall := congrArg List.length (hbrought.symm.trans (h.forward_finished hfinished))
    rw [List.length_append] at hall
    omega
  · exact h.forward kind hbroken

/-- A length that the acceptor has read is that of the dialer's run id. -/
theorem Echo.length (h : Echo runId payload c) (hid : (utf8 runId).length ≤ runIdMaxBytes)
    {lenBuf rest : Bytes} (hfour : lenBuf.length = 4)
    (hbrought : c.right.link.brought = lenBuf ++ rest) :
    fromLe32 lenBuf = (utf8 runId).length := by
  have hfront := h.answer.2
  rw [hbrought] at hfront
  obtain ⟨more, hmore⟩ := hfront
  unfold wire runHeader at hmore
  rw [List.append_assoc, List.append_assoc] at hmore
  obtain ⟨rfl, -⟩ := List.append_inj hmore (by rw [hfour, toLe32_length])
  unfold runIdMaxBytes at hid
  exact fromLe32_toLe32 (by omega)

/-- Reading the header does not fail. -/
theorem Clear.readLength (h : Clear runId payload window c)
    (hphase : c.right.state.phase = .readingLength) {a : Acceptor}
    (hread : c.right.state.readLength = some a) (failure : AcceptFailure)
    (hlong : ∀ length, failure ≠ .headerTooLong length) : a.phase ≠ .done (some failure) := by
  intro hfailed
  have hstands := h.echo.echoes.stands
  unfold Stands at hstands
  rw [hphase] at hstands
  unfold Acceptor.readLength at hread
  split at hread
  · simp only at hread
    split_ifs at hread <;> obtain rfl := Option.some.inj hread
    · exact hlong _ (Option.some.inj (AcceptPhase.done.inj hfailed)).symm
    · cases hfailed
  · next error hrun =>
    refine h.early [] hstands.2 ?_ hrun
    rw [wire_length, runHeader_length, List.length_nil]
    omega
  · cases hread

theorem Clear.readId (h : Clear runId payload window c) (hid : (utf8 runId).length ≤ runIdMaxBytes)
    {lenBuf : Bytes} (hphase : c.right.state.phase = .readingId lenBuf) {a : Acceptor}
    (hread : c.right.state.readId lenBuf = some a) (failure : AcceptFailure) :
    a.phase ≠ .done (some failure) := by
  intro hfailed
  have hstands := h.echo.echoes.stands
  unfold Stands at hstands
  rw [hphase] at hstands
  obtain ⟨-, hfour, hbrought⟩ := hstands
  unfold Acceptor.readId at hread
  split at hread
  · obtain rfl := Option.some.inj hread
    cases hfailed
  · next error hrun =>
    refine h.early lenBuf hbrought ?_ hrun
    rw [h.echo.length hid hfour hbrought, hfour, wire_length, runHeader_length]
    omega
  · cases hread

/-- A turn of the echo loop does not fail. -/
theorem Clear.echoRead (h : Clear runId payload window c) {a : Acceptor}
    (hread : c.right.state.read payload.length = some a) (failure : AcceptFailure)
    (hended : failure ≠ .endedEarly) : a.phase ≠ .done (some failure) := by
  intro hfailed
  unfold Acceptor.read at hread
  split_ifs at hread
  · split at hread
    · obtain rfl := Option.some.inj hread
      cases hfailed
    · obtain rfl := Option.some.inj hread
      exact hended (Option.some.inj (AcceptPhase.done.inj hfailed)).symm
    · next error hrun =>
      have hbroken := readSome_eq_failed hrun
      rw [h.echo.echoes.ending] at hbroken
      exact h.forward error hbroken
    · cases hread
  · obtain rfl := Option.some.inj hread
    cases hfailed

/-- The acceptor's own steps do not fail. -/
theorem Clear.acceptor_own (h : Clear runId payload window c)
    (hid : (utf8 runId).length ≤ runIdMaxBytes) {event : AcceptEvent}
    (hsmooth : Smooth buffer (.inr (.own event)) c) {a : Acceptor}
    (hstep : Acceptor.step payload.length event c.right.state = some a) (failure : AcceptFailure)
    (hlong : ∀ length, failure ≠ .headerTooLong length) (hended : failure ≠ .endedEarly) :
    a.phase ≠ .done (some failure) := by
  unfold Acceptor.step at hstep
  cases event with
  | accepted =>
    obtain ⟨-, rfl⟩ := of_guarded hstep
    exact fun hs => by cases hs
  | acceptFails | writeFails | finishFails => exact absurd hsmooth id
  | readLength =>
    simp only at hstep
    split_ifs at hstep with hphase
    exact h.readLength hphase hstep failure hlong
  | readId =>
    simp only at hstep
    split at hstep
    · next hphase => exact h.readId hid hphase hstep failure
    · cases hstep
  | accept count =>
    simp only at hstep
    split at hstep
    · obtain ⟨-, rfl⟩ := of_guarded hstep
      intro hs
      simp only at hs
      split_ifs at hs
    · obtain ⟨-, rfl⟩ := of_guarded hstep
      intro hs
      simp only at hs
      split_ifs at hs
    · cases hstep
  | read =>
    simp only at hstep
    split_ifs at hstep
    exact h.echoRead hstep failure hended
  | finish =>
    obtain ⟨-, rfl⟩ := of_guarded hstep
    exact fun hs => by cases hs

/-- What is clear stays clear. -/
theorem Clear.step (h : Clear runId payload window c) (hid : (utf8 runId).length ≤ runIdMaxBytes)
    {event : Move DialEvent ⊕ Move AcceptEvent} (hsmooth : Smooth buffer event c)
    (hstep : Joined.step (dialParty (wire runId payload)) (acceptParty payload.length) window
      event c = some c') : Clear runId payload window c' := by
  obtain ⟨events, hreached⟩ := h.reached_step hstep
  have hecho := echo_run hreached
  cases event with
  | inl move =>
    obtain ⟨hmove, hsame, hallowed⟩ := Joined.moveLeft_eq_some.mp hstep
    -- a move of the dialer's half leaves the acceptor's as it is
    have hacceptor : ∀ failure, c'.right.state.phase ≠ .done (some failure) := by
      rw [hsame]
      exact h.acceptor
    have hforward : ∀ kind, c'.right.link.ending ≠ .failed kind := by
      rw [hsame]
      exact h.forward
    cases move with
    | own event =>
      obtain ⟨hown, hlink⟩ := Party.own_of_step hmove
      obtain ⟨hdialer, htask⟩ := h.dialer_own hid hsmooth hown
      refine ⟨⟨events, hreached⟩, fun failure hfailed => ?_, htask, hacceptor, ?_, hforward⟩
      · refine hdialer failure (fun offset hmismatch => ?_) hfailed
        exact hecho.no_mismatch offset (hmismatch ▸ hfailed)
      · rw [hlink]
        exact h.back
    | carry chunk =>
      obtain ⟨-, heq⟩ := Party.carry_of_step hmove
      refine ⟨⟨events, hreached⟩, ?_, ?_, hacceptor, ?_, hforward⟩ <;> rw [heq]
      · exact h.dialer
      · exact h.task
      · exact fun kind hs => by cases hs
    | finish ending =>
      obtain ⟨-, heq⟩ := Party.finish_of_step hmove
      have hfinished : ending = .finished := hsmooth
      refine ⟨⟨events, hreached⟩, ?_, ?_, hacceptor, ?_, hforward⟩ <;> rw [heq]
      · exact h.dialer
      · exact h.task
      · rw [hfinished]
        exact fun kind hs => by cases hs
  | inr move =>
    obtain ⟨hmove, hsame, hallowed⟩ := Joined.moveLeft_eq_some.mp (Joined.step_inr hstep)
    have hsame : c'.left = c.left := hsame
    -- and the other way round
    have hdialer : ∀ failure, c'.left.state.phase ≠ .done (some failure) := by
      rw [hsame]
      exact h.dialer
    have htask : ∀ error, c'.left.state.task ≠ .failed error := by
      rw [hsame]
      exact h.task
    have hback : ∀ kind, c'.left.link.ending ≠ .failed kind := by
      rw [hsame]
      exact h.back
    cases move with
    | own event =>
      obtain ⟨hown, hlink⟩ := Party.own_of_step hmove
      have hlink : c'.right.link = c.right.link := hlink
      refine ⟨⟨events, hreached⟩, hdialer, htask, fun failure hfailed => ?_, hback, ?_⟩
      · refine h.acceptor_own hid hsmooth hown failure (fun length hlong => ?_) ?_ hfailed
        · exact hecho.no_long_header hid length (hlong ▸ hfailed)
        · rintro rfl
          -- the request ends early only where the dialer has failed
          obtain ⟨failed, hbad⟩ := hecho.ended_early hid hfailed
          exact hdialer failed hbad
      · rw [hlink]
        exact h.forward
    | carry chunk =>
      obtain ⟨-, heq⟩ := Party.carry_of_step hmove
      have heq : c'.right = _ := heq
      refine ⟨⟨events, hreached⟩, hdialer, htask, ?_, hback, ?_⟩ <;> rw [heq]
      · exact h.acceptor
      · exact fun kind hs => by cases hs
    | finish ending =>
      obtain ⟨-, heq⟩ := Party.finish_of_step hmove
      have heq : c'.right = _ := heq
      have hfinished : ending = .finished := hsmooth
      refine ⟨⟨events, hreached⟩, hdialer, htask, ?_, hback, ?_⟩ <;> rw [heq]
      · exact h.acceptor
      · rw [hfinished]
        exact fun kind hs => by cases hs

/-! ## What is left to do -/

/-- The steps that the task has left, at most. -/
def SendTask.left (wireLength : ℕ) : SendTask → ℕ
  | .unspawned => 2 * wireLength + 2
  | .writing current rest => current.length + 2 * rest.length + 1
  | _ => 0

/-- The steps that the dialer has left, at most. -/
def Dialer.left (wireLength : ℕ) (d : Dialer) : ℕ :=
  d.task.left wireLength +
    match d.phase with
    | .opening => wireLength + 3
    | .reading => wireLength - d.echoed + 2
    | .joining => 1
    | .done _ => 0

/-- The steps that the acceptor has left, at most. -/
def Acceptor.left (wireLength : ℕ) (a : Acceptor) : ℕ :=
  match a.phase with
  | .accepting => 2 * wireLength + 4
  | .readingLength => 2 * wireLength + 3
  | .readingId _ => 2 * wireLength + 2
  | .reading => 2 * (wireLength - a.sent.length) + 2
  | .echoingHeader _ | .writing _ _ => 2 * (wireLength - a.sent.length) + 1
  | .finishing => 1
  | .done _ => 0

/-- What a stream has left to bring. -/
def linkLeft (wireLength : ℕ) (link : Link) : ℕ :=
  wireLength - link.brought.length + if link.ending = .silent then 1 else 0

/-- The steps that both programs and the streams have left, at most. -/
def left (wireLength : ℕ) (c : Joined Dialer Acceptor) : ℕ :=
  c.left.state.left wireLength + c.right.state.left wireLength + linkLeft wireLength c.left.link +
    linkLeft wireLength c.right.link

theorem Dialer.read_falls {w : Bytes} {d d' : Dialer} (hphase : d.phase = .reading)
    (hread : d.read w = some d') (hclear : ∀ failure, d'.phase ≠ .done (some failure)) :
    d'.left w.length < d.left w.length := by
  unfold Dialer.read at hread
  split_ifs at hread with hmore
  · simp only at hread
    split at hread
    · split_ifs at hread <;> obtain rfl := Option.some.inj hread
      · unfold Dialer.left
        simp only [hphase]
        have : 0 < chunkBytes := by decide
        omega
      · exact absurd rfl (hclear _)
    · obtain rfl := Option.some.inj hread
      exact absurd rfl (hclear _)
    · cases hread
  · obtain rfl := Option.some.inj hread
    unfold Dialer.left
    simp only [hphase]
    omega

/-- A step of the dialer's own leaves less to do. -/
theorem Dialer.own_falls {w : Bytes} {event : DialEvent} {d d' : Dialer}
    (hstep : Dialer.step w event d = some d')
    (hclear : ∀ failure, d'.phase ≠ .done (some failure)) : d'.left w.length < d.left w.length := by
  unfold Dialer.step at hstep
  cases event with
  | opened =>
    obtain ⟨⟨hphase, htask⟩, rfl⟩ := of_guarded hstep
    unfold Dialer.left Dialer.opened
    simp only [hphase, htask, SendTask.left, List.length_take, List.length_drop]
    omega
  | openFails error =>
    obtain ⟨-, rfl⟩ := of_guarded hstep
    exact absurd rfl (hclear _)
  | accept count =>
    simp only at hstep
    split at hstep
    · next current rest htask =>
      obtain ⟨hcount, rfl⟩ := of_guarded hstep
      unfold Dialer.left
      simp only [htask, SendTask.left, List.length_drop]
      omega
    · cases hstep
  | nextChunk =>
    simp only at hstep
    split at hstep
    · next rest htask =>
      obtain rfl := Option.some.inj hstep
      unfold Dialer.left Dialer.nextChunk
      simp only [htask, SendTask.left, List.length_nil]
      split_ifs with hrest
      · simp only
        omega
      · have := List.length_pos_iff.mpr hrest
        have : 0 < chunkBytes := by decide
        simp only [List.length_take, List.length_drop]
        omega
    · cases hstep
  | writeFails error =>
    simp only at hstep
    split at hstep
    · next current rest htask =>
      obtain rfl := Option.some.inj hstep
      unfold Dialer.left
      simp only [htask, SendTask.left]
      omega
    · cases hstep
  | read =>
    simp only at hstep
    split_ifs at hstep with hphase
    exact Dialer.read_falls hphase hstep hclear
  | join =>
    simp only at hstep
    split_ifs at hstep with hphase
    unfold Dialer.join at hstep
    split at hstep
    · obtain rfl := Option.some.inj hstep
      unfold Dialer.left
      simp only [hphase]
      omega
    · obtain rfl := Option.some.inj hstep
      exact absurd rfl (hclear _)
    · cases hstep

/-- A step of the acceptor's own leaves less to do. -/
theorem Acceptor.own_falls {total wireLength : ℕ} {event : AcceptEvent} {a a' : Acceptor}
    (hstep : Acceptor.step total event a = some a')
    (hclear : ∀ failure, a'.phase ≠ .done (some failure)) (hsent : a'.sent.length ≤ wireLength) :
    a'.left wireLength < a.left wireLength := by
  unfold Acceptor.step at hstep
  cases event with
  | accepted =>
    obtain ⟨hphase, rfl⟩ := of_guarded hstep
    unfold Acceptor.left
    simp only [hphase, Acceptor.goto]
    omega
  -- a step that fails is no step of a clear run
  | acceptFails | finishFails =>
    obtain ⟨-, rfl⟩ := of_guarded hstep
    exact absurd rfl (hclear _)
  | readLength =>
    simp only at hstep
    split_ifs at hstep with hphase
    unfold Acceptor.readLength at hstep
    split at hstep
    · simp only at hstep
      split_ifs at hstep <;> obtain rfl := Option.some.inj hstep
      · exact absurd rfl (hclear _)
      · unfold Acceptor.left
        simp only [hphase, Acceptor.goto]
        omega
    · obtain rfl := Option.some.inj hstep
      exact absurd rfl (hclear _)
    · cases hstep
  | readId =>
    simp only at hstep
    split at hstep
    · next hphase =>
      unfold Acceptor.readId at hstep
      split at hstep
      · obtain rfl := Option.some.inj hstep
        unfold Acceptor.left
        simp only [hphase]
        omega
      · obtain rfl := Option.some.inj hstep
        exact absurd rfl (hclear _)
      · cases hstep
    · cases hstep
  -- bytes of the header or of a chunk leave what is to be sent
  | accept count =>
    simp only at hstep
    split at hstep
    · next remaining hphase =>
      obtain ⟨hcount, rfl⟩ := of_guarded hstep
      simp only [List.length_append, List.length_take] at hsent
      unfold Acceptor.left
      simp only [hphase, List.length_append, List.length_take]
      split_ifs <;> simp only <;> omega
    · next remaining n hphase =>
      obtain ⟨hcount, rfl⟩ := of_guarded hstep
      simp only [List.length_append, List.length_take] at hsent
      unfold Acceptor.left
      simp only [hphase, List.length_append, List.length_take]
      split_ifs <;> simp only <;> omega
    · cases hstep
  | writeFails error =>
    simp only at hstep
    split at hstep <;> cases hstep <;> exact absurd rfl (hclear _)
  | read =>
    simp only at hstep
    split_ifs at hstep with hphase
    unfold Acceptor.read at hstep
    split_ifs at hstep
    · split at hstep
      · obtain rfl := Option.some.inj hstep
        unfold Acceptor.left
        simp only [hphase]
        omega
      · obtain rfl := Option.some.inj hstep
        exact absurd rfl (hclear _)
      · obtain rfl := Option.some.inj hstep
        exact absurd rfl (hclear _)
      · cases hstep
    · obtain rfl := Option.some.inj hstep
      unfold Acceptor.left
      simp only [hphase, Acceptor.goto]
      omega
  | finish =>
    obtain ⟨hphase, rfl⟩ := of_guarded hstep
    unfold Acceptor.left
    simp only [hphase, Acceptor.goto]
    omega

/-- What is brought leaves the stream less to do. -/
theorem linkLeft_carry {wireLength : ℕ} {link : Link} {chunk : Chunk}
    (hsilent : link.ending = .silent) (hle : (link.brought ++ chunk.bytes).length ≤ wireLength) :
    linkLeft wireLength ⟨link.brought ++ chunk.bytes, .silent⟩ < linkLeft wireLength link := by
  have := List.length_pos_iff.mpr chunk.nonempty
  unfold linkLeft
  rw [List.length_append] at hle ⊢
  rw [if_pos rfl, if_pos hsilent]
  omega

theorem linkLeft_finish {wireLength : ℕ} {link : Link} (hsilent : link.ending = .silent) :
    linkLeft wireLength ⟨link.brought, .finished⟩ < linkLeft wireLength link := by
  unfold linkLeft
  rw [if_neg (fun heq => by cases heq), if_pos hsilent]
  exact Nat.lt_succ_self _

/-- Every step without a failure leaves less to do. -/
theorem Clear.falls (h : Clear runId payload window c) (hid : (utf8 runId).length ≤ runIdMaxBytes)
    {event : Move DialEvent ⊕ Move AcceptEvent} (hsmooth : Smooth buffer event c)
    (hstep : Joined.step (dialParty (wire runId payload)) (acceptParty payload.length) window
      event c = some c') :
    left (wire runId payload).length c' < left (wire runId payload).length c := by
  have hclear := h.step hid hsmooth hstep
  have hsent := hclear.echo.answer.1.length_le
  cases event with
  | inl move =>
    obtain ⟨hmove, hsame, -⟩ := Joined.moveLeft_eq_some.mp hstep
    have hbrought := (hclear.echo.back.brought.trans hclear.echo.answer.1).length_le
    unfold left
    rw [hsame]
    cases move with
    | own event =>
      obtain ⟨hown, hlink⟩ := Party.own_of_step hmove
      have := Dialer.own_falls hown hclear.dialer
      rw [hlink]
      omega
    | carry chunk =>
      obtain ⟨hsilent, heq⟩ := Party.carry_of_step hmove
      rw [heq] at hbrought ⊢
      exact Nat.add_lt_add_right (Nat.add_lt_add_left (linkLeft_carry hsilent hbrought) _) _
    | finish ending =>
      obtain ⟨hsilent, heq⟩ := Party.finish_of_step hmove
      obtain rfl : ending = .finished := hsmooth
      rw [heq]
      exact Nat.add_lt_add_right (Nat.add_lt_add_left (linkLeft_finish hsilent) _) _
  | inr move =>
    obtain ⟨hmove, hsame, -⟩ := Joined.moveLeft_eq_some.mp (Joined.step_inr hstep)
    have hsame : c'.left = c.left := hsame
    have hbrought := hclear.echo.answer.2.length_le
    unfold left
    rw [hsame]
    cases move with
    | own event =>
      obtain ⟨hown, hlink⟩ := Party.own_of_step hmove
      have hlink : c'.right.link = c.right.link := hlink
      have : c'.right.state.left (wire runId payload).length <
        c.right.state.left (wire runId payload).length :=
        Acceptor.own_falls hown hclear.acceptor hsent
      rw [hlink]
      omega
    | carry chunk =>
      obtain ⟨hsilent, heq⟩ := Party.carry_of_step hmove
      have heq : c'.right = _ := heq
      rw [heq] at hbrought ⊢
      exact Nat.add_lt_add_left (linkLeft_carry hsilent hbrought) _
    | finish ending =>
      obtain ⟨hsilent, heq⟩ := Party.finish_of_step hmove
      obtain rfl : ending = .finished := hsmooth
      have heq : c'.right = _ := heq
      rw [heq]
      exact Nat.add_lt_add_left (linkLeft_finish hsilent) _

/-! ## There is always something that can go on -/

/-- Something other than a failure can happen. -/
def CanMove (runId : Text) (payload : Bytes) (window buffer : ℕ) (c : Joined Dialer Acceptor) :
    Prop :=
  ∃ event c', Smooth buffer event c ∧
    Joined.step (dialParty (wire runId payload)) (acceptParty payload.length) window event c =
      some c'

/-- A step of the dialer's own for which there is room in the window. -/
theorem CanMove.dialer (event : DialEvent) {d : Dialer}
    (hstep : Dialer.step (wire runId payload) event c.left.state = some d)
    (hsmooth : Smooth buffer (.inl (.own event)) c)
    (hroom : d.sent.length ≤ c.right.link.brought.length + window) :
    CanMove runId payload window buffer c := by
  refine ⟨.inl (.own event), ⟨⟨d, c.left.link⟩, c.right⟩, hsmooth, ?_⟩
  refine Joined.moveLeft_eq_some.mpr ⟨?_, rfl, hroom⟩
  exact Option.map_eq_some_iff.mpr ⟨d, hstep, rfl⟩

/-- A step of the acceptor's own for which there is room in the window. -/
theorem CanMove.acceptor (event : AcceptEvent) {a : Acceptor}
    (hstep : Acceptor.step payload.length event c.right.state = some a)
    (hsmooth : Smooth buffer (.inr (.own event)) c)
    (hroom : a.sent.length ≤ c.left.link.brought.length + window) :
    CanMove runId payload window buffer c := by
  refine ⟨.inr (.own event), ⟨c.left, ⟨a, c.right.link⟩⟩, hsmooth, ?_⟩
  refine Option.map_eq_some_iff.mpr ⟨⟨⟨a, c.right.link⟩, c.left⟩, ?_, rfl⟩
  refine Joined.moveLeft_eq_some.mpr ⟨?_, rfl, hroom⟩
  exact Option.map_eq_some_iff.mpr ⟨a, hstep, rfl⟩

/-- A byte can be brought to a dialer that has room for it. -/
theorem Clear.carry_back (h : Clear runId payload window c)
    (hmore : c.left.link.brought.length < c.right.state.sent.length)
    (hroom : c.left.state.unread < buffer) : CanMove runId payload window buffer c := by
  obtain ⟨hsilent, chunk, hone, hfront⟩ := h.echo.back.exists_carry hmore h.back
  refine ⟨.inl (.carry chunk), ⟨⟨(dialParty (wire runId payload)).deliver chunk c.left.state,
    ⟨c.left.link.brought ++ chunk.bytes, .silent⟩⟩, c.right⟩, ?_, ?_⟩
  · show c.left.state.unread + chunk.bytes.length ≤ buffer
    omega
  · refine Joined.moveLeft_eq_some.mpr ⟨?_, rfl, hfront⟩
    exact if_pos hsilent

/-- A byte can be brought to an acceptor that has room for it. -/
theorem Clear.carry_forward (h : Clear runId payload window c)
    (hmore : c.right.link.brought.length < c.left.state.sent.length)
    (hroom : c.right.state.unread < buffer) : CanMove runId payload window buffer c := by
  obtain ⟨hsilent, chunk, hone, hfront⟩ := h.echo.forward.exists_carry hmore h.forward
  refine ⟨.inr (.carry chunk), ⟨c.left, ⟨(acceptParty payload.length).deliver chunk c.right.state,
    ⟨c.right.link.brought ++ chunk.bytes, .silent⟩⟩⟩, ?_, ?_⟩
  · show c.right.state.unread + chunk.bytes.length ≤ buffer
    omega
  · refine Option.map_eq_some_iff.mpr ⟨⟨⟨(acceptParty payload.length).deliver chunk c.right.state,
      ⟨c.right.link.brought ++ chunk.bytes, .silent⟩⟩, c.left⟩, ?_, rfl⟩
    refine Joined.moveLeft_eq_some.mpr ⟨?_, rfl, hfront⟩
    exact if_pos hsilent

/-- The dialer opens its stream. -/
theorem Clear.opens (h : Clear runId payload window c) (hphase : c.left.state.phase = .opening) :
    CanMove runId payload window buffer c := by
  have htask := h.echo.dials.opening hphase
  refine CanMove.dialer .opened (d := c.left.state.opened (wire runId payload)) ?_ trivial
    h.inFlight.1
  unfold Dialer.step
  simp only [hphase, htask, and_self, if_pos]

/-- The loop that reads the echo goes on, unless all that has been sent back has been brought. -/
theorem Clear.reader (h : Clear runId payload window c) (hbuffer : chunkBytes ≤ buffer)
    (hphase : c.left.state.phase = .reading) :
    CanMove runId payload window buffer c ∨
      c.left.link.brought.length = c.right.state.sent.length ∧
        c.right.state.sent.length < (wire runId payload).length := by
  have hroom := h.inFlight.1
  have hverified := h.echo.dials.verified.1
  have hbrought := congrArg List.length (h.echo.dials.reading (.inr hphase))
  rw [List.length_append, List.length_take, Nat.min_eq_left hverified] at hbrought
  have hread : ∀ d, c.left.state.read (wire runId payload) = some d →
      CanMove runId payload window buffer c := by
    intro d hread
    refine CanMove.dialer .read (d := d) ?_ trivial ?_
    · unfold Dialer.step
      simp only [hphase, if_pos, hread]
    · rw [(Dialer.read_kept hread).1]
      exact hroom
  by_cases hmore : c.left.state.echoed < (wire runId payload).length
  · rcases Nat.lt_or_ge c.left.state.unread
      (min chunkBytes ((wire runId payload).length - c.left.state.echoed)) with hshort | henough
    · have hle := h.echo.back.brought.length_le
      rcases Nat.lt_or_ge c.left.link.brought.length c.right.state.sent.length with hless | hall
      · exact .inl (h.carry_back hless (by omega))
      · refine .inr ⟨Nat.le_antisymm hle hall, ?_⟩
        unfold Dialer.unread at hshort
        have : c.right.state.sent.length ≤ c.left.link.brought.length := hall
        omega
    · obtain ⟨bytes, source, hrun⟩ := readExact_enough henough
      refine .inl ?_
      unfold Dialer.read at hread
      simp only [if_pos hmore, hrun] at hread
      split_ifs at hread with hsame
      · exact hread _ rfl
      · exact hread _ rfl
  · refine .inl (hread { c.left.state with phase := .joining } ?_)
    unfold Dialer.read
    exact if_neg hmore

/-- The task goes on, unless the window is full. -/
theorem Clear.writer (h : Clear runId payload window c) {current rest : Bytes}
    (htask : c.left.state.task = .writing current rest) :
    CanMove runId payload window buffer c ∨
      c.right.link.brought.length + window ≤ c.left.state.sent.length := by
  have hroom := h.inFlight.1
  cases current with
  | nil =>
    refine .inl (CanMove.dialer .nextChunk (d := c.left.state.nextChunk rest) ?_ trivial ?_)
    · unfold Dialer.step
      simp only [htask]
    · exact hroom
  | cons byte current =>
    rcases Nat.lt_or_ge c.left.state.sent.length (c.right.link.brought.length + window)
      with hless | hfull
    · refine .inl (CanMove.dialer (.accept 1) (d := { c.left.state with
        sent := c.left.state.sent ++ [byte], task := .writing current rest }) ?_ trivial ?_)
      · unfold Dialer.step
        simp only [htask, List.take_succ_cons, List.take_zero, List.drop_succ_cons, List.drop_zero]
        rw [if_pos ⟨Nat.one_pos, Nat.le_add_left _ _⟩]
      · rw [List.length_append, List.length_singleton]
        exact hless
    · exact .inr hfull

/-- The acceptor has no failure to fear from what it reads. -/
theorem Clear.acceptor_reads (h : Clear runId payload window c) (event : AcceptEvent)
    {a : Acceptor} (hstep : Acceptor.step payload.length event c.right.state = some a)
    (hsmooth : Smooth buffer (.inr (.own event)) c) (hsent : a.sent = c.right.state.sent) :
    CanMove runId payload window buffer c :=
  CanMove.acceptor event hstep hsmooth (hsent ▸ h.inFlight.2)

/-- All that has been sent out has been brought, and this is not the whole wire. -/
def Starved (runId : Text) (payload : Bytes) (c : Joined Dialer Acceptor) : Prop :=
  c.left.state.sent.length = c.right.link.brought.length ∧
    c.left.state.sent.length < (wire runId payload).length

/-- An acceptor that has too little to read can be brought more, unless it is starved. -/
theorem Clear.starved (h : Clear runId payload window c) (hbuffer : chunkBytes ≤ buffer)
    (hroom : c.right.state.unread < chunkBytes)
    (hless : c.right.link.brought.length < (wire runId payload).length) :
    CanMove runId payload window buffer c ∨ Starved runId payload c := by
  have hle := h.echo.forward.brought.length_le
  rcases Nat.lt_or_ge c.right.link.brought.length c.left.state.sent.length with hmore | hall
  · exact .inl (h.carry_forward hmore (by omega))
  · have hall : c.left.state.sent.length ≤ c.right.link.brought.length := hall
    exact .inr ⟨Nat.le_antisymm hall hle, by omega⟩

/-- The acceptor goes on with the length of the header, unless it is starved. -/
theorem Clear.length_next (h : Clear runId payload window c) (hbuffer : chunkBytes ≤ buffer)
    (hphase : c.right.state.phase = .readingLength) :
    CanMove runId payload window buffer c ∨ Starved runId payload c := by
  have hstands := h.echo.echoes.stands
  unfold Stands at hstands
  rw [hphase] at hstands
  have hbrought := congrArg List.length hstands.2
  have hlength := wire_length runId payload
  rw [runHeader_length] at hlength
  rcases Nat.lt_or_ge c.right.state.unread 4 with hshort | henough
  · have hfour : 4 ≤ chunkBytes := by decide
    unfold Acceptor.unread at hshort
    refine h.starved hbuffer ?_ (by omega)
    unfold Acceptor.unread
    omega
  · obtain ⟨lenBuf, source, hrun⟩ := readExact_enough henough
    have hread : ∃ a, c.right.state.readLength = some a := by
      unfold Acceptor.readLength
      simp only [hrun]
      split_ifs
      · exact ⟨_, rfl⟩
      · exact ⟨_, rfl⟩
    obtain ⟨a, hread⟩ := hread
    left
    refine h.acceptor_reads .readLength (a := a) ?_ trivial (Acceptor.readLength_kept hread)
    unfold Acceptor.step
    simp only [hphase, if_pos, hread]

/-- The acceptor goes on with the id, unless it is starved. -/
theorem Clear.id_next (h : Clear runId payload window c) (hid : (utf8 runId).length ≤ runIdMaxBytes)
    (hbuffer : chunkBytes ≤ buffer) {lenBuf : Bytes}
    (hphase : c.right.state.phase = .readingId lenBuf) :
    CanMove runId payload window buffer c ∨ Starved runId payload c := by
  have hstands := h.echo.echoes.stands
  unfold Stands at hstands
  rw [hphase] at hstands
  obtain ⟨-, hfour, hall⟩ := hstands
  have hlen := h.echo.length hid hfour hall
  have hbrought := congrArg List.length hall
  rw [List.length_append] at hbrought
  have hlength := wire_length runId payload
  rw [runHeader_length] at hlength
  rcases Nat.lt_or_ge c.right.state.unread (fromLe32 lenBuf) with hshort | henough
  · have hchunk : runIdMaxBytes ≤ chunkBytes := by decide
    unfold Acceptor.unread at hshort
    refine h.starved hbuffer ?_ (by omega)
    unfold Acceptor.unread
    omega
  · obtain ⟨idBuf, source, hrun⟩ := readExact_enough henough
    have hread : ∃ a, c.right.state.readId lenBuf = some a := by
      unfold Acceptor.readId
      simp only [hrun]
      exact ⟨_, rfl⟩
    obtain ⟨a, hread⟩ := hread
    left
    refine h.acceptor_reads .readId (a := a) ?_ trivial (Acceptor.readId_kept hread)
    unfold Acceptor.step
    simp only [hphase, hread]

/-- The echo loop of the acceptor goes on, unless it is starved. -/
theorem Clear.echo_next (h : Clear runId payload window c)
    (hid : (utf8 runId).length ≤ runIdMaxBytes) (hbuffer : chunkBytes ≤ buffer)
    (hphase : c.right.state.phase = .reading) :
    CanMove runId payload window buffer c ∨ Starved runId payload c := by
  have hstands := h.echo.echoes.stands
  unfold Stands at hstands
  rw [hphase] at hstands
  obtain ⟨header, hu, hlevel, hall⟩ := hstands
  obtain rfl := (h.echo.header hid hu).1
  have hbrought := congrArg List.length hall
  have hlength := wire_length runId payload
  unfold Level at hlevel
  rw [runHeader_length] at hlevel hlength
  rw [List.length_append] at hbrought
  by_cases hmore : c.right.state.echoed < payload.length
  · by_cases hnone : c.right.state.source.bytes = []
    · rw [hnone, List.length_nil] at hbrought
      refine h.starved hbuffer ?_ (by omega)
      unfold Acceptor.unread
      rw [hnone]
      exact (by decide : 0 < chunkBytes)
    · obtain ⟨bytes, source, hrun⟩ := readSome_nonempty chunkBytes hnone
      have hread : ∃ a, c.right.state.read payload.length = some a := by
        unfold Acceptor.read
        rw [if_pos hmore, hrun]
        exact ⟨_, rfl⟩
      obtain ⟨a, hread⟩ := hread
      left
      refine h.acceptor_reads .read (a := a) ?_ trivial (Acceptor.read_kept hread)
      unfold Acceptor.step
      simp only [hphase, if_pos, hread]
  · left
    refine h.acceptor_reads .read (a := c.right.state.goto .finishing) ?_ trivial rfl
    unfold Acceptor.step Acceptor.read
    simp only [hphase, if_pos, if_neg hmore]

/-- A write of the acceptor goes on, of the header or of a chunk, unless the window is full. -/
theorem Clear.write_next (h : Clear runId payload window c) {remaining : Bytes}
    (hphase : c.right.state.phase = .echoingHeader remaining ∨
      ∃ n, c.right.state.phase = .writing remaining n) :
    CanMove runId payload window buffer c ∨
      c.left.link.brought.length + window ≤ c.right.state.sent.length := by
  have hstands := h.echo.echoes.stands
  unfold Stands at hstands
  have hstep : ∃ a, Acceptor.step payload.length (.accept 1) c.right.state = some a ∧
      a.sent = c.right.state.sent ++ remaining.take 1 := by
    unfold Acceptor.step
    rcases hphase with hphase | ⟨n, hphase⟩
    · rw [hphase] at hstands
      obtain ⟨header, -, hsome, -⟩ := hstands
      simp only [hphase]
      rw [if_pos ⟨Nat.one_pos, List.length_pos_iff.mpr hsome⟩]
      exact ⟨_, rfl, rfl⟩
    · rw [hphase] at hstands
      obtain ⟨header, -, hsome, -⟩ := hstands
      simp only [hphase]
      rw [if_pos ⟨Nat.one_pos, List.length_pos_iff.mpr hsome⟩]
      exact ⟨_, rfl, rfl⟩
  obtain ⟨a, hstep, hsent⟩ := hstep
  rcases Nat.lt_or_ge c.right.state.sent.length (c.left.link.brought.length + window)
    with hless | hfull
  · refine .inl (CanMove.acceptor (.accept 1) hstep trivial ?_)
    rw [hsent, List.length_append, List.length_take]
    omega
  · exact .inr hfull

/-- The acceptor goes on, unless it is done, or starved, or the window is full. -/
theorem Clear.acceptor_next (h : Clear runId payload window c)
    (hid : (utf8 runId).length ≤ runIdMaxBytes) (hbuffer : chunkBytes ≤ buffer) :
    CanMove runId payload window buffer c ∨ c.right.state.phase = .done none ∨
      Starved runId payload c ∨
        c.left.link.brought.length + window ≤ c.right.state.sent.length := by
  cases hphase : c.right.state.phase with
  | accepting =>
    refine .inl (h.acceptor_reads .accepted (a := c.right.state.goto .readingLength) ?_ trivial rfl)
    unfold Acceptor.step
    simp only [hphase, if_pos]
  | readingLength => exact (h.length_next hbuffer hphase).imp_right fun hs => .inr (.inl hs)
  | readingId lenBuf => exact (h.id_next hid hbuffer hphase).imp_right fun hs => .inr (.inl hs)
  | echoingHeader remaining =>
    exact (h.write_next (.inl hphase)).imp_right fun hfull => .inr (.inr hfull)
  | reading => exact (h.echo_next hid hbuffer hphase).imp_right fun hs => .inr (.inl hs)
  | writing remaining n =>
    exact (h.write_next (.inr ⟨n, hphase⟩)).imp_right fun hfull => .inr (.inr hfull)
  | finishing =>
    refine .inl (h.acceptor_reads .finish (a := c.right.state.goto (.done none)) ?_ trivial rfl)
    unfold Acceptor.step
    simp only [hphase, if_pos]
  | done failure =>
    cases failure with
    | none => exact .inr (.inl rfl)
    | some failure => exact absurd hphase (h.acceptor failure)

/-- As long as nothing has failed, something can go on until both programs are done. -/
theorem Clear.next (h : Clear runId payload window c) (hid : (utf8 runId).length ≤ runIdMaxBytes)
    (hwindow : 0 < window) (hbuffer : chunkBytes ≤ buffer) :
    Final c ∨ CanMove runId payload window buffer c := by
  by_contra hstuck
  rw [not_or] at hstuck
  obtain ⟨hnotFinal, hstuck⟩ := hstuck
  have hanswer := h.echo.answer.1.length_le
  have hback := h.echo.back.brought.length_le
  have hback : c.left.link.brought.length ≤ c.right.state.sent.length := hback
  have hverified := h.echo.dials.verified.2.length_le
  rw [List.length_take, Nat.min_eq_left h.echo.dials.verified.1] at hverified
  -- the loop has nothing to read, or is over
  have hdialer : c.left.link.brought.length = c.right.state.sent.length ∧
      c.right.state.sent.length < (wire runId payload).length ∨
      (wire runId payload).length ≤ c.left.link.brought.length := by
    cases hphase : c.left.state.phase with
    | opening => exact absurd (h.opens hphase) hstuck
    | reading => exact .inl ((h.reader hbuffer hphase).resolve_left hstuck)
    | joining => exact .inr (h.echo.dials.joining hphase ▸ hverified)
    | done failure =>
      cases failure with
      | none => exact .inr ((h.echo.dials.done hphase).2 ▸ hverified)
      | some failure => exact absurd hphase (h.dialer failure)
  rcases (h.acceptor_next hid hbuffer).resolve_left hstuck with hdone | ⟨hall, hless⟩ | hfull
  · -- the acceptor is done: the dialer has only to read the echo and to wait for its task
    have hsent := h.echo.over hid hdone
    have hbrought : (wire runId payload).length ≤ c.right.link.brought.length := by
      rcases h.echo.echoes.counted with hmute | ⟨header, hu, -⟩
      · rw [hmute.sent, List.length_nil] at hsent
        omega
      · exact hsent.trans hu.sent.length_le
    cases hphase : c.left.state.phase with
    | opening => exact hstuck (h.opens hphase)
    | reading =>
      have := (h.reader hbuffer hphase).resolve_left hstuck
      omega
    | joining =>
      cases htask : c.left.state.task with
      | unspawned =>
        rcases (h.echo.dials.unspawned htask).2 with hopening | ⟨failure, hfailed⟩
        · cases hphase.symm.trans hopening
        · exact h.dialer failure hfailed
      | writing current rest =>
        have hfull := (h.writer htask).resolve_left hstuck
        have := h.echo.dials.front.length_le
        omega
      | finished =>
        refine hstuck (CanMove.dialer .join (d := { c.left.state with phase := .done none }) ?_
          trivial h.inFlight.1)
        unfold Dialer.step Dialer.join
        simp only [hphase, if_pos, htask]
      | failed error => exact h.task error htask
      | aborted =>
        obtain ⟨failure, hfailed⟩ := h.echo.dials.aborted htask
        exact h.dialer failure hfailed
    | done failure =>
      cases failure with
      | none => exact hnotFinal ⟨hphase, hdone⟩
      | some failure => exact h.dialer failure hphase
  · -- the acceptor waits for bytes: the dialer's task goes on
    cases htask : c.left.state.task with
    | unspawned =>
      rcases (h.echo.dials.unspawned htask).2 with hopening | ⟨failure, hfailed⟩
      · exact hstuck (h.opens hopening)
      · exact h.dialer failure hfailed
    | writing current rest =>
      have hfull := (h.writer htask).resolve_left hstuck
      omega
    | finished =>
      rw [h.echo.dials.finished htask] at hless
      exact Nat.lt_irrefl _ hless
    | failed error => exact h.task error htask
    | aborted =>
      obtain ⟨failure, hfailed⟩ := h.echo.dials.aborted htask
      exact h.dialer failure hfailed
  · -- the acceptor waits for room: the dialer's loop reads on
    rcases hdialer with ⟨heq, -⟩ | hover <;> omega

theorem clear_start : Clear runId payload window (Joined.start .start .start) :=
  ⟨⟨[], rfl⟩, fun _ h => (by cases h), fun _ h => (by cases h), fun _ h => (by cases h),
    fun _ h => (by cases h), fun _ h => (by cases h)⟩

theorem left_start : left (wire runId payload).length (Joined.start .start .start) =
    7 * (wire runId payload).length + 11 := by
  show 2 * _ + 2 + (_ + 3) + (2 * _ + 4) + (_ - 0 + 1) + (_ - 0 + 1) = _
  omega

/-- The echo comes to its end: in a run in which nothing fails, whatever the order of the steps,
whatever window of at least one byte the streams have and however the bytes are cut, there are at
most so many steps; the programs never wait for each other; and every such run can be completed,
with the whole payload verified and counted under the dialer's run id. -/
theorem echo_completes (hid : (utf8 runId).length ≤ runIdMaxBytes) (hwindow : 0 < window)
    (hbuffer : chunkBytes ≤ buffer) {events : List (Move DialEvent ⊕ Move AcceptEvent)}
    (hrun : echoRun runId payload window events = some c)
    (hsmooth : Meets (Joined.step (dialParty (wire runId payload)) (acceptParty payload.length)
      window) (Smooth buffer) (Joined.start .start .start) events) :
    events.length ≤ 7 * (wire runId payload).length + 11 ∧
    (Final c ∨ CanMove runId payload window buffer c) ∧
    ∃ more c', echoRun runId payload window (events ++ more) = some c' ∧
      Meets (Joined.step (dialParty (wire runId payload)) (acceptParty payload.length) window)
        (Smooth buffer) (Joined.start .start .start) (events ++ more) ∧
      Final c' ∧ c'.left.state.echoed = (wire runId payload).length ∧
      c'.right.state.echoed = payload.length ∧ c'.right.state.runId = some runId := by
  have hkeep : ∀ event (c c' : Joined Dialer Acceptor), Clear runId payload window c →
      Smooth buffer event c → Joined.step (dialParty (wire runId payload))
        (acceptParty payload.length) window event c = some c' → Clear runId payload window c' :=
    fun event c c' h hsmooth hstep => h.step hid hsmooth hstep
  have hfall : ∀ event (c c' : Joined Dialer Acceptor), Clear runId payload window c →
      Smooth buffer event c → Joined.step (dialParty (wire runId payload))
        (acceptParty payload.length) window event c = some c' →
      left (wire runId payload).length c' < left (wire runId payload).length c :=
    fun event c c' h hsmooth hstep => h.falls hid hsmooth hstep
  have hclear := inv_of_meets hkeep clear_start hsmooth hrun
  have hlength := length_le_of_falls hkeep hfall clear_start hsmooth hrun
  rw [left_start] at hlength
  refine ⟨by omega, hclear.next hid hwindow hbuffer, ?_⟩
  have hnext : ∀ c, Clear runId payload window c → Final c ∨ ∃ event c', Smooth buffer event c ∧
      Joined.step (dialParty (wire runId payload)) (acceptParty payload.length) window event c =
        some c' :=
    fun c h => h.next hid hwindow hbuffer
  obtain ⟨more, c', hmore, hafter, hfinal⟩ := exists_completion hkeep hfall hnext hclear
  have hwhole : echoRun runId payload window (events ++ more) = some c' :=
    run_append_eq_some.mpr ⟨c, hrun, hafter⟩
  have hecho := echo_run hwhole
  obtain ⟨-, hechoed, hname, -⟩ := hecho.complete hid (hecho.over hid hfinal.2)
  exact ⟨more, c', hwhole, meets_of_append hsmooth hrun hmore, hfinal,
    (hecho.dials.done hfinal.1).2, hechoed, hname⟩

theorem echo_completes_two_bytes : sampleEcho.length ≤ 60 ∧
    ∃ more c', echoRun ['r'] [5, 6] 64 (sampleEcho ++ more) = some c' ∧ Final c' := by
  obtain ⟨hlength, -, more, c', hrun, -, hfinal, -⟩ := @echo_completes ['r'] [5, 6] 64 chunkBytes
    _ (by decide) (by decide) (Nat.le_refl _) _ sampleEcho_run (by decide +kernel)
  exact ⟨hlength, more, c', hrun, hfinal⟩

end IrohExperiment.Baseline
