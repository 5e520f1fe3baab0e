/-
# Echoes come to their end (`nat-peer.rs`, `browser-iroh/src/lib.rs`)

The two sides never wait for each other: as long as nothing fails, something can go on until both
have returned, whatever the window of the streams and however little a reader's side holds.

The measure `left` counts the steps that are still to be made, a byte that is to be written
for two.  Every step without a failure makes it fall (`left_falls`), and there is a next
step (`Clear.completes`).  The main result is `echo_returns`.
-/
import IrohExperiment.History.Progress
import IrohExperiment.Roundtrip.Agreement

namespace IrohExperiment.Roundtrip

open Rust History

namespace Exchange

variable {terms : Terms} {window buffer : ℕ} {c c' : Exchange} {dialEvent : DialEvent}
  {listenEvent : ListenEvent}

/-! ## Steps without a failure -/

/-- The reader of a stream takes what comes. -/
def Reads (c : Exchange) : Way → Prop
  | .request => c.listen = .reading
  | .echo => c.dial = .reading
  | .verification => c.listen = .readingVerification

instance (c : Exchange) (way : Way) : Decidable (c.Reads way) := by
  unfold Reads
  split <;> infer_instance

def pipe (c : Exchange) : Way → Pipe
  | .request => c.request
  | .echo => c.echo
  | .verification => c.verification

/-- An event that is not a failure; `buffer` is what a stream holds for a reader that does not
take it. -/
def Smooth (buffer : ℕ) (event : ExchangeEvent) (c : Exchange) : Prop :=
  match event with
  | .dial event => event ≠ .fails
  | .listen event => event ≠ .fails
  | .carry way chunk =>
    c.Reads way ∨ (c.pipe way).link.brought.length + chunk.bytes.length ≤ buffer
  | .ends _ ending => ending = .finished

instance (buffer : ℕ) (event : ExchangeEvent) (c : Exchange) :
    Decidable (Smooth buffer event c) := by
  unfold Smooth
  split <;> infer_instance

/-- Nothing has failed. -/
structure Clear (terms : Terms) (window : ℕ) (c : Exchange) : Prop where
  reached : ∃ events, run (Exchange.step terms window) .start events = some c
  calm : ¬ c.Cause

/-- Both sides have returned, without an error. -/
def Final (c : Exchange) : Prop := c.dial = .returned (.ok ()) ∧ c.listen = .returned (.ok ())

/-- The invariant of echoes holds of runs without a failure too. -/
theorem Clear.sides (h : Clear terms window c) : Sides terms c := by
  obtain ⟨events, hrun⟩ := h.reached
  exact sides_run hrun

/-- As long as nothing has failed, the dialer does not fail. -/
theorem Clear.dial (h : Clear terms window c) (hfits : Fits terms) (error : DialError) :
    c.dial ≠ .returned (.error error) := by
  intro herror
  obtain ⟨events, hrun⟩ := h.reached
  exact h.calm (echo_failure_cause hfits hrun (.inl (dialerGone_iff.mpr ⟨error, herror⟩)))

/-- As long as nothing has failed, the listener does not fail. -/
theorem Clear.listen (h : Clear terms window c) (hfits : Fits terms) (error : ListenError) :
    c.listen ≠ .returned (.error error) := by
  intro herror
  obtain ⟨events, hrun⟩ := h.reached
  exact h.calm (echo_failure_cause hfits hrun (.inr (listenerGone_iff.mpr ⟨error, herror⟩)))

/-- As long as nothing has failed, no stream is broken. -/
theorem Clear.unbroken (h : Clear terms window c) (way : Way) (kind : ErrorKind) :
    (c.pipe way).link.ending ≠ .failed kind := by
  intro hfailed
  refine h.calm (.inr (.inr ⟨kind, ?_⟩))
  cases way with
  | request => exact .inl hfailed
  | echo => exact .inr (.inl hfailed)
  | verification => exact .inr (.inr hfailed)

theorem DialMove.calm (h : DialMove terms window dialEvent c c') (hsmooth : dialEvent ≠ .fails) :
    c'.dial ≠ .returned (.error .fails) := by
  intro hfails
  cases h with
  | fails hrunning hwhy =>
    cases hwhy with
    | fails hevent => exact hsmooth hevent
    | tooLong | lost | mismatch | rejected => cases hfails
  | opens | sends | sent | compared | returned | opensVerification | verifies | verified
  | acknowledged => cases hfails

theorem ListenMove.calm (h : ListenMove terms window listenEvent c c')
    (hsmooth : listenEvent ≠ .fails) : c'.listen ≠ .returned (.error .fails) := by
  intro hfails
  cases h with
  | fails hrunning hwhy =>
    cases hwhy with
    | fails hevent => exact hsmooth hevent
    | tooLong | lost | mismatch | rejected | verificationTooLong | verificationLost | missing =>
      cases hfails
  | accepts | compared | echoes | echoed | acknowledged | returned | acceptsVerification
  | verified => cases hfails

/-- The step of a stream that does not fail it. -/
theorem lost_of_onWay {way : Way} {f : Pipe → Option Pipe}
    (hf : ∀ p q kind, f p = some q → q.link.ending ≠ .failed kind)
    (h : c.onWay way f = some c') (hlost : c'.Lost) : c.Lost := by
  obtain ⟨kind, hlost⟩ := hlost
  refine ⟨kind, ?_⟩
  unfold onWay at h
  cases way with
  | request =>
    obtain ⟨request, hrequest, rfl⟩ := Option.map_eq_some_iff.mp h
    exact hlost.imp_left fun hfailed => absurd hfailed (hf _ _ kind hrequest)
  | echo =>
    obtain ⟨echo, hecho, rfl⟩ := Option.map_eq_some_iff.mp h
    exact hlost.imp_right (Or.imp_left fun hfailed => absurd hfailed (hf _ _ kind hecho))
  | verification =>
    obtain ⟨verification, hverification, rfl⟩ := Option.map_eq_some_iff.mp h
    exact hlost.imp_right (Or.imp_right fun hfailed => absurd hfailed (hf _ _ kind hverification))

/-- What is clear stays clear. -/
theorem Clear.step (h : Clear terms window c) {event : ExchangeEvent}
    (hsmooth : Smooth buffer event c) (hstep : Exchange.step terms window event c = some c') :
    Clear terms window c' := by
  obtain ⟨events, hrun⟩ := h.reached
  refine ⟨⟨events ++ [event], run_concat.mpr ⟨c, hrun, hstep⟩⟩, ?_⟩
  intro hcause
  refine h.calm ?_
  cases event with
  | dial event =>
    have hmove := dialMove_of_step hstep
    obtain ⟨hlisten, hecho, hrequest, hverification⟩ := hmove.frame
    rcases hcause with hfails | hfails | hlost
    · exact absurd hfails (hmove.calm hsmooth)
    · exact .inr (.inl (hlisten.symm.trans hfails))
    · unfold Lost at hlost
      rw [hecho, hrequest, hverification] at hlost
      exact .inr (.inr hlost)
  | listen event =>
    have hmove := listenMove_of_step hstep
    obtain ⟨hdial, hrequest, hverification, hecho⟩ := hmove.frame
    rcases hcause with hfails | hfails | hlost
    · exact .inl (hdial.symm.trans hfails)
    · exact absurd hfails (hmove.calm hsmooth)
    · unfold Lost at hlost
      rw [hecho, hrequest, hverification] at hlost
      exact .inr (.inr hlost)
  | carry way chunk =>
    have hcarried := carried_of_onWay (fun _ _ => onward_of_carry) hstep
    refine hcause.imp hcarried.dial.symm.trans (Or.imp hcarried.listen.symm.trans ?_)
    refine lost_of_onWay (fun p q kind hcarry hfailed => ?_) hstep
    rw [(Pipe.carry_eq_some.mp hcarry).2.2.2.2] at hfailed
    cases hfailed
  | ends way ending =>
    have hcarried := carried_of_onWay (fun _ _ => onward_of_ends) hstep
    refine hcause.imp hcarried.dial.symm.trans (Or.imp hcarried.listen.symm.trans ?_)
    refine lost_of_onWay (fun p q kind hends hfailed => ?_) hstep
    have hfinished : ending = .finished := hsmooth
    rw [(Pipe.ends_eq_some.mp hends).2.2.2.2.2, hfinished] at hfailed
    cases hfailed

/-! ## What is left to do -/

/-- The length of the verification, if there is one. -/
def verificationLength (terms : Terms) : ℕ := (terms.verification.map fun v => v.1.length).getD 0

/-- What a stream has left to bring. -/
def pipeLeft (p : Pipe) : ℕ :=
  p.written.length - p.link.brought.length + if p.link.ending = .silent then 1 else 0

/-- The steps that the dialer has left, at most. -/
def dialLeft (terms : Terms) : DialStage → ℕ
  | .opening => 2 * terms.payload.length + 2 * verificationLength terms + 8
  | .sending remaining => 2 * remaining.length + 2 * verificationLength terms + 7
  | .reading => 2 * verificationLength terms + 6
  | .openingVerification => 2 * verificationLength terms + 5
  | .verifying remaining => 2 * remaining.length + 4
  | .awaiting => 3
  | .returned _ => 0

/-- The steps that the listener has left, at most. -/
def listenLeft (terms : Terms) : ListenStage → ℕ
  | .accepting => 2 * terms.expected.length + 8
  | .reading => 2 * terms.expected.length + 7
  | .echoing remaining => 2 * remaining.length + 6
  | .awaiting => 5
  | .acceptingVerification => 4
  | .readingVerification => 3
  | .returned _ => 0

/-- The steps that both sides and the streams have left, at most. -/
def left (terms : Terms) (c : Exchange) : ℕ :=
  dialLeft terms c.dial + listenLeft terms c.listen + pipeLeft c.request + pipeLeft c.echo +
    pipeLeft c.verification

theorem pipeLeft_leave (p : Pipe) : pipeLeft p.leave = pipeLeft p := rfl

/-- What is written has to be carried. -/
theorem pipeLeft_write {p q : Pipe} {bytes : Bytes} (h : p.write window bytes = some q) :
    pipeLeft q = pipeLeft p + bytes.length := by
  obtain ⟨-, -, hwritten, -, hlink⟩ := Pipe.write_eq_some.mp h
  have hle := p.ordered.brought.length_le
  unfold pipeLeft
  rw [hwritten, hlink, List.length_append]
  omega

/-- A byte that is carried need not be carried again. -/
theorem pipeLeft_carry {p q : Pipe} {chunk : Chunk} (h : p.carry chunk = some q) :
    pipeLeft q < pipeLeft p := by
  obtain ⟨hsilent, hfront, hwritten, -, hlink⟩ := Pipe.carry_eq_some.mp h
  have hle := hfront.length_le
  have hpos := List.length_pos_iff.mpr chunk.nonempty
  unfold pipeLeft
  rw [hwritten, hlink, if_pos hsilent, if_pos rfl]
  rw [List.length_append] at hle ⊢
  omega

/-- A stream ends once. -/
theorem pipeLeft_ends {p q : Pipe} (h : p.ends .finished = some q) : pipeLeft q < pipeLeft p := by
  obtain ⟨hsilent, -, -, hwritten, -, hlink⟩ := Pipe.ends_eq_some.mp h
  unfold pipeLeft
  rw [hwritten, hlink, if_pos hsilent, if_neg (fun heq => by cases heq)]
  exact Nat.lt_succ_self _

/-- What moves a pipe on leaves less to do. -/
theorem left_onWay {way : Way} {f : Pipe → Option Pipe}
    (hf : ∀ p q, f p = some q → pipeLeft q < pipeLeft p) (h : c.onWay way f = some c') :
    left terms c' < left terms c := by
  unfold onWay at h
  unfold left
  cases way with
  | request =>
    obtain ⟨request, hrequest, rfl⟩ := Option.map_eq_some_iff.mp h
    have := hf _ _ hrequest
    simp only
    omega
  | echo =>
    obtain ⟨echo, hecho, rfl⟩ := Option.map_eq_some_iff.mp h
    have := hf _ _ hecho
    simp only
    omega
  | verification =>
    obtain ⟨verification, hverification, rfl⟩ := Option.map_eq_some_iff.mp h
    have := hf _ _ hverification
    simp only
    omega

theorem verificationLength_eq {verification : Bytes × ℕ}
    (h : terms.verification = some verification) :
    verificationLength terms = verification.1.length := by
  unfold verificationLength
  rw [h]
  rfl

/-- A step of the dialer leaves less to do, its writes counted twice. -/
theorem DialMove.falls (h : DialMove terms window dialEvent c c') :
    left terms c' < left terms c := by
  unfold left
  cases h with
  | opens hdial =>
    rw [hdial]
    simp only [dialLeft]
    omega
  | sends hdial hcount hwrite =>
    rw [hdial]
    have := pipeLeft_write hwrite
    rw [List.length_take] at this
    simp only [dialLeft, List.length_drop]
    omega
  | sent hdial =>
    rw [hdial]
    simp only [dialLeft, pipeLeft_leave]
    omega
  | compared hdial hterms hthrough =>
    rw [hdial]
    simp only [dialLeft]
    omega
  | returned hdial hterms hthrough =>
    rw [hdial]
    simp only [dialReturns, dialLeft, pipeLeft_leave]
    omega
  | opensVerification hdial hterms =>
    rw [hdial]
    simp only [dialLeft, verificationLength_eq hterms]
    omega
  | verifies hdial hcount hwrite =>
    rw [hdial]
    have := pipeLeft_write hwrite
    rw [List.length_take] at this
    simp only [dialLeft, List.length_drop]
    omega
  | verified hdial =>
    rw [hdial]
    simp only [dialLeft, pipeLeft_leave]
    omega
  | acknowledged hdial hended =>
    rw [hdial]
    simp only [dialReturns, dialLeft, pipeLeft_leave]
    omega
  | fails hrunning hwhy =>
    simp only [dialReturns, dialLeft, pipeLeft_leave]
    cases hdial : c.dial with
    | returned result => exact absurd hdial (hrunning result)
    | opening | sending | reading | openingVerification | verifying | awaiting =>
      simp only
      omega

/-- A step of the listener leaves less to do, its writes counted twice. -/
theorem ListenMove.falls (h : ListenMove terms window listenEvent c c') :
    left terms c' < left terms c := by
  unfold left
  cases h with
  | accepts hlisten hcome =>
    rw [hlisten]
    simp only [listenLeft]
    omega
  | compared hlisten hthrough =>
    rw [hlisten]
    simp only [listenLeft]
    omega
  | echoes hlisten hcount hwrite =>
    rw [hlisten]
    have := pipeLeft_write hwrite
    rw [List.length_take] at this
    simp only [listenLeft, List.length_drop]
    omega
  | echoed hlisten =>
    rw [hlisten]
    simp only [listenLeft, pipeLeft_leave]
    omega
  | acknowledged hlisten hended hterms =>
    rw [hlisten]
    simp only [listenLeft]
    omega
  | returned hlisten hended hterms =>
    rw [hlisten]
    simp only [listenReturns, listenLeft, pipeLeft_leave]
    omega
  | acceptsVerification hlisten hcome =>
    rw [hlisten]
    simp only [listenLeft]
    omega
  | verified hlisten hterms hthrough =>
    rw [hlisten]
    simp only [listenReturns, listenLeft, pipeLeft_leave]
    omega
  | fails hrunning hwhy =>
    simp only [listenReturns, listenLeft, pipeLeft_leave]
    cases hlisten : c.listen with
    | returned result => exact absurd hlisten (hrunning result)
    | accepting | reading | echoing | awaiting | acceptingVerification | readingVerification =>
      simp only
      omega

/-- With every step that does not fail, less is left. -/
theorem left_step {event : ExchangeEvent} (hsmooth : Smooth buffer event c)
    (hstep : Exchange.step terms window event c = some c') : left terms c' < left terms c := by
  cases event with
  | dial event => exact (dialMove_of_step hstep).falls
  | listen event => exact (listenMove_of_step hstep).falls
  | carry way chunk => exact left_onWay (fun _ _ => pipeLeft_carry) hstep
  | ends way ending =>
    obtain rfl : ending = .finished := hsmooth
    exact left_onWay (fun _ _ => pipeLeft_ends) hstep

/-! ## What can go on -/

/-- Something can happen that is not a failure. -/
def GoesOn (terms : Terms) (window buffer : ℕ) (c : Exchange) : Prop :=
  ∃ event c', Smooth buffer event c ∧ Exchange.step terms window event c = some c'

theorem goesOn_of_pipe {way : Way} {f : Pipe → Option Pipe} {q : Pipe}
    (h : f (c.pipe way) = some q) : ∃ c', c.onWay way f = some c' := by
  cases way with
  | request | echo | verification => exact ⟨_, Option.map_eq_some_iff.mpr ⟨q, h, rfl⟩⟩

/-- What is on the way to a reader can be brought. -/
theorem Clear.carries (h : Clear terms window c) {way : Way}
    (hmore : (c.pipe way).link.brought.length < (c.pipe way).written.length)
    (hroom : c.Reads way ∨ (c.pipe way).link.brought.length + 1 ≤ buffer) :
    GoesOn terms window buffer c := by
  obtain ⟨hsilent, chunk, hone, hfront⟩ :=
    (c.pipe way).ordered.exists_carry hmore (h.unbroken way)
  obtain ⟨c', hstep⟩ : ∃ c', c.onWay way (Pipe.carry chunk) = some c' :=
    goesOn_of_pipe (q := ⟨_, _, _, .carry hfront⟩)
      (Pipe.carry_eq_some.mpr ⟨hsilent, hfront, rfl, rfl, rfl⟩)
  refine ⟨.carry way chunk, c', ?_, hstep⟩
  rw [← hone] at hroom
  exact hroom

/-- A stream that has been finished comes to its end. -/
theorem Clear.comes (h : Clear terms window c) {way : Way}
    (hfinished : (c.pipe way).writer = .finished)
    (hsilent : (c.pipe way).link.ending = .silent)
    (hroom : c.Reads way ∨ (c.pipe way).link.brought.length + 1 ≤ buffer) :
    GoesOn terms window buffer c := by
  by_cases hmore : (c.pipe way).link.brought.length < (c.pipe way).written.length
  · exact h.carries hmore hroom
  · have hall : (c.pipe way).link.brought = (c.pipe way).written :=
      (c.pipe way).ordered.brought.eq_of_length_le (Nat.not_lt.mp hmore)
    have hends : ∀ hfailed : Ending.finished ≠ .failed .unexpectedEof,
        (c.pipe way).ends .finished = some ⟨_, _, ⟨(c.pipe way).link.brought, .finished⟩,
          (c.pipe way).ordered.ends (fun _ => ⟨hfinished, hall⟩) hfailed⟩ := fun hfailed =>
      Pipe.ends_eq_some.mpr ⟨hsilent, hfailed, fun _ => ⟨hfinished, hall⟩, rfl, rfl, rfl⟩
    obtain ⟨c', hstep⟩ := goesOn_of_pipe (hends (fun heq => by cases heq))
    exact ⟨.ends way .finished, c', rfl, hstep⟩

/-- A stream whose end has not been brought is silent. -/
theorem Clear.silent (h : Clear terms window c) {way : Way}
    (hended : (c.pipe way).link.ending ≠ .finished) : (c.pipe way).link.ending = .silent := by
  cases hending : (c.pipe way).link.ending with
  | silent => rfl
  | finished => exact absurd hending hended
  | failed kind => exact absurd hending (h.unbroken way kind)

/-- A byte can be written where the window has room. -/
theorem exists_write {p : Pipe} (byte : UInt8) (hwriting : p.writer = .writing)
    (hfits : p.written.length + 1 ≤ p.link.brought.length + window) :
    ∃ q, p.write window [byte] = some q :=
  ⟨⟨_, _, _, p.ordered.write hwriting [byte]⟩,
    Pipe.write_eq_some.mpr ⟨hwriting, by simpa using hfits, rfl, rfl, rfl⟩⟩

/-- A reader at the end of its stream has read it. -/
theorem reads_of_finished (limit : ℕ) {p : Pipe} (hended : p.link.ending = .finished) :
    (∃ bytes source, (readToEnd limit).run p.link.source = .done bytes source) ∨
      ∃ error, (readToEnd limit).run p.link.source = .failed error := by
  cases hrun : (readToEnd limit).run p.link.source with
  | done bytes source => exact .inl ⟨bytes, source, rfl⟩
  | failed error => exact .inr ⟨error, rfl⟩
  | waits =>
    unfold readToEnd at hrun
    simp only at hrun
    have hsource : p.link.source.ending = .finished := hended
    split_ifs at hrun
    rw [hsource] at hrun
    cases hrun

/-- The dialer can read an echo that has come to its end. -/
theorem dialRead_of_finished (hended : c.echo.link.ending = .finished) :
    ∃ c', c.dialRead terms = some c' := by
  unfold dialRead
  rcases reads_of_finished terms.limit hended with ⟨bytes, source, hrun⟩ | ⟨error, hrun⟩
  · rw [hrun]
    simp only
    split_ifs
    · split <;> exact ⟨_, rfl⟩
    · exact ⟨_, rfl⟩
  · rw [hrun]
    exact ⟨_, rfl⟩

/-- The listener can read a request that has come to its end. -/
theorem listenRead_of_finished (hended : c.request.link.ending = .finished) :
    ∃ c', c.listenRead terms = some c' := by
  unfold listenRead
  rcases reads_of_finished terms.limit hended with ⟨bytes, source, hrun⟩ | ⟨error, hrun⟩
  · rw [hrun]
    simp only
    split_ifs <;> exact ⟨_, rfl⟩
  · rw [hrun]
    exact ⟨_, rfl⟩

/-- The listener can read a verification that has come to its end. -/
theorem listenVerification_of_finished {verification : Bytes × ℕ}
    (hended : c.verification.link.ending = .finished) :
    ∃ c', c.listenVerification verification = some c' := by
  unfold listenVerification
  rcases reads_of_finished verification.2 hended with
    ⟨bytes, source, hrun⟩ | ⟨error, hrun⟩
  · rw [hrun]
    simp only
    split_ifs <;> exact ⟨_, rfl⟩
  · rw [hrun]
    exact ⟨_, rfl⟩

theorem goesOn_dial (event : DialEvent) (hevent : event ≠ .fails)
    (h : ∃ c', c.dialStep terms window event = some c') : GoesOn terms window buffer c := by
  obtain ⟨c', hstep⟩ := h
  exact ⟨.dial event, c', hevent, hstep⟩

theorem goesOn_listen (event : ListenEvent) (hevent : event ≠ .fails)
    (h : ∃ c', c.listenStep terms window event = some c') : GoesOn terms window buffer c := by
  obtain ⟨c', hstep⟩ := h
  exact ⟨.listen event, c', hevent, hstep⟩

/-- A stream on which something is to come is brought on. -/
theorem Clear.brings (h : Clear terms window c) (way : Way)
    (hended : (c.pipe way).link.ending ≠ .finished)
    (hbusy : (c.pipe way).link.brought.length < (c.pipe way).written.length ∨
      (c.pipe way).writer = .finished)
    (hroom : c.Reads way ∨ (c.pipe way).link.brought.length + 1 ≤ buffer) :
    GoesOn terms window buffer c := by
  rcases hbusy with hmore | hfinished
  · exact h.carries hmore hroom
  · exact h.comes hfinished (h.silent hended) hroom

/-- The request is brought on, or is accepted first. -/
theorem Clear.request_goesOn (h : Clear terms window c) (hfits : Fits terms) (hbuffer : 0 < buffer)
    (hended : c.request.link.ending ≠ .finished)
    (hbusy : c.request.link.brought.length < c.request.written.length ∨
      c.request.writer = .finished) : GoesOn terms window buffer c := by
  have hstage := h.sides.listens.stage
  have hthrough : ¬ c.request.Through terms.expected := fun hthrough => hended hthrough.finished
  cases hlisten : c.listen with
  | accepting =>
    by_cases hidle : c.request.link = .idle
    · refine h.brings .request hended hbusy (.inr ?_)
      show c.request.link.brought.length + 1 ≤ buffer
      rw [hidle]
      exact hbuffer
    · refine goesOn_listen .accepts (fun heq => by cases heq)
        ⟨{ c with listen := .reading }, ?_⟩
      simp only [listenStep, hlisten]
      exact if_pos hidle
  | reading => exact h.brings .request hended hbusy (.inl hlisten)
  | echoing | awaiting | acceptingVerification | readingVerification =>
    rw [hlisten] at hstage
    exact absurd hstage.1 hthrough
  | returned result =>
    rw [hlisten] at hstage
    cases result with
    | ok u => exact absurd hstage.1 hthrough
    | error error => exact absurd hlisten (h.listen hfits error)

/-- The verification is brought on, or the listener comes to it first. -/
theorem Clear.verification_goesOn (h : Clear terms window c) (hfits : Fits terms)
    (hbuffer : 0 < buffer) {verification : Bytes × ℕ}
    (hterms : terms.verification = some verification) (hecho : c.echo.Through terms.payload)
    (hended : c.verification.link.ending ≠ .finished)
    (hbusy : c.verification.link.brought.length < c.verification.written.length ∨
      c.verification.writer = .finished) : GoesOn terms window buffer c := by
  have hstage := h.sides.listens.stage
  have hwriter := hecho.written.1
  cases hlisten : c.listen with
  | accepting | reading =>
    rw [hlisten] at hstage
    cases hwriter.symm.trans hstage.2
  | echoing remaining =>
    rw [hlisten] at hstage
    cases hwriter.symm.trans hstage.2.1
  | awaiting =>
    refine goesOn_listen (.stopped false) (fun heq => by cases heq)
      ⟨{ c with listen := .acceptingVerification }, ?_⟩
    simp only [listenStep, hlisten, hterms]
    exact if_pos hecho.finished
  | acceptingVerification =>
    by_cases hidle : c.verification.link = .idle
    · refine h.brings .verification hended hbusy (.inr ?_)
      show c.verification.link.brought.length + 1 ≤ buffer
      rw [hidle]
      exact hbuffer
    · refine goesOn_listen .accepts (fun heq => by cases heq)
        ⟨{ c with listen := .readingVerification }, ?_⟩
      simp only [listenStep, hlisten]
      exact if_pos hidle
  | readingVerification => exact h.brings .verification hended hbusy (.inl hlisten)
  | returned result =>
    rw [hlisten] at hstage
    cases result with
    | ok u =>
      have hthrough := hstage.2.2 verification hterms
      exact absurd hthrough.finished hended
    | error error => exact absurd hlisten (h.listen hfits error)

/-- The echo is brought on, while the dialer reads it. -/
theorem Clear.reading_goesOn (h : Clear terms window c) (hfits : Fits terms)
    (hwindow : 0 < window) (hbuffer : 0 < buffer) (hdial : c.dial = .reading) :
    GoesOn terms window buffer c := by
  have hsent := h.sides.dials.stage
  rw [hdial] at hsent
  have hstage := h.sides.listens.stage
  by_cases hended : c.echo.link.ending = .finished
  · refine goesOn_dial .reads (fun heq => by cases heq) ?_
    simp only [dialStep, hdial]
    exact dialRead_of_finished hended
  by_cases hrequest : c.request.link.ending = .finished
  · cases hlisten : c.listen with
    | accepting =>
      refine goesOn_listen .accepts (fun heq => by cases heq)
        ⟨{ c with listen := .reading }, ?_⟩
      simp only [listenStep, hlisten]
      refine if_pos (fun hidle => ?_)
      rw [hidle] at hrequest
      cases hrequest
    | reading =>
      refine goesOn_listen .reads (fun heq => by cases heq) ?_
      simp only [listenStep, hlisten]
      exact listenRead_of_finished hrequest
    | echoing remaining =>
      rw [hlisten] at hstage
      cases remaining with
      | nil =>
        refine goesOn_listen .finishes (fun heq => by cases heq) ?_
        simp only [listenStep, hlisten]
        exact ⟨_, rfl⟩
      | cons byte remaining =>
        by_cases hroom : c.echo.written.length + 1 ≤ c.echo.link.brought.length + window
        · obtain ⟨echo, hwrite⟩ := exists_write byte hstage.2.1 hroom
          refine goesOn_listen (.writes 1) (fun heq => by cases heq) ?_
          simp only [listenStep, hlisten]
          rw [if_pos ⟨Nat.one_pos, Nat.succ_le_succ (Nat.zero_le _)⟩]
          exact ⟨_, Option.map_eq_some_iff.mpr ⟨echo, hwrite, rfl⟩⟩
        · refine h.brings .echo hended (.inl ?_) (.inl hdial)
          show c.echo.link.brought.length < c.echo.written.length
          omega
    | awaiting =>
      rw [hlisten] at hstage
      exact h.brings .echo hended (.inr hstage.2.1) (.inl hdial)
    | acceptingVerification | readingVerification =>
      rw [hlisten] at hstage
      exact absurd hstage.2.1.finished hended
    | returned result =>
      rw [hlisten] at hstage
      cases result with
      | ok u => exact absurd hstage.2.1.finished hended
      | error error => exact absurd hlisten (h.listen hfits error)
  · exact h.request_goesOn hfits hbuffer hrequest (.inr hsent.1.2)

/-- The listener comes to its end once the dialer has. -/
theorem Clear.listener_goesOn (h : Clear terms window c) (hfits : Fits terms)
    (hpayload : terms.payload ≠ []) (hdial : c.dial = .returned (.ok ())) :
    c.Final ∨ GoesOn terms window buffer c := by
  obtain ⟨-, hrequest, hecho, hverification⟩ := h.sides.of_dial hpayload hdial
  have hstage := h.sides.listens.stage
  have hwriter := hecho.written.1
  have hended : c.echo.link.ending = .finished := hecho.finished
  cases hlisten : c.listen with
  | accepting | reading =>
    rw [hlisten] at hstage
    cases hwriter.symm.trans hstage.2
  | echoing remaining =>
    rw [hlisten] at hstage
    cases hwriter.symm.trans hstage.2.1
  | awaiting =>
    refine .inr (goesOn_listen (.stopped false) (fun heq => by cases heq) ?_)
    simp only [listenStep, hlisten]
    rw [if_neg (by decide), if_pos hended]
    split <;> exact ⟨_, rfl⟩
  | acceptingVerification =>
    rw [hlisten] at hstage
    obtain ⟨-, -, verification, hterms⟩ := hstage
    refine .inr (goesOn_listen .accepts (fun heq => by cases heq)
      ⟨{ c with listen := .readingVerification }, ?_⟩)
    simp only [listenStep, hlisten]
    refine if_pos (fun hidle => ?_)
    have hended := (hverification verification hterms).finished
    rw [hidle] at hended
    cases hended
  | readingVerification =>
    rw [hlisten] at hstage
    obtain ⟨-, -, verification, hterms⟩ := hstage
    refine .inr (goesOn_listen .reads (fun heq => by cases heq) ?_)
    simp only [listenStep, hlisten, hterms, Option.bind_some]
    exact listenVerification_of_finished (hverification verification hterms).finished
  | returned result =>
    cases result with
    | ok u => exact .inl ⟨hdial, hlisten⟩
    | error error => exact absurd hlisten (h.listen hfits error)

/-- As long as nothing fails, something can go on until both sides have returned. -/
theorem Clear.next (h : Clear terms window c) (hfits : Fits terms) (hpayload : terms.payload ≠ [])
    (hwindow : 0 < window) (hbuffer : 0 < buffer) : c.Final ∨ GoesOn terms window buffer c := by
  have hstage := h.sides.dials.stage
  cases hdial : c.dial with
  | opening =>
    refine .inr (goesOn_dial .opens (fun heq => by cases heq) ?_)
    simp only [dialStep, hdial]
    exact ⟨_, rfl⟩
  | sending remaining =>
    rw [hdial] at hstage
    cases remaining with
    | nil =>
      refine .inr (goesOn_dial .finishes (fun heq => by cases heq) ?_)
      simp only [dialStep, hdial]
      exact ⟨_, rfl⟩
    | cons byte remaining =>
      by_cases hroom : c.request.written.length + 1 ≤ c.request.link.brought.length + window
      · obtain ⟨request, hwrite⟩ := exists_write byte hstage.2.1 hroom
        refine .inr (goesOn_dial (.writes 1) (fun heq => by cases heq) ?_)
        simp only [dialStep, hdial]
        rw [if_pos ⟨Nat.one_pos, Nat.succ_le_succ (Nat.zero_le _)⟩]
        exact ⟨_, Option.map_eq_some_iff.mpr ⟨request, hwrite, rfl⟩⟩
      -- the window is full, so there is something for the listener to read
      · refine .inr (h.request_goesOn hfits hbuffer (fun hended => ?_) (.inl (by omega)))
        cases hstage.2.1.symm.trans (c.request.ordered.finished hended).1
  | reading => exact .inr (h.reading_goesOn hfits hwindow hbuffer hdial)
  | openingVerification =>
    rw [hdial] at hstage
    obtain ⟨-, -, -, verification, hterms⟩ := hstage
    refine .inr (goesOn_dial .opens (fun heq => by cases heq) ?_)
    simp only [dialStep, hdial, hterms]
    exact ⟨_, rfl⟩
  | verifying remaining =>
    rw [hdial] at hstage
    obtain ⟨-, hecho, hwriting, verification, hterms, -⟩ := hstage
    cases remaining with
    | nil =>
      refine .inr (goesOn_dial .finishes (fun heq => by cases heq) ?_)
      simp only [dialStep, hdial]
      exact ⟨_, rfl⟩
    | cons byte remaining =>
      by_cases hroom :
          c.verification.written.length + 1 ≤ c.verification.link.brought.length + window
      · obtain ⟨sent, hwrite⟩ := exists_write byte hwriting hroom
        refine .inr (goesOn_dial (.writes 1) (fun heq => by cases heq) ?_)
        simp only [dialStep, hdial]
        rw [if_pos ⟨Nat.one_pos, Nat.succ_le_succ (Nat.zero_le _)⟩]
        exact ⟨_, Option.map_eq_some_iff.mpr ⟨sent, hwrite, rfl⟩⟩
      -- and here the window of the verification is
      · refine .inr (h.verification_goesOn hfits hbuffer hterms hecho (fun hended => ?_)
          (.inl (by omega)))
        cases hwriting.symm.trans (c.verification.ordered.finished hended).1
  | awaiting =>
    rw [hdial] at hstage
    obtain ⟨-, hecho, hfinished, verification, hterms, -⟩ := hstage
    by_cases hended : c.verification.link.ending = .finished
    · refine .inr (goesOn_dial (.stopped false) (fun heq => by cases heq) ?_)
      simp only [dialStep, hdial]
      rw [if_neg (by decide), if_pos hended]
      exact ⟨_, rfl⟩
    · exact .inr (h.verification_goesOn hfits hbuffer hterms hecho hended (.inr hfinished))
  | returned result =>
    cases result with
    | ok u => exact h.listener_goesOn hfits hpayload hdial
    | error error => exact absurd hdial (h.dial hfits error)

theorem clear_start : Clear terms window .start := by
  refine ⟨⟨[], rfl⟩, ?_⟩
  rintro (hfails | hfails | ⟨kind, hlost | hlost | hlost⟩)
  · cases hfails
  · cases hfails
  · cases hlost
  · cases hlost
  · cases hlost

/-- A step without a failure leaves nothing failed. -/
theorem clear_kept (event : ExchangeEvent) (s t : Exchange) (h : Clear terms window s)
    (hsmooth : Smooth buffer event s) (hstep : Exchange.step terms window event s = some t) :
    Clear terms window t :=
  h.step hsmooth hstep

theorem left_falls (event : ExchangeEvent) (s t : Exchange) (_ : Clear terms window s)
    (hsmooth : Smooth buffer event s) (hstep : Exchange.step terms window event s = some t) :
    left terms t < left terms s :=
  left_step hsmooth hstep

/-- Every run that is clear can be completed. -/
theorem Clear.completes (h : Clear terms window c) (hfits : Fits terms)
    (hpayload : terms.payload ≠ []) (hwindow : 0 < window) (hbuffer : 0 < buffer) :
    ∃ more t, Meets (Exchange.step terms window) (Smooth buffer) c more ∧
      run (Exchange.step terms window) c more = some t ∧ t.Final ∧ AllThrough terms t := by
  obtain ⟨more, t, hmore, hrest, hfinal⟩ := exists_completion clear_kept left_falls
    (fun _ h => h.next hfits hpayload hwindow hbuffer) h
  have hclear := inv_of_meets clear_kept h hmore hrest
  exact ⟨more, t, hmore, hrest, hfinal, hclear.sides.of_dial hpayload hfinal.1⟩

/-- Without a failure an echo always comes to its end: whatever the order of the steps and however
the bytes are cut, there are only so many steps, each leaves a next one until both sides have
returned, and every run can be completed, with both sides through. -/
theorem echo_returns (hfits : Fits terms) (hpayload : terms.payload ≠ []) (hwindow : 0 < window)
    (hbuffer : 0 < buffer) {events : List ExchangeEvent}
    (hmeets : Meets (Exchange.step terms window) (Smooth buffer) .start events)
    (hrun : run (Exchange.step terms window) .start events = some c) :
    events.length ≤
        2 * terms.payload.length + 2 * terms.expected.length + 2 * verificationLength terms + 19 ∧
      (c.Final ∨ GoesOn terms window buffer c) ∧
      ∃ more t, Meets (Exchange.step terms window) (Smooth buffer) c more ∧
        run (Exchange.step terms window) c more = some t ∧ t.Final ∧ AllThrough terms t := by
  have hclear := inv_of_meets clear_kept clear_start hmeets hrun
  refine ⟨?_, hclear.next hfits hpayload hwindow hbuffer,
    hclear.completes hfits hpayload hwindow hbuffer⟩
  have hle := length_le_of_falls clear_kept left_falls clear_start hmeets hrun
  have hstart : left terms .start =
      2 * terms.payload.length + 2 * terms.expected.length + 2 * verificationLength terms + 19 := by
    show 2 * terms.payload.length + 2 * verificationLength terms + 8 +
      (2 * terms.expected.length + 8) + 1 + 1 + 1 = _
    omega
  omega

/-- Two bytes that are echoed, and a byte that says so. -/
def twoByteTerms : Terms := ⟨[1, 2], [1, 2], 2, some ([3], 1)⟩

theorem fits_twoByteTerms : Fits twoByteTerms := by
  refine ⟨rfl, by decide, fun verification hterms => ?_⟩
  obtain rfl := Option.some.inj hterms
  decide

/-- The request, through streams that hold one byte at a time. -/
def requestEvents : List ExchangeEvent :=
  [.dial .opens, .dial (.writes 1), .carry .request (oneByte 1), .dial (.writes 1),
    .listen .accepts, .carry .request (oneByte 2), .dial .finishes, .ends .request .finished,
    .listen .reads]

theorem echo_returns_twoBytes : ∃ c more t,
    run (Exchange.step twoByteTerms 1) .start requestEvents = some c ∧
      c.listen = .echoing [1, 2] ∧
        run (Exchange.step twoByteTerms 1) c more = some t ∧ t.Final := by
  have hlisten : (run (Exchange.step twoByteTerms 1) .start requestEvents).map Exchange.listen =
      some (.echoing [1, 2]) := by
    decide +kernel
  obtain ⟨c, hrun, hc⟩ := Option.map_eq_some_iff.mp hlisten
  have hmeets : Meets (Exchange.step twoByteTerms 1) (Smooth 1) .start requestEvents := by
    decide +kernel
  obtain ⟨-, -, more, t, -, hmore, hfinal, -⟩ := echo_returns fits_twoByteTerms
    (List.cons_ne_nil _ _) Nat.one_pos Nat.one_pos hmeets hrun
  exact ⟨c, more, t, hrun, hc, hmore, hfinal⟩

end Exchange

end IrohExperiment.Roundtrip
