/-
# What an echo proves (`nat-peer.rs`, `browser-iroh/src/lib.rs`)

Whatever is lost and however the two sides' steps are ordered: a side that is through has the
other one's payload to show for it, and no comparison ever fails but behind a failure of the
connection or a timeout.

`Sides` is kept by every step (`sides_run`), from one lemma for each side's moves and one
for the pipes that move on.  The main result is `echo_failure_cause`; `Sides.of_dial` and
`Sides.of_listen` are what a side that has returned without an error stands for.
-/
import IrohExperiment.Roundtrip.Moves

namespace IrohExperiment.Roundtrip

open Rust History

namespace Exchange

variable {terms : Terms} {window : ℕ} {c c' : Exchange} {events : List ExchangeEvent}
  {dialEvent : DialEvent} {listenEvent : ListenEvent}

/-! ## What each stage has behind it -/

/-- The whole payload has been written. -/
def Sent (terms : Terms) (c : Exchange) : Prop :=
  c.request.written = terms.payload ∧ c.request.writer = .finished

/-- The verification has not been begun. -/
def Unverified (c : Exchange) : Prop :=
  c.verification.written = [] ∧ c.verification.writer = .writing

/-- What the dialer has done by a stage. -/
def DialDone (terms : Terms) (c : Exchange) : DialStage → Prop
  | .opening => c.request.written = [] ∧ c.request.writer = .writing ∧ c.Unverified
  | .sending remaining =>
    c.request.written ++ remaining = terms.payload ∧ c.request.writer = .writing ∧ c.Unverified
  | .reading => c.Sent terms ∧ c.Unverified
  | .openingVerification =>
    c.Sent terms ∧ c.echo.Through terms.payload ∧ c.Unverified ∧
      ∃ verification, terms.verification = some verification
  | .verifying remaining =>
    c.Sent terms ∧ c.echo.Through terms.payload ∧ c.verification.writer = .writing ∧
      ∃ verification, terms.verification = some verification ∧
        c.verification.written ++ remaining = verification.1
  | .awaiting =>
    c.Sent terms ∧ c.echo.Through terms.payload ∧ c.verification.writer = .finished ∧
      ∃ verification, terms.verification = some verification ∧
        c.verification.written = verification.1
  | .returned (.ok ()) =>
    c.Sent terms ∧ c.echo.Through terms.payload ∧
      ∀ verification, terms.verification = some verification →
        c.verification.Through verification.1
  | .returned (.error _) => True

/-- What the listener has done by a stage. -/
def ListenDone (terms : Terms) (c : Exchange) : ListenStage → Prop
  | .accepting | .reading => c.echo.written = [] ∧ c.echo.writer = .writing
  | .echoing remaining =>
    c.request.Through terms.expected ∧ c.echo.writer = .writing ∧
      c.echo.written ++ remaining = terms.expected
  | .awaiting =>
    c.request.Through terms.expected ∧ c.echo.writer = .finished ∧
      c.echo.written = terms.expected
  | .acceptingVerification | .readingVerification =>
    c.request.Through terms.expected ∧ c.echo.Through terms.expected ∧
      ∃ verification, terms.verification = some verification
  | .returned (.ok ()) =>
    c.request.Through terms.expected ∧ c.echo.Through terms.expected ∧
      ∀ verification, terms.verification = some verification →
        c.verification.Through verification.1
  | .returned (.error _) => True

/-- What the dialer has done: it only verifies what has come back whole. -/
structure DialSide (terms : Terms) (c : Exchange) : Prop where
  request : c.request.written <+: terms.payload
  verification : ∀ verification, terms.verification = some verification →
    c.verification.written <+: verification.1
  verifies : c.verification.written ≠ [] → c.echo.Through terms.payload
  stage : DialDone terms c c.dial

/-- What the listener has done: it only sends back what has come whole. -/
structure ListenSide (terms : Terms) (c : Exchange) : Prop where
  echo : c.echo.written <+: terms.expected
  echoes : c.echo.written ≠ [] → c.request.Through terms.expected
  stage : ListenDone terms c c.listen

/-! ## The dialer -/

/-- The dialer has sent nothing. -/
theorem dialSide_start : DialSide terms .start :=
  ⟨List.nil_prefix, fun _ _ => List.nil_prefix, fun h => absurd rfl h, rfl, rfl, rfl, rfl⟩

/-- The dialer's stage stands as long as only the transport is at work on its streams. -/
theorem DialDone.onward {stage : DialStage} (h : DialDone terms c stage)
    (hrequest : Onward c.request c'.request) (hverification : Onward c.verification c'.verification)
    (hecho : ∀ bytes, c.echo.Through bytes → c'.echo.Through bytes) :
    DialDone terms c' stage := by
  have hsent : c.Sent terms → c'.Sent terms := fun hs =>
    ⟨hrequest.written.trans hs.1, hrequest.writer.trans hs.2⟩
  have hunverified : c.Unverified → c'.Unverified := fun hu =>
    ⟨hverification.written.trans hu.1, hverification.writer.trans hu.2⟩
  cases stage with
  | opening =>
    exact ⟨hrequest.written.trans h.1, hrequest.writer.trans h.2.1, hunverified h.2.2⟩
  | sending remaining =>
    refine ⟨?_, hrequest.writer.trans h.2.1, hunverified h.2.2⟩
    rw [hrequest.written]
    exact h.1
  | reading => exact ⟨hsent h.1, hunverified h.2⟩
  | openingVerification => exact ⟨hsent h.1, hecho _ h.2.1, hunverified h.2.2.1, h.2.2.2⟩
  | verifying remaining =>
    obtain ⟨hs, hthrough, hwriter, verification, hterms, hwritten⟩ := h
    refine ⟨hsent hs, hecho _ hthrough, hverification.writer.trans hwriter, verification, hterms,
      ?_⟩
    rw [hverification.written]
    exact hwritten
  | awaiting =>
    obtain ⟨hs, hthrough, hwriter, verification, hterms, hwritten⟩ := h
    exact ⟨hsent hs, hecho _ hthrough, hverification.writer.trans hwriter, verification, hterms,
      hverification.written.trans hwritten⟩
  | returned result =>
    cases result with
    | ok u =>
      exact ⟨hsent h.1, hecho _ h.2.1, fun verification hterms =>
        hverification.through (h.2.2 verification hterms)⟩
    | error error => trivial

/-- The dialer's side of an echo holds while others move the pipes on. -/
theorem DialSide.onward (h : DialSide terms c) (hdial : c'.dial = c.dial)
    (hrequest : Onward c.request c'.request) (hverification : Onward c.verification c'.verification)
    (hecho : ∀ bytes, c.echo.Through bytes → c'.echo.Through bytes) : DialSide terms c' := by
  refine ⟨?_, fun verification hterms => ?_, fun hwritten => hecho _ (h.verifies ?_), ?_⟩
  · rw [hrequest.written]
    exact h.request
  · rw [hverification.written]
    exact h.verification verification hterms
  · rw [hverification.written] at hwritten
    exact hwritten
  · rw [hdial]
    exact h.stage.onward hrequest hverification hecho

/-- The dialer's steps keep its side of the echo. -/
theorem DialSide.move (h : DialSide terms c) (hmove : DialMove terms window dialEvent c c') :
    DialSide terms c' := by
  have hstage := h.stage
  cases hmove with
  | opens hdial =>
    rw [hdial] at hstage
    obtain ⟨hwritten, hwriter, hunverified⟩ := hstage
    refine ⟨h.request, h.verification, h.verifies, ?_, hwriter, hunverified⟩
    show c.request.written ++ terms.payload = terms.payload
    rw [hwritten, List.nil_append]
  -- what is written and what is left make up the payload all along
  | @sends remaining count request hdial hcount hwrite =>
    rw [hdial] at hstage
    obtain ⟨hpayload, hwriter, hunverified⟩ := hstage
    obtain ⟨-, -, hwritten, hwriting, -⟩ := Pipe.write_eq_some.mp hwrite
    have hall : request.written ++ remaining.drop count = terms.payload := by
      rw [hwritten, List.append_assoc, List.take_append_drop, hpayload]
    exact ⟨⟨_, hall⟩, h.verification, h.verifies, hall, hwriting, hunverified⟩
  | sent hdial =>
    rw [hdial] at hstage
    obtain ⟨hpayload, hwriter, hunverified⟩ := hstage
    rw [List.append_nil] at hpayload
    exact ⟨h.request, h.verification, h.verifies, ⟨hpayload, rfl⟩, hunverified⟩
  | compared hdial hterms hthrough =>
    rw [hdial] at hstage
    exact ⟨h.request, h.verification, h.verifies, hstage.1, hthrough, hstage.2, _, hterms⟩
  | returned hdial hterms hthrough =>
    rw [hdial] at hstage
    refine ⟨h.request, h.verification, h.verifies, ⟨hstage.1.1, rfl⟩, hthrough,
      fun verification hsome => ?_⟩
    cases hterms.symm.trans hsome
  | @opensVerification hdial verification hterms =>
    rw [hdial] at hstage
    obtain ⟨hsent, hthrough, ⟨hnothing, hwriter⟩, -⟩ := hstage
    refine ⟨h.request, h.verification, h.verifies, hsent, hthrough, hwriter, verification, hterms,
      ?_⟩
    show c.verification.written ++ verification.1 = verification.1
    rw [hnothing, List.nil_append]
  | @verifies remaining count verification hdial hcount hwrite =>
    rw [hdial] at hstage
    obtain ⟨hsent, hthrough, -, terms', hterms, hall⟩ := hstage
    obtain ⟨-, -, hwritten, hwriting, -⟩ := Pipe.write_eq_some.mp hwrite
    have hall : verification.written ++ remaining.drop count = terms'.1 := by
      rw [hwritten, List.append_assoc, List.take_append_drop, hall]
    refine ⟨h.request, fun terms'' hterms' => ?_, fun _ => hthrough, hsent, hthrough, hwriting,
      terms', hterms, hall⟩
    obtain rfl := Option.some.inj (hterms.symm.trans hterms')
    exact ⟨_, hall⟩
  | verified hdial =>
    rw [hdial] at hstage
    obtain ⟨hsent, hthrough, -, verification, hterms, hall⟩ := hstage
    rw [List.append_nil] at hall
    exact ⟨h.request, h.verification, h.verifies, hsent, hthrough, rfl, verification, hterms, hall⟩
  -- the listener has read to the end before it acknowledges
  | acknowledged hdial hended =>
    rw [hdial] at hstage
    obtain ⟨hsent, hthrough, -, verification, hterms, hall⟩ := hstage
    refine ⟨h.request, h.verification, h.verifies, ⟨hsent.1, rfl⟩, hthrough,
      fun verification' hterms' => ?_⟩
    obtain rfl := Option.some.inj (hterms.symm.trans hterms')
    exact Pipe.through_of_finished hended hall
  | fails hrunning hwhy => exact ⟨h.request, h.verification, h.verifies, trivial⟩

/-! ## The listener -/

/-- The listener has sent nothing. -/
theorem listenSide_start : ListenSide terms .start :=
  ⟨List.nil_prefix, fun h => absurd rfl h, rfl, rfl⟩

/-- The listener's stage stands as long as only the transport is at work on its streams. -/
theorem ListenDone.onward {stage : ListenStage} (h : ListenDone terms c stage)
    (hecho : Onward c.echo c'.echo)
    (hrequest : ∀ bytes, c.request.Through bytes → c'.request.Through bytes)
    (hverification : ∀ bytes, c.verification.Through bytes → c'.verification.Through bytes) :
    ListenDone terms c' stage := by
  cases stage with
  | accepting | reading => exact ⟨hecho.written.trans h.1, hecho.writer.trans h.2⟩
  | echoing remaining =>
    refine ⟨hrequest _ h.1, hecho.writer.trans h.2.1, ?_⟩
    rw [hecho.written]
    exact h.2.2
  | awaiting => exact ⟨hrequest _ h.1, hecho.writer.trans h.2.1, hecho.written.trans h.2.2⟩
  | acceptingVerification | readingVerification =>
    exact ⟨hrequest _ h.1, hecho.through h.2.1, h.2.2⟩
  | returned result =>
    cases result with
    | ok u =>
      exact ⟨hrequest _ h.1, hecho.through h.2.1, fun verification hterms =>
        hverification _ (h.2.2 verification hterms)⟩
    | error error => trivial

/-- The listener's side of an echo holds while others move the pipes on. -/
theorem ListenSide.onward (h : ListenSide terms c) (hlisten : c'.listen = c.listen)
    (hecho : Onward c.echo c'.echo)
    (hrequest : ∀ bytes, c.request.Through bytes → c'.request.Through bytes)
    (hverification : ∀ bytes, c.verification.Through bytes → c'.verification.Through bytes) :
    ListenSide terms c' := by
  refine ⟨?_, fun hwritten => hrequest _ (h.echoes ?_), ?_⟩
  · rw [hecho.written]
    exact h.echo
  · rw [hecho.written] at hwritten
    exact hwritten
  · rw [hlisten]
    exact h.stage.onward hecho hrequest hverification

/-- The listener's steps keep its side of the echo. -/
theorem ListenSide.move (h : ListenSide terms c)
    (hmove : ListenMove terms window listenEvent c c') : ListenSide terms c' := by
  have hstage := h.stage
  cases hmove with
  | accepts hlisten hcome =>
    rw [hlisten] at hstage
    exact ⟨h.echo, h.echoes, hstage⟩
  | compared hlisten hthrough =>
    rw [hlisten] at hstage
    refine ⟨h.echo, h.echoes, hthrough, hstage.2, ?_⟩
    show c.echo.written ++ terms.expected = terms.expected
    rw [hstage.1, List.nil_append]
  | @echoes remaining count echo hlisten hcount hwrite =>
    rw [hlisten] at hstage
    obtain ⟨hthrough, -, hexpected⟩ := hstage
    obtain ⟨-, -, hwritten, hwriting, -⟩ := Pipe.write_eq_some.mp hwrite
    have hall : echo.written ++ remaining.drop count = terms.expected := by
      rw [hwritten, List.append_assoc, List.take_append_drop, hexpected]
    exact ⟨⟨_, hall⟩, fun _ => hthrough, hthrough, hwriting, hall⟩
  | echoed hlisten =>
    rw [hlisten] at hstage
    obtain ⟨hthrough, -, hexpected⟩ := hstage
    rw [List.append_nil] at hexpected
    exact ⟨h.echo, h.echoes, hthrough, rfl, hexpected⟩
  | acknowledged hlisten hended hterms =>
    rw [hlisten] at hstage
    exact ⟨h.echo, h.echoes, hstage.1, Pipe.through_of_finished hended hstage.2.2, _, hterms⟩
  | returned hlisten hended hterms =>
    rw [hlisten] at hstage
    refine ⟨h.echo, h.echoes, hstage.1, Pipe.through_of_finished hended hstage.2.2,
      fun verification hsome => ?_⟩
    cases hterms.symm.trans hsome
  | acceptsVerification hlisten hcome =>
    rw [hlisten] at hstage
    exact ⟨h.echo, h.echoes, hstage⟩
  | @verified hlisten verification hterms hthrough =>
    rw [hlisten] at hstage
    refine ⟨h.echo, h.echoes, hstage.1, hstage.2.1, fun verification' hterms' => ?_⟩
    obtain rfl := Option.some.inj (hterms.symm.trans hterms')
    exact hthrough
  | fails hrunning hwhy => exact ⟨h.echo, h.echoes, trivial⟩

/-! ## Both sides -/

/-- Both sides have done what their stages say. -/
structure Sides (terms : Terms) (c : Exchange) : Prop where
  dials : DialSide terms c
  listens : ListenSide terms c

/-- Every step keeps both sides of the echo. -/
theorem Sides.step (h : Sides terms c) {event : ExchangeEvent}
    (hstep : Exchange.step terms window event c = some c') : Sides terms c' := by
  rcases step_cases hstep with ⟨_, -, hmove⟩ | ⟨_, -, hmove⟩ | hcarried
  · obtain ⟨hlisten, hecho, hrequest, hverification⟩ := hmove.frame
    exact ⟨h.dials.move hmove, h.listens.onward hlisten (hecho ▸ .refl _)
      (fun _ hthrough => hthrough.of_link hrequest)
      fun _ hthrough => hthrough.of_link hverification⟩
  · obtain ⟨hdial, hrequest, hverification, hecho⟩ := hmove.frame
    exact ⟨h.dials.onward hdial (hrequest ▸ .refl _) (hverification ▸ .refl _)
      fun _ hthrough => hthrough.of_link hecho, h.listens.move hmove⟩
  · exact ⟨h.dials.onward hcarried.dial hcarried.request hcarried.verification
      fun _ => hcarried.echo.through, h.listens.onward hcarried.listen hcarried.echo
      (fun _ => hcarried.request.through) fun _ => hcarried.verification.through⟩

/-- Both sides of the echo hold in every run. -/
theorem sides_run (hrun : run (Exchange.step terms window) .start events = some c) :
    Sides terms c :=
  run_induct (P := fun _ c => Sides terms c) ⟨dialSide_start, listenSide_start⟩
    (fun _ _ _ _ _ h hstep => h.step hstep) hrun

/-! ## Agreement -/

/-- Everything has come through, both ways. -/
def AllThrough (terms : Terms) (c : Exchange) : Prop :=
  terms.payload = terms.expected ∧ c.request.Through terms.payload ∧
    c.echo.Through terms.payload ∧
    ∀ verification, terms.verification = some verification → c.verification.Through verification.1

/-- When the dialer returns without an error, everything has come through. -/
theorem Sides.of_dial (h : Sides terms c) (hpayload : terms.payload ≠ [])
    (hdial : c.dial = .returned (.ok ())) : AllThrough terms c := by
  have hstage := h.dials.stage
  rw [hdial] at hstage
  obtain ⟨hsent, hecho, hverification⟩ := hstage
  have hrequest := h.listens.echoes (by rw [hecho.written.2]; exact hpayload)
  have heq : terms.payload = terms.expected := hsent.1.symm.trans hrequest.written.2
  exact ⟨heq, heq ▸ hrequest, hecho, hverification⟩

/-- When the listener returns without an error, everything has come through. -/
theorem Sides.of_listen (h : Sides terms c)
    (hsize : terms.payload.length = terms.expected.length)
    (hlisten : c.listen = .returned (.ok ())) : AllThrough terms c := by
  have hstage := h.listens.stage
  rw [hlisten] at hstage
  obtain ⟨hrequest, hecho, hverification⟩ := hstage
  have hfront := h.dials.request
  rw [hrequest.written.2] at hfront
  have heq : terms.expected = terms.payload := hfront.eq_of_length hsize.symm
  exact ⟨heq.symm, heq ▸ hrequest, heq ▸ hecho, hverification⟩

/-! ## Failures -/

/-- A stream has failed. -/
def Lost (c : Exchange) : Prop :=
  ∃ kind, c.request.link.ending = .failed kind ∨ c.echo.link.ending = .failed kind ∨
    c.verification.link.ending = .failed kind

/-- A side has given up, or a stream has failed. -/
def Cause (c : Exchange) : Prop :=
  c.dial = .returned (.error .fails) ∨ c.listen = .returned (.error .fails) ∨ c.Lost

/-- The limits are no shorter than what is to be read. -/
structure Fits (terms : Terms) : Prop where
  same : terms.payload = terms.expected
  payload : terms.payload.length ≤ terms.limit
  verification : ∀ verification, terms.verification = some verification →
    verification.1.length ≤ verification.2

/-- A stream that has failed stays failed. -/
theorem Onward.failed {p q : Pipe} (h : Onward p q) {kind : ErrorKind}
    (hfailed : p.link.ending = .failed kind) : q.link.ending = .failed kind := by
  rw [h.settled (by rw [hfailed]; exact fun heq => by cases heq)]
  exact hfailed

/-- A cause stays a cause. -/
theorem Cause.step (h : c.Cause) {event : ExchangeEvent}
    (hstep : Exchange.step terms window event c = some c') : c'.Cause := by
  rcases step_cases hstep with ⟨_, -, hmove⟩ | ⟨_, -, hmove⟩ | hcarried
  · obtain ⟨hlisten, hecho, hrequest, hverification⟩ := hmove.frame
    rcases h with hdial | hfails | hlost
    · exact absurd hdial (hmove.running _)
    · exact .inr (.inl (hlisten.trans hfails))
    · refine .inr (.inr ?_)
      unfold Lost at hlost ⊢
      rw [hecho, hrequest, hverification]
      exact hlost
  · obtain ⟨hdial, hrequest, hverification, hecho⟩ := hmove.frame
    rcases h with hfails | hlisten | hlost
    · exact .inl (hdial.trans hfails)
    · exact absurd hlisten (hmove.running _)
    · refine .inr (.inr ?_)
      unfold Lost at hlost ⊢
      rw [hecho, hrequest, hverification]
      exact hlost
  · rcases h with hfails | hfails | ⟨kind, hlost | hlost | hlost⟩
    · exact .inl (hcarried.dial.trans hfails)
    · exact .inr (.inl (hcarried.listen.trans hfails))
    · exact .inr (.inr ⟨kind, .inl (hcarried.request.failed hlost)⟩)
    · exact .inr (.inr ⟨kind, .inr (.inl (hcarried.echo.failed hlost))⟩)
    · exact .inr (.inr ⟨kind, .inr (.inr (hcarried.verification.failed hlost))⟩)

/-- What comes through to the dialer is the payload, unless the listener has failed. -/
theorem Sides.echo_eq (h : Sides terms c) {bytes : Bytes} (hthrough : c.echo.Through bytes) :
    bytes = terms.expected ∨ c.ListenerGone := by
  obtain ⟨hwriter, hwritten⟩ := hthrough.written
  have hstage := h.listens.stage
  cases hlisten : c.listen with
  | accepting | reading =>
    rw [hlisten] at hstage
    cases hwriter.symm.trans hstage.2
  | echoing remaining =>
    rw [hlisten] at hstage
    cases hwriter.symm.trans hstage.2.1
  | awaiting =>
    rw [hlisten] at hstage
    exact .inl (hwritten.symm.trans hstage.2.2)
  | acceptingVerification | readingVerification =>
    rw [hlisten] at hstage
    exact .inl (hwritten.symm.trans hstage.2.1.written.2)
  | returned result =>
    rw [hlisten] at hstage
    cases result with
    | ok u => exact .inl (hwritten.symm.trans hstage.2.1.written.2)
    | error error => exact .inr (listenerGone_iff.mpr ⟨error, hlisten⟩)

/-- What comes through to the listener is the payload, unless the dialer has failed. -/
theorem Sides.request_eq (h : Sides terms c) {bytes : Bytes} (hthrough : c.request.Through bytes) :
    bytes = terms.payload ∨ c.DialerGone := by
  obtain ⟨hwriter, hwritten⟩ := hthrough.written
  have hstage := h.dials.stage
  cases hdial : c.dial with
  | opening | sending =>
    rw [hdial] at hstage
    cases hwriter.symm.trans hstage.2.1
  | reading | openingVerification | verifying | awaiting =>
    rw [hdial] at hstage
    exact .inl (hwritten.symm.trans hstage.1.1)
  | returned result =>
    rw [hdial] at hstage
    cases result with
    | ok u => exact .inl (hwritten.symm.trans hstage.1.1)
    | error error => exact .inr (dialerGone_iff.mpr ⟨error, hdial⟩)

/-- What comes through as verification is the verification, unless the dialer has failed. -/
theorem Sides.verification_eq (h : Sides terms c) {bytes : Bytes}
    (hthrough : c.verification.Through bytes) {verification : Bytes × ℕ}
    (hterms : terms.verification = some verification) : bytes = verification.1 ∨ c.DialerGone := by
  obtain ⟨hwriter, hwritten⟩ := hthrough.written
  have hstage := h.dials.stage
  cases hdial : c.dial with
  | opening | sending =>
    rw [hdial] at hstage
    cases hwriter.symm.trans hstage.2.2.2
  | openingVerification =>
    rw [hdial] at hstage
    cases hwriter.symm.trans hstage.2.2.1.2
  | reading =>
    rw [hdial] at hstage
    cases hwriter.symm.trans hstage.2.2
  | verifying remaining =>
    rw [hdial] at hstage
    cases hwriter.symm.trans hstage.2.2.1
  | awaiting =>
    rw [hdial] at hstage
    obtain ⟨-, -, -, verification', hterms', hall⟩ := hstage
    obtain rfl := Option.some.inj (hterms.symm.trans hterms')
    exact .inl (hwritten.symm.trans hall)
  | returned result =>
    rw [hdial] at hstage
    cases result with
    | ok u => exact .inl (hwritten.symm.trans (hstage.2.2 verification hterms).written.2)
    | error error => exact .inr (dialerGone_iff.mpr ⟨error, hdial⟩)

/-- Where the payload fits, no reader is brought more than its limit. -/
theorem Fits.brought (hfits : Fits terms) (h : Sides terms c) :
    c.request.link.brought.length ≤ terms.limit ∧ c.echo.link.brought.length ≤ terms.limit := by
  have hrequest := (c.request.ordered.brought.trans h.dials.request).length_le
  have hecho := (c.echo.ordered.brought.trans h.listens.echo).length_le
  rw [← hfits.same] at hecho
  exact ⟨hrequest.trans hfits.payload, hecho.trans hfits.payload⟩

/-- The dialer's comparison does not fail first. -/
theorem DialFails.cause {error : DialError} (hwhy : DialFails terms dialEvent c error)
    (hfits : Fits terms) (h : Sides terms c) (hcaused : c.ListenerGone → c.Cause) :
    error = .fails ∨ c.Cause := by
  cases hwhy with
  | fails => exact .inl rfl
  | tooLong hdial hlong => exact absurd (hfits.brought h).2 (Nat.not_le.mpr hlong)
  | lost hdial hlost => exact .inr (.inr (.inr ⟨_, .inr (.inl hlost)⟩))
  | mismatch hdial hthrough hother =>
    rcases h.echo_eq hthrough with heq | hgone
    · exact absurd (heq.trans hfits.same.symm) hother
    · exact .inr (hcaused hgone)
  | rejected hdial hgone => exact .inr (hcaused hgone)

/-- The listener's comparisons do not fail first. -/
theorem ListenFails.cause {error : ListenError} (hwhy : ListenFails terms listenEvent c error)
    (hfits : Fits terms) (h : Sides terms c) (hcaused : c.DialerGone → c.Cause) :
    error = .fails ∨ c.Cause := by
  cases hwhy with
  | fails => exact .inl rfl
  | tooLong hlisten hlong => exact absurd (hfits.brought h).1 (Nat.not_le.mpr hlong)
  | lost hlisten hlost => exact .inr (.inr (.inr ⟨_, .inl hlost⟩))
  | mismatch hlisten hthrough hother =>
    rcases h.request_eq hthrough with heq | hgone
    · exact absurd (heq.trans hfits.same) hother
    · exact .inr (hcaused hgone)
  | rejected hlisten hgone => exact .inr (hcaused hgone)
  | verificationTooLong hlisten hterms hlong =>
    have hle := (c.verification.ordered.brought.trans (h.dials.verification _ hterms)).length_le
    exact absurd (hle.trans (hfits.verification _ hterms)) (Nat.not_le.mpr hlong)
  | verificationLost hlisten hlost => exact .inr (.inr (.inr ⟨_, .inr (.inr hlost)⟩))
  | missing hlisten hterms hthrough hother =>
    rcases h.verification_eq hthrough hterms with heq | hgone
    · exact absurd heq hother
    · exact .inr (hcaused hgone)

/-- Whoever is gone first has a cause: nobody fails on his own. -/
theorem cause_step (hfits : Fits terms) (h : Sides terms c)
    (hcaused : c.DialerGone ∨ c.ListenerGone → c.Cause) {event : ExchangeEvent}
    (hstep : Exchange.step terms window event c = some c') :
    c'.DialerGone ∨ c'.ListenerGone → c'.Cause := by
  intro hgone
  rcases step_cases hstep with ⟨_, -, hmove⟩ | ⟨_, -, hmove⟩ | hcarried
  · have hlisten := hmove.frame.1
    rcases hgone with hgone | hgone
    · obtain ⟨error, herror⟩ := dialerGone_iff.mp hgone
      cases hmove with
      | fails hrunning hwhy =>
        rcases hwhy.cause hfits h (fun hgone => hcaused (.inr hgone)) with rfl | hcause
        · exact .inl rfl
        · exact hcause.step hstep
      | opens | sends | sent | compared | returned | opensVerification | verifies | verified
      | acknowledged => cases herror
    · refine Cause.step (hcaused (.inr ?_)) hstep
      rw [listenerGone_iff, ← hlisten]
      exact listenerGone_iff.mp hgone
  · have hdial := hmove.frame.1
    rcases hgone with hgone | hgone
    · refine Cause.step (hcaused (.inl ?_)) hstep
      rw [dialerGone_iff, ← hdial]
      exact dialerGone_iff.mp hgone
    · obtain ⟨error, herror⟩ := listenerGone_iff.mp hgone
      cases hmove with
      | fails hrunning hwhy =>
        rcases hwhy.cause hfits h (fun hgone => hcaused (.inl hgone)) with rfl | hcause
        · exact .inr (.inl rfl)
        · exact hcause.step hstep
      | accepts | compared | echoes | echoed | acknowledged | returned | acceptsVerification
      | verified => cases herror
  · refine Cause.step (hcaused ?_) hstep
    rw [dialerGone_iff, listenerGone_iff, hcarried.dial, hcarried.listen, ← dialerGone_iff,
      ← listenerGone_iff] at hgone
    exact hgone

/-- Where both sides mean the same payload, a side only fails if a side has given up (its
connection is lost, or its time is up) or a stream has failed: no comparison, no limit and no
acknowledgement is the first to go wrong. -/
theorem echo_failure_cause (hfits : Fits terms)
    (hrun : run (Exchange.step terms window) .start events = some c)
    (hgone : c.DialerGone ∨ c.ListenerGone) : c.Cause :=
  run_induct (P := fun _ c => c.DialerGone ∨ c.ListenerGone → c.Cause)
    (fun hgone => by rcases hgone with hgone | hgone <;> cases hgone)
    (fun _ _ _ _ hbefore hcaused hstep => cause_step hfits (sides_run hbefore) hcaused hstep)
    hrun hgone

def oneByte (byte : UInt8) : Chunk := ⟨[byte], List.cons_ne_nil _ _⟩

/-- The dialer gives up with half of its request written, which ends the stream there. -/
def halfRequest : List ExchangeEvent :=
  [.dial .opens, .dial (.writes 1), .dial .fails, .carry .request (oneByte 1),
    .ends .request .finished, .listen .accepts, .listen .reads]

theorem echo_failure_cause_halfRequest : ∃ c,
    run (Exchange.step ⟨[1, 2], [1, 2], 2, none⟩ 8) .start halfRequest = some c ∧
      c.listen = .returned (.error .requestMismatch) ∧ c.Cause := by
  have hlisten : (run (Exchange.step ⟨[1, 2], [1, 2], 2, none⟩ 8) .start halfRequest).map
      Exchange.listen = some (.returned (.error .requestMismatch)) := by
    decide +kernel
  obtain ⟨c, hrun, hc⟩ := Option.map_eq_some_iff.mp hlisten
  have hfits : Fits ⟨[1, 2], [1, 2], 2, none⟩ :=
    ⟨rfl, le_rfl, fun verification hterms => by cases hterms⟩
  exact ⟨c, hrun, hc, echo_failure_cause hfits hrun (.inr (listenerGone_iff.mpr ⟨_, hc⟩))⟩

end Exchange

end IrohExperiment.Roundtrip
