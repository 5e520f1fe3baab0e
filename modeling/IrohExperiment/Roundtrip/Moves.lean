/-
# The moves of an echo (`nat-peer.rs`, `browser-iroh/src/lib.rs`)

What a step of either side and of the connection can be, said once with all that it depends on;
what is proved of echoes further on goes by these cases.

`DialMove` and `ListenMove` are these cases, and `step_cases` says that there are no others.
`DialMove.frame` and `ListenMove.frame` say what a move leaves alone, which is everything of
the other side.
-/
import IrohExperiment.Roundtrip.Sides

namespace IrohExperiment.Roundtrip

open Rust History

namespace Exchange

variable {terms : Terms} {window : ℕ} {c c' : Exchange} {dialEvent : DialEvent}
  {listenEvent : ListenEvent}

/-- The dialer is gone exactly if it has returned an error. -/
theorem dialerGone_iff : c.DialerGone ↔ ∃ error, c.dial = .returned (.error error) := by
  unfold DialerGone
  split
  · next error hdial => exact iff_of_true trivial ⟨error, hdial⟩
  · next hnot =>
    refine iff_of_false id ?_
    rintro ⟨error, hdial⟩
    exact hnot error hdial

/-- The listener is gone exactly if it has returned an error. -/
theorem listenerGone_iff : c.ListenerGone ↔ ∃ error, c.listen = .returned (.error error) := by
  unfold ListenerGone
  split
  · next error hlisten => exact iff_of_true trivial ⟨error, hlisten⟩
  · next hnot =>
    refine iff_of_false id ?_
    rintro ⟨error, hlisten⟩
    exact hnot error hlisten

/-! ## The dialer's moves -/

/-- Why the dialer returns with an error. -/
inductive DialFails (terms : Terms) (event : DialEvent) (c : Exchange) : DialError → Prop where
  | fails (h : event = .fails) : DialFails terms event c .fails
  | tooLong (h : c.dial = .reading) (hlong : terms.limit < c.echo.link.brought.length) :
    DialFails terms event c (.readEcho .tooLong)
  | lost (h : c.dial = .reading) {kind : ErrorKind} (hlost : c.echo.link.ending = .failed kind) :
    DialFails terms event c (.readEcho (.read kind))
  | mismatch (h : c.dial = .reading) {bytes : Bytes} (hthrough : c.echo.Through bytes)
    (hother : bytes ≠ terms.payload) : DialFails terms event c .echoMismatch
  | rejected (h : c.dial = .awaiting) (hgone : c.ListenerGone) :
    DialFails terms event c .verificationRejected

/-- What the dialer's steps are. -/
inductive DialMove (terms : Terms) (window : ℕ) (event : DialEvent) (c : Exchange) :
    Exchange → Prop where
  | opens (h : c.dial = .opening) :
    DialMove terms window event c { c with dial := .sending terms.payload }
  | sends {remaining : Bytes} {count : ℕ} {request : Pipe} (h : c.dial = .sending remaining)
    (hcount : 0 < count ∧ count ≤ remaining.length)
    (hwrite : c.request.write window (remaining.take count) = some request) :
    DialMove terms window event c
      { c with dial := .sending (remaining.drop count), request := request }
  | sent (h : c.dial = .sending []) :
    DialMove terms window event c { c with dial := .reading, request := c.request.leave }
  | compared (h : c.dial = .reading) {verification : Bytes × ℕ}
    (hverification : terms.verification = some verification)
    (hthrough : c.echo.Through terms.payload) :
    DialMove terms window event c { c with dial := .openingVerification }
  | returned (h : c.dial = .reading) (hverification : terms.verification = none)
    (hthrough : c.echo.Through terms.payload) :
    DialMove terms window event c (c.dialReturns (.ok ()))
  | opensVerification (h : c.dial = .openingVerification) {verification : Bytes × ℕ}
    (hverification : terms.verification = some verification) :
    DialMove terms window event c { c with dial := .verifying verification.1 }
  | verifies {remaining : Bytes} {count : ℕ} {verification : Pipe}
    (h : c.dial = .verifying remaining) (hcount : 0 < count ∧ count ≤ remaining.length)
    (hwrite : c.verification.write window (remaining.take count) = some verification) :
    DialMove terms window event c
      { c with dial := .verifying (remaining.drop count), verification := verification }
  | verified (h : c.dial = .verifying []) :
    DialMove terms window event c { c with dial := .awaiting, verification := c.verification.leave }
  | acknowledged (h : c.dial = .awaiting) (hended : c.verification.link.ending = .finished) :
    DialMove terms window event c (c.dialReturns (.ok ()))
  | fails {error : DialError} (h : ∀ result, c.dial ≠ .returned result)
    (hwhy : DialFails terms event c error) :
    DialMove terms window event c (c.dialReturns (.error error))

/-- What `read_to_end` gives is all that the peer has written and finished. -/
theorem through_of_readToEnd {limit : ℕ} {p : Pipe} {bytes : Bytes} {source : Source}
    (h : (readToEnd limit).run p.link.source = .done bytes source) : p.Through bytes := by
  obtain ⟨-, hending, rfl, -⟩ := readToEnd_eq_done.mp h
  show p.link = ⟨p.link.source.bytes, .finished⟩
  rw [Link.source_bytes, ← show p.link.ending = .finished from hending]

/-- Reading the echo ends with a comparison, or in one of its three errors. -/
theorem dialMove_of_dialRead (hdial : c.dial = .reading) (h : c.dialRead terms = some c') :
    DialMove terms window dialEvent c c' := by
  have hrunning : ∀ result, c.dial ≠ .returned result := by
    intro result hresult
    cases hdial.symm.trans hresult
  unfold dialRead at h
  split at h
  · next bytes source hread =>
    have hthrough := through_of_readToEnd hread
    split_ifs at h with hbytes
    · rw [hbytes] at hthrough
      split at h <;> obtain rfl := Option.some.inj h
      · next verification hverification => exact .compared hdial hverification hthrough
      · next hverification => exact .returned hdial hverification hthrough
    · obtain rfl := Option.some.inj h
      exact .fails hrunning (.mismatch hdial hthrough hbytes)
  · next error hread =>
    obtain rfl := Option.some.inj h
    rcases readToEnd_eq_failed hread with ⟨rfl, hlong⟩ | ⟨kind, rfl, hlost⟩
    · rw [Link.source_bytes] at hlong
      exact .fails hrunning (.tooLong hdial hlong)
    · exact .fails hrunning (.lost hdial hlost)
  · cases h

/-- Every step of the dialer is one of its moves. -/
theorem dialMove_of_step {event : DialEvent} (h : c.dialStep terms window event = some c') :
    DialMove terms window event c c' := by
  unfold dialStep at h
  cases event with
  | opens =>
    simp only at h
    split at h
    · next hdial =>
      obtain rfl := Option.some.inj h
      exact .opens hdial
    · next hdial =>
      obtain ⟨verification, hverification, rfl⟩ := Option.map_eq_some_iff.mp h
      exact .opensVerification hdial hverification
    · cases h
  | writes count =>
    simp only at h
    split at h
    · next remaining hdial =>
      split_ifs at h with hcount
      obtain ⟨request, hwrite, rfl⟩ := Option.map_eq_some_iff.mp h
      exact .sends hdial hcount hwrite
    · next remaining hdial =>
      split_ifs at h with hcount
      obtain ⟨verification, hwrite, rfl⟩ := Option.map_eq_some_iff.mp h
      exact .verifies hdial hcount hwrite
    · cases h
  | finishes =>
    simp only at h
    split at h
    · next hdial =>
      obtain rfl := Option.some.inj h
      exact .sent hdial
    · next hdial =>
      obtain rfl := Option.some.inj h
      exact .verified hdial
    · cases h
  | reads =>
    simp only at h
    split at h
    · next hdial => exact dialMove_of_dialRead hdial h
    · cases h
  | stopped rejected =>
    simp only at h
    split at h
    · next hdial =>
      split_ifs at h with hrejected hgone hended <;> obtain rfl := Option.some.inj h
      · refine .fails (fun result hresult => ?_) (.rejected hdial hgone)
        cases hdial.symm.trans hresult
      · exact .acknowledged hdial hended
    · cases h
  | fails =>
    simp only at h
    split at h
    · cases h
    · next hrunning =>
      obtain rfl := Option.some.inj h
      exact .fails hrunning (.fails rfl)

/-! ## The listener's moves -/

/-- Why the listener returns with an error. -/
inductive ListenFails (terms : Terms) (event : ListenEvent) (c : Exchange) :
    ListenError → Prop where
  | fails (h : event = .fails) : ListenFails terms event c .fails
  | tooLong (h : c.listen = .reading) (hlong : terms.limit < c.request.link.brought.length) :
    ListenFails terms event c (.readRequest .tooLong)
  | lost (h : c.listen = .reading) {kind : ErrorKind}
    (hlost : c.request.link.ending = .failed kind) :
    ListenFails terms event c (.readRequest (.read kind))
  | mismatch (h : c.listen = .reading) {bytes : Bytes} (hthrough : c.request.Through bytes)
    (hother : bytes ≠ terms.expected) : ListenFails terms event c .requestMismatch
  | rejected (h : c.listen = .awaiting) (hgone : c.DialerGone) :
    ListenFails terms event c .echoRejected
  | verificationTooLong (h : c.listen = .readingVerification) {verification : Bytes × ℕ}
    (hverification : terms.verification = some verification)
    (hlong : verification.2 < c.verification.link.brought.length) :
    ListenFails terms event c (.readVerification .tooLong)
  | verificationLost (h : c.listen = .readingVerification) {kind : ErrorKind}
    (hlost : c.verification.link.ending = .failed kind) :
    ListenFails terms event c (.readVerification (.read kind))
  | missing (h : c.listen = .readingVerification) {verification : Bytes × ℕ}
    (hverification : terms.verification = some verification) {bytes : Bytes}
    (hthrough : c.verification.Through bytes) (hother : bytes ≠ verification.1) :
    ListenFails terms event c .verificationMissing

/-- What the listener's steps are. -/
inductive ListenMove (terms : Terms) (window : ℕ) (event : ListenEvent) (c : Exchange) :
    Exchange → Prop where
  | accepts (h : c.listen = .accepting) (hcome : c.request.link ≠ .idle) :
    ListenMove terms window event c { c with listen := .reading }
  | compared (h : c.listen = .reading) (hthrough : c.request.Through terms.expected) :
    ListenMove terms window event c { c with listen := .echoing terms.expected }
  | echoes {remaining : Bytes} {count : ℕ} {echo : Pipe} (h : c.listen = .echoing remaining)
    (hcount : 0 < count ∧ count ≤ remaining.length)
    (hwrite : c.echo.write window (remaining.take count) = some echo) :
    ListenMove terms window event c
      { c with listen := .echoing (remaining.drop count), echo := echo }
  | echoed (h : c.listen = .echoing []) :
    ListenMove terms window event c { c with listen := .awaiting, echo := c.echo.leave }
  | acknowledged (h : c.listen = .awaiting) (hended : c.echo.link.ending = .finished)
    {verification : Bytes × ℕ} (hverification : terms.verification = some verification) :
    ListenMove terms window event c { c with listen := .acceptingVerification }
  | returned (h : c.listen = .awaiting) (hended : c.echo.link.ending = .finished)
    (hverification : terms.verification = none) :
    ListenMove terms window event c (c.listenReturns (.ok ()))
  | acceptsVerification (h : c.listen = .acceptingVerification)
    (hcome : c.verification.link ≠ .idle) :
    ListenMove terms window event c { c with listen := .readingVerification }
  | verified (h : c.listen = .readingVerification) {verification : Bytes × ℕ}
    (hverification : terms.verification = some verification)
    (hthrough : c.verification.Through verification.1) :
    ListenMove terms window event c (c.listenReturns (.ok ()))
  | fails {error : ListenError} (h : ∀ result, c.listen ≠ .returned result)
    (hwhy : ListenFails terms event c error) :
    ListenMove terms window event c (c.listenReturns (.error error))

/-- Reading the request ends with a comparison, or in one of its three errors. -/
theorem listenMove_of_listenRead (hlisten : c.listen = .reading)
    (h : c.listenRead terms = some c') : ListenMove terms window listenEvent c c' := by
  have hrunning : ∀ result, c.listen ≠ .returned result := by
    intro result hresult
    cases hlisten.symm.trans hresult
  unfold listenRead at h
  split at h
  · next bytes source hread =>
    have hthrough := through_of_readToEnd hread
    split_ifs at h with hbytes <;> obtain rfl := Option.some.inj h
    · subst hbytes
      exact .compared hlisten hthrough
    · exact .fails hrunning (.mismatch hlisten hthrough hbytes)
  · next error hread =>
    obtain rfl := Option.some.inj h
    rcases readToEnd_eq_failed hread with ⟨rfl, hlong⟩ | ⟨kind, rfl, hlost⟩
    · rw [Link.source_bytes] at hlong
      exact .fails hrunning (.tooLong hlisten hlong)
    · exact .fails hrunning (.lost hlisten hlost)
  · cases h

/-- Reading the verification ends the listener, one way or the other. -/
theorem listenMove_of_listenVerification (hlisten : c.listen = .readingVerification)
    {verification : Bytes × ℕ} (hverification : terms.verification = some verification)
    (h : c.listenVerification verification = some c') :
    ListenMove terms window listenEvent c c' := by
  have hrunning : ∀ result, c.listen ≠ .returned result := by
    intro result hresult
    cases hlisten.symm.trans hresult
  unfold listenVerification at h
  split at h
  · next bytes source hread =>
    have hthrough := through_of_readToEnd hread
    split_ifs at h with hbytes <;> obtain rfl := Option.some.inj h
    · rw [hbytes] at hthrough
      exact .verified hlisten hverification hthrough
    · exact .fails hrunning (.missing hlisten hverification hthrough hbytes)
  · next error hread =>
    obtain rfl := Option.some.inj h
    rcases readToEnd_eq_failed hread with ⟨rfl, hlong⟩ | ⟨kind, rfl, hlost⟩
    · rw [Link.source_bytes] at hlong
      exact .fails hrunning (.verificationTooLong hlisten hverification hlong)
    · exact .fails hrunning (.verificationLost hlisten hlost)
  · cases h

/-- Every step of the listener is one of its moves. -/
theorem listenMove_of_step {event : ListenEvent} (h : c.listenStep terms window event = some c') :
    ListenMove terms window event c c' := by
  unfold listenStep at h
  cases event with
  | accepts =>
    simp only at h
    split at h
    · next hlisten =>
      obtain ⟨hcome, rfl⟩ := of_guarded h
      exact .accepts hlisten hcome
    · next hlisten =>
      obtain ⟨hcome, rfl⟩ := of_guarded h
      exact .acceptsVerification hlisten hcome
    · cases h
  | reads =>
    simp only at h
    split at h
    · next hlisten => exact listenMove_of_listenRead hlisten h
    · next hlisten =>
      obtain ⟨verification, hverification, hread⟩ := Option.bind_eq_some_iff.mp h
      exact listenMove_of_listenVerification hlisten hverification hread
    · cases h
  | writes count =>
    simp only at h
    split at h
    · next remaining hlisten =>
      split_ifs at h with hcount
      obtain ⟨echo, hwrite, rfl⟩ := Option.map_eq_some_iff.mp h
      exact .echoes hlisten hcount hwrite
    · cases h
  | finishes =>
    simp only at h
    split at h
    · next hlisten =>
      obtain rfl := Option.some.inj h
      exact .echoed hlisten
    · cases h
  | stopped rejected =>
    simp only at h
    split at h
    · next hlisten =>
      split_ifs at h with hrejected hgone hended
      · obtain rfl := Option.some.inj h
        refine .fails (fun result hresult => ?_) (.rejected hlisten hgone)
        cases hlisten.symm.trans hresult
      · split at h <;> obtain rfl := Option.some.inj h
        · next verification hverification => exact .acknowledged hlisten hended hverification
        · next hverification => exact .returned hlisten hended hverification
    · cases h
  | fails =>
    simp only at h
    split at h
    · cases h
    · next hrunning =>
      obtain rfl := Option.some.inj h
      exact .fails hrunning (.fails rfl)

/-! ## What the moves leave alone -/

/-- A stream on which only the transport has been at work. -/
structure Onward (p q : Pipe) : Prop where
  written : q.written = p.written
  writer : q.writer = p.writer
  settled : p.link.ending ≠ .silent → q.link = p.link

theorem Onward.refl (p : Pipe) : Onward p p := ⟨rfl, rfl, fun _ => rfl⟩

/-- What has come through a pipe stays what has come through it. -/
theorem Onward.through {p q : Pipe} (h : Onward p q) {bytes : Bytes} (hp : p.Through bytes) :
    q.Through bytes :=
  hp.of_link (h.settled hp.not_silent)

/-- A step of the connection. -/
structure Carried (c c' : Exchange) : Prop where
  dial : c'.dial = c.dial
  listen : c'.listen = c.listen
  request : Onward c.request c'.request
  echo : Onward c.echo c'.echo
  verification : Onward c.verification c'.verification

/-- The connection moves one pipe at a time, and onwards only. -/
theorem carried_of_onWay {way : Way} {f : Pipe → Option Pipe}
    (hf : ∀ p q, f p = some q → Onward p q) (h : c.onWay way f = some c') : Carried c c' := by
  unfold onWay at h
  cases way with
  | request =>
    obtain ⟨request, hrequest, rfl⟩ := Option.map_eq_some_iff.mp h
    exact ⟨rfl, rfl, hf _ _ hrequest, .refl _, .refl _⟩
  | echo =>
    obtain ⟨echo, hecho, rfl⟩ := Option.map_eq_some_iff.mp h
    exact ⟨rfl, rfl, .refl _, hf _ _ hecho, .refl _⟩
  | verification =>
    obtain ⟨verification, hverification, rfl⟩ := Option.map_eq_some_iff.mp h
    exact ⟨rfl, rfl, .refl _, .refl _, hf _ _ hverification⟩

/-- Bytes that are brought do not change what has been written. -/
theorem onward_of_carry {chunk : Chunk} {p q : Pipe} (h : p.carry chunk = some q) : Onward p q := by
  obtain ⟨hsilent, -, hwritten, hwriter, -⟩ := Pipe.carry_eq_some.mp h
  exact ⟨hwritten, hwriter, fun hsettled => absurd hsilent hsettled⟩

/-- An end that is brought does not change what has been written. -/
theorem onward_of_ends {ending : Ending} {p q : Pipe} (h : p.ends ending = some q) :
    Onward p q := by
  obtain ⟨hsilent, -, -, hwritten, hwriter, -⟩ := Pipe.ends_eq_some.mp h
  exact ⟨hwritten, hwriter, fun hsettled => absurd hsilent hsettled⟩

/-- A step is a move of one of the two sides, or of the connection. -/
theorem step_cases {event : ExchangeEvent} (h : c.step terms window event = some c') :
    (∃ dialEvent, event = .dial dialEvent ∧ DialMove terms window dialEvent c c') ∨
      (∃ listenEvent, event = .listen listenEvent ∧ ListenMove terms window listenEvent c c') ∨
        Carried c c' := by
  cases event with
  | dial event => exact .inl ⟨event, rfl, dialMove_of_step h⟩
  | listen event => exact .inr (.inl ⟨event, rfl, listenMove_of_step h⟩)
  | carry way chunk => exact .inr (.inr (carried_of_onWay (fun _ _ => onward_of_carry) h))
  | ends way ending => exact .inr (.inr (carried_of_onWay (fun _ _ => onward_of_ends) h))

/-- The dialer touches neither the listener nor its pipe, and of its own pipes only the end that
it writes. -/
theorem DialMove.frame (h : DialMove terms window dialEvent c c') :
    c'.listen = c.listen ∧ c'.echo = c.echo ∧ c'.request.link = c.request.link ∧
      c'.verification.link = c.verification.link := by
  cases h with
  | sends _ _ hwrite => exact ⟨rfl, rfl, (Pipe.write_eq_some.mp hwrite).2.2.2.2, rfl⟩
  | verifies _ _ hwrite => exact ⟨rfl, rfl, rfl, (Pipe.write_eq_some.mp hwrite).2.2.2.2⟩
  | opens | sent | compared | returned | opensVerification | verified | acknowledged | fails =>
    exact ⟨rfl, rfl, rfl, rfl⟩

/-- The listener touches neither the dialer nor the dialer's pipes, and of its own pipe only the
end that it writes. -/
theorem ListenMove.frame (h : ListenMove terms window listenEvent c c') :
    c'.dial = c.dial ∧ c'.request = c.request ∧ c'.verification = c.verification ∧
      c'.echo.link = c.echo.link := by
  cases h with
  | echoes _ _ hwrite => exact ⟨rfl, rfl, rfl, (Pipe.write_eq_some.mp hwrite).2.2.2.2⟩
  | accepts | compared | echoed | acknowledged | returned | acceptsVerification | verified
  | fails =>
    exact ⟨rfl, rfl, rfl, rfl⟩

/-- A side that has returned makes no move. -/
theorem DialMove.running (h : DialMove terms window dialEvent c c')
    (result : Except DialError Unit) : c.dial ≠ .returned result := by
  intro hresult
  cases h with
  | opens h | sends h | sent h | compared h | returned h | opensVerification h | verifies h
  | verified h | acknowledged h => cases h.symm.trans hresult
  | fails h => exact h result hresult

/-- A listener that has returned does not move. -/
theorem ListenMove.running (h : ListenMove terms window listenEvent c c')
    (result : Except ListenError Unit) : c.listen ≠ .returned result := by
  intro hresult
  cases h with
  | accepts h | compared h | echoes h | echoed h | acknowledged h | returned h
  | acceptsVerification h | verified h => cases h.symm.trans hresult
  | fails h => exact h result hresult

end Exchange

end IrohExperiment.Roundtrip
