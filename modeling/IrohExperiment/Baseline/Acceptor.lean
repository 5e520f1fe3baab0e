/-
# The baseline acceptor (`baseline/src/bin/acceptor.rs`)

The acceptor's half of the echo: it reads the run-id header, records the id and echoes the
header, and then echoes what it reads until the whole payload has gone back.

`Acceptor.step` is one step of `run` on its stream.  The invariant `Echoes` says what has
been read, recorded and sent back in every stage, for any bytes that come (`echoes_run`);
`acceptParty_lawful` makes the acceptor one end of a pair of streams.
-/
import IrohExperiment.Baseline.Dialer

namespace IrohExperiment.Baseline

open Rust History

/-! ## The state of the acceptor -/

/-- Why the echo has failed. -/
inductive AcceptFailure where
  | acceptBi (error : ErrorKind)
  | headerRead (error : ErrorKind)
  | headerTooLong (length : ℕ)
  | headerEcho (error : ErrorKind)
  | read (error : ErrorKind)
  | endedEarly
  | echoWrite (error : ErrorKind)
  | finish (error : ErrorKind)
  deriving DecidableEq, Repr

/-- `failure_reason` of the acceptor's row; `describe` spells an error. -/
def AcceptFailure.reason (describe : ErrorKind → String) : AcceptFailure → String
  | .acceptBi error => s!"accept_bi failed: {describe error}"
  | .headerRead error => s!"run id header read failed: {describe error}"
  | .headerTooLong length =>
    s!"run id header read failed: run id length {length} exceeds {runIdMaxBytes}"
  | .headerEcho error => s!"run id echo failed: {describe error}"
  | .read error => s!"read failed: {describe error}"
  | .endedEarly => "stream ended early"
  | .echoWrite error => s!"echo write failed: {describe error}"
  | .finish error => s!"send finish failed: {describe error}"

/-- Where the acceptor is: it accepts the stream, reads the header, echoes it, reads some bytes,
echoes them, finishes the stream, or is done. -/
inductive AcceptPhase where
  | accepting
  | readingLength
  | readingId (lenBuf : Bytes)
  | echoingHeader (remaining : Bytes)
  | reading
  | writing (remaining : Bytes) (count : ℕ)
  | finishing
  | done (failure : Option AcceptFailure)
  deriving DecidableEq, Repr

/-- The state of the acceptor; `sent` is what its stream has accepted. -/
structure Acceptor where
  source : Source
  sent : Bytes
  broken : Bool
  runId : Option Text
  echoed : ℕ
  phase : AcceptPhase
  deriving DecidableEq, Repr

/-- What can happen to the acceptor. -/
inductive AcceptEvent where
  | accepted
  | acceptFails (error : ErrorKind)
  | readLength
  | readId
  | accept (count : ℕ)
  | writeFails (error : ErrorKind)
  | read
  | finish
  | finishFails (error : ErrorKind)
  deriving DecidableEq, Repr

namespace Acceptor

def start : Acceptor := ⟨⟨[], .silent⟩, [], false, none, 0, .accepting⟩

def goto (s : Acceptor) (phase : AcceptPhase) : Acceptor := { s with phase := phase }

def fail (s : Acceptor) (failure : AcceptFailure) : Acceptor := s.goto (.done (some failure))

/-- The length of the run id is read. -/
def readLength (s : Acceptor) : Option Acceptor :=
  match (readExact 4).run s.source with
  | .done lenBuf source =>
    let s := { s with source := source }
    if runIdMaxBytes < fromLe32 lenBuf then some (s.fail (.headerTooLong (fromLe32 lenBuf)))
    else some (s.goto (.readingId lenBuf))
  | .failed error => some (s.fail (.headerRead error))
  | .waits => none

/-- The run id is read and recorded. -/
def readId (s : Acceptor) (lenBuf : Bytes) : Option Acceptor :=
  match (readExact (fromLe32 lenBuf)).run s.source with
  | .done idBuf source =>
    some { s with
      source := source
      runId := some (fromUtf8Lossy idBuf)
      phase := .echoingHeader (lenBuf ++ idBuf) }
  | .failed error => some (s.fail (.headerRead error))
  | .waits => none

/-- One turn of the echo loop: a read, or the end of the loop. -/
def read (total : ℕ) (s : Acceptor) : Option Acceptor :=
  if s.echoed < total then
    match (readSome chunkBytes).run s.source with
    | .done (some bytes) source =>
        some { s with source := source, phase := .writing bytes bytes.length }
    | .done none _ => some (s.fail .endedEarly)
    | .failed error => some (s.fail (.read error))
    | .waits => none
  else some (s.goto .finishing)

/-- One step; `none` where the event cannot happen.  `total` is the length of the payload. -/
def step (total : ℕ) (event : AcceptEvent) (s : Acceptor) : Option Acceptor :=
  match event with
  | .accepted => if s.phase = .accepting then some (s.goto .readingLength) else none
  | .acceptFails error => if s.phase = .accepting then some (s.fail (.acceptBi error)) else none
  | .readLength => if s.phase = .readingLength then s.readLength else none
  | .readId =>
    match s.phase with
    | .readingId lenBuf => s.readId lenBuf
    | _ => none
  | .accept count =>
    match s.phase with
    | .echoingHeader remaining =>
      if 0 < count ∧ count ≤ remaining.length then
        some { s with
          sent := s.sent ++ remaining.take count
          phase := if remaining.drop count = [] then .reading
            else .echoingHeader (remaining.drop count) }
      else none
    | .writing remaining n =>
      if 0 < count ∧ count ≤ remaining.length then
        some { s with
          sent := s.sent ++ remaining.take count
          echoed := if remaining.drop count = [] then s.echoed + n else s.echoed
          phase := if remaining.drop count = [] then .reading
            else .writing (remaining.drop count) n }
      else none
    | _ => none
  | .writeFails error =>
    match s.phase with
    | .echoingHeader _ => some ({ s with broken := true }.fail (.headerEcho error))
    | .writing _ _ => some ({ s with broken := true }.fail (.echoWrite error))
    | _ => none
  | .read => if s.phase = .reading then s.read total else none
  | .finish => if s.phase = .finishing then some (s.goto (.done none)) else none
  | .finishFails error =>
    if s.phase = .finishing then some ({ s with broken := true }.fail (.finish error)) else none

/-- How the acceptor has left its stream: dropping it finishes it. -/
def writer (s : Acceptor) : WriterEnd :=
  if s.broken then .broken
  else
    match s.phase with
    | .done _ => .finished
    | _ => .writing

end Acceptor

/-- The acceptor, as a party. -/
def acceptParty (total : ℕ) : Party Acceptor AcceptEvent where
  own := Acceptor.step total
  deliver chunk s := { s with source := ⟨s.source.chunks ++ [chunk], s.source.ending⟩ }
  finish ending s := { s with source := ⟨s.source.chunks, ending⟩ }
  sent s := s.sent
  writer := Acceptor.writer

/-! ## What holds of the acceptor, whatever its peer sends -/

/-- Nothing has been echoed or recorded. -/
structure Mute (a : Attached Acceptor) : Prop where
  runId : a.state.runId = none
  sent : a.state.sent = []
  echoed : a.state.echoed = 0

/-- The run id is recorded under a header, and what has been echoed has been brought. -/
structure Under (a : Attached Acceptor) (header : Bytes) : Prop where
  named : ∃ lenBuf idBuf, header = lenBuf ++ idBuf ∧ lenBuf.length = 4 ∧
    fromLe32 lenBuf = idBuf.length ∧ a.state.runId = some (fromUtf8Lossy idBuf)
  front : header <+: a.link.brought
  sent : a.state.sent <+: a.link.brought

/-- All that has been echoed behind the header has been counted. -/
def Level (a : Attached Acceptor) (header : Bytes) : Prop :=
  a.state.sent.length = header.length + a.state.echoed

/-- What holds of the acceptor, phase by phase. -/
def Stands (total : ℕ) (a : Attached Acceptor) : Prop :=
  match a.state.phase with
  | .accepting | .readingLength => Mute a ∧ a.link.brought = a.state.source.bytes
  | .readingId lenBuf =>
      Mute a ∧ lenBuf.length = 4 ∧ a.link.brought = lenBuf ++ a.state.source.bytes
  | .done (some (.acceptBi _)) | .done (some (.headerRead _)) => Mute a
  | .done (some (.headerTooLong length)) => Mute a ∧ runIdMaxBytes < length ∧
      ∃ lenBuf, lenBuf <+: a.link.brought ∧ lenBuf.length = 4 ∧ fromLe32 lenBuf = length
  | .echoingHeader remaining => ∃ header, Under a header ∧ remaining ≠ [] ∧
      a.state.sent ++ remaining = header ∧ a.state.echoed = 0 ∧
      a.link.brought = header ++ a.state.source.bytes
  | .done (some (.headerEcho _)) => ∃ header, Under a header ∧ a.state.echoed = 0 ∧
      a.state.sent.length < header.length
  | .reading => ∃ header, Under a header ∧ Level a header ∧
      a.link.brought = a.state.sent ++ a.state.source.bytes
  | .writing remaining n => ∃ header, Under a header ∧ remaining ≠ [] ∧
      a.state.sent.length + remaining.length = header.length + a.state.echoed + n ∧
      remaining.length ≤ n ∧ n ≤ chunkBytes ∧
        a.link.brought = a.state.sent ++ (remaining ++ a.state.source.bytes)
  | .done (some (.echoWrite _)) => ∃ header, Under a header ∧
      header.length + a.state.echoed ≤ a.state.sent.length ∧
      a.state.sent.length ≤ header.length + a.state.echoed + chunkBytes ∧
      a.state.sent.length < a.link.brought.length
  | .done (some (.read _)) => ∃ header, Under a header ∧ Level a header ∧ a.state.echoed < total
  | .done (some .endedEarly) => ∃ header, Under a header ∧ Level a header ∧
      a.state.echoed < total ∧ a.link.ending = .finished ∧ a.link.brought = a.state.sent
  | .finishing | .done none | .done (some (.finish _)) =>
    ∃ header, Under a header ∧ Level a header ∧ total ≤ a.state.echoed

/-- What holds of the acceptor and its incoming stream. -/
structure Echoes (total : ℕ) (a : Attached Acceptor) : Prop where
  ending : a.state.source.ending = a.link.ending
  stands : Stands total a

variable {total : ℕ} {a : Attached Acceptor} {header : Bytes}

theorem echoes_start : Echoes total ⟨.start, .idle⟩ := ⟨rfl, ⟨rfl, rfl, rfl⟩, rfl⟩

theorem Echoes.readLength (h : Echoes total a) (hphase : a.state.phase = .readingLength)
    {s : Acceptor} (hread : a.state.readLength = some s) : Echoes total ⟨s, a.link⟩ := by
  have hstands := h.stands
  unfold Stands at hstands
  rw [hphase] at hstands
  obtain ⟨⟨hrunId, hsent, hechoed⟩, hbrought⟩ := hstands
  unfold Acceptor.readLength at hread
  cases hrun : (readExact 4).run a.state.source with
  | done lenBuf source =>
    obtain ⟨hlen, hbytes, hending⟩ := readExact_eq_done hrun
    rw [hbytes] at hbrought
    simp only [hrun] at hread
    split_ifs at hread with hlong <;> obtain rfl := Option.some.inj hread
    · exact ⟨hending.trans h.ending, ⟨hrunId, hsent, hechoed⟩, hlong, lenBuf, ⟨_, hbrought.symm⟩,
        hlen, rfl⟩
    · exact ⟨hending.trans h.ending, ⟨hrunId, hsent, hechoed⟩, hlen, hbrought⟩
  | failed error =>
    simp only [hrun] at hread
    obtain rfl := Option.some.inj hread
    exact ⟨h.ending, hrunId, hsent, hechoed⟩
  | waits =>
    simp only [hrun] at hread
    cases hread

theorem Echoes.readId (h : Echoes total a) {lenBuf : Bytes}
    (hphase : a.state.phase = .readingId lenBuf) {s : Acceptor}
    (hread : a.state.readId lenBuf = some s) : Echoes total ⟨s, a.link⟩ := by
  have hstands := h.stands
  unfold Stands at hstands
  rw [hphase] at hstands
  obtain ⟨⟨hrunId, hsent, hechoed⟩, hfour, hbrought⟩ := hstands
  unfold Acceptor.readId at hread
  cases hrun : (readExact (fromLe32 lenBuf)).run a.state.source with
  | done idBuf source =>
    obtain ⟨hlen, hbytes, hending⟩ := readExact_eq_done hrun
    rw [hbytes, ← List.append_assoc] at hbrought
    simp only [hrun] at hread
    obtain rfl := Option.some.inj hread
    refine ⟨hending.trans h.ending, lenBuf ++ idBuf,
      ⟨⟨lenBuf, idBuf, rfl, hfour, hlen.symm, rfl⟩, ⟨_, hbrought.symm⟩, ?_⟩, ?_, ?_,
      hechoed, hbrought⟩
    · show a.state.sent <+: a.link.brought
      rw [hsent]
      exact List.nil_prefix
    · intro hnil
      have := congrArg List.length hnil
      rw [List.length_append, hfour, List.length_nil] at this
      omega
    · show a.state.sent ++ _ = _
      rw [hsent, List.nil_append]
  | failed error =>
    simp only [hrun] at hread
    obtain rfl := Option.some.inj hread
    exact ⟨h.ending, hrunId, hsent, hechoed⟩
  | waits =>
    simp only [hrun] at hread
    cases hread

/-- What has been echoed grows into what has been brought. -/
theorem Under.send (h : Under a header) {part : Bytes}
    (hpart : a.state.sent ++ part <+: a.link.brought) (echoed : ℕ) (phase : AcceptPhase) :
    Under ⟨{ a.state with sent := a.state.sent ++ part, echoed := echoed, phase := phase }, a.link⟩
      header :=
  ⟨h.named, h.front, hpart⟩

theorem Echoes.acceptHeader (h : Echoes total a) {remaining : Bytes}
    (hphase : a.state.phase = .echoingHeader remaining) (count : ℕ) :
    Echoes total ⟨{ a.state with
      sent := a.state.sent ++ remaining.take count
      phase := if remaining.drop count = [] then .reading
      else .echoingHeader (remaining.drop count) }, a.link⟩ := by
  have hstands := h.stands
  unfold Stands at hstands
  rw [hphase] at hstands
  obtain ⟨header, hunder, -, hall, hechoed, hbrought⟩ := hstands
  have hsplit : a.state.sent ++ remaining.take count ++ remaining.drop count = header := by
    rw [List.append_assoc, List.take_append_drop, hall]
  have hpart : a.state.sent ++ remaining.take count <+: a.link.brought :=
    (List.prefix_append _ _).trans (hsplit ▸ hunder.front)
  refine ⟨h.ending, ?_⟩
  split_ifs with hleft
  · rw [hleft, List.append_nil] at hsplit
    refine ⟨header, hunder.send hpart _ _, ?_, ?_⟩
    · show (a.state.sent ++ remaining.take count).length = header.length + a.state.echoed
      rw [hsplit, hechoed, Nat.add_zero]
    · show a.link.brought = (a.state.sent ++ remaining.take count) ++ a.state.source.bytes
      rw [hsplit, hbrought]
  · exact ⟨header, hunder.send hpart _ _, hleft, hsplit, hechoed, hbrought⟩

theorem Echoes.accept (h : Echoes total a) {remaining : Bytes} {n : ℕ}
    (hphase : a.state.phase = .writing remaining n) (count : ℕ) :
    Echoes total ⟨{ a.state with
      sent := a.state.sent ++ remaining.take count
      echoed := if remaining.drop count = [] then a.state.echoed + n else a.state.echoed
      phase := if remaining.drop count = [] then .reading else .writing (remaining.drop count) n },
      a.link⟩ := by
  have hstands := h.stands
  unfold Stands at hstands
  rw [hphase] at hstands
  obtain ⟨header, hunder, -, hcount, hle, hchunk, hbrought⟩ := hstands
  have hsplit : a.link.brought =
      a.state.sent ++ remaining.take count ++ (remaining.drop count ++ a.state.source.bytes) := by
    rw [hbrought, List.append_assoc, ← List.append_assoc (remaining.take count),
      List.take_append_drop]
  have hpart : a.state.sent ++ remaining.take count <+: a.link.brought := ⟨_, hsplit.symm⟩
  have hlen := congrArg List.length (List.take_append_drop count remaining)
  rw [List.length_append] at hlen
  refine ⟨h.ending, ?_⟩
  split_ifs with hleft
  · rw [hleft] at hsplit hlen
    refine ⟨header, hunder.send hpart _ _, ?_, hsplit⟩
    show (a.state.sent ++ remaining.take count).length = header.length + (a.state.echoed + n)
    rw [List.length_append]
    simp only [List.length_nil] at hlen
    omega
  · refine ⟨header, hunder.send hpart _ _, hleft, ?_, ?_, hchunk, hsplit⟩
    · show (a.state.sent ++ remaining.take count).length + (remaining.drop count).length =
        header.length + a.state.echoed + n
      rw [List.length_append]
      omega
    · omega

theorem Echoes.read (h : Echoes total a) (hphase : a.state.phase = .reading) {s : Acceptor}
    (hread : a.state.read total = some s) : Echoes total ⟨s, a.link⟩ := by
  have hstands := h.stands
  unfold Stands at hstands
  rw [hphase] at hstands
  obtain ⟨header, hunder, hlevel, hbrought⟩ := hstands
  unfold Acceptor.read at hread
  split_ifs at hread with hmore
  · split at hread
    · next bytes source hrun =>
      obtain ⟨hending, hbytes, hnonempty, hchunk⟩ := readSome_eq_done hrun
      obtain rfl := Option.some.inj hread
      refine ⟨hending.trans h.ending, header, ⟨hunder.named, hunder.front, hunder.sent⟩,
        hnonempty (by decide), ?_, Nat.le_refl _, hchunk, by rw [hbrought, hbytes]⟩
      show a.state.sent.length + bytes.length = header.length + a.state.echoed + bytes.length
      rw [hlevel]
    · next source hrun =>
      obtain ⟨-, hbytes, hending, -⟩ := readSome_eq_done hrun
      obtain rfl := Option.some.inj hread
      refine ⟨h.ending, header, ⟨hunder.named, hunder.front, hunder.sent⟩, hlevel, hmore,
        h.ending.symm.trans hending, ?_⟩
      rw [hbrought, hbytes, List.append_nil]
      rfl
    · obtain rfl := Option.some.inj hread
      exact ⟨h.ending, header, ⟨hunder.named, hunder.front, hunder.sent⟩, hlevel, hmore⟩
    · cases hread
  · obtain rfl := Option.some.inj hread
    exact ⟨h.ending, header, ⟨hunder.named, hunder.front, hunder.sent⟩, hlevel,
      Nat.le_of_not_lt hmore⟩

/-- A write fails while something is still under way. -/
theorem Echoes.writeFails (h : Echoes total a) (error : ErrorKind) {s : Acceptor}
    (hstep : Acceptor.step total (.writeFails error) a.state = some s) :
    Echoes total ⟨s, a.link⟩ := by
  have hstands := h.stands
  unfold Stands at hstands
  unfold Acceptor.step at hstep
  cases hphase : a.state.phase with
  | echoingHeader remaining =>
    rw [hphase] at hstands
    simp only [hphase] at hstep
    obtain rfl := Option.some.inj hstep
    obtain ⟨header, hunder, hsome, hall, hechoed, -⟩ := hstands
    refine ⟨h.ending, header, ⟨hunder.named, hunder.front, hunder.sent⟩, hechoed, ?_⟩
    show a.state.sent.length < header.length
    have hlen := congrArg List.length hall
    have hpos := List.length_pos_iff.mpr hsome
    rw [List.length_append] at hlen
    omega
  | writing remaining n =>
    rw [hphase] at hstands
    simp only [hphase] at hstep
    obtain rfl := Option.some.inj hstep
    obtain ⟨header, hunder, hsome, hcount, hle, hchunk, hbrought⟩ := hstands
    have hpos := List.length_pos_iff.mpr hsome
    refine ⟨h.ending, header, ⟨hunder.named, hunder.front, hunder.sent⟩, ?_, ?_, ?_⟩
    · show header.length + a.state.echoed ≤ a.state.sent.length
      omega
    · show a.state.sent.length ≤ header.length + a.state.echoed + chunkBytes
      omega
    · show a.state.sent.length < a.link.brought.length
      rw [hbrought, List.length_append, List.length_append]
      omega
  | _ =>
    simp only [hphase] at hstep
    cases hstep

/-- One step of the acceptor. -/
theorem Echoes.own (h : Echoes total a) {event : AcceptEvent} {s : Acceptor}
    (hstep : Acceptor.step total event a.state = some s) : Echoes total ⟨s, a.link⟩ := by
  have hstands := h.stands
  unfold Stands at hstands
  cases event with
  | accepted =>
    obtain ⟨hphase, rfl⟩ := of_guarded hstep
    rw [hphase] at hstands
    exact ⟨h.ending, ⟨hstands.1.runId, hstands.1.sent, hstands.1.echoed⟩, hstands.2⟩
  | acceptFails error =>
    obtain ⟨hphase, rfl⟩ := of_guarded hstep
    rw [hphase] at hstands
    exact ⟨h.ending, hstands.1.runId, hstands.1.sent, hstands.1.echoed⟩
  | readLength =>
    unfold Acceptor.step at hstep
    simp only at hstep
    split_ifs at hstep with hphase
    exact h.readLength hphase hstep
  | readId =>
    unfold Acceptor.step at hstep
    simp only at hstep
    split at hstep
    · next hphase => exact h.readId hphase hstep
    · cases hstep
  | accept count =>
    unfold Acceptor.step at hstep
    simp only at hstep
    split at hstep
    · next hphase =>
      obtain ⟨-, rfl⟩ := of_guarded hstep
      exact h.acceptHeader hphase count
    · next hphase =>
      obtain ⟨-, rfl⟩ := of_guarded hstep
      exact h.accept hphase count
    · cases hstep
  | writeFails error => exact h.writeFails error hstep
  | read =>
    unfold Acceptor.step at hstep
    simp only at hstep
    split_ifs at hstep with hphase
    exact h.read hphase hstep
  | finish =>
    obtain ⟨hphase, rfl⟩ := of_guarded hstep
    rw [hphase] at hstands
    obtain ⟨header, hunder, hlevel, henough⟩ := hstands
    exact ⟨h.ending, header, ⟨hunder.named, hunder.front, hunder.sent⟩, hlevel, henough⟩
  | finishFails error =>
    obtain ⟨hphase, rfl⟩ := of_guarded hstep
    rw [hphase] at hstands
    obtain ⟨header, hunder, hlevel, henough⟩ := hstands
    exact ⟨h.ending, header, ⟨hunder.named, hunder.front, hunder.sent⟩, hlevel, henough⟩

/-- What the transport brings leaves the acceptor where it stands. -/
theorem Stands.carried (h : Stands total a) (hsilent : a.link.ending = .silent) {source : Source}
    {link : Link} (hmore : a.link.brought <+: link.brought)
    (hbytes : ∀ front, a.link.brought = front ++ a.state.source.bytes →
      link.brought = front ++ source.bytes) :
    Stands total ⟨{ a.state with source := source }, link⟩ := by
  have hunder : ∀ header, Under a header → Under ⟨{ a.state with source := source }, link⟩ header :=
    fun header hu => ⟨hu.named, hu.front.trans hmore, hu.sent.trans hmore⟩
  have hmute : Mute a → Mute ⟨{ a.state with source := source }, link⟩ :=
    fun hm => ⟨hm.runId, hm.sent, hm.echoed⟩
  obtain ⟨⟨src, sent, broken, runId, echoed, phase⟩, incoming⟩ := a
  cases phase with
  | accepting | readingLength => exact ⟨hmute h.1, hbytes [] h.2⟩
  | readingId lenBuf =>
    obtain ⟨hm, hfour, hbrought⟩ := h
    exact ⟨hmute hm, hfour, hbytes lenBuf hbrought⟩
  | echoingHeader remaining =>
    obtain ⟨header, hu, hsome, hall, hechoed, hbrought⟩ := h
    exact ⟨header, hunder header hu, hsome, hall, hechoed, hbytes header hbrought⟩
  | reading =>
    obtain ⟨header, hu, hlevel, hbrought⟩ := h
    exact ⟨header, hunder header hu, hlevel, hbytes sent hbrought⟩
  | writing remaining n =>
    obtain ⟨header, hu, hsome, hcount, hle, hchunk, hbrought⟩ := h
    refine ⟨header, hunder header hu, hsome, hcount, hle, hchunk, ?_⟩
    have := hbytes (sent ++ remaining) (hbrought.trans (List.append_assoc _ _ _).symm)
    exact this.trans (List.append_assoc _ _ _)
  | finishing =>
    obtain ⟨header, hu, hrest⟩ := h
    exact ⟨header, hunder header hu, hrest⟩
  | done failure =>
    cases failure with
    | none =>
      obtain ⟨header, hu, hrest⟩ := h
      exact ⟨header, hunder header hu, hrest⟩
    | some failure =>
      cases failure with
      | acceptBi | headerRead => exact hmute h
      | headerTooLong length =>
        obtain ⟨hm, hlong, lenBuf, hfront, hrest⟩ := h
        exact ⟨hmute hm, hlong, lenBuf, hfront.trans hmore, hrest⟩
      | headerEcho | read | finish =>
        obtain ⟨header, hu, hrest⟩ := h
        exact ⟨header, hunder header hu, hrest⟩
      | echoWrite =>
        obtain ⟨header, hu, hle, hchunk, hlt⟩ := h
        exact ⟨header, hunder header hu, hle, hchunk, hlt.trans_le hmore.length_le⟩
      | endedEarly =>
        obtain ⟨header, hu, hlevel, hshort, hfinished, -⟩ := h
        cases hsilent.symm.trans hfinished

/-- It holds after every run, whatever the peer sends. -/
theorem echoes_run {moves : List (Move AcceptEvent)}
    (hrun : run (acceptParty total).step ⟨.start, .idle⟩ moves = some a) : Echoes total a := by
  refine run_induct (P := fun _ a => Echoes total a) echoes_start ?_ hrun
  rintro moves a move ⟨s, link⟩ - h hstep
  cases move with
  | own event =>
    obtain ⟨hown, rfl⟩ := Party.own_of_step hstep
    exact h.own hown
  | carry chunk =>
    obtain ⟨hsilent, heq⟩ := Party.carry_of_step hstep
    rw [heq]
    refine ⟨h.ending.trans hsilent, h.stands.carried hsilent (List.prefix_append _ _) ?_⟩
    intro front hfront
    rw [hfront]
    simp [Source.bytes]
  | finish ending =>
    obtain ⟨hsilent, heq⟩ := Party.finish_of_step hstep
    rw [heq]
    exact ⟨rfl, h.stands.carried hsilent List.prefix_rfl fun _ => id⟩

/-! ## What the acceptor sends -/

theorem Acceptor.readLength_kept {s s' : Acceptor} (hread : s.readLength = some s') :
    s'.sent = s.sent := by
  unfold Acceptor.readLength at hread
  split at hread
  · simp only at hread
    split_ifs at hread <;> obtain rfl := Option.some.inj hread <;> rfl
  · obtain rfl := Option.some.inj hread
    rfl
  · cases hread

theorem Acceptor.readId_kept {s s' : Acceptor} {lenBuf : Bytes}
    (hread : s.readId lenBuf = some s') :
    s'.sent = s.sent := by
  unfold Acceptor.readId at hread
  split at hread
  · obtain rfl := Option.some.inj hread
    rfl
  · obtain rfl := Option.some.inj hread
    rfl
  · cases hread

theorem Acceptor.read_kept {s s' : Acceptor} (hread : s.read total = some s') :
    s'.sent = s.sent := by
  unfold Acceptor.read at hread
  split_ifs at hread
  · split at hread
    · obtain rfl := Option.some.inj hread
      rfl
    · obtain rfl := Option.some.inj hread
      rfl
    · obtain rfl := Option.some.inj hread
      rfl
    · cases hread
  · obtain rfl := Option.some.inj hread
    rfl

theorem Acceptor.step_sent {event : AcceptEvent} {s s' : Acceptor}
    (hstep : Acceptor.step total event s = some s') : s.sent <+: s'.sent := by
  unfold Acceptor.step at hstep
  cases event with
  | accepted | acceptFails | finish | finishFails =>
    obtain ⟨-, rfl⟩ := of_guarded hstep
    exact List.prefix_rfl
  | readLength =>
    simp only at hstep
    split_ifs at hstep
    rw [Acceptor.readLength_kept hstep]
  | readId =>
    simp only at hstep
    split at hstep
    · rw [Acceptor.readId_kept hstep]
    · cases hstep
  | accept count =>
    simp only at hstep
    split at hstep
    · obtain ⟨-, rfl⟩ := of_guarded hstep
      exact List.prefix_append _ _
    · obtain ⟨-, rfl⟩ := of_guarded hstep
      exact List.prefix_append _ _
    · cases hstep
  | writeFails error =>
    simp only at hstep
    split at hstep <;> cases hstep <;> exact List.prefix_rfl
  | read =>
    simp only at hstep
    split_ifs at hstep
    rw [Acceptor.read_kept hstep]

/-- Nothing happens to an acceptor that is done. -/
theorem Acceptor.step_done {event : AcceptEvent} {s : Acceptor} {failure : Option AcceptFailure}
    (hphase : s.phase = .done failure) : Acceptor.step total event s = none := by
  cases event <;> simp [Acceptor.step, hphase]

theorem Acceptor.step_finished {event : AcceptEvent} {s s' : Acceptor}
    (hstep : Acceptor.step total event s = some s') : s.writer ≠ .finished := by
  intro hfinished
  unfold Acceptor.writer at hfinished
  split_ifs at hfinished
  split at hfinished
  · next hphase =>
    rw [Acceptor.step_done hphase] at hstep
    cases hstep
  · cases hfinished

theorem acceptParty_lawful (total : ℕ) : (acceptParty total).Lawful where
  own_sent := Acceptor.step_sent
  own_finished hstep hfinished := absurd hfinished (Acceptor.step_finished hstep)
  deliver_sent _ _ := rfl
  deliver_writer _ _ := rfl
  finish_sent _ _ := rfl
  finish_writer _ _ := rfl

end IrohExperiment.Baseline
