/-
# The two halves of a media session (`media-separation/src/lib.rs`)

`run_sender_session` and `run_receiver_session`, each on one bidirectional stream: the
handshake with the session token, the synthetic stream, and the end of the monitoring.

The stages of both functions, with every error that ends them and every deadline as an event
of its own, and what either half returns (`SessionOutcome`).  What holds of them is proved
in `Media.SenderSide`, `Media.ReceiverSide` and `Media.EndToEnd`.
-/
import IrohExperiment.Media.Framing
import IrohExperiment.Media.Receiver
import IrohExperiment.Media.Sender
import IrohExperiment.Rust.Parties

namespace IrohExperiment.Media

open Rust History

/-! ## What a session comes to -/

inductive MediaRole where
  | receiver
  | sender
  deriving DecidableEq, Repr

/-- The outcome of one full media session. -/
structure SessionOutcome where
  role : MediaRole
  directConnectionSuccess : Bool
  timeToDirectMs : Option ℕ
  stream : StreamStats
  relayMediaBytes : Option ℕ
  everRelayPaths : ℕ
  receiverConfirmed : Bool
  deriving DecidableEq, Repr

/-- The errors of a session, once the candidate has been validated. -/
inductive SessionError where
  | handshake (error : AnyError)
  | timedOut
  | send (error : SendError)
  | receive (error : ReceiveError)
  deriving DecidableEq, Repr

/-- The text of an error of the session's own. -/
def SessionError.text : SessionError → Option String
  | .timedOut => some "media handshake timed out after 30s"
  | .send error => error.text
  | .receive error => some error.text
  | .handshake _ => none

/-- The outcome at the end of the monitoring. -/
def outcome (role : MediaRole) (startedUnixMs : ℕ) (gate : MediaGate) (everRelayPaths : ℕ)
    (confirmed : Bool) (stats : StreamStats) : SessionOutcome where
  role := role
  directConnectionSuccess := 0 < stats.frames
  timeToDirectMs := gate.directReadyAtUnixMs.map (· - startedUnixMs)
  stream := stats
  relayMediaBytes := none
  everRelayPaths := everRelayPaths
  receiverConfirmed := confirmed

/-- The answer to a request with the right token. -/
def readyAnswer : Bytes := utf8 "ready".toList

/-- A signal that says that a relay path is there. -/
def PathSignal.hasRelay : PathSignal → Bool
  | .snapshot _ hasRelay _ => hasRelay
  | .connectionClosed => false

/-- The bytes that come with a chunk or an ending. -/
def Source.push (source : Source) (chunk : Chunk) : Source :=
  ⟨source.chunks ++ [chunk], source.ending⟩

def Source.close (source : Source) (ending : Ending) : Source := ⟨source.chunks, ending⟩

@[simp] theorem Source.push_bytes (source : Source) (chunk : Chunk) :
    (Source.push source chunk).bytes = source.bytes ++ chunk.bytes := by
  simp [Source.push, Source.bytes]

@[simp] theorem Source.close_bytes (source : Source) (ending : Ending) :
    (Source.close source ending).bytes = source.bytes := rfl

/-! ## The sender -/

/-- Where `run_sender_session` is: it opens the stream, writes the frame with the token, waits
for the answer, streams, waits for the receiver to close its half, ends the monitoring, or has
returned. -/
inductive SenderStage where
  | opening
  | presenting (remaining : Bytes)
  | awaitingReady
  | streaming
  | confirming (stats : StreamStats)
  | stopping (stats : StreamStats) (confirmed : Bool)
  | returned (result : Except SessionError SessionOutcome)
  deriving DecidableEq, Repr

/-- The state of `run_sender_session`; `sent` is what its stream has accepted, `broken` says
that a write has failed. -/
structure SenderSession where
  source : Source
  sending : Sending
  everRelayPaths : ℕ
  sent : Bytes
  broken : Bool
  stage : SenderStage
  deriving DecidableEq, Repr

/-- What can happen: an await ends, a bounded wait is over, or the monitor has looked. -/
inductive SenderEvent where
  | opened
  | openFails (error : AnyError)
  | accept (count : ℕ)
  | presentFails (kind : ErrorKind)
  | ready
  | timeout
  | send (event : SendEvent)
  | confirm
  | unconfirmed
  | monitor (relays : ℕ) (signal : PathSignal) (now : ℕ)
  | monitored
  deriving DecidableEq, Repr

/-- The event is one of the monitor, which feeds the gate itself. -/
def SendEvent.isGate : SendEvent → Bool
  | .signal _ _ => true
  | _ => false

/-- A write or a flush has failed. -/
def SendEvent.isFailure : SendEvent → Bool
  | .writeFails _ | .flushFails _ => true
  | _ => false

namespace SenderSession

/-- `run_sender_session` once the candidate has been validated. -/
def start : SenderSession := ⟨⟨[], .silent⟩, .start .new 0, 0, [], false, .opening⟩

def goto (s : SenderSession) (stage : SenderStage) : SenderSession := { s with stage := stage }

def fail (s : SenderSession) (error : SessionError) : SenderSession :=
  s.goto (.returned (.error error))

/-- The stage of a handshake that is still under way. -/
def handshaking (s : SenderSession) : Bool :=
  match s.stage with
  | .opening | .presenting _ | .awaitingReady => true
  | _ => false

/-- The stream is there: `write_frame` starts on the token. -/
def opened (token : Bytes) (s : SenderSession) : SenderSession :=
  if token.length < 2 ^ 32 then s.goto (.presenting (frame token))
  else s.fail (.handshake
    (.context "send media handshake token" (.context "frame too large" .tryFromInt)))

/-- The stream accepts some bytes of the token's frame. -/
def accept (s : SenderSession) (remaining : Bytes) (count : ℕ) : SenderSession :=
  { s with
    sent := s.sent ++ remaining.take count
    stage := if remaining.drop count = [] then .awaitingReady
      else .presenting (remaining.drop count) }

/-- The answer is read. -/
def ready (s : SenderSession) : Option SenderSession :=
  match readFrame.run s.source with
  | .done answer source =>
    if answer = readyAnswer then some { s with source := source, stage := .streaming }
    else some ({ s with source := source }.fail (.handshake (.message "receiver not ready")))
  | .failed error => some (s.fail (.handshake (.context "read ready" error)))
  | .waits => none

/-- `send_synthetic` has gone on; the session goes on behind it. -/
def follow (s : SenderSession) (event : SendEvent) (sending : Sending) : SenderSession :=
  { s with
    sending := sending
    sent := s.sent ++ sending.wire.drop s.sending.wire.length
    broken := s.broken || event.isFailure
    stage :=
      match sending.phase with
      | .returned (.ok stats) => .confirming stats
      | .returned (.error error) => .returned (.error (.send error))
      | _ => .streaming }

/-- The monitor has counted relay paths and fed the gate. -/
def monitor (s : SenderSession) (relays : ℕ) (signal : PathSignal) (now : ℕ) : SenderSession :=
  { s with
    sending := { s.sending with gate := s.sending.gate.apply signal now }
    everRelayPaths := s.everRelayPaths + relays }

/-- One step; `none` where the event cannot happen. -/
def step (token : Bytes) (payloadBytes : UInt16) (startedUnixMs : ℕ) (event : SenderEvent)
    (s : SenderSession) : Option SenderSession :=
  match event with
  | .opened => if s.stage = .opening then some (s.opened token) else none
  | .openFails error =>
    if s.stage = .opening then some (s.fail (.handshake (.context "open bi" error))) else none
  | .accept count =>
    match s.stage with
    | .presenting remaining =>
      if 0 < count ∧ count ≤ remaining.length then some (s.accept remaining count) else none
    | _ => none
  | .presentFails kind =>
    match s.stage with
    | .presenting _ =>
      some ({ s with broken := true }.fail
        (.handshake (.context "send media handshake token" (.io kind))))
    | _ => none
  | .ready => if s.stage = .awaitingReady then s.ready else none
  | .timeout => if s.handshaking then some (s.fail .timedOut) else none
  | .send event =>
    if s.stage = .streaming ∧ event.isGate = false then
      (s.sending.step payloadBytes event).map (s.follow event)
    else none
  | .confirm =>
    match s.stage with
    | .confirming stats =>
      match (readToEnd (64 * 1024)).run s.source with
      | .done _ source => some { s with source := source, stage := .stopping stats true }
      | .failed _ => some (s.goto (.stopping stats false))
      | .waits => none
    | _ => none
  | .unconfirmed =>
    match s.stage with
    | .confirming stats => some (s.goto (.stopping stats false))
    | _ => none
  | .monitor relays signal now =>
    match s.stage with
    | .returned _ => none
    | _ => if relays = 0 ∨ signal.hasRelay then some (s.monitor relays signal now) else none
  | .monitored =>
    match s.stage with
    | .stopping stats confirmed =>
      some (s.goto (.returned (.ok
        (outcome .sender startedUnixMs s.sending.gate s.everRelayPaths confirmed stats))))
    | _ => none

/-- How the sender has left its stream: `shutdown`, or dropping it, finishes it. -/
def writer (s : SenderSession) : WriterEnd :=
  if s.broken then .broken
  else
    match s.stage with
    | .opening | .presenting _ | .awaitingReady | .streaming => .writing
    | _ => .finished

end SenderSession

/-- The sender's half of a session, as a party. -/
def senderParty (token : Bytes) (payloadBytes : UInt16) (startedUnixMs : ℕ) :
    Party SenderSession SenderEvent where
  own := SenderSession.step token payloadBytes startedUnixMs
  deliver chunk s := { s with source := Source.push s.source chunk }
  finish ending s := { s with source := Source.close s.source ending }
  sent s := s.sent
  writer := SenderSession.writer

/-! ## The receiver -/

/-- Where `run_receiver_session` is: it accepts the stream, reads the request, writes the
answer, receives the stream, closes its half, ends the monitoring, or has returned. -/
inductive ReceiverStage where
  | accepting
  | reading
  | answering (remaining : Bytes)
  | receiving
  | closing (stats : StreamStats)
  | stopping (stats : StreamStats)
  | returned (result : Except SessionError SessionOutcome)
  deriving DecidableEq, Repr

/-- The state of `run_receiver_session`; the handshake reads from the stream of `reception`,
on which `receive_synthetic` starts only behind it. -/
structure ReceiverSession where
  reception : Reception
  everRelayPaths : ℕ
  sent : Bytes
  broken : Bool
  stage : ReceiverStage
  deriving DecidableEq, Repr

/-- What can happen: an await ends, a bounded wait is over, or the monitor has looked. -/
inductive ReceiverEvent where
  | accepted
  | acceptFails (error : AnyError)
  | request
  | accept (count : ℕ)
  | answerFails (kind : ErrorKind)
  | timeout
  | receive (event : ReceiveEvent)
  | shutdown
  | monitor (relays : ℕ) (signal : PathSignal) (now : ℕ)
  | monitored
  deriving DecidableEq, Repr

/-- The event is one of the transport or of the monitor. -/
def ReceiveEvent.isOutside : ReceiveEvent → Bool
  | .deliver _ | .finish _ | .signal _ _ => true
  | _ => false

namespace ReceiverSession

/-- `run_receiver_session` as it starts. -/
def start : ReceiverSession := ⟨.start .new 0, 0, [], false, .accepting⟩

def goto (s : ReceiverSession) (stage : ReceiverStage) : ReceiverSession :=
  { s with stage := stage }

def fail (s : ReceiverSession) (error : SessionError) : ReceiverSession :=
  s.goto (.returned (.error error))

/-- The stage of a handshake that is still under way. -/
def handshaking (s : ReceiverSession) : Bool :=
  match s.stage with
  | .accepting | .reading | .answering _ => true
  | _ => false

/-- The request is read: it has to be the token. -/
def request (expectedToken : Bytes) (s : ReceiverSession) : Option ReceiverSession :=
  match readFrame.run s.reception.source with
  | .done req source =>
    let s := { s with reception := { s.reception with source := source } }
    if req = expectedToken then some (s.goto (.answering (frame readyAnswer)))
    else some (s.fail (.handshake (.message "media handshake token mismatch")))
  | .failed error => some (s.fail (.handshake (.context "read media request" error)))
  | .waits => none

/-- The stream accepts some bytes of the answer. -/
def accept (s : ReceiverSession) (remaining : Bytes) (count : ℕ) : ReceiverSession :=
  { s with
    sent := s.sent ++ remaining.take count
    stage := if remaining.drop count = [] then .receiving else .answering (remaining.drop count) }

/-- `receive_synthetic` has gone on; the session goes on behind it. -/
def follow (s : ReceiverSession) (reception : Reception) : ReceiverSession :=
  { s with
    reception := reception
    stage :=
      match reception.phase with
      | .returned (.ok (stats, _)) => .closing stats
      | .returned (.error error) => .returned (.error (.receive error))
      | _ => .receiving }

/-- The monitor has counted relay paths and fed the gate. -/
def monitor (s : ReceiverSession) (relays : ℕ) (signal : PathSignal) (now : ℕ) : ReceiverSession :=
  { s with
    reception := { s.reception with gate := s.reception.gate.apply signal now }
    everRelayPaths := s.everRelayPaths + relays }

/-- One step; `none` where the event cannot happen. -/
def step (expectedToken : Bytes) (startedUnixMs : ℕ) (event : ReceiverEvent)
    (s : ReceiverSession) : Option ReceiverSession :=
  match event with
  | .accepted => if s.stage = .accepting then some (s.goto .reading) else none
  | .acceptFails error =>
    if s.stage = .accepting then some (s.fail (.handshake (.context "accept bi" error))) else none
  | .request => if s.stage = .reading then s.request expectedToken else none
  | .accept count =>
    match s.stage with
    | .answering remaining =>
      if 0 < count ∧ count ≤ remaining.length then some (s.accept remaining count) else none
    | _ => none
  | .answerFails kind =>
    match s.stage with
    | .answering _ => some ({ s with broken := true }.fail (.handshake (.io kind)))
    | _ => none
  | .timeout => if s.handshaking then some (s.fail .timedOut) else none
  | .receive event =>
    if s.stage = .receiving ∧ event.isOutside = false then
      (s.reception.step event).map s.follow
    else none
  | .shutdown =>
    match s.stage with
    | .closing stats => some (s.goto (.stopping stats))
    | _ => none
  | .monitor relays signal now =>
    match s.stage with
    | .returned _ => none
    | _ => if relays = 0 ∨ signal.hasRelay then some (s.monitor relays signal now) else none
  | .monitored =>
    match s.stage with
    | .stopping stats =>
      some (s.goto (.returned (.ok
        (outcome .receiver startedUnixMs s.reception.gate s.everRelayPaths true stats))))
    | _ => none

/-- How the receiver has left its stream: `shutdown`, or dropping it, finishes it. -/
def writer (s : ReceiverSession) : WriterEnd :=
  if s.broken then .broken
  else
    match s.stage with
    | .accepting | .reading | .answering _ | .receiving | .closing _ => .writing
    | _ => .finished

end ReceiverSession

/-- The receiver's half of a session, as a party. -/
def receiverParty (expectedToken : Bytes) (startedUnixMs : ℕ) :
    Party ReceiverSession ReceiverEvent where
  own := ReceiverSession.step expectedToken startedUnixMs
  deliver chunk s := {
    s with reception := { s.reception with source := Source.push s.reception.source chunk } }
  finish ending s :=
    { s with reception := { s.reception with source := Source.close s.reception.source ending } }
  sent s := s.sent
  writer := ReceiverSession.writer

end IrohExperiment.Media
