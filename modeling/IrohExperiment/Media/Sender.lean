/-
# The sender of the synthetic stream (`media-separation/src/lib.rs`)

The wait for the gate, and the task that writes frames, one await after the other, while
the monitor feeds the gate.

`Sending` is the state of `send_synthetic` and of `streaming_task`, and `Sending.await` what
it is waiting for.  A tick of the interval is an event.  Its steps are those of
`Media.Transmission`.
-/
import IrohExperiment.History.Run
import IrohExperiment.Media.Frames

namespace IrohExperiment.Media

open Rust History

/-! ## The state of the sender -/

/-- The errors of `send_synthetic`. -/
inductive SendError where
  | notReady
  | io (kind : ErrorKind)
  deriving DecidableEq, Repr

/-- The text that goes with an error of the sender's own. -/
def SendError.text : SendError → Option String
  | .notReady => some "timed out waiting for direct-ready"
  | .io _ => none

/-- Where the sender is: in the wait for the gate (`waiting`, `parked`), at the start of
`streaming_task` (`spawned`, `opening`), in its loop, or at its end. -/
inductive SendPhase where
  | waiting
  | parked
  | spawned
  | opening
  | selecting
  | woken
  | looked
  | checked
  | writing (frame : WireFrame) (remaining : Bytes)
  | flushing (frame : WireFrame)
  | closing
  | returned (result : Except SendError StreamStats)
  deriving DecidableEq, Repr

/-- The state of `send_synthetic`; `seen` is the version of the gate's state that the
watch receiver in use has seen, `handed` is what `write_all` has been given, and `wire`
what the stream has accepted of it. -/
structure Sending where
  gate : MediaGate
  seen : ℕ
  seq : UInt32
  stats : StreamStats
  handed : Bytes
  wire : Bytes
  phase : SendPhase
  deriving DecidableEq, Repr

/-- What can happen: the monitor feeds the gate, time passes, the stream accepts bytes or
fails, and the sender goes on from one await to the next. -/
inductive SendEvent where
  | signal (signal : PathSignal) (now : ℕ)
  | await
  | awaited
  | timeout
  | subscribe
  | firstTick
  | tick
  | changed
  | deadline
  | look (overdue : Bool)
  | check
  | write (now : UInt64)
  | accept (count : ℕ)
  | writeFails (kind : ErrorKind)
  | flushed
  | flushFails (kind : ErrorKind)
  | shutdown
  deriving DecidableEq, Repr

/-- `is_closed` -/
def isClosed : ErrorKind → Bool
  | .brokenPipe | .connectionReset | .notConnected | .unexpectedEof => true
  | .other => false

/-- The frame that is written: its payload is as long as the configuration says. -/
def syntheticFrame (payloadBytes : UInt16) (seq : UInt32) (now : UInt64) : WireFrame where
  seq := seq
  sentAtUnixMs := now
  payload := List.replicate payloadBytes.toNat 0xab
  length_lt := by
    rw [List.length_replicate]
    exact payloadBytes.toNat_lt

namespace Sending

/-- `send_synthetic` as it starts. -/
def start (gate : MediaGate) (seen : ℕ) : Sending := ⟨gate, seen, 0, {}, [], [], .waiting⟩

def goto (c : Sending) (phase : SendPhase) : Sending := { c with phase := phase }

/-- `borrow_and_update` -/
def look (c : Sending) : Sending := { c with seen := c.gate.notified }

/-- The sender returns its statistics. -/
def finish (c : Sending) (stopReason : Option StopReason) : Sending :=
  let stats := { c.stats with stopReason := stopReason }
  { c with stats := stats, phase := .returned (.ok stats) }

/-- One turn of the wait for the gate. -/
def await (c : Sending) : Sending :=
  match c.gate.state with
  | .directReady => c.look.goto .spawned
  | .stopped _ => c.look.finish c.gate.stopReason
  | .awaitingDirect => c.look.goto .parked

/-- The loop looks at the gate and at the clock. -/
def turn (c : Sending) (overdue : Bool) : Sending :=
  if c.gate.state.isStopped then c.look.finish c.gate.stopReason
  else if overdue then c.look.goto .closing
  else c.look.goto .looked

/-- The loop looks at the gate itself. -/
def check (c : Sending) : Sending :=
  if c.gate.state = .directReady then c.goto .checked else c.finish c.gate.stopReason

/-- The loop hands a frame to the stream. -/
def write (c : Sending) (payloadBytes : UInt16) (now : UInt64) : Sending :=
  let frame := syntheticFrame payloadBytes c.seq now
  { c with handed := c.handed ++ frame.encode, phase := .writing frame frame.encode }

/-- The stream accepts some more bytes of the frame. -/
def accept (c : Sending) (frame : WireFrame) (remaining : Bytes) (count : ℕ) : Sending :=
  { c with
    wire := c.wire ++ remaining.take count
    phase :=
      if remaining.drop count = [] then .flushing frame else .writing frame (remaining.drop count) }

/-- A write or a flush has failed. -/
def fail (c : Sending) (kind : ErrorKind) : Sending :=
  if isClosed kind then c.finish (c.gate.stopReason.or (some .connectionClosed))
  else c.goto (.returned (.error (.io kind)))

/-- A frame has been written and flushed. -/
def count (c : Sending) (frame : WireFrame) : Sending :=
  { c with
    stats := c.stats.count (headerBytes + frame.payload.length) frame.payload.length
      frame.sentAtUnixMs.toNat
    seq := c.seq + 1
    phase := .selecting }

/-- One step, for a configured payload length; `none` where the event cannot happen. -/
def step (payloadBytes : UInt16) (event : SendEvent) (c : Sending) : Option Sending :=
  match event with
  | .signal signal now => some { c with gate := c.gate.apply signal now }
  | .await => if c.phase = .waiting then some c.await else none
  | .awaited =>
    if c.phase = .parked ∧ c.seen ≠ c.gate.notified then some (c.look.goto .waiting) else none
  | .timeout => if c.phase = .parked then some (c.goto (.returned (.error .notReady))) else none
  | .subscribe => if c.phase = .spawned then some (c.look.goto .opening) else none
  | .firstTick => if c.phase = .opening then some (c.goto .selecting) else none
  | .tick => if c.phase = .selecting then some (c.goto .woken) else none
  | .changed =>
    if c.phase = .selecting ∧ c.seen ≠ c.gate.notified then some (c.look.goto .woken) else none
  | .deadline => if c.phase = .selecting then some (c.goto .closing) else none
  | .look overdue => if c.phase = .woken then some (c.turn overdue) else none
  | .check => if c.phase = .looked then some c.check else none
  | .write now => if c.phase = .checked then some (c.write payloadBytes now) else none
  | .accept count =>
    match c.phase with
    | .writing frame remaining =>
      if 0 < count ∧ count ≤ remaining.length then some (c.accept frame remaining count) else none
    | _ => none
  | .writeFails kind =>
    match c.phase with
    | .writing _ _ => some (c.fail kind)
    | _ => none
  | .flushed =>
    match c.phase with
    | .flushing frame => some (c.count frame)
    | _ => none
  | .flushFails kind =>
    match c.phase with
    | .flushing _ => some (c.fail kind)
    | _ => none
  | .shutdown => if c.phase = .closing then some (c.goto (.returned (.ok c.stats))) else none

end Sending

/-- The sender after some events. -/
def sendRun (payloadBytes : UInt16) (gate : MediaGate) (seen : ℕ) (events : List SendEvent) :
    Option Sending :=
  run (Sending.step payloadBytes) (Sending.start gate seen) events

end IrohExperiment.Media
