/-
# The receiver of the synthetic stream (`media-separation/src/lib.rs`)

The task that reads frames off the stream, the bounded channel behind it, and the loop
that counts the frames until the gate stops it.

`readFrameSynced` reads one frame, and `Reception` is the state of `receive_synthetic`: the
stream, the reader's task, the channel with what it holds, and the loop with its statistics.
Its steps are those of `Media.Reception`.
-/
import IrohExperiment.History.Run
import IrohExperiment.Media.Frames

namespace IrohExperiment.Media

open Rust History

/-! ## The reader -/

/-- One parsed inbound frame. -/
structure Frame where
  seq : UInt32
  wireBytes : ℕ
  payloadBytes : ℕ
  arrivedUnixMs : ℕ
  deriving DecidableEq, Repr

/-- The part of `read_frame_synced` behind the header. -/
def readPayload (header : Bytes) (now : ℕ) : Async Source ErrorKind (Option Frame) := do
  let seq := UInt32.ofNat (beNat (header.take 4))
  let plen := beNat ((header.drop 12).take 2)
  let _ ← readExact plen
  return some ⟨seq, headerBytes + plen, plen, now⟩

/-- `read_frame_synced`, when the clock shows `now` at its end. -/
def readFrameSynced (now : ℕ) : Async Source ErrorKind (Option Frame) where
  run source :=
    match (readExact headerBytes).run source with
    | .done header source => (readPayload header now).run source
    | .failed .unexpectedEof => .done none ⟨[], source.ending⟩
    | .failed kind => .failed kind
    | .waits => .waits

theorem run_readFrameSynced (now : ℕ) (source : Source) :
    (readFrameSynced now).run source =
      match (readExact headerBytes).run source with
      | .done header source => (readPayload header now).run source
      | .failed .unexpectedEof => .done none ⟨[], source.ending⟩
      | .failed kind => .failed kind
      | .waits => .waits :=
  rfl

/-- What the reader sends to the loop: `std::io::Result<Option<Frame>>`. -/
abbrev Message := Except ErrorKind (Option Frame)

/-- Where the reader task is. -/
inductive Reader where
  | reading
  | sending (msg : Message)
  | gone
  deriving DecidableEq, Repr

/-- How many messages the channel holds. -/
def channelCapacity : ℕ := 8

/-! ## The loop -/

/-- The errors of `receive_synthetic`. -/
inductive ReceiveError where
  | discontinuity (got expected : UInt32)
  | readFailed
  deriving DecidableEq, Repr

/-- The text of an error. -/
def ReceiveError.text : ReceiveError → String
  | .discontinuity got expected => s!"sequence discontinuity: got {got}, expected {expected}"
  | .readFailed => "frame read failed before any gate stop"

/-- Where the loop is: it is about to look at the gate, it waits for a message or a change
of the gate, it waits for the gate after an abrupt cut, or it has returned. -/
inductive Phase where
  | turning
  | selecting
  | settling
  | returned (result : Except ReceiveError (StreamStats × ℕ))
  deriving DecidableEq, Repr

/-- The state of `receive_synthetic`, its reader task and what they work on; `seen` is the
version of the gate's state that `state_rx` has seen. -/
structure Reception where
  source : Source
  reader : Reader
  queue : List Message
  gate : MediaGate
  seen : ℕ
  expectedSeq : UInt32
  stats : StreamStats
  phase : Phase
  deriving DecidableEq, Repr

/-- What can happen: the transport delivers a chunk or ends the stream, the monitor feeds
the gate, and the tasks go on from one `await` to the next. -/
inductive ReceiveEvent where
  | deliver (chunk : Chunk)
  | finish (ending : Ending)
  | signal (signal : PathSignal) (now : ℕ)
  | read (now : ℕ)
  | send
  | turn
  | recv
  | changed
  | settle
  | timeout
  deriving DecidableEq, Repr

namespace Reception

/-- `receive_synthetic` as it starts. -/
def start (gate : MediaGate) (seen : ℕ) : Reception :=
  ⟨⟨[], .silent⟩, .reading, [], gate, seen, 0, {}, .turning⟩

/-- The loop returns its statistics. -/
def finish (c : Reception) : Reception :=
  let stats := { c.stats with stopReason := c.gate.stopReason }
  { c with stats := stats, phase := .returned (.ok (stats, c.expectedSeq.toNat)) }

/-- The reader goes on after a frame, and ends after a clean FIN or an error. -/
def sent (c : Reception) (msg : Message) : Reception :=
  { c with
    queue := c.queue ++ [msg]
    reader := match msg with
      | .ok (some _) => .reading
      | _ => .gone }

/-- The loop handles a message. -/
def receive (c : Reception) (msg : Message) : Reception :=
  match msg with
  | .ok none => c.finish
  | .ok (some frame) =>
    if frame.seq = c.expectedSeq then
      { c with
        expectedSeq := c.expectedSeq + 1
        stats := c.stats.count frame.wireBytes frame.payloadBytes frame.arrivedUnixMs
        phase := .turning }
    else { c with phase := .returned (.error (.discontinuity frame.seq c.expectedSeq)) }
  | .error _ => { c with phase := .settling }

theorem receive_expected {c : Reception} {frame : Frame} (h : frame.seq = c.expectedSeq) :
    c.receive (.ok (some frame)) =
      { c with
        expectedSeq := c.expectedSeq + 1
        stats := c.stats.count frame.wireBytes frame.payloadBytes frame.arrivedUnixMs
        phase := .turning } :=
  if_pos h

theorem receive_unexpected {c : Reception} {frame : Frame} (h : frame.seq ≠ c.expectedSeq) :
    c.receive (.ok (some frame)) =
      { c with phase := .returned (.error (.discontinuity frame.seq c.expectedSeq)) } :=
  if_neg h

/-- `borrow_and_update` -/
def look (c : Reception) : Reception := { c with seen := c.gate.notified }

/-- The loop has dropped its end of the channel. -/
def isReturned (c : Reception) : Bool :=
  match c.phase with
  | .returned _ => true
  | _ => false

/-- `let frame = read_frame_synced(&mut stream).await` -/
def read (c : Reception) (now : ℕ) : Option Reception :=
  match (readFrameSynced now).run c.source with
  | .done frame source => some { c with source := source, reader := .sending (.ok frame) }
  | .failed kind => some { c with reader := .sending (.error kind) }
  | .waits => none

/-- `tx.send(msg).await` -/
def send (c : Reception) (msg : Message) : Option Reception :=
  if c.isReturned then some { c with reader := .gone }
  else if c.queue.length < channelCapacity then some (c.sent msg)
  else none

/-- `rx.recv()` -/
def recv (c : Reception) : Option Reception :=
  match c.queue with
  | msg :: queue => some (receive { c with queue := queue } msg)
  | [] => if c.reader = .gone then some c.finish else none

/-- One step; `none` where the event cannot happen. -/
def step : ReceiveEvent → Reception → Option Reception
  | .deliver chunk, c =>
    if c.source.ending = .silent then
      some { c with source := ⟨c.source.chunks ++ [chunk], .silent⟩ }
    else none
  | .finish ending, c =>
    if c.source.ending = .silent then some { c with source := ⟨c.source.chunks, ending⟩ } else none
  | .signal signal now, c => some { c with gate := c.gate.apply signal now }
  | .read now, c => if c.reader = .reading then c.read now else none
  | .send, c =>
    match c.reader with
    | .sending msg => c.send msg
    | _ => none
  | .turn, c =>
    if c.phase ≠ .turning then none
    else if c.gate.state.isStopped then some c.look.finish
    else some { c.look with phase := .selecting }
  | .recv, c => if c.phase = .selecting then c.recv else none
  | .changed, c =>
    if c.phase ≠ .selecting ∨ c.seen = c.gate.notified then none
    else if c.gate.state.isStopped then some c.look.finish
    else some { c.look with phase := .turning }
  | .settle, c =>
    if c.phase = .settling ∧ c.gate.state.isStopped then some c.look.finish else none
  | .timeout, c =>
    if c.phase = .settling ∧ c.gate.state.isStopped = false then
      some { c with phase := .returned (.error .readFailed) }
    else none

end Reception

/-- The event is a task going on, not the outside world or the passing of time. -/
def ReceiveEvent.isTask : ReceiveEvent → Bool
  | .deliver _ | .finish _ | .signal _ _ | .timeout => false
  | _ => true

/-- No task can go on: what has been delivered has been consumed. -/
def Reception.Quiescent (c : Reception) : Prop :=
  ∀ event : ReceiveEvent, event.isTask → c.step event = none

/-- The bytes that the transport delivers in an event. -/
def ReceiveEvent.bytes : ReceiveEvent → Bytes
  | .deliver chunk => chunk.bytes
  | _ => []

/-- The bytes that have been delivered. -/
def delivered (events : List ReceiveEvent) : Bytes := events.flatMap ReceiveEvent.bytes

/-- The receiver after some events. -/
def receiveRun (gate : MediaGate) (seen : ℕ) (events : List ReceiveEvent) : Option Reception :=
  run (fun event c => c.step event) (Reception.start gate seen) events

end IrohExperiment.Media
