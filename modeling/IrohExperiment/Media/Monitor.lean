/-
# The path monitor (`media-separation/src/lib.rs`)

The task that watches the paths of the media connection, by events and by snapshots, and
feeds the gate; the connection it watches; and the request to stop.

`Monitoring.step` is one turn of `monitor_loop`: an event of the connection, a lagged
receiver, a snapshot, the close of the connection or the stop.  Events that are under way
stand in a queue beside the open paths, so that what the monitor has not seen yet is part of
the state.
-/
import IrohExperiment.History.Run
import IrohExperiment.Media.Gate

namespace IrohExperiment.Media

open History

/-! ## The connection -/

/-- An open path.  `early` says that it was opened before the monitor was asked to stop;
no code reads it. -/
structure Path where
  id : ℕ
  relay : Bool
  selected : Bool
  early : Bool
  deriving DecidableEq, Repr

/-- A path event, with the path it is about. -/
inductive PathEvent where
  | opened (path : Path)
  | selected (path : Path)
  | closed (path : Path)
  | lagged
  deriving DecidableEq, Repr

/-- `event_has_relay_path` -/
def eventHasRelayPath : PathEvent → Bool
  | .opened path | .selected path | .closed path => path.relay
  | .lagged => false

/-- Where the monitor task is: not yet subscribed, waiting in its loop, about to take a
snapshot, or done. -/
inductive MonitorPhase where
  | spawned
  | selecting
  | reconciling
  | done
  deriving DecidableEq, Repr

/-- The connection, the monitor of it, the gate, and the events that the monitor has been
sent and has not looked at. -/
structure Monitoring where
  paths : List Path
  connClosed : Bool
  events : List PathEvent
  gate : MediaGate
  everRelayPaths : ℕ
  stopAsked : Bool
  phase : MonitorPhase
  deriving DecidableEq, Repr

/-- What can happen: paths come and go, the connection closes, the event stream loses its
oldest events, the monitor is asked to stop, and the monitor goes on. -/
inductive MonitorEvent where
  | openPath (id : ℕ) (relay : Bool)
  | selectPath (id : ℕ)
  | closePath (id : ℕ)
  | closeConnection
  | lag (count : ℕ)
  | stop
  | subscribe
  | next (now : ℕ)
  | streamEnd
  | tick
  | closed (now : ℕ)
  | reconcile (now : ℕ)
  | stopped
  deriving DecidableEq, Repr

namespace Monitoring

/-- A connection without paths, on which a monitor is spawned. -/
def start (gate : MediaGate) : Monitoring := ⟨[], false, [], gate, 0, false, .spawned⟩

/-- The monitor has its end of the event stream. -/
def subscribed (c : Monitoring) : Bool :=
  match c.phase with
  | .selecting | .reconciling => true
  | _ => false

/-- The connection reports an event. -/
def emit (c : Monitoring) (event : PathEvent) : Monitoring :=
  if c.subscribed then { c with events := c.events ++ [event] } else c

/-- A path is opened. -/
def openPath (c : Monitoring) (id : ℕ) (relay : Bool) : Monitoring :=
  let path : Path := ⟨id, relay, false, !c.stopAsked⟩
  emit { c with paths := c.paths ++ [path] } (.opened path)

/-- A path is selected for transmission, and no other. -/
def selectPath (c : Monitoring) (path : Path) : Monitoring :=
  emit { c with paths := c.paths.map fun p => { p with selected := p.id == path.id } }
    (.selected path)

/-- A path is closed. -/
def closePath (c : Monitoring) (path : Path) : Monitoring :=
  emit { c with paths := c.paths.filter (· ≠ path) } (.closed path)

/-- The event stream replaces its oldest events by one that says so. -/
def lag (c : Monitoring) (count : ℕ) : Monitoring :=
  { c with events := .lagged :: c.events.drop count }

/-- The `events.next()` arm of `monitor_loop`. -/
def next (c : Monitoring) (event : PathEvent) (rest : List PathEvent) (now : ℕ) : Monitoring :=
  let c := { c with events := rest, phase := .reconciling }
  if eventHasRelayPath event then
    { c with
      everRelayPaths := c.everRelayPaths + 1
      gate := c.gate.apply (.snapshot 0 true false) now }
  else c

/-- The `conn.closed()` arm of `monitor_loop`. -/
def closed (c : Monitoring) (now : ℕ) : Monitoring :=
  { c with gate := c.gate.apply .connectionClosed now, phase := .done }

/-- What a snapshot of the open paths shows. -/
def snapshot (c : Monitoring) : PathSignal :=
  .snapshot (c.paths.countP fun p => !p.relay) (c.paths.any Path.relay)
    (c.paths.any fun p => !p.relay && p.selected)

/-- The rest of a turn of `monitor_loop`; `done_rx` is false as long as the loop runs. -/
def reconcile (c : Monitoring) (now : ℕ) : Monitoring :=
  let c :=
    { c with
      everRelayPaths := c.everRelayPaths + c.paths.countP Path.relay
      gate := c.gate.apply c.snapshot now }
  if c.gate.state.isStopped then { c with connClosed := true, phase := .done }
  else { c with phase := .selecting }

theorem reconcile_stopped {c : Monitoring} {now : ℕ}
    (h : (c.gate.apply c.snapshot now).state.isStopped = true) :
    c.reconcile now =
      { c with
        everRelayPaths := c.everRelayPaths + c.paths.countP Path.relay
        gate := c.gate.apply c.snapshot now
        connClosed := true
        phase := .done } :=
  if_pos h

theorem reconcile_on {c : Monitoring} {now : ℕ}
    (h : ¬ (c.gate.apply c.snapshot now).state.isStopped = true) :
    c.reconcile now =
      { c with
        everRelayPaths := c.everRelayPaths + c.paths.countP Path.relay
        gate := c.gate.apply c.snapshot now
        phase := .selecting } :=
  if_neg h

/-- One step; `none` where the event cannot happen. -/
def step (event : MonitorEvent) (c : Monitoring) : Option Monitoring :=
  match event with
  | .openPath id relay =>
    if c.connClosed = false ∧ ∀ p ∈ c.paths, p.id ≠ id then some (c.openPath id relay) else none
  | .selectPath id => (c.paths.find? fun p => p.id = id).map c.selectPath
  | .closePath id => (c.paths.find? fun p => p.id = id).map c.closePath
  | .closeConnection => some { c with connClosed := true }
  | .lag count => if 0 < count ∧ count ≤ c.events.length then some (c.lag count) else none
  | .stop => some { c with stopAsked := true }
  | .subscribe => if c.phase = .spawned then some { c with phase := .selecting } else none
  | .next now =>
    match c.events with
    | event :: rest => if c.phase = .selecting then some (c.next event rest now) else none
    | [] => none
  | .streamEnd =>
    if c.phase = .selecting ∧ c.connClosed = true ∧ c.events = [] then
      some { c with phase := .reconciling }
    else none
  | .tick => if c.phase = .selecting then some { c with phase := .reconciling } else none
  | .closed now => if c.phase = .selecting ∧ c.connClosed = true then some (c.closed now) else none
  | .reconcile now => if c.phase = .reconciling then some (c.reconcile now) else none
  | .stopped =>
    if c.phase = .selecting ∧ c.stopAsked = true then some { c with phase := .done } else none

/-- A relay path is open. -/
def RelayOpen (c : Monitoring) : Prop := ∃ p ∈ c.paths, p.relay = true

/-- The monitor has subscribed and has not been asked to stop. -/
def InWindow (c : Monitoring) : Prop := c.phase ≠ .spawned ∧ c.stopAsked = false

end Monitoring

/-- The monitor and the connection after some events. -/
def monitorRun (gate : MediaGate) (history : List MonitorEvent) : Option Monitoring :=
  run Monitoring.step (Monitoring.start gate) history

end IrohExperiment.Media
