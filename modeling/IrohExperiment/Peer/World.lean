/-
# Two peers and their channel (`worker/public/peer.js`)

An offerer and an answerer over a reliable ordered channel: one step of the two is a step of
one side, or the arrival of the next message that the other has sent.

Each side keeps all messages that it has sent and all that it has handled, so the channel
needs no state of its own: what is on its way is what one has sent and the other has not
handled or queued.  Any order of steps and arrivals is a run.
-/
import IrohExperiment.Peer.Transfer

namespace IrohExperiment.Peer

/-- Both sides.  What one has sent and the other's queue has not had yet is in the channel. -/
structure World where
  offerer : Experiment
  answerer : Experiment

/-- The other side. -/
def Role.other : Role → Role
  | .offerer => .answerer
  | .answerer => .offerer

inductive Event where
  /-- one side takes a step -/
  | steps (role : Role) (input : Experiment.Input)
  /-- the next message for one side arrives -/
  | arrives (role : Role)

namespace World

def side (w : World) : Role → Experiment
  | .offerer => w.offerer
  | .answerer => w.answerer

def withSide (w : World) (role : Role) (x : Experiment) : World :=
  match role with
  | .offerer => { w with offerer := x }
  | .answerer => { w with answerer := x }

/-- Both sides have just attached their channel, and neither is a local diagnostic. -/
def start : World := ⟨.attached .offerer false, .attached .answerer false⟩

/-- `onmessage`: the channel hands messages to an open side, in the order they were sent. -/
def arrive (w : World) (role : Role) : Option World :=
  let x := w.side role
  let sent := (w.side role.other).sent
  match x.readyState, sent[x.handled.length + x.queue.length]? with
  | .opened, some m => some (w.withSide role { x with queue := x.queue ++ [m] })
  | _, _ => none

/-- One step of the two. -/
def step (event : Event) (w : World) : Option World :=
  match event with
  | .steps role input => ((w.side role).step input).map (w.withSide role)
  | .arrives role => w.arrive role

end World

end IrohExperiment.Peer
