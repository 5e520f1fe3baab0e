import IrohExperiment.Relay.Gone
import IrohExperiment.Relay.Reconnection
import IrohExperiment.Stun.Probe
import IrohExperiment.Gateway.Scope
import IrohExperiment.Media.OpenPath
import IrohExperiment.Media.Framing
import IrohExperiment.Media.Reception
import IrohExperiment.Media.Transmission
import IrohExperiment.Media.NoRelay
import IrohExperiment.Relay.Overdue
import IrohExperiment.Relay.Silencing
import IrohExperiment.Relay.Invitation
import IrohExperiment.Media.Candidates
import IrohExperiment.Media.FrameCount
import IrohExperiment.Observer.Observation
import IrohExperiment.Observer.PublicAddress
import IrohExperiment.Observer.Paths
import IrohExperiment.Gateway.Connections
import IrohExperiment.Gateway.Ids
import IrohExperiment.Signal.Bounds
import IrohExperiment.Peer.Agreement
import IrohExperiment.Peer.Sdp
import IrohExperiment.Peer.Spelling
import IrohExperiment.Setup.Rerun
import IrohExperiment.Media.Rows
import IrohExperiment.Baseline.Completion
import IrohExperiment.Gateway.Authorization
import IrohExperiment.Gateway.KeyFile
import IrohExperiment.Browser.Node
import IrohExperiment.NatPeer.Peers
import IrohExperiment.Browser.Page
import IrohExperiment.Stun.FirstAnswer
