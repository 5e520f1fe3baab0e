/-
# Result rows (`common/src/lib.rs`)

The row that each run of an experiment appends: the identity of the run, what it says of the
direct connection, how many bytes went over, and why it failed.

`newResult` is the row that a program starts with, as `new_result` has it; the programs set
the fields that they know.  What is left out (the time, the versions, the throughput) no
modelled program computes with.
-/
import IrohExperiment.Rust.Text

namespace IrohExperiment.Results

open Rust

/-- Selected path kind. -/
inductive SelectedPath where
  | directIp
  | relay
  | mixed
  | none
  deriving DecidableEq, Repr

/-- `ExperimentResult`, without its clock readings, its throughput and the build it names. -/
structure ExperimentResult where
  schemaVersion : ℕ
  runId : Text
  endpointRole : Text
  method : Text
  networkProfile : Text
  directConnectionSuccess : Option Bool
  timeToDirectMs : Option ℕ
  selectedPath : Option SelectedPath
  directPathRttMs : Option ℕ
  relayMediaTxBytes : Option ℕ
  relayMediaRxBytes : Option ℕ
  payloadBytes : ℕ
  failureReason : Option Text
  deriving DecidableEq, Repr

/-- `new_result` -/
def newResult (runId method endpointRole networkProfile : Text) : ExperimentResult where
  schemaVersion := 2
  runId := runId
  endpointRole := endpointRole
  method := method
  networkProfile := networkProfile
  directConnectionSuccess := none
  timeToDirectMs := none
  selectedPath := none
  directPathRttMs := none
  relayMediaTxBytes := none
  relayMediaRxBytes := none
  payloadBytes := 0
  failureReason := none

end IrohExperiment.Results
