/-
# The rows of a media run (`media-separation/src/bin/media-sender.rs`, `media-receiver.rs`)

What the two binaries of the direct-only media experiment put into their result rows: the
fields of the outcome if the session has one, and otherwise the error that it ended with.

`media_rows` says what the two rows of one run say together when the sender's session has
an outcome: a sender's row without a failure means that the receiver accepted the sender's
token and left its half of the stream, and a receiver's row without a failure agrees with
the sender's on the payload, the direct connection and the path.  The row of a sender
whose session ended with an error carries nothing of the session to agree with.
-/
import IrohExperiment.Media.EndToEnd
import IrohExperiment.Results.Row

namespace IrohExperiment.Media

open Rust Results

/-! ## The rows -/

/-- `StopReason`, as `Debug` prints it. -/
def StopReason.debug : StopReason → String
  | .relayPathObserved => "RelayPathObserved"
  | .directPathLost => "DirectPathLost"
  | .connectionClosed => "ConnectionClosed"

/-- `GateState`, as `Debug` prints it. -/
def GateState.debug : GateState → String
  | .awaitingDirect => "AwaitingDirect"
  | .directReady => "DirectReady"
  | .stopped reason => s!"Stopped({reason.debug})"

/-- The failure of a run whose gate has tripped. -/
def trippedReason (outcome : SessionOutcome) (state : GateState) : Option Text :=
  if 0 < outcome.everRelayPaths ∨ state.isStopped then
    some (s!"fail-closed gate tripped: ever_relay_paths={outcome.everRelayPaths} " ++
      s!"gate={state.debug}").toList
  else none

/-- What both binaries put into the row of a session with an outcome. -/
def fillRow (row : ExperimentResult) (outcome : SessionOutcome) : ExperimentResult :=
  { row with
    directConnectionSuccess := some outcome.directConnectionSuccess
    timeToDirectMs := outcome.timeToDirectMs
    selectedPath := if outcome.directConnectionSuccess then some .directIp else row.selectedPath
    payloadBytes := outcome.stream.payloadBytes }

/-- `main` of the receiver, from what its `run` comes to. -/
def receiverRow (runId networkProfile : Text) (result : Except Text (SessionOutcome × GateState)) :
    ExperimentResult :=
  let row := newResult runId "direct-media".toList "receiver".toList networkProfile
  match result with
  | .ok (outcome, state) =>
    { fillRow row outcome with
      relayMediaRxBytes := outcome.relayMediaBytes
      failureReason := trippedReason outcome state }
  | .error error => { row with failureReason := some error }

/-- `main` of the sender, from what its `run` comes to. -/
def senderRow (runId networkProfile : Text) (result : Except Text (SessionOutcome × GateState)) :
    ExperimentResult :=
  let row := newResult runId "direct-media".toList "sender".toList networkProfile
  match result with
  | .ok (outcome, state) =>
    { fillRow row outcome with
      relayMediaTxBytes := outcome.relayMediaBytes
      failureReason := (trippedReason outcome state).or
        (if outcome.receiverConfirmed then none
         else some "receiver never confirmed stream completion".toList) }
  | .error error => { row with failureReason := some error }

theorem trippedReason_eq_none {outcome : SessionOutcome} {state : GateState} :
    trippedReason outcome state = none ↔ outcome.everRelayPaths = 0 ∧ state.isStopped = false := by
  unfold trippedReason
  split_ifs with h
  · refine iff_of_false (fun heq => by cases heq) ?_
    rintro ⟨hzero, hopen⟩
    rcases h with h | h
    · omega
    · rw [hopen] at h
      cases h
  · obtain ⟨hzero, hopen⟩ := not_or.mp h
    exact iff_of_true rfl ⟨by omega, Bool.eq_false_iff.mpr hopen⟩

/-! ## The two rows of one run -/

variable {given expected : Bytes} {payloadBytes : UInt16} {startedUnixMs window : ℕ}
  {events : List (Move SenderEvent ⊕ Move ReceiverEvent)} {c : Joined SenderSession ReceiverSession}

/-- A confirmation means that the receiver's half has left its stream, for the token that it
expects. -/
theorem confirmed_of_run
    (hrun : mediaRun given expected payloadBytes startedUnixMs window events = some c)
    (hconfirmed : c.left.state.stage.confirmed = true) : c.right.state.writer = .finished := by
  obtain ⟨⟨lefts, hleft⟩, -⟩ := parties_run hrun
  exact ((session_run hrun).back.finished ((confirms_run hleft).confirmed hconfirmed)).1

/-- The two rows of one run: a sender's row without a failure means that the receiver has
accepted the sender's token and has left its half of the stream; a receiver's row without a
failure agrees with the sender's row on the payload, on the direct connection and on the path,
and no relay path was counted. -/
theorem media_rows
    (hrun : mediaRun given expected payloadBytes startedUnixMs window events = some c)
    {o' : SessionOutcome} (hsender : c.left.state.stage = .returned (.ok o'))
    (runId runId' networkProfile networkProfile' : Text) :
    ((senderRow runId' networkProfile' (.ok (o', c.left.state.sending.gate.state))).failureReason =
        none → given = expected ∧ c.right.state.writer = .finished) ∧
    ∀ o, c.right.state.stage = .returned (.ok o) →
      (receiverRow runId networkProfile
        (.ok (o, c.right.state.reception.gate.state))).failureReason = none →
      let sent := senderRow runId' networkProfile' (.ok (o', c.left.state.sending.gate.state))
      let received := receiverRow runId networkProfile (.ok (o, c.right.state.reception.gate.state))
      sent.payloadBytes = received.payloadBytes ∧
        sent.directConnectionSuccess = received.directConnectionSuccess ∧
        sent.selectedPath = received.selectedPath ∧ o.everRelayPaths = 0 ∧ given = expected := by
  have h := session_run hrun
  constructor
  · intro hfine
    obtain ⟨-, hconfirmed⟩ := Option.or_eq_none_iff.mp hfine
    have hconfirmed : o'.receiverConfirmed = true := by
      by_contra hnot
      rw [if_neg hnot] at hconfirmed
      cases hconfirmed
    refine ⟨?_, confirmed_of_run hrun (by rw [hsender]; exact hconfirmed)⟩
    obtain ⟨done, current, hstreams⟩ := h.speaks.started (by rw [hsender]; rfl)
    exact h.tokens hstreams.ready
  · intro o hreceiver hfine
    obtain ⟨hzero, hopen⟩ := trippedReason_eq_none.mp hfine
    obtain ⟨htokens, -, -, -, -, hagree⟩ := media_agreement hrun hreceiver hopen
    obtain ⟨-, -, hpayload, hdirect⟩ := hagree o' hsender
    refine ⟨hpayload, congrArg some hdirect, ?_, hzero, htokens⟩
    show (if o'.directConnectionSuccess = true then some SelectedPath.directIp else none) =
      if o.directConnectionSuccess = true then some SelectedPath.directIp else none
    rw [hdirect]

/-- The rows of a session with one frame. -/
theorem media_rows_one_frame :
    (senderRow ['s'] [] (.ok (sentOutcome, readyGate.state))).payloadBytes =
      (receiverRow ['r'] [] (.ok (receivedOutcome, .awaitingDirect))).payloadBytes :=
  ((media_rows sampleJoined_run
    (show sampleJoined.left.state.stage = .returned (.ok sentOutcome) from rfl)
    ['r'] ['s'] [] []).2 receivedOutcome rfl (by decide)).1

end IrohExperiment.Media
