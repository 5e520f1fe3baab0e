/-
# The peer experiment (`worker/public/peer.js`)

One browser's side of the experiment, from the moment its data channel is attached: what it
does when the channel opens, on a message, when a statistics snapshot or an exchange is
settled, on a timer, and when something goes wrong.

An `await` ends a stretch of the program and its continuation is a stretch of its own, which
any other may come before; the browser runs some of them in a fixed order, so that its runs
are among these.  What is only shown on the page is left out.
-/
import IrohExperiment.Peer.Evidence

namespace IrohExperiment.Peer

/-! ## Messages -/

inductive Role where
  | offerer
  | answerer
  deriving DecidableEq, Repr

/-- `data.type` -/
inductive Kind where
  | ready
  | data
  | echo
  | complete
  | completeAck
  | receipt
  deriving DecidableEq, Repr

/-- A message of the data channel: what it does not have is `undefined`. -/
structure Message where
  type : Kind
  index : Option ℕ := none
  body : Option String := none
  bytes : Option ℕ := none
  evidence : Option Evidence := none
  deriving DecidableEq, Repr

/-- `CHUNK` -/
def chunk : ℕ := 8192

/-- `BLOCKS` -/
def blocks : ℕ := 8

/-- `bodyFor` -/
def bodyFor (index : ℕ) : String := String.ofList (List.replicate chunk (Char.ofNat (65 + index)))

def readyMessage : Message := { type := .ready }

def dataMessage (index : ℕ) : Message := { type := .data, index := index, body := bodyFor index }

def echoMessage (data : Message) : Message :=
  { type := .echo, index := data.index, body := data.body }

def completeMessage (evidence : Option Evidence) : Message :=
  { type := .complete, bytes := chunk * blocks, evidence := evidence }

def ackMessage (evidence : Option Evidence) : Message :=
  { type := .completeAck, bytes := chunk * blocks, evidence := evidence }

def receiptMessage : Message := { type := .receipt }

/-- The text of a type. -/
def Kind.name : Kind → String
  | .ready => "ready"
  | .data => "data"
  | .echo => "echo"
  | .complete => "complete"
  | .completeAck => "complete-ack"
  | .receipt => "receipt"

/-- A property of an object, as `JSON.stringify` writes it; nothing in a text needs escaping. -/
def property (name value : String) : String := "\"" ++ name ++ "\":" ++ value

/-- The properties, with commas between them. -/
def commas : List String → String
  | [] => ""
  | [property] => property
  | property :: properties => property ++ "," ++ commas properties

/-- An object, as `JSON.stringify` writes it. -/
def object (properties : List String) : String := "\x7b" ++ commas properties ++ "\x7d"

/-- `JSON.stringify` of the evidence. -/
def Evidence.stringify (evidence : Evidence) : String :=
  object [property "selected_public_ipv4_path" (toString evidence.selectedPublicIpv4Path),
    property "different_stun_public_ips" (toString evidence.differentStunPublicIps),
    property "selected_pair_stable" (toString evidence.selectedPairStable),
    property "qualifies_for_cross_nat" (toString evidence.qualifiesForCrossNat)]

/-- `JSON.stringify` of a message. -/
def Message.stringify (message : Message) : String :=
  object ([property "type" ("\"" ++ message.type.name ++ "\"")] ++
    (message.index.map fun index => property "index" (toString index)).toList ++
    (message.body.map fun body => property "body" ("\"" ++ body ++ "\"")).toList ++
    (message.bytes.map fun bytes => property "bytes" (toString bytes)).toList ++
    (message.evidence.map fun evidence => property "evidence" evidence.stringify).toList)

/-! ## The experiment -/

/-- `readyState` of the data channel; `"closing"` and `"closed"` are not told apart. -/
inductive ReadyState where
  | connecting
  | opened
  | closed
  deriving DecidableEq, Repr

/-- Where `sendPayload` is. -/
inductive Payload where
  /-- it has not been called -/
  | idle
  /-- it awaits its first snapshot -/
  | before
  /-- it awaits the echo of a block -/
  | echoing (index : ℕ)
  /-- it awaits its second snapshot -/
  | after
  /-- it awaits the acknowledgement -/
  | acking
  /-- it has returned or thrown -/
  | returned
  deriving DecidableEq, Repr

/-- `this.report`: what the program sets in it from here on. -/
structure Report where
  connectionSuccess : Option Bool
  echoSuccess : Option Bool
  payloadBytes : ℕ
  natTraversalSuccess : Option Bool
  pathBefore : Option Path
  pathAfter : Option Path
  localEvidence : Option Evidence
  peerEvidence : Option Evidence
  failureStage : Option String
  failureReason : Option String
  deriving DecidableEq, Repr

/-- An `Experiment`. -/
structure Experiment where
  role : Role
  diagnostic : Bool
  localCandidates : List Candidate
  remoteCandidates : List Candidate
  received : ℕ
  ended : Bool
  done : Bool
  transferring : Bool
  senderStarted : Bool
  report : Report
  readyState : ReadyState
  /-- The channel's buffer has no room for a message. -/
  full : Bool
  /-- `open` awaits its snapshot. -/
  opening : Bool
  /-- The listener for a change of the selected pair is added. -/
  listening : Bool
  payload : Payload
  /-- The `kind` of `this.pending`. -/
  pending : Option Kind
  /-- The promise of the last exchange, once it is settled and until it is read. -/
  reply : Option (Except String Message)
  /-- The message whose `receiveComplete` awaits its snapshot. -/
  handling : Option Message
  /-- The messages that wait in `this.dataQueue`. -/
  queue : List Message
  /-- The errors that wait for their `catch`, with the stage it gives. -/
  caught : List (String × String)
  /-- The timer of the last `cleanup` runs. -/
  closing : Bool
  /-- What has been sent, in order. -/
  sent : List Message
  /-- What `onData` has been called with, in order. -/
  handled : List Message

namespace Experiment

variable (x : Experiment)

/-- The side that has just attached its data channel. -/
def attached (role : Role) (diagnostic : Bool) : Experiment where
  role := role
  diagnostic := diagnostic
  localCandidates := []
  remoteCandidates := []
  received := 0
  ended := false
  done := false
  transferring := false
  senderStarted := false
  report := ⟨some false, none, 0, none, none, none, none, none, none, none⟩
  readyState := .connecting
  full := false
  opening := false
  listening := false
  payload := .idle
  pending := none
  reply := none
  handling := none
  queue := []
  caught := []
  closing := false
  sent := []
  handled := []

/-! ### Ends -/

/-- `this.pending.reject`, and what the timer of an exchange does. -/
def reject (message : String) : Experiment :=
  if x.pending.isSome then { x with pending := none, reply := some (.error message) } else x

/-- `this.pending.resolve` -/
def resolve (data : Message) : Experiment := { x with pending := none, reply := some (.ok data) }

/-- `cleanup` -/
def cleanup : Experiment :=
  { ({ x with ended := true } : Experiment).reject "測定を終了しました。" with readyState := .closed }

/-- `fail` -/
def fail (message stage : String) : Experiment :=
  if x.ended || x.done then x
  else
    ({ x with
      report.failureStage := some stage
      report.failureReason := some message } : Experiment).cleanup

/-- The promise of an asynchronous function is rejected: its `catch` is going to call `fail`. -/
def throws (message stage : String) : Experiment :=
  { x with caught := x.caught ++ [(message, stage)] }

/-- `complete` -/
def complete (peerEvidence : Option Evidence) : Experiment :=
  if x.ended then x
  else
    let qualifies := fun evidence : Option Evidence => evidence.any Evidence.qualifiesForCrossNat
    { x with
      report.echoSuccess := some true
      report.payloadBytes := chunk * blocks
      report.peerEvidence := peerEvidence
      report.natTraversalSuccess :=
        if !x.diagnostic && qualifies x.report.localEvidence && qualifies peerEvidence then
          some true else none
      done := true }

/-! ### The channel -/

/-- `error.message` when the channel takes no message. -/
def sendError : String := "InvalidStateError"

/-- `send`: `none` when it throws. -/
def send (message : Message) : Option Experiment :=
  if x.readyState = .opened ∧ x.full = false then some { x with sent := x.sent ++ [message] }
    else none

/-- `exchange`: `none` when it throws before there is a promise. -/
def exchange (kind : Kind) (message : Message) : Option Experiment :=
  if x.pending.isSome then none
  else
    let waiting : Experiment := { x with pending := some kind, reply := none }
    match waiting.send message with
    | some x => some x
    | none => some (waiting.reject sendError)

/-- `open`, up to its snapshot. -/
def onOpen : Experiment :=
  if x.ended then x
  else
    { x with
      report.connectionSuccess := some true
      report.echoSuccess := some false
      opening := true }

/-- `open`, from its snapshot on. -/
def opened (stats : Except String Stats) (ice : Bool) : Experiment :=
  match stats with
  | .error message => x.throws message "path"
  | .ok stats =>
    let x : Experiment := { x with report.pathBefore := selectedPath stats }
    if x.ended then x
    else
      let x : Experiment := { x with listening := ice }
      if x.role = .answerer then
        match x.send readyMessage with
        | some x => x
        | none => x.throws sendError "path"
      else x

/-! ### The offerer -/

/-- `sendPayload`, at the head of its loop. -/
def sendBlock (index : ℕ) : Experiment :=
  if index < blocks then
    match x.exchange .echo (dataMessage index) with
    | some x => { x with payload := .echoing index }
    | none => ({ x with payload := .returned } : Experiment).throws "検証の順序が不正です。" "echo"
  else { x with payload := .after }

/-- `sendPayload`, from its first snapshot on. -/
def sendBlocks (stats : Except String Stats) : Experiment :=
  match stats with
  | .error message => ({ x with payload := .returned } : Experiment).throws message "echo"
  | .ok stats =>
    let x : Experiment := { x with report.pathBefore := selectedPath stats }
    if x.ended then { x with payload := .returned }
      else ({ x with transferring := true } : Experiment).sendBlock 0

/-- `sendPayload`, from the echo of a block on. -/
def echoed (index : ℕ) (echoed : Message) : Experiment :=
  if echoed.index ≠ some index ∨ echoed.body ≠ some (bodyFor index) then
    ({ x with payload := .returned } : Experiment).throws "往復データが一致しません。" "echo"
  else x.sendBlock (index + 1)

/-- `sendPayload`, from its second snapshot on. -/
def sendComplete (stats : Except String Stats) : Experiment :=
  match stats with
  | .error message => ({ x with payload := .returned } : Experiment).throws message "echo"
  | .ok stats =>
    let x : Experiment := { x with report.pathAfter := selectedPath stats }
    if x.ended then { x with payload := .returned }
    else
      let evidence :=
        pathEvidence x.report.pathBefore x.report.pathAfter x.localCandidates x.remoteCandidates
      let x : Experiment := { x with transferring := false, report.localEvidence := some evidence }
      match x.exchange .completeAck (completeMessage x.report.localEvidence) with
      | some x => { x with payload := .acking }
      | none => ({ x with payload := .returned } : Experiment).throws "検証の順序が不正です。" "echo"

/-- `sendPayload`, from the acknowledgement on. -/
def acked (peer : Message) : Experiment :=
  let x : Experiment := { x with payload := .returned }
  if peer.bytes ≠ some (chunk * blocks) then x.throws "相手の確認データ長が一致しません。" "echo"
  else
    let x := x.complete peer.evidence
    match x.send receiptMessage with
    | some x => { x with closing := true }
    | none => x.throws sendError "echo"

/-- `senderReady` -/
def senderReady : Experiment :=
  if x.role ≠ .offerer ∨ x.senderStarted = true then x.throws "転送開始が不正です。" "echo"
  else { x with senderStarted := true, payload := .before }

/-! ### The answerer -/

/-- `echoBlock` -/
def echoBlock (data : Message) : Experiment :=
  if x.role ≠ .answerer then x.throws "受信roleが不正です。" "echo"
  else
    let x : Experiment := { x with transferring := true }
    if data.index ≠ some x.received ∨ blocks ≤ x.received ∨
      data.body ≠ some (bodyFor x.received) then
      x.throws "受信データが一致しません。" "echo"
    else
      let x : Experiment := { x with received := x.received + 1 }
      match x.send (echoMessage data) with
      | some x => x
      | none => x.throws sendError "echo"

/-- `receiveComplete`, up to its snapshot. -/
def receiveComplete (data : Message) : Experiment :=
  if x.role ≠ .answerer ∨ x.received ≠ blocks ∨ data.bytes ≠ some (chunk * blocks) then
    x.throws "データの受信が未完了です。" "echo"
  else { x with handling := some data }

/-- `receiveComplete`, from its snapshot on. -/
def sendAck (data : Message) (stats : Except String Stats) : Experiment :=
  match stats with
  | .error message => x.throws message "echo"
  | .ok stats =>
    let x : Experiment := { x with report.pathAfter := selectedPath stats }
    if x.ended then x
    else
      let evidence :=
        pathEvidence x.report.pathBefore x.report.pathAfter x.localCandidates x.remoteCandidates
      let x : Experiment := { x with transferring := false, report.localEvidence := some evidence }
      match x.send (ackMessage x.report.localEvidence) with
      | some x => { x.complete data.evidence with closing := true }
      | none => x.throws sendError "echo"

/-! ### Messages -/

/-- `onData` -/
def onData (data : Message) : Experiment :=
  if x.ended then x
  else if 10000 < data.stringify.length then x.throws "想定外のDataChannel messageです。" "echo"
  else if x.pending = some data.type then x.resolve data
  else
    match data.type with
    | .ready => x.senderReady
    | .data => x.echoBlock data
    | .complete => x.receiveComplete data
    | .receipt =>
      if x.role ≠ .answerer ∨ x.done = false then x.throws "確認順序が不正です。" "echo" else x.cleanup
    | .echo => x.throws "想定外のデータ順序です。" "echo"
    | .completeAck => x.throws "想定外のデータ順序です。" "echo"

/-! ### Steps -/

/-- What goes wrong around the transfer. -/
inductive Trouble where
  | connectionFailed
  | signalingError
  | signalingClosed
  | peerLeft
  | signalingThrew (message : String)
  | deadline
  | channelError
  | channelClosed
  | pathChanged
  | navigation
  deriving DecidableEq, Repr

/-- The message and the stage that `fail` is called with. -/
def Trouble.failure : Trouble → String × String
  | .connectionFailed => ("WebRTC接続が成立しませんでした。", "connect")
  | .signalingError => ("ルームに接続できません。期限切れ・使用済みの場合は新しく作ってください。", "signaling")
  | .signalingClosed => ("接続情報の交換が終了しました。新しいルームで試してください。", "signaling")
  | .peerLeft => ("相手がルームから切断しました。新しいルームで試してください。", "signaling")
  | .signalingThrew message => (message, "signaling")
  | .deadline => ("時間内に接続・データ往復が完了しませんでした。", "deadline")
  | .channelError => ("DataChannelでエラーが発生しました。", "echo")
  | .channelClosed => ("検証完了前にDataChannelが閉じました。", "echo")
  | .pathChanged => ("転送中に経路が変わったため、判定を中止しました。", "path")
  | .navigation => ("別の招待リンクを開いたため、前の測定を終了しました。", "navigation")

/-- The handler of the event comes to call `fail`. -/
def heeds : Trouble → Bool
  | .signalingClosed => !x.ended && x.readyState != .opened
  | .peerLeft => !(x.ended || x.done) && x.readyState != .opened
  | .channelClosed => !x.ended
  | .pathChanged => x.listening && x.transferring && !x.ended
  | .navigation => !x.ended && !x.done
  | _ => true

/-- What one side takes a step on. -/
inductive Input where
  /-- the channel opens -/
  | opens
  /-- the snapshot of `open` is settled; the connection has an ICE transport or none -/
  | openStats (stats : Except String Stats) (ice : Bool)
  /-- the next message of `dataQueue` has its turn -/
  | handle
  /-- a snapshot of `sendPayload` is settled -/
  | payloadStats (stats : Except String Stats)
  /-- the snapshot of `receiveComplete` is settled -/
  | completeStats (stats : Except String Stats)
  /-- `sendPayload` goes on after an exchange -/
  | settled
  /-- the timer of an exchange fires -/
  | timeout
  /-- a `catch` runs -/
  | catches
  /-- the channel is closed by the other side or by the connection -/
  | closes
  /-- the channel's buffer fills up or drains -/
  | buffer (full : Bool)
  /-- the timer of the last `cleanup` fires -/
  | cleanupTimer
  | trouble (trouble : Trouble)
  /-- the user stops -/
  | stop
  /-- the user begins another experiment -/
  | begin
  /-- a candidate of this side is found and can be signaled, or cannot -/
  | localCandidate (parsed : Candidate) (signals : Bool)
  /-- the other side's candidate is signaled -/
  | remoteCandidate (parsed : Candidate)

/-- `acceptedCandidate`, of what `candidateInfo` returned. -/
def acceptedCandidate (parsed : Candidate) : Option Candidate :=
  if !x.diagnostic then srflxCandidate parsed
  else if parsed.protocol = "udp" ∧ parsed.type ∈ ["host", "srflx"] then some parsed else none

/-- The candidates with one more, unless its address and port are there. -/
def pushed (candidates : List Candidate) (candidate : Candidate) : List Candidate :=
  if candidates.any fun c =>
    c.address == candidate.address && c.port == candidate.port then candidates
  else candidates ++ [candidate]

/-- `onicecandidate` -/
def onIceCandidate (parsed : Candidate) (signals : Bool) : Experiment :=
  if x.ended || x.done then x
  else
    match x.acceptedCandidate parsed with
    | none => x
    | some candidate =>
      let x : Experiment := { x with localCandidates := pushed x.localCandidates candidate }
      if signals then x else x.fail "接続情報の交換が途切れました。" "signaling"

/-- `remoteCandidate`, up to where the connection is told of it. -/
def onRemoteCandidate (parsed : Candidate) : Experiment :=
  if x.ended || x.done then x
  else
    match x.acceptedCandidate parsed with
    | none => x
    | some candidate => { x with remoteCandidates := pushed x.remoteCandidates candidate }

/-- The next message of `dataQueue` has its turn when the handler before it has returned. -/
def handleNext : Option Experiment :=
  match x.handling, x.queue with
  | none, data :: queue =>
      some (({ x with queue := queue, handled := x.handled ++ [data] } : Experiment).onData data)
  | _, _ => none

/-- A snapshot of `sendPayload` is settled. -/
def payloadStats (stats : Except String Stats) : Option Experiment :=
  match x.payload with
  | .before => some (x.sendBlocks stats)
  | .after => some (x.sendComplete stats)
  | _ => none

/-- The snapshot of `receiveComplete` is settled. -/
def completeStats (stats : Except String Stats) : Option Experiment :=
  x.handling.map fun data => ({ x with handling := none } : Experiment).sendAck data stats

/-- `sendPayload` goes on after an exchange. -/
def settled : Option Experiment :=
  match x.payload, x.reply with
  | .echoing index, some (.ok data) =>
      some (({ x with reply := none } : Experiment).echoed index data)
  | .acking, some (.ok data) => some (({ x with reply := none } : Experiment).acked data)
  | .echoing _, some (.error message) =>
    some (({ x with payload := .returned, reply := none } : Experiment).throws message "echo")
  | .acking, some (.error message) =>
    some (({ x with payload := .returned, reply := none } : Experiment).throws message "echo")
  | _, _ => none

/-- A `catch` runs. -/
def catches : Option Experiment :=
  match x.caught with
  | (message, stage) :: caught =>
      some (({ x with caught := caught } : Experiment).fail message stage)
  | [] => none

/-- One step of one side. -/
def step : Input → Option Experiment
  | .opens =>
      if x.readyState = .connecting then
        some ({ x with readyState := .opened } : Experiment).onOpen
      else none
  | .openStats stats ice =>
      if x.opening then some (({ x with opening := false } : Experiment).opened stats ice) else none
  | .handle => x.handleNext
  | .payloadStats stats => x.payloadStats stats
  | .completeStats stats => x.completeStats stats
  | .settled => x.settled
  | .timeout => if x.pending.isSome then some (x.reject "データ応答がタイムアウトしました。") else none
  | .catches => x.catches
  | .closes => some { x with readyState := .closed }
  | .buffer full => some { x with full := full }
  | .cleanupTimer =>
      if x.closing then some ({ x with closing := false } : Experiment).cleanup else none
  | .trouble trouble =>
      some (if x.heeds trouble then x.fail trouble.failure.1 trouble.failure.2 else x)
  | .stop => some (if x.done then x.cleanup else x.fail "ユーザーが測定を中止しました。" "cancelled")
  | .begin => some x.cleanup
  | .localCandidate parsed signals => some (x.onIceCandidate parsed signals)
  | .remoteCandidate parsed => some (x.onRemoteCandidate parsed)

end Experiment

end IrohExperiment.Peer
