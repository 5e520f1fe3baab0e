/-
# The report of a peer (`cloudflare-h3-observer/src/bin/nat-peer.rs`)

`nat-peer.rs`: one of two peers that observe their own addresses, exchange them in files, connect
on these alone and echo a payload.  What the program puts into its report is settled by how far
it has come.

`natReport` is what `main` writes, from `runPeer`, `runEndpoint` and `validatePeer` as the
source has them.  What the operations come to (`World`) is a parameter.  The main result is
`natReport_truthful`: no attempt is reported that was not made, and no success that was not
checked.
-/
import IrohExperiment.Observer.Paths
import IrohExperiment.Observer.PublicAddress
import IrohExperiment.Rust.Time

namespace IrohExperiment.NatPeer

open Rust Observer

-- `ι` is `EndpointId`
variable {ι : Type}

/-! ## Arguments, candidates and reports -/

/-- `Method` -/
inductive Method where
  | stun
  | h3
  deriving DecidableEq, Repr

/-- `Role` -/
inductive Role where
  | listen
  | dial
  deriving DecidableEq, Repr

/-- `Args`, as far as `run_endpoint` reads them -/
structure Args where
  method : Method
  role : Role
  runId : Text
  bind : SocketAddr
  candidateMaxAgeSecs : UInt64
  allowPrivatePeer : Bool
  deriving DecidableEq, Repr

/-- `Candidate` -/
structure Candidate (ι : Type) where
  schema : ℕ
  runId : Text
  method : Method
  role : Role
  endpointId : ι
  addr : SocketAddr
  deriving DecidableEq, Repr

/-- Why a peer's candidate is refused. -/
inductive PeerError where
  /-- `peer file belongs to a different experiment` -/
  | otherExperiment
  /-- `invalid peer role/identity` -/
  | roleOrIdentity
  /-- `peer uses a different IP family` -/
  | family
  /-- `invalid peer address` -/
  | address
  /-- `private/overlay address rejected; --allow-private-peer is only for local diagnostics` -/
  | privateAddress
  deriving DecidableEq, Repr

/-- Why a run fails. -/
inductive NatError where
  | bind (cause : Text)
  /-- `relay address on experiment endpoint` -/
  | relayAddress
  | discovery (cause : Text)
  | candidateFile (cause : Text)
  | peerFile (cause : Text)
  /-- `observation too old; restart both peers ...` -/
  | tooOld
  | peer (error : PeerError)
  | connect (cause : Text)
  /-- `unexpected authenticated peer` -/
  | unexpectedPeer
  | path (error : PathError)
  deriving DecidableEq, Repr

/-- `Report` -/
structure Report (ι : Type) where
  schema : String
  runId : Text
  method : Option Method
  role : Option Role
  diagnosticPrivatePeers : Bool
  localObservation : Option (Candidate ι)
  peerObservation : Option (Candidate ι)
  candidateRegistered : Bool
  sameSocketAsIroh : Bool
  automaticPathDiscoveryDisabled : Bool
  observedPeerPathOnly : Bool
  differentObservedIps : Option Bool
  ipv4Pair : Option Bool
  directConnectionSuccess : Option Bool
  echoSuccess : Option Bool
  timeToConnectMs : Option UInt64
  observationAgeAtConnectMs : Option UInt64
  payloadBytes : ℕ
  selectedPath : Option String
  failureReason : Option NatError
  deriving DecidableEq, Repr

/-- The report that `main` starts with. -/
def Report.start (args : Args) : Report ι where
  schema := "nat-peer-v1"
  runId := args.runId
  method := some args.method
  role := some args.role
  diagnosticPrivatePeers := args.allowPrivatePeer
  localObservation := none
  peerObservation := none
  candidateRegistered := false
  sameSocketAsIroh := false
  automaticPathDiscoveryDisabled := false
  observedPeerPathOnly := false
  differentObservedIps := none
  ipv4Pair := none
  directConnectionSuccess := none
  echoSuccess := none
  timeToConnectMs := none
  observationAgeAtConnectMs := none
  payloadBytes := 0
  selectedPath := none
  failureReason := none

/-! ## The program -/

/-- A connection: who is authenticated at its other end, and its paths. -/
structure Connected (ι : Type) where
  remoteId : ι
  paths : List PathInfo
  deriving DecidableEq, Repr

/-- What the operations of a run come to. -/
structure World (ι : Type) where
  bind : Except Text Unit
  /-- no address of the endpoint is a relay's -/
  onlyIp : Bool
  discover : Except Text SocketAddr
  writeCandidate : Except Text Unit
  waitPeer : Except Text (Candidate ι)
  /-- the age of the observation, when it is reported and, with a second look at the clock, when
  it is checked -/
  reportedAge : Duration
  checkedAge : Duration
  connectPeer : Except Text (Connected ι)
  connectTime : Duration
  echoOnObservedPath : Except PathError Unit

/-- `PAYLOAD_BYTES` -/
def payloadBytes : ℕ := 64 * 1024

/-- `validate_peer` -/
def validatePeer [DecidableEq ι] (args : Args) (localId : ι) (observed : SocketAddr)
    (peer : Candidate ι) : Except PeerError Unit :=
  if ¬ (peer.schema = 1 ∧ peer.runId = args.runId ∧ peer.method = args.method) then
    .error .otherExperiment
  else if ¬ (peer.role ≠ args.role ∧ peer.endpointId ≠ localId) then .error .roleOrIdentity
  else if ¬ (peer.addr.isIpv4 = args.bind.isIpv4) then .error .family
  else if ¬ (peer.addr.port ≠ 0 ∧ peer.addr.ip.isUnspecified = false ∧
      peer.addr.ip.isMulticast = false) then .error .address
  else if ¬ (args.allowPrivatePeer = true ∨
      (publicIp peer.addr.ip = true ∧ publicIp observed.ip = true)) then .error .privateAddress
  else .ok ()

/-- The candidate that a peer writes for the other one. -/
def localCandidate (args : Args) (localId : ι) (observed : SocketAddr) : Candidate ι :=
  ⟨1, args.runId, args.method, args.role, localId, observed⟩

/-- `run_endpoint`, from when the connection is there -/
def useConnection [DecidableEq ι] (w : World ι) (peer : Candidate ι) (conn : Connected ι)
    (report : Report ι) : Report ι × Except NatError Unit :=
  if conn.remoteId ≠ peer.endpointId then (report, .error .unexpectedPeer)
  else
    match checkDirect conn.paths peer.addr with
    | .error error => (report, .error (.path error))
    | .ok () =>
      let report := { report with
        directConnectionSuccess := some true
        selectedPath := some "direct-ip"
        timeToConnectMs := some (asU64 w.connectTime.asMillis)
        echoSuccess := some false }
      match w.echoOnObservedPath with
      | .error error => (report, .error (.path error))
      | .ok () =>
        ({ report with
          observedPeerPathOnly := true
          echoSuccess := some true
          payloadBytes := payloadBytes }, .ok ())

/-- `run_endpoint`, from when the peer's candidate is there -/
def usePeer [DecidableEq ι] (args : Args) (localId : ι) (w : World ι) (observed : SocketAddr)
    (peer : Candidate ι) (report : Report ι) : Report ι × Except NatError Unit :=
  let report := { report with observationAgeAtConnectMs := some (asU64 w.reportedAge.asMillis) }
  if ¬ w.checkedAge ≤ .fromSecs args.candidateMaxAgeSecs then (report, .error .tooOld)
  else
    match validatePeer args localId observed peer with
    | .error error => (report, .error (.peer error))
    | .ok () =>
      let report := { report with
        differentObservedIps := some (peer.addr.ip ≠ observed.ip)
        ipv4Pair := some observed.isIpv4
        peerObservation := some peer
        directConnectionSuccess := some false }
      match w.connectPeer with
      | .error cause => (report, .error (.connect cause))
      | .ok conn => useConnection w peer conn report

/-- `run_endpoint` -/
def runEndpoint [DecidableEq ι] (args : Args) (localId : ι) (w : World ι) (report : Report ι) :
    Report ι × Except NatError Unit :=
  if ¬ w.onlyIp = true then (report, .error .relayAddress)
  else
    match w.discover with
    | .error cause => (report, .error (.discovery cause))
    | .ok observed =>
      let report := { report with candidateRegistered := true, sameSocketAsIroh := true }
      match w.writeCandidate with
      | .error cause => (report, .error (.candidateFile cause))
      | .ok () =>
        let report := { report with
          localObservation := some (localCandidate args localId observed) }
        match w.waitPeer with
        | .error cause => (report, .error (.peerFile cause))
        | .ok peer => usePeer args localId w observed peer report

/-- `run` -/
def runPeer [DecidableEq ι] (args : Args) (localId : ι) (w : World ι) (report : Report ι) :
    Report ι × Except NatError Unit :=
  match w.bind with
  | .error cause => (report, .error (.bind cause))
  | .ok () => runEndpoint args localId w { report with automaticPathDiscoveryDisabled := true }

/-- `report.failure_reason`, if there is one -/
def settle (run : Report ι × Except NatError Unit) : Report ι :=
  match run.2 with
  | .ok () => run.1
  | .error error => { run.1 with failureReason := some error }

/-- What `main` writes. -/
def natReport [DecidableEq ι] (args : Args) (localId : ι) (w : World ι) : Report ι :=
  settle (runPeer args localId w (.start args))

/-! ## What a report says -/

/-- Nothing has been attempted yet. -/
structure Unattempted (r : Report ι) : Prop where
  peer : r.peerObservation = none
  direct : r.directConnectionSuccess = none
  echo : r.echoSuccess = none
  path : r.selectedPath = none
  time : r.timeToConnectMs = none
  payload : r.payloadBytes = 0 ∧ r.observedPeerPathOnly = false
  failure : r.failureReason = none

/-- The peer of a report is the one from the file, and has passed every check. -/
def Validated [DecidableEq ι] (args : Args) (localId : ι) (w : World ι) (r : Report ι)
    (peer : Candidate ι) : Prop :=
  w.waitPeer = .ok peer ∧ ∃ observed, w.discover = .ok observed ∧
    r.localObservation = some (localCandidate args localId observed) ∧
      validatePeer args localId observed peer = .ok () ∧
      w.checkedAge ≤ .fromSecs args.candidateMaxAgeSecs ∧
      r.differentObservedIps = some (decide (peer.addr.ip ≠ observed.ip))

/-- What a report comes to: an attempt is never reported that was not made, a success never
that was not checked, and a run without a failure has its whole payload to show for it. -/
structure Truthful [DecidableEq ι] (args : Args) (localId : ι) (w : World ι) (r : Report ι) :
    Prop where
  success : r.failureReason = none ↔ r.echoSuccess = some true
  echoed : r.echoSuccess = some true →
    r.payloadBytes = payloadBytes ∧ r.observedPeerPathOnly = true ∧ w.echoOnObservedPath = .ok ()
  unechoed : r.echoSuccess ≠ some true → r.payloadBytes = 0 ∧ r.observedPeerPathOnly = false
  direct : r.directConnectionSuccess = some true ↔ r.echoSuccess.isSome = true
  path : r.directConnectionSuccess = some true ↔ r.selectedPath = some "direct-ip"
  time : r.directConnectionSuccess = some true ↔ r.timeToConnectMs.isSome = true
  attempted : r.directConnectionSuccess.isSome = r.peerObservation.isSome
  connected : r.directConnectionSuccess = some true → ∃ peer conn,
    r.peerObservation = some peer ∧ w.connectPeer = .ok conn ∧ conn.remoteId = peer.endpointId ∧
      checkDirect conn.paths peer.addr = .ok ()
  peer : ∀ peer, r.peerObservation = some peer → Validated args localId w r peer

variable [DecidableEq ι] {args : Args} {localId : ι} {w : World ι} {r : Report ι}

/-- A run that fails before it connects. -/
theorem Unattempted.truthful (h : Unattempted r) (error : NatError) :
    Truthful args localId w (settle (r, .error error)) where
  success := by simp [settle, h.echo]
  echoed hecho := by simp [settle, h.echo] at hecho
  unechoed _ := h.payload
  direct := by simp [settle, h.direct, h.echo]
  path := by simp [settle, h.direct, h.path]
  time := by simp [settle, h.direct, h.time]
  attempted := by simp [settle, h.direct, h.peer]
  connected hdirect := by simp [settle, h.direct] at hdirect
  peer peer hpeer := by simp [settle, h.peer] at hpeer

/-- A run that has a peer to connect to. -/
structure Attempting (args : Args) (localId : ι) (w : World ι) (peer : Candidate ι)
    (r : Report ι) : Prop where
  given : r.peerObservation = some peer
  direct : r.directConnectionSuccess = some false
  echo : r.echoSuccess = none
  path : r.selectedPath = none
  time : r.timeToConnectMs = none
  payload : r.payloadBytes = 0 ∧ r.observedPeerPathOnly = false
  failure : r.failureReason = none
  valid : Validated args localId w r peer

variable {peer : Candidate ι}

/-- A run that fails before it is connected to its peer. -/
theorem Attempting.truthful (h : Attempting args localId w peer r) (error : NatError) :
    Truthful args localId w (settle (r, .error error)) where
  success := by simp [settle, h.echo]
  echoed hecho := by simp [settle, h.echo] at hecho
  unechoed _ := h.payload
  direct := by simp [settle, h.direct, h.echo]
  path := by simp [settle, h.direct, h.path]
  time := by simp [settle, h.direct, h.time]
  attempted := by simp [settle, h.direct, h.given]
  connected hdirect := by simp [settle, h.direct] at hdirect
  peer peer' hpeer := by
    obtain rfl := Option.some.inj (h.given.symm.trans hpeer)
    exact h.valid

theorem Attempting.useConnection (h : Attempting args localId w peer r) {conn : Connected ι}
    (hconn : w.connectPeer = .ok conn) :
    Truthful args localId w (settle (useConnection w peer conn r)) := by
  unfold NatPeer.useConnection
  split_ifs with hremote
  · exact h.truthful .unexpectedPeer
  · rw [not_not] at hremote
    split
    · next error hdirect => exact h.truthful (.path error)
    · next hdirect =>
      have hconnected : ∃ peer' conn', r.peerObservation = some peer' ∧
          w.connectPeer = .ok conn' ∧ conn'.remoteId = peer'.endpointId ∧
          checkDirect conn'.paths peer'.addr = .ok () :=
        ⟨peer, conn, h.given, hconn, hremote, hdirect⟩
      have hpeer : ∀ peer', r.peerObservation = some peer' → Validated args localId w r peer' := by
        intro peer' hpeer'
        obtain rfl := Option.some.inj (h.given.symm.trans hpeer')
        exact h.valid
      split
      · next error hecho =>
        exact ⟨by simp [settle], fun hs => by simp [settle] at hs, fun _ => h.payload,
          by simp [settle], by simp [settle], by simp [settle], by simp [settle, h.given],
          fun _ => hconnected, hpeer⟩
      · next hecho =>
        exact ⟨by simp [settle, h.failure], fun _ => ⟨rfl, rfl, hecho⟩,
          fun hs => absurd rfl hs, by simp [settle], by simp [settle], by simp [settle],
          by simp [settle, h.given], fun _ => hconnected, hpeer⟩

theorem truthful_usePeer {observed : SocketAddr} (h : Unattempted r)
    (hlocal : r.localObservation = some (localCandidate args localId observed))
    (hdiscover : w.discover = .ok observed) (hpeer : w.waitPeer = .ok peer) :
    Truthful args localId w (settle (usePeer args localId w observed peer r)) := by
  have hreported : Unattempted { r with
      observationAgeAtConnectMs := some (asU64 w.reportedAge.asMillis) } :=
    ⟨h.peer, h.direct, h.echo, h.path, h.time, h.payload, h.failure⟩
  unfold usePeer
  simp only
  split_ifs with hage
  · split
    · next error hvalid => exact hreported.truthful (.peer error)
    · next hvalid =>
      have hattempting : Attempting args localId w peer { r with
          observationAgeAtConnectMs := some (asU64 w.reportedAge.asMillis)
          differentObservedIps := some (peer.addr.ip ≠ observed.ip)
          ipv4Pair := some observed.isIpv4
          peerObservation := some peer
          directConnectionSuccess := some false } :=
        ⟨rfl, rfl, h.echo, h.path, h.time, h.payload, h.failure, hpeer, observed, hdiscover, hlocal,
          hvalid, hage, rfl⟩
      split
      · next cause hconn => exact hattempting.truthful (.connect cause)
      · next conn hconn => exact hattempting.useConnection hconn
  · exact hreported.truthful .tooOld

/-- Whatever the operations of a run come to, its report is truthful. -/
theorem natReport_truthful (args : Args) (localId : ι) (w : World ι) :
    Truthful args localId w (natReport args localId w) := by
  unfold natReport runPeer
  split
  · next cause hbind =>
    exact Unattempted.truthful ⟨rfl, rfl, rfl, rfl, rfl, ⟨rfl, rfl⟩, rfl⟩ (.bind cause)
  · unfold runEndpoint
    split_ifs
    · split
      · next cause hdiscover =>
        exact Unattempted.truthful ⟨rfl, rfl, rfl, rfl, rfl, ⟨rfl, rfl⟩, rfl⟩ (.discovery cause)
      · next observed hdiscover =>
        split
        · next cause hwrite =>
          exact Unattempted.truthful ⟨rfl, rfl, rfl, rfl, rfl, ⟨rfl, rfl⟩, rfl⟩
            (.candidateFile cause)
        · split
          · next cause hwait =>
            exact Unattempted.truthful ⟨rfl, rfl, rfl, rfl, rfl, ⟨rfl, rfl⟩, rfl⟩ (.peerFile cause)
          · next peer hwait =>
            exact truthful_usePeer ⟨rfl, rfl, rfl, rfl, rfl, ⟨rfl, rfl⟩, rfl⟩ rfl hdiscover hwait
    · exact Unattempted.truthful ⟨rfl, rfl, rfl, rfl, rfl, ⟨rfl, rfl⟩, rfl⟩ .relayAddress

end IrohExperiment.NatPeer
