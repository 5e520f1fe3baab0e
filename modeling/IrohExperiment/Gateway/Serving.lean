/-
# Serving a tunnelled stream (`tcp-tunnel/src/lib.rs`)

`serve_stream`: the request is read, the service is looked up, its target is dialed, and
the answer is one status.  Whatever a client sends, nothing but the stored target of a
listed service is ever dialed, and nothing is forwarded unless the dial succeeded.

`copyBidirectional` and `connect` are parameters: the copy of `tokio`, which says what went
over and which side failed, and the outcome of a dial.  The main result is
`serveStream_served`, for any bytes, any map and any outcome of the dial, of the writes and
of the copy.
-/
import IrohExperiment.Gateway.Handshake

namespace IrohExperiment.Gateway

open Rust

/-! ## Copying -/

/-- The two sides of a copy: the tunnelled stream, and the socket that it is copied to. -/
inductive Side where
  | stream
  | other
  deriving DecidableEq, Repr

/-- What copying in both directions comes to: what is moved, and the two counts, an error
and the side that failed, or no end at all. -/
structure Copied where
  transfers : List Transfer
  result : Option (Except (Side × ErrorKind) (ℕ × ℕ))

/-- `tokio::io::copy_bidirectional` between the stream and the other side; its error does not
say which side failed. -/
def copyBidirectional (copy : Source → Source → Copied) (other : Source) :
    Task Wire ErrorKind (ℕ × ℕ) where
  run wire :=
    let copied := copy wire.source other
    let wire := { wire with log := wire.log ++ copied.transfers.map .moved }
    match copied.result with
    | some (.ok counts) => .returned (.ok counts) wire
    | some (.error (_, kind)) => .returned (.error kind) wire
    | none => .hangs wire

/-! ## The gateway -/

/-- `send_terminal_status` -/
def sendTerminalStatus (status : TunnelStatus) : Task Wire Anyhow Unit := do
  writeStatus status
  (put [.finished]).mapErr (ioContext "finish write side after terminal status")

/-- How a dial fares, and what the upstream has to send. -/
inductive Dial where
  | connected (upstream : Source)
  | fails (kind : ErrorKind)
  | hangs
  deriving DecidableEq, Repr

/-- `TcpStream::connect` -/
def connect (dial : Text → Dial) (target : Text) : Task Wire ErrorKind Source where
  run wire :=
    let wire := { wire with log := wire.log ++ [.dialed target] }
    match dial target with
    | .connected upstream => .returned (.ok upstream) wire
    | .fails kind => .returned (.error kind) wire
    | .hangs => .hangs wire

/-- What a timeout makes of dialing. -/
def Dial.outcome : Dial → Option (Except ErrorKind Source)
  | .connected upstream => some (.ok upstream)
  | .fails kind => some (.error kind)
  | .hangs => none

theorem timeout_connect (dial : Text → Dial) (target : Text) (wire : Wire) :
    (Task.timeout (connect dial target) : Task Wire Anyhow _).run wire =
      .returned (.ok (dial target).outcome) { wire with log := wire.log ++ [.dialed target] } := by
  rw [Task.run_timeout]
  cases hdial : dial target <;> simp only [connect, hdial, Dial.outcome]

/-- `serve_stream`, once the upstream is connected -/
def openTunnel (copy : Source → Source → Copied) (up : Source) : Task Wire Anyhow TunnelStatus := do
  writeStatus .ok
  let _ ← (copyBidirectional copy up).mapErr (ioContext "tunnel pipe failed")
  return .ok

/-- `serve_stream`, once the service id has been read -/
def serveRequest (dial : Text → Dial) (copy : Source → Source → Copied) (services : ServiceMap)
    (serviceId : Text) : Task Wire Anyhow TunnelStatus := do
  match services.get serviceId with
  | none =>
    sendTerminalStatus .unknownService
    return .unknownService
  | some target =>
    match ← Task.timeout (connect dial target) with
    | some (.error kind) =>
      sendTerminalStatus .upstreamUnreachable
      .throw (.context ("dial upstream ".toList ++ target) (ioError kind))
    | none =>
      sendTerminalStatus .upstreamUnreachable
      .throw (.other ("dial upstream ".toList ++ target ++ " timed out".toList))
    | some (.ok up) => openTunnel copy up

/-- `serve_stream` -/
def serveStream (dial : Text → Dial) (copy : Source → Source → Copied) (services : ServiceMap) :
    Task Wire Anyhow TunnelStatus := do
  match ← Task.timeout (readEarly readRequest) with
  | some (.ok serviceId) => serveRequest dial copy services serviceId
  | some (.error e) =>
    let _ ← Task.attempt (sendTerminalStatus .badRequest)
    .throw (.context "malformed tunnel request".toList e)
  | none =>
    let _ ← Task.attempt (sendTerminalStatus .badRequest)
    .throw (.other "tunnel request timed out".toList)

/-! ## The status -/

/-- The status that a client is due. -/
def Due (services : ServiceMap) (dial : Text → Dial) (bytes : Bytes) : TunnelStatus → Prop
  | .ok => ∃ serviceId target up, BeginsWithRequest bytes serviceId ∧
      services.get serviceId = some target ∧ dial target = .connected up
  | .unknownService =>
      ∃ serviceId, BeginsWithRequest bytes serviceId ∧ services.get serviceId = none
  | .unauthorized => False
  | .upstreamUnreachable => ∃ serviceId target, BeginsWithRequest bytes serviceId ∧
      services.get serviceId = some target ∧ ∀ up, dial target ≠ .connected up
  | .badRequest => ∀ serviceId, ¬ BeginsWithRequest bytes serviceId

/-- The status for a service id, by what the map has for it. -/
def answer (dial : Text → Dial) : Option Text → TunnelStatus
  | none => .unknownService
  | some target =>
    match dial target with
    | .connected _ => .ok
    | _ => .upstreamUnreachable

theorem due_of_begins {services : ServiceMap} {dial : Text → Dial} {bytes : Bytes}
    {serviceId : Text} (hid : BeginsWithRequest bytes serviceId) (status : TunnelStatus) :
    Due services dial bytes status ↔ status = answer dial (services.get serviceId) := by
  have huniq : ∀ id, BeginsWithRequest bytes id ↔ id = serviceId := by
    intro id
    constructor
    · intro h
      exact h.unique hid
    · rintro rfl
      exact hid
  cases hget : services.get serviceId with
  | none => cases status <;> simp [Due, huniq, hget, answer]
  | some target =>
    cases hdial : dial target <;> cases status <;> simp [Due, huniq, hget, hdial, answer]

theorem due_of_not_begins {services : ServiceMap} {dial : Text → Dial} {bytes : Bytes}
    (hid : ∀ serviceId, ¬ BeginsWithRequest bytes serviceId) (status : TunnelStatus) :
    Due services dial bytes status ↔ status = .badRequest := by
  cases status <;> simp [Due, hid]

/-- A client is due one status at most. -/
theorem Due.unique {services : ServiceMap} {dial : Text → Dial} {bytes : Bytes}
    {status status' : TunnelStatus} (h : Due services dial bytes status)
    (h' : Due services dial bytes status') : status = status' := by
  by_cases hid : ∃ serviceId, BeginsWithRequest bytes serviceId
  · obtain ⟨serviceId, hid⟩ := hid
    rw [due_of_begins hid] at h h'
    rw [h, h']
  · rw [due_of_not_begins (not_exists.mp hid)] at h h'
    rw [h, h']

/-! ## The log -/

/-- The next write or flush succeeds. -/
def Wire.Accepts (wire : Wire) : Prop := ∀ fate ∈ wire.fates.head?, fate = .succeeds

instance (wire : Wire) : Decidable wire.Accepts :=
  inferInstanceAs (Decidable (∀ fate ∈ wire.fates.head?, fate = .succeeds))

/-- What the next write leaves in the log. -/
def Wire.accepted (wire : Wire) (events : List Event) : List Event :=
  if wire.Accepts then events else []

/-- What is put on the stream is in the log if the write succeeds, and only then. -/
theorem put_state (events : List Event) (wire : Wire) :
    ((put events).run wire).state.log = wire.log ++ wire.accepted events ∧
      ∀ u wire', (put events).run wire = .returned (.ok u) wire' → wire.Accepts := by
  obtain ⟨early, late, fates, log⟩ := wire
  unfold put Wire.accepted Wire.Accepts
  cases fates with
  | nil => simp [Verdict.state]
  | cons fate fates => cases fate <;> simp [Verdict.state]

theorem put_nil_state (wire : Wire) : ((put []).run wire).state.log = wire.log := by
  have h := (put_state [] wire).1
  unfold Wire.accepted at h
  rwa [ite_self, List.append_nil] at h

/-- Writing a status leaves its byte. -/
theorem writeStatus_state (status : TunnelStatus) (wire : Wire) :
    ((writeStatus status).run wire).state.log = wire.log ++ wire.accepted [.wrote [status.toU8]] ∧
      ∀ u wire', (writeStatus status).run wire = .returned (.ok u) wire' → wire.Accepts := by
  obtain ⟨hlog, hok⟩ := put_state [.wrote [status.toU8]] wire
  unfold writeStatus
  rcases Task.bind_cases ((put [.wrote [status.toU8]]).mapErr ioError)
    (fun _ => (put []).mapErr ioError) wire
    with ⟨u, wire₁, hwrite, hrun⟩ | ⟨hstate, hfails⟩
  · rw [Task.mapErr_eq_ok] at hwrite
    rw [hwrite] at hlog
    refine ⟨?_, fun _ _ _ => hok u wire₁ hwrite⟩
    rw [hrun, Task.mapErr_state, put_nil_state]
    exact hlog
  · refine ⟨?_, fun u wire' h => absurd h (hfails u wire')⟩
    rw [hstate, Task.mapErr_state]
    exact hlog

/-- The log that a task leaves: what was there, what one write puts there, and whatever else
is admitted. -/
def Leaves (log : List Event) (wire : Wire) (events : List Event)
    (Admitted : Event → Prop) : Prop :=
  ∃ rest, log = wire.log ++ wire.accepted events ++ rest ∧ ∀ event ∈ rest, Admitted event

/-- A terminal status leaves its byte, and the end of the write side at most. -/
theorem sendTerminalStatus_state (status : TunnelStatus) (wire : Wire) :
    Leaves ((sendTerminalStatus status).run wire).state.log wire [.wrote [status.toU8]]
      (· = .finished) := by
  have hlog := (writeStatus_state status wire).1
  unfold sendTerminalStatus
  rcases Task.bind_cases (writeStatus status)
    (fun _ => (put [.finished]).mapErr (ioContext "finish write side after terminal status")) wire
    with ⟨u, wire₁, hwrite, hrun⟩ | ⟨hstate, -⟩
  · rw [hwrite] at hlog
    have hlog₁ : wire₁.log = wire.log ++ wire.accepted [.wrote [status.toU8]] := hlog
    rw [hrun, Task.mapErr_state, (put_state [.finished] wire₁).1, hlog₁]
    refine ⟨_, rfl, ?_⟩
    unfold Wire.accepted
    intro event hevent
    split_ifs at hevent with haccepts
    · exact List.mem_singleton.mp hevent
    · cases hevent
  · rw [hstate]
    exact ⟨[], by rw [hlog, List.append_nil], nofun⟩

/-- The dials for a service id, by what the map has for it. -/
def dials : Option Text → List Event
  | none => []
  | some target => [.dialed target]

/-- What else may follow the status: the end of the write side, and what is moved once the
tunnel is open. -/
def Admitted (status : TunnelStatus) (wire : Wire) (event : Event) : Prop :=
  event = .finished ∨ status = .ok ∧ wire.Accepts ∧ ∃ transfer, event = .moved transfer

theorem Leaves.mono {log : List Event} {wire : Wire} {events : List Event} {P Q : Event → Prop}
    (h : Leaves log wire events P) (himp : ∀ event, P event → Q event) :
    Leaves log wire events Q := by
  obtain ⟨rest, hlog, hrest⟩ := h
  exact ⟨rest, hlog, fun event hevent => himp event (hrest event hevent)⟩

/-- What is copied leaves transfers. -/
theorem copyBidirectional_state (copy : Source → Source → Copied) (other : Source) (wire : Wire) :
    ((copyBidirectional copy other).run wire).state.log =
      wire.log ++ (copy wire.source other).transfers.map .moved := by
  unfold copyBidirectional
  rcases h : (copy wire.source other).result with _ | ⟨⟨side, kind⟩⟩ | counts <;>
    simp [h, Verdict.state]

/-- What a task leaves after one status, and what it returns. -/
def Answers (verdict : Verdict Wire Anyhow TunnelStatus) (wire : Wire)
    (status : TunnelStatus) : Prop :=
  Leaves verdict.state.log wire [.wrote [status.toU8]] (Admitted status wire) ∧
    ∀ status' wire', verdict = .returned (.ok status') wire' → status' = status

theorem openTunnel_answers (copy : Source → Source → Copied) (up : Source) (wire : Wire) :
    Answers ((openTunnel copy up).run wire) wire .ok := by
  obtain ⟨hlog, haccepts⟩ := writeStatus_state .ok wire
  unfold openTunnel
  rcases Task.bind_cases (writeStatus .ok) (fun _ => do
    let _ ← (copyBidirectional copy up).mapErr (ioContext "tunnel pipe failed")
    return TunnelStatus.ok) wire with ⟨u, wire₁, hwrite, hrun⟩ | ⟨hstate, hfails⟩
  · have hok := haccepts u wire₁ hwrite
    rw [hwrite] at hlog
    have hlog₁ : wire₁.log = wire.log ++ wire.accepted [.wrote [TunnelStatus.ok.toU8]] := hlog
    have hcopied := copyBidirectional_state copy up wire₁
    rw [hlog₁] at hcopied
    rw [hrun]
    have hleaves : Leaves ((copyBidirectional copy up).run wire₁).state.log wire
        [.wrote [TunnelStatus.ok.toU8]] (Admitted .ok wire) := by
      refine ⟨_, hcopied, fun event hevent => .inr ⟨rfl, hok, ?_⟩⟩
      obtain ⟨transfer, -, rfl⟩ := List.mem_map.mp hevent
      exact ⟨transfer, rfl⟩
    rcases Task.bind_cases ((copyBidirectional copy up).mapErr (ioContext "tunnel pipe failed"))
      (fun _ => pure TunnelStatus.ok) wire₁ with ⟨counts, wire₂, hcopy, hrun₂⟩ | ⟨hstate, hfails⟩
    · rw [Task.mapErr_eq_ok] at hcopy
      rw [hcopy] at hleaves
      rw [hrun₂]
      refine ⟨hleaves, fun status' wire' h => ?_⟩
      cases h
      rfl
    · refine ⟨?_, fun status' wire' h => absurd h (hfails status' wire')⟩
      rw [hstate, Task.mapErr_state]
      exact hleaves
  · refine ⟨?_, fun status' wire' h => absurd h (hfails status' wire')⟩
    rw [hstate]
    exact ⟨[], by rw [hlog, List.append_nil], nofun⟩

/-- A terminal status, and then the end of the task. -/
theorem terminal_answers {status : TunnelStatus} {x : Task Wire Anyhow TunnelStatus} {wire : Wire}
    (hstate : ∀ wire', (x.run wire').state = wire')
    (hreturned : ∀ wire' status' wire'', x.run wire' = .returned (.ok status') wire'' →
      status' = status) :
    Answers ((do sendTerminalStatus status; x).run wire) wire status := by
  have hleaves := (sendTerminalStatus_state status wire).mono (Q := Admitted status wire)
    fun event h => .inl h
  rcases Task.bind_cases (sendTerminalStatus status) (fun _ => x) wire
    with ⟨u, wire₁, hsend, hrun⟩ | ⟨hkept, hfails⟩
  · rw [hsend] at hleaves
    rw [hrun]
    refine ⟨?_, fun status' wire' h => hreturned wire₁ status' wire' h⟩
    rw [hstate]
    exact hleaves
  · refine ⟨?_, fun status' wire' h => absurd h (hfails status' wire')⟩
    rw [hkept]
    exact hleaves

theorem terminal_throw_answers (status : TunnelStatus) (error : Anyhow) (wire : Wire) :
    Answers ((do sendTerminalStatus status; Task.throw error).run wire) wire status := by
  apply terminal_answers
  · intro wire'
    rw [Task.run_throw]
    rfl
  · intro wire' status' wire'' h
    rw [Task.run_throw] at h
    cases h

/-- A service id that has been read: its target is dialed, if it has one, and the status says
what came of it. -/
theorem serveRequest_answers (dial : Text → Dial) (copy : Source → Source → Copied)
    (services : ServiceMap) (serviceId : Text) (wire : Wire) :
    Answers ((serveRequest dial copy services serviceId).run wire)
      { wire with log := wire.log ++ dials (services.get serviceId) }
      (answer dial (services.get serviceId)) := by
  unfold serveRequest
  cases hget : services.get serviceId with
  | none =>
    simp only [dials, List.append_nil]
    refine terminal_answers (fun _ => rfl) fun wire' status' wire'' h => ?_
    cases h
    rfl
  | some target =>
    simp only [answer, dials]
    rw [Task.bind_ok (timeout_connect dial target wire)]
    cases dial target with
    | connected up => exact openTunnel_answers copy up _
    | fails kind => exact terminal_throw_answers _ _ _
    | hangs => exact terminal_throw_answers _ _ _

/-! ## Serving -/

/-- What serving a stream comes to: one status, the only one that the client is due; in the
log a dial, if any, of the stored target of the service that the client's bytes begin with a
request for, then the status, if it can be written, and nothing else but the end of the write
side and, behind the status of an open tunnel, what is copied. -/
structure Served (services : ServiceMap) (dial : Text → Dial) (before : Wire)
    (verdict : Verdict Wire Anyhow TunnelStatus) (status : TunnelStatus) : Prop where
  due : Due services dial before.early.bytes status
  only : ∀ status', Due services dial before.early.bytes status' → status' = status
  log : ∃ dialed rest,
    verdict.state.log = before.log ++ dialed ++ before.accepted [.wrote [status.toU8]] ++ rest ∧
    (dialed = [] ∧ (status = .unknownService ∨ status = .badRequest) ∨
      ∃ serviceId target, BeginsWithRequest before.source.bytes serviceId ∧
        services.get serviceId = some target ∧ dialed = [.dialed target] ∧
        (status = .ok ∧ (∃ up, dial target = .connected up) ∨
          status = .upstreamUnreachable ∧ ∀ up, dial target ≠ .connected up)) ∧
    ∀ event ∈ rest, event = .finished ∨
      status = .ok ∧ before.Accepts ∧ ∃ transfer, event = .moved transfer
  returned : ∀ status' wire, verdict = .returned (.ok status') wire → status' = status

/-- What arrives in time is what the client's bytes begin with. -/
theorem Wire.early_prefix (wire : Wire) : wire.early.bytes <+: wire.source.bytes := by
  unfold Wire.source
  split_ifs with hsilent
  · unfold Source.bytes
    rw [List.flatMap_append]
    exact List.prefix_append _ _
  · exact List.prefix_rfl

/-- A request that is there is read, and only then. -/
theorem readRequest_iff (source : Source) (serviceId : Text) :
    (∃ source', readRequest.run source = .done serviceId source') ↔
      BeginsWithRequest source.bytes serviceId := by
  constructor
  · rintro ⟨source', h⟩
    obtain ⟨hlen, hbytes, -⟩ := readRequest_eq_done h
    exact ⟨hlen, _, hbytes.symm⟩
  · rintro ⟨hlen, rest, hrest⟩
    obtain ⟨source', h, -⟩ := readRequest_done hlen hrest.symm
    exact ⟨source', h⟩

/-- A request that cannot be read is answered, whether or not the answer can be sent. -/
theorem badRequest_answers (error : Anyhow) (wire : Wire) :
    Answers ((do
      let _ ← Task.attempt (sendTerminalStatus .badRequest)
      Task.throw error : Task Wire Anyhow TunnelStatus).run wire) wire .badRequest := by
  have hleaves := (sendTerminalStatus_state .badRequest wire).mono (Q := Admitted .badRequest wire)
    fun event h => .inl h
  rw [← Task.attempt_state Anyhow] at hleaves
  rcases Task.bind_cases (Task.attempt (sendTerminalStatus .badRequest))
    (fun _ => (Task.throw error : Task Wire Anyhow TunnelStatus)) wire
    with ⟨r, wire₁, hsend, hrun⟩ | ⟨hkept, hfails⟩
  · rw [hsend] at hleaves
    rw [hrun, Task.run_throw]
    exact ⟨hleaves, nofun⟩
  · refine ⟨?_, fun status' wire' h => absurd h (hfails status' wire')⟩
    rw [hkept]
    exact hleaves

/-- The gateway is never an open proxy: whatever a client sends, whatever the map, and however
dials, writes and the copying fare, a stream is served as above. -/
theorem serveStream_served (services : ServiceMap) (dial : Text → Dial)
    (copy : Source → Source → Copied) (before : Wire) :
    ∃ status, Served services dial before ((serveStream dial copy services).run before) status := by
  unfold serveStream
  have hread : (Task.timeout (readEarly readRequest) : Task Wire Anyhow _).run before =
      match readRequest.run before.early with
      | .done serviceId early =>
          .returned (.ok (some (.ok serviceId))) { before with early := early }
      | .failed e => .returned (.ok (some (.error e))) before
      | .waits => .returned (.ok none) before := by
    rw [Task.run_timeout, readEarly, Task.run_ofAsync]
    cases readRequest.run before.early <;> rfl
  by_cases hid : ∃ serviceId, BeginsWithRequest before.early.bytes serviceId
  · obtain ⟨serviceId, hid⟩ := hid
    obtain ⟨early, hdone⟩ := (readRequest_iff before.early serviceId).mpr hid
    rw [hdone] at hread
    rw [Task.bind_ok hread]
    obtain ⟨⟨rest, hlog, hrest⟩, hreturned⟩ :=
      serveRequest_answers dial copy services serviceId { before with early := early }
    refine ⟨answer dial (services.get serviceId), (due_of_begins hid _).mpr rfl,
      fun status' h => (due_of_begins hid _).mp h,
      ⟨dials (services.get serviceId), rest, hlog, ?_, hrest⟩,
      hreturned⟩
    cases hget : services.get serviceId with
    | none => exact .inl ⟨rfl, .inl rfl⟩
    | some target =>
      refine .inr ⟨serviceId, target, ⟨hid.1, hid.2.trans before.early_prefix⟩, hget, rfl, ?_⟩
      unfold answer
      cases hdial : dial target with
      | connected up => exact .inl ⟨by simp only [hdial], up, rfl⟩
      | fails kind => exact .inr ⟨by simp only [hdial], nofun⟩
      | hangs => exact .inr ⟨by simp only [hdial], nofun⟩
  · rw [not_exists] at hid
    -- the read fails or its time runs out, and both get one answer
    have hbad : ∃ error : Anyhow,
      (Task.timeout (readEarly readRequest) : Task Wire Anyhow _).run before =
        .returned (.ok (some (.error error))) before ∨
        (Task.timeout (readEarly readRequest) : Task Wire Anyhow _).run before =
          .returned (.ok none) before := by
      cases hrun : readRequest.run before.early with
      | done serviceId early =>
          exact absurd ((readRequest_iff _ _).mp ⟨early, hrun⟩) (hid serviceId)
      | failed e =>
        rw [hrun] at hread
        exact ⟨e, .inl hread⟩
      | waits =>
        rw [hrun] at hread
        exact ⟨.other [], .inr hread⟩
    have hserved : ∀ verdict, Answers verdict before .badRequest →
        Served services dial before verdict .badRequest := by
      rintro verdict ⟨⟨rest, hlog, hrest⟩, hreturned⟩
      refine ⟨(due_of_not_begins hid _).mpr rfl, fun status' h => (due_of_not_begins hid _).mp h,
        ⟨[], rest, ?_, .inl ⟨rfl, .inr rfl⟩, hrest⟩, hreturned⟩
      rw [hlog, List.append_nil]
    refine ⟨.badRequest, hserved _ ?_⟩
    obtain ⟨error, hbad | hbad⟩ := hbad
    · rw [Task.bind_ok hbad]
      exact badRequest_answers _ before
    · rw [Task.bind_ok hbad]
      exact badRequest_answers _ before

end IrohExperiment.Gateway
