/-
# The tunnel from end to end (`tcp-tunnel/src/lib.rs`)

`drive_client` on the one end of a stream and `serve_stream` on the other: the handshake
leaves the payload alone, and the two counts of the client are those of the upload and the
download.

The two ends are joined by the bytes that they write.  The copy is a parameter that hands on
what it reads (`Verbatim`).  The main result is `tunnel_transparent`: the payload of either
side arrives as it was sent, and both counts are right.
-/
import IrohExperiment.Gateway.Serving

namespace IrohExperiment.Gateway

open Rust

/-! ## The client -/

/-- Bytes moved through one tunnelled stream, by direction. -/
structure ByteCounts where
  /-- Bytes sent from the client towards the gateway. -/
  toGateway : ℕ
  /-- Bytes received from the gateway by the client. -/
  fromGateway : ℕ
  deriving DecidableEq, Repr

/-- The request and the status of `drive_client` -/
def clientHandshake (serviceId : Text) : Task Wire Anyhow TunnelStatus := do
  writeRequest serviceId
  readEarly readStatus

/-- The error of a service that the gateway has refused; `debug` is how a text is shown by
`{:?}`. -/
def rejection (debug : Text → Text) (serviceId : Text) (status : TunnelStatus) : Anyhow :=
  .other ("gateway rejected service ".toList ++ debug serviceId ++ ": ".toList ++ status.message)

/-- `drive_client`, once there is a status -/
def clientTunnel (debug : Text → Text) (copy : Source → Source → Copied) (localSide : Source)
    (serviceId : Text) (status : TunnelStatus) : Task Wire Anyhow ByteCounts :=
  if status ≠ .ok then .throw (rejection debug serviceId status)
  else do
    let (fromGateway, toGateway) ←
      (copyBidirectional copy localSide).mapErr (ioContext "tunnel pipe failed")
    return ⟨toGateway, fromGateway⟩

/-- `drive_client` -/
def driveClient (debug : Text → Text) (copy : Source → Source → Copied) (localSide : Source)
    (serviceId : Text) : Task Wire Anyhow ByteCounts := do
  match ← Task.timeout (clientHandshake serviceId) with
  | none =>
      .throw (.context "tunnel handshake timed out".toList (.other "deadline has elapsed".toList))
  | some (.error e) => .throw e
  | some (.ok status) => clientTunnel debug copy localSide serviceId status

/-! ## Requests that are written -/

/-- Every write and flush succeeds. -/
def Wire.Healthy (wire : Wire) : Prop := ∀ fate ∈ wire.fates, fate = .succeeds

/-- What a write that returns has done. -/
theorem put_eq_ok {events : List Event} {wire wire' : Wire} {u : Unit}
    (h : (put events).run wire = .returned (.ok u) wire') :
    wire' = { wire with log := wire.log ++ events, fates := wire.fates.tail } := by
  obtain ⟨early, late, fates, log⟩ := wire
  unfold put at h
  rcases fates with _ | ⟨_ | kind | _, fates⟩ <;> cases h <;> rfl

theorem put_healthy {wire : Wire} (h : wire.Healthy) (events : List Event) :
    (put events).run wire =
        .returned (.ok ()) { wire with log := wire.log ++ events, fates := wire.fates.tail } ∧
      Wire.Healthy { wire with log := wire.log ++ events, fates := wire.fates.tail } := by
  obtain ⟨early, late, fates, log⟩ := wire
  refine ⟨?_, fun fate hfate => h fate (List.mem_of_mem_tail hfate)⟩
  cases fates with
  | nil => rfl
  | cons fate fates =>
    rw [h fate List.mem_cons_self]
    rfl

/-- What a request leaves in the log. -/
def requestEvents (serviceId : Text) : List Event :=
  [.wrote [protocolVersion], .wrote (toBe 2 (utf8Len serviceId)), .wrote (utf8 serviceId)]

theorem sent_requestEvents (serviceId : Text) :
    (requestEvents serviceId).flatMap Event.sent = request serviceId := by
  simp [requestEvents, request, Event.sent]

/-- An id that is too long is refused before anything is written. -/
theorem writeRequest_long {serviceId : Text} (hlong : maxServiceIdLen < utf8Len serviceId)
    (wire : Wire) :
    ∃ error, (writeRequest serviceId).run wire = .returned (.error error) wire := by
  unfold writeRequest
  by_cases hu16 : (utf8 serviceId).length < 2 ^ 16
  · simp only [if_pos hu16]
    rw [Task.bind_ok (Task.run_ofExcept _ _),
      if_neg (show ¬ (utf8 serviceId).length ≤ maxServiceIdLen by
      exact not_le.mpr hlong)]
    exact ⟨_, Task.bind_error (Task.run_ofExcept _ _)⟩
  · simp only [if_neg hu16]
    exact ⟨_, Task.bind_error (Task.run_ofExcept _ _)⟩

/-- A request that has been written is on the stream. -/
theorem writeRequest_eq_ok {serviceId : Text} {wire wire' : Wire} {u : Unit}
    (h : (writeRequest serviceId).run wire = .returned (.ok u) wire') :
    wire'.log = wire.log ++ requestEvents serviceId ∧ wire'.early = wire.early ∧
      wire'.late = wire.late := by
  unfold writeRequest at h
  obtain ⟨_, wire₁, h₁, h⟩ := Task.bind_eq_ok.mp h
  obtain ⟨_, wire₂, h₂, h⟩ := Task.bind_eq_ok.mp h
  obtain ⟨_, wire₃, h₃, h⟩ := Task.bind_eq_ok.mp h
  obtain ⟨_, wire₄, h₄, h⟩ := Task.bind_eq_ok.mp h
  obtain ⟨_, wire₅, h₅, h⟩ := Task.bind_eq_ok.mp h
  rw [Task.run_ofExcept] at h₁ h₂
  injection h₁ with _ h₁
  injection h₂ with _ h₂
  rw [put_eq_ok (Task.mapErr_eq_ok.mp h), put_eq_ok (Task.mapErr_eq_ok.mp h₅),
    put_eq_ok (Task.mapErr_eq_ok.mp h₄), put_eq_ok (Task.mapErr_eq_ok.mp h₃), ← h₂, ← h₁]
  simp [requestEvents, utf8Len]

/-- A request for an id that is not too long is written if the writes succeed. -/
theorem writeRequest_healthy {serviceId : Text} (hlen : utf8Len serviceId ≤ maxServiceIdLen)
    {wire : Wire} (h : wire.Healthy) :
    ∃ wire', (writeRequest serviceId).run wire = .returned (.ok ()) wire' ∧ wire'.Healthy := by
  have hlen' : (utf8 serviceId).length ≤ maxServiceIdLen := hlen
  have hu16 : (utf8 serviceId).length < 2 ^ 16 := lt_of_le_of_lt hlen' (by decide)
  obtain ⟨hwrite₁, h₁⟩ := put_healthy h [.wrote [protocolVersion]]
  obtain ⟨hwrite₂, h₂⟩ := put_healthy h₁ [.wrote (toBe 2 (utf8 serviceId).length)]
  obtain ⟨hwrite₃, h₃⟩ := put_healthy h₂ [.wrote (utf8 serviceId)]
  obtain ⟨hwrite₄, h₄⟩ := put_healthy h₃ []
  refine ⟨_, ?_, h₄⟩
  unfold writeRequest
  simp only [if_pos hu16, if_pos hlen']
  rw [Task.bind_ok (Task.run_ofExcept _ _), Task.bind_ok (Task.run_ofExcept _ _),
    Task.bind_ok (Task.mapErr_ok hwrite₁), Task.bind_ok (Task.mapErr_ok hwrite₂),
    Task.bind_ok (Task.mapErr_ok hwrite₃)]
  exact Task.mapErr_ok hwrite₄

/-! ## Reading and copying -/

/-- What has been read in time is no longer on the stream, and nothing else is missing. -/
theorem Wire.source_of_early {wire : Wire} {early : Source} {head : Bytes}
    (hbytes : wire.early.bytes = head ++ early.bytes) (hending : early.ending = wire.early.ending) :
    wire.source.bytes = head ++ ({ wire with early := early } : Wire).source.bytes ∧
      ({ wire with early := early } : Wire).source.ending = wire.source.ending := by
  unfold Wire.source
  rw [hending]
  split_ifs with hsilent
  · refine ⟨?_, rfl⟩
    unfold Source.bytes at hbytes ⊢
    rw [List.flatMap_append, List.flatMap_append, hbytes, List.append_assoc]
  · exact ⟨hbytes, hending⟩

/-- What the client's bytes begin with has arrived in time, if enough has. -/
theorem Wire.early_begins {wire : Wire} {head rest : Bytes}
    (hbytes : wire.source.bytes = head ++ rest) (htimely : head.length ≤ wire.early.bytes.length) :
    ∃ rest', wire.early.bytes = head ++ rest' := by
  have hprefix : head <+: wire.source.bytes := ⟨rest, hbytes.symm⟩
  obtain ⟨rest', hrest⟩ := List.prefix_of_prefix_length_le hprefix wire.early_prefix htimely
  exact ⟨rest', hrest.symm⟩

/-- The bytes that are moved off the stream. -/
def Copied.off (copied : Copied) : Bytes := copied.transfers.flatMap fun transfer =>
    (Event.moved transfer).passed

/-- The bytes that are moved onto the stream. -/
def Copied.on (copied : Copied) : Bytes := copied.transfers.flatMap fun transfer =>
    (Event.moved transfer).sent

/-- What is documented of `copy_bidirectional`: each side that ends is forwarded to the other,
all its bytes as they are and its end, and if both end then their bytes are counted, those of
the stream first. -/
structure Verbatim (copy : Source → Source → Copied) : Prop where
  off : ∀ stream other, stream.ending = .finished →
    (copy stream other).off = stream.bytes ∧ .offEnd ∈ (copy stream other).transfers
  on : ∀ stream other, other.ending = .finished →
    (copy stream other).on = other.bytes ∧ .onEnd ∈ (copy stream other).transfers
  counts : ∀ stream other, stream.ending = .finished → other.ending = .finished →
    (copy stream other).result = some (.ok (stream.bytes.length, other.bytes.length))

/-- What one end puts on the stream arrives at the other, in whatever chunks, and so does the
end of its write side. -/
structure Carries (sender : Wire) (receiver : Source) : Prop where
  bytes : receiver.bytes = sender.sent
  ending : sender.HasFinished → receiver.ending = .finished

theorem copyBidirectional_passed (copy : Source → Source → Copied) (other : Source) (wire : Wire) :
    ((copyBidirectional copy other).run wire).state.passed = wire.passed ++
      (copy wire.source other).off := by
  unfold Wire.passed Copied.off
  rw [copyBidirectional_state, List.flatMap_append, List.flatMap_map]

theorem copyBidirectional_sent (copy : Source → Source → Copied) (other : Source) (wire : Wire) :
    ((copyBidirectional copy other).run wire).state.sent = wire.sent ++
      (copy wire.source other).on := by
  unfold Wire.sent Copied.on
  rw [copyBidirectional_state, List.flatMap_append, List.flatMap_map]

theorem copyBidirectional_finished {copy : Source → Source → Copied} {other : Source} {wire : Wire}
    (h : .onEnd ∈ (copy wire.source other).transfers) :
    ((copyBidirectional copy other).run wire).state.HasFinished := by
  unfold Wire.HasFinished
  rw [copyBidirectional_state]
  exact .inr (List.mem_append_right _ (List.mem_map_of_mem h))

/-- Between two sides that end, everything is copied. -/
theorem copyBidirectional_verbatim {copy : Source → Source → Copied} (hcopy : Verbatim copy)
    {wire : Wire} {other : Source} (hstream : wire.source.ending = .finished)
    (hother : other.ending = .finished) :
    ∃ final, (copyBidirectional copy other).run wire =
        .returned (.ok (wire.source.bytes.length, other.bytes.length)) final ∧
      final.sent = wire.sent ++ other.bytes ∧ final.passed = wire.passed ++ wire.source.bytes ∧
      final.HasFinished := by
  obtain ⟨hoff, -⟩ := hcopy.off wire.source other hstream
  obtain ⟨hon, honEnd⟩ := hcopy.on wire.source other hother
  have hcounts := hcopy.counts _ _ hstream hother
  have hpassed := copyBidirectional_passed copy other wire
  have hsent := copyBidirectional_sent copy other wire
  have hfinished := copyBidirectional_finished honEnd
  have hrun : (copyBidirectional copy other).run wire =
      .returned (.ok (wire.source.bytes.length, other.bytes.length))
        { wire with log := wire.log ++ (copy wire.source other).transfers.map .moved } := by
    unfold copyBidirectional
    simp only [hcounts]
  rw [hrun] at hpassed hsent hfinished
  rw [hoff] at hpassed
  rw [hon] at hsent
  exact ⟨_, hrun, hsent, hpassed, hfinished⟩

/-! ## The client's side -/

section Client

variable {debug : Text → Text} {copy : Source → Source → Copied} {localSide : Source}
    {serviceId : Text}

theorem clientTunnel_sent (status : TunnelStatus) (wire : Wire) :
    ∃ rest, ((clientTunnel debug copy localSide serviceId status).run wire).state.sent =
      wire.sent ++ rest := by
  unfold clientTunnel
  split_ifs with hstatus
  · rw [Task.run_throw]
    exact ⟨[], (List.append_nil _).symm⟩
  · refine ⟨_, Eq.trans ?_ (copyBidirectional_sent copy localSide wire)⟩
    rw [← Task.mapErr_state (ioContext "tunnel pipe failed")]
    exact congrArg Wire.sent
      (Task.bind_pure_state _ (fun counts : ℕ × ℕ => (⟨counts.2, counts.1⟩ : ByteCounts)) wire)

/-- What is read in time has been read. -/
theorem timeout_readEarly {α : Type} {x : Async Source Anyhow α} {wire : Wire} {a : α}
    {early : Source} (hread : x.run wire.early = .done a early) :
    (Task.timeout (readEarly x) : Task Wire Anyhow _).run wire =
      .returned (.ok (some (.ok a))) { wire with early := early } := by
  rw [Task.run_timeout, readEarly, Task.run_ofAsync, hread]

/-- The handshake puts the request on the stream, and reads no more than the status. -/
theorem clientHandshake_run (hlen : utf8Len serviceId ≤ maxServiceIdLen) {client : Wire}
    (hhealthy : client.Healthy) :
    ∃ wire, wire.log = client.log ++ requestEvents serviceId ∧ wire.early = client.early ∧
      wire.late = client.late ∧
        (Task.timeout (clientHandshake serviceId) : Task Wire Anyhow _).run client =
        (Task.timeout (readEarly readStatus)).run wire := by
  obtain ⟨wire, hwrite, -⟩ := writeRequest_healthy hlen hhealthy
  obtain ⟨hlog, hearly, hlate⟩ := writeRequest_eq_ok hwrite
  have hrun : (clientHandshake serviceId).run client = (readEarly readStatus).run wire :=
    Task.bind_ok hwrite
  refine ⟨wire, hlog, hearly, hlate, ?_⟩
  rw [Task.run_timeout, Task.run_timeout, hrun]

variable (debug copy localSide) in
/-- Whatever the gateway answers, the request is what the client has sent first. -/
theorem driveClient_sent (hlen : utf8Len serviceId ≤ maxServiceIdLen) {client : Wire}
    (hhealthy : client.Healthy) :
    ∃ rest, ((driveClient debug copy localSide serviceId).run client).state.sent =
      client.sent ++ request serviceId ++ rest := by
  obtain ⟨wire, hlog, -, -, hrun⟩ := clientHandshake_run hlen hhealthy
  have hsent : wire.sent = client.sent ++ request serviceId := by
    unfold Wire.sent
    rw [hlog, List.flatMap_append, sent_requestEvents]
  rw [Task.run_timeout _ (readEarly readStatus), readEarly, Task.run_ofAsync] at hrun
  unfold driveClient
  rw [← hsent]
  cases hread : readStatus.run wire.early with
  | done status early =>
    rw [hread] at hrun
    rw [Task.bind_ok hrun]
    exact clientTunnel_sent status { wire with early := early }
  | failed e =>
    rw [hread] at hrun
    rw [Task.bind_ok hrun]
    exact ⟨[], (List.append_nil _).symm⟩
  | waits =>
    rw [hread] at hrun
    rw [Task.bind_ok hrun]
    exact ⟨[], (List.append_nil _).symm⟩

variable (debug) in
/-- Once the gateway has answered that the tunnel is open, the client copies. -/
theorem driveClient_opened (hlen : utf8Len serviceId ≤ maxServiceIdLen) {client : Wire}
    (hhealthy : client.Healthy) (hcopy : Verbatim copy) (hlocal : localSide.ending = .finished)
    {down : Bytes} (hbytes : client.source.bytes = TunnelStatus.ok.toU8 :: down)
    (hending : client.source.ending = .finished) (htimely : 1 ≤ client.early.bytes.length) :
    let verdict := (driveClient debug copy localSide serviceId).run client
    verdict.state.sent = client.sent ++ request serviceId ++ localSide.bytes ∧
      verdict.state.HasFinished ∧ verdict.state.passed = client.passed ++ down ∧
      ∃ wire, verdict = .returned (.ok ⟨localSide.bytes.length, down.length⟩) wire := by
  intro verdict
  obtain ⟨wire, hlog, hearly, hlate, hrun⟩ := clientHandshake_run hlen hhealthy
  have hsource : wire.source = client.source := by
    unfold Wire.source
    rw [hearly, hlate]
  obtain ⟨rest, hrest⟩ := Wire.early_begins
    (show client.source.bytes = [TunnelStatus.ok.toU8] ++ down from hbytes) htimely
  rw [← hearly] at hrest
  obtain ⟨early, hread, hearlyBytes, hearlyEnding⟩ := readStatus_done hrest
  obtain ⟨hdown, hdownEnding⟩ := Wire.source_of_early
    (show wire.early.bytes = [TunnelStatus.ok.toU8] ++ early.bytes from
      hrest.trans (congrArg _ hearlyBytes.symm)) hearlyEnding
  rw [hsource, hbytes] at hdown
  rw [hsource, hending] at hdownEnding
  have hdownBytes : ({ wire with early := early } : Wire).source.bytes = down :=
    (List.cons.inj hdown).2.symm
  obtain ⟨final, hpipe, hsent, hpassed, hfinished⟩ :=
    copyBidirectional_verbatim hcopy hdownEnding hlocal
  rw [hdownBytes] at hpipe hpassed
  rw [timeout_readEarly hread] at hrun
  have hverdict : verdict = .returned (.ok ⟨localSide.bytes.length, down.length⟩) final := by
    show (driveClient debug copy localSide serviceId).run client = _
    unfold driveClient
    rw [Task.bind_ok hrun]
    show (clientTunnel debug copy localSide serviceId .ok).run _ = _
    unfold clientTunnel
    rw [if_neg (not_not.mpr rfl), Task.bind_ok (Task.mapErr_ok hpipe)]
    rfl
  rw [hverdict]
  refine ⟨?_, hfinished, ?_, final, rfl⟩
  · show final.sent = _
    rw [hsent]
    show List.flatMap Event.sent wire.log ++ _ = _
    rw [hlog, List.flatMap_append, sent_requestEvents]
    rfl
  · show final.passed = _
    rw [hpassed]
    show List.flatMap Event.passed wire.log ++ _ = _
    rw [hlog, List.flatMap_append]
    simp [requestEvents, Event.passed, Wire.passed]

end Client

/-! ## The gateway's side -/

section Gateway

variable {dial : Text → Dial} {copy : Source → Source → Copied} {services : ServiceMap}
    {serviceId target : Text}
  {up : Source}

/-- A status is written if the writes succeed. -/
theorem writeStatus_healthy {wire : Wire} (h : wire.Healthy) (status : TunnelStatus) :
    ∃ wire', (writeStatus status).run wire = .returned (.ok ()) wire' ∧
      wire'.log = wire.log ++ [.wrote [status.toU8]] ∧ wire'.early = wire.early ∧
        wire'.late = wire.late := by
  obtain ⟨hwrite₁, h₁⟩ := put_healthy h [.wrote [status.toU8]]
  obtain ⟨hwrite₂, -⟩ := put_healthy h₁ []
  rw [List.append_nil] at hwrite₂
  have hrun : (writeStatus status).run wire = _ := Task.bind_ok (Task.mapErr_ok hwrite₁)
  exact ⟨_, hrun.trans (Task.mapErr_ok hwrite₂), rfl, rfl, rfl⟩

variable (copy) in
/-- A request for a listed service that can be dialed opens the tunnel. -/
theorem serveStream_opened (hlen : utf8Len serviceId ≤ maxServiceIdLen)
    (hget : services.get serviceId = some target) (hdial : dial target = .connected up)
    {gateway : Wire} (hhealthy : gateway.Healthy) {upload : Bytes}
    (hbytes : gateway.source.bytes = request serviceId ++ upload)
    (htimely : (request serviceId).length ≤ gateway.early.bytes.length) :
    ∃ wire, wire.log = gateway.log ++ [.dialed target, .wrote [TunnelStatus.ok.toU8]] ∧
      wire.source.bytes = upload ∧ wire.source.ending = gateway.source.ending ∧
      (serveStream dial copy services).run gateway = (do
        let _ ← (copyBidirectional copy up).mapErr (ioContext "tunnel pipe failed")
        return TunnelStatus.ok : Task Wire Anyhow TunnelStatus).run wire := by
  obtain ⟨rest, hrest⟩ := Wire.early_begins hbytes htimely
  obtain ⟨early, hread, hearlyBytes, hearlyEnding⟩ := readRequest_done hlen hrest
  obtain ⟨hupload, huploadEnding⟩ := Wire.source_of_early
    (show gateway.early.bytes = request serviceId ++ early.bytes from
      hrest.trans (congrArg _ hearlyBytes.symm)) hearlyEnding
  rw [hbytes] at hupload
  have hbytes' := List.append_cancel_left hupload
  obtain ⟨wire, hstatus, hlog, hearly, hlate⟩ := writeStatus_healthy
    (show Wire.Healthy { gateway with early := early, log := gateway.log ++ [.dialed target] } from
      hhealthy) .ok
  have hsource : wire.source = ({ gateway with early := early } : Wire).source := by
    unfold Wire.source
    rw [hearly, hlate]
  refine ⟨wire, ?_, by rw [hsource, hbytes'], by rw [hsource, huploadEnding], ?_⟩
  · rw [hlog, List.append_assoc]
    rfl
  · unfold serveStream
    rw [Task.bind_ok (timeout_readEarly hread)]
    show (serveRequest dial copy services serviceId).run { gateway with early := early } = _
    unfold serveRequest
    simp only [hget]
    rw [Task.bind_ok (timeout_connect dial target _), hdial]
    exact Task.bind_ok hstatus

end Gateway

/-! ## Both sides -/

/-- A session: both ends of a stream, neither of which fails to write, with a local side and an
upstream that each end; the service is listed, its target can be dialed, and what one end puts
on the stream is what arrives at the other, the request and the status in time. -/
structure Session (debug : Text → Text) (copy : Source → Source → Copied) (services : ServiceMap)
    (dial : Text → Dial) (serviceId : Text) (client gateway : Wire)
    (localSide up : Source) : Prop where
  listed : ∃ target, services.get serviceId = some target ∧ dial target = .connected up
  localEnds : localSide.ending = .finished
  upEnds : up.ending = .finished
  clientWrites : client.Healthy
  gatewayWrites : gateway.Healthy
  clientFresh : client.log = []
  gatewayFresh : gateway.log = []
  upload : Carries ((driveClient debug copy localSide serviceId).run client).state gateway.source
  download : Carries ((serveStream dial copy services).run gateway).state client.source
  requestTimely : (request serviceId).length ≤ gateway.early.bytes.length
  statusTimely : 1 ≤ client.early.bytes.length

/-- The tunnel is transparent: the upstream gets exactly what the local side sends and the
local side exactly what the upstream sends, and the client counts both.  And a request is
refused before anything is written, or reads back and leaves the bytes behind it. -/
theorem tunnel_transparent {debug : Text → Text} {copy : Source → Source → Copied}
    (hcopy : Verbatim copy) {services : ServiceMap} (hvalid : Valid services) :
    (∀ dial serviceId client gateway localSide up,
      Session debug copy services dial serviceId client gateway localSide up →
      let clientSide := (driveClient debug copy localSide serviceId).run client
      let gatewaySide := (serveStream dial copy services).run gateway
      gatewaySide.state.passed = localSide.bytes ∧ clientSide.state.passed = up.bytes ∧
        (∃ wire, clientSide = .returned (.ok ⟨localSide.bytes.length, up.bytes.length⟩) wire) ∧
        ∃ wire, gatewaySide = .returned (.ok .ok) wire) ∧
    ∀ serviceId wire,
      (maxServiceIdLen < utf8Len serviceId →
        ∃ error, (writeRequest serviceId).run wire = .returned (.error error) wire) ∧
      (utf8Len serviceId ≤ maxServiceIdLen →
        (wire.Healthy → ∃ wire', (writeRequest serviceId).run wire = .returned (.ok ()) wire') ∧
        ∀ wire', (writeRequest serviceId).run wire = .returned (.ok ()) wire' →
          ∃ bytes, wire'.sent = wire.sent ++ bytes ∧
            ∀ (source : Source) rest, source.bytes = bytes ++ rest →
              ∃ source', readRequest.run source = .done serviceId source' ∧
                source'.bytes = rest) := by
  refine ⟨?_, ?_⟩
  · intro dial serviceId client gateway localSide up h clientSide gatewaySide
    obtain ⟨target, hget, hdial⟩ := h.listed
    have hlen := (hvalid serviceId target hget).requestable
    -- the request opens the tunnel, so that the status and the download are on the stream
    obtain ⟨rest, hrest⟩ := driveClient_sent debug copy localSide hlen h.clientWrites
    rw [show client.sent = [] from congrArg (List.flatMap _) h.clientFresh, List.nil_append,
      ← h.upload.bytes] at hrest
    obtain ⟨wire, hlog, hupload, hending, hrun⟩ :=
      serveStream_opened copy hlen hget hdial h.gatewayWrites hrest h.requestTimely
    rw [h.gatewayFresh, List.nil_append] at hlog
    have hstate : gatewaySide.state = ((copyBidirectional copy up).run wire).state := by
      rw [← Task.mapErr_state (ioContext "tunnel pipe failed"), show gatewaySide = _ from hrun]
      exact Task.bind_pure_state _ (fun _ => TunnelStatus.ok) wire
    obtain ⟨hon, honEnd⟩ := hcopy.on wire.source up h.upEnds
    have hdownload : client.source.bytes = TunnelStatus.ok.toU8 :: up.bytes := by
      rw [h.download.bytes,
        show ((serveStream dial copy services).run gateway).state = _ from hstate,
        copyBidirectional_sent, hon]
      unfold Wire.sent
      rw [hlog]
      rfl
    have hdownloadEnds : client.source.ending = .finished := by
      apply h.download.ending
      rw [show ((serveStream dial copy services).run gateway).state = _ from hstate]
      exact copyBidirectional_finished honEnd
    -- so the client copies, and the upload is on the stream behind the request
    obtain ⟨hsent, hfinished, hpassed, hreturned⟩ :=
      driveClient_opened debug hlen h.clientWrites hcopy
      h.localEnds hdownload hdownloadEnds h.statusTimely
    rw [show client.sent = [] from congrArg (List.flatMap _) h.clientFresh, List.nil_append,
      ← h.upload.bytes, hrest] at hsent
    rw [show client.passed = [] from congrArg (List.flatMap _) h.clientFresh,
      List.nil_append] at hpassed
    rw [List.append_cancel_left hsent] at hupload
    rw [h.upload.ending hfinished] at hending
    -- which is what the gateway copies
    obtain ⟨final, hpipe, -, hgateway, -⟩ := copyBidirectional_verbatim hcopy hending h.upEnds
    refine ⟨?_, hpassed, hreturned, final, ?_⟩
    · rw [hstate, hpipe]
      show final.passed = _
      rw [hgateway, hupload]
      unfold Wire.passed
      rw [hlog]
      rfl
    · exact (show gatewaySide = _ from hrun).trans (Task.bind_ok (Task.mapErr_ok hpipe))
  · intro serviceId wire
    refine ⟨fun hlong => writeRequest_long hlong wire, fun hlen => ⟨fun h => ?_, fun wire' h => ?_⟩⟩
    · obtain ⟨wire', hrun, -⟩ := writeRequest_healthy hlen h
      exact ⟨wire', hrun⟩
    · refine ⟨request serviceId, ?_, fun source rest hsource => ?_⟩
      · unfold Wire.sent
        rw [(writeRequest_eq_ok h).1, List.flatMap_append, sent_requestEvents]
      · obtain ⟨source', hread, hrest, -⟩ := readRequest_done hlen hsource
        exact ⟨source', hread, hrest⟩

/-- Copying that forwards at once whatever ends. -/
def copyAll (stream other : Source) : Copied where
  transfers :=
    (if stream.ending = .finished then [.off stream.bytes, .offEnd] else []) ++
      if other.ending = .finished then [.on other.bytes, .onEnd] else []
  result :=
    if stream.ending = .finished ∧ other.ending = .finished then
      some (.ok (stream.bytes.length, other.bytes.length))
    else none

theorem verbatim_copyAll : Verbatim copyAll where
  off stream other h := by
    unfold copyAll Copied.off
    split_ifs <;> simp [Event.passed]
  on stream other h := by
    unfold copyAll Copied.on
    split_ifs <;> simp [Event.sent]
  counts stream other h h' := if_pos ⟨h, h'⟩

/-- An upload of three bytes and a download of two, with the status and the first byte of the
download in one chunk. -/
theorem tunnel_transparent_web : ∃ services wire,
    let upload : Source := ⟨[⟨[1, 2], by decide⟩, ⟨[3], by decide⟩], .finished⟩
    let client : Wire := ⟨⟨[⟨[0, 7], by decide⟩], .silent⟩, ⟨[⟨[8], by decide⟩], .finished⟩, [], []⟩
    fromSpecs ["web=h:1".toList] = .ok services ∧
    (driveClient id copyAll upload "web".toList).run client = .returned (.ok ⟨3, 2⟩) wire ∧
    wire.passed = [7, 8] := by
  have hbuilt : fromSpecs ["web=h:1".toList] =
      .ok (ServiceMap.empty.insert "web".toList ⟨"h:1".toList⟩) := by
    decide
  have hsession : Session id copyAll (ServiceMap.empty.insert "web".toList ⟨"h:1".toList⟩)
      (fun _ => .connected ⟨[⟨[7, 8], by decide⟩], .finished⟩) "web".toList
      ⟨⟨[⟨[0, 7], by decide⟩], .silent⟩, ⟨[⟨[8], by decide⟩], .finished⟩, [], []⟩
      ⟨⟨[⟨[0, 0], by decide⟩, ⟨[3, 119, 101, 98, 1], by decide⟩], .silent⟩,
        ⟨[⟨[2, 3], by decide⟩], .finished⟩, [], []⟩
      ⟨[⟨[1, 2], by decide⟩, ⟨[3], by decide⟩], .finished⟩ ⟨[⟨[7, 8], by decide⟩], .finished⟩ := by
    exact ⟨⟨"h:1".toList, by decide, rfl⟩, rfl, rfl, nofun, nofun, rfl, rfl,
      ⟨by decide +kernel, fun _ => rfl⟩, ⟨by decide +kernel, fun _ => rfl⟩, by decide, by decide⟩
  obtain ⟨-, hpassed, ⟨wire, hrun⟩, -⟩ :=
    (tunnel_transparent verbatim_copyAll (valid_fromSpecs hbuilt)).1 _ _ _ _ _ _ hsession
  rw [hrun] at hpassed
  exact ⟨_, wire, hbuilt, hrun, hpassed⟩

end IrohExperiment.Gateway
