/-
# The handshake of the tunnel (`tcp-tunnel/src/lib.rs`)

The request and the status on a tunnelled stream, as bytes and as tasks of either end: what
one end writes the other end reads back, and nothing behind it.

`writeRequest`, `readRequest`, `writeStatus` and `readStatus`, with the errors of either
side in their order.  `readRequest_eq_done` says which bytes begin with a request, and
`readRequest_done`, `readStatus_done` are the round trips, whatever chunks the bytes come
in.
-/
import IrohExperiment.Gateway.ServiceMap
import IrohExperiment.Rust.Task

namespace IrohExperiment.Gateway

open Rust

/-! ## The stream -/

/-- What `copy_bidirectional` moves: bytes off the stream and onto it, and each end. -/
inductive Transfer where
  | off (bytes : Bytes)
  | on (bytes : Bytes)
  | offEnd
  | onEnd
  deriving DecidableEq, Repr

/-- What one end does: bytes put on the stream, the write side finished, a dial, and what is
moved between the stream and the other side. -/
inductive Event where
  | wrote (bytes : Bytes)
  | finished
  | dialed (target : Text)
  | moved (transfer : Transfer)
  deriving DecidableEq, Repr

namespace Event

/-- The bytes that are put on the stream. -/
def sent : Event → Bytes
  | wrote bytes | moved (.on bytes) => bytes
  | _ => []

/-- The bytes that are passed on to the other side. -/
def passed : Event → Bytes
  | moved (.off bytes) => bytes
  | _ => []

end Event

/-- A stream as one end has it: what arrives before the deadline of the handshake and what
arrives later, how the writes fare, and what this end has done. -/
structure Wire where
  early : Source
  late : Source
  fates : List Fate
  log : List Event
  deriving DecidableEq, Repr

namespace Wire

/-- What arrives on the stream, when the deadline of the handshake no longer counts. -/
def source (wire : Wire) : Source :=
  if wire.early.ending = .silent then ⟨wire.early.chunks ++ wire.late.chunks, wire.late.ending⟩
  else wire.early

/-- The bytes that this end has put on the stream. -/
def sent (wire : Wire) : Bytes := wire.log.flatMap Event.sent

/-- The bytes that this end has passed on to the other side. -/
def passed (wire : Wire) : Bytes := wire.log.flatMap Event.passed

/-- This end has finished its write side. -/
def HasFinished (wire : Wire) : Prop := .finished ∈ wire.log ∨ .moved .onEnd ∈ wire.log

end Wire

/-- Something that is written, flushed or finished, and what it leaves in the log. -/
def put (events : List Event) : Task Wire ErrorKind Unit where
  run wire :=
    match wire.fates with
    | [] => .returned (.ok ()) { wire with log := wire.log ++ events }
    | .succeeds :: fates =>
        .returned (.ok ()) { wire with log := wire.log ++ events, fates := fates }
    | .fails kind :: fates => .returned (.error kind) { wire with fates := fates }
    | .hangs :: fates => .hangs { wire with fates := fates }

/-- A read of the handshake. -/
def readEarly {ε α : Type} (x : Async Source ε α) : Task Wire ε α :=
  .ofAsync Wire.early (fun wire early => { wire with early := early }) x

/-- An `io::Error` as an `anyhow::Error`. -/
def ioError (kind : ErrorKind) : Anyhow := .io kind kind.text

/-- `.context(text)` on an `io::Error` -/
def ioContext (text : String) (kind : ErrorKind) : Anyhow := .context text.toList (ioError kind)

/-- The error of `read_exact`, which has a text of its own for a stream that has ended. -/
def readExactError : ErrorKind → Anyhow
  | .unexpectedEof => .io .unexpectedEof "early eof".toList
  | kind => ioError kind

/-! ## Requests -/

/-- `PROTOCOL_VERSION` -/
def protocolVersion : UInt8 := 0

/-- `write_request` -/
def writeRequest (serviceId : Text) : Task Wire Anyhow Unit := do
  let bytes := utf8 serviceId
  .ofExcept (if bytes.length < 2 ^ 16 then .ok ()
    else .error (.context "service id longer than u16::MAX".toList (.other "out of range".toList)))
  .ofExcept (if bytes.length ≤ maxServiceIdLen then .ok ()
    else .error (.other s!"service id exceeds {maxServiceIdLen} bytes".toList))
  (put [.wrote [protocolVersion]]).mapErr ioError
  (put [.wrote (toBe 2 bytes.length)]).mapErr ioError
  (put [.wrote bytes]).mapErr ioError
  (put []).mapErr ioError

/-- `read_request` -/
def readRequest : Async Source Anyhow Text := do
  let version ← readU8.mapErr (ioContext "reading protocol version")
  Async.ensure (version = protocolVersion)
    (.other s!"unsupported tunnel protocol version {version}".toList)
  let len ← readU16.mapErr (ioContext "reading service id length")
  Async.ensure (len.toNat ≤ maxServiceIdLen) (.other s!"service id length {len} too large".toList)
  let buf ← (readExact len.toNat).mapErr fun kind =>
    .context "reading service id".toList (readExactError kind)
  match fromUtf8 buf with
  | some serviceId => return serviceId
  | none =>
      Async.throw (.context "service id is not valid UTF-8".toList (.other "invalid utf-8".toList))

/-- A request on the wire: the version, how long the service id is, and the service id. -/
def request (serviceId : Text) : Bytes :=
  protocolVersion :: toBe 2 (utf8Len serviceId) ++ utf8 serviceId

/-- The bytes begin with a well-formed request for the service. -/
def BeginsWithRequest (bytes : Bytes) (serviceId : Text) : Prop :=
  utf8Len serviceId ≤ maxServiceIdLen ∧ request serviceId <+: bytes

/-- A request is read, and nothing behind it. -/
theorem readRequest_done {source : Source} {serviceId : Text} {rest : Bytes}
    (hlen : utf8Len serviceId ≤ maxServiceIdLen)
    (hbytes : source.bytes = request serviceId ++ rest) :
    ∃ source', readRequest.run source = .done serviceId source' ∧ source'.bytes = rest ∧
      source'.ending = source.ending := by
  have hlen' : utf8Len serviceId < 2 ^ 16 := lt_of_le_of_lt hlen (by decide)
  have hvalue : (UInt16.ofNat (utf8Len serviceId)).toNat = utf8Len serviceId := by
    rw [UInt16.toNat_ofNat', Nat.mod_eq_of_lt hlen']
  unfold request at hbytes
  rw [List.cons_append, List.cons_append, List.append_assoc] at hbytes
  obtain ⟨source₁, hversion, hbytes₁, hending₁⟩ := readU8_done hbytes
  rw [← hvalue] at hbytes₁
  obtain ⟨source₂, hcount, hbytes₂, hending₂⟩ := readU16_done hbytes₁
  obtain ⟨source₃, hread, hbytes₃, hending₃⟩ := readExact_done hbytes₂ (n := utf8Len serviceId) rfl
  refine ⟨source₃, ?_, hbytes₃, hending₃.trans (hending₂.trans hending₁)⟩
  unfold readRequest
  rw [Async.bind_done (Async.mapErr_eq_done.mpr hversion),
    Async.bind_done (Async.ensure_pos rfl _ _),
    Async.bind_done (Async.mapErr_eq_done.mpr hcount), hvalue,
    Async.bind_done (Async.ensure_pos hlen _ _), Async.bind_done (Async.mapErr_eq_done.mpr hread),
    fromUtf8_utf8]
  rfl

/-- What is read as a request is one. -/
theorem readRequest_eq_done {source source' : Source} {serviceId : Text}
    (h : readRequest.run source = .done serviceId source') :
    utf8Len serviceId ≤ maxServiceIdLen ∧ source.bytes = request serviceId ++ source'.bytes ∧
      source'.ending = source.ending := by
  unfold readRequest at h
  obtain ⟨version, source₁, hversion, h₁⟩ := Async.bind_eq_done.mp h
  obtain ⟨_, _, hzero, h₂⟩ := Async.bind_eq_done.mp h₁
  obtain ⟨len, source₂, hcount, h₃⟩ := Async.bind_eq_done.mp h₂
  obtain ⟨_, _, hmax, h₄⟩ := Async.bind_eq_done.mp h₃
  obtain ⟨buf, source₃, hread, h₅⟩ := Async.bind_eq_done.mp h₄
  obtain ⟨rfl, rfl⟩ := Async.ensure_eq_done.mp hzero
  obtain ⟨hle, rfl⟩ := Async.ensure_eq_done.mp hmax
  obtain ⟨hbytes₁, hending₁⟩ := readU8_eq_done (Async.mapErr_eq_done.mp hversion)
  obtain ⟨hbytes₂, hending₂⟩ := readU16_eq_done (Async.mapErr_eq_done.mp hcount)
  obtain ⟨hlen, hbytes₃, hending₃⟩ := readExact_eq_done (Async.mapErr_eq_done.mp hread)
  cases hutf8 : fromUtf8 buf with
  | none =>
    rw [hutf8] at h₅
    cases h₅
  | some text =>
    rw [hutf8] at h₅
    obtain ⟨rfl, rfl⟩ := Outcome.done.inj h₅
    obtain rfl := eq_utf8_of_fromUtf8 hutf8
    have hcount' : utf8Len text = len.toNat := hlen
    refine ⟨hcount' ▸ hle, ?_, hending₃.trans (hending₂.trans hending₁)⟩
    rw [hbytes₁, hbytes₂, hbytes₃, request, hcount']
    simp

/-- Bytes begin with one request at most. -/
theorem BeginsWithRequest.unique {bytes : Bytes} {serviceId serviceId' : Text}
    (h : BeginsWithRequest bytes serviceId) (h' : BeginsWithRequest bytes serviceId') :
    serviceId = serviceId' := by
  cases hbytes : bytes with
  | nil =>
    rw [hbytes] at h
    exact absurd (List.prefix_nil.mp h.2) (List.cons_ne_nil _ _)
  | cons byte rest =>
    have hsource : (⟨[⟨bytes, by rw [hbytes]; exact List.cons_ne_nil _ _⟩],
        .finished⟩ : Source).bytes = bytes :=
      List.append_nil bytes
    obtain ⟨later, hlater⟩ := h.2
    obtain ⟨later', hlater'⟩ := h'.2
    obtain ⟨_, hrun, -⟩ := readRequest_done h.1 (hsource.trans hlater.symm)
    obtain ⟨_, hrun', -⟩ := readRequest_done h'.1 (hsource.trans hlater'.symm)
    rw [hrun] at hrun'
    exact (Outcome.done.inj hrun').1

/-! ## Statuses -/

/-- Gateway response to a tunnel request. -/
inductive TunnelStatus where
  | ok
  | unknownService
  | unauthorized
  | upstreamUnreachable
  | badRequest
  deriving DecidableEq, Repr

namespace TunnelStatus

/-- `status as u8` -/
def toU8 : TunnelStatus → UInt8
  | ok => 0
  | unknownService => 1
  | unauthorized => 2
  | upstreamUnreachable => 3
  | badRequest => 4

/-- `TunnelStatus::from_u8` -/
def fromU8 (v : UInt8) : Option TunnelStatus :=
  if v = 0 then some ok
  else if v = 1 then some unknownService
  else if v = 2 then some unauthorized
  else if v = 3 then some upstreamUnreachable
  else if v = 4 then some badRequest
  else none

/-- `TunnelStatus::message` -/
def message : TunnelStatus → Text
  | ok => "ok".toList
  | unknownService => "unknown service".toList
  | unauthorized => "unauthorized endpoint".toList
  | upstreamUnreachable => "upstream unreachable".toList
  | badRequest => "bad request".toList

@[simp] theorem fromU8_toU8 (status : TunnelStatus) : fromU8 status.toU8 = some status := by
  cases status <;> rfl

end TunnelStatus

/-- `write_status` -/
def writeStatus (status : TunnelStatus) : Task Wire Anyhow Unit := do
  (put [.wrote [status.toU8]]).mapErr ioError
  (put []).mapErr ioError

/-- `read_status` -/
def readStatus : Async Source Anyhow TunnelStatus := do
  let v ← readU8.mapErr (ioContext "reading tunnel status")
  match TunnelStatus.fromU8 v with
  | some status => return status
  | none => Async.throw (.other s!"unknown tunnel status code {v}".toList)

/-- A status is read back, and nothing behind it. -/
theorem readStatus_done {source : Source} {status : TunnelStatus} {rest : Bytes}
    (hbytes : source.bytes = status.toU8 :: rest) :
    ∃ source', readStatus.run source = .done status source' ∧ source'.bytes = rest ∧
      source'.ending = source.ending := by
  obtain ⟨source', hread, hrest, hending⟩ := readU8_done hbytes
  refine ⟨source', ?_, hrest, hending⟩
  unfold readStatus
  rw [Async.bind_done (Async.mapErr_eq_done.mpr hread), TunnelStatus.fromU8_toU8]
  rfl

end IrohExperiment.Gateway
