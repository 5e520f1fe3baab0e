/-
# Echoing over a connection (`nat-peer.rs`, `browser-iroh/src/lib.rs`)

The transfers of `nat-peer.rs` (`echo`) and of the browser node (`dial_echo`, `accept_echo`):
the dialer sends a payload and reads it back, the listener sends back what it has read and waits
until that has been acknowledged; in the browser the dialer then says on a stream of its own that
it has compared the two.

`Terms` are what a transfer goes by: the payload, what the listener expects of it, the limit
of a read, and whether there is a verification.  `Exchange.step` is one step of either side
or of the connection.
-/
import IrohExperiment.Rust.Pipe

namespace IrohExperiment.Roundtrip

open Rust History

/-! ## The two sides -/

/-- What the two sides go by. -/
structure Terms where
  /-- what the dialer sends -/
  payload : Bytes
  /-- what the listener compares it with -/
  expected : Bytes
  /-- the limit of `read_to_end` for request and echo -/
  limit : ℕ
  /-- what the dialer says in the end, and the limit of its reader -/
  verification : Option (Bytes × ℕ)
  deriving DecidableEq, Repr

/-- Why `dial_echo` fails. -/
inductive DialError where
  /-- an `await` fails: the connection is lost, the peer stops the stream, or time is up -/
  | fails
  | readEcho (error : ReadToEndError)
  /-- `echo content mismatch`, `echo payload mismatch` -/
  | echoMismatch
  /-- `peer rejected verification` -/
  | verificationRejected
  deriving DecidableEq, Repr

/-- Why `accept_echo` fails. -/
inductive ListenError where
  /-- an `await` fails: the connection is lost, the peer stops the stream, or time is up -/
  | fails
  | readRequest (error : ReadToEndError)
  /-- `request content mismatch`, `request payload mismatch` -/
  | requestMismatch
  /-- `peer rejected echo`, `peer rejected the echo stream` -/
  | echoRejected
  | readVerification (error : ReadToEndError)
  /-- `missing content verification` -/
  | verificationMissing
  deriving DecidableEq, Repr

/-- Where the dialer stands. -/
inductive DialStage where
  /-- `open_bi` -/
  | opening
  | sending (remaining : Bytes)
  | reading
  /-- `open_uni` -/
  | openingVerification
  | verifying (remaining : Bytes)
  /-- `ack.stopped()` -/
  | awaiting
  | returned (result : Except DialError Unit)
  deriving DecidableEq, Repr

/-- Where the listener stands. -/
inductive ListenStage where
  /-- `accept_bi` -/
  | accepting
  | reading
  | echoing (remaining : Bytes)
  /-- `send.stopped()` -/
  | awaiting
  /-- `accept_uni` -/
  | acceptingVerification
  | readingVerification
  | returned (result : Except ListenError Unit)
  deriving DecidableEq, Repr

/-- What the dialer does next. -/
inductive DialEvent where
  | opens
  | writes (count : ℕ)
  | finishes
  | reads
  /-- `stopped` resolves; the peer may have rejected the stream -/
  | stopped (rejected : Bool)
  | fails
  deriving DecidableEq, Repr

/-- What the listener does next. -/
inductive ListenEvent where
  | accepts
  | reads
  | writes (count : ℕ)
  | finishes
  /-- `stopped` resolves; the peer may have rejected the stream -/
  | stopped (rejected : Bool)
  | fails
  deriving DecidableEq, Repr

/-- The streams of the connection. -/
inductive Way where
  | request
  | echo
  | verification
  deriving DecidableEq, Repr

/-- What can happen. -/
inductive ExchangeEvent where
  | dial (event : DialEvent)
  | listen (event : ListenEvent)
  | carry (way : Way) (chunk : Chunk)
  | ends (way : Way) (ending : Ending)
  deriving DecidableEq, Repr

/-- Both sides, and the streams between them. -/
structure Exchange where
  dial : DialStage
  listen : ListenStage
  request : Pipe
  echo : Pipe
  verification : Pipe
  deriving DecidableEq

namespace Exchange

def start : Exchange := ⟨.opening, .accepting, .empty, .empty, .empty⟩

/-- The dialer has failed: it may have dropped a reader before the end of the stream. -/
def DialerGone (c : Exchange) : Prop :=
  match c.dial with
  | .returned (.error _) => True
  | _ => False

instance (c : Exchange) : Decidable c.DialerGone := by
  unfold DialerGone
  split <;> infer_instance

/-- The listener has failed: it may have dropped a reader before the end of the stream. -/
def ListenerGone (c : Exchange) : Prop :=
  match c.listen with
  | .returned (.error _) => True
  | _ => False

instance (c : Exchange) : Decidable c.ListenerGone := by
  unfold ListenerGone
  split <;> infer_instance

/-! ## The dialer -/

/-- The dialer returns, and drops its streams. -/
def dialReturns (c : Exchange) (result : Except DialError Unit) : Exchange :=
  { c with
    dial := .returned result
    request := c.request.leave
    verification := c.verification.leave }

/-- `read_to_end`, and the comparison behind it -/
def dialRead (terms : Terms) (c : Exchange) : Option Exchange :=
  match (readToEnd terms.limit).run c.echo.link.source with
  | .done bytes _ =>
    if bytes = terms.payload then
      match terms.verification with
      | some _ => some { c with dial := .openingVerification }
      | none => some (c.dialReturns (.ok ()))
    else some (c.dialReturns (.error .echoMismatch))
  | .failed error => some (c.dialReturns (.error (.readEcho error)))
  | .waits => none

/-- `dial_echo` -/
def dialStep (terms : Terms) (window : ℕ) (event : DialEvent) (c : Exchange) : Option Exchange :=
  match event with
  | .opens =>
    match c.dial with
    | .opening => some { c with dial := .sending terms.payload }
    | .openingVerification =>
      terms.verification.map fun verification => { c with dial := .verifying verification.1 }
    | _ => none
  | .writes count =>
    match c.dial with
    | .sending remaining =>
      if 0 < count ∧ count ≤ remaining.length then
        (c.request.write window (remaining.take count)).map fun request =>
          { c with dial := .sending (remaining.drop count), request := request }
      else none
    | .verifying remaining =>
      if 0 < count ∧ count ≤ remaining.length then
        (c.verification.write window (remaining.take count)).map fun verification =>
          { c with dial := .verifying (remaining.drop count), verification := verification }
      else none
    | _ => none
  | .finishes =>
    match c.dial with
    | .sending [] => some { c with dial := .reading, request := c.request.leave }
    | .verifying [] => some { c with dial := .awaiting, verification := c.verification.leave }
    | _ => none
  | .reads =>
    match c.dial with
    | .reading => c.dialRead terms
    | _ => none
  | .stopped rejected =>
    match c.dial with
    | .awaiting =>
      if rejected then
        if c.ListenerGone then some (c.dialReturns (.error .verificationRejected)) else none
      else if c.verification.link.ending = .finished then some (c.dialReturns (.ok ())) else none
    | _ => none
  | .fails =>
    match c.dial with
    | .returned _ => none
    | _ => some (c.dialReturns (.error .fails))

/-! ## The listener -/

/-- The listener returns, and drops its stream. -/
def listenReturns (c : Exchange) (result : Except ListenError Unit) : Exchange :=
  { c with listen := .returned result, echo := c.echo.leave }

/-- `read_to_end` of the request, and the comparison behind it -/
def listenRead (terms : Terms) (c : Exchange) : Option Exchange :=
  match (readToEnd terms.limit).run c.request.link.source with
  | .done bytes _ =>
    if bytes = terms.expected then some { c with listen := .echoing bytes }
    else some (c.listenReturns (.error .requestMismatch))
  | .failed error => some (c.listenReturns (.error (.readRequest error)))
  | .waits => none

/-- `read_to_end` of what the dialer says in the end -/
def listenVerification (verification : Bytes × ℕ) (c : Exchange) : Option Exchange :=
  match (readToEnd verification.2).run c.verification.link.source with
  | .done bytes _ =>
    if bytes = verification.1 then some (c.listenReturns (.ok ()))
    else some (c.listenReturns (.error .verificationMissing))
  | .failed error => some (c.listenReturns (.error (.readVerification error)))
  | .waits => none

/-- `accept_echo`; a stream is there to be accepted as soon as anything of it has come. -/
def listenStep (terms : Terms) (window : ℕ) (event : ListenEvent) (c : Exchange) :
    Option Exchange :=
  match event with
  | .accepts =>
    match c.listen with
    | .accepting => if c.request.link ≠ .idle then some { c with listen := .reading } else none
    | .acceptingVerification =>
      if c.verification.link ≠ .idle then some { c with listen := .readingVerification } else none
    | _ => none
  | .reads =>
    match c.listen with
    | .reading => c.listenRead terms
    | .readingVerification =>
      terms.verification.bind fun verification => c.listenVerification verification
    | _ => none
  | .writes count =>
    match c.listen with
    | .echoing remaining =>
      if 0 < count ∧ count ≤ remaining.length then
        (c.echo.write window (remaining.take count)).map fun echo =>
          { c with listen := .echoing (remaining.drop count), echo := echo }
      else none
    | _ => none
  | .finishes =>
    match c.listen with
    | .echoing [] => some { c with listen := .awaiting, echo := c.echo.leave }
    | _ => none
  | .stopped rejected =>
    match c.listen with
    | .awaiting =>
      if rejected then
        if c.DialerGone then some (c.listenReturns (.error .echoRejected)) else none
      else if c.echo.link.ending = .finished then
        match terms.verification with
        | some _ => some { c with listen := .acceptingVerification }
        | none => some (c.listenReturns (.ok ()))
      else none
    | _ => none
  | .fails =>
    match c.listen with
    | .returned _ => none
    | _ => some (c.listenReturns (.error .fails))

/-! ## The connection -/

/-- Something happens to one of the streams. -/
def onWay (way : Way) (f : Pipe → Option Pipe) (c : Exchange) : Option Exchange :=
  match way with
  | .request => (f c.request).map fun request => { c with request := request }
  | .echo => (f c.echo).map fun echo => { c with echo := echo }
  | .verification =>
    (f c.verification).map fun verification => { c with verification := verification }

/-- One step of the whole. -/
def step (terms : Terms) (window : ℕ) (event : ExchangeEvent) (c : Exchange) : Option Exchange :=
  match event with
  | .dial event => c.dialStep terms window event
  | .listen event => c.listenStep terms window event
  | .carry way chunk => c.onWay way (Pipe.carry chunk)
  | .ends way ending => c.onWay way (Pipe.ends ending)

end Exchange

end IrohExperiment.Roundtrip
