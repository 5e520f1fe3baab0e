/-
# The relay's world

What an `IrohRelay` object works on: the attachments of its sockets
(`worker/src/relay-metrics.js`), the object's storage, and the platform around
them.  A room is one object; its sockets are numbered in the order in which they
were accepted.

Some fields are *history variables*.  Handlers write them and never read them:
they record what happened, so that statements about whole runs can be made about
the state.  They are the fields of `Past` and the second half of `Socket`.
-/
import IrohExperiment.Coop.Machine
import IrohExperiment.Relay.Protocol

namespace IrohExperiment.Relay

open Coop

/-! ## Counters and attachments -/

/-- The keys of `counters()`. -/
inductive Counter : Type where
  | messages | inboundBytes | outboundBytes | auth | ping | pong
  | datagram | forwarded | dropped | serverPing | serverPong | endpointGone
  deriving DecidableEq, Repr

abbrev Counters := Counter → ℕ

/-- `counters`. -/
def counters : Counters := fun _ => 0

/-- `addCounters`. -/
def addCounters (total values : Counters) : Counters := fun key => total key + values key

/-- The phases of a socket. -/
inductive Phase : Type where
  | challenge | verifying | authenticated
  deriving DecidableEq, Repr

abbrev SocketId := ℕ

/-- What `serializeAttachment` stores with a socket.  A field that the source
sets to `null`, or leaves out, is `none`. -/
structure Attachment where
  phase : Phase
  challenge : Option Text
  deadline : Option ℕ
  expires : ℕ
  id : Option Text
  archived : Bool
  counts : Counters
  bucket : ℕ
  bucketMessages : ℕ
  pendingPing : Option Text

/-! ## Storage -/

/-- The storage key `meta`. -/
structure RoomMeta where
  expires : ℕ
  ping : ℕ
  createdAt : ℕ
  alarmEvents : ℕ
  nextPing : Option ℕ
  deriving DecidableEq, Repr

/-- One entry of `closed.recent`. -/
structure RecentClose where
  at_ : ℕ
  code : ℕ
  reason : Text
  id : Option Text

/-- The storage key `closed`. -/
structure Closed where
  connections : ℕ
  counts : Counters
  recent : List RecentClose

/-- The object's storage, and the time its alarm is set to. -/
structure Storage where
  boots : Option ℕ
  roomMeta : Option RoomMeta
  attempts : Option ℕ
  identities : Option (List Text)
  closed : Option Closed
  alarm : Option ℕ

/-- `closed` before anything was stored. -/
def Closed.none : Closed := ⟨0, counters, []⟩

/-! ## Events and the points where handlers wait -/

/-- What the platform delivers to the object. -/
inductive Event : Type where
  | fetch (request : Request)
  | message (ws : SocketId) (message : Message)
  | close (ws : SocketId) (code : ℕ) (reason : Text)
  | error (ws : SocketId)
  | alarm

/-- The `await`s of the source.  Some carry the local variables that their
handler holds on to while it waits. -/
inductive Site : Type where
  | admission (room : Room)
  | admitUpgrade
  | scheduleMeta
  | setAlarm
  | schedule
  | importKey
  | verify
  | authenticate
  | identities (ws : SocketId) (id : Text)
  | retireOld (ws : SocketId) (id : Text) (rest : List SocketId)
  | authMeta
  | authorize
  | route
  | undeliverable
  | rejected
  | alarmMeta (read : Option RoomMeta)
  | wipe
  | timedOut (now : ℕ) (pingDue : Bool) (rest : List SocketId)
  | pingFailed (now : ℕ) (pingDue : Bool) (rest : List SocketId)
  | putMeta (read : RoomMeta)
  | fold (ws : SocketId) (id : Option Text)
  | finish
  | stats

/-- A handler waits either for its request to be carried out, or, with the
answer there, for its turn to go on. -/
inductive Point : Type where
  | issued (site : Site)
  | answered (site : Site)

/-- The exceptions thrown while a message is handled, with their texts. -/
inductive Fault : Type where
  /-- "expired" -/
  | expired
  /-- "binary frames required" -/
  | binaryRequired
  /-- "relay budget" -/
  | budget
  /-- "authentication in progress" -/
  | inProgress
  /-- One of the four exceptions of `clientFrame`. -/
  | badFrame
  /-- "unexpected pong" -/
  | unexpectedPong
  /-- "auth timeout" -/
  | authTimeout
  /-- "invalid client auth" -/
  | invalidAuth
  /-- `importKey` rejects the key. -/
  | importFailed
  /-- "signature invalid" -/
  | signatureInvalid
  /-- "identity limit or expired auth" -/
  | identityLimit
  /-- "superseded authentication" -/
  | superseded
  /-- `ws.send` throws. -/
  | sendFailed
  /-- A property of `null` or `undefined` is read. -/
  | typeError
  /-- `Uint8Array.set` past the end. -/
  | rangeError
  deriving DecidableEq, Repr

/-! ## Sockets and the world -/

/-- `readyState`: 0 and 1, 2 and 3 in the source. -/
inductive ReadyState : Type where
  | open | closing | closed
  deriving DecidableEq, Repr

/-- The attachments of all sockets at one moment. -/
abbrev View := SocketId → Option Attachment

/-- History: how far the retirement of a socket has got, by which handler; what
the attachments were when it was retired and when the others had been told; and
the sockets that could not be told because sending to them threw. -/
inductive Departure : Type where
  | live
  | retired (handler : ℕ) (seen : View)
  | folded (handler : ℕ) (seen : View)
  | announcing (handler : ℕ) (seen : View) (missed : List SocketId)
  | announced (handler : ℕ) (seen told : View) (missed : List SocketId)

namespace Departure

/-- The closed counters include those of the socket. -/
def fold : Departure → Departure
  | retired h seen => folded h seen
  | d => d

/-- The others are being told. -/
def announce : Departure → Departure
  | folded h seen => announcing h seen []
  | d => d

/-- One of the others could not be told. -/
def miss (peer : SocketId) : Departure → Departure
  | announcing h seen missed => announcing h seen (peer :: missed)
  | d => d

/-- The others have been told. -/
def conclude (told : View) : Departure → Departure
  | announcing h seen missed => announced h seen told missed
  | d => d

end Departure

/-- A server-side WebSocket. -/
structure Socket where
  attachment : Option Attachment
  readyState : ReadyState
  closeFrame : Option (ℕ × Text)
  /-- The other end has been handed to the client. -/
  connected : Bool
  /-- History: the handler that accepted the socket. -/
  opener : ℕ
  /-- History: the challenge it was sent and the deadline for answering it. -/
  issued : Bytes
  due : ℕ
  /-- History: the handler that took the answer up, and the clock reading by
  which the signature had been verified. -/
  authorizer : Option ℕ
  verifiedAt : Option ℕ
  /-- History: the handlers whose datagram from this socket is counted but not
  settled yet. -/
  unsettled : List ℕ
  departure : Departure

/-- A socket that does not exist yet. -/
def Socket.none : Socket :=
  ⟨Option.none, .open, Option.none, false, 0, [], 0, Option.none, Option.none, [], .live⟩

/-- History: one frame that was sent, by which handler, and the attachments at
that moment; `about` is the socket whose departure it announces. -/
structure Sent where
  handler : ℕ
  target : SocketId
  bytes : Bytes
  seen : View
  about : Option SocketId

/-- History: one message that passed the budget. -/
structure Taken where
  handler : ℕ
  socket : SocketId
  size : ℕ
  time : ℕ

/-- History of the whole room. -/
structure Past where
  /-- The handler that runs, or ran last. -/
  current : ℕ
  /-- The events delivered so far; handler `h` was started by the `h`-th. -/
  arrivals : List Event
  /-- The frames sent, in order. -/
  wire : List Sent
  /-- All increments ever made on the counters of any socket. -/
  made : Counters
  /-- The messages that passed the budget, in order. -/
  taken : List Taken
  /-- The handlers that were admitted and have not accepted their socket yet. -/
  entering : List ℕ
  /-- The handlers that have claimed an id for their socket and are not past the
  confirmation yet. -/
  claiming : List ℕ
  /-- The ping intervals that `meta` was created with. -/
  pings : List ℕ
  /-- The handlers that stored `meta` over a copy they had read. -/
  metaWriters : List ℕ
  /-- The storage has been deleted. -/
  wiped : Bool
  /-- Some write has cleared the `archived` flag of a socket. -/
  revived : Bool

/-- The world of one room.  `reads`, `calls` and `draws` count the readings of
the clock, the calls of `send` and `close`, and the random values drawn. -/
structure World where
  reads : ℕ
  calls : ℕ
  draws : ℕ
  storage : Storage
  count : ℕ
  socket : SocketId → Socket
  listing : List SocketId
  past : Past

/-- The platform: a clock that never runs backwards, the calls of `send` and
`close` that throw, random values, the signature scheme, `Number` on strings,
and the room token the object was created for. -/
structure Platform where
  clock : ℕ → ℕ
  clock_mono : Monotone clock
  throws : ℕ → Bool
  random : ℕ → ℕ → Bytes
  random_length : ∀ i n, (random i n).length = n
  importable : Bytes → Bool
  verifies : Bytes → Bytes → Bytes → Bool
  challengeMessage : Bytes → Bytes
  number : Text → Option ℕ
  token : Text

/-- Nothing has happened yet. -/
def World.initial : World where
  reads := 0
  calls := 0
  draws := 0
  storage := ⟨none, none, none, none, none, none⟩
  count := 0
  socket := fun _ => Socket.none
  listing := []
  past := ⟨0, [], [], counters, [], [], [], [], [], false, false⟩

namespace World

/-- The attachment of a socket. -/
def info (w : World) : View := fun ws => (w.socket ws).attachment

/-- Update a socket. -/
@[simps!] def setSocket (w : World) (ws : SocketId) (f : Socket → Socket) : World :=
  { w with socket := Function.update w.socket ws (f (w.socket ws)) }

/-- The clock has been read once more. -/
@[simps!] def tick (w : World) : World := { w with reads := w.reads + 1 }

/-- `send` or `close` has been called once more. -/
@[simps!] def call (w : World) : World := { w with calls := w.calls + 1 }

/-- A random value has been drawn. -/
@[simps!] def draw (w : World) : World := { w with draws := w.draws + 1 }

/-- Store an attachment. -/
@[simps!] def setInfo (w : World) (ws : SocketId) (info : Attachment) : World :=
  { w.setSocket ws fun s => { s with attachment := some info } with
    past := { w.past with
      revived := w.past.revived || ((w.info ws).any (·.archived) && !info.archived) } }

/-- Put a frame on the wire. -/
@[simps!] def transmit (w : World) (ws : SocketId) (bytes : Bytes)
    (about : Option SocketId) : World :=
  { w with past := { w.past with
      wire := w.past.wire ++ [⟨w.past.current, ws, bytes, w.info, about⟩] } }

/-- Increments made on the counters of some socket. -/
@[simps!] def charge (w : World) (made : Counters) : World :=
  { w with past := { w.past with made := w.past.made + made } }

/-- A new socket is accepted; its handler has used its admission up. -/
@[simps!] def enroll (w : World) : World :=
  { w with
    count := w.count + 1
    listing := w.listing ++ [w.count]
    socket := Function.update w.socket w.count { Socket.none with opener := w.past.current }
    past := { w.past with entering := w.past.entering.erase w.past.current } }

/-- The connection of a socket begins to close. -/
@[simps!] def close (w : World) (ws : SocketId) (code : ℕ) (reason : Text) : World :=
  w.setSocket ws fun s =>
    { s with
      readyState := if s.readyState = .closed then .closed else .closing
      closeFrame := some (code, reason) }

/-- Update the storage. -/
@[simps!] def setStorage (w : World) (f : Storage → Storage) : World :=
  { w with storage := f w.storage }

/-- Record history. -/
@[simps!] def note (w : World) (f : Past → Past) : World := { w with past := f w.past }

end World

/-! ## Primitive operations -/

/-- An async method of the relay, or a part of one. -/
abbrev Async := Coroutine Point World Fault

variable (P : Platform)

/-- `Date.now()`. -/
def dateNow : Async ℕ := fun w => .done (P.clock w.reads) w.tick

/-- `crypto.getRandomValues(new Uint8Array(n))`. -/
def getRandomValues (n : ℕ) : Async Bytes := fun w =>
  .done (P.random w.draws n) w.draw

/-- `attachment`. -/
def attachment (ws : SocketId) : Async (Option Attachment) := Coroutine.gets fun w => w.info ws

/-- `attachment` where a property of the result is read at once. -/
def attachmentOf (ws : SocketId) : Async Attachment := fun w =>
  match w.info ws with
  | some info => .done info w
  | none => .fail .typeError w

/-- `ws.serializeAttachment`. -/
def serializeAttachment (ws : SocketId) (info : Attachment) : Async Unit :=
  Coroutine.modify fun w => w.setInfo ws info

/-- `info.counts[key] += n` on a copy of an attachment. -/
def increment (info : Attachment) (key : Counter) (n : ℕ) : Async Attachment := fun w =>
  .done { info with counts := info.counts + Pi.single key n } (w.charge (Pi.single key n))

/-- `(await ctx.storage.get(key))`, `ctx.storage.put` and the like run on the
storage alone. -/
def readStorage {α : Type} (f : Storage → α) : Async α := Coroutine.gets fun w => f w.storage

/-- Update the storage. -/
def writeStorage (f : Storage → Storage) : Async Unit :=
  Coroutine.modify fun w => w.setStorage f

/-- `ctx.getWebSockets()`. -/
def getWebSockets : Async (List SocketId) := Coroutine.gets fun w => w.listing

/-- `ctx.acceptWebSocket`. -/
def acceptWebSocket : Async SocketId := fun w => .done w.count w.enroll

/-- `ws.send`. -/
def wsSend (ws : SocketId) (bytes : Bytes) (about : Option SocketId) : Async Unit := fun w =>
  if P.throws w.calls then .fail .sendFailed w.call
  else .done () (w.call.transmit ws bytes about)

/-- `ws.close`. -/
def wsClose (ws : SocketId) (code : ℕ) (reason : Text) : Async Unit := fun w =>
  if P.throws w.calls then .fail .sendFailed w.call
  else .done () (w.call.close ws code reason)

/-- Record history about a socket. -/
def mark (ws : SocketId) (f : World → Socket → Socket) : Async Unit :=
  Coroutine.modify fun w => w.setSocket ws (f w)

/-- Record history about the room. -/
def note (f : World → Past → Past) : Async Unit := Coroutine.modify fun w => w.note (f w)

/-- Await a request to the storage or to the crypto module: the handler is
suspended, the request is carried out without interruption at some later moment,
and the handler goes on at some moment after that.  Other handlers may come in
between; this is what an awaited request means throughout (`Signal/Room.lean` has
the same reading), and no result assumes that the platform holds events back. -/
def request (site : Site) {α : Type} (op : Async α) : Async α :=
  Coroutine.await (fun _ => .answered site) (Coroutine.yield (.issued site) >>= fun _ => op)

/-- Await an async method. -/
def await (site : Site) {α : Type} (t : Async α) : Async α :=
  Coroutine.await (fun _ => .answered site) t

end IrohExperiment.Relay
