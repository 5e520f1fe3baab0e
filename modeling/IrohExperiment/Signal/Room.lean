/-
# The signaling room (`worker/src/signal-room.js`)

The Durable Object that two browsers meet in: what it does with a join, a message, a close
and its alarm, and what it has admitted, accepted and delivered so far.

Each event is one uninterrupted stretch.  A storage operation that is awaited is as in the
relay (`Relay/World.lean`): the handler is suspended, the operation is carried out without
interruption at some later moment, and the handler goes on at some moment after that.  So a
join has three stretches: its checks, its transaction, and what it does with the answer;
and the alarm has two, the second of which deletes the storage.  Nothing is assumed about
what comes between them; where a result needs that nothing does, it says so.
-/
import IrohExperiment.Relay.Protocol
import IrohExperiment.Rust.Parse
import IrohExperiment.History.Run

namespace IrohExperiment.Signal

/-! ## Values -/

/-- The code units of an ASCII text. -/
def units (text : String) : List UInt16 := text.toList.map fun c => UInt16.ofNat c.toNat

/-- What `JSON.parse` returns: a string is its code units, a number the numeral that is written
for it, and no name stands twice in an object. -/
inductive Json where
  | null
  | bool (value : Bool)
  | number (numeral : List UInt16)
  | string (value : List UInt16)
  | array (items : List Json)
  | object (fields : List (List UInt16 × Json))

/-- Why a message is rejected. -/
inductive Rejected where
  | expired
  | tooLarge
  | limit
  | syntaxError
  | invalidCandidate
  | sdpOrder
  | invalidSdp
  | typeError
  deriving DecidableEq, Repr

/-- `data.name`: `undefined` is `none`, and `null` has no properties. -/
def Json.access (data : Json) (name : String) : Except Rejected (Option Json) :=
  match data with
  | .null => .error .typeError
  | .object fields => .ok ((fields.find? fun field => field.1 = units name).map Prod.snd)
  | _ => .ok none

/-- `data?.name` -/
def accessOptional (data : Option Json) (name : String) : Except Rejected (Option Json) :=
  match data with
  | none => .ok none
  | some .null => .ok none
  | some data => data.access name

/-- The value is a string that satisfies the condition. -/
def isString (value : Option Json) (p : List UInt16 → Bool) : Bool :=
  match value with
  | some (.string text) => p text
  | _ => false

/-- `message.length` -/
def utf16Len (text : Text) : ℕ := (text.map fun c => if c.toNat < 0x10000 then 1 else 2).sum

/-! ## The room -/

/-- `ROOM_TTL_MS` -/
def roomTtl : ℕ := 10 * 60 * 1000

/-- When the room of a token expires. -/
def expiry (token : Text) : ℕ := decimal (token.take 13) + roomTtl

/-- `roomExpiry` -/
def roomExpiry (token : Text) (now : ℕ) : Option ℕ :=
  if !spelledBy tokenPattern token then none
  else
    let created := decimal (token.take 13)
    if created ≤ now + 30000 ∧ now < created + roomTtl then some (created + roomTtl) else none

inductive Role where
  | offerer
  | answerer
  deriving DecidableEq, Repr

/-- The attachment of a socket. -/
structure Info where
  role : Role
  expires : ℕ
  messages : ℕ
  bytes : ℕ
  sdpSent : Bool
  deriving DecidableEq, Repr

/-- `expected` -/
def Role.sdpType : Role → String
  | .offerer => "offer"
  | .answerer => "answer"

/-- `validateSignal`, and the attachment as it leaves it -/
def validateSignal (data : Json) (info : Info) : Except Rejected Info := do
  let type ← data.access "type"
  if isString type (· = units "candidate") then
    let candidate ← data.access "candidate"
    let text ← accessOptional candidate "candidate"
    if isString text fun text => text.length ≤ 2048 then return info
    else throw .invalidCandidate
  else if !isString type (· = units info.role.sdpType) || info.sdpSent then throw .sdpOrder
  else
    let sdp ← data.access "sdp"
    if isString sdp (units "v=0\r\n").isPrefixOf then return { info with sdpSent := true }
    else throw .invalidSdp

/-- A message of a WebSocket. -/
inductive Message where
  | text (text : Text)
  | binary (bytes : Bytes)
  deriving DecidableEq, Repr

/-- What is delivered to a socket: what it says, the text that is sent for it, and the socket
whose message it is, if it is forwarded. -/
structure Delivery where
  receiver : ℕ
  data : Json
  encoded : Text
  origin : Option ℕ

/-- A message that has been accepted: the socket, the text as it has come, what it says, and
when that was. -/
structure Forwarded where
  sender : ℕ
  text : Text
  data : Json
  time : ℕ

/-- A join that is suspended: past its checks, or with the answer of its transaction. -/
inductive Join where
  | checked (expires : ℕ)
  | decided (admission : Option Role)
  deriving DecidableEq, Repr

/-- The role that a join has been given. -/
def Join.role : Join → Option Role
  | .checked _ => none
  | .decided admission => admission

/-- The state of the object: the clock, the storage, the joins and the deletions that are under
way, the sockets that have ever been accepted and the ones that `getWebSockets` lists; and, as
a history, the admissions, the accepted messages, the deliveries and the closes. -/
structure Room where
  now : ℕ
  joined : Option ℕ
  alarm : Option ℕ
  pending : List Join
  deletions : ℕ
  sockets : List Info
  listing : List ℕ
  admitted : List Role
  forwarded : List Forwarded
  wire : List Delivery
  closes : List (ℕ × ℕ)

namespace Room

/-- A room that nobody has asked for. -/
def start (now : ℕ) : Room := ⟨now, none, none, [], 0, [], [], [], [], [], []⟩

/-- `ws.close(code, …)` -/
def close (room : Room) (ws code : ℕ) : Room := { room with closes := room.closes ++ [(ws, code)] }

/-- The transaction of a join. -/
def admission (room : Room) (expires : ℕ) : Room × Option Role :=
  let joined := room.joined.getD 0
  if 2 ≤ joined then (room, none)
  else
    let role := if joined = 0 then Role.offerer else .answerer
    ({ room with
        joined := some (joined + 1), alarm := some expires, admitted := room.admitted ++ [role] },
      some role)

/-- The `i`-th of the suspended joins has its transaction carried out. -/
def transact (room : Room) (i expires : ℕ) : Room :=
  let (room, role) := room.admission expires
  { room with pending := room.pending.set i (.decided role) }

end Room

/-- How a join is answered at once: with a status, or not before the transaction is through. -/
inductive Answer where
  | refused (status : ℕ)
  | waits
  deriving DecidableEq, Repr

/-- `fetch`, up to its transaction; `upgrade` is the header of that name. -/
def fetch (token : Text) (upgrade : Option Text) (room : Room) : Room × Answer :=
  match roomExpiry token room.now with
  | none => (room, .refused 410)
  | some expires =>
    if upgrade.map jsToLowerCase ≠ some "websocket".toList then (room, .refused 426)
    else ({ room with pending := room.pending ++ [.checked expires] }, .waits)

/-- `{ type: name }` -/
def typed (name : String) : List (List UInt16 × Json) := [(units "type", .string (units name))]

section

-- `stringify` is `JSON.stringify`
variable (stringify : Json → Text)

/-- `broadcast`, where sending to the sockets in `lost` fails -/
def Room.broadcast (room : Room) (lost : List ℕ) (data : Json) (except origin : Option ℕ) : Room :=
  let receivers := room.listing.filter fun ws => some ws ≠ except ∧ ws ∉ lost
  { room with
    wire := room.wire ++ receivers.map fun ws => (⟨ws, data, stringify data, origin⟩ : Delivery) }

/-- `fetch`, once it has been admitted; sending to the sockets in `lost` fails. -/
def accept (token : Text) (role : Role) (lost : List ℕ) (room : Room) : Room :=
  let server := room.sockets.length
  let expires := expiry token
  let room := { room with
    sockets := room.sockets ++ [⟨role, expires, 0, 0, false⟩], listing := room.listing ++ [server] }
  -- if the greeting cannot be sent then `fetch` fails
  if server ∈ lost then room
  else
    let name := match role with
      | .offerer => "offerer"
      | .answerer => "answerer"
    let hello := Json.object (typed "hello" ++
      [(units "role", .string (units name)),
        (units "expires_at", .number (units (toString expires)))])
    let greeting : Delivery := ⟨server, hello, stringify hello, none⟩
    let room := { room with wire := room.wire ++ [greeting] }
    if room.listing.length = 2 then room.broadcast stringify lost (.object (typed "ready"))
      none none else room

-- `parse` is `JSON.parse`
variable (parse : Text → Option Json)

/-- The checks of `webSocketMessage`: what the message says, and the attachment that is stored -/
def checkMessage (info : Info) (message : Message) (now : ℕ) :
    Except Rejected (Text × Json × Info) :=
  if info.expires ≤ now then .error .expired
  else
    match message with
    | .binary _ => .error .tooLarge
    | .text text =>
      if 24576 < utf16Len text then .error .tooLarge
      else
        let info :=
          { info with messages := info.messages + 1, bytes := info.bytes + Rust.utf8Len text }
        if 32 < info.messages ∨ 65536 < info.bytes then .error .limit
        else
          match parse text with
          | none => .error .syntaxError
          | some data => (validateSignal data info).map fun info => (text, data, info)

/-- `webSocketMessage` -/
def webSocketMessage (ws : ℕ) (message : Message) (lost : List ℕ) (room : Room) : Room :=
  match room.sockets[ws]? with
  | none => room.close ws 1008
  | some info =>
    match checkMessage parse info message room.now with
    | .ok (text, data, info) =>
      let entry : Forwarded := ⟨ws, text, data, room.now⟩
      let room :=
        { room with sockets := room.sockets.set ws info, forwarded := room.forwarded ++ [entry] }
      room.broadcast stringify lost data (some ws) (some ws)
    | .error _ => room.close ws 1008

/-- `webSocketClose` -/
def webSocketClose (ws : ℕ) (lost : List ℕ) (room : Room) : Room :=
  room.broadcast stringify lost (.object (typed "peer-left")) (some ws) none

/-- `webSocketError` -/
def webSocketError (ws : ℕ) (room : Room) : Room := room.close ws 1011

/-- `alarm`, up to its `deleteAll` -/
def alarm (room : Room) : Room :=
  { room with
    closes := room.closes ++ room.listing.map fun ws => (ws, 1000)
    deletions := room.deletions + 1 }

/-- A `deleteAll` is carried out; `done` says whether it succeeds. -/
def deleteAll (done : Bool) (room : Room) : Room :=
  let room := { room with deletions := room.deletions - 1 }
  if done then { room with joined := none, alarm := none } else room

/-! ## Events -/

/-- What can happen: a join, its transaction, or what follows it; what becomes of a socket; the
alarm, or the deletion it has asked for; time passes, and a socket is no longer listed or a join
is given up. -/
inductive Event where
  | join (upgrade : Option Text)
  | transaction (i : ℕ)
  | admitted (i : ℕ) (lost : List ℕ)
  | message (ws : ℕ) (message : Message) (lost : List ℕ)
  | closed (ws : ℕ) (lost : List ℕ)
  | failed (ws : ℕ)
  | alarm
  | deleted (done : Bool)
  | tick (ms : ℕ)
  | unlisted (ws : ℕ)
  | givenUp (i : ℕ)
  deriving DecidableEq, Repr

/-- One event, if it can happen: the alarm never fires before it is due. -/
def step (token : Text) (event : Event) (room : Room) : Option Room :=
  match event with
  | .join upgrade => some (fetch token upgrade room).1
  | .transaction i =>
    match room.pending[i]? with
    | some (.checked expires) => some (room.transact i expires)
    | _ => none
  | .admitted i lost =>
    match room.pending[i]? with
    | some (.decided (some role)) =>
      some (accept stringify token role lost { room with pending := room.pending.eraseIdx i })
    | some (.decided none) => some { room with pending := room.pending.eraseIdx i }
    | _ => none
  | .message ws message lost =>
    if ws < room.sockets.length then some (webSocketMessage stringify parse ws message lost room)
      else none
  | .closed ws lost =>
      if ws < room.sockets.length then some (webSocketClose stringify ws lost room) else none
  | .failed ws => if ws < room.sockets.length then some (webSocketError ws room) else none
  | .alarm =>
    match room.alarm with
    | some due => if due ≤ room.now then some (alarm room) else none
    | none => none
  | .deleted done => if 0 < room.deletions then some (deleteAll done room) else none
  | .tick ms => some { room with now := room.now + ms }
  | .unlisted ws => some { room with listing := room.listing.filter (· ≠ ws) }
  | .givenUp i =>
      if i < room.pending.length then some { room with pending := room.pending.eraseIdx i }
      else none

end

end IrohExperiment.Signal
