/-
# The relay's handlers (`worker/src/iroh-relay.js`)

The methods of `IrohRelay`, in the order in which they call each other.  Lines
marked "history" have no counterpart in the source.

Not modelled: `await this.ready`, which only delays a handler until the object's
constructor is through, and the constant fields of a snapshot.
-/
import IrohExperiment.Relay.World

namespace IrohExperiment.Relay

open Coop Coroutine

variable (P : Platform)

/-- `send`. -/
def send (ws : SocketId) (bytes : Bytes) (category : Option Counter)
    (about : Option SocketId) : Async Unit := do
  let info ← attachment ws
  wsSend P ws bytes about
  match info with
  | none => raise .typeError
  | some info => do
    let info ← increment info .outboundBytes bytes.length
    let info ← (match category with
      | some key => increment info key 1
      | none => pure info)
    serializeAttachment ws info

/-! ## `schedule` -/

/-- The sockets that `schedule` looks at. -/
def World.active (w : World) : List Attachment :=
  (w.listing.filterMap w.info).filter fun info => !info.archived

/-- When the alarm is due. -/
def nextAlarm (m : RoomMeta) (active : List Attachment) : ℕ :=
  if active.isEmpty then m.expires + historyTtl
  else
    let next := match m.nextPing with
      | some at_ => min m.expires at_
      | none => m.expires
    active.foldl (fun next info => match info.deadline with
      | some deadline => min next deadline
      | none => next) next

/-- `schedule`. -/
def schedule : Async Unit := do
  let m ← request .scheduleMeta (readStorage (·.roomMeta))
  match m with
  | none => pure ()
  | some m => do
    let active ← gets World.active
    let now ← dateNow P
    request .setAlarm (writeStorage fun s =>
      { s with alarm := some (max (now + 1) (nextAlarm m active)) })

/-! ## `finish` -/

/-- The attachment belongs to a live socket of an authenticated endpoint. -/
def Attachment.isRouted (info : Attachment) : Bool :=
  info.phase = .authenticated && !info.archived

/-- The loop of `finish` over the other sockets. -/
def announce (ws : SocketId) (id : Text) : List SocketId → Async Unit
  | [] => pure ()
  | peer :: rest => do
    let other ← attachment peer
    when (peer ≠ ws && other.any fun other => other.isRouted && other.id ≠ some id)
      ((send P peer (8 :: unhex id) (some .endpointGone) (some ws)).rescue fun _ =>
        -- history
        mark ws fun _ s => { s with departure := s.departure.miss peer })
    announce ws id rest

/-- The codes that a close frame may not carry. -/
def closeCode (code : ℕ) : ℕ := if code ∈ [1005, 1006, 1015] then 1000 else code

/-- What `finish` adds to the storage key `closed`. -/
def foldClosed (closed : Option Closed) (info : Attachment) (entry : RecentClose) : Closed :=
  let closed := closed.getD Closed.none
  { connections := closed.connections + 1
    counts := addCounters closed.counts info.counts
    recent := closed.recent.drop (closed.recent.length - 15) ++ [entry] }

/-- The part of `finish` after the socket was archived. -/
def windUp (ws : SocketId) (code : ℕ) (reason : Text) (info : Attachment) : Async Unit := do
  (wsClose P ws (closeCode code) reason).rescue fun _ => pure ()
  request (.fold ws info.id) (do
    let now ← dateNow P
    writeStorage fun s =>
      { s with closed := some (foldClosed s.closed info ⟨now, code, reason.take 120, info.id⟩) }
    -- history
    mark ws fun _ s => { s with departure := s.departure.fold })
  -- history
  mark ws fun _ s => { s with departure := s.departure.announce }
  (match info.id with
    | some id => do
      let peers ← getWebSockets
      announce P ws id peers
    | none => pure ())
  -- history
  mark ws fun w s => { s with departure := s.departure.conclude w.info }
  await .schedule (schedule P)

/-- `finish`. -/
def finish (ws : SocketId) (code : ℕ) (reason : Text) : Async Unit := do
  let info ← attachment ws
  match info with
  | none => pure ()
  | some info =>
    if info.archived then pure () else do
    let info := { info with archived := true }
    serializeAttachment ws info
    -- history
    mark ws fun w s => { s with departure := .retired w.past.current w.info }
    windUp P ws code reason info

/-! ## `fetch` and `admit` -/

/-- The sockets that hold an admission slot. -/
def World.liveCount (w : World) : ℕ :=
  w.listing.countP fun ws =>
    !(w.info ws).any (·.archived) && (w.socket ws).readyState ≠ .closing &&
      (w.socket ws).readyState ≠ .closed

/-- The callback of `admit`. -/
def admission (room : Room) : Async Bool := do
  let m ← readStorage (·.roomMeta)
  let attempts ← readStorage (·.attempts.getD 0)
  let live ← gets World.liveCount
  if m.any (·.ping ≠ room.ping) || attempts ≥ 20 || live ≥ 4 then pure false else do
  when m.isNone (do
    let now ← dateNow P
    writeStorage fun s => { s with roomMeta := some ⟨room.expires, room.ping, now, 0, none⟩ }
    -- history
    note fun _ past => { past with pings := past.pings ++ [room.ping] })
  writeStorage fun s => { s with attempts := some (attempts + 1) }
  -- history
  note fun w past => { past with entering := w.past.current :: past.entering }
  pure true

/-- `admit`. -/
def admitUpgrade (room : Room) : Async Bool := request (.admission room) (admission P room)

/-- What `snapshot` reports, less its constant fields. -/
structure Snapshot where
  roomMeta : Option RoomMeta
  sampledAt : ℕ
  constructorRuns : Option ℕ
  websocketUpgrades : ℕ
  closedConnections : ℕ
  recentCloses : List RecentClose
  activeConnections : ℕ
  peers : List (Option Text × Phase)
  counts : Counters

/-- The loop of `snapshot`. -/
def tallyLive (w : World) : List SocketId → Counters → List (Option Text × Phase) →
    Counters × List (Option Text × Phase)
  | [], counts, peers => (counts, peers)
  | ws :: rest, counts, peers =>
      match w.info ws with
      | some info =>
          if info.archived then tallyLive w rest counts peers
          else tallyLive w rest (addCounters counts info.counts) (peers ++ [(info.id, info.phase)])
      | none => tallyLive w rest counts peers

/-- `snapshot`. -/
def snapshot : Async Snapshot := do
  let m ← request .stats (readStorage (·.roomMeta))
  let closed ← request .stats (readStorage (·.closed.getD Closed.none))
  let live ← gets fun w => tallyLive w w.listing closed.counts []
  let now ← dateNow P
  let boots ← request .stats (readStorage (·.boots))
  let attempts ← request .stats (readStorage (·.attempts.getD 0))
  pure ⟨m, now, boots, attempts, closed.connections, closed.recent, live.2.length, live.2, live.1⟩

/-- The response of `fetch`. -/
inductive Response : Type where
  | refused (status : ℕ)
  | stats (snapshot : Snapshot)
  | upgraded (ws : SocketId)

/-- `new Response(null, { status: 101, webSocket: client, … })` hands the other
end of the pair to the client. -/
def upgradeResponse (ws : SocketId) : Async Response := fun w =>
  .done (.upgraded ws) (w.setSocket ws fun s => { s with connected := true })

/-- The part of `fetch` after the upgrade was admitted. -/
def accept (room : Room) : Async Response := do
  let challenge ← getRandomValues P 16
  let server ← acceptWebSocket
  let deadline ← dateNow P
  let bucket ← dateNow P
  serializeAttachment server
    { phase := .challenge, challenge := some (hex challenge), deadline := some (deadline + 10000),
      expires := room.expires, id := none, archived := false, counts := counters,
      bucket := bucket, bucketMessages := 0, pendingPing := none }
  -- history
  mark server fun _ s => { s with issued := challenge, due := deadline + 10000 }
  send P server (challengeFrame challenge) none none
  await .schedule (schedule P)
  upgradeResponse server

/-- `fetch`. -/
def fetch (r : Request) : Async Response := do
  let now ← dateNow P
  match relayRoom P.number r now r.stats with
  | none => pure (.refused 410)
  | some room =>
    if r.stats then do
      let stats ← await .stats (snapshot P)
      pure (.stats stats)
    else if !protocol r then pure (.refused 400)
    else if !upgradesToWebSocket r then pure (.refused 426)
    else do
      let accepted ← await .admitUpgrade (admitUpgrade P room)
      if !accepted then pure (.refused 409) else accept P room

/-! ## `authorize` -/

/-- `Date.now() >= deadline`, where `null` compares like 0. -/
def reached (now : ℕ) : Option ℕ → Bool
  | some deadline => deadline ≤ now
  | none => true

/-- `authenticate`. -/
def authenticate (frame : Bytes) (challenge : Bytes) : Async Text := do
  match clientAuth frame with
  | none => raise .invalidAuth
  | some auth => do
    request .importKey (if P.importable auth.publicKey then pure () else raise .importFailed)
    request .verify (if P.verifies auth.publicKey auth.signature (P.challengeMessage challenge)
      then pure () else raise .signatureInvalid)
    pure (hex auth.publicKey)

/-- The transaction of `authorize` on the identities. -/
def registerIdentity (id : Text) : Async Bool := do
  let ids ← readStorage (·.identities.getD [])
  if ids.contains id then pure true
  else if ids.length ≥ 2 then pure false
  else do
    writeStorage fun s => { s with identities := some (ids ++ [id]) }
    pure true

/-- The attachment is that of a live socket of `id`. -/
def Attachment.carries (info : Attachment) (id : Text) : Bool := info.id = some id && !info.archived

/-- The loop of `authorize` over the other sockets. -/
def retireOthers (ws : SocketId) (id : Text) : List SocketId → Async Unit
  | [] => pure ()
  | old :: rest => do
    let other ← attachment old
    when (old ≠ ws && other.any fun other => other.carries id)
      (await (.retireOld ws id rest) (finish P old 1000 "identity reconnected".toList))
    retireOthers ws id rest

/-- `storage.put("meta", …)` over a copy that was read before. -/
def putMeta (read new : RoomMeta) : Async Unit :=
  request (.putMeta read) (do
    writeStorage fun s => { s with roomMeta := some new }
    -- history
    note fun w past => { past with metaWriters := w.past.current :: past.metaWriters })

/-- The part of `authorize` after the confirmation was sent. -/
def startPings : Async Unit := do
  let m ← request .authMeta (readStorage (·.roomMeta))
  match m with
  | none => raise .typeError
  | some m => do
    when m.nextPing.isNone (do
      let now ← dateNow P
      putMeta m { m with nextPing := some (now + m.ping * 1000) })
    await .schedule (schedule P)

/-- The part of `authorize` after the identity was looked up: the socket claims
its id, retires the others of that id and confirms. -/
def claim (ws : SocketId) (id : Text) (allowed : Bool) : Async Unit := do
  let info ← attachmentOf ws
  if !allowed || info.archived then raise .identityLimit else do
  let now ← dateNow P
  if reached now info.deadline then raise .identityLimit else do
  let now ← dateNow P
  if info.expires ≤ now then raise .identityLimit else do
  let info ← attachmentOf ws
  let info ← increment
    { info with id := some id, phase := .authenticated, challenge := none, deadline := none }
    .auth 1
  serializeAttachment ws info
  -- history
  note fun w past => { past with claiming := w.past.current :: past.claiming }
  let others ← getWebSockets
  retireOthers P ws id others
  let info ← attachmentOf ws
  if info.archived then raise .superseded else do
  send P ws [2] none none
  -- history
  note fun w past => { past with claiming := past.claiming.erase w.past.current }
  startPings P

/-- `authorize`. -/
def authorize (ws : SocketId) (frame : Bytes) : Async Unit := do
  let info ← attachmentOf ws
  let now ← dateNow P
  if reached now info.deadline then raise .authTimeout else do
  serializeAttachment ws { info with phase := .verifying }
  -- history
  mark ws fun w s => { s with authorizer := some w.past.current }
  match info.challenge with
  | none => raise .typeError
  | some challenge => do
    let id ← await .authenticate (authenticate P frame (unhex challenge))
    -- history
    mark ws fun w s => { s with verifiedAt := some w.reads }
    let allowed ← request (.identities ws id) (registerIdentity id)
    claim P ws id allowed

/-! ## `webSocketMessage` and `route` -/

/-- The peer that `route` finds for a destination. -/
def World.target (w : World) (ws : SocketId) (destination : Text) : Option SocketId :=
  w.listing.find? fun peer =>
    peer ≠ ws && (w.info peer).any fun other => other.isRouted && other.id = some destination

/-- `info.counts[key]++` on the current attachment of `ws`, stored back. -/
def countOn (ws : SocketId) (info : Attachment) (key : Counter) : Async Unit := do
  let info ← increment info key 1
  serializeAttachment ws info
  -- history: the datagram of this handler is settled
  mark ws fun w s => { s with unsettled := s.unsettled.erase w.past.current }

/-- The `try` block of `route`. -/
def deliver (ws target : SocketId) (info : Attachment) (frame : Bytes) : Async Unit :=
  match info.id with
  | none => raise .typeError
  | some source =>
    match forwardedFrame frame source with
    | none => raise .rangeError
    | some bytes => do
      send P target bytes none none
      countOn ws info .forwarded

/-- `route`. -/
def route (ws : SocketId) (destination : Text) (frame : Bytes) : Async Unit := do
  let info ← attachmentOf ws
  let target ← gets fun w => w.target ws destination
  match target with
  | none => countOn ws info .dropped
  | some target =>
    (deliver P ws target info frame).rescue fun _ => do
      await .undeliverable (finish P target 1011 "datagram delivery failed".toList)
      let current ← attachmentOf ws
      if current.archived then pure () else countOn ws current .dropped

/-- What `webSocketMessage` does with a frame of an authenticated client. -/
def serve (ws : SocketId) (data : ClientFrame) : Async Unit := do
  let info ← attachmentOf ws
  match data with
  | .ping frame => do
    let info ← increment info .ping 1
    serializeAttachment ws info
    send P ws (10 :: frame.drop 1) (some .serverPong) none
  | .pong frame => do
    let info ← increment info .pong 1
    serializeAttachment ws info
    if some (hex (frame.drop 1)) ≠ info.pendingPing then raise .unexpectedPong else do
    serializeAttachment ws { info with pendingPing := none, deadline := none }
    await .schedule (schedule P)
  | .datagram destination frame => do
    let info ← increment info .datagram 1
    serializeAttachment ws info
    -- history
    mark ws fun w s => { s with unsettled := w.past.current :: s.unsettled }
    await .route (route P ws destination frame)

/-- The budget of a connection is exceeded. -/
def overBudget (info : Attachment) : Bool :=
  info.bucketMessages > 512 || info.counts .messages > 10000 ||
    info.counts .inboundBytes > 2 * 1024 * 1024

/-- The part of `webSocketMessage` that counts a message; the clock reading that
tested the bucket is returned for the history. -/
def countMessage (ws : SocketId) (info : Attachment) (bytes : Bytes) : Async (Attachment × ℕ) := do
  let tested ← dateNow P
  let info ← (if info.bucket + 10000 ≤ tested then do
      let now ← dateNow P
      pure { info with bucket := now, bucketMessages := 0 }
    else pure info)
  let info ← increment { info with bucketMessages := info.bucketMessages + 1 } .messages 1
  let info ← increment info .inboundBytes bytes.length
  serializeAttachment ws info
  pure (info, tested)

/-- The `try` block of `webSocketMessage`. -/
def handleMessage (ws : SocketId) (message : Message) : Async Unit := do
  let info ← attachment ws
  match info with
  | none => raise .expired
  | some info =>
    if info.archived then raise .expired else do
    let now ← dateNow P
    if info.expires ≤ now then raise .expired else do
    match message with
    | .text _ => raise .binaryRequired
    | .binary bytes => do
      let (info, tested) ← countMessage P ws info bytes
      if overBudget info then raise .budget else do
      -- history
      note fun w past =>
        { past with taken := past.taken ++ [⟨w.past.current, ws, bytes.length, tested⟩] }
      if info.phase = .challenge then await .authorize (authorize P ws bytes)
      else if info.phase ≠ .authenticated then raise .inProgress
      else match clientFrame message with
        | none => raise .badFrame
        | some data => serve P ws data

/-- `webSocketMessage`. -/
def webSocketMessage (ws : SocketId) (message : Message) : Async Unit :=
  (handleMessage P ws message).rescue fun _ =>
    await .rejected (finish P ws 1008 "invalid, expired or over-budget relay session".toList)

/-- `webSocketClose`. -/
def webSocketClose (ws : SocketId) (code : ℕ) (reason : Text) : Async Unit :=
  await .finish (finish P ws code reason)

/-- `webSocketError`. -/
def webSocketError (ws : SocketId) : Async Unit :=
  await .finish (finish P ws 1011 "socket error".toList)

/-! ## `alarm` -/

/-- `info.deadline && now >= info.deadline`. -/
def overdue (now : ℕ) : Option ℕ → Bool
  | some deadline => deadline ≤ now
  | none => false

/-- The part of `alarm` that sends a ping. -/
def pingSocket (now : ℕ) (pingDue : Bool) (rest : List SocketId) (ws : SocketId)
    (info : Attachment) : Async Unit := do
  let ping ← getRandomValues P 8
  serializeAttachment ws
    { info with pendingPing := some (hex ping), deadline := some (now + 5000) }
  (send P ws (9 :: ping) (some .serverPing) none).rescue fun _ =>
    await (.pingFailed now pingDue rest) (finish P ws 1011 "ping delivery failed".toList)

/-- The loop of `alarm` over the sockets. -/
def alarmWalk (now : ℕ) (pingDue : Bool) : List SocketId → Async Unit
  | [] => pure ()
  | ws :: rest => do
    let info ← attachment ws
    match info with
    | none => alarmWalk now pingDue rest
    | some info =>
      if info.archived then alarmWalk now pingDue rest
      else if info.expires ≤ now ∨ overdue now info.deadline then do
        await (.timedOut now pingDue rest)
          (finish P ws 1000 "room or handshake/pong timeout".toList)
        alarmWalk now pingDue rest
      else do
        when (pingDue && info.phase = .authenticated && info.pendingPing.isNone)
          (pingSocket P now pingDue rest ws info)
        alarmWalk now pingDue rest

/-- `meta.next_ping && now >= meta.next_ping`. -/
def RoomMeta.pingDue (m : RoomMeta) (now : ℕ) : Bool := overdue now m.nextPing

/-- What `alarm` makes of the copy of `meta` that it read. -/
def RoomMeta.afterAlarm (m : RoomMeta) (now : ℕ) : RoomMeta :=
  { m with
    alarmEvents := m.alarmEvents + 1
    nextPing := if m.pingDue now then some (now + m.ping * 1000) else m.nextPing }

/-- `alarm`. -/
def alarm : Async Unit := do
  let m ← Coroutine.await (fun r => .answered (.alarmMeta (match r with
      | .ok m => m
      | .error _ => none)))
    (yield (.issued (.alarmMeta none)) >>= fun _ => readStorage (·.roomMeta))
  match m with
  | none => pure ()
  | some m => do
    let now ← dateNow P
    if m.expires + historyTtl ≤ now then
      request .wipe (do
        writeStorage fun s =>
          { s with
            boots := none, roomMeta := none, attempts := none, identities := none, closed := none }
        -- history
        note fun _ past => { past with wiped := true })
    else do
      let sockets ← getWebSockets
      alarmWalk P now (m.pingDue now) sockets
      putMeta m (m.afterAlarm now)
      await .schedule (schedule P)

/-! ## The room as a machine -/

/-- What the object does with an event. -/
def handler : Event → Async (Option Response)
  | .fetch r => fetch P r >>= fun response => pure (some response)
  | .message ws m => webSocketMessage P ws m >>= fun _ => pure none
  | .close ws code reason => webSocketClose P ws code reason >>= fun _ => pure none
  | .error ws => webSocketError P ws >>= fun _ => pure none
  | .alarm => alarm P >>= fun _ => pure none

/-- An event can be delivered: requests carry the token the object was created
for, messages come from clients that were given their end of the socket, and an
alarm is delivered when one is set. -/
def World.delivers (w : World) : Event → Bool
  | .fetch r => r.room = some P.token
  | .message ws _ => ws < w.count && (w.socket ws).connected
  | .close ws _ _ => ws < w.count
  | .error ws => ws < w.count
  | .alarm => w.storage.alarm.isSome

/-- What the platform does between handlers: connections begin or finish to
close; `getWebSockets` stops listing a connection that is over, which it is once
its last event was delivered and thus archived it, and may list the sockets in
another order; the object is constructed again. -/
inductive Effect : Type where
  | closing (ws : SocketId)
  | closed (ws : SocketId)
  | unlist (ws : SocketId)
  | relist (listing : List SocketId)
  | construct

/-- Handler `h` is started by event `e`; the alarm goes off. -/
def World.begin (w : World) (h : ℕ) (e : Event) : World :=
  { w with
    storage := { w.storage with
      alarm := match e with
        | .alarm => none
        | _ => w.storage.alarm }
    past := { w.past with current := h, arrivals := w.past.arrivals ++ [e] } }

/-- The effect of the platform on the world, when it is possible. -/
def World.effect (w : World) : Effect → Option World
  | .closing ws =>
      if ws < w.count then some (w.setSocket ws fun s =>
        { s with readyState := if s.readyState = .closed then .closed else .closing })
      else none
  | .closed ws =>
      if ws < w.count then some (w.setSocket ws fun s => { s with readyState := .closed })
      else none
  | .unlist ws =>
      if (w.info ws).any (·.archived) then some { w with listing := w.listing.erase ws } else none
  | .relist listing => if listing.isPerm w.listing then some { w with listing := listing } else none
  | .construct => some (w.setStorage fun s => { s with boots := some (s.boots.getD 0 + 1) })

/-- The room as an event loop. -/
def room : Machine Event Effect Point World Fault (Option Response) where
  program := handler P
  begin h e w := if h = w.past.arrivals.length ∧ w.delivers P e then some (w.begin h e) else none
  enter h w := w.note fun past => { past with current := h }
  env d w := w.effect d

end IrohExperiment.Relay
