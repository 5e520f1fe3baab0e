/-
# What the stretches of handlers are made of (`worker/src/iroh-relay.js`)

`Act P κ w w'` is one small update of the world by the running handler, together
with what the handler has made sure of before it.  Every stretch of every handler
is a sequence of acts, so a fact about all runs is a fact about single acts.

Acts come in groups.  A *touch* rewrites the attachments of live sockets but not
their faces, that is their phases, ids and `archived` flags; a *departure* step
continues the retirement of a socket; the others are acts of their own.

`κ` is a condition on the states in which stretches begin.  An act that depends on
where its stretch began carries that state along.
-/
import IrohExperiment.Relay.Updates

namespace IrohExperiment.Relay

open Coop

variable (P : Platform) (κ : Trigger Event Point → World → Prop)

/-! ## Authentication -/

/-- In a view, `ws` waits with its challenge. -/
def Waits (view : View) (ws : SocketId) : Prop :=
  ∃ info, view ws = some info ∧ info.phase = .challenge ∧ info.archived = false

/-- The frame proves the possession of the key `id`: its signature over the
challenge verifies. -/
def ValidAuth (challenge frame : Bytes) (id : Text) : Prop :=
  ∃ auth, clientAuth frame = some auth ∧ P.importable auth.publicKey = true ∧
    P.verifies auth.publicKey auth.signature (P.challengeMessage challenge) = true ∧
    id = hex auth.publicKey

/-- The message is an authentication that `ws` may present: the socket waits for
it, is within its budget, and the signature is valid. -/
def Welcome (w : World) (ws : SocketId) (m : Message) : Prop :=
  ∃ info bytes id, w.info ws = some info ∧ m = .binary bytes ∧ info.archived = false ∧
    info.phase = .challenge ∧ info.bucketMessages < 512 ∧ info.counts .messages < 10000 ∧
    info.counts .inboundBytes + bytes.length ≤ 2 * 1024 * 1024 ∧
    ValidAuth P (w.socket ws).issued bytes id

/-- The message is a frame that is served: the socket is authenticated and within its
budget, the frame is well formed, and a pong is the one that the socket owes. -/
def Servable (w : World) (ws : SocketId) (m : Message) : Prop :=
  ∃ info bytes data, w.info ws = some info ∧ m = .binary bytes ∧ info.archived = false ∧
    info.phase = .authenticated ∧
    (info.bucketMessages < 512 ∨ info.bucket + 10000 ≤ P.clock (w.reads + 1)) ∧
    info.counts .messages < 10000 ∧
    info.counts .inboundBytes + bytes.length ≤ 2 * 1024 * 1024 ∧
    clientFrame m = some data ∧
    ∀ frame, data = .pong frame → info.pendingPing = some (hex (frame.drop 1))

/-- The socket gives no cause to retire it with the message: it is archived already, or
the message is welcome or servable. -/
def Proper (w : World) (ws : SocketId) (m : Message) : Prop :=
  Archived w.info ws ∨ Welcome P w ws m ∨ Servable P w ws m

/-- The reading of the clock at which `authorize` takes up an answer that arrives from
`ws` in `w`: the third of its handler, or the fourth if a new bucket begins. -/
def World.takenUp (w : World) (ws : SocketId) : ℕ :=
  w.reads + if (w.info ws).any fun info => info.bucket + 10000 ≤ P.clock (w.reads + 1) then 3 else 2

/-- What went wrong with a message `m` from `ws` that was proper when it arrived. -/
inductive Blame (w : World) (ws : SocketId) (m : Message) : Prop
  /-- The expiry of the room was reached. -/
  | expired {t : ℕ} (ht : t < w.reads) (hlate : tokenExpires P.token ≤ P.clock t)
  /-- The deadline was reached when the answer was taken up. -/
  | late {w₀ : World} (hκ : κ (.start (.message ws m)) w₀) (hwaits : Waits w₀.info ws)
      (hlate : (w₀.socket ws).due ≤ P.clock (w₀.takenUp P ws))
  /-- The deadline was reached when the id was to be claimed. -/
  | overtaken {w₀ : World} {id : Text} (hκ : κ (.resume (.answered (.identities ws id))) w₀)
      (hlive : Live w₀.info ws) (hlate : (w₀.socket ws).due ≤ P.clock w₀.reads)
  /-- Two other identities were registered. -/
  | full {w₀ : World} {id : Text} {frame : Bytes}
      (hκ : κ (.resume (.issued (.identities ws id))) w₀) (hm : m = .binary frame)
      (hvalid : ValidAuth P (w.socket ws).issued frame id) (hid : id ∉ w₀.ids)
      (hfull : 2 ≤ w₀.ids.length)
  /-- A call of `send` threw. -/
  | unsent {n : ℕ} (hn : n < w.calls) (hthrows : P.throws n = true)
  /-- There was no `meta`. -/
  | noMeta {w₀ : World} (hκ : κ (.resume (.issued .authMeta)) w₀) (hknown : ws < w₀.count)
      (hreads : w₀.reads ≤ w.reads) (hmeta : w₀.storage.roomMeta = none)

/-! ## Touches -/

/-- The sockets that a stretch which begins at `site` gets to with a ping. -/
def pinged (w₀ : World) : Site → List SocketId
  | .alarmMeta (some m) => if m.pingDue (P.clock w₀.reads) then w₀.listing else []
  | .timedOut _ pingDue rest => if pingDue then rest else []
  | .pingFailed _ pingDue rest => if pingDue then rest else []
  | _ => []

/-- The reading of the clock that a stretch of `alarm` which begins at `site` judges by,
and the sockets that it comes to. -/
def judged (w₀ : World) : Site → Option (ℕ × List SocketId)
  | .alarmMeta (some _) => some (P.clock w₀.reads, w₀.listing)
  | .timedOut now _ rest => some (now, rest)
  | .pingFailed now _ rest => some (now, rest)
  | _ => none

/-- The frames that may be sent to a socket, with their category and, for a frame
that announces a departure, the socket that departed. -/
inductive Sends (w : World) (ws : SocketId) :
    Bytes → Option Counter → Option SocketId → Prop
  | challenge (hopener : (w.socket ws).opener = w.past.current)
      (hphase : ∃ info, w.info ws = some info ∧ info.phase = .challenge)
      (hfirst : ∀ e ∈ w.past.wire, e.target ≠ ws) :
      Sends w ws (challengeFrame (w.socket ws).issued) none none
  | confirmation {id : Text} (hauthorizer : (w.socket ws).authorizer = some w.past.current)
      (hrouted : Routed w.info ws id) (hfirst : ¬ w.Confirmed ws) : Sends w ws [2] none none
  | pong {m : Message} {frame : Bytes} {id : Text} {w₀ : World}
      (hevent : w.event = some (.message ws m)) (hframe : clientFrame m = some (.ping frame))
      (hrouted : Routed w.info ws id) (htaking : w.Taking ws) (hκ : κ (.start (.message ws m)) w₀)
      (hcalm : w₀.Calm w) : Sends w ws (10 :: frame.drop 1) (some .serverPong) none
  | ping {id : Text} {ping : Bytes} {w₀ : World} {site : Site} (hevent : w.event = some .alarm)
      (hrouted : Routed w.info ws id) (hκ : κ (.resume (.answered site)) w₀)
      (hpoint : ws ∈ pinged P w₀ site) (hcalm : w₀.Calm w) :
      Sends w ws (9 :: ping) (some .serverPing) none
  | gone {about : SocketId} {id id' : Text} {seen : View} {missed : List SocketId} {w₀ : World}
      (hdeparture : (w.socket about).departure = .announcing w.past.current seen missed)
      (habout : Authenticated w.info about id) (hrouted : Routed w.info ws id')
      (hne : id' ≠ id) (hfirst : ∀ e ∈ w.past.wire, e.target = ws → e.about ≠ some about)
      (hspeaker : ∀ S, w.event.bind Event.socket = some S → ∃ id, Authenticated w.info S id)
      (hκ : κ (.resume (.answered (.fold about (some id)))) w₀) (hcalm : w₀.Calm w) :
      Sends w ws (8 :: unhex id) (some .endpointGone) (some about)

/-- A binary message from a live socket is counted: its attachment `info` becomes
`info'`, up to the counters. -/
structure Reception (w : World) (ws : SocketId) (bytes : Bytes) (tested : ℕ)
    (info info' : Attachment) : Prop where
  event : w.event = some (.message ws (.binary bytes))
  stored : w.info ws = some info
  live : info.archived = false
  unexpired : ∃ t < w.reads, P.clock t < info.expires
  tested_le : tested ≤ P.clock w.reads
  le_tested : info.bucket ≤ tested
  taken_le : ∀ e ∈ w.past.taken, e.time ≤ tested
  /-- The bucket goes on, or a new one begins. -/
  bucket : (tested < info.bucket + 10000 ∧
      info' = { info with bucketMessages := info.bucketMessages + 1 }) ∨
    (info.bucket + 10000 ≤ tested ∧ ∃ now, tested ≤ now ∧ now ≤ P.clock w.reads ∧
      info' = { info with bucket := now, bucketMessages := 1 })

/-- The running handler serves a frame that `ws` sent after it was authenticated. -/
structure Serves (w : World) (ws : SocketId) (info : Attachment) (data : ClientFrame) : Prop where
  event : ∃ m, w.event = some (.message ws m) ∧ clientFrame m = some data
  taking : w.Taking ws
  stored : w.info ws = some info
  live : info.archived = false
  phase : info.phase = .authenticated

/-- The datagram that the running handler was started by goes from `ws` to `target`
as `bytes`. -/
structure Forwards (w : World) (ws : SocketId) (info : Attachment) (target : SocketId)
    (other : Attachment) (bytes : Bytes) : Prop where
  datagram : ∃ destination frame source, Serves w ws info (.datagram destination frame) ∧
    info.id = some source ∧ Routed w.info target destination ∧
    forwardedFrame frame source = some bytes
  unsettled : w.past.current ∈ (w.socket ws).unsettled
  fresh : ∀ e ∈ w.past.wire, e.handler ≠ w.past.current
  ne : target ≠ ws
  stored : w.info target = some other
  since : ∃ m w₀, κ (.start (.message ws m)) w₀ ∧ w.event = some (.message ws m) ∧ w₀.Calm w

/-- Updates that rewrite attachments of live sockets but not their faces. -/
inductive Touch (w : World) : World → Prop
  | take {ws bytes tested info info'} (hr : Reception P w ws bytes tested info info')
      (hbudget : overBudget (info'.plus (World.messageCounts bytes)) = false) :
      Touch w ((w.amend ws info' (World.messageCounts bytes)).take ws bytes.length tested)
  | refuse {ws bytes tested info info'} (hr : Reception P w ws bytes tested info info')
      (hbudget : overBudget (info'.plus (World.messageCounts bytes)) = true) :
      Touch w (w.amend ws info' (World.messageCounts bytes))
  | send {ws info bytes category about} (hs : Sends P κ w ws bytes category about)
      (hinfo : w.info ws = some info) (hlive : info.archived = false) :
      Touch w (w.sent ws info bytes category about)
  | count {ws info frame key} (hs : Serves w ws info (.ping frame) ∧ key = .ping ∨
      Serves w ws info (.pong frame) ∧ key = .pong) :
      Touch w (w.amend ws info (Pi.single key 1))
  | datagram {ws info destination frame} (hs : Serves w ws info (.datagram destination frame))
      (hfresh : w.past.current ∉ (w.socket ws).unsettled) :
      Touch w ((w.amend ws info (Pi.single .datagram 1)).unsettle ws)
  | forward {ws info target other bytes} (hf : Forwards κ w ws info target other bytes) :
      Touch w (((w.sent target other bytes none none).amend ws info
        (Pi.single .forwarded 1)).settle ws)
  | drop {ws info destination frame} (hs : Serves w ws info (.datagram destination frame))
      (hunsettled : w.past.current ∈ (w.socket ws).unsettled) :
      Touch w ((w.amend ws info (Pi.single .dropped 1)).settle ws)
  | clear {ws info frame} (hs : Serves w ws info (.pong frame))
      (hpending : info.pendingPing = some (hex (frame.drop 1))) :
      Touch w (w.setInfo ws { info with pendingPing := none, deadline := none })
  | arm {ws info ping deadline} (hevent : w.event = some .alarm) (hinfo : w.info ws = some info)
      (hlive : info.archived = false) (hphase : info.phase = .authenticated) :
      Touch w (w.setInfo ws { info with pendingPing := some ping, deadline := some deadline })

/-! ## Departures -/

/-- Why a live socket is retired. -/
inductive Cause (w : World) (ws : SocketId) (info : Attachment) : Prop
  | rejected {m : Message} {w₀ : World} (hevent : w.event = some (.message ws m))
      (hκ : κ (.start (.message ws m)) w₀) (hblame : Proper P w₀ ws m → Blame P κ w ws m)
  | closed {code : ℕ} {reason : Text} (hevent : w.event = some (.close ws code reason))
  | failed (hevent : w.event = some (.error ws))
  | timedOut {w₀ : World} {site : Site} {now : ℕ} {rest : List SocketId}
      (hevent : w.event = some .alarm) (hread : ∃ t < w.reads, now = P.clock t)
      (hκ : κ (.resume (.answered site)) w₀) (hjudged : judged P w₀ site = some (now, rest))
      (hrest : ws ∈ rest) (hstored : w₀.info ws = some info)
      (hlate : info.expires ≤ now ∨ overdue now info.deadline = true)
  | unpinged {n : ℕ} (hevent : w.event = some .alarm) (hn : n < w.calls)
      (hthrows : P.throws n = true)
  | undeliverable {src : SocketId} {m : Message} {n : ℕ} (hevent : w.event = some (.message src m))
      (hsrc : ∃ id, Authenticated w.info src id) (hne : src ≠ ws) (hn : n < w.calls)
      (hthrows : P.throws n = true)
  /-- Another socket claimed the id; its handler, suspended since, goes on. -/
  | superseded {by_ : SocketId} {id : Text} {rest : List SocketId} {w₀ : World} {m : Message}
      (hevent : w.event = some (.message by_ m))
      (hauthorizer : (w.socket by_).authorizer = some w.past.current) (hne : by_ ≠ ws)
      (hby : Authenticated w.info by_ id) (hid : info.id = some id)
      (hκ : κ (.resume (.answered (.retireOld by_ id rest))) w₀) (hlater : w₀.Later w)
      (hrest : ws ∈ rest)

/-- Updates that continue the retirement of a socket. -/
inductive Depart (w : World) : World → Prop
  | close {ws seen code reason}
      (hdeparture : (w.socket ws).departure = .retired w.past.current seen) :
      Depart w (w.close ws code reason)
  | fold {ws seen info entry}
      (hdeparture : (w.socket ws).departure = .retired w.past.current seen)
      (hinfo : w.info ws = some info) : Depart w (w.folded ws info entry)
  | announcing {ws seen} (hdeparture : (w.socket ws).departure = .folded w.past.current seen) :
      Depart w (w.depart ws .announce)
  | missed {ws peer seen missed n}
      (hdeparture : (w.socket ws).departure = .announcing w.past.current seen missed)
      (hn : n < w.calls) (hthrows : P.throws n = true) : Depart w (w.depart ws (.miss peer))
  | announced {ws seen missed}
      (hdeparture : (w.socket ws).departure = .announcing w.past.current seen missed)
      (htold : ∀ id, Authenticated w.info ws id → ∀ peer id', peer ≠ ws →
        Routed w.info peer id' → id' ≠ id →
        peer ∈ missed ∨ ∃ e ∈ w.past.wire, e.target = peer ∧ e.about = some ws) :
      Depart w (w.depart ws (.conclude w.info))

/-! ## Acts -/

/-- `ws` is about to claim `id`. -/
structure Claims (w : World) (ws : SocketId) (info : Attachment) (id : Text) : Prop where
  authorizer : (w.socket ws).authorizer = some w.past.current
  event : ∃ frame, w.event = some (.message ws (.binary frame)) ∧
    ValidAuth P (w.socket ws).issued frame id
  intime : ∃ v t, (w.socket ws).verifiedAt = some v ∧ v ≤ t ∧ P.clock t < (w.socket ws).due
  unexpired : ∃ t < w.reads, P.clock t < tokenExpires P.token
  present : w.past.wiped = false
  registered : id ∈ w.ids
  stored : w.info ws = some info
  live : info.archived = false
  phase : info.phase = .verifying
  since : ∃ w₀, κ (.resume (.answered (.identities ws id))) w₀ ∧ w₀.Later w

/-- What `meta` is made to, from the copy `read`. -/
inductive Renews (w : World) (read : RoomMeta) : RoomMeta → Prop
  | alarm {t : ℕ} (hevent : w.event = some .alarm) (hfirst : w.past.current ∉ w.past.metaWriters) :
      Renews w read (read.afterAlarm (P.clock t))
  | authorize {t : ℕ} {ws : SocketId} {m : Message} (hevent : w.event = some (.message ws m))
      (hunset : read.nextPing = none) :
      Renews w read { read with nextPing := some (P.clock t + read.ping * 1000) }

/-- An upgrade request that the room answers to was read at clock reading `t`. -/
structure Requests (w : World) (r : Request) (room : Room) : Prop where
  event : w.event = some (.fetch r)
  stats : r.stats = false
  granted : ∃ t < w.reads, relayRoom P.number r (P.clock t) r.stats = some room
  expires : room.expires = tokenExpires P.token

/-- The small updates by the running handler. -/
inductive Act (w : World) : World → Prop
  | cursor {reads calls draws} (hreads : w.reads ≤ reads) (hcalls : w.calls ≤ calls)
      (hdraws : w.draws ≤ draws) :
      Act w { w with reads := reads, calls := calls, draws := draws }
  | admitUpgrade {r room created w₀} (hr : Requests P w r room)
      (hattempts : w.storage.attempts.getD 0 < 20) (hlive : w.liveCount < 4)
      (hmeta : w.storage.roomMeta = none ∧ created.isSome = true ∨
        (∃ m, w.storage.roomMeta = some m ∧ m.ping = room.ping) ∧ created = none)
      (hκ : κ (.resume (.issued (.admission room))) w₀) (hlater : w₀.Later w) :
      Act w (w.admitted room created)
  | accept {r room challenge due bucket} (hr : Requests P w r room)
      (hentering : w.past.current ∈ w.past.entering) (hlength : challenge.length = 16)
      (hbucket : bucket ≤ P.clock w.reads) :
      Act w (w.accepted (.opening challenge due room.expires bucket) challenge due)
  | connect {ws} (hcount : ws < w.count) (hopener : (w.socket ws).opener = w.past.current)
      (hwire : ∃ e ∈ w.past.wire, e.target = ws ∧ e.bytes = challengeFrame (w.socket ws).issued) :
      Act w (w.connect ws)
  | touch {w'} (h : Touch P κ w w') : Act w w'
  | verify {ws frame info t} (hevent : w.event = some (.message ws (.binary frame)))
      (htaking : w.Taking ws) (hinfo : w.info ws = some info) (hlive : info.archived = false)
      (hphase : info.phase = .challenge) (ht : t < w.reads)
      (hintime : P.clock t < (w.socket ws).due) : Act w (w.verify ws info)
  | verified {ws frame id} (hauthorizer : (w.socket ws).authorizer = some w.past.current)
      (hphase : ∃ info, w.info ws = some info ∧ info.phase = .verifying)
      (hevent : w.event = some (.message ws (.binary frame)))
      (hvalid : ValidAuth P (w.socket ws).issued frame id) : Act w (w.verified ws)
  | identify {ws frame id} (hauthorizer : (w.socket ws).authorizer = some w.past.current)
      (hevent : w.event = some (.message ws (.binary frame)))
      (hvalid : ValidAuth P (w.socket ws).issued frame id) (hnew : id ∉ w.ids)
      (hroom : w.ids.length < 2) : Act w (w.identify id)
  | claim {ws info id} (hc : Claims P κ w ws info id)
      (hsole : ∀ old, old ≠ ws → ¬ Routed w.info old id) : Act w (w.claimed ws info id)
  | reclaim {ws info id old other} (hc : Claims P κ w ws info id) (hne : old ≠ ws)
      (hother : w.info old = some other) (hrouted : Routed w.info old id) :
      Act w ((w.claimed ws info id).retired old other)
  | endClaim {ws} (hauthorizer : (w.socket ws).authorizer = some w.past.current)
      (hconfirmed : w.Confirmed ws) : Act w w.endClaim
  | retire {ws info} (hinfo : w.info ws = some info) (hlive : info.archived = false)
      (hcause : Cause P κ w ws info) : Act w (w.retired ws info)
  | depart {w'} (h : Depart P w w') : Act w w'
  | setAlarm {time} (hmeta : w.storage.roomMeta.isSome = true ∨ w.past.wiped = true) :
      Act w (w.setAlarm time)
  | putMeta {read new} (hκ : κ (.resume (.issued (.putMeta read))) w)
      (hping : read.ping ∈ w.past.pings)
      (hexpires : read.expires = tokenExpires P.token) (hr : Renews P w read new) :
      Act w (w.putMeta new)
  | wipe {t} (hevent : w.event = some .alarm) (ht : t < w.reads)
      (hover : tokenExpires P.token + historyTtl ≤ P.clock t) : Act w w.wipe

/-- The stretches of handlers. -/
abbrev Stretch : World → World → Prop := Relation.ReflTransGen (Act P κ)

end IrohExperiment.Relay
