/-
# Notions about the world, and the updates that handlers make (`worker/src/iroh-relay.js`)

What can be said of a moment in the life of a room, and the small updates of the
world that the stretches of handlers are made of, each as a function.

`Live`, `Archived`, `Routed`, `Authenticated` and `World.Confirmed` are the notions that the
claims about the room are stated with.  Each update is one assignment of the source, and
comes with the simp lemmas that say what it leaves alone.
-/
import IrohExperiment.Relay.Handlers

namespace IrohExperiment.Relay

open Coop

/-! ## Notions -/

/-- In a view, `ws` is a live socket authenticated as `id`. -/
def Routed (view : View) (ws : SocketId) (id : Text) : Prop :=
  ∃ info, view ws = some info ∧ info.phase = .authenticated ∧ info.archived = false ∧
    info.id = some id

/-- In a view, `ws` is an accepted socket that is not archived. -/
def Live (view : View) (ws : SocketId) : Prop := ∃ info, view ws = some info ∧ info.archived = false

/-- In a view, `ws` is archived. -/
def Archived (view : View) (ws : SocketId) : Prop :=
  ∃ info, view ws = some info ∧ info.archived = true

/-- In a view, `ws` has been authenticated, and may be archived since. -/
def Authenticated (view : View) (ws : SocketId) (id : Text) : Prop :=
  ∃ info, view ws = some info ∧ info.phase = .authenticated ∧ info.id = some id

theorem Routed.live {view : View} {ws : SocketId} {id : Text} (h : Routed view ws id) :
    Live view ws := by
  obtain ⟨info, hinfo, -, harch, -⟩ := h
  exact ⟨info, hinfo, harch⟩

theorem Routed.authenticated {view : View} {ws : SocketId} {id : Text} (h : Routed view ws id) :
    Authenticated view ws id := by
  obtain ⟨info, hinfo, hphase, -, hid⟩ := h
  exact ⟨info, hinfo, hphase, hid⟩

theorem Routed.live_of_info {view : View} {ws : SocketId} {id : Text} {info : Attachment}
    (h : Routed view ws id) (hinfo : view ws = some info) : info.archived = false := by
  obtain ⟨info', hinfo', -, harch, -⟩ := h
  obtain rfl := Option.some.inj (hinfo.symm.trans hinfo')
  exact harch

theorem Live.not_archived {view : View} {ws : SocketId} (h : Live view ws) :
    ¬ Archived view ws := by
  rintro ⟨info, hinfo, harch⟩
  obtain ⟨info', hinfo', hlive⟩ := h
  rw [hinfo] at hinfo'
  cases hinfo'
  simp [harch] at hlive

/-- The socket that an event comes from. -/
def Event.socket : Event → Option SocketId
  | .fetch _ => none
  | .message ws _ => some ws
  | .close ws _ _ => some ws
  | .error ws => some ws
  | .alarm => none

/-- The handler that retired the socket. -/
def Departure.owner : Departure → Option ℕ
  | .live => none
  | .retired h _ => some h
  | .folded h _ => some h
  | .announcing h _ _ => some h
  | .announced h _ _ _ => some h

/-- The handler that still has to go on with the retirement. -/
def Departure.debtor : Departure → Option ℕ
  | .live => none
  | .retired h _ => some h
  | .folded h _ => some h
  | .announcing h _ _ => some h
  | .announced _ _ _ _ => none

/-- The attachments right after the socket was retired. -/
def Departure.view : Departure → Option View
  | .live => none
  | .retired _ seen => some seen
  | .folded _ seen => some seen
  | .announcing _ seen _ => some seen
  | .announced _ seen _ _ => some seen

/-- The attachment that a socket starts with. -/
def Attachment.opening (challenge : Bytes) (due expires bucket : ℕ) : Attachment where
  phase := .challenge
  challenge := some (hex challenge)
  deadline := some due
  expires := expires
  id := none
  archived := false
  counts := counters
  bucket := bucket
  bucketMessages := 0
  pendingPing := none

/-- The attachment with its counters incremented. -/
def Attachment.plus (info : Attachment) (made : Counters) : Attachment :=
  { info with counts := info.counts + made }

/-- The others are being told, or have been told. -/
def Departure.told : Departure → Bool
  | .announcing _ _ _ => true
  | .announced _ _ _ _ => true
  | _ => false

namespace World

/-- The event that the running handler was started by. -/
def event (w : World) : Option Event := w.past.arrivals[w.past.current]?

/-- The identities that the room has registered. -/
def ids (w : World) : List Text := w.storage.identities.getD []

/-- `ws` was sent its confirmation. -/
def Confirmed (w : World) (ws : SocketId) : Prop :=
  ∃ e ∈ w.past.wire, e.target = ws ∧ e.bytes = [2]

/-- A message that the running handler was started by passed the budget of `ws`. -/
def Taking (w : World) (ws : SocketId) : Prop :=
  ∃ e ∈ w.past.taken, e.handler = w.past.current ∧ e.socket = ws

/-- `w` is `w₀` some readings of the clock later. -/
structure Later (w₀ w : World) : Prop where
  socket : w.socket = w₀.socket
  storage : w.storage = w₀.storage
  listing : w.listing = w₀.listing
  past : w.past = w₀.past
  reads : w₀.reads ≤ w.reads

/-- From `w₀` to `w` no socket has changed its face, and no confirmation was
taken back. -/
structure Calm (w₀ w : World) : Prop where
  routed : ∀ ws id, Routed w.info ws id → Routed w₀.info ws id
  confirmed : ∀ ws, w₀.Confirmed ws → w.Confirmed ws

/-! ## The updates -/

/-- An upgrade is admitted, and `meta` created if there is none. -/
@[simps!] def admitted (w : World) (room : Room) (created : Option ℕ) : World :=
  { w with
    storage := { w.storage with
      roomMeta := match created with
        | some createdAt => some ⟨room.expires, room.ping, createdAt, 0, none⟩
        | none => w.storage.roomMeta
      attempts := some (w.storage.attempts.getD 0 + 1) }
    past := { w.past with
      pings := match created with
        | some _ => w.past.pings ++ [room.ping]
        | none => w.past.pings
      entering := w.past.current :: w.past.entering } }

/-- A socket is accepted and given its attachment. -/
@[simps!] def accepted (w : World) (info : Attachment) (challenge : Bytes) (due : ℕ) : World :=
  (w.enroll.setInfo w.count info).setSocket w.count fun s =>
    { s with issued := challenge, due := due }

/-- The other end of a socket is handed to the client. -/
@[simps!] def connect (w : World) (ws : SocketId) : World :=
  w.setSocket ws fun s => { s with connected := true }

/-- An attachment is stored whose counters were incremented. -/
@[simps!] def amend (w : World) (ws : SocketId) (info : Attachment) (made : Counters) : World :=
  (w.charge made).setInfo ws (info.plus made)

/-- The counters that a frame sent under a category adds to. -/
def sentCounts (bytes : Bytes) : Option Counter → Counters
  | some key => Pi.single .outboundBytes bytes.length + Pi.single key 1
  | none => Pi.single .outboundBytes bytes.length

/-- A frame is sent to a socket and counted. -/
@[simps!] def sent (w : World) (ws : SocketId) (info : Attachment) (bytes : Bytes)
    (category : Option Counter) (about : Option SocketId) : World :=
  (w.transmit ws bytes about).amend ws info (sentCounts bytes category)

/-- The counters that a message adds to. -/
def messageCounts (bytes : Bytes) : Counters :=
  Pi.single .messages 1 + Pi.single .inboundBytes bytes.length

/-- A message is recorded as one that passed the budget. -/
@[simps!] def take (w : World) (ws : SocketId) (size tested : ℕ) : World :=
  w.note fun past => { past with taken := past.taken ++ [⟨past.current, ws, size, tested⟩] }

/-- The datagram of the running handler is counted but not settled. -/
@[simps!] def unsettle (w : World) (ws : SocketId) : World :=
  w.setSocket ws fun s => { s with unsettled := w.past.current :: s.unsettled }

/-- The datagram of the running handler is settled. -/
@[simps!] def settle (w : World) (ws : SocketId) : World :=
  w.setSocket ws fun s => { s with unsettled := s.unsettled.erase w.past.current }

/-- The running handler takes the answer of `ws` to its challenge up. -/
@[simps!] def verify (w : World) (ws : SocketId) (info : Attachment) : World :=
  (w.setInfo ws { info with phase := .verifying }).setSocket ws fun s =>
    { s with authorizer := some w.past.current }

/-- The answer of `ws` has been verified. -/
@[simps!] def verified (w : World) (ws : SocketId) : World :=
  w.setSocket ws fun s => { s with verifiedAt := some w.reads }

/-- An identity is registered. -/
@[simps!] def identify (w : World) (id : Text) : World :=
  w.setStorage fun s => { s with identities := some (s.identities.getD [] ++ [id]) }

/-- `ws` claims its id. -/
@[simps!] def claimed (w : World) (ws : SocketId) (info : Attachment) (id : Text) : World :=
  (w.amend ws
    { info with id := some id, phase := .authenticated, challenge := none, deadline := none }
    (Pi.single .auth 1)).note fun past => { past with claiming := past.current :: past.claiming }

/-- The running handler is past the confirmation of its claim. -/
@[simps!] def endClaim (w : World) : World :=
  w.note fun past => { past with claiming := past.claiming.erase past.current }

/-- A socket is archived. -/
@[simps!] def retired (w : World) (ws : SocketId) (info : Attachment) : World :=
  let w := w.setInfo ws { info with archived := true }
  w.setSocket ws fun s => { s with departure := .retired w.past.current w.info }

/-- The counters of a socket are added to those of the closed ones. -/
@[simps!] def folded (w : World) (ws : SocketId) (info : Attachment)
    (entry : RecentClose) : World :=
  (w.setStorage fun s => { s with closed := some (foldClosed s.closed info entry) }).setSocket ws
    fun s => { s with departure := s.departure.fold }

/-- The retirement of a socket goes on. -/
@[simps!] def depart (w : World) (ws : SocketId) (f : Departure → Departure) : World :=
  w.setSocket ws fun s => { s with departure := f s.departure }

/-- The alarm is set. -/
@[simps!] def setAlarm (w : World) (time : ℕ) : World :=
  w.setStorage fun s => { s with alarm := some time }

/-- `meta` is stored by the running handler. -/
@[simps!] def putMeta (w : World) (new : RoomMeta) : World :=
  (w.setStorage fun s => { s with roomMeta := some new }).note fun past =>
    { past with metaWriters := past.current :: past.metaWriters }

/-- The storage is deleted. -/
@[simps!] def wipe (w : World) : World :=
  (w.setStorage fun s =>
    { s with
      boots := none, roomMeta := none, attempts := none, identities := none, closed := none }).note
    fun past => { past with wiped := true }

end World

end IrohExperiment.Relay
