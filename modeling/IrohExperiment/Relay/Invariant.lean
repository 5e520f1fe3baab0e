/-
# The invariant of a room (`worker/src/iroh-relay.js`)

`Inv P w` holds of the world between any two acts.  It says what attachments look
like in each phase, that no two live sockets are authenticated as the same
endpoint, that `getWebSockets` lists all live sockets, and who can have written
which part of the history.

`World.Extends` says what time does to a world: histories grow, an archived socket
keeps its attachment and an authenticated one its id.

`Inv.act` is the step lemma, one case for each act, from lemmas about the fields.
-/
import IrohExperiment.Relay.Effects

namespace IrohExperiment.Relay

open Coop

variable {P : Platform} {κ : Trigger Event Point → World → Prop} {w w' w'' : World}

/-! ## The invariant -/

/-- What is true of an accepted socket and its attachment. -/
structure Shape (P : Platform) (w : World) (ws : SocketId) (info : Attachment) : Prop where
  expires : info.expires = tokenExpires P.token
  bucket : info.bucket ≤ P.clock w.reads
  issued : (w.socket ws).issued.length = 16
  opener : ∃ r, w.past.arrivals[(w.socket ws).opener]? = some (.fetch r)
  departed : info.archived = true ↔ (w.socket ws).departure ≠ .live
  owner : ∀ h, (w.socket ws).departure.owner = some h →
    ∃ e, w.past.arrivals[h]? = some e ∧ ∀ r, e ≠ .fetch r
  unsettled_lt : ∀ h ∈ (w.socket ws).unsettled, h < w.past.arrivals.length
  unsettled_nodup : (w.socket ws).unsettled.Nodup
  authorizer : ∀ h, (w.socket ws).authorizer = some h →
    ∃ frame, w.past.arrivals[h]? = some (.message ws (.binary frame))
  /-- The answer to the challenge is taken up once. -/
  waiting : info.phase = .challenge ↔ (w.socket ws).authorizer = none
  handshake : info.phase ≠ .authenticated → info.id = none ∧
    info.challenge = some (hex (w.socket ws).issued) ∧ info.deadline = some (w.socket ws).due
  identity : info.phase = .authenticated → ∃ key : Bytes, info.id = some (hex key) ∧ key.length = 32

/-- The invariant. -/
structure Inv (P : Platform) (w : World) : Prop where
  known : ∀ ws, ws < w.count ↔ (w.info ws).isSome = true
  blank : ∀ ws, w.count ≤ ws → w.socket ws = Socket.none
  shape : ∀ ws info, w.info ws = some info → Shape P w ws info
  nodup : w.listing.Nodup
  listed : ∀ ws ∈ w.listing, ws < w.count
  lists : ∀ ws, Live w.info ws → ws ∈ w.listing
  /-- An endpoint has one route. -/
  sole : ∀ a b id, Routed w.info a id → Routed w.info b id → a = b
  confirmed : ∀ ws, w.Confirmed ws → ∃ id, Authenticated w.info ws id
  roomMeta : ∀ m, w.storage.roomMeta = some m →
    m.expires = tokenExpires P.token ∧ m.ping ∈ w.past.pings
  wiped : w.past.wiped = true → tokenExpires P.token + historyTtl ≤ P.clock w.reads
  rooms : ∀ r, Event.fetch r ∈ w.past.arrivals → r.room = some P.token
  clients : ∀ ws m, Event.message ws m ∈ w.past.arrivals →
    ws < w.count ∧ (w.socket ws).connected = true
  /-- A client that has its end of the socket was sent the challenge. -/
  greeted : ∀ ws, (w.socket ws).connected = true → ∃ e ∈ w.past.wire, e.target = ws ∧
    e.bytes = challengeFrame (w.socket ws).issued
  sender_lt : ∀ e ∈ w.past.wire, e.handler < w.past.arrivals.length
  target_lt : ∀ e ∈ w.past.wire, e.target < w.count
  about : ∀ e ∈ w.past.wire, ∀ ws, e.about = some ws → (w.socket ws).departure.told = true
  taken : ∀ e ∈ w.past.taken, e.handler < w.past.arrivals.length ∧ e.time ≤ P.clock w.reads
  writer_lt : ∀ h ∈ w.past.metaWriters, h < w.past.arrivals.length
  alarm : w.storage.alarm.isSome = true →
    w.storage.roomMeta.isSome = true ∨ w.past.wiped = true

/-- Only accepted sockets carry an attachment. -/
theorem Inv.lt_count (hI : Inv P w) {ws : SocketId} {info : Attachment}
    (hinfo : w.info ws = some info) : ws < w.count :=
  (hI.known ws).mpr (by rw [hinfo]; rfl)

/-! ## What time does to a world -/

/-- What time does to an accepted socket. -/
structure Socket.Extends (s s' : Socket) : Prop where
  opener : s'.opener = s.opener
  issued : s'.issued = s.issued
  due : s'.due = s.due
  connected : s.connected = true → s'.connected = true
  authorizer : ∀ h, s.authorizer = some h → s'.authorizer = some h
  archived : ∀ info, s.attachment = some info → info.archived = true → s'.attachment = some info
  attachment : ∀ info, s.attachment = some info → ∃ info', s'.attachment = some info' ∧
    info'.expires = info.expires ∧
    (info.phase = .authenticated → info'.phase = .authenticated ∧ info'.id = info.id)

/-- What time does to a world. -/
structure World.Extends (w w' : World) : Prop where
  arrivals : w.past.arrivals <+: w'.past.arrivals
  reads : w.reads ≤ w'.reads
  calls : w.calls ≤ w'.calls
  count : w.count ≤ w'.count
  socket : ∀ ws < w.count, (w.socket ws).Extends (w'.socket ws)
  wire : w.past.wire <+: w'.past.wire
  taken : w.past.taken <+: w'.past.taken
  pings : w.past.pings <+: w'.past.pings
  wiped : w.past.wiped = true → w'.past.wiped = true
  ids : w'.past.wiped = true ∨ w.ids ⊆ w'.ids
  roomMeta : w.storage.roomMeta.isSome = true →
    w'.storage.roomMeta.isSome = true ∨ w'.past.wiped = true

theorem Socket.extends_refl (s : Socket) : s.Extends s :=
  ⟨rfl, rfl, rfl, id, fun _ => id, fun _ h _ => h, fun info h => ⟨info, h, rfl, fun h => ⟨h, rfl⟩⟩⟩

theorem Socket.Extends.trans {s s' s'' : Socket} (h : s.Extends s') (h' : s'.Extends s'') :
    s.Extends s'' where
  opener := h'.opener.trans h.opener
  issued := h'.issued.trans h.issued
  due := h'.due.trans h.due
  connected hc := h'.connected (h.connected hc)
  authorizer k hk := h'.authorizer k (h.authorizer k hk)
  archived info hinfo harch := h'.archived info (h.archived info hinfo harch) harch
  attachment info hinfo := by
    obtain ⟨info', hinfo', he, hp⟩ := h.attachment info hinfo
    obtain ⟨info'', hinfo'', he', hp'⟩ := h'.attachment info' hinfo'
    refine ⟨info'', hinfo'', he'.trans he, fun hphase => ?_⟩
    obtain ⟨hphase', hid⟩ := hp hphase
    obtain ⟨hphase'', hid'⟩ := hp' hphase'
    exact ⟨hphase'', hid'.trans hid⟩

theorem World.extends_refl (w : World) : w.Extends w :=
  ⟨List.prefix_refl _, le_rfl, le_rfl, le_rfl, fun _ _ => Socket.extends_refl _, List.prefix_refl _,
    List.prefix_refl _, List.prefix_refl _, id, .inr (List.Subset.refl _), .inl⟩

theorem World.Extends.trans (h : w.Extends w') (h' : w'.Extends w'') : w.Extends w'' where
  arrivals := h.arrivals.trans h'.arrivals
  reads := h.reads.trans h'.reads
  calls := h.calls.trans h'.calls
  count := h.count.trans h'.count
  socket ws hws := (h.socket ws hws).trans (h'.socket ws (hws.trans_le h.count))
  wire := h.wire.trans h'.wire
  taken := h.taken.trans h'.taken
  pings := h.pings.trans h'.pings
  wiped hw := h'.wiped (h.wiped hw)
  ids := by
    rcases h'.ids with hw | hsub'
    · exact .inl hw
    · rcases h.ids with hw | hsub
      · exact .inl (h'.wiped hw)
      · exact .inr (List.Subset.trans hsub hsub')
  roomMeta hm := by
    rcases h.roomMeta hm with hm' | hw
    · exact h'.roomMeta hm'
    · exact .inr (h'.wiped hw)

namespace World.Extends

variable (h : w.Extends w') {ws : SocketId} {id : Text}

include h

theorem event {k : ℕ} {e : Event} (he : w.past.arrivals[k]? = some e) :
    w'.past.arrivals[k]? = some e := by
  obtain ⟨rest, hrest⟩ := h.arrivals
  rw [← hrest, List.getElem?_append_left (List.getElem?_eq_some_iff.mp he).1, he]

theorem archived (hI : Inv P w) (harch : Archived w.info ws) : Archived w'.info ws := by
  obtain ⟨info, hinfo, harch⟩ := harch
  exact ⟨info, (h.socket ws (hI.lt_count hinfo)).archived info hinfo harch, harch⟩

theorem authenticated (hI : Inv P w) (ha : Authenticated w.info ws id) :
    Authenticated w'.info ws id := by
  obtain ⟨info, hinfo, hphase, hid⟩ := ha
  obtain ⟨info', hinfo', -, hp⟩ := (h.socket ws (hI.lt_count hinfo)).attachment info hinfo
  exact ⟨info', hinfo', (hp hphase).1, (hp hphase).2.trans hid⟩

theorem confirmed (hc : w.Confirmed ws) : w'.Confirmed ws := by
  obtain ⟨e, he, htarget, hbytes⟩ := hc
  exact ⟨e, h.wire.subset he, htarget, hbytes⟩

end World.Extends

/-! ## Acts keep the invariant -/

/-- Whatever happens to an accepted socket only extends it. -/
theorem Alters.extends (hI : Inv P w) {ws : SocketId} (hws : ws < w.count)
    (h : Alters P κ w w' ws) : (w.socket ws).Extends (w'.socket ws) := by
  cases h with
  | same hsocket => exact hsocket ▸ Socket.extends_refl _
  | @touched info info' _ hinfo hlive halike _ _ hsocket =>
    rw [hsocket]
    refine ⟨rfl, rfl, rfl, id, fun _ => id, fun i hi harch => ?_, fun i hi => ?_⟩
    · obtain rfl := Option.some.inj (hi.symm.trans hinfo)
      simp [hlive] at harch
    · obtain rfl := Option.some.inj (hi.symm.trans hinfo)
      exact ⟨info', rfl, halike.expires, fun hp => ⟨halike.phase.trans hp, halike.id⟩⟩
  | accepted hnew => exact absurd hnew hws.ne
  | connected _ _ hsocket =>
    rw [hsocket]
    exact ⟨rfl, rfl, rfl, fun _ => rfl, fun _ => id, fun _ h _ => h,
      fun i hi => ⟨i, hi, rfl, fun hp => ⟨hp, rfl⟩⟩⟩
  | @verify info _ hinfo hlive hphase _ hsocket =>
    rw [hsocket]
    refine ⟨rfl, rfl, rfl, id, fun k hk => ?_, fun i hi harch => ?_, fun i hi => ?_⟩
    · rw [(hI.shape ws info hinfo).waiting.mp hphase] at hk
      cases hk
    · obtain rfl := Option.some.inj (hi.symm.trans hinfo)
      simp [hlive] at harch
    · obtain rfl := Option.some.inj (hi.symm.trans hinfo)
      exact ⟨_, rfl, rfl, fun hp => by simp [hphase] at hp⟩
  | verified _ _ hsocket =>
    rw [hsocket]
    exact ⟨rfl, rfl, rfl, id, fun _ => id, fun _ h _ => h,
      fun i hi => ⟨i, hi, rfl, fun hp => ⟨hp, rfl⟩⟩⟩
  | claimed hc _ hsocket =>
    rw [hsocket]
    refine ⟨rfl, rfl, rfl, id, fun _ => id, fun i hi harch => ?_, fun i hi => ?_⟩
    · obtain rfl := Option.some.inj (hi.symm.trans hc.stored)
      simp [hc.live] at harch
    · obtain rfl := Option.some.inj (hi.symm.trans hc.stored)
      exact ⟨_, rfl, rfl, fun hp => by simp [hc.phase] at hp⟩
  | retired hinfo hlive _ hsocket =>
    rw [hsocket]
    refine ⟨rfl, rfl, rfl, id, fun _ => id, fun i hi harch => ?_, fun i hi => ?_⟩
    · obtain rfl := Option.some.inj (hi.symm.trans hinfo)
      simp [hlive] at harch
    · obtain rfl := Option.some.inj (hi.symm.trans hinfo)
      exact ⟨_, rfl, rfl, fun hp => ⟨hp, rfl⟩⟩
  | departed _ _ _ _ hsocket =>
    rw [hsocket]
    exact ⟨rfl, rfl, rfl, id, fun _ => id, fun _ h _ => h,
      fun i hi => ⟨i, hi, rfl, fun hp => ⟨hp, rfl⟩⟩⟩

/-- Every step only extends the world. -/
theorem Act.extends (hI : Inv P w) (h : Act P κ w w') : w.Extends w' where
  arrivals := by rw [h.arrivals_eq]
  reads := h.reads_le
  calls := h.calls_le
  count := h.count_le
  socket ws hws := (h.alters ws).extends hI hws
  wire := h.wire_prefix
  taken := h.taken_prefix
  pings := h.pings_prefix
  wiped := h.wiped_mono
  ids := by
    obtain hids | ⟨_, _, id, -, -, -, -, hids⟩ | hw := h.ids_cases
    · exact .inr (by rw [hids]; exact List.Subset.refl _)
    · exact .inr (by rw [hids]; exact List.subset_append_left _ _)
    · exact .inl hw
  roomMeta hm := by
    obtain ⟨h, -⟩ | ⟨_, _, _, -, -, h, -⟩ | ⟨_, _, -, -, -, -, h, -⟩ | ⟨-, h, -⟩ := h.meta_cases
    · exact .inl (by rwa [h])
    · exact .inl (by rw [h]; rfl)
    · exact .inl (by rw [h]; rfl)
    · exact .inr h

/-- The key of an authentication frame has thirty-two bytes. -/
theorem clientAuth_length {frame : Bytes} {auth : ClientAuth} (h : clientAuth frame = some auth) :
    auth.publicKey.length = 32 := by
  unfold clientAuth at h
  split_ifs at h with hbad
  obtain rfl := Option.some.inj h
  push Not at hbad
  simp [hbad.1]

/-- The id of a valid authentication is a key in hexadecimal. -/
theorem ValidAuth.identity {challenge frame : Bytes} {id : Text}
    (h : ValidAuth P challenge frame id) : ∃ key : Bytes, id = hex key ∧ key.length = 32 := by
  obtain ⟨auth, hauth, -, -, rfl⟩ := h
  exact ⟨auth.publicKey, rfl, clientAuth_length hauth⟩

theorem World.current_lt (h : w.event.isSome = true) : w.past.current < w.past.arrivals.length := by
  simpa [World.event] using h

theorem Departure.owner_of_debtor {d : Departure} {h : ℕ} (hd : d.debtor = some h) :
    d.owner = some h := by
  cases d <;> simp_all [Departure.debtor, Departure.owner]

theorem Departure.owner_live {d : Departure} : d.owner = none ↔ d = .live := by
  cases d <;> simp [Departure.owner]

/-- The shape of an attachment is about the part of its socket that only handlers write. -/
theorem Shape.unmoved {ws : SocketId} {info : Attachment} {connected : Bool} {verifiedAt : Option ℕ}
    (h : Shape P w ws info) (harr : w'.past.arrivals = w.past.arrivals)
    (hreads : w.reads ≤ w'.reads) (hsocket : w'.socket ws =
      { w.socket ws with connected := connected, verifiedAt := verifiedAt }) :
    Shape P w' ws info where
  expires := h.expires
  bucket := h.bucket.trans (P.clock_mono hreads)
  issued := by rw [hsocket]; exact h.issued
  opener := by rw [hsocket, harr]; exact h.opener
  departed := by rw [hsocket]; exact h.departed
  owner := by rw [hsocket, harr]; exact h.owner
  unsettled_lt := by rw [hsocket, harr]; exact h.unsettled_lt
  unsettled_nodup := by rw [hsocket]; exact h.unsettled_nodup
  authorizer := by rw [hsocket, harr]; exact h.authorizer
  waiting := by rw [hsocket]; exact h.waiting
  handshake := by rw [hsocket]; exact h.handshake
  identity := h.identity

/-- A touch leaves the shape, whatever it settles or leaves to be settled. -/
theorem Shape.touched {ws : SocketId} {info info' : Attachment} {unsettled : List ℕ}
    (h : Shape P w ws info) (harr : w'.past.arrivals = w.past.arrivals)
    (hreads : w.reads ≤ w'.reads) (halike : info.Alike info')
    (hbucket : info'.bucket ≤ max info.bucket (P.clock w.reads))
    (hunsettled : unsettled = (w.socket ws).unsettled ∨
      (unsettled = w.past.current :: (w.socket ws).unsettled ∧
        w.past.current ∉ (w.socket ws).unsettled ∧ w.event.isSome = true) ∨
      unsettled = (w.socket ws).unsettled.erase w.past.current)
    (hsocket : w'.socket ws =
      { w.socket ws with attachment := some info', unsettled := unsettled }) :
    Shape P w' ws info' where
  expires := halike.expires.trans h.expires
  bucket := hbucket.trans
    (max_le (h.bucket.trans (P.clock_mono hreads)) (P.clock_mono hreads))
  issued := by rw [hsocket]; exact h.issued
  opener := by rw [hsocket, harr]; exact h.opener
  departed := by rw [hsocket, halike.archived]; exact h.departed
  owner := by rw [hsocket, harr]; exact h.owner
  unsettled_lt := by
    rw [hsocket, harr]
    rcases hunsettled with rfl | ⟨rfl, -, hevent⟩ | rfl
    · exact h.unsettled_lt
    · exact fun k hk =>
        (List.mem_cons.mp hk).elim (fun heq => heq ▸ World.current_lt hevent) (h.unsettled_lt k)
    · exact fun k hk => h.unsettled_lt k (List.mem_of_mem_erase hk)
  unsettled_nodup := by
    rw [hsocket]
    rcases hunsettled with rfl | ⟨rfl, hfresh, -⟩ | rfl
    · exact h.unsettled_nodup
    · exact h.unsettled_nodup.cons hfresh
    · exact h.unsettled_nodup.erase _
  authorizer := by rw [hsocket, harr]; exact h.authorizer
  waiting := by rw [hsocket, halike.phase]; exact h.waiting
  handshake hp := by
    rw [halike.phase] at hp
    rw [hsocket, halike.id, halike.challenge, (halike.handshake hp).1]
    exact h.handshake hp
  identity := by rw [halike.phase, halike.id]; exact h.identity

/-- The attachment of a socket that has just been accepted. -/
theorem shape_opening {ws : SocketId} {challenge : Bytes} {due bucket : ℕ}
    (harr : w'.past.arrivals = w.past.arrivals) (hreads : w.reads ≤ w'.reads)
    (hlength : challenge.length = 16) (hevent : ∃ r, w.event = some (.fetch r))
    (hbucket : bucket ≤ P.clock w.reads)
    (hsocket : w'.socket ws =
      { Socket.none with
        attachment := some (.opening challenge due (tokenExpires P.token) bucket),
        opener := w.past.current, issued := challenge, due := due }) :
    Shape P w' ws (.opening challenge due (tokenExpires P.token) bucket) where
  expires := rfl
  bucket := hbucket.trans (P.clock_mono hreads)
  issued := by rwa [hsocket]
  opener := by rw [hsocket, harr]; exact hevent
  departed := by simp [hsocket, Socket.none, Attachment.opening]
  owner := by simp [hsocket, Socket.none, Departure.owner]
  unsettled_lt := by simp [hsocket, Socket.none]
  unsettled_nodup := by simp [hsocket, Socket.none]
  authorizer := by simp [hsocket, Socket.none]
  waiting := by simp [hsocket, Socket.none, Attachment.opening]
  handshake := by simp [hsocket, Attachment.opening]
  identity := by simp [Attachment.opening]

/-- The answer to the challenge of a socket is taken up. -/
theorem Shape.verifying {ws : SocketId} {info : Attachment} {frame : Bytes}
    (h : Shape P w ws info) (harr : w'.past.arrivals = w.past.arrivals)
    (hreads : w.reads ≤ w'.reads) (hphase : info.phase = .challenge)
    (hevent : w.event = some (.message ws (.binary frame))) (hsocket : w'.socket ws =
      { w.socket ws with
        attachment := some { info with phase := .verifying }, authorizer := some w.past.current }) :
    Shape P w' ws { info with phase := .verifying } where
  expires := h.expires
  bucket := h.bucket.trans (P.clock_mono hreads)
  issued := by rw [hsocket]; exact h.issued
  opener := by rw [hsocket, harr]; exact h.opener
  departed := by rw [hsocket]; exact h.departed
  owner := by rw [hsocket, harr]; exact h.owner
  unsettled_lt := by rw [hsocket, harr]; exact h.unsettled_lt
  unsettled_nodup := by rw [hsocket]; exact h.unsettled_nodup
  authorizer := by
    rw [hsocket, harr]
    rintro k hk
    obtain rfl := Option.some.inj hk
    exact ⟨frame, hevent⟩
  waiting := by simp [hsocket]
  handshake _ := by
    rw [hsocket]
    exact h.handshake (by simp [hphase])
  identity hp := by cases hp

/-- A socket claims the id that it has proved. -/
theorem Shape.claimed {ws : SocketId} {info : Attachment} {id : Text}
    (h : Shape P w ws info) (harr : w'.past.arrivals = w.past.arrivals)
    (hreads : w.reads ≤ w'.reads) (hc : Claims P κ w ws info id)
    (hsocket : w'.socket ws =
      { w.socket ws with
        attachment := some (({ info with
          id := some id, phase := .authenticated, challenge := none,
          deadline := none } : Attachment).plus (Pi.single .auth 1)) }) :
    Shape P w' ws (({ info with
      id := some id, phase := .authenticated, challenge := none,
      deadline := none } : Attachment).plus (Pi.single .auth 1)) where
  expires := h.expires
  bucket := h.bucket.trans (P.clock_mono hreads)
  issued := by rw [hsocket]; exact h.issued
  opener := by rw [hsocket, harr]; exact h.opener
  departed := by rw [hsocket]; exact h.departed
  owner := by rw [hsocket, harr]; exact h.owner
  unsettled_lt := by rw [hsocket, harr]; exact h.unsettled_lt
  unsettled_nodup := by rw [hsocket]; exact h.unsettled_nodup
  authorizer := by rw [hsocket, harr]; exact h.authorizer
  waiting := by simp [hsocket, hc.authorizer, Attachment.plus]
  handshake hp := absurd rfl hp
  identity _ := by
    obtain ⟨frame, -, hvalid⟩ := hc.event
    obtain ⟨key, rfl, hkey⟩ := hvalid.identity
    exact ⟨key, rfl, hkey⟩

/-- A retirement writes `archived` and the departure, and its later steps the departure. -/
theorem Shape.departing {ws : SocketId} {info : Attachment} {archived : Bool} {k : ℕ}
    (h : Shape P w ws info) (harr : w'.past.arrivals = w.past.arrivals)
    (hreads : w.reads ≤ w'.reads) (harchived : archived = true)
    (hnew : (w'.socket ws).departure.owner = some k)
    (hevent : ∃ e, w.past.arrivals[k]? = some e ∧ ∀ r, e ≠ .fetch r)
    (hsocket : w'.socket ws =
      { w.socket ws with
        attachment := some { info with archived := archived },
        readyState := (w'.socket ws).readyState, closeFrame := (w'.socket ws).closeFrame,
        departure := (w'.socket ws).departure }) :
    Shape P w' ws { info with archived := archived } where
  expires := h.expires
  bucket := h.bucket.trans (P.clock_mono hreads)
  issued := by rw [hsocket]; exact h.issued
  opener := by rw [hsocket, harr]; exact h.opener
  departed := by
    refine ⟨fun _ hlive => ?_, fun _ => harchived⟩
    rw [hlive] at hnew
    cases hnew
  owner j hj := by
    obtain rfl := Option.some.inj (hnew.symm.trans hj)
    rwa [harr]
  unsettled_lt := by rw [hsocket, harr]; exact h.unsettled_lt
  unsettled_nodup := by rw [hsocket]; exact h.unsettled_nodup
  authorizer := by rw [hsocket, harr]; exact h.authorizer
  waiting := by rw [hsocket]; exact h.waiting
  handshake := by rw [hsocket]; exact h.handshake
  identity := h.identity

/-- Whatever happens to a socket keeps the shape of its attachment. -/
theorem Shape.alters (hI : Inv P w) (harr : w'.past.arrivals = w.past.arrivals)
    (hreads : w.reads ≤ w'.reads) {ws : SocketId} {info' : Attachment}
    (h : Alters P κ w w' ws) (hinfo' : w'.info ws = some info') : Shape P w' ws info' := by
  have hattached : (w'.socket ws).attachment = some info' := hinfo'
  cases h with
  | same hsocket =>
    rw [hsocket] at hattached
    exact (hI.shape ws info' hattached).unmoved harr hreads hsocket
  | touched hinfo _ halike hbucket hunsettled hsocket =>
    rw [hsocket] at hattached
    obtain rfl := Option.some.inj hattached
    exact (hI.shape ws _ hinfo).touched harr hreads halike hbucket hunsettled hsocket
  | accepted _ _ hlength hevent hbucket hsocket =>
    rw [hsocket] at hattached
    obtain rfl := Option.some.inj hattached
    exact shape_opening harr hreads hlength hevent hbucket hsocket
  | connected _ _ hsocket =>
    rw [hsocket] at hattached
    exact (hI.shape ws info' hattached).unmoved harr hreads hsocket
  | verify hinfo _ hphase hevent hsocket =>
    rw [hsocket] at hattached
    obtain rfl := Option.some.inj hattached
    exact (hI.shape ws _ hinfo).verifying harr hreads hphase hevent hsocket
  | verified _ _ hsocket =>
    rw [hsocket] at hattached
    exact (hI.shape ws info' hattached).unmoved harr hreads hsocket
  | claimed hc _ hsocket =>
    rw [hsocket] at hattached
    obtain rfl := Option.some.inj hattached
    exact (hI.shape ws _ hc.stored).claimed harr hreads hc hsocket
  | retired hinfo _ hevent hsocket =>
    rw [hsocket] at hattached
    obtain rfl := Option.some.inj hattached
    refine (hI.shape ws _ hinfo).departing harr hreads rfl (k := w.past.current) ?_ hevent ?_
    · rw [hsocket]
      rfl
    · rw [hsocket]
  | departed howner hnew _ _ hsocket =>
    rw [hsocket] at hattached
    have hshape := hI.shape ws info' hattached
    have howner' := Departure.owner_of_debtor howner
    -- a departure belongs to an archived socket
    have harchived : info'.archived = true := hshape.departed.mpr fun hlive => by
      rw [hlive] at howner'
      cases howner'
    have hsame : { info' with archived := true } = info' := by rw [← harchived]
    rw [← hsame]
    refine hshape.departing harr hreads rfl hnew (hshape.owner _ howner') ?_
    rw [hsame, ← show (w.socket ws).attachment = some info' from hattached]
    exact hsocket

/-- An attachment is new only when a socket is accepted. -/
theorem Alters.isSome {ws : SocketId} (h : Alters P κ w w' ws) :
    (w'.info ws).isSome = (w.info ws).isSome ∨ ws = w.count ∧ w'.count = w.count + 1 := by
  simp only [World.info]
  cases h with
  | same hsocket => exact .inl (by rw [hsocket])
  | touched hinfo _ _ _ _ hsocket =>
    exact .inl (by rw [hsocket, show (w.socket ws).attachment = _ from hinfo]; rfl)
  | accepted hws hcount => exact .inr ⟨hws, hcount⟩
  | connected _ _ hsocket => exact .inl (by rw [hsocket])
  | verify hinfo _ _ _ hsocket =>
    exact .inl (by rw [hsocket, show (w.socket ws).attachment = _ from hinfo]; rfl)
  | verified _ _ hsocket => exact .inl (by rw [hsocket])
  | claimed hc _ hsocket =>
    exact .inl (by rw [hsocket, show (w.socket ws).attachment = _ from hc.stored]; rfl)
  | retired hinfo _ _ hsocket =>
    exact .inl (by rw [hsocket, show (w.socket ws).attachment = _ from hinfo]; rfl)
  | departed _ _ _ _ hsocket => exact .inl (by rw [hsocket])

/-- A live socket was live before or is new. -/
theorem Alters.live {ws : SocketId} (h : Alters P κ w w' ws) (hlive : Live w'.info ws) :
    Live w.info ws ∨ ws = w.count ∧ w'.count = w.count + 1 := by
  obtain ⟨info', hinfo', harch⟩ := hlive
  simp only [World.info] at hinfo'
  cases h with
  | same hsocket => exact .inl ⟨info', by rw [World.info, ← hsocket, hinfo'], harch⟩
  | touched hinfo hlive => exact .inl ⟨_, hinfo, hlive⟩
  | accepted hws hcount => exact .inr ⟨hws, hcount⟩
  | connected _ _ hsocket => exact .inl ⟨info', by rw [hsocket] at hinfo'; exact hinfo', harch⟩
  | verify hinfo hlive => exact .inl ⟨_, hinfo, hlive⟩
  | verified _ _ hsocket => exact .inl ⟨info', by rw [hsocket] at hinfo'; exact hinfo', harch⟩
  | claimed hc => exact .inl ⟨_, hc.stored, hc.live⟩
  | retired hinfo hlive => exact .inl ⟨_, hinfo, hlive⟩
  | departed _ _ _ _ hsocket => exact .inl ⟨info', by rw [hsocket] at hinfo'; exact hinfo', harch⟩

/-- A route was there before or has been claimed, with no other for the same id. -/
theorem Alters.routed {ws : SocketId} {id : Text} (h : Alters P κ w w' ws)
    (hrouted : Routed w'.info ws id) :
    Routed w.info ws id ∨ (∃ info, Claims P κ w ws info id) ∧
      w'.past.claiming = w.past.current :: w.past.claiming ∧ ∀ T, T ≠ ws →
      Routed w'.info T id → ∃ old, old ≠ T ∧ Routed w.info T id ∧ Routed w.info old id := by
  obtain ⟨info', hinfo', hphase, harch, hid⟩ := hrouted
  simp only [World.info] at hinfo'
  cases h with
  | same hsocket => exact .inl ⟨info', by rw [World.info, ← hsocket, hinfo'], hphase, harch, hid⟩
  | touched hinfo hlive halike _ _ hsocket =>
    rw [hsocket] at hinfo'
    obtain rfl := Option.some.inj hinfo'
    exact .inl ⟨_, hinfo, halike.phase ▸ hphase, hlive, halike.id ▸ hid⟩
  | accepted _ _ _ _ _ hsocket =>
    rw [hsocket] at hinfo'
    obtain rfl := Option.some.inj hinfo'
    cases hphase
  | connected _ _ hsocket =>
    exact .inl ⟨info', by rw [hsocket] at hinfo'; exact hinfo', hphase, harch, hid⟩
  | verify _ _ _ _ hsocket =>
    rw [hsocket] at hinfo'
    obtain rfl := Option.some.inj hinfo'
    cases hphase
  | verified _ _ hsocket =>
    exact .inl ⟨info', by rw [hsocket] at hinfo'; exact hinfo', hphase, harch, hid⟩
  | claimed hc hsole hsocket hclaiming =>
    rw [hsocket] at hinfo'
    obtain rfl := Option.some.inj hinfo'
    obtain rfl := Option.some.inj hid
    exact .inr ⟨⟨_, hc⟩, hclaiming, hsole⟩
  | retired _ _ _ hsocket =>
    rw [hsocket] at hinfo'
    obtain rfl := Option.some.inj hinfo'
    cases harch
  | departed _ _ _ _ hsocket =>
    exact .inl ⟨info', by rw [hsocket] at hinfo'; exact hinfo', hphase, harch, hid⟩

/-- A datagram that is forwarded has room for a key. -/
theorem Forwards.length {ws : SocketId} {info : Attachment} {target : SocketId}
    {other : Attachment} {bytes : Bytes} (h : Forwards κ w ws info target other bytes) :
    34 ≤ bytes.length := by
  obtain ⟨destination, frame, source, hs, -, -, hbytes⟩ := h.datagram
  obtain ⟨m, -, hframe⟩ := hs.event
  rw [forwardedFrame_length hbytes]
  exact (clientFrame_datagram hframe).2.2.2

/-- Of the frames a room sends, only the confirmation consists of the byte 2. -/
theorem Emits.confirmation {e : Sent} (h : Emits P κ w e) (hbytes : e.bytes = [2]) :
    (w.socket e.target).authorizer = some w.past.current ∧ ∃ id, Routed w.info e.target id := by
  cases h with
  | control hs hinfo hlive =>
    cases hs with
    | confirmation hauthorizer hrouted => exact ⟨hauthorizer, _, hrouted⟩
    | challenge => simp [challengeFrame] at hbytes
    | _ => simp at hbytes
  | datagram hf =>
    have hlen := hf.length
    simp only at hbytes
    simp [hbytes] at hlen

/-- Frames are sent to accepted sockets. -/
theorem Emits.info_isSome {e : Sent} (h : Emits P κ w e) : (w.info e.target).isSome = true := by
  cases h with
  | control hs hinfo hlive => simp [hinfo]
  | datagram hf => simp [hf.stored]

/-- Frames are sent by handlers that have started. -/
theorem Emits.sender_lt (hI : Inv P w) {e : Sent} (h : Emits P κ w e) :
    e.handler < w.past.arrivals.length := by
  cases h with
  | @control ws info _ _ _ hs hinfo hlive =>
    cases hs with
    | challenge hopener =>
      obtain ⟨r, hr⟩ := (hI.shape ws info hinfo).opener
      exact hopener ▸ (List.getElem?_eq_some_iff.mp hr).1
    | confirmation hauthorizer =>
      obtain ⟨frame, hevent⟩ := (hI.shape ws info hinfo).authorizer _ hauthorizer
      exact (List.getElem?_eq_some_iff.mp hevent).1
    | pong hevent => exact World.current_lt (by simp [hevent])
    | ping hevent => exact World.current_lt (by simp [hevent])
    | @gone about _ _ _ _ _ hdeparture habout =>
      obtain ⟨info', hinfo', -⟩ := habout
      obtain ⟨e, he, -⟩ := (hI.shape about info' hinfo').owner _ (by rw [hdeparture]; rfl)
      exact (List.getElem?_eq_some_iff.mp he).1
  | datagram hf =>
    obtain ⟨_, _, _, hs, -⟩ := hf.datagram
    exact World.current_lt hs.event_isSome

/-- Only sockets whose departure is being announced are announced. -/
theorem Emits.about {e : Sent} {ws : SocketId} (h : Emits P κ w e) (habout : e.about = some ws) :
    (w.socket ws).departure.told = true := by
  cases h with
  | control hs =>
    cases hs with
    | gone hdeparture =>
      obtain rfl := Option.some.inj habout
      rw [hdeparture]
      rfl
    | _ => cases habout
  | datagram => cases habout

/-- Once the others are being told of a departure, this is on record for good. -/
theorem Alters.told (hI : Inv P w) {ws : SocketId} (h : Alters P κ w w' ws)
    (htold : (w.socket ws).departure.told = true) : (w'.socket ws).departure.told = true := by
  cases h with
  | accepted hws =>
    rw [hI.blank ws hws.ge] at htold
    cases htold
  | retired hinfo hlive =>
    have hd := (hI.shape ws _ hinfo).departed.not.mp (by simp [hlive])
    rw [not_not.mp hd] at htold
    cases htold
  | departed _ _ hkept => exact hkept htold
  | same hsocket => rwa [hsocket]
  | touched _ _ _ _ _ hsocket => rwa [hsocket]
  | connected _ _ hsocket => rwa [hsocket]
  | verify _ _ _ _ hsocket => rwa [hsocket]
  | verified _ _ hsocket => rwa [hsocket]
  | claimed _ _ hsocket => rwa [hsocket]

/-- Nothing happens to sockets that do not exist. -/
theorem Alters.blank (hI : Inv P w) {ws : SocketId} (h : Alters P κ w w' ws)
    (hws : w'.count ≤ ws) (hcount : w.count ≤ w'.count) : w'.socket ws = Socket.none := by
  have hblank := hI.blank ws (hcount.trans hws)
  have hnone : w.info ws = none := by rw [World.info, hblank]; rfl
  cases h with
  | same hsocket => rw [hsocket, hblank]
  | touched hinfo => simp [hnone] at hinfo
  | accepted hnew hcount' => exact absurd hws (by rw [hnew, hcount']; exact Nat.not_succ_le_self _)
  | connected hlt => exact absurd (hcount.trans hws) (Nat.not_le.mpr hlt)
  | verify hinfo => simp [hnone] at hinfo
  | verified hauthorizer => simp [hblank, Socket.none] at hauthorizer
  | claimed hc => exact absurd (hnone.symm.trans hc.stored) (by simp)
  | retired hinfo => simp [hnone] at hinfo
  | departed howner => simp [hblank, Socket.none, Departure.debtor] at howner

/-- The other end of a socket is handed out after the challenge was sent. -/
theorem Alters.greeted {ws : SocketId} (h : Alters P κ w w' ws)
    (hc : (w'.socket ws).connected = true) : (w.socket ws).connected = true ∨ ws < w.count ∧
      ∃ e ∈ w.past.wire, e.target = ws ∧ e.bytes = challengeFrame (w.socket ws).issued := by
  cases h with
  | connected hcount hwire => exact .inr ⟨hcount, hwire⟩
  | accepted _ _ _ _ _ hsocket => rw [hsocket] at hc; cases hc
  | same hsocket => exact .inl (by rwa [hsocket] at hc)
  | touched _ _ _ _ _ hsocket => exact .inl (by rwa [hsocket] at hc)
  | verify _ _ _ _ hsocket => exact .inl (by rwa [hsocket] at hc)
  | verified _ _ hsocket => exact .inl (by rwa [hsocket] at hc)
  | claimed _ _ hsocket => exact .inl (by rwa [hsocket] at hc)
  | retired _ _ _ hsocket => exact .inl (by rwa [hsocket] at hc)
  | departed _ _ _ _ hsocket => exact .inl (by rwa [hsocket] at hc)

/-! ## What a step keeps -/

section Act

variable (hI : Inv P w) (h : Act P κ w w')
include hI h

/-- The sockets that carry an attachment are those that have been accepted. -/
theorem Act.known_iff (ws : SocketId) : ws < w'.count ↔ (w'.info ws).isSome = true := by
  obtain ⟨hcount, -⟩ | ⟨hcount, -, hnew⟩ := h.roster_cases
  · obtain hsome | ⟨rfl, hcount'⟩ := (h.alters ws).isSome
    · rw [hsome, hcount, hI.known]
    · omega
  · by_cases hws : ws = w.count
    · subst hws
      simp [hcount, hnew]
    · obtain hsome | ⟨hws', -⟩ := (h.alters ws).isSome
      · rw [hsome, hcount, ← hI.known, Nat.lt_succ_iff_lt_or_eq]
        exact or_iff_left hws
      · exact absurd hws' hws

/-- A socket is listed when it is accepted, behind all the others. -/
theorem Act.listing_lt {ws : SocketId} (hws : ws ∈ w'.listing) : ws < w'.count := by
  obtain ⟨hcount, hl⟩ | ⟨hcount, hl, -⟩ := h.roster_cases
  · rw [hcount]
    exact hI.listed ws (hl ▸ hws)
  · rw [hl, List.mem_append, List.mem_singleton] at hws
    rw [hcount]
    obtain hws | rfl := hws
    · exact (hI.listed ws hws).trans (Nat.lt_succ_self _)
    · exact Nat.lt_succ_self _

/-- No socket is listed twice. -/
theorem Act.listing_nodup : w'.listing.Nodup := by
  obtain ⟨-, hl⟩ | ⟨-, hl, -⟩ := h.roster_cases
  · exact hl ▸ hI.nodup
  · rw [hl]
    exact List.nodup_append.mpr ⟨hI.nodup, List.nodup_singleton _, fun a ha b hb => by
      rw [List.mem_singleton.mp hb]
      exact (hI.listed a ha).ne⟩

/-- A live socket stays listed: what is live was live before, or has just been accepted. -/
theorem Act.listing_of_live {ws : SocketId} (hlive : Live w'.info ws) : ws ∈ w'.listing := by
  obtain hlive | ⟨rfl, hcount⟩ := (h.alters ws).live hlive
  · have hmem := hI.lists ws hlive
    obtain ⟨-, hl⟩ | ⟨-, hl, -⟩ := h.roster_cases
    · rwa [hl]
    · rw [hl]
      exact List.mem_append_left _ hmem
  · obtain ⟨hcount', -⟩ | ⟨-, hl, -⟩ := h.roster_cases
    · omega
    · simp [hl]

/-- No step gives an endpoint a second route: who takes the id leaves it to no other socket. -/
theorem Act.routed_unique {a b : SocketId} {id : Text} (ha : Routed w'.info a id)
    (hb : Routed w'.info b id) : a = b := by
  by_contra hne
  obtain ha' | ⟨-, -, hsole⟩ := (h.alters a).routed ha
  · obtain hb' | ⟨-, -, hsole⟩ := (h.alters b).routed hb
    · exact hne (hI.sole a b id ha' hb')
    · obtain ⟨old, hold, hT, hold'⟩ := hsole a hne ha
      exact hold (hI.sole _ _ _ hold' hT)
  · obtain ⟨old, hold, hT, hold'⟩ := hsole b (Ne.symm hne) hb
    exact hold (hI.sole _ _ _ hold' hT)

/-- Who is sent the confirmation is authenticated. -/
theorem Act.authenticated_of_confirmed {ws : SocketId} (hc : w'.Confirmed ws) :
    ∃ id, Authenticated w'.info ws id := by
  have hext := h.extends hI
  obtain ⟨e, he, rfl, hbytes⟩ := hc
  obtain he | hemits := h.mem_wire he
  · obtain ⟨id, hid⟩ := hI.confirmed e.target ⟨e, he, rfl, hbytes⟩
    exact ⟨id, hext.authenticated hI hid⟩
  · obtain ⟨-, id, hid⟩ := hemits.confirmation hbytes
    exact ⟨id, hext.authenticated hI hid.authenticated⟩

/-- Whatever is stored under `meta` has the expiry of the room and a ping that was asked for. -/
theorem Act.meta_of_room {m : RoomMeta} (hm : w'.storage.roomMeta = some m) :
    m.expires = tokenExpires P.token ∧ m.ping ∈ w'.past.pings := by
  obtain ⟨hm', hp, -⟩ | ⟨r, room, _, hr, -, hm', hp, -⟩ |
    ⟨read, new, -, hping, hexpires, hr, hm', hp, -⟩ | ⟨hm', -⟩ := h.meta_cases
  · rw [hp]
    exact hI.roomMeta m (hm' ▸ hm)
  · rw [hm'] at hm
    obtain rfl := Option.some.inj hm
    rw [hp]
    exact ⟨hr.expires, by simp⟩
  · rw [hm'] at hm
    obtain rfl := Option.some.inj hm
    rw [hp]
    cases hr <;> exact ⟨hexpires, hping⟩
  · rw [hm'] at hm
    cases hm

/-- A client has its end of a socket after the challenge was sent. -/
theorem Act.challenged {ws : SocketId} (hc : (w'.socket ws).connected = true) :
    ∃ e ∈ w'.past.wire, e.target = ws ∧ e.bytes = challengeFrame (w'.socket ws).issued := by
  have hext := h.extends hI
  suffices hs : ws < w.count ∧ ∃ e ∈ w.past.wire, e.target = ws ∧
      e.bytes = challengeFrame (w.socket ws).issued by
    obtain ⟨hws, e, he, htarget, hbytes⟩ := hs
    exact ⟨e, hext.wire.subset he, htarget, (hext.socket ws hws).issued ▸ hbytes⟩
  obtain hc' | hnew := (h.alters ws).greeted hc
  · refine ⟨?_, hI.greeted ws hc'⟩
    by_contra hws
    rw [hI.blank ws (not_lt.mp hws)] at hc'
    cases hc'
  · exact hnew

/-- What is taken over the relay is taken by a handler that has started, before now. -/
theorem Act.taken_le {e : Taken} (he : e ∈ w'.past.taken) :
    e.handler < w'.past.arrivals.length ∧ e.time ≤ P.clock w'.reads := by
  have hclock : P.clock w.reads ≤ P.clock w'.reads := P.clock_mono h.reads_le
  rw [h.arrivals_eq]
  obtain ht | ⟨ws, bytes, tested, info, info', hr, -, ht⟩ := h.taken_cases
  · obtain ⟨hlt, htime⟩ := hI.taken e (ht ▸ he)
    exact ⟨hlt, htime.trans hclock⟩
  · rw [ht, List.mem_append, List.mem_singleton] at he
    obtain he | rfl := he
    · obtain ⟨hlt, htime⟩ := hI.taken e he
      exact ⟨hlt, htime.trans hclock⟩
    · exact ⟨World.current_lt (by simp [hr.event]), hr.tested_le.trans hclock⟩

/-- `meta` is written by handlers that have started. -/
theorem Act.metaWriter_lt {k : ℕ} (hk : k ∈ w'.past.metaWriters) :
    k < w'.past.arrivals.length := by
  rw [h.arrivals_eq]
  obtain hm | ⟨hevent, hm⟩ := h.writer_cases
  · exact hI.writer_lt k (hm ▸ hk)
  · rw [hm] at hk
    obtain rfl | hk := List.mem_cons.mp hk
    · exact World.current_lt hevent
    · exact hI.writer_lt k hk

end Act

/-- Every step of the room keeps the invariant. -/
theorem Inv.act (hI : Inv P w) (h : Act P κ w w') : Inv P w' where
  known := h.known_iff hI
  blank ws hws := (h.alters ws).blank hI hws h.count_le
  shape ws info hinfo := .alters hI h.arrivals_eq h.reads_le (h.alters ws) hinfo
  nodup := h.listing_nodup hI
  listed _ := h.listing_lt hI
  lists _ := h.listing_of_live hI
  sole _ _ _ := h.routed_unique hI
  confirmed _ := h.authenticated_of_confirmed hI
  roomMeta _ := h.meta_of_room hI
  wiped hw := by
    obtain hw' | ⟨-, t, ht, hover⟩ := h.wiped_cases
    · exact (hI.wiped (hw' ▸ hw)).trans (P.clock_mono h.reads_le)
    · exact hover.trans (P.clock_mono (ht.le.trans h.reads_le))
  rooms r hr := hI.rooms r (h.arrivals_eq ▸ hr)
  clients ws m hm := by
    obtain ⟨hws, hconn⟩ := hI.clients ws m (h.arrivals_eq ▸ hm)
    exact ⟨hws.trans_le h.count_le, ((h.extends hI).socket ws hws).connected hconn⟩
  greeted _ := h.challenged hI
  sender_lt e he := by
    rw [h.arrivals_eq]
    obtain he | hemits := h.mem_wire he
    · exact hI.sender_lt e he
    · exact hemits.sender_lt hI
  target_lt e he := by
    obtain he | hemits := h.mem_wire he
    · exact (hI.target_lt e he).trans_le h.count_le
    · exact ((hI.known _).mpr hemits.info_isSome).trans_le h.count_le
  about e he ws habout := by
    obtain he | hemits := h.mem_wire he
    · exact (h.alters ws).told hI (hI.about e he ws habout)
    · exact (h.alters ws).told hI (hemits.about habout)
  taken _ := h.taken_le hI
  writer_lt _ := h.metaWriter_lt hI
  alarm ha := by
    have hmeta : w.storage.roomMeta.isSome = true ∨ w.past.wiped = true := by
      obtain ha' | hmeta := h.alarm_cases
      · exact hI.alarm (ha' ▸ ha)
      · exact hmeta
    exact hmeta.elim (h.extends hI).roomMeta fun hw => .inr ((h.extends hI).wiped hw)

end IrohExperiment.Relay
