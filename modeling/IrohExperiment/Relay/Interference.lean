/-
# What a suspended handler can rely on (`worker/src/iroh-relay.js`)

While a handler waits, the others act, and the platform delivers events and
changes connections.  `Since h` is what handler `h` can still rely on afterwards:
the world has only been extended, and what is in the care of `h` alone is as it
left it.  That is the socket whose authentication it took up, the datagram it has
not settled, its admission, and the retirements it has begun.

`room_invariant` and `Inv.interferes` are what the logic of coroutines asks for: every
stretch keeps the invariant, and no other handler breaks what one relies on.
-/
import IrohExperiment.Relay.Invariant

namespace IrohExperiment.Relay

open Coop

variable {P : Platform} {κ : Trigger Event Point → World → Prop} {w w' w'' : World}

/-! ## The platform's moves -/

/-- What happens when a handler is started or entered again, and when the platform
acts by itself. -/
structure Rests (P : Platform) (w w' : World) : Prop where
  reads : w'.reads = w.reads
  calls : w'.calls = w.calls
  roomMeta : w'.storage.roomMeta = w.storage.roomMeta
  attempts : w'.storage.attempts = w.storage.attempts
  identities : w'.storage.identities = w.storage.identities
  closed : w'.storage.closed = w.storage.closed
  alarm : w'.storage.alarm.isSome = true → w.storage.alarm.isSome = true
  count : w'.count = w.count
  socket : ∀ ws, ∃ readyState, w'.socket ws = { w.socket ws with readyState := readyState }
  blank : ∀ ws, w.count ≤ ws → w'.socket ws = w.socket ws
  nodup : w.listing.Nodup → w'.listing.Nodup
  listed : ∀ ws ∈ w'.listing, ws ∈ w.listing
  lists : ∀ ws ∈ w.listing, Live w.info ws → ws ∈ w'.listing
  arrivals : w.past.arrivals <+: w'.past.arrivals
  rooms : ∀ r, Event.fetch r ∈ w'.past.arrivals → Event.fetch r ∈ w.past.arrivals ∨
    r.room = some P.token
  clients : ∀ ws m, Event.message ws m ∈ w'.past.arrivals →
    Event.message ws m ∈ w.past.arrivals ∨ ws < w.count ∧ (w.socket ws).connected = true
  past : w'.past = { w.past with current := w'.past.current, arrivals := w'.past.arrivals }
  reopens : ∀ ws, (w'.socket ws).readyState = .open → (w.socket ws).readyState = .open

/-- A handler is started on an event that the platform may deliver: a request for this room, or a
message of a client that has its end of a socket. -/
theorem rests_begin {h : ℕ} {e : Event} (hw : (room P).begin h e w = some w') : Rests P w w' := by
  simp only [room] at hw
  split_ifs at hw with hd
  obtain rfl := Option.some.inj hw
  refine ⟨rfl, rfl, rfl, rfl, rfl, rfl, ?_, rfl, fun ws => ⟨_, rfl⟩, fun _ _ => rfl, id,
    fun _ => id,
    fun _ h _ => h, List.prefix_append _ _, fun r hr => ?_, fun ws m hm => ?_, rfl, fun _ => id⟩
  · cases e <;> simp [World.begin]
  · simp only [World.begin, List.mem_append, List.mem_singleton] at hr
    obtain hr | rfl := hr
    · exact .inl hr
    · exact .inr (of_decide_eq_true hd.2)
  · simp only [World.begin, List.mem_append, List.mem_singleton] at hm
    obtain hm | rfl := hm
    · exact .inl hm
    · exact .inr (by simpa [World.delivers] using hd.2)

/-- A handler is entered again. -/
theorem rests_enter (P : Platform) (h : ℕ) (w : World) : Rests P w ((room P).enter h w) :=
  ⟨rfl, rfl, rfl, rfl, rfl, rfl, id, rfl, fun _ => ⟨_, rfl⟩, fun _ _ => rfl, id, fun _ => id,
    fun _ h _ => h, List.prefix_refl _, fun _ => .inl, fun _ _ => .inl, rfl, fun _ => id⟩

/-- A change of the ready state of one socket. -/
theorem rests_readyState (P : Platform) {T : SocketId} (hT : T < w.count)
    (f : ReadyState → ReadyState) (hf : ∀ r, f r = .open → r = .open) :
    Rests P w (w.setSocket T fun s => { s with readyState := f s.readyState }) :=
  ⟨rfl, rfl, rfl, rfl, rfl, rfl, id, rfl, fun ws => by
      by_cases hws : ws = T
      · subst hws
        exact ⟨f (w.socket ws).readyState, by simp⟩
      · exact ⟨(w.socket ws).readyState, by simp [hws]⟩,
    fun ws hws => by simp [(hT.trans_le hws).ne'], id, fun _ => id, fun _ h _ => h,
    List.prefix_refl _, fun _ => .inl, fun _ _ => .inl, rfl, fun ws h => by
      by_cases hws : ws = T
      · subst hws
        exact hf _ (by simpa using h)
      · simpa [hws] using h⟩

/-- Whatever the platform does by itself, to connections, to the list of sockets or to the alarm,
leaves the attachments alone. -/
theorem rests_effect {d : Effect} (hw : (room P).env d w = some w') : Rests P w w' := by
  simp only [room] at hw
  cases d with
  | closing T =>
    simp only [World.effect] at hw
    split_ifs at hw with hT
    obtain rfl := Option.some.inj hw
    exact rests_readyState P hT (fun r => if r = .closed then .closed else .closing) fun r => by
      cases r <;> simp
  | closed T =>
    simp only [World.effect] at hw
    split_ifs at hw with hT
    obtain rfl := Option.some.inj hw
    exact rests_readyState P hT (fun _ => .closed) nofun
  | unlist T =>
    simp only [World.effect] at hw
    split_ifs at hw with harch
    obtain rfl := Option.some.inj hw
    refine ⟨rfl, rfl, rfl, rfl, rfl, rfl, id, rfl, fun ws => ⟨_, rfl⟩, fun _ _ => rfl,
      fun h => h.erase _,
      fun ws h => List.mem_of_mem_erase h, fun ws h hlive => ?_, List.prefix_refl _,
      fun _ => .inl, fun _ _ => .inl, rfl, fun _ => id⟩
    refine (List.mem_erase_of_ne ?_).mpr h
    rintro rfl
    obtain ⟨info, hinfo, hlive⟩ := hlive
    simp [hinfo, hlive] at harch
  | relist listing =>
    simp only [World.effect] at hw
    split_ifs at hw with hperm
    obtain rfl := Option.some.inj hw
    have hperm' := List.isPerm_iff.mp hperm
    exact ⟨rfl, rfl, rfl, rfl, rfl, rfl, id, rfl, fun ws => ⟨_, rfl⟩, fun _ _ => rfl,
      fun h => hperm'.nodup_iff.mpr h,
      fun ws h => hperm'.mem_iff.mp h, fun ws h _ => hperm'.mem_iff.mpr h, List.prefix_refl _,
      fun _ => .inl, fun _ _ => .inl, rfl, fun _ => id⟩
  | construct =>
    obtain rfl := Option.some.inj hw
    exact ⟨rfl, rfl, rfl, rfl, rfl, rfl, id, rfl, fun ws => ⟨_, rfl⟩, fun _ _ => rfl, id,
      fun _ => id,
      fun _ h _ => h, List.prefix_refl _, fun _ => .inl, fun _ _ => .inl, rfl, fun _ => id⟩

/-- The platform's own doings leave no trace in the history. -/
theorem past_effect {d : Effect} (hw : (room P).env d w = some w') : w'.past = w.past := by
  cases d <;> simp only [room, World.effect] at hw
  case construct =>
    obtain rfl := Option.some.inj hw
    rfl
  all_goals
    split_ifs at hw
    obtain rfl := Option.some.inj hw
    rfl

namespace Rests

variable (h : Rests P w w')

include h

theorem info_eq : w'.info = w.info := by
  funext ws
  obtain ⟨r, hr⟩ := h.socket ws
  simp only [World.info, hr]

theorem wire_eq : w'.past.wire = w.past.wire := by rw [h.past]

theorem taken_eq : w'.past.taken = w.past.taken := by rw [h.past]

theorem pings_eq : w'.past.pings = w.past.pings := by rw [h.past]

theorem wiped_eq : w'.past.wiped = w.past.wiped := by rw [h.past]

theorem metaWriters_eq : w'.past.metaWriters = w.past.metaWriters := by rw [h.past]

theorem entering_eq : w'.past.entering = w.past.entering := by rw [h.past]

/-- A move of the platform only extends the world. -/
theorem extends_ : w.Extends w' where
  arrivals := h.arrivals
  reads := h.reads.ge
  calls := h.calls.ge
  count := h.count.ge
  socket ws _ := by
    obtain ⟨r, hr⟩ := h.socket ws
    rw [hr]
    exact ⟨rfl, rfl, rfl, id, fun _ => id, fun _ h _ => h,
      fun info h => ⟨info, h, rfl, fun h => ⟨h, rfl⟩⟩⟩
  wire := by rw [h.wire_eq]
  taken := by rw [h.taken_eq]
  pings := by rw [h.pings_eq]
  wiped hw := by rwa [h.wiped_eq]
  ids := .inr (by rw [World.ids, World.ids, h.identities]; exact List.Subset.refl _)
  roomMeta hm := .inl (by rwa [h.roomMeta])

end Rests

/-- The platform's moves keep the invariant: attachments, `meta` and frames stay as they are, and
no live socket leaves the list. -/
theorem Inv.rests (hI : Inv P w) (h : Rests P w w') : Inv P w' := by
  have hlen := h.arrivals.length_le
  refine ⟨fun ws => ?_, fun ws hws => ?_, fun ws info hinfo => ?_, h.nodup hI.nodup,
    fun ws hws => ?_,
    fun ws hlive => ?_, ?_, ?_, fun m hm => ?_, fun hw => ?_, fun r hr => ?_, fun ws m hm => ?_,
    fun ws hc => ?_, fun e he => ?_, fun e he => ?_, fun e he ws habout => ?_, fun e he => ?_,
    fun k hk => ?_, fun ha => ?_⟩
  · rw [h.count, h.info_eq, hI.known]
  · rw [h.count] at hws
    rw [h.blank ws hws, hI.blank ws hws]
  · obtain ⟨r, hr⟩ := h.socket ws
    rw [h.info_eq] at hinfo
    obtain ⟨h1, h2, h3, h4, h5, h6, h7, h8, h9, h10, h11, h12⟩ := hI.shape ws info hinfo
    refine ⟨h1, by rwa [h.reads], by rwa [hr], by rw [hr]; exact h4.imp fun _ => h.extends_.event,
      by rwa [hr],
      fun k hk => (h6 k (by rwa [hr] at hk)).imp fun _ => And.imp_left h.extends_.event,
      fun k hk => (h7 k (by rwa [hr] at hk)).trans_le hlen, by rwa [hr], fun k hk => ?_,
      by rwa [hr], by rwa [hr], h12⟩
    obtain ⟨frame, hframe⟩ := h9 k (by rwa [hr] at hk)
    exact ⟨frame, h.extends_.event hframe⟩
  · rw [h.count]
    exact hI.listed ws (h.listed ws hws)
  · rw [h.info_eq] at hlive
    exact h.lists ws (hI.lists ws hlive) hlive
  · rw [h.info_eq]
    exact hI.sole
  · rintro ws ⟨e, he, htarget⟩
    rw [h.info_eq]
    exact hI.confirmed ws ⟨e, h.wire_eq ▸ he, htarget⟩
  · rw [h.pings_eq]
    exact hI.roomMeta m (h.roomMeta ▸ hm)
  · rw [h.reads]
    exact hI.wiped (h.wiped_eq ▸ hw)
  · exact (h.rooms r hr).elim (hI.rooms r) id
  · obtain ⟨hws, hconn⟩ := (h.clients ws m hm).elim (hI.clients ws m) id
    exact ⟨h.count.symm ▸ hws, (h.extends_.socket ws hws).connected hconn⟩
  · obtain ⟨r, hr⟩ := h.socket ws
    rw [hr] at hc ⊢
    exact h.wire_eq ▸ hI.greeted ws hc
  · exact (hI.sender_lt e (h.wire_eq ▸ he)).trans_le hlen
  · rw [h.count]
    exact hI.target_lt e (h.wire_eq ▸ he)
  · obtain ⟨r, hr⟩ := h.socket ws
    rw [hr]
    exact hI.about e (h.wire_eq ▸ he) ws habout
  · obtain ⟨hlt, htime⟩ := hI.taken e (h.taken_eq ▸ he)
    exact ⟨hlt.trans_le hlen, by rwa [h.reads]⟩
  · exact (hI.writer_lt k (h.metaWriters_eq ▸ hk)).trans_le hlen
  · rw [h.roomMeta, h.wiped_eq]
    exact hI.alarm (h.alarm ha)

/-- The invariant holds in a room that nobody has entered. -/
theorem inv_initial (P : Platform) : Inv P World.initial := by
  refine ⟨fun ws => ?_, fun _ _ => rfl, fun ws info h => ?_, List.nodup_nil,
    by simp [World.initial],
    fun ws h => ?_, fun a b id h => ?_, fun ws h => ?_, ?_, ?_, ?_, ?_, ?_, ?_, ?_, ?_, ?_, ?_, ?_⟩
  · simp [World.initial, World.info, Socket.none]
  · simp [World.initial, World.info, Socket.none] at h
  · obtain ⟨info, hinfo, -⟩ := h
    simp [World.initial, World.info, Socket.none] at hinfo
  · obtain ⟨info, hinfo, -⟩ := h
    simp [World.initial, World.info, Socket.none] at hinfo
  · obtain ⟨e, he, -⟩ := h
    simp [World.initial] at he
  all_goals simp [World.initial, Socket.none]

/-- What one handler does between two suspensions keeps the invariant. -/
theorem Inv.stretch (hI : Inv P w) (h : Stretch P κ w w') : Inv P w' := by
  induction h with
  | refl => exact hI
  | tail _ hact ih => exact ih.act hact

/-- The invariant holds at every suspension point of every run. -/
theorem room_invariant (P : Platform) (κ : Trigger Event Point → World → Prop) :
    (room P).Invariant (Stretch P κ) (Inv P) where
  begin _ _ _ _ hI h := hI.rests (rests_begin h)
  enter h _ hI := hI.rests (rests_enter P h _)
  guar _ _ hI h := hI.stretch h
  env _ _ _ hI h := hI.rests (rests_effect h)

/-! ## What is in the care of one handler -/

/-- What handler `h` alone changes is unchanged, its retirements apart. -/
structure Spares (h : ℕ) (w w' : World) : Prop where
  unsettled : ∀ ws, h ∈ (w'.socket ws).unsettled ↔ h ∈ (w.socket ws).unsettled
  entering : h ∈ w'.past.entering ↔ h ∈ w.past.entering
  writer : h ∈ w'.past.metaWriters ↔ h ∈ w.past.metaWriters
  authorizer : ∀ ws, (w'.socket ws).authorizer = some h → (w.socket ws).authorizer = some h
  verifiedAt : ∀ ws, (w.socket ws).authorizer = some h →
    (w'.socket ws).verifiedAt = (w.socket ws).verifiedAt
  phase : ∀ ws, (w.socket ws).authorizer = some h → ∀ info info', w.info ws = some info →
    w'.info ws = some info' → info'.phase = info.phase
  confirmed : ∀ ws, (w.socket ws).authorizer = some h → w'.Confirmed ws → w.Confirmed ws

/-- Handler `h` still has to go on with the retirement of `ws`. -/
def World.Owes (w : World) (h : ℕ) (ws : SocketId) : Prop :=
  (w.socket ws).departure.debtor = some h

/-- The world was extended, what is in the care of `h` is unchanged, and `h` has
begun no retirement that it has not finished. -/
structure Since (h : ℕ) (w w' : World) : Prop where
  extends_ : w.Extends w'
  spares : Spares h w w'
  owes : ∀ ws, w'.Owes h ws → w.Owes h ws

/-- What `h` finds when it goes on. -/
structure Kept (h : ℕ) (w w' : World) : Prop where
  extends_ : w.Extends w'
  spares : Spares h w w'
  departure : ∀ ws, (w.socket ws).departure.owner = some h ∨
    (w'.socket ws).departure.owner = some h → (w'.socket ws).departure = (w.socket ws).departure

theorem spares_refl (h : ℕ) (w : World) : Spares h w w :=
  ⟨fun _ => Iff.rfl, Iff.rfl, Iff.rfl, fun _ => id, fun _ _ => rfl, fun ws _ i i' hi hi' => by
    rw [Option.some.inj (hi.symm.trans hi')], fun _ _ => id⟩

/-- Only sockets that have been accepted are authenticated by anybody. -/
theorem Inv.authorizer_lt (hI : Inv P w) {ws : SocketId} {h : ℕ}
    (ha : (w.socket ws).authorizer = some h) : ws < w.count := by
  by_contra hws
  rw [hI.blank ws (not_lt.mp hws)] at ha
  cases ha

/-- What is spared by two stretches is spared by both together. -/
theorem Spares.trans {h : ℕ} (hI : Inv P w) (hext : w.Extends w') (h₁ : Spares h w w')
    (h₂ : Spares h w' w'') : Spares h w w'' where
  unsettled ws := (h₂.unsettled ws).trans (h₁.unsettled ws)
  entering := h₂.entering.trans h₁.entering
  writer := h₂.writer.trans h₁.writer
  authorizer ws ha := h₁.authorizer ws (h₂.authorizer ws ha)
  verifiedAt ws ha :=
    (h₂.verifiedAt ws ((hext.socket ws (hI.authorizer_lt ha)).authorizer h ha)).trans
      (h₁.verifiedAt ws ha)
  phase ws ha info info'' hinfo hinfo'' := by
    have hs := hext.socket ws (hI.authorizer_lt ha)
    obtain ⟨info', hinfo', -⟩ := hs.attachment info hinfo
    rw [h₂.phase ws (hs.authorizer h ha) info' info'' hinfo' hinfo'',
      h₁.phase ws ha info info' hinfo hinfo']
  confirmed ws ha hc := h₁.confirmed ws ha
    (h₂.confirmed ws ((hext.socket ws (hI.authorizer_lt ha)).authorizer h ha) hc)

theorem since_refl (h : ℕ) (w : World) : Since h w w :=
  ⟨w.extends_refl, spares_refl h w, fun _ => id⟩

/-- A handler that goes on and is suspended again can rely on what it could rely on before. -/
theorem Since.trans {h : ℕ} (hI : Inv P w) (h₁ : Since h w w') (h₂ : Since h w' w'') :
    Since h w w'' :=
  ⟨h₁.extends_.trans h₂.extends_, h₁.spares.trans hI h₁.extends_ h₂.spares,
    fun ws ho => h₁.owes ws (h₂.owes ws ho)⟩

theorem kept_refl (h : ℕ) (w : World) : Kept h w w :=
  ⟨w.extends_refl, spares_refl h w, fun _ _ => rfl⟩

/-- What is kept over two turns of others is kept over both. -/
theorem Kept.trans {h : ℕ} (hI : Inv P w) (h₁ : Kept h w w') (h₂ : Kept h w' w'') :
    Kept h w w'' := by
  refine ⟨h₁.extends_.trans h₂.extends_, h₁.spares.trans hI h₁.extends_ h₂.spares,
    fun ws hown => ?_⟩
  rcases hown with hown | hown
  · have h₁' := h₁.departure ws (.inl hown)
    exact (h₂.departure ws (.inl (h₁'.symm ▸ hown))).trans h₁'
  · have h₂' := h₂.departure ws (.inr hown)
    exact h₂'.trans (h₁.departure ws (.inr (h₂' ▸ hown)))

/-- What others keep of a handler is what it may rely on: it owes no more than it did. -/
theorem Kept.since {h : ℕ} (hk : Kept h w w') : Since h w w' :=
  ⟨hk.extends_, hk.spares, fun ws ho => by
    rw [World.Owes, ← hk.departure ws (.inr (Departure.owner_of_debtor ho))]
    exact ho⟩

/-- The platform keeps everything that is in the care of a handler. -/
theorem Rests.kept (hr : Rests P w w') (h : ℕ) : Kept h w w' := by
  have hsame : ∀ ws, (w'.socket ws).unsettled = (w.socket ws).unsettled ∧
      (w'.socket ws).authorizer = (w.socket ws).authorizer ∧
      (w'.socket ws).verifiedAt = (w.socket ws).verifiedAt ∧
      (w'.socket ws).departure = (w.socket ws).departure := fun ws => by
    obtain ⟨r, hws⟩ := hr.socket ws
    rw [hws]
    exact ⟨rfl, rfl, rfl, rfl⟩
  refine ⟨hr.extends_, ⟨fun ws => by rw [(hsame ws).1], by rw [hr.entering_eq],
    by rw [hr.metaWriters_eq], fun ws ha => by rwa [(hsame ws).2.1] at ha,
    fun ws _ => (hsame ws).2.2.1, fun ws _ i i' hi hi' => ?_, fun ws _ hc => ?_⟩,
    fun ws _ => (hsame ws).2.2.2⟩
  · rw [hr.info_eq] at hi'
    rw [Option.some.inj (hi.symm.trans hi')]
  · rwa [World.Confirmed, hr.wire_eq] at hc

/-- Another handler neither settles a datagram of `h` nor gives it one. -/
theorem Alters.unsettled (hI : Inv P w) {h : ℕ} (hne : w.past.current ≠ h) {ws : SocketId}
    (ha : Alters P κ w w' ws) : h ∈ (w'.socket ws).unsettled ↔ h ∈ (w.socket ws).unsettled := by
  cases ha with
  | touched _ _ _ _ hu hsocket =>
    rw [hsocket]
    rcases hu with rfl | ⟨rfl, -⟩ | rfl
    · exact Iff.rfl
    · simp [Ne.symm hne]
    · exact List.mem_erase_of_ne (Ne.symm hne)
  | accepted hws _ _ _ _ hsocket =>
    rw [hsocket, hI.blank ws hws.ge]
  | same hsocket => rw [hsocket]
  | connected _ _ hsocket => rw [hsocket]
  | verify _ _ _ _ hsocket => rw [hsocket]
  | verified _ _ hsocket => rw [hsocket]
  | claimed _ _ hsocket => rw [hsocket]
  | retired _ _ _ hsocket => rw [hsocket]
  | departed _ _ _ _ hsocket => rw [hsocket]

/-- Nobody takes up an authentication in the name of `h`. -/
theorem Alters.authorizer {h : ℕ} (hne : w.past.current ≠ h) {ws : SocketId}
    (ha : Alters P κ w w' ws) (hauth : (w'.socket ws).authorizer = some h) :
    (w.socket ws).authorizer = some h := by
  cases ha with
  | accepted _ _ _ _ _ hsocket =>
    rw [hsocket] at hauth
    cases hauth
  | verify _ _ _ _ hsocket =>
    rw [hsocket] at hauth
    exact absurd (Option.some.inj hauth) hne
  | same hsocket => rwa [hsocket] at hauth
  | touched _ _ _ _ _ hsocket => rwa [hsocket] at hauth
  | connected _ _ hsocket => rwa [hsocket] at hauth
  | verified _ _ hsocket => rwa [hsocket] at hauth
  | claimed _ _ hsocket => rwa [hsocket] at hauth
  | retired _ _ _ hsocket => rwa [hsocket] at hauth
  | departed _ _ _ _ hsocket => rwa [hsocket] at hauth

/-- The time at which a verification ended is set by the handler that verified. -/
theorem Alters.verifiedAt (hI : Inv P w) {h : ℕ} (hne : w.past.current ≠ h) {ws : SocketId}
    (ha : Alters P κ w w' ws) (hauth : (w.socket ws).authorizer = some h) :
    (w'.socket ws).verifiedAt = (w.socket ws).verifiedAt := by
  cases ha with
  | accepted hws => exact absurd hws (hI.authorizer_lt hauth).ne
  | verified hcur => exact absurd (Option.some.inj (hcur.symm.trans hauth)) hne
  | same hsocket => rw [hsocket]
  | touched _ _ _ _ _ hsocket => rw [hsocket]
  | connected _ _ hsocket => rw [hsocket]
  | verify _ _ _ _ hsocket => rw [hsocket]
  | claimed _ _ hsocket => rw [hsocket]
  | retired _ _ _ hsocket => rw [hsocket]
  | departed _ _ _ _ hsocket => rw [hsocket]

/-- The phase of a socket that `h` authenticates is in the care of `h`: others may archive the
socket, but they move it to no other phase. -/
theorem Alters.phase (hI : Inv P w) {h : ℕ} (hne : w.past.current ≠ h) {ws : SocketId}
    (ha : Alters P κ w w' ws) (hauth : (w.socket ws).authorizer = some h) {info info' : Attachment}
    (hinfo : w.info ws = some info) (hinfo' : w'.info ws = some info') :
    info'.phase = info.phase := by
  have hinfo'' : (w'.socket ws).attachment = some info' := hinfo'
  have hinfo₀ : (w.socket ws).attachment = some info := hinfo
  cases ha with
  | accepted hws => exact absurd hws (hI.authorizer_lt hauth).ne
  | verify hold _ hphase =>
    rw [(hI.shape ws _ hold).waiting.mp hphase] at hauth
    cases hauth
  | claimed hc => exact absurd (Option.some.inj (hc.authorizer.symm.trans hauth)) hne
  | touched hold _ halike _ _ hsocket =>
    rw [hsocket] at hinfo''
    obtain rfl := Option.some.inj hinfo''
    obtain rfl := Option.some.inj (hinfo.symm.trans hold)
    exact halike.phase
  | retired hold _ _ hsocket =>
    rw [hsocket] at hinfo''
    obtain rfl := Option.some.inj hinfo''
    obtain rfl := Option.some.inj (hinfo.symm.trans hold)
    rfl
  | same hsocket => rw [hsocket, hinfo₀] at hinfo''; rw [Option.some.inj hinfo'']
  | connected _ _ hsocket =>
      rw [hsocket] at hinfo''; rw [Option.some.inj (hinfo.symm.trans hinfo'')]
  | verified _ _ hsocket => rw [hsocket] at hinfo''; rw [Option.some.inj (hinfo.symm.trans hinfo'')]
  | departed _ _ _ _ hsocket =>
      rw [hsocket] at hinfo''; rw [Option.some.inj (hinfo.symm.trans hinfo'')]

/-- A retirement is gone on with by the handler that began it, and by no other. -/
theorem Alters.departure (hI : Inv P w) {h : ℕ} (hne : w.past.current ≠ h) {ws : SocketId}
    (ha : Alters P κ w w' ws) (hown : (w.socket ws).departure.owner = some h ∨
      (w'.socket ws).departure.owner = some h) :
    (w'.socket ws).departure = (w.socket ws).departure := by
  cases ha with
  | accepted hws _ _ _ _ hsocket => rw [hsocket, hI.blank ws hws.ge]
  | retired hold hlive _ hsocket =>
    have hd := not_not.mp ((hI.shape ws _ hold).departed.not.mp (by simp [hlive]))
    rw [hsocket, hd] at hown
    rcases hown with hown | hown
    · cases hown
    · exact absurd (Option.some.inj hown) hne
  | departed hdebtor hnew =>
    rw [hnew, Departure.owner_of_debtor hdebtor] at hown
    exact absurd (Option.some.inj (hown.elim id id)) hne
  | same hsocket => rw [hsocket]
  | touched _ _ _ _ _ hsocket => rw [hsocket]
  | connected _ _ hsocket => rw [hsocket]
  | verify _ _ _ _ hsocket => rw [hsocket]
  | verified _ _ hsocket => rw [hsocket]
  | claimed _ _ hsocket => rw [hsocket]

/-- A step of another handler keeps everything that is in the care of `h`. -/
theorem Act.kept (hI : Inv P w) {h : ℕ} (hne : w.past.current ≠ h) (ha : Act P κ w w') :
    Kept h w w' := by
  refine ⟨ha.extends hI, ⟨fun ws => (ha.alters ws).unsettled hI hne, ?_, ?_,
    fun ws hauth => (ha.alters ws).authorizer hne hauth,
    fun ws hauth => (ha.alters ws).verifiedAt hI hne hauth,
    fun ws hauth info info' => (ha.alters ws).phase hI hne hauth, fun ws hauth hc => ?_⟩,
    fun ws hown => (ha.alters ws).departure hI hne hown⟩
  · rcases ha.entering_cases with he | he | he
    · rw [he]
    · simp [he, Ne.symm hne]
    · rw [he]
      exact List.mem_erase_of_ne (Ne.symm hne)
  · rcases ha.writer_cases with he | ⟨-, he⟩
    · rw [he]
    · simp [he, Ne.symm hne]
  · obtain ⟨e, he, rfl, hbytes⟩ := hc
    obtain he | hemits := ha.mem_wire he
    · exact ⟨e, he, rfl, hbytes⟩
    · exact absurd (Option.some.inj ((hemits.confirmation hbytes).1.symm.trans hauth)) hne

/-- The running handler stays the same until it is suspended. -/
theorem Stretch.current_eq (h : Stretch P κ w w') : w'.past.current = w.past.current := by
  induction h with
  | refl => rfl
  | tail _ ha ih => exact ha.current_eq.trans ih

/-- A whole turn of another handler keeps everything that is in the care of `h`. -/
theorem Stretch.kept (hI : Inv P w) {h : ℕ} (hne : w.past.current ≠ h) (hs : Stretch P κ w w') :
    Kept h w w' := by
  induction hs with
  | refl => exact kept_refl h w
  | tail hs ha ih =>
    have hne' : _ ≠ h := (Stretch.current_eq hs).symm ▸ hne
    exact ih.trans hI (ha.kept (hI.stretch hs) hne')

/-- A turn only extends the world. -/
theorem Stretch.extends (hI : Inv P w) (h : Stretch P κ w w') : w.Extends w' := by
  induction h with
  | refl => exact w.extends_refl
  | tail hs ha ih => exact ih.trans (ha.extends (hI.stretch hs))

/-- What the others and the platform do leaves what is in the care of a handler
alone. -/
theorem Inv.interferes (hI : Inv P w) {h : ℕ}
    (hi : Interferes (room P) (Stretch P κ) h w w') : Inv P w' ∧ Kept h w w' := by
  induction hi with
  | refl => exact ⟨hI, kept_refl h w⟩
  | @tail u v _ hm ih =>
    obtain ⟨m, hne, hmove⟩ := hm
    obtain ⟨hu, hk⟩ := ih
    cases hmove with
    | @start k e _ u₁ _ hb hg =>
      have hr := rests_begin hb
      have hcur : u₁.past.current ≠ h := by
        simp only [room] at hb
        split_ifs at hb
        obtain rfl := Option.some.inj hb
        exact fun heq => hne (congrArg some heq)
      have hu₁ := hu.rests hr
      exact ⟨hu₁.stretch hg, hk.trans hI ((hr.kept h).trans hu (Stretch.kept hu₁ hcur hg))⟩
    | @run k _ _ hg =>
      have hr := rests_enter P k u
      have hu₁ := hu.rests hr
      have hcur : ((room P).enter k u).past.current ≠ h := fun heq => hne (congrArg some heq)
      exact ⟨hu₁.stretch hg, hk.trans hI ((hr.kept h).trans hu (Stretch.kept hu₁ hcur hg))⟩
    | env he =>
      have hr := rests_effect he
      exact ⟨hu.rests hr, hk.trans hI (hr.kept h)⟩

end IrohExperiment.Relay
