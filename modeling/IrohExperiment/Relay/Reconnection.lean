/-
# Reconnecting endpoints (`authorize` and `finish` in `worker/src/iroh-relay.js`)

The sockets of a set `S` present valid authentications as one endpoint, each in time,
in a room in which anything else may go on: upgrades, messages, closes and errors of
other sockets, pings and pongs, datagrams, alarms.  `undisturbed` says what the sockets
of `S` are spared, and nothing about the order in which handlers go on.

If no handler whose own socket was superseded goes on to retire a newer one
(`sparingNewer`), exactly one socket of `S` has the route when all handlers are over,
and whoever retired one of `S` had the route (`one_survives`).  Three sockets are
enough to break that condition, and then no socket has the route (`none_survives`).

The invariant is `Held`: a socket of `S` that was archived lost its route to a socket
of `S` that has it.  A claim passes the route on, and `Contested.no_retire` rules out
every other cause to retire a socket of `S`.
-/
import IrohExperiment.Relay.Routes

namespace IrohExperiment.Relay

open Coop

variable {P : Platform} {κ : Trigger Event Point → World → Prop} {ls : List (Label Event Effect)}
  {c : RoomConfig} {w w' : World} {S : Finset SocketId} {id : Text}

/-! ## Conditions on the schedule -/

/-- With the message `m`, the socket `ws` presents a valid authentication as `id`,
within its budget and in time. -/
def Presents (P : Platform) (id : Text) (w : World) (ws : SocketId) (m : Message) : Prop :=
  Welcome P w ws m ∧ (∃ frame, m = .binary frame ∧ ValidAuth P (w.socket ws).issued frame id) ∧
    P.clock (w.takenUp P ws) < (w.socket ws).due

/-- An alarm that judges the sockets `rest` by the reading `now` finds no deadline of a
live socket of `S` reached. -/
def Punctual (S : Finset SocketId) (w : World) (now : ℕ) (rest : List SocketId) : Prop :=
  ∀ T ∈ rest, T ∈ S → ∀ info ∈ w.info T, info.archived = false → overdue now info.deadline = false

/-- The socket and the id that wait at the site for the identities of the room. -/
def registering : Site → Option (SocketId × Text)
  | .identities ws id => some (ws, id)
  | _ => none

/-- What the live sockets of `S` are spared: messages that are neither an authentication
as `id` nor served, closes, errors, deadlines, a full list of identities, and sockets
outside `S` that take the route from them. -/
def undisturbed (P : Platform) (S : Finset SocketId) (id : Text) :
    Trigger Event Point → World → Prop
  | .start (.message ws m), w => ws ∈ S →
      Archived w.info ws ∨ Presents P id w ws m ∨ Servable P w ws m
  | .start (.close ws _ _), w => ws ∈ S → Archived w.info ws
  | .start (.error ws), w => ws ∈ S → Archived w.info ws
  | .start (.fetch _), _ => True
  | .start .alarm, _ => True
  | .resume (.issued site), w => ∀ p ∈ registering site, p.1 ∈ S → p.2 ∈ w.ids ∨ w.ids.length < 2
  | .resume (.answered site), w =>
      (∀ p ∈ registering site, Live w.info p.1 →
        (p.1 ∈ S → P.clock w.reads < (w.socket p.1).due) ∧
          (p.1 ∉ S → p.2 = id → ∀ T ∈ S, ¬ Routed w.info T id)) ∧
      ∀ p ∈ judged P w site, Punctual S w p.1 p.2

/-- No handler whose own socket has been superseded goes on with a list in which
the newer socket is still to come. -/
def sparingNewer (id : Text) : Trigger Event Point → World → Prop
  | .resume (.answered (.retireOld ws id' rest)), w => id' = id →
      Archived w.info ws → ∀ T ∈ rest, ¬ Routed w.info T id
  | _, _ => True

/-- Each socket of `S` has presented itself, all handlers are over, the room has not
expired, and no call of `send` or `close` threw. -/
structure Contest (P : Platform) (S : Finset SocketId) (ls : List (Label Event Effect))
    (c : RoomConfig) : Prop where
  nonempty : S.Nonempty
  presented : ∀ ws ∈ S, ∃ m, Label.start (.message ws m) ∈ ls
  finished : c.Quiet
  unexpired : ∀ t < c.state.reads, P.clock t < tokenExpires P.token
  sends : ∀ n < c.state.calls, P.throws n = false

/-! ## Deciding the conditions -/

instance (challenge frame : Bytes) (id : Text) : Decidable (ValidAuth P challenge frame id) :=
  decidable_of_iff ((clientAuth frame).any fun auth => P.importable auth.publicKey &&
      P.verifies auth.publicKey auth.signature (P.challengeMessage challenge) &&
      decide (id = hex auth.publicKey))
    (by simp [ValidAuth, Option.any_eq_true, and_assoc])

instance (w : World) (ws : SocketId) (m : Message) : Decidable (Welcome P w ws m) :=
  decidable_of_iff ((w.info ws).any fun info => match m with
      | .text _ => false
      | .binary bytes => !info.archived && decide (info.phase = .challenge) &&
          decide (info.bucketMessages < 512) && decide (info.counts .messages < 10000) &&
          decide (info.counts .inboundBytes + bytes.length ≤ 2 * 1024 * 1024) &&
          (clientAuth bytes).any fun auth =>
            decide (ValidAuth P (w.socket ws).issued bytes (hex auth.publicKey))) (by
    constructor
    · intro h
      obtain ⟨info, hinfo, h⟩ := Option.any_eq_true .. |>.mp h
      cases m with
      | text => cases h
      | binary bytes =>
        simp only [Bool.and_eq_true, decide_eq_true_eq, Bool.not_eq_true'] at h
        obtain ⟨⟨⟨⟨⟨h1, h2⟩, h3⟩, h4⟩, h5⟩, h6⟩ := h
        obtain ⟨auth, -, hvalid⟩ := Option.any_eq_true .. |>.mp h6
        exact ⟨info, bytes, _, hinfo, rfl, h1, h2, h3, h4, h5, of_decide_eq_true hvalid⟩
    · rintro ⟨info, bytes, id, hinfo, rfl, h1, h2, h3, h4, h5, hvalid⟩
      have hvalid' := hvalid
      obtain ⟨auth, hauth, -, -, rfl⟩ := hvalid'
      simp [hinfo, hauth, h1, h2, h3, h4, h5, hvalid])

instance (id : Text) (w : World) (ws : SocketId) (m : Message) : Decidable (Presents P id w ws m) :=
  decidable_of_iff (Welcome P w ws m ∧ (match m with
      | .text _ => false
      | .binary frame => decide (ValidAuth P (w.socket ws).issued frame id)) = true ∧
      P.clock (w.takenUp P ws) < (w.socket ws).due) (by
    cases m with
    | text => simp [Presents]
    | binary frame => simp [Presents])

instance (w : World) (ws : SocketId) (m : Message) : Decidable (Servable P w ws m) :=
  decidable_of_iff ((w.info ws).any fun info => match m with
      | .text _ => false
      | .binary bytes => !info.archived && decide (info.phase = .authenticated) &&
          decide (info.bucketMessages < 512 ∨ info.bucket + 10000 ≤ P.clock (w.reads + 1)) &&
          decide (info.counts .messages < 10000) &&
          decide (info.counts .inboundBytes + bytes.length ≤ 2 * 1024 * 1024) &&
          (clientFrame (.binary bytes)).any fun data => match data with
            | .pong frame => decide (info.pendingPing = some (hex (frame.drop 1)))
            | _ => true) (by
    constructor
    · intro h
      obtain ⟨info, hinfo, h⟩ := Option.any_eq_true .. |>.mp h
      cases m with
      | text => cases h
      | binary bytes =>
        simp only [Bool.and_eq_true, decide_eq_true_eq, Bool.not_eq_true'] at h
        obtain ⟨⟨⟨⟨⟨h1, h2⟩, h3⟩, h4⟩, h5⟩, h6⟩ := h
        obtain ⟨data, hdata, hpong⟩ := Option.any_eq_true .. |>.mp h6
        refine ⟨info, bytes, data, hinfo, rfl, h1, h2, h3, h4, h5, hdata, ?_⟩
        rintro frame rfl
        exact of_decide_eq_true hpong
    · rintro ⟨info, bytes, data, hinfo, rfl, h1, h2, h3, h4, h5, hdata, hpong⟩
      simp only [hinfo, hdata, Option.any_some, h1, h2, Bool.not_false, decide_true, Bool.true_and,
        Bool.and_eq_true, decide_eq_true_eq]
      refine ⟨⟨⟨h3, h4⟩, h5⟩, ?_⟩
      cases data with
      | pong frame => exact decide_eq_true (hpong frame rfl)
      | ping => rfl
      | datagram => rfl)

instance (w : World) (now : ℕ) (rest : List SocketId) : Decidable (Punctual S w now rest) := by
  unfold Punctual
  infer_instance

instance (t : RoomTrigger) (w : World) : Decidable (undisturbed P S id t w) :=
  match t with
  | .start (.message ws m) => inferInstanceAs (Decidable (ws ∈ S →
      Archived w.info ws ∨ Presents P id w ws m ∨ Servable P w ws m))
  | .start (.close ws _ _) => inferInstanceAs (Decidable (ws ∈ S → Archived w.info ws))
  | .start (.error ws) => inferInstanceAs (Decidable (ws ∈ S → Archived w.info ws))
  | .start (.fetch _) => inferInstanceAs (Decidable True)
  | .start .alarm => inferInstanceAs (Decidable True)
  | .resume (.issued site) => inferInstanceAs (Decidable (∀ p ∈ registering site,
      p.1 ∈ S → p.2 ∈ w.ids ∨ w.ids.length < 2))
  | .resume (.answered site) => inferInstanceAs (Decidable ((∀ p ∈ registering site,
      Live w.info p.1 → (p.1 ∈ S → P.clock w.reads < (w.socket p.1).due) ∧
        (p.1 ∉ S → p.2 = id → ∀ T ∈ S, ¬ Routed w.info T id)) ∧
      ∀ p ∈ judged P w site, Punctual S w p.1 p.2))

instance (t : RoomTrigger) (w : World) : Decidable (sparingNewer id t w) := by
  unfold sparingNewer
  split <;> infer_instance

/-! ## What holds throughout a contest -/

/-- An event from a socket of the contest: the socket is archived, or the event is a
message that proves no key but `id`. -/
def Contending (P : Platform) (id : Text) (w : World) (ws : SocketId) (e : Event) : Prop :=
  Archived w.info ws ∨ ∃ m, e = .message ws m ∧ ∀ frame id', m = .binary frame →
    ValidAuth P (w.socket ws).issued frame id' → id' = id

/-- What holds throughout a contest, whatever the clock says. -/
structure Contested (P : Platform) (S : Finset SocketId) (id : Text) (w : World) : Prop where
  events : ∀ e ∈ w.past.arrivals, ∀ ws ∈ S, e.socket = some ws → Contending P id w ws e
  roomMeta : 0 < w.count ∨ w.past.entering ≠ [] →
    w.storage.roomMeta.isSome = true ∨ w.past.wiped = true
  wiped : w.past.wiped = true → ∃ t < w.reads, tokenExpires P.token ≤ P.clock t

/-- A frame that is served is no authentication. -/
theorem Servable.not_validAuth {ws : SocketId} {challenge frame : Bytes} {id' : Text}
    (hs : Servable P w ws (.binary frame)) : ¬ ValidAuth P challenge frame id' := by
  rintro ⟨auth, hauth, -⟩
  obtain ⟨_, _, data, -, -, -, -, -, -, -, hdata, -⟩ := hs
  have hfirst : frame[0]? = some 1 := by
    unfold clientAuth at hauth
    split_ifs at hauth with hshape
    push Not at hshape
    exact hshape.2.1
  simp [clientFrame, hfirst] at hdata

/-- A message that the schedule lets a socket of `S` send proves no key but `id`. -/
theorem contending_of_undisturbed {e : Event} {ws : SocketId} (hws : ws ∈ S)
    (he : e.socket = some ws) (hκ : undisturbed P S id (.start e) w) : Contending P id w ws e := by
  cases e with
  | fetch => cases he
  | alarm => cases he
  | close ws' code reason =>
    obtain rfl : ws' = ws := Option.some.inj he
    exact .inl (hκ hws)
  | error ws' =>
    obtain rfl : ws' = ws := Option.some.inj he
    exact .inl (hκ hws)
  | message ws' m =>
    obtain rfl : ws' = ws := Option.some.inj he
    rcases hκ hws with harch | ⟨-, ⟨frame, rfl, hvalid⟩, -⟩ | hserve
    · exact .inl harch
    · refine .inr ⟨_, rfl, fun frame' id' hframe hvalid' => ?_⟩
      obtain rfl := Message.binary.inj hframe
      exact hvalid.unique hvalid'
    · refine .inr ⟨_, rfl, fun frame id' hframe hvalid => ?_⟩
      subst hframe
      exact absurd hvalid hserve.not_validAuth

/-- What was true of an event stays true of it. -/
theorem Contending.extends {e : Event} {ws : SocketId} (hcont : Contending P id w ws e)
    (hI : Inv P w) (hext : w.Extends w') (he : e ∈ w.past.arrivals) : Contending P id w' ws e := by
  rcases hcont with harch | ⟨m, rfl, hframe⟩
  · exact .inl (hext.archived hI harch)
  · refine .inr ⟨m, rfl, ?_⟩
    rw [(hext.socket ws (hI.clients ws m he).1).issued]
    exact hframe

theorem Contested.rests (hI : Inv P w) (hc : Contested P S id w) (hrest : Rests P w w')
    (harr : w'.past.arrivals = w.past.arrivals) : Contested P S id w' where
  events e he ws hws hsocket :=
    (hc.events e (harr ▸ he) ws hws hsocket).extends hI hrest.extends_ (harr ▸ he)
  roomMeta := by
    rw [hrest.count, hrest.entering_eq, hrest.roomMeta, hrest.wiped_eq]
    exact hc.roomMeta
  wiped := by
    rw [hrest.wiped_eq, hrest.reads]
    exact hc.wiped

/-- Nothing has happened in a fresh room. -/
theorem contested_fresh : Contested P S id freshRoom.state where
  events e he := by cases he
  roomMeta h := by simp [freshRoom, Config.initial, World.initial] at h
  wiped hw := by cases hw

theorem arrivals_begin {h : ℕ} {e : Event} (hb : (room P).begin h e w = some w') :
    w'.past.arrivals = w.past.arrivals ++ [e] := by
  simp only [room] at hb
  split_ifs at hb
  obtain rfl := Option.some.inj hb
  rfl

theorem Contested.begin (hI : Inv P w) (hc : Contested P S id w) {h : ℕ} {e : Event}
    (hb : (room P).begin h e w = some w') (hκ : undisturbed P S id (.start e) w') :
    Contested P S id w' := by
  have hrest := rests_begin hb
  constructor
  · intro e' he' ws hws hsocket
    rw [arrivals_begin hb, List.mem_append, List.mem_singleton] at he'
    obtain he' | rfl := he'
    · exact (hc.events e' he' ws hws hsocket).extends hI hrest.extends_ he'
    · exact contending_of_undisturbed hws hsocket hκ
  · rw [hrest.count, hrest.entering_eq, hrest.roomMeta, hrest.wiped_eq]
    exact hc.roomMeta
  · rw [hrest.wiped_eq, hrest.reads]
    exact hc.wiped

/-- A room that admitted somebody has its `meta`, until the storage is deleted. -/
theorem Contested.keeps_meta (hI : Inv P w) (hc : Contested P S id w) (ha : Act P κ w w')
    (hnow : 0 < w'.count ∨ w'.past.entering ≠ []) :
    w'.storage.roomMeta.isSome = true ∨ w'.past.wiped = true := by
  have hext := ha.extends hI
  have hkeep : (0 < w.count ∨ w.past.entering ≠ []) →
      w'.storage.roomMeta.isSome = true ∨ w'.past.wiped = true := fun hbefore =>
    (hc.roomMeta hbefore).elim hext.roomMeta fun hw => .inr (hext.wiped hw)
  cases ha with
  | @admitUpgrade r room created _ _ _ _ hmeta =>
    obtain ⟨-, hcreated⟩ | ⟨⟨m, hm, -⟩, hcreated⟩ := hmeta
    · obtain ⟨t, rfl⟩ := Option.isSome_iff_exists.mp hcreated
      exact .inl (by simp)
    · exact .inl (by simp [hcreated, hm])
  | accept _ hentering => exact hkeep (.inr (List.ne_nil_of_mem hentering))
  | touch ht => exact hkeep (by cases ht <;> simpa using hnow)
  | depart hd => exact hkeep (by cases hd <;> simpa using hnow)
  | _ => exact hkeep (by simpa using hnow)

theorem Contested.act (hI : Inv P w) (hc : Contested P S id w) (ha : Act P κ w w') :
    Contested P S id w' where
  events e he ws hws hsocket := by
    rw [ha.arrivals_eq] at he
    exact (hc.events e he ws hws hsocket).extends hI (ha.extends hI) he
  roomMeta := hc.keeps_meta hI ha
  wiped hw := by
    have hreads := ha.reads_le
    rcases ha.wiped_cases with hsame | ⟨-, t, ht, hover⟩
    · obtain ⟨t, ht, hover⟩ := hc.wiped (hsame ▸ hw)
      exact ⟨t, ht.trans_le hreads, hover⟩
    · exact ⟨t, ht.trans_le hreads, (Nat.le_add_right _ _).trans hover⟩

/-- A socket of `S` claims no id but `id`. -/
theorem Contested.claims {ws : SocketId} {info : Attachment} {id' : Text}
    (hc : Contested P S id w) (hclaim : Claims P κ w ws info id') (hws : ws ∈ S) : id' = id := by
  obtain ⟨frame, hevent, hvalid⟩ := hclaim.event
  rcases hc.events _ (List.mem_of_getElem? hevent) ws hws rfl with harch | ⟨m, hm, hframe⟩
  · exact absurd harch (Live.not_archived ⟨info, hclaim.stored, hclaim.live⟩)
  · obtain rfl := (Event.message.inj hm).2
    exact hframe frame id' rfl hvalid

/-- The handler of a live socket of `S` was started by a message. -/
theorem Contested.not_leaving {ws : SocketId} {e : Event} {info : Attachment}
    (hc : Contested P S id w) (hws : ws ∈ S) (hevent : w.event = some e)
    (hsocket : e.socket = some ws) (hinfo : w.info ws = some info) (hlive : info.archived = false) :
    ∃ m, e = .message ws m := by
  rcases hc.events e (List.mem_of_getElem? hevent) ws hws hsocket with harch | ⟨m, hm, -⟩
  · exact absurd harch (Live.not_archived ⟨info, hinfo, hlive⟩)
  · exact ⟨m, hm⟩

/-! ## Who has the route -/

/-- What a contest is about: a socket of `S` that lost its route lost it to one that
has it, and whoever retired it had the route. -/
structure Held (S : Finset SocketId) (id : Text) (w : World) : Prop where
  kept : ∀ ws ∈ S, Archived w.info ws → ∃ T ∈ S, Routed w.info T id
  mine : ∀ ws ∈ S, ∀ id', Authenticated w.info ws id' → id' = id
  retirer : ∀ ws ∈ S, ∀ h seen, (w.socket ws).departure.owner = some h →
    (w.socket ws).departure.view = some seen →
    ∃ T ∈ S, (w.socket T).authorizer = some h ∧ Routed seen T id

/-- In a fresh room nobody has lost anything. -/
theorem held_fresh : Held S id freshRoom.state where
  kept := by
    rintro ws - ⟨info, hinfo, -⟩
    cases hinfo
  mine := by
    rintro ws - id' ⟨info, hinfo, -⟩
    cases hinfo
  retirer ws _ h seen ho := by cases ho

/-- The conditions on the schedule and what holds when a stretch begins. -/
def Contests (P : Platform) (S : Finset SocketId) (id : Text)
    (κ : Trigger Event Point → World → Prop) : Prop :=
  ∀ t w, κ t w → undisturbed P S id t w ∧ sparingNewer id t w ∧ Inv P w ∧ Contested P S id w

section

variable (hcontest : Contest P S ls c) (hκ : Contests P S id κ)
include hcontest hκ

/-- A socket of `S` is not turned away with its message. -/
theorem Contest.not_blamed {T : SocketId} {m : Message} (hreads : w.reads ≤ c.state.reads)
    (hcalls : w.calls ≤ c.state.calls) (hT : T ∈ S) : ¬ Blame P κ w T m := by
  have hclock : ∀ t < w.reads, P.clock t < tokenExpires P.token := fun t ht =>
    hcontest.unexpired t (ht.trans_le hreads)
  intro hblame
  cases hblame with
  | expired ht hlate => exact absurd hlate (not_le.mpr (hclock _ ht))
  | late hstarted hwaits hlate =>
    obtain ⟨info, hinfo, hphase, hlive⟩ := hwaits
    rcases (hκ _ _ hstarted).1 hT with
      harch | ⟨-, -, hintime⟩ | ⟨info', _, _, hinfo', -, -, hphase', -⟩
    · exact absurd harch (Live.not_archived ⟨info, hinfo, hlive⟩)
    · exact absurd hlate (not_le.mpr hintime)
    · obtain rfl := Option.some.inj (hinfo.symm.trans hinfo')
      rw [hphase] at hphase'
      cases hphase'
  | overtaken hresumed hlive hlate =>
    exact absurd hlate (not_le.mpr (((hκ _ _ hresumed).1.1 _ rfl hlive).1 hT))
  | full hissued _ _ hid hfull =>
    exact ((hκ _ _ hissued).1 _ rfl hT).elim hid fun hroom => absurd hfull (not_le.mpr hroom)
  | unsent hn hthrows => simp [hcontest.sends _ (hn.trans_le hcalls)] at hthrows
  | noMeta hissued hknown hbefore hmeta =>
    obtain ⟨-, -, -, hc₀⟩ := hκ _ _ hissued
    rcases hc₀.roomMeta (.inl (Nat.zero_lt_of_lt hknown)) with hsome | hwiped
    · simp [hmeta] at hsome
    · obtain ⟨t, ht, hover⟩ := hc₀.wiped hwiped
      exact absurd hover (not_le.mpr (hclock t (ht.trans_le hbefore)))

/-- During a contest a socket of `S` is retired by nothing but a claim. -/
theorem Contest.no_retire {info : Attachment} {T : SocketId} (hI : Inv P w)
    (hc : Contested P S id w) (hh : Held S id w) (hreads : w.reads ≤ c.state.reads)
    (hcalls : w.calls ≤ c.state.calls) (hT : T ∈ S) (hinfo : w.info T = some info)
    (hlive : info.archived = false) : ¬ Cause P κ w T info := by
  intro hcause
  cases hcause with
  | @rejected m w₀ hevent hstart hblame =>
    have hproper : Proper P w₀ T m := ((hκ _ _ hstart).1 hT).imp_right (Or.imp_left And.left)
    exact hcontest.not_blamed hκ hreads hcalls hT (hblame hproper)
  | closed hevent =>
    obtain ⟨m, hm⟩ := hc.not_leaving hT hevent rfl hinfo hlive
    cases hm
  | failed hevent =>
    obtain ⟨m, hm⟩ := hc.not_leaving hT hevent rfl hinfo hlive
    cases hm
  | @timedOut w₀ site now rest hevent hread hresumed hjudged hrest hstored hlate =>
    obtain ⟨t, ht, rfl⟩ := hread
    rcases hlate with hexpired | hoverdue
    · rw [(hI.shape T info hinfo).expires] at hexpired
      exact absurd hexpired (not_le.mpr (hcontest.unexpired t (ht.trans_le hreads)))
    · have hfalse := (hκ _ _ hresumed).1.2 _ hjudged T hrest hT info hstored hlive
      simp [hoverdue] at hfalse
  | unpinged _ hn hthrows => simp [hcontest.sends _ (hn.trans_le hcalls)] at hthrows
  | undeliverable _ _ _ hn hthrows => simp [hcontest.sends _ (hn.trans_le hcalls)] at hthrows
  | @superseded by_ id' rest w₀ m hevent hauthorizer hne hby hid hresumed hlater hrest =>
    have hrouted : Routed w.info T id' :=
      hI.routed_of_carries hinfo (by simp [Attachment.carries, hid, hlive])
    obtain rfl : id' = id := hh.mine T hT id' hrouted.authenticated
    obtain ⟨info', hinfo', hphase, hid'⟩ := hby
    cases harch : info'.archived with
    | false => exact hne (hI.sole _ _ id' ⟨info', hinfo', hphase, harch, hid'⟩ hrouted)
    | true =>
      have hsame : w₀.info = w.info := by
        funext ws
        rw [World.info, World.info, hlater.socket]
      exact (hκ _ _ hresumed).2.1 rfl (by rw [hsame]; exact ⟨info', hinfo', harch⟩) T hrest
        (by rwa [hsame])

end

/-- An act that archives no socket of `S` leaves them what they have. -/
theorem Held.spare (hh : Held S id w) (hI : Inv P w) (ha : Act P κ w w')
    (hmine : ∀ ws ∈ S, ∀ id', Authenticated w'.info ws id' → id' = id)
    (hspare : ∀ ws ∈ S, Archived w'.info ws → Archived w.info ws) : Held S id w' := by
  have hext := ha.extends hI
  refine ⟨fun ws hws harch => ?_, hmine, fun ws hws h seen ho hv => ?_⟩
  · obtain ⟨T, hT, hrouted⟩ := hh.kept ws hws (hspare ws hws harch)
    exact ⟨T, hT, hrouted.extends hI hext fun harch' =>
      hrouted.live.not_archived (hspare T hT harch')⟩
  · have hsame : Archived w.info ws ∨ ¬ Archived w'.info ws :=
      or_iff_not_imp_left.mpr fun hlive harch => hlive (hspare ws hws harch)
    obtain ⟨howner, hview⟩ := (ha.alters ws).owner hI hsame
    obtain ⟨T, hT, hauth, hseen⟩ := hh.retirer ws hws h seen (howner ▸ ho) (hview ▸ hv)
    exact ⟨T, hT, (hext.socket T (hI.authorizer_lt hauth)).authorizer h hauth, hseen⟩

/-- The claim of a socket of `S` takes the route over from whoever had it. -/
theorem Held.pass (hh : Held S id w) (hI : Inv P w) {ws old : SocketId} {info other : Attachment}
    (ha : Act P κ w ((w.claimed ws info id).retired old other))
    (hmine : ∀ T ∈ S, ∀ id', Authenticated ((w.claimed ws info id).retired old other).info T id' →
      id' = id)
    (hclaim : Claims P κ w ws info id) (hws : ws ∈ S) (hne : old ≠ ws) :
    Held S id ((w.claimed ws info id).retired old other) := by
  have hauthorizer : ∀ T h, (w.socket T).authorizer = some h →
      (((w.claimed ws info id).retired old other).socket T).authorizer = some h := fun T h hT =>
    ((ha.extends hI).socket T (hI.authorizer_lt hT)).authorizer h hT
  have hroute : Routed ((w.claimed ws info id).retired old other).info ws id := by
    obtain ⟨claimed, hclaimed, hphase, hid⟩ := w.claimed_info_self ws info id
    refine ⟨claimed, by rw [World.info, World.retired_socket_of_ne hne.symm]; exact hclaimed,
      hphase, ?_, hid⟩
    simp only [World.info, World.claimed_socket, Function.update_self] at hclaimed
    exact Option.some.inj hclaimed ▸ hclaim.live
  refine ⟨fun _ _ _ => ⟨ws, hws, hroute⟩, hmine, fun T hT h seen ho hv => ?_⟩
  by_cases hold : T = old
  · subst hold
    rw [retired_departure] at ho hv
    obtain rfl := Option.some.inj ho
    obtain rfl := Option.some.inj hv
    exact ⟨ws, hws, hauthorizer ws _ hclaim.authorizer, hroute⟩
  · have hsame : (((w.claimed ws info id).retired old other).socket T).departure =
        (w.socket T).departure := by
      obtain ⟨a, ha'⟩ := w.claimed_socket_eq ws info id T
      rw [World.retired_socket_of_ne hold, ha']
    rw [hsame] at ho hv
    obtain ⟨T', hT', hauth, hseen⟩ := hh.retirer T hT h seen ho hv
    exact ⟨T', hT', hauthorizer T' h hauth, hseen⟩

/-- A socket outside `S` does not take the route from one in `S`. -/
theorem Claims.outside (hκ : Contests P S id κ) {ws old : SocketId} {info : Attachment}
    (hclaim : Claims P κ w ws info id) (hws : ws ∉ S) (hold : old ∈ S) :
    ¬ Routed w.info old id := by
  obtain ⟨w₀, hresumed, hlater⟩ := hclaim.since
  have hsame : w₀.info = w.info := by
    funext T
    rw [World.info, World.info, hlater.socket]
  have hlive : Live w₀.info ws := hsame ▸ ⟨info, hclaim.stored, hclaim.live⟩
  exact hsame ▸ ((hκ _ _ hresumed).1.1 _ rfl hlive).2 hws rfl old hold

theorem Held.act (hcontest : Contest P S ls c) (hκ : Contests P S id κ) (hI : Inv P w)
    (hc : Contested P S id w) (hh : Held S id w) (hreads : w.reads ≤ c.state.reads)
    (hcalls : w.calls ≤ c.state.calls) (ha : Act P κ w w') : Held S id w' := by
  have hmine : ∀ ws ∈ S, ∀ id', Authenticated w'.info ws id' → id' = id :=
    fun ws hws id' hauth => by
    obtain hauth | ⟨info, hclaim⟩ := (ha.alters ws).authenticated hauth
    · exact hh.mine ws hws id' hauth
    · exact hc.claims hclaim hws
  obtain hnone | ⟨ws, info, id', old, other, hclaim, hne, hother, hrouted, rfl⟩ |
    ⟨T, info, hinfo, hlive, hcause, rfl⟩ := ha.retires
  · exact hh.spare hI ha hmine fun ws _ => hnone ws
  · by_cases hws : ws ∈ S
    · obtain rfl := hc.claims hclaim hws
      exact hh.pass hI ha hmine hclaim hws hne
    · -- `old` has the route of `id'`, and `ws` takes it
      have hold : old ∉ S := fun hold => by
        obtain rfl := hh.mine old hold id' hrouted.authenticated
        exact hclaim.outside hκ hws hold hrouted
      refine hh.spare hI ha hmine fun T hT harch => ?_
      have hne' : T ≠ old := fun h => hold (h ▸ hT)
      have hne'' : T ≠ ws := fun h => hws (h ▸ hT)
      obtain ⟨info', hinfo', harch'⟩ := harch
      refine ⟨info', ?_, harch'⟩
      rwa [World.info, World.retired_socket_of_ne hne', ← World.info,
        World.claimed_info_ne hne''] at hinfo'
  · have hT : T ∉ S := fun hT =>
      hcontest.no_retire hκ hI hc hh hreads hcalls hT hinfo hlive hcause
    refine hh.spare hI ha hmine fun ws hws harch => ?_
    have hne : ws ≠ T := fun h => hT (h ▸ hws)
    obtain ⟨info', hinfo', harch'⟩ := harch
    refine ⟨info', ?_, harch'⟩
    rwa [World.info, World.retired_socket_of_ne hne] at hinfo'

theorem Held.rests (hh : Held S id w) (hrest : Rests P w w') : Held S id w' := by
  have hsame : ∀ ws, (w'.socket ws).departure = (w.socket ws).departure ∧
      (w'.socket ws).authorizer = (w.socket ws).authorizer := fun ws => by
    obtain ⟨r, hws⟩ := hrest.socket ws
    rw [hws]
    exact ⟨rfl, rfl⟩
  refine ⟨by rw [hrest.info_eq]; exact hh.kept, by rw [hrest.info_eq]; exact hh.mine,
    fun ws hws h seen ho hv => ?_⟩
  rw [(hsame ws).1] at ho hv
  obtain ⟨T, hT, hauth, hseen⟩ := hh.retirer ws hws h seen ho hv
  exact ⟨T, hT, (hsame T).2.trans hauth, hseen⟩

/-! ## One of them survives -/

/-- Whichever sockets present themselves as one endpoint, and in whatever order their
handlers go on: exactly one of them ends up with the route, and whoever retired one of
them had the route. -/
theorem one_survives
    (hr : Runs (room P) (fun t w => undisturbed P S id t w ∧ sparingNewer id t w) freshRoom ls c)
    (hcontest : Contest P S ls c) :
    (∃! ws, ws ∈ S ∧ Routed c.state.info ws id) ∧
      ∀ ws ∈ S, ∀ h seen, (c.state.socket ws).departure.owner = some h →
        (c.state.socket ws).departure.view = some seen →
        ∃ T ∈ S, (c.state.socket T).authorizer = some h ∧ Routed seen T id := by
  have hrun := runsFrom_fresh hr
  have hheld : Held S id c.state := by
    -- that nothing throws or expires is known up to the end of the run only
    refine ((room_runs (J := fun w => Contested P S id w ∧ (w.reads ≤ c.state.reads →
      w.calls ≤ c.state.calls → Held S id w)) hrun ⟨?_, fun _ _ => ?_⟩ ?_ ?_ ?_).2).2 le_rfl le_rfl
    · exact contested_fresh
    · exact held_fresh
    · intro h e w w' _ hI hJ hb hκ
      have hrest := rests_begin hb
      refine ⟨hJ.1.begin hI hb hκ.1, fun hreads hcalls => ?_⟩
      exact (hJ.2 (hrest.reads ▸ hreads) (hrest.calls ▸ hcalls)).rests hrest
    · intro w w' hI hJ hrest harr
      refine ⟨hJ.1.rests hI hrest harr, fun hreads hcalls => ?_⟩
      exact (hJ.2 (hrest.reads ▸ hreads) (hrest.calls ▸ hcalls)).rests hrest
    · intro w w' _ hI hJ ha
      refine ⟨hJ.1.act hI ha, fun hreads hcalls => ?_⟩
      have hreads' := ha.reads_le.trans hreads
      have hcalls' := ha.calls_le.trans hcalls
      exact (hJ.2 hreads' hcalls').act hcontest (fun t w hκ => ⟨hκ.1.1, hκ.1.2, hκ.2.1, hκ.2.2.1⟩)
        hI hJ.1 hreads' hcalls' ha
  refine ⟨?_, hheld.retirer⟩
  obtain ⟨ws₀, hws₀⟩ := hcontest.nonempty
  obtain ⟨m, hm⟩ := hcontest.presented ws₀ hws₀
  -- some socket of `S` was answered: it has the route or has lost it to another
  have hexists : ∃ T ∈ S, Routed c.state.info T id := by
    obtain ⟨id', hauth⟩ | harch := hrun.answered rfl hcontest.finished hm
    · obtain rfl := hheld.mine ws₀ hws₀ id' hauth
      obtain ⟨info, hinfo, hphase, hid⟩ := hauth
      cases harch : info.archived with
      | false => exact ⟨ws₀, hws₀, info, hinfo, hphase, harch, hid⟩
      | true => exact hheld.kept ws₀ hws₀ ⟨info, hinfo, harch⟩
    · exact hheld.kept ws₀ hws₀ harch
  obtain ⟨T, hT, hrouted⟩ := hexists
  exact ⟨T, ⟨hT, hrouted⟩, fun T' hT' => hrun.inv_end.sole T' T id hT'.2 hrouted⟩

/-- Socket 1 is accepted and authenticates while the answer of socket 0 is being
verified; then socket 0 goes on and takes the route over. -/
def pairSchedule : List (Label Event Effect) :=
  handled 0 8 (.fetch upgradeRequest) ++ handled 1 3 (.message 0 (.binary (authFrame 7))) ++
    handled 2 8 (.fetch upgradeRequest) ++ handled 3 7 (.message 1 (.binary (authFrame 7))) ++
    List.replicate 22 (.resume 1) ++ List.replicate 8 (.resume 3)

theorem one_survives_pair : ∃ c : RoomConfig, Archived c.state.info 1 ∧
    ∃! ws, ws ∈ ({0, 1} : Finset SocketId) ∧ Routed c.state.info ws (hex (sampleKey 7)) := by
  have hrun : (freshRoom.replay (room calmPlatform) (fun t w =>
      undisturbed calmPlatform {0, 1} (hex (sampleKey 7)) t w ∧
        sparingNewer (hex (sampleKey 7)) t w)
      pairSchedule).any (fun c => decide (Archived c.state.info 1 ∧ c.Quiet ∧
        ∀ t < c.state.reads, calmPlatform.clock t < tokenExpires calmPlatform.token)) = true := by
    decide +kernel
  obtain ⟨c, hc, hrun⟩ := Option.any_eq_true .. |>.mp hrun
  obtain ⟨harch, hfinished, hunexpired⟩ := of_decide_eq_true hrun
  refine ⟨c, harch, (one_survives (runs_of_replay hc)
    ⟨⟨0, by decide⟩, fun ws hws => ?_, hfinished, hunexpired, fun _ _ => rfl⟩).1⟩
  refine ⟨.binary (authFrame 7), ?_⟩
  simp only [Finset.mem_insert, Finset.mem_singleton] at hws
  obtain rfl | rfl := hws <;> simp [pairSchedule, handled]

/-- The second socket supersedes the first and waits in `finish`; the third
supersedes the second; the second goes on and retires the third. -/
def mutualSchedule : List (Label Event Effect) :=
  threeUpgrades ++ handled 3 17 (.message 0 (.binary (authFrame 7))) ++
    handled 4 7 (.message 1 (.binary (authFrame 7))) ++
    handled 5 7 (.message 2 (.binary (authFrame 7))) ++
    List.replicate 18 (.resume 4) ++ List.replicate 10 (.resume 5)

/-- Three reconnecting sockets can leave their endpoint without a route. -/
theorem none_survives : ∃ (c : RoomConfig) (ls : List (Label Event Effect)),
    Runs (room calmPlatform)
      (undisturbed calmPlatform {0, 1, 2} (hex (sampleKey 7))) freshRoom ls c ∧
      Contest calmPlatform {0, 1, 2} ls c ∧
      ¬ ∃ ws ∈ ({0, 1, 2} : Finset SocketId), Routed c.state.info ws (hex (sampleKey 7)) := by
  have hrun : (freshRoom.replay (room calmPlatform)
      (undisturbed calmPlatform {0, 1, 2} (hex (sampleKey 7))) mutualSchedule).any (fun c =>
        decide (c.Quiet ∧
          (∀ t < c.state.reads, calmPlatform.clock t < tokenExpires calmPlatform.token) ∧
          ∀ ws ∈ ({0, 1, 2} : Finset SocketId),
            ¬ Routed c.state.info ws (hex (sampleKey 7)))) = true := by
    decide +kernel
  obtain ⟨c, hc, hrun⟩ := Option.any_eq_true .. |>.mp hrun
  obtain ⟨hfinished, hunexpired, hnone⟩ := of_decide_eq_true hrun
  refine ⟨c, mutualSchedule, runs_of_replay hc,
    ⟨⟨0, by decide⟩, fun ws hws => ?_, hfinished, hunexpired, fun _ _ => rfl⟩,
    fun ⟨ws, hws, hrouted⟩ => hnone ws hws hrouted⟩
  refine ⟨.binary (authFrame 7), ?_⟩
  simp only [Finset.mem_insert, Finset.mem_singleton] at hws
  obtain rfl | rfl | rfl := hws <;> simp [mutualSchedule, threeUpgrades, handled]

end IrohExperiment.Relay
