/-
# What an act changes (`worker/src/iroh-relay.js`)

`Alters` says how an act may change one socket: the many acts come down to nine
cases.  The other theorems say what acts do to the rest of the world.

An act is what a handler does in one step that nobody can observe the middle of.
`Act.alters` is the only proof that takes all acts apart; whatever is invariant is proved
from its nine cases and from the theorems about roster, wire, `meta` and alarm
(`Act.meta_cases`, `Act.mem_wire`).
-/
import IrohExperiment.Relay.Acts

namespace IrohExperiment.Relay

open Coop

variable {P : Platform} {κ : Trigger Event Point → World → Prop} {w w' : World}

/-! ## Sockets -/

/-- The attachments agree on the face of the socket and, until it is authenticated,
on its deadline. -/
structure Attachment.Alike (info info' : Attachment) : Prop where
  phase : info'.phase = info.phase
  id : info'.id = info.id
  archived : info'.archived = info.archived
  expires : info'.expires = info.expires
  challenge : info'.challenge = info.challenge
  handshake : info.phase ≠ .authenticated →
    info'.deadline = info.deadline ∧ info'.pendingPing = info.pendingPing

/-- What happens to the socket `ws` between `w` and `w'`. -/
inductive Alters (P : Platform) (κ : Trigger Event Point → World → Prop) (w w' : World)
    (ws : SocketId) : Prop
  | same (hsocket : w'.socket ws = w.socket ws)
  | touched {info info' : Attachment} {unsettled : List ℕ} (hinfo : w.info ws = some info)
      (hlive : info.archived = false) (halike : info.Alike info')
      (hbucket : info'.bucket ≤ max info.bucket (P.clock w.reads))
      (hunsettled : unsettled = (w.socket ws).unsettled ∨
        (unsettled = w.past.current :: (w.socket ws).unsettled ∧
          w.past.current ∉ (w.socket ws).unsettled ∧ w.event.isSome = true) ∨
        unsettled = (w.socket ws).unsettled.erase w.past.current)
      (hsocket : w'.socket ws =
        { w.socket ws with attachment := some info', unsettled := unsettled })
  | accepted {challenge : Bytes} {due bucket : ℕ} (hws : ws = w.count)
      (hcount : w'.count = w.count + 1) (hlength : challenge.length = 16)
      (hevent : ∃ r, w.event = some (.fetch r)) (hbucket : bucket ≤ P.clock w.reads)
      (hsocket : w'.socket ws =
        { Socket.none with
          attachment := some (.opening challenge due (tokenExpires P.token) bucket),
          opener := w.past.current, issued := challenge, due := due })
  | connected (hcount : ws < w.count)
      (hwire : ∃ e ∈ w.past.wire, e.target = ws ∧ e.bytes = challengeFrame (w.socket ws).issued)
      (hsocket : w'.socket ws = { w.socket ws with connected := true })
  | verify {info : Attachment} {frame : Bytes} (hinfo : w.info ws = some info)
      (hlive : info.archived = false) (hphase : info.phase = .challenge)
      (hevent : w.event = some (.message ws (.binary frame)))
      (hsocket : w'.socket ws =
        { w.socket ws with
          attachment := some { info with phase := .verifying }, authorizer := some w.past.current })
  | verified (hauthorizer : (w.socket ws).authorizer = some w.past.current)
      (hphase : ∃ info, w.info ws = some info ∧ info.phase = .verifying)
      (hsocket : w'.socket ws = { w.socket ws with verifiedAt := some w.reads })
  | claimed {info : Attachment} {id : Text} (hc : Claims P κ w ws info id)
      (hsole : ∀ T, T ≠ ws → Routed w'.info T id →
        ∃ old, old ≠ T ∧ Routed w.info T id ∧ Routed w.info old id)
      (hsocket : w'.socket ws =
        { w.socket ws with
          attachment := some (({ info with
            id := some id, phase := .authenticated, challenge := none,
            deadline := none } : Attachment).plus (Pi.single .auth 1)) })
      (hclaiming : w'.past.claiming = w.past.current :: w.past.claiming)
  | retired {info : Attachment} {seen : View} (hinfo : w.info ws = some info)
      (hlive : info.archived = false) (hevent : ∃ e, w.event = some e ∧ ∀ r, e ≠ .fetch r)
      (hsocket : w'.socket ws =
        { w.socket ws with
          attachment := some { info with archived := true },
          departure := .retired w.past.current seen })
  | departed (howner : (w.socket ws).departure.debtor = some w.past.current)
      (hnew : (w'.socket ws).departure.owner = some w.past.current)
      (htold : (w.socket ws).departure.told = true → (w'.socket ws).departure.told = true)
      (hview : (w'.socket ws).departure.view = (w.socket ws).departure.view)
      (hsocket : w'.socket ws =
        { w.socket ws with
          readyState := (w'.socket ws).readyState, closeFrame := (w'.socket ws).closeFrame,
          departure := (w'.socket ws).departure })

theorem Attachment.alike_plus (info : Attachment) (made : Counters) : info.Alike (info.plus made) :=
  ⟨rfl, rfl, rfl, rfl, rfl, fun _ => ⟨rfl, rfl⟩⟩

/-- Counting a message leaves phase, id and deadline alone. -/
theorem Reception.alike {ws bytes tested info info'} (h : Reception P w ws bytes tested info info')
    (made : Counters) : info.Alike (info'.plus made) := by
  obtain ⟨-, rfl⟩ | ⟨-, now, -, -, rfl⟩ := h.bucket <;>
    exact ⟨rfl, rfl, rfl, rfl, rfl, fun _ => ⟨rfl, rfl⟩⟩

/-- The bucket of a socket never begins in the future. -/
theorem Reception.bucket_le {ws bytes tested info info'}
    (h : Reception P w ws bytes tested info info') :
    info'.bucket ≤ max info.bucket (P.clock w.reads) := by
  obtain ⟨-, rfl⟩ | ⟨-, now, -, hnow, rfl⟩ := h.bucket
  · exact le_max_left _ _
  · exact hnow.trans (le_max_right _ _)

theorem Serves.event_isSome {ws info data} (h : Serves w ws info data) : w.event.isSome = true := by
  obtain ⟨m, hm, -⟩ := h.event
  simp [hm]

/-- A touch leaves a socket as it is, or rewrites the attachment of a live one. -/
def Touched (P : Platform) (w w' : World) (ws : SocketId) : Prop :=
  w'.socket ws = w.socket ws ∨ ∃ (info info' : Attachment) (unsettled : List ℕ),
    w.info ws = some info ∧ info.archived = false ∧ info.Alike info' ∧
      info'.bucket ≤ max info.bucket (P.clock w.reads) ∧
      (unsettled = (w.socket ws).unsettled ∨
        (unsettled = w.past.current :: (w.socket ws).unsettled ∧
          w.past.current ∉ (w.socket ws).unsettled ∧ w.event.isSome = true) ∨
        unsettled = (w.socket ws).unsettled.erase w.past.current) ∧
      w'.socket ws = { w.socket ws with attachment := some info', unsettled := unsettled }

/-- A touch of one socket. -/
theorem touched_one {T : SocketId} {info info' : Attachment} {unsettled : List ℕ}
    (hinfo : w.info T = some info) (hlive : info.archived = false) (halike : info.Alike info')
    (hbucket : info'.bucket ≤ max info.bucket (P.clock w.reads))
    (hunsettled : unsettled = (w.socket T).unsettled ∨
      (unsettled = w.past.current :: (w.socket T).unsettled ∧
        w.past.current ∉ (w.socket T).unsettled ∧ w.event.isSome = true) ∨
      unsettled = (w.socket T).unsettled.erase w.past.current)
    (hself : w'.socket T =
      { w.socket T with attachment := some info', unsettled := unsettled })
    (hothers : ∀ ws, ws ≠ T → w'.socket ws = w.socket ws) (ws : SocketId) : Touched P w w' ws := by
  by_cases hws : ws = T
  · subst hws
    exact .inr ⟨info, info', unsettled, hinfo, hlive, halike, hbucket, hunsettled, hself⟩
  · exact .inl (hothers ws hws)

/-- A touch rewrites the attachment of one live socket at most. -/
theorem Touch.touched (h : Touch P κ w w') (ws : SocketId) : Touched P w w' ws := by
  cases h with
  | @take T bytes tested info info' hr hbudget =>
    exact touched_one hr.stored hr.live (hr.alike (World.messageCounts bytes))
      hr.bucket_le (.inl rfl)
      (by simp [Attachment.plus]) (fun ws hws => by simp [hws]) ws
  | @refuse T bytes tested info info' hr =>
    exact touched_one hr.stored hr.live (hr.alike (World.messageCounts bytes))
      hr.bucket_le (.inl rfl)
      (by simp [Attachment.plus]) (fun ws hws => by simp [hws]) ws
  | @send T info bytes category about hs hinfo hlive =>
    exact touched_one hinfo hlive (info.alike_plus (World.sentCounts bytes category))
      (le_max_left _ _) (.inl rfl) (by simp [Attachment.plus]) (fun ws hws => by simp [hws]) ws
  | @count T info frame key hs =>
    obtain ⟨hs, -⟩ | ⟨hs, -⟩ := hs <;>
      exact touched_one hs.stored hs.live (info.alike_plus (Pi.single key 1)) (le_max_left _ _)
        (.inl rfl) (by simp [Attachment.plus]) (fun ws hws => by simp [hws]) ws
  | @datagram T info destination frame hs hfresh =>
    exact touched_one hs.stored hs.live (info.alike_plus (Pi.single .datagram 1)) (le_max_left _ _)
      (.inr (.inl ⟨rfl, hfresh, hs.event_isSome⟩)) (by simp [Attachment.plus])
      (fun ws hws => by simp [hws]) ws
  | @forward T info target other bytes hf =>
    obtain ⟨destination, frame, source, hs, -, hrouted, -⟩ := hf.datagram
    by_cases hws : ws = target
    · subst hws
      exact .inr ⟨_, _, _, hf.stored, hrouted.live_of_info hf.stored,
        other.alike_plus (World.sentCounts bytes none), le_max_left _ _, .inl rfl,
        by simp [hf.ne, Attachment.plus]⟩
    · by_cases hT : ws = T
      · subst hT
        exact .inr ⟨_, _, _, hs.stored, hs.live, info.alike_plus (Pi.single .forwarded 1),
          le_max_left _ _, .inr (.inr rfl), by simp [hws, Attachment.plus]⟩
      · exact .inl (by simp [hws, hT])
  | @drop T info destination frame hs hunsettled =>
    exact touched_one hs.stored hs.live (info.alike_plus (Pi.single .dropped 1)) (le_max_left _ _)
      (.inr (.inr rfl)) (by simp [Attachment.plus]) (fun ws hws => by simp [hws]) ws
  | @clear T info frame hs hpending =>
    have halike : info.Alike { info with pendingPing := none, deadline := none } :=
      ⟨rfl, rfl, rfl, rfl, rfl, fun h => absurd hs.phase h⟩
    exact touched_one hs.stored hs.live halike (le_max_left _ _) (.inl rfl) (by simp)
      (fun ws hws => by simp [hws]) ws
  | @arm T info ping deadline hevent hinfo hlive hphase =>
    have halike : info.Alike { info with pendingPing := some ping, deadline := some deadline } :=
      ⟨rfl, rfl, rfl, rfl, rfl, fun h => absurd hphase h⟩
    exact touched_one hinfo hlive halike (le_max_left _ _) (.inl rfl) (by simp)
      (fun ws hws => by simp [hws]) ws

/-- What a touch does to any socket. -/
theorem Touch.alters (h : Touch P κ w w') (ws : SocketId) : Alters P κ w w' ws := by
  obtain hsame | ⟨info, info', unsettled, hinfo, hlive, halike, hbucket, hunsettled, hsocket⟩ :=
    h.touched ws
  · exact .same hsame
  · exact .touched hinfo hlive halike hbucket hunsettled hsocket

/-- A step in the retirement of one socket. -/
theorem Alters.of_departed (T : SocketId)
    (howner : (w.socket T).departure.debtor = some w.past.current)
    (hnew : (w'.socket T).departure.owner = some w.past.current)
    (htold : (w.socket T).departure.told = true → (w'.socket T).departure.told = true)
    (hview : (w'.socket T).departure.view = (w.socket T).departure.view)
    (hself : w'.socket T =
      { w.socket T with
        readyState := (w'.socket T).readyState, closeFrame := (w'.socket T).closeFrame,
        departure := (w'.socket T).departure })
    (hothers : ∀ ws, ws ≠ T → w'.socket ws = w.socket ws) (ws : SocketId) :
    Alters P κ w w' ws := by
  by_cases hws : ws = T
  · subst hws
    exact .departed howner hnew htold hview hself
  · exact .same (hothers ws hws)

/-- What a step of a retirement does to any socket. -/
theorem Depart.alters (h : Depart P w w') (ws : SocketId) : Alters P κ w w' ws := by
  cases h with
  | @close T _ _ _ hdeparture =>
    exact .of_departed T (by simp [hdeparture, Departure.debtor])
      (by simp [hdeparture, Departure.owner]) (by simp) (by simp) (by simp)
        (fun ws hws => by simp [hws]) ws
  | @fold T _ _ _ hdeparture hinfo =>
    exact .of_departed T (by simp [hdeparture, Departure.debtor])
      (by simp [hdeparture, Departure.owner, Departure.fold]) (by simp [hdeparture, Departure.told])
      (by simp [hdeparture, Departure.fold, Departure.view]) (by simp)
        (fun ws hws => by simp [hws]) ws
  | @announcing T _ hdeparture =>
    exact .of_departed T (by simp [hdeparture, Departure.debtor])
      (by simp [hdeparture, Departure.owner, Departure.announce])
      (by simp [hdeparture, Departure.told])
      (by simp [hdeparture, Departure.announce, Departure.view]) (by simp)
        (fun ws hws => by simp [hws]) ws
  | @missed T _ _ _ _ hdeparture hn hthrows =>
    exact .of_departed T (by simp [hdeparture, Departure.debtor])
      (by simp [hdeparture, Departure.owner, Departure.miss])
      (by simp [hdeparture, Departure.miss, Departure.told])
      (by simp [hdeparture, Departure.miss, Departure.view]) (by simp)
      (fun ws hws => by simp [hws]) ws
  | @announced T _ _ hdeparture htold =>
    exact .of_departed T (by simp [hdeparture, Departure.debtor])
      (by simp [hdeparture, Departure.owner, Departure.conclude])
      (by simp [hdeparture, Departure.conclude, Departure.told])
      (by simp [hdeparture, Departure.conclude, Departure.view]) (by simp)
      (fun ws hws => by simp [hws]) ws

/-- Requests retire nobody. -/
theorem Cause.event {ws : SocketId} {info : Attachment} (h : Cause P κ w ws info) :
    ∃ e, w.event = some e ∧ ∀ r, e ≠ .fetch r := by
  cases h with
  | rejected hevent => exact ⟨_, hevent, nofun⟩
  | closed hevent => exact ⟨_, hevent, nofun⟩
  | failed hevent => exact ⟨_, hevent, nofun⟩
  | timedOut hevent => exact ⟨_, hevent, nofun⟩
  | unpinged hevent => exact ⟨_, hevent, nofun⟩
  | undeliverable hevent => exact ⟨_, hevent, nofun⟩
  | superseded hevent => exact ⟨_, hevent, nofun⟩

/-- An id is claimed by a message. -/
theorem Claims.event_eq {ws : SocketId} {info : Attachment} {id : Text}
    (h : Claims P κ w ws info id) : ∃ e, w.event = some e ∧ ∀ r, e ≠ .fetch r := by
  obtain ⟨frame, hevent, -⟩ := h.event
  exact ⟨_, hevent, nofun⟩

/-- What a step does to any socket: the only place where the steps are taken apart. -/
theorem Act.alters (h : Act P κ w w') (ws : SocketId) : Alters P κ w w' ws := by
  cases h with
  | @accept r room challenge due bucket hr hentering hlength hbucket =>
    by_cases hws : ws = w.count
    · have hsocket : (w.accepted (.opening challenge due room.expires bucket) challenge due).socket
          ws = { Socket.none with
            attachment := some (.opening challenge due (tokenExpires P.token) bucket),
            opener := w.past.current, issued := challenge, due := due } := by
        simp [hws, hr.expires]
      exact .accepted hws (by simp) hlength ⟨r, hr.event⟩ hbucket hsocket
    · exact .same (by simp [hws])
  | @connect T hcount _ hwire =>
    by_cases hws : ws = T
    · subst hws
      exact .connected hcount hwire (by simp)
    · exact .same (by simp [hws])
  | touch h => exact h.alters ws
  | @verify T frame info t hevent htaking hinfo hlive hphase ht hintime =>
    by_cases hws : ws = T
    · subst hws
      exact .verify hinfo hlive hphase hevent (by simp)
    · exact .same (by simp [hws])
  | @verified T frame id hauthorizer hphase hevent hvalid =>
    by_cases hws : ws = T
    · subst hws
      exact .verified hauthorizer hphase (by simp)
    · exact .same (by simp [hws])
  | @claim T info id hc hsole =>
    by_cases hws : ws = T
    · subst hws
      refine .claimed hc (fun T hT hrouted => absurd ?_ (hsole T hT)) (by simp) (by simp)
      simpa [Routed, World.info, hT] using hrouted
    · exact .same (by simp [hws])
  -- two sockets change at once, the claimant and the one retired for it
  | @reclaim T info id old other hc hne hother hrouted =>
    have hlive := hrouted.live_of_info hother
    by_cases hws : ws = T
    · subst hws
      refine .claimed hc (fun T hT hrouted' => ⟨old, ?_, ?_, hrouted⟩)
        (by simp [hne.symm]) (by simp)
      · rintro rfl
        obtain ⟨info', hinfo', -, harch, -⟩ := hrouted'
        obtain rfl : { other with archived := true } = info' := by simpa [World.info] using hinfo'
        cases harch
      · by_cases hold : T = old
        · exact hold ▸ hrouted
        · simpa [Routed, World.info, hT, hold] using hrouted'
    · by_cases hold : ws = old
      · subst hold
        exact .retired hother hlive hc.event_eq (by simp [hne]; rfl)
      · exact .same (by simp [hws, hold])
  | @retire T info hinfo hlive hcause =>
    by_cases hws : ws = T
    · subst hws
      exact .retired hinfo hlive hcause.event (by simp; rfl)
    · exact .same (by simp [hws])
  | depart h => exact h.alters ws
  | _ => exact .same (by simp)

/-! ## The rest of the world -/

/-- Handlers start no handlers. -/
theorem Act.arrivals_eq (h : Act P κ w w') : w'.past.arrivals = w.past.arrivals := by
  cases h with
  | touch h => cases h <;> simp
  | depart h => cases h <;> simp
  | _ => simp

theorem Act.current_eq (h : Act P κ w w') : w'.past.current = w.past.current := by
  cases h with
  | touch h => cases h <;> simp
  | depart h => cases h <;> simp
  | _ => simp

/-- Frames that were sent stay sent. -/
theorem Act.wire_prefix (h : Act P κ w w') : w.past.wire <+: w'.past.wire := by
  cases h with
  | touch h => cases h <;> simp
  | depart h => cases h <;> simp
  | _ => simp

/-- The clock is read on and on. -/
theorem Act.reads_le (h : Act P κ w w') : w.reads ≤ w'.reads := by
  cases h with
  | cursor h => exact h
  | touch h => cases h <;> simp
  | depart h => cases h <;> simp
  | _ => simp

theorem Act.pings_prefix (h : Act P κ w w') : w.past.pings <+: w'.past.pings := by
  cases h with
  | touch h => cases h <;> simp
  | depart h => cases h <;> simp
  | admitUpgrade =>
    simp
    split <;> simp
  | _ => simp

theorem Act.calls_le (h : Act P κ w w') : w.calls ≤ w'.calls := by
  cases h with
  | cursor _ h => exact h
  | touch h => cases h <;> simp
  | depart h => cases h <;> simp
  | _ => simp

theorem Act.event_eq (h : Act P κ w w') : w'.event = w.event := by
  rw [World.event, World.event, h.arrivals_eq, h.current_eq]

/-- The storage is deleted only when the room has been over for an hour. -/
theorem Act.wiped_cases (h : Act P κ w w') :
    w'.past.wiped = w.past.wiped ∨ w'.past.wiped = true ∧
      ∃ t < w.reads, tokenExpires P.token + historyTtl ≤ P.clock t := by
  cases h with
  | touch h => exact .inl (by cases h <;> simp)
  | depart h => exact .inl (by cases h <;> simp)
  | wipe _ ht hover => exact .inr ⟨by simp, _, ht, hover⟩
  | _ => exact .inl (by simp)

/-- A room that has been wiped stays wiped. -/
theorem Act.wiped_mono (h : Act P κ w w') (hwiped : w.past.wiped = true) :
    w'.past.wiped = true := by
  obtain h | ⟨h, -⟩ := h.wiped_cases
  · exact h.trans hwiped
  · exact h

theorem Renews.event_isSome {read new : RoomMeta} (h : Renews P w read new) :
    w.event.isSome = true := by
  cases h <;> simp_all

/-- `meta` is stored over a copy by one handler or by none. -/
theorem Act.writer_cases (h : Act P κ w w') :
    w'.past.metaWriters = w.past.metaWriters ∨
      w.event.isSome = true ∧ w'.past.metaWriters = w.past.current :: w.past.metaWriters := by
  cases h with
  | touch h => exact .inl (by cases h <;> simp)
  | depart h => exact .inl (by cases h <;> simp)
  | putMeta _ _ _ hr => exact .inr ⟨hr.event_isSome, by simp⟩
  | _ => exact .inl (by simp)

/-- A handler is admitted, or uses its admission up. -/
theorem Act.entering_cases (h : Act P κ w w') :
    w'.past.entering = w.past.entering ∨
      w'.past.entering = w.past.current :: w.past.entering ∨
      w'.past.entering = w.past.entering.erase w.past.current := by
  cases h with
  | admitUpgrade => exact .inr (.inl (by simp))
  | accept => exact .inr (.inr (by simp))
  | touch h => exact .inl (by cases h <;> simp)
  | depart h => exact .inl (by cases h <;> simp)
  | _ => exact .inl (by simp)

/-- The room gets one more socket or none. -/
theorem Act.roster_cases (h : Act P κ w w') :
    w'.count = w.count ∧ w'.listing = w.listing ∨
      w'.count = w.count + 1 ∧ w'.listing = w.listing ++ [w.count] ∧
        (w'.info w.count).isSome = true := by
  cases h with
  | accept => exact .inr (by simp [World.info])
  | touch h => exact .inl (by cases h <;> simp)
  | depart h => exact .inl (by cases h <;> simp)
  | _ => exact .inl (by simp)

/-- No socket is forgotten. -/
theorem Act.count_le (h : Act P κ w w') : w.count ≤ w'.count := by
  obtain ⟨h, -⟩ | ⟨h, -⟩ := h.roster_cases <;> omega

/-- A frame that may be put on the wire. -/
inductive Emits (P : Platform) (κ : Trigger Event Point → World → Prop) (w : World) : Sent → Prop
  | control {ws info bytes category about} (hs : Sends P κ w ws bytes category about)
      (hinfo : w.info ws = some info) (hlive : info.archived = false) :
      Emits P κ w ⟨w.past.current, ws, bytes, w.info, about⟩
  | datagram {ws info target other bytes} (hf : Forwards κ w ws info target other bytes) :
      Emits P κ w ⟨w.past.current, target, bytes, w.info, none⟩

/-- An act puts one frame on the wire or none. -/
theorem Act.wire_cases (h : Act P κ w w') :
    w'.past.wire = w.past.wire ∨ ∃ e, Emits P κ w e ∧ w'.past.wire = w.past.wire ++ [e] := by
  cases h with
  | touch h =>
    cases h with
    | send hs hinfo hlive => exact .inr ⟨_, .control hs hinfo hlive, by simp⟩
    | forward hf => exact .inr ⟨_, .datagram hf, by simp⟩
    | _ => exact .inl (by simp)
  | depart h => exact .inl (by cases h <;> simp)
  | _ => exact .inl (by simp)

/-- A frame on the wire was there before the act, or the act emits it. -/
theorem Act.mem_wire {e : Sent} (h : Act P κ w w') (he : e ∈ w'.past.wire) :
    e ∈ w.past.wire ∨ Emits P κ w e := by
  obtain hw | ⟨e', hemits, hw⟩ := h.wire_cases
  · exact .inl (hw ▸ he)
  · rw [hw, List.mem_append, List.mem_singleton] at he
    obtain he | rfl := he
    · exact .inl he
    · exact .inr hemits

/-- An act takes one message or none. -/
theorem Act.taken_cases (h : Act P κ w w') :
    w'.past.taken = w.past.taken ∨ ∃ ws bytes tested info info',
      Reception P w ws bytes tested info info' ∧
      overBudget (info'.plus (World.messageCounts bytes)) = false ∧
      w'.past.taken = w.past.taken ++ [⟨w.past.current, ws, bytes.length, tested⟩] := by
  cases h with
  | touch h =>
    cases h with
    | take hr hbudget => exact .inr ⟨_, _, _, _, _, hr, hbudget, by simp⟩
    | _ => exact .inl (by simp)
  | depart h => exact .inl (by cases h <;> simp)
  | _ => exact .inl (by simp)

/-- Messages that were taken stay taken. -/
theorem Act.taken_prefix (h : Act P κ w w') : w.past.taken <+: w'.past.taken := by
  obtain h | ⟨_, _, _, _, _, _, _, h⟩ := h.taken_cases <;> simp [h]

/-- What may happen to `meta`. -/
theorem Act.meta_cases (h : Act P κ w w') :
    (w'.storage.roomMeta = w.storage.roomMeta ∧ w'.past.pings = w.past.pings ∧
      w'.past.metaWriters = w.past.metaWriters) ∨
    (∃ r room createdAt, Requests P w r room ∧ w.storage.roomMeta = none ∧
      w'.storage.roomMeta = some ⟨room.expires, room.ping, createdAt, 0, none⟩ ∧
      w'.past.pings = w.past.pings ++ [room.ping] ∧
      w'.past.metaWriters = w.past.metaWriters) ∨
    (∃ read new, κ (.resume (.issued (.putMeta read))) w ∧ read.ping ∈ w.past.pings ∧
      read.expires = tokenExpires P.token ∧ Renews P w read new ∧
      w'.storage.roomMeta = some new ∧ w'.past.pings = w.past.pings ∧
      w'.past.metaWriters = w.past.current :: w.past.metaWriters) ∨
    (w'.storage.roomMeta = none ∧ w'.past.wiped = true ∧ w'.past.pings = w.past.pings) := by
  cases h with
  | @admitUpgrade r room created w₀ hr hattempts hlive hmeta hκ hlater =>
    cases created with
    | none => exact .inl (by simp)
    | some createdAt =>
      obtain ⟨hnone, -⟩ | ⟨-, hcreated⟩ := hmeta
      · exact .inr (.inl ⟨r, room, createdAt, hr, hnone, by simp, by simp, by simp⟩)
      · cases hcreated
  | touch h => exact .inl (by cases h <;> simp)
  | depart h => exact .inl (by cases h <;> simp)
  | putMeta hκ hping hexpires hr =>
    exact .inr (.inr (.inl ⟨_, _, hκ, hping, hexpires, hr, by simp, by simp, by simp⟩))
  | wipe => exact .inr (.inr (.inr (by simp)))
  | _ => exact .inl (by simp)

/-- The alarm is set for a room that has a `meta`, or had one. -/
theorem Act.alarm_cases (h : Act P κ w w') :
    w'.storage.alarm = w.storage.alarm ∨
      w.storage.roomMeta.isSome = true ∨ w.past.wiped = true := by
  cases h with
  | setAlarm hmeta => exact .inr hmeta
  | touch h => exact .inl (by cases h <;> simp)
  | depart h => exact .inl (by cases h <;> simp)
  | _ => exact .inl (by simp)

/-- What may happen to the registered identities. -/
theorem Act.ids_cases (h : Act P κ w w') :
    w'.ids = w.ids ∨
    (∃ ws frame id, w.event = some (.message ws (.binary frame)) ∧
      ValidAuth P (w.socket ws).issued frame id ∧ id ∉ w.ids ∧ w.ids.length < 2 ∧
      w'.ids = w.ids ++ [id]) ∨
    w'.past.wiped = true := by
  cases h with
  | identify _ hevent hvalid hnew hroom =>
    exact .inr (.inl ⟨_, _, _, hevent, hvalid, hnew, hroom, by simp [World.ids]⟩)
  | touch h => exact .inl (by cases h <;> simp [World.ids])
  | depart h => exact .inl (by cases h <;> simp [World.ids])
  | wipe => exact .inr (.inr (by simp))
  | _ => exact .inl (by simp [World.ids])

end IrohExperiment.Relay
