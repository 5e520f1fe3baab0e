/-
# `schedule` and `finish` keep their contracts (`worker/src/iroh-relay.js`)

`finish` archives a socket at once, adds its counters to those of the closed
sockets, and tells every other routed endpoint.  Its callers say why the socket
is retired; in return everything that was in their care is as they left it.

`schedule_ensures` and `finish_ensures` are the two contracts that callers cite.  `finish`
is followed through its awaits: the close, the counters, each of the others that is told,
and the alarm (`windUp_ensures`).
-/
import IrohExperiment.Relay.Judgement

namespace IrohExperiment.Relay

open Coop Coroutine

variable {P : Platform} {κ : Trigger Event Point → World → Prop} {h : ℕ}
  {Q : α → World → Prop} {E : Fault → World → Prop} {s₀ w w' : World}

/-! ## Single steps -/

/-- A step that leaves all sockets, the wire and the lists of handlers alone. -/
theorem Since.of_same (hext : w.Extends w') (hsocket : w'.socket = w.socket)
    (hentering : w'.past.entering = w.past.entering)
    (hwriters : w'.past.metaWriters = w.past.metaWriters) (hwire : w'.past.wire = w.past.wire) :
    Since h w w' := by
  have hinfo : w'.info = w.info := by
    funext ws
    rw [World.info, World.info, hsocket]
  refine ⟨hext, ⟨fun ws => by rw [hsocket], by rw [hentering], by rw [hwriters],
    fun ws => by rw [hsocket]; exact id, fun ws _ => by rw [hsocket], fun ws _ i i' hi hi' => ?_,
    fun ws _ hc => ?_⟩, fun ws => by rw [World.Owes, World.Owes, hsocket]; exact id⟩
  · rw [hinfo] at hi'
    rw [Option.some.inj (hi.symm.trans hi')]
  · rwa [World.Confirmed, hwire] at hc

theorem Act.tick : Act P κ w w.tick := .cursor (Nat.le_succ _) le_rfl le_rfl

theorem Act.call : Act P κ w w.call := .cursor le_rfl (Nat.le_succ _) le_rfl

theorem since_tick (hw : At P κ h s₀ w) : Since h w w.tick :=
  .of_same ((Act.tick (κ := κ)).extends hw.inv) rfl rfl rfl rfl

theorem since_call (hw : At P κ h s₀ w) : Since h w w.call :=
  .of_same ((Act.call (κ := κ)).extends hw.inv) rfl rfl rfl rfl

/-- Setting the alarm is no other handler's business. -/
theorem since_setAlarm (hw : At P κ h s₀ w)
    (hmeta : w.storage.roomMeta.isSome = true ∨ w.past.wiped = true) (time : ℕ) :
    Since h w (w.setAlarm time) :=
  .of_same (Act.extends (κ := κ) hw.inv (.setAlarm hmeta)) rfl rfl rfl rfl

/-! ## `schedule` -/

/-- `schedule` changes the alarm and nothing else. -/
theorem schedule_ensures (hw : At P κ h s₀ w) :
    Ensures P κ h (fun _ s => Since h w s) E s₀ (schedule P w) := by
  refine .bind (Q := fun m s => Since h w s ∧
    (m.isSome = true → s.storage.roomMeta.isSome = true ∨ s.past.wiped = true)) ?_ ?_
  · refine .request hw fun s s₁ hs hk _ => .gets hs fun s' hs' hk' _ => ?_
    exact ⟨hk.since.trans hw.inv hk'.since, hk'.extends_.roomMeta⟩
  · rintro (_ | m) s s₁ hs ⟨hsince, hm⟩
    · exact .pure hs hsince
    · refine .step rfl (.step rfl ?_)
      refine .request (hs.act .tick) fun s' s₂ hs' hk _ => ?_
      have hstored : s'.storage.roomMeta.isSome = true ∨ s'.past.wiped = true :=
        (hm rfl).elim hk.extends_.roomMeta fun hw => .inr (hk.extends_.wiped hw)
      change Ensures P κ h _ _ s₂
        (.done () (s'.setAlarm (max (P.clock s.reads + 1) (nextAlarm m s.active))))
      refine .act hs' (.setAlarm hstored) fun hs'' s'' _ hk' _ => ?_
      exact (((hsince.trans hw.inv (since_tick hs)).trans hw.inv hk.since).trans hw.inv
        (since_setAlarm hs' hstored _)).trans hw.inv hk'.since

/-! ## Steps of `finish` -/

/-- `send` either throws with nothing sent, or sends and counts. -/
theorem send_eq {ws : SocketId} {info : Attachment} (hinfo : w.info ws = some info) (bytes : Bytes)
    (category : Option Counter) (about : Option SocketId) :
    send P ws bytes category about w =
      if P.throws w.calls then .fail .sendFailed w.call
      else .done () (w.call.sent ws info bytes category about) := by
  cases hthrows : P.throws w.calls <;> cases category <;>
    simp [send, attachment, wsSend, hinfo, hthrows, increment, serializeAttachment, World.sent,
      World.amend, World.sentCounts, Attachment.plus, World.charge, add_assoc]

/-- A step of `h` that leaves what is in its care alone, its retirements apart. -/
theorem Spares.of_sockets (hunsettled : ∀ ws, (w'.socket ws).unsettled = (w.socket ws).unsettled)
    (hauthorizer : ∀ ws, (w'.socket ws).authorizer = (w.socket ws).authorizer)
    (hverified : ∀ ws, (w'.socket ws).verifiedAt = (w.socket ws).verifiedAt)
    (hphase : ∀ ws, (w'.info ws).map (·.phase) = (w.info ws).map (·.phase))
    (hentering : w'.past.entering = w.past.entering)
    (hwriters : w'.past.metaWriters = w.past.metaWriters)
    (hconfirmed : ∀ ws, w'.Confirmed ws → w.Confirmed ws) : Spares h w w' := by
  refine ⟨fun ws => by rw [hunsettled], by rw [hentering], by rw [hwriters],
    fun ws => by rw [hauthorizer]; exact id, fun ws _ => hverified ws, fun ws _ i i' hi hi' => ?_,
    fun ws _ => hconfirmed ws⟩
  have hp := hphase ws
  rw [hi, hi'] at hp
  exact Option.some.inj hp

/-- A step of a retirement concerns sockets whose retirement the handler owes. -/
theorem Depart.socket_cases (hd : Depart P w w') (ws : SocketId) :
    w'.socket ws = w.socket ws ∨ (w.socket ws).departure.debtor = some w.past.current := by
  cases hd with
  | @close T _ _ _ hdeparture
  | @fold T _ _ _ hdeparture
  | @announcing T _ hdeparture
  | @missed T _ _ _ _ hdeparture
  | @announced T _ _ hdeparture =>
    by_cases hws : ws = T
    · exact .inr (by simp [hws, hdeparture, Departure.debtor])
    · exact .inl (by simp [hws])

/-- A step of a retirement changes nothing else that is in the care of the handler. -/
theorem Depart.spares (hd : Depart P w w') : Spares h w w' := by
  cases hd <;>
    refine .of_sockets (fun ws => ?_) (fun ws => ?_) (fun ws => ?_) (fun ws => ?_) (by simp)
      (by simp) (fun ws => by simp [World.Confirmed]) <;>
    simp [Function.update_apply, World.info] <;> split <;> simp_all

/-- A step of a retirement may be taken without giving up anything the handler relies on. -/
theorem Depart.since (hw : At P κ h s₀ w) (hd : Depart P w w') : Since h w w' := by
  refine ⟨(Act.depart (κ := κ) hd).extends hw.inv, hd.spares, fun ws ho => ?_⟩
  obtain hsocket | hdebtor := hd.socket_cases ws
  · rwa [World.Owes, hsocket] at ho
  · exact hdebtor.trans (congrArg some hw.current)

/-- Beginning a retirement changes nothing else that is in the care of the handler. -/
theorem retired_spares (w : World) {ws : SocketId} {info : Attachment}
    (hinfo : w.info ws = some info) : Spares h w (w.retired ws info) := by
  simp only [World.info] at hinfo
  refine .of_sockets (fun ws => ?_) (fun ws => ?_) (fun ws => ?_) (fun ws => ?_) (by simp)
      (by simp) (fun ws => by simp [World.Confirmed]) <;>
    simp [Function.update_apply, World.info] <;> split <;> simp_all

/-- A frame other than a confirmation is sent by `h`. -/
theorem sent_since (hw : At P κ h s₀ w) {ws : SocketId} {info : Attachment} {bytes : Bytes}
    {category : Option Counter} {about : Option SocketId} (hinfo : w.info ws = some info)
    (hbytes : bytes ≠ [2]) (ha : Act P κ w (w.sent ws info bytes category about)) :
    Since h w (w.sent ws info bytes category about) := by
  simp only [World.info] at hinfo
  refine ⟨ha.extends hw.inv, ?_, fun ws ho => ?_⟩
  · refine .of_sockets (fun ws => ?_) (fun ws => ?_) (fun ws => ?_) (fun ws => ?_) (by simp)
      (by simp) (fun ws => ?_)
    rotate_right
    · simp [World.Confirmed, hbytes]
    all_goals
      simp [Function.update_apply, World.info, Attachment.plus]
      split <;> simp_all
  · simp [World.Owes, Function.update_apply] at ho ⊢
    split at ho <;> simp_all

/-- The attachment of an archived socket is final. -/
theorem World.Extends.info_archived (h : w.Extends w') (hI : Inv P w) {ws : SocketId}
    {info : Attachment} (hinfo : w.info ws = some info) (harch : info.archived = true) :
    w'.info ws = some info :=
  (h.socket ws ((hI.known ws).mpr (by rw [hinfo]; rfl))).archived info hinfo harch

/-! ## `finish` -/

/-- A handler is entered again on the event that it was started on. -/
theorem At.event (hw : At P κ h s₀ w) {e : Event} (he : w.past.arrivals[h]? = some e) :
    w.event = some e := by
  rw [World.event, hw.current, he]

/-- The steps of a retirement behind its first leave the attachments alone. -/
theorem Depart.info_eq (hd : Depart P w w') : w'.info = w.info := by
  funext ws
  cases hd <;> simp only [World.info, World.close_socket, World.folded_socket,
    World.depart_socket, World.setStorage_socket, Function.update_apply] <;> split <;> simp_all

/-- Sending does not change who is routed. -/
theorem routed_sent {ws : SocketId} {info : Attachment} (hinfo : w.info ws = some info)
    (bytes : Bytes) (category : Option Counter) (about : Option SocketId) (T : SocketId)
    (id : Text) :
    Routed (w.sent ws info bytes category about).info T id ↔ Routed w.info T id := by
  simp only [World.info] at hinfo
  by_cases hT : T = ws
  · subst hT
    simp [Routed, World.info, hinfo, Attachment.plus]
  · simp [Routed, World.info, hT]

/-- `h` is telling the others that `ws` is gone, in a stretch that began in `w₀`. -/
structure Telling (h : ℕ) (e : Event) (ws : SocketId) (id : Text) (seen : View)
    (missed : List SocketId) (w₀ w : World) : Prop where
  event : w.past.arrivals[h]? = some e
  speaker : ∀ S, e.socket = some S → ∃ id, Authenticated w.info S id
  gone : Authenticated w.info ws id
  departure : (w.socket ws).departure = .announcing h seen missed
  calm : w₀.Calm w

/-- Between `w` and `s` the endpoints among `peers` were told, or could not be. -/
structure Told (h : ℕ) (ws : SocketId) (id : Text) (seen : View) (missed peers : List SocketId)
    (w s : World) : Prop where
  since : Since h w s
  routed : ∀ T id, Routed s.info T id → Routed w.info T id
  told : ∃ missed', missed ⊆ missed' ∧ (s.socket ws).departure = .announcing h seen missed' ∧
    ∀ peer ∈ peers, peer ≠ ws → ∀ id', Routed w.info peer id' → id' ≠ id →
      peer ∈ missed' ∨ ∃ e ∈ s.past.wire, e.target = peer ∧ e.about = some ws

/-- One more is told before the others are. -/
theorem Told.cons {ws peer : SocketId} {id : Text} {seen : View}
    {missed missed₁ rest : List SocketId} {s : World} (hI : Inv P w) (hsince : Since h w w')
    (hsub : missed ⊆ missed₁) (hr : ∀ T id, Routed w'.info T id ↔ Routed w.info T id)
    (hpeer : peer ≠ ws → ∀ id', Routed w.info peer id' → id' ≠ id →
      peer ∈ missed₁ ∨ ∃ e ∈ w'.past.wire, e.target = peer ∧ e.about = some ws)
    (ht : Told h ws id seen missed₁ rest w' s) : Told h ws id seen missed (peer :: rest) w s := by
  obtain ⟨hsince', hr', missed', hsub', hd, htold⟩ := ht
  refine ⟨hsince.trans hI hsince', fun T id hT => (hr T id).mp (hr' T id hT), missed',
    List.Subset.trans hsub hsub', hd, fun T hT hne id' hrouted hid => ?_⟩
  obtain rfl | hT := List.mem_cons.mp hT
  · obtain hm | ⟨e', he', ht⟩ := hpeer hne id' hrouted hid
    · exact .inl (hsub' hm)
    · exact .inr ⟨e', hsince'.extends_.wire.subset he', ht⟩
  · exact htold T hT hne id' ((hr T id').mpr hrouted) hid

/-- Telling goes on after a step that changes no route. -/
theorem Telling.step {e : Event} {ws : SocketId} {id : Text} {seen : View}
    {missed missed₁ : List SocketId} {w₀ : World} (hI : Inv P w) (hext : w.Extends w')
    (hr : ∀ T id, Routed w'.info T id ↔ Routed w.info T id)
    (hd : (w'.socket ws).departure = .announcing h seen missed₁)
    (ht : Telling h e ws id seen missed w₀ w) : Telling h e ws id seen missed₁ w₀ w' where
  event := hext.event ht.event
  speaker S hS := by
    obtain ⟨id', hid'⟩ := ht.speaker S hS
    exact ⟨id', hext.authenticated hI hid'⟩
  gone := hext.authenticated hI ht.gone
  departure := hd
  calm := ⟨fun T id hT => ht.calm.routed T id ((hr T id).mp hT),
    fun T hT => hext.confirmed (ht.calm.confirmed T hT)⟩

/-- The loop of `finish` tells every other routed endpoint. -/
theorem announce_ensures {ws : SocketId} {id : Text} {e : Event} {seen : View} {w₀ : World}
    (hκ : κ (.resume (.answered (.fold ws (some id)))) w₀) {peers : List SocketId} {s₀ w : World}
    {missed : List SocketId} (hw : At P κ h s₀ w) (ht : Telling h e ws id seen missed w₀ w)
    (hnodup : peers.Nodup)
    (hfirst : ∀ e ∈ w.past.wire, e.about = some ws → e.target ∉ peers) :
    Ensures P κ h (fun _ s => Told h ws id seen missed peers w s) E s₀
      (announce P ws id peers w) := by
  induction peers generalizing s₀ w missed with
  | nil =>
    exact .pure hw ⟨since_refl h w, fun _ _ hr => hr, missed, List.Subset.refl _, ht.departure,
      by simp⟩
  | cons peer rest ih =>
    obtain ⟨hpeer, hnodup⟩ := List.nodup_cons.mp hnodup
    -- once `peer` has been dealt with, in whatever way, the rest follows
    have go : ∀ w₁ missed₁, At P κ h s₀ w₁ → Since h w w₁ → missed ⊆ missed₁ →
        (w₁.socket ws).departure = .announcing h seen missed₁ →
        (∀ T id, Routed w₁.info T id ↔ Routed w.info T id) →
        (∀ e ∈ w₁.past.wire, e ∈ w.past.wire ∨ e.target = peer) →
        (peer ≠ ws → ∀ id', Routed w.info peer id' → id' ≠ id →
          peer ∈ missed₁ ∨ ∃ e ∈ w₁.past.wire, e.target = peer ∧ e.about = some ws) →
        Ensures P κ h (fun _ s => Told h ws id seen missed (peer :: rest) w s) E s₀
          (announce P ws id rest w₁) := by
      intro w₁ missed₁ hw₁ hsince₁ hsub₁ hd₁ hr₁ hwire₁ htold₁
      refine (ih hw₁ (ht.step hw.inv hsince₁.extends_ hr₁ hd₁) hnodup fun e' he' ha hmem => ?_).mono
        (fun _ s _ _ hs => hs.cons hw.inv hsince₁ hsub₁ hr₁ htold₁) fun _ _ _ _ hE => hE
      obtain hold | htarget := hwire₁ e' he'
      · exact hfirst e' hold ha (List.mem_cons_of_mem _ hmem)
      · exact hpeer (htarget ▸ hmem)
    refine .step rfl ?_
    cases hb : (decide (peer ≠ ws) && (w.info peer).any fun other =>
        other.isRouted && decide (other.id ≠ some id)) with
    | false =>
      refine .step (a := ()) (by rw [when_false]; rfl) ?_
      refine go w missed hw (since_refl h w) (List.Subset.refl _) ht.departure (fun _ _ => Iff.rfl)
        (fun _ => .inl) fun hne id' hrouted hid => ?_
      obtain ⟨other, hother, hphase, harch, hother_id⟩ := hrouted
      simp [hne, hother, Attachment.isRouted, hphase, harch, hother_id, hid] at hb
    | true =>
      rw [Bool.and_eq_true, decide_eq_true_eq, Option.any_eq_true] at hb
      obtain ⟨hne, other, hother, hb⟩ := hb
      obtain ⟨hphase, harch⟩ : other.phase = .authenticated ∧ other.archived = false := by
        simpa [Attachment.isRouted] using (Bool.and_eq_true_iff.mp hb).1
      have hid : other.id ≠ some id := of_decide_eq_true (Bool.and_eq_true_iff.mp hb).2
      obtain ⟨key, hkey, -⟩ := (hw.inv.shape peer other hother).identity hphase
      have hcall := hw.act .call
      cases hthrows : P.throws w.calls with
      | true =>
        have hd : Depart P w.call (w.call.depart ws (.miss peer)) :=
          .missed (hw.current ▸ ht.departure) (Nat.lt_succ_self _) hthrows
        refine .step (a := ()) (u := w.call.depart ws (.miss peer)) ?_ ?_
        · simp [when_true, send_eq hother, hthrows, mark, World.depart]
        · refine go _ (peer :: missed) (hcall.act (.depart hd))
            ((since_call hw).trans hw.inv (hd.since hcall)) (List.subset_cons_self _ _) ?_
            (fun T id' => by rw [hd.info_eq]; rfl) (fun e he => .inl (by simpa using he))
            fun _ _ _ _ => .inl List.mem_cons_self
          simp [ht.departure, Departure.miss]
      | false =>
        have hsend : Sends P κ w.call peer (8 :: unhex id) (some .endpointGone) (some ws) :=
          .gone (hw.current ▸ ht.departure) ht.gone ⟨other, hother, hphase, harch, hkey⟩
            (fun heq => hid (heq ▸ hkey))
            (fun e he ht ha => hfirst e he ha (ht ▸ List.mem_cons_self))
            (fun S hS => ht.speaker S (by
              rw [show w.call.event = some e from hw.event ht.event] at hS
              exact hS))
            hκ ⟨ht.calm.routed, ht.calm.confirmed⟩
        have hact : Act P κ w.call
            (w.call.sent peer other (8 :: unhex id) (some .endpointGone) (some ws)) :=
          .touch (.send hsend hother harch)
        refine .step (a := ())
          (u := w.call.sent peer other (8 :: unhex id) (some .endpointGone) (some ws)) ?_ ?_
        · simp [when_true, send_eq hother, hthrows]
        · refine go _ missed (hcall.act hact) ((since_call hw).trans hw.inv
            (sent_since hcall hother (by simp) hact)) (List.Subset.refl _) ?_
            (fun T id' => routed_sent (w := w.call) hother _ _ _ T id') (fun e he => ?_)
            fun _ _ _ _ => .inr ⟨⟨w.past.current, peer, 8 :: unhex id, w.call.info, some ws⟩,
              by simp, rfl, rfl⟩
          · simpa [Function.update_of_ne hne.symm] using ht.departure
          · simp at he
            exact he.imp_right fun he => by rw [he]

/-- The connection of a retired socket is closed, whether or not that throws. -/
theorem closing_ensures {ws : SocketId} {info : Attachment} {seen : View} (hw : At P κ h s₀ w)
    (hinfo : w.info ws = some info) (hdeparture : (w.socket ws).departure = .retired h seen)
    (code : ℕ) (reason : Text) :
    ∃ w₁, ((wsClose P ws code reason).rescue fun _ => pure ()) w = .done () w₁ ∧ At P κ h s₀ w₁ ∧
      Since h w w₁ ∧ w₁.info ws = some info ∧ (w₁.socket ws).departure = .retired h seen := by
  have hcall := hw.act .call
  cases hthrows : P.throws w.calls with
  | true => exact ⟨w.call, by simp [wsClose, hthrows], hcall, since_call hw, hinfo, hdeparture⟩
  | false =>
    have hd : Depart P w.call (w.call.close ws code reason) := .close (hw.current ▸ hdeparture)
    refine ⟨_, by simp [wsClose, hthrows], hcall.act (.depart hd),
      (since_call hw).trans hw.inv (hd.since hcall), by rw [hd.info_eq]; exact hinfo, ?_⟩
    simpa using hdeparture

/-- The counters of a retired socket are added to those of the closed sockets, and the handler
goes on under the condition of its schedule. -/
theorem folding_ensures {ws : SocketId} {info : Attachment} {seen : View} (hw : At P κ h s₀ w)
    (hinfo : w.info ws = some info) (harch : info.archived = true)
    (hdeparture : (w.socket ws).departure = .retired h seen) (code : ℕ) (reason : Text) :
    Ensures P κ h (fun _ s => Since h w s ∧ s.info ws = some info ∧
        (s.socket ws).departure = .folded h seen ∧ κ (.resume (.answered (.fold ws info.id))) s) E
          s₀
      (request (.fold ws info.id) (do
        let now ← dateNow P
        writeStorage fun s =>
          { s with closed := some (foldClosed s.closed info ⟨now, code, reason.take 120, info.id⟩) }
        mark ws fun _ s => { s with departure := s.departure.fold }) w) := by
  refine .request hw fun s s₁ hs hk _ => ?_
  have hret : (s.socket ws).departure = .retired h seen := by
    rw [hk.departure ws (.inl (by rw [hdeparture]; rfl)), hdeparture]
  have hd : Depart P s.tick (s.tick.folded ws info
      ⟨P.clock s.reads, code, reason.take 120, info.id⟩) :=
    .fold (hs.current.symm ▸ hret) (hk.extends_.info_archived hw.inv hinfo harch)
  have hs' := (hs.act .tick).act (.depart hd)
  change Ensures P κ h _ _ s₁ (.done () (s.tick.folded ws info
    ⟨P.clock s.reads, code, reason.take 120, info.id⟩))
  refine .done hs' fun s'' hs'' hk' hκ => ⟨?_, ?_, ?_, hκ⟩
  · exact ((hk.since.trans hw.inv (since_tick hs)).trans hw.inv
      (hd.since (hs.act .tick))).trans hw.inv hk'.since
  · refine hk'.extends_.info_archived hs'.inv ?_ harch
    rw [hd.info_eq]
    exact hk.extends_.info_archived hw.inv hinfo harch
  · have hfolded : ((s.tick.folded ws info
        ⟨P.clock s.reads, code, reason.take 120, info.id⟩).socket ws).departure =
        .folded h seen := by
      simp [hret, Departure.fold]
    rw [hk'.departure ws (.inl (by rw [hfolded]; rfl)), hfolded]

/-- The others are told that the endpoint of a retired socket is gone, if it has one. -/
theorem telling_ensures {ws : SocketId} {info : Attachment} {e : Event} {seen : View}
    (hw : At P κ h s₀ w) (he : w.past.arrivals[h]? = some e)
    (hspeaker : ∀ S, e.socket = some S → S = ws ∨ ∃ id, Authenticated w.info S id)
    (hinfo : w.info ws = some info) (harch : info.archived = true)
    (hdeparture : (w.socket ws).departure = .folded h seen)
    (hκ : κ (.resume (.answered (.fold ws info.id))) w) :
    Ensures P κ h (fun _ s => Since h w s ∧ ∃ missed,
        (s.socket ws).departure = .announcing h seen missed ∧
        ∀ id, Authenticated s.info ws id → ∀ peer id', peer ≠ ws → Routed s.info peer id' →
          id' ≠ id → peer ∈ missed ∨ ∃ e ∈ s.past.wire, e.target = peer ∧ e.about = some ws) E s₀
      ((match info.id with
        | some id => do
          let peers ← getWebSockets
          announce P ws id peers
        | none => pure () : Async Unit) (w.depart ws .announce)) := by
  have hd : Depart P w (w.depart ws .announce) := .announcing (hw.current ▸ hdeparture)
  have hw₁ := hw.act (.depart hd)
  have hsince := hd.since hw
  have hdep : ((w.depart ws .announce).socket ws).departure = .announcing h seen [] := by
    simp [hdeparture, Departure.announce]
  have hinfo₁ : (w.depart ws .announce).info ws = some info := by rw [hd.info_eq, hinfo]
  cases hid : info.id with
  | none =>
    refine .pure hw₁ ⟨hsince, [], hdep, fun id hauth => ?_⟩
    obtain ⟨info', hinfo', -, hid'⟩ := hauth
    obtain rfl := Option.some.inj (hinfo₁.symm.trans hinfo')
    rw [hid] at hid'
    cases hid'
  | some id =>
    have hphase : info.phase = .authenticated := by
      by_contra hp
      rw [((hw₁.inv.shape ws info hinfo₁).handshake hp).1] at hid
      cases hid
    have hgone : Authenticated (w.depart ws .announce).info ws id := ⟨info, hinfo₁, hphase, hid⟩
    have ht : Telling h e ws id seen [] w (w.depart ws .announce) := by
      refine ⟨hsince.extends_.event he, fun S hS => ?_, hgone, hdep, ⟨fun T id' hT => ?_,
        fun T hT => hsince.extends_.confirmed hT⟩⟩
      · obtain rfl | ⟨id', hid'⟩ := hspeaker S hS
        · exact ⟨id, hgone⟩
        · exact ⟨id', hsince.extends_.authenticated hw.inv hid'⟩
      · rwa [hd.info_eq] at hT
    refine .step rfl ?_
    refine (announce_ensures (hid ▸ hκ) hw₁ ht hw₁.inv.nodup fun e' he' ha => ?_).mono ?_
      fun _ _ _ _ hE => hE
    · have htold := hw.inv.about e' (by simpa using he') ws ha
      rw [hdeparture] at htold
      cases htold
    · rintro - s s₁ hs ⟨hsince₁, hr, missed, -, hdep₁, htold⟩
      refine ⟨hsince.trans hw.inv hsince₁, missed, hdep₁,
        fun id'' hauth peer id' hne hrouted hne' => ?_⟩
      obtain ⟨info', hinfo', -, hid'⟩ := hauth
      have harch' := hsince₁.extends_.info_archived hw₁.inv hinfo₁ harch
      obtain rfl := Option.some.inj (harch'.symm.trans hinfo')
      obtain rfl := Option.some.inj (hid.symm.trans hid')
      have hrouted' := hr peer id' hrouted
      exact htold peer (hw₁.inv.lists peer hrouted'.live) hne id' hrouted' hne'

/-- The rest of `finish` after a socket was archived: at the end nobody else has to
be told. -/
theorem windUp_ensures {ws : SocketId} {info : Attachment} {e : Event} {seen : View}
    (hw : At P κ h s₀ w) (he : w.past.arrivals[h]? = some e)
    (hspeaker : ∀ S, e.socket = some S → S = ws ∨ ∃ id, Authenticated w.info S id)
    (hinfo : w.info ws = some info) (harch : info.archived = true)
    (hdeparture : (w.socket ws).departure = .retired h seen) (code : ℕ) (reason : Text) :
    Ensures P κ h (fun _ s => Since h w s ∧ ¬ s.Owes h ws) E s₀
      (windUp P ws code reason info w) := by
  obtain ⟨w₁, hrun, hw₁, hsince₁, hinfo₁, hd₁⟩ :=
    closing_ensures hw hinfo hdeparture (closeCode code) reason
  refine .step hrun (.bind (folding_ensures hw₁ hinfo₁ harch hd₁ code reason) ?_)
  rintro - s s₁ hs ⟨hsince, hinfo, hd, hκ⟩
  have hsince₂ := hsince₁.trans hw.inv hsince
  refine .step (a := ()) (u := s.depart ws .announce) rfl ?_
  refine .bind (telling_ensures hs (hsince₂.extends_.event he) (fun S hS => ?_) hinfo
    harch hd hκ) ?_
  · exact (hspeaker S hS).imp_right fun ⟨id, hid⟩ => ⟨id, hsince₂.extends_.authenticated hw.inv hid⟩
  rintro - s' s₃ hs₃ ⟨hsince₃, missed, hdep, htold⟩
  have hd₃ : Depart P s' (s'.depart ws (.conclude s'.info)) :=
    .announced (hs₃.current ▸ hdep) htold
  have hs₄ := hs₃.act (.depart hd₃)
  refine .step (a := ()) (u := s'.depart ws (.conclude s'.info)) rfl ?_
  refine .await ((schedule_ensures hs₄).mono ?_ fun _ _ _ _ hE => hE)
  rintro - s₅ - - hsince₅ s₆ - hk _
  have hsince₄ := (hsince₂.trans hw.inv hsince₃).trans hw.inv (hd₃.since hs₃)
  refine ⟨hsince₄.trans hw.inv (hsince₅.trans hs₄.inv hk.since), fun ho => ?_⟩
  have ho' := hsince₅.owes ws (hk.since.owes ws ho)
  simp [World.Owes, hdep, Departure.conclude, Departure.debtor] at ho'

/-- `finish` of a live socket archives it and winds it up. -/
theorem finish_live {ws : SocketId} {info : Attachment} (hinfo : w.info ws = some info)
    (hlive : info.archived = false) (code : ℕ) (reason : Text) :
    finish P ws code reason w =
      windUp P ws code reason { info with archived := true } (w.retired ws info) := by
  simp [finish, attachment, hinfo, hlive, serializeAttachment, mark, World.retired]

/-- `finish` of an archived socket does nothing: no socket is retired twice. -/
theorem finish_archived {ws : SocketId} {info : Attachment} (hinfo : w.info ws = some info)
    (harch : info.archived = true) (code : ℕ) (reason : Text) :
    finish P ws code reason w = .done () w := by
  simp [finish, attachment, hinfo, harch]

/-- `finish` of a socket without an attachment does nothing. -/
theorem finish_none {ws : SocketId} (hinfo : w.info ws = none) (code : ℕ) (reason : Text) :
    finish P ws code reason w = .done () w := by
  simp [finish, attachment, hinfo]

/-- A retirement begins with a look at all attachments. -/
theorem retired_departure (w : World) (ws : SocketId) (info : Attachment) :
    ((w.retired ws info).socket ws).departure =
      .retired w.past.current (w.retired ws info).info := by
  simp only [World.retired_socket, Function.update_self, Departure.retired.injEq, true_and]
  funext T
  by_cases hT : T = ws <;> simp [World.info, hT]

/-- `finish` archives the socket, if it is not archived yet. -/
theorem finish_ensures {ws : SocketId} {e : Event} (hw : At P κ h s₀ w)
    (he : w.past.arrivals[h]? = some e)
    (hspeaker : ∀ S, e.socket = some S → S = ws ∨ ∃ id, Authenticated w.info S id)
    (hcause : ∀ info, w.info ws = some info → info.archived = false → Cause P κ w ws info)
    (code : ℕ) (reason : Text) :
    Ensures P κ h (fun _ s => Since h w s ∧ ∀ info, w.info ws = some info → Archived s.info ws) E
      s₀ (finish P ws code reason w) := by
  cases hinfo : w.info ws with
  | none =>
    rw [finish_none hinfo]
    exact .done hw ⟨since_refl h w, fun info hi => by cases hi⟩
  | some info =>
    cases hlive : info.archived with
    | true =>
      rw [finish_archived hinfo hlive]
      refine .done hw ⟨since_refl h w, fun info' hinfo' => ?_⟩
      exact ⟨info, hinfo, hlive⟩
    | false =>
      have hact : Act P κ w (w.retired ws info) := .retire hinfo hlive (hcause info hinfo hlive)
      have hext := hact.extends hw.inv
      have harch : (w.retired ws info).info ws = some { info with archived := true } := by
        simp [World.info]
      have hdep := retired_departure w ws info
      rw [hw.current] at hdep
      rw [finish_live hinfo hlive]
      refine (windUp_ensures (hw.act hact) (hext.event he) (fun S hS => ?_) harch rfl hdep code
        reason).mono ?_ fun _ _ _ _ hE => hE
      · exact (hspeaker S hS).imp_right (Exists.imp fun id => hext.authenticated hw.inv)
      · rintro - s s₁ hs ⟨hsince, howes⟩
        refine ⟨⟨hext.trans hsince.extends_,
          (retired_spares w hinfo).trans hw.inv hext hsince.spares,
          fun T ho => ?_⟩, fun _ _ => hsince.extends_.archived (hw.act hact).inv ⟨_, harch, rfl⟩⟩
        by_cases hT : T = ws
        · exact absurd (hT ▸ ho) howes
        · simpa [World.Owes, hT] using hsince.owes T ho

end IrohExperiment.Relay
