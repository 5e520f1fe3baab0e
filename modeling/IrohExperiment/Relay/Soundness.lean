/-
# Every handler keeps its contract (`worker/src/iroh-relay.js`)

The remaining handlers, and the soundness of the room: whatever event starts a
handler, it makes only stretches of acts, and when it ends it leaves nothing
unfinished (`Leaves`).

`alarm_ensures`, `fetch` and the handlers of closes and errors complete the contracts.
`room_sound` is what every invariant of a run starts from: the room is a machine whose
handlers interfere with each other by acts only.
-/
import IrohExperiment.Relay.Messages

namespace IrohExperiment.Relay

open Coop Coroutine

variable {P : Platform} {κ : Trigger Event Point → World → Prop} {h : ℕ} {E : Fault → World → Prop}
  {s₀ w w' : World} {ws : SocketId}

/-! ## Messages, closes and errors -/

/-- A retirement that the handler was asked for leaves nothing pending. -/
theorem Settled.of_finished {mine : Option SocketId} (hp : Pending h mine none w)
    (harch : ∀ T, mine = some T → (w.socket T).authorizer = some h → Archived w.info T) :
    Settled h w := by
  refine ⟨hp.owes, fun T hu => (nomatch hp.unsettled T hu), fun T info ha hinfo _ => ?_⟩
  obtain ⟨info', hinfo', harch⟩ := harch T (hp.authorizer T ha) ha
  obtain rfl := Option.some.inj (hinfo.symm.trans hinfo')
  exact harch

/-- `ws` has given its answer to the challenge. -/
def World.Answered (w : World) (ws : SocketId) : Prop :=
  (∃ id, Authenticated w.info ws id) ∨ Archived w.info ws

theorem webSocketMessage_ensures {m : Message} (hw : At P κ h w w)
    (he : w.past.arrivals[h]? = some (.message ws m)) (hp : Pending h none none w)
    (hfresh : ∀ e ∈ w.past.wire, e.handler ≠ h) (hκ : κ (.start (.message ws m)) w) :
    Ensures P κ h (fun _ s => Settled h s ∧ s.Answered ws) (fun _ _ => False) w
      (webSocketMessage P ws m w) := by
  refine .rescue ((handleMessage_ensures hw he hp hfresh hκ).extends_ hw.inv |>.mono
    (fun _ _ _ _ hQ => ⟨hQ.1.1, .inl hQ.1.2⟩) fun _ _ _ _ hE => hE) ?_
  rintro - s s₁ hs ⟨⟨hp', hfailing⟩, hext⟩
  have hevent := hext.event he
  refine .await ((finish_ensures hs hevent (fun S hS => .inl (Option.some.inj hS).symm)
    (fun info hinfo hlive => .rejected (hs.event hevent) hκ ?_) _ _).mono ?_ fun _ _ _ _ hE => hE)
  · refine hfailing.resolve_left fun ⟨info', hinfo', harch⟩ => ?_
    obtain rfl := Option.some.inj (hinfo.symm.trans hinfo')
    simp [harch] at hlive
  · rintro - s' s₂ hs' ⟨hsince, harch⟩ s'' hs'' hk -
    obtain ⟨info, hinfo⟩ := Option.isSome_iff_exists.mp ((hs.inv.known ws).mp
      (hs.inv.clients ws m (List.mem_of_getElem? hevent)).1)
    refine ⟨Settled.kept hs'.inv (.of_finished (hp'.since hsince) fun T hT _ => ?_) hk,
      .inr (hk.extends_.archived hs'.inv (harch info hinfo))⟩
    obtain rfl := Option.some.inj hT
    exact harch info hinfo

theorem finishing_ensures {e : Event} (hw : At P κ h w w) (he : w.past.arrivals[h]? = some e)
    (hws : e.socket = some ws) (hp : Pending h none none w)
    (hcause : ∀ info, Cause P κ w ws info) (code : ℕ) (reason : Text) :
    Ensures P κ h (fun _ s => Settled h s) (fun _ _ => False) w
      (await .finish (finish P ws code reason) w) := by
  refine .await ((finish_ensures hw he (fun S hS => .inl ?_) (fun info _ _ => hcause info) _ _).mono
    ?_ fun _ _ _ _ hE => hE)
  · exact Option.some.inj (hS.symm.trans hws)
  · rintro - s s₁ hs ⟨hsince, -⟩ s' hs' hk -
    exact ((hp.since hsince).since hk.since).settled

/-! ## `fetch` -/

theorem snapshot_ensures (hw : At P κ h s₀ w) :
    Ensures P κ h (fun _ s => Since h w s) E s₀ (snapshot P w) := by
  have read : ∀ {α : Type} (f : Storage → α) {s₀ s : World}, At P κ h s₀ s → Since h w s →
      Ensures P κ h (fun _ s' => Since h w s') E s₀ (request .stats (readStorage f) s) :=
    fun f s₀ s hs hsince => .request hs fun s' s₁ hs' hk _ => .gets hs' fun s'' _ hk' _ =>
      (hsince.trans hw.inv hk.since).trans hw.inv hk'.since
  refine .bind (read _ hw (since_refl h w)) fun m s s₁ hs hsince => ?_
  refine .bind (read _ hs hsince) fun closed s s₁ hs hsince => ?_
  refine .step rfl (.step rfl ?_)
  refine .bind (read _ (hs.act .tick) (hsince.trans hw.inv (since_tick hs))) fun boots s s₁ hs
    hsince => ?_
  refine .bind (read _ hs hsince) fun attempts s s₁ hs hsince => ?_
  exact .pure hs hsince

/-- The transaction of `admit` refuses, or admits the running handler. -/
theorem admission_eq (room : Room) :
    admission P room w =
      if (w.storage.roomMeta.any fun m => decide (m.ping ≠ room.ping)) ∨
          20 ≤ w.storage.attempts.getD 0 ∨ 4 ≤ w.liveCount then .done false w
      else if w.storage.roomMeta.isSome then .done true (w.admitted room none)
      else .done true (w.tick.admitted room (some (P.clock w.reads))) := by
  have hguard : ∀ a b c : Bool, ((a || b || c) = true) = (a = true ∨ b = true ∨ c = true) := by
    decide
  simp only [admission, readStorage, Coroutine.bind_apply, Coroutine.gets_apply,
    Coroutine.bind_done, hguard, decide_eq_true_eq]
  split_ifs with h1 h2
  · rfl
  · obtain ⟨m, hm⟩ := Option.isSome_iff_exists.mp h2
    rw [hm]
    rfl
  · rw [Option.not_isSome_iff_eq_none.mp h2]
    rfl

theorem admission_ensures {r : Request} {room : Room} (hw : At P κ h s₀ w)
    (hr : Requests P w r room) (hκ : κ (.resume (.issued (.admission room))) w)
    (hp : Pending h none none w) :
    Ensures P κ h (fun admitted s => Pending h none none s ∧ w.Extends s ∧
      (admitted = true → h ∈ s.past.entering)) E s₀ (admission P room w) := by
  rw [admission_eq]
  split_ifs with hguard hmeta
  · exact .done hw ⟨hp, w.extends_refl, nofun⟩
  all_goals
    push Not at hguard
    obtain ⟨hping, hattempts, hlive⟩ := hguard
  · obtain ⟨m, hm⟩ := Option.isSome_iff_exists.mp hmeta
    have hact : Act P κ w (w.admitted room none) :=
      .admitUpgrade hr hattempts hlive (.inr ⟨⟨m, hm, by simpa [hm] using hping⟩, rfl⟩) hκ
        w.later_refl
    exact .act hw hact fun _ => ⟨hp.of_socket rfl, hact.extends hw.inv, fun _ => by
      simp [hw.current]⟩
  · have hr' : Requests P w.tick r room := by
      obtain ⟨t, ht, hroom⟩ := hr.granted
      exact ⟨hr.event, hr.stats, ⟨t, Nat.lt_succ_of_lt ht, hroom⟩, hr.expires⟩
    have hact : Act P κ w.tick (w.tick.admitted room (some (P.clock w.reads))) :=
      .admitUpgrade hr' hattempts hlive (.inl ⟨Option.not_isSome_iff_eq_none.mp hmeta, rfl⟩) hκ
        ⟨rfl, rfl, rfl, rfl, Nat.le_succ _⟩
    exact .act (hw.act .tick) hact fun _ => ⟨hp.of_socket rfl,
      (since_tick hw).extends_.trans (hact.extends (hw.act .tick).inv), fun _ => by
        simp [hw.current]⟩

/-- A request is answered later. -/
theorem Requests.extends {r : Request} {room : Room} (hr : Requests P w r room)
    (hcur : w'.past.current = w.past.current) (hext : w.Extends w') : Requests P w' r room := by
  obtain ⟨t, ht, hroom⟩ := hr.granted
  refine ⟨?_, hr.stats, ⟨t, ht.trans_le hext.reads, hroom⟩, hr.expires⟩
  rw [World.event, hcur]
  exact hext.event hr.event

/-- A socket that has just been accepted leaves its handler with nothing pending. -/
theorem Pending.accepted {info : Attachment} {challenge : Bytes} {due : ℕ}
    (hp : Pending h none none w) :
    Pending h none none (w.draw.tick.tick.accepted info challenge due) := by
  have hothers : ∀ T, T ≠ w.count →
      (w.draw.tick.tick.accepted info challenge due).socket T = w.socket T :=
        fun T hT => by simp [hT]
  refine ⟨fun T ho => ?_, fun T hu => ?_, fun T ha => ?_⟩ <;> by_cases hT : T = w.count
  · subst hT
    simp [World.Owes, Socket.none, Departure.debtor] at ho
  · rw [World.Owes, hothers T hT] at ho
    exact hp.owes T ho
  · subst hT
    simp [Socket.none] at hu
  · exact hp.unsettled T (hothers T hT ▸ hu)
  · subst hT
    simp [Socket.none] at ha
  · exact hp.authorizer T (hothers T hT ▸ ha)

/-- A socket that has been sent its challenge gets its alarm, and then its response. -/
theorem greeted_ensures {T : SocketId} {info : Attachment} (hw : At P κ h s₀ w)
    (hp : Pending h none none w) (hinfo : w.info T = some info) (hopener : (w.socket T).opener = h)
    (hgreeted : ∃ e ∈ w.past.wire, e.target = T ∧ e.bytes = challengeFrame (w.socket T).issued) :
    Ensures P κ h (fun _ s => Settled h s) (fun _ s => Settled h s) s₀ ((do
      await .schedule (schedule P)
      upgradeResponse T : Async Response) w) := by
  refine .bind (Q := fun _ s => Since h w s) (.await ((schedule_ensures hw).mono
    (fun _ s s₁ hs' hsince s' _ hk _ => hsince.trans hw.inv hk.since) fun _ _ _ _ hE => hE)) ?_
  rintro - s s₁ hs₁ hsince
  have hlt : T < w.count := (hw.inv.known T).mpr (by rw [hinfo]; rfl)
  have hsame := hsince.extends_.socket T hlt
  obtain ⟨e, he, htarget, hbytes⟩ := hgreeted
  have hconnect : Act P κ s (s.connect T) := by
    refine .connect (hlt.trans_le hsince.extends_.count) ?_
      ⟨e, hsince.extends_.wire.subset he, htarget, hbytes.trans (by rw [hsame.issued])⟩
    rw [hsame.opener, hopener, hs₁.current]
  refine .act hs₁ hconnect fun _ => Pending.settled ?_
  have hp' := hp.since hsince
  refine ⟨fun T' ho => hp'.owes T' ?_, fun T' hu => hp'.unsettled T' ?_,
    fun T' ha => hp'.authorizer T' ?_⟩ <;>
    by_cases hT : T' = T <;> simp_all [World.Owes]

/-- The part of `fetch` after the upgrade was admitted. -/
theorem accept_ensures {r : Request} {room : Room} (hw : At P κ h s₀ w) (hr : Requests P w r room)
    (hp : Pending h none none w) (hentering : h ∈ w.past.entering) :
    Ensures P κ h (fun _ s => Settled h s) (fun _ s => Settled h s) s₀ (accept P room w) := by
  generalize hchallenge : P.random w.draws 16 = challenge
  have hlength : challenge.length = 16 := hchallenge ▸ P.random_length w.draws 16
  -- the socket is accepted
  have hw₁ : At P κ h s₀ w.draw.tick.tick :=
    hw.act (.cursor (Nat.le_add_right _ 2) le_rfl (Nat.le_succ _))
  have hext₁ : w.Extends w.draw.tick.tick :=
    Act.extends (κ := κ) hw.inv (.cursor (Nat.le_add_right _ 2) le_rfl (Nat.le_succ _))
  generalize hopening : Attachment.opening challenge (P.clock w.reads + 10000) room.expires
    (P.clock (w.reads + 1)) = info
  generalize hW : w.draw.tick.tick.accepted info challenge (P.clock w.reads + 10000) = W
  have hact : Act P κ w.draw.tick.tick W := hW ▸ hopening ▸
    .accept (hr.extends rfl hext₁) (hw.current.symm ▸ hentering) hlength
      (P.clock_mono (Nat.le_succ _))
  have hW' := hw₁.act hact
  have hsocket : W.socket w.count =
      { Socket.none with
        attachment := some info, opener := h, issued := challenge,
          due := P.clock w.reads + 10000 } := by
    simp [← hW, hw.current]
  have hinfo : W.info w.count = some info := by
    rw [World.info, hsocket]
  -- and sent its challenge
  have hcall := hW'.act .call
  have hpcall : Pending h none none W.call := (hW ▸ hp.accepted).since (since_call hW')
  have hrun : accept P room w = (do
      send P w.count (challengeFrame challenge) none none
      await .schedule (schedule P)
      upgradeResponse w.count) W := by
    rw [← hW, ← hopening, ← hchallenge]
    rfl
  rw [hrun]
  cases hthrows : P.throws W.calls with
  | true =>
    have hfail : send P w.count (challengeFrame challenge) none none W = .fail .sendFailed
        W.call := by
      rw [send_eq hinfo, if_pos hthrows]
    simp only [Coroutine.bind_apply, hfail, Coroutine.bind_fail]
    exact .fail hcall hpcall.settled
  | false =>
    have hsends : Sends P κ W.call w.count (challengeFrame challenge) none none := by
      have hissued : (W.call.socket w.count).issued = challenge := by
        show (W.socket w.count).issued = challenge
        rw [hsocket]
      rw [← hissued]
      refine .challenge ?_ ⟨_, hinfo, hopening ▸ rfl⟩ fun e hmem => ?_
      · show (W.socket w.count).opener = W.past.current
        rw [hsocket, hW'.current]
      · have hmem' : e ∈ w.past.wire := by simpa [← hW] using hmem
        exact (hw.inv.target_lt e hmem').ne
    have hact' : Act P κ W.call _ := .touch (.send hsends hinfo (hopening ▸ rfl))
    refine .step (by rw [send_eq hinfo, if_neg (by simp [hthrows])]) ?_
    refine greeted_ensures (hcall.act hact')
      (hpcall.of_attachments
        (W.call.sent_socket_eq w.count info (challengeFrame challenge) none none))
      (by simp [World.info]; rfl) (by simp [hsocket])
      ⟨⟨h, w.count, challengeFrame challenge, W.call.info, none⟩, ?_, rfl, ?_⟩
    · simp [hW'.current]
    · simp [hsocket]

/-- An upgrade is refused, fails, or is accepted. -/
theorem fetch_ensures {r : Request} (hw : At P κ h w w)
    (he : w.past.arrivals[h]? = some (.fetch r)) (hp : Pending h none none w) :
    Ensures P κ h (fun _ s => Settled h s) (fun _ s => Settled h s) w (fetch P r w) := by
  have hw₁ := hw.act .tick
  have hsince := since_tick hw
  have hp₁ := hp.since hsince
  refine .step rfl ?_
  cases hroom : relayRoom P.number r (P.clock w.reads) r.stats with
  | none => exact .pure hw₁ hp₁.settled
  | some room =>
    dsimp only
    cases hstats : r.stats with
    | true =>
      rw [if_pos rfl]
      refine .bind (Q := fun _ s => Since h w.tick s)
        (.await ((snapshot_ensures hw₁).mono (fun _ s s₁ hs' hsince s' _ hk _ =>
          hsince.trans hw₁.inv hk.since) fun _ _ _ _ hE => hE)) ?_
      exact fun _ s s₁ hs hsince => .pure hs (hp₁.since hsince).settled
    | false =>
      rw [if_neg (by simp)]
      split_ifs
      · exact .pure hw₁ hp₁.settled
      · exact .pure hw₁ hp₁.settled
      have hr : Requests P w.tick r room := by
        refine ⟨hw₁.event (hsince.extends_.event he), hstats,
          ⟨w.reads, Nat.lt_succ_self _, hroom⟩, ?_⟩
        obtain ⟨htoken, hexpires, -⟩ := relayRoom_eq_some hroom
        rw [hexpires, htoken, hw.inv.rooms r (List.mem_of_getElem? he), Option.getD_some]
      refine .bind (Q := fun admitted s => Pending h none none s ∧ w.tick.Extends s ∧
        (admitted = true → h ∈ s.past.entering)) ?_ ?_
      · refine .await (.request hw₁ fun s s₁ hs hk hκ => ?_)
        have hr' := hr.extends (hs.current.trans hw₁.current.symm) hk.extends_
        refine (admission_ensures hs hr' hκ (hp₁.since hk.since)).mono ?_ fun _ _ _ _ hE => hE
        rintro admitted s' s₂ hs' ⟨hp', hext, hin⟩ s'' hs'' hk' - s₃ hs₃ hk'' -
        exact ⟨(hp'.since hk'.since).since hk''.since,
          ((hk.extends_.trans hext).trans hk'.extends_).trans hk''.extends_,
          fun hadm => hk''.spares.entering.mpr (hk'.spares.entering.mpr (hin hadm))⟩
      · rintro admitted s s₁ hs ⟨hp', hext, hin⟩
        cases admitted with
        | false => exact .pure hs hp'.settled
        | true =>
          exact accept_ensures hs (hr.extends (hs.current.trans hw₁.current.symm) hext)
            hp' (hin rfl)

/-! ## `alarm` -/

/-- A ping is prepared. -/
theorem arm_since {info : Attachment} {ping : Text} {deadline : ℕ} (hw : At P κ h s₀ w)
    (hinfo : w.info ws = some info) (ha : Act P κ w (w.setInfo ws
      { info with pendingPing := some ping, deadline := some deadline })) :
    Since h w (w.setInfo ws { info with pendingPing := some ping, deadline := some deadline }) := by
  simp only [World.info] at hinfo
  refine ⟨ha.extends hw.inv, .of_sockets (fun T => ?_) (fun T => ?_) (fun T => ?_) (fun T => ?_)
    (by simp) (by simp) (fun T => by simp [World.Confirmed]), fun T ho => ?_⟩
  rotate_right
  · by_cases hT : T = ws <;> simp_all [World.Owes]
  all_goals
    simp [Function.update_apply, World.info]
    split <;> simp_all

/-- Preparing a ping changes no route. -/
theorem routed_arm {info : Attachment} {ping : Text} {deadline : ℕ} (hinfo : w.info ws = some info)
    (T : SocketId) (id : Text) :
    Routed (w.setInfo ws { info with pendingPing := some ping, deadline := some deadline }).info T
      id ↔
      Routed w.info T id := by
  simp only [World.info] at hinfo
  by_cases hT : T = ws
  · subst hT
    simp [Routed, World.info, hinfo]
  · simp [Routed, World.info, hT]

/-- What the loop of `alarm` goes by, in a stretch that began in `w₀`. -/
structure Walking (P : Platform) (κ : Trigger Event Point → World → Prop) (h : ℕ) (now : ℕ)
    (pingDue : Bool) (peers : List SocketId) (w₀ w : World) : Prop where
  event : w.past.arrivals[h]? = some .alarm
  read : ∃ t < w.reads, now = P.clock t
  point : ∃ site all, κ (.resume (.answered site)) w₀ ∧
    (pingDue = true → ∀ T ∈ peers, T ∈ pinged P w₀ site) ∧
    judged P w₀ site = some (now, all) ∧ peers ⊆ all
  calm : w₀.Calm w
  nodup : peers.Nodup
  /-- Those who are still to come are as they were. -/
  same : ∀ T ∈ peers, w.info T = w₀.info T

theorem Walking.step {now : ℕ} {pingDue : Bool} {peers rest : List SocketId} {w₀ : World}
    (hwalk : Walking P κ h now pingDue peers w₀ w) (hsub : rest.Sublist peers)
    (hext : w.Extends w') (hr : ∀ T id, Routed w'.info T id → Routed w.info T id)
    (hsame : ∀ T ∈ rest, w'.info T = w.info T) : Walking P κ h now pingDue rest w₀ w' := by
  obtain ⟨t, ht, hnow⟩ := hwalk.read
  obtain ⟨site, all, hκ, hpoint, hjudged, hall⟩ := hwalk.point
  exact ⟨hext.event hwalk.event, ⟨t, ht.trans_le hext.reads, hnow⟩,
    ⟨site, all, hκ, fun hdue T hT => hpoint hdue T (hsub.subset hT), hjudged,
      fun _ hT => hall (hsub.subset hT)⟩,
    ⟨fun T id hT => hwalk.calm.routed T id (hr T id hT), fun T hT =>
      hext.confirmed (hwalk.calm.confirmed T hT)⟩,
    hwalk.nodup.sublist hsub, fun T hT => (hsame T hT).trans (hwalk.same T (hsub.subset hT))⟩

/-- The loop goes on after a retirement. -/
theorem Walking.resume {now : ℕ} {pingDue : Bool} {peers rest : List SocketId} {site : Site}
    {w₀ : World} (hwalk : Walking P κ h now pingDue peers w₀ w) (hsub : rest.Sublist peers)
    (hext : w.Extends w') (hκ : κ (.resume (.answered site)) w')
    (hpoint : pingDue = true → ∀ T ∈ rest, T ∈ pinged P w' site)
    (hjudged : judged P w' site = some (now, rest)) : Walking P κ h now pingDue rest w' w' := by
  obtain ⟨t, ht, hnow⟩ := hwalk.read
  exact ⟨hext.event hwalk.event, ⟨t, ht.trans_le hext.reads, hnow⟩,
    ⟨site, rest, hκ, hpoint, hjudged, List.Subset.refl _⟩, ⟨fun _ _ hT => hT, fun _ hT => hT⟩,
    hwalk.nodup.sublist hsub, fun _ _ => rfl⟩

/-- A ping is sent, or the socket that it cannot be sent to is retired. -/
theorem pingSocket_ensures {now : ℕ} {pingDue : Bool} {rest : List SocketId} {w₀ : World}
    {info : Attachment} (hw : At P κ h s₀ w) (hwalk : Walking P κ h now pingDue (ws :: rest) w₀ w)
    (hinfo : w.info ws = some info) (hlive : info.archived = false) (hdue : pingDue = true)
    (hphase : info.phase = .authenticated) :
    Ensures P κ h (fun _ s => Since h w s ∧ ∃ w₁, Walking P κ h now pingDue rest w₁ s) E s₀
      (pingSocket P now pingDue rest ws info w) := by
  obtain ⟨key, hkey, -⟩ := (hw.inv.shape ws info hinfo).identity hphase
  -- the ping is drawn and stored
  have hdraw : Act P κ w w.draw := .cursor le_rfl le_rfl (Nat.le_succ _)
  have hw₁ := hw.act hdraw
  have hsince₁ : Since h w w.draw := .of_same (hdraw.extends hw.inv) rfl rfl rfl rfl
  generalize hinfo' : ({ info with
    pendingPing := some (hex (P.random w.draws 8)), deadline := some (now + 5000) } : Attachment)
    = info'
  have harm : Act P κ w.draw (w.draw.setInfo ws info') := hinfo' ▸
    .touch (.arm (hw.event hwalk.event) hinfo hlive hphase)
  have hw₂ := hw₁.act harm
  have hsince₂ : Since h w (w.draw.setInfo ws info') := by
    subst hinfo'
    exact hsince₁.trans hw.inv (arm_since hw₁ hinfo harm)
  have hothers : ∀ T ∈ rest, T ≠ ws := fun T hT heq => (List.nodup_cons.mp hwalk.nodup).1 (heq ▸ hT)
  have hwalk₂ : Walking P κ h now pingDue rest w₀ (w.draw.setInfo ws info') := by
    refine hwalk.step (List.sublist_cons_self _ _) hsince₂.extends_ (fun T id hT => ?_)
      fun T hT => ?_
    · subst hinfo'
      exact (routed_arm (w := w.draw) hinfo T id).mp hT
    · simp [World.info, hothers T hT]
  have hstored : (w.draw.setInfo ws info').info ws = some info' := by simp [World.info]
  refine .step rfl (.step (a := ()) (u := w.draw.setInfo ws info') (by rw [← hinfo']; rfl) ?_)
  -- and sent
  have hcall := hw₂.act .call
  have hsince₃ := hsince₂.trans hw.inv (since_call hw₂)
  have hwalk₃ := hwalk₂.step (List.Sublist.refl _) (since_call hw₂).extends_ (fun _ _ hT => hT)
    fun _ _ => rfl
  rw [Coroutine.rescue_apply, send_eq hstored]
  cases hthrows : P.throws (w.draw.setInfo ws info').calls with
  | false =>
    obtain ⟨site, _, hκ, hpoint, -⟩ := hwalk.point
    have hrouted : Routed (w.draw.setInfo ws info').call.info ws (hex key) :=
      ⟨info', hstored, hinfo' ▸ hphase, hinfo' ▸ hlive, hinfo' ▸ hkey⟩
    have hsend : Act P κ (w.draw.setInfo ws info').call
      ((w.draw.setInfo ws info').call.sent ws info'
        (9 :: P.random w.draws 8) (some .serverPing) none) :=
      .touch (.send (.ping (hcall.event hwalk₃.event) hrouted hκ
        (hpoint hdue ws List.mem_cons_self) hwalk₃.calm) hstored
        (hinfo' ▸ hlive))
    have hsent := sent_since hcall hstored (by simp) hsend
    rw [if_neg (by simp)]
    refine .act hcall hsend fun _ => ⟨hsince₃.trans hw.inv hsent, w₀,
      hwalk₃.step (List.Sublist.refl _) hsent.extends_ (fun T id hT => ?_) fun T hT => ?_⟩
    · exact (routed_sent (w := (w.draw.setInfo ws info').call) hstored _ _ _ T id).mp hT
    · simp [World.info, hothers T hT]
  | true =>
    rw [if_pos rfl]
    refine .await ((finish_ensures hcall hwalk₃.event (fun _ hS => by cases hS)
      (fun _ _ _ => .unpinged (hcall.event hwalk₃.event) (Nat.lt_succ_self _) hthrows)
      _ _).mono ?_ fun _ _ _ _ hE => hE)
    rintro - s s₁ hs ⟨hsince, -⟩ s' hs' hk hκ
    have hsince' := (hsince₃.trans hw.inv hsince).trans hw.inv hk.since
    exact ⟨hsince', s', hwalk.resume (List.sublist_cons_self _ _) hsince'.extends_ hκ
      (fun hdue T hT => by simpa [pinged, hdue] using hT) rfl⟩

theorem alarmWalk_ensures {now : ℕ} {pingDue : Bool} {peers : List SocketId} {w₀ : World}
    (hw : At P κ h s₀ w) (hwalk : Walking P κ h now pingDue peers w₀ w) :
    Ensures P κ h (fun _ s => Since h w s) E s₀ (alarmWalk P now pingDue peers w) := by
  induction peers generalizing s₀ w w₀ with
  | nil => exact .pure hw (since_refl h w)
  | cons ws rest ih =>
    have skip := hwalk.step (List.sublist_cons_self ws rest) w.extends_refl (fun _ _ hT => hT)
      fun _ _ => rfl
    have go : ∀ {s s₁ w₁ : World}, At P κ h s₁ s → Since h w s →
        Walking P κ h now pingDue rest w₁ s →
        Ensures P κ h (fun _ s' => Since h w s') E s₁ (alarmWalk P now pingDue rest s) :=
      fun hs hsince hwalk' => (ih hs hwalk').mono (fun _ _ _ _ hs' => hsince.trans hw.inv hs')
        fun _ _ _ _ hE => hE
    refine .step rfl ?_
    cases hinfo : w.info ws with
    | none =>
      simp only [hinfo]
      exact ih hw skip
    | some info =>
      simp only [hinfo]
      cases hlive : info.archived with
      | true =>
        rw [if_pos rfl]
        exact ih hw skip
      | false =>
        rw [if_neg (by simp)]
        by_cases hlate : info.expires ≤ now ∨ overdue now info.deadline = true
        · -- the socket has timed out
          rw [if_pos hlate]
          refine .bind (Q := fun _ s => Since h w s ∧
            κ (.resume (.answered (.timedOut now pingDue rest))) s) ?_ ?_
          · refine .await ((finish_ensures hw hwalk.event (fun _ hS => nomatch hS)
              (fun info' hinfo' _ => ?_) _ _).mono
              (fun _ s s₁ hs' hsince s' _ hk hκ => ⟨hsince.1.trans hw.inv hk.since, hκ⟩)
              fun _ _ _ _ hE => hE)
            obtain rfl := Option.some.inj (hinfo.symm.trans hinfo')
            obtain ⟨site, all, hκ, -, hjudged, hall⟩ := hwalk.point
            exact .timedOut (hw.event hwalk.event) hwalk.read hκ hjudged (hall List.mem_cons_self)
              ((hwalk.same ws List.mem_cons_self).symm.trans hinfo) hlate
          · rintro - s s₁ hs ⟨hsince, hκ⟩
            exact go hs hsince (hwalk.resume (List.sublist_cons_self _ _) hsince.extends_ hκ
              (fun hdue T hT => by simpa [pinged, hdue] using hT) rfl)
        · rw [if_neg hlate]
          refine .bind (Q := fun _ s => Since h w s ∧
              ∃ w₁, Walking P κ h now pingDue rest w₁ s) ?_ ?_
          · refine .when hw (fun hping => ?_) fun _ => ⟨since_refl h w, w₀, skip⟩
            obtain ⟨⟨hdue, hphase⟩, -⟩ : (pingDue = true ∧ info.phase = .authenticated) ∧
                info.pendingPing.isNone = true := by simpa using hping
            exact pingSocket_ensures hw hwalk hinfo hlive hdue hphase
          · rintro - s s₁ hs ⟨hsince, w₁, hwalk₁⟩
            exact go hs hsince hwalk₁

/-- `alarm` counts itself in `meta`, unless the storage has been deleted. -/
theorem alarm_ensures (hw : At P κ h w w) (he : w.past.arrivals[h]? = some .alarm)
    (hp : Pending h none none w) (hset : w.storage.roomMeta.isSome = true ∨ w.past.wiped = true)
    (hfirst : h ∉ w.past.metaWriters) :
    Ensures P κ h (fun _ s => Settled h s ∧ (h ∈ s.past.metaWriters ∨ s.past.wiped = true))
      (fun _ _ => False) w (alarm P w) := by
  refine .bind (Q := fun m s => Since h w s ∧ κ (.resume (.answered (.alarmMeta m))) s ∧
    (∀ m', m = some m' → m'.expires = tokenExpires P.token ∧ m'.ping ∈ s.past.pings) ∧
    (m = none → s.past.wiped = true)) ?_ ?_
  · refine .awaiting (.bind (Q := fun _ s => Kept h w s) (.yield hw fun _ _ hk _ => hk) ?_)
    rintro - s s₁ hs hk
    refine .gets hs fun s' _ hk' hκ =>
      ⟨hk.since.trans hw.inv hk'.since, hκ, fun m hm => ?_, fun hm => ?_⟩
    · obtain ⟨hexpires, hping⟩ := hs.inv.roomMeta m hm
      exact ⟨hexpires, hk'.extends_.pings.subset hping⟩
    · obtain hsome | hwiped := hset.elim hk.extends_.roomMeta fun hw => .inr (hk.extends_.wiped hw)
      · rw [show s.storage.roomMeta = none from hm] at hsome
        cases hsome
      · exact hk'.extends_.wiped hwiped
  rintro (_ | m) s s₁ hs ⟨hsince, hκ, hmeta, hgone⟩
  · exact .pure hs ⟨(hp.since hsince).settled, .inr (hgone rfl)⟩
  obtain ⟨hexpires, hping⟩ := hmeta m rfl
  have hevent := hsince.extends_.event he
  have hs' := hs.act .tick
  have hsince' := hsince.trans hw.inv (since_tick hs)
  refine .step rfl ?_
  by_cases hover : m.expires + historyTtl ≤ P.clock s.reads
  · -- the room is over: the storage is deleted
    rw [if_pos hover]
    refine .request hs' fun s₂ s₃ hs₂ hk _ => ?_
    have hsince₂ := hsince'.trans hw.inv hk.since
    have hact : Act P κ s₂ s₂.wipe :=
      .wipe (t := s.reads) (hs₂.event (hsince₂.extends_.event he))
        ((Nat.lt_succ_self _).trans_le hk.extends_.reads) (hexpires ▸ hover)
    change Ensures P κ h _ _ s₃ (.done () s₂.wipe)
    refine .act hs₂ hact fun hs₃ s₄ _ hk' _ => ⟨?_, .inr (hk'.extends_.wiped (by simp))⟩
    exact (((hp.since hsince₂).of_socket (u := s₂.wipe) rfl).since hk'.since).settled
  · rw [if_neg hover]
    refine .step rfl (.bind (Q := fun _ s₂ => Since h s.tick s₂) ?_ ?_)
    · exact alarmWalk_ensures hs' ⟨(since_tick hs).extends_.event hevent,
        ⟨s.reads, Nat.lt_succ_self _, rfl⟩,
        ⟨_, _, hκ, fun hdue T hT => by simpa [pinged, hdue] using hT, rfl, List.Subset.refl _⟩,
        ⟨fun _ _ hT => hT, fun _ hT => hT⟩, hs.inv.nodup, fun _ _ => rfl⟩
    · rintro - s₂ s₃ hs₂ hsince₂
      have hsince₂' := hsince'.trans hw.inv hsince₂
      refine .bind (putMeta_ensures hs₂ (hp.since hsince₂')
        (hsince₂.extends_.pings.subset hping) hexpires fun s₄ s₅ hs₄ hk => ?_) ?_
      · refine .alarm (hs₄.event (hk.extends_.event (hsince₂'.extends_.event he))) fun hmem =>
          hfirst ?_
        rw [hs₄.current] at hmem
        exact hsince₂'.spares.writer.mp (hk.spares.writer.mp hmem)
      · rintro - s₄ s₅ hs₄ ⟨hp', -, hwriter⟩
        refine .await ((schedule_ensures hs₄).mono (fun _ s₆ s₇ hs₆ hsince₆ s₈ _ hk _ => ?_)
          fun _ _ _ _ hE => hE)
        have hsince₈ := hsince₆.trans hs₄.inv hk.since
        exact ⟨(hp'.since hsince₈).settled, .inl (hsince₈.spares.writer.mpr hwriter)⟩

/-! ## Soundness -/

/-- What a handler leaves behind. -/
structure Leaves (P : Platform) (h : ℕ) (r : Except Fault (Option Response)) (w : World) :
    Prop where
  inv : Inv P w
  arrived : h < w.past.arrivals.length
  settled : Settled h w
  message : ∀ ws m, w.past.arrivals[h]? = some (.message ws m) → w.Answered ws
  alarm : w.past.arrivals[h]? = some .alarm →
    (∃ a, r = .ok a) ∧ (h ∈ w.past.metaWriters ∨ w.past.wiped = true)

/-- The event is neither a message nor an alarm. -/
def Event.isPlain : Event → Bool
  | .fetch _ => true
  | .close _ _ _ => true
  | .error _ => true
  | _ => false

/-- A handler of something else than a message or an alarm. -/
theorem Leaves.of_settled {e : Event} {r : Except Fault (Option Response)}
    (hI : Inv P w) (hs : Settled h w) (he : w.past.arrivals[h]? = some e)
    (hplain : e.isPlain = true) : Leaves P h r w := by
  refine ⟨hI, (List.getElem?_eq_some_iff.mp he).1, hs, fun ws m ha => ?_, fun ha => ?_⟩
  all_goals
    obtain rfl := Option.some.inj (he.symm.trans ha)
    cases hplain

theorem World.Answered.extends (hI : Inv P w) (ha : w.Answered ws) (hext : w.Extends w') :
    w'.Answered ws :=
  ha.imp (fun ⟨id, hid⟩ => ⟨id, hext.authenticated hI hid⟩) (hext.archived hI)

/-- What a handler leaves behind stays so. -/
theorem Leaves.interferes {r : Except Fault (Option Response)} (hl : Leaves P h r w)
    (hi : Interferes (room P) (Stretch P κ) h w w') : Leaves P h r w' := by
  obtain ⟨hI', hk⟩ := hl.inv.interferes hi
  have hevent : ∀ e, w'.past.arrivals[h]? = some e → w.past.arrivals[h]? = some e := by
    intro e he
    obtain ⟨e', he'⟩ : ∃ e', w.past.arrivals[h]? = some e' :=
      ⟨_, List.getElem?_eq_getElem hl.arrived⟩
    rw [he', ← hk.extends_.event he', he]
  refine ⟨hI', hl.arrived.trans_le hk.extends_.arrivals.length_le, hl.settled.kept hl.inv hk,
    fun ws m he =>
    (hl.message ws m (hevent _ he)).extends hl.inv hk.extends_, fun he => ?_⟩
  exact (hl.alarm (hevent _ he)).imp id
    (Or.imp hk.spares.writer.mpr hk.extends_.wiped)

/-- A handler that starts has nothing pending. -/
theorem pending_of_fresh (hI : Inv P w) (hfresh : w.past.arrivals.length ≤ h) :
    Pending h none none w := by
  have hinfo : ∀ T, T < w.count → ∃ info, w.info T = some info := fun T hT =>
    Option.isSome_iff_exists.mp ((hI.known T).mp hT)
  have hblank : ∀ T, ¬ T < w.count → w.socket T = Socket.none := fun T hT =>
    hI.blank T (not_lt.mp hT)
  refine ⟨fun T ho => ?_, fun T hu => ?_, fun T ha => ?_⟩ <;> by_cases hT : T < w.count
  · obtain ⟨info, hi⟩ := hinfo T hT
    obtain ⟨e, he, -⟩ := (hI.shape T info hi).owner h (Departure.owner_of_debtor ho)
    exact absurd (List.getElem?_eq_some_iff.mp he).1 (not_lt.mpr hfresh)
  · rw [World.Owes, hblank T hT] at ho
    cases ho
  · obtain ⟨info, hi⟩ := hinfo T hT
    exact absurd ((hI.shape T info hi).unsettled_lt h hu) (not_lt.mpr hfresh)
  · rw [hblank T hT] at hu
    cases hu
  · obtain ⟨info, hi⟩ := hinfo T hT
    obtain ⟨frame, hframe⟩ := (hI.shape T info hi).authorizer h ha
    exact absurd (List.getElem?_eq_some_iff.mp hframe).1 (not_lt.mpr hfresh)
  · rw [hblank T hT] at ha
    cases ha

/-- **Soundness of the room**: every handler makes only stretches of acts, and ends
with nothing pending. -/
theorem room_sound (P : Platform) (κ : Trigger Event Point → World → Prop) :
    (room P).Sound κ (Stretch P κ) (Inv P) (Leaves P) := by
  intro h e w w₁ hI hb hκ
  have hI₁ := hI.rests (rests_begin hb)
  simp only [room] at hb
  split_ifs at hb with hd
  obtain ⟨hh, hdelivers⟩ := hd
  obtain rfl := Option.some.inj hb
  have he : (w.begin h e).past.arrivals[h]? = some e := by simp [World.begin, hh]
  have hw : At P κ h (w.begin h e) (w.begin h e) := .start hI₁ rfl
  have hp : Pending h none none (w.begin h e) :=
    (pending_of_fresh hI hh.ge).of_socket rfl
  -- each handler is run to its end, and what it leaves is read off its spec
  have hout : ∀ {α : Type} {t : Async α} {Q : α → World → Prop} {E : Fault → World → Prop}
      {r : α → Option Response}, Ensures P κ h Q E (w.begin h e) (t (w.begin h e)) →
      (∀ a s, Inv P s → (w.begin h e).Extends s → Q a s → Leaves P h (.ok (r a)) s) →
      (∀ f s, Inv P s → (w.begin h e).Extends s → E f s → Leaves P h (.error f) s) →
      (room P).Keeps κ (Stretch P κ) (Inv P) (Leaves P) h (w.begin h e)
        ((t >>= fun a => pure (r a)) (w.begin h e)) := by
    intro α t Q E r ht hQ hE
    refine Outcome.Sat.mono
      (Ensures.bind ((ht.extends_ hI₁).mono (fun _ _ _ _ h => h) fun f s s₁ hs hE' => hE f s hs.inv
        hE'.2 hE'.1)
      fun a s s₁ hs hQ' => .pure hs (hQ a s hs.inv hQ'.2 hQ'.1))
      (fun a s₁ s hs => ⟨hs.1.acts, hs.2⟩) fun f s₁ s hs => ⟨hs.1.acts, hs.2⟩
  cases e with
  | fetch r =>
    exact hout (r := some) (fetch_ensures hw he hp)
      (fun _ s hI' hext hs => .of_settled hI' hs (hext.event he) rfl)
      fun _ s hI' hext hs => .of_settled hI' hs (hext.event he) rfl
  | message ws m =>
    refine hout (r := fun _ => none) (webSocketMessage_ensures hw he hp (fun e hmem => ?_) hκ)
      (fun _ s hI' hext hs => ⟨hI', (List.getElem?_eq_some_iff.mp (hext.event he)).1, hs.1,
        fun ws' m' ha => ?_, fun ha => ?_⟩) fun _ _ _ _ hF => hF.elim
    · exact (hh ▸ hI.sender_lt e hmem).ne
    · obtain ⟨rfl, -⟩ : ws = ws' ∧ m = m' := by simpa using (hext.event he).symm.trans ha
      exact hs.2
    · cases (hext.event he).symm.trans ha
  | close ws code reason =>
    exact hout (r := fun _ => none)
      (finishing_ensures hw he rfl hp (fun _ => .closed (hw.event he)) _ _)
      (fun _ s hI' hext hs => .of_settled hI' hs (hext.event he) rfl) fun _ _ _ _ hF => hF.elim
  | error ws =>
    exact hout (r := fun _ => none)
      (finishing_ensures hw he rfl hp (fun _ => .failed (hw.event he)) _ _)
      (fun _ s hI' hext hs => .of_settled hI' hs (hext.event he) rfl) fun _ _ _ _ hF => hF.elim
  | alarm =>
    exact hout (r := fun _ => none) (alarm_ensures hw he hp (hI.alarm hdelivers)
      fun hmem => absurd (hI.writer_lt h hmem) (not_lt.mpr hh.ge))
      (fun _ s hI' hext hs => ⟨hI', (List.getElem?_eq_some_iff.mp (hext.event he)).1, hs.1,
        fun _ _ ha => (by cases (hext.event he).symm.trans ha), fun _ => ⟨⟨_, rfl⟩, hs.2⟩⟩) fun _ _
          _ _ hF => hF.elim

end IrohExperiment.Relay
