/-
# The messages of authenticated clients keep their contracts (`worker/src/iroh-relay.js`)

A datagram is settled exactly once, also when the handler was suspended while it
retired the socket that could not be reached.

`route_ensures` is that contract, `serve_ensures` the one of everything else that a client
frame asks for, and `handleMessage_ensures` puts them behind the checks of
`webSocketMessage`: a message is counted, and rejected only with a reason.
-/
import IrohExperiment.Relay.Session

namespace IrohExperiment.Relay

open Coop Coroutine

variable {P : Platform} {κ : Trigger Event Point → World → Prop} {h : ℕ} {E : Fault → World → Prop}
  {s₀ w w' : World} {ws : SocketId} {id : Text}

/-! ## `route` -/

/-- Handler `h` may end. -/
structure Settled (h : ℕ) (w : World) : Prop where
  owes : ∀ T, ¬ w.Owes h T
  unsettled : ∀ T, h ∈ (w.socket T).unsettled → Archived w.info T
  authorizer : ∀ T info, (w.socket T).authorizer = some h → w.info T = some info →
    info.phase = .verifying → info.archived = true

/-- A handler that owes nothing may end. -/
theorem Pending.settled (hp : Pending h none none w) : Settled h w :=
  ⟨hp.owes, fun T hu => (nomatch hp.unsettled T hu), fun T _ ha => (nomatch hp.authorizer T ha)⟩

/-- The datagram of the running handler is settled on the current attachment. -/
theorem settle_pending (hcur : w.past.current = h) (hnodup : (w.socket ws).unsettled.Nodup)
    (hp : Pending h none (some ws) w) (info : Attachment) (made : Counters) :
    Pending h none none ((w.amend ws info made).settle ws) := by
  refine ⟨fun T ho => hp.owes T ?_, fun T hu => ?_, fun T ha => hp.authorizer T ?_⟩ <;>
    by_cases hT : T = ws
  · subst hT
    simpa [World.Owes] using ho
  · simpa [World.Owes, hT] using ho
  · subst hT
    simp only [World.settle_socket, Function.update_self, World.amend_socket, hcur,
      World.amend_past_current] at hu
    exact absurd hu hnodup.not_mem_erase
  · have hu' : h ∈ (w.socket T).unsettled := by simpa [hT] using hu
    exact absurd (Option.some.inj (hp.unsettled T hu')).symm hT
  · subst hT
    simpa using ha
  · simpa [hT] using ha

/-- Counting what became of the datagram is one assignment to the attachment, which settles it. -/
theorem countOn_eq (info : Attachment) (key : Counter) :
    countOn ws info key w = .done () ((w.amend ws info (Pi.single key 1)).settle ws) := rfl

/-- A datagram frame that carries an endpoint id is long enough to be rewritten. -/
theorem forwardedFrame_isSome {frame : Bytes} {key : Bytes} (hkey : key.length = 32)
    (hframe : 34 ≤ frame.length) : ∃ bytes, forwardedFrame frame (hex key) = some bytes := by
  cases frame with
  | nil => simp at hframe
  | cons tag rest =>
    simp only [forwardedFrame, unhex_hex, hkey]
    rw [if_neg (by simp at hframe; omega)]
    exact ⟨_, rfl⟩

/-- The target of a datagram is a routed socket of the destination, and never the sender itself.
-/
theorem World.target_eq_some {T : SocketId} {destination : Text}
    (ht : w.target ws destination = some T) :
    T ≠ ws ∧ ∃ other, w.info T = some other ∧ Routed w.info T destination := by
  have hp := List.find?_some ht
  simp only [Bool.and_eq_true, decide_eq_true_eq, Option.any_eq_true] at hp
  obtain ⟨hne, other, hother, hrouted, hid⟩ := hp
  obtain ⟨hphase, harch⟩ : other.phase = .authenticated ∧ other.archived = false := by
    simpa [Attachment.isRouted] using hrouted
  exact ⟨hne, other, hother, other, hother, hphase, harch, hid⟩

/-- A client that was being served still is when the handler goes on, if it is live. -/
theorem Serves.extends {info info' : Attachment} {data : ClientFrame}
    (hs : Serves w ws info data) (hcur : w'.past.current = w.past.current)
    (hext : w.Extends w') (hinfo : w'.info ws = some info')
    (hlive : info'.archived = false) (hI : Inv P w) : Serves w' ws info' data := by
  obtain ⟨m', hm', hdata⟩ := hs.event
  obtain ⟨e, hmem, hhandler, hsocket⟩ := hs.taking
  refine ⟨⟨m', ?_, hdata⟩, ⟨e, hext.taken.subset hmem, hcur ▸ hhandler, hsocket⟩, hinfo, hlive, ?_⟩
  · rw [World.event, hcur]
    exact hext.event hm'
  · obtain ⟨info'', hinfo'', -, hp⟩ :=
      (hext.socket ws ((hI.known ws).mpr (by rw [hs.stored]; rfl))).attachment info hs.stored
    obtain rfl := Option.some.inj (hinfo.symm.trans hinfo'')
    exact (hp hs.phase).1

/-- A datagram that can be rewritten is sent and counted, or the call of `send` throws. -/
theorem deliver_eq {info other : Attachment} {target : SocketId} {frame bytes : Bytes}
    (hid : info.id = some id) (hbytes : forwardedFrame frame id = some bytes)
    (hother : w.info target = some other) :
    deliver P ws target info frame w =
      if P.throws w.calls then .fail .sendFailed w.call
      else .done () (((w.call.sent target other bytes none none).amend ws info
        (Pi.single .forwarded 1)).settle ws) := by
  cases hthrows : P.throws w.calls <;>
    simp [deliver, hid, hbytes, send_eq hother, hthrows, countOn_eq]

/-- A datagram that was delivered is settled. -/
theorem delivered_ensures {info other : Attachment} {target : SocketId} {bytes : Bytes}
    (hw : At P κ h s₀ w) (hp : Pending h none (some ws) w)
    (hnodup : (w.socket ws).unsettled.Nodup) (hne : ws ≠ target)
    (hforwards : Forwards κ w.call ws info target other bytes) :
    Ensures P κ h (fun _ s => Settled h s) E s₀ (.done () (((w.call.sent target other bytes none
      none).amend ws info (Pi.single .forwarded 1)).settle ws)) := by
  refine .act (hw.act .call) (.touch (.forward hforwards)) fun _ => ?_
  have hsent : Pending h none (some ws) (w.call.sent target other bytes none none) :=
    (hp.since (since_call hw)).of_attachments (w.call.sent_socket_eq target other bytes none none)
  have hnodup' : ((w.call.sent target other bytes none none).socket ws).unsettled.Nodup := by
    simpa [hne] using hnodup
  exact (settle_pending (by simpa using hw.current) hnodup' hsent info
    (Pi.single .forwarded 1)).settled

/-- When the target of a datagram has been retired, the datagram is settled as dropped, unless
its sender is gone. -/
theorem drop_ensures {info : Attachment} {destination : Text} {frame : Bytes} {s : World}
    (hw : At P κ h s₀ w) (hs : Serves w ws info (.datagram destination frame))
    (hp : Pending h none (some ws) w) (hunsettled : h ∈ (w.socket ws).unsettled)
    {s₁ : World} (hs₁ : At P κ h s₁ s) (hsince : Since h w s) :
    Ensures P κ h (fun _ s => Settled h s) E s₁ ((do
      let current ← attachmentOf ws
      if current.archived then pure () else countOn ws current .dropped : Async Unit) s) := by
  have hp' := hp.since hsince
  obtain ⟨current, hcurrent⟩ := Option.isSome_iff_exists.mp ((hs₁.inv.known ws).mp
    (((hw.inv.known ws).mpr (by rw [hs.stored]; rfl)).trans_le hsince.extends_.count))
  refine .step (a := current) (u := s) (by simp [attachmentOf, hcurrent]) ?_
  cases harch : current.archived with
  | true =>
    rw [if_pos rfl]
    refine .pure hs₁ ⟨hp'.owes, fun T hu => ?_, fun T _ ha =>
      absurd (hp'.authorizer T ha) (Option.some_ne_none T).symm⟩
    obtain rfl := Option.some.inj (hp'.unsettled T hu)
    exact ⟨current, hcurrent, harch⟩
  | false =>
    rw [if_neg (by simp), countOn_eq]
    have hserves := hs.extends (hs₁.current.trans hw.current.symm) hsince.extends_ hcurrent
      harch hw.inv
    have hact : Act P κ s _ := .touch (.drop hserves
      (hs₁.current.symm ▸ (hsince.spares.unsettled ws).mpr hunsettled))
    exact .act hs₁ hact fun _ => (settle_pending hs₁.current
      (hs₁.inv.shape ws current hcurrent).unsettled_nodup hp' current _).settled

/-- A datagram that cannot be delivered is settled when its target has been retired. -/
theorem undeliverable_ensures {m : Message} {info : Attachment} {destination : Text}
    {target : SocketId} {frame : Bytes} (hw : At P κ h s₀ w)
    (he : w.past.arrivals[h]? = some (.message ws m))
    (hs : Serves w ws info (.datagram destination frame)) (hp : Pending h none (some ws) w)
    (hunsettled : h ∈ (w.socket ws).unsettled) (hne : ws ≠ target)
    (hthrows : P.throws w.calls = true) :
    Ensures P κ h (fun _ s => Settled h s) E s₀ ((do
      await .undeliverable (finish P target 1011 "datagram delivery failed".toList)
      let current ← attachmentOf ws
      if current.archived then pure () else countOn ws current .dropped : Async Unit) w.call) := by
  obtain ⟨key, hkey, -⟩ := (hw.inv.shape ws info hs.stored).identity hs.phase
  have hcall := hw.act .call
  refine .bind (Q := fun _ s => Since h w.call s) ?_ ?_
  · refine .await ((finish_ensures hcall he (fun S hS => ?_) (fun _ _ _ => ?_) _ _).mono ?_
      fun _ _ _ _ hE => hE)
    · obtain rfl := Option.some.inj hS
      exact .inr ⟨hex key, info, hs.stored, hs.phase, hkey⟩
    · exact .undeliverable (hcall.event he) ⟨hex key, info, hs.stored, hs.phase, hkey⟩ hne
        (Nat.lt_succ_self w.calls) hthrows
    · rintro - s s₁ hs₁ ⟨hsince', -⟩ s' hs' hk -
      exact hsince'.trans hcall.inv hk.since
  · rintro - s s₁ hs₁ hsince'
    exact drop_ensures hw hs hp hunsettled hs₁ ((since_call hw).trans hw.inv hsince')

/-- `route` settles its datagram exactly once, on every path: dropped without a target, forwarded,
or dropped after the target that could not be reached has been retired. -/
theorem route_ensures {w₀ : World} {m : Message} {info : Attachment} {destination : Text}
    {frame : Bytes} (hw : At P κ h s₀ w) (he : w.past.arrivals[h]? = some (.message ws m))
    (hs : Serves w ws info (.datagram destination frame)) (hp : Pending h none (some ws) w)
    (hunsettled : h ∈ (w.socket ws).unsettled) (hfresh : ∀ e ∈ w.past.wire, e.handler ≠ h)
    (hκ : κ (.start (.message ws m)) w₀) (hcalm : w₀.Calm w) :
    Ensures P κ h (fun _ s => Settled h s) E s₀ (route P ws destination frame w) := by
  obtain ⟨m', hm', hframe⟩ := hs.event
  obtain rfl : m = m' := by simpa using (hw.event he).symm.trans hm'
  obtain ⟨key, hkey, hlen⟩ := (hw.inv.shape ws info hs.stored).identity hs.phase
  have hnodup := (hw.inv.shape ws info hs.stored).unsettled_nodup
  refine .step (a := info) (u := w) (by simp [attachmentOf, hs.stored]) (.step rfl ?_)
  cases htarget : w.target ws destination with
  | none =>
    simp only [htarget, countOn_eq]
    have hact : Act P κ w ((w.amend ws info (Pi.single .dropped 1)).settle ws) :=
      .touch (.drop hs (hw.current.symm ▸ hunsettled))
    exact .act hw hact fun _ => (settle_pending hw.current hnodup hp info _).settled
  | some target =>
    obtain ⟨hne, other, hother, hrouted⟩ := World.target_eq_some htarget
    obtain ⟨bytes, hbytes⟩ := forwardedFrame_isSome hlen (clientFrame_datagram hframe).2.2.2
    simp only [htarget, Coroutine.rescue_apply, deliver_eq hkey hbytes hother]
    cases hthrows : P.throws w.calls with
    | false =>
      refine delivered_ensures hw hp hnodup hne.symm ?_
      exact
        { datagram := ⟨destination, frame, hex key,
            ⟨⟨m, hm', hframe⟩, hs.taking, hs.stored, hs.live, hs.phase⟩, hkey, hrouted, hbytes⟩
          unsettled := hw.current.symm ▸ hunsettled
          fresh := hw.current.symm ▸ hfresh
          ne := hne
          stored := hother
          since := ⟨m, w₀, hκ, hm', ⟨hcalm.routed, hcalm.confirmed⟩⟩ }
    | true => exact undeliverable_ensures hw he hs hp hunsettled hne.symm hthrows

/-- A handler that may end still may after others have acted. -/
theorem Settled.kept (hI : Inv P w) (hs : Settled h w) (hk : Kept h w w') : Settled h w' := by
  refine ⟨fun T ho => hs.owes T (hk.since.owes T ho), fun T hu =>
    hk.extends_.archived hI (hs.unsettled T ((hk.spares.unsettled T).mp hu)),
    fun T info' ha hinfo' hphase => ?_⟩
  have ha' := hk.spares.authorizer T ha
  obtain ⟨info, hinfo⟩ := Option.isSome_iff_exists.mp ((hI.known T).mp (hI.authorizer_lt ha'))
  have harch := hs.authorizer T info ha' hinfo
    ((hk.spares.phase T ha' info info' hinfo hinfo').symm.trans hphase)
  obtain rfl := Option.some.inj (hinfo'.symm.trans (hk.extends_.info_archived hI hinfo harch))
  exact harch

/-- A handler that has authenticated its socket may end. -/
theorem Pending.authenticated (hp : Pending h (some ws) none w) (ha : Authenticated w.info ws id) :
    Settled h w := by
  refine ⟨hp.owes, fun T hu => (nomatch hp.unsettled T hu), fun T info hauth hinfo hphase => ?_⟩
  obtain rfl := Option.some.inj (hp.authorizer T hauth)
  obtain ⟨info', hinfo', hphase', -⟩ := ha
  obtain rfl := Option.some.inj (hinfo.symm.trans hinfo')
  rw [hphase] at hphase'
  cases hphase'

/-- A handler whose socket has been archived meanwhile may end. -/
theorem Pending.archived (hp : Pending h (some ws) none w) (ha : Archived w.info ws) :
    Settled h w := by
  refine ⟨hp.owes, fun T hu => (nomatch hp.unsettled T hu), fun T info hauth hinfo _ => ?_⟩
  obtain rfl := Option.some.inj (hp.authorizer T hauth)
  obtain ⟨info', hinfo', harch⟩ := ha
  obtain rfl := Option.some.inj (hinfo.symm.trans hinfo')
  exact harch

/-- The counters of an attachment are stored with it. -/
theorem World.amend_info_self (w : World) (ws : SocketId) (info : Attachment) (made : Counters) :
    (w.amend ws info made).info ws = some (info.plus made) := by
  simp [World.info, Attachment.plus]

/-- Counting on an attachment changes no route. -/
theorem routed_amend {info info' : Attachment} {made : Counters} (hinfo : w.info ws = some info)
    (halike : info.Alike (info'.plus made)) (T : SocketId) (id : Text) :
    Routed (w.amend ws info' made).info T id ↔ Routed w.info T id := by
  by_cases hT : T = ws
  · subst hT
    simp only [Routed, World.amend_info_self, hinfo, Option.some.injEq, exists_eq_left',
      halike.phase, halike.archived, halike.id]
  · simp [Routed, World.info, hT]

/-- Counting does not end the service of a client. -/
theorem Serves.amend {info : Attachment} {data : ClientFrame} (hs : Serves w ws info data)
    (made : Counters) : Serves (w.amend ws info made) ws (info.plus made) data :=
  ⟨by simpa [World.event] using hs.event, by simpa [World.Taking] using hs.taking,
    w.amend_info_self ws info made, hs.live, hs.phase⟩

/-- A client that is served has a route: it is authenticated and live, and its id is a key. -/
theorem Serves.routed {info : Attachment} {data : ClientFrame} (hI : Inv P w)
    (hs : Serves w ws info data) : ∃ id, Routed w.info ws id := by
  obtain ⟨key, hkey, -⟩ := (hI.shape ws info hs.stored).identity hs.phase
  exact ⟨hex key, info, hs.stored, hs.phase, hs.live, hkey⟩

/-- A ping is counted and answered, or the answer cannot be sent. -/
theorem serve_ping_ensures {w₀ : World} {m : Message} {info : Attachment} {frame : Bytes}
    (hw : At P κ h s₀ w) (hs : Serves w ws info (.ping frame))
    (he : w.past.arrivals[h]? = some (.message ws m)) (hp : Pending h none none w)
    (hκ : κ (.start (.message ws m)) w₀) (hcalm : w₀.Calm w) :
    Ensures P κ h (fun _ s => Settled h s) (fun _ s => Pending h none none s ∧ Blame P κ s ws m)
      s₀ (serve P ws (.ping frame) w) := by
  refine .step (a := info) (u := w) (by simp [attachmentOf, hs.stored]) ?_
  have hact : Act P κ w (w.amend ws info (Pi.single .ping 1)) :=
    .touch (.count (.inl ⟨hs, rfl⟩))
  have hw₁ := hw.act hact
  have hs₁ := hs.amend (Pi.single .ping 1)
  have hp₁ := hp.of_attachments (w.amend_socket_eq ws info (Pi.single .ping 1))
  refine .step rfl (.step (a := ()) (u := w.amend ws info (Pi.single .ping 1)) rfl ?_)
  have hcall := hw₁.act .call
  have hp₂ := hp₁.since (since_call hw₁)
  rw [send_eq hs₁.stored]
  cases hthrows : P.throws (w.amend ws info (Pi.single .ping 1)).calls with
  | true =>
    rw [if_pos rfl]
    exact .fail hcall ⟨hp₂, .unsent (Nat.lt_succ_self _) hthrows⟩
  | false =>
    rw [if_neg (by simp)]
    obtain ⟨m', hm', hframe⟩ := hs₁.event
    obtain rfl : m = m' := by
      simpa using (hw₁.event ((hact.extends hw.inv).event he)).symm.trans hm'
    obtain ⟨id, hrouted⟩ := hs₁.routed hw₁.inv
    have hcalm₁ : w₀.Calm (w.amend ws info (Pi.single .ping 1)).call :=
      ⟨fun T id hT => hcalm.routed T id
        ((routed_amend hs.stored (info.alike_plus (Pi.single .ping 1)) T id).mp hT),
        fun T hT => (hact.extends hw.inv).confirmed (hcalm.confirmed T hT)⟩
    have hsend : Act P κ (w.amend ws info (Pi.single .ping 1)).call _ :=
      .touch (.send (.pong hm' hframe hrouted hs₁.taking hκ hcalm₁) hs₁.stored hs₁.live)
    exact .act hcall hsend fun _ =>
      (hp₂.of_attachments (World.sent_socket_eq _ ws _ _ _ none)).settled

/-- A pong is counted and clears the deadline, or the socket did not owe it. -/
theorem serve_pong_ensures {info : Attachment} {frame : Bytes} (hw : At P κ h s₀ w)
    (hs : Serves w ws info (.pong frame)) (hp : Pending h none none w) :
    Ensures P κ h (fun _ s => Settled h s)
      (fun _ s => Pending h none none s ∧ info.pendingPing ≠ some (hex (frame.drop 1)))
      s₀ (serve P ws (.pong frame) w) := by
  refine .step (a := info) (u := w) (by simp [attachmentOf, hs.stored]) ?_
  have hact : Act P κ w (w.amend ws info (Pi.single .pong 1)) :=
    .touch (.count (.inr ⟨hs, rfl⟩))
  have hw₁ := hw.act hact
  have hs₁ := hs.amend (Pi.single .pong 1)
  have hp₁ := hp.of_attachments (w.amend_socket_eq ws info (Pi.single .pong 1))
  refine .step rfl (.step (a := ()) (u := w.amend ws info (Pi.single .pong 1)) rfl ?_)
  by_cases hpending : some (hex (frame.drop 1)) ≠ info.pendingPing
  · rw [if_pos hpending]
    exact .raise hw₁ ⟨hp₁, hpending.symm⟩
  rw [if_neg hpending]
  have hclear : Act P κ (w.amend ws info (Pi.single .pong 1)) _ :=
    .touch (.clear hs₁ (not_not.mp hpending).symm)
  have hw₂ := hw₁.act hclear
  refine .step rfl (.await ((schedule_ensures hw₂).mono (fun _ s s₁ hs' hsince s' _ hk _ => ?_)
    fun _ _ _ _ hE => hE))
  have hp₂ : Pending h none none ((w.amend ws info (Pi.single .pong 1)).setInfo ws
      { info.plus (Pi.single .pong 1) with pendingPing := none, deadline := none }) :=
    hp₁.of_attachments fun T => by
      by_cases hT : T = ws
      · subst hT
        exact ⟨_, by simp; rfl⟩
      · exact ⟨((w.amend ws info (Pi.single .pong 1)).socket T).attachment, by simp [hT]⟩
  exact ((hp₂.since hsince).since hk.since).settled

/-- The handler of a datagram has this datagram to settle, and nothing else. -/
theorem Pending.unsettle {info : Attachment} {made : Counters} (hp : Pending h none none w) :
    Pending h none (some ws) ((w.amend ws info made).unsettle ws) := by
  have hp₁ := hp.of_attachments (w.amend_socket_eq ws info made)
  refine ⟨fun T ho => hp₁.owes T ?_, fun T hu => ?_, fun T ha => hp₁.authorizer T ?_⟩ <;>
    by_cases hT : T = ws
  · subst hT
    simpa [World.Owes] using ho
  · simpa [World.Owes, hT] using ho
  · rw [hT]
  · exact absurd (hp₁.unsettled T (by simpa [hT] using hu)) (Option.some_ne_none T).symm
  · subst hT
    simpa using ha
  · simpa [hT] using ha

/-- A datagram that has come in changes no routes. -/
theorem routed_unsettle {info : Attachment} {made : Counters} (hinfo : w.info ws = some info)
    (T : SocketId) (id : Text) (hT : Routed ((w.amend ws info made).unsettle ws).info T id) :
    Routed w.info T id := by
  refine (routed_amend hinfo (info.alike_plus made) T id).mp ?_
  by_cases hT' : T = ws
  · subst hT'
    simpa [Routed, World.info] using hT
  · simpa [Routed, World.info, hT'] using hT

/-- A datagram is counted and routed. -/
theorem serve_datagram_ensures {w₀ : World} {m : Message} {info : Attachment} {destination : Text}
    {frame : Bytes} (hw : At P κ h s₀ w) (hs : Serves w ws info (.datagram destination frame))
    (he : w.past.arrivals[h]? = some (.message ws m)) (hp : Pending h none none w)
    (hfresh : ∀ e ∈ w.past.wire, e.handler ≠ h) (hκ : κ (.start (.message ws m)) w₀)
    (hcalm : w₀.Calm w) :
    Ensures P κ h (fun _ s => Settled h s) E s₀ (serve P ws (.datagram destination frame) w) := by
  refine .step (a := info) (u := w) (by simp [attachmentOf, hs.stored]) ?_
  have hact : Act P κ w ((w.amend ws info (Pi.single .datagram 1)).unsettle ws) :=
    .touch (.datagram hs fun hmem =>
      absurd (hp.unsettled ws (hw.current ▸ hmem)) (Option.some_ne_none ws).symm)
  have hext := hact.extends hw.inv
  have hs₁ : Serves ((w.amend ws info (Pi.single .datagram 1)).unsettle ws) ws
      (info.plus (Pi.single .datagram 1)) (.datagram destination frame) :=
    hs.extends (by simp) hext (by simp [World.info, Attachment.plus]) hs.live hw.inv
  have hcalm₁ : w₀.Calm ((w.amend ws info (Pi.single .datagram 1)).unsettle ws) :=
    ⟨fun T id hT => hcalm.routed T id (routed_unsettle hs.stored T id hT),
      fun T hT => hext.confirmed (hcalm.confirmed T hT)⟩
  refine .step rfl (.step (a := ()) (u := w.amend ws info (Pi.single .datagram 1)) rfl
    (.step (a := ()) (u := (w.amend ws info (Pi.single .datagram 1)).unsettle ws) rfl
      (.await ((route_ensures (hw.act hact) (hext.event he) hs₁ hp.unsettle (by simp [hw.current])
        (by simpa using hfresh) hκ hcalm₁).mono ?_ fun _ _ _ _ hE => hE))))
  exact fun _ s s₁ hs' hsettled s' _ hk _ => hsettled.kept hs'.inv hk

/-- What an authenticated client asks for is done, or the message is rejected: it is a pong
that the socket does not owe, or something else is to blame. -/
theorem serve_ensures {w₀ : World} {m : Message} {info : Attachment} {data : ClientFrame}
    (hw : At P κ h s₀ w) (hs : Serves w ws info data)
    (he : w.past.arrivals[h]? = some (.message ws m)) (hp : Pending h none none w)
    (hfresh : ∀ e ∈ w.past.wire, e.handler ≠ h) (hκ : κ (.start (.message ws m)) w₀)
    (hcalm : w₀.Calm w) :
    Ensures P κ h (fun _ s => Settled h s) (fun _ s => Pending h none none s ∧
      ((∀ frame, data = .pong frame → info.pendingPing = some (hex (frame.drop 1))) →
        Blame P κ s ws m)) s₀ (serve P ws data w) := by
  cases data with
  | ping frame =>
    exact (serve_ping_ensures hw hs he hp hκ hcalm).mono (fun _ _ _ _ hQ => hQ)
      fun _ _ _ _ ⟨hp', hblame⟩ => ⟨hp', fun _ => hblame⟩
  | pong frame =>
    exact (serve_pong_ensures hw hs hp).mono (fun _ _ _ _ hQ => hQ)
      fun _ _ _ _ ⟨hp', hnot⟩ => ⟨hp', fun howed => absurd (howed frame rfl) hnot⟩
  | datagram destination frame => exact serve_datagram_ensures hw hs he hp hfresh hκ hcalm

/-! ## `webSocketMessage` -/

/-- A message is counted, after some readings of the clock. -/
theorem countMessage_run {bytes : Bytes} {info : Attachment} (hw : At P κ h s₀ w)
    (he : w.past.arrivals[h]? = some (.message ws (.binary bytes))) (hinfo : w.info ws = some info)
    (hlive : info.archived = false) (hunexpired : ∃ t < w.reads, P.clock t < info.expires) :
    ∃ W info', countMessage P ws info bytes w =
        .done (info'.plus (World.messageCounts bytes), P.clock w.reads)
          (W.amend ws info' (World.messageCounts bytes)) ∧
      At P κ h s₀ W ∧ Since h w W ∧ W.socket = w.socket ∧ W.past = w.past ∧
      W.reads = w.reads + (if info.bucket + 10000 ≤ P.clock w.reads then 2 else 1) ∧
      Reception P W ws bytes (P.clock w.reads) info info' := by
  have hw₁ := hw.act .tick
  have hsince := since_tick hw
  obtain ⟨t, ht, hexp⟩ := hunexpired
  have hbucket := (hw.inv.shape ws info hinfo).bucket
  have htaken : ∀ e ∈ w.past.taken, e.time ≤ P.clock w.reads :=
    fun e hmem => (hw.inv.taken e hmem).2
  have hevent := hw.event he
  by_cases hnew : info.bucket + 10000 ≤ P.clock w.reads
  · refine ⟨w.tick.tick, { info with bucket := P.clock (w.reads + 1), bucketMessages := 1 }, ?_,
      hw₁.act .tick, hsince.trans hw.inv (since_tick hw₁), rfl, rfl, by simp [hnew], ?_⟩
    · simp [countMessage, dateNow, hnew, increment, serializeAttachment, World.amend, World.charge,
        World.messageCounts, Attachment.plus, add_assoc]
    · exact ⟨hevent, hinfo, hlive, ⟨t, Nat.lt_add_right 2 ht, hexp⟩,
        P.clock_mono (Nat.le_add_right _ 2), hbucket, htaken,
        .inr ⟨hnew, _, P.clock_mono (Nat.le_succ _), P.clock_mono (Nat.le_succ _), rfl⟩⟩
  · refine ⟨w.tick, { info with bucketMessages := info.bucketMessages + 1 }, ?_,
      hw₁, hsince, rfl, rfl, by simp [hnew], ?_⟩
    · simp [countMessage, dateNow, hnew, increment, serializeAttachment, World.amend, World.charge,
        World.messageCounts, Attachment.plus, add_assoc]
    · exact ⟨hevent, hinfo, hlive, ⟨t, Nat.lt_succ_of_lt ht, hexp⟩, P.clock_mono (Nat.le_succ _),
        hbucket, htaken, .inl ⟨not_le.mp hnew, rfl⟩⟩

/-- A proper message from a live socket is within the budget. -/
theorem Reception.not_proper {W : World} {bytes : Bytes} {info info' : Attachment}
    (hr : Reception P W ws bytes (P.clock (w.reads + 1)) info info') (hinfo : w.info ws = some info)
    (hbudget : overBudget (info'.plus (World.messageCounts bytes)) = true) :
    ¬ Proper P w ws (.binary bytes) := by
  intro hproper
  have hlimits : (info.bucketMessages < 512 ∨ info.bucket + 10000 ≤ P.clock (w.reads + 1)) ∧
      info.counts .messages < 10000 ∧
      info.counts .inboundBytes + bytes.length ≤ 2 * 1024 * 1024 := by
    rcases hproper.of_live hinfo hr.live with hwelcome | hservable
    · obtain ⟨i, b, id, hi, hm, -, -, hbucket, hmessages, hinbound, -⟩ := hwelcome
      obtain rfl := Option.some.inj (hinfo.symm.trans hi)
      obtain rfl := Message.binary.inj hm
      exact ⟨.inl hbucket, hmessages, hinbound⟩
    · obtain ⟨i, b, data, hi, hm, -, -, hbucket, hmessages, hinbound, -⟩ := hservable
      obtain rfl := Option.some.inj (hinfo.symm.trans hi)
      obtain rfl := Message.binary.inj hm
      exact ⟨hbucket, hmessages, hinbound⟩
  obtain ⟨hbucket, hmessages, hinbound⟩ := hlimits
  have hcounts : info'.counts = info.counts ∧ info'.bucketMessages ≤ 512 := by
    obtain ⟨htested, rfl⟩ | ⟨-, now, -, -, rfl⟩ := hr.bucket
    · exact ⟨rfl, hbucket.resolve_right (not_le.mpr htested)⟩
    · exact ⟨rfl, Nat.le_of_ble_eq_true rfl⟩
  simp only [overBudget, Attachment.plus, World.messageCounts, Pi.add_apply, hcounts.1,
    Pi.single_eq_same, Bool.or_eq_true, decide_eq_true_eq] at hbudget
  have h1 : (Pi.single Counter.inboundBytes bytes.length : Counters) .messages = 0 := rfl
  have h2 : (Pi.single Counter.messages 1 : Counters) .inboundBytes = 0 := rfl
  rw [h1, h2] at hbudget
  omega

/-- In `w` the message of handler `h`, which arrived from `ws` in `w₀`, has been counted
and has passed the budget; the attachment `info₀` of the socket has become `info`. -/
structure Heard (P : Platform) (κ : Trigger Event Point → World → Prop) (h : ℕ) (ws : SocketId)
    (bytes : Bytes) (info₀ info : Attachment) (w₀ w : World) : Prop where
  starts : κ (.start (.message ws (.binary bytes))) w₀
  invariant : Inv P w₀
  event : w.past.arrivals[h]? = some (.message ws (.binary bytes))
  pending : Pending h none none w
  fresh : ∀ e ∈ w.past.wire, e.handler ≠ h
  before : w₀.info ws = some info₀
  stored : w.info ws = some info
  alike : info₀.Alike info
  pings : info.pendingPing = info₀.pendingPing
  live : info.archived = false
  taking : w.Taking ws
  calm : w₀.Calm w
  extends_ : w₀.Extends w
  reads : w.reads = w₀.takenUp P ws

/-- The part of `webSocketMessage` that counts a message leads there. -/
theorem heard_take {W : World} {bytes : Bytes} {info info' : Attachment} (hI : Inv P w)
    (hκ : κ (.start (.message ws (.binary bytes))) w)
    (hfresh : ∀ e ∈ w.past.wire, e.handler ≠ h) (hinfo : w.info ws = some info)
    (hW : At P κ h s₀ W) (he : W.past.arrivals[h]? = some (.message ws (.binary bytes)))
    (hp : Pending h none none W) (hext : w.Extends W) (hsocket : W.socket = w.socket)
    (hpast : W.past = w.past) (hreads : W.reads = w.takenUp P ws)
    (hr : Reception P W ws bytes (P.clock (w.reads + 1)) info info')
    (hbudget : overBudget (info'.plus (World.messageCounts bytes)) = false) :
    Heard P κ h ws bytes info (info'.plus (World.messageCounts bytes)) w
      ((W.amend ws info' (World.messageCounts bytes)).take ws bytes.length
        (P.clock (w.reads + 1))) := by
  have hact : Act P κ W ((W.amend ws info' (World.messageCounts bytes)).take ws bytes.length
      (P.clock (w.reads + 1))) := .touch (.take hr hbudget)
  have hext' := hact.extends hW.inv
  have hview : W.info = w.info := by
    funext T
    rw [World.info, hsocket]
    rfl
  refine ⟨hκ, hI, hext'.event he, ?_, ?_, hinfo,
    W.amend_info_self ws info' (World.messageCounts bytes),
    hr.alike _, ?_, (hr.alike (World.messageCounts bytes)).archived.trans hr.live, ?_, ⟨?_, ?_⟩,
    hext.trans hext', hreads⟩
  · exact (hp.of_attachments (W.amend_socket_eq ws info' (World.messageCounts bytes))).of_socket rfl
  · simpa [hpast] using hfresh
  · obtain ⟨-, rfl⟩ | ⟨-, now, -, -, rfl⟩ := hr.bucket <;> rfl
  · exact ⟨⟨W.past.current, ws, bytes.length, P.clock (w.reads + 1)⟩, by simp, by simp, rfl⟩
  · intro T id hT
    rw [← hview]
    exact (routed_amend hr.stored (hr.alike (World.messageCounts bytes)) T id).mp hT
  · exact fun T hT => hext'.confirmed (hext.confirmed hT)

/-- The part of `webSocketMessage` after the budget: an answer to the challenge is taken
up, and a frame of an authenticated client is served. -/
theorem Heard.ensures {bytes : Bytes} {info₀ info : Attachment} {w₀ : World} (hw : At P κ h w₀ w)
    (hheard : Heard P κ h ws bytes info₀ info w₀ w) :
    Ensures P κ h (fun _ s => Settled h s ∧ ∃ id, Authenticated s.info ws id)
      (fun _ s => Pending h (some ws) none s ∧ Failing P κ w₀ ws (.binary bytes) s) w₀
      ((if info.phase = .challenge then await .authorize (authorize P ws bytes)
        else if info.phase ≠ .authenticated then raise .inProgress
        else match clientFrame (.binary bytes) with
          | none => raise .badFrame
          | some data => serve P ws data : Async Unit) w) := by
  obtain ⟨hκ, hI, he, hp, hfresh, hbefore, hstored, halike, hpings, hlive, htaking, hcalm, hext,
    hreads⟩ := hheard
  have hcount : ws < w₀.count := (hI.known ws).mpr (by rw [hbefore]; rfl)
  have hlive₀ : info₀.archived = false := halike.archived.symm.trans hlive
  -- what is proper is then welcome or servable, as the phase has it
  have hproper : Proper P w₀ ws (.binary bytes) → info.phase ≠ .challenge →
      Servable P w₀ ws (.binary bytes) := by
    intro hproper hne
    refine (hproper.of_live hbefore hlive₀).resolve_left ?_
    rintro ⟨i, _, _, hi, -, -, hphase, -⟩
    obtain rfl := Option.some.inj (hbefore.symm.trans hi)
    exact hne (halike.phase.trans hphase)
  by_cases hphase : info.phase = .challenge
  · rw [if_pos hphase]
    have hwaits : Waits w₀.info ws := ⟨info₀, hbefore, halike.phase.symm.trans hphase, hlive₀⟩
    refine .await (((authorize_ensures hw he hp hstored hlive hphase htaking
      (hext.socket ws hcount).issued (hext.socket ws hcount).due hκ hwaits hreads).extends_ hI).mono
        ?_ ?_)
    · rintro - s s₁ hs ⟨⟨hp', id, hauth⟩, -⟩ s' hs' hk -
      exact ⟨(hp'.authenticated hauth).kept hs.inv hk, id, hk.extends_.authenticated hs.inv hauth⟩
    · rintro - s s₁ hs ⟨⟨hp', hfailing⟩, hext'⟩ s' hs' hk -
      exact ⟨hp'.since hk.since, hfailing.extends hs.inv (hcount.trans_le hext'.count) hk.extends_⟩
  rw [if_neg hphase]
  by_cases hauth : info.phase ≠ .authenticated
  · rw [if_pos hauth]
    refine .raise hw ⟨hp.weaken, .inr fun h => ?_⟩
    obtain ⟨i, _, _, hi, -, -, hphase', -⟩ := hproper h hphase
    obtain rfl := Option.some.inj (hbefore.symm.trans hi)
    exact absurd (halike.phase.trans hphase') hauth
  rw [if_neg hauth]
  cases hframe : clientFrame (.binary bytes) with
  | none =>
    refine .raise hw ⟨hp.weaken, .inr fun h => ?_⟩
    obtain ⟨_, _, _, -, -, -, -, -, -, -, hdata, -⟩ := hproper h hphase
    rw [hframe] at hdata
    cases hdata
  | some data =>
    have hserves : Serves w ws info data :=
      ⟨⟨_, hw.event he, hframe⟩, htaking, hstored, hlive, not_not.mp hauth⟩
    have hphase' : info₀.phase = .authenticated := halike.phase.symm.trans (not_not.mp hauth)
    obtain ⟨key, hkey, -⟩ := (hI.shape ws info₀ hbefore).identity hphase'
    refine ((serve_ensures hw hserves he hp hfresh hκ hcalm).extends_ hI).mono
      (fun _ _ _ _ hQ => ⟨hQ.1, hex key, hQ.2.authenticated hI ⟨info₀, hbefore, hphase', hkey⟩⟩) ?_
    rintro - s s₁ hs ⟨⟨hp', hblame⟩, -⟩
    refine ⟨hp'.weaken, .inr fun h => hblame fun frame hpong => ?_⟩
    obtain ⟨i, _, data', hi, -, -, -, -, -, -, hdata, howed⟩ := hproper h hphase
    obtain rfl := Option.some.inj (hbefore.symm.trans hi)
    obtain rfl := Option.some.inj (hframe.symm.trans hdata)
    rw [hpings]
    exact howed frame hpong

/-- `webSocketMessage`, up to its `catch`: the message was in order and what it asks for is done,
or an error is thrown and the client is to blame. -/
theorem handleMessage_ensures {m : Message} (hw : At P κ h w w)
    (he : w.past.arrivals[h]? = some (.message ws m)) (hp : Pending h none none w)
    (hfresh : ∀ e ∈ w.past.wire, e.handler ≠ h) (hκ : κ (.start (.message ws m)) w) :
    Ensures P κ h (fun _ s => Settled h s ∧ ∃ id, Authenticated s.info ws id)
      (fun _ s => Pending h (some ws) none s ∧ Failing P κ w ws m s) w
        (handleMessage P ws m w) := by
  refine .step rfl ?_
  cases hinfo : w.info ws with
  | none =>
    simp only [hinfo]
    refine .raise hw ⟨hp.weaken, .inr ?_⟩
    rintro (⟨i, hi, _⟩ | ⟨i, _, _, hi, _⟩ | ⟨i, _, _, hi, _⟩) <;>
      exact absurd (hinfo.symm.trans hi) nofun
  | some info =>
    simp only [hinfo]
    cases hlive : info.archived with
    | true =>
      rw [if_pos rfl]
      exact .raise hw ⟨hp.weaken, .inl ⟨info, hinfo, hlive⟩⟩
    | false =>
      rw [if_neg (by simp)]
      have hw₁ := hw.act .tick
      have hsince := since_tick hw
      refine .step rfl ?_
      -- a room that has expired refuses every message
      by_cases hexp : info.expires ≤ P.clock w.reads
      · rw [if_pos hexp]
        refine .raise hw₁ ⟨(hp.since hsince).weaken, .inr fun _ =>
          .expired (Nat.lt_succ_self w.reads) ?_⟩
        rwa [← (hw.inv.shape ws info hinfo).expires]
      rw [if_neg hexp]
      cases m with
      | text s =>
        refine .raise hw₁ ⟨(hp.since hsince).weaken, .inr fun hproper => ?_⟩
        rcases hproper.of_live hinfo hlive with ⟨_, _, _, _, hm, _⟩ | ⟨_, _, _, _, hm, _⟩ <;>
          cases hm
      | binary bytes =>
        obtain ⟨W, info', hrun, hW, hsinceW, hsocket, hpast, hreads, hr⟩ := countMessage_run
          hw₁ (hsince.extends_.event he) hinfo hlive ⟨w.reads, Nat.lt_succ_self _, not_le.mp hexp⟩
        have hpW := (hp.since hsince).since hsinceW
        have hext := hsince.extends_.trans hsinceW.extends_
        refine .step hrun ?_
        -- the message has been counted before its budget is tested
        cases hbudget : overBudget (info'.plus (World.messageCounts bytes)) with
        | true =>
          simp only [if_true]
          refine .raise (hW.act (.touch (.refuse hr hbudget))) ⟨?_, .inr fun hproper =>
            absurd hproper (hr.not_proper hinfo hbudget)⟩
          exact (hpW.of_attachments (W.amend_socket_eq ws info' (World.messageCounts bytes))).weaken
        | false =>
          dsimp only
          rw [if_neg (by simp)]
          refine .step (a := ()) rfl ?_
          have htaken : W.reads = w.takenUp P ws := by
            rw [hreads, World.takenUp, hinfo, Option.any_some]
            simp only [World.tick_reads, decide_eq_true_eq]
            split_ifs <;> omega
          exact (heard_take hw.inv hκ hfresh hinfo hW (hext.event he) hpW hext hsocket
            hpast htaken hr
            hbudget).ensures (hW.act (.touch (.take hr hbudget)))

end IrohExperiment.Relay
