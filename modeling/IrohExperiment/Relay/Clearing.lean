/-
# Messages heed the regime (`worker/src/iroh-relay.js`)

A message clears a deadline in two ways: it answers the challenge in time, or it is
the pong that the socket is waited for.  Either way nothing is due earlier than
before, so nothing is owed.

There is one lemma for each function, ending in its name with `_heeds`.  `Under.rewrite` is
the step that they share: an attachment is rewritten and the deadlines of all others stay.
`webSocketMessage_heeds` is the whole handler.
-/
import IrohExperiment.Relay.Heeding

namespace IrohExperiment.Relay

open Coop Coroutine

variable {P : Platform} {J : World → Prop} {h : ℕ} {c e : Bool} {m : Mode}
  {E : Fault → World → Prop} {w w' s₀ : World} {ws : SocketId}

/-! ## Rewriting the attachment of a live socket -/

/-- What has to be shown when the attachment `info` of `ws` is made to `info'`. -/
structure Rewrites (P : Platform) (s₀ : World) (ws : SocketId)
    (info info' : Attachment) : Prop where
  live : info'.archived = false
  late : ∀ now ≤ P.clock s₀.reads, info.horizon ≤ now →
    info'.horizon ≤ now ∨ s₀.Ponged ws ∧ info'.deadline = none ∧ info'.pendingPing = none
  cleared : s₀.Ponged ws → info.deadline = none → info.pendingPing = none →
    info'.deadline = none ∧ info'.pendingPing = none
  coupled : info'.phase = .authenticated → info'.pendingPing = none → info'.deadline = none

/-- A live attachment may be rewritten as long as what was late stays late, the deadline of an
answered ping apart; a deadline that moves to the front has to be paid for. -/
theorem Under.rewrite {c' : Bool} {info info' : Attachment} (hw : Under P h c m s₀ w)
    (hinfo : w.info ws = some info) (hlive : info.archived = false)
    (hr : Rewrites P s₀ ws info info') (hself : w'.info ws = some info')
    (hothers : ∀ T, T ≠ ws → w'.info T = w.info T)
    (hstorage : w'.storage = w.storage) (hreads : w.reads ≤ w'.reads)
    (hhandler : w'.past.current = w.past.current ∧ w'.past.arrivals = w.past.arrivals)
    (hpaid : c' = true → c = true ∧ info.horizon ≤ info'.horizon) : Under P h c' m s₀ w' := by
  refine ⟨hhandler.1.trans hw.current, ?_, hw.idle, (by rw [hstorage, hw.alarm]),
    hw.reads.trans hreads,
    fun now T hnow hlate => ?_, fun T i hi hlive' hphase hping => ?_, fun hc => ?_⟩
  · exact (event_of_handler hhandler).trans hw.event
  · have hbefore := hw.timed now T hnow hlate
    by_cases hT : T = ws
    · subst hT
      rcases hbefore with ⟨i, hi, harch⟩ | ⟨i, hi, -, hle⟩ | ⟨hpong, i, hi, -, hdeadline, hping⟩
      all_goals obtain rfl := Option.some.inj (hinfo.symm.trans hi)
      · simp [hlive] at harch
      · rcases hr.late now hnow hle with hle' | ⟨hpong, hdeadline, hping⟩
        · exact .inr (.inl ⟨info', hself, hr.live, hle'⟩)
        · exact .inr (.inr ⟨hpong, info', hself, hr.live, hdeadline, hping⟩)
      · obtain ⟨hdeadline', hping'⟩ := hr.cleared hpong hdeadline hping
        exact .inr (.inr ⟨hpong, info', hself, hr.live, hdeadline', hping'⟩)
    · simpa only [World.Late, World.Cleared, Archived, hothers T hT] using hbefore
  · by_cases hT : T = ws
    · subst hT
      obtain rfl := Option.some.inj (hself.symm.trans hi)
      exact hr.coupled hphase hping
    · exact hw.coupled T i (hothers T hT ▸ hi) hlive' hphase hping
  · obtain ⟨hc', hle⟩ := hpaid hc
    rcases hw.paid hc' with hnone | ⟨hne, hharmless⟩
    · exact .inl (by rw [hstorage, hnone])
    · refine .inr ⟨hne, hharmless.trans
        ⟨fun T i hi hlive' => ?_, fun hnone => by rw [hstorage, hnone]⟩⟩
      by_cases hT : T = ws
      · subst hT
        obtain rfl := Option.some.inj (hself.symm.trans hi)
        exact ⟨info, hinfo, hlive, hle⟩
      · exact ⟨i, hothers T hT ▸ hi, hlive', le_rfl⟩

/-! ## `authorize` -/

/-- Verifying a signature does not touch the deadlines. -/
theorem authenticate_heeds {frame challenge : Bytes} (hw : Under P h c m s₀ w) :
    Heeds P J h (fun _ => c) c (fun _ _ => True) (fun _ _ => True) m s₀
      (authenticate P frame challenge w) := by
  cases hauth : clientAuth frame with
  | none =>
    simp only [authenticate, hauth]
    exact .raise hw trivial
  | some auth =>
    simp only [authenticate, hauth]
    have check : ∀ (b : Bool) (f : Fault) {s : World}, Under P h c (.after c) s s →
        Heeds P J h (fun _ => c) c (fun _ s' => ∀ s'', Resumes P J h s' s'' → True)
          (fun _ s' => ∀ s'', Resumes P J h s' s'' → True) (.after c) s
          ((if b = true then pure () else raise f : Async Unit) s) := by
      intro b f s hs
      cases b with
      | true => exact .done hs fun _ _ => trivial
      | false => exact .raise hs fun _ _ => trivial
    refine .bind (b := fun _ => c) (Q := fun _ _ => True)
      (.request hw rfl fun s hr => check _ _ hr.under) fun _ m₁ s₁ s hs _ => ?_
    refine .bind (b := fun _ => c) (Q := fun _ _ => True)
      (.request hs rfl fun s' hr => check _ _ hr.under) fun _ m₂ s₂ s' hs' _ => ?_
    exact .done hs' trivial

/-- An update of the storage that touches neither the alarm nor `meta`. -/
theorem tame_storage (f : Storage → Storage) (halarm : ∀ s, (f s).alarm = s.alarm)
    (hmeta : ∀ s, (f s).roomMeta = s.roomMeta) : Tame h w (w.setStorage f) :=
  .of_sockets (halarm w.storage) (hmeta w.storage) le_rfl le_rfl ⟨rfl, rfl⟩ rfl

/-- Registering an identity touches neither `meta` nor the alarm. -/
theorem registerIdentity_heeds {id : Text} (hw : Under P h c m s₀ w) :
    Heeds P J h (fun _ => c) e (fun _ _ => True) E m s₀ (registerIdentity id w) := by
  refine .step rfl ?_
  split_ifs
  · exact .done hw trivial
  · exact .done hw trivial
  · have htame : Tame h w (w.setStorage fun s =>
        { s with identities := some (w.storage.identities.getD [] ++ [id]) }) :=
      tame_storage _ (fun _ => rfl) fun _ => rfl
    exact .step (a := ()) (u := w.setStorage _) rfl (.done (hw.tame htame) trivial)

/-- Retiring the older sockets of the id makes nothing due earlier. -/
theorem retireOthers_heeds {id : Text} {others : List SocketId} (hw : Under P h c m s₀ w) :
    Heeds P J h (fun _ => c) e (fun _ _ => True) E m s₀ (retireOthers P ws id others w) := by
  induction others generalizing m s₀ w with
  | nil => exact .done hw trivial
  | cons old rest ih =>
    refine .step rfl (.bind (b := fun _ => c) (Q := fun _ _ => True) ?_ ?_)
    · exact .when (fun _ => .await ((finish_heeds hw).mono (fun _ _ _ _ _ => trivial)
        fun _ _ hE => hE)) fun _ => ⟨hw, trivial⟩
    · exact fun _ m₁ s₁ s hs _ => ih hs

/-- `meta` may be created anew. -/
theorem putMeta_heeds {read new : RoomMeta} (hw : Under P h c m s₀ w) :
    Heeds P J h (fun _ => false) e (fun _ s => Retains h w s) E m s₀ (putMeta read new w) := by
  refine .request hw rfl fun s hr => ?_
  have hput : Retains h s (s.putMeta new) :=
    ⟨List.prefix_refl _, le_rfl, le_rfl, fun _ => id, fun _ ho => .inl ⟨ho, rfl⟩⟩
  exact .done (a := ()) (w := s.putMeta new) ((hr.under (c := c)).owes rfl le_rfl ⟨rfl, rfl⟩ rfl)
    fun s' hr' => (hr.retains.trans hput).trans hr'.retains

/-- `startPings` writes `meta`, and pays with the `schedule` that follows. -/
theorem startPings_heeds (hw : Under P h true m s₀ w) :
    Heeds P J h (fun _ => true) true (fun _ _ => True) (fun _ _ => True) m s₀ (startPings P w) := by
  refine .bind (b := fun _ => true) (Q := fun _ _ => True)
    (.request hw rfl fun s hr => .done hr.under fun _ _ => trivial) ?_
  rintro (_ | r) m₁ s₁ s hs -
  · exact .raise hs trivial
  refine .bind (b := fun _ => false) (Q := fun _ _ => True) ?_ ?_
  · refine .when (fun _ => .step rfl ?_) fun _ => ⟨hs.weaken, trivial⟩
    exact (putMeta_heeds (hs.tame (tame_tick h s))).mono (fun _ _ _ => trivial) fun _ _ hE => hE
  · exact fun _ m₂ s₂ s' hs' _ => .await ((schedule_heeds hs').mono (fun _ _ _ _ _ => trivial)
      fun _ _ hE => hE)

/-- An authentication in time clears no deadline that was reached. -/
theorem rewrites_claim {info : Attachment} {id : Text} {t : ℕ} (hlive : info.archived = false)
    (ht : s₀.reads ≤ t) (hdue : reached (P.clock t) info.deadline = false) :
    Rewrites P s₀ ws info (({ info with
      id := some id, phase := .authenticated, challenge := none,
      deadline := none } : Attachment).plus (Pi.single .auth 1)) where
  live := hlive
  late now hnow hle := by
    left
    show info.expires ≤ now
    refine ((horizon_le_iff info now).mp hle).resolve_right fun hover => ?_
    have hmono := P.clock_mono ht
    unfold overdue at hover
    unfold reached at hdue
    cases hdeadline : info.deadline with
    | none =>
      rw [hdeadline] at hover
      cases hover
    | some deadline =>
      rw [hdeadline] at hover hdue
      simp at hover hdue
      omega
  cleared _ _ hping := ⟨rfl, hping⟩
  coupled _ _ := rfl

/-- Without a deadline an attachment is due last, when the room expires. -/
theorem horizon_le_of_none (info info' : Attachment) (hdeadline : info'.deadline = none)
    (hexpires : info'.expires = info.expires) : info.horizon ≤ info'.horizon := by
  unfold Attachment.horizon
  rw [hdeadline, hexpires]
  split
  · exact min_le_right _ _
  · exact le_rfl

/-- The claim drops the deadline of the handshake, which makes nothing due earlier. -/
theorem claim_heeds {id : Text} {allowed : Bool} (hw : Under P h true m s₀ w) :
    Heeds P J h (fun _ => true) true (fun _ _ => True) (fun _ _ => True) m s₀
      (claim P ws id allowed w) := by
  have attach : ∀ {s : World} {info : Attachment}, s.info ws = some info →
      attachmentOf ws s = .done info s := fun hs => by simp [attachmentOf, hs]
  cases hinfo : w.info ws with
  | none =>
    have hclaim : claim P ws id allowed w = .fail .typeError w := by
      simp [claim, attachmentOf, hinfo]
    rw [hclaim]
    exact .fail hw trivial
  | some info =>
    refine .step (attach hinfo) ?_
    cases hguard : (!allowed || info.archived) with
    | true => exact .raise hw trivial
    | false =>
      have hlive : info.archived = false := (Bool.or_eq_false_iff.mp hguard).2
      have hw₁ := hw.tame (tame_tick h w)
      have hw₂ := hw₁.tame (tame_tick h w.tick)
      rw [if_neg (by simp)]
      refine .step rfl ?_
      cases hdue : reached (P.clock w.reads) info.deadline with
      | true => exact .raise hw₁ trivial
      | false =>
        rw [if_neg (by simp)]
        refine .step rfl ?_
        split_ifs
        · exact .raise hw₂ trivial
        refine .step (attach (s := w.tick.tick) hinfo) ?_
        -- the claim takes the deadline off and sets none
        have hw₃ : Under P h true m s₀ (w.tick.tick.claimed ws info id) := by
          have hinfo₂ : w.tick.tick.info ws = some info := hinfo
          refine hw₂.rewrite hinfo₂ hlive (rewrites_claim hlive hw.reads hdue)
            (by simp [World.info]; rfl) (fun T hT => by simp [World.info, hT]) rfl le_rfl ⟨rfl, rfl⟩
            fun _ => ⟨rfl, ?_⟩
          exact horizon_le_of_none _ _ rfl rfl
        refine .step rfl (.step rfl
          (.step (a := ()) (u := w.tick.tick.claimed ws info id) rfl (.step rfl ?_)))
        refine .bind (b := fun _ => true) (Q := fun _ _ => True) (retireOthers_heeds hw₃) ?_
        intro _ m₁ s₁ s hs _
        cases hinfo' : s.info ws with
        | none =>
          refine .bind (b := fun _ => true) (Q := fun _ _ => False) ?_ fun _ _ _ _ _ hF => hF.elim
          have hfail : attachmentOf ws s = .fail .typeError s := by simp [attachmentOf, hinfo']
          rw [hfail]
          exact .fail hs trivial
        | some info' =>
          refine .step (attach hinfo') ?_
          split_ifs
          · exact .raise hs trivial
          · refine .bind (b := fun _ => true) (Q := fun _ _ => True)
              ((send_heeds hs).mono (fun _ _ _ => trivial) fun _ _ _ => trivial) ?_
            intro _ m₂ s₂ s' hs' _
            have hend : Tame h s' s'.endClaim := .of_sockets rfl rfl le_rfl le_rfl ⟨rfl, rfl⟩ rfl
            exact .step (a := ()) (u := s'.endClaim) rfl (startPings_heeds (hs'.tame hend))

/-- The answer to a challenge is taken up. -/
theorem rewrites_verify {info : Attachment} (hlive : info.archived = false) :
    Rewrites P s₀ ws info { info with phase := .verifying } :=
  ⟨hlive, fun _ _ hle => .inl hle, fun _ hdeadline hping => ⟨hdeadline, hping⟩, nofun⟩

/-- `authorize` keeps every deadline armed, whether the socket is accepted or not. -/
theorem authorize_heeds {frame : Bytes} {info : Attachment} (hw : Under P h true m s₀ w)
    (hinfo : w.info ws = some info) (hlive : info.archived = false) :
    Heeds P J h (fun _ => true) true (fun _ _ => True) (fun _ _ => True) m s₀
      (authorize P ws frame w) := by
  have hw₁ := hw.tame (tame_tick h w)
  refine .step (a := info) (u := w) (by simp [attachmentOf, hinfo]) (.step rfl ?_)
  split_ifs
  · exact .raise hw₁ trivial
  have hw₂ : Under P h true m s₀ (w.tick.verify ws info) :=
    hw₁.rewrite hinfo hlive (rewrites_verify hlive) (by simp [World.info])
      (fun T hT => by simp [World.info, hT]) rfl le_rfl ⟨rfl, rfl⟩ fun _ => ⟨rfl, le_rfl⟩
  refine .step rfl (.step (a := ()) (u := w.tick.verify ws info) rfl ?_)
  cases info.challenge with
  | none => exact .raise hw₂ trivial
  | some challenge =>
    refine .bind (b := fun _ => true) (Q := fun _ _ => True)
      (.await ((authenticate_heeds hw₂).mono (fun _ _ _ _ _ => trivial) fun _ _ _ _
        _ => trivial)) ?_
    intro id m₁ s₁ s hs _
    have hverified : Tame h s (s.verified ws) := tame_mark _ (fun _ => rfl) fun _ => ⟨rfl, rfl⟩
    refine .step (a := ()) (u := s.verified ws) rfl ?_
    refine .bind (b := fun _ => true) (Q := fun _ _ => True)
      (.request (hs.tame hverified) rfl fun s' hr => (registerIdentity_heeds hr.under).mono
        (fun _ _ _ _ _ => trivial) fun _ _ hE => hE) ?_
    exact fun allowed m₂ s₂ s' hs' _ => claim_heeds hs'

/-! ## `route` and `webSocketMessage` -/

/-- A counter of `ws` is incremented and its datagram settled. -/
theorem countOn_heeds {info info' : Attachment} {key : Counter} (hw : Under P h c m s₀ w)
    (hinfo : w.info ws = some info) (hs : info.Steady info') :
    Heeds P J h (fun _ => c) e (fun _ _ => True) E m s₀ (countOn ws info' key w) := by
  rw [countOn_eq]
  have hamend : Tame h w (w.amend ws info' (Pi.single key 1)) :=
    tame_amend hinfo ⟨hs.archived, hs.live⟩
  have hsettle : Tame h (w.amend ws info' (Pi.single key 1))
      ((w.amend ws info' (Pi.single key 1)).settle ws) :=
    tame_mark _ (fun _ => rfl) fun _ => ⟨rfl, rfl⟩
  exact .done ((hw.tame hamend).tame hsettle) trivial

/-- Delivering a datagram changes counters, or retires the target. -/
theorem deliver_heeds {target : SocketId} {info other : Attachment} {frame : Bytes}
    (hw : Under P h c m s₀ w) (hinfo : w.info ws = some info) (hother : w.info target = some other)
    (hne : target ≠ ws) :
    Heeds P J h (fun _ => c) c (fun _ _ => True) (fun _ _ => True) m s₀
      (deliver P ws target info frame w) := by
  unfold deliver
  cases info.id with
  | none => exact .raise hw trivial
  | some source =>
    dsimp only
    cases forwardedFrame frame source with
    | none => exact .raise hw trivial
    | some bytes =>
      have hcall := hw.tame (tame_call h w)
      cases hthrows : P.throws w.calls with
      | true =>
        refine .bind (b := fun _ => c) (Q := fun _ _ => False) ?_ fun _ _ _ _ _ hF => hF.elim
        rw [send_eq hother, if_pos hthrows]
        exact .fail hcall trivial
      | false =>
        refine .step (by rw [send_eq hother, if_neg (by simp [hthrows])]) ?_
        have hstored : (w.call.sent target other bytes none none).info ws = some info := by
          simpa [World.info, hne.symm] using hinfo
        exact countOn_heeds (hcall.tame (tame_sent (w := w.call) hother)) hstored info.steady_refl

/-- `route` keeps every deadline armed. -/
theorem route_heeds {info : Attachment} {destination : Text} {frame : Bytes}
    (hw : Under P h true m s₀ w) (hinfo : w.info ws = some info) :
    Heeds P J h (fun _ => true) true (fun _ _ => True) (fun _ _ => True) m s₀
      (route P ws destination frame w) := by
  refine .step (a := info) (u := w) (by simp [attachmentOf, hinfo]) (.step rfl ?_)
  cases htarget : w.target ws destination with
  | none =>
    simp only [htarget]
    exact countOn_heeds hw hinfo info.steady_refl
  | some target =>
    simp only [htarget]
    obtain ⟨hne, other, hother, -⟩ := World.target_eq_some htarget
    refine .rescue (deliver_heeds hw hinfo hother hne) fun _ m₁ s₁ s hs _ => ?_
    refine .bind (b := fun _ => true) (Q := fun _ _ => True)
      (.await ((finish_heeds hs).mono (fun _ _ _ _ _ => trivial) fun _ _ hE => hE)) ?_
    intro _ m₂ s₂ s' hs' _
    cases hinfo' : s'.info ws with
    | none =>
      refine .bind (b := fun _ => true) (Q := fun _ _ => False) ?_ fun _ _ _ _ _ hF => hF.elim
      have hfail : attachmentOf ws s' = .fail .typeError s' := by simp [attachmentOf, hinfo']
      rw [hfail]
      exact .fail hs' trivial
    | some current =>
      refine .step (a := current) (u := s') (by simp [attachmentOf, hinfo']) ?_
      split_ifs
      · exact .done hs' trivial
      · exact countOn_heeds hs' hinfo' current.steady_refl

/-- A pong clears the deadline of the socket that it comes from. -/
theorem rewrites_clear {info : Attachment} (hlive : info.archived = false) (hpong : s₀.Ponged ws) :
    Rewrites P s₀ ws info { info with pendingPing := none, deadline := none } :=
  ⟨hlive, fun _ _ _ => .inr ⟨hpong, rfl, rfl⟩, fun _ _ _ => ⟨rfl, rfl⟩, fun _ _ => rfl⟩

/-- A pong that the socket owes drops its deadline; nothing else that a client asks for does. -/
theorem serve_heeds {message : Message} {data : ClientFrame} {info info₀ : Attachment}
    (hw : Under P h true m s₀ w) (hinfo : w.info ws = some info) (hlive : info.archived = false)
    (hevent : s₀.event = some (.message ws message)) (hframe : clientFrame message = some data)
    (hstart : s₀.info ws = some info₀) (hping : info₀.pendingPing = info.pendingPing) :
    Heeds P J h (fun _ => true) true (fun _ _ => True) (fun _ _ => True) m s₀
      (serve P ws data w) := by
  have counted : ∀ key, Tame h w (w.amend ws info (Pi.single key 1)) := fun key =>
    tame_amend hinfo (info.steady_plus (Pi.single key 1))
  have hinfo' : ∀ key, (w.amend ws info (Pi.single key 1)).info ws =
      some (info.plus (Pi.single key 1)) := fun key => by simp [World.info, Attachment.plus]
  refine .step (a := info) (u := w) (by simp [attachmentOf, hinfo]) ?_
  cases data with
  | ping frame =>
    refine .step rfl (.step (a := ()) (u := w.amend ws info (Pi.single .ping 1)) rfl ?_)
    exact (send_heeds (hw.tame (counted .ping))).mono (fun _ _ _ => trivial) fun _ _ _ => trivial
  | pong frame =>
    have hw₁ := hw.tame (counted .pong)
    refine .step rfl (.step (a := ()) (u := w.amend ws info (Pi.single .pong 1)) rfl ?_)
    split_ifs with hpending
    · exact .raise hw₁ trivial
    have hpong : s₀.Ponged ws :=
      ⟨info₀, message, frame, hevent, hframe, hstart, hping.trans (not_not.mp hpending).symm⟩
    have hw₂ : Under P h true m s₀ ((w.amend ws info (Pi.single .pong 1)).setInfo ws
        { info.plus (Pi.single .pong 1) with pendingPing := none, deadline := none }) :=
      hw₁.rewrite (hinfo' .pong) hlive (rewrites_clear hlive hpong) (by simp [World.info])
        (fun T hT => by simp [World.info, hT]) rfl le_rfl ⟨rfl, rfl⟩
        fun _ => ⟨rfl, horizon_le_of_none _ _ rfl rfl⟩
    exact .step rfl (.await ((schedule_heeds hw₂).mono (fun _ _ _ _ _ => trivial) fun _ _ hE => hE))
  | datagram destination frame =>
    have hunsettle : Tame h (w.amend ws info (Pi.single .datagram 1))
        ((w.amend ws info (Pi.single .datagram 1)).unsettle ws) :=
      tame_mark _ (fun _ => rfl) fun _ => ⟨rfl, rfl⟩
    refine .step rfl (.step (a := ()) (u := w.amend ws info (Pi.single .datagram 1)) rfl
      (.step (a := ()) (u := (w.amend ws info (Pi.single .datagram 1)).unsettle ws) rfl
        (.await ?_)))
    have hstored : ((w.amend ws info (Pi.single .datagram 1)).unsettle ws).info ws =
        some (info.plus (Pi.single .datagram 1)) := by simp [World.info, Attachment.plus]
    exact (route_heeds ((hw.tame (counted .datagram)).tame hunsettle) hstored).mono
      (fun _ _ _ _ _ => trivial) fun _ _ _ _ _ => trivial

/-- A message is counted, after some readings of the clock. -/
theorem countMessage_tame {info : Attachment} (P : Platform) (bytes : Bytes) (h : ℕ)
    (hinfo : w.info ws = some info) :
    ∃ info' W, countMessage P ws info bytes w = .done (info', P.clock w.reads) W ∧ Tame h w W ∧
      W.info ws = some info' ∧ info.Steady info' ∧ info'.archived = info.archived := by
  have count : ∀ (s : World) (info' : Attachment), Tame h w s → s.info ws = some info →
      info.Steady info' → Tame h w (s.amend ws info' (World.messageCounts bytes)) := by
    intro s info' htame hs hsteady
    exact htame.trans (tame_amend hs ⟨hsteady.archived, hsteady.live⟩)
  by_cases hnew : info.bucket + 10000 ≤ P.clock w.reads
  · have hsteady : info.Steady { info with bucket := P.clock (w.reads + 1), bucketMessages := 1 } :=
      ⟨fun harch => harch, fun _ => ⟨rfl, rfl, rfl, rfl⟩⟩
    refine ⟨({ info with bucket := P.clock (w.reads + 1), bucketMessages := 1 } : Attachment).plus
      (World.messageCounts bytes), _, ?_, count w.tick.tick _
        ((tame_tick h w).trans (tame_tick h w.tick)) hinfo hsteady,
          by simp [World.info, Attachment.plus],
      ⟨hsteady.archived, hsteady.live⟩, rfl⟩
    simp [countMessage, dateNow, hnew, increment, serializeAttachment, World.amend, World.charge,
      World.messageCounts, Attachment.plus, add_assoc]
  · have hsteady : info.Steady { info with bucketMessages := info.bucketMessages + 1 } :=
      ⟨fun harch => harch, fun _ => ⟨rfl, rfl, rfl, rfl⟩⟩
    refine ⟨({ info with bucketMessages := info.bucketMessages + 1 } : Attachment).plus
      (World.messageCounts bytes), _, ?_, count w.tick _ (tame_tick h w) hinfo hsteady,
      by simp [World.info, Attachment.plus], ⟨hsteady.archived, hsteady.live⟩, rfl⟩
    simp [countMessage, dateNow, hnew, increment, serializeAttachment, World.amend, World.charge,
      World.messageCounts, Attachment.plus, add_assoc]

/-- What a message asks for keeps every deadline armed. -/
theorem handleMessage_heeds {message : Message} (hw : Under P h true m w w)
    (hevent : w.event = some (.message ws message)) :
    Heeds P J h (fun _ => true) true (fun _ _ => True) (fun _ _ => True) m w
      (handleMessage P ws message w) := by
  refine .step rfl ?_
  cases hinfo : w.info ws with
  | none =>
    simp only [hinfo]
    exact .raise hw trivial
  | some info =>
    simp only [hinfo]
    cases hlive : info.archived with
    | true => exact .raise hw trivial
    | false =>
      have hw₁ := hw.tame (tame_tick h w)
      rw [if_neg (by simp)]
      refine .step rfl ?_
      split_ifs
      · exact .raise hw₁ trivial
      cases message with
      | text s => exact .raise hw₁ trivial
      | binary bytes =>
        obtain ⟨info', W, hrun, htame, hstored, hsteady, harch⟩ :=
          countMessage_tame P bytes h (show w.tick.info ws = some info from hinfo)
        refine .step hrun ?_
        dsimp only
        by_cases hbudget : overBudget info' = true
        · rw [if_pos hbudget]
          exact .raise (hw₁.tame htame) trivial
        have hlive' : info'.archived = false := harch.trans hlive
        have htake : Tame h W (W.take ws bytes.length (P.clock w.tick.reads)) :=
          .of_sockets rfl rfl le_rfl le_rfl ⟨rfl, rfl⟩ rfl
        have hw₂ := (hw₁.tame htame).tame htake
        rw [if_neg hbudget]
        refine .step (a := ()) (u := W.take ws bytes.length (P.clock w.tick.reads)) rfl ?_
        by_cases hphase : info'.phase = .challenge
        · rw [if_pos hphase]
          exact .await ((authorize_heeds hw₂ hstored hlive').mono (fun _ _ _ _ _ => trivial)
            fun _ _ _ _ _ => trivial)
        rw [if_neg hphase]
        by_cases hauth : info'.phase ≠ .authenticated
        · rw [if_pos hauth]
          exact .raise hw₂ trivial
        rw [if_neg hauth]
        cases hframe : clientFrame (.binary bytes) with
        | none => exact .raise hw₂ trivial
        | some data =>
          exact serve_heeds hw₂ hstored hlive' hevent hframe hinfo (hsteady.live hlive').2.2.1.symm

/-- `webSocketMessage` keeps every deadline armed and never throws: whatever is thrown in it ends
in `finish`. -/
theorem webSocketMessage_heeds {message : Message} (hw : Under P h true m w w)
    (hevent : w.event = some (.message ws message)) :
    Heeds P J h (fun _ => true) true (fun _ _ => True) (fun _ _ => False) m w
      (webSocketMessage P ws message w) :=
  .rescue (handleMessage_heeds hw hevent) fun _ _ _ _ hs _ =>
    .await ((finish_heeds hs).mono (fun _ _ _ _ _ => trivial) fun _ _ hE => hE)

end IrohExperiment.Relay
