/-
# Every handler heeds its regime (`worker/src/iroh-relay.js`)

The handlers once more, taken apart along their source, for what they do about
deadlines and the alarm of the room.  Most of what they do is tame.  The exceptions
are an accepted socket, an authentication that is claimed, a pong that is valid, a
ping that is sent, and a `meta` that is stored.

`fetch_heeds` is the last of them.  What is owed in between is paid by the `schedule` at the
end of each handler, whoever else runs meanwhile.
-/
import IrohExperiment.Relay.Arming

namespace IrohExperiment.Relay

open Coop Coroutine

variable {P : Platform} {J : World → Prop} {h : ℕ} {c e : Bool} {m : Mode}
  {E : Fault → World → Prop} {w w' s₀ : World} {ws : SocketId}

/-! ## `send` and `finish` -/

theorem Departure.owner_fold (d : Departure) : d.fold.owner = d.owner := by cases d <;> rfl

theorem Departure.view_fold (d : Departure) : d.fold.view = d.view := by cases d <;> rfl

theorem Departure.owner_announce (d : Departure) : d.announce.owner = d.owner := by cases d <;> rfl

theorem Departure.view_announce (d : Departure) : d.announce.view = d.view := by cases d <;> rfl

theorem Departure.owner_miss (d : Departure) (peer : SocketId) : (d.miss peer).owner = d.owner := by
  cases d <;> rfl

theorem Departure.view_miss (d : Departure) (peer : SocketId) : (d.miss peer).view = d.view := by
  cases d <;> rfl

theorem Departure.owner_conclude (d : Departure) (told : View) :
    (d.conclude told).owner = d.owner := by cases d <;> rfl

theorem Departure.view_conclude (d : Departure) (told : View) :
    (d.conclude told).view = d.view := by cases d <;> rfl

/-- The retirement of a socket goes on. -/
theorem tame_depart (f : Departure → Departure) (howner : ∀ d, (f d).owner = d.owner)
    (hview : ∀ d, (f d).view = d.view) : Tame h w (w.depart ws f) :=
  tame_mark _ (fun _ => rfl) fun s => ⟨howner s.departure, hview s.departure⟩

/-- Sending changes counters and no deadline. -/
theorem send_heeds {bytes : Bytes} {category : Option Counter} {about : Option SocketId}
    (hw : Under P h c m s₀ w) :
    Heeds P J h (fun _ => c) c (fun _ s => Retains h w s) (fun _ s => Retains h w s) m s₀
      (send P ws bytes category about w) := by
  have hcall := tame_call h w
  cases hinfo : w.info ws with
  | none =>
    cases hthrows : P.throws w.calls with
    | true =>
      have hsend : send P ws bytes category about w = .fail .sendFailed w.call := by
        simp [send, attachment, wsSend, hinfo, hthrows]
      rw [hsend]
      exact .fail (hw.tame hcall) hcall.retains
    | false =>
      have hsend : send P ws bytes category about w =
          .fail .typeError (w.call.transmit ws bytes about) := by
        simp [send, attachment, wsSend, hinfo, hthrows]
      have htame : Tame h w (w.call.transmit ws bytes about) :=
        .of_sockets rfl rfl le_rfl (Nat.le_succ _) ⟨rfl, rfl⟩ rfl
      rw [hsend]
      exact .fail (hw.tame htame) htame.retains
  | some info =>
    rw [send_eq hinfo]
    split_ifs with hthrows
    · exact .fail (hw.tame hcall) hcall.retains
    · have htame : Tame h w (w.call.sent ws info bytes category about) :=
        hcall.trans (tame_sent (w := w.call) hinfo)
      exact .done (hw.tame htame) htame.retains

/-- Telling the others of a departure changes no deadline. -/
theorem announce_heeds {id : Text} {peers : List SocketId} (hw : Under P h c m s₀ w) :
    Heeds P J h (fun _ => c) e (fun _ s => Retains h w s) E m s₀ (announce P ws id peers w) := by
  induction peers generalizing m s₀ w with
  | nil => exact .done hw (retiring_refl h _ w)
  | cons peer rest ih =>
    refine .step rfl (.bind (b := fun _ => c) (Q := fun _ s => Retains h w s) ?_ ?_)
    · refine .when (fun _ => .rescue (send_heeds hw) fun _ m₁ s₁ s hs hretains => ?_)
        fun _ => ⟨hw, retiring_refl h _ w⟩
      have htame : Tame h s (s.depart ws (.miss peer)) :=
        tame_depart _ (fun d => d.owner_miss peer) fun d => d.view_miss peer
      exact .done (hs.tame htame) (hretains.trans htame.retains)
    · exact fun _ m₁ s₁ s hs hretains => (ih hs).mono (fun _ _ h => hretains.trans h)
        fun _ _ hE => hE

/-- What is paid for may be taken as owed. -/
theorem Under.lower (hw : Under P h true m s₀ w) : Under P h c m s₀ w :=
  ⟨hw.current, hw.event, hw.idle, hw.alarm, hw.reads, hw.timed, hw.coupled, fun _ => hw.paid rfl⟩

/-- The part of `finish` after the socket was archived. -/
theorem windUp_heeds {code : ℕ} {reason : Text} {info : Attachment} (hw : Under P h c m s₀ w) :
    Heeds P J h (fun _ => true) e (fun _ s => Retains h w s) E m s₀
      (windUp P ws code reason info w) := by
  -- the connection is closed
  obtain ⟨w₁, hrun, htame⟩ : ∃ w₁,
    ((wsClose P ws (closeCode code) reason).rescue fun _ => pure ()) w =
      .done () w₁ ∧ Tame h w w₁ := by
    cases hthrows : P.throws w.calls with
    | true => exact ⟨w.call, by simp [wsClose, hthrows], tame_call h w⟩
    | false =>
      have hclose : Tame h w.call (w.call.close ws (closeCode code) reason) :=
        tame_mark _ (fun _ => rfl) fun _ => ⟨rfl, rfl⟩
      exact ⟨_, by simp [wsClose, hthrows], (tame_call h w).trans hclose⟩
  refine .step hrun ?_
  have hw₁ := hw.tame htame
  -- the counters are added to those of the closed sockets
  refine .bind (b := fun _ => c) (Q := fun _ s => Retains h w s)
    (.request hw₁ rfl fun s hr => ?_) ?_
  · have hclosed : Tame h s
        (s.tick.folded ws info ⟨P.clock s.reads, code, reason.take 120, info.id⟩) := by
      have hstored : Tame h s.tick (s.tick.setStorage fun st => { st with
          closed := some (foldClosed st.closed info
            ⟨P.clock s.reads, code, reason.take 120, info.id⟩) }) :=
        .of_sockets rfl rfl le_rfl le_rfl ⟨rfl, rfl⟩ rfl
      exact (tame_tick h s).trans
        (hstored.trans (tame_depart _ Departure.owner_fold Departure.view_fold))
    exact .done (a := ()) (hr.under.tame hclosed) fun s' hr' =>
      ((htame.retains.trans hr.retains).trans hclosed.retains).trans hr'.retains
  rintro - m₁ s₁ s hs hretains
  -- the others are told
  have hannounce : Tame h s (s.depart ws .announce) :=
    tame_depart _ Departure.owner_announce Departure.view_announce
  refine .step (a := ()) (u := s.depart ws .announce) rfl ?_
  refine .bind (b := fun _ => c) (Q := fun _ s' => Retains h w s') ?_ ?_
  · cases info.id with
    | none => exact .done (hs.tame hannounce) (hretains.trans hannounce.retains)
    | some id =>
      exact .step rfl ((announce_heeds (hs.tame hannounce)).mono
        (fun _ _ h => (hretains.trans hannounce.retains).trans h) fun _ _ hE => hE)
  rintro - m₂ s₂ s' hs' hretains'
  have hconclude : Tame h s' (s'.depart ws (.conclude s'.info)) :=
    tame_depart _ (fun d => d.owner_conclude s'.info) fun d => d.view_conclude s'.info
  refine .step (a := ()) (u := s'.depart ws (.conclude s'.info)) rfl (.await ?_)
  exact (schedule_heeds (hs'.tame hconclude)).mono (fun _ _ h s'' hr =>
    ((hretains'.trans hconclude.retains).trans h).trans hr.retains) fun _ _ hE => hE

/-- `ws` was retired as it was in `w`. -/
def RetiredFrom (w : World) (ws T : SocketId) (seen : View) : Prop :=
  T = ws ∧ ∃ info, w.info ws = some info ∧ info.archived = false ∧
    seen ws = some { info with archived := true }

/-- `finish` retires the one socket, if it is live. -/
theorem finish_heeds {code : ℕ} {reason : Text} (hw : Under P h c m s₀ w) :
    Heeds P J h (fun _ => c) e (fun _ s => Retiring h (RetiredFrom w ws) w s ∧
      ∀ info, w.info ws = some info → Archived s.info ws) E m s₀ (finish P ws code reason w) := by
  cases hinfo : w.info ws with
  | none =>
    rw [finish_none hinfo]
    exact .done hw ⟨retiring_refl h _ w, fun info hi => by cases hi⟩
  | some info =>
    cases hlive : info.archived with
    | true =>
      rw [finish_archived hinfo hlive]
      exact .done hw ⟨retiring_refl h _ w, fun _ _ => ⟨info, hinfo, hlive⟩⟩
    | false =>
      have harch : (w.retired ws info).info ws = some { info with archived := true } := by
        simp [World.info]
      have hothers : ∀ T, T ≠ ws → (w.retired ws info).socket T = w.socket T := fun T hT => by
        simp [hT]
      have heases : Eases w (w.retired ws info) := by
        have hsteady : info.Steady { info with archived := true } :=
          ⟨fun _ => rfl, fun harch => by cases harch⟩
        refine .of_one hinfo hsteady rfl rfl le_rfl ⟨rfl, rfl⟩ harch fun T hT => ?_
        rw [World.info, World.info, hothers T hT]
      have hretiring : Retiring h (RetiredFrom w ws) w (w.retired ws info) := by
        refine ⟨List.prefix_refl _, le_rfl, le_rfl, fun _ => heases.archived, fun T ho => ?_⟩
        by_cases hT : T = ws
        · subst hT
          exact .inr ⟨(w.retired T info).info, by rw [retired_departure]; rfl, rfl, info, hinfo,
            hlive, harch⟩
        · exact .inl ⟨hothers T hT ▸ ho, by rw [hothers T hT]⟩
      rw [finish_live hinfo hlive]
      refine Outcome.Follows.mono (windUp_heeds (hw.eases heases))
        (fun _ _ _ s hs => ⟨hs.1.lower, ?_, ?_⟩)
        fun _ _ _ _ hs => hs
      · exact hretiring.trans (.of_retains hs.2)
      · exact fun _ _ => hs.2.archived ws ⟨_, harch, rfl⟩

/-! ## `fetch` -/

/-- `/relay-stats` is read and nothing is written. -/
theorem snapshot_heeds (hw : Under P h c m s₀ w) :
    Heeds P J h (fun _ => c) e (fun _ _ => True) E m s₀ (snapshot P w) := by
  have read : ∀ {α : Type} (f : Storage → α) {m : Mode} {s₀ s : World}, Under P h c m s₀ s →
      Heeds P J h (fun _ => c) e (fun _ _ => True) E m s₀ (request .stats (readStorage f) s) :=
    fun f _ _ _ hs => .request hs rfl fun _ hr => .done hr.under fun _ _ => trivial
  refine .bind (read _ hw) fun _ m₁ s₁ s hs _ => ?_
  refine .bind (read _ hs) fun _ m₂ s₂ s' hs' _ => .step rfl (.step rfl ?_)
  refine .bind (read _ (hs'.tame (tame_tick h s'))) fun _ m₃ s₃ s'' hs'' _ => ?_
  refine .bind (read _ hs'') fun _ m₄ s₄ s₅ hs₅ _ => ?_
  exact .done hs₅ trivial

/-- An update that owes the room an alarm, but leaves the attachments as they are. -/
theorem Under.owes (hw : Under P h c m s₀ w) (halarm : w'.storage.alarm = w.storage.alarm)
    (hreads : w.reads ≤ w'.reads)
    (hhandler : w'.past.current = w.past.current ∧ w'.past.arrivals = w.past.arrivals)
    (hinfo : w'.info = w.info) : Under P h false m s₀ w' := by
  refine ⟨hhandler.1.trans hw.current, ?_, hw.idle, halarm.trans hw.alarm, hw.reads.trans hreads,
    fun now ws hnow hlate => ?_, ?_, nofun⟩
  · exact (event_of_handler hhandler).trans hw.event
  · simpa only [World.Late, World.Cleared, hinfo] using hw.timed now ws hnow hlate
  · simpa only [World.Coupled, hinfo] using hw.coupled

/-- Nothing is owed when the upgrade is refused. -/
theorem admission_heeds {room : Room} (hw : Under P h true m s₀ w) :
    Heeds P J h (fun admitted => !admitted) e (fun _ _ => True) E m s₀ (admission P room w) := by
  rw [admission_eq]
  split_ifs
  · exact .done hw trivial
  · exact .done (hw.owes rfl le_rfl ⟨rfl, rfl⟩ rfl) trivial
  · exact .done (hw.owes rfl (Nat.le_succ _) ⟨rfl, rfl⟩ rfl) trivial

/-- A socket is accepted, with a deadline. -/
theorem Under.accept {challenge : Bytes} {due expires bucket : ℕ} (hw : Under P h c m s₀ w)
    (hnew : w.info w.count = none) :
    Under P h false m s₀ (w.accepted (.opening challenge due expires bucket) challenge due) := by
  have hothers : ∀ T info, w.info T = some info →
      (w.accepted (.opening challenge due expires bucket) challenge due).info T = some info := by
    intro T info hinfo
    have hT : T ≠ w.count := by
      rintro rfl
      rw [hnew] at hinfo
      cases hinfo
    simpa [World.info, hT] using hinfo
  refine ⟨hw.current, hw.event, hw.idle, hw.alarm, hw.reads, fun now ws hnow hlate => ?_,
    fun ws info hinfo hlive hphase hping => ?_, fun hpaid => by cases hpaid⟩
  · rcases hw.timed now ws hnow hlate with
      ⟨info, hinfo, h⟩ | ⟨info, hinfo, h⟩ | ⟨hpong, info, hinfo, h⟩
    · exact .inl ⟨info, hothers ws info hinfo, h⟩
    · exact .inr (.inl ⟨info, hothers ws info hinfo, h⟩)
    · exact .inr (.inr ⟨hpong, info, hothers ws info hinfo, h⟩)
  · by_cases hws : ws = w.count
    · obtain rfl : Attachment.opening challenge due expires bucket = info := by
        simpa [World.info, hws] using hinfo
      cases hphase
    · exact hw.coupled ws info (by simpa [World.info, hws] using hinfo) hlive hphase hping

/-- A socket is accepted with a deadline that `schedule` pays for; only its challenge can fail to
be sent. -/
theorem accept_heeds {room : Room} (hw : Under P h c m s₀ w) (hI : Inv P w) :
    Heeds P J h (fun _ => true) false (fun _ _ => True) (fun f _ => f = .sendFailed) m s₀
      (accept P room w) := by
  have hnew : w.info w.count = none := by
    by_contra hne
    exact (lt_irrefl w.count) ((hI.known w.count).mpr (Option.isSome_iff_ne_none.mpr hne))
  have hw₁ : Under P h c m s₀ w.draw.tick.tick :=
    ((hw.tame (tame_draw h w)).tame (tame_tick h _)).tame (tame_tick h _)
  generalize hW : w.draw.tick.tick.accepted
    (.opening (P.random w.draws 16) (P.clock w.reads + 10000)
    room.expires (P.clock (w.reads + 1))) (P.random w.draws 16) (P.clock w.reads + 10000) = W
  have hrun : accept P room w = (do
      send P w.count (challengeFrame (P.random w.draws 16)) none none
      await .schedule (schedule P)
      upgradeResponse w.count) W := by
    rw [← hW]
    rfl
  have hW' : Under P h false m s₀ W := hW ▸ hw₁.accept hnew
  have hinfo : W.info w.count = some (.opening (P.random w.draws 16) (P.clock w.reads + 10000)
      room.expires (P.clock (w.reads + 1))) := by
    rw [← hW]
    simp [World.info]
  -- the challenge is sent
  have hsend : Heeds P J h (fun _ => false) false (fun _ _ => True)
    (fun f _ => f = .sendFailed) m s₀
      (send P w.count (challengeFrame (P.random w.draws 16)) none none W) := by
    rw [send_eq hinfo]
    split_ifs
    · exact .fail (hW'.tame (tame_call h W)) rfl
    · exact .done (hW'.tame ((tame_call h W).trans (tame_sent (w := W.call) hinfo))) trivial
  rw [hrun]
  refine .bind hsend ?_
  intro _ m₁ s₁ s hs _
  refine .bind (b := fun _ => true) (Q := fun _ _ => True)
    (.await ((schedule_heeds hs).mono (fun _ _ _ _ _ => trivial) fun _ _ hE => hE)) ?_
  intro _ m₂ s₂ s' hs' _
  exact .done (hs'.tame (tame_mark _ (fun _ => rfl) fun _ => ⟨rfl, rfl⟩)) trivial

/-- An upgrade fails if the challenge cannot be sent; it may then owe an alarm. -/
theorem fetch_heeds {r : Request} (hw : Under P h true m s₀ w) :
    Heeds P J h (fun _ => true) false (fun _ _ => True) (fun f _ => f = .sendFailed) m s₀
      (fetch P r w) := by
  have hw₁ := hw.tame (tame_tick h w)
  refine .step rfl ?_
  cases relayRoom P.number r (P.clock w.reads) r.stats with
  | none => exact .done hw₁ trivial
  | some room =>
    dsimp only
    split_ifs
    · refine .bind (b := fun _ => true) (Q := fun _ _ => True)
        (.await ((snapshot_heeds hw₁).mono (fun _ _ _ _ _ => trivial) fun _ _ hE => hE)) ?_
      exact fun _ m₁ s₁ s hs _ => .done hs trivial
    · exact .done hw₁ trivial
    · exact .done hw₁ trivial
    · refine .bind (b := fun admitted => !admitted) (Q := fun _ s => Inv P s) ?_ ?_
      · exact .await (.request hw₁ rfl fun s hr => (admission_heeds hr.under).mono
          (fun _ _ _ _ _ _ hr' => hr'.inv) fun _ _ hE => hE)
      · rintro (_ | _) m₁ s₁ s hs hI
        · exact .done hs trivial
        · exact accept_heeds hs hI

end IrohExperiment.Relay
