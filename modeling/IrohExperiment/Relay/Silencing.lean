/-
# Sockets that are shut are silenced (`worker/src/iroh-relay.js`)

Once a socket is shut, the handler of a later message from it changes nothing but
the socket itself and the alarm, and no frame is sent to the socket any more.
Together with the budget this is how the room fails closed.

The main result is `fails_closed`: what a socket may spend before its first violation, and
that nothing of it is heard after it.
-/
import IrohExperiment.Relay.Violations

namespace IrohExperiment.Relay

open Coop Coroutine

variable {P : Platform} {κ : Trigger Event Point → World → Prop}
    {ls ls' : List (Label Event Effect)}
  {c c' c₁ c₂ c₃ : RoomConfig} {w w' u s₀ : World} {ws : SocketId} {h n : ℕ} {α β : Type}

/-! ## Handlers that touch nobody else -/

/-- The other sockets are as they were, and nothing was sent. -/
structure Hushes (ws : SocketId) (w w' : World) : Prop where
  others : ∀ T, T ≠ ws → w'.socket T = w.socket T
  wire : w'.past.wire = w.past.wire

theorem hushes_refl (ws : SocketId) (w : World) : Hushes ws w w := ⟨fun _ _ => rfl, rfl⟩

theorem Hushes.trans (h : Hushes ws w u) (h' : Hushes ws u w') : Hushes ws w w' :=
  ⟨fun T hT => (h'.others T hT).trans (h.others T hT), h'.wire.trans h.wire⟩

/-- What a handler does beside a socket sends nothing to it. -/
theorem Aside.hushes {info : Attachment} (h : Aside ws w u info) : Hushes ws w u :=
  ⟨h.others, h.wire⟩

/-- `ws` is archived or has no id: nobody needs to be told when it leaves. -/
def Mute (ws : SocketId) (w : World) : Prop :=
  ∀ info, w.info ws = some info → info.archived = true ∨ info.id = none

/-- The regime of handlers that touch no socket but `ws` and send nothing, given that
`ws` is mute whenever they go on. -/
def hush (ws : SocketId) : Regime Unit Point World where
  turn _ w _ w' _ := Hushes ws w w'
  rely _ w' := Mute ws w'

/-- The current stretch began in `s₀`; it and all that follow keep to the regime, and
`Q` holds of the result.  `ws` is mute when an exception is thrown. -/
def Hushed (ws : SocketId) (Q : α → World → Prop) (s₀ : World) (o : Outcome Point World Fault α) :
    Prop :=
  o.Follows (hush ws) (fun a _ s₁ s => Hushes ws s₁ s ∧ Q a s)
    (fun _ _ s₁ s => Hushes ws s₁ s ∧ Mute ws s) () s₀

namespace Hushed

variable {Q Q' : α → World → Prop} {R : β → World → Prop}

theorem done {a : α} (hw : Hushes ws s₀ w) (hQ : Q a w) : Hushed ws Q s₀ (.done a w) := ⟨hw, hQ⟩

theorem fail {e : Fault} (hw : Hushes ws s₀ w) (hmute : Mute ws w) : Hushed ws Q s₀ (.fail e w) :=
  ⟨hw, hmute⟩

theorem bind {t : Async α} {f : α → Async β} (ht : Hushed ws Q s₀ (t w))
    (hf : ∀ a s₁ s, Hushes ws s₁ s → Q a s → Hushed ws R s₁ (f a s)) :
    Hushed ws R s₀ ((t >>= f) w) :=
  (follows_bind t f).mpr (Outcome.Follows.mono ht (fun a _ s₁ s hs => hf a s₁ s hs.1 hs.2)
    fun _ _ _ _ hs => hs)

theorem step {t : Async α} {f : α → Async β} {a : α} (ht : t w = .done a u)
    (hf : Hushed ws R s₀ (f a u)) : Hushed ws R s₀ ((t >>= f) w) := by
  rw [bind_of_done ht]
  exact hf

theorem rescue {t : Async α} {f : Fault → Async α} (ht : Hushed ws Q s₀ (t w))
    (hf : ∀ e s₁ s, Hushes ws s₁ s → Mute ws s → Hushed ws Q s₁ (f e s)) :
    Hushed ws Q s₀ ((t.rescue f) w) :=
  (follows_rescue t f).mpr (Outcome.Follows.mono ht (fun _ _ _ _ hs => hs)
    fun e _ s₁ s hs => hf e s₁ s hs.1 hs.2)

/-- A method is awaited; afterwards `ws` is mute. -/
theorem await {site : Site} {t : Async α} (ht : Hushed ws Q s₀ (t w))
    (hQ : ∀ a s, Mute ws s → Q' a s) : Hushed ws Q' s₀ (Relay.await site t w) :=
  (follows_await _ t).mpr (Outcome.Follows.mono ht
    (fun a _ _ _ hs => ⟨(), hs.1, fun s' hs' => ⟨hushes_refl ws s', hQ a s' hs'⟩⟩)
    fun _ _ _ _ hs => ⟨(), hs.1, fun s' hs' => ⟨hushes_refl ws s', hs'⟩⟩)

/-- A request is made and carried out. -/
theorem request {site : Site} {op : Async α} (hw : Hushes ws s₀ w)
    (hop : ∀ s, ∃ a s', op s = .done a s' ∧ Hushes ws s s') (hQ : ∀ a s, Mute ws s → Q a s) :
    Hushed ws Q s₀ (Relay.request site op w) := by
  refine (follows_await _ _).mpr
    ((follows_bind _ _).mpr ((follows_yield _).mpr ⟨(), hw, fun s _ => ?_⟩))
  obtain ⟨a, s', hrun, hs⟩ := hop s
  rw [hrun]
  exact ⟨(), hs, fun s'' hs'' => ⟨hushes_refl ws s'', hQ a s'' hs''⟩⟩

end Hushed

/-! ## `schedule` and `finish` -/

/-- `schedule` sends nothing. -/
theorem schedule_hushed (hw : Hushes ws s₀ w) :
    Hushed ws (fun _ s => Mute ws s) s₀ (schedule P w) := by
  refine .bind (Q := fun _ s => Mute ws s)
    (.request hw (fun s => ⟨s.storage.roomMeta, s, rfl, hushes_refl ws s⟩) fun _ _ hs => hs) ?_
  rintro (_ | m) s₁ s hs hmute
  · exact .done hs hmute
  · refine .step rfl (.step rfl ?_)
    exact .request (hs.trans ⟨fun _ _ => rfl, rfl⟩)
      (fun s => ⟨(), _, rfl, fun _ _ => rfl, rfl⟩) fun _ _ hs => hs

/-- History about `ws` is recorded. -/
theorem hushes_mark (ws : SocketId) (w : World) (f : Socket → Socket) :
    Hushes ws w (w.setSocket ws f) :=
  ⟨fun T hT => by simp [hT], rfl⟩

/-- Nobody is told that a socket without an id leaves. -/
theorem windUp_hushed {code : ℕ} {reason : Text} {info : Attachment} (hw : Hushes ws s₀ w)
    (hid : info.id = none) :
    Hushed ws (fun _ s => Mute ws s) s₀ (windUp P ws code reason info w) := by
  obtain ⟨s, hrun, -, hothers, hpast⟩ := close_run P ws (closeCode code) reason w
  refine .step hrun (.bind (Q := fun _ _ => True)
    (.request (hw.trans ⟨hothers, by rw [hpast]⟩) (fun s => ⟨(), _, rfl, ?_⟩) fun _ _ _ => trivial)
      ?_)
  · exact ⟨fun T hT => by simp [hT], rfl⟩
  · rintro - s₁ s₂ hs -
    rw [hid]
    refine .step rfl (.step rfl (.step rfl (.await (schedule_hushed ?_) fun _ _ hs => hs)))
    exact (hs.trans (hushes_mark ws s₂ _)).trans (hushes_mark ws _ _)

/-- `finish` sends nothing to a mute socket. -/
theorem finish_hushed {code : ℕ} {reason : Text} (hw : Hushes ws s₀ w) (hmute : Mute ws w) :
    Hushed ws (fun _ s => Mute ws s) s₀ (finish P ws code reason w) := by
  cases hinfo : w.info ws with
  | none =>
    have hrun : finish P ws code reason w = .done () w := by simp [finish, attachment, hinfo]
    rw [hrun]
    exact .done hw hmute
  | some info =>
    cases hlive : info.archived with
    | true =>
      rw [finish_archived hinfo hlive]
      exact .done hw hmute
    | false =>
      have hid : info.id = none := (hmute info hinfo).resolve_left (by simp [hlive])
      rw [finish_live hinfo hlive]
      refine windUp_hushed (hw.trans ⟨fun T hT => ?_, rfl⟩) hid
      exact World.retired_socket_of_ne hT

/-! ## `webSocketMessage` -/

/-- A socket that is shut is mute. -/
theorem Shut.mute (hI : Inv P w) (hs : Shut P h ws w) : Mute ws w := by
  intro info hinfo
  have hshape := hI.shape ws info hinfo
  cases hs with
  | archived harch =>
    obtain ⟨i, hi, harch⟩ := harch
    obtain rfl := Option.some.inj (hinfo.symm.trans hi)
    exact .inl harch
  | unproved hi hphase =>
    obtain rfl := Option.some.inj (hinfo.symm.trans hi)
    exact .inr (hshape.handshake (by simp [hphase])).1
  | overdue hi hphase =>
    obtain rfl := Option.some.inj (hinfo.symm.trans hi)
    exact .inr (hshape.handshake hphase).1

/-- A message from a socket that is shut is rejected. -/
theorem handleMessage_hushed {m : Message} {info : Attachment} (hI : Inv P w) (hs : Shut P h ws w)
    (hinfo : w.info ws = some info) :
    Hushed ws (fun _ s => Mute ws s) w (handleMessage P ws m w) := by
  have hmute := hs.mute hI info hinfo
  have mute : ∀ {u : World} {info' : Attachment}, u.info ws = some info' →
      info'.archived = info.archived → info'.id = info.id → Mute ws u := by
    intro u info' hu harch hid i hi
    obtain rfl := Option.some.inj (hu.symm.trans hi)
    rwa [harch, hid]
  rcases handleMessage_cases hinfo m with ⟨e, u, info', hrun, hu, harch, hid⟩ |
    ⟨bytes, W, rfl, hlive, -, -, hW, hrun⟩
  · rw [hrun]
    exact .fail hu.hushes (mute hu.info harch hid)
  obtain ⟨hphase, hid, harch, hdeadline, -⟩ := counted_face P (w.reads + 1) info bytes
  generalize info.counted P (w.reads + 1) bytes = info' at *
  have hmuteW := mute hW.info harch hid
  have hinprogress : info.phase = .verifying →
      handleMessage P ws (.binary bytes) w = .fail .inProgress W := by
    intro hp
    rw [hrun, dispatch, hphase, hp]
    rfl
  -- the socket is archived, still verifying, or past its deadline
  cases hs with
  | archived harch' =>
    obtain ⟨i, hi, harch'⟩ := harch'
    obtain rfl := Option.some.inj (hinfo.symm.trans hi)
    simp [hlive] at harch'
  | unproved hi hp =>
    obtain rfl := Option.some.inj (hinfo.symm.trans hi)
    rw [hinprogress hp]
    exact .fail hW.hushes hmuteW
  | overdue hi hne hdue =>
    obtain rfl := Option.some.inj (hinfo.symm.trans hi)
    by_cases hp : info.phase = .verifying
    · rw [hinprogress hp]
      exact .fail hW.hushes hmuteW
    · -- the deadline for the answer has passed
      have hchallenge : info.phase = .challenge := by
        cases hphase' : info.phase with
        | challenge => rfl
        | verifying => exact absurd hphase' hp
        | authenticated => exact absurd hphase' hne
      have hlate : reached (P.clock W.reads) info'.deadline = true := by
        rw [hdeadline, ((hI.shape ws info hinfo).handshake hne).2.2]
        exact decide_eq_true (hdue.trans (P.clock_mono hW.reads))
      have htimeout : authorize P ws bytes W = .fail .authTimeout W.tick := by
        have hattach : attachmentOf ws W = .done info' W := by simp [attachmentOf, hW.info]
        rw [authorize, bind_of_done hattach,
          bind_of_done (show dateNow P W = .done (P.clock W.reads) W.tick from rfl), if_pos hlate]
        rfl
      rw [hrun, dispatch, if_pos (hphase.trans hchallenge)]
      refine .await (Q := fun _ _ => True) ?_ fun _ _ hs => hs
      rw [htimeout]
      exact .fail (hW.hushes.trans ⟨fun _ _ => rfl, rfl⟩) hmuteW

/-- The handler of a message from a socket that is shut touches nobody else. -/
theorem handler_hushed {m : Message} {info : Attachment} (hI : Inv P w) (hs : Shut P h ws w)
    (hinfo : w.info ws = some info) :
    Hushed ws (fun _ s => Mute ws s) w ((room P).program (.message ws m) w) := by
  refine .bind (Q := fun _ s => Mute ws s) ?_ fun _ s₁ s hs hmute => .done hs hmute
  refine .rescue (handleMessage_hushed hI hs hinfo) fun e s₁ s hs hmute => ?_
  exact .await (finish_hushed hs hmute) fun _ _ hs => hs

/-! ## Runs -/

/-- Nothing is verified before a handler has taken the answer up. -/
theorem Act.unverified (h : Act P κ w w') (hw : w.Unverified ws) : w'.Unverified ws := by
  intro hnone
  cases h.alters ws with
  | same hsocket =>
    rw [hsocket] at hnone ⊢
    exact hw hnone
  | verified hauthorizer _ hsocket =>
    rw [hsocket] at hnone
    exact absurd (hauthorizer.symm.trans hnone) (by simp)
  | accepted _ _ _ _ _ hsocket => rw [hsocket]; rfl
  | verify _ _ _ _ hsocket =>
    rw [hsocket] at hnone
    cases hnone
  | touched _ _ _ _ _ hsocket | connected _ _ hsocket | claimed _ _ hsocket
  | retired _ _ _ hsocket | departed _ _ _ _ hsocket =>
    rw [hsocket] at hnone ⊢
    exact hw hnone

/-- In every run nothing is verified before a handler has taken the answer up. -/
theorem RunsFrom.unverified (hr : RunsFrom P κ freshRoom ls c) (ws : SocketId) :
    c.state.Unverified ws := by
  refine room_keeps (J := fun w => w.Unverified ws) hr (fun _ => rfl) (fun w w' _ hJ hrest => ?_)
    fun _ _ _ hJ ha => ha.unverified hJ
  intro hnone
  obtain ⟨r, hsocket⟩ := hrest.socket ws
  rw [hsocket] at hnone ⊢
  exact hJ hnone

/-- The handlers after handler `h` that messages from `ws` started keep to the
regime. -/
def Silenced (P : Platform) (h : ℕ) (ws : SocketId) (c : RoomConfig) : Prop :=
  ∀ k m, h < k → k < c.started → c.state.past.arrivals[k]? = some (.message ws m) →
    Tracked (room P) (Stretch P anytime) (Inv P) (hush ws) (fun _ _ s₀ s => Hushes ws s₀ s) k () c

theorem hushes_of_stint {m m' : Unit}
    (h : Stint (hush ws) (fun _ _ s₀ s => Hushes ws s₀ s) n m s₀ c m') :
    Hushes ws s₀ c.state := by
  cases h with
  | waits _ hturn => exact hturn
  | ends _ _ hfin => exact hfin

theorem hushes_begin {e : Event} (hb : (room P).begin n e w = some w') : Hushes ws w w' := by
  simp only [room] at hb
  split_ifs at hb
  obtain rfl := Option.some.inj hb
  exact ⟨fun _ _ => rfl, rfl⟩

/-- The event of a handler has arrived when it starts. -/
theorem arrived_of_begin {e : Event} (hb : (room P).begin n e w = some w') :
    e ∈ w'.past.arrivals := by
  simp only [room] at hb
  split_ifs at hb
  obtain rfl := Option.some.inj hb
  exact List.mem_append_right _ (List.mem_singleton_self e)

/-- The events of earlier handlers are not touched. -/
theorem RunsFrom.arrivals_later (hr : RunsFrom P κ freshRoom ls c) (hr' : Runs (room P) κ c ls' c')
    {k : ℕ} (hk : k < c.started) : c'.state.past.arrivals[k]? = c.state.past.arrivals[k]? := by
  obtain ⟨rest, hrest⟩ := (hr.extends_later hr').arrivals
  rw [← hrest, List.getElem?_append_left]
  rwa [(hr.arrivals rfl).2]

/-- Whatever is done next, a socket that was shut stays silent: handlers of its later messages
touch nobody else and send nothing. -/
theorem Silenced.step {ℓ : Label Event Effect} (hr : Runs (room P) anytime freshRoom ls c)
    (hs : Silenced P h ws c) (hshut : Shut P h ws c.state) (hstep : c.step (room P) ℓ = some c') :
    Silenced P h ws c' ∧ ∀ k m, h < k → Queued.runner c ℓ = some k →
      c'.state.past.arrivals[k]? = some (.message ws m) → Hushes ws c.state c'.state := by
  have hrun := runsFrom_fresh hr
  have hmeets := meets_anytime (P := P) c ℓ
  have hone : Runs (room P) anytime c [ℓ] c' := Runs.nil.snoc hmeets hstep
  have hrun' := runsFrom_fresh (hr.trans hone)
  have hlen := (hrun.arrivals rfl).2
  -- the handlers that were started before
  have old : ∀ k m, h < k → k < c.started → c'.state.past.arrivals[k]? = some (.message ws m) →
      Tracked (room P) (Stretch P anytime) (Inv P) (hush ws)
        (fun _ _ s₀ s => Hushes ws s₀ s) k () c' ∧
        (ℓ = .resume k → Hushes ws c.state c'.state) := by
    intro k m hk hlt hevent
    rw [hrun.arrivals_later hone hlt] at hevent
    obtain ⟨m', ht, hcase⟩ :=
      Tracked.step (room_sound P anytime) (room_invariant P anytime) hrun.legit
      hmeets hstep hlt (hs k m hk hlt hevent) fun s _ _ _ =>
        (hshut.rests (rests_enter P k c.state)).mute (hrun.inv_end.rests (rests_enter P k c.state))
    refine ⟨ht, fun hℓ => ?_⟩
    rcases hcase with ⟨-, -, hstint⟩ | ⟨hne, -⟩
    · exact (show Hushes ws c.state ((room P).enter k c.state) from ⟨fun _ _ => rfl, rfl⟩).trans
        (hushes_of_stint hstint)
    · exact absurd hℓ hne
  have hstarted := hrun.legit.progress (room_sound P anytime)
    (room_invariant P anytime) hmeets hstep
  cases ℓ with
  | start e =>
    have hnext : c'.started = c.started + 1 := by
      cases hstarted with
      | start _ _ _ hstarted => exact hstarted
    -- the handler that is started now
    have new : ∀ m, c'.state.past.arrivals[c.started]? = some (.message ws m) →
        Tracked (room P) (Stretch P anytime) (Inv P) (hush ws) (fun _ _ s₀ s => Hushes ws s₀ s)
          c.started () c' ∧ Hushes ws c.state c'.state := by
      intro m hevent
      have he : e = .message ws m := by
        have harr := (hrun.arrivals rfl).1
        have harr' := (hrun'.arrivals rfl).1
        rw [List.filterMap_append, ← List.append_assoc, ← harr] at harr'
        rw [harr', ← hlen, List.getElem?_append_right le_rfl, Nat.sub_self] at hevent
        exact Option.some.inj hevent
      subst he
      have hobeys : ∀ s, (room P).begin c.started (.message ws m) c.state = some s → Inv P s →
          ((room P).program (.message ws m) s).Obeys (hush ws)
            (fun _ _ s₀ s => Hushes ws s₀ s) () s := by
        intro s hb hI
        have hrests := rests_begin hb
        obtain ⟨info, hinfo⟩ := Option.isSome_iff_exists.mp ((hI.known ws).mp
          (hI.clients ws m (arrived_of_begin hb)).1)
        exact Outcome.Follows.mono (handler_hushed hI (hshut.rests hrests) hinfo)
          (fun _ _ _ _ hs => hs.1) fun _ _ _ _ hs => hs.1
      obtain ⟨s, m', hb, hstint, ht⟩ :=
        Tracked.start (room_sound P anytime) (room_invariant P anytime)
        hrun.legit hmeets hstep hobeys
      exact ⟨ht, (hushes_begin hb).trans (hushes_of_stint hstint)⟩
    refine ⟨fun k m hk hlt hevent => ?_, fun k m hk hrunner hevent => ?_⟩
    · rcases Nat.lt_succ_iff_lt_or_eq.mp (hnext ▸ hlt) with hlt | rfl
      · exact (old k m hk hlt hevent).1
      · exact (new m hevent).1
    · obtain rfl := Option.some.inj hrunner
      exact (new m hevent).2
  | resume j =>
    have hnext : c'.started = c.started := by
      cases hstarted with
      | resume _ _ _ hstarted => exact hstarted
    refine ⟨fun k m hk hlt hevent => (old k m hk (hnext ▸ hlt) hevent).1,
      fun k m hk hrunner hevent => ?_⟩
    obtain rfl := Option.some.inj hrunner
    have hlt : j < c.started := by
      cases hstarted with
      | resume hpool => exact (hrun.legit.waiting j _ _ hpool).2.1
    exact (old j m hk hlt hevent).2 rfl
  | env d =>
    have hnext : c'.started = c.started := by
      cases hstarted with
      | env _ hstarted => exact hstarted
    refine ⟨fun k m hk hlt hevent => (old k m hk (hnext ▸ hlt) hevent).1, fun _ _ _ hrunner => ?_⟩
    cases hrunner

/-! ## After a violation -/

/-- Where a handler pauses, the room is as the handler left it. -/
theorem Pauses.settle {S : World → Prop} {o : Outcome Point World Fault (Option Response)}
    (ho : Pauses S s₀ o) (c : RoomConfig) (h : ℕ) : S (c.settle h o).state := by
  cases o with
  | done a s => exact ho
  | fail e s => exact ho
  | suspend p s k => exact ho.1

/-- The stretch that a violation arrives in shuts the socket. -/
theorem shut_of_violation {m : Message} {info : Attachment}
    (hr : Runs (room P) anytime freshRoom ls c)
    (hstep : c.step (room P) (.start (.message ws m)) = some c₁)
    (hinfo : c.state.info ws = some info) (hv : Violates P c.state.reads info m) :
    Shut P c.started ws c₁.state ∧ c₁.state.past.wire = c.state.past.wire ∧
      (info.phase ≠ .challenge → Archived c₁.state.info ws) ∧ c₁.started = c.started + 1 := by
  have hrun := runsFrom_fresh hr
  simp only [Config.step] at hstep
  split at hstep
  · rename_i s hb
    obtain rfl := Option.some.inj hstep
    have hrests := rests_begin hb
    have hcur : s.past.current = c.started := current_of_entered (.inl ⟨_, _, hb⟩)
    have hevent : s.past.arrivals[c.started]? = some (.message ws m) := by
      have hlen := (hrun.arrivals rfl).2
      simp only [room] at hb
      split_ifs at hb
      obtain rfl := Option.some.inj hb
      simp [World.begin, hlen]
    have hunverified : s.Unverified ws := by
      intro hnone
      have hhushes : Hushes (ws + 1) _ _ := hushes_begin hb
      have hsame := hhushes.others ws (Nat.lt_succ_self ws).ne
      rw [hsame] at hnone ⊢
      exact hrun.unverified ws hnone
    have hpauses : Pauses (fun w => Shut P c.started ws w ∧ w.past.wire = s.past.wire ∧
        (info.phase ≠ .challenge → Archived w.info ws)) s (webSocketMessage P ws m s) :=
      violation_pauses (hrun.inv_end.rests hrests) hcur hevent (hrests.info_eq.symm ▸ hinfo)
        hunverified (hrests.reads.symm ▸ hv)
    have hprogram : Pauses (fun w => Shut P c.started ws w ∧ w.past.wire = s.past.wire ∧
        (info.phase ≠ .challenge → Archived w.info ws)) s ((room P).program (.message ws m) s) :=
      (sat_bind _ _).mpr (Outcome.Sat.mono hpauses (fun _ _ _ hs => hs) fun _ _ _ hs => hs)
    obtain ⟨hshut, hwire, harch⟩ := hprogram.settle { c with started := c.started + 1 } c.started
    exact ⟨hshut, hwire.trans hrests.wire_eq, harch, Config.settle_started _ _ _⟩
  · cases hstep

/-- Nothing is sent to a socket that is shut. -/
theorem Shut.unsent (hI : Inv P w) (hs : Shut P h ws w)
    (hconnected : (w.socket ws).connected = true) {e : Sent} (he : Emits P κ w e) :
    e.target ≠ ws := by
  rintro rfl
  cases he with
  | control hsends =>
    cases hsends with
    | challenge _ _ hfirst =>
      obtain ⟨e, he, htarget, -⟩ := hI.greeted _ hconnected
      exact hfirst e he htarget
    | confirmation _ hrouted => exact hs.not_routed _ hrouted
    | pong _ _ hrouted => exact hs.not_routed _ hrouted
    | ping _ hrouted => exact hs.not_routed _ hrouted
    | gone _ _ hrouted => exact hs.not_routed _ hrouted
  | datagram hf =>
    obtain ⟨_, _, _, -, -, hrouted, -⟩ := hf.datagram
    exact hs.not_routed _ hrouted

/-- A socket that is shut stays shut, and is sent nothing more. -/
theorem Shut.later (hr : RunsFrom P κ freshRoom ls c) (hs : Shut P h ws c.state)
    (hconnected : (c.state.socket ws).connected = true) (hr' : Runs (room P) κ c ls' c') :
    Shut P h ws c'.state ∧ c'.state.past.wire.filter (fun e => e.target = ws) =
      c.state.past.wire.filter fun e => e.target = ws := by
  suffices hJ : Shut P h ws c'.state ∧ (c'.state.socket ws).connected = true ∧
      c'.state.past.wire.filter (fun e => e.target = ws) =
        c.state.past.wire.filter fun e => e.target = ws from ⟨hJ.1, hJ.2.2⟩
  refine room_later (J := fun w => Shut P h ws w ∧ (w.socket ws).connected = true ∧
    w.past.wire.filter (fun e => e.target = ws) = c.state.past.wire.filter fun e => e.target = ws)
    hr hr' ⟨hs, hconnected, rfl⟩ ?_ ?_
  · rintro w w' - ⟨hs, hconn, hwire⟩ hrest
    obtain ⟨r, hsocket⟩ := hrest.socket ws
    exact ⟨hs.rests hrest, by rwa [hsocket], by rwa [hrest.wire_eq]⟩
  · rintro w w' hI ⟨hs, hconn, hwire⟩ ha
    have hcount : ws < w.count := by
      by_contra hws
      rw [hI.blank ws (not_lt.mp hws)] at hconn
      cases hconn
    refine ⟨hs.act hI ha, ((ha.extends hI).socket ws hcount).connected hconn, ?_⟩
    obtain hsame | ⟨e, hemits, hnew⟩ := ha.wire_cases
    · rwa [hsame]
    · rw [hnew, List.filter_append, hwire]
      simp [hs.unsent hI hconn hemits]

/-- The silence lasts to the end of every run. -/
theorem Silenced.later (hr : Runs (room P) anytime freshRoom ls c) (hs : Silenced P h ws c)
    (hshut : Shut P h ws c.state) (hconnected : (c.state.socket ws).connected = true)
    (hr' : Runs (room P) anytime c ls' c') : Silenced P h ws c' := by
  induction hr' with
  | nil => exact hs
  | snoc hr' _ hstep ih =>
    exact (ih.step (hr.trans hr') (hshut.later (runsFrom_fresh hr) hconnected hr').1 hstep).1

/-- A socket that is shut and has given its answer is archived. -/
theorem Shut.archived_of_answered (hs : Shut P h ws w) (ha : w.Answered ws) :
    Archived w.info ws := by
  rcases ha with ⟨id, info, hinfo, hphase, -⟩ | harch
  · cases hs with
    | archived harch => exact harch
    | unproved hi hp =>
      obtain rfl := Option.some.inj (hinfo.symm.trans hi)
      simp [hphase] at hp
    | overdue hi hp =>
      obtain rfl := Option.some.inj (hinfo.symm.trans hi)
      exact absurd hphase hp
  · exact harch

/-! ## Failing closed -/

/-- The frames of a socket that the room acts on stay within the budget, in all and
in any ten seconds.  A message that violates the protocol leaves its socket archived:
at once or, if it came instead of the answer to the challenge, when its handler is
over.  From then on nothing is sent to the socket, and no handler of a later message
from it changes another socket or sends anything. -/
theorem fails_closed (hr : Runs (room P) anytime freshRoom ls c) (ws : SocketId) :
    (∀ hs : Finset ℕ, (∀ h ∈ hs, Acted P ls c ws h) → WithinBudget c.state ws hs) ∧
      ∀ m info c₁, c.step (room P) (.start (.message ws m)) = some c₁ →
        c.state.info ws = some info → Violates P c.state.reads info m →
        (info.phase ≠ .challenge → Archived c₁.state.info ws) ∧
        ∀ ls' c', Runs (room P) anytime c₁ ls' c' →
          (c'.pool c.started = none → Archived c'.state.info ws) ∧
          c'.state.past.wire.filter (fun e => e.target = ws) =
            c.state.past.wire.filter (fun e => e.target = ws) ∧
          ∀ ℓ c'' k m', c'.step (room P) ℓ = some c'' → c.started < k →
            Queued.runner c' ℓ = some k → c''.state.past.arrivals[k]? = some (.message ws m') →
            Hushes ws c'.state c''.state := by
  refine ⟨fun hs => withinBudget_of_runs hr, fun m info c₁ hstep hinfo hv => ?_⟩
  obtain ⟨hshut, hwire, harch, hstarted⟩ := shut_of_violation hr hstep hinfo hv
  have hone : Runs (room P) anytime c [.start (.message ws m)] c₁ :=
    Runs.nil.snoc (fun _ _ => trivial) hstep
  have hr₁ := hr.trans hone
  have hrun₁ := runsFrom_fresh hr₁
  have hevent : c₁.state.past.arrivals[c.started]? = some (.message ws m) := by
    have harr := (runsFrom_fresh hr).arrivals rfl
    have harr₁ := (hrun₁.arrivals rfl).1
    rw [List.filterMap_append, ← List.append_assoc, ← harr.1] at harr₁
    rw [harr₁, ← harr.2, List.getElem?_append_right le_rfl, Nat.sub_self]
    rfl
  have hconnected := (hrun₁.inv_end.clients ws m (List.mem_of_getElem? hevent)).2
  refine ⟨harch, fun ls' c' hr' => ?_⟩
  have hrun' := runsFrom_fresh (hr₁.trans hr')
  obtain ⟨hshut', hwire'⟩ := hshut.later hrun₁ hconnected hr'
  have hlt : c.started < c₁.started := by omega
  have hle : c₁.started ≤ c'.started := by
    rw [← (hrun₁.arrivals rfl).2, ← (hrun'.arrivals rfl).2]
    exact (hrun₁.extends_later hr').arrivals.length_le
  refine ⟨fun hover => ?_, hwire'.trans (by rw [hwire]),
    fun ℓ c'' k m' hstep' hk hrunner hevent' => ?_⟩
  · obtain ⟨r, -, hleaves⟩ := hrun'.leaves (Nat.zero_le _) (hlt.trans_le hle) hover
    exact hshut'.archived_of_answered (hleaves.message ws m
      ((hrun₁.arrivals_later hr' hlt).trans hevent))
  · have hsilenced : Silenced P c.started ws c₁ := fun k m hk hlt => by omega
    exact ((hsilenced.later hr₁ hshut hconnected hr').step (hr₁.trans hr') hshut' hstep').2
      k m' hk hrunner hevent'

/-- Two endpoints, without the datagram. -/
def greetSchedule : List (Label Event Effect) :=
  handled 0 8 (.fetch upgradeRequest) ++ handled 1 8 (.fetch upgradeRequest) ++
    handled 2 17 (.message 0 (.binary (authFrame 7))) ++
    handled 3 15 (.message 1 (.binary (authFrame 8)))

/-- An endpoint sends a datagram, which counts, and then a text message. -/
theorem fails_closed_text : ∃ (ls : List (Label Event Effect)) (c c₁ : RoomConfig),
    Acted calmPlatform ls c 0 4 ∧ WithinBudget c.state 0 {4} ∧
      c.step (room calmPlatform) (.start (.message 0 (.text []))) = some c₁ ∧
      Archived c₁.state.info 0 := by
  have hrun : (freshRoom.replay (room calmPlatform) anytime greetSchedule).any (fun c₀ =>
      (c₀.step (room calmPlatform) (.start (.message 0 (.binary (datagramFrame 8))))).any fun c =>
        decide (c₀.started = 4 ∧ c₀.state.past.wire.length < c.state.past.wire.length ∧
          (∀ e ∈ c.state.past.wire, e.about = none) ∧
          (c.state.info 0).any (fun info => info.phase = .authenticated) ∧
          (c.step (room calmPlatform) (.start (.message 0 (.text [])))).isSome)) = true := by
    decide +kernel
  obtain ⟨c₀, hc₀, hrun⟩ := Option.any_eq_true .. |>.mp hrun
  obtain ⟨c, hstep, hrun⟩ := Option.any_eq_true .. |>.mp hrun
  obtain ⟨hstarted, hlength, habout, hinfo, htext⟩ := of_decide_eq_true hrun
  have hr₀ := runs_of_replay hc₀
  have hone : Runs (room calmPlatform) anytime c₀
      [.start (.message 0 (.binary (datagramFrame 8)))] c :=
        Runs.nil.snoc (fun _ _ => trivial) hstep
  have hr := hr₀.trans hone
  obtain ⟨sent, hsent⟩ := ((runsFrom_fresh hr₀).extends_later hone).wire
  obtain ⟨e, he⟩ : ∃ e, e ∈ sent := by
    refine List.exists_mem_of_ne_nil sent ?_
    rintro rfl
    rw [List.append_nil] at hsent
    exact absurd hlength (by rw [hsent]; exact lt_irrefl _)
  have hacted : Acted calmPlatform
    (greetSchedule ++ [.start (.message 0 (.binary (datagramFrame 8)))])
      c 0 4 := by
    refine ⟨greetSchedule, _, [], c₀, c, .binary (datagramFrame 8), rfl, hr₀, hstep, .nil, ?_, ?_,
      .sends hsent.symm he (habout e (hsent ▸ List.mem_append_right _ he))⟩
    · rw [Queued.runner, hstarted]
    · rw [((runsFrom_fresh hr).arrivals rfl).1]
      rfl
  obtain ⟨c₁, htext⟩ := Option.isSome_iff_exists.mp htext
  obtain ⟨info, hinfo, hphase⟩ := Option.any_eq_true .. |>.mp hinfo
  obtain ⟨hbudget, hviolation⟩ := fails_closed hr 0
  refine ⟨_, c, c₁, hacted, hbudget {4} fun h hh => Finset.mem_singleton.mp hh ▸ hacted, htext, ?_⟩
  exact (hviolation (.text []) info c₁ htext hinfo (.text [])).1
    (by simp [of_decide_eq_true hphase])

end IrohExperiment.Relay
