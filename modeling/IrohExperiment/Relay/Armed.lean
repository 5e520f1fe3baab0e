/-
# The alarm is always set in time (`worker/src/iroh-relay.js`)

Every handler heeds its regime, whichever event starts it; an alarm starts out owing,
since the platform has taken the alarm back.  Requests to set the alarm are carried out
in the order in which they were made, so it is the last one that counts, and nothing has
come to be due earlier since it was made, unless somebody still owes the room an alarm
(`Armed`).

`Armed.step` is the step lemma, `along_of_reaches` the run lemma, and `alarm_in_time` what
follows for a room that is quiet.
-/
import IrohExperiment.Relay.Sweeping

namespace IrohExperiment.Relay

open Coop Coroutine

variable {P : Platform} {J : World → Prop} {h : ℕ} {w w' s : World} {ws : SocketId}
  {S : SocketId → Prop} {due : ℕ} {c c' : RoomConfig} {ls : List (Label Event Effect)}

/-! ## Every event -/

/-- What a handler owes when it starts. -/
def Mode.initial : Event → Mode
  | .alarm => .owing
  | _ => .free

/-- How the last stretch of a handler ends; it fails only if a challenge cannot be sent. -/
def Closes (P : Platform) (h : ℕ) (Q : World → Prop) :
    Except Fault (Option Response) → Mode → World → World → Prop
  | .ok _, m, s₁, s => Under P h true m s₁ s ∧ Q s
  | .error f, m, s₁, s => Under P h false m s₁ s ∧ f = .sendFailed

/-- What is so when a handler begins. -/
structure Begins (P : Platform) (h : ℕ) (e : Event) (w s : World) : Prop where
  rests : Rests P w s
  current : s.past.current = h
  arrival : s.past.arrivals[h]? = some e
  event : s.event = some e
  alarm : Mode.initial e = .owing ∨ s.storage.alarm = w.storage.alarm
  writer : h ∉ s.past.metaWriters
  owner : ∀ ws, (s.socket ws).departure.owner ≠ some h

theorem begins (hI : Inv P w) {e : Event} (hb : (room P).begin h e w = some s) :
    Begins P h e w s := by
  have hrests := rests_begin hb
  have hwriter := hI.writer_lt h
  have hwriters := hrests.metaWriters_eq
  have howner : ∀ ws, (w.socket ws).departure.owner = some h → h < w.past.arrivals.length := by
    intro ws ho
    cases hinfo : w.info ws with
    | none =>
      rw [hI.blank ws (not_lt.mp fun hlt => by simpa [hinfo] using (hI.known ws).mp hlt)] at ho
      cases ho
    | some info =>
      obtain ⟨e, he, -⟩ := (hI.shape ws info hinfo).owner h ho
      exact (List.getElem?_eq_some_iff.mp he).1
  simp only [room] at hb
  split_ifs at hb with hd
  obtain rfl := Option.some.inj hb
  have harrival : (w.begin h e).past.arrivals[h]? = some e := by simp [World.begin, hd.1]
  refine ⟨hrests, rfl, harrival, harrival, ?_, fun hmem => ?_, fun ws ho => (howner ws ho).ne hd.1⟩
  · cases e with
    | alarm => exact .inl rfl
    | _ => exact .inr rfl
  · rw [hwriters] at hmem
    exact (hwriter hmem).ne hd.1

/-- A handler that has just begun. -/
theorem Begins.under {e : Event} (hb : Begins P h e w s) (hcoupled : w.Coupled) (c : Bool)
    (hc : c = true → Mode.initial e ≠ .owing) : Under P h c (Mode.initial e) s s := by
  refine ⟨hb.current, rfl, ?_, rfl, le_rfl, timed_refl P s, ?_, fun hpaid => ?_⟩
  · cases e <;> rfl
  · simpa only [World.Coupled, hb.rests.info_eq] using hcoupled
  · exact .inr ⟨hc hpaid, harmless_refl s⟩

/-- **Every handler heeds its regime.** -/
theorem handler_heeds {e : Event} (hb : Begins P h e w s) (hcoupled : w.Coupled)
    (hdue : due ≤ P.clock s.reads) :
    (handler P e s).Obeys (regime P (World.Overseen S due) h)
      (Closes P h fun s' => e = .alarm → Swept P h S s s') (Mode.initial e) s := by
  have free : Mode.initial e ≠ .owing → Under P h true (Mode.initial e) s s := fun hne =>
    hb.under hcoupled true fun _ => hne
  have returns : ∀ {α : Type} {t : Async α} {r : α → Option Response} {Q : α → World → Prop},
      e ≠ .alarm → Heeds P (World.Overseen S due) h (fun _ => true) false Q
        (fun f _ => f = .sendFailed) (Mode.initial e) s (t s) →
      Outcome.Obeys (regime P (World.Overseen S due) h)
        (Closes P h fun s' => e = .alarm → Swept P h S s s') (Mode.initial e) s
        ((t >>= fun a => pure (r a)) s) := by
    intro α t r Q hne ht
    refine (follows_bind _ _).mpr (Outcome.Follows.mono ht (fun a m s₁ s' hs' => ?_)
      fun _ _ _ _ hs' => hs')
    exact ⟨hs'.1, fun heq => absurd heq hne⟩
  cases e with
  | fetch r => exact returns nofun (fetch_heeds (free nofun))
  | message ws m =>
    refine returns (Q := fun _ _ => True) nofun ?_
    refine Outcome.Follows.mono (webSocketMessage_heeds (free nofun) hb.event)
      (fun _ _ _ _ hs' => hs')
      fun _ _ _ _ hs' => hs'.2.elim
  | close ws code reason =>
    exact returns nofun (.await
      ((finish_heeds (free nofun)).mono (fun _ _ _ _ _ => trivial) fun _ _ hE => hE))
  | error ws =>
    exact returns nofun (.await
      ((finish_heeds (free nofun)).mono (fun _ _ _ _ _ => trivial) fun _ _ hE => hE))
  | alarm =>
    have hw : Under P h false .owing s s := hb.under hcoupled false nofun
    refine (follows_bind _ _).mpr (Outcome.Follows.mono
      (alarm_heeds (S := S) hw hb.arrival hb.writer hdue) (fun _ m s₁ s' hs' => ?_)
      fun _ _ _ _ hs' => hs'.2.elim)
    exact ⟨hs'.1, fun _ => hs'.2⟩

/-! ## Following all handlers -/

/-- Nothing is known but what the regime itself says. -/
abbrev unknowing : World → Prop := World.Overseen (fun _ => False) 0

theorem unknowing_any (w : World) : unknowing w := fun _ => False.elim

/-- How the last stretch of any handler ends. -/
abbrev closing (P : Platform) (h : ℕ) : Except Fault (Option Response) → Mode → World →
    World → Prop :=
  Closes P h fun _ => True

theorem handler_obeys {e : Event} (hb : Begins P h e w s) (hcoupled : w.Coupled) :
    (handler P e s).Obeys (regime P unknowing h) (closing P h) (Mode.initial e) s :=
  Outcome.Follows.mono (handler_heeds hb hcoupled (Nat.zero_le _))
    (fun _ _ _ _ hc => ⟨hc.1, trivial⟩) fun _ _ _ _ hc => hc

/-- Every handler is in a mode, and heeds its regime from there. -/
def Minded (P : Platform) (c : RoomConfig) (modes : ℕ → Mode) : Prop :=
  ∀ h < c.started, Tracked (room P) (Stretch P anytime) (Inv P) (regime P unknowing h)
    (closing P h) h
    (modes h) c

/-- The stretch that a decision sets off begins in `s`. -/
def Stretches (P : Platform) (c : RoomConfig) : Label Event Effect → World → Prop
  | .start e, s => (room P).begin c.started e c.state = some s
  | .resume h, s => (c.pool h).isSome = true ∧ s = (room P).enter h c.state
  | .env _, _ => False

/-- What a decision did: the platform moved, or one handler ran. -/
inductive Did (P : Platform) (c c' : RoomConfig) (ℓ : Label Event Effect) (modes : ℕ → Mode) :
    (ℕ → Mode) → Prop
  | env (hrunner : Queued.runner c ℓ = none) (hrests : Rests P c.state c'.state)
      (halarm : c'.state.storage.alarm = c.state.storage.alarm) (hagrees : ∀ k, c.Agrees c' k) :
      Did P c c' ℓ modes modes
  | ran {h : ℕ} {m m' : Mode} {s : World} (hrunner : Queued.runner c ℓ = some h)
      (hbegins : Stretches P c ℓ s) (hrests : Rests P c.state s)
      (hfirst : c.pool h = none ∧ m.idle = true ∧
          (m = .owing ∨ s.storage.alarm = c.state.storage.alarm) ∨
        ℓ = .resume h ∧ (c.pool h).isSome = true ∧ m = modes h ∧
          s.storage.alarm = c.state.storage.alarm)
      (hstint : Stint (regime P unknowing h) (closing P h) h m s c' m')
      (hagrees : ∀ k, k ≠ h → c.Agrees c' k) : Did P c c' ℓ modes (Function.update modes h m')

/-- What the others do keeps what a handler has to find when it goes on. -/
theorem resumes_of_interferes (hI : Inv P s) (hi : Interferes (room P) (Stretch P anytime) h s w)
    (hcoupled : w.Coupled) (hknown : J ((room P).enter h w)) :
    Resumes P J h s ((room P).enter h w) := by
  obtain ⟨hIw, hk⟩ := hI.interferes hi
  have hke := hk.trans hI ((rests_enter P h w).kept h)
  exact ⟨hke.retains hI, hke.spares.writer.mp, hIw.rests (rests_enter P h w), hcoupled, rfl, hknown⟩

theorem alarm_effect {d : Effect} (hw : (room P).env d w = some w') :
    w'.storage.alarm = w.storage.alarm := by
  cases d <;> simp only [room, World.effect] at hw
  case construct =>
    obtain rfl := Option.some.inj hw
    rfl
  all_goals
    split_ifs at hw
    obtain rfl := Option.some.inj hw
    rfl

/-- One decision. -/
theorem Minded.step {modes : ℕ → Mode} {ℓ : Label Event Effect}
    (hr : Runs (room P) anytime freshRoom ls c) (hm : Minded P c modes)
    (hstep : c.step (room P) ℓ = some c') :
    ∃ modes', Minded P c' modes' ∧ Did P c c' ℓ modes modes' := by
  have hlegit := (runsFrom_fresh hr).legit
  have hcoupled := (paired_of_runs hr).coupled
  have hmeets := meets_anytime (P := P) c ℓ
  -- what becomes of a handler that was started before
  have old : ∀ h < c.started, ∃ m', Tracked (room P) (Stretch P anytime) (Inv P)
      (regime P unknowing h) (closing P h) h m' c' ∧
      ((ℓ = .resume h ∧ (c.pool h).isSome = true ∧
        Stint (regime P unknowing h) (closing P h) h (modes h) ((room P).enter h c.state) c' m') ∨
        (ℓ ≠ .resume h ∧ m' = modes h ∧ c.Agrees c' h)) := fun h hh =>
    (hm h hh).step (room_sound P anytime) (room_invariant P anytime) hlegit hmeets hstep hh
      fun s hI hi _ => resumes_of_interferes hI hi hcoupled (unknowing_any _)
  have hprogress := hlegit.progress (room_sound P anytime) (room_invariant P anytime) hmeets hstep
  cases ℓ with
  | start e =>
    obtain ⟨s, m', hs, hstint, htracked⟩ := Tracked.start (room_sound P anytime)
      (room_invariant P anytime) hlegit hmeets hstep fun s hs _ =>
        handler_obeys (begins hlegit.inv hs) hcoupled
    have hfresh : c.pool c.started = none := by
      by_contra hne
      obtain ⟨⟨p, k⟩, hp⟩ := Option.ne_none_iff_exists'.mp hne
      exact (hlegit.waiting _ _ _ hp).2.1.ne rfl
    have hbegins := begins hlegit.inv hs
    have hstarted : c'.started = c.started + 1 := by
      cases hprogress with
      | start _ _ _ hstarted => exact hstarted
    have hagrees : ∀ k, k ≠ c.started → c.Agrees c' k := fun k hk =>
      Queued.agrees_of_step hstep fun heq => hk (Option.some.inj heq).symm
    refine ⟨Function.update modes c.started m', fun h hh => ?_, .ran rfl hs hbegins.rests
      (.inl ⟨hfresh, ?_, hbegins.alarm⟩) hstint hagrees⟩
    · by_cases heq : h = c.started
      · subst heq
        rw [Function.update_self]
        exact htracked
      · rw [Function.update_of_ne heq]
        obtain ⟨m'', ht, ⟨hℓ, -⟩ | ⟨-, rfl, -⟩⟩ := old h (by omega)
        · cases hℓ
        · exact ht
    · cases e <;> rfl
  | resume h =>
    have hstarted : c'.started = c.started := by
      cases hprogress with
      | resume _ _ _ hstarted => exact hstarted
    have hh : h < c.started := by
      cases hprogress with
      | resume hpool => exact (hlegit.waiting _ _ _ hpool).2.1
    have hagrees : ∀ k, k ≠ h → c.Agrees c' k := fun k hk =>
      Queued.agrees_of_step hstep fun heq => hk (Option.some.inj heq).symm
    obtain ⟨m', ht, ⟨-, hpool, hstint⟩ | ⟨hℓ, -⟩⟩ := old h hh
    · refine ⟨Function.update modes h m', fun k hk => ?_,
        .ran rfl ⟨hpool, rfl⟩ (rests_enter P h c.state)
        (.inr ⟨rfl, hpool, rfl, rfl⟩) hstint hagrees⟩
      by_cases heq : k = h
      · subst heq
        rw [Function.update_self]
        exact ht
      · rw [Function.update_of_ne heq]
        obtain ⟨m'', ht', ⟨hℓ, -⟩ | ⟨-, rfl, -⟩⟩ := old k (hstarted ▸ hk)
        · exact absurd (Label.resume.inj hℓ).symm heq
        · exact ht'
    · exact absurd rfl hℓ
  | env d =>
    have hstarted : c'.started = c.started := by
      cases hprogress with
      | env _ hstarted => exact hstarted
    have henv : (room P).env d c.state = some c'.state := by
      cases hprogress with
      | env henv => exact henv
    have hagrees : ∀ k, c.Agrees c' k := fun k =>
      Queued.agrees_of_step hstep fun heq => by cases heq
    refine ⟨modes, fun k hk => ?_, .env rfl (rests_effect henv) (alarm_effect henv) hagrees⟩
    obtain ⟨m'', ht, ⟨hℓ, -⟩ | ⟨-, rfl, -⟩⟩ := old k (hstarted ▸ hk)
    · cases hℓ
    · exact ht

/-! ## The last request to set the alarm -/

/-- A room with its requests to set the alarm. -/
abbrev RoomQueue := Queued Point World Fault (Option Response)

variable {q q' : RoomQueue} {modes modes' : ℕ → Mode}

/-- Handler `h` owes the room an alarm. -/
def Owing (c : RoomConfig) (modes : ℕ → Mode) (h : ℕ) : Prop :=
  (c.pool h).isSome = true ∧ modes h = .owing

/-- The last request was made early enough for all live sockets, and nothing has come to
be due earlier since; the alarm is set, or will be when that request is carried out. -/
def LastSets (P : Platform) (q : RoomQueue) (modes : ℕ → Mode) : Prop :=
  ∃ made time, q.made.getLast? = some made ∧ Timely P made time ∧ Harmless made q.config.state ∧
    (q.queue = [] ∧ q.config.state.storage.alarm = some time ∨
      ∃ front h, q.queue = front ++ [h] ∧ modes h = .setting time)

/-- The room has an alarm in time, or somebody owes it one. -/
structure Armed (P : Platform) (q : RoomQueue) (modes : ℕ → Mode) : Prop where
  setting : ∀ h, Queued.asks Point.setsAlarm q.config h = true ↔
    (q.config.pool h).isSome = true ∧ ∃ time, modes h = .setting time
  nodup : q.queue.Nodup
  queued : ∀ h, h ∈ q.queue ↔ Queued.asks Point.setsAlarm q.config h = true
  armed : (∃ h, Owing q.config modes h) ∨ q.config.state.storage.roomMeta = none ∨
    LastSets P q modes

theorem Rests.harmless (hr : Rests P w w') : Harmless w w' := by
  refine ⟨fun ws info hinfo hlive => ⟨info, ?_, hlive, le_rfl⟩,
    fun hnone => hr.roomMeta.trans hnone⟩
  rw [← hr.info_eq]
  exact hinfo

theorem Armed.faithful (ha : Armed P q modes) : q.Faithful Point.setsAlarm := ⟨ha.nodup, ha.queued⟩

/-- A handler that has run waits to set the alarm just when its mode says so. -/
theorem setting_of_stint {m m' : Mode} (hstint : Stint (regime P J h) (closing P h) h m s c m') :
    Queued.asks Point.setsAlarm c h = true ↔
      (c.pool h).isSome = true ∧ ∃ time, m' = .setting time := by
  cases hstint with
  | waits hpool hturn =>
    simp only [Queued.asks, hpool, Option.any_some, Option.isSome_some, true_and]
    cases hturn with
    | sets hp => exact ⟨fun _ => ⟨_, rfl⟩, fun _ => hp⟩
    | owes hp => exact ⟨fun h => by simp [hp] at h, fun h => by obtain ⟨_, h⟩ := h; cases h⟩
    | pays hp => exact ⟨fun h => by simp [hp] at h, fun h => by obtain ⟨_, h⟩ := h; cases h⟩
  | ends hpool => simp [Queued.asks, hpool]

/-- The modes go on saying which handlers wait to set the alarm. -/
theorem setting_step {ℓ : Label Event Effect} (hd : Did P c c' ℓ modes modes')
    (hsetting : ∀ k, Queued.asks Point.setsAlarm c k = true ↔
      (c.pool k).isSome = true ∧ ∃ time, modes k = .setting time) (k : ℕ) :
    Queued.asks Point.setsAlarm c' k = true ↔
      (c'.pool k).isSome = true ∧ ∃ time, modes' k = .setting time := by
  have other (hagrees : c.Agrees c' k) : Queued.asks Point.setsAlarm c' k = true ↔
      (c'.pool k).isSome = true ∧ ∃ time, modes k = .setting time := by
    rw [Queued.asks_congr hagrees, hagrees.1]
    exact hsetting k
  cases hd with
  | env _ _ _ hagrees => exact other (hagrees k)
  | @ran h m m' s _ _ _ _ hstint hagrees =>
    by_cases hk : k = h
    · subst hk
      rw [Function.update_self]
      exact setting_of_stint hstint
    · rw [Function.update_of_ne hk]
      exact other (hagrees k hk)

/-- The last request, once handler `h` has run a stretch that pays. -/
theorem Armed.pays {m m' : Mode} {ℓ : Label Event Effect} (ha : Armed P q modes)
    (hrests : Rests P q.config.state s)
    (hfirst : q.config.pool h = none ∧ m.idle = true ∧
        (m = .owing ∨ s.storage.alarm = q.config.state.storage.alarm) ∨
      ℓ = .resume h ∧ (q.config.pool h).isSome = true ∧ m = modes h ∧
        s.storage.alarm = q.config.state.storage.alarm)
    (hturn : q.inTurn ℓ = true) (hothers : ∀ k, k ≠ h → ¬ Owing q.config modes k)
    (halarm : q'.config.state.storage.alarm = m.alarm s)
    (hpaid : q'.config.state.storage.roomMeta = none ∨ m ≠ .owing ∧ Harmless s q'.config.state)
    (hqueue : q'.queue = q.queue.erase h) (hmade : q'.made = q.made) :
    q'.config.state.storage.roomMeta = none ∨ LastSets P q' (Function.update modes h m') := by
  rcases hpaid with hnone | ⟨hm, hharmless⟩
  · exact .inl hnone
  have hsince := hrests.harmless.trans hharmless
  rcases ha.armed with ⟨k, howing⟩ | hnone | ⟨made, time, hlast, htimely, hharmless', hset⟩
  · by_cases hk : k = h
    · subst hk
      rcases hfirst with ⟨hpool, -⟩ | ⟨-, -, hmode, -⟩
      · exact absurd howing.1 (by simp [hpool])
      · exact absurd (hmode.trans howing.2) hm
    · exact absurd howing (hothers k hk)
  · exact .inl (hsince.roomMeta hnone)
  refine .inr ⟨made, time, hmade ▸ hlast, htimely, hharmless'.trans hsince, ?_⟩
  have hasks := ha.setting h
  rw [← ha.queued h] at hasks
  rw [hqueue, halarm]
  cases m with
  | owing => exact absurd rfl hm
  | free =>
    -- the handler had made no request
    have hnot : h ∉ q.queue := by
      intro hmem
      obtain ⟨hpool, t, hmode⟩ := hasks.mp hmem
      rcases hfirst with ⟨hnone, -⟩ | ⟨-, -, hfree, -⟩
      · simp [hnone] at hpool
      · rw [hmode] at hfree
        cases hfree
    have hsame : s.storage.alarm = q.config.state.storage.alarm := by
      rcases hfirst with ⟨-, -, howing | hsame⟩ | ⟨-, -, -, hsame⟩
      · cases howing
      · exact hsame
      · exact hsame
    rw [List.erase_of_not_mem hnot]
    rcases hset with ⟨hnil, hset⟩ | ⟨front, k, hfront, hmode⟩
    · exact .inl ⟨hnil, hsame.trans hset⟩
    · have hk : k ≠ h := fun heq => hnot (by rw [hfront, heq]; simp)
      exact .inr ⟨front, k, hfront, by rwa [Function.update_of_ne hk]⟩
  | setting t =>
    -- its request has been carried out
    obtain ⟨rfl, hpool, hmode⟩ : ℓ = .resume h ∧ (q.config.pool h).isSome = true ∧
        Mode.setting t = modes h := by
      rcases hfirst with ⟨-, hidle, -⟩ | ⟨hℓ, hpool, hmode, -⟩
      · cases hidle
      · exact ⟨hℓ, hpool, hmode⟩
    have hmem : h ∈ q.queue := hasks.mpr ⟨hpool, t, hmode.symm⟩
    have hhead : q.queue.head? = some h := by simpa [Queued.inTurn, hmem] using hturn
    rcases hset with ⟨hnil, -⟩ | ⟨front, k, hfront, hlastmode⟩
    · rw [hnil] at hmem
      cases hmem
    · cases front with
      | nil =>
        obtain rfl : k = h := by simpa [hfront] using hhead
        obtain rfl : t = time := Mode.setting.inj (hmode.trans hlastmode)
        exact .inl ⟨by simp [hfront], rfl⟩
      | cons a front =>
        obtain rfl : a = h := by simpa [hfront] using hhead
        have hnodup := ha.nodup
        rw [hfront, List.cons_append, List.nodup_cons] at hnodup
        have hk : k ≠ a := fun heq => hnodup.1 (by simp [heq])
        exact .inr ⟨front, k, by simp [hfront], by rwa [Function.update_of_ne hk]⟩

/-- The last request after one decision, unless a challenge could not be sent. -/
theorem Armed.armed_step {ℓ : Label Event Effect} (ha : Armed P q modes) (hturn : q.inTurn ℓ = true)
    (hd : Did P q.config q'.config ℓ modes modes')
    (hq' : q' = q.record Point.setsAlarm ℓ q'.config)
    (hfine : ∀ h, q'.config.result h ≠ some (.error .sendFailed)) :
    (∃ h, Owing q'.config modes' h) ∨ q'.config.state.storage.roomMeta = none ∨
      LastSets P q' modes' := by
  cases hd with
  | env hrunner hrests halarm hagrees =>
    rw [Queued.record_of_none hrunner] at hq'
    have hqueue : q'.queue = q.queue := by rw [hq']
    have hmade : q'.made = q.made := by rw [hq']
    rcases ha.armed with ⟨k, hpool, hmode⟩ | hnone | ⟨made, time, hlast, htimely, hharmless, hset⟩
    · exact .inl ⟨k, by rwa [(hagrees k).1], hmode⟩
    · exact .inr (.inl (hrests.roomMeta.trans hnone))
    · refine .inr (.inr ⟨made, time, hmade ▸ hlast, htimely, hharmless.trans hrests.harmless, ?_⟩)
      rwa [hqueue, halarm]
  | @ran h m m' s hrunner _ hrests hfirst hstint hagrees =>
    rw [Queued.record_of_some hrunner] at hq'
    -- a debt of another handler stands
    by_cases hothers : ∃ k, k ≠ h ∧ Owing q.config modes k
    · obtain ⟨k, hk, hpool, hmode⟩ := hothers
      exact .inl ⟨k, by rwa [(hagrees k hk).1], by rwa [Function.update_of_ne hk]⟩
    have hnobody : ∀ k, k ≠ h → ¬ Owing q.config modes k := fun k hk howing =>
      hothers ⟨k, hk, howing⟩
    have pays (hasks : Queued.asks Point.setsAlarm q'.config h = false)
        (halarm : q'.config.state.storage.alarm = m.alarm s)
        (hpaid : q'.config.state.storage.roomMeta = none ∨
          m ≠ .owing ∧ Harmless s q'.config.state) :
        q'.config.state.storage.roomMeta = none ∨ LastSets P q' (Function.update modes h m') := by
      rw [hasks, if_neg Bool.false_ne_true] at hq'
      exact ha.pays hrests hfirst hturn hnobody halarm hpaid (by rw [hq']) (by rw [hq'])
    cases hstint with
    | @waits p k hpool hturn =>
      have hasks : Queued.asks Point.setsAlarm q'.config h = p.setsAlarm := by
        simp [Queued.asks, hpool]
      cases hturn with
      -- the request is the last one made
      | @sets time hp halarm htimed htimely =>
        rw [hasks, hp, if_pos rfl] at hq'
        have hqueue : q'.queue = q.queue.erase h ++ [h] := by rw [hq']
        have hmade : q'.made = q.made ++ [q'.config.state] := by rw [hq']
        refine .inr (.inr ⟨q'.config.state, time, ?_, htimely, harmless_refl _,
          .inr ⟨q.queue.erase h, h, hqueue, Function.update_self ..⟩⟩)
        rw [hmade, List.getLast?_append]
        rfl
      | owes hp => exact .inl ⟨h, by simp [hpool], Function.update_self ..⟩
      | pays hp halarm htimed hpaid => exact .inr (pays (hasks.trans hp) halarm hpaid)
    | @ends r hpool hresult hfin =>
      have hasks : Queued.asks Point.setsAlarm q'.config h = false := by simp [Queued.asks, hpool]
      cases r with
      | error error =>
        obtain rfl := hfin.2
        exact absurd hresult (hfine h)
      | ok a => exact .inr (pays hasks hfin.1.alarm_eq (hfin.1.paid rfl))

/-- One decision keeps the room armed, unless a challenge could not be sent. -/
theorem Armed.step {ℓ : Label Event Effect} (ha : Armed P q modes)
    (hstep : q.step (room P) Point.setsAlarm ℓ = some q')
    (hd : Did P q.config q'.config ℓ modes modes')
    (hfine : ∀ h, q'.config.result h ≠ some (.error .sendFailed)) : Armed P q' modes' := by
  obtain ⟨hturn, -, hq'⟩ := Queued.step_eq_some hstep
  have hfaithful := ha.faithful.step hstep
  exact ⟨setting_step hd ha.setting, hfaithful.nodup, hfaithful.mem,
    ha.armed_step hturn hd hq' hfine⟩

/-! ## Runs -/

/-- A run in which the requests to set the alarm are carried out in order. -/
def Reaches (P : Platform) (q : RoomQueue) (ls : List (Label Event Effect))
    (q' : RoomQueue) : Prop :=
  q.replay (room P) Point.setsAlarm ls = some q'

/-- Nothing has happened in the room. -/
def freshQueue : RoomQueue := .initial freshRoom

/-- No upgrade has failed because its challenge could not be sent. -/
def Unfailed (c : RoomConfig) : Prop := ∀ h < c.started, c.result h ≠ some (.error .sendFailed)

/-- A handler that has a result has ended. -/
def Ended (c : RoomConfig) : Prop := ∀ h r, c.result h = some r → h < c.started ∧ c.pool h = none

/-- What a decision leaves of the results. -/
theorem Ended.settle {h : ℕ} (hc : Ended c) (hnone : c.result h = none) (hh : h < c.started)
    (o : Outcome Point World Fault (Option Response)) :
    Ended (c.settle h o) ∧ ∀ k r, c.result k = some r → (c.settle h o).result k = some r := by
  have hother : ∀ k r, c.result k = some r → k ≠ h := by
    rintro k r hr rfl
    rw [hnone] at hr
    cases hr
  have concluded : ∀ r s, Ended (c.conclude h r s) ∧
      ∀ k r', c.result k = some r' → (c.conclude h r s).result k = some r' := by
    intro r s
    refine ⟨fun k r' hr' => ?_, fun k r' hr' => by simp [Config.conclude, hother k r' hr', hr']⟩
    by_cases hk : k = h
    · exact ⟨hk ▸ hh, by simp [Config.conclude, hk]⟩
    · have hr : c.result k = some r' := by simpa [Config.conclude, hk] using hr'
      exact ⟨(hc k r' hr).1, by simpa [Config.conclude, hk] using (hc k r' hr).2⟩
  cases o with
  | done a s => exact concluded (.ok a) s
  | fail e s => exact concluded (.error e) s
  | suspend p s k =>
    refine ⟨fun j r hr => ⟨(hc j r hr).1, ?_⟩, fun j r hr => hr⟩
    show Function.update c.pool h _ j = none
    rw [Function.update_of_ne (hother j r hr)]
    exact (hc j r hr).2

theorem Ended.step {ℓ : Label Event Effect} (hc : Ended c)
    (hpool : ∀ h p, c.pool h = some p → h < c.started) (hstep : c.step (room P) ℓ = some c') :
    Ended c' ∧ ∀ k r, c.result k = some r → c'.result k = some r := by
  cases ℓ with
  | start e =>
    simp only [Config.step] at hstep
    split at hstep
    · obtain rfl := Option.some.inj hstep
      have hnone : c.result c.started = none := by
        by_contra hne
        obtain ⟨r, hr⟩ := Option.ne_none_iff_exists'.mp hne
        exact (hc _ r hr).1.ne rfl
      have hc' : Ended { c with started := c.started + 1 } := fun k r hr =>
        ⟨(hc k r hr).1.trans (Nat.lt_succ_self _), (hc k r hr).2⟩
      exact hc'.settle hnone (Nat.lt_succ_self _) _
    · cases hstep
  | resume h =>
    simp only [Config.step] at hstep
    split at hstep
    · rename_i p k hp
      obtain rfl := Option.some.inj hstep
      have hnone : c.result h = none := by
        by_contra hne
        obtain ⟨r, hr⟩ := Option.ne_none_iff_exists'.mp hne
        rw [(hc _ r hr).2] at hp
        cases hp
      exact hc.settle hnone (hpool h _ hp) _
    · cases hstep
  | env d =>
    simp only [Config.step] at hstep
    split at hstep
    · obtain rfl := Option.some.inj hstep
      exact ⟨hc, fun _ _ hr => hr⟩
    · cases hstep

/-- What is so at every point of such a run. -/
structure Along (P : Platform) (q : RoomQueue) : Prop where
  runs : ∃ ls, Runs (room P) anytime freshRoom ls q.config
  ended : Ended q.config
  /-- The handlers are in modes that they heed, and keep the room armed. -/
  minded : ∃ modes, Minded P q.config modes ∧ (Unfailed q.config → Armed P q modes)

theorem along_fresh (P : Platform) : Along P freshQueue where
  runs := ⟨[], .nil⟩
  ended _ _ hr := nomatch hr
  minded := by
    refine ⟨fun _ => .free, fun h hh => absurd hh (Nat.not_lt_zero h), fun _ => ?_⟩
    have hnone : ∀ h, Queued.asks Point.setsAlarm freshQueue.config h = false := fun _ => rfl
    refine ⟨fun h => ?_, List.nodup_nil, fun h => ?_, .inr (.inl rfl)⟩
    · simp [hnone]
    · rw [hnone]
      exact ⟨nofun, nofun⟩

theorem Along.step {ℓ : Label Event Effect} (ha : Along P q)
    (hstep : q.step (room P) Point.setsAlarm ℓ = some q') :
    Along P q' := by
  have hc := (Queued.step_eq_some hstep).2.1
  obtain ⟨ls, hr⟩ := ha.runs
  obtain ⟨modes, hm, harmed⟩ := ha.minded
  have hlegit := (runsFrom_fresh hr).legit
  have hmeets := meets_anytime (P := P) q.config ℓ
  obtain ⟨hended, hkeeps⟩ := ha.ended.step (fun h p hp => (hlegit.waiting h p.1 p.2 hp).2.1) hc
  obtain ⟨modes', hm', hd⟩ := hm.step hr hc
  refine ⟨⟨_, hr.snoc hmeets hc⟩, hended, modes', hm', fun hfine => ?_⟩
  have hbefore : Unfailed q.config := fun h _ herror =>
    hfine h (hended h _ (hkeeps h _ herror)).1 (hkeeps h _ herror)
  exact (harmed hbefore).step hstep hd fun h herror => hfine h (hended h _ herror).1 herror

theorem along_of_reaches (hr : Reaches P freshQueue ls q) : Along P q :=
  Queued.replay_induct (fun _ _ _ ha hstep => ha.step hstep) (along_fresh P) hr

/-- In a room with `meta` and no handler in flight, the alarm is set in time for every
live socket. -/
theorem alarm_in_time (ha : Along P q) (hfine : Unfailed q.config) (hq : q.config.Quiet)
    (hmeta : q.config.state.storage.roomMeta.isSome = true) :
    ∃ alarm made t, q.config.state.storage.alarm = some alarm ∧ q.made.getLast? = some made ∧
      made.reads = t + 1 ∧ ∀ ws info, q.config.state.info ws = some info → info.archived = false →
        alarm ≤ max (P.clock t + 1) info.horizon := by
  obtain ⟨ls, hr⟩ := ha.runs
  obtain ⟨modes, -, harmed⟩ := ha.minded
  have hidle := (runsFrom_fresh hr).idle_end hq
  have harmed' := harmed hfine
  have hqueue : q.queue = [] := by
    refine List.eq_nil_iff_forall_not_mem.mpr fun h hmem => ?_
    have hasks := (harmed'.queued h).mp hmem
    simp [Queued.asks, hidle h] at hasks
  rcases harmed'.armed with ⟨h, hpool, -⟩ | hnone | ⟨made, alarm, hlast, ⟨t, ht, htimely⟩,
    hharmless, hset⟩
  · simp [hidle h] at hpool
  · simp [hnone] at hmeta
  · have halarm : q.config.state.storage.alarm = some alarm := by
      rcases hset with ⟨-, halarm⟩ | ⟨front, h, hfront, -⟩
      · exact halarm
      · simp [hfront] at hqueue
    refine ⟨alarm, made, t, halarm, hlast, ht, fun ws info' hinfo' hlive' => ?_⟩
    obtain ⟨info, hinfo, hlive, hle⟩ := hharmless.horizon ws info' hinfo' hlive'
    exact (htimely ws info hinfo hlive).trans (max_le_max le_rfl hle)

end IrohExperiment.Relay
