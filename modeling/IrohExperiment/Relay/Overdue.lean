/-
# What becomes of overdue sockets (`worker/src/iroh-relay.js`)

Along a run, a socket that is overdue stays so until it is archived, unless a pong that
it is waited for is taken meanwhile (`Pardons`).  So a run of `alarm` finds every socket
that was overdue when it started archived or overdue when its turn comes, and all of
them are archived in the end.

The main result is `deadlines_armed`; `deadlines_outlived` are the three runs on which a
stronger statement fails.
-/
import IrohExperiment.Relay.Armed

namespace IrohExperiment.Relay

open Coop Coroutine

variable {P : Platform} {h : ℕ} {w s : World} {ws : SocketId} {S : SocketId → Prop} {due : ℕ}
  {c c' : RoomConfig} {q q' : RoomQueue} {ℓ : Label Event Effect} {ls : List (Label Event Effect)}
  {modes modes' : ℕ → Mode}

/-! ## One decision -/

/-- Whatever handler runs, what it does to overdue sockets is in its regime. -/
theorem Did.timed (hd : Did P c c' ℓ modes modes') :
    Rests P c.state c'.state ∨ ∃ s, Stretches P c ℓ s ∧ Rests P c.state s ∧ Timed P s c'.state := by
  cases hd with
  | env _ hrests => exact .inl hrests
  | ran _ hbegins hrests _ hstint =>
    refine .inr ⟨_, hbegins, hrests, ?_⟩
    cases hstint with
    | waits _ hturn => cases hturn <;> assumption
    | @ends r _ _ hfin =>
      cases r with
      | ok a => exact hfin.1.timed
      | error e => exact hfin.1.timed

theorem Rests.overseen (hr : Rests P w s) : s.Overseen S due ↔ w.Overseen S due := by
  unfold World.Overseen World.Late
  rw [hr.info_eq]

/-- Overdue sockets are archived or stay so, unless a pong is taken. -/
theorem overseen_step (ha : Along P q) (hstep : q.step (room P) Point.setsAlarm ℓ = some q')
    (hover : q.config.state.Overseen S due) (hdue : due ≤ P.clock q.config.state.reads)
    (hpong : ∀ s ws, Stretches P q.config ℓ s → S ws → ¬ s.Ponged ws) :
    q'.config.state.Overseen S due := by
  obtain ⟨ls, hr⟩ := ha.runs
  obtain ⟨ls', hr'⟩ := (ha.step hstep).runs
  obtain ⟨modes, hm, -⟩ := ha.minded
  obtain ⟨-, hc, -⟩ := Queued.step_eq_some hstep
  obtain ⟨modes', -, hd⟩ := hm.step hr hc
  have hmeets := meets_anytime (P := P) q.config ℓ
  have hext := (runsFrom_fresh hr).extends_later (.snoc .nil hmeets hc)
  rcases hd.timed with hrests | ⟨s, hbegins, hrests, htimed⟩
  · exact hrests.overseen.mpr hover
  · intro ws hws
    rcases hover ws hws with harch | hlate
    · exact .inl (hext.archived (runsFrom_fresh hr).inv_end harch)
    · have hlate' : s.Late due ws := by
        unfold World.Late
        rw [hrests.info_eq]
        exact hlate
      rcases htimed due ws (hrests.reads ▸ hdue) hlate' with harch | hlate | ⟨hponged, -⟩
      · exact .inl harch
      · exact .inr hlate
      · exact absurd hponged (hpong s ws hbegins hws)

/-! ## A run of `alarm` -/

/-- Handler `h`, a run of `alarm` that began in `s₀`, finds each of the sockets `S`
archived or overdue. -/
structure Sweeps (P : Platform) (h : ℕ) (S : SocketId → Prop) (due : ℕ) (s₀ : World)
    (q : RoomQueue) : Prop where
  along : Along P q
  started : h < q.config.started
  event : q.config.state.past.arrivals[h]? = some .alarm
  overseen : q.config.state.Overseen S due
  reached : due ≤ P.clock q.config.state.reads
  tracked : ∃ m, Tracked (room P) (Stretch P anytime) (Inv P) (regime P (World.Overseen S due) h)
    (Closes P h (Swept P h S s₀)) h m q.config

/-- A run of `alarm` begins. -/
theorem Along.sweeps (ha : Along P q)
    (hstep : q.step (room P) Point.setsAlarm (.start .alarm) = some q')
    (hS : ∀ ws, S ws → q.config.state.Late (P.clock q.config.state.reads) ws) :
    ∃ s, Begins P q.config.started .alarm q.config.state s ∧
      Sweeps P q.config.started S (P.clock q.config.state.reads) s q' := by
  obtain ⟨ls, hr⟩ := ha.runs
  obtain ⟨-, hc, -⟩ := Queued.step_eq_some hstep
  have hlegit := (runsFrom_fresh hr).legit
  have hmeets := meets_anytime (P := P) q.config (.start .alarm)
  have hover : q.config.state.Overseen S (P.clock q.config.state.reads) :=
    fun ws hws => .inr (hS ws hws)
  have hext := (runsFrom_fresh hr).extends_later (.snoc .nil hmeets hc)
  -- the alarm was not started by a pong
  have hpong : ∀ s ws, Stretches P q.config (.start .alarm) s → S ws → ¬ s.Ponged ws := by
    rintro s ws hs - ⟨_, _, _, hevent, -⟩
    rw [(begins hlegit.inv hs).event] at hevent
    cases hevent
  cases hlegit.progress (room_sound P anytime) (room_invariant P anytime) hmeets hc with
  | @start _ s _ hs _ hguar hstarted =>
    have hbegins := begins hlegit.inv hs
    have heeds : ∀ s', (room P).begin q.config.started .alarm q.config.state = some s' → Inv P s' →
        (handler P .alarm s').Obeys (regime P (World.Overseen S (P.clock q.config.state.reads))
          q.config.started) (Closes P q.config.started (Swept P q.config.started S s))
            .owing s' := by
      intro s' hs' _
      obtain rfl := Option.some.inj (hs.symm.trans hs')
      exact Outcome.Follows.mono (handler_heeds hbegins (paired_of_runs hr).coupled
        (hbegins.rests.reads.symm ▸ le_rfl)) (fun _ _ _ _ hc => ⟨hc.1, hc.2 rfl⟩) fun _ _ _ _ hc =>
          hc
    obtain ⟨_, m, -, -, htracked⟩ := Tracked.start (room_sound P anytime) (room_invariant P anytime)
      hlegit hmeets hc heeds
    refine ⟨s, hbegins, ha.step hstep, by omega, ?_, overseen_step ha hstep hover le_rfl hpong,
      P.clock_mono hext.reads, m, htracked⟩
    rw [hguar.arrivals_eq, hbegins.arrival]

/-- A run of `alarm` goes on, and no pong is taken that a socket of `S` is waited for. -/
theorem Sweeps.step (hs : Sweeps P h S due w q)
    (hstep : q.step (room P) Point.setsAlarm ℓ = some q')
    (hpong : ∀ s ws, Stretches P q.config ℓ s → S ws → ¬ s.Ponged ws) : Sweeps P h S due w q' := by
  obtain ⟨ls, hr⟩ := hs.along.runs
  obtain ⟨-, hc, -⟩ := Queued.step_eq_some hstep
  obtain ⟨m, htracked⟩ := hs.tracked
  have hlegit := (runsFrom_fresh hr).legit
  have hmeets := meets_anytime (P := P) q.config ℓ
  have hext := (runsFrom_fresh hr).extends_later (.snoc .nil hmeets hc)
  have hstarted : q.config.started ≤ q'.config.started := by
    cases hlegit.progress (room_sound P anytime) (room_invariant P anytime) hmeets hc <;> omega
  obtain ⟨m', htracked', -⟩ :=
    htracked.step (room_sound P anytime) (room_invariant P anytime) hlegit
    hmeets hc hs.started fun s hI hi _ => resumes_of_interferes hI hi (paired_of_runs hr).coupled
      ((rests_enter P h q.config.state).overseen.mpr hs.overseen)
  exact ⟨hs.along.step hstep, hs.started.trans_le hstarted, hext.event hs.event,
    overseen_step hs.along hstep hs.overseen hs.reached hpong,
    hs.reached.trans (P.clock_mono hext.reads), m', htracked'⟩

/-- On the schedule a handler runs that was started by the pong that `ws` is waited for. -/
inductive Pardons (P : Platform) (ws : SocketId) : RoomQueue → List (Label Event Effect) → Prop
  | here {q : RoomQueue} {ℓ : Label Event Effect} {ls : List (Label Event Effect)} {s : World}
      (hs : Stretches P q.config ℓ s) (hpong : s.Ponged ws) : Pardons P ws q (ℓ :: ls)
  | later {q q' : RoomQueue} {ℓ : Label Event Effect} {ls : List (Label Event Effect)}
      (hstep : q.step (room P) Point.setsAlarm ℓ = some q') (hpardons : Pardons P ws q' ls) :
      Pardons P ws q (ℓ :: ls)

theorem Sweeps.run (hs : Sweeps P h S due w q) (hr : Reaches P q ls q')
    (hpardons : ∀ ws, S ws → ¬ Pardons P ws q ls) : Sweeps P h S due w q' := by
  induction ls generalizing q with
  | nil =>
    obtain rfl := Option.some.inj hr
    exact hs
  | cons ℓ ls ih =>
    obtain ⟨q₁, hstep, hr⟩ := Option.bind_eq_some_iff.mp hr
    refine ih (hs.step hstep fun s ws hs hws hpong => hpardons ws hws (.here hs hpong)) hr ?_
    exact fun ws hws hlater => hpardons ws hws (.later hstep hlater)

/-- The sockets of `S` have been retired when the run of `alarm` is over. -/
theorem Sweeps.swept (hs : Sweeps P h S due w q) (hover : q.config.pool h = none)
    (hwriter : h ∈ q.config.state.past.metaWriters) :
    ∃ t, w.reads ≤ t ∧ t < q.config.state.reads ∧ (∀ ws, S ws → Archived q.config.state.info ws) ∧
      Retiring h (Dismissed P (P.clock t) w.calls q.config.state.calls) w q.config.state := by
  obtain ⟨ls, hr⟩ := hs.along.runs
  obtain ⟨m, htracked⟩ := hs.tracked
  rcases htracked with ⟨p, k, _, hpool, -⟩ | ⟨-, r, m₁, s₁, s, hresult, hcloses, hI, hi⟩
  · rw [hover] at hpool
    cases hpool
  obtain ⟨r', hresult', hleaves⟩ := (runsFrom_fresh hr).leaves (Nat.zero_le h) hs.started hover
  obtain ⟨⟨a, rfl⟩, -⟩ := hleaves.alarm hs.event
  obtain rfl := Option.some.inj (hresult.symm.trans hresult')
  obtain ⟨-, hk⟩ := hI.interferes hi
  have hretains := hk.retains hI
  obtain ⟨t, hle, hlt, harch, hretiring⟩ := hcloses.2 (hk.spares.writer.mp hwriter)
  refine ⟨t, hle, hlt.trans_le hretains.reads,
    fun ws hws => hretains.archived ws (harch ws hws), ?_⟩
  exact (hretiring.widen le_rfl hretains.calls).trans (.of_retains hretains)

/-- A run of `alarm` that stores `meta` again has retired all sockets that were overdue
when it began, unless a pong was taken that they were waited for.  It reads the clock once,
and retires no socket but those that are overdue by then and those whose ping cannot be
sent. -/
theorem Along.alarm_retires (ha : Along P q) (hr : Reaches P q (.start .alarm :: ls) q')
    (hover : q'.config.pool q.config.started = none)
    (hwriter : q.config.started ∈ q'.config.state.past.metaWriters) :
    ∃ t, q.config.state.reads ≤ t ∧ t < q'.config.state.reads ∧
      (∀ ws, q.config.state.Late (P.clock q.config.state.reads) ws →
        Archived q'.config.state.info ws ∨ Pardons P ws q (.start .alarm :: ls)) ∧
      ∀ ws, (q'.config.state.socket ws).departure.owner = some q.config.started →
        ∃ seen, (q'.config.state.socket ws).departure.view = some seen ∧
          Dismissed P (P.clock t) q.config.state.calls q'.config.state.calls ws seen := by
  obtain ⟨q₁, hstep, hr⟩ := Option.bind_eq_some_iff.mp hr
  generalize hS : (fun ws => q.config.state.Late (P.clock q.config.state.reads) ws ∧
    ¬ Pardons P ws q (.start .alarm :: ls)) = S
  obtain ⟨s, hbegins, hsweeps⟩ := ha.sweeps (S := S) hstep fun ws hws => by
    rw [← hS] at hws
    exact hws.1
  have hend := hsweeps.run hr fun ws hws hlater => by
    rw [← hS] at hws
    exact hws.2 (.later hstep hlater)
  obtain ⟨t, hle, hlt, harch, hretiring⟩ := hend.swept hover hwriter
  rw [hbegins.rests.reads] at hle
  rw [hbegins.rests.calls] at hretiring
  refine ⟨t, hle, hlt, fun ws hlate => ?_, fun ws ho => ?_⟩
  · by_cases hpardons : Pardons P ws q (.start .alarm :: ls)
    · exact .inr hpardons
    · exact .inl (harch ws (hS ▸ ⟨hlate, hpardons⟩))
  · rcases hretiring.mine ws ho with ⟨ho', -⟩ | hseen
    · exact absurd ho' (hbegins.owner ws)
    · exact hseen

/-! ## Deadlines are armed -/

/-- **Deadlines are always armed.** -/
theorem deadlines_armed (hr : Reaches P freshQueue ls q) :
    (∀ ws info, q.config.state.info ws = some info →
      (info.phase = .challenge → info.deadline.isSome = true) ∧
      (info.phase = .authenticated →
        (info.deadline.isSome = true ↔ info.pendingPing.isSome = true))) ∧
    (Unfailed q.config → q.config.Quiet → q.config.state.storage.roomMeta.isSome = true →
      ∃ alarm made t, q.config.state.storage.alarm = some alarm ∧ q.made.getLast? = some made ∧
        made.reads = t + 1 ∧ ∀ ws info, q.config.state.info ws = some info → info.archived = false →
          alarm ≤ max (P.clock t + 1) info.horizon) ∧
    ∀ ls' q', Reaches P q (.start .alarm :: ls') q' → q'.config.pool q.config.started = none →
      q.config.started ∈ q'.config.state.past.metaWriters →
      ∃ t, q.config.state.reads ≤ t ∧ t < q'.config.state.reads ∧
        (∀ ws, q.config.state.Late (P.clock q.config.state.reads) ws →
          Archived q'.config.state.info ws ∨ Pardons P ws q (.start .alarm :: ls')) ∧
        ∀ ws, (q'.config.state.socket ws).departure.owner = some q.config.started →
          ∃ seen, (q'.config.state.socket ws).departure.view = some seen ∧
            Dismissed P (P.clock t) q.config.state.calls q'.config.state.calls ws seen := by
  have ha := along_of_reaches hr
  obtain ⟨ls₀, hruns⟩ := ha.runs
  have hI := (runsFrom_fresh hruns).inv_end
  refine ⟨fun ws info hinfo => ⟨fun hphase => ?_, (paired_of_runs hruns ws info hinfo).1⟩,
    fun hfine hq hmeta => alarm_in_time ha hfine hq hmeta, fun ls' q' hr' hover hwriter =>
      ha.alarm_retires hr' hover hwriter⟩
  obtain ⟨-, -, hdeadline⟩ := (hI.shape ws info hinfo).handshake (by simp [hphase])
  simp [hdeadline]

/-- `calmPlatform`, with a clock that jumps ahead at some of its readings. -/
def jumpyPlatform (jumps : List (ℕ × ℕ)) : Platform :=
  { calmPlatform with
    clock := fun n => 1790000000000 + (jumps.map fun jump => if jump.1 ≤ n then jump.2 else 0).sum
    clock_mono := fun m n hle => by
      refine Nat.add_le_add_left (List.sum_le_sum fun jump _ => ?_) _
      split_ifs <;> omega }

/-- The ping is due after the handshake, and is then not answered in time. -/
def unansweredPlatform : Platform := jumpyPlatform [(12, 15000), (14, 5000)]

/-- Socket 0 is accepted, authenticates and is sent a ping. -/
def pingedSchedule : List (Label Event Effect) :=
  handled 0 8 (.fetch upgradeRequest) ++ handled 1 17 (.message 0 (.binary (authFrame 7))) ++
    handled 2 9 .alarm

instance (w : World) (now : ℕ) (ws : SocketId) : Decidable (w.Late now ws) :=
  decidable_of_iff ((w.info ws).any fun info => !info.archived && decide (info.horizon ≤ now))
    (by simp [World.Late, Option.any_eq_true])

instance (c : RoomConfig) : Decidable (Unfailed c) :=
  decidable_of_iff (∀ h < c.started, (c.result h).all fun r => match r with
      | .ok _ => true
      | .error f => decide (f ≠ .sendFailed)) <| by
    refine forall₂_congr fun h _ => ?_
    rcases c.result h with _ | (f | a) <;> simp

/-- From `q` a run of `alarm` leads to `q'`, among other things that happen. -/
def AlarmRun (P : Platform) (q q' : RoomQueue) : Prop :=
  ∃ ls ls', Reaches P freshQueue ls q ∧ Reaches P q (.start .alarm :: ls') q' ∧
    q'.config.pool q.config.started = none

theorem exists_alarmRun (P : Platform) (ls ls' : List (Label Event Effect))
    (p : RoomQueue → RoomQueue → Bool)
    (hrun : ((freshQueue.replay (room P) Point.setsAlarm ls).any fun q =>
      (q.replay (room P) Point.setsAlarm (.start .alarm :: ls')).any fun q' =>
        (q'.config.pool q.config.started).isNone && p q q') = true) :
    ∃ q q', Reaches P freshQueue ls q ∧ Reaches P q (.start .alarm :: ls') q' ∧
      q'.config.pool q.config.started = none ∧ p q q' = true := by
  obtain ⟨q, hq, hrun⟩ := (Option.any_eq_true ..).mp hrun
  obtain ⟨q', hq', hrun⟩ := (Option.any_eq_true ..).mp hrun
  obtain ⟨hover, hp⟩ := Bool.and_eq_true_iff.mp hrun
  exact ⟨q, q', hq, hq', Option.isNone_iff_eq_none.mp hover, hp⟩

/-- The alarm goes off again when the ping has not been answered in time. -/
theorem deadlines_armed_timeout : ∃ q q' : RoomQueue,
    q.config.state.Late (unansweredPlatform.clock q.config.state.reads) 0 ∧
    (∃ alarm made t, q.config.state.storage.alarm = some alarm ∧ q.made.getLast? = some made ∧
      made.reads = t + 1 ∧ ∀ ws info, q.config.state.info ws = some info → info.archived = false →
        alarm ≤ max (unansweredPlatform.clock t + 1) info.horizon) ∧
    ∃ t, (∀ ws, q.config.state.Late (unansweredPlatform.clock q.config.state.reads) ws →
        Archived q'.config.state.info ws ∨
          Pardons unansweredPlatform ws q (handled 3 17 .alarm)) ∧
      ∀ ws, (q'.config.state.socket ws).departure.owner = some q.config.started →
        ∃ seen, (q'.config.state.socket ws).departure.view = some seen ∧
          Dismissed unansweredPlatform (unansweredPlatform.clock t) q.config.state.calls
            q'.config.state.calls ws seen := by
  obtain ⟨q, q', hr, hr', hover, hrun⟩ := exists_alarmRun unansweredPlatform pingedSchedule
    (List.replicate 17 (.resume 3)) (fun q q' => decide
      (Unfailed q.config ∧ q.config.Quiet ∧ q.config.state.storage.roomMeta.isSome = true ∧
        q.config.started ∈ q'.config.state.past.metaWriters ∧
        q.config.state.Late (unansweredPlatform.clock q.config.state.reads) 0)) (by decide +kernel)
  obtain ⟨hfine, hq, hmeta, hwriter, hlate⟩ := of_decide_eq_true hrun
  obtain ⟨t, -, -, hswept, hretired⟩ := (deadlines_armed hr).2.2 _ q' hr' hover hwriter
  exact ⟨q, q', hlate, (deadlines_armed hr).2.1 hfine hq hmeta, t, hswept, hretired⟩

/-- A run of `alarm` may leave a socket live that was overdue when it began: a pong was
taken meanwhile, or the storage had been deleted by another one.  And it may retire a
socket that was not overdue then. -/
theorem deadlines_outlived :
    (¬ ∀ q q', AlarmRun unansweredPlatform q q' →
      q'.config.state.past.wiped = false →
      ∀ ws, q.config.state.Late (unansweredPlatform.clock q.config.state.reads) ws →
        Archived q'.config.state.info ws) ∧
    (¬ ∀ q q', AlarmRun (jumpyPlatform [(9, 10000000)]) q q' → q.config.Quiet →
      q'.config.state.past.wiped = q.config.state.past.wiped →
      ∀ ws, q.config.state.Late ((jumpyPlatform [(9, 10000000)]).clock q.config.state.reads) ws →
        Archived q'.config.state.info ws) ∧
    ¬ ∀ q q', AlarmRun (jumpyPlatform [(12, 15000), (17, 5000)]) q q' →
      q'.config.state.past.wiped = false →
      ∀ ws, (q'.config.state.socket ws).departure.owner = some q.config.started →
        q.config.state.Late ((jumpyPlatform [(12, 15000), (17, 5000)]).clock q.config.state.reads)
          ws := by
  refine ⟨fun h => ?_, fun h => ?_, fun h => ?_⟩
  · -- the pong comes while `alarm` reads `meta`
    obtain ⟨q, q', hr, hr', hover, hrun⟩ := exists_alarmRun unansweredPlatform pingedSchedule
      (handled 4 5 (.message 0 (.binary (10 :: List.replicate 8 1))) ++ List.replicate 9
        (.resume 3))
      (fun q q' => decide (q'.config.state.past.wiped = false ∧
        q.config.state.Late (unansweredPlatform.clock q.config.state.reads) 0 ∧
        ¬ Archived q'.config.state.info 0)) (by decide +kernel)
    obtain ⟨hwiped, hlate, hlive⟩ := of_decide_eq_true hrun
    exact hlive (h q q' ⟨_, _, hr, hr', hover⟩ hwiped 0 hlate)
  · -- another run of `alarm` has deleted the storage, and then an upgrade has set the alarm
    obtain ⟨q, q', hr, hr', hover, hrun⟩ := exists_alarmRun (jumpyPlatform [(9, 10000000)])
      (handled 0 8 (.fetch upgradeRequest) ++ handled 1 5 (.fetch upgradeRequest) ++
        handled 2 4 .alarm ++ List.replicate 3 (.resume 1)) (List.replicate 2 (.resume 3))
      (fun q q' => decide (q.config.Quiet ∧
        q'.config.state.past.wiped = q.config.state.past.wiped ∧
        q.config.state.Late ((jumpyPlatform [(9, 10000000)]).clock q.config.state.reads) 0 ∧
        ¬ Archived q'.config.state.info 0)) (by decide +kernel)
    obtain ⟨hq, hwiped, hlate, hlive⟩ := of_decide_eq_true hrun
    exact hlive (h q q' ⟨_, _, hr, hr', hover⟩ hq hwiped 0 hlate)
  · -- a message is handled before `alarm` reads the clock
    obtain ⟨q, q', hr, hr', hover, hrun⟩ :=
      exists_alarmRun (jumpyPlatform [(12, 15000), (17, 5000)])
      pingedSchedule (handled 4 0 (.message 0 (.binary (9 :: List.replicate 8 0))) ++
        List.replicate 17 (.resume 3)) (fun q q' => decide (q'.config.state.past.wiped = false ∧
          (q'.config.state.socket 0).departure.owner = some q.config.started ∧
          ¬ q.config.state.Late
            ((jumpyPlatform [(12, 15000), (17, 5000)]).clock q.config.state.reads) 0))
        (by decide +kernel)
    obtain ⟨hwiped, howner, hlate⟩ := of_decide_eq_true hrun
    exact hlate (h q q' ⟨_, _, hr, hr', hover⟩ hwiped 0 howner)

end IrohExperiment.Relay
