/-
# The regime of a handler (`worker/src/iroh-relay.js`)

What a handler does about the alarm of the room, stretch by stretch, and the rules
that take it apart along its source.  `schedule` pays whatever its handler owes;
`finish` owes nothing, and retires the one socket that it is asked to.

The judgement is `Heeds`, with a flag that says whether the alarm is set early enough for
every deadline (`Under`).  `setAlarm_heeds` and `schedule_heeds` are its two ways to be
paid; the rules for sequencing, `catch` and conditionals are those of `Coop.Logic` for this
regime.
-/
import IrohExperiment.Relay.Deadlines

namespace IrohExperiment.Relay

open Coop Coroutine

variable {P : Platform} {J : World → Prop} {κ : Trigger Event Point → World → Prop} {h : ℕ}
    {α β : Type}
  {b b' : α → Bool} {e : Bool} {Q Q' : α → World → Prop} {E E' : Fault → World → Prop}
  {w w' w'' s₀ : World} {ws : SocketId}

/-! ## Modes -/

/-- What a handler owes: nothing; an alarm that is early enough; or nothing, once the
alarm that it has asked for is set. -/
inductive Mode : Type where
  | free
  | owing
  | setting (time : ℕ)
  deriving DecidableEq

/-- The alarm once the first step of a stretch has been carried out. -/
def Mode.alarm (s₀ : World) : Mode → Option ℕ
  | .setting time => some time
  | _ => s₀.storage.alarm

/-- The handler has not asked for the alarm to be set. -/
def Mode.idle : Mode → Bool
  | .setting _ => false
  | _ => true

/-- The handler waits for the alarm to be set. -/
def Point.setsAlarm : Point → Bool
  | .issued .setAlarm => true
  | _ => false

/-- `time` is early enough for all live sockets, counted from the last reading of the
clock. -/
def Timely (P : Platform) (w : World) (time : ℕ) : Prop :=
  ∃ t, w.reads = t + 1 ∧ ∀ ws info, w.info ws = some info → info.archived = false →
    time ≤ max (P.clock t + 1) info.horizon

/-- How a stretch turns the mode. -/
inductive Turn (P : Platform) (m : Mode) (s₀ : World) (p : Point) (w : World) : Mode → Prop
  | sets {time : ℕ} (hp : p.setsAlarm = true) (halarm : w.storage.alarm = m.alarm s₀)
      (htimed : Timed P s₀ w) (htimely : Timely P w time) : Turn P m s₀ p w (.setting time)
  | owes (hp : p.setsAlarm = false) (halarm : w.storage.alarm = m.alarm s₀)
      (htimed : Timed P s₀ w) : Turn P m s₀ p w .owing
  | pays (hp : p.setsAlarm = false) (halarm : w.storage.alarm = m.alarm s₀)
      (htimed : Timed P s₀ w)
      (hpaid : w.storage.roomMeta = none ∨ m ≠ .owing ∧ Harmless s₀ w) : Turn P m s₀ p w .free

/-! ## What a handler leaves alone -/

/-- Archived sockets stay archived, and `h` has retired no other sockets but those
that `F` describes, by what was seen when they were retired. -/
structure Retiring (h : ℕ) (F : SocketId → View → Prop) (w w' : World) : Prop where
  arrivals : w.past.arrivals <+: w'.past.arrivals
  reads : w.reads ≤ w'.reads
  calls : w.calls ≤ w'.calls
  archived : ∀ ws, Archived w.info ws → Archived w'.info ws
  mine : ∀ ws, (w'.socket ws).departure.owner = some h →
    ((w.socket ws).departure.owner = some h ∧
      (w'.socket ws).departure.view = (w.socket ws).departure.view) ∨
    ∃ seen, (w'.socket ws).departure.view = some seen ∧ F ws seen

/-- Archived sockets stay archived, and `h` has retired no other sockets. -/
abbrev Retains (h : ℕ) : World → World → Prop := Retiring h fun _ _ => False

section

variable {F F' : SocketId → View → Prop}

theorem retiring_refl (h : ℕ) (F : SocketId → View → Prop) (w : World) : Retiring h F w w :=
  ⟨List.prefix_refl _, le_rfl, le_rfl, fun _ => id, fun _ ho => .inl ⟨ho, rfl⟩⟩

/-- What is retired in two stretches is retired for the same reasons. -/
theorem Retiring.trans (h₁ : Retiring h F w w') (h₂ : Retiring h F w' w'') :
    Retiring h F w w'' where
  arrivals := h₁.arrivals.trans h₂.arrivals
  reads := h₁.reads.trans h₂.reads
  calls := h₁.calls.trans h₂.calls
  archived ws harch := h₂.archived ws (h₁.archived ws harch)
  mine ws ho := by
    rcases h₂.mine ws ho with ⟨ho', hview'⟩ | hnew
    · rcases h₁.mine ws ho' with ⟨ho'', hview''⟩ | ⟨seen, hseen, hF⟩
      · exact .inl ⟨ho'', hview'.trans hview''⟩
      · exact .inr ⟨seen, hview'.trans hseen, hF⟩
    · exact .inr hnew

theorem Retiring.mono (hr : Retiring h F w w') (hF : ∀ ws seen, F ws seen → F' ws seen) :
    Retiring h F' w w' :=
  { hr with
    mine := fun ws ho =>
      (hr.mine ws ho).imp_right fun ⟨seen, hseen, h⟩ => ⟨seen, hseen, hF ws seen h⟩ }

/-- What retires no socket. -/
theorem Retiring.of_retains (hr : Retains h w w') : Retiring h F w w' :=
  hr.mono fun _ _ => False.elim

theorem Retiring.event (hr : Retiring h F w w') {k : ℕ} {e : Event}
    (he : w.past.arrivals[k]? = some e) : w'.past.arrivals[k]? = some e := by
  obtain ⟨rest, hrest⟩ := hr.arrivals
  rw [← hrest, List.getElem?_append_left (List.getElem?_eq_some_iff.mp he).1, he]

end

/-- Others keep the retirements of a handler as they are. -/
theorem Kept.retains (hI : Inv P w) (hk : Kept h w w') : Retains h w w' where
  arrivals := hk.extends_.arrivals
  reads := hk.extends_.reads
  calls := hk.extends_.calls
  archived _ := hk.extends_.archived hI
  mine ws ho := by
    have hsame := hk.departure ws (.inr ho)
    exact .inl ⟨hsame ▸ ho, by rw [hsame]⟩

/-- An update that sets no deadline and retires no socket. -/
structure Tame (h : ℕ) (w w' : World) : Prop where
  eases : Eases w w'
  retains : Retains h w w'

/-- A step that sets no deadline, touches no alarm and begins no retirement is tame. -/
theorem Tame.of_eases (he : Eases w w') (hcalls : w.calls ≤ w'.calls)
    (hdeparture : ∀ ws, (w'.socket ws).departure.owner = (w.socket ws).departure.owner ∧
      (w'.socket ws).departure.view = (w.socket ws).departure.view) : Tame h w w' := by
  refine ⟨he, by rw [he.handler.2], he.reads, hcalls, fun _ => he.archived, fun ws ho => ?_⟩
  exact .inl ⟨(hdeparture ws).1 ▸ ho, (hdeparture ws).2⟩

/-- An update that leaves the sockets as they are. -/
theorem Tame.of_sockets (halarm : w'.storage.alarm = w.storage.alarm)
    (hmeta : w'.storage.roomMeta = w.storage.roomMeta) (hreads : w.reads ≤ w'.reads)
    (hcalls : w.calls ≤ w'.calls)
    (hhandler : w'.past.current = w.past.current ∧ w'.past.arrivals = w.past.arrivals)
    (hsocket : w'.socket = w.socket) :
    Tame h w w' := by
  refine .of_eases (.of_info halarm hmeta hreads hhandler ?_) hcalls fun ws => ?_
  · funext ws
    rw [World.info, World.info, hsocket]
  · simp [hsocket]

theorem tame_tick (h : ℕ) (w : World) : Tame h w w.tick :=
  .of_sockets rfl rfl (Nat.le_succ _) le_rfl ⟨rfl, rfl⟩ rfl

theorem tame_call (h : ℕ) (w : World) : Tame h w w.call :=
  .of_sockets rfl rfl le_rfl (Nat.le_succ _) ⟨rfl, rfl⟩ rfl

theorem tame_draw (h : ℕ) (w : World) : Tame h w w.draw :=
  .of_sockets rfl rfl le_rfl le_rfl ⟨rfl, rfl⟩ rfl

/-- Two tame stretches are one. -/
theorem Tame.trans (h₁ : Tame h w w') (h₂ : Tame h w' w'') : Tame h w w'' := by
  refine ⟨⟨h₂.eases.alarm.trans h₁.eases.alarm,
    fun hnone => h₂.eases.roomMeta (h₁.eases.roomMeta hnone),
    h₁.eases.reads.trans h₂.eases.reads, ⟨h₂.eases.handler.1.trans h₁.eases.handler.1,
      h₂.eases.handler.2.trans h₁.eases.handler.2⟩,
    fun ws => (h₂.eases.known ws).trans (h₁.eases.known ws), fun ws info info'' hi hi'' => ?_⟩,
    h₁.retains.trans h₂.retains⟩
  obtain ⟨info', hi', hs⟩ := h₁.eases.after hi
  have hs' := h₂.eases.steady ws info' info'' hi' hi''
  refine ⟨fun harch => hs'.archived (hs.archived harch), fun hlive => ?_⟩
  obtain ⟨hp', hd', hq', he'⟩ := hs'.live hlive
  obtain ⟨hp, hd, hq, he⟩ := hs.live (hs'.alive hlive)
  exact ⟨hp'.trans hp, hd'.trans hd, hq'.trans hq, he'.trans he⟩

/-- Counters are added to. -/
theorem tame_amend {info info' : Attachment} {made : Counters} (hinfo : w.info ws = some info)
    (hs : info.Steady (info'.plus made)) : Tame h w (w.amend ws info' made) := by
  refine .of_eases (.of_one hinfo hs rfl rfl le_rfl ⟨rfl, rfl⟩
    (by simp [World.info, Attachment.plus]) fun T hT => by simp [World.info, hT]) le_rfl fun T => ?_
  by_cases hT : T = ws <;> simp [hT]

/-- A frame is sent. -/
theorem tame_sent {info : Attachment} {bytes : Bytes} {category : Option Counter}
    {about : Option SocketId} (hinfo : w.info ws = some info) :
    Tame h w (w.sent ws info bytes category about) := by
  refine .of_eases (.of_one hinfo (info.steady_plus (World.sentCounts bytes category)) rfl rfl
    le_rfl ⟨rfl, rfl⟩ (by simp [World.info, Attachment.plus]) fun T hT => by simp [World.info, hT])
    le_rfl fun T => ?_
  by_cases hT : T = ws <;> simp [hT]

/-- History about a socket is recorded. -/
theorem tame_mark (f : Socket → Socket) (hf : ∀ s, (f s).attachment = s.attachment)
    (hdeparture : ∀ s, (f s).departure.owner = s.departure.owner ∧
      (f s).departure.view = s.departure.view) : Tame h w (w.setSocket ws f) := by
  refine .of_eases (.of_info rfl rfl le_rfl ⟨rfl, rfl⟩ ?_) le_rfl fun T => ?_
  · funext T
    by_cases hT : T = ws <;> simp [World.info, hT, hf]
  · by_cases hT : T = ws
    · simpa [hT] using hdeparture (w.socket ws)
    · simp [hT]

/-! ## The judgement -/

/-- Handler `h` runs, in a stretch that began in mode `m` and state `s₀`; if `b`
holds, it owes nothing. -/
structure Under (P : Platform) (h : ℕ) (b : Bool) (m : Mode) (s₀ w : World) : Prop where
  current : w.past.current = h
  event : w.event = s₀.event
  idle : m.idle = true
  alarm : w.storage.alarm = s₀.storage.alarm
  reads : s₀.reads ≤ w.reads
  timed : Timed P s₀ w
  coupled : w.Coupled
  paid : b = true → w.storage.roomMeta = none ∨ m ≠ .owing ∧ Harmless s₀ w

/-- What handler `h` finds when it goes on; `J` is what else is known then. -/
structure Resumes (P : Platform) (J : World → Prop) (h : ℕ) (w w' : World) : Prop where
  retains : Retains h w w'
  writer : h ∈ w'.past.metaWriters → h ∈ w.past.metaWriters
  inv : Inv P w'
  coupled : w'.Coupled
  current : w'.past.current = h
  known : J w'

/-- The regime of handler `h`. -/
def regime (P : Platform) (J : World → Prop) (h : ℕ) : Regime Mode Point World where
  turn := Turn P
  rely := Resumes P J h

/-- The computation heeds the regime of `h`; the handler owes nothing when it ends
with a value that `b` picks out, or with an exception and `e`. -/
def Heeds (P : Platform) (J : World → Prop) (h : ℕ) (b : α → Bool) (e : Bool)
    (Q : α → World → Prop) (E : Fault → World → Prop) (m : Mode) (s₀ : World)
    (o : Outcome Point World Fault α) : Prop :=
  o.Follows (regime P J h) (fun a m s₁ s => Under P h (b a) m s₁ s ∧ Q a s)
    (fun f m s₁ s => Under P h e m s₁ s ∧ E f s) m s₀

/-- The mode to go on in. -/
def Mode.after (b : Bool) : Mode := if b then .free else .owing

namespace Under

variable {c : Bool} {m : Mode}

theorem weaken (hw : Under P h c m s₀ w) : Under P h false m s₀ w :=
  ⟨hw.current, hw.event, hw.idle, hw.alarm, hw.reads, hw.timed, hw.coupled, nofun⟩

theorem alarm_eq (hw : Under P h c m s₀ w) : w.storage.alarm = m.alarm s₀ := by
  have hidle := hw.idle
  cases m with
  | setting time => cases hidle
  | _ => exact hw.alarm

/-- Nothing is owed to a room that has no `meta`. -/
theorem of_none (hw : Under P h c m s₀ w) (hnone : w.storage.roomMeta = none) (c' : Bool) :
    Under P h c' m s₀ w :=
  ⟨hw.current, hw.event, hw.idle, hw.alarm, hw.reads, hw.timed, hw.coupled, fun _ => .inl hnone⟩

/-- A handler may take a step that sets no deadline and touches no alarm. -/
theorem eases (hw : Under P h c m s₀ w) (he : Eases w w') : Under P h c m s₀ w' :=
  ⟨he.handler.1.trans hw.current, he.event.trans hw.event, hw.idle, he.alarm.trans hw.alarm,
    hw.reads.trans he.reads, he.timed hw.timed, he.coupled hw.coupled,
    fun hc => (hw.paid hc).imp he.roomMeta (And.imp_right fun hh => hh.trans he.harmless)⟩

theorem tame (hw : Under P h c m s₀ w) (ht : Tame h w w') : Under P h c m s₀ w' := hw.eases ht.eases

/-- The stretch ends here. -/
theorem turn {p : Point} (hw : Under P h c m s₀ w) (hp : p.setsAlarm = false) :
    Turn P m s₀ p w (.after c) := by
  cases c with
  | false => exact .owes hp hw.alarm_eq hw.timed
  | true => exact .pays hp hw.alarm_eq hw.timed (hw.paid rfl)

end Under

/-- The next stretch begins. -/
theorem Resumes.under {c : Bool} (hr : Resumes P J h w w') : Under P h c (.after c) w' w' := by
  refine ⟨hr.current, rfl,
    by cases c <;> rfl, rfl, le_rfl, timed_refl P w', hr.coupled, fun hc => ?_⟩
  subst hc
  exact .inr ⟨nofun, harmless_refl w'⟩

namespace Heeds

variable {m : Mode} {c : Bool}

/-- The rule of consequence. -/
theorem mono {o : Outcome Point World Fault α} (ho : Heeds P J h b e Q E m s₀ o)
    (hQ : ∀ a s, Q a s → Q' a s) (hE : ∀ f s, E f s → E' f s) : Heeds P J h b e Q' E' m s₀ o :=
  Outcome.Follows.mono ho (fun a _ _ s hs => ⟨hs.1, hQ a s hs.2⟩) fun f _ _ s hs =>
    ⟨hs.1, hE f s hs.2⟩

theorem done {a : α} (hw : Under P h (b a) m s₀ w) (hQ : Q a w) :
    Heeds P J h b e Q E m s₀ (.done a w) := ⟨hw, hQ⟩

theorem fail {f : Fault} (hw : Under P h e m s₀ w) (hE : E f w) :
    Heeds P J h b e Q E m s₀ (.fail f w : Outcome Point World Fault α) := ⟨hw, hE⟩

theorem raise {f : Fault} (hw : Under P h e m s₀ w) (hE : E f w) :
    Heeds P J h b e Q E m s₀ ((Coroutine.raise f : Async α) w) := ⟨hw, hE⟩

theorem bind {t : Async α} {f : α → Async β} {b' : β → Bool} {Q' : β → World → Prop}
    (ht : Heeds P J h b e Q E m s₀ (t w))
    (hf : ∀ a m s₁ s, Under P h (b a) m s₁ s → Q a s → Heeds P J h b' e Q' E m s₁ (f a s)) :
    Heeds P J h b' e Q' E m s₀ ((t >>= f) w) :=
  (follows_bind t f).mpr (Outcome.Follows.mono ht (fun a m s₁ s hs => hf a m s₁ s hs.1 hs.2)
    fun _ _ _ _ => id)

/-- A step that ends at once. -/
theorem step {t : Async α} {f : α → Async β} {a : α} {u : World} {b' : β → Bool}
    {Q' : β → World → Prop} (ht : t w = .done a u) (hf : Heeds P J h b' e Q' E m s₀ (f a u)) :
    Heeds P J h b' e Q' E m s₀ ((t >>= f) w) := by
  have hstep : (t >>= f) w = f a u := by
    show (t w).handle f .fail = f a u
    rw [ht]
    rfl
  rwa [hstep]

theorem rescue {t : Async α} {f : Fault → Async α} {e' : Bool}
    (ht : Heeds P J h b e Q E m s₀ (t w))
    (hf : ∀ k m s₁ s, Under P h e m s₁ s → E k s → Heeds P J h b e' Q E' m s₁ (f k s)) :
    Heeds P J h b e' Q E' m s₀ ((t.rescue f) w) :=
  (follows_rescue t f).mpr (Outcome.Follows.mono ht (fun _ _ _ _ => id)
    fun k m s₁ s hs => hf k m s₁ s hs.1 hs.2)

theorem when {t : Async Unit} {x : Bool} {b : Unit → Bool} {Q : Unit → World → Prop}
    (ht : x = true → Heeds P J h b e Q E m s₀ (t w))
    (hf : x = false → Under P h (b ()) m s₀ w ∧ Q () w) :
    Heeds P J h b e Q E m s₀ ((Coroutine.when x t) w) := by
  cases x with
  | true => exact ht rfl
  | false => exact hf rfl

/-- Awaiting a computation at a point that shows its value. -/
theorem awaiting {p : Except Fault α → Point} {t : Async α} (hp : ∀ r, (p r).setsAlarm = false)
    (ht : Heeds P J h b e (fun a s => ∀ s', Resumes P J h s s' → Q a s')
      (fun f s => ∀ s', Resumes P J h s s' → E f s') m s₀ (t w)) :
    Heeds P J h b e Q E m s₀ ((Coroutine.await p t) w) :=
  (follows_await p t).mpr (Outcome.Follows.mono ht
    (fun _ _ _ _ hs => ⟨_, hs.1.turn (hp _), fun s' hr => ⟨hr.under, hs.2 s' hr⟩⟩)
    fun _ _ _ _ hs => ⟨_, hs.1.turn (hp _), fun s' hr => ⟨hr.under, hs.2 s' hr⟩⟩)

/-- Awaiting an async method. -/
theorem await {site : Site} {t : Async α}
    (ht : Heeds P J h b e (fun a s => ∀ s', Resumes P J h s s' → Q a s')
      (fun f s => ∀ s', Resumes P J h s s' → E f s') m s₀ (t w)) :
    Heeds P J h b e Q E m s₀ ((await site t) w) := awaiting (fun _ => rfl) ht

/-- A request to the storage or to the crypto module. -/
theorem request {site : Site} {op : Async α} (hw : Under P h c m s₀ w)
    (hsite : (Point.issued site).setsAlarm = false)
    (hop : ∀ s, Resumes P J h w s → Heeds P J h b e
      (fun a s' => ∀ s'', Resumes P J h s' s'' → Q a s'')
      (fun f s' => ∀ s'', Resumes P J h s' s'' → E f s'') (.after c) s (op s)) :
    Heeds P J h b e Q E m s₀ ((request site op) w) := by
  refine await ((follows_bind _ _).mpr ((follows_yield _).mpr ⟨_, hw.turn hsite, fun s hr => ?_⟩))
  exact hop s hr

end Heeds

/-! ## `schedule` -/

/-- The fold is below its start and below every deadline. -/
theorem foldl_deadline_le (active : List Attachment) (next : ℕ) :
    active.foldl (fun next info => match info.deadline with
      | some deadline => min next deadline
      | none => next) next ≤ next ∧
    ∀ info ∈ active, ∀ deadline, info.deadline = some deadline →
      active.foldl (fun next info => match info.deadline with
        | some deadline => min next deadline
        | none => next) next ≤ deadline := by
  induction active generalizing next with
  | nil => exact ⟨le_rfl, nofun⟩
  | cons info rest ih =>
    rw [List.foldl_cons]
    obtain ⟨hle, hall⟩ := ih (match info.deadline with
      | some deadline => min next deadline
      | none => next)
    have hnext : (match info.deadline with
        | some deadline => min next deadline
        | none => next) ≤ next := by
      split
      · exact min_le_left _ _
      · exact le_rfl
    refine ⟨hle.trans hnext, fun info' hmem deadline hdeadline => ?_⟩
    rcases List.mem_cons.mp hmem with rfl | hmem
    · refine hle.trans ?_
      rw [hdeadline]
      exact min_le_right _ _
    · exact hall info' hmem deadline hdeadline

/-- The alarm is due no later than any of the sockets. -/
theorem nextAlarm_le {m : RoomMeta} {active : List Attachment} {info : Attachment}
    (hmem : info ∈ active) (hexpires : info.expires = m.expires) :
    nextAlarm m active ≤ info.horizon := by
  have hne : active.isEmpty = false := by
    cases active with
    | nil => cases hmem
    | cons _ _ => rfl
  unfold nextAlarm Attachment.horizon
  rw [hne, if_neg (by simp)]
  have hstart : (match m.nextPing with
      | some at_ => min m.expires at_
      | none => m.expires) ≤ m.expires := by
    split
    · exact min_le_left _ _
    · exact le_rfl
  obtain ⟨hle, hall⟩ := foldl_deadline_le active (match m.nextPing with
    | some at_ => min m.expires at_
    | none => m.expires)
  rw [hexpires]
  cases hdeadline : info.deadline with
  | none => exact hle.trans hstart
  | some deadline => exact le_min (hall info hmem deadline hdeadline) (hle.trans hstart)

/-- What `schedule` computes is early enough. -/
theorem timely_nextAlarm {m : RoomMeta} (hI : Inv P w)
    (hexpires : m.expires = tokenExpires P.token) :
    Timely P w.tick (max (P.clock w.reads + 1) (nextAlarm m w.active)) := by
  refine ⟨w.reads, rfl, fun ws info hinfo hlive => max_le_max le_rfl (nextAlarm_le ?_ ?_)⟩
  · unfold World.active
    rw [List.mem_filter]
    exact ⟨List.mem_filterMap.mpr ⟨ws, hI.lists ws ⟨info, hinfo, hlive⟩, hinfo⟩, by simp [hlive]⟩
  · exact (hI.shape ws info hinfo).expires.trans hexpires.symm

/-- An alarm that is in time pays for every deadline. -/
theorem setAlarm_heeds {c : Bool} {m : Mode} {time : ℕ} (hw : Under P h c m s₀ w)
    (htimely : Timely P w time) :
    Heeds P J h (fun _ => true) e (fun _ s => Retains h w s) E m s₀
      (request .setAlarm (writeStorage fun s => { s with alarm := some time }) w) := by
  refine (follows_await _ _).mpr ((follows_bind _ _).mpr ((follows_yield _).mpr
    ⟨.setting time, .sets rfl hw.alarm_eq hw.timed htimely, fun s hr => ?_⟩))
  have hturn : Turn P (.setting time) s (.answered .setAlarm) (s.setAlarm time) .free :=
    .pays rfl rfl (timed_refl P s)
      (.inr ⟨nofun, fun _ info hinfo hlive => ⟨info, hinfo, hlive, le_rfl⟩, id⟩)
  have hset : Retains h s (s.setAlarm time) :=
    ⟨List.prefix_refl _, le_rfl, le_rfl, fun _ => id, fun _ ho => .inl ⟨ho, rfl⟩⟩
  exact ⟨.free, hturn, fun s' hr' =>
    ⟨hr'.under (c := true), (hr.retains.trans hset).trans hr'.retains⟩⟩

/-- `schedule` pays what is owed. -/
theorem schedule_heeds {c : Bool} {m : Mode} (hw : Under P h c m s₀ w) :
    Heeds P J h (fun _ => true) e (fun _ s => Retains h w s) E m s₀ (schedule P w) := by
  refine .bind (b := fun r => r.isNone) (Q := fun r s => Retains h w s ∧ Inv P s ∧
    ∀ m', r = some m' → m'.expires = tokenExpires P.token) ?_ ?_
  · refine .request hw rfl fun s hr => .done ?_ fun s' hr' =>
      ⟨hr.retains.trans hr'.retains, hr'.inv, fun m' hm' => (hr.inv.roomMeta m' hm').1⟩
    show Under P h s.storage.roomMeta.isNone _ s s
    cases hmeta : s.storage.roomMeta with
    | none => exact (hr.under (c := c)).of_none hmeta _
    | some m' => exact (hr.under (c := c)).weaken
  · rintro (_ | m') m₁ s₁ s hs ⟨hretains, hI, hexpires⟩
    · exact .done hs hretains
    · refine .step rfl (.step rfl ?_)
      exact (setAlarm_heeds (hs.tame (tame_tick h s)) (timely_nextAlarm hI (hexpires m' rfl))).mono
        (fun _ s' hs' => (hretains.trans (tame_tick h s).retains).trans hs') fun _ _ => id

end IrohExperiment.Relay
