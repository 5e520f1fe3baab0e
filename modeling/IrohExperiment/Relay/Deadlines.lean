/-
# Deadlines (`worker/src/iroh-relay.js`)

A socket is due at its deadline or when the room expires, whichever comes first.
Deadlines are set and cleared by handlers, and each of them has to see to it that
the one alarm of the room goes off in time.  A handler is therefore in a mode: it
*owes* the room an alarm, it has asked for the alarm to be *set*, or it is *free*.

The regime of a handler says that it sets the alarm to a time that is early enough
for all sockets, that whoever sets a deadline owes the room an alarm until then, and
what may happen to a socket that is overdue.
-/
import IrohExperiment.Coop.Modes
import IrohExperiment.Relay.Runs

namespace IrohExperiment.Relay

open Coop Coroutine

variable {P : Platform} {κ : Trigger Event Point → World → Prop} {ls : List (Label Event Effect)}
  {c c₀ : RoomConfig} {w w' w'' s₀ : World} {ws : SocketId} {h : ℕ}

/-! ## Pings and deadlines -/

/-- An authenticated socket has a deadline exactly when it has a pending ping; before
it is authenticated it has no pending ping. -/
def Attachment.Paired (info : Attachment) : Prop :=
  (info.phase = .authenticated → (info.deadline.isSome = true ↔ info.pendingPing.isSome = true)) ∧
    (info.phase ≠ .authenticated → info.pendingPing = none)

/-- So it is for all sockets. -/
def World.Paired (w : World) : Prop := ∀ ws info, w.info ws = some info → info.Paired

/-- An authenticated live socket without a pending ping has no deadline. -/
def World.Coupled (w : World) : Prop :=
  ∀ ws info, w.info ws = some info → info.archived = false → info.phase = .authenticated →
    info.pendingPing = none → info.deadline = none

/-- Deadlines that are paired with pings keep the room coupled. -/
theorem World.Paired.coupled (hp : w.Paired) : w.Coupled := by
  intro ws info hinfo _ hphase hnone
  have h := (hp ws info hinfo).1 hphase
  rw [hnone] at h
  exact Option.not_isSome_iff_eq_none.mp fun hsome => nomatch h.mp hsome

theorem Attachment.Paired.plus {info : Attachment} (hp : info.Paired) (made : Counters) :
    (info.plus made).Paired := hp

/-- Counting a message does not part a ping from its deadline. -/
theorem Reception.paired {bytes : Bytes} {tested : ℕ} {info info' : Attachment}
    (hr : Reception P w ws bytes tested info info') (hp : info.Paired) : info'.Paired := by
  obtain ⟨-, rfl⟩ | ⟨-, now, -, -, rfl⟩ := hr.bucket <;> exact hp

/-- An update of one socket. -/
theorem World.Paired.update (hp : w.Paired) (T : SocketId) (info : Attachment) (hinfo : info.Paired)
    (hself : (w'.socket T).attachment = some info)
    (hothers : ∀ ws, ws ≠ T → w'.socket ws = w.socket ws) : w'.Paired := by
  intro ws info' hinfo'
  by_cases hws : ws = T
  · subst hws
    obtain rfl := Option.some.inj (hself.symm.trans hinfo')
    exact hinfo
  · rw [World.info, hothers ws hws] at hinfo'
    exact hp ws info' hinfo'

/-- A ping and its deadline come together and go together. -/
theorem Touch.paired (h : Touch P κ w w') (hp : w.Paired) : w'.Paired := by
  cases h with
  | @take T bytes _ _ info' hr _ =>
    exact hp.update T _ ((hr.paired (hp T _ hr.stored)).plus (World.messageCounts bytes))
      (by simp) (fun ws hws => by simp [hws])
  | @refuse T bytes _ _ info' hr _ =>
    exact hp.update T _ ((hr.paired (hp T _ hr.stored)).plus (World.messageCounts bytes))
      (by simp) (fun ws hws => by simp [hws])
  | @send T info bytes category _ _ hinfo _ =>
    exact hp.update T _ ((hp T info hinfo).plus (World.sentCounts bytes category)) (by simp)
      (fun ws hws => by simp [hws])
  | @count T info frame key hs =>
    have hinfo : w.info T = some info := hs.elim (fun hs => hs.1.stored) fun hs => hs.1.stored
    exact hp.update T _ ((hp T info hinfo).plus (Pi.single key 1)) (by simp)
      (fun ws hws => by simp [hws])
  | @datagram T info _ _ hs _ =>
    exact hp.update T _ ((hp T info hs.stored).plus (Pi.single .datagram 1)) (by simp)
      (fun ws hws => by simp [hws])
  | @forward T info target other bytes hf =>
    obtain ⟨_, _, _, hs, -⟩ := hf.datagram
    have hsent : (w.sent target other bytes none none).Paired :=
      hp.update target _ ((hp target other hf.stored).plus (World.sentCounts bytes none))
        (by simp) (fun ws hws => by simp [hws])
    exact hsent.update T _ ((hp T info hs.stored).plus (Pi.single .forwarded 1)) (by simp)
      (fun ws hws => by simp [hws])
  | @drop T info _ _ hs _ =>
    exact hp.update T _ ((hp T info hs.stored).plus (Pi.single .dropped 1)) (by simp)
      (fun ws hws => by simp [hws])
  | @clear T info _ hs _ =>
    exact hp.update T ({ info with pendingPing := none, deadline := none })
      ⟨fun _ => Iff.rfl, fun _ => rfl⟩ (by simp) (fun ws hws => by simp [hws])
  | @arm T info ping deadline _ _ _ hphase =>
    exact hp.update T
      ({ info with pendingPing := some ping, deadline := some deadline })
      ⟨fun _ => by simp, fun hne => absurd hphase hne⟩ (by simp) (fun ws hws => by simp [hws])

/-- A socket whose attachment stays, or is new. -/
theorem World.Paired.act (hp : w.Paired) (h : Act P κ w w') : w'.Paired := by
  intro ws info' hinfo'
  have same : (w'.socket ws).attachment = (w.socket ws).attachment → info'.Paired := fun hsame =>
    hp ws info' (hsame.symm.trans hinfo')
  cases h with
  | touch ht => exact ht.paired hp ws info' hinfo'
  | @accept r room challenge due bucket =>
    refine hp.update w.count (.opening challenge due room.expires bucket)
      ⟨nofun, fun _ => rfl⟩ (by simp) (fun ws hws => by simp [hws]) ws info' hinfo'
  | @verify T frame info t _ _ hinfo _ hphase =>
    refine hp.update T ({ info with phase := .verifying })
      ⟨nofun, fun _ => (hp T info hinfo).2 (by simp [hphase])⟩ (by simp)
      (fun ws hws => by simp [hws]) ws info' hinfo'
  | @claim T info id hc _ =>
    have hnone := (hp T info hc.stored).2 (by simp [hc.phase])
    refine hp.update T (({ info with
        id := some id, phase := .authenticated, challenge := none,
        deadline := none } : Attachment).plus (Pi.single .auth 1))
      ⟨fun _ => by simp [Attachment.plus, hnone], fun hne => absurd rfl hne⟩ (by simp)
      (fun ws hws => by simp [hws]) ws info' hinfo'
  | @reclaim T info id old other hc hne hother hrouted =>
    have hnone := (hp T info hc.stored).2 (by simp [hc.phase])
    have hclaimed : (w.claimed T info id).Paired := hp.update T (({ info with
        id := some id, phase := .authenticated, challenge := none,
        deadline := none } : Attachment).plus (Pi.single .auth 1))
      ⟨fun _ => by simp [Attachment.plus, hnone], fun hne => absurd rfl hne⟩ (by simp)
      (fun ws hws => by simp [hws])
    exact hclaimed.update old ({ other with archived := true }) (hp old other hother)
      (by simp) (fun ws hws => by simp [hws]) ws info' hinfo'
  | @retire T info hinfo =>
    exact hp.update T ({ info with archived := true }) (hp T info hinfo) (by simp)
      (fun ws hws => by simp [hws]) ws info' hinfo'
  | depart hd => exact same (congrFun hd.info_eq ws)
  | @connect T =>
    refine same ?_
    by_cases hws : ws = T <;> simp [hws]
  | @verified T =>
    refine same ?_
    by_cases hws : ws = T <;> simp [hws]
  | _ => exact same rfl

/-- **Deadlines and pings** go together in every run. -/
theorem paired_of_runs (hr : Runs (room P) κ freshRoom ls c) : c.state.Paired := by
  refine room_keeps (J := World.Paired) (runsFrom_fresh hr)
    (fun ws info hinfo => nomatch hinfo) ?_ ?_
  · intro w w' _ hp hrest ws info hinfo
    exact hp ws info (hrest.info_eq ▸ hinfo)
  · exact fun _ _ _ hp ha => hp.act ha

/-! ## Sockets that are overdue -/

/-- When a socket is due. -/
def Attachment.horizon (info : Attachment) : ℕ :=
  match info.deadline with
  | some deadline => min deadline info.expires
  | none => info.expires

/-- A socket is overdue when the room has expired or its deadline has passed. -/
theorem horizon_le_iff (info : Attachment) (now : ℕ) :
    info.horizon ≤ now ↔ info.expires ≤ now ∨ overdue now info.deadline = true := by
  unfold Attachment.horizon overdue
  cases info.deadline <;> simp [or_comm]

/-- At time `now`, the live socket `ws` is overdue. -/
def World.Late (w : World) (now : ℕ) (ws : SocketId) : Prop :=
  ∃ info, w.info ws = some info ∧ info.archived = false ∧ info.horizon ≤ now

/-- The live socket `ws` has no deadline and no pending ping. -/
def World.Cleared (w : World) (ws : SocketId) : Prop :=
  ∃ info, w.info ws = some info ∧ info.archived = false ∧ info.deadline = none ∧
    info.pendingPing = none

/-- The running handler was started by the pong that `ws` is waited for. -/
def World.Ponged (w : World) (ws : SocketId) : Prop :=
  ∃ info m frame, w.event = some (.message ws m) ∧ clientFrame m = some (.pong frame) ∧
    w.info ws = some info ∧ info.pendingPing = some (hex (frame.drop 1))

/-- A stretch that began in `s₀` keeps a socket that was overdue by then so, or
archives it, or clears it because of a pong. -/
def Timed (P : Platform) (s₀ w : World) : Prop :=
  ∀ now ws, now ≤ P.clock s₀.reads → s₀.Late now ws →
    Archived w.info ws ∨ w.Late now ws ∨ s₀.Ponged ws ∧ w.Cleared ws

theorem timed_refl (P : Platform) (w : World) : Timed P w w := fun _ _ _ hlate => .inr (.inl hlate)

/-- No socket is due earlier than at the beginning of the stretch, and no `meta` was
created. -/
structure Harmless (s₀ w : World) : Prop where
  horizon : ∀ ws info', w.info ws = some info' → info'.archived = false →
    ∃ info, s₀.info ws = some info ∧ info.archived = false ∧ info.horizon ≤ info'.horizon
  roomMeta : s₀.storage.roomMeta = none → w.storage.roomMeta = none

theorem harmless_refl (w : World) : Harmless w w :=
  ⟨fun _ info hinfo hlive => ⟨info, hinfo, hlive, le_rfl⟩, id⟩

/-- Two harmless stretches are one. -/
theorem Harmless.trans (h₁ : Harmless s₀ w) (h₂ : Harmless w w') : Harmless s₀ w' where
  horizon ws info'' hinfo'' hlive'' := by
    obtain ⟨info', hinfo', hlive', hle'⟩ := h₂.horizon ws info'' hinfo'' hlive''
    obtain ⟨info, hinfo, hlive, hle⟩ := h₁.horizon ws info' hinfo' hlive'
    exact ⟨info, hinfo, hlive, hle.trans hle'⟩
  roomMeta hnone := h₂.roomMeta (h₁.roomMeta hnone)

/-! ## Updates that set no deadline -/

/-- The attachments agree on all that deadlines are about, unless the socket has been
archived. -/
structure Attachment.Steady (info info' : Attachment) : Prop where
  archived : info.archived = true → info'.archived = true
  live : info'.archived = false → info'.phase = info.phase ∧ info'.deadline = info.deadline ∧
    info'.pendingPing = info.pendingPing ∧ info'.expires = info.expires

theorem Attachment.steady_refl (info : Attachment) : info.Steady info :=
  ⟨fun harch => harch, fun _ => ⟨rfl, rfl, rfl, rfl⟩⟩

theorem Attachment.steady_plus (info : Attachment) (made : Counters) :
    info.Steady (info.plus made) :=
  ⟨fun harch => harch, fun _ => ⟨rfl, rfl, rfl, rfl⟩⟩

/-- A steady attachment is due when it was. -/
theorem Attachment.Steady.horizon {info info' : Attachment} (hs : info.Steady info')
    (hlive : info'.archived = false) : info'.horizon = info.horizon := by
  obtain ⟨-, hdeadline, -, hexpires⟩ := hs.live hlive
  rw [Attachment.horizon, Attachment.horizon, hdeadline, hexpires]

/-- No attachment comes back to life. -/
theorem Attachment.Steady.alive {info info' : Attachment} (hs : info.Steady info')
    (hlive : info'.archived = false) : info.archived = false := by
  by_contra hne
  simp [hs.archived (by simpa using hne)] at hlive

/-- An update that sets no deadline, creates no `meta` and does not touch the alarm. -/
structure Eases (w w' : World) : Prop where
  alarm : w'.storage.alarm = w.storage.alarm
  roomMeta : w.storage.roomMeta = none → w'.storage.roomMeta = none
  reads : w.reads ≤ w'.reads
  handler : w'.past.current = w.past.current ∧ w'.past.arrivals = w.past.arrivals
  known : ∀ ws, (w'.info ws).isSome = (w.info ws).isSome
  steady : ∀ ws info info', w.info ws = some info → w'.info ws = some info' → info.Steady info'

theorem event_of_handler
    (hhandler : w'.past.current = w.past.current ∧ w'.past.arrivals = w.past.arrivals) :
    w'.event = w.event := by
  rw [World.event, World.event, hhandler.1, hhandler.2]

namespace Eases

/-- Where attachments, alarm and `meta` stay, everything due is due as before. -/
theorem of_info (halarm : w'.storage.alarm = w.storage.alarm)
    (hmeta : w'.storage.roomMeta = w.storage.roomMeta) (hreads : w.reads ≤ w'.reads)
    (hhandler : w'.past.current = w.past.current ∧ w'.past.arrivals = w.past.arrivals)
    (hinfo : w'.info = w.info) : Eases w w' := by
  refine ⟨halarm, fun hnone => hmeta.trans hnone, hreads, hhandler, fun ws => by rw [hinfo],
    fun ws info info' hi hi' => ?_⟩
  rw [hinfo] at hi'
  obtain rfl := Option.some.inj (hi.symm.trans hi')
  exact info.steady_refl

/-- An update of the attachment of one socket. -/
theorem of_one {T : SocketId} {info info' : Attachment} (hinfo : w.info T = some info)
    (hsteady : info.Steady info') (halarm : w'.storage.alarm = w.storage.alarm)
    (hmeta : w'.storage.roomMeta = w.storage.roomMeta) (hreads : w.reads ≤ w'.reads)
    (hhandler : w'.past.current = w.past.current ∧ w'.past.arrivals = w.past.arrivals)
    (hself : w'.info T = some info')
    (hothers : ∀ ws, ws ≠ T → w'.info ws = w.info ws) : Eases w w' := by
  refine ⟨halarm, fun hnone => hmeta.trans hnone, hreads, hhandler, fun ws => ?_,
    fun ws i i' hi hi' => ?_⟩ <;> by_cases hws : ws = T
  · simp [hws, hself, hinfo]
  · rw [hothers ws hws]
  · subst hws
    obtain rfl := Option.some.inj (hinfo.symm.trans hi)
    obtain rfl := Option.some.inj (hself.symm.trans hi')
    exact hsteady
  · rw [hothers ws hws] at hi'
    obtain rfl := Option.some.inj (hi.symm.trans hi')
    exact i.steady_refl

variable (he : Eases w w')

include he

/-- What the attachment of a live socket was. -/
theorem before {info' : Attachment} (hinfo' : w'.info ws = some info')
    (hlive : info'.archived = false) :
    ∃ info, w.info ws = some info ∧ info.archived = false ∧ info.Steady info' := by
  obtain ⟨info, hinfo⟩ := Option.isSome_iff_exists.mp ((he.known ws).symm.trans (by simp [hinfo']))
  have hs := he.steady ws info info' hinfo hinfo'
  exact ⟨info, hinfo, hs.alive hlive, hs⟩

/-- What becomes of the attachment of a socket. -/
theorem after {info : Attachment} (hinfo : w.info ws = some info) :
    ∃ info', w'.info ws = some info' ∧ info.Steady info' := by
  obtain ⟨info', hinfo'⟩ := Option.isSome_iff_exists.mp ((he.known ws).trans (by simp [hinfo]))
  exact ⟨info', hinfo', he.steady ws info info' hinfo hinfo'⟩

theorem harmless : Harmless w w' where
  horizon ws info' hinfo' hlive := by
    obtain ⟨info, hinfo, halive, hs⟩ := he.before hinfo' hlive
    exact ⟨info, hinfo, halive, (hs.horizon hlive).ge⟩
  roomMeta := he.roomMeta

theorem archived (harch : Archived w.info ws) : Archived w'.info ws := by
  obtain ⟨info, hinfo, harch⟩ := harch
  obtain ⟨info', hinfo', hs⟩ := he.after hinfo
  exact ⟨info', hinfo', hs.archived harch⟩

/-- A late socket stays late until it is archived. -/
theorem late {now : ℕ} (hlate : w.Late now ws) : Archived w'.info ws ∨ w'.Late now ws := by
  obtain ⟨info, hinfo, -, hle⟩ := hlate
  obtain ⟨info', hinfo', hs⟩ := he.after hinfo
  cases harch : info'.archived with
  | true => exact .inl ⟨info', hinfo', harch⟩
  | false => exact .inr ⟨info', hinfo', harch, (hs.horizon harch).le.trans hle⟩

/-- A deadline that was dropped stays dropped until the socket is archived. -/
theorem cleared (hc : w.Cleared ws) : Archived w'.info ws ∨ w'.Cleared ws := by
  obtain ⟨info, hinfo, -, hdeadline, hping⟩ := hc
  obtain ⟨info', hinfo', hs⟩ := he.after hinfo
  cases harch : info'.archived with
  | true => exact .inl ⟨info', hinfo', harch⟩
  | false =>
    obtain ⟨-, hd, hp, -⟩ := hs.live harch
    exact .inr ⟨info', hinfo', harch, hd.trans hdeadline, hp.trans hping⟩

theorem event : w'.event = w.event := event_of_handler he.handler

theorem coupled (hc : w.Coupled) : w'.Coupled := by
  intro ws info' hinfo' hlive' hphase' hnone'
  obtain ⟨info, hinfo, hlive, hs⟩ := he.before hinfo' hlive'
  obtain ⟨hphase, hdeadline, hping, -⟩ := hs.live hlive'
  rw [hdeadline]
  exact hc ws info hinfo hlive (hphase.symm.trans hphase') (hping.symm.trans hnone')

/-- An alarm that was in time stays in time. -/
theorem timed (ht : Timed P s₀ w) : Timed P s₀ w' := by
  intro now ws hnow hlate
  rcases ht now ws hnow hlate with harch | hlate' | ⟨hpong, hc⟩
  · exact .inl (he.archived harch)
  · exact (he.late hlate').imp_right .inl
  · exact (he.cleared hc).imp_right fun hc => .inr ⟨hpong, hc⟩

end Eases

end IrohExperiment.Relay
