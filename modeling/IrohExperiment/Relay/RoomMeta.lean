/-
# Updates of `meta` (`worker/src/iroh-relay.js`)

`authorize` and `alarm` read `meta`, change a copy and store the whole copy.  When
every copy is stored over the object it was read from, no update is lost: the time
of the next ping is never unset and never goes back, and the alarms are counted.
When a handler stores a copy over a newer object, updates are lost.

The main results are `meta_kept`, for runs in which every copy is stored over its original,
and `meta_lost`, a run in which one is not.
-/
import IrohExperiment.Relay.Handshake

namespace IrohExperiment.Relay

open Coop

variable {P : Platform} {κ : Trigger Event Point → World → Prop}
    {ls ls' : List (Label Event Effect)}
  {c c' c₀ : RoomConfig} {w w' : World}

/-! ## What is not to be lost -/

/-- The time of the next ping, once stored, is still stored and has not gone back,
until the storage is deleted. -/
def PingKept (w w' : World) : Prop :=
  ∀ m t, w.storage.roomMeta = some m → m.nextPing = some t → w'.past.wiped = true ∨
    ∃ m' t', w'.storage.roomMeta = some m' ∧ m'.nextPing = some t' ∧ t ≤ t'

def Event.isAlarm : Event → Bool
  | .alarm => true
  | _ => false

/-- Handler `h` was started by an alarm. -/
def World.alarmed (w : World) (h : ℕ) : Bool := (w.past.arrivals[h]?).any Event.isAlarm

/-- The alarm handlers that ran to completion. -/
def completedAlarms (c : RoomConfig) : List ℕ :=
  (List.range c.started).filter fun h => c.state.alarmed h && (c.result h).any (·.isOk)

/-- The alarms are counted: all that ran to completion, and no others. -/
def AlarmsCounted (c : RoomConfig) : Prop :=
  ∀ m, c.state.storage.roomMeta = some m → m.alarmEvents = (completedAlarms c).length

/-- A copy of `meta` is stored over the object it was read from, or the storage has
been deleted. -/
def freshCopies : Trigger Event Point → World → Prop
  | .resume (.issued (.putMeta read)), w =>
      w.past.wiped = true ∨ w.storage.roomMeta = some read
  | _, _ => True

instance (t : RoomTrigger) (w : World) : Decidable (freshCopies t w) := by
  unfold freshCopies
  split <;> infer_instance

/-! ## Pings -/

/-- A renewal of `meta` does not unset the time of the next ping and does not put it
back. -/
theorem Renews.nextPing_le {read new : RoomMeta} (h : Renews P w read new) {t : ℕ}
    (ht : read.nextPing = some t) : ∃ t', new.nextPing = some t' ∧ t ≤ t' := by
  cases h with
  | @alarm n =>
    unfold RoomMeta.afterAlarm
    by_cases hdue : read.pingDue (P.clock n) = true
    · refine ⟨P.clock n + read.ping * 1000, by simp [hdue], ?_⟩
      simp only [RoomMeta.pingDue, ht, overdue, decide_eq_true_eq] at hdue
      omega
    · exact ⟨t, by simp [hdue, ht], le_rfl⟩
  | authorize _ hunset =>
    rw [hunset] at ht
    cases ht

theorem Act.pingKept {w₀ : World} (hκ : ∀ read, κ (.resume (.issued (.putMeta read))) w →
      w.past.wiped = true ∨ w.storage.roomMeta = some read)
    (ha : Act P κ w w') (h : PingKept w₀ w) : PingKept w₀ w' := by
  intro m t hm ht
  rcases h m t hm ht with hw | ⟨m', t', hm', ht', hle⟩
  · exact .inl (ha.wiped_mono hw)
  rcases ha.meta_cases with ⟨hsame, -⟩ | ⟨_, _, _, -, hnone, -⟩ | ⟨read, new, hput, -, -,
    hr, hnew, -⟩ |
    ⟨-, hw, -⟩
  · exact .inr ⟨m', t', hsame.trans hm', ht', hle⟩
  · rw [hm'] at hnone
    cases hnone
  · rcases hκ read hput with hw | hread
    · exact .inl (ha.wiped_mono hw)
    · obtain rfl : m' = read := Option.some.inj (hm'.symm.trans hread)
      obtain ⟨t'', ht'', hle'⟩ := hr.nextPing_le ht'
      exact .inr ⟨new, t'', hnew, ht'', hle.trans hle'⟩
  · exact .inl hw

/-! ## Alarms -/

/-- The alarm handlers that stored `meta`. -/
def World.alarmWriters (w : World) : List ℕ := w.past.metaWriters.filter w.alarmed

/-- Each alarm that stored `meta` is counted once, until the storage is deleted. -/
structure Counted (w : World) : Prop where
  nodup : w.alarmWriters.Nodup
  count : ∀ m, w.storage.roomMeta = some m → m.alarmEvents = w.alarmWriters.length
  none : w.storage.roomMeta = none → w.alarmWriters = []

theorem alarmed_mono (harrivals : w.past.arrivals <+: w'.past.arrivals) {h : ℕ}
    (hh : h < w.past.arrivals.length) : w'.alarmed h = w.alarmed h := by
  obtain ⟨rest, hrest⟩ := harrivals
  rw [World.alarmed, World.alarmed, ← hrest, List.getElem?_append_left hh]

/-- New events leave the alarm handlers that stored `meta` as they are. -/
theorem alarmWriters_mono (hI : Inv P w) (harrivals : w.past.arrivals <+: w'.past.arrivals)
    (hwriters : w'.past.metaWriters = w.past.metaWriters) : w'.alarmWriters = w.alarmWriters := by
  rw [World.alarmWriters, World.alarmWriters, hwriters]
  apply List.filter_congr
  intro h hh
  exact alarmed_mono harrivals (hI.writer_lt h hh)

theorem Counted.of_same (hc : Counted w) (hwriters : w'.alarmWriters = w.alarmWriters)
    (hmeta : w'.storage.roomMeta = w.storage.roomMeta) : Counted w' := by
  constructor
  · rw [hwriters]
    exact hc.nodup
  · rw [hwriters, hmeta]
    exact hc.count
  · rw [hwriters, hmeta]
    exact hc.none

/-- A copy is stored over the object it was read from. -/
theorem Counted.renew (hc : Counted w) {read new : RoomMeta} (hr : Renews P w read new)
    (hread : w.storage.roomMeta = some read) (harr : w'.past.arrivals = w.past.arrivals)
    (hnew : w'.storage.roomMeta = some new)
    (hwriters : w'.past.metaWriters = w.past.current :: w.past.metaWriters) : Counted w' := by
  have halarmed : w'.alarmed = w.alarmed := by
    funext h
    rw [World.alarmed, World.alarmed, harr]
  have hevent : w.alarmed w.past.current = w.event.any Event.isAlarm := rfl
  cases hr with
  | alarm hev hfirst =>
    have hcons : w'.alarmWriters = w.past.current :: w.alarmWriters := by
      rw [World.alarmWriters, hwriters, halarmed, List.filter_cons, hevent, hev]
      rfl
    constructor
    · rw [hcons]
      exact hc.nodup.cons fun hmem => hfirst (List.mem_of_mem_filter hmem)
    · intro m hm
      rw [hnew] at hm
      obtain rfl := Option.some.inj hm
      rw [hcons, List.length_cons, ← hc.count read hread]
      rfl
    · intro hnone
      rw [hnew] at hnone
      cases hnone
  | authorize hev hunset =>
    have hcons : w'.alarmWriters = w.alarmWriters := by
      rw [World.alarmWriters, hwriters, halarmed, List.filter_cons, hevent, hev]
      rfl
    constructor
    · rw [hcons]
      exact hc.nodup
    · intro m hm
      rw [hnew] at hm
      obtain rfl := Option.some.inj hm
      rw [hcons, ← hc.count read hread]
    · intro hnone
      rw [hnew] at hnone
      cases hnone

theorem Act.counted (hI : Inv P w) (hκ : ∀ read, κ (.resume (.issued (.putMeta read))) w →
      w.past.wiped = true ∨ w.storage.roomMeta = some read)
    (ha : Act P κ w w') (hc : w.past.wiped = true ∨ Counted w) :
    w'.past.wiped = true ∨ Counted w' := by
  rcases hc with hw | hc
  · exact .inl (ha.wiped_mono hw)
  have harrivals : w.past.arrivals <+: w'.past.arrivals := by rw [ha.arrivals_eq]
  rcases ha.meta_cases with ⟨hsame, -, hwriters⟩ | ⟨_, _, _, -, hnone, hnew, -, hwriters⟩ |
    ⟨read, new, hput, -, -, hr, hnew, -, hwriters⟩ | ⟨-, hw, -⟩
  · exact .inr (hc.of_same (alarmWriters_mono hI harrivals hwriters) hsame)
  · have hnil : w'.alarmWriters = [] :=
      (alarmWriters_mono hI harrivals hwriters).trans (hc.none hnone)
    refine .inr ⟨by simp [hnil], ?_, fun _ => hnil⟩
    intro m hm
    rw [hnew] at hm
    obtain rfl := Option.some.inj hm
    rw [hnil]
    rfl
  · rcases hκ read hput with hw | hread
    · exact .inl (ha.wiped_mono hw)
    · exact .inr (hc.renew hr hread ha.arrivals_eq hnew hwriters)
  · exact .inl hw

/-- When nothing is in flight, the alarm handlers that stored `meta` are those that
ran to completion. -/
theorem RunsFrom.mem_alarmWriters (hr : RunsFrom P κ freshRoom ls c) (hq : c.Quiet)
    (hpresent : c.state.past.wiped = false) (h : ℕ) :
    h ∈ c.state.alarmWriters ↔ h ∈ completedAlarms c := by
  have hlen : c.state.past.arrivals.length = c.started := (hr.arrivals rfl).2
  have hover : ∀ h, h < c.started → c.state.alarmed h = true →
      h ∈ c.state.past.metaWriters ∧ (c.result h).any (·.isOk) = true := by
    intro h hh halarm
    obtain ⟨r, hresult, hleaves⟩ := hr.leaves (Nat.zero_le h) hh (hq h hh)
    obtain ⟨e, he, hisalarm⟩ := Option.any_eq_true .. |>.mp halarm
    obtain rfl : e = .alarm := by
      cases e <;> first | rfl | cases hisalarm
    obtain ⟨⟨a, rfl⟩, hwriter⟩ := hleaves.alarm he
    exact ⟨hwriter.resolve_right (by simp [hpresent]), by rw [hresult]; rfl⟩
  simp only [World.alarmWriters, completedAlarms, List.mem_filter, List.mem_range,
    Bool.and_eq_true]
  constructor
  · rintro ⟨hmem, halarm⟩
    have hh : h < c.started := hlen ▸ hr.inv_end.writer_lt h hmem
    exact ⟨hh, halarm, (hover h hh halarm).2⟩
  · rintro ⟨hh, halarm, -⟩
    exact ⟨(hover h hh halarm).1, halarm⟩

/-! ## No update is lost -/

/-- When every copy of `meta` is stored over the object it was read from, the time
of the next ping is kept, and whenever nothing is in flight the alarms that ran to
completion are counted, until the storage is deleted. -/
theorem meta_kept (hr : Runs (room P) freshCopies freshRoom ls c)
    (hr' : Runs (room P) freshCopies c ls' c') :
    PingKept c.state c'.state ∧
      (c.Quiet → c.state.past.wiped = false → AlarmsCounted c) := by
  have hrun := runsFrom_fresh hr
  constructor
  · refine room_later (J := fun w => PingKept c.state w) hrun hr' ?_ ?_ ?_
    · intro m t hm ht
      exact .inr ⟨m, t, hm, ht, le_rfl⟩
    · intro w w' _ hJ hrest
      unfold PingKept
      rw [hrest.roomMeta, hrest.wiped_eq]
      exact hJ
    · intro w w' _ hJ ha
      exact ha.pingKept (fun _ => id) hJ
  · intro hq hpresent m hm
    have hcounted : c.state.past.wiped = true ∨ Counted c.state := by
      refine room_keeps (J := fun w => w.past.wiped = true ∨ Counted w) hrun ?_ ?_ ?_
      · exact .inr ⟨.nil, nofun, fun _ => rfl⟩
      · intro w w' hI hJ hrest
        rw [hrest.wiped_eq]
        exact hJ.imp_right fun hc => hc.of_same
          (alarmWriters_mono hI hrest.arrivals hrest.metaWriters_eq) hrest.roomMeta
      · intro w w' hI hJ ha
        exact ha.counted hI (fun _ hκ => hκ.1) hJ
    have hc := hcounted.resolve_left (by simp [hpresent])
    rw [hc.count m hm]
    apply List.Perm.length_eq
    have hnodup : (completedAlarms c).Nodup := List.nodup_range.filter _
    rw [List.perm_ext_iff_of_nodup hc.nodup hnodup]
    exact hrun.mem_alarmWriters hq hpresent

/-- One socket authenticates, and then the alarm goes off. -/
theorem meta_kept_alarm : ∃ c c' : RoomConfig, c'.Quiet ∧ c'.started = 3 ∧
    PingKept c.state c'.state ∧ AlarmsCounted c' := by
  have hrun : (freshRoom.replay (room calmPlatform) freshCopies
      (handled 0 8 (.fetch upgradeRequest) ++
        handled 1 17 (.message 0 (.binary (authFrame 7))))).any (fun c =>
      (c.replay (room calmPlatform) freshCopies (handled 2 9 .alarm)).any fun c' =>
        decide (c'.Quiet ∧ c'.started = 3 ∧ c'.state.past.wiped = false)) = true := by
    decide +kernel
  obtain ⟨c, hc, hrun⟩ := Option.any_eq_true .. |>.mp hrun
  obtain ⟨c', hc', hrun⟩ := Option.any_eq_true .. |>.mp hrun
  obtain ⟨hq, hstarted, hpresent⟩ := of_decide_eq_true hrun
  have h := runs_of_replay hc
  have h' := runs_of_replay hc'
  exact ⟨c, c', hq, hstarted, (meta_kept h h').1, (meta_kept (h.trans h') .nil).2 hq hpresent⟩

/-- The alarm reads `meta`; the handler of an authentication stores the time of the
first ping; the alarm stores its copy. -/
theorem meta_lost : ¬ ∀ (ls ls' : List (Label Event Effect)) (c c' : RoomConfig),
    Runs (room calmPlatform) anytime freshRoom ls c →
    Runs (room calmPlatform) anytime c ls' c' → PingKept c.state c'.state ∧
      (c.Quiet → c.state.past.wiped = false → AlarmsCounted c) := by
  intro h
  have hrun : (freshRoom.replay (room calmPlatform) anytime
      (handled 0 8 (.fetch upgradeRequest) ++ handled 1 1 .alarm ++
        handled 2 17 (.message 0 (.binary (authFrame 7))))).any (fun c =>
      (c.state.storage.roomMeta).any (fun m => m.nextPing.isSome) &&
      (c.replay (room calmPlatform) anytime (List.replicate 8 (.resume 1))).any fun c' =>
        !c'.state.past.wiped && (c'.state.storage.roomMeta).any fun m => m.nextPing.isNone) =
      true := by
    decide +kernel
  obtain ⟨c, hc, hrun⟩ := Option.any_eq_true .. |>.mp hrun
  obtain ⟨hbefore, hrun⟩ := Bool.and_eq_true_iff.mp hrun
  obtain ⟨c', hc', hrun⟩ := Option.any_eq_true .. |>.mp hrun
  obtain ⟨hpresent, hafter⟩ := Bool.and_eq_true_iff.mp hrun
  obtain ⟨m, hm, ht⟩ := Option.any_eq_true .. |>.mp hbefore
  obtain ⟨t, ht⟩ := Option.isSome_iff_exists.mp ht
  obtain ⟨m', hm', hunset⟩ := Option.any_eq_true .. |>.mp hafter
  have hkept := (h _ _ c c' (runs_of_replay hc) (runs_of_replay hc')).1
  rcases hkept m t hm ht with hw | ⟨m'', t', hm'', ht', -⟩
  · simp [hw] at hpresent
  · obtain rfl := Option.some.inj (hm'.symm.trans hm'')
    simp [ht'] at hunset

end IrohExperiment.Relay
