/-
# Runs of a room (`worker/src/iroh-relay.js`)

What the soundness of the room gives for whole runs, from any configuration in
which no handler is in flight: an invariant has to be checked on single acts and
on the platform's moves (`room_runs`).  The platform at the end is for runs on
concrete inputs.

`RunsFrom.inv_end` and `RunsFrom.extends_` are what most results use: the invariant at the
end of a run, and that a run only extends the world.
-/
import IrohExperiment.Relay.Soundness

namespace IrohExperiment.Relay

open Coop

variable {P : Platform} {κ : Trigger Event Point → World → Prop}
    {ls ls' : List (Label Event Effect)}

/-- What sets a stretch off in a room. -/
abbrev RoomTrigger := Trigger Event Point

/-- A configuration of a room. -/
abbrev RoomConfig := Config Point World Fault (Option Response)

variable {c c' c₀ : RoomConfig}

/-- A room that nothing has happened in yet. -/
def freshRoom : RoomConfig := .initial World.initial

/-- No condition on the schedule. -/
def anytime : Trigger Event Point → World → Prop := fun _ _ => True

instance (t : Trigger Event Point) (w : World) : Decidable (anytime t w) :=
  inferInstanceAs (Decidable True)

theorem meets_anytime (c : RoomConfig) (ℓ : Label Event Effect) : c.Meets (room P) anytime ℓ := by
  cases ℓ with
  | start e => exact fun _ _ => trivial
  | resume h => exact fun _ _ _ => trivial
  | env d => trivial

/-- A run from a configuration in which no handler is in flight. -/
structure RunsFrom (P : Platform) (κ : Trigger Event Point → World → Prop) (c₀ : RoomConfig)
    (ls : List (Label Event Effect)) (c : RoomConfig) : Prop where
  inv : Inv P c₀.state
  idle : ∀ h, c₀.pool h = none
  runs : Runs (room P) κ c₀ ls c

theorem RunsFrom.legit (hr : RunsFrom P κ c₀ ls c) :
    Legit (room P) κ (Stretch P κ) (Inv P) (Leaves P) c₀ c :=
  hr.runs.legit (room_sound P κ) (room_invariant P κ) hr.inv hr.idle

theorem runsFrom_fresh (hr : Runs (room P) κ freshRoom ls c) : RunsFrom P κ freshRoom ls c :=
  ⟨inv_initial P, fun _ => rfl, hr⟩

theorem current_of_entered {h : ℕ} {w : World} (he : Entered (room P) h w) :
    w.past.current = h := by
  obtain ⟨e, u, hb⟩ | ⟨u, rfl⟩ := he
  · simp only [room] at hb
    split_ifs at hb
    obtain rfl := Option.some.inj hb
    rfl
  · rfl

/-- The condition of a run, together with what holds throughout the run. -/
def along (P : Platform) (κ : Trigger Event Point → World → Prop) (J : World → Prop) :
    Trigger Event Point → World → Prop := fun t w => κ t w ∧ Inv P w ∧ J w

/-- **Invariants of a room**: what begins, entries and the platform keep, and every
act of a handler that the run started. -/
theorem room_runs {J : World → Prop} (hr : RunsFrom P κ c₀ ls c) (hJ₀ : J c₀.state)
    (hbegin : ∀ h e w w', c₀.started ≤ h → Inv P w → J w → (room P).begin h e w = some w' →
      κ (.start e) w' → J w')
    (hrests : ∀ w w', Inv P w → J w → Rests P w w' → w'.past.arrivals = w.past.arrivals → J w')
    (hact : ∀ w w', c₀.started ≤ w.past.current → Inv P w → J w → Act P (along P κ J) w w' →
      J w') :
    RunsFrom P (along P κ J) c₀ ls c ∧ J c.state := by
  suffices hs : Runs (room P) (along P κ J) c₀ ls c ∧ J c.state from ⟨⟨hr.inv, hr.idle, hs.1⟩, hs.2⟩
  refine Runs.invariant (G := Stretch P) (room_sound P) (room_invariant P) hr.inv hr.idle hr.runs
    hJ₀ hbegin (fun h w hI hJ => hrests _ _ hI hJ (rests_enter P h w) rfl)
    (fun d w w' hI hJ hw => hrests _ _ hI hJ (rests_effect hw) (by rw [past_effect hw])) ?_
  intro h w w' hh he hI hJ hg
  have hcur := current_of_entered he
  suffices hs : J w' ∧ w'.past.current = h ∧ Inv P w' from hs.1
  induction hg with
  | refl => exact ⟨hJ, hcur, hI⟩
  | tail _ ha ih =>
    obtain ⟨hJ', hcur', hI'⟩ := ih
    exact ⟨hact _ _ (hh.trans hcur'.ge) hI' hJ' ha, ha.current_eq.trans hcur', hI'.act ha⟩

/-- Invariants that the platform cannot affect. -/
theorem room_keeps {J : World → Prop} (hr : RunsFrom P κ c₀ ls c) (hJ₀ : J c₀.state)
    (hrests : ∀ w w', Inv P w → J w → Rests P w w' → J w')
    (hact : ∀ w w', Inv P w → J w → Act P (along P κ J) w w' → J w') : J c.state :=
  (room_runs hr hJ₀ (fun _ _ w w' _ hI hJ hb _ => hrests w w' hI hJ (rests_begin hb))
    (fun w w' hI hJ hrest _ => hrests w w' hI hJ hrest) fun w w' _ hI hJ ha =>
      hact w w' hI hJ ha).2

/-- Invariants of the rest of a run. -/
theorem room_later {J : World → Prop} (hr : RunsFrom P κ c₀ ls c) (hr' : Runs (room P) κ c ls' c')
    (hJ : J c.state) (hrests : ∀ w w', Inv P w → J w → Rests P w w' → J w')
    (hact : ∀ w w', Inv P w → J w → Act P κ w w' → J w') : J c'.state := by
  refine hr.runs.later (room_sound P κ) (room_invariant P κ) hr.inv hr.idle hr' hJ
    (fun _ _ w w' hI hJ hb => hrests w w' hI hJ (rests_begin hb))
    (fun h w hI hJ => hrests _ _ hI hJ (rests_enter P h w))
    (fun _ w w' hI hJ hw => hrests w w' hI hJ (rests_effect hw)) fun w w' hI hJ hg => ?_
  induction hg with
  | refl => exact hJ
  | tail hs ha ih => exact hact _ _ (hI.stretch hs) ih ha

theorem RunsFrom.inv_end (hr : RunsFrom P κ c₀ ls c) : Inv P c.state := hr.legit.inv

theorem RunsFrom.idle_end (hr : RunsFrom P κ c₀ ls c) (hq : c.Quiet) (h : ℕ) : c.pool h = none :=
  hr.legit.idle hq h

theorem RunsFrom.extends_ (hr : RunsFrom P κ c₀ ls c) : c₀.state.Extends c.state :=
  room_keeps (J := fun w => c₀.state.Extends w) hr c₀.state.extends_refl
    (fun _ _ _ hJ hrest => hJ.trans hrest.extends_) fun _ _ hI hJ ha => hJ.trans (ha.extends hI)

theorem RunsFrom.extends_later (hr : RunsFrom P κ c₀ ls c) (hr' : Runs (room P) κ c ls' c') :
    c.state.Extends c'.state :=
  room_later (J := fun w => c.state.Extends w) hr hr' c.state.extends_refl
    (fun _ _ _ hJ hrest => hJ.trans hrest.extends_) fun _ _ hI hJ ha => hJ.trans (ha.extends hI)

/-- The event that a scheduling decision delivers. -/
def delivered : Label Event Effect → Option Event
  | .start e => some e
  | _ => none

theorem Stretch.arrivals_eq {w w' : World} (h : Stretch P κ w w') :
    w'.past.arrivals = w.past.arrivals := by
  induction h with
  | refl => rfl
  | tail _ ha ih => exact ha.arrivals_eq.trans ih

/-- Handlers are numbered in the order in which their events were delivered. -/
theorem RunsFrom.arrivals (hr : RunsFrom P κ c₀ ls c)
    (h₀ : c₀.state.past.arrivals.length = c₀.started) :
    c.state.past.arrivals = c₀.state.past.arrivals ++ ls.filterMap delivered ∧
      c.state.past.arrivals.length = c.started := by
  refine hr.runs.induct (motive := fun ls c =>
    c.state.past.arrivals = c₀.state.past.arrivals ++ ls.filterMap delivered ∧
      c.state.past.arrivals.length = c.started) (room_sound P κ) (room_invariant P κ) hr.inv hr.idle
    (by simp [h₀]) ?_
  rintro ls ℓ c c' - hp ⟨harr, hlen⟩
  cases hp with
  | @start e w _ hb _ hg hs =>
    have hw : w.past.arrivals = c.state.past.arrivals ++ [e] := by
      simp only [room] at hb
      split_ifs at hb
      obtain rfl := Option.some.inj hb
      rfl
    rw [Stretch.arrivals_eq hg, hw, harr, hs]
    exact ⟨by simp [delivered], by rw [← hlen, harr]; simp [delivered, Nat.add_assoc]⟩
  | @resume h p k _ hpool _ hg hs =>
    rw [Stretch.arrivals_eq hg, hs]
    refine ⟨?_, hlen⟩
    show c.state.past.arrivals = _
    simp [delivered, harr]
  | env he hs =>
    rw [past_effect he, hs]
    exact ⟨by simp [delivered, harr], hlen⟩

/-- A handler that is over left nothing unfinished, and that is how things still are. -/
theorem RunsFrom.leaves (hr : RunsFrom P κ c₀ ls c) {h : ℕ} (hlo : c₀.started ≤ h)
    (hhi : h < c.started) (hover : c.pool h = none) :
    ∃ r, c.result h = some r ∧ Leaves P h r c.state := by
  obtain ⟨r, w, hresult, hleaves, hi⟩ := hr.legit.ended h hlo hhi hover
  exact ⟨r, hresult, hleaves.interferes hi⟩

/-! ## Deciding what a view shows -/

instance (view : View) (ws : SocketId) (id : Text) : Decidable (Routed view ws id) :=
  decidable_of_iff ((view ws).any fun info => info.isRouted && decide (info.id = some id))
    (by simp [Routed, Attachment.isRouted, Option.any_eq_true, and_assoc])

instance (view : View) (ws : SocketId) : Decidable (Live view ws) :=
  decidable_of_iff ((view ws).any fun info => !info.archived)
    (by simp [Live, Option.any_eq_true])

instance (view : View) (ws : SocketId) : Decidable (Archived view ws) :=
  decidable_of_iff ((view ws).any fun info => info.archived)
    (by simp [Archived, Option.any_eq_true])

instance (w : World) (ws : SocketId) : Decidable (w.Confirmed ws) :=
  inferInstanceAs (Decidable (∃ e ∈ w.past.wire, e.target = ws ∧ e.bytes = [2]))

/-! ## A platform for runs on concrete inputs -/

/-- A platform whose clock stands still, on which nothing throws and every
signature is valid. -/
def calmPlatform : Platform where
  clock _ := 1790000000000
  clock_mono _ _ _ := le_rfl
  throws _ := false
  random i n := List.replicate n (UInt8.ofNat i)
  random_length _ _ := List.length_replicate
  importable _ := true
  verifies _ _ _ := true
  challengeMessage challenge := challenge
  number _ := none
  token := "1790000000000-12345678-1234-4321-8321-123456789abc".toList

/-- An upgrade request for the room of `calmPlatform`. -/
def upgradeRequest : Request :=
  ⟨false, some calmPlatform.token, none, some "iroh-relay-v2".toList, some "websocket".toList⟩

/-- A key whose bytes are all the same. -/
def sampleKey (byte : UInt8) : Bytes := List.replicate 32 byte

/-- The authentication frame of `sampleKey`. -/
def authFrame (byte : UInt8) : Bytes := 1 :: sampleKey byte ++ [64] ++ List.replicate 64 0

/-- A datagram for `sampleKey`. -/
def datagramFrame (byte : UInt8) : Bytes := 4 :: sampleKey byte ++ [0, 42]

/-- Handler `h` is started by an event and goes on for `n` stretches. -/
def handled (h n : ℕ) (e : Event) : List (Label Event Effect) :=
  .start e :: List.replicate n (.resume h)

end IrohExperiment.Relay
