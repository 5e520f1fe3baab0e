/-
# Tumbling windows

A limiter that counts events in a window: the first event after the window is over
starts the next window, and in each window at most `limit` events pass.  Windows are
at least a period apart but begin when an event happens, so two of them may share a
period; three cannot.  So at most `2 * limit` events pass in any period.

`Tumbling.within_le` is that bound, from what the limiter does at one event.
-/
import Mathlib.Algebra.Order.Monoid.Unbundled.Basic
import Mathlib.Data.List.Induction

namespace IrohExperiment.History

variable {τ : Type*} [LinearOrder τ] [Add τ] {period t start later : τ} {limit n : ℕ}
  {times old recent new added : List τ}

/-- How many of `times` lie in the half-open interval of one period from `t` on. -/
def within (period t : τ) (times : List τ) : ℕ :=
  times.countP fun s => decide (t ≤ s ∧ s < t + period)

theorem within_append : within period t (old ++ new) = within period t old + within period t new :=
  List.countP_append

theorem within_le_length : within period t times ≤ times.length := List.countP_le_length

/-- Nothing before the interval counts. -/
theorem within_eq_zero_of_lt (h : ∀ s ∈ times, s < t) : within period t times = 0 := by
  refine List.countP_eq_zero.mpr fun s hs => ?_
  have hlt := h s hs
  simp [not_le.mpr hlt]

/-- Nothing after the interval counts. -/
theorem within_eq_zero_of_le (h : ∀ s ∈ times, t + period ≤ s) : within period t times = 0 := by
  refine List.countP_eq_zero.mpr fun s hs => ?_
  have hle := h s hs
  simp [not_lt.mpr hle]

/-- `Tumbling period limit start n times`: a limiter whose current window began at
`start`, and has counted `n` events since, has let events pass at `times`. -/
inductive Tumbling (period : τ) (limit : ℕ) : τ → ℕ → List τ → Prop
  | fresh (start : τ) : Tumbling period limit start 0 []
  /-- An event in the current window passes. -/
  | pass {start t : τ} {n : ℕ} {times : List τ}
      (h : Tumbling period limit start n times) (hn : n < limit) (hstart : start ≤ t) :
      Tumbling period limit start (n + 1) (times ++ [t])
  /-- An event in the current window is counted and refused. -/
  | refuse {start : τ} {n : ℕ} {times : List τ} (h : Tumbling period limit start n times) :
      Tumbling period limit start (n + 1) times
  /-- An event starts the next window and passes. -/
  | passNext {start t later : τ} {n : ℕ} {times : List τ}
      (h : Tumbling period limit start n times) (hlimit : 0 < limit) (hover : start + period ≤ t)
      (hlast : ∀ s ∈ times, s ≤ t) (hlater : t ≤ later) :
      Tumbling period limit later 1 (times ++ [t])
  /-- An event starts the next window and is refused. -/
  | refuseNext {start t later : τ} {n : ℕ} {times : List τ}
      (h : Tumbling period limit start n times) (hover : start + period ≤ t)
      (hlast : ∀ s ∈ times, s ≤ t) (hlater : t ≤ later) : Tumbling period limit later 1 times

/-- The events that passed, by window: those of the current one, of the one before,
and all older ones. -/
structure Windows (period : τ) (limit : ℕ) (start : τ) (n : ℕ)
    (old recent new : List τ) : Prop where
  recent_le : recent.length ≤ limit
  new_le : new.length ≤ limit
  new_le_count : new.length ≤ n
  began : ∀ s ∈ old ++ recent, s ≤ start
  start_le : ∀ s ∈ old, s + period ≤ start
  apart : ∀ s ∈ old, ∀ s' ∈ new, s + period ≤ s'
  bound : ∀ t, within period t (old ++ recent) ≤ 2 * limit

variable [AddRightMono τ]

/-- No period holds more than two windows' worth of events. -/
theorem Windows.within_le (h : Windows period limit start n old recent new) (t : τ) :
    within period t (old ++ recent ++ new) ≤ 2 * limit := by
  rw [within_append]
  by_cases hold : ∃ s ∈ old, t ≤ s
  · -- the interval begins so early that it ends before the current window
    obtain ⟨s, hs, hts⟩ := hold
    have hnew : within period t new = 0 := within_eq_zero_of_le fun s' hs' =>
      (add_le_add_left hts period).trans (h.apart s hs s' hs')
    rw [hnew, Nat.add_zero]
    exact h.bound t
  · have hold' : within period t old = 0 := within_eq_zero_of_lt fun s hs =>
      not_le.mp fun hts => hold ⟨s, hs, hts⟩
    have hrecent : within period t recent ≤ limit := within_le_length.trans h.recent_le
    have hnew : within period t new ≤ limit := within_le_length.trans h.new_le
    rw [within_append, hold']
    omega

/-- The next window begins. -/
theorem Windows.advance (h : Windows period limit start n old recent new)
    (hover : start + period ≤ t) (hlast : ∀ s ∈ old ++ recent ++ new, s ≤ t) (hlater : t ≤ later)
    (hone : added.length ≤ 1) (hlimit : added.length ≤ limit) (hmem : ∀ s ∈ added, s = t) :
    Windows period limit later 1 (old ++ recent) new added where
  recent_le := h.new_le
  new_le := hlimit
  new_le_count := hone
  began s hs := (hlast s hs).trans hlater
  start_le s hs := ((add_le_add_left (h.began s hs) period).trans hover).trans hlater
  apart s hs s' hs' := by
    rw [hmem s' hs']
    exact (add_le_add_left (h.began s hs) period).trans hover
  bound := h.within_le

theorem Tumbling.windows (h : Tumbling period limit start n times) :
    ∃ old recent new, times = old ++ recent ++ new ∧
      Windows period limit start n old recent new := by
  induction h with
  | fresh start =>
    refine ⟨[], [], [], rfl, ?_⟩
    constructor <;> simp [within]
  | @pass start t n times _ hn hstart ih =>
    obtain ⟨old, recent, new, rfl, hw⟩ := ih
    refine ⟨old, recent, new ++ [t], by simp, hw.recent_le, ?_, ?_, hw.began, hw.start_le,
      fun s hs s' hs' => ?_, hw.bound⟩
    · have hcount := hw.new_le_count
      simp only [List.length_append, List.length_singleton]
      omega
    · have hcount := hw.new_le_count
      simp only [List.length_append, List.length_singleton]
      omega
    · rcases List.mem_append.mp hs' with hs' | hs'
      · exact hw.apart s hs s' hs'
      · rw [List.mem_singleton.mp hs']
        exact (hw.start_le s hs).trans hstart
  | refuse _ ih =>
    obtain ⟨old, recent, new, rfl, hw⟩ := ih
    exact ⟨old, recent, new, rfl, { hw with new_le_count := hw.new_le_count.trans (Nat.le_succ _) }⟩
  | @passNext start t later n times _ hlimit hover hlast hlater ih =>
    obtain ⟨old, recent, new, rfl, hw⟩ := ih
    exact ⟨old ++ recent, new, [t], rfl, hw.advance hover hlast hlater le_rfl hlimit (by simp)⟩
  | @refuseNext start t later n times _ hover hlast hlater ih =>
    obtain ⟨old, recent, new, rfl, hw⟩ := ih
    exact ⟨old ++ recent, new, [],
      by simp, hw.advance hover hlast hlater (by simp) (by simp) (by simp)⟩

/-- **Tumbling windows** let at most twice their limit pass in any period. -/
theorem Tumbling.within_le (h : Tumbling period limit start n times) (t : τ) :
    within period t times ≤ 2 * limit := by
  obtain ⟨old, recent, new, rfl, hw⟩ := h.windows
  exact hw.within_le t

end IrohExperiment.History
