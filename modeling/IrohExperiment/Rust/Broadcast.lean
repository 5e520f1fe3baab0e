/-
# Broadcast channels (`tokio::sync::broadcast`)

A channel that hands every value to every receiver, and holds the last `capacity` values only:
a receiver that has not kept up is told how many values it has missed.  Beside the channel stands
the list of all values ever sent; a receiver that is never told that it lags reads along it.

`Sent.recv` says what a receiver is given, by the values that were ever sent, and
`exists_sent` that every channel can be taken to have come about by sending.  Nothing here
is about what is sent.
-/
import Mathlib.Tactic.Common
import Mathlib.Data.List.TakeDrop

namespace IrohExperiment.Rust

variable {α : Type} {capacity : ℕ}

/-- A channel: how many values have been sent, and those that are held, from the oldest on. -/
@[ext]
structure Broadcast (α : Type) (capacity : ℕ) where
  pos : ℕ
  held : List α
  held_length : held.length = min pos capacity
  deriving DecidableEq

/-- What a receiver is given. -/
inductive BroadcastRecv (α : Type) where
  | value (x : α)
  | lagged (missed : ℕ)
  | empty
  deriving DecidableEq, Repr

namespace Broadcast

/-! ## Sending and receiving -/

/-- Nothing has been sent. -/
def new (α : Type) (capacity : ℕ) : Broadcast α capacity := ⟨0, [], by simp⟩

/-- The oldest value has to go when there is no room. -/
def send (c : Broadcast α capacity) (x : α) : Broadcast α capacity where
  pos := c.pos + 1
  held := (c.held ++ [x]).drop (c.held.length + 1 - capacity)
  held_length := by
    have hlen := c.held_length
    rw [List.length_drop, List.length_append, List.length_singleton]
    omega

/-- Values are sent one after the other. -/
def sendAll (c : Broadcast α capacity) (xs : List α) : Broadcast α capacity := xs.foldl send c

/-- What the receiver that has come to `next` is given, and where it comes to. -/
def recv (c : Broadcast α capacity) (next : ℕ) : BroadcastRecv α × ℕ :=
  let oldest := c.pos - c.held.length
  if next < oldest then (.lagged (oldest - next), oldest)
  else
    match c.held[next - oldest]? with
    | some x => (.value x, next + 1)
    | none => (.empty, next)

/-! ## All that has been sent -/

/-- The channel after `history` has been sent. -/
structure Sent (c : Broadcast α capacity) (history : List α) : Prop where
  pos : c.pos = history.length
  held : c.held = history.drop (history.length - capacity)

variable {c : Broadcast α capacity} {history : List α}

theorem sent_new : (new α capacity).Sent [] := ⟨rfl, List.drop_nil.symm⟩

theorem Sent.send (h : c.Sent history) (x : α) : (c.send x).Sent (history ++ [x]) := by
  have hlen := c.held_length
  have hpos := h.pos
  refine ⟨?_, ?_⟩
  · show c.pos + 1 = (history ++ [x]).length
    rw [hpos, List.length_append, List.length_singleton]
  · show (c.held ++ [x]).drop (c.held.length + 1 - capacity) =
      (history ++ [x]).drop ((history ++ [x]).length - capacity)
    -- what is dropped now comes behind what has been dropped before
    have hfront : c.held ++ [x] = (history ++ [x]).drop (history.length - capacity) := by
      rw [h.held, List.drop_append_of_le_length (Nat.sub_le _ _)]
    rw [hfront, List.drop_drop, List.length_append, List.length_singleton]
    congr 1
    omega

theorem Sent.sendAll (h : c.Sent history) (xs : List α) : (c.sendAll xs).Sent (history ++ xs) := by
  induction xs generalizing c history with
  | nil => rwa [List.append_nil]
  | cons x xs ih =>
    rw [List.append_cons]
    exact ih (h.send x)

/-- Every channel can have come about by sending; what it holds no more may have been anything. -/
theorem exists_sent (hcapacity : 0 < capacity) (c : Broadcast α capacity) :
    ∃ history, c.Sent history := by
  have hlen := c.held_length
  by_cases hroom : c.pos ≤ capacity
  · refine ⟨c.held, by omega, ?_⟩
    rw [Nat.sub_eq_zero_of_le (by omega), List.drop_zero]
  · obtain ⟨x, xs, hheld⟩ := List.exists_cons_of_length_pos (by omega : 0 < c.held.length)
    have hpast : (List.replicate (c.pos - capacity) x).length = c.pos - capacity :=
      List.length_replicate
    have hall : (List.replicate (c.pos - capacity) x ++ c.held).length = c.pos := by
      rw [List.length_append, hpast]
      omega
    refine ⟨List.replicate (c.pos - capacity) x ++ c.held, hall.symm, ?_⟩
    rw [hall, List.drop_left' hpast]

/-- A receiver is told that it lags exactly if more than `capacity` values are waiting for it;
if not, it is given the next of all values. -/
theorem Sent.recv (h : c.Sent history) (next : ℕ) :
    c.recv next =
      if next + capacity < history.length then
        (.lagged (history.length - capacity - next), history.length - capacity)
      else
        match history[next]? with
        | some x => (.value x, next + 1)
        | none => (.empty, next) := by
  have hlen := c.held_length
  have holdest : c.pos - c.held.length = history.length - capacity := by
    have hpos := h.pos
    omega
  unfold Broadcast.recv
  simp only
  rw [holdest]
  by_cases hlag : next + capacity < history.length
  · rw [if_pos (by omega), if_pos hlag]
  · rw [if_neg (by omega), if_neg hlag, h.held, List.getElem?_drop,
      Nat.add_sub_cancel' (by omega)]

theorem Sent.recv_value (h : c.Sent history) {next : ℕ} {x : α}
    (hrecv : (c.recv next).1 = .value x) :
    history[next]? = some x ∧ (c.recv next).2 = next + 1 := by
  rw [h.recv next] at hrecv ⊢
  by_cases hlag : next + capacity < history.length
  · rw [if_pos hlag] at hrecv
    cases hrecv
  · rw [if_neg hlag] at hrecv ⊢
    cases hx : history[next]? with
    | none =>
      rw [hx] at hrecv
      cases hrecv
    | some y =>
      rw [hx] at hrecv
      obtain rfl := BroadcastRecv.value.inj hrecv
      exact ⟨rfl, rfl⟩

theorem Sent.recv_empty (h : c.Sent history) {next : ℕ} (hrecv : (c.recv next).1 = .empty) :
    history.length ≤ next ∧ (c.recv next).2 = next := by
  rw [h.recv next] at hrecv ⊢
  by_cases hlag : next + capacity < history.length
  · rw [if_pos hlag] at hrecv
    cases hrecv
  · rw [if_neg hlag] at hrecv ⊢
    cases hx : history[next]? with
    | none => exact ⟨List.getElem?_eq_none_iff.mp hx, rfl⟩
    | some y =>
      rw [hx] at hrecv
      cases hrecv

/-- A receiver that keeps up is never told that it lags. -/
theorem Sent.not_lagged (h : c.Sent history) {next missed : ℕ}
    (hkeeps : history.length ≤ next + capacity) : (c.recv next).1 ≠ .lagged missed := by
  rw [h.recv next, if_neg (Nat.not_lt.mpr hkeeps)]
  cases history[next]? <;> exact nofun

end Broadcast

end IrohExperiment.Rust
