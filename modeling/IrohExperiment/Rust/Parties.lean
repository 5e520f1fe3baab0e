/-
# Two parties on a pair of byte streams

A party takes steps of its own and is brought the bytes of its incoming stream by the
transport.  Two parties are joined by two streams, each reliable and in order: what holds of
one party whatever it is brought holds of it in the joined system, and there what it is
brought is what the other has sent.

The main rules are `parties_run`, for what one party keeps whatever it is brought, and
`inFlight_run`, for what a window allows to be on its way.  Nothing here is about what the
parties do.
-/
import IrohExperiment.History.Run
import IrohExperiment.Rust.Stream

namespace IrohExperiment.Rust

open History

/-! ## One party -/

/-- How the writer of a stream has left it: not at all, at its end, or in the middle. -/
inductive WriterEnd where
  | writing
  | finished
  | broken
  deriving DecidableEq, Repr

/-- A process on a pair of streams: its own steps, what the transport does to it, what its
outgoing stream has accepted from it, and how it has left that stream. -/
structure Party (σ ε : Type) where
  own : ε → σ → Option σ
  deliver : Chunk → σ → σ
  finish : Ending → σ → σ
  sent : σ → Bytes
  writer : σ → WriterEnd

/-- What an incoming stream has brought, and how it has ended. -/
structure Link where
  brought : Bytes
  ending : Ending
  deriving DecidableEq, Repr

/-- Nothing has been brought yet. -/
def Link.idle : Link := ⟨[], .silent⟩

/-- A party and its incoming stream. -/
structure Attached (σ : Type) where
  state : σ
  link : Link
  deriving DecidableEq, Repr

/-- What can happen to a party. -/
inductive Move (ε : Type) where
  | own (event : ε)
  | carry (chunk : Chunk)
  | finish (ending : Ending)
  deriving DecidableEq, Repr

variable {σ τ ε φ : Type}

/-- One step of a party, whatever is at the other end of its streams. -/
def Party.step (P : Party σ ε) (move : Move ε) (a : Attached σ) : Option (Attached σ) :=
  match move with
  | .own event => (P.own event a.state).map fun s => ⟨s, a.link⟩
  | .carry chunk =>
    if a.link.ending = .silent then
      some ⟨P.deliver chunk a.state, ⟨a.link.brought ++ chunk.bytes, .silent⟩⟩
    else none
  | .finish ending =>
    if a.link.ending = .silent then some ⟨P.finish ending a.state, ⟨a.link.brought, ending⟩⟩
    else none

/-- What a party has sent only grows, and is what it is once the stream is finished. -/
structure Party.Lawful (P : Party σ ε) : Prop where
  own_sent : ∀ {event s s'}, P.own event s = some s' → P.sent s <+: P.sent s'
  own_finished : ∀ {event s s'}, P.own event s = some s' → P.writer s = .finished →
    P.writer s' = .finished ∧ P.sent s' = P.sent s
  deliver_sent : ∀ chunk s, P.sent (P.deliver chunk s) = P.sent s
  deliver_writer : ∀ chunk s, P.writer (P.deliver chunk s) = P.writer s
  finish_sent : ∀ ending s, P.sent (P.finish ending s) = P.sent s
  finish_writer : ∀ ending s, P.writer (P.finish ending s) = P.writer s

section Party

variable {P : Party σ ε} {a a' : Attached σ} {move : Move ε}

theorem Party.own_of_step {event : ε} (hstep : P.step (.own event) a = some a') :
    P.own event a.state = some a'.state ∧ a'.link = a.link := by
  obtain ⟨s, hown, rfl⟩ := Option.map_eq_some_iff.mp hstep
  exact ⟨hown, rfl⟩

theorem Party.carry_of_step {chunk : Chunk} (hstep : P.step (.carry chunk) a = some a') :
    a.link.ending = .silent ∧
      a' = ⟨P.deliver chunk a.state, ⟨a.link.brought ++ chunk.bytes, .silent⟩⟩ := by
  obtain ⟨hsilent, rfl⟩ := of_guarded hstep
  exact ⟨hsilent, rfl⟩

theorem Party.finish_of_step {ending : Ending} (hstep : P.step (.finish ending) a = some a') :
    a.link.ending = .silent ∧ a' = ⟨P.finish ending a.state, ⟨a.link.brought, ending⟩⟩ := by
  obtain ⟨hsilent, rfl⟩ := of_guarded hstep
  exact ⟨hsilent, rfl⟩

theorem Party.Lawful.sent_step (h : P.Lawful) (hstep : P.step move a = some a') :
    P.sent a.state <+: P.sent a'.state := by
  cases move with
  | own event => exact h.own_sent (Party.own_of_step hstep).1
  | carry chunk =>
    obtain ⟨-, rfl⟩ := Party.carry_of_step hstep
    rw [h.deliver_sent]
  | finish ending =>
    obtain ⟨-, rfl⟩ := Party.finish_of_step hstep
    rw [h.finish_sent]

theorem Party.Lawful.finished_step (h : P.Lawful) (hstep : P.step move a = some a')
    (hfinished : P.writer a.state = .finished) :
    P.writer a'.state = .finished ∧ P.sent a'.state = P.sent a.state := by
  cases move with
  | own event => exact h.own_finished (Party.own_of_step hstep).1 hfinished
  | carry chunk =>
    obtain ⟨-, rfl⟩ := Party.carry_of_step hstep
    exact ⟨(h.deliver_writer _ _).trans hfinished, h.deliver_sent _ _⟩
  | finish ending =>
    obtain ⟨-, rfl⟩ := Party.finish_of_step hstep
    exact ⟨(h.finish_writer _ _).trans hfinished, h.finish_sent _ _⟩

end Party

/-! ## Two parties -/

/-- Two parties, each with the stream that comes from the other. -/
structure Joined (σ τ : Type) where
  left : Attached σ
  right : Attached τ
  deriving DecidableEq, Repr

namespace Joined

/-- Both parties at their start. -/
def start (s : σ) (t : τ) : Joined σ τ := ⟨⟨s, .idle⟩, ⟨t, .idle⟩⟩

/-- The same two parties, from the other side. -/
def swap (c : Joined σ τ) : Joined τ σ := ⟨c.right, c.left⟩

/-- What the transport allows to happen to a party that comes to `a` so: it may have at most
`window` bytes on the way, it is brought what the other has sent, and the stream ends cleanly
where the other has finished it. -/
def Allowed (P : Party σ ε) (Q : Party τ φ) (window : ℕ) (other : Attached τ) (a : Attached σ) :
    Move ε → Prop
  | .own _ => (P.sent a.state).length ≤ other.link.brought.length + window
  | .carry _ => a.link.brought <+: Q.sent other.state
  | .finish .finished => Q.writer other.state = .finished ∧ a.link.brought = Q.sent other.state
  | .finish (.failed kind) => kind ≠ .unexpectedEof
  | .finish .silent => False

instance (P : Party σ ε) (Q : Party τ φ) (window : ℕ) (other : Attached τ) (a : Attached σ)
    (move : Move ε) : Decidable (Allowed P Q window other a move) := by
  unfold Allowed
  split <;> infer_instance

/-- Something happens to the party on the left. -/
def moveLeft (P : Party σ ε) (Q : Party τ φ) (window : ℕ) (move : Move ε) (c : Joined σ τ) :
    Option (Joined σ τ) :=
  (P.step move c.left).bind fun a =>
    if Allowed P Q window c.right a move then some ⟨a, c.right⟩ else none

/-- One step of the joined system. -/
def step (P : Party σ ε) (Q : Party τ φ) (window : ℕ) (event : Move ε ⊕ Move φ)
    (c : Joined σ τ) : Option (Joined σ τ) :=
  match event with
  | .inl move => moveLeft P Q window move c
  | .inr move => (moveLeft Q P window move c.swap).map swap

end Joined

/-- A stream is in order: it has brought a front part of what has been sent, all of it if it
has ended cleanly, and it does not fail as a clean end does. -/
structure InOrder (link : Link) (sent : Bytes) (writer : WriterEnd) : Prop where
  brought : link.brought <+: sent
  finished : link.ending = .finished → writer = .finished ∧ link.brought = sent
  failed : ∀ kind, link.ending = .failed kind → kind ≠ .unexpectedEof

theorem inOrder_idle (sent : Bytes) (writer : WriterEnd) : InOrder .idle sent writer :=
  ⟨List.nil_prefix, fun h => (by cases h), fun kind h => (by cases h)⟩

section Joined

variable {P : Party σ ε} {Q : Party τ φ} {window : ℕ} {c c' : Joined σ τ} {s : σ} {t : τ}
  {events : List (Move ε ⊕ Move φ)}

theorem Joined.moveLeft_eq_some {move : Move ε} :
    moveLeft P Q window move c = some c' ↔
      P.step move c.left = some c'.left ∧ c'.right = c.right ∧
        Allowed P Q window c.right c'.left move := by
  unfold moveLeft
  rw [Option.bind_eq_some_iff]
  constructor
  · rintro ⟨a, hstep, hmove⟩
    obtain ⟨hallowed, rfl⟩ := of_guarded hmove
    exact ⟨hstep, rfl, hallowed⟩
  · rintro ⟨hstep, hright, hallowed⟩
    refine ⟨c'.left, hstep, ?_⟩
    rw [if_pos hallowed, ← hright]

theorem Joined.step_inr {move : Move φ} (hstep : step P Q window (.inr move) c = some c') :
    moveLeft Q P window move c.swap = some c'.swap := by
  obtain ⟨d, hd, rfl⟩ := Option.map_eq_some_iff.mp hstep
  exact hd

/-- Both streams stay in order when the party on the left moves. -/
theorem InOrder.moveLeft (hP : P.Lawful) {move : Move ε}
    (hstep : Joined.moveLeft P Q window move c = some c')
    (hleft : InOrder c.left.link (Q.sent c.right.state) (Q.writer c.right.state))
    (hright : InOrder c.right.link (P.sent c.left.state) (P.writer c.left.state)) :
    InOrder c'.left.link (Q.sent c'.right.state) (Q.writer c'.right.state) ∧
      InOrder c'.right.link (P.sent c'.left.state) (P.writer c'.left.state) := by
  obtain ⟨hmove, hsame, hallowed⟩ := Joined.moveLeft_eq_some.mp hstep
  rw [hsame]
  refine ⟨?_, ?_⟩
  · cases move with
    | own event =>
      rw [(Party.own_of_step hmove).2]
      exact hleft
    | carry chunk =>
      obtain ⟨-, heq⟩ := Party.carry_of_step hmove
      have hending : c'.left.link.ending = .silent := by rw [heq]
      refine ⟨hallowed, fun h => ?_, fun kind h => ?_⟩ <;> rw [hending] at h <;> cases h
    | finish ending =>
      obtain ⟨-, heq⟩ := Party.finish_of_step hmove
      have hending : c'.left.link.ending = ending := by rw [heq]
      have hbrought : c'.left.link.brought = c.left.link.brought := by rw [heq]
      refine ⟨hbrought ▸ hleft.brought, fun h => ?_, fun kind h => ?_⟩
      · obtain rfl := hending.symm.trans h
        exact hallowed
      · obtain rfl := hending.symm.trans h
        exact hallowed
  · refine ⟨hright.brought.trans (hP.sent_step hmove), fun h => ?_, hright.failed⟩
    obtain ⟨hwriter, hall⟩ := hright.finished h
    obtain ⟨hwriter', hsent⟩ := hP.finished_step hmove hwriter
    exact ⟨hwriter', hall.trans hsent.symm⟩

theorem Joined.inFlight_moveLeft (hP : P.Lawful) {move : Move ε}
    (hstep : moveLeft P Q window move c = some c')
    (hleft : (P.sent c.left.state).length ≤ c.right.link.brought.length + window)
    (hright : (Q.sent c.right.state).length ≤ c.left.link.brought.length + window) :
    (P.sent c'.left.state).length ≤ c'.right.link.brought.length + window ∧
      (Q.sent c'.right.state).length ≤ c'.left.link.brought.length + window := by
  obtain ⟨hmove, hsame, hallowed⟩ := moveLeft_eq_some.mp hstep
  rw [hsame]
  cases move with
  | own event => exact ⟨hallowed, by rw [(Party.own_of_step hmove).2]; exact hright⟩
  | carry chunk =>
    obtain ⟨-, heq⟩ := Party.carry_of_step hmove
    rw [heq]
    refine ⟨by rw [hP.deliver_sent]; exact hleft, ?_⟩
    simp only [List.length_append]
    omega
  | finish ending =>
    obtain ⟨-, heq⟩ := Party.finish_of_step hmove
    rw [heq]
    exact ⟨by rw [hP.finish_sent]; exact hleft, hright⟩

/-- In a joined system both streams are in order. -/
theorem inOrder_run (hP : P.Lawful) (hQ : Q.Lawful)
    (hrun : run (Joined.step P Q window) (Joined.start s t) events = some c) :
    InOrder c.left.link (Q.sent c.right.state) (Q.writer c.right.state) ∧
      InOrder c.right.link (P.sent c.left.state) (P.writer c.left.state) := by
  refine run_induct (P := fun _ c =>
    InOrder c.left.link (Q.sent c.right.state) (Q.writer c.right.state) ∧
      InOrder c.right.link (P.sent c.left.state) (P.writer c.left.state))
    ⟨inOrder_idle _ _, inOrder_idle _ _⟩ ?_ hrun
  intro events c event c' _ h hstep
  cases event with
  | inl move => exact h.1.moveLeft hP hstep h.2
  | inr move => exact (h.2.moveLeft hQ (Joined.step_inr hstep) h.1).symm

/-- In a joined system, what happens to each party is a run of it alone. -/
theorem parties_run (hrun : run (Joined.step P Q window) (Joined.start s t) events = some c) :
    (∃ moves, run P.step ⟨s, .idle⟩ moves = some c.left) ∧
      ∃ moves, run Q.step ⟨t, .idle⟩ moves = some c.right := by
  refine run_induct (P := fun _ c => (∃ moves, run P.step ⟨s, .idle⟩ moves = some c.left) ∧
    ∃ moves, run Q.step ⟨t, .idle⟩ moves = some c.right) ⟨⟨[], rfl⟩, [], rfl⟩ ?_ hrun
  rintro events c event c' - ⟨⟨lefts, hleft⟩, rights, hright⟩ hstep
  cases event with
  | inl move =>
    obtain ⟨hmove, hsame, -⟩ := Joined.moveLeft_eq_some.mp hstep
    exact ⟨⟨lefts ++ [move], run_concat.mpr ⟨_, hleft, hmove⟩⟩, rights, hsame ▸ hright⟩
  | inr move =>
    obtain ⟨hmove, hsame, -⟩ := Joined.moveLeft_eq_some.mp (Joined.step_inr hstep)
    have hsame : c'.left = c.left := hsame
    exact ⟨⟨lefts, hsame ▸ hleft⟩, rights ++ [move], run_concat.mpr ⟨_, hright, hmove⟩⟩

/-- At most `window` bytes are on the way in either direction. -/
theorem inFlight_run (hP : P.Lawful) (hQ : Q.Lawful) (hs : P.sent s = []) (ht : Q.sent t = [])
    (hrun : run (Joined.step P Q window) (Joined.start s t) events = some c) :
    (P.sent c.left.state).length ≤ c.right.link.brought.length + window ∧
      (Q.sent c.right.state).length ≤ c.left.link.brought.length + window := by
  refine run_induct (P := fun _ c =>
    (P.sent c.left.state).length ≤ c.right.link.brought.length + window ∧
      (Q.sent c.right.state).length ≤ c.left.link.brought.length + window) ?_ ?_ hrun
  · exact ⟨by simp [Joined.start, hs], by simp [Joined.start, ht]⟩
  · intro events c event c' _ h hstep
    cases event with
    | inl move => exact Joined.inFlight_moveLeft hP hstep h.1 h.2
    | inr move => exact (Joined.inFlight_moveLeft hQ (Joined.step_inr hstep) h.2 h.1).symm

/-- What is on the way can be brought, a byte at a time, as long as the stream has not failed. -/
theorem InOrder.exists_carry {link : Link} {sent : Bytes} {writer : WriterEnd}
    (h : InOrder link sent writer) (hmore : link.brought.length < sent.length)
    (hfailed : ∀ kind, link.ending ≠ .failed kind) :
    link.ending = .silent ∧
      ∃ chunk : Chunk, chunk.bytes.length = 1 ∧ link.brought ++ chunk.bytes <+: sent := by
  constructor
  · cases hending : link.ending with
    | silent => rfl
    | finished =>
      rw [(h.finished hending).2] at hmore
      exact absurd hmore (Nat.lt_irrefl _)
    | failed kind => exact absurd hending (hfailed kind)
  · obtain ⟨rest, hrest⟩ := h.brought
    cases rest with
    | nil =>
      rw [List.append_nil] at hrest
      rw [hrest] at hmore
      exact absurd hmore (Nat.lt_irrefl _)
    | cons byte rest =>
      refine ⟨⟨[byte], List.cons_ne_nil _ _⟩, rfl, rest, ?_⟩
      rw [← hrest, List.append_assoc]
      rfl

end Joined

end IrohExperiment.Rust
