/-
# Tasks (`tokio`, `anyhow`)

Asynchronous Rust whose effects outlast its errors: a task that returns an error or hangs
leaves the state in which it did so, so that what has been written or logged until then
can be asked for.  Deadlines, and the errors of `anyhow`.

`Task.bind_cases` takes a task apart at its first part, `Task.run_timeout` and
`Task.run_ofAsync` relate it to deadlines and to reads.  `ErrorKind` and `Anyhow` are an
error with its kind, its texts and what it was caused by.
-/
import IrohExperiment.Rust.Stream
import IrohExperiment.Rust.Text

namespace IrohExperiment.Rust

variable {σ τ ε ε' α β : Type}

/-! ## Errors -/

/-- `anyhow::Error`: an `io::Error`, another error, or an error with a context. -/
inductive Anyhow where
  | io (kind : ErrorKind) (text : Text)
  | other (text : Text)
  | context (text : Text) (cause : Anyhow)
  deriving DecidableEq, Repr

/-- What `to_string` shows: the outermost text. -/
def Anyhow.toText : Anyhow → Text
  | .io _ text => text
  | .other text => text
  | .context text _ => text

/-- The kinds of the `io::Error`s in `chain`. -/
def Anyhow.ioKinds : Anyhow → List ErrorKind
  | .io kind _ => [kind]
  | .other _ => []
  | .context _ cause => cause.ioKinds

/-- The text of an `io::Error` that is nothing but its kind. -/
def ErrorKind.text : ErrorKind → Text
  | .unexpectedEof => "unexpected end of file".toList
  | .brokenPipe => "broken pipe".toList
  | .connectionReset => "connection reset".toList
  | .notConnected => "not connected".toList
  | .other => "other error".toList

/-- `str::contains` -/
def contains (text part : Text) : Bool := text.tails.any part.isPrefixOf

/-- What a text contains is made of its characters. -/
theorem subset_of_contains {text part : Text} (h : contains text part = true) : part ⊆ text := by
  obtain ⟨tail, htail, hprefix⟩ := List.any_eq_true.mp h
  intro c hc
  exact ((List.mem_tails _ _).mp htail).subset ((List.isPrefixOf_iff_prefix.mp hprefix).subset hc)

/-! ## Tasks -/

/-- What awaiting a future of type `Result<α, ε>` comes to, and the state it leaves. -/
inductive Verdict (σ ε α : Type) where
  | returned (result : Except ε α) (state : σ)
  | hangs (state : σ)

/-- The state that is left. -/
def Verdict.state : Verdict σ ε α → σ
  | .returned _ s => s
  | .hangs s => s

/-- A future of type `Result<α, ε>` that works on a `σ`. -/
structure Task (σ ε α : Type) where
  run : σ → Verdict σ ε α

namespace Task

/-- Goes on with the value, if there is one. -/
def bind (x : Task σ ε α) (f : α → Task σ ε β) : Task σ ε β where
  run s :=
    match x.run s with
    | .returned (.ok a) s' => (f a).run s'
    | .returned (.error e) s' => .returned (.error e) s'
    | .hangs s' => .hangs s'

instance : Monad (Task σ ε) where
  pure a := ⟨fun s => .returned (.ok a) s⟩
  bind := bind

/-- `Err(error)?` -/
def throw (error : ε) : Task σ ε α := ⟨fun s => .returned (.error error) s⟩

/-- `x.await` without `?`: the result is looked at. -/
def attempt (x : Task σ ε α) : Task σ ε' (Except ε α) where
  run s :=
    match x.run s with
    | .returned r s' => .returned (.ok r) s'
    | .hangs s' => .hangs s'

/-- `Result::map_err` -/
def mapErr (f : ε → ε') (x : Task σ ε α) : Task σ ε' α where
  run s :=
    match x.run s with
    | .returned (.ok a) s' => .returned (.ok a) s'
    | .returned (.error e) s' => .returned (.error (f e)) s'
    | .hangs s' => .hangs s'

/-- `tokio::time::timeout`: what hangs is given up. -/
def timeout (x : Task σ ε α) : Task σ ε' (Option (Except ε α)) where
  run s :=
    match x.run s with
    | .returned r s' => .returned (.ok (some r)) s'
    | .hangs s' => .returned (.ok none) s'

/-- Reads the state. -/
def gets (f : σ → α) : Task σ ε α := ⟨fun s => .returned (.ok (f s)) s⟩

/-- Changes the state. -/
def modify (f : σ → σ) : Task σ ε Unit := ⟨fun s => .returned (.ok ()) (f s)⟩

/-- Ends as a piece of synchronous code has ended. -/
def ofExcept (r : Except ε α) : Task σ ε α := ⟨fun s => .returned r s⟩

/-- A computation on a stream that is part of the state; an error leaves the stream alone. -/
def ofAsync (get : σ → τ) (set : σ → τ → σ) (x : Async τ ε α) : Task σ ε α where
  run s :=
    match x.run (get s) with
    | .done a t => .returned (.ok a) (set s t)
    | .failed e => .returned (.error e) s
    | .waits => .hangs s

@[simp] theorem run_pure (a : α) (s : σ) : (pure a : Task σ ε α).run s = .returned (.ok a) s := rfl

@[simp] theorem run_throw (e : ε) (s : σ) : (throw e : Task σ ε α).run s = .returned (.error e) s :=
  rfl

@[simp] theorem run_gets (f : σ → α) (s : σ) :
    (gets f : Task σ ε α).run s = .returned (.ok (f s)) s := rfl

@[simp] theorem run_modify (f : σ → σ) (s : σ) :
    (modify f : Task σ ε Unit).run s = .returned (.ok ()) (f s) := rfl

@[simp] theorem run_ofExcept (r : Except ε α) (s : σ) :
    (ofExcept r : Task σ ε α).run s = .returned r s := rfl

theorem bind_ok {x : Task σ ε α} {f : α → Task σ ε β} {s s' : σ} {a : α}
    (h : x.run s = .returned (.ok a) s') : (x >>= f).run s = (f a).run s' := by
  show (match x.run s with
    | .returned (.ok a) s' => _ | .returned (.error e) s' => _ | .hangs s' => _) = _
  rw [h]

theorem bind_error {x : Task σ ε α} {f : α → Task σ ε β} {s s' : σ} {e : ε}
    (h : x.run s = .returned (.error e) s') : (x >>= f).run s = .returned (.error e) s' := by
  show (match x.run s with
    | .returned (.ok a) s' => _ | .returned (.error e) s' => _ | .hangs s' => _) = _
  rw [h]

theorem bind_hangs {x : Task σ ε α} {f : α → Task σ ε β} {s s' : σ} (h : x.run s = .hangs s') :
    (x >>= f).run s = .hangs s' := by
  show (match x.run s with
    | .returned (.ok a) s' => _ | .returned (.error e) s' => _ | .hangs s' => _) = _
  rw [h]

/-- A sequence returns a value if its parts do, one after the other. -/
theorem bind_eq_ok {x : Task σ ε α} {f : α → Task σ ε β} {s t : σ} {b : β} :
    (x >>= f).run s = .returned (.ok b) t ↔
      ∃ a s', x.run s = .returned (.ok a) s' ∧ (f a).run s' = .returned (.ok b) t := by
  rcases h : x.run s with ⟨e | a, s'⟩ | s'
  · rw [bind_error h]
    simp
  · rw [bind_ok h]
    simp
  · rw [bind_hangs h]
    simp

/-- A sequence returns an error if its first part does, or the part after it. -/
theorem bind_eq_error {x : Task σ ε α} {f : α → Task σ ε β} {s t : σ} {e : ε} :
    (x >>= f).run s = .returned (.error e) t ↔ x.run s = .returned (.error e) t ∨
      ∃ a s', x.run s = .returned (.ok a) s' ∧ (f a).run s' = .returned (.error e) t := by
  rcases h : x.run s with ⟨e' | a, s'⟩ | s'
  · rw [bind_error h]
    simp
  · rw [bind_ok h]
    simp
  · rw [bind_hangs h]
    simp

theorem mapErr_ok {f : ε → ε'} {x : Task σ ε α} {s s' : σ} {a : α}
    (h : x.run s = .returned (.ok a) s') :
    (x.mapErr f).run s = .returned (.ok a) s' := by
  show (match x.run s with
    | .returned (.ok a) s' => _ | .returned (.error e) s' => _ | .hangs s' => _) = _
  rw [h]

theorem mapErr_error {f : ε → ε'} {x : Task σ ε α} {s s' : σ} {e : ε}
    (h : x.run s = .returned (.error e) s') : (x.mapErr f).run s = .returned (.error (f e)) s' := by
  show (match x.run s with
    | .returned (.ok a) s' => _ | .returned (.error e) s' => _ | .hangs s' => _) = _
  rw [h]

theorem mapErr_hangs {f : ε → ε'} {x : Task σ ε α} {s s' : σ} (h : x.run s = .hangs s') :
    (x.mapErr f).run s = .hangs s' := by
  show (match x.run s with
    | .returned (.ok a) s' => _ | .returned (.error e) s' => _ | .hangs s' => _) = _
  rw [h]

@[simp] theorem mapErr_state (f : ε → ε') (x : Task σ ε α) (s : σ) :
    ((x.mapErr f).run s).state = (x.run s).state := by
  rcases h : x.run s with ⟨_ | _, _⟩ | _
  · rw [mapErr_error h]
    rfl
  · rw [mapErr_ok h]
    rfl
  · rw [mapErr_hangs h]
    rfl

theorem mapErr_eq_ok {f : ε → ε'} {x : Task σ ε α} {s s' : σ} {a : α} :
    (x.mapErr f).run s = .returned (.ok a) s' ↔ x.run s = .returned (.ok a) s' := by
  rcases h : x.run s with ⟨_ | _, _⟩ | _
  · rw [mapErr_error h]
    simp
  · rw [mapErr_ok h]
    simp
  · rw [mapErr_hangs h]
    simp

theorem mapErr_eq_error {f : ε → ε'} {x : Task σ ε α} {s s' : σ} {e' : ε'} :
    (x.mapErr f).run s = .returned (.error e') s' ↔
      ∃ e, x.run s = .returned (.error e) s' ∧ f e = e' := by
  rcases h : x.run s with ⟨e | _, _⟩ | _
  · rw [mapErr_error h]
    simp [and_comm]
  · rw [mapErr_ok h]
    simp
  · rw [mapErr_hangs h]
    simp

variable (ε') in
@[simp] theorem attempt_state (x : Task σ ε α) (s : σ) :
    ((attempt x : Task σ ε' (Except ε α)).run s).state = (x.run s).state := by
  show (match x.run s with
    | .returned r s' => _ | .hangs s' => _ : Verdict σ ε' (Except ε α)).state = _
  cases x.run s <;> rfl

/-- A sequence goes on with a value, or ends where its first part has ended. -/
theorem bind_cases (x : Task σ ε α) (f : α → Task σ ε β) (s : σ) :
    (∃ a s', x.run s = .returned (.ok a) s' ∧ (x >>= f).run s = (f a).run s') ∨
      (((x >>= f).run s).state = (x.run s).state ∧
        ∀ b s', (x >>= f).run s ≠ .returned (.ok b) s') := by
  cases hx : x.run s with
  | hangs s' =>
    right
    rw [bind_hangs hx]
    exact ⟨rfl, nofun⟩
  | returned r s' =>
    cases r with
    | error e =>
      right
      rw [bind_error hx]
      exact ⟨rfl, nofun⟩
    | ok a => exact .inl ⟨a, s', rfl, bind_ok hx⟩

/-- Returning something else leaves the same state. -/
theorem bind_pure_state (x : Task σ ε α) (f : α → β) (s : σ) :
    ((x >>= fun a => pure (f a)).run s).state = (x.run s).state := by
  rcases bind_cases x (fun a => (pure (f a) : Task σ ε β)) s with ⟨a, s', hx, hrun⟩ | ⟨hstate, -⟩
  · rw [hrun, hx]
    rfl
  · exact hstate

variable (ε') in
/-- A deadline, for what returns in time and for what hangs. -/
theorem run_timeout (x : Task σ ε α) (s : σ) :
    (timeout x : Task σ ε' (Option (Except ε α))).run s =
      match x.run s with
      | .returned r s' => .returned (.ok (some r)) s'
      | .hangs s' => .returned (.ok none) s' :=
  rfl

theorem run_ofAsync (get : σ → τ) (set : σ → τ → σ) (x : Async τ ε α) (s : σ) :
    (ofAsync get set x).run s =
      match x.run (get s) with
      | .done a t => .returned (.ok a) (set s t)
      | .failed e => .returned (.error e) s
      | .waits => .hangs s :=
  rfl

end Task

end IrohExperiment.Rust
