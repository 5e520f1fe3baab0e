/-
# Coroutines: code that runs uninterrupted between suspension points

The meaning of an `async` function in a single-threaded event loop.  A coroutine
runs on a shared state without interruption until it ends, throws, or reaches a
suspension point; what it does afterwards is a function of the state found when
it is resumed, which other coroutines may have changed in between.

* `Outcome` is what one uninterrupted stretch leaves behind;
* `Coroutine` is a state-dependent stretch, a monad with exceptions;
* `Coroutine.await` is JavaScript's `await e` for a call `e` of an async
  function: the callee runs first, and its caller goes on one suspension later.
-/
import Mathlib

namespace Coop

/-- How an uninterrupted stretch of execution ends: with a value, with an
exception, or suspended at a labelled point with the rest of the computation
waiting for a state.  `π` labels the suspension points and carries the local
variables that are worth seeing from outside. -/
inductive Outcome (π σ ε α : Type) : Type where
  | done (a : α) (s : σ)
  | fail (e : ε) (s : σ)
  | suspend (p : π) (s : σ) (k : σ → Outcome π σ ε α)

namespace Outcome

variable {π σ ε ε' α β : Type}

/-- Continue a computation, both after a value and after an exception. -/
def handle (f : α → σ → Outcome π σ ε' β) (g : ε → σ → Outcome π σ ε' β) :
    Outcome π σ ε α → Outcome π σ ε' β
  | done a s => f a s
  | fail e s => g e s
  | suspend p s k => suspend p s fun s' => (k s').handle f g

/-- Run a computation to its end with nobody else running in between. -/
def alone : Outcome π σ ε α → Except ε α × σ
  | done a s => (.ok a, s)
  | fail e s => (.error e, s)
  | suspend _ s k => (k s).alone

end Outcome

/-- A computation that starts from the shared state. -/
def Coroutine (π σ ε α : Type) : Type := σ → Outcome π σ ε α

namespace Coroutine

variable {π σ ε α β : Type}

/-- Sequencing. -/
protected def bind (t : Coroutine π σ ε α) (f : α → Coroutine π σ ε β) :
    Coroutine π σ ε β :=
  fun s => (t s).handle f .fail

instance : Monad (Coroutine π σ ε) where
  pure a := .done a
  bind := Coroutine.bind

/-- Throw an exception. -/
def raise (e : ε) : Coroutine π σ ε α := .fail e

/-- `try t catch e => h e`. -/
def rescue (t : Coroutine π σ ε α) (h : ε → Coroutine π σ ε α) :
    Coroutine π σ ε α :=
  fun s => (t s).handle .done h

/-- Read the shared state. -/
def gets (f : σ → α) : Coroutine π σ ε α := fun s => .done (f s) s

/-- Update the shared state. -/
def modify (f : σ → σ) : Coroutine π σ ε Unit := fun s => .done () (f s)

/-- Run `t` only when `b` holds. -/
def when (b : Bool) (t : Coroutine π σ ε Unit) : Coroutine π σ ε Unit :=
  bif b then t else pure ()

/-- Let the others run. -/
def yield (p : π) : Coroutine π σ ε Unit := fun s => .suspend p s (.done ())

/-- `await t`: run the async function `t`, and hand its value or its exception
to the caller one suspension later.  The label of that suspension may show what
is about to be handed over. -/
def await (p : Except ε α → π) (t : Coroutine π σ ε α) : Coroutine π σ ε α := fun s =>
  (t s).handle (fun a s' => .suspend (p (.ok a)) s' (.done a))
    (fun e s' => .suspend (p (.error e)) s' (.fail e))

/-! ### Running a stretch -/

variable (t : Coroutine π σ ε α) (f : α → Coroutine π σ ε β) (s : σ)

@[simp] theorem bind_apply : (t >>= f) s = (t s).handle f .fail := rfl

@[simp] theorem pure_apply (a : α) : (pure a : Coroutine π σ ε α) s = .done a s := rfl

@[simp] theorem raise_apply (e : ε) : (raise e : Coroutine π σ ε α) s = .fail e s := rfl

@[simp] theorem rescue_apply (h : ε → Coroutine π σ ε α) :
    (t.rescue h) s = (t s).handle .done h := rfl

@[simp] theorem gets_apply (g : σ → α) : (gets g : Coroutine π σ ε α) s = .done (g s) s := rfl

@[simp] theorem modify_apply (g : σ → σ) :
    (modify g : Coroutine π σ ε Unit) s = .done () (g s) := rfl

@[simp] theorem when_true (t : Coroutine π σ ε Unit) : when true t = t := rfl

@[simp] theorem when_false (t : Coroutine π σ ε Unit) : when false t = pure () := rfl

@[simp] theorem bind_done (a : α) :
    Outcome.handle f .fail (.done a s : Outcome π σ ε α) = f a s := rfl

@[simp] theorem bind_fail (e : ε) :
    Outcome.handle f .fail (.fail e s : Outcome π σ ε α) = .fail e s := rfl

@[simp] theorem rescue_done (h : ε → Coroutine π σ ε α) (a : α) :
    Outcome.handle .done h (.done a s : Outcome π σ ε α) = .done a s := rfl

@[simp] theorem rescue_fail (h : ε → Coroutine π σ ε α) (e : ε) :
    Outcome.handle .done h (.fail e s : Outcome π σ ε α) = h e s := rfl

end Coroutine

end Coop
