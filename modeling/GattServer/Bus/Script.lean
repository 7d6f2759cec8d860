/-
# Scripts of bus calls

An operation of an application makes calls on the bus and goes on according to the answers.  Its
script is the tree of everything it may do: at each call it shows the state of the application at
that moment, and it has one continuation for every answer.  What holds of a script holds whatever
the bus answers.

A bus is what carries scripts out: it takes calls and warnings one at a time and has a state of its
own.
-/

import GattServer.Bus.Call

namespace GattServer

/-- What is left to do of an operation that ends with an `α`, shown states being of type `σ`. -/
inductive Script (σ α : Type) where
  /-- The operation ends. -/
  | done (a : α)
  /-- A warning is put on record. -/
  | warn (w : Warning) (next : Script σ α)
  /-- A call is made in a state, and its answer decides what follows. -/
  | call (state : σ) (c : Call) (next : Answer → Script σ α)

namespace Script

variable {σ α β γ : Type}

/-- A script that goes on as another one. -/
def bind : Script σ α → (α → Script σ β) → Script σ β
  | done a, f => f a
  | warn w next, f => warn w (next.bind f)
  | call s c next, f => call s c fun a => (next a).bind f

instance : Monad (Script σ) where
  pure := done
  bind := bind

@[simp] theorem done_bind (a : α) (f : α → Script σ β) : (done a).bind f = f a := rfl

@[simp] theorem warn_bind (w : Warning) (next : Script σ α) (f : α → Script σ β) :
    (warn w next).bind f = warn w (next.bind f) := rfl

@[simp] theorem call_bind (s : σ) (c : Call) (next : Answer → Script σ α) (f : α → Script σ β) :
    (call s c next).bind f = call s c fun a => (next a).bind f := rfl

@[simp] theorem bind_done (x : Script σ α) : x.bind done = x := by
  induction x with
  | done a => rfl
  | warn w next ih => simp [ih]
  | call s c next ih => simp [ih]

theorem bind_assoc (x : Script σ α) (f : α → Script σ β) (g : β → Script σ γ) :
    (x.bind f).bind g = x.bind fun a => (f a).bind g := by
  induction x with
  | done a => rfl
  | warn w next ih => simp [ih]
  | call s c next ih => simp [ih]

instance : LawfulMonad (Script σ) :=
  LawfulMonad.mk' _ (fun x => bind_done x) (fun _ _ => rfl) bind_assoc

end Script

/-- A bus with a state of type `β`. -/
structure Bus (β : Type) where
  /-- Answers a call. -/
  call : Call → β → Answer × β
  /-- Puts a warning on record. -/
  warn : Warning → β → β

namespace Script

variable {σ α β γ : Type}

/-- Carries a script out on a bus. -/
def run (bus : Bus β) : Script σ α → β → α × β
  | done a, b => (a, b)
  | warn w next, b => next.run bus (bus.warn w b)
  | call _ c next, b => (next (bus.call c b).1).run bus (bus.call c b).2

end Script
end GattServer
