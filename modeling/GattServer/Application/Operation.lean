/-
# Operations of applications

An operation changes an application step by step and makes calls on the bus in between.  It ends
with a value or an error, and a step that was taken before an error stays taken.

Operations are composed of a few primitive ones.  `Application.script` gives the script of an
operation from a state on, and the lemmas below give it for each primitive and for a sequence of
operations, so that the script of any operation can be read off its text.
-/

import GattServer.Application.Basic
import GattServer.Bus.Script

namespace GattServer

/-- An operation of an application: it makes calls on the bus, changes the application, and ends
with an `α` or an error. -/
abbrev Operation (α : Type) := ExceptT Error (StateT Application (Script Application)) α

namespace Application

variable {α β : Type}

/-- The script of an operation from a state on: it ends with the outcome and the new state. -/
def script (app : Application) (op : Operation α) :
    Script Application (Except Error α × Application) :=
  (ExceptT.run op).run app

/-! ### Primitive operations -/

/-- Makes a call and hands on the answer. -/
def attempt (c : Call) : Operation Answer :=
  ExceptT.mk fun app => .call app c fun answer => .done (.ok answer, app)

/-- Makes a call; an error ends the operation. -/
def ask (c : Call) : Operation Unit := do
  match ← attempt c with
  | .ok () => pure ()
  | .error e => throw e

/-- Puts a warning on record. -/
def record (w : Warning) : Operation Unit :=
  ExceptT.mk fun app => .warn w (.done (.ok (), app))

/-- Withdraws an object.  A failure is put on record and does not end the operation. -/
def withdraw (path : ObjectPath) (kind : ObjectKind) : Operation Unit := do
  match ← attempt (.withdrawObject path kind) with
  | .ok () => pure ()
  | .error e => record (.notWithdrawn path e)

/-- Publishes the description of the live tree. -/
def publishTree : Operation Unit := do
  let app ← get
  ask (.publishTree app.path app.tree)

/-! ### Their scripts -/

@[simp] theorem script_pure (app : Application) (a : α) :
    app.script (pure a) = .done (.ok a, app) := rfl

@[simp] theorem script_throw (app : Application) (e : Error) :
    app.script (throw e : Operation α) = .done (.error e, app) := rfl

@[simp] theorem script_get (app : Application) : app.script get = .done (.ok app, app) := rfl

@[simp] theorem script_set (app new : Application) :
    app.script (set new) = .done (.ok (), new) := rfl

@[simp] theorem script_modify (app : Application) (f : Application → Application) :
    app.script (modify f) = .done (.ok (), f app) := rfl

@[simp] theorem script_attempt (app : Application) (c : Call) :
    app.script (attempt c) = .call app c fun answer => .done (.ok answer, app) := rfl

@[simp] theorem script_record (app : Application) (w : Warning) :
    app.script (record w) = .warn w (.done (.ok (), app)) := rfl

/-- **A sequence of operations ends at the first error.** -/
@[simp] theorem script_bind (app : Application) (x : Operation α) (f : α → Operation β) :
    app.script (x >>= f) = (app.script x).bind fun r =>
      match r.1 with
      | .ok a => r.2.script (f a)
      | .error e => .done (.error e, r.2) := by
  show Script.bind (app.script x) _ = _
  congr 1
  funext ⟨r, app⟩
  cases r <;> rfl

@[simp] theorem script_ask (app : Application) (c : Call) :
    app.script (ask c) = .call app c fun answer => .done (answer, app) := by
  simp only [ask, script_bind, script_attempt, Script.call_bind, Script.done_bind]
  congr 1
  funext answer
  cases answer <;> rfl

@[simp] theorem script_withdraw (app : Application) (path : ObjectPath) (kind : ObjectKind) :
    app.script (withdraw path kind) = .call app (.withdrawObject path kind) fun
      | .ok () => .done (.ok (), app)
      | .error e => .warn (.notWithdrawn path e) (.done (.ok (), app)) := by
  simp only [withdraw, script_bind, script_attempt, Script.call_bind, Script.done_bind]
  congr 1
  funext answer
  cases answer <;> rfl

@[simp] theorem script_publishTree (app : Application) :
    app.script publishTree =
      .call app (.publishTree app.path app.tree) fun answer => .done (answer, app) := by
  simp [publishTree]

end Application
end GattServer
