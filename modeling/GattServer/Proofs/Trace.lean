/-
# Traces of scripts

A script leaves the answers to its calls open.  A trace settles them: it is the list of the calls
that were made, each with the state it was made in and the answer it got, together with the end
that the script comes to (`Script.Trace`).  Every list of answers is that of one trace at most
(`Script.Trace.unique`), and whatever a bus makes of a script is one of its traces
(`Script.trace_record`), so what holds of all traces holds on every bus.

`Application.Performs` is the trace of an operation from a state on.  A sequence of operations
performs as one after the other (`Application.performs_bind`); the lemmas for the primitive ones
say what each of them can do.
-/

import GattServer.Application.Operation
import Mathlib.Data.List.Basic

namespace GattServer

/-- Of two places in a list, one is behind the other, or they are the same. -/
theorem split_cases {α : Type} {xs ys us vs : List α} {x u : α}
    (h : xs ++ x :: ys = us ++ u :: vs) :
    (xs = us ∧ x = u ∧ ys = vs) ∨ (x ∈ us ∧ u ∈ ys) ∨ (u ∈ xs ∧ x ∈ vs) := by
  rcases List.append_eq_append_iff.1 h with ⟨more, rfl, hmore⟩ | ⟨more, rfl, hmore⟩
  · obtain _ | ⟨z, more⟩ := more
    · obtain ⟨rfl, rfl⟩ := List.cons.inj hmore
      exact Or.inl ⟨(List.append_nil xs).symm, rfl, rfl⟩
    · obtain ⟨rfl, rfl⟩ := List.cons.inj hmore
      exact Or.inr (Or.inl ⟨by simp, by simp⟩)
  · obtain _ | ⟨z, more⟩ := more
    · obtain ⟨rfl, rfl⟩ := List.cons.inj hmore
      exact Or.inl ⟨List.append_nil us, rfl, rfl⟩
    · obtain ⟨rfl, rfl⟩ := List.cons.inj hmore
      exact Or.inr (Or.inr ⟨by simp, by simp⟩)

/-- A call that was made in a state, and its answer. -/
structure Exchange (σ : Type) where
  /-- The state of the application at the call. -/
  state : σ
  /-- The call. -/
  call : Call
  /-- What was answered. -/
  answer : Answer

namespace Exchange

variable {σ : Type}

/-- What was asked in which state, whatever was answered. -/
def question (e : Exchange σ) : σ × Call := (e.state, e.call)

/-- Whether the call was carried out. -/
def Succeeded (e : Exchange σ) : Prop := e.answer = .ok ()

instance (e : Exchange σ) : Decidable e.Succeeded :=
  inferInstanceAs (Decidable (e.answer = .ok ()))

end Exchange

namespace Script

variable {σ α β γ : Type}

/-- A script can go through the exchanges of a list and end with a value. -/
inductive Trace : Script σ α → List (Exchange σ) → α → Prop where
  | done (a : α) : Trace (.done a) [] a
  | warn {w : Warning} {next : Script σ α} {t : List (Exchange σ)} {a : α} (rest : Trace next t a) :
    Trace (.warn w next) t a
  | call {s : σ} {c : Call} {next : Answer → Script σ α} {t : List (Exchange σ)} {a : α}
    (answer : Answer) (rest : Trace (next answer) t a) :
    Trace (.call s c next) (⟨s, c, answer⟩ :: t) a

@[simp] theorem trace_done {a b : α} {t : List (Exchange σ)} :
    (done a).Trace t b ↔ t = [] ∧ b = a := by
  constructor
  · rintro ⟨⟩
    exact ⟨rfl, rfl⟩
  · rintro ⟨rfl, rfl⟩
    exact .done _

@[simp] theorem trace_warn {w : Warning} {next : Script σ α} {t : List (Exchange σ)} {a : α} :
    (warn w next).Trace t a ↔ next.Trace t a :=
  ⟨fun | .warn h => h, .warn⟩

@[simp] theorem trace_call {s : σ} {c : Call} {next : Answer → Script σ α} {t : List (Exchange σ)}
    {a : α} :
    (call s c next).Trace t a ↔
      ∃ answer rest, t = ⟨s, c, answer⟩ :: rest ∧ (next answer).Trace rest a := by
  constructor
  · rintro ⟨⟩
    exact ⟨_, _, rfl, ‹_›⟩
  · rintro ⟨answer, rest, rfl, h⟩
    exact .call answer h

/-- **Composed scripts go through the exchanges of one after those of the other.** -/
theorem trace_bind {x : Script σ α} {f : α → Script σ β} {t : List (Exchange σ)} {b : β} :
    (x.bind f).Trace t b ↔ ∃ a t₁ t₂, t = t₁ ++ t₂ ∧ x.Trace t₁ a ∧ (f a).Trace t₂ b := by
  induction x generalizing t with
  | done a => simp
  | warn w next ih => simp [ih]
  | call s c next ih =>
    simp only [call_bind, trace_call, ih]
    constructor
    · rintro ⟨answer, _, rfl, a, t₁, t₂, rfl, h₁, h₂⟩
      exact ⟨a, _ :: t₁, t₂, rfl, ⟨answer, t₁, rfl, h₁⟩, h₂⟩
    · rintro ⟨a, _, t₂, rfl, ⟨answer, t₁, rfl, h₁⟩, h₂⟩
      exact ⟨answer, t₁ ++ t₂, rfl, a, t₁, t₂, rfl, h₁, h₂⟩

/-- **The answers decide a trace**, and so do answers of which it takes the first ones. -/
theorem Trace.unique {x : Script σ α} {t u : List (Exchange σ)} {a b : α} {more more' : List Answer}
    (h : x.Trace t a) (h' : x.Trace u b)
    (answers : t.map Exchange.answer ++ more = u.map Exchange.answer ++ more') :
    t = u ∧ a = b := by
  induction h generalizing u with
  | done a =>
    obtain ⟨rfl, rfl⟩ := trace_done.1 h'
    exact ⟨rfl, rfl⟩
  | warn rest ih => exact ih (trace_warn.1 h') answers
  | call answer rest ih =>
    obtain ⟨answer', u, rfl, hrest⟩ := trace_call.1 h'
    obtain ⟨hanswer, hanswers⟩ := List.cons.inj answers
    obtain rfl : answer = answer' := hanswer
    obtain ⟨rfl, rfl⟩ := ih hrest hanswers
    exact ⟨rfl, rfl⟩

/-- Carries a script out on a bus and records its exchanges. -/
def record (bus : Bus β) : Script σ α → β → List (Exchange σ) × α × β
  | done a, b => ([], a, b)
  | warn w next, b => next.record bus (bus.warn w b)
  | call s c next, b =>
    let answer := (bus.call c b).1
    let rest := (next answer).record bus (bus.call c b).2
    (⟨s, c, answer⟩ :: rest.1, rest.2)

/-- Recording does not change the outcome. -/
theorem record_snd (bus : Bus β) (x : Script σ α) (b : β) : (x.record bus b).2 = x.run bus b := by
  induction x generalizing b with
  | done a => rfl
  | warn w next ih => exact ih _
  | call s c next ih => exact ih _ _

/-- **What a bus makes of a script is one of its traces.** -/
theorem trace_record (bus : Bus β) (x : Script σ α) (b : β) :
    x.Trace (x.record bus b).1 (x.run bus b).1 := by
  induction x generalizing b with
  | done a => exact .done a
  | warn w next ih => exact .warn (ih _)
  | call s c next ih => exact .call _ (ih _ _)

end Script

namespace Application

variable {α β : Type} {app app' : Application} {t : List (Exchange Application)}

/-- An operation from a state on can go through the exchanges of a list, end with an outcome and
leave the application in another state. -/
def Performs (app : Application) (op : Operation α) (t : List (Exchange Application))
    (r : Except Error α) (app' : Application) : Prop :=
  (app.script op).Trace t (r, app')

@[simp] theorem performs_pure {a : α} {r : Except Error α} :
    app.Performs (pure a) t r app' ↔ t = [] ∧ r = .ok a ∧ app' = app := by
  simp [Performs]

@[simp] theorem performs_throw {e : Error} {r : Except Error α} :
    app.Performs (throw e) t r app' ↔ t = [] ∧ r = .error e ∧ app' = app := by
  simp [Performs]

/-- **A sequence of operations performs as one after the other**, and ends at the first error. -/
theorem performs_bind {x : Operation α} {f : α → Operation β} {r : Except Error β} :
    app.Performs (x >>= f) t r app' ↔
      (∃ a t₁ t₂ mid, t = t₁ ++ t₂ ∧ app.Performs x t₁ (.ok a) mid ∧
        mid.Performs (f a) t₂ r app') ∨
      ∃ e, app.Performs x t (.error e) app' ∧ r = .error e := by
  rw [Performs, script_bind, Script.trace_bind]
  constructor
  · rintro ⟨⟨_ | a, mid⟩, t₁, t₂, rfl, h₁, h₂⟩
    · obtain ⟨rfl, h⟩ := Script.trace_done.1 h₂
      cases h
      exact Or.inr ⟨_, by rwa [List.append_nil], rfl⟩
    · exact Or.inl ⟨a, t₁, t₂, mid, rfl, h₁, h₂⟩
  · rintro (⟨a, t₁, t₂, mid, rfl, h₁, h₂⟩ | ⟨e, h, rfl⟩)
    · exact ⟨(.ok a, mid), t₁, t₂, rfl, h₁, h₂⟩
    · exact ⟨(.error e, app'), t, [], by simp, h, by simp⟩

@[simp] theorem performs_get_bind {f : Application → Operation β} {r : Except Error β} :
    app.Performs (get >>= f) t r app' ↔ app.Performs (f app) t r app' := by
  simp only [Performs, script_bind, script_get, Script.done_bind]

@[simp] theorem performs_set_bind {new : Application} {f : PUnit → Operation β}
    {r : Except Error β} :
    app.Performs (set new >>= f) t r app' ↔ new.Performs (f ⟨⟩) t r app' := by
  simp only [Performs, script_bind, script_set, Script.done_bind]

@[simp] theorem performs_modify_bind {g : Application → Application} {f : PUnit → Operation β}
    {r : Except Error β} :
    app.Performs (modify g >>= f) t r app' ↔ (g app).Performs (f ⟨⟩) t r app' := by
  simp only [Performs, script_bind, script_modify, Script.done_bind]

@[simp] theorem performs_set {new : Application} {r : Except Error PUnit} :
    app.Performs (set new) t r app' ↔ t = [] ∧ r = .ok ⟨⟩ ∧ app' = new := by
  simp [Performs]

theorem performs_attempt_bind {c : Call} {f : Answer → Operation β} {r : Except Error β} :
    app.Performs (attempt c >>= f) t r app' ↔
      ∃ answer rest, t = ⟨app, c, answer⟩ :: rest ∧ app.Performs (f answer) rest r app' := by
  simp only [Performs, script_bind, script_attempt, Script.call_bind, Script.done_bind,
    Script.trace_call]

@[simp] theorem performs_ask {c : Call} {r : Answer} :
    app.Performs (ask c) t r app' ↔ t = [⟨app, c, r⟩] ∧ app' = app := by
  simp [Performs]

/-- An operation goes on after a call that succeeds, and ends with one that fails. -/
theorem performs_ask_bind {c : Call} {f : Unit → Operation β} {r : Except Error β} :
    app.Performs (ask c >>= f) t r app' ↔
      (∃ rest, t = ⟨app, c, .ok ()⟩ :: rest ∧ app.Performs (f ()) rest r app') ∨
      ∃ e, t = [⟨app, c, .error e⟩] ∧ r = .error e ∧ app' = app := by
  rw [performs_bind]
  constructor
  · rintro (⟨_, t₁, t₂, mid, rfl, h₁, h₂⟩ | ⟨e, h, rfl⟩)
    · obtain ⟨rfl, rfl⟩ := performs_ask.1 h₁
      exact Or.inl ⟨t₂, rfl, h₂⟩
    · obtain ⟨rfl, rfl⟩ := performs_ask.1 h
      exact Or.inr ⟨e, rfl, rfl, rfl⟩
  · rintro (⟨rest, rfl, h⟩ | ⟨e, rfl, rfl, rfl⟩)
    · exact Or.inl ⟨(), [_], rest, app, rfl, performs_ask.2 ⟨rfl, rfl⟩, h⟩
    · exact Or.inr ⟨e, performs_ask.2 ⟨rfl, rfl⟩, rfl⟩

/-- Warnings are not calls. -/
@[simp] theorem performs_record_bind {w : Warning} {f : Unit → Operation β} {r : Except Error β} :
    app.Performs (record w >>= f) t r app' ↔ app.Performs (f ()) t r app' := by
  simp only [Performs, script_bind, script_record, Script.warn_bind, Script.done_bind,
    Script.trace_warn]

/-- Withdrawing an object is one call, whose failure is passed over. -/
@[simp] theorem performs_withdraw {path : ObjectPath} {kind : ObjectKind} {r : Answer} :
    app.Performs (withdraw path kind) t r app' ↔
      ∃ answer, t = [⟨app, .withdrawObject path kind, answer⟩] ∧ r = .ok () ∧ app' = app := by
  rw [Performs, script_withdraw, Script.trace_call]
  constructor
  · rintro ⟨_ | _, rest, rfl, h⟩
    · obtain ⟨rfl, hend⟩ := Script.trace_done.1 (Script.trace_warn.1 h)
      exact ⟨_, rfl, Prod.mk.inj hend⟩
    · obtain ⟨rfl, hend⟩ := Script.trace_done.1 h
      exact ⟨_, rfl, Prod.mk.inj hend⟩
  · rintro ⟨answer, rfl, rfl, rfl⟩
    cases answer with
    | ok => exact ⟨_, [], rfl, .done _⟩
    | error => exact ⟨_, [], rfl, .warn (.done _)⟩

theorem performs_publishTree {r : Answer} :
    app.Performs publishTree t r app' ↔ t = [⟨app, .publishTree app.path app.tree, r⟩] ∧
      app' = app := by
  rw [publishTree, performs_get_bind, performs_ask]

/-! ### Loops -/

/-- A step taken for each element of a list, one after the other, none of them failing. -/
inductive Passes (f : α → Operation Unit) :
    Application → List α → List (Exchange Application) → Application → Prop where
  | nil {app : Application} : Passes f app [] [] app
  | cons {app mid app' : Application} {x : α} {xs : List α} {t u : List (Exchange Application)}
    (first : app.Performs (f x) t (.ok ()) mid) (rest : Passes f mid xs u app') :
    Passes f app (x :: xs) (t ++ u) app'

/-- **A loop takes every step, or all steps up to the first one that fails.** -/
theorem performs_forM {f : α → Operation Unit} {xs : List α} {r : Answer}
    (h : app.Performs (xs.forM f) t r app') :
    (r = .ok () ∧ Passes f app xs t app') ∨
      ∃ done x rest mid t₁ t₂ e, xs = done ++ x :: rest ∧ t = t₁ ++ t₂ ∧ r = .error e ∧
        Passes f app done t₁ mid ∧ mid.Performs (f x) t₂ (.error e) app' := by
  induction xs generalizing app t with
  | nil =>
    obtain ⟨rfl, rfl, rfl⟩ := performs_pure.1 h
    exact Or.inl ⟨rfl, .nil⟩
  | cons x xs ih =>
    replace h : app.Performs (f x >>= fun _ => xs.forM f) t r app' := h
    rw [performs_bind] at h
    rcases h with ⟨_, t₁, t₂, mid, rfl, h₁, h₂⟩ | ⟨e, h, rfl⟩
    · rcases ih h₂ with ⟨rfl, h⟩ | ⟨done, y, rest, mid', u₁, u₂, e, rfl, rfl, rfl, hdone, hy⟩
      · exact Or.inl ⟨rfl, .cons h₁ h⟩
      · exact Or.inr ⟨x :: done, y, rest, mid', t₁ ++ u₁, u₂, e, rfl,
          (List.append_assoc ..).symm, rfl, .cons h₁ hdone, hy⟩
    · exact Or.inr ⟨[], x, xs, app, [], t, e, rfl, rfl, rfl, .nil, h⟩

end Application
end GattServer
