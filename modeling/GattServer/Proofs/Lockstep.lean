/-
# Operations in lockstep

Two scripts run in lockstep if they make their calls one for one, each call related to the other,
and go on in lockstep whatever is answered, until they end in related values (`Script.Alike`).  So
an operation that follows another one in lockstep, from a related state, has a trace for each of its
traces, with the same answers (`Script.Alike.trace`).

`Application.Parallel` is this for operations; it is shown along their text, primitive by primitive.
-/

import GattServer.Proofs.Trace

namespace GattServer

namespace Script

variable {σ α β γ δ : Type} {C : Call → Call → Prop} {R : α → β → Prop} {S : γ → δ → Prop}

/-- Two scripts make related calls in the same order, whatever is answered, and end in related
values. -/
inductive Alike (C : Call → Call → Prop) (R : α → β → Prop) : Script σ α → Script σ β → Prop where
  | done {a : α} {b : β} (h : R a b) : Alike C R (.done a) (.done b)
  | warn {v w : Warning} {x : Script σ α} {y : Script σ β} (next : Alike C R x y) :
    Alike C R (.warn v x) (.warn w y)
  | call {s s' : σ} {c c' : Call} {x : Answer → Script σ α} {y : Answer → Script σ β} (h : C c c')
    (next : ∀ answer, Alike C R (x answer) (y answer)) : Alike C R (.call s c x) (.call s' c' y)

/-- Two exchanges with related calls and the same answer. -/
def SameAnswer (C : Call → Call → Prop) (e f : Exchange σ) : Prop :=
  C e.call f.call ∧ e.answer = f.answer

theorem map_answer_eq {t u : List (Exchange σ)} (h : List.Forall₂ (SameAnswer C) t u) :
    t.map Exchange.answer = u.map Exchange.answer := by
  induction h with
  | nil => rfl
  | cons first rest ih => rw [List.map_cons, List.map_cons, first.2, ih]

theorem Alike.bind {x : Script σ α} {y : Script σ β} {f : α → Script σ γ} {g : β → Script σ δ}
    (h : x.Alike C R y) (hnext : ∀ a b, R a b → (f a).Alike C S (g b)) :
    (x.bind f).Alike C S (y.bind g) := by
  induction h with
  | done h => exact hnext _ _ h
  | warn next ih => exact .warn ih
  | call h next ih => exact .call h ih

/-- **Each trace of one script is followed by the other**, with the same answers. -/
theorem Alike.trace {x : Script σ α} {y : Script σ β} {t : List (Exchange σ)} {a : α}
    (h : x.Alike C R y) (ht : x.Trace t a) :
    ∃ u b, y.Trace u b ∧ R a b ∧ List.Forall₂ (SameAnswer C) t u := by
  induction h generalizing t with
  | done h =>
    obtain ⟨rfl, rfl⟩ := trace_done.1 ht
    exact ⟨[], _, .done _, h, .nil⟩
  | warn next ih =>
    obtain ⟨u, b, hu, hab, hall⟩ := ih (trace_warn.1 ht)
    exact ⟨u, b, .warn hu, hab, hall⟩
  | call h next ih =>
    obtain ⟨answer, rest, rfl, hrest⟩ := trace_call.1 ht
    obtain ⟨u, b, hu, hab, hall⟩ := ih answer hrest
    exact ⟨_ :: u, b, .call answer hu, hab, .cons ⟨h, rfl⟩ hall⟩

end Script

namespace Application

variable {α β : Type} {C : Call → Call → Prop} {R : Application → Application → Prop}
  {app app' : Application}

/-- Two operations run in lockstep from two states: they make related calls, and end alike in
related states. -/
def Parallel (C : Call → Call → Prop) (R : Application → Application → Prop)
    (app app' : Application) (x y : Operation α) : Prop :=
  (app.script x).Alike C (fun r r' => r.1 = r'.1 ∧ R r.2 r'.2) (app'.script y)

theorem parallel_pure (a : α) (h : R app app') : Parallel C R app app' (pure a) (pure a) := by
  rw [Parallel, script_pure, script_pure]
  exact .done ⟨rfl, h⟩

theorem parallel_throw (e : Error) (h : R app app') :
    Parallel C R app app' (throw e : Operation α) (throw e) := by
  rw [Parallel, script_throw, script_throw]
  exact .done ⟨rfl, h⟩

/-- **Sequences run in lockstep if their parts do.**  The second part may need more of the states
than remains in the end. -/
theorem Parallel.bind_of {R' : Application → Application → Prop} {x y : Operation α}
    {f g : α → Operation β} (h : Parallel C R' app app' x y)
    (hweaken : ∀ mid mid', R' mid mid' → R mid mid')
    (hnext : ∀ a mid mid', R' mid mid' → Parallel C R mid mid' (f a) (g a)) :
    Parallel C R app app' (x >>= f) (y >>= g) := by
  rw [Parallel, script_bind, script_bind]
  refine Script.Alike.bind h ?_
  rintro ⟨r, mid⟩ ⟨r', mid'⟩ ⟨rfl, hmid⟩
  cases r with
  | ok a => exact hnext a mid mid' hmid
  | error e => exact .done ⟨rfl, hweaken mid mid' hmid⟩

theorem Parallel.bind {x y : Operation α} {f g : α → Operation β} (h : Parallel C R app app' x y)
    (hnext : ∀ a mid mid', R mid mid' → Parallel C R mid mid' (f a) (g a)) :
    Parallel C R app app' (x >>= f) (y >>= g) :=
  h.bind_of (fun _ _ hmid => hmid) hnext

theorem parallel_get_bind {f g : Application → Operation β}
    (h : Parallel C R app app' (f app) (g app')) :
    Parallel C R app app' (get >>= f) (get >>= g) := by
  rw [Parallel, script_bind, script_bind]
  exact h

theorem parallel_set_bind {new new' : Application} {f g : PUnit → Operation β}
    (h : Parallel C R new new' (f ⟨⟩) (g ⟨⟩)) :
    Parallel C R app app' (set new >>= f) (set new' >>= g) := by
  rw [Parallel, script_bind, script_bind]
  exact h

theorem parallel_modify_bind {m m' : Application → Application} {f g : PUnit → Operation β}
    (h : Parallel C R (m app) (m' app') (f ⟨⟩) (g ⟨⟩)) :
    Parallel C R app app' (modify m >>= f) (modify m' >>= g) := by
  rw [Parallel, script_bind, script_bind]
  exact h

theorem parallel_attempt_bind {c c' : Call} {f g : Answer → Operation β} (hc : C c c')
    (h : ∀ answer, Parallel C R app app' (f answer) (g answer)) :
    Parallel C R app app' (attempt c >>= f) (attempt c' >>= g) := by
  rw [Parallel, script_bind, script_bind]
  exact .call hc h

theorem parallel_ask {c c' : Call} (hc : C c c') (h : R app app') :
    Parallel C R app app' (ask c) (ask c') := by
  rw [Parallel, script_ask, script_ask]
  exact .call hc fun answer => .done ⟨rfl, h⟩

theorem parallel_withdraw {path : ObjectPath} {kind : ObjectKind}
    (hc : C (.withdrawObject path kind) (.withdrawObject path kind)) (h : R app app') :
    Parallel C R app app' (withdraw path kind) (withdraw path kind) := by
  rw [Parallel, script_withdraw, script_withdraw]
  refine .call hc fun answer => ?_
  cases answer with
  | ok => exact .done ⟨rfl, h⟩
  | error e => exact .warn (.done ⟨rfl, h⟩)

theorem parallel_forM {xs : List α} {f g : α → Operation Unit}
    (hstep : ∀ x ∈ xs, ∀ mid mid', R mid mid' → Parallel C R mid mid' (f x) (g x))
    (h : R app app') : Parallel C R app app' (xs.forM f) (xs.forM g) := by
  induction xs generalizing app app' with
  | nil => exact parallel_pure _ h
  | cons x xs ih =>
    refine Parallel.bind (hstep x List.mem_cons_self app app' h) fun _ mid mid' hmid => ?_
    exact ih (fun y hy => hstep y (List.mem_cons_of_mem _ hy)) hmid

/-- **An operation in lockstep with another one performs as that does**, with the same answers. -/
theorem Parallel.performs {x y : Operation α} {t : List (Exchange Application)}
    {r : Except Error α} {last : Application} (h : Parallel C R app app' x y)
    (performs : app.Performs x t r last) :
    ∃ u last', app'.Performs y u r last' ∧ R last last' ∧
      List.Forall₂ (Script.SameAnswer C) t u := by
  obtain ⟨u, ⟨r', last'⟩, hu, ⟨hr, hlast⟩, hall⟩ := Script.Alike.trace h performs
  obtain rfl : r = r' := hr
  exact ⟨u, last', hu, hlast, hall⟩

end Application
end GattServer
