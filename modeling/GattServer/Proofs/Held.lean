/-
# What a bus holds

An export that succeeds adds an object to those a bus holds, and a withdrawal that succeeds takes
it away again; an object is known by its path and kind.  So the exchanges of an application tell
what the bus holds of it (`held`), and whether the bus never held two objects of one kind at one
path (`Refusing`).

An object that no exchange moves stays as it is (`mem_held_of_unmoved`).  Exporting nodes adds
them (`mem_held_exporting`), and a bus that refuses held no such node before
(`notMem_of_refusing_exporting`); withdrawing them takes them away (`mem_held_withdrawing`).
-/

import GattServer.Proofs.Course.Publication
import Mathlib.Data.Finset.Basic

namespace GattServer

/-- The objects that a bus holds, each by its path and kind. -/
abbrev Held := Finset (ObjectPath × ObjectKind)

/-- The object that a call exports or withdraws. -/
def Call.object? : Call → Option (ObjectPath × ObjectKind)
  | .exportObject path object => some (path, object.kind)
  | .withdrawObject path kind => some (path, kind)
  | _ => none

/-- The kinds of objects that are nodes of services. -/
def ObjectKind.isNode : ObjectKind → Bool
  | .service | .characteristic | .descriptor => true
  | .objectManager | .advertisement => false

theorem Node.isNode_kind (n : Node) : n.kind.isNode = true := by
  cases n <;> rfl

/-- A node as an object on the bus. -/
def Node.pair (n : Node) : ObjectPath × ObjectKind := (n.path, n.kind)

theorem Node.object?_exported (app : AppId) (n : Node) :
    (n.exported app).object? = some n.pair := by
  cases n <;> rfl

theorem Node.object?_withdrawn (n : Node) : n.withdrawn.object? = some n.pair := rfl

namespace Exchange

variable {σ : Type} {e : Exchange σ} {H : Held}

/-- What the bus holds after an exchange: a call that fails is not carried out. -/
def after (e : Exchange σ) (H : Held) : Held :=
  match e.call, e.answer with
  | .exportObject path object, .ok () => insert (path, object.kind) H
  | .withdrawObject path kind, .ok () => H.erase (path, kind)
  | _, _ => H

/-- The object that an exchange adds or takes away. -/
def moved? (e : Exchange σ) : Option (ObjectPath × ObjectKind) :=
  match e.answer with
  | .ok () => e.call.object?
  | .error _ => none

/-- An export that succeeds is one of an object that the bus did not hold. -/
def Accepted (e : Exchange σ) (H : Held) : Prop :=
  match e.call, e.answer with
  | .exportObject path object, .ok () => (path, object.kind) ∉ H
  | _, _ => True

instance (e : Exchange σ) (H : Held) : Decidable (e.Accepted H) := by
  unfold Accepted
  split <;> infer_instance

theorem moved?_of_failed {e' : Error} (h : e.answer = .error e') : e.moved? = none := by
  rw [moved?, h]

/-- An exchange moves nothing but what its call is about if it succeeds. -/
theorem moved?_ne {x : ObjectPath × ObjectKind}
    (h : e.answer = .ok () → e.call.object? ≠ some x) : e.moved? ≠ some x := by
  cases hanswer : e.answer with
  | ok =>
    rw [moved?, hanswer]
    exact h hanswer
  | error cause =>
    rw [moved?_of_failed hanswer]
    exact nofun

theorem moved?_of_object?_eq_none (h : e.call.object? = none) : e.moved? = none := by
  unfold moved?
  split
  · exact h
  · rfl

theorem object?_of_moved? {x : ObjectPath × ObjectKind} (h : e.moved? = some x) :
    e.call.object? = some x := by
  unfold moved? at h
  split at h
  · exact h
  · cases h

theorem after_of_moved?_eq_none (h : e.moved? = none) : e.after H = H := by
  obtain ⟨s, c, answer⟩ := e
  cases c <;> cases answer <;> first | rfl | cases h

theorem mem_after_of_moved?_ne {x : ObjectPath × ObjectKind} (h : e.moved? ≠ some x) :
    x ∈ e.after H ↔ x ∈ H := by
  obtain ⟨s, c, answer⟩ := e
  cases c <;> cases answer <;> try exact Iff.rfl
  · rename_i path object _
    have hx : x ≠ (path, object.kind) := fun hx => h (congrArg some hx.symm)
    simp [after, hx]
  · rename_i path kind _
    have hx : x ≠ (path, kind) := fun hx => h (congrArg some hx.symm)
    simp [after, hx]

end Exchange

variable {σ : Type} {t u : List (Exchange σ)} {H : Held} {x : ObjectPath × ObjectKind}

/-- What the bus holds after some exchanges. -/
def held (H : Held) (t : List (Exchange σ)) : Held := t.foldl (fun H e => e.after H) H

/-- No exchange exports an object that the bus holds. -/
def Refusing : Held → List (Exchange σ) → Prop
  | _, [] => True
  | H, e :: t => e.Accepted H ∧ Refusing (e.after H) t

instance Refusing.decidable : (H : Held) → (t : List (Exchange σ)) → Decidable (Refusing H t)
  | _, [] => .isTrue trivial
  | H, e :: t =>
    have := Refusing.decidable (e.after H) t
    inferInstanceAs (Decidable (e.Accepted H ∧ Refusing (e.after H) t))

@[simp] theorem held_nil : held H ([] : List (Exchange σ)) = H := rfl

@[simp] theorem held_cons (e : Exchange σ) : held H (e :: t) = held (e.after H) t := rfl

@[simp] theorem held_append : held H (t ++ u) = held (held H t) u := List.foldl_append

@[simp] theorem refusing_cons (e : Exchange σ) :
    Refusing H (e :: t) ↔ e.Accepted H ∧ Refusing (e.after H) t := Iff.rfl

theorem refusing_append : Refusing H (t ++ u) ↔ Refusing H t ∧ Refusing (held H t) u := by
  induction t generalizing H with
  | nil => simp [Refusing]
  | cons e t ih => simp [ih, and_assoc]

/-- Exchanges that move no object leave the objects alone. -/
theorem held_of_unmoved (h : ∀ e ∈ t, e.moved? = none) : held H t = H := by
  induction t generalizing H with
  | nil => rfl
  | cons e t ih =>
    rw [held_cons, Exchange.after_of_moved?_eq_none (h e List.mem_cons_self)]
    exact ih fun e he => h e (List.mem_cons_of_mem _ he)

/-- **An object that no exchange moves stays as it is.** -/
theorem mem_held_of_unmoved (h : ∀ e ∈ t, e.moved? ≠ some x) : x ∈ held H t ↔ x ∈ H := by
  induction t generalizing H with
  | nil => rfl
  | cons e t ih =>
    rw [held_cons, ih fun e he => h e (List.mem_cons_of_mem _ he)]
    exact Exchange.mem_after_of_moved?_ne (h e List.mem_cons_self)

/-- Something holds at every moment of some exchanges: before each call is carried out, and
after. -/
def Throughout (I : σ → Held → Prop) (H : Held) (t : List (Exchange σ)) : Prop :=
  ∀ before e after, t = before ++ e :: after →
    I e.state (held H before) ∧ I e.state (held H (before ++ [e]))

theorem throughout_nil {I : σ → Held → Prop} : Throughout I H [] := by
  intro before e after h
  simp at h

theorem Throughout.append {I : σ → Held → Prop} (h : Throughout I H t)
    (h' : Throughout I (held H t) u) : Throughout I H (t ++ u) := by
  intro before e after hsplit
  rcases List.append_eq_append_iff.1 hsplit with ⟨more, rfl, hu⟩ | ⟨more, ht, hafter⟩
  · rw [List.append_assoc, held_append, held_append]
    exact h' more e after hu
  · obtain _ | ⟨first, rest⟩ := more
    · rw [List.append_nil] at ht
      subst ht
      rw [held_append]
      exact h' [] e after hafter.symm
    · obtain ⟨rfl, rfl⟩ := List.cons.inj hafter
      exact h before e rest ht

/-- Exchanges that move no object keep what holds of their states. -/
theorem throughout_of_unmoved {I : σ → Held → Prop} (hmoved : ∀ e ∈ t, e.moved? = none)
    (h : ∀ e ∈ t, I e.state H) : Throughout I H t := by
  rintro before e after rfl
  have hbefore : held H before = H :=
    held_of_unmoved fun f hf => hmoved f (List.mem_append_left _ hf)
  have he : e ∈ before ++ e :: after := by simp
  rw [held_append, hbefore, held_cons, held_nil, Exchange.after_of_moved?_eq_none (hmoved e he)]
  exact ⟨h e he, h e he⟩

namespace Application

variable {app : Application} {nodes : List Node} {t : List (Exchange Application)}

/-- **Exporting nodes adds them.** -/
theorem mem_held_exporting :
    x ∈ held H (app.exporting nodes) ↔ x ∈ H ∨ x ∈ nodes.map Node.pair := by
  induction nodes generalizing H with
  | nil => simp [exporting]
  | cons n ns ih =>
    have hafter : (⟨app, n.exported app.id, .ok ()⟩ : Exchange Application).after H =
        insert n.pair H := by
      cases n <;> rfl
    rw [exporting, List.map_cons, held_cons, hafter]
    rw [exporting] at ih
    rw [ih, Finset.mem_insert, List.map_cons, List.mem_cons]
    tauto

/-- **Withdrawing nodes takes them away.** -/
theorem mem_held_withdrawing :
    x ∈ held H (app.withdrawing nodes) ↔ x ∈ H ∧ x ∉ nodes.map Node.pair := by
  induction nodes generalizing H with
  | nil => simp [withdrawing]
  | cons n ns ih =>
    have hafter : (⟨app, n.withdrawn, .ok ()⟩ : Exchange Application).after H =
        H.erase n.pair := rfl
    rw [withdrawing, List.map_cons, held_cons, hafter]
    rw [withdrawing] at ih
    rw [ih, Finset.mem_erase, List.map_cons, List.mem_cons]
    tauto

/-- **A bus that refuses held none of the nodes that could be exported.** -/
theorem notMem_of_refusing_exporting (h : Refusing H (app.exporting nodes)) {n : Node}
    (hn : n ∈ nodes) : n.pair ∉ H := by
  induction nodes generalizing H with
  | nil => cases hn
  | cons m ms ih =>
    have hafter : (⟨app, m.exported app.id, .ok ()⟩ : Exchange Application).after H =
        insert m.pair H := by
      cases m <;> rfl
    have haccepted : (⟨app, m.exported app.id, .ok ()⟩ : Exchange Application).Accepted H →
        m.pair ∉ H := by
      cases m <;> exact fun h => h
    obtain ⟨hm, hms⟩ := h
    rcases List.mem_cons.1 hn with rfl | hn
    · exact haccepted hm
    · rw [hafter] at hms
      exact fun hmem => ih hms hn (Finset.mem_insert_of_mem hmem)

/-- **Exports that are withdrawn again** leave what the bus held, if it held none of them. -/
theorem held_exporting_withdrawing (h : ∀ n ∈ nodes, n.pair ∉ H) :
    held (held H (app.exporting nodes)) (app.withdrawing nodes.reverse) = H := by
  ext x
  rw [mem_held_withdrawing, mem_held_exporting, List.map_reverse, List.mem_reverse]
  constructor
  · rintro ⟨hx | hx, hout⟩
    · exact hx
    · exact absurd hx hout
  · refine fun hx => ⟨Or.inl hx, fun hmem => ?_⟩
    obtain ⟨n, hn, rfl⟩ := List.mem_map.1 hmem
    exact h n hn hx

theorem mem_exporting {e : Exchange Application} (h : e ∈ app.exporting nodes) :
    ∃ n ∈ nodes, e = ⟨app, n.exported app.id, .ok ()⟩ := by
  obtain ⟨n, hn, rfl⟩ := List.mem_map.1 h
  exact ⟨n, hn, rfl⟩

/-- The exchanges of a loop of withdrawals whose answers are left open. -/
theorem mem_of_question {back : List (Exchange Application)} {e : Exchange Application}
    (h : back.map Exchange.question = nodes.map fun n => (app, n.withdrawn)) (he : e ∈ back) :
    e.state = app ∧ ∃ n ∈ nodes, e.call = n.withdrawn := by
  have hquestion := List.mem_map_of_mem (f := Exchange.question) he
  rw [h] at hquestion
  obtain ⟨n, hn, hen⟩ := List.mem_map.1 hquestion
  obtain ⟨hstate, hcall⟩ := Prod.mk.inj hen
  exact ⟨hstate.symm, n, hn, hcall.symm⟩

/-- Withdrawals that all succeed. -/
theorem eq_withdrawing {back : List (Exchange Application)}
    (h : back.map Exchange.question = nodes.map fun n => (app, n.withdrawn))
    (succeeded : ∀ e ∈ back, e.Succeeded) : back = app.withdrawing nodes := by
  induction nodes generalizing back with
  | nil => exact List.map_eq_nil_iff.1 h
  | cons n ns ih =>
    obtain ⟨⟨state, call, answer⟩, back, rfl, hquestion, hback⟩ := List.map_eq_cons_iff.1 h
    obtain ⟨rfl, rfl⟩ := Prod.mk.inj hquestion
    obtain ⟨hfirst, hrest⟩ := List.forall_mem_cons.1 succeeded
    obtain rfl : answer = .ok () := hfirst
    rw [ih hback hrest]
    rfl

theorem mem_withdrawing {e : Exchange Application} (h : e ∈ app.withdrawing nodes) :
    ∃ n ∈ nodes, e = ⟨app, n.withdrawn, .ok ()⟩ := by
  obtain ⟨n, hn, rfl⟩ := List.mem_map.1 h
  exact ⟨n, hn, rfl⟩

/-- The exchanges of a loop of announcements: a state in which some first nodes are entered, and
the announcement of the last of them. -/
theorem mem_announcing {e : Exchange Application} (h : e ∈ app.announcing nodes) :
    ∃ before n after, nodes = before ++ n :: after ∧
      e = ⟨app.enter (before ++ [n]), n.announced app.path, .ok ()⟩ := by
  induction nodes generalizing app with
  | nil => cases h
  | cons n ns ih =>
    rcases List.mem_cons.1 h with rfl | h
    · exact ⟨[], n, ns, rfl, rfl⟩
    · obtain ⟨before, m, after, rfl, rfl⟩ := ih h
      exact ⟨n :: before, m, after, rfl, rfl⟩

/-- The exchanges of a loop of retractions: a state in which some first nodes are taken out, and the
retraction of the last of them. -/
theorem mem_retracting {e : Exchange Application} (h : e ∈ app.retracting nodes) :
    ∃ before n after interfaces, nodes = before ++ n :: after ∧
      e = ⟨app.leave (before ++ [n]), n.retracted app.path interfaces, .ok ()⟩ := by
  induction nodes generalizing app with
  | nil => cases h
  | cons n ns ih =>
    rw [retracting] at h
    cases hd : app.directory.find? n.path with
    | none =>
      rw [hd] at h
      obtain ⟨before, m, after, interfaces, rfl, rfl⟩ := ih h
      refine ⟨n :: before, m, after, interfaces, rfl, ?_⟩
      rw [List.cons_append, leave_cons app n, leave_of_find?_eq_none hd]
    | some interfaces =>
      rw [hd] at h
      rcases List.mem_cons.1 h with rfl | h
      · exact ⟨[], n, ns, interfaces, rfl, rfl⟩
      · obtain ⟨before, m, after, interfaces', rfl, rfl⟩ := ih h
        exact ⟨n :: before, m, after, interfaces', rfl, rfl⟩

theorem object?_of_mem_announcing {e : Exchange Application} (h : e ∈ app.announcing nodes) :
    e.call.object? = none := by
  obtain ⟨before, n, after, -, rfl⟩ := mem_announcing h
  rfl

theorem object?_of_mem_retracting {e : Exchange Application} (h : e ∈ app.retracting nodes) :
    e.call.object? = none := by
  obtain ⟨before, n, after, interfaces, -, rfl⟩ := mem_retracting h
  rfl

theorem held_announcing : held H (app.announcing nodes) = H :=
  held_of_unmoved fun _ he => Exchange.moved?_of_object?_eq_none (object?_of_mem_announcing he)

theorem held_retracting : held H (app.retracting nodes) = H :=
  held_of_unmoved fun _ he => Exchange.moved?_of_object?_eq_none (object?_of_mem_retracting he)

end Application
end GattServer
