/-
# Calls carried out on a connection

An application tells by its exchanges which calls it made; what became of them on the bus, a
connection tells.  A connection carries exchanges out when every call succeeds on it, and peers may
call methods on the same connection at any moment in between (`Connection.Carries`).

What a connection has exported changes in few ways.  Carrying a call out puts an object, removes
one or replaces a value; a call from a peer starts or ends a subscription
(`Connection.receive_objects`); and everything else leaves the objects alone.  Removing an object
may take a whole node along, but nothing that is not within its path
(`ObjectTree.object?_remove_of_not_isWithin`).

A host runs an application on one of its connections, so whatever a host does with an application
whose calls succeed is carried out on that connection (`Host.Serves.attend`).
-/

import GattServer.Proofs.History
import GattServer.Rehearsal.Host

namespace GattServer

/-! ### Objects that stay -/

namespace ObjectTree

variable (t : ObjectTree) {path q : ObjectPath} {kind k : ObjectKind}

/-- Nothing is exported at first. -/
theorem object?_bare : bare.object? q k = none := by
  rw [object?, at?, bare]
  by_cases hq : q = .root
  · rw [hq, FinMap.find?_insert_self]
    rfl
  · rw [FinMap.find?_insert_of_ne _ _ hq]
    rfl

/-- **Removing an object leaves everything that is not within its path.** -/
theorem object?_remove_of_not_isWithin (h : ¬ q.IsWithin path) :
    (t.remove path kind).object? q k = t.object? q k := by
  have hne : q ≠ path := fun hq => h (hq ▸ List.prefix_refl _)
  unfold remove
  split
  · rfl
  · split_ifs
    · exact congrArg (Option.bind · _) (FinMap.find?_insert_of_ne _ _ hne)
    · rw [object?_cut, if_neg h]

/-- **Removing an object takes it away and adds nothing.** -/
theorem object?_of_remove {o : Object} (h : (t.remove path kind).object? q k = some o) :
    t.object? q k = some o ∧ (q, k) ≠ (path, kind) := by
  unfold remove at h
  cases hnode : t.at? path with
  | none =>
    rw [hnode] at h
    refine ⟨h, fun hsame => ?_⟩
    rw [(Prod.mk.inj hsame).1, object?, hnode] at h
    cases h
  | some objects =>
    rw [hnode] at h
    dsimp only at h
    split_ifs at h
    · by_cases hq : q = path
      · subst hq
        simp only [object?, at?, FinMap.find?_insert_self, Option.bind_some] at h
        by_cases hk : k = kind
        · rw [hk, FinMap.find?_erase_self] at h
          cases h
        · rw [FinMap.find?_erase_of_ne _ hk] at h
          exact ⟨by rw [object?, hnode, Option.bind_some, h], fun hsame => hk (Prod.mk.inj hsame).2⟩
      · simp only [object?, at?, FinMap.find?_insert_of_ne _ _ hq] at h
        exact ⟨h, fun hsame => hq (Prod.mk.inj hsame).1⟩
    · rw [object?_cut] at h
      split_ifs at h with hwithin
      refine ⟨h, fun hsame => hwithin ?_⟩
      rw [(Prod.mk.inj hsame).1]
      exact List.prefix_refl _

end ObjectTree

/-- A call that is about no exported object. -/
def Call.Detached : Call → Prop
  | .exportObject _ _ | .withdrawObject _ _ | .updateValue _ _ => False
  | _ => True

namespace Connection

variable {σ : Type} {k k' k'' : Connection} {e : Exchange σ} {t u : List (Exchange σ)}
  {daemon : Daemon} {path : ObjectPath}

/-! ### What a call does to the objects -/

theorem perform_exportObject {o : Object}
    (done : (k.perform daemon (.exportObject path o)).answer = .ok ()) :
    k.objects.object? path o.kind = none ∧
      (k.perform daemon (.exportObject path o)).connection.objects = k.objects.put path o := by
  simp only [perform, exportObject] at done ⊢
  split_ifs at done ⊢ with hsome
  exact ⟨Option.not_isSome_iff_eq_none.1 hsome, rfl⟩

theorem perform_withdrawObject {kind : ObjectKind}
    (done : (k.perform daemon (.withdrawObject path kind)).answer = .ok ()) :
    (k.perform daemon (.withdrawObject path kind)).connection.objects =
      k.objects.remove path kind := by
  simp only [perform, withdrawObject] at done ⊢
  cases hnode : k.objects.at? path with
  | none =>
    rw [hnode] at done
    cases done
  | some objects =>
    rw [hnode] at done
    dsimp only at done ⊢
    split_ifs at done ⊢
    all_goals rfl

theorem perform_updateValue {value : List UInt8}
    (done : (k.perform daemon (.updateValue path value)).answer = .ok ()) :
    (k.perform daemon (.updateValue path value)).connection.objects =
      k.objects.modify path .characteristic (.withValue value) := by
  simp only [perform, updateValue] at done ⊢
  split_ifs at done ⊢
  rfl

/-- Calls that are about no exported object leave the objects alone. -/
theorem perform_of_detached {c : Call} (h : c.Detached) :
    (k.perform daemon c).connection.objects = k.objects := by
  cases c with
  | requestName name =>
    simp only [perform, requestName]
    split
    · rfl
    · split
      · rfl
      · rfl
      · split <;> rfl
  | exportObject | withdrawObject | updateValue => exact h.elim
  | _ => rfl

/-- **A call of a method changes nothing but a subscription.** -/
theorem receive_objects (k : Connection) (c : MethodCall) :
    (k.receive c).2.1.objects = k.objects ∨ ∃ notifying,
      (k.receive c).2.1.objects =
        k.objects.modify c.path .characteristic (.withNotifying notifying) := by
  unfold receive
  split
  · exact Or.inl rfl
  · split
    · exact Or.inl rfl
    · split
      · exact Or.inl rfl
      · next o notifying _ =>
        split_ifs
        · simp only [subscribe]
          split_ifs
          · exact Or.inl rfl
          · exact Or.inl rfl
          · exact Or.inr ⟨notifying, rfl⟩
        · exact Or.inl rfl

/-! ### Exchanges that are carried out -/

/-- Peers make all sorts of calls. -/
def anyone : MethodCall → Prop := fun _ => True

/-- Peers make no calls. -/
def nobody : MethodCall → Prop := fun _ => False

/-- A connection carries exchanges out one after the other, all of them with success, whatever the
daemons answer each time.  In between, peers may call methods. -/
inductive Carries (peers : MethodCall → Prop) :
    Connection → List (Exchange σ) → Connection → Prop where
  | nil {k : Connection} : Carries peers k [] k
  | call {k k' : Connection} {e : Exchange σ} {t : List (Exchange σ)} (daemon : Daemon)
    (done : (k.perform daemon e.call).answer = .ok ()) (succeeded : e.Succeeded)
    (rest : Carries peers (k.perform daemon e.call).connection t k') : Carries peers k (e :: t) k'
  | peer {k k' : Connection} {t : List (Exchange σ)} (c : MethodCall) (called : peers c)
    (rest : Carries peers (k.receive c).2.1 t k') : Carries peers k t k'

variable {peers : MethodCall → Prop}

theorem Carries.anyone (h : Carries peers k t k') : Carries anyone k t k' := by
  induction h with
  | nil => exact .nil
  | call daemon done succeeded rest ih => exact .call daemon done succeeded ih
  | peer c called rest ih => exact .peer c trivial ih

theorem Carries.append (h : Carries peers k t k') (h' : Carries peers k' u k'') :
    Carries peers k (t ++ u) k'' := by
  induction h with
  | nil => exact h'
  | call daemon done succeeded rest ih => exact .call daemon done succeeded (ih h')
  | peer c called rest ih => exact .peer c called (ih h')

theorem Carries.split (h : Carries peers k (t ++ u) k'') :
    ∃ k', Carries peers k t k' ∧ Carries peers k' u k'' := by
  generalize hw : t ++ u = w at h
  induction h generalizing t with
  | @nil k =>
    obtain ⟨rfl, rfl⟩ := List.append_eq_nil_iff.1 hw
    exact ⟨k, .nil, .nil⟩
  | @call k k'' e w daemon done succeeded rest ih =>
    obtain _ | ⟨first, t⟩ := t
    · obtain rfl : u = e :: w := hw
      exact ⟨k, .nil, .call daemon done succeeded rest⟩
    · obtain ⟨rfl, hrest⟩ := List.cons.inj hw
      obtain ⟨k', hfirst, hlast⟩ := ih hrest
      exact ⟨k', .call daemon done succeeded hfirst, hlast⟩
  | peer c called rest ih =>
    obtain ⟨k', hfirst, hlast⟩ := ih hw
    exact ⟨k', .peer c called hfirst, hlast⟩

/-- Where peers make no calls, one exchange is one call. -/
theorem Carries.alone (h : Carries nobody k [e] k') : ∃ daemon,
    (k.perform daemon e.call).answer = .ok () ∧ k' = (k.perform daemon e.call).connection := by
  cases h with
  | call daemon done succeeded rest =>
    cases rest with
    | nil => exact ⟨daemon, done, rfl⟩
    | peer c called rest => exact called.elim
  | peer c called rest => exact called.elim

theorem Carries.succeeded (h : Carries peers k t k') : ∀ e ∈ t, e.Succeeded := by
  induction h with
  | nil => exact fun e he => absurd he List.not_mem_nil
  | call daemon done succeeded rest ih => exact List.forall_mem_cons.2 ⟨succeeded, ih⟩
  | peer c called rest ih => exact ih

/-- What holds of a connection stays true, whatever peers call. -/
def Settled (P : Connection → Prop) : Prop := ∀ k c, P k → P (k.receive c).2.1

/-- **What calls and peers keep, holds in the end.** -/
theorem Carries.keeps {P : Connection → Prop} (h : Carries peers k t k') (settled : Settled P)
    (step : ∀ e ∈ t, ∀ k daemon, P k → (k.perform daemon e.call).answer = .ok () →
      P (k.perform daemon e.call).connection) (first : P k) : P k' := by
  induction h with
  | nil => exact first
  | call daemon done succeeded rest ih =>
    exact ih (fun e he => step e (List.mem_cons_of_mem _ he))
      (step _ List.mem_cons_self _ daemon first done)
  | peer c called rest ih => exact ih step (settled _ c first)

/-- **What one call brings about, holds in the end.** -/
theorem Carries.one {P Q : Connection → Prop} (h : Carries peers k [e] k') (hP : Settled P)
    (hQ : Settled Q) (step : ∀ k daemon, P k → (k.perform daemon e.call).answer = .ok () →
      Q (k.perform daemon e.call).connection) (first : P k) : Q k' := by
  generalize ht : [e] = t at h
  induction h with
  | nil => cases ht
  | call daemon done succeeded rest ih =>
    obtain ⟨rfl, rfl⟩ := List.cons.inj ht
    exact rest.keeps hQ (fun e he => absurd he List.not_mem_nil) (step _ daemon first done)
  | peer c called rest ih => exact ih (hP _ c first) ht

end Connection

/-! ### Operations of hosts -/

/-- A bus does with every call what its connection does with it, or fails it. -/
structure Bus.Faithful (bus : Bus Traffic) : Prop where
  call : ∀ c b, (bus.call c b).1 = .ok () → ∃ daemon,
    (b.connection.perform daemon c).answer = .ok () ∧
      (bus.call c b).2.connection = (b.connection.perform daemon c).connection
  warn : ∀ w b, (bus.warn w b).connection = b.connection
  link : ∀ c b, (bus.call c b).2.link = b.link
  warnLink : ∀ w b, (bus.warn w b).link = b.link

theorem Traffic.faithful_ownBus (daemon : Daemon) : (ownBus daemon).Faithful :=
  ⟨fun _ _ h => ⟨daemon, h, rfl⟩, fun _ _ => rfl, fun _ _ => rfl, fun _ _ => rfl⟩

theorem Traffic.faithful_sharedBus (daemon : Daemon) : (sharedBus daemon).Faithful where
  call c b h := by
    simp only [sharedBus, tryCarry] at h ⊢
    split at h
    · cases h
    · exact ⟨daemon, h, rfl⟩
  warn _ _ := rfl
  link c b := by
    simp only [sharedBus, tryCarry]
    split <;> rfl
  warnLink _ _ := rfl

theorem Host.faithful_busOf (h : Host) (a : Hosted) : (h.busOf a).Faithful := by
  unfold busOf
  split_ifs
  · exact Traffic.faithful_sharedBus _
  · exact Traffic.faithful_ownBus _

namespace Script

variable {σ α : Type} {bus : Bus Traffic}

/-- **Where every call of a script succeeds, its connection carries the exchanges out.** -/
theorem carries_record (faithful : bus.Faithful) (x : Script σ α) (b : Traffic)
    (succeeded : ∀ e ∈ (x.record bus b).1, e.Succeeded) :
    Connection.Carries Connection.nobody b.connection (x.record bus b).1
      (x.run bus b).2.connection := by
  induction x generalizing b with
  | done a => exact .nil
  | warn w next ih =>
    have hnext := ih (bus.warn w b) succeeded
    rwa [faithful.warn] at hnext
  | call s c next ih =>
    have hfirst : (bus.call c b).1 = .ok () := succeeded _ List.mem_cons_self
    obtain ⟨daemon, hdone, hconnection⟩ := faithful.call c b hfirst
    have hnext := ih _ (bus.call c b).2 fun e he => succeeded e (List.mem_cons_of_mem _ he)
    rw [hconnection] at hnext
    exact .call daemon hdone hfirst hnext

theorem link_run (faithful : bus.Faithful) (x : Script σ α) (b : Traffic) :
    (x.run bus b).2.link = b.link := by
  induction x generalizing b with
  | done a => rfl
  | warn w next ih => exact (ih _).trans (faithful.warnLink w b)
  | call s c next ih => exact (ih _ _).trans (faithful.link c b)

end Script

namespace Host

open Application (performs_id)

variable {h h' : Host} {app app' : Application} {k : Connection} {n : Nat} {op : Operation Unit}
  {r : Answer} {events : List Event} {acts : List Act} {t : List (Exchange Application)}

/-- A host holds an application on a connection that peers reach. -/
structure Serves (h : Host) (n : Nat) (k : Connection) (app : Application) : Prop where
  hosted : ∃ a, h.app? app.id = some a ∧ a.application = app ∧ a.link = n
  link : h.links[n]? = some ⟨k, true⟩

/-- The exchanges of an operation. -/
def exchanges (h : Host) (id : AppId) (op : Operation Unit) : List (Exchange Application) :=
  match h.app? id with
  | none => []
  | some a => ((a.application.script op).record (h.busOf a) (h.traffic a.link)).1

theorem Serves.link_eq (serves : h.Serves n k app) : h.link n = ⟨k, true⟩ := by
  rw [Host.link, List.getD_eq_getElem?_getD, serves.link]
  rfl

theorem app?_eq_some {id : AppId} {a : Hosted} :
    h.app? id = some a ↔ h.apps[id]? = some a ∧ a.alive = true := by
  rw [app?, Option.filter_eq_some_iff]

/-- A host serves an application again once its connection and its state have been replaced. -/
theorem Serves.replace (serves : h.Serves n k app) {a : Hosted} {k' : Connection}
    (hid : a.application.id = app.id) (hlink : a.link = n) (halive : a.alive = true)
    (happ : h'.apps[app.id]? = some a) (hlinks : h'.links = h.links.set n ⟨k', true⟩) :
    h'.Serves n k' a.application := by
  have hlinked := List.getElem?_eq_some_iff.1 serves.link
  refine ⟨⟨a, app?_eq_some.2 ⟨?_, halive⟩, rfl, hlink⟩, ?_⟩
  · rw [hid, happ]
  · rw [hlinks, List.getElem?_set_self hlinked.1]

/-- **A host performs an operation** of an application that it serves, and serves it still. -/
theorem Serves.operate (serves : h.Serves n k app)
    (done : h.operate app.id op = some (r, h', events)) :
    ∃ app' k', app.Performs op (h.exchanges app.id op) r app' ∧
      ((∀ e ∈ h.exchanges app.id op, e.Succeeded) →
        Connection.Carries Connection.nobody k (h.exchanges app.id op) k') ∧
      (app'.id = app.id → h'.Serves n k' app') := by
  obtain ⟨a, ha, rfl, rfl⟩ := serves.hosted
  have hexchanges : h.exchanges a.application.id op =
      ((a.application.script op).record (h.busOf a) (h.traffic a.link)).1 := by
    rw [exchanges, ha]
  have htraffic : (h.traffic a.link).connection = k := by
    show (h.link a.link).connection = k
    rw [serves.link_eq]
  rw [Host.operate, ha, Option.map_some] at done
  obtain ⟨hr, hh, -⟩ := Prod.mk.inj (Option.some.inj done) |>.imp id Prod.mk.inj
  refine ⟨((a.application.script op).run (h.busOf a) (h.traffic a.link)).1.2,
    ((a.application.script op).run (h.busOf a) (h.traffic a.link)).2.connection, ?_,
    fun succeeded => ?_, fun hid => ?_⟩
  · rw [hexchanges, ← hr]
    exact Script.trace_record (h.busOf a) (a.application.script op) (h.traffic a.link)
  · rw [hexchanges] at succeeded ⊢
    have hcarries := Script.carries_record (h.faithful_busOf a) _ _ succeeded
    rwa [htraffic] at hcarries
  · have hlink := Script.link_run (h.faithful_busOf a) (a.application.script op)
      (h.traffic a.link)
    have hserving : (h.link a.link).serving = true := by rw [serves.link_eq]
    obtain ⟨hget, halive⟩ := app?_eq_some.1 ha
    have hlength := (List.getElem?_eq_some_iff.1 hget).1
    rw [← hh]
    refine serves.replace (a := { a with
      application := ((a.application.script op).run (h.busOf a) (h.traffic a.link)).1.2 })
      hid rfl halive (List.getElem?_set_self hlength) ?_
    rw [setApp, settle, hlink]
    simp [setLink, traffic, hserving]

/-- Completing an answer changes at most what handlers remember. -/
theorem Serves.complete (serves : h.Serves n k app) (response : Response) :
    (h.complete response).2.1.Serves n k app := by
  cases response with
  | reply r => exact serves
  | text t => exact serves
  | listing id =>
    rw [Host.complete]
    split <;> exact serves
  | request id request =>
    rw [Host.complete, handle]
    cases hother : h.app? id with
    | none => exact serves
    | some b =>
      obtain ⟨a, ha, rfl, rfl⟩ := serves.hosted
      obtain ⟨hget, halive⟩ := app?_eq_some.1 ha
      refine ⟨?_, serves.link⟩
      by_cases hid : a.application.id = id
      · subst hid
        obtain rfl : a = b := Option.some.inj (ha.symm.trans hother)
        have hlength := (List.getElem?_eq_some_iff.1 hget).1
        exact ⟨_, app?_eq_some.2 ⟨List.getElem?_set_self hlength, halive⟩, rfl, rfl⟩
      · refine ⟨a, app?_eq_some.2 ⟨?_, halive⟩, rfl, rfl⟩
        exact (List.getElem?_set_ne (Ne.symm hid)).trans hget

/-- **A host answers a call of a method** and serves its applications still. -/
theorem Serves.receive (serves : h.Serves n k app) {c : MethodCall}
    {result : Except MethodError MethodResult} (done : h.receive n c = some (result, h', events)) :
    h'.Serves n (k.receive c).2.1 app := by
  rw [Host.receive, serves.link_eq, if_pos rfl] at done
  have hlinked := (List.getElem?_eq_some_iff.1 serves.link).1
  have hnext : (h.setLink n ⟨(k.receive c).2.1, true⟩).Serves n (k.receive c).2.1 app :=
    ⟨serves.hosted, List.getElem?_set_self hlinked⟩
  have hcompleted := hnext.complete (k.receive c).1
  cases done
  exact hcompleted

/-- Has a host carry out acts of one application and answer calls of peers on one connection, and
records the exchanges. -/
def attend (id : AppId) (n : Nat) :
    Host → List (Act ⊕ MethodCall) → List (Exchange Application) × Host
  | h, [] => ([], h)
  | h, .inl a :: rest =>
    let last := attend id n (((h.operate id a.operation).map fun r => r.2.1).getD h) rest
    (h.exchanges id a.operation ++ last.1, last.2)
  | h, .inr c :: rest => attend id n (((h.receive n c).map fun r => r.2.1).getD h) rest

/-- **What a host does with an application is a history that its connection carries out**, as long
as every call succeeds. -/
theorem Serves.attend (serves : h.Serves n k app) (visits : List (Act ⊕ MethodCall))
    (succeeded : ∀ e ∈ (h.attend app.id n visits).1, e.Succeeded) :
    ∃ app' k', app.History (visits.filterMap Sum.getLeft?) (h.attend app.id n visits).1 app' ∧
      Connection.Carries Connection.anyone k (h.attend app.id n visits).1 k' ∧
      (h.attend app.id n visits).2.Serves n k' app' := by
  induction visits generalizing h app k with
  | nil => exact ⟨app, k, .nil, .nil, serves⟩
  | cons visit rest ih =>
    cases visit with
    | inl a =>
      obtain ⟨b, hb, -⟩ := serves.hosted
      have hdone : ∃ r h' events, h.operate app.id a.operation = some (r, h', events) := by
        rw [Host.operate, hb]
        exact ⟨_, _, _, rfl⟩
      obtain ⟨r, h', events, done⟩ := hdone
      obtain ⟨mid, k', hperforms, hcarries, hserves⟩ := serves.operate done
      have hid : mid.id = app.id := performs_id hperforms
      rw [Host.attend, done] at succeeded ⊢
      obtain ⟨hfirst, hrest⟩ := List.forall_mem_append.1 succeeded
      have hnext := ih (hserves hid)
      rw [hid] at hnext
      obtain ⟨app', k'', hhistory, hcarries', hserves'⟩ := hnext hrest
      exact ⟨app', k'', .cons hperforms hhistory, (hcarries hfirst).anyone.append hcarries',
        hserves'⟩
    | inr c =>
      have hdone : ∃ result h' events, h.receive n c = some (result, h', events) := by
        rw [Host.receive, serves.link_eq]
        exact ⟨_, _, _, rfl⟩
      obtain ⟨result, h', events, done⟩ := hdone
      rw [Host.attend, done] at succeeded ⊢
      obtain ⟨app', k', hhistory, hcarries, hserves⟩ := ih (serves.receive done) succeeded
      exact ⟨app', k', hhistory, .peer c trivial hcarries, hserves⟩

/-- A new application on the shared connection is served there. -/
theorem serves_create {settings : Settings} {handlers : Handlers Memory} {path : ObjectPath}
    (link : h.links[0]? = some ⟨k, true⟩) (valid : settings.validate = .ok path) :
    (h.create settings handlers false).2.Serves 0 k
      (.fresh h.apps.length ⟨settings, path⟩) := by
  have hlast : (h.apps ++ [⟨Application.fresh h.apps.length ⟨settings, path⟩, handlers, ∅, 0,
    true⟩])[h.apps.length]? = some _ := List.getElem?_concat_length
  rw [create, Application.new, valid]
  exact ⟨⟨_, app?_eq_some.2 ⟨hlast, rfl⟩, rfl, rfl⟩, link⟩

end Host
end GattServer
