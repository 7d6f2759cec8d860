/-
# Histories of an application

Whoever holds an application can have it perform one operation after the other, in any order and
whatever became of the earlier ones.  An `Act` is an operation together with what it is given, and
a history is a list of acts that were performed, with all their exchanges in order.

What holds at first and is preserved by every act holds after every history
(`Application.History.induct`).  Whatever a bus makes of some acts is a history
(`Application.history_play`).

Running, creating services and advertising publish nothing: they leave the live services and the
directory alone, and their calls are not about nodes (`Application.performs_quiet`).  So every act
takes one of four courses (`Application.performs_course`).
-/

import GattServer.Proofs.Course.Advertising
import GattServer.Proofs.Course.Publication
import GattServer.Proofs.Held
import GattServer.Proofs.Subtree

namespace GattServer

/-- An operation with what it is given. -/
inductive Act where
  | run
  | create (properties : ServiceProperties) (advertised : Bool)
  | add (s : Service)
  | remove (s : Service)
  | update (path : ObjectPath) (value : List UInt8)
  | start (deviceName : String)
  | stop

namespace Act

/-- What an act does. -/
def operation : Act → Operation Unit
  | .run => Application.run
  | .create properties advertised => do
    let app ← get
    match app.createService properties advertised with
    | .ok (_, app) => set app
    | .error e => throw e
  | .add s => Application.addService s
  | .remove s => Application.removeService s
  | .update path value => Application.updateValue path value
  | .start deviceName => Application.startAdvertising deviceName
  | .stop => Application.stopAdvertising

/-- What an act adds or removes has a property. -/
def Uses (P : Service → Prop) : Act → Prop
  | .add s | .remove s => P s
  | _ => True

theorem Uses.imp {P Q : Service → Prop} {a : Act} (h : a.Uses P) (himp : ∀ s, P s → Q s) :
    a.Uses Q := by
  cases a with
  | add s | remove s => exact himp s h
  | _ => trivial

/-- An act that creates a service. -/
def Creates : Act → Prop
  | .create _ _ => True
  | _ => False

/-- An act that publishes nothing. -/
def Quiet : Act → Prop
  | .run | .create _ _ | .start _ | .stop => True
  | .add _ | .remove _ | .update _ _ => False

end Act

/-- A call that is not about a node of a service. -/
def Call.Aside : Call → Prop
  | .exportObject _ object => object.kind.isNode = false
  | .withdrawObject _ kind => kind.isNode = false
  | .announce _ _ _ | .retract _ _ _ | .updateValue _ _ => False
  | _ => True

theorem Call.Aside.object?_ne {c : Call} (h : c.Aside) {q : ObjectPath} {k : ObjectKind}
    (hk : k.isNode = true) : c.object? ≠ some (q, k) := by
  intro hobject
  cases c with
  | exportObject path object =>
    cases hobject
    rw [Aside, hk] at h
    cases h
  | withdrawObject path kind =>
    cases hobject
    rw [Aside, hk] at h
    cases h
  | _ => cases hobject

namespace Application

variable {β : Type} {app mid app' : Application} {a : Act} {acts more : List Act}
  {t u : List (Exchange Application)} {r : Answer}

/-- An application performs acts one after the other. -/
inductive History :
    Application → List Act → List (Exchange Application) → Application → Prop where
  | nil {app : Application} : History app [] [] app
  | cons {app mid app' : Application} {a : Act} {acts : List Act}
    {t u : List (Exchange Application)} {r : Answer} (first : app.Performs a.operation t r mid)
    (rest : History mid acts u app') : History app (a :: acts) (t ++ u) app'

theorem History.append (h : app.History acts t mid) (h' : mid.History more u app') :
    app.History (acts ++ more) (t ++ u) app' := by
  induction h with
  | nil => exact h'
  | cons first rest ih =>
    rw [List.append_assoc]
    exact .cons first (ih h')

theorem History.snoc (h : app.History acts t mid) (last : mid.Performs a.operation u r app') :
    app.History (acts ++ [a]) (t ++ u) app' := by
  have hlast := History.cons last .nil
  rw [List.append_nil] at hlast
  exact h.append hlast

/-- **The answers decide what becomes of some acts.** -/
theorem History.unique (h : app.History acts t mid) (h' : app.History acts u app')
    (answers : t.map Exchange.answer = u.map Exchange.answer) : t = u ∧ mid = app' := by
  induction h generalizing u with
  | nil =>
    cases h'
    exact ⟨rfl, rfl⟩
  | @cons app mid last a acts t t' r first rest ih =>
    obtain _ | ⟨first', rest'⟩ := h'
    rw [List.map_append, List.map_append] at answers
    obtain ⟨rfl, hend⟩ := Script.Trace.unique first first' answers
    obtain ⟨rfl, rfl⟩ := Prod.mk.inj hend
    obtain ⟨rfl, rfl⟩ := ih rest' (List.append_cancel_left answers)
    exact ⟨rfl, rfl⟩

/-- **What every act preserves, a history preserves.**  It may speak of all exchanges so far. -/
theorem History.induct {I : List (Exchange Application) → Application → Prop} {P : Act → Prop}
    (step : ∀ {past app a t r app'}, P a → I past app → app.Performs a.operation t r app' →
      I (past ++ t) app')
    (h : app.History acts t app') (hacts : ∀ a ∈ acts, P a) (first : I [] app) : I t app' := by
  suffices ∀ past, I past app → I (past ++ t) app' from this [] first
  clear first
  induction h with
  | nil =>
    intro past hpast
    rwa [List.append_nil]
  | cons hfirst rest ih =>
    intro past hpast
    rw [← List.append_assoc]
    have hmid := step (hacts _ List.mem_cons_self) hpast hfirst
    exact ih (fun a ha => hacts a (List.mem_cons_of_mem _ ha)) _ hmid

/-! ### Playing acts on a bus -/

/-- Has acts carried out on a bus, and records the exchanges. -/
def play (bus : Bus β) : Application → List Act → β → List (Exchange Application) × Application × β
  | app, [], b => ([], app, b)
  | app, a :: acts, b =>
    let first := (app.script a.operation).record bus b
    let rest := play bus first.2.1.2 acts first.2.2
    (first.1 ++ rest.1, rest.2)

/-- What a bus makes of an operation, it performs. -/
theorem performs_record (bus : Bus β) (app : Application) (op : Operation Unit) (b : β) :
    app.Performs op ((app.script op).record bus b).1 ((app.script op).record bus b).2.1.1
      ((app.script op).record bus b).2.1.2 := by
  have htrace := Script.trace_record bus (app.script op) b
  rw [← Script.record_snd] at htrace
  exact htrace

/-- **What a bus makes of some acts is a history.** -/
theorem history_play (bus : Bus β) (app : Application) (acts : List Act) (b : β) :
    app.History acts (play bus app acts b).1 (play bus app acts b).2.1 := by
  induction acts generalizing app b with
  | nil => exact .nil
  | cons a acts ih => exact .cons (performs_record bus app a.operation b) (ih _ _)

/-! ### Acts that publish nothing -/

/-- Two states with the same live services and the same directory, below the same path. -/
structure SameViews (app app' : Application) : Prop where
  profile : app'.profile = app.profile
  services : app'.services = app.services
  directory : app'.directory = app.directory

theorem SameViews.nodes (same : app.SameViews app') : app'.nodes = app.nodes :=
  congrArg (List.flatMap Service.nodes) same.services

/-- Creating a service makes no call, and changes nothing but how many have been created. -/
theorem performs_create {properties : ServiceProperties} {advertised : Bool}
    (h : app.Performs (Act.create properties advertised).operation t r app') :
    t = [] ∧ ∃ created, app' = { app with created } := by
  rw [Act.operation, performs_get_bind] at h
  cases hnew : app.createService properties advertised with
  | ok p =>
    rw [hnew] at h
    obtain ⟨rfl, -, rfl⟩ := performs_set.1 h
    obtain ⟨-, hp⟩ := createService_eq hnew
    exact ⟨rfl, _, hp⟩
  | error e =>
    rw [hnew] at h
    obtain ⟨rfl, -, rfl⟩ := performs_throw.1 h
    exact ⟨rfl, app'.created, rfl⟩

/-- **An act that publishes nothing shows the same all along**, and calls for no node. -/
theorem performs_quiet (h : app.Performs a.operation t r app') (ha : a.Quiet) :
    app.SameViews app' ∧ ∀ e ∈ t, app.SameViews e.state ∧ e.call.Aside := by
  have same : app.SameViews app := ⟨rfl, rfl, rfl⟩
  cases a with
  | run =>
    cases performs_run h with
    | again => exact ⟨same, by simp⟩
    | nameless => exact ⟨same, by simpa using ⟨same, trivial⟩⟩
    | unexported => exact ⟨same, by simpa using ⟨⟨same, trivial⟩, same, rfl⟩⟩
    | launched =>
      exact ⟨⟨rfl, rfl, rfl⟩, by
        simpa using ⟨⟨same, trivial⟩, ⟨same, rfl⟩, ⟨rfl, rfl, rfl⟩, trivial⟩⟩
  | create properties advertised =>
    obtain ⟨rfl, created, rfl⟩ := performs_create h
    exact ⟨⟨rfl, rfl, rfl⟩, by simp⟩
  | start deviceName =>
    cases performs_startAdvertising h with
    | active => exact ⟨same, by simp⟩
    | malformed => exact ⟨same, by simp⟩
    | unexported => exact ⟨same, by simpa using ⟨same, rfl⟩⟩
    | exported => exact ⟨⟨rfl, rfl, rfl⟩, by simpa using ⟨⟨same, rfl⟩, ⟨rfl, rfl, rfl⟩, trivial⟩⟩
  | stop =>
    cases performs_stopAdvertising h with
    | inactive => exact ⟨same, by simp⟩
    | stopped =>
      exact ⟨⟨rfl, rfl, rfl⟩, by
        simpa using ⟨⟨⟨rfl, rfl, rfl⟩, trivial⟩, ⟨rfl, rfl, rfl⟩, rfl⟩⟩
  | add | remove | update => exact ha.elim

/-- **The courses of an act.**  It publishes nothing, or takes a course of the operation it is. -/
inductive Course (app : Application) :
    Act → List (Exchange Application) → Answer → Application → Prop where
  | quiet {a : Act} {t : List (Exchange Application)} {r : Answer} {app' : Application}
    (same : app.SameViews app') (calls : ∀ e ∈ t, app.SameViews e.state ∧ e.call.Aside) :
    Course app a t r app'
  | add {s : Service} {t : List (Exchange Application)} {r : Answer} {app' : Application}
    (course : Addition app s t r app') : Course app (.add s) t r app'
  | remove {s : Service} {t : List (Exchange Application)} {r : Answer} {app' : Application}
    (course : Removal app s t r app') : Course app (.remove s) t r app'
  | update {path : ObjectPath} {value : List UInt8} {services : List Service} {r : Answer}
    (found : setValueIn? path value app.services = some services) :
    Course app (.update path value)
      [⟨app.showing path value services, .updateValue path value, r⟩] r
      (app.showing path value services)

/-- **Every act takes one of these courses.** -/
theorem performs_course (h : app.Performs a.operation t r app') : Course app a t r app' := by
  by_cases hquiet : a.Quiet
  · obtain ⟨same, hcalls⟩ := performs_quiet h hquiet
    exact .quiet same hcalls
  cases a with
  | run | create | start | stop => exact absurd trivial hquiet
  | add s => exact .add (performs_addService h)
  | remove s => exact .remove (performs_removeService h)
  | update path value =>
    rcases performs_updateValue h with ⟨-, rfl, -, rfl⟩ | ⟨services, hset, rfl, rfl⟩
    · exact .quiet ⟨rfl, rfl, rfl⟩ fun e he => absurd he List.not_mem_nil
    · exact .update hset

/-- No act changes the settings of an application, or its path. -/
theorem performs_profile (h : app.Performs a.operation t r app') : app'.profile = app.profile := by
  cases performs_course h with
  | quiet same => exact same.profile
  | add course => cases course <;> rfl
  | remove course => cases course <;> rfl
  | update => rfl

theorem History.profile (h : app.History acts t app') : app'.profile = app.profile := by
  induction h with
  | nil => rfl
  | cons first rest ih => exact ih.trans (performs_profile first)

/-- Calls that are not about nodes leave the nodes that a bus holds alone. -/
theorem mem_held_of_aside {H : Held} {q : ObjectPath} {k : ObjectKind}
    (h : ∀ e ∈ t, e.call.Aside) (hk : k.isNode = true) : (q, k) ∈ held H t ↔ (q, k) ∈ H :=
  mem_held_of_unmoved fun e he hmoved =>
    (h e he).object?_ne hk (Exchange.object?_of_moved? hmoved)

/-! ### Numbers and counters -/

variable {s : Service} {nodes : List Node}

/-- No act changes the number of an application. -/
theorem performs_id (h : app.Performs a.operation t r app') : app'.id = app.id := by
  cases a with
  | run => cases performs_run h <;> rfl
  | create properties advertised =>
    obtain ⟨-, created, rfl⟩ := performs_create h
    rfl
  | add s => cases performs_addService h <;> rfl
  | remove s => cases performs_removeService h <;> rfl
  | update path value =>
    rcases performs_updateValue h with ⟨-, -, -, rfl⟩ | ⟨services, -, rfl, -⟩
    · rfl
    · rfl
  | start name => cases performs_startAdvertising h <;> rfl
  | stop => cases performs_stopAdvertising h <;> rfl

theorem History.id (h : app.History acts t app') : app'.id = app.id := by
  induction h with
  | nil => rfl
  | cons first rest ih => exact ih.trans (performs_id first)

theorem id_exporting : ∀ e ∈ app.exporting nodes, e.state.id = app.id := by
  intro e he
  obtain ⟨n, -, rfl⟩ := mem_exporting he
  rfl

theorem id_announcing : ∀ e ∈ app.announcing nodes, e.state.id = app.id := by
  intro e he
  obtain ⟨before, n, after, -, rfl⟩ := mem_announcing he
  rfl

theorem id_retracting : ∀ e ∈ app.retracting nodes, e.state.id = app.id := by
  intro e he
  obtain ⟨before, n, after, interfaces, -, rfl⟩ := mem_retracting he
  rfl

theorem id_withdrawing : ∀ e ∈ app.withdrawing nodes, e.state.id = app.id := by
  intro e he
  obtain ⟨n, -, rfl⟩ := mem_withdrawing he
  rfl

theorem Addition.id_state (course : Addition app s t r app') : ∀ e ∈ t, e.state.id = app.id := by
  cases course with
  | refused => exact fun e he => absurd he List.not_mem_nil
  | rolledBack welcome nodes withdrawals =>
    refine List.forall_mem_append.2 ⟨id_exporting, List.forall_mem_cons.2 ⟨rfl, fun e he => ?_⟩⟩
    rw [(mem_of_question withdrawals he).1]
  | unpublished => exact List.forall_mem_append.2 ⟨id_exporting, by simp [adopt]⟩
  | unannounced =>
    refine List.forall_mem_append.2 ⟨id_exporting, List.forall_mem_cons.2 ⟨rfl, ?_⟩⟩
    exact List.forall_mem_append.2 ⟨id_announcing, by simp [adopt, enter]⟩
  | completed =>
    exact List.forall_mem_append.2 ⟨id_exporting, List.forall_mem_cons.2 ⟨rfl, id_announcing⟩⟩

theorem Removal.id_state (course : Removal app s t r app') : ∀ e ∈ t, e.state.id = app.id := by
  cases course with
  | absent => exact fun e he => absurd he List.not_mem_nil
  | interrupted => exact List.forall_mem_append.2 ⟨id_retracting, by simp [disown, leave]⟩
  | stuck | withdrawn =>
    refine List.forall_mem_append.2 ⟨id_retracting, List.forall_mem_append.2 ⟨id_withdrawing, ?_⟩⟩
    simp [disown, leave]

/-- No act changes the number of an application on the way. -/
theorem id_state_of_performs (h : app.Performs a.operation t r app') :
    ∀ e ∈ t, e.state.id = app.id := by
  cases a with
  | run => cases performs_run h <;> simp
  | create properties advertised =>
    obtain ⟨rfl, -⟩ := performs_create h
    exact fun e he => absurd he List.not_mem_nil
  | add s => exact (performs_addService h).id_state
  | remove s => exact (performs_removeService h).id_state
  | update path value =>
    rcases performs_updateValue h with ⟨-, rfl, -⟩ | ⟨services, -, rfl, rfl⟩
    · exact fun e he => absurd he List.not_mem_nil
    · simp [showing]
  | start name => cases performs_startAdvertising h <;> simp
  | stop => cases performs_stopAdvertising h <;> simp

/-- Only creating services changes how many were created. -/
theorem performs_created (ha : ¬ a.Creates) (h : app.Performs a.operation t r app') :
    app'.created = app.created := by
  cases a with
  | run => cases performs_run h <;> rfl
  | create => exact absurd trivial ha
  | add s => cases performs_addService h <;> rfl
  | remove s => cases performs_removeService h <;> rfl
  | update path value =>
    rcases performs_updateValue h with ⟨-, -, -, rfl⟩ | ⟨services, -, rfl, -⟩
    · rfl
    · rfl
  | start name => cases performs_startAdvertising h <;> rfl
  | stop => cases performs_stopAdvertising h <;> rfl

end Application

/-! ### A sample -/

namespace Sample

/-- An application at `/app`. -/
def profile : Profile where
  settings := { name := "org.example.app", path := "/app" }
  path := ⟨[⟨"app", by decide, by decide⟩]⟩

def batteryPath : ObjectPath := profile.path.push (Segment.service.numbered 1)

def levelPath : ObjectPath := batteryPath.push (Segment.characteristic.numbered 1)

def label : Descriptor :=
  ⟨levelPath.push (Segment.descriptor.numbered 1), levelPath, ⟨.ofAlias 0x2901, .empty, []⟩⟩

def level : Characteristic :=
  ⟨levelPath, batteryPath, ⟨.ofAlias 0x2A19, .empty, [100]⟩, 1, [label]⟩

/-- A service with one characteristic, which has one descriptor. -/
def battery : Service := ⟨batteryPath, ⟨.ofAlias 0x180F, true⟩, true, 1, [level]⟩

theorem made_battery : battery.Made profile.path := by
  have bare : Service.Made profile.path (.new batteryPath battery.properties true) :=
    @Service.Made.created _ (.fresh 0 profile) _ _ _ _ rfl rfl
  have bareLevel : Characteristic.Made { level with created := 0, descriptors := [] } :=
    @Characteristic.Made.created _ _ _ _ level.properties bare rfl
  have counted : Characteristic.Made { level with descriptors := [] } :=
    @Characteristic.Made.counted _ _ _ label.properties bareLevel rfl
  have labelled : level.Made :=
    .attached counted (@Descriptor.Made.created _ _ _ label.properties bareLevel rfl) rfl
  exact .attached (@Service.Made.counted _ _ _ _ level.properties bare rfl) labelled rfl

/-- A service without characteristics, next to the other one. -/
def heartRate : Service :=
  .new (profile.path.push (Segment.service.numbered 2)) ⟨.ofAlias 0x180D, true⟩ true

theorem made_heartRate : heartRate.Made profile.path :=
  @Service.Made.created _ { Application.fresh 0 profile with created := 1 } _ _ _ _ rfl rfl

/-- A bus that gives the answers of a list, and then says yes to everything. -/
def answering : Bus (List Answer) where
  call _ answers := (answers.headD (.ok ()), answers.tail)
  warn _ answers := answers

/-- A failure of the bus. -/
def failure : Answer := .error .interfaceNotFound

end Sample
end GattServer
