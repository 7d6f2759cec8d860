/-
# Several applications and what they build

Several applications are in use at once, and what one of them creates can be handed to any other.
Services, characteristics and descriptors are values: whoever holds one can copy it, go on building
with the copy and keep the original.  A `Workshop` holds the applications together with everything
that has been built so far, so whatever a copy could be taken of is there to be used.

A step creates something, attaches one thing to another, or has an application perform an act on
services at hand, on any bus and with any outcome (`Workshop.Step`).  Attaching what is refused
changes nothing and is no step.  A run starts with fresh applications and keeps a record of who
created which service and who performed what (`Workshop.Run`).

Whatever is at hand was made by the applications (`Workshop.Run.made`), each application looks back
on a history of its own (`Workshop.Run.history`), and its counter tells how many services it has
created (`Workshop.Run.created`).
-/

import GattServer.Proofs.History
import Mathlib.Logic.Function.Basic

namespace GattServer

/-- The applications in use, and all that has been built. -/
structure Workshop where
  /-- The applications, by their numbers. -/
  apps : AppId → Application
  /-- The services, in every state they have been in. -/
  services : List Service
  /-- The characteristics, in every state they have been in. -/
  characteristics : List Characteristic
  /-- The descriptors. -/
  descriptors : List Descriptor

/-- An act on services at hand that is not a creation. -/
def Act.Offers (services : List Service) : Act → Prop
  | .add s | .remove s => s ∈ services
  | .create _ _ => False
  | .run | .update _ _ | .start _ | .stop => True

theorem Act.Offers.uses {services : List Service} {a : Act} {P : Service → Prop}
    (h : a.Offers services) (hP : ∀ s ∈ services, P s) : a.Uses P := by
  cases a with
  | add s | remove s => exact hP s h
  | create => exact h.elim
  | run | update | start | stop => trivial

theorem Act.Offers.not_creates {services : List Service} {a : Act} (h : a.Offers services) :
    ¬ a.Creates := by
  cases a with
  | create => exact h.elim
  | _ => exact id

namespace Workshop

/-- What is put on record of a step. -/
inductive Deed where
  /-- An application created a service. -/
  | created (i : AppId) (path : ObjectPath)
  /-- Something was built from what was at hand. -/
  | built
  /-- An application performed an act. -/
  | performed (i : AppId) (a : Act) (r : Answer)

/-- The workshop with an application in another state. -/
def update (w : Workshop) (i : AppId) (app : Application) : Workshop :=
  { w with apps := Function.update w.apps i app }

/-- The workshop with one more service at hand. -/
def withService (w : Workshop) (s : Service) : Workshop := { w with services := s :: w.services }

/-- The workshop with one more characteristic at hand. -/
def withCharacteristic (w : Workshop) (c : Characteristic) : Workshop :=
  { w with characteristics := c :: w.characteristics }

/-- The workshop with one more descriptor at hand. -/
def withDescriptor (w : Workshop) (d : Descriptor) : Workshop :=
  { w with descriptors := d :: w.descriptors }

/-- **The steps in a workshop.** -/
inductive Step (w : Workshop) : Deed → Workshop → Prop where
  | service {i : AppId} {properties : ServiceProperties} {advertised : Bool} {s : Service}
    {app' : Application} (h : (w.apps i).createService properties advertised = .ok (s, app')) :
    Step w (.created i s.path) ((w.update i app').withService s)
  | characteristic {s t : Service} {properties : CharacteristicProperties} {c : Characteristic}
    (hs : s ∈ w.services) (h : s.createCharacteristic properties = .ok (c, t)) :
    Step w .built ((w.withService t).withCharacteristic c)
  | descriptor {c e : Characteristic} {properties : DescriptorProperties} {d : Descriptor}
    (hc : c ∈ w.characteristics) (h : c.createDescriptor properties = .ok (d, e)) :
    Step w .built ((w.withCharacteristic e).withDescriptor d)
  | attachCharacteristic {s t : Service} {c : Characteristic} (hs : s ∈ w.services)
    (hc : c ∈ w.characteristics) (h : s.addCharacteristic c = .ok t) :
    Step w .built (w.withService t)
  | attachDescriptor {c e : Characteristic} {d : Descriptor} (hc : c ∈ w.characteristics)
    (hd : d ∈ w.descriptors) (h : c.addDescriptor d = .ok e) :
    Step w .built (w.withCharacteristic e)
  | act {i : AppId} {a : Act} {t : List (Exchange Application)} {r : Answer} {app' : Application}
    (offered : a.Offers w.services) (h : (w.apps i).Performs a.operation t r app') :
    Step w (.performed i a r) (w.update i app')

/-- Fresh applications, and nothing built. -/
def start (profiles : AppId → Profile) : Workshop := ⟨fun i => .fresh i (profiles i), [], [], []⟩

/-- **A run in a workshop**, with what is on record of its steps. -/
inductive Run (profiles : AppId → Profile) : List Deed → Workshop → Prop where
  | start : Run profiles [] (start profiles)
  | step {log : List Deed} {w w' : Workshop} {deed : Deed} (run : Run profiles log w)
    (h : w.Step deed w') : Run profiles (log ++ [deed]) w'

/-- The paths of the services that an application has created, in order. -/
def created (i : AppId) (log : List Deed) : List ObjectPath :=
  log.filterMap fun
    | .created j path => if j = i then some path else none
    | .built | .performed _ _ _ => none

variable {profiles : AppId → Profile} {log : List Deed} {w w' : Workshop} {deed : Deed}
  {i j : AppId} {s : Service}

@[simp] theorem created_append {more : List Deed} :
    created i (log ++ more) = created i log ++ created i more := List.filterMap_append

theorem created_self (path : ObjectPath) : created i [.created i path] = [path] := by
  simp [created]

theorem created_of_ne (path : ObjectPath) (h : j ≠ i) : created i [.created j path] = [] := by
  simp [created, h]

theorem update_self (app : Application) : (w.update i app).apps i = app := Function.update_self ..

theorem update_of_ne (app : Application) (h : j ≠ i) : (w.update i app).apps j = w.apps j :=
  Function.update_of_ne h ..

/-- What holds of every application, and of one in another state, holds afterwards. -/
theorem forall_update {P : AppId → Application → Prop} {app : Application}
    (h : ∀ j, P j (w.apps j)) (happ : P i app) (j : AppId) : P j ((w.update i app).apps j) :=
  (Function.forall_update_iff w.apps P).2 ⟨happ, fun k _ => h k⟩ j

/-! ### Everything at hand was made -/

/-- All that is at hand was made below the applications. -/
structure AllMade (roots : AppId → ObjectPath) (w : Workshop) : Prop where
  services : ∀ s ∈ w.services, ∃ i, s.Made (roots i)
  characteristics : ∀ c ∈ w.characteristics, c.Made
  descriptors : ∀ d ∈ w.descriptors, d.Made

namespace AllMade

variable {roots : AppId → ObjectPath}

theorem update (h : w.AllMade roots) (app : Application) : (w.update i app).AllMade roots :=
  ⟨h.services, h.characteristics, h.descriptors⟩

theorem withService (h : w.AllMade roots) (hs : s.Made (roots i)) :
    (w.withService s).AllMade roots :=
  ⟨List.forall_mem_cons.2 ⟨⟨i, hs⟩, h.services⟩, h.characteristics, h.descriptors⟩

theorem withCharacteristic (h : w.AllMade roots) {c : Characteristic} (hc : c.Made) :
    (w.withCharacteristic c).AllMade roots :=
  ⟨h.services, List.forall_mem_cons.2 ⟨hc, h.characteristics⟩, h.descriptors⟩

theorem withDescriptor (h : w.AllMade roots) {d : Descriptor} (hd : d.Made) :
    (w.withDescriptor d).AllMade roots :=
  ⟨h.services, h.characteristics, List.forall_mem_cons.2 ⟨hd, h.descriptors⟩⟩

/-- **Every step leaves only what was made.** -/
theorem step (h : w.AllMade roots) (hroots : ∀ i, (w.apps i).path = roots i)
    (hstep : w.Step deed w') : w'.AllMade roots := by
  cases hstep with
  | service hnew => exact (h.update _).withService (.created (hroots _) hnew)
  | characteristic hs hnew =>
    obtain ⟨i, made⟩ := h.services _ hs
    exact (h.withService (.counted made hnew)).withCharacteristic (.created made hnew)
  | descriptor hc hnew =>
    have made := h.characteristics _ hc
    exact (h.withCharacteristic (.counted made hnew)).withDescriptor (.created made hnew)
  | attachCharacteristic hs hc hadd =>
    obtain ⟨i, made⟩ := h.services _ hs
    exact h.withService (.attached made (h.characteristics _ hc) hadd)
  | attachDescriptor hc hd hadd =>
    exact h.withCharacteristic (.attached (h.characteristics _ hc) (h.descriptors _ hd) hadd)
  | act => exact h.update _

end AllMade

/-! ### Each application has a history -/

/-- An application looks back on a history of acts on services that were made. -/
def Remembers (profiles : AppId → Profile) (i : AppId) (app : Application) : Prop :=
  ∃ acts t, (Application.fresh i (profiles i)).History acts t app ∧
    ∀ a ∈ acts, a.Uses fun s => ∃ j, s.Made (profiles j).path

theorem Remembers.path {app : Application} (h : Remembers profiles i app) :
    app.path = (profiles i).path := by
  obtain ⟨acts, t, past, -⟩ := h
  exact congrArg Profile.path past.profile

theorem Remembers.performs {app app' : Application} {a : Act} {t : List (Exchange Application)}
    {r : Answer} (h : Remembers profiles i app)
    (uses : a.Uses fun s => ∃ j, s.Made (profiles j).path)
    (hperforms : app.Performs a.operation t r app') : Remembers profiles i app' := by
  obtain ⟨acts, u, past, made⟩ := h
  refine ⟨acts ++ [a], u ++ t, past.snoc hperforms, fun b hb => ?_⟩
  rcases List.mem_append.1 hb with hb | hb
  · exact made b hb
  · rwa [List.mem_singleton.1 hb]

/-- An application that creates a service performs the act of creating it. -/
theorem performs_createService {app app' : Application} {properties : ServiceProperties}
    {advertised : Bool} (h : app.createService properties advertised = .ok (s, app')) :
    app.Performs (Act.create properties advertised).operation [] (.ok ()) app' := by
  rw [Act.operation, Application.performs_get_bind, h]
  exact Application.performs_set.2 ⟨rfl, rfl, rfl⟩

/-- **What a run keeps**: everything at hand was made, and every application has a history. -/
theorem Run.kept (run : Run profiles log w) :
    w.AllMade (fun i => (profiles i).path) ∧ ∀ i, Remembers profiles i (w.apps i) := by
  induction run with
  | start => exact ⟨⟨by simp [Workshop.start], by simp [Workshop.start], by simp [Workshop.start]⟩,
      fun i => ⟨[], [], .nil, by simp⟩⟩
  | @step log w w' deed run h ih =>
    obtain ⟨hmade, hpast⟩ := ih
    refine ⟨hmade.step (fun i => (hpast i).path) h, ?_⟩
    cases h with
    | @service i properties advertised s app' hnew =>
      have created : Remembers profiles i app' :=
        (hpast i).performs (a := .create properties advertised) trivial
          (performs_createService hnew)
      exact forall_update hpast created
    | characteristic | descriptor | attachCharacteristic | attachDescriptor => exact hpast
    | @act i a t r app' offered hperforms =>
      exact forall_update hpast ((hpast i).performs (offered.uses hmade.services) hperforms)

end Workshop
end GattServer
