/-
# Exported objects and the directory

What a peer can see of a node is kept in two places: in the object that is exported for it, and in
the directory of the application.  As long as no call on the bus fails, both show the same of every
live node (`Application.Displays.history`).  Peers may call what they like in the meantime.

The object was made from the node when it was exported and does not know the directory.  So it is
compared with the face of the node, which is what the directory lists (`Application.Consistent`):
exporting puts an object that depicts the face, a new value reaches both, subscriptions are no part
of a face, and no other call touches the object (`Connection.Holds.keeps`).
-/

import GattServer.Proofs.Carriage
import GattServer.Proofs.Views

namespace GattServer

/-! ### Objects and faces -/

/-- A characteristic that declares what an exported one does. -/
def CharacteristicObject.declared (o : CharacteristicObject) : Characteristic :=
  ⟨o.service, o.service, o.properties, 0, []⟩

namespace Object

variable {o : Object}

/-- What an object shows, but for being subscribed to. -/
def interfaces (o : Object) : InterfaceMap :=
  (∅ : InterfaceMap).insert o.kind.interface (o.properties.erase "Notifying")

/-- An exported characteristic shows what it declares. -/
theorem interfaces_characteristic (o : CharacteristicObject) :
    (Object.characteristic o).interfaces = o.declared.table.interfaces := by
  obtain ⟨app, serviceUuid, service, properties, notifying⟩ := o
  rfl

theorem interfaces_withNotifying (o : Object) (notifying : Bool) :
    (o.withNotifying notifying).interfaces = o.interfaces := by
  cases o with
  | characteristic o =>
    rw [interfaces_characteristic o]
    exact interfaces_characteristic { o with notifying }
  | _ => rfl

theorem interfaces_withValue (h : o.kind = .characteristic) (value : List UInt8) :
    (o.withValue value).interfaces = o.interfaces.withValue value := by
  cases o with
  | characteristic o =>
    rw [interfaces_characteristic o, ← Characteristic.interfaces_withValue]
    exact interfaces_characteristic { o with properties := { o.properties with value } }
  | _ => cases h

theorem kind_withNotifying (o : Object) (notifying : Bool) :
    (o.withNotifying notifying).kind = o.kind := by
  cases o <;> rfl

theorem kind_withValue (o : Object) (value : List UInt8) : (o.withValue value).kind = o.kind := by
  cases o <;> rfl

/-- What a node of some kind tells besides what is listed of it. -/
def Besides (kind : ObjectKind) (extra : List (String × Value)) : Prop :=
  match kind with
  | .characteristic => ∃ notifying, extra = [("Notifying", .bool notifying)]
  | _ => extra = []

/-- An object answers for what it shows and, if it is a characteristic, for its subscription. -/
theorem entries_properties (h : o.kind.isNode = true) :
    ∃ extra, Besides o.kind extra ∧
      o.properties.entries = (o.properties.erase "Notifying").entries ++ extra := by
  cases o with
  | service o => exact ⟨[], rfl, rfl⟩
  | characteristic o => exact ⟨_, ⟨o.notifying, rfl⟩, rfl⟩
  | descriptor o => exact ⟨[], rfl, rfl⟩
  | objectManager | advertisement => cases h

end Object

/-- An object shows a face. -/
structure Node.Face.Depicts (f : Node.Face) (o : Object) : Prop where
  kind : o.kind = f.kind
  interfaces : o.interfaces = f.interfaces

/-- **A node is exported as an object that shows its face.**  This takes a node that names those
above it by their paths. -/
theorem Service.Rooted.depicts {root : ObjectPath} {s : Service} (h : s.Rooted root) {n : Node}
    (hn : n ∈ s.nodes) (id : AppId) : n.face.Depicts (n.object id) := by
  rcases mem_nodes.1 hn with rfl | ⟨c, hc, rfl | ⟨d, hd, rfl⟩⟩
  · exact ⟨rfl, rfl⟩
  · have hparent := (h.characteristics c hc).parent_eq
    refine ⟨rfl, ?_⟩
    show _ = c.table.interfaces
    rw [Characteristic.table, hparent]
    exact Object.interfaces_characteristic _
  · have hparent := ((h.characteristics c hc).descriptors d hd).parent_eq
    refine ⟨rfl, ?_⟩
    show _ = d.table.interfaces
    rw [Descriptor.table, hparent]
    rfl

/-- A service that lies within another one below the same root is at the same path. -/
theorem Service.Rooted.path_eq_of_isWithin {root : ObjectPath} {s v : Service} (hs : s.Rooted root)
    (hv : v.Rooted root) (h : v.path.IsWithin s.path) : v.path = s.path := by
  obtain ⟨n, hn⟩ := hs.path_eq
  obtain ⟨m, hm⟩ := hv.path_eq
  have hlength : s.path.segments.length = v.path.segments.length := by
    simp [hn, hm, ObjectPath.push]
  have hsegments : s.path.segments = v.path.segments := List.IsPrefix.eq_of_length h hlength
  exact congrArg ObjectPath.mk hsegments.symm

/-! ### Objects on a connection -/

/-- A call leaves the object of a kind at a path alone. -/
def Call.Spares (q : ObjectPath) (kind : ObjectKind) : Call → Prop
  | .withdrawObject path _ => ¬ q.IsWithin path
  | .updateValue path _ => (q, kind) ≠ (path, .characteristic)
  | _ => True

namespace Connection

variable {σ : Type} {peers : MethodCall → Prop} {k k' : Connection} {q : ObjectPath}
  {kind : ObjectKind} {P Q : Object → Prop} {e : Exchange σ} {t : List (Exchange σ)}

/-- The object of a kind at a path is there and has a property. -/
def Holds (q : ObjectPath) (kind : ObjectKind) (P : Object → Prop) (k : Connection) : Prop :=
  ∃ o, k.objects.object? q kind = some o ∧ P o

/-- A property does not depend on subscriptions. -/
def Lasting (P : Object → Prop) : Prop := ∀ o notifying, P o → P (o.withNotifying notifying)

theorem Holds.settled (lasting : Lasting P) : Settled (Holds q kind P) := by
  rintro k c ⟨o, hobject, hP⟩
  rcases k.receive_objects c with hsame | ⟨notifying, hmodified⟩
  · exact ⟨o, by rw [hsame, hobject], hP⟩
  · by_cases hat : q = c.path ∧ kind = .characteristic
    · obtain ⟨rfl, rfl⟩ := hat
      refine ⟨o.withNotifying notifying, ?_, lasting o notifying hP⟩
      rw [hmodified, ObjectTree.object?_modify_self, hobject]
      rfl
    · refine ⟨o, ?_, hP⟩
      rw [hmodified, ObjectTree.object?_modify_of_ne _ _ (not_and_or.1 hat), hobject]

/-- A call that succeeds leaves alone what it spares; and nothing that is there can be exported. -/
theorem Holds.perform {c : Call} {daemon : Daemon} (h : Holds q kind P k) (spares : c.Spares q kind)
    (done : (k.perform daemon c).answer = .ok ()) :
    Holds q kind P (k.perform daemon c).connection := by
  obtain ⟨o, hobject, hP⟩ := h
  refine ⟨o, ?_, hP⟩
  by_cases hdetached : c.Detached
  · rw [perform_of_detached hdetached, hobject]
  cases c with
  | exportObject path new =>
    obtain ⟨hfree, hput⟩ := perform_exportObject done
    have hne : q ≠ path ∨ kind ≠ new.kind := by
      by_contra hsame
      obtain ⟨rfl, rfl⟩ := not_or.1 hsame |>.imp not_not.1 not_not.1
      rw [hfree] at hobject
      cases hobject
    rw [hput, ObjectTree.object?_put_of_ne _ hne, hobject]
  | withdrawObject path kind' =>
    rw [perform_withdrawObject done, ObjectTree.object?_remove_of_not_isWithin _ spares, hobject]
  | updateValue path value =>
    have hne : q ≠ path ∨ kind ≠ .characteristic := by
      by_contra hsame
      obtain ⟨rfl, rfl⟩ := not_or.1 hsame |>.imp not_not.1 not_not.1
      exact spares rfl
    rw [perform_updateValue done, ObjectTree.object?_modify_of_ne _ _ hne, hobject]
  | _ => exact absurd trivial hdetached

/-- **An object that every call spares keeps its properties.** -/
theorem Holds.keeps (h : Holds q kind P k) (lasting : Lasting P) (carried : Carries peers k t k')
    (spares : ∀ e ∈ t, e.call.Spares q kind) : Holds q kind P k' :=
  carried.keeps (settled lasting) (fun e he _ _ hk done => hk.perform (spares e he) done) h

/-- **An object that is exported is there**, if the later calls spare it. -/
theorem holds_of_exported {before after : List (Exchange σ)} {o : Object} (hP : P o)
    (lasting : Lasting P) (hcall : e.call = .exportObject q o)
    (carried : Carries peers k (before ++ e :: after) k')
    (spares : ∀ f ∈ after, f.call.Spares q o.kind) : Holds q o.kind P k' := by
  obtain ⟨k₁, -, hrest⟩ := carried.split
  obtain ⟨k₂, hfirst, hlast⟩ := Carries.split (t := [e]) hrest
  have hexported : Holds q o.kind P k₂ := by
    refine hfirst.one (P := fun _ => True) (fun _ _ _ => trivial) (Holds.settled lasting) ?_ trivial
    rintro k daemon - done
    rw [hcall] at done ⊢
    obtain ⟨-, hput⟩ := perform_exportObject done
    exact ⟨o, by rw [hput, ObjectTree.object?_put_self], hP⟩
  exact hexported.keeps lasting hlast spares

/-- **A new value reaches the object.** -/
theorem Holds.updated {value : List UInt8} (h : Holds q .characteristic P k) (hP : Lasting P)
    (hQ : Lasting Q) (hvalue : ∀ o, P o → Q (o.withValue value))
    (hcall : e.call = .updateValue q value) (carried : Carries peers k [e] k') :
    Holds q .characteristic Q k' := by
  refine carried.one (settled hP) (settled hQ) ?_ h
  rintro k daemon ⟨o, hobject, ho⟩ done
  rw [hcall] at done ⊢
  refine ⟨o.withValue value, ?_, hvalue o ho⟩
  rw [perform_updateValue done, ObjectTree.object?_modify_self, hobject]
  rfl

theorem lasting_depicts (f : Node.Face) : Lasting f.Depicts := fun o notifying h =>
  ⟨(o.kind_withNotifying notifying).trans h.kind,
    (o.interfaces_withNotifying notifying).trans h.interfaces⟩

theorem lasting_objectManager (id : AppId) : Lasting (· = .objectManager id) := by
  rintro _ notifying rfl
  rfl

end Connection

/-- An act that is about services, or runs the application. -/
def Act.OfServices : Act → Prop
  | .run | .create _ _ | .add _ | .remove _ | .update _ _ => True
  | .start _ | .stop => False

/-- A call that succeeds is dependable. -/
theorem Exchange.Succeeded.dependable {σ : Type} {e : Exchange σ} (h : e.Succeeded) :
    e.Dependable := by
  unfold Exchange.Dependable
  split <;> first | exact h | trivial

namespace Application

open Connection (Carries Holds holds_of_exported lasting_depicts lasting_objectManager)

variable {app app' : Application} {root : ObjectPath} {s : Service} {a : Act} {acts : List Act}
  {peers : MethodCall → Prop} {k k' : Connection} {t : List (Exchange Application)} {r : Answer}
  {H : Held}

/-! ### What is exported for an application -/

/-- **Every live node is displayed** on a connection by an object that shows its face, and an
application that has live services has its object manager there. -/
structure Displays (app : Application) (k : Connection) : Prop where
  manager : app.running = true → Holds app.path .objectManager (· = .objectManager app.id) k
  running : ∀ s ∈ app.services, app.running = true
  nodes : ∀ n ∈ app.nodes, Holds n.path n.kind n.face.Depicts k

theorem displays_fresh (id : AppId) (profile : Profile) (k : Connection) :
    (fresh id profile).Displays k where
  manager := nofun
  running _ hs := absurd hs List.not_mem_nil
  nodes _ hn := absurd hn List.not_mem_nil

/-- Calls that spare everything keep what is displayed. -/
theorem Displays.keeps (h : app.Displays k) (carried : Carries peers k t k')
    (spares : ∀ e ∈ t, ∀ q kind, e.call.Spares q kind) : app.Displays k' where
  manager hrunning := (h.manager hrunning).keeps (lasting_objectManager app.id) carried
    fun e he => spares e he _ _
  running := h.running
  nodes n hn := (h.nodes n hn).keeps (lasting_depicts n.face) carried fun e he => spares e he _ _

/-- What peers call while the application does nothing keeps what is displayed. -/
theorem Displays.waits (h : app.Displays k)
    (carried : Carries peers k ([] : List (Exchange Application)) k') : app.Displays k' :=
  h.keeps carried fun _ he => absurd he List.not_mem_nil

theorem Displays.launch (h : app.Displays k) (carried : Carries peers k t k')
    (course : Launch app t r app') : app'.Displays k' := by
  cases course with
  | again => exact h.waits carried
  | nameless =>
    have hfailed := carried.succeeded _ List.mem_cons_self
    cases hfailed
  | unexported =>
    have hfailed := carried.succeeded _ (List.mem_cons_of_mem _ List.mem_cons_self)
    cases hfailed
  | @launched r idle =>
    have hspares : ∀ e ∈ [⟨app, .requestName app.name, .ok ()⟩,
        ⟨app, .exportObject app.path (.objectManager app.id), .ok ()⟩,
        (⟨{ app with running := true }, .publishTree app.path app.tree, r⟩ : Exchange _)],
        ∀ q kind, e.call.Spares q kind := by
      simp [Call.Spares]
    have hkept := h.keeps carried hspares
    refine ⟨fun _ => ?_, fun _ _ => rfl, hkept.nodes⟩
    replace carried : Carries peers k ([⟨app, .requestName app.name, .ok ()⟩] ++
        ⟨app, .exportObject app.path (.objectManager app.id), .ok ()⟩ ::
          [⟨{ app with running := true }, .publishTree app.path app.tree, r⟩]) k' := carried
    exact holds_of_exported (P := (· = .objectManager app.id)) rfl (lasting_objectManager app.id)
      rfl carried (by simp [Call.Spares])

/-- The calls of an addition that succeeds spare every object. -/
theorem Addition.spares_objects (course : Addition app s t (.ok ()) app') :
    ∀ e ∈ t, ∀ q kind, e.call.Spares q kind := by
  intro e he q kind
  cases course with
  | completed welcome =>
    rcases List.mem_append.1 he with hexport | he
    · obtain ⟨n, -, rfl⟩ := mem_exporting hexport
      trivial
    rcases List.mem_cons.1 he with rfl | hannounce
    · trivial
    · obtain ⟨before, n, after, -, rfl⟩ := mem_announcing hannounce
      trivial

/-- An addition that succeeds exports every node of the service. -/
theorem Addition.exports (course : Addition app s t (.ok ()) app') {n : Node} (hn : n ∈ s.nodes) :
    ∃ before after, t = before ++ ⟨app, n.exported app.id, .ok ()⟩ :: after := by
  cases course with
  | completed welcome =>
    have hexport : ⟨app, n.exported app.id, .ok ()⟩ ∈ app.exporting s.nodes :=
      List.mem_map.2 ⟨n, hn, rfl⟩
    exact List.append_of_mem (List.mem_append_left _ hexport)

/-- **A service that is added is displayed as well.** -/
theorem Displays.addition (h : app.Displays k) (hs : s.Rooted root)
    (carried : Carries peers k t k') (course : Addition app s t r app') : app'.Displays k' := by
  cases course with
  | refused => exact h.waits carried
  | rolledBack =>
    have hfailed := carried.succeeded _ (List.mem_append_right _ List.mem_cons_self)
    cases hfailed
  | unpublished =>
    have hfailed := carried.succeeded _ (List.mem_append_right _ List.mem_cons_self)
    cases hfailed
  | unannounced =>
    have hfailed := carried.succeeded _ (List.mem_append_right _ (List.mem_cons_of_mem _
      (List.mem_append_right _ List.mem_cons_self)))
    cases hfailed
  | completed welcome =>
    have course : Addition app s _ (.ok ()) _ := .completed welcome
    have hspares := course.spares_objects
    have hkept := h.keeps carried hspares
    refine ⟨hkept.manager, fun _ _ => welcome.1, fun n hn => ?_⟩
    have hnodes : n ∈ app.nodes ++ s.nodes := nodes_adopt ▸ hn
    rcases List.mem_append.1 hnodes with hold | hnew
    · exact hkept.nodes n hold
    · obtain ⟨before, after, hsplit⟩ := course.exports hnew
      rw [hsplit] at carried hspares
      have hdepicts := hs.depicts hnew app.id
      have hholds := holds_of_exported hdepicts (lasting_depicts n.face) rfl carried fun e he =>
        hspares e (List.mem_append_right _ (List.mem_cons_of_mem _ he)) _ _
      rwa [hdepicts.kind] at hholds

/-- **A service that is removed takes nothing else along.** -/
theorem Displays.removal (h : app.Displays k) (tidy : app.Tidy (· = app.path))
    (carried : Carries peers k t k') (course : Removal app s t r app') : app'.Displays k' := by
  cases course with
  | absent => exact h.waits carried
  | interrupted =>
    have hfailed := carried.succeeded _ (List.mem_append_right _ List.mem_cons_self)
    cases hfailed
  | stuck =>
    have hfailed := carried.succeeded _
      (List.mem_append_right _ (List.mem_append_right _ List.mem_cons_self))
    cases hfailed
  | @withdrawn live r found =>
    obtain ⟨hlive, hpath⟩ := mem_of_service? found
    obtain ⟨_, rfl, hrooted⟩ := tidy.rooted live hlive
    have hspares : ∀ e ∈ (app.disown s.path).retracting live.nodes.reverse ++
        (((app.disown s.path).leave live.nodes.reverse).withdrawing live.nodes.reverse ++
          [⟨(app.disown s.path).leave live.nodes.reverse,
            .publishTree app.path (app.disown s.path).tree, r⟩]),
        ∀ q kind, (∀ n ∈ live.nodes, ¬ q.IsWithin n.path) → e.call.Spares q kind := by
      intro e he q kind hout
      rcases List.mem_append.1 he with he | he
      · obtain ⟨before, n, after, interfaces, -, rfl⟩ := mem_retracting he
        trivial
      rcases List.mem_append.1 he with he | he
      · obtain ⟨n, hn, rfl⟩ := mem_withdrawing he
        exact hout n (List.mem_reverse.1 hn)
      · rw [List.mem_singleton.1 he]
        trivial
    refine ⟨fun hrunning => ?_, fun v hv => h.running v (List.mem_of_mem_eraseP hv), fun m hm => ?_⟩
    · -- the application lies above its nodes
      refine (h.manager hrunning).keeps (lasting_objectManager app.id) carried fun e he =>
        hspares e he _ _ fun n hn hwithin => ?_
      obtain ⟨hbelow, hne⟩ := hrooted.isBelow hn
      exact hne (hbelow.antisymm hwithin)
    · -- what lies within a node of the service has its path for an owner
      obtain ⟨hold, howner⟩ := tidy.mem_nodes_disown.1 hm
      refine (h.nodes m hold).keeps (lasting_depicts m.face) carried fun e he =>
        hspares e he _ _ fun n hn hwithin => ?_
      obtain ⟨v, hv, hmv⟩ := mem_nodes.1 hold
      obtain ⟨_, rfl, hother⟩ := tidy.rooted v hv
      have hinside : m.path.IsWithin live.path := (hrooted.isWithin hn).trans hwithin
      have howners := hinside.owner hrooted.owner_path
      rw [hother.owner_eq hmv] at howners
      rw [hother.owner_eq hmv, hrooted.path_eq_of_isWithin hother howners, hpath] at howner
      exact howner rfl

/-- A value is set at a live characteristic. -/
theorem exists_of_setValueIn? {path : ObjectPath} {value : List UInt8} {services : List Service}
    (found : setValueIn? path value app.services = some services) :
    ∃ s ∈ app.services, ∃ c ∈ s.characteristics, c.path = path := by
  obtain ⟨before, s, after, t, hservices, hset, -⟩ := setValueIn?_eq_some found
  obtain ⟨c, hc, hpath⟩ := Service.characteristic_of_setValue? hset
  exact ⟨s, by simp [hservices], c, hc, hpath⟩

/-- Live nodes of one path are of one kind. -/
theorem Tidy.kind_eq {roots : ObjectPath → Prop} (tidy : app.Tidy roots) {n m : Node}
    (hn : n ∈ app.nodes) (hm : m ∈ app.nodes) (hpath : n.path = m.path) : n.kind = m.kind := by
  obtain ⟨s, hs, hns⟩ := mem_nodes.1 hn
  obtain ⟨v, hv, hmv⟩ := mem_nodes.1 hm
  obtain ⟨_, -, hrooted⟩ := tidy.rooted s hs
  obtain ⟨_, -, hother⟩ := tidy.rooted v hv
  have hkinds := hrooted.kind?_eq hns
  rw [hpath, hother.kind?_eq hmv] at hkinds
  exact (Option.some.inj hkinds).symm

/-- **A new value is displayed** where the node shows it, and nowhere else. -/
theorem Displays.showing (h : app.Displays k) (tidy : app.Tidy (· = app.path)) {path : ObjectPath}
    {value : List UInt8} {services : List Service}
    (found : setValueIn? path value app.services = some services)
    (carried : Carries peers k
      [⟨app.showing path value services, .updateValue path value, r⟩] k') :
    (app.showing path value services).Displays k' := by
  refine ⟨fun hrunning => ?_, fun s hs => ?_, fun n hn => ?_⟩
  · refine (h.manager hrunning).keeps (lasting_objectManager app.id) carried ?_
    simp [Call.Spares]
  · obtain ⟨v, hv, -⟩ := tidy.exists_of_mem_showing found hs
    exact h.running v hv
  · have hface := List.mem_map_of_mem (f := Node.face) hn
    rw [tidy.nodes_showing found, List.map_map] at hface
    obtain ⟨m, hm, hmface⟩ := List.mem_map.1 hface
    have hpath : m.path = n.path := by
      have hpaths := congrArg Node.Face.path hmface
      rwa [Function.comp_apply, Node.Face.path_withValue] at hpaths
    have hkind : m.kind = n.kind := by
      have hkinds := congrArg Node.Face.kind hmface
      rwa [Function.comp_apply, Node.Face.kind_withValue] at hkinds
    have hdepicts := h.nodes m hm
    rw [← hmface, ← hpath, ← hkind]
    by_cases hat : m.path = path
    · obtain ⟨s, hs, c, hc, hcpath⟩ := exists_of_setValueIn? found
      have hlive : Node.characteristic s c ∈ app.nodes :=
        mem_nodes.2 ⟨s, hs, Service.mem_nodes.2 (Or.inr ⟨c, hc, Or.inl rfl⟩)⟩
      have hcharacteristic : m.kind = .characteristic :=
        tidy.kind_eq hm hlive (hat.trans hcpath.symm)
      rw [hcharacteristic] at hdepicts ⊢
      rw [hat] at hdepicts ⊢
      refine hdepicts.updated (lasting_depicts _) (lasting_depicts _) (fun o ho => ?_) rfl carried
      have hchanged : (Node.Face.withValue path value ∘ Node.face) m =
          { m.face with interfaces := m.face.interfaces.withValue value } := if_pos hat
      rw [hchanged]
      refine ⟨(o.kind_withValue value).trans ho.kind, ?_⟩
      rw [Object.interfaces_withValue (ho.kind.trans hcharacteristic), ho.interfaces]
    · have hsame : (Node.Face.withValue path value ∘ Node.face) m = m.face := if_neg hat
      rw [hsame]
      refine hdepicts.keeps (lasting_depicts m.face) carried fun e he => ?_
      rw [List.mem_singleton.1 he]
      exact fun heq => hat (Prod.mk.inj heq).1

/-- **Every act whose calls are carried out keeps all live nodes displayed.** -/
theorem Displays.performs (h : app.Displays k) (tidy : app.Tidy (· = app.path))
    (hact : a.OfServices) (own : a.Uses (Service.Made app.path))
    (performs : app.Performs a.operation t r app') (carried : Carries peers k t k') :
    app'.Displays k' := by
  cases a with
  | run => exact h.launch carried (performs_run performs)
  | create properties advertised =>
    obtain ⟨rfl, created, rfl⟩ := performs_create performs
    have hkept := h.waits carried
    exact ⟨hkept.manager, hkept.running, hkept.nodes⟩
  | add s => exact h.addition (Service.Made.rooted own) carried (performs_addService performs)
  | remove s => exact h.removal tidy carried (performs_removeService performs)
  | update path value =>
    rcases performs_updateValue performs with ⟨-, rfl, -, rfl⟩ | ⟨services, found, rfl, rfl⟩
    · exact h.waits carried
    · exact h.showing tidy found carried
  | start | stop => exact hact.elim

/-- **Every history that is carried out** keeps all live nodes displayed, and listed. -/
theorem Displays.history (past : app.History acts t app') (h : app.Displays k)
    (consistent : app.Consistent H) (hacts : ∀ a ∈ acts, a.OfServices)
    (own : ∀ a ∈ acts, a.Uses (Service.Made app.path)) (carried : Carries peers k t k') :
    app'.Displays k' ∧ app'.Consistent (held H t) := by
  induction past generalizing k H with
  | nil => exact ⟨h.waits carried, consistent⟩
  | @cons app mid app' a acts t u r first rest ih =>
    obtain ⟨k₁, hfirst, hrest⟩ := carried.split
    have hown := own a List.mem_cons_self
    have hdependable : ∀ e ∈ t, e.Dependable := fun e he => (hfirst.succeeded e he).dependable
    have hdisplays := h.performs consistent.tidy (hacts a List.mem_cons_self) hown first hfirst
    have hconsistent := consistent.performs hown hdependable first
    have hpath : mid.path = app.path := congrArg Profile.path (performs_profile first)
    rw [held_append]
    refine ih hdisplays hconsistent (fun b hb => hacts b (List.mem_cons_of_mem _ hb))
      (fun b hb => ?_) hrest
    rw [hpath]
    exact own b (List.mem_cons_of_mem _ hb)

end Application
end GattServer
