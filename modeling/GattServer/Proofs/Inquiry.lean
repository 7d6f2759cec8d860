/-
# What peers are told

Peers ask the object of a node for its properties, or the object manager of an application for its
directory.  As long as no call of the application fails, both answers tell the same of every live
node, up to whether someone has subscribed, which only the object tells; and the value of a
characteristic that was updated is the new one in every answer (`Application.shown_as_listed`).

Every live node is displayed and listed (`Application.Displays.history`).  So it remains to follow a
call of a method through the node, the interface and the object to its answer, which is done once
for each inquiry, and for whatever host serves the application.
-/

import GattServer.Proofs.Display

namespace GattServer

/-! ### Inquiries -/

namespace MethodCall

/-- Asks for the directory of an application. -/
def getManagedObjects (path : ObjectPath) : MethodCall :=
  ⟨path, Interface.objectManager, "GetManagedObjects", []⟩

/-- Asks for all properties of an interface. -/
def getAll (path : ObjectPath) (interface : String) : MethodCall :=
  ⟨path, Interface.properties, "GetAll", [.text interface]⟩

/-- Asks for one property of an interface. -/
def get (path : ObjectPath) (interface name : String) : MethodCall :=
  ⟨path, Interface.properties, "Get", [.text interface, .text name]⟩

end MethodCall

namespace Connection

variable {k : Connection} {path : ObjectPath} {kind : ObjectKind} {o : Object} {id : AppId}

theorem exists_at? (h : k.objects.object? path kind = some o) :
    ∃ objects, k.objects.at? path = some objects ∧ objects.find? kind = some o :=
  Option.bind_eq_some_iff.1 h

theorem check_interface (kind : ObjectKind) : NameKind.interface.check kind.interface = .ok () := by
  cases kind <;> rfl

/-- The interface of a kind is offered by the object of that kind, if there is one. -/
theorem facet?_interface (objects : Objects) (kind : ObjectKind) :
    objects.facet? kind.interface = (objects.find? kind).map .object := by
  cases kind <;> rfl

theorem subject_interface {objects : Objects} (h : objects.find? kind = some o) :
    objects.subject kind.interface = .ok (.object o) := by
  rw [Objects.subject, check_interface]
  dsimp only
  rw [facet?_interface, h]
  rfl

theorem receive_getManagedObjects (h : Holds path .objectManager (· = .objectManager id) k) :
    (k.receive (.getManagedObjects path)).1 = .listing id := by
  obtain ⟨_, hobject, rfl⟩ := h
  obtain ⟨objects, hat, hfind⟩ := exists_at? hobject
  have hfacet : objects.facet? Interface.objectManager = some (.object (.objectManager id)) :=
    congrArg (Option.map Facet.object) hfind
  rw [receive, MethodCall.getManagedObjects]
  dsimp only
  rw [hat]
  dsimp only
  rw [hfacet]
  rfl

theorem receive_getAll (h : k.objects.object? path kind = some o) :
    (k.receive (.getAll path kind.interface)).1 =
      .reply (.ok (.value (.named o.properties.entries))) := by
  obtain ⟨objects, hat, hfind⟩ := exists_at? h
  have hsubject := subject_interface hfind
  rw [receive, MethodCall.getAll]
  dsimp only
  rw [hat]
  show Response.reply (do
    let facet ← objects.subject kind.interface
    .ok (.value (.named facet.allProperties.entries))) = _
  rw [hsubject]
  rfl

/-- **An inquiry about one property** is answered by what the object answers for it. -/
theorem receive_get_eq (h : k.objects.object? path kind = some o) (name : String) :
    (k.receive (.get path kind.interface name)).1 = .reply
      ((o.property? name).elim (.error (.unknownProperty name)) fun v =>
        .ok (.value (.variant v))) := by
  obtain ⟨objects, hat, hfind⟩ := exists_at? h
  have hsubject := subject_interface hfind
  have hproperty : (Facet.object o).property? name = o.property? name := rfl
  rw [receive, MethodCall.get]
  dsimp only
  rw [hat]
  show Response.reply (objects.subject kind.interface >>= _) = _
  rw [hsubject]
  dsimp only [bind, Except.bind]
  rw [hproperty]
  cases o.property? name <;> rfl

theorem receive_get {name : String} {v : Value} (h : k.objects.object? path kind = some o)
    (hproperty : o.property? name = some v) :
    (k.receive (.get path kind.interface name)).1 = .reply (.ok (.value (.variant v))) := by
  rw [receive_get_eq h, hproperty]
  rfl

/-- An inquiry about all properties is answered on the spot, by what is at the path. -/
theorem exists_reply_getAll (node : Option Objects) (path : ObjectPath) (interface : String) :
    ∃ r, ∀ k : Connection, k.objects.at? path = node →
      (k.receive (.getAll path interface)).1 = .reply r := by
  cases node with
  | none =>
    refine ⟨.error (.unknownObject path), fun k hat => ?_⟩
    rw [receive, MethodCall.getAll]
    dsimp only
    rw [hat]
  | some objects =>
    refine ⟨do
      let facet ← objects.subject interface
      .ok (.value (.named facet.allProperties.entries)), fun k hat => ?_⟩
    rw [receive, MethodCall.getAll]
    dsimp only
    rw [hat]
    rfl

end Connection

namespace Host

variable {h h' : Host} {app : Application} {k k' : Connection} {n : Nat} {c : MethodCall}

/-- The answer to a call of a method on a connection that peers reach. -/
def answer? (h : Host) (n : Nat) (c : MethodCall) : Option (Except MethodError MethodResult) :=
  (h.receive n c).map fun r => r.1

theorem Serves.answer?_eq (serves : h.Serves n k app) :
    h.answer? n c =
      some ((h.setLink n ⟨(k.receive c).2.1, true⟩).complete (k.receive c).1).1 := by
  rw [answer?, Host.receive, serves.link_eq, if_pos rfl]
  rfl

theorem Serves.answer?_reply (serves : h.Serves n k app) {r : Except MethodError MethodResult}
    (reply : (k.receive c).1 = .reply r) : h.answer? n c = some r := by
  rw [serves.answer?_eq, reply]
  rfl

theorem Serves.answer?_listing (serves : h.Serves n k app)
    (listing : (k.receive c).1 = .listing app.id) :
    h.answer? n c = some (.ok (.directory app.directory)) := by
  obtain ⟨a, ha, rfl, rfl⟩ := serves.hosted
  have hget : (h.setLink a.link ⟨(k.receive c).2.1, true⟩).apps[a.application.id]? = some a :=
    (app?_eq_some.1 ha).1
  rw [serves.answer?_eq, listing, Host.complete, hget]

/-- **A peer is told the same about a node by its object and by the directory**: that it has one
interface, with the same properties in the same order.  A characteristic adds whether someone has
subscribed. -/
def TellsAlike (h : Host) (n : Nat) (root : ObjectPath) (node : Node) : Prop :=
  ∃ directory properties extra,
    h.answer? n (.getManagedObjects root) = some (.ok (.directory directory)) ∧
    directory.find? node.path = some ((∅ : InterfaceMap).insert node.kind.interface properties) ∧
    h.answer? n (.getAll node.path node.kind.interface) =
      some (.ok (.value (.named (properties.entries ++ extra)))) ∧
    Object.Besides node.kind extra

/-- What a peer is told of a node that is displayed and listed. -/
theorem Serves.tellsAlike (serves : h.Serves n k app) {H : Held} (displays : app.Displays k)
    (consistent : app.Consistent H) {node : Node} (hnode : node ∈ app.nodes) :
    h.TellsAlike n app.path node := by
  obtain ⟨s, hs, -⟩ := Application.mem_nodes.1 hnode
  have hmanager := displays.manager (displays.running s hs)
  obtain ⟨o, hobject, hkind, hinterfaces⟩ := displays.nodes node hnode
  have hisNode : o.kind.isNode = true := by rw [hkind]; exact node.isNode_kind
  obtain ⟨extra, hextra, hentries⟩ := Object.entries_properties hisNode
  have hlisted : app.directory.find? node.path = some o.interfaces := by
    rw [consistent.shown node hnode, hinterfaces]
    rfl
  have hall := serves.answer?_reply (Connection.receive_getAll hobject)
  refine ⟨app.directory, o.properties.erase "Notifying", extra,
    serves.answer?_listing (Connection.receive_getManagedObjects hmanager), ?_, ?_, ?_⟩
  · rw [hlisted, Object.interfaces, hkind]
    rfl
  · rw [hall, hentries]
  · rw [hkind] at hextra
    exact hextra

end Host

/-! ### After an update -/

/-- The value that a list of interfaces shows for a characteristic. -/
def InterfaceMap.value? (interfaces : InterfaceMap) : Option Value :=
  (interfaces.find? Interface.characteristic).bind fun properties => properties.find? "Value"

theorem Characteristic.value?_interfaces (c : Characteristic) :
    c.table.interfaces.value? = some (.bytes c.properties.value) := rfl

theorem Object.value?_interfaces (o : CharacteristicObject) :
    (Object.characteristic o).interfaces.value? = some (.bytes o.properties.value) := by
  rw [Object.interfaces_characteristic]
  exact o.declared.value?_interfaces

/-- What is true after an update of a value: the characteristic has it, and is listed and exported
with it; and all that other nodes show, store and are listed with is as before. -/
structure Host.Updated (h h' : Host) (n : Nat) (app app' : Application) (path : ObjectPath)
    (value : List UInt8) : Prop where
  live : ∃ s ∈ app'.services, ∃ c ∈ s.characteristics, c.path = path
  stored : ∀ s ∈ app'.services, ∀ c ∈ s.characteristics, c.path = path →
    c.properties.value = value
  listed : ∃ interfaces,
    h'.answer? n (.getManagedObjects app'.path) = some (.ok (.directory app'.directory)) ∧
      app'.directory.find? path = some interfaces ∧ interfaces.value? = some (.bytes value)
  exported : h'.answer? n (.get path Interface.characteristic "Value") =
    some (.ok (.value (.variant (.bytes value))))
  othersStored : (app'.nodes.map Node.face).filter (·.path ≠ path) =
    (app.nodes.map Node.face).filter (·.path ≠ path)
  othersListed : ∀ q ≠ path, app'.directory.find? q = app.directory.find? q
  othersExported : ∀ q ≠ path, ∀ interface,
    h'.answer? n (.getAll q interface) = h.answer? n (.getAll q interface)

namespace Application

variable {app app' : Application} {path : ObjectPath} {value : List UInt8}
  {services : List Service} {acts : List Act} {t : List (Exchange Application)} {r : Answer}
  {k k₀ k' : Connection} {h h' : Host} {n : Nat} {H : Held} {id : AppId} {profile : Profile}

/-- A new value leaves the faces of the other nodes. -/
theorem Tidy.others_showing (tidy : app.Tidy (· = app.path))
    (found : setValueIn? path value app.services = some services) :
    ((app.showing path value services).nodes.map Node.face).filter (·.path ≠ path) =
      (app.nodes.map Node.face).filter (·.path ≠ path) := by
  rw [tidy.nodes_showing found, List.filter_map]
  have hpaths : ((fun f : Node.Face => decide (f.path ≠ path)) ∘ Node.Face.withValue path value) =
      fun f => decide (f.path ≠ path) := by
    funext f
    rw [Function.comp_apply, Node.Face.path_withValue]
  rw [hpaths]
  refine (List.map_congr_left fun f hf => ?_).trans (List.map_id _)
  have hne : f.path ≠ path := by simpa using List.of_mem_filter hf
  exact if_neg hne

theorem mem_nodes_characteristic {s : Service} {c : Characteristic} (hs : s ∈ app.services)
    (hc : c ∈ s.characteristics) : Node.characteristic s c ∈ app.nodes :=
  mem_nodes.2 ⟨s, hs, Service.mem_nodes.2 (Or.inr ⟨c, hc, Or.inl rfl⟩)⟩

theorem exists_characteristic (h : (path, ObjectKind.characteristic) ∈ app.nodes.map Node.pair) :
    ∃ s ∈ app.services, ∃ c ∈ s.characteristics, c.path = path := by
  obtain ⟨n, hn, hpair⟩ := List.mem_map.1 h
  obtain ⟨hpath, hkind⟩ := Prod.mk.inj hpair
  obtain ⟨s, hs, hns⟩ := mem_nodes.1 hn
  rcases Service.mem_nodes.1 hns with rfl | ⟨c, hc, rfl | ⟨d, -, rfl⟩⟩
  · cases hkind
  · exact ⟨s, hs, c, hc, hpath⟩
  · cases hkind

/-- **A peer that asks for the value of a characteristic** is told what is stored. -/
theorem answer?_value (serves : h.Serves n k app) (displays : app.Displays k) {s : Service}
    {c : Characteristic} (hs : s ∈ app.services) (hc : c ∈ s.characteristics) :
    h.answer? n (.get c.path Interface.characteristic "Value") =
      some (.ok (.value (.variant (.bytes c.properties.value)))) := by
  obtain ⟨o, hobject, hkind, hinterfaces⟩ :=
    displays.nodes _ (mem_nodes_characteristic hs hc)
  have hproperty : o.property? "Value" = some (.bytes c.properties.value) := by
    cases o with
    | characteristic o =>
      have hvalues := congrArg InterfaceMap.value? hinterfaces
      exact (Object.value?_interfaces o).symm.trans hvalues
    | _ => cases hkind
  have hreply : (k.receive (.get c.path Interface.characteristic "Value")).1 =
      .reply (.ok (.value (.variant (.bytes c.properties.value)))) :=
    Connection.receive_get hobject hproperty
  exact serves.answer?_reply hreply

/-- **After an update** that succeeds, the value is the new one wherever the characteristic shows,
and nothing else has changed. -/
theorem updated_of_showing (consistent : app.Consistent H) (displays : app.Displays k)
    (found : setValueIn? path value app.services = some services)
    (carried : Connection.Carries Connection.nobody k
      [⟨app.showing path value services, .updateValue path value, .ok ()⟩] k')
    (serves : h.Serves n k app) (serves' : h'.Serves n k' (app.showing path value services)) :
    h.Updated h' n app (app.showing path value services) path value := by
  have tidy := consistent.tidy
  have hconsistent := consistent.showing found
  have hdisplays := displays.showing tidy found carried
  obtain ⟨s₀, hs₀, c₀, hc₀, hpath₀⟩ := exists_of_setValueIn? found
  -- what is listed at the path
  have hlisted : ∃ interfaces, (app.showing path value services).directory.find? path =
      some interfaces ∧ interfaces.value? = some (.bytes value) := by
    have hshown : app.directory.find? path = some c₀.table.interfaces :=
      hpath₀ ▸ consistent.shown _ (mem_nodes_characteristic hs₀ hc₀)
    exact ⟨(c₀.withValue value).table.interfaces, by rw [find?_showing, if_pos rfl, hshown]; rfl,
      rfl⟩
  have hpair : (path, ObjectKind.characteristic) ∈
      (app.showing path value services).nodes.map Node.pair := by
    rw [tidy.pairs_showing found, ← hpath₀]
    exact List.mem_map_of_mem (f := Node.pair) (mem_nodes_characteristic hs₀ hc₀)
  obtain ⟨s, hs, c, hc, hpath⟩ := exists_characteristic hpair
  obtain ⟨interfaces, hfind, hvalue⟩ := hlisted
  have hstored : ∀ s ∈ (app.showing path value services).services, ∀ c ∈ s.characteristics,
      c.path = path → c.properties.value = value := by
    intro s hs c hc hpath
    have hshown : (app.showing path value services).directory.find? c.path =
        some c.table.interfaces := hconsistent.shown _ (mem_nodes_characteristic hs hc)
    rw [hpath, hfind] at hshown
    obtain rfl := Option.some.inj hshown
    rw [c.value?_interfaces] at hvalue
    cases hvalue
    rfl
  have hmanager := Connection.receive_getManagedObjects
    (hdisplays.manager (hdisplays.running s hs))
  refine ⟨⟨s, hs, c, hc, hpath⟩, hstored, ⟨interfaces, serves'.answer?_listing hmanager, hfind,
    hvalue⟩, ?_, tidy.others_showing found, fun q hq => ?_, fun q hq interface => ?_⟩
  · have hget := answer?_value serves' hdisplays hs hc
    rwa [hpath, hstored s hs c hc hpath] at hget
  · rw [find?_showing, if_neg hq]
  · -- the call touches nothing at the path
    obtain ⟨daemon, done, rfl⟩ := carried.alone
    obtain ⟨reply, hreply⟩ := Connection.exists_reply_getAll (k.objects.at? q) q interface
    have hsame : (k.perform daemon (.updateValue path value)).connection.objects.at? q =
        k.objects.at? q := by
      rw [Connection.perform_updateValue done]
      exact FinMap.find?_modify_of_ne _ _ hq
    rw [serves'.answer?_reply (hreply _ hsame), serves.answer?_reply (hreply k rfl)]

/-- **Objects and directory tell the same.**  An application acts on a connection in any way that
concerns its services, none of its calls fails, and peers call what they like at any moment.  Then
a host that serves it tells peers the same of every live node, whether they ask the object or list
the directory.  After an update that succeeds all three copies of the value are the new one, and
all other nodes show, store and are listed with what they were before. -/
theorem shown_as_listed (past : (fresh id profile).History acts t app)
    (hacts : ∀ a ∈ acts, a.OfServices) (own : ∀ a ∈ acts, a.Uses (Service.Made profile.path))
    (carried : Connection.Carries Connection.anyone k₀ t k) (serves : h.Serves n k app) :
    (∀ node ∈ app.nodes, h.TellsAlike n app.path node) ∧
      ∀ path value h' events, h.operate id (updateValue path value) = some (.ok (), h', events) →
        ∃ a, h'.app? id = some a ∧ h.Updated h' n app a.application path value := by
  obtain ⟨displays, consistent⟩ := (displays_fresh id profile k₀).history past
    (consistent_fresh id profile) hacts own carried
  have hid : app.id = id := past.id
  refine ⟨fun node hnode => serves.tellsAlike displays consistent hnode, ?_⟩
  intro path value h' events done
  subst hid
  obtain ⟨app', k', performs, hcarries, hserves⟩ := serves.operate done
  have hserves' := hserves (performs_id (a := .update path value) performs)
  rcases performs_updateValue performs with ⟨-, -, hfailed, -⟩ | ⟨services, found, rfl, ht⟩
  · cases hfailed
  · rw [ht] at hcarries
    have hcarried := hcarries (by simp [Exchange.Succeeded])
    obtain ⟨a, ha, happ, -⟩ := hserves'.hosted
    refine ⟨a, ha, ?_⟩
    rw [happ]
    exact updated_of_showing consistent displays found hcarried serves hserves'

end Application

/-! ### A sample -/

namespace Sample

/-- A characteristic that clients can subscribe to. -/
def rate : Characteristic :=
  ⟨heartRate.path.push (Segment.characteristic.numbered 1), heartRate.path,
    ⟨.ofAlias 0x2A37, .ofList [.notify], [60]⟩, 0, []⟩

/-- The service that is next to the battery, with this characteristic. -/
def pulse : Service := { heartRate with created := 1, characteristics := [rate] }

theorem made_pulse : pulse.Made profile.path := by
  have counted : Service.Made profile.path { heartRate with created := 1 } :=
    @Service.Made.counted _ _ _ rate rate.properties made_heartRate rfl
  exact .attached counted
    (@Characteristic.Made.created _ _ _ rate rate.properties made_heartRate rfl) rfl

/-- A host with one application. -/
def begun : Host := (Host.fresh.create profile.settings {} false).2

/-- Two services are added and one is removed, while a client subscribes and reads, and the value
it reads about is changed. -/
def visits : List (Act ⊕ MethodCall) :=
  [.inl .run, .inl (.add battery), .inl (.add pulse),
    .inr ⟨rate.path, Interface.characteristic, "StartNotify", []⟩,
    .inl (.update rate.path [61]),
    .inr ⟨rate.path, Interface.characteristic, "ReadValue", [.named []]⟩, .inl (.remove battery)]

theorem serves_begun : begun.Serves 0 .fresh (.fresh 0 profile) :=
  Host.serves_create rfl rfl

end Sample

namespace Application

/-- The hypotheses are satisfiable: two nodes are live in the end, both are told alike, and another
update shows in all copies. -/
theorem shown_as_listed_visited :
    let attended := (Sample.begun.attend 0 0 Sample.visits).2
    ∃ a h' b, attended.app? 0 = some a ∧ a.application.nodes.length = 2 ∧
      (∀ node ∈ a.application.nodes, attended.TellsAlike 0 a.application.path node) ∧
      h'.app? 0 = some b ∧
      attended.Updated h' 0 a.application b.application Sample.rate.path [62] := by
  intro attended
  have hsucceeded : ∀ e ∈ (Sample.begun.attend 0 0 Sample.visits).1, e.Succeeded := by
    decide +kernel
  have hlive : (attended.app? 0).map (·.application.nodes.length) = some 2 := by decide +kernel
  have hupdate : (attended.operate 0 (updateValue Sample.rate.path [62])).map (·.1.isOk) =
      some true := by decide +kernel
  have hacts : ∀ a ∈ Sample.visits.filterMap Sum.getLeft?,
      a.OfServices ∧ a.Uses (Service.Made Sample.profile.path) := by
    intro a ha
    have hmem : a ∈ [.run, .add Sample.battery, .add Sample.pulse, .update Sample.rate.path [61],
      .remove Sample.battery] := ha
    simp only [List.mem_cons, List.not_mem_nil, or_false] at hmem
    rcases hmem with rfl | rfl | rfl | rfl | rfl
    · exact ⟨trivial, trivial⟩
    · exact ⟨trivial, Sample.made_battery⟩
    · exact ⟨trivial, Sample.made_pulse⟩
    · exact ⟨trivial, trivial⟩
    · exact ⟨trivial, Sample.made_battery⟩
  obtain ⟨app, k, past, carried, serves⟩ := Sample.serves_begun.attend Sample.visits hsucceeded
  have hid : app.id = 0 := past.id
  obtain ⟨a, ha, rfl, -⟩ := serves.hosted
  rw [hid] at ha
  obtain ⟨halike, hupdated⟩ := shown_as_listed past (fun b hb => (hacts b hb).1)
    (fun b hb => (hacts b hb).2) carried serves
  obtain ⟨⟨r, h', events⟩, hdone, hok⟩ := Option.map_eq_some_iff.1 hupdate
  cases r with
  | error e => cases hok
  | ok =>
    obtain ⟨b, hb, hupdated⟩ := hupdated Sample.rate.path [62] h' events hdone
    have hlength : a.application.nodes.length = 2 := by
      rw [show attended.app? 0 = some a from ha] at hlive
      exact Option.some.inj hlive
    exact ⟨a, h', b, ha, hlength, halike, hb, hupdated⟩

end Application
end GattServer
