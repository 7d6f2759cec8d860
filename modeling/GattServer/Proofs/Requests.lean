/-
# Requests reach the right handler

A peer that reads or writes the value of an exported characteristic or descriptor reaches one
handler: that of the application that exported the object, for this operation and this kind of
node.  It is given the UUIDs of the node as they were at the export, and of the nodes above it, and
the bytes that are written (`Host.requests_delivered`).

| application | handler | answer |
| --- | --- | --- |
| dropped | | `org.bluez.Error.Failed`, `application has shut down` |
| held | absent | `org.bluez.Error.NotSupported`, `No callback registered.` |
| held | fails | `org.bluez.Error.Failed`, in the words of the handler |
| held | succeeds | the bytes that were read, or nothing |

Which handler belongs to a node is said here by the node (`Handlers.reader?`, `Handlers.writer?`).
A call does not know the node: the object has copied the UUIDs, a request carries them, and the
application tells the kinds apart by the request.  So a call is followed along this way: from the
object to the request (`Connection.receive_readValue`), to the handler (`Handlers.dispatch_read`)
and to the answer (`Host.delivered_complete`).  Which node the object was exported for is known
from `Host.Scene.sound_rehearse`.

Calls may come at any time, also while an operation of the same application or of another one waits
for an answer: what is exported so far can be read and written already.
-/

import GattServer.Proofs.Inquiry
import GattServer.Proofs.Rehearsals

namespace GattServer

namespace MethodCall

/-- Reads the value of an object. -/
def readValue (path : ObjectPath) (kind : ObjectKind) (options : List (String × Value)) :
    MethodCall :=
  ⟨path, kind.interface, "ReadValue", [.named options]⟩

/-- Writes the value of an object. -/
def writeValue (path : ObjectPath) (kind : ObjectKind) (value : List UInt8)
    (options : List (String × Value)) : MethodCall :=
  ⟨path, kind.interface, "WriteValue", [.bytes value, .named options]⟩

end MethodCall

/-! ### From the object to the request -/

namespace Connection

variable {k : Connection} {q : ObjectPath} {kind : ObjectKind} {o : Object} {i : AppId}
  {target : Target} {member : String} {arguments : List Value} {response : Response}

/-- The methods for values are no subscriptions. -/
theorem subscription?_of_valueMethod?
    (h : valueMethod? i target member arguments = some response) :
    (Facet.object o).subscription? member = none := by
  unfold valueMethod? at h
  split at h
  · cases o <;> rfl
  · cases o <;> rfl
  · cases h

/-- **An object passes a method for values on**, to the address it has. -/
theorem receive_of_valueMethod? (hobject : k.objects.object? q kind = some o)
    (haddress : o.address? = some (i, target))
    (h : valueMethod? i target member arguments = some response) :
    k.receive ⟨q, kind.interface, member, arguments⟩ = (response, k, []) := by
  obtain ⟨objects, hat, hfind⟩ := exists_at? hobject
  have hfacet : objects.facet? kind.interface = some (.object o) := by
    rw [facet?_interface, hfind]
    rfl
  have hmethod : (Facet.object o).method? q objects member arguments = some response := by
    cases o with
    | characteristic | descriptor =>
      obtain ⟨rfl, rfl⟩ := Prod.mk.inj (Option.some.inj haddress)
      exact h
    | objectManager | service | advertisement => cases haddress
  rw [receive]
  dsimp only
  rw [hat]
  dsimp only
  rw [hfacet]
  dsimp only
  rw [subscription?_of_valueMethod? h, hmethod]
  rfl

theorem receive_readValue (hobject : k.objects.object? q kind = some o)
    (haddress : o.address? = some (i, target)) (options : List (String × Value)) :
    k.receive (.readValue q kind options) = (.request i (.read target), k, []) :=
  receive_of_valueMethod? hobject haddress rfl

theorem receive_writeValue (hobject : k.objects.object? q kind = some o)
    (haddress : o.address? = some (i, target)) (value : List UInt8)
    (options : List (String × Value)) :
    k.receive (.writeValue q kind value options) = (.request i (.write target value), k, []) :=
  receive_of_valueMethod? hobject haddress rfl

end Connection

/-! ### From the request to the handler -/

namespace Handlers

variable {σ α : Type} {node : Node} {target : Target}

/-- The handler that reads the value of a node, if it is set up, with the UUIDs it is given. -/
def reader? (hs : Handlers σ) (app : Application) :
    Node → Option (σ → Except String (List UInt8) × σ)
  | .service _ => none
  | .characteristic s c => hs.read.map fun f => f app s.properties.uuid c.properties.uuid
  | .descriptor s c d =>
    hs.descriptorRead.map fun f => f app s.properties.uuid c.properties.uuid d.properties.uuid

/-- The handler that takes a new value of a node, if it is set up, with the UUIDs and the bytes it
is given. -/
def writer? (hs : Handlers σ) (app : Application) (value : List UInt8) :
    Node → Option (σ → Except String Unit × σ)
  | .service _ => none
  | .characteristic s c => hs.write.map fun f => f app s.properties.uuid c.properties.uuid value
  | .descriptor s c d =>
    hs.descriptorWrite.map fun f =>
      f app s.properties.uuid c.properties.uuid d.properties.uuid value

/-- What a handler answers, if there is one. -/
def answerBy (result : α → Option (List UInt8)) (memory : σ) :
    Option (σ → Except String α × σ) → Except CallbackError (Option (List UInt8)) × σ
  | none => (.error .notRegistered, memory)
  | some f => (((f memory).1.map result).mapError .failed, (f memory).2)

/-- **A request to read a node goes to the handler that reads it.** -/
theorem dispatch_read (hs : Handlers σ) (app : Application) (htarget : node.target? = some target)
    (memory : σ) :
    hs.dispatch app (.read target) memory = answerBy some memory (hs.reader? app node) := by
  cases node with
  | service => cases htarget
  | characteristic s c =>
    obtain rfl := Option.some.inj htarget
    rw [reader?]
    cases hread : hs.read <;> simp only [dispatch, hread] <;> rfl
  | descriptor s c d =>
    obtain rfl := Option.some.inj htarget
    rw [reader?]
    cases hread : hs.descriptorRead <;> simp only [dispatch, hread] <;> rfl

/-- **A request to write a node goes to the handler that takes its values.** -/
theorem dispatch_write (hs : Handlers σ) (app : Application) (htarget : node.target? = some target)
    (value : List UInt8) (memory : σ) :
    hs.dispatch app (.write target value) memory =
      answerBy (fun _ => none) memory (hs.writer? app value node) := by
  cases node with
  | service => cases htarget
  | characteristic s c =>
    obtain rfl := Option.some.inj htarget
    rw [writer?]
    cases hwrite : hs.write <;> simp only [dispatch, hwrite] <;> rfl
  | descriptor s c d =>
    obtain rfl := Option.some.inj htarget
    rw [writer?]
    cases hwrite : hs.descriptorWrite <;> simp only [dispatch, hwrite] <;> rfl

theorem covers_read (hs : Handlers σ) (app : Application) (htarget : node.target? = some target) :
    hs.covers (.read target) = (hs.reader? app node).isSome := by
  cases node with
  | service => cases htarget
  | characteristic | descriptor =>
    obtain rfl := Option.some.inj htarget
    exact Option.isSome_map.symm

theorem covers_write (hs : Handlers σ) (app : Application) (htarget : node.target? = some target)
    (value : List UInt8) :
    hs.covers (.write target value) = (hs.writer? app value node).isSome := by
  cases node with
  | service => cases htarget
  | characteristic | descriptor =>
    obtain rfl := Option.some.inj htarget
    exact Option.isSome_map.symm

end Handlers

/-! ### From the handler to the answer -/

/-- A call of a method fails with an error of this name and this wording. -/
def MethodError.Answers (name message : String) (r : Except MethodError MethodResult) : Prop :=
  ∃ e, r = .error e ∧ e.name = name ∧ e.message = message

namespace Host

variable {α : Type} {h : Host} {s : Scene} {log : List Entry} {moves : List Move} {n : Nat}
  {q : ObjectPath} {kind : ObjectKind} {o : Object} {i : AppId} {a : Hosted} {r : Request}
  {c : MethodCall} {response : Response}

/-- **What becomes of a request** that is sent to an application, where one handler is in charge.
Nothing but this handler is run, and it is run once: the memory that the application's handlers
share is what this one leaves, the request is on record once, and everything else on the host is as
before. -/
structure Delivered (h : Host) (i : AppId) (a : Hosted) (r : Request)
    (handler : Option (Memory → Except String α × Memory)) (result : α → MethodResult)
    (outcome : Except MethodError MethodResult × Host × List Event) : Prop where
  /-- An application that has been dropped runs no handler. -/
  dropped : a.alive = false →
    MethodError.Answers "org.bluez.Error.Failed" "application has shut down" outcome.1 ∧
      outcome.2 = (h, [])
  /-- Without a handler nothing is run. -/
  absent : a.alive = true → handler = none →
    MethodError.Answers "org.bluez.Error.NotSupported" "No callback registered." outcome.1 ∧
      outcome.2 = (h, [])
  /-- What the handler returns is the answer. -/
  succeeded : ∀ f x memory, a.alive = true → handler = some f → f a.memory = (.ok x, memory) →
    outcome = (.ok (result x), h.setApp i { a with memory }, [.handled a.application.name r])
  /-- The failure of the handler is the answer. -/
  failed : ∀ f message memory, a.alive = true → handler = some f →
    f a.memory = (.error message, memory) →
      MethodError.Answers "org.bluez.Error.Failed" message outcome.1 ∧
        outcome.2 = (h.setApp i { a with memory }, [.handled a.application.name r])
  /-- What is exported, and what the applications store and list, stays. -/
  kept : outcome.2.1.links = h.links ∧
    outcome.2.1.apps.map Hosted.application = h.apps.map Hosted.application

/-- A new memory changes no application. -/
theorem map_application_setApp (hosted : h.apps[i]? = some a) (memory : Memory) :
    (h.setApp i { a with memory }).apps.map Hosted.application =
      h.apps.map Hosted.application := by
  have hsame : (h.apps.map Hosted.application)[i]? = some a.application := by
    rw [List.getElem?_map, hosted, Option.map_some]
  rw [setApp, List.map_set]
  exact set_of_getElem? hsame

/-- A call that the connection passes on at once is completed by the host. -/
theorem receive_eq_complete (serving : (h.link n).serving = true)
    (passed : (h.link n).connection.receive c = (response, (h.link n).connection, [])) :
    h.receive n c = some (h.complete response) := by
  rw [receive, if_pos serving, passed]
  dsimp only
  rw [setLink_link]
  rfl

/-- **A request is completed** by the handler it goes to. -/
theorem delivered_complete (hosted : h.apps[i]? = some a)
    {handler : Option (Memory → Except String α × Memory)} {bytes? : α → Option (List UInt8)}
    (dispatched : a.handlers.dispatch a.application r a.memory =
      Handlers.answerBy bytes? a.memory handler)
    (covered : a.handlers.covers r = handler.isSome) :
    h.Delivered i a r handler (fun x => .ofBytes (bytes? x)) (h.complete (.request i r)) := by
  cases alive : a.alive with
  | false =>
    have hgone : h.app? i = none := by
      rw [app?, hosted, Option.filter_some, alive]
      rfl
    have hcomplete : h.complete (.request i r) = (.error .shutDown, h, []) := by
      rw [complete, handle, hgone]
      rfl
    rw [hcomplete]
    refine ⟨fun _ => ⟨⟨_, rfl, rfl, rfl⟩, rfl⟩, ?_, ?_, ?_, rfl, rfl⟩ <;> simp [alive]
  | true =>
    have hheld : h.app? i = some a := app?_eq_some.2 ⟨hosted, alive⟩
    have hcomplete : h.complete (.request i r) =
        (((Handlers.answerBy bytes? a.memory handler).1.map MethodResult.ofBytes).mapError
            CallbackError.methodError,
          h.setApp i { a with memory := (Handlers.answerBy bytes? a.memory handler).2 },
          if handler.isSome then [.handled a.application.name r] else []) := by
      rw [complete, handle, hheld, Option.map_some, dispatched, covered]
    rw [hcomplete]
    cases handler with
    | none =>
      have hsame : h.setApp i { a with memory := a.memory } = h := setApp_self hosted
      refine ⟨?_, fun _ _ => ⟨⟨_, rfl, rfl, rfl⟩, ?_⟩, ?_, ?_, rfl, ?_⟩
      · simp [alive]
      · exact congrArg (·, []) hsame
      · rintro f x memory - ⟨⟩
      · rintro f message memory - ⟨⟩
      · exact map_application_setApp hosted a.memory
    | some f =>
      refine ⟨?_, ?_, ?_, ?_, rfl, map_application_setApp hosted _⟩
      · simp [alive]
      · rintro - ⟨⟩
      · rintro _ x memory - ⟨⟩ hf
        simp only [Handlers.answerBy, hf]
        rfl
      · rintro _ message memory - ⟨⟩ hf
        simp only [Handlers.answerBy, hf]
        exact ⟨⟨_, rfl, rfl, rfl⟩, rfl⟩

/-- **Requests about an object are delivered** to a handler of the application that exported it:
the one that belongs to the node for which the object was last exported. -/
def Delivers (h : Host) (log : List Entry) (n : Nat) (q : ObjectPath) (kind : ObjectKind) : Prop :=
  ∃ e node a target, LastExport log n q kind e node ∧ h.apps[e.app]? = some a ∧
    node.target? = some target ∧
    (∀ options, ∃ outcome, h.receive n (.readValue q kind options) = some outcome ∧
      h.Delivered e.app a (.read target) (a.handlers.reader? a.application node)
        (fun bytes => .value (.bytes bytes)) outcome) ∧
    ∀ value options, ∃ outcome, h.receive n (.writeValue q kind value options) = some outcome ∧
      h.Delivered e.app a (.write target value)
        (a.handlers.writer? a.application value node) (fun _ => .nothing) outcome

/-- **Reads and writes reach the right handler with the right UUIDs.**  A host has gone through any
moves: applications were set up with any handlers, carried out operations call by call on shared
connections and connections of their own, and may be in the middle of one, have given it up or have
been dropped; calls failed, and at any moment peers called what they liked.  Then requests about any
characteristic or descriptor that is exported where peers can reach it are delivered. -/
theorem requests_delivered (rehearsed : Scene.fresh.rehearse moves = (log, s))
    (hkind : kind = .characteristic ∨ kind = .descriptor)
    (exported : (s.host.link n).connection.objects.object? q kind = some o)
    (serving : (s.host.link n).serving = true) : s.host.Delivers log n q kind := by
  have attributed : Attributed log s.host := by
    have sound := Scene.sound_rehearse moves
    rw [rehearsed] at sound
    exact sound.attributed
  have hnode : kind.isNode = true := by
    rcases hkind with rfl | rfl <;> rfl
  obtain ⟨e, node, lastExport, haddress⟩ :=
    attributed.origin n q kind o.address? hnode ⟨o, exported, rfl⟩
  -- the application is still there, even if it has been dropped
  have hlogged : e ∈ log := by
    obtain ⟨before, after, rfl, -⟩ := lastExport.last
    simp
  obtain ⟨a, hosted⟩ : ∃ a, s.host.apps[e.app]? = some a :=
    ⟨_, List.getElem?_eq_getElem (attributed.hosted e hlogged)⟩
  obtain ⟨target, htarget⟩ : ∃ target, node.target? = some target := by
    have hnodeKind : node.kind = kind := congrArg Prod.snd lastExport.pair
    cases node with
    | service => rcases hkind with rfl | rfl <;> cases hnodeKind
    | characteristic | descriptor => exact ⟨_, rfl⟩
  have hsent : o.address? = some (e.app, target) := by
    rw [← haddress, Node.address?_object, htarget, Option.map_some]
  refine ⟨e, node, a, target, lastExport, hosted, htarget, fun options => ?_,
    fun value options => ?_⟩
  · have hpassed := Connection.receive_readValue exported hsent options
    exact ⟨_, receive_eq_complete serving hpassed, delivered_complete hosted
      (a.handlers.dispatch_read _ htarget a.memory) (a.handlers.covers_read _ htarget)⟩
  · have hpassed := Connection.receive_writeValue exported hsent value options
    exact ⟨_, receive_eq_complete serving hpassed, delivered_complete hosted
      (a.handlers.dispatch_write _ htarget value a.memory)
      (a.handlers.covers_write _ htarget value)⟩

end Host

/-! ### A sample -/

/-- The next calls of an operation, with nothing in between. -/
def Host.Move.calls (id : AppId) (n : Nat) : List Host.Move :=
  (List.replicate n [.proceed id, .carry id]).flatten

/-- An application that echoes reads of characteristics and refuses writes to descriptors is in the
middle of publishing the battery: its nodes are exported, and nothing is announced.  In between a
client writes to the descriptor, and another application is dropped while it claims its name. -/
def Sample.consultation : List Host.Move :=
  let handlers := Responder.handlers (some .echo) none none (some (.fail "sealed"))
  [.turn (.create profile.settings handlers false), .start 0 .run] ++ Host.Move.calls 0 3 ++
    [.proceed 0, .start 0 (.add battery)] ++ Host.Move.calls 0 3 ++
    [.turn (.receive 0 (.writeValue label.path .descriptor [7] [])),
      .turn (.create profile.settings {} true), .start 1 .run] ++ Host.Move.calls 1 1 ++
    [.turn (.drop 1)] ++ Host.Move.calls 0 1

/-- The exchanges in the consultation, and the scene after it. -/
def Sample.consulted : List Host.Entry × Host.Scene := Host.Scene.fresh.rehearse consultation

namespace Host

/-- The hypotheses are satisfiable: the descriptor is exported on the shared connection. -/
theorem requests_delivered_label :
    (∃ o, (Sample.consulted.2.host.link 0).connection.objects.object? Sample.label.path
      .descriptor = some o) ∧ (Sample.consulted.2.host.link 0).serving = true ∧
        Sample.consulted.2.host.Delivers Sample.consulted.1 0 Sample.label.path .descriptor := by
  obtain ⟨o, exported⟩ := Option.isSome_iff_exists.1
    (show ((Sample.consulted.2.host.link 0).connection.objects.object? Sample.label.path
      .descriptor).isSome by decide +kernel)
  have serving : (Sample.consulted.2.host.link 0).serving = true := by decide +kernel
  have rehearsed : Scene.fresh.rehearse Sample.consultation =
      (Sample.consulted.1, Sample.consulted.2) := (Prod.eta Sample.consulted).symm
  exact ⟨⟨o, exported⟩, serving, requests_delivered rehearsed (Or.inr rfl) exported serving⟩

/-- The first application is still in the middle of its operation.  Two of its four handlers are
absent, and one fails. -/
example :
    (Sample.consulted.2.pending 0).isSome ∧
      Sample.consulted.2.host.answer? 0 (.writeValue Sample.label.path .descriptor [7] []) =
        some (.error (.failed "sealed")) ∧
      Sample.consulted.2.host.answer? 0 (.readValue Sample.label.path .descriptor []) =
        some (.error (.notSupported "No callback registered.")) :=
  ⟨rfl, rfl, rfl⟩

end Host
end GattServer
