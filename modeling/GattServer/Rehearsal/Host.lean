/-
# Hosts

A host runs applications in a rehearsal.  It has connections, numbered from zero, whose daemons
answer as described, and applications, numbered in the order of their creation.  Most applications
share connection zero.  An application may instead have a connection of its own; peers reach it
once the application has been run or has started to advertise, and until the application is
dropped.

A dropped application no longer answers requests.  What it exported on the shared connection stays
there, and its directory can still be listed.
-/

import GattServer.Application.Advertising
import GattServer.Application.Publication
import GattServer.Connection.Reception
import GattServer.Rehearsal.Responder
import GattServer.Rehearsal.Traffic

namespace GattServer

/-- A connection in a rehearsal. -/
structure Link where
  /-- The connection. -/
  connection : Connection
  /-- Whether peers reach it. -/
  serving : Bool
  deriving Inhabited

/-- An application in a rehearsal. -/
structure Hosted where
  /-- The application. -/
  application : Application
  /-- Its handlers. -/
  handlers : Handlers Memory
  /-- What its handlers remember. -/
  memory : Memory
  /-- The number of its connection. -/
  link : Nat
  /-- Whether it is still held. -/
  alive : Bool

/-- The applications and connections of a rehearsal. -/
structure Host where
  /-- The connections; the first one is shared. -/
  links : List Link
  /-- The applications, oldest first. -/
  apps : List Hosted
  /-- The faults that calls on the shared connection may meet. -/
  faults : FaultPlan
  /-- What the daemons answer. -/
  daemon : Daemon

namespace Host

/-- A host without applications. -/
def fresh : Host := ⟨[⟨.fresh, true⟩], [], [], {}⟩

/-- The application of a number, if it is still held. -/
def app? (h : Host) (id : AppId) : Option Hosted := h.apps[id]?.filter Hosted.alive

/-- The connection of a number. -/
def link (h : Host) (n : Nat) : Link := h.links.getD n default

/-- The host with a connection replaced. -/
def setLink (h : Host) (n : Nat) (l : Link) : Host := { h with links := h.links.set n l }

/-- The host with an application replaced. -/
def setApp (h : Host) (id : AppId) (a : Hosted) : Host := { h with apps := h.apps.set id a }

/-! ### Applications come and go -/

/-- Sets an application up, on the shared connection or on one of its own.  A connection of its own
is opened even if the settings are then refused. -/
def create (h : Host) (settings : Settings) (handlers : Handlers Memory) (own : Bool) :
    Except Error AppId × Host :=
  let link := if own then h.links.length else 0
  let h := if own then { h with links := h.links ++ [⟨.fresh, false⟩] } else h
  match Application.new h.apps.length settings with
  | .error e => (.error e, h)
  | .ok application =>
    (.ok h.apps.length, { h with apps := h.apps ++ [⟨application, handlers, ∅, link, true⟩] })

/-- Drops an application, and closes its connection if it has one of its own. -/
def drop (h : Host) (id : AppId) : Host :=
  match h.app? id with
  | none => h
  | some a =>
    let h := h.setApp id { a with alive := false }
    if a.link = 0 then h else h.setLink a.link { h.link a.link with serving := false }

/-- Allocates the path of a new service of an application that is held. -/
def createService (h : Host) (id : AppId) (properties : ServiceProperties) (advertised : Bool) :
    Option (Except Error Service × Host) :=
  (h.app? id).map fun a =>
    match a.application.createService properties advertised with
    | .error e => (.error e, h)
    | .ok (service, application) => (.ok service, h.setApp id { a with application })

/-! ### Calls on the bus -/

/-- The traffic on a connection before anything happens. -/
def traffic (h : Host) (n : Nat) : Traffic := ⟨n, (h.link n).connection, h.faults, []⟩

/-- The host after some traffic. -/
def settle (h : Host) (t : Traffic) : Host :=
  { h.setLink t.link { h.link t.link with connection := t.connection } with faults := t.faults }

/-- Makes a call on the shared connection, for no application in particular. -/
def call (h : Host) (c : Call) : Answer × Host × List Event :=
  let (answer, t) := (h.traffic 0).tryCarry h.daemon c
  (answer, h.settle t, t.events)

/-- The bus of an application. -/
def busOf (h : Host) (a : Hosted) : Bus Traffic :=
  if a.link = 0 then Traffic.sharedBus h.daemon else Traffic.ownBus h.daemon

/-- Carries out an operation of an application that is held. -/
def operate (h : Host) (id : AppId) (op : Operation Unit) :
    Option (Except Error Unit × Host × List Event) :=
  (h.app? id).map fun a =>
    let ((result, application), t) := (a.application.script op).run (h.busOf a) (h.traffic a.link)
    (result, (h.settle t).setApp id { a with application }, t.events)

/-- Lets peers reach the connection of an application. -/
def reach (h : Host) (id : AppId) : Host :=
  match h.app? id with
  | none => h
  | some a => h.setLink a.link { h.link a.link with serving := true }

/-! ### Requests and calls from peers -/

/-- Lets an application that is held answer a request. -/
def handle (h : Host) (id : AppId) (r : Request) :
    Option (Except CallbackError (Option (List UInt8)) × Host × List Event) :=
  (h.app? id).map fun a =>
    let (result, memory) := a.handlers.dispatch a.application r a.memory
    (result, h.setApp id { a with memory },
      if a.handlers.covers r then [.handled a.application.name r] else [])

/-- Completes the answer to a call of a method. -/
def complete (h : Host) : Response → Except MethodError MethodResult × Host × List Event
  | .reply r => (r, h, [])
  | .text t => (.ok (.value (.text (h.daemon.texts t))), h, [])
  | .listing id =>
    match h.apps[id]? with
    | none => (.error .shutDown, h, [])
    | some a => (.ok (.directory a.application.directory), h, [])
  | .request id r =>
    match h.handle id r with
    | none => (.error .shutDown, h, [])
    | some (result, h, events) =>
      ((result.map MethodResult.ofBytes).mapError CallbackError.methodError, h, events)

/-- Answers a call of a method on a connection that peers reach. -/
def receive (h : Host) (n : Nat) (c : MethodCall) :
    Option (Except MethodError MethodResult × Host × List Event) :=
  if (h.link n).serving then
    let (response, connection, messages) := (h.link n).connection.receive c
    let (result, h, events) := (h.setLink n { h.link n with connection }).complete response
    some (result, h, messages.map (.sent n) ++ events)
  else none

end Host
end GattServer
