/-
# Connections

A connection to the bus carries out the calls of applications.  It remembers the names it was given
and those it waits for, and it has an object server, which holds the exported objects and answers
peers.  Several applications may share a connection.

## What is taken for granted

An application relies on the object server, and on the side of a connection that claims names, and
has no say in what they do.  All that is assumed of them is listed here, with the definitions that
state it.

Objects (`ObjectTree`, `Connection.exportObject`, `Connection.withdrawObject`):

* There is a tree of nodes with at most one object of each kind on a node.  A second export of a
  kind at a path is refused, whatever the object, and changes nothing.
* An export makes the nodes on the way to its path that are missing.
* To withdraw an object that is not there fails with `Error.interfaceNotFound`.
* To withdraw the last object of a node that is no object manager takes the node away with
  everything that is left on it and below it.  If another object keeps the node, the server reports
  that the node stays, and the connection puts a warning on record.  What a server does with the
  last object of the root is not modelled: here the root just stays.
* A value is replaced on the spot, and the change is signalled, whether the value is a new one or
  not.

Signals (`Connection.announcements`, `ObjectTree.manager?`):

* The closest object manager above a path announces each export there and retracts each withdrawal,
  one interface at a time and with the properties that the object answers for.
* An object manager that is exported announces each node below it, in the order of their paths, and
  leaves object managers out.
* These signals come on top of those that an application asks for.

Names (`Connection.requestName`):

* A name that is no bus name is refused before anyone is asked.  A name that the connection owns or
  waits for is answered without asking again.

Calls from peers (`Connection.receive`, `Objects.facet?`, `Facet.method?`):

* A call is checked from the outside in: node, interface, method, parameters.  Each check has an
  error of its own.
* Every node, also one without objects, offers the interfaces for peers, for properties and for
  introspection.  `Ping`, `GetMachineId`, `Introspect`, `GetManagedObjects` and `Release` take any
  parameters.  No property can be set.
* The methods and properties of an object are those that its type declares, under the names in the
  tables of `Object` and of `Connection.receive`.
* What the server tells of itself, the number of the machine and the description of a node, is left
  open (`Daemon.texts`).
-/

import GattServer.Bus.Script
import GattServer.Connection.Daemon
import GattServer.Connection.Message
import GattServer.Connection.ObjectTree

namespace GattServer

/-- What a connection remembers about a name. -/
inductive Claim where
  /-- The connection owns the name. -/
  | owner
  /-- The connection waits for the name. -/
  | waiting
  deriving DecidableEq, Repr

/-- A connection to the bus. -/
structure Connection where
  /-- The names that the connection owns or waits for. -/
  claims : FinMap String Claim
  /-- The exported objects. -/
  objects : ObjectTree
  deriving DecidableEq

/-- What comes of a call. -/
structure Outcome where
  /-- The answer to the caller. -/
  answer : Answer
  /-- The connection afterwards. -/
  connection : Connection
  /-- The messages that were sent, in order. -/
  messages : List Message
  /-- The warnings that were put on record. -/
  warnings : List Warning

namespace Connection

/-- A connection that nothing has happened on. -/
def fresh : Connection := ⟨∅, .bare⟩

instance : Inhabited Connection := ⟨fresh⟩

/-- The interfaces of the objects on a node, but for object managers. -/
def interfacesOf (objects : Objects) : InterfaceMap :=
  .ofList ((objects.entries.filter fun e => e.1 ≠ .objectManager).map fun e =>
    (e.1.interface, e.2.properties))

/-- Claims a name.  What is known about the name is answered without asking again. -/
def requestName (daemon : Daemon) (name : String) (k : Connection) : Outcome :=
  match NameKind.wellKnown.check name with
  | .error fault => ⟨.error (.malformedName .wellKnown fault), k, [], []⟩
  | .ok () =>
    match k.claims.find? name with
    | some .owner => ⟨.ok (), k, [], []⟩
    | some .waiting => ⟨.error (.nameOwned name), k, [], []⟩
    | none =>
      let owner := { k with claims := k.claims.insert name .owner }
      let waiting := { k with claims := k.claims.insert name .waiting }
      match daemon.nameReply name with
      | .code 1 | .code 4 => ⟨.ok (), owner, [.requestName name], []⟩
      | .code 2 => ⟨.error (.nameOwned name), waiting, [.requestName name], []⟩
      | .code 3 => ⟨.error .nameTaken, k, [.requestName name], []⟩
      | .code n => ⟨.error (.unknownReply n), k, [.requestName name], []⟩
      | .error e => ⟨.error e.ofBus, k, [.requestName name], []⟩

/-- The announcements that follow the export of an object. -/
def announcements (t : ObjectTree) (path : ObjectPath) (o : Object) : List Message :=
  if o.kind = .objectManager then
    (t.below path).map fun e => .interfacesAdded path e.1 (interfacesOf e.2)
  else
    match t.manager? path with
    | none => []
    | some manager =>
      [.interfacesAdded manager path ((∅ : InterfaceMap).insert o.kind.interface o.properties)]

/-- Exports an object, unless one of its kind is exported at the path. -/
def exportObject (path : ObjectPath) (o : Object) (k : Connection) : Outcome :=
  if (k.objects.object? path o.kind).isSome then
    ⟨.error (.alreadyExported o.kind.interface path), k, [], []⟩
  else
    ⟨.ok (), { k with objects := k.objects.put path o }, announcements k.objects path o, []⟩

/-- Withdraws the object of a kind. -/
def withdrawObject (path : ObjectPath) (kind : ObjectKind) (k : Connection) : Outcome :=
  match k.objects.at? path with
  | none => ⟨.error .interfaceNotFound, k, [], []⟩
  | some objects =>
    if objects.contains kind then
      ⟨.ok (), { k with objects := k.objects.remove path kind },
        (k.objects.manager? path).toList.map fun manager =>
          .interfacesRemoved manager path [kind.interface],
        if ObjectTree.occupied (objects.erase kind) then [.stillServed kind.interface path]
        else []⟩
    else ⟨.error .interfaceNotFound, k, [], []⟩

/-- Replaces the value of an exported characteristic. -/
def updateValue (path : ObjectPath) (value : List UInt8) (k : Connection) : Outcome :=
  if (k.objects.object? path .characteristic).isSome then
    ⟨.ok (), { k with objects := k.objects.modify path .characteristic (.withValue value) },
      [.propertiesChanged path Interface.characteristic
        ((∅ : PropertyMap).insert "Value" (.bytes value))], []⟩
  else ⟨.error .interfaceNotFound, k, [], []⟩

/-- The answer of a peer, where no error means success. -/
def answerOf : Option RemoteError → Answer
  | none => .ok ()
  | some e => .error e.ofAdapter

/-- Carries out a call. -/
def perform (daemon : Daemon) (c : Call) (k : Connection) : Outcome :=
  match c with
  | .requestName name => k.requestName daemon name
  | .exportObject path o => k.exportObject path o
  | .withdrawObject path kind => k.withdrawObject path kind
  | .publishTree _ _ => ⟨.ok (), k, [], []⟩
  | .announce manager path interfaces =>
    ⟨.ok (), k, [.interfacesAdded manager path interfaces], []⟩
  | .retract manager path names => ⟨.ok (), k, [.interfacesRemoved manager path names], []⟩
  | .updateValue path value => k.updateValue path value
  | .registerAdvertisement device ad =>
    ⟨answerOf (daemon.adapter device).register, k, [.registerAdvertisement device ad], []⟩
  | .unregisterAdvertisement device ad =>
    ⟨answerOf (daemon.adapter device).unregister, k, [.unregisterAdvertisement device ad], []⟩

end Connection
end GattServer
