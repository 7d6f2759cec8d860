/-
# Answers from outside

Two kinds of calls are answered on the other side of a connection: the bus decides who owns a name,
and the advertising manager of a device takes or refuses an advertisement.  A daemon is described
by what it answers to each name and for each device.

The server that holds the objects of a connection has two texts of its own to tell: the description
of a node, which it puts together in no fixed order, and the number of the machine.  What they say
is left open; it is told along with the answers of the daemons.

| code | meaning for the claim of a name |
| ---: | --- |
| 1 | the connection owns the name |
| 2 | the claim waits for the owner |
| 3 | the owner keeps the name |
| 4 | the connection owned the name before |
-/

import GattServer.FinMap
import GattServer.Error

namespace GattServer

/-- An error answer of a peer. -/
structure RemoteError where
  /-- The name of the error. -/
  name : String
  /-- Its message; it may be missing. -/
  message : Option String
  deriving DecidableEq, Repr

namespace RemoteError

/-- Whether an error is one that the bus itself defines. -/
def isStandard (e : RemoteError) : Bool :=
  "org.freedesktop.DBus.Error.".toList.isPrefixOf e.name.toList

/-- An error answer to the claim of a name: a standard error without message has an empty one. -/
def ofBus (e : RemoteError) : Error :=
  .remote e.name (e.message.getD (if e.isStandard then "" else "no details"))

/-- An error answer of an advertising manager. -/
def ofAdapter (e : RemoteError) : Error := .remote e.name (e.message.getD "no details")

end RemoteError

/-- The answer of the bus to the claim of a name. -/
inductive NameReply where
  | code (n : Nat)
  | error (e : RemoteError)
  deriving DecidableEq, Repr

/-- The answers of the advertising manager of a device, where they are errors. -/
structure AdapterReplies where
  /-- The answer to a registration. -/
  register : Option RemoteError := none
  /-- The answer to its end. -/
  unregister : Option RemoteError := none
  deriving DecidableEq, Repr

/-- A text that the server of the objects has of its own. -/
inductive ServerText where
  /-- The description of the node at a path. -/
  | description (path : ObjectPath)
  /-- The number of the machine. -/
  | machine
  deriving DecidableEq

/-- The answers of the bus and of the advertising managers, and the texts of the server. -/
structure Daemon where
  /-- The answers to claims, by name. -/
  names : FinMap String NameReply := ∅
  /-- The answers about advertisements, by the path of the device. -/
  adapters : FinMap String AdapterReplies := ∅
  /-- What the texts of the server say. -/
  texts : ServerText → String := fun _ => ""

namespace Daemon

instance : Inhabited Daemon := ⟨{}⟩

/-- The answer to the claim of a name; a name that is not listed is handed over. -/
def nameReply (d : Daemon) (name : String) : NameReply := (d.names.find? name).getD (.code 1)

/-- The answers for a device; one that is not listed accepts everything. -/
def adapter (d : Daemon) (device : ObjectPath) : AdapterReplies :=
  (d.adapters.find? device.text).getD {}

end Daemon
end GattServer
