/-
# Reception of method calls

A node offers three standard interfaces besides those of the objects on it:

| interface | method | parameters | result |
| --- | --- | --- | --- |
| peer | `Ping` | any | |
| peer | `GetMachineId` | any | the number of the machine |
| properties | `Get` | interface, property | the value |
| properties | `GetAll` | interface | all values |
| properties | `Set` | interface, property, value | always refused |
| introspectable | `Introspect` | any | the description of the node |
| object manager | `GetManagedObjects` | any | the directory |
| characteristic, descriptor | `ReadValue` | options | bytes |
| characteristic, descriptor | `WriteValue` | bytes, options | |
| characteristic | `StartNotify`, `StopNotify` | | |
| advertisement | `Release` | any | |

A call is checked from the outside in: the node, the interface, the method, the parameters, and
then what the method itself demands.

Properties and subscriptions are answered on the spot.  Values are read and written by handlers of
the application, and the directory is the application's too, so such calls are passed on to it.  The
number of the machine and the description of a node are texts of the server.
-/

import GattServer.Connection.Basic
import GattServer.Connection.MethodCall

namespace GattServer

/-- An interface that a node offers: a standard one, or that of an object. -/
inductive Facet where
  | peer
  | properties
  | introspectable
  | object (o : Object)

/-- What becomes of a call of a method. -/
inductive Response where
  /-- The call is answered. -/
  | reply (r : Except MethodError MethodResult)
  /-- The server answers with a text of its own. -/
  | text (t : ServerText)
  /-- An application is to handle a request. -/
  | request (app : AppId) (r : Request)
  /-- An application is to list its directory. -/
  | listing (app : AppId)

namespace Objects

/-- The interface of a given name that a node with these objects offers. -/
def facet? (objects : Objects) (interface : String) : Option Facet :=
  if interface = Interface.peer then some .peer
  else if interface = Interface.properties then some .properties
  else if interface = Interface.introspectable then some .introspectable
  else ((ObjectKind.ofInterface? interface).bind objects.find?).map .object

end Objects

namespace Facet

/-- A property of an interface; those of the standard interfaces and of object managers are none. -/
def property? : Facet → String → Option Value
  | .object o, name => o.property? name
  | _, _ => none

/-- All properties of an interface. -/
def allProperties : Facet → PropertyMap
  | .object o => o.properties
  | _ => ∅

end Facet

/-- The interface that a call about properties is about. -/
def Objects.subject (objects : Objects) (interface : String) : Except MethodError Facet :=
  match NameKind.interface.check interface with
  | .error fault => .error (.malformedInterface fault)
  | .ok () =>
    match objects.facet? interface with
    | none => .error (.unknownInterface interface)
    | some facet => .ok facet

/-- A method of the interface for properties; `none` if there is no such method. -/
def Objects.propertyMethod? (objects : Objects) (member : String) (arguments : List Value) :
    Option (Except MethodError MethodResult) :=
  match member with
  | "Get" => some <|
    match arguments with
    | [.plain (.text interface), .plain (.text property)] => do
      let facet ← objects.subject interface
      match facet.property? property with
      | some v => .ok (.value (.variant v))
      | none => .error (.unknownProperty property)
    | _ => .error (.signatureMismatch arguments ["s", "s"])
  | "GetAll" => some <|
    match arguments with
    | [.plain (.text interface)] => do
      let facet ← objects.subject interface
      .ok (.value (.named facet.allProperties.entries))
    | _ => .error (.signatureMismatch arguments ["s"])
  | "Set" => some <|
    match arguments with
    | [.plain (.text interface), .plain (.text property), .variant _] => do
      let _ ← objects.subject interface
      .error (.unknownProperty property)
    | _ => .error (.signatureMismatch arguments ["s", "s", "v"])
  | _ => none

/-- A read or write that an object of an application passes on; `none` if there is no such
method. -/
def valueMethod? (app : AppId) (target : Target) (member : String) (arguments : List Value) :
    Option Response :=
  match member with
  | "ReadValue" => some <|
    match arguments with
    | [.named _] => .request app (.read target)
    | _ => .reply (.error (.signatureMismatch arguments ["a\x7bsv\x7d"]))
  | "WriteValue" => some <|
    match arguments with
    | [.plain (.bytes value), .named _] => .request app (.write target value)
    | _ => .reply (.error (.signatureMismatch arguments ["ay", "a\x7bsv\x7d"]))
  | _ => none

/-- A method of a node at a path that leaves the connection as it is; `none` if the interface has no
such method. -/
def Facet.method? (path : ObjectPath) (objects : Objects) (member : String)
    (arguments : List Value) : Facet → Option Response
  | .peer =>
    match member with
    | "Ping" => some (.reply (.ok .nothing))
    | "GetMachineId" => some (.text .machine)
    | _ => none
  | .properties => (objects.propertyMethod? member arguments).map .reply
  | .introspectable =>
    if member = "Introspect" then some (.text (.description path)) else none
  | .object (.objectManager app) =>
    if member = "GetManagedObjects" then some (.listing app) else none
  | .object (.service _) => none
  | .object (.characteristic o) => valueMethod? o.app o.target member arguments
  | .object (.descriptor o) => valueMethod? o.app o.target member arguments
  | .object (.advertisement _) =>
    if member = "Release" then some (.reply (.ok .nothing)) else none

/-- The characteristic that a method subscribes to, or whose subscription it ends; `none` for any
other method. -/
def Facet.subscription? (member : String) : Facet → Option (CharacteristicObject × Bool)
  | .object (.characteristic o) =>
    match member with
    | "StartNotify" => some (o, true)
    | "StopNotify" => some (o, false)
    | _ => none
  | _ => none

namespace Connection

/-- Subscribes to a characteristic or ends the subscription.  Only a change is signalled. -/
def subscribe (path : ObjectPath) (o : CharacteristicObject) (notifying : Bool) (k : Connection) :
    Except MethodError MethodResult × Connection × List Message :=
  if notifying ∧ o.properties.flags.notifiable = false then
    (.error (.notSupported s!"characteristic {o.properties.uuid} does not support notifications"),
      k, [])
  else if o.notifying = notifying then (.ok .nothing, k, [])
  else
    (.ok .nothing,
      { k with objects := k.objects.modify path .characteristic (.withNotifying notifying) },
      [.propertiesChanged path Interface.characteristic
        ((∅ : PropertyMap).insert "Notifying" (.bool notifying))])

/-- Answers a call of a method, or tells which application is to answer it. -/
def receive (c : MethodCall) (k : Connection) : Response × Connection × List Message :=
  match k.objects.at? c.path with
  | none => (.reply (.error (.unknownObject c.path)), k, [])
  | some objects =>
    match objects.facet? c.interface with
    | none => (.reply (.error (.unknownInterface c.interface)), k, [])
    | some facet =>
      match facet.subscription? c.member with
      | none =>
        ((facet.method? c.path objects c.member c.arguments).getD
          (.reply (.error (.unknownMethod c.member))), k, [])
      | some (o, notifying) =>
        if c.arguments = [] then
          let (r, k, messages) := k.subscribe c.path o notifying
          (.reply r, k, messages)
        else (.reply (.error (.signatureMismatch c.arguments [])), k, [])

end Connection
end GattServer
