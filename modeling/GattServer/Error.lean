/-
# Errors

Every operation that can fail says why by a cause.  A cause knows where it comes from, which is
shown beside its wording: the application itself, the connection to the bus, a standard service of
the bus, the encoding of an object path, or a UUID.
-/

import GattServer.Name
import GattServer.ObjectPath
import GattServer.Uuid

namespace GattServer

/-- Where an error comes from. -/
inductive Origin where
  /-- The state of an application, or an answer that it does not accept. -/
  | application
  /-- The connection to the bus. -/
  | connection
  /-- A standard service of the bus. -/
  | standardService
  /-- The encoding of a value, such as an object path. -/
  | encoding
  /-- The text of a UUID. -/
  | uuid
  deriving DecidableEq, Repr

/-- The causes of failure of an operation. -/
inductive Error where
  /-- A configuration has no bus name. -/
  | nameRequired
  /-- A configuration has no root path. -/
  | pathRequired
  /-- The application has exported its object manager before. -/
  | alreadyRunning (name : String)
  /-- A service is added before the object manager is exported. -/
  | notRunning (service : ObjectPath)
  /-- A service of the same path is live. -/
  | serviceAdded (service : ObjectPath)
  /-- No live characteristic has the path. -/
  | noCharacteristic (path : ObjectPath)
  /-- A characteristic was created for another service. -/
  | foreignCharacteristic (characteristic service : ObjectPath)
  /-- A characteristic of the same path is attached. -/
  | characteristicAdded (characteristic : ObjectPath)
  /-- A descriptor was created for another characteristic. -/
  | foreignDescriptor (descriptor characteristic : ObjectPath)
  /-- A descriptor of the same path is attached. -/
  | descriptorAdded (descriptor : ObjectPath)
  /-- A text is no object path. -/
  | malformedPath (fault : PathFault)
  /-- A text is no UUID. -/
  | malformedUuid (fault : UuidFault)
  /-- A text is no name of its kind. -/
  | malformedName (kind : NameKind) (fault : NameFault)
  /-- Another connection owns the bus name. -/
  | nameOwned (name : String)
  /-- The bus refuses to hand over the name. -/
  | nameTaken
  /-- The bus answers a claim with an unknown code. -/
  | unknownReply (code : Nat)
  /-- An object of the same kind is exported at the path. -/
  | alreadyExported (interface : String) (path : ObjectPath)
  /-- No object of the kind is exported at the path. -/
  | interfaceNotFound
  /-- A peer answers with an error. -/
  | remote (name message : String)
  /-- A failure that a bus reports in its own words. -/
  | reported (origin : Origin) (message : String)
  deriving DecidableEq

namespace Error

/-- Where an error comes from. -/
def origin : Error → Origin
  | .nameRequired | .pathRequired | .alreadyRunning _ | .notRunning _ | .serviceAdded _
  | .noCharacteristic _ | .foreignCharacteristic _ _ | .characteristicAdded _
  | .foreignDescriptor _ _ | .descriptorAdded _ | .nameOwned _ | .alreadyExported _ _ =>
    .application
  | .malformedName _ _ | .nameTaken | .unknownReply _ | .interfaceNotFound | .remote _ _ =>
    .connection
  | .malformedPath _ => .encoding
  | .malformedUuid _ => .uuid
  | .reported origin _ => origin

/-- The wording of an error. -/
def message : Error → String
  | .nameRequired => "objectName is required"
  | .pathRequired => "objectPath is required"
  | .alreadyRunning name => s!"application {name} is already running"
  | .notRunning service => s!"cannot add service {service} before the application is running"
  | .serviceAdded service => s!"service {service} was already added"
  | .noCharacteristic path => s!"no published characteristic at {path}"
  | .foreignCharacteristic characteristic service =>
    s!"characteristic {characteristic} does not belong to service {service}"
  | .characteristicAdded characteristic => s!"characteristic {characteristic} was already added"
  | .foreignDescriptor descriptor characteristic =>
    s!"descriptor {descriptor} does not belong to characteristic {characteristic}"
  | .descriptorAdded descriptor => s!"descriptor {descriptor} was already added"
  | .malformedPath fault => fault.message
  | .malformedUuid fault => fault.message
  | .malformedName kind fault => kind.label ++ ": " ++ fault.message
  | .nameOwned name => s!"bus name {name} is owned by another connection"
  | .nameTaken => "name already taken on the bus"
  | .unknownReply code => s!"invalid value: {code}, expected one of: 1, 2, 3, 4"
  | .alreadyExported interface path => s!"{interface} is already exported at {path}"
  | .interfaceNotFound => "Interface not found"
  | .remote name message => s!"{name}: {message}"
  | .reported .standardService message => s!"org.freedesktop.DBus.Error.Failed: {message}"
  | .reported _ message => message

instance : ToString Error := ⟨message⟩

/-- The error that a bus reports with a given origin and text.  For a UUID the text is what was
read in its place, so the error is the fault of that text. -/
def report (origin : Origin) (message : String) : Error :=
  match origin with
  | .uuid =>
    match Uuid.ofText? message with
    | .ok _ => .reported .uuid message
    | .error fault => .malformedUuid fault
  | origin => .reported origin message

end Error
end GattServer
