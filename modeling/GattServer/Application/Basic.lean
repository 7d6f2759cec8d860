/-
# Applications

An application owns a tree of services below its path.  It creates services, each under a path of
its own, and keeps those that are live in the order they were added.  Its directory lists what has
been announced, and its advertisement, while there is one, keeps the device it was meant for.

What is kept here changes by the operations of the application; this module holds the state and
what it shows.
-/

import GattServer.Directory
import GattServer.Introspection
import GattServer.Object

namespace GattServer

/-- An advertisement that an application keeps exported. -/
structure ActiveAdvertisement where
  /-- The path it is exported at. -/
  path : ObjectPath
  /-- The device it is registered with. -/
  device : ObjectPath
  deriving DecidableEq

/-- An application. -/
structure Application where
  /-- The number by which exported objects name it. -/
  id : AppId
  /-- Its settings and its path. -/
  profile : Profile
  /-- How many services it has created. -/
  created : UInt32
  /-- Whether its object manager is exported. -/
  running : Bool
  /-- The live services, in the order they were added. -/
  services : List Service
  /-- The advertisement, if one is active. -/
  advertisement : Option ActiveAdvertisement
  /-- What has been announced. -/
  directory : Directory
  deriving DecidableEq

namespace Application

/-- An application that has not done anything yet. -/
def fresh (id : AppId) (profile : Profile) : Application :=
  ⟨id, profile, 0, false, [], none, ∅⟩

/-- Sets an application up, if its settings are valid. -/
def new (id : AppId) (settings : Settings) : Except Error Application :=
  settings.validate.map fun path => fresh id ⟨settings, path⟩

/-- The bus name of an application. -/
def name (app : Application) : String := app.profile.settings.name

/-- The path of an application. -/
def path (app : Application) : ObjectPath := app.profile.path

/-- Whether an advertisement is active. -/
def isAdvertising (app : Application) : Bool := app.advertisement.isSome

/-- The live service of a path. -/
def service? (app : Application) (path : ObjectPath) : Option Service :=
  app.services.find? fun s => s.path = path

/-- The nodes of the live services. -/
def nodes (app : Application) : List Node := app.services.flatMap Service.nodes

/-- The description of the live tree. -/
def tree (app : Application) : Introspection :=
  .ofTree app.path.text (app.nodes.map fun node => node.path.text)

/-- Allocates the path of a new service. -/
def createService (app : Application) (properties : ServiceProperties) (advertised : Bool) :
    Except Error (Service × Application) :=
  match app.path.child? serviceLabel (app.created + 1) with
  | .ok path => .ok (.new path properties advertised, { app with created := app.created + 1 })
  | .error fault => .error (.malformedPath fault)

/-- Gives the first characteristic of a path, of those in a list of services, another value to
show. -/
def setValueIn? (path : ObjectPath) (value : List UInt8) : List Service → Option (List Service)
  | [] => none
  | s :: ss =>
    match s.setValue? path value with
    | some t => some (t :: ss)
    | none => (setValueIn? path value ss).map (s :: ·)

end Application
end GattServer
