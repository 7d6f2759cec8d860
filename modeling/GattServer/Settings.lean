/-
# Settings of an application

An application is set up with the bus name that it claims, the path that its tree of objects starts
from, and a few texts: the two ends of generated UUIDs and the name that it advertises.  The bus
name and the path are required.
-/

import GattServer.Error
import GattServer.Text.Quoted

namespace GattServer

/-- The tail of the UUIDs that are derived from the Bluetooth base UUID. -/
def standardSuffix : String := "-0000-1000-8000-00805F9B34FB"

/-- The head of the UUIDs that are derived from the Bluetooth base UUID. -/
def standardBase : String := "0000"

/-- The texts an application is set up with. -/
structure Settings where
  /-- The bus name that is claimed. -/
  name : String
  /-- The text of the path that the tree starts from. -/
  path : String
  /-- What is put in front of short UUID values. -/
  uuidBase : String := standardBase
  /-- What is put behind UUID values. -/
  uuidSuffix : String := standardSuffix
  /-- The name that is advertised. -/
  localName : String := ""
  deriving DecidableEq

namespace Settings

/-- Checks the required settings and reads the path. -/
def validate (s : Settings) : Except Error ObjectPath :=
  if s.name = "" then .error .nameRequired
  else if s.path = "" then .error .pathRequired
  else (ObjectPath.ofText? s.path).mapError .malformedPath

/-- Expands a short UUID value: one of eight bytes takes the suffix only, any other one the base as
well. -/
def generateUuid (s : Settings) (value : String) : String :=
  if value.utf8ByteSize = 8 then value ++ s.uuidSuffix
  else s.uuidBase ++ value ++ s.uuidSuffix

end Settings

/-- Which application a request is answered for: its settings and the path of its tree. -/
structure Profile where
  /-- The settings of the application. -/
  settings : Settings
  /-- The path that the tree starts from. -/
  path : ObjectPath
  deriving DecidableEq

/-- A profile as a record: the bus name and the path. -/
def Profile.describe (p : Profile) : String :=
  Text.record "Application"
    [("name", Text.quote p.settings.name), ("path", Text.quote p.path.text)] false

end GattServer
