/-
# Services, characteristics and descriptors

A service holds characteristics, and a characteristic holds descriptors.  Every one of them has an
object path: the path of its parent, a label and a number.  Parents number the children they create
from one on, and a number is not used again; the counters have 32 bits.

Creating a child allocates its path and nothing else.  The child becomes part of its parent when it
is attached, which a parent refuses if the child was created for another path or if a child of the
same path is attached already.  Both parents and children are plain values: a copy goes its own
way.
-/

import GattServer.Error
import GattServer.Flags
import GattServer.Properties

namespace GattServer

/-! ### Declared properties -/

/-- What a service declares. -/
structure ServiceProperties where
  /-- The identity of the service. -/
  uuid : Uuid
  /-- Whether the service is a primary one. -/
  primary : Bool
  deriving DecidableEq

/-- What a characteristic declares. -/
structure CharacteristicProperties where
  /-- The identity of the characteristic. -/
  uuid : Uuid
  /-- What it can be asked to do. -/
  flags : CharacteristicFlags
  /-- The value that is shown; reads are answered by a handler instead. -/
  value : List UInt8
  deriving DecidableEq

/-- What a descriptor declares. -/
structure DescriptorProperties where
  /-- The identity of the descriptor. -/
  uuid : Uuid
  /-- What it can be asked to do. -/
  flags : DescriptorFlags
  /-- The value that is shown; reads are answered by a handler instead. -/
  value : List UInt8
  deriving DecidableEq

/-! ### Nodes under construction -/

/-- A descriptor of a characteristic. -/
structure Descriptor where
  /-- The path that was allocated for the descriptor. -/
  path : ObjectPath
  /-- The path of the characteristic that created it. -/
  characteristic : ObjectPath
  /-- What it declares. -/
  properties : DescriptorProperties
  deriving DecidableEq

/-- A characteristic of a service. -/
structure Characteristic where
  /-- The path that was allocated for the characteristic. -/
  path : ObjectPath
  /-- The path of the service that created it. -/
  service : ObjectPath
  /-- What it declares. -/
  properties : CharacteristicProperties
  /-- How many descriptors it has created. -/
  created : UInt32
  /-- The descriptors attached to it, in order of attachment. -/
  descriptors : List Descriptor
  deriving DecidableEq

/-- A service of an application. -/
structure Service where
  /-- The path that was allocated for the service. -/
  path : ObjectPath
  /-- What it declares. -/
  properties : ServiceProperties
  /-- Whether its UUID is advertised. -/
  advertised : Bool
  /-- How many characteristics it has created. -/
  created : UInt32
  /-- The characteristics attached to it, in order of attachment. -/
  characteristics : List Characteristic
  deriving DecidableEq

/-- The label in the paths of services. -/
def serviceLabel : String := "service"

/-- The label in the paths of characteristics. -/
def characteristicLabel : String := "char"

/-- The label in the paths of descriptors. -/
def descriptorLabel : String := "desc"

namespace Descriptor

/-- The properties a descriptor is published with. -/
def table (d : Descriptor) : PropertyTable :=
  .ofList Interface.descriptor
    [("UUID", .text d.properties.uuid.text),
      ("Characteristic", .path d.characteristic),
      ("Flags", .texts d.properties.flags.names),
      ("Value", .bytes d.properties.value)]

end Descriptor

namespace Characteristic

/-- The properties a characteristic is published with. -/
def table (c : Characteristic) : PropertyTable :=
  .ofList Interface.characteristic
    [("UUID", .text c.properties.uuid.text),
      ("Service", .path c.service),
      ("Flags", .texts c.properties.flags.names),
      ("Value", .bytes c.properties.value)]

/-- Allocates the path of a new descriptor. -/
def createDescriptor (c : Characteristic) (properties : DescriptorProperties) :
    Except Error (Descriptor × Characteristic) :=
  match c.path.child? descriptorLabel (c.created + 1) with
  | .ok path => .ok (⟨path, c.path, properties⟩, { c with created := c.created + 1 })
  | .error fault => .error (.malformedPath fault)

/-- Attaches a descriptor. -/
def addDescriptor (c : Characteristic) (d : Descriptor) : Except Error Characteristic :=
  if d.characteristic ≠ c.path then .error (.foreignDescriptor d.path c.path)
  else if c.descriptors.any fun e => e.path = d.path then .error (.descriptorAdded d.path)
  else .ok { c with descriptors := c.descriptors ++ [d] }

/-- The characteristic with another value to show. -/
def withValue (c : Characteristic) (value : List UInt8) : Characteristic :=
  { c with properties := { c.properties with value } }

end Characteristic

namespace Service

/-- A service without characteristics. -/
def new (path : ObjectPath) (properties : ServiceProperties) (advertised : Bool) : Service :=
  ⟨path, properties, advertised, 0, []⟩

/-- The properties a service is published with. -/
def table (s : Service) : PropertyTable :=
  .ofList Interface.service
    [("UUID", .text s.properties.uuid.text),
      ("Primary", .bool s.properties.primary)]

/-- Allocates the path of a new characteristic. -/
def createCharacteristic (s : Service) (properties : CharacteristicProperties) :
    Except Error (Characteristic × Service) :=
  match s.path.child? characteristicLabel (s.created + 1) with
  | .ok path => .ok (⟨path, s.path, properties, 0, []⟩, { s with created := s.created + 1 })
  | .error fault => .error (.malformedPath fault)

/-- The attached characteristic of a path. -/
def characteristic? (s : Service) (path : ObjectPath) : Option Characteristic :=
  s.characteristics.find? fun c => c.path = path

/-- Attaches a characteristic. -/
def addCharacteristic (s : Service) (c : Characteristic) : Except Error Service :=
  if c.service ≠ s.path then .error (.foreignCharacteristic c.path s.path)
  else if (s.characteristic? c.path).isSome then .error (.characteristicAdded c.path)
  else .ok { s with characteristics := s.characteristics ++ [c] }

/-- Gives the first characteristic of a path, of those in a list, another value to show. -/
def setValueIn? (path : ObjectPath) (value : List UInt8) :
    List Characteristic → Option (List Characteristic)
  | [] => none
  | c :: cs =>
    if c.path = path then some (c.withValue value :: cs)
    else (setValueIn? path value cs).map (c :: ·)

/-- The service with another value to show at the characteristic of a path, if it has one. -/
def setValue? (s : Service) (path : ObjectPath) (value : List UInt8) : Option Service :=
  (setValueIn? path value s.characteristics).map fun cs => { s with characteristics := cs }

end Service
end GattServer
