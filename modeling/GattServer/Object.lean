/-
# Exported objects

What is exported on the bus is an object of one kind.  It keeps what its node declared at the time
of the export, and answers for its properties one by one, by name:

| kind | properties |
| --- | --- |
| object manager | |
| service | `UUID`, `Primary` |
| characteristic | `UUID`, `Service`, `Flags`, `Value`, `Notifying` |
| descriptor | `UUID`, `Characteristic`, `Flags`, `Value` |
| advertisement | `Type`, `ServiceUUIDs`, `SolicitUUIDs`, `ManufacturerData`, `ServiceData`, |
| | `Includes`, `LocalName`, `Appearance`, `Duration`, `Timeout` |

An object may outlive its application.  It therefore names the application by a number and does not
hold it.
-/

import GattServer.Advertisement
import GattServer.Gatt.Node

namespace GattServer

/-- The number of an application, by which exported objects name it. -/
abbrev AppId := Nat

/-- An exported characteristic. -/
structure CharacteristicObject where
  /-- The application that answers for it. -/
  app : AppId
  /-- The UUID of its service. -/
  serviceUuid : Uuid
  /-- The path of its service. -/
  service : ObjectPath
  /-- What it declares; the value is replaced by updates. -/
  properties : CharacteristicProperties
  /-- Whether a client has subscribed to it. -/
  notifying : Bool
  deriving DecidableEq

/-- An exported descriptor. -/
structure DescriptorObject where
  /-- The application that answers for it. -/
  app : AppId
  /-- The UUID of its service. -/
  serviceUuid : Uuid
  /-- The UUID of its characteristic. -/
  characteristicUuid : Uuid
  /-- The path of its characteristic. -/
  characteristic : ObjectPath
  /-- What it declares. -/
  properties : DescriptorProperties
  deriving DecidableEq

/-- An exported object. -/
inductive Object where
  /-- Lists the directory of an application. -/
  | objectManager (app : AppId)
  | service (properties : ServiceProperties)
  | characteristic (o : CharacteristicObject)
  | descriptor (o : DescriptorObject)
  | advertisement (a : Advertisement)
  deriving DecidableEq

/-- What a request to an exported characteristic is about. -/
def CharacteristicObject.target (o : CharacteristicObject) : Target :=
  .characteristic o.serviceUuid o.properties.uuid

/-- What a request to an exported descriptor is about. -/
def DescriptorObject.target (o : DescriptorObject) : Target :=
  .descriptor o.serviceUuid o.characteristicUuid o.properties.uuid

/-- The names of the properties that objects of a kind answer for. -/
def ObjectKind.propertyNames : ObjectKind → List String
  | .objectManager => []
  | .service => ["UUID", "Primary"]
  | .characteristic => ["UUID", "Service", "Flags", "Value", "Notifying"]
  | .descriptor => ["UUID", "Characteristic", "Flags", "Value"]
  | .advertisement =>
    ["Type", "ServiceUUIDs", "ManufacturerData", "SolicitUUIDs", "ServiceData", "Includes",
      "LocalName", "Appearance", "Duration", "Timeout"]

/-! ### Properties by name -/

/-- A property of an exported service. -/
def ServiceProperties.property? (o : ServiceProperties) : String → Option Value
  | "UUID" => some (.text o.uuid.text)
  | "Primary" => some (.bool o.primary)
  | _ => none

/-- A property of an exported characteristic. -/
def CharacteristicObject.property? (o : CharacteristicObject) : String → Option Value
  | "UUID" => some (.text o.properties.uuid.text)
  | "Service" => some (.path o.service)
  | "Flags" => some (.texts o.properties.flags.names)
  | "Value" => some (.bytes o.properties.value)
  | "Notifying" => some (.bool o.notifying)
  | _ => none

/-- A property of an exported descriptor. -/
def DescriptorObject.property? (o : DescriptorObject) : String → Option Value
  | "UUID" => some (.text o.properties.uuid.text)
  | "Characteristic" => some (.path o.characteristic)
  | "Flags" => some (.texts o.properties.flags.names)
  | "Value" => some (.bytes o.properties.value)
  | _ => none

/-- A property of an exported advertisement. -/
def Advertisement.property? (a : Advertisement) : String → Option Value
  | "Type" => some (.text a.properties.type.word)
  | "ServiceUUIDs" => some (.texts (a.properties.serviceUuids.map Uuid.text))
  | "ManufacturerData" => some a.properties.manufacturerDict
  | "SolicitUUIDs" => some (.texts (a.properties.solicitUuids.map Uuid.text))
  | "ServiceData" => some a.properties.serviceDict
  | "Includes" => some (.texts a.properties.includes)
  | "LocalName" => some (.text a.properties.localName)
  | "Appearance" => some (.uint16 a.properties.appearance)
  | "Duration" => some (.uint16 a.properties.duration)
  | "Timeout" => some (.uint16 a.properties.timeout)
  | _ => none

namespace Object

/-- The kind of an object. -/
def kind : Object → ObjectKind
  | .objectManager _ => .objectManager
  | .service _ => .service
  | .characteristic _ => .characteristic
  | .descriptor _ => .descriptor
  | .advertisement _ => .advertisement

/-- A property of an object. -/
def property? : Object → String → Option Value
  | .objectManager _, _ => none
  | .service o, name => o.property? name
  | .characteristic o, name => o.property? name
  | .descriptor o, name => o.property? name
  | .advertisement a, name => a.property? name

/-- All properties of an object. -/
def properties (o : Object) : PropertyMap :=
  .ofList (o.kind.propertyNames.filterMap fun name => (o.property? name).map (name, ·))

/-- The object with another value to show, if it is a characteristic. -/
def withValue (value : List UInt8) : Object → Object
  | .characteristic o => .characteristic { o with properties := { o.properties with value } }
  | o => o

/-- The object with another state of subscription, if it is a characteristic. -/
def withNotifying (notifying : Bool) : Object → Object
  | .characteristic o => .characteristic { o with notifying }
  | o => o

end Object

/-- The object that a node is exported as, for an application. -/
def Node.object (app : AppId) : Node → Object
  | .service s => .service s.properties
  | .characteristic s c =>
    .characteristic
      { app, serviceUuid := s.properties.uuid, service := s.path, properties := c.properties
        notifying := false }
  | .descriptor s c d =>
    .descriptor
      { app, serviceUuid := s.properties.uuid, characteristicUuid := c.properties.uuid
        characteristic := c.path, properties := d.properties }

end GattServer
