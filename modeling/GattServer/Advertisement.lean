/-
# Advertisements

An advertisement is an object that the Bluetooth daemon reads once it is registered: what kind of
packet is sent, which services it names, and data keyed by company or by service.  Its properties
are declared in a table, and the exported object answers for each of them by name.

Data is kept by number or by UUID and shown in dictionaries, the latter under the text of the UUID.
-/

import GattServer.Properties
import GattServer.Uuid

namespace GattServer

/-- The kind of advertising packet. -/
inductive AdvertisementType where
  | broadcast
  | peripheral
  deriving DecidableEq, Repr

/-- The word for a kind of advertising packet. -/
def AdvertisementType.word : AdvertisementType → String
  | .broadcast => "broadcast"
  | .peripheral => "peripheral"

/-- What an advertisement says. -/
structure AdvertisementProperties where
  /-- The kind of packet. -/
  type : AdvertisementType := .peripheral
  /-- The services that are offered, in order. -/
  serviceUuids : List Uuid := []
  /-- Data by the number of a company. -/
  manufacturerData : FinMap UInt16 (List UInt8) := ∅
  /-- The services that are looked for, in order. -/
  solicitUuids : List Uuid := []
  /-- Data by service. -/
  serviceData : FinMap Uuid (List UInt8) := ∅
  /-- Names of further data that the daemon is to include. -/
  includes : List String := []
  /-- The name of the device. -/
  localName : String := ""
  /-- The number of its appearance. -/
  appearance : UInt16 := 0
  /-- The interval between packets, in seconds. -/
  duration : UInt16 := 0
  /-- The lifetime of the advertisement, in seconds. -/
  timeout : UInt16 := 0
  deriving DecidableEq

namespace AdvertisementProperties

/-- The data by company, as a dictionary. -/
def manufacturerDict (p : AdvertisementProperties) : Value :=
  .numbered (p.manufacturerData.entries.map fun e => (e.1, .bytes e.2))

/-- The data by service, as a dictionary under the texts of the UUIDs. -/
def serviceDict (p : AdvertisementProperties) : Value :=
  .named (p.serviceData.entries.map fun e => (e.1.text, .bytes e.2))

/-- The texts of UUIDs, in order. -/
def uuidTexts (uuids : List Uuid) : Value := .texts (uuids.map Uuid.text)

/-- The properties an advertisement declares. -/
def table (p : AdvertisementProperties) : PropertyTable :=
  .ofList Interface.advertisement
    [("Type", .text p.type.word),
      ("ServiceUUIDs", uuidTexts p.serviceUuids),
      ("ManufacturerData", p.manufacturerDict),
      ("SolicitUUIDs", uuidTexts p.solicitUuids),
      ("ServiceData", p.serviceDict),
      ("Includes", .texts p.includes),
      ("LocalName", .text p.localName),
      ("Appearance", .uint16 p.appearance),
      ("Duration", .uint16 p.duration),
      ("Timeout", .uint16 p.timeout)]

end AdvertisementProperties

/-- An advertisement at the path it is exported at. -/
structure Advertisement where
  /-- The path. -/
  path : ObjectPath
  /-- What the advertisement says. -/
  properties : AdvertisementProperties
  deriving DecidableEq

/-- The interfaces and properties that an advertisement declares: one interface. -/
def Advertisement.interfaces (a : Advertisement) : InterfaceMap := a.properties.table.interfaces

end GattServer
