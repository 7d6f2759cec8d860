/-
# Properties of objects

An object offers interfaces, and each interface has properties: named values.  An object of a GATT
application or an advertisement has one interface of its own, so its properties are gathered in a
table that knows the name of that interface.
-/

import GattServer.FinMap
import GattServer.Value

namespace GattServer

/-- The properties of one interface, by name. -/
abbrev PropertyMap := FinMap String Value

/-- The properties of an object, by interface. -/
abbrev InterfaceMap := FinMap String PropertyMap

/-! ### Names of interfaces -/

namespace Interface

/-- The interface of a service. -/
def service : String := "org.bluez.GattService1"

/-- The interface of a characteristic. -/
def characteristic : String := "org.bluez.GattCharacteristic1"

/-- The interface of a descriptor. -/
def descriptor : String := "org.bluez.GattDescriptor1"

/-- The interface of an advertisement. -/
def advertisement : String := "org.bluez.LEAdvertisement1"

/-- The interface that lists all objects of an application. -/
def objectManager : String := "org.freedesktop.DBus.ObjectManager"

/-- The interface that describes a node of the tree of objects. -/
def introspectable : String := "org.freedesktop.DBus.Introspectable"

/-- The interface through which properties are read. -/
def properties : String := "org.freedesktop.DBus.Properties"

/-- The interface that tells whether a peer is there. -/
def peer : String := "org.freedesktop.DBus.Peer"

end Interface

/-- The properties of the one interface of an object. -/
structure PropertyTable where
  /-- The name of the interface. -/
  interface : String
  /-- Its properties. -/
  map : PropertyMap
  deriving DecidableEq

namespace PropertyTable

/-- The table without properties. -/
def empty (interface : String) : PropertyTable := ⟨interface, ∅⟩

/-- The value of a property. -/
def get? (t : PropertyTable) (name : String) : Option Value := t.map.find? name

/-- The table with a property set. -/
def set (t : PropertyTable) (name : String) (v : Value) : PropertyTable :=
  { t with map := t.map.insert name v }

/-- Whether setting a property changes its value; a property that was absent changes. -/
def changedBy (t : PropertyTable) (name : String) (v : Value) : Bool := t.get? name ≠ some v

/-- A table whose properties are listed. -/
def ofList (interface : String) (properties : List (String × Value)) : PropertyTable :=
  ⟨interface, .ofList properties⟩

/-- The table as the only interface of its object. -/
def interfaces (t : PropertyTable) : InterfaceMap := (∅ : InterfaceMap).insert t.interface t.map

end PropertyTable
end GattServer
