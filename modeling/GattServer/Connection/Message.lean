/-
# Messages

What a connection sends out by itself: calls to the daemons, and signals.
-/

import GattServer.Properties

namespace GattServer

/-- A message that a connection sends. -/
inductive Message where
  /-- Claims a name. -/
  | requestName (name : String)
  /-- Registers an advertisement with a device. -/
  | registerAdvertisement (device advertisement : ObjectPath)
  /-- Unregisters an advertisement. -/
  | unregisterAdvertisement (device advertisement : ObjectPath)
  /-- The object manager at `manager` tells that an object has interfaces. -/
  | interfacesAdded (manager path : ObjectPath) (interfaces : InterfaceMap)
  /-- The object manager at `manager` tells that an object has lost interfaces. -/
  | interfacesRemoved (manager path : ObjectPath) (interfaces : List String)
  /-- An object tells that properties have new values. -/
  | propertiesChanged (path : ObjectPath) (interface : String) (changed : PropertyMap)
  deriving DecidableEq

/-- The options of a claim: it replaces an owner that allows it (2), and does not wait for one that
does not (4). -/
def Message.nameOptions : Nat := 6

end GattServer
