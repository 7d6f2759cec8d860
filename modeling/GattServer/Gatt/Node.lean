/-
# The nodes of a service

The subtree of a service is published node by node.  Its nodes are listed parents first: the
service, then each characteristic followed by its descriptors.  A node knows the nodes above it,
since requests for values name them.
-/

import GattServer.Gatt.Basic
import GattServer.Request

namespace GattServer

/-- The kinds of objects that are exported on the bus.  An object has one kind, and an interface of
its own that goes with it. -/
inductive ObjectKind where
  | objectManager
  | service
  | characteristic
  | descriptor
  | advertisement
  deriving DecidableEq, Repr

namespace ObjectKind

/-- All kinds. -/
def all : List ObjectKind :=
  [.objectManager, .service, .characteristic, .descriptor, .advertisement]

/-- The interface that objects of a kind serve. -/
def interface : ObjectKind → String
  | .objectManager => Interface.objectManager
  | .service => Interface.service
  | .characteristic => Interface.characteristic
  | .descriptor => Interface.descriptor
  | .advertisement => Interface.advertisement

/-- The word for a kind. -/
def word : ObjectKind → String
  | .objectManager => "ObjectManager"
  | .service => "Service"
  | .characteristic => "Characteristic"
  | .descriptor => "Descriptor"
  | .advertisement => "Advertisement"

/-- The kind of a given word. -/
def ofWord? (word : String) : Option ObjectKind := all.find? fun k => k.word = word

/-- The kind whose objects serve an interface. -/
def ofInterface? (interface : String) : Option ObjectKind :=
  all.find? fun k => k.interface = interface

end ObjectKind

/-- A node of the subtree of a service, together with the nodes above it. -/
inductive Node where
  | service (s : Service)
  | characteristic (s : Service) (c : Characteristic)
  | descriptor (s : Service) (c : Characteristic) (d : Descriptor)
  deriving DecidableEq

namespace Node

/-- The path of a node. -/
def path : Node → ObjectPath
  | .service s => s.path
  | .characteristic _ c => c.path
  | .descriptor _ _ d => d.path

/-- The kind of object that a node is exported as. -/
def kind : Node → ObjectKind
  | .service _ => .service
  | .characteristic _ _ => .characteristic
  | .descriptor _ _ _ => .descriptor

/-- The interfaces and properties that a node is published with. -/
def interfaces : Node → InterfaceMap
  | .service s => s.table.interfaces
  | .characteristic _ c => c.table.interfaces
  | .descriptor _ _ d => d.table.interfaces

end Node

/-- The nodes of a characteristic of a service. -/
def Characteristic.nodes (s : Service) (c : Characteristic) : List Node :=
  .characteristic s c :: c.descriptors.map (.descriptor s c)

/-- The nodes of a service, parents before their children. -/
def Service.nodes (s : Service) : List Node :=
  .service s :: s.characteristics.flatMap (Characteristic.nodes s)

end GattServer
