/-
# Calls on the bus

An application works through nine calls on its bus.  A call is answered with success or an error;
the application does not retry it.

| call | word | subject |
| --- | --- | --- |
| claim a bus name | `request_name` | the name |
| export an object | `export` | its path |
| withdraw an object | `unexport` | its path |
| publish the description of a tree | `introspection` | the root |
| announce the interfaces of an object | `added` | its path |
| retract the interfaces of an object | `removed` | its path |
| change the value of a characteristic | `update` | its path |
| register an advertisement | `register` | the device |
| unregister an advertisement | `unregister` | the device |

Failures that do not end an operation are put on record as warnings.
-/

import GattServer.Introspection
import GattServer.Object

namespace GattServer

/-- A call on the bus. -/
inductive Call where
  /-- Claims a bus name, replacing an owner that allows it, without waiting for the name. -/
  | requestName (name : String)
  /-- Exports an object. -/
  | exportObject (path : ObjectPath) (object : Object)
  /-- Withdraws the object of a kind. -/
  | withdrawObject (path : ObjectPath) (kind : ObjectKind)
  /-- Publishes the description of the tree at a path. -/
  | publishTree (path : ObjectPath) (tree : Introspection)
  /-- Announces, from the object manager at `manager`, that an object has interfaces. -/
  | announce (manager path : ObjectPath) (interfaces : InterfaceMap)
  /-- Announces, from the object manager at `manager`, that an object has lost interfaces. -/
  | retract (manager path : ObjectPath) (interfaces : List String)
  /-- Replaces the value of an exported characteristic and signals the change. -/
  | updateValue (path : ObjectPath) (value : List UInt8)
  /-- Registers an advertisement with the advertising manager of a device. -/
  | registerAdvertisement (device advertisement : ObjectPath)
  /-- Unregisters an advertisement. -/
  | unregisterAdvertisement (device advertisement : ObjectPath)
  deriving DecidableEq

/-- The kinds of calls. -/
inductive CallKind where
  | requestName
  | exportObject
  | withdrawObject
  | publishTree
  | announce
  | retract
  | updateValue
  | registerAdvertisement
  | unregisterAdvertisement
  deriving DecidableEq, Repr

namespace CallKind

/-- All kinds of calls. -/
def all : List CallKind :=
  [.requestName, .exportObject, .withdrawObject, .publishTree, .announce, .retract, .updateValue,
    .registerAdvertisement, .unregisterAdvertisement]

/-- The word for a kind of call. -/
def word : CallKind → String
  | .requestName => "request_name"
  | .exportObject => "export"
  | .withdrawObject => "unexport"
  | .publishTree => "introspection"
  | .announce => "added"
  | .retract => "removed"
  | .updateValue => "update"
  | .registerAdvertisement => "register"
  | .unregisterAdvertisement => "unregister"

/-- The kind of call of a given word. -/
def ofWord? (word : String) : Option CallKind := all.find? fun k => k.word = word

end CallKind

namespace Call

/-- The kind of a call. -/
def kind : Call → CallKind
  | .requestName _ => .requestName
  | .exportObject _ _ => .exportObject
  | .withdrawObject _ _ => .withdrawObject
  | .publishTree _ _ => .publishTree
  | .announce _ _ _ => .announce
  | .retract _ _ _ => .retract
  | .updateValue _ _ => .updateValue
  | .registerAdvertisement _ _ => .registerAdvertisement
  | .unregisterAdvertisement _ _ => .unregisterAdvertisement

/-- What a call is about: the name, the device, or the path of the object. -/
def subject : Call → String
  | .requestName name => name
  | .exportObject path _ | .withdrawObject path _ | .publishTree path _ | .announce _ path _
  | .retract _ path _ | .updateValue path _ => path.text
  | .registerAdvertisement device _ | .unregisterAdvertisement device _ => device.text

end Call

/-- The answer to a call. -/
abbrev Answer := Except Error Unit

/-- A failure that does not end an operation. -/
inductive Warning where
  /-- An object could not be withdrawn. -/
  | notWithdrawn (path : ObjectPath) (cause : Error)
  /-- An advertisement could not be unregistered. -/
  | stillRegistered (device : ObjectPath) (cause : Error)
  /-- An object was withdrawn from a path that other objects still are exported at. -/
  | stillServed (interface : String) (path : ObjectPath)
  deriving DecidableEq

/-- The wording of a warning. -/
def Warning.message : Warning → String
  | .notWithdrawn path cause => s!"failed to withdraw {path}: {cause}"
  | .stillRegistered device cause => s!"failed to unregister advertisement on {device}: {cause}"
  | .stillServed interface path => s!"no {interface} was exported at {path}"

end GattServer
