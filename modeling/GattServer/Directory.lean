/-
# The directory of an application

The object manager of an application answers which objects there are by listing a directory: for
every published path the interfaces and properties of the object there.
-/

import GattServer.Properties

namespace GattServer

/-- The published objects, by path. -/
abbrev Directory := FinMap ObjectPath InterfaceMap

namespace Directory

/-- Whether adding an object at a path takes a new entry and does not replace one. -/
def isNew (d : Directory) (path : ObjectPath) : Bool := !d.contains path

/-- The directory with one property of an entry set, if the entry has the interface. -/
def setProperty? (d : Directory) (path : ObjectPath) (interface name : String) (v : Value) :
    Option Directory :=
  match d.find? path with
  | none => none
  | some interfaces =>
    if interfaces.contains interface then
      some (d.modify path fun is => is.modify interface fun ps => ps.insert name v)
    else none

/-- The directory with one property of an entry set; unchanged if there is no such interface. -/
def setProperty (d : Directory) (path : ObjectPath) (interface name : String) (v : Value) :
    Directory :=
  (d.setProperty? path interface name v).getD d

end Directory
end GattServer
