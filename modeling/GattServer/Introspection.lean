/-
# Introspection of an application

The tree of an application is described flat: the root object, its two interfaces, and one child
for every object below it, named by its path relative to the root.  The names are in ascending
order of their bytes, each once.

A path below the root is shown without the root and the slash after it.  Any other path is shown
whole, without the slashes it starts with.

The document lists the interfaces first and then the children, one line each.
-/

import GattServer.Properties

namespace GattServer

/-- The description of a tree of objects. -/
structure Introspection where
  /-- The names of the objects below the root. -/
  children : List String
  deriving DecidableEq

/-- An interface in a description: its name and the lines that declare its members. -/
structure InterfaceDescription where
  /-- The name of the interface. -/
  name : String
  /-- The lines of the document about its members. -/
  members : List String

namespace Introspection

/-! ### The children of a tree -/

/-- The characters of `path` behind `root` and a slash.  The root `/` counts as empty here. -/
def behind? (root path : String) : Option (List Char) :=
  let front := (if root = "/" then [] else root.toList) ++ ['/']
  if front <+: path.toList then some (path.toList.drop front.length) else none

/-- The name of an object relative to the root. -/
def childName (root path : String) : String :=
  match behind? root path with
  | some rest => String.ofList rest
  | none => String.ofList (path.toList.dropWhile (· = '/'))

/-- Puts a name into its place in a list in ascending order of bytes, unless it is there. -/
def insertName (name : String) : List String → List String
  | [] => [name]
  | other :: rest =>
    if name = other then other :: rest
    else if Text.bytes name < Text.bytes other then name :: other :: rest
    else other :: insertName name rest

/-- Describes the tree at `root` that holds the objects at `paths`. -/
def ofTree (root : String) (paths : List String) : Introspection :=
  ⟨(paths.map (childName root)).foldr insertName []⟩

/-! ### The document -/

/-- The interface that a node describes itself by. -/
def introspectable : InterfaceDescription where
  name := Interface.introspectable
  members :=
    ["    <method name=\"Introspect\">",
      "      <arg name=\"xml_data\" type=\"s\" direction=\"out\"/>",
      "    </method>"]

/-- The interface that lists the objects of an application. -/
def objectManager : InterfaceDescription where
  name := Interface.objectManager
  members :=
    ["    <method name=\"GetManagedObjects\">",
      "      <arg name=\"objects\" type=\"a\x7boa\x7bsa\x7bsv\x7d\x7d\x7d\" direction=\"out\"/>",
      "    </method>",
      "    <signal name=\"InterfacesAdded\">",
      "      <arg name=\"object\" type=\"o\"/>",
      "      <arg name=\"interfaces\" type=\"a\x7bsa\x7bsv\x7d\x7d\"/>",
      "    </signal>",
      "    <signal name=\"InterfacesRemoved\">",
      "      <arg name=\"object\" type=\"o\"/>",
      "      <arg name=\"interfaces\" type=\"as\"/>",
      "    </signal>"]

/-- The interfaces of the root object. -/
def rootInterfaces : List InterfaceDescription := [introspectable, objectManager]

/-- The names of the interfaces of the root object. -/
def interfaces (_ : Introspection) : List String := rootInterfaces.map (·.name)

/-- The lines of the document about an interface. -/
def interfaceLines (i : InterfaceDescription) : List String :=
  ["  <interface name=\"" ++ i.name ++ "\">"] ++ i.members ++ ["  </interface>"]

/-- The line of the document about a child. -/
def childLine (name : String) : String := "  <node name=\"" ++ name ++ "\"/>"

/-- The lines of the document. -/
def lines (t : Introspection) : List String :=
  ["<!DOCTYPE node PUBLIC \"-//freedesktop//DTD D-BUS Object Introspection 1.0//EN\"",
    " \"http://www.freedesktop.org/standards/dbus/1.0/introspect.dtd\">",
    "<node>"] ++
  rootInterfaces.flatMap interfaceLines ++ t.children.map childLine ++ ["</node>"]

/-- The document: every line ends in a line break. -/
def text (t : Introspection) : String := String.join (t.lines.map (· ++ "\n"))

end Introspection
end GattServer
