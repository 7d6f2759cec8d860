/-
# Publishing services

An application claims its name and exports its object manager once.  From then on services are
added and removed as a whole.

Adding a service exports its nodes, parents first.  If an export fails, the nodes exported so far
are withdrawn, newest first, and the application is as it was.  Otherwise the service is live: the
tree is published, and each node enters the directory and is announced.

Removing a service takes it off the live ones first.  Its nodes leave the directory, children
first, and those that had been announced are retracted; then all of them are withdrawn, children
first, and the tree is published.

The steps after the exports of an addition, and all steps of a removal, are not undone if a later
one fails.
-/

import GattServer.Application.Operation

namespace GattServer
namespace Application

/-- Claims the bus name, exports the object manager and publishes the tree. -/
def run : Operation Unit := do
  let app ← get
  if app.running then throw (.alreadyRunning app.name)
  else do
    ask (.requestName app.name)
    ask (.exportObject app.path (.objectManager app.id))
    modify fun app => { app with running := true }
    publishTree

/-- Exports nodes one after the other, where `exported` holds those exported before, newest first.
If an export fails these are withdrawn. -/
def exportFrom (exported : List Node) : List Node → Operation Unit
  | [] => pure ()
  | node :: rest => do
    let app ← get
    match ← attempt (.exportObject node.path (node.object app.id)) with
    | .ok () => exportFrom (node :: exported) rest
    | .error e => do
      exported.forM fun node => withdraw node.path node.kind
      throw e

/-- Enters a node into the directory and announces it. -/
def announce (node : Node) : Operation Unit := do
  modify fun app => { app with directory := app.directory.insert node.path node.interfaces }
  let app ← get
  ask (.announce app.path node.path node.interfaces)

/-- Takes a node out of the directory and retracts it, if it was there. -/
def retract (node : Node) : Operation Unit := do
  let app ← get
  match app.directory.find? node.path with
  | none => pure ()
  | some interfaces => do
    set { app with directory := app.directory.erase node.path }
    ask (.retract app.path node.path interfaces.keys)

/-- Publishes a service with everything attached to it. -/
def addService (service : Service) : Operation Unit := do
  let app ← get
  if app.running = false then throw (.notRunning service.path)
  else if (app.service? service.path).isSome then throw (.serviceAdded service.path)
  else do
    exportFrom [] service.nodes
    modify fun app => { app with services := app.services ++ [service] }
    publishTree
    service.nodes.forM announce

/-- Withdraws the live service of a path with everything attached to it.  Where no service of the
path is live there is nothing to do. -/
def removeService (service : Service) : Operation Unit := do
  let app ← get
  match app.service? service.path with
  | none => pure ()
  | some removed => do
    set { app with services := app.services.eraseP fun s => s.path = service.path }
    removed.nodes.reverse.forM retract
    removed.nodes.reverse.forM fun node => ask (.withdrawObject node.path node.kind)
    publishTree

/-- Replaces the value of a live characteristic, in the tree and in the directory, and signals the
change. -/
def updateValue (path : ObjectPath) (value : List UInt8) : Operation Unit := do
  let app ← get
  match setValueIn? path value app.services with
  | none => throw (.noCharacteristic path)
  | some services => do
    set { app with
      services
      directory := app.directory.setProperty path Interface.characteristic "Value" (.bytes value) }
    ask (.updateValue path value)

end Application
end GattServer
