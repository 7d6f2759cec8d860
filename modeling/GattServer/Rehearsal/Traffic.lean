/-
# Traffic

What goes over a connection in a rehearsal is put on record, together with what applications do:
the calls they make on the shared connection, with or without an injected failure; the requests
that handlers answer; warnings; and the messages that connections send.

Traffic is the state of a bus: calls work on a connection and extend the record.  On the way to the
shared connection, number zero, they go through a fault plan.
-/

import GattServer.Connection.Basic
import GattServer.Rehearsal.FaultPlan

namespace GattServer

/-- Something that happened in a rehearsal. -/
inductive Event where
  /-- A call was made on the shared connection; `failed` tells that a fault met it. -/
  | call (c : Call) (failed : Bool)
  /-- A handler of the application of this name answered a request. -/
  | handled (application : String) (r : Request)
  /-- A warning was put on record. -/
  | warned (w : Warning)
  /-- A connection sent a message. -/
  | sent (link : Nat) (m : Message)

/-- What calls work on. -/
structure Traffic where
  /-- The number of the connection. -/
  link : Nat
  /-- The connection. -/
  connection : Connection
  /-- The faults that calls may meet. -/
  faults : FaultPlan
  /-- What has happened so far, oldest first. -/
  events : List Event

namespace Traffic

/-- The traffic with one more event. -/
def log (e : Event) (t : Traffic) : Traffic := { t with events := t.events ++ [e] }

/-- Carries a call out on the connection. -/
def carry (daemon : Daemon) (c : Call) (t : Traffic) : Answer × Traffic :=
  let r := t.connection.perform daemon c
  (r.answer, { t with
    connection := r.connection
    events := t.events ++ r.messages.map (.sent t.link) ++ r.warnings.map .warned })

/-- Carries a call out on the connection unless a fault meets it. -/
def tryCarry (daemon : Daemon) (c : Call) (t : Traffic) : Answer × Traffic :=
  match t.faults.strike c with
  | (some e, faults) => (.error e, { t with faults }.log (.call c true))
  | (none, faults) => carry daemon c ({ t with faults }.log (.call c false))

/-- The bus of the applications on the shared connection. -/
def sharedBus (daemon : Daemon) : Bus Traffic where
  call := tryCarry daemon
  warn w := log (.warned w)

/-- The bus of an application on a connection of its own. -/
def ownBus (daemon : Daemon) : Bus Traffic where
  call := carry daemon
  warn w := log (.warned w)

end Traffic
end GattServer
