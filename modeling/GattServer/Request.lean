/-
# Requests for values

The Bluetooth daemon reads and writes the values of characteristics and descriptors.  A request
names its target by the UUIDs of the node and of the nodes above it.  An application answers by
handlers, and an answer that is none has a number and a wording.

| outcome | code | wording |
| --- | ---: | --- |
| the handler is absent | −1 | `No callback registered.` |
| the handler fails | −2 | its own |
-/

import GattServer.Settings

namespace GattServer

/-- What a request is about: a node, by the UUIDs from its service down. -/
inductive Target where
  | characteristic (service characteristic : Uuid)
  | descriptor (service characteristic descriptor : Uuid)
  deriving DecidableEq

/-- The UUIDs of a target, the service first. -/
def Target.ids : Target → List Uuid
  | .characteristic s c => [s, c]
  | .descriptor s c d => [s, c, d]

/-- A request to read or to write a value. -/
inductive Request where
  | read (target : Target)
  | write (target : Target) (value : List UInt8)
  deriving DecidableEq

namespace Request

/-- What a request is about. -/
def target : Request → Target
  | .read t => t
  | .write t _ => t

/-- The value that is written. -/
def value? : Request → Option (List UInt8)
  | .read _ => none
  | .write _ bs => some bs

end Request

/-- Why a request has no answer. -/
inductive CallbackError where
  /-- No handler is set up for the request. -/
  | notRegistered
  /-- The handler failed. -/
  | failed (message : String)
  deriving DecidableEq, Repr

namespace CallbackError

/-- The number of a cause. -/
def code : CallbackError → Int32
  | .notRegistered => -1
  | .failed _ => -2

/-- The wording of an error. -/
def message : CallbackError → String
  | .notRegistered => "No callback registered."
  | .failed message => message

/-- The word for a cause. -/
def kind : CallbackError → String
  | .notRegistered => "NotRegistered"
  | .failed _ => "FunctionError"

/-- An error as a record. -/
def describe (e : CallbackError) : String :=
  Text.record "CallbackError" [("kind", e.kind), ("message", Text.quote e.message)] true

end CallbackError

end GattServer
