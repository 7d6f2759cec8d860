/-
# Handlers

An application answers requests for values by handlers, one for each combination of operation and
kind of node; each of them may be absent.

A handler works on a memory of its own kind, of a type `σ` that the owner of the application
chooses: it takes the memory as it is and leaves a new one, whether it succeeds or fails.  It is
also handed the application, and may look at all of it.

It is assumed that a handler answers before anything else happens, and that it leaves the
application as it is.  What it has the application do besides, such as to create a service, counts
as done by the owner of the application, before or after the request.
-/

import GattServer.Application.Basic
import GattServer.Request

namespace GattServer

/-- The handlers of an application, over a memory of type `σ`. -/
structure Handlers (σ : Type) where
  /-- Answers reads of characteristics. -/
  read : Option (Application → Uuid → Uuid → σ → Except String (List UInt8) × σ) := none
  /-- Takes writes to characteristics. -/
  write : Option (Application → Uuid → Uuid → List UInt8 → σ → Except String Unit × σ) := none
  /-- Answers reads of descriptors. -/
  descriptorRead : Option (Application → Uuid → Uuid → Uuid → σ → Except String (List UInt8) × σ) :=
    none
  /-- Takes writes to descriptors. -/
  descriptorWrite :
    Option (Application → Uuid → Uuid → Uuid → List UInt8 → σ → Except String Unit × σ) := none

namespace Handlers

variable {σ : Type}

/-- Whether a handler is set up for a request. -/
def covers (h : Handlers σ) : Request → Bool
  | .read (.characteristic ..) => h.read.isSome
  | .write (.characteristic ..) _ => h.write.isSome
  | .read (.descriptor ..) => h.descriptorRead.isSome
  | .write (.descriptor ..) _ => h.descriptorWrite.isSome

/-- The answer of a handler that returns bytes. -/
def bytesAnswer (r : Except String (List UInt8) × σ) :
    Except CallbackError (Option (List UInt8)) × σ :=
  ((r.1.map some).mapError .failed, r.2)

/-- The answer of a handler that returns nothing. -/
def unitAnswer (r : Except String Unit × σ) : Except CallbackError (Option (List UInt8)) × σ :=
  ((r.1.map fun _ => none).mapError .failed, r.2)

/-- Hands a request to the handler for it.  A read is answered with bytes, a write with nothing.
Where the handler is absent the memory stays as it is. -/
def dispatch (h : Handlers σ) (app : Application) (r : Request) (memory : σ) :
    Except CallbackError (Option (List UInt8)) × σ :=
  match r with
  | .read (.characteristic s c) =>
    match h.read with
    | some f => bytesAnswer (f app s c memory)
    | none => (.error .notRegistered, memory)
  | .write (.characteristic s c) value =>
    match h.write with
    | some f => unitAnswer (f app s c value memory)
    | none => (.error .notRegistered, memory)
  | .read (.descriptor s c d) =>
    match h.descriptorRead with
    | some f => bytesAnswer (f app s c d memory)
    | none => (.error .notRegistered, memory)
  | .write (.descriptor s c d) value =>
    match h.descriptorWrite with
    | some f => unitAnswer (f app s c d value memory)
    | none => (.error .notRegistered, memory)

end Handlers

/-- Everything an application is set up with. -/
structure Configuration (σ : Type) where
  /-- The texts. -/
  settings : Settings
  /-- The handlers. -/
  handlers : Handlers σ

/-- A configuration as a record: the texts but the suffix, and which handlers are set up. -/
def Configuration.describe {σ : Type} (c : Configuration σ) : String :=
  Text.record "ApplicationConfig"
    [("object_name", Text.quote c.settings.name),
      ("object_path", Text.quote c.settings.path),
      ("uuid_base", Text.quote c.settings.uuidBase),
      ("local_name", Text.quote c.settings.localName),
      ("read", Text.truth c.handlers.read.isSome),
      ("write", Text.truth c.handlers.write.isSome),
      ("descriptor_read", Text.truth c.handlers.descriptorRead.isSome),
      ("descriptor_write", Text.truth c.handlers.descriptorWrite.isSome)] true

end GattServer
