/-
# Method calls from the bus

Peers call methods of the objects on a connection.  A call is answered with a result, or with an
error that has a name and a wording.

| error | name |
| --- | --- |
| the object, interface, method or property is not there | a standard one |
| the arguments do not fit | that of the connection |
| the object cannot do this | `org.bluez.Error.NotSupported` |
| the application failed | `org.bluez.Error.Failed` |
-/

import GattServer.Directory
import GattServer.Name
import GattServer.Request

namespace GattServer

/-- A call of a method of an object. -/
structure MethodCall where
  /-- The path of the object. -/
  path : ObjectPath
  /-- The interface of the method. -/
  interface : String
  /-- The name of the method. -/
  member : String
  /-- The arguments. -/
  arguments : List Value
  deriving DecidableEq

/-- Why a call of a method fails. -/
inductive MethodError where
  | unknownObject (path : ObjectPath)
  | unknownInterface (interface : String)
  | unknownMethod (member : String)
  | unknownProperty (property : String)
  /-- The arguments have other types than the parameters. -/
  | signatureMismatch (got : List Value) (expected : List String)
  /-- A text stands for an interface and is no name of one. -/
  | malformedInterface (fault : NameFault)
  /-- The object cannot do what it is asked for. -/
  | notSupported (message : String)
  /-- The application failed to answer. -/
  | failed (message : String)
  deriving DecidableEq

namespace MethodError

/-- The name of an error. -/
def name : MethodError → String
  | .unknownObject _ => "org.freedesktop.DBus.Error.UnknownObject"
  | .unknownInterface _ => "org.freedesktop.DBus.Error.UnknownInterface"
  | .unknownMethod _ => "org.freedesktop.DBus.Error.UnknownMethod"
  | .unknownProperty _ => "org.freedesktop.DBus.Error.UnknownProperty"
  | .signatureMismatch _ _ | .malformedInterface _ => "org.freedesktop.zbus.Error"
  | .notSupported _ => "org.bluez.Error.NotSupported"
  | .failed _ => "org.bluez.Error.Failed"

/-- The signature of a list of parameters: several are put into parentheses. -/
def parameterSignature : List String → String
  | [] => ""
  | [s] => s
  | ss => "(" ++ String.join ss ++ ")"

/-- The wording of an error. -/
def message : MethodError → String
  | .unknownObject path => "Unknown object '" ++ path.text ++ "'"
  | .unknownInterface interface => "Unknown interface '" ++ interface ++ "'"
  | .unknownMethod member => "Unknown method '" ++ member ++ "'"
  | .unknownProperty property => "Unknown property '" ++ property ++ "'"
  | .signatureMismatch got expected =>
    "Signature mismatch: got `" ++ String.join (got.map Value.signature) ++ "`, expected `" ++
      parameterSignature expected ++ "`"
  | .malformedInterface fault => NameKind.interface.label ++ ": " ++ fault.message
  | .notSupported message | .failed message => message

/-- An error as one line. -/
def describe (e : MethodError) : String := e.name ++ ": " ++ e.message

end MethodError

/-- The error that answers a request without a result. -/
def CallbackError.methodError : CallbackError → MethodError
  | .notRegistered => .notSupported CallbackError.notRegistered.message
  | .failed message => .failed message

/-- The error of an object whose application is gone. -/
def MethodError.shutDown : MethodError := .failed "application has shut down"

/-- The result of a method. -/
inductive MethodResult where
  | nothing
  | value (v : Value)
  | directory (d : Directory)

/-- The result of a request: the bytes that were read, or nothing. -/
def MethodResult.ofBytes : Option (List UInt8) → MethodResult
  | none => .nothing
  | some bs => .value (.bytes bs)

end GattServer
