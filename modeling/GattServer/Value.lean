/-
# Typed values

Everything an object shows on the bus, and every argument of a call, is a value with a type.  The
type is written as a signature:

| signature | value |
| --- | --- |
| `y`, `n`, `q`, `i`, `u`, `x`, `t` | integers of 8 to 64 bits |
| `b` | truth value |
| `s`, `o` | text, object path |
| `ay`, `as` | bytes, list of texts |
| `v` | a value together with its type |
| `a{sv}`, `a{qv}` | values with their types, by name or by number |

Values of different types are different, whatever they hold.
-/

import GattServer.ObjectPath

namespace GattServer

/-- A value that holds no other value. -/
inductive Plain where
  | byte (n : UInt8)
  | bool (b : Bool)
  | int16 (n : Int16)
  | uint16 (n : UInt16)
  | int32 (n : Int32)
  | uint32 (n : UInt32)
  | int64 (n : Int64)
  | uint64 (n : UInt64)
  | text (s : String)
  | path (p : ObjectPath)
  | bytes (bs : List UInt8)
  | texts (ss : List String)
  deriving DecidableEq

/-- The signature of a value that holds no other value. -/
def Plain.signature : Plain → String
  | .byte _ => "y"
  | .bool _ => "b"
  | .int16 _ => "n"
  | .uint16 _ => "q"
  | .int32 _ => "i"
  | .uint32 _ => "u"
  | .int64 _ => "x"
  | .uint64 _ => "t"
  | .text _ => "s"
  | .path _ => "o"
  | .bytes _ => "ay"
  | .texts _ => "as"

/-- A value with a type. -/
inductive Value where
  /-- A value that holds no other value. -/
  | plain (p : Plain)
  /-- A value wrapped together with its type. -/
  | variant (v : Value)
  /-- Values by name. -/
  | named (entries : List (String × Value))
  /-- Values by number. -/
  | numbered (entries : List (UInt16 × Value))

namespace Value

instance : Inhabited Value := ⟨.plain (.bool false)⟩

/-- A truth value. -/
abbrev bool (b : Bool) : Value := .plain (.bool b)

/-- A 16-bit number. -/
abbrev uint16 (n : UInt16) : Value := .plain (.uint16 n)

/-- A text. -/
abbrev text (s : String) : Value := .plain (.text s)

/-- An object path. -/
abbrev path (p : ObjectPath) : Value := .plain (.path p)

/-- A sequence of bytes. -/
abbrev bytes (bs : List UInt8) : Value := .plain (.bytes bs)

/-- A list of texts. -/
abbrev texts (ss : List String) : Value := .plain (.texts ss)

/-- The signature of a value: its type, as it is written on the bus. -/
def signature : Value → String
  | .plain p => p.signature
  | .variant _ => "v"
  | .named _ => "a\x7bsv\x7d"
  | .numbered _ => "a\x7bqv\x7d"

mutual

/-- Decides equality of values: the types agree and so do the parts. -/
def decEq : (v w : Value) → Decidable (v = w)
  | .plain p, .plain q => decidable_of_iff (p = q) (by simp)
  | .variant v, .variant w =>
    match decEq v w with
    | .isTrue h => .isTrue (by rw [h])
    | .isFalse h => .isFalse (by simpa using h)
  | .named es, .named fs =>
    match decEqNamed es fs with
    | .isTrue h => .isTrue (by rw [h])
    | .isFalse h => .isFalse (by simpa using h)
  | .numbered es, .numbered fs =>
    match decEqNumbered es fs with
    | .isTrue h => .isTrue (by rw [h])
    | .isFalse h => .isFalse (by simpa using h)
  | .plain _, .variant _ | .plain _, .named _ | .plain _, .numbered _ => .isFalse nofun
  | .variant _, .plain _ | .variant _, .named _ | .variant _, .numbered _ => .isFalse nofun
  | .named _, .plain _ | .named _, .variant _ | .named _, .numbered _ => .isFalse nofun
  | .numbered _, .plain _ | .numbered _, .variant _ | .numbered _, .named _ => .isFalse nofun

/-- Decides equality of values by name. -/
def decEqNamed : (es fs : List (String × Value)) → Decidable (es = fs)
  | [], [] => .isTrue rfl
  | [], _ :: _ => .isFalse nofun
  | _ :: _, [] => .isFalse nofun
  | (k, v) :: es, (l, w) :: fs =>
    if hk : k = l then
      match decEq v w, decEqNamed es fs with
      | .isTrue hv, .isTrue h => .isTrue (by rw [hk, hv, h])
      | .isFalse hv, _ => .isFalse (by simp [hv])
      | _, .isFalse h => .isFalse (by simp [h])
    else .isFalse (by simp [hk])

/-- Decides equality of values by number. -/
def decEqNumbered : (es fs : List (UInt16 × Value)) → Decidable (es = fs)
  | [], [] => .isTrue rfl
  | [], _ :: _ => .isFalse nofun
  | _ :: _, [] => .isFalse nofun
  | (k, v) :: es, (l, w) :: fs =>
    if hk : k = l then
      match decEq v w, decEqNumbered es fs with
      | .isTrue hv, .isTrue h => .isTrue (by rw [hk, hv, h])
      | .isFalse hv, _ => .isFalse (by simp [hv])
      | _, .isFalse h => .isFalse (by simp [h])
    else .isFalse (by simp [hk])

end

instance : DecidableEq Value := decEq

end Value
end GattServer
