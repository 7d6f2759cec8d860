/-
# Quoted texts and records

A value is described for a person as a record: its name, and its fields in order, each with the
text of its value.  A text in such a record stands between double quotes.  Quotes and backslashes
in it are escaped, and so is every character without a picture of its own: some by a letter, the
others by their code in hexadecimal digits between braces.
-/

import GattServer.Text.Printable

namespace GattServer
namespace Text

/-- The letter that stands for a character after a backslash. -/
def escapeLetter? (c : Char) : Option Char :=
  if c = '\x00' then some '0'
  else if c = '\t' then some 't'
  else if c = '\r' then some 'r'
  else if c = '\n' then some 'n'
  else if c = '\\' then some '\\'
  else if c = '"' then some '"'
  else none

/-- A character as it stands in a quoted text. -/
def escape (c : Char) : List Char :=
  match escapeLetter? c with
  | some letter => ['\\', letter]
  | none =>
    if isPrintable c then [c]
    else ['\\', 'u', '\x7b'] ++ Nat.toDigits 16 c.toNat ++ ['\x7d']

/-- A text between quotes. -/
def quote (s : String) : String :=
  String.ofList (['"'] ++ s.toList.flatMap escape ++ ['"'])

/-- A truth value as a word. -/
def truth (b : Bool) : String := if b then "true" else "false"

/-- A record with the fields of a value.  One that is not whole ends in two dots, for the fields
that are not shown. -/
def record (name : String) (fields : List (String × String)) (whole : Bool) : String :=
  let shown := fields.map fun f => f.1 ++ ": " ++ f.2
  let all := if whole then shown else shown ++ [".."]
  name ++ " \x7b " ++ ", ".intercalate all ++ " \x7d"

end Text
end GattServer
