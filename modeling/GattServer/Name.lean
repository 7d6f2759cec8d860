/-
# Names on the bus

Connections claim well-known names and objects offer interfaces under names of the same make:
elements joined by dots.  The two kinds differ in the characters they admit and in what is said of
the empty name.

A name is checked from left to right, its length in bytes first.  A dot may end a name, but not
start it or follow another dot.
-/

import GattServer.Text.Bytes

namespace GattServer

/-- The kinds of names that are checked. -/
inductive NameKind where
  /-- A name that a connection claims. -/
  | wellKnown
  /-- The name of an interface. -/
  | interface
  deriving DecidableEq, Repr

/-- Why a text is no name. -/
inductive NameFault where
  /-- The text is empty where that has a wording of its own. -/
  | empty
  /-- The text has fewer than three bytes. -/
  | tooShort (name : String)
  /-- The text has more than 255 bytes. -/
  | tooLong (name : String)
  /-- A dot starts the text or follows a dot. -/
  | emptyElement
  /-- An element starts with a digit. -/
  | leadingDigit
  /-- A character that the kind of name does not admit. -/
  | character (c : Char)
  /-- The text has no dot. -/
  | noDot
  deriving DecidableEq, Repr

/-- The wording of a fault. -/
def NameFault.message : NameFault → String
  | .empty => "must contain at least 3 characters"
  | .tooShort name =>
    "`" ++ name ++ "` is " ++ toString name.utf8ByteSize ++
      " characters long, which is smaller than minimum allowed (3)"
  | .tooLong name =>
    "`" ++ name ++ "` is " ++ toString name.utf8ByteSize ++
      " characters long, which is longer than maximum allowed (255)"
  | .emptyElement => "must not contain a double `.`"
  | .leadingDigit => "each element must not start with a digit"
  | .character c => s!"`{c}` character not allowed"
  | .noDot => "must contain at least 1 `.`"

namespace NameKind

/-- What a name of a kind is called when it is refused. -/
def label : NameKind → String
  | .wellKnown => "Invalid well-known bus name"
  | .interface => "Invalid interface or error name"

/-- Whether names of a kind may contain a character besides dots. -/
def admits : NameKind → Char → Bool
  | .wellKnown, c => c.isAlphanum || c = '_' || c = '-'
  | .interface, c => c.isAlphanum || c = '_'

/-- Checks the characters of a name.  `fresh` tells that an element starts here, and `dotted` that
a dot was met before. -/
def checkChars (kind : NameKind) (fresh dotted : Bool) : List Char → Except NameFault Unit
  | [] => if dotted then .ok () else .error .noDot
  | c :: cs =>
    if c = '.' then
      if fresh then .error .emptyElement else checkChars kind true true cs
    else if fresh && c.isDigit then .error .leadingDigit
    else if kind.admits c then checkChars kind false dotted cs
    else .error (.character c)

/-- Checks a name. -/
def check (kind : NameKind) (name : String) : Except NameFault Unit :=
  if kind = .wellKnown ∧ name = "" then .error .empty
  else if name.utf8ByteSize < 3 then .error (.tooShort name)
  else if 255 < name.utf8ByteSize then .error (.tooLong name)
  else kind.checkChars true false name.toList

end NameKind
end GattServer
