/-
# Object paths

An object path is a list of segments, each a non-empty run of ASCII letters, digits and
underscores.  It is written with a slash before each segment; the path without segments is the
root, written `/`.  So a path has one written form, and the segments of a path that lies below
another one begin with the segments of that other path.

Reading goes through the bytes of the text from left to right and reports the first byte that
cannot stand where it does.  A byte is reported as the character with that code, so a character
outside ASCII is reported by the first byte of its encoding.
-/

import GattServer.Text.Bytes

namespace GattServer

/-- The characters of a segment: ASCII letters, digits and the underscore. -/
def isWordChar (c : Char) : Bool := c.isAlphanum || c = '_'

/-- A piece of an object path between slashes. -/
structure Segment where
  /-- The characters of the segment. -/
  text : String
  /-- A segment is not empty. -/
  ne_nil : text.toList ≠ []
  /-- All its characters may stand in a segment. -/
  word : text.toList.all isWordChar = true
  deriving DecidableEq

/-- The place of an object in the tree of objects: the segments from the root down. -/
structure ObjectPath where
  /-- The segments, outermost first. -/
  segments : List Segment
  deriving DecidableEq

/-- Why a text is no object path. -/
inductive PathFault where
  /-- The text is empty. -/
  | empty
  /-- The text starts with another character than a slash. -/
  | start (c : Char)
  /-- A slash follows a slash. -/
  | doubled
  /-- The text ends with a slash and is longer than the root's. -/
  | trailing
  /-- A character that neither separates segments nor stands in one. -/
  | character (c : Char)
  deriving DecidableEq, Repr

/-- The wording of a fault. -/
def PathFault.message : PathFault → String
  | .empty => "invalid length 0, expected > 0 character"
  | .start c => s!"invalid value: character `{c}`, expected /"
  | .doubled => "invalid value: string \"//\", expected /"
  | .trailing => "invalid value: character `/`, expected an alphanumeric character or `_`"
  | .character c =>
    s!"invalid value: character `{c}`, expected an alphanumeric character, `_` or `/`"

namespace Segment

/-- A run of segment characters, possibly empty. -/
abbrev Run := { cs : List Char // cs.all isWordChar = true }

/-- The run without characters. -/
def Run.nil : Run := ⟨[], rfl⟩

/-- The run with one more character at its end. -/
def Run.push (r : Run) (c : Char) (h : isWordChar c = true) : Run :=
  ⟨r.1 ++ [c], by simpa [h] using r.2⟩

/-- The segment that a run spells; an empty run spells none. -/
def ofRun (r : Run) : List Segment :=
  if h : r.1 = [] then [] else [⟨String.ofList r.1, by simpa using h, by simpa using r.2⟩]

end Segment

namespace ObjectPath

/-! ### Reading -/

/-- Reads the segments of a text after a slash, where `run` holds the characters that were read
since that slash. -/
def readSegments (run : Segment.Run) : List UInt8 → Except PathFault (List Segment)
  | [] => .ok (Segment.ofRun run)
  | b :: rest =>
    if b = 47 then
      if run.1 = [] then .error .doubled
      else if rest = [] then .error .trailing
      else (readSegments .nil rest).map (Segment.ofRun run ++ ·)
    else if h : isWordChar (Char.ofUInt8 b) = true then
      readSegments (run.push (Char.ofUInt8 b) h) rest
    else .error (.character (Char.ofUInt8 b))

/-- Reads an object path. -/
def ofText? (s : String) : Except PathFault ObjectPath :=
  match Text.bytes s with
  | [] => .error .empty
  | b :: rest =>
    if b = 47 then (readSegments .nil rest).map ObjectPath.mk
    else .error (.start (Char.ofUInt8 b))

/-! ### Writing -/

/-- The path without segments. -/
def root : ObjectPath := ⟨[]⟩

instance : Inhabited ObjectPath := ⟨root⟩

/-- The segments, each with its slash; the root contributes nothing. -/
def stem (p : ObjectPath) : String := String.join (p.segments.map fun s => "/" ++ s.text)

/-- The written form of a path. -/
def text (p : ObjectPath) : String := if p.segments = [] then "/" else p.stem

instance : ToString ObjectPath := ⟨text⟩

/-! ### The tree of paths -/

/-- The path of a numbered child: the label followed by the number, as a segment below `p`.  The
result is read as a path again, so a label with slashes in it reaches further down. -/
def child? (p : ObjectPath) (label : String) (index : UInt32) : Except PathFault ObjectPath :=
  ofText? (p.stem ++ "/" ++ label ++ toString index.toNat)

/-- `q` is `p` or lies below it. -/
def IsWithin (q p : ObjectPath) : Prop := p.segments <+: q.segments

instance (q p : ObjectPath) : Decidable (q.IsWithin p) :=
  inferInstanceAs (Decidable (p.segments <+: q.segments))

/-- `q` lies below `p`. -/
def IsBelow (q p : ObjectPath) : Prop := q.IsWithin p ∧ q ≠ p

instance (q p : ObjectPath) : Decidable (q.IsBelow p) :=
  inferInstanceAs (Decidable (_ ∧ _))

/-- The paths that `p` lies below, from the root down. -/
def ancestors (p : ObjectPath) : List ObjectPath :=
  (List.range p.segments.length).map fun n => ⟨p.segments.take n⟩

/-- The order of written forms, byte by byte. -/
def le (p q : ObjectPath) : Bool := !decide (Text.bytes q.text < Text.bytes p.text)

end ObjectPath
end GattServer
