/-
# Flags

What a characteristic or a descriptor can be asked to do is declared by flags.  A set of flags is
kept as a word in which each flag has a bit, and shown as the list of the names of its flags, in
the order of their bits.

| bit | flag of a characteristic | flag of a descriptor |
| ---: | --- | --- |
| 0 | `broadcast` | `read` |
| 1 | `read` | `write` |
| 2 | `write-without-response` | `encrypt-read` |
| 3 | `write` | `encrypt-write` |
| 4 | `notify` | `encrypt-authenticated-read` |
| 5 | `indicate` | `encrypt-authenticated-write` |
| 6 | `authenticated-signed-writes` | `secure-read` |
| 7 | `extended-properties` | `secure-write` |
| 8 | `reliable-write` | `authorize` |
| 9 | `writable-auxiliaries` | |
| 10 | `encrypt-read` | |
| 11 | `encrypt-write` | |
| 12 | `encrypt-authenticated-read` | |
| 13 | `encrypt-authenticated-write` | |
| 14 | `secure-read` | |
| 15 | `secure-write` | |
| 16 | `authorize` | |

Words may have bits that belong to no flag.  Such bits are kept and take part in comparisons of
words, but have no name.

The flags and the table of their names are written down apart from each other.  A flag without a row
would be known and have no name.
-/

namespace GattServer

/-- A family of flags: each has a bit in a word of a fixed width, and a table gives them names. -/
class FlagFamily (φ : Type) where
  /-- The number of bits of a word. -/
  width : Nat
  /-- The flags. -/
  all : List φ
  /-- The bit of a flag. -/
  bit : φ → Nat
  /-- The rows of the table of names. -/
  table : List (φ × String)

/-- A set of flags of a family, as a word. -/
structure Flags (φ : Type) [FlagFamily φ] where
  /-- The word. -/
  bits : BitVec (FlagFamily.width φ)

namespace Flags

variable {φ : Type} [FlagFamily φ]

instance : DecidableEq (Flags φ) := fun a b =>
  decidable_of_iff (a.bits = b.bits) ⟨fun h => by cases a; cases b; simp_all, fun h => by rw [h]⟩

/-- The word without bits. -/
def empty : Flags φ := ⟨0⟩

/-- The word of one flag. -/
def single (f : φ) : Flags φ := ⟨BitVec.twoPow _ (FlagFamily.bit f)⟩

/-- The bits of either word. -/
def union (a b : Flags φ) : Flags φ := ⟨a.bits ||| b.bits⟩

/-- The bits of both words. -/
def inter (a b : Flags φ) : Flags φ := ⟨a.bits &&& b.bits⟩

/-- The bits of the first word that the second does not have. -/
def diff (a b : Flags φ) : Flags φ := ⟨a.bits &&& ~~~b.bits⟩

/-- The word of a list of flags. -/
def ofList (fs : List φ) : Flags φ := fs.foldr (fun f w => (single f).union w) empty

/-- Whether all bits of `b` are bits of `a`. -/
def contains (a b : Flags φ) : Bool := a.inter b = b

/-- Whether the words have a bit in common. -/
def intersects (a b : Flags φ) : Bool := a.inter b ≠ empty

/-- The rows of the table whose flags a word has. -/
def rows (a : Flags φ) : List (φ × String) :=
  (FlagFamily.table : List (φ × String)).filter fun row => a.contains (single row.1)

/-- The flags of a word, in the order of the table. -/
def toList (a : Flags φ) : List φ := a.rows.map Prod.fst

/-- The names of the flags of a word, in the order of the table. -/
def names (a : Flags φ) : List String := a.rows.map Prod.snd

/-- The flag of a given name. -/
def named? (name : String) : Option φ :=
  ((FlagFamily.table : List (φ × String)).find? fun row => row.2 = name).map Prod.fst

/-- The word with the bits that belong to no flag cleared. -/
def truncate (a : Flags φ) : Flags φ := a.inter (ofList FlagFamily.all)

/-- Whether all bits of a word belong to flags. -/
def isKnown (a : Flags φ) : Bool := a.truncate = a

instance : Inhabited (Flags φ) := ⟨empty⟩

end Flags

/-- What a characteristic can be asked to do. -/
inductive CharacteristicFlag where
  | broadcast
  | read
  | writeWithoutResponse
  | write
  | notify
  | indicate
  | authenticatedSignedWrites
  | extendedProperties
  | reliableWrite
  | writableAuxiliaries
  | encryptRead
  | encryptWrite
  | encryptAuthenticatedRead
  | encryptAuthenticatedWrite
  | secureRead
  | secureWrite
  | authorize
  deriving DecidableEq, Repr

namespace CharacteristicFlag

/-- The bit of a flag in a word of 32 bits. -/
def bit : CharacteristicFlag → Nat
  | .broadcast => 0
  | .read => 1
  | .writeWithoutResponse => 2
  | .write => 3
  | .notify => 4
  | .indicate => 5
  | .authenticatedSignedWrites => 6
  | .extendedProperties => 7
  | .reliableWrite => 8
  | .writableAuxiliaries => 9
  | .encryptRead => 10
  | .encryptWrite => 11
  | .encryptAuthenticatedRead => 12
  | .encryptAuthenticatedWrite => 13
  | .secureRead => 14
  | .secureWrite => 15
  | .authorize => 16

/-- The names of the flags, as the Bluetooth daemon knows them. -/
def table : List (CharacteristicFlag × String) :=
  [(.broadcast, "broadcast"),
    (.read, "read"),
    (.writeWithoutResponse, "write-without-response"),
    (.write, "write"),
    (.notify, "notify"),
    (.indicate, "indicate"),
    (.authenticatedSignedWrites, "authenticated-signed-writes"),
    (.extendedProperties, "extended-properties"),
    (.reliableWrite, "reliable-write"),
    (.writableAuxiliaries, "writable-auxiliaries"),
    (.encryptRead, "encrypt-read"),
    (.encryptWrite, "encrypt-write"),
    (.encryptAuthenticatedRead, "encrypt-authenticated-read"),
    (.encryptAuthenticatedWrite, "encrypt-authenticated-write"),
    (.secureRead, "secure-read"),
    (.secureWrite, "secure-write"),
    (.authorize, "authorize")]

instance : FlagFamily CharacteristicFlag where
  width := 32
  all := [.broadcast, .read, .writeWithoutResponse, .write, .notify, .indicate,
    .authenticatedSignedWrites, .extendedProperties, .reliableWrite, .writableAuxiliaries,
    .encryptRead, .encryptWrite, .encryptAuthenticatedRead, .encryptAuthenticatedWrite,
    .secureRead, .secureWrite, .authorize]
  bit := bit
  table := table

end CharacteristicFlag

/-- What a descriptor can be asked to do. -/
inductive DescriptorFlag where
  | read
  | write
  | encryptRead
  | encryptWrite
  | encryptAuthenticatedRead
  | encryptAuthenticatedWrite
  | secureRead
  | secureWrite
  | authorize
  deriving DecidableEq, Repr

namespace DescriptorFlag

/-- The bit of a flag in a word of 16 bits. -/
def bit : DescriptorFlag → Nat
  | .read => 0
  | .write => 1
  | .encryptRead => 2
  | .encryptWrite => 3
  | .encryptAuthenticatedRead => 4
  | .encryptAuthenticatedWrite => 5
  | .secureRead => 6
  | .secureWrite => 7
  | .authorize => 8

/-- The names of the flags, as the Bluetooth daemon knows them. -/
def table : List (DescriptorFlag × String) :=
  [(.read, "read"),
    (.write, "write"),
    (.encryptRead, "encrypt-read"),
    (.encryptWrite, "encrypt-write"),
    (.encryptAuthenticatedRead, "encrypt-authenticated-read"),
    (.encryptAuthenticatedWrite, "encrypt-authenticated-write"),
    (.secureRead, "secure-read"),
    (.secureWrite, "secure-write"),
    (.authorize, "authorize")]

instance : FlagFamily DescriptorFlag where
  width := 16
  all := [.read, .write, .encryptRead, .encryptWrite, .encryptAuthenticatedRead,
    .encryptAuthenticatedWrite, .secureRead, .secureWrite, .authorize]
  bit := bit
  table := table

end DescriptorFlag

/-- The flags of a characteristic: a word of 32 bits. -/
abbrev CharacteristicFlags := Flags CharacteristicFlag

/-- The flags of a descriptor: a word of 16 bits. -/
abbrev DescriptorFlags := Flags DescriptorFlag

/-- A characteristic can be subscribed to if it can notify or indicate changes. -/
def CharacteristicFlags.notifiable (a : CharacteristicFlags) : Bool :=
  a.intersects (.ofList [.notify, .indicate])

end GattServer
