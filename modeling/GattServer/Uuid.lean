/-
# Bluetooth UUIDs

A service, a characteristic or a descriptor is identified by sixteen bytes.  Their text has the
form `8-4-4-4-12`: thirty-two hexadecimal digits in five groups joined by dashes.  Digits of either
case are read, lower case is written.

Numbers assigned to standard services have sixteen bits; such an alias stands for the UUID that
carries it in the third and fourth byte of the Bluetooth base UUID.

| offset in the text | what stands there |
| ---: | --- |
| 0, 2, 4, 6 | byte 0 to 3 |
| 8 | dash |
| 9, 11 | byte 4, 5 |
| 13 | dash |
| 14, 16 | byte 6, 7 |
| 18 | dash |
| 19, 21 | byte 8, 9 |
| 23 | dash |
| 24, 26, 28, 30, 32, 34 | byte 10 to 15 |
-/

import GattServer.Text.Bytes

namespace GattServer

/-- A 128-bit identifier, most significant byte first. -/
structure Uuid where
  /-- The sixteen bytes. -/
  bytes : List UInt8
  /-- There are sixteen of them. -/
  length_bytes : bytes.length = 16
  deriving DecidableEq

/-- Why a text is no UUID. -/
inductive UuidFault where
  /-- The text stops inside the form. -/
  | endOfText
  /-- A hexadecimal digit was expected. -/
  | digit
  /-- A dash was expected. -/
  | dash
  /-- The form is complete and more follows. -/
  | trailing
  deriving DecidableEq, Repr

/-- The wording of a fault. -/
def UuidFault.message : UuidFault → String
  | .endOfText => "unexpected end of input"
  | .digit => "invalid hex digit"
  | .dash => "invalid character (`-` expected)"
  | .trailing => "invalid trailing data"

namespace Uuid

/-! ### Digits -/

/-- The value of a hexadecimal digit, in either case. -/
def digitValue? (c : UInt8) : Option Nat :=
  if 48 ≤ c.toNat ∧ c.toNat ≤ 57 then some (c.toNat - 48)
  else if 97 ≤ c.toNat ∧ c.toNat ≤ 102 then some (c.toNat - 87)
  else if 65 ≤ c.toNat ∧ c.toNat ≤ 70 then some (c.toNat - 55)
  else none

theorem digitValue?_lt {c : UInt8} {n : Nat} (h : digitValue? c = some n) : n < 16 := by
  unfold digitValue? at h
  split at h
  · cases h; omega
  · split at h
    · cases h; omega
    · split at h
      · cases h; omega
      · cases h

/-- The lower-case digit of a value below sixteen. -/
def digit (n : Nat) : Char := Char.ofNat (if n < 10 then 48 + n else 87 + n)

/-! ### Reading -/

/-- The offsets of the dashes in the written form. -/
def dashes : List Nat := [8, 13, 18, 23]

/-- Reads the written form from an offset on, with the bytes that were read before it.  At the
offset of a dash a dash is due, and at any other the two digits of a byte, which is the end of the
text if the second one is not there.  Nothing may follow the last byte. -/
def readFrom (cs : List UInt8) (offset : Nat) (bytes : List UInt8) :
    Except UuidFault (List UInt8) :=
  if bytes.length < 16 then
    if offset ∈ dashes then
      if _h : offset < cs.length then
        if cs[offset] = 45 then readFrom cs (offset + 1) bytes else .error .dash
      else .error .endOfText
    else if _h : offset + 1 < cs.length then
      match digitValue? cs[offset], digitValue? cs[offset + 1] with
      | some high, some low =>
        readFrom cs (offset + 2) (bytes ++ [UInt8.ofNat (16 * high + low)])
      | _, _ => .error .digit
    else .error .endOfText
  else if offset = cs.length then .ok bytes
  else .error .trailing
termination_by (16 - bytes.length, 24 - offset)
decreasing_by
  · have hoffset : offset < 24 := by simp_all [dashes]; omega
    exact Prod.Lex.right _ (by omega)
  · refine Prod.Lex.left _ _ ?_
    rw [List.length_append, List.length_singleton]
    omega

/-- A text that is read gives sixteen bytes. -/
theorem length_of_readFrom {cs bytes bs : List UInt8} {offset : Nat}
    (h : readFrom cs offset bytes = .ok bs) (hbytes : bytes.length ≤ 16) : bs.length = 16 := by
  fun_induction readFrom cs offset bytes with
  | case1 offset bytes hlt hdash hin hc ih => exact ih h hbytes
  | case4 offset bytes hlt hdash hin high low hhigh hlow ih =>
    refine ih h ?_
    rw [List.length_append, List.length_singleton]
    exact hlt
  | case7 bytes hlt =>
    cases h
    omega
  | _ => cases h

/-- Reads the written form of a UUID. -/
def ofText? (s : String) : Except UuidFault Uuid :=
  match h : readFrom (Text.bytes s) 0 [] with
  | .ok bs => .ok ⟨bs, length_of_readFrom h (Nat.zero_le _)⟩
  | .error f => .error f

/-! ### Writing -/

/-- The digits of a byte, the high half first. -/
def byteChars (b : UInt8) : List Char := [digit (b.toNat / 16), digit (b.toNat % 16)]

/-- The places, counted in bytes, that a dash stands before. -/
def dashedBytes : List Nat := [4, 6, 8, 10]

/-- Writes bytes from the `i`-th on, with a dash before each byte that has one. -/
def writeFrom (i : Nat) : List UInt8 → List Char
  | [] => []
  | b :: bs => (if i ∈ dashedBytes then ['-'] else []) ++ byteChars b ++ writeFrom (i + 1) bs

/-- The written form of a UUID, in lower case. -/
def text (u : Uuid) : String := String.ofList (writeFrom 0 u.bytes)

instance : ToString Uuid := ⟨text⟩

/-! ### Sixteen-bit aliases -/

/-- The Bluetooth base UUID, `00000000-0000-1000-8000-00805f9b34fb`. -/
def base : Uuid := ⟨[0, 0, 0, 0, 0, 0, 0x10, 0, 0x80, 0, 0, 0x80, 0x5f, 0x9b, 0x34, 0xfb], rfl⟩

/-- The UUID that carries a given pair of bytes in the place of aliases. -/
def withAlias (u : Uuid) (high low : UInt8) : Uuid :=
  ⟨(u.bytes.set 2 high).set 3 low, by simp [u.length_bytes]⟩

/-- The UUID that a sixteen-bit alias stands for. -/
def ofAlias (n : UInt16) : Uuid :=
  base.withAlias (UInt8.ofNat (n.toNat / 256)) (UInt8.ofNat n.toNat)

/-- The sixteen-bit alias of a UUID: it has one if it agrees with the base elsewhere. -/
def alias? (u : Uuid) : Option UInt16 :=
  if u.withAlias 0 0 = base then
    some (UInt16.ofNat (256 * (u.bytes.getD 2 0).toNat + (u.bytes.getD 3 0).toNat))
  else none

instance : Inhabited Uuid := ⟨base⟩

end Uuid
end GattServer
