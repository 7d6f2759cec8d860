/-
# Texts of ASCII characters

A character below 128 is encoded by the one byte that has its code, so the bytes of a text of such
characters are their codes (`Text.bytes_of_ascii`).  Whether a text is of this kind shows in its
bytes: if all of them are below 128, its characters have these codes (`Text.toList_of_ascii`).
-/

import GattServer.Text.Bytes
import Mathlib.Data.List.Basic

namespace GattServer
namespace Text

theorem toNat_ofUInt8 (b : UInt8) : (Char.ofUInt8 b).toNat = b.toNat :=
  UInt8.toNat_toUInt32 b

theorem toUInt8_ofUInt8 (b : UInt8) : (Char.ofUInt8 b).toUInt8 = b :=
  UInt8.toUInt8_toUInt32 b

theorem utf8EncodeChar_of_ascii {c : Char} (hc : c.toNat < 128) :
    String.utf8EncodeChar c = [c.toUInt8] :=
  String.utf8EncodeChar_eq_singleton (Char.utf8Size_eq_one_iff.2 (UInt32.le_iff_toNat_le.2
    (Nat.le_of_lt_succ hc)))

/-- The bytes of a text of ASCII characters are their codes. -/
theorem bytes_of_ascii {s : String} (h : ∀ c ∈ s.toList, c.toNat < 128) :
    bytes s = s.toList.map Char.toUInt8 := by
  have hb : bytes s = s.toList.flatMap String.utf8EncodeChar := by
    conv_lhs => rw [← String.ofList_toList (s := s)]
    rw [bytes, String.toByteArray_ofList]
    exact List.toList_data_toByteArray
  rw [hb, ← List.flatMap_singleton' (s.toList.map _), List.flatMap_map]
  exact List.flatMap_congr fun c hc => utf8EncodeChar_of_ascii (h c hc)

/-- Bytes below 128 are the codes of the characters. -/
theorem toList_of_ascii {s : String} (h : ∀ b ∈ bytes s, b.toNat < 128) :
    s.toList = (bytes s).map Char.ofUInt8 := by
  have hbytes : bytes (String.ofList ((bytes s).map Char.ofUInt8)) = bytes s := by
    rw [bytes_of_ascii, String.toList_ofList, List.map_map]
    · exact (List.map_congr_left fun b _ => toUInt8_ofUInt8 b).trans (List.map_id _)
    · intro c hc
      rw [String.toList_ofList] at hc
      obtain ⟨b, hb, rfl⟩ := List.mem_map.1 hc
      rw [toNat_ofUInt8]
      exact h b hb
  have hs := congrArg String.toList (bytes_injective hbytes)
  rw [String.toList_ofList] at hs
  exact hs.symm

end Text
end GattServer
