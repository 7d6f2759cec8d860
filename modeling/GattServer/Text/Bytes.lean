/-
# Texts as bytes

Bus names, object paths and UUIDs are checked on the bytes of their UTF-8 encoding, and child
nodes are listed in the order of those bytes.
-/

namespace GattServer
namespace Text

/-- The bytes of the UTF-8 encoding of a text. -/
def bytes (s : String) : List UInt8 := s.toByteArray.data.toList

@[simp] theorem bytes_empty : bytes "" = [] := rfl

@[simp] theorem bytes_append (s t : String) : bytes (s ++ t) = bytes s ++ bytes t := by
  simp [bytes, String.toByteArray_append, ByteArray.data_append]

theorem bytes_injective {s t : String} (h : bytes s = bytes t) : s = t := by
  exact String.toByteArray_inj.1 (ByteArray.ext (Array.toList_inj.1 h))

end Text
end GattServer
