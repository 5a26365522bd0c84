import Mathlib.Data.List.Basic

/-!
# Byte strings

`std::string` holds bytes, not characters: the path escaping and the selector parser work byte by
byte, and RTT names may hold any byte. Every text of the model is a list of bytes, compared as
`std::string` compares: lexicographically by unsigned byte.
-/

namespace RttOpcua

/-- `std::string`. -/
abbrev Str := List UInt8

/-- A string literal of the source (all of them are ASCII). -/
def lit (s : String) : Str := s.toList.map fun c => c.toNat.toUInt8

end RttOpcua
