/-! # Hexadecimal numbers

Messages and fallback names write numbers in lowercase hexadecimal without leading zeros. -/

namespace Dwarf.Hex

/-- Lowercase hexadecimal digits of a number, without leading zeros. -/
def digits (value : Nat) : String :=
  String.ofList (Nat.toDigits 16 value)

/-- Two hexadecimal digits of a byte. -/
def byte (value : UInt8) : String :=
  if value < 0x10 then "0" ++ digits value.toNat else digits value.toNat

end Dwarf.Hex
