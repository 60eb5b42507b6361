import Dwarf.Cursor

/-! # Encodings

The sizes, the version and the byte order that everything in one unit shares. -/

namespace Dwarf

/-- The largest address of a size in bytes. Addresses of eight bytes and more fill a word. -/
def largestAddress (addressSize : Nat) : UInt64 :=
  if 8 ≤ addressSize then 0xffffffffffffffff else UInt64.ofNat (1 <<< (8 * addressSize) - 1)

/-- How the data of a unit is laid out. -/
structure Encoding where
  /-- The size of a target address in bytes. -/
  addressSize : Nat := 8
  /-- The size of a section offset in bytes: 4 or 8. -/
  offsetSize : Nat := 4
  version : UInt16 := 4
  order : ByteOrder := .little
  deriving DecidableEq, Repr, Inhabited

namespace Encoding

/-- A cursor at the start of some bytes with the sizes and byte order of an encoding. -/
def cursor (encoding : Encoding) (data : List UInt8) (base : Nat) : Cursor :=
  ((Cursor.start data base encoding.order).withAddressSize encoding.addressSize).withOffsetSize
    encoding.offsetSize

/-- The largest address of an encoding. -/
def maxAddress (encoding : Encoding) : UInt64 :=
  largestAddress encoding.addressSize

end Encoding

end Dwarf
