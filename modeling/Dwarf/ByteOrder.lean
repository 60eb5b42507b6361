/-! # Byte order

Fixed-width integers are stored with the least significant byte first or last. `ByteOrder.value`
reads a byte string of any length as one unsigned number. -/

namespace Dwarf

/-- Which end of a fixed-width integer is stored first. -/
inductive ByteOrder where
  | little
  | big
  deriving DecidableEq, Repr, Inhabited

namespace ByteOrder

/-- The number whose base-256 digits, least significant first, are the given bytes. -/
def littleValue : List UInt8 → Nat
  | [] => 0
  | byte :: rest => byte.toNat + 256 * littleValue rest

/-- The unsigned number stored in a byte string. -/
def value (order : ByteOrder) (bytes : List UInt8) : Nat :=
  match order with
  | little => littleValue bytes
  | big => littleValue bytes.reverse

/-- The lowest `count` base-256 digits of a number, least significant first. -/
def littleDigits : Nat → Nat → List UInt8
  | 0, _ => []
  | count + 1, number => UInt8.ofNat number :: littleDigits count (number / 256)

/-- A number written in `count` bytes; higher digits are dropped. -/
def digits (order : ByteOrder) (count number : Nat) : List UInt8 :=
  match order with
  | little => littleDigits count number
  | big => (littleDigits count number).reverse

end ByteOrder

end Dwarf
