/-! # Locations

Where the value of a variable is: in one place, or in several places that hold a piece each. -/

namespace Dwarf

/-- A place that holds a value, or the value itself. -/
inductive Place where
  /-- In memory at an address. -/
  | address (address : UInt64)
  /-- In a register. -/
  | register (number : Nat)
  /-- The value has been computed. -/
  | value (value : UInt64)
  /-- The value is given as bytes. -/
  | bytes (bytes : List UInt8)
  /-- The value is not available. -/
  | unavailable
  deriving DecidableEq, Repr, Inhabited

/-- A part of a value and the place that holds it. -/
structure Piece where
  place : Place
  sizeBits : UInt64
  /-- Where the part begins within its place. -/
  bitOffset : UInt64
  deriving DecidableEq, Repr, Inhabited

/-- Where a value is. -/
inductive Location where
  | whole (place : Place)
  | split (pieces : List Piece)
  deriving DecidableEq, Repr, Inhabited

/-- The address of a value that is in memory as a whole. -/
def Location.address? : Location → Option UInt64
  | whole (.address address) => some address
  | _ => none

end Dwarf
