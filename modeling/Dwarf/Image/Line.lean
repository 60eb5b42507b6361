import Dwarf.Image

/-! # Lines of an image

The line tables of all units as one: positions by address, and addresses by position. -/

namespace Dwarf

namespace Image

/-- The line tables of an image. -/
def lineTables (image : Image) : List LineTable :=
  image.units.filterMap ImageUnit.lines

/-- The line tables of the units that cover an address. -/
def coveringLineTables (image : Image) (pc : UInt64) : List LineTable :=
  (image.units.filter fun unit => unit.covers pc).filterMap ImageUnit.lines

/-- The source position that holds at an address. Tables of units that cover the address are asked
first, then all. -/
def lineForAddress? (image : Image) (pc : UInt64) : Option SourceLocation :=
  (image.coveringLineTables pc ++ image.lineTables).findSome? fun table => table.locate? pc

/-- The addresses at which the code of a line begins, in ascending order. -/
def addressesForLine (image : Image) (file : String) (line : UInt64) : List UInt64 :=
  let found := image.lineTables.flatMap fun table => table.addressesFor file line
  (found.mergeSort fun a b => a ≤ b).eraseReps

end Image

end Dwarf
