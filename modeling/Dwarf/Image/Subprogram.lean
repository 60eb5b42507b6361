import Dwarf.Image

/-! # Subprograms of an image

The subprogram at an address is the one with the narrowest range around it. -/

namespace Dwarf

namespace Image

/-- A subprogram and its first range around some address. -/
structure Cover where
  ref : EntryRef
  range : AddressRange
  deriving DecidableEq, Repr, Inhabited

/-- The number of addresses of the range. -/
def Cover.width (cover : Cover) : UInt64 :=
  cover.range.high - cover.range.low

/-- The first range of an entry around an address. Ranges that cannot be decoded cover nothing. -/
def rangeAround? (image : Image) (unit : CompilationUnit) (entry : Entry) (pc : UInt64) :
    Option AddressRange :=
  match AddressRange.ofEntry entry (image.sections.data .ranges) unit.encoding
      unit.baseAddress with
  | .ok ranges => ranges.find? fun range => range.contains pc
  | .error _ => none

/-- The subprograms of a unit that cover an address, in the order in which they are stored. -/
def coversIn (image : Image) (unit : CompilationUnit) (pc : UInt64) : List Cover :=
  unit.entries.toList.zipIdx.filterMap fun (entry, id) =>
    if entry.tag = .subprogram then
      (image.rangeAround? unit entry pc).map fun range => ⟨⟨unit, id, entry⟩, range⟩
    else none

/-- The subprograms that cover an address. A unit whose own ranges are known and elsewhere is
passed over. -/
def coversAt (image : Image) (pc : UInt64) : List Cover :=
  (image.units.filter fun unit => unit.ranges.isEmpty || unit.covers pc).flatMap fun unit =>
    image.coversIn unit.unit pc

/-- The narrower of two covers, of equal ones the later. -/
def narrower (best : Option Cover) (next : Cover) : Option Cover :=
  match best with
  | some found => if next.width ≤ found.width then some next else some found
  | none => some next

/-- The innermost subprogram around an address: of those with the narrowest range the last, since
a nested subprogram is stored after the one around it. -/
def subprogramAt? (image : Image) (pc : UInt64) : Option EntryRef :=
  ((image.coversAt pc).foldl narrower none).map Cover.ref

end Image

end Dwarf
