import Dwarf.Decoder.Primitive
import Dwarf.Encoding
import Dwarf.Entry

/-! # Address ranges

The addresses that a unit or a subprogram covers: one interval between two attributes, or a list
in the range section. Entries of a list are relative to a base address, which the list itself may
replace. -/

namespace Dwarf

/-- The addresses from `low` up to but not including `high`. -/
structure AddressRange where
  low : UInt64
  high : UInt64
  deriving DecidableEq, Repr, Inhabited

namespace AddressRange

def contains (range : AddressRange) (pc : UInt64) : Bool :=
  range.low ≤ pc && pc < range.high

/-- The interval between two addresses that are relative to a base, within the address space. -/
def relative (encoding : Encoding) (base low high : UInt64) : AddressRange :=
  ⟨(base + low) &&& encoding.maxAddress, (base + high) &&& encoding.maxAddress⟩

/-- Read one pair of a range list with the base in force and the intervals so far, latest first.
Two zeros end the list, the largest address selects a new base, and a pair that is not in
ascending order covers nothing. -/
def extend (encoding : Encoding) : UInt64 × List AddressRange →
    Consuming (Pass (UInt64 × List AddressRange) (List AddressRange)) :=
  fun (base, found) => Decoder.address.bind fun low => do
    let high ← Decoder.address
    if low = 0 ∧ high = 0 then return .done found.reverse
    else if low = encoding.maxAddress then return .again (high, found)
    else if low < high then return .again (base, relative encoding base low high :: found)
    else return .again (base, found)

/-- Decode the list at an offset of the range section. -/
def decodeList (data : List UInt8) (offset : Nat) (encoding : Encoding) (base : UInt64) :
    Except Error (List AddressRange) :=
  if offset ≤ data.length then
    let list : Decoder (List AddressRange) := Decoder.iterate (extend encoding) (base, [])
    (list.mapError fun _ => .malformedRangeList offset).run
      (encoding.cursor (data.drop offset) offset)
  else .error (.malformedRangeList offset)

/-- The interval from `low` to `high`, if it has any addresses. -/
def ofBounds (low high : UInt64) : List AddressRange :=
  if low < high then [⟨low, high⟩] else []

/-- The addresses an entry covers. A range list comes first; else the interval starts at the low
address and ends at the high address, or after a number of bytes, or after a single one. -/
def ofEntry (entry : Entry) (data : List UInt8) (encoding : Encoding) (base : UInt64) :
    Except Error (List AddressRange) :=
  match (entry.value? .ranges).bind AttributeValue.sectionOffset? with
  | some offset => decodeList data offset.toNat encoding base
  | none =>
    match (entry.value? .lowPc).bind AttributeValue.address? with
    | none => .ok []
    | some low =>
      match entry.value? .highPc with
      | none => .ok (ofBounds low (low + 1))
      | some (.address high) => .ok (ofBounds low high)
      | some value =>
        match value.unsigned? with
        | some length => .ok (ofBounds low (low + length))
        | none => .ok []

end AddressRange

end Dwarf
