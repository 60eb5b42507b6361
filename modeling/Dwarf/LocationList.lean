import Dwarf.AddressRange
import Dwarf.Expression

/-! # Location lists

A variable whose location changes has a list of intervals with an expression for each. The
intervals are relative to a base address in the same way as those of a range list, except that an
interval without addresses is kept. -/

namespace Dwarf

/-- The expression that holds in an interval. -/
structure LocationListEntry where
  range : AddressRange
  expression : LocationExpression
  deriving DecidableEq, Repr, Inhabited

/-- A decoded location list. -/
structure LocationList where
  /-- The offset of the list in its section. -/
  offset : Nat
  entries : List LocationListEntry
  deriving DecidableEq, Repr, Inhabited

namespace LocationList

/-- What remains of an entry after its pair of addresses: the bytes of its expression. -/
def storedExpression : Decoder (List UInt8) := do
  Decoder.bytes (← Decoder.uint16).toNat

/-- Read one pair of the list at `offset` with the base in force and the entries so far, latest
first. Two zeros end the list and the largest address selects a new base. Reads that fail are
errors of the list, while an expression keeps its own errors. -/
def extend (encoding : Encoding) (offset : Nat) :
    UInt64 × List LocationListEntry →
      Consuming (Pass (UInt64 × List LocationListEntry) (List LocationListEntry)) :=
  fun (base, found) =>
    let malformed : Error → Error := fun _ => .malformedLocationList offset
    (Consuming.mapError malformed Decoder.address).bind fun low => do
      let high ← Consuming.mapError malformed Decoder.address
      if low = 0 ∧ high = 0 then return .done found.reverse
      else if low = encoding.maxAddress then return .again (high, found)
      else
        let bytes ← storedExpression.mapError malformed
        let expression ← Decoder.ofExcept (LocationExpression.decode bytes encoding)
        let entry := ⟨AddressRange.relative encoding base low high, expression⟩
        return .again (base, entry :: found)

/-- Decode the list at an offset of the location section. -/
def decode (data : List UInt8) (offset : Nat) (encoding : Encoding) (base : UInt64) :
    Except Error LocationList :=
  if offset ≤ data.length then do
    let list : Decoder (List LocationListEntry) :=
      Decoder.iterate (extend encoding offset) (base, [])
    return ⟨offset, ← list.run (encoding.cursor (data.drop offset) offset)⟩
  else .error (.malformedLocationList offset)

/-- The expression of the first interval that contains an address. -/
def find? (list : LocationList) (pc : UInt64) : Option LocationExpression :=
  (list.entries.find? fun entry => entry.range.contains pc).map LocationListEntry.expression

end LocationList

end Dwarf
