import Dwarf.Expression.Machine
import Dwarf.TypeGraph
import Dwarf.Unit.Set
import Dwarf.Word

/-! # Parts of types

What the children of a type entry say apart from types: the bounds of an array, the names of an
enumeration, and where a member lies. Bits are counted from the least significant one; a bit
offset that counts from the most significant bit of a storage unit is converted, taking the
target to be little-endian. -/

namespace Dwarf

/-- The bounds that a subrange entry gives. An upper bound below the lower one by more than one
leaves the number of elements unknown. -/
def Dimension.ofEntry (entry : EntryRef) : Dimension :=
  let lower := ((entry.value? .lowerBound).bind AttributeValue.signed?).getD 0
  let fromUpper := do
    let upper ← (entry.value? .upperBound).bind AttributeValue.signed?
    let count := upper.toInt - lower.toInt + 1
    if 0 ≤ count ∧ count ≤ Int64.maxValue.toInt then some (UInt64.ofNat count.toNat) else none
  ⟨lower, (entry.unsigned? .count).or fromUpper⟩

/-- The name and the value that an enumerator entry gives. -/
def Enumerator.ofEntry (sections : Sections) (entry : EntryRef) : Enumerator where
  name := (entry.string? .name sections).getD ""
  value := ((entry.value? .constValue).bind AttributeValue.signed?).getD 0

/-- What a member entry says about its bits. -/
structure BitPlacement where
  /-- The first bit, counted from the start of the object or, if there is one, from the same
  place as the location. -/
  dataBitOffset : Option UInt64
  /-- The first bit, counted from the most significant bit of the storage unit. -/
  bitOffset : Option UInt64
  bitSize : Option UInt64
  /-- The size of the storage unit in bytes. -/
  storage : Option UInt64
  deriving DecidableEq, Repr, Inhabited

namespace BitPlacement

/-- The first bit of a field of `size` bits, counted from the least significant bit of a storage
unit, if counted from the most significant one it is `first`. -/
def fromLeastSignificant? (storage first size : UInt64) : Option UInt64 := do
  let bits ← Word.mul? storage 8
  let above ← Word.sub? bits first
  Word.sub? above size

/-- The byte offset of a member and its first bit there. The location is that of the storage unit
if the entry gives one. -/
def position (placement : BitPlacement) (location : Option UInt64) : UInt64 × Option UInt64 :=
  match placement.dataBitOffset, placement.bitOffset with
  | some bits, _ =>
    match location with
    | some bytes => (bytes, (Word.mul? bytes 8).map (Word.monus bits))
    | none => (bits / 8, some (bits % 8))
  | none, some first =>
    let bit := do fromLeastSignificant? (← placement.storage) first (← placement.bitSize)
    (location.getD 0, bit)
  | none, none => (location.getD 0, none)

end BitPlacement

namespace Member

/-- The byte offset of a member. A constant is the offset itself, and so is a section offset,
which a constant of the same form looks like in early versions. An expression is evaluated for an
object at address zero. -/
def byteOffset? (settings : Settings) (entry : EntryRef) (value : AttributeValue)
    (evaluator : Evaluator := LocationExpression.evaluate) : Except Error UInt64 :=
  let unsupported : Error := .unsupportedTag entry.offset entry.tag
  match value with
  | .unsigned _ | .signed _ => .ok (value.unsigned?.getD 0)
  | .sectionOffset offset => .ok offset
  | .block bytes => do
    let expression ← LocationExpression.decode bytes entry.unit.encoding
    let evaluation := { initial := [0], entry := entry.offset : Evaluation }.withLimits settings
    match ← ((evaluator expression evaluation).run none).1 with
    | .whole (.address offset) | .whole (.value offset) => return offset
    | _ => throw unsupported
  | _ => .error unsupported

/-- The byte offset of a member if its entry gives one. -/
def location? (settings : Settings) (entry : EntryRef)
    (evaluator : Evaluator := LocationExpression.evaluate) : Except Error (Option UInt64) :=
  (entry.value? .dataMemberLocation).mapM fun value => byteOffset? settings entry value evaluator

end Member

end Dwarf
