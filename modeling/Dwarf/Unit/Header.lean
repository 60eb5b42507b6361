import Dwarf.Decoder.Primitive
import Dwarf.Encoding

/-! # Unit headers

The information section is a run of units. A header gives the length of its unit, so the units
can be found one after the other without decoding their entries. -/

namespace Dwarf

/-- The header of a unit. -/
structure UnitHeader where
  /-- The offset of the header in the information section. -/
  offset : Nat
  /-- The length of the unit, not counting the length field. -/
  unitLength : Nat
  version : UInt16
  /-- The offset of the abbreviation table of the unit. -/
  abbrevOffset : Nat
  addressSize : Nat
  /-- 4 or 8, as announced by the length field. -/
  offsetSize : Nat
  /-- The offset of the first entry. -/
  entriesOffset : Nat
  deriving DecidableEq, Repr, Inhabited

namespace UnitHeader

/-- The size of a length field that announces an offset size. -/
def lengthFieldSize (offsetSize : Nat) : Nat :=
  if offsetSize = 8 then 12 else 4

/-- The offset of the first byte after the unit. -/
def stop (header : UnitHeader) : Nat :=
  header.offset + lengthFieldSize header.offsetSize + header.unitLength

/-- The encoding of what the unit contains. -/
def encoding (header : UnitHeader) (order : ByteOrder) : Encoding where
  addressSize := header.addressSize
  offsetSize := header.offsetSize
  version := header.version
  order := order

/-- Read the fields of a header. -/
def fields : Decoder UnitHeader := do
  let offset ← Decoder.offset
  let unitLength ← Decoder.initialLength
  let version ← Decoder.uint16
  if version < 2 ∨ 4 < version then throw (.unsupportedVersion offset version)
  else
    let abbrevOffset ← Decoder.sectionOffset
    let addressSize ← Decoder.uint8
    let after ← Decoder.cursor
    return {
      offset
      unitLength := unitLength.toNat
      version
      abbrevOffset := abbrevOffset.toNat
      addressSize := addressSize.toNat
      offsetSize := after.offsetSize
      entriesOffset := after.offset }

/-- Running out of data in a header means that the unit is truncated at the end of the section. -/
def restate (offset size : Nat) : Error → Error
  | .unexpectedEnd _ => .truncatedUnit offset size
  | error => error

/-- Decode the header at an offset of the information section. The unit has to lie in the section
and to have room for its header. -/
def decode (info : List UInt8) (order : ByteOrder) (offset : Nat) : Except Error UnitHeader := do
  if offset ≤ info.length then
    let header ← (fields.mapError (restate offset info.length)).run
      (Cursor.start (info.drop offset) offset order)
    if header.stop ≤ info.length ∧ header.entriesOffset ≤ header.stop then return header
    else throw (.truncatedUnit offset info.length)
  else throw (.truncatedUnit offset info.length)

/-- The end of the unit at an offset by its length field alone. -/
def declaredStop? (info : List UInt8) (order : ByteOrder) (offset : Nat) : Option Nat :=
  let extent : Decoder Nat := do
    let length ← Decoder.initialLength
    return (← Decoder.offset) + length.toNat
  (extent.run (Cursor.start (info.drop offset) offset order)).toOption

/-- Where the unit after one ends or begins: at the end of a unit that can be decoded, or past a
unit of a version that cannot. -/
def following? (info : List UInt8) (order : ByteOrder) (offset : Nat) :
    Except Error UnitHeader → Option Nat
  | .ok header => some header.stop
  | .error (.unsupportedVersion ..) => declaredStop? info order offset
  | .error _ => none

/-- The headers from an offset to the end of the section, each with its offset. The walk ends at
a header that does not say where the next one is. -/
def scanFrom (info : List UInt8) (order : ByteOrder) (offset : Nat) :
    List (Nat × Except Error UnitHeader) :=
  if offset < info.length then
    let header := decode info order offset
    (offset, header) ::
      match following? info order offset header with
      | some next =>
        if offset < next ∧ next ≤ info.length then scanFrom info order next else []
      | none => []
  else []
termination_by info.length - offset

/-- The headers of the information section, each with its offset. -/
def scan (info : List UInt8) (order : ByteOrder) : List (Nat × Except Error UnitHeader) :=
  scanFrom info order 0

end UnitHeader

end Dwarf
