import Dwarf.Decoder.Primitive

/-! # Abbreviations

An abbreviation declares the layout that entries share: a tag, whether children follow, and the
attributes with their forms. A table is a run of declarations that a zero code ends; the codes of
a table are distinct and not zero, and all its forms can be read. -/

namespace Dwarf

/-- An attribute that entries of a layout carry, and its form. -/
structure AttributeSpec where
  name : AttributeName
  form : Form
  deriving DecidableEq, Repr

/-- The layout of the entries that use a code. -/
structure Abbreviation where
  code : UInt64
  tag : Tag
  hasChildren : Bool
  attributes : List AttributeSpec
  deriving DecidableEq, Repr

/-- Abbreviations in the order of their declaration. -/
structure AbbreviationTable where
  declarations : List Abbreviation
  deriving DecidableEq, Repr, Inhabited

namespace AttributeSpec

/-- Check a declared pair of codes, which starts at `offset`. -/
def ofCodes (offset : Nat) (name form : UInt64) : Except Error AttributeSpec :=
  let known : Form := ⟨form.toUInt16⟩
  if name = 0 then .error (.malformedAbbreviation offset .unnamedAttribute)
  else if form < 0x10000 ∧ name < 0x10000 ∧ known.isKnown then .ok ⟨⟨name.toUInt16⟩, known⟩
  else .error (.malformedAbbreviation offset .unknownForm)

/-- Read one declared pair; two zeros end the declaration. -/
def decode : Consuming (Option AttributeSpec) :=
  .located fun offset => Decoder.unsigned.bind fun name => do
    let form ← Decoder.unsigned
    if name = 0 ∧ form = 0 then return none
    else return some (← Decoder.ofExcept (ofCodes offset name form))

end AttributeSpec

namespace Abbreviation

/-- Read the children flag of the declaration at `offset`. -/
def childrenFlag (offset : Nat) : Decoder Bool := do
  match ← Decoder.uint8 with
  | 0 => return false
  | 1 => return true
  | flag => throw (.malformedAbbreviation offset (.childrenFlag flag))

/-- Read what follows the code of the declaration at `offset`. -/
def body (offset : Nat) (code : UInt64) : Decoder Abbreviation := do
  let tag ← Decoder.unsigned
  if 0x10000 ≤ tag then throw (.malformedAbbreviation offset (.wideTag tag))
  else
    let hasChildren ← childrenFlag offset
    let attributes ← Decoder.untilNone AttributeSpec.decode
    return ⟨code, ⟨tag.toUInt16⟩, hasChildren, attributes⟩

end Abbreviation

namespace AbbreviationTable

/-- The declaration of a code. -/
def get? (table : AbbreviationTable) (code : UInt64) : Option Abbreviation :=
  table.declarations.find? fun declaration => declaration.code == code

/-- Read one more declaration; a zero code ends the table. A code may be declared once only. -/
def extend (found : List Abbreviation) :
    Consuming (Pass (List Abbreviation) AbbreviationTable) :=
  .located fun offset => Decoder.unsigned.bind fun code => do
    if code = 0 then return .done ⟨found.reverse⟩
    else
      let declaration ← Abbreviation.body offset code
      if found.any fun earlier => earlier.code == code then
        throw (.malformedAbbreviation offset (.duplicateCode code))
      else return .again (declaration :: found)

/-- Running out of data inside a table means that the table is not terminated. -/
def restate : Error → Error
  | .unexpectedEnd offset => .malformedAbbreviation offset .unterminated
  | error => error

/-- Decode the table at an offset of the abbreviation section, and count its bytes. Only single
bytes and variable-length integers occur, so the byte order does not matter. -/
def decode (data : List UInt8) (offset : Nat) : Except Error (AbbreviationTable × Nat) :=
  if offset ≤ data.length then
    let table : Decoder (AbbreviationTable × Nat) := do
      let table ← Decoder.iterate extend []
      let stop ← Decoder.cursor
      return (table, stop.position)
    (table.mapError restate).run (Cursor.start (data.drop offset) offset .little)
  else .error (.malformedAbbreviation offset .offsetOutside)

end AbbreviationTable

end Dwarf
