import Dwarf.Abbreviation
import Dwarf.Attribute.Class
import Dwarf.Attribute.Value

/-! # Attributes

An attribute is read by its form alone, whatever the tag of its entry; then the form has to be
legal for the attribute. -/

namespace Dwarf

/-- An attribute of an entry. The form is the one the value was stored with. -/
structure Attribute where
  name : AttributeName
  form : Form
  value : AttributeValue
  deriving DecidableEq, Repr

namespace Form

/-- The number of indirections followed before a form counts as illegal. -/
def maxIndirections : Nat := 4

/-- Follow indirections: the form of an indirect value is stored before the value. A code wider
than 16 bits is none of the known forms. -/
def resolve : Nat → Form → Decoder Form
  | count + 1, .indirect => do
    let code ← Decoder.unsigned
    resolve count ⟨if code < 0x10000 then code.toUInt16 else 0xffff⟩
  | _, form => return form

/-- Read a byte string whose length has been read. -/
def blockOf (length : Nat) : Decoder AttributeValue :=
  return .block (← Decoder.bytes length)

/-- Read a value of a form; `none` if values of the form cannot be read. In version 2 a reference
to another unit has the size of an address, later that of a section offset. -/
def value? (form : Form) (version : UInt16) : Option (Decoder AttributeValue) :=
  match form with
  | .addr => some do return .address (← Decoder.address)
  | .block1 => some do blockOf (← Decoder.uint8).toNat
  | .block2 => some do blockOf (← Decoder.uint16).toNat
  | .block4 => some do blockOf (← Decoder.uint32).toNat
  | .block | .exprloc => some do blockOf (← Decoder.unsigned).toNat
  | .data1 => some do return .unsigned (← Decoder.uint8).toUInt64
  | .data2 => some do return .unsigned (← Decoder.uint16).toUInt64
  | .data4 => some do return .unsigned (← Decoder.uint32).toUInt64
  | .data8 => some do return .unsigned (← Decoder.uint64)
  | .sdata => some do return .signed (← Decoder.signed)
  | .udata => some do return .unsigned (← Decoder.unsigned)
  | .flag => some do return .flag ((← Decoder.uint8) != 0)
  | .flagPresent => some do return .flag true
  | .string => some do return .string (Utf8.decode (← Decoder.cstring))
  | .strp => some do return .stringOffset (← Decoder.sectionOffset)
  | .ref1 => some do return .unitReference (← Decoder.uint8).toUInt64
  | .ref2 => some do return .unitReference (← Decoder.uint16).toUInt64
  | .ref4 => some do return .unitReference (← Decoder.uint32).toUInt64
  | .ref8 => some do return .unitReference (← Decoder.uint64)
  | .refUdata => some do return .unitReference (← Decoder.unsigned)
  | .refAddr =>
    if version = 2 then some do return .infoReference (← Decoder.address)
    else some do return .infoReference (← Decoder.sectionOffset)
  | .refSig8 => some do return .signature (← Decoder.uint64)
  | .secOffset => some do return .sectionOffset (← Decoder.sectionOffset)
  | _ => none

end Form

namespace Attribute

/-- A constant of an attribute that admits section offsets is one, where the version has no form
of its own for them. -/
def settle (name : AttributeName) (form : Form) (version : UInt16) (value : AttributeValue) :
    AttributeValue :=
  match value with
  | .unsigned offset =>
    if version < 4 ∧ (form = .data4 ∨ form = .data8) ∧
        (name.classes?.any fun allowed => allowed.contains .sectionOffset) then
      .sectionOffset offset
    else value
  | _ => value

/-- Read an attribute of the entry at `entry`. -/
def decode (entry : Nat) (version : UInt16) (spec : AttributeSpec) : Decoder Attribute := do
  let form ← spec.form.resolve Form.maxIndirections
  let some reader := form.value? version
    | throw (.illegalForm entry spec.name form)
  let value ← reader
  if spec.name.admits form version then
    return ⟨spec.name, form, settle spec.name form version value⟩
  else throw (.illegalForm entry spec.name form)

end Attribute

end Dwarf
