import Dwarf.Constant.AttributeName
import Dwarf.Constant.Form

/-! # Classes of forms

A form belongs to classes of values, and many attributes admit certain classes only. A form is
legal for an attribute when they have a class in common; an attribute without a rule admits every
form that belongs to some class. -/

namespace Dwarf

/-- A class of attribute values. -/
inductive AttributeClass where
  | address
  | block
  | constant
  | expression
  | flag
  | reference
  | sectionOffset
  | string
  deriving DecidableEq, Repr

/-- The classes a form belongs to in units of a version. Before version 4 there was no form for
section offsets, and the four- and eight-byte constants served as such. -/
def Form.classes (form : Form) (version : UInt16) : List AttributeClass :=
  match form with
  | .addr => [.address]
  | .block1 | .block2 | .block4 | .block => [.block]
  | .data4 | .data8 => if version < 4 then [.constant, .sectionOffset] else [.constant]
  | .data1 | .data2 | .sdata | .udata => [.constant]
  | .exprloc => [.expression]
  | .flag | .flagPresent => [.flag]
  | .ref1 | .ref2 | .ref4 | .ref8 | .refUdata | .refAddr | .refSig8 => [.reference]
  | .secOffset => [.sectionOffset]
  | .string | .strp => [.string]
  | _ => []

/-- The classes an attribute admits; `none` stands for every class. -/
def AttributeName.classes? (name : AttributeName) : Option (List AttributeClass) :=
  match name with
  | .name | .compDir | .producer | .linkageName | .mipsLinkageName => some [.string]
  | .type | .sibling | .abstractOrigin | .specification | .containingType | .imported =>
    some [.reference]
  | .lowPc => some [.address]
  | .highPc => some [.address, .constant]
  | .location | .frameBase | .stringLength | .returnAddr =>
    some [.expression, .block, .sectionOffset]
  | .dataMemberLocation => some [.constant, .expression, .block, .sectionOffset]
  | .stmtList | .ranges | .macroInfo => some [.sectionOffset]
  | .byteSize | .bitSize | .bitOffset | .dataBitOffset | .count | .upperBound | .lowerBound =>
    some [.constant, .reference, .expression, .block]
  | .encoding | .declFile | .declLine | .declColumn | .language | .accessibility | .inline
  | .callingConvention => some [.constant]
  | .external | .declaration | .prototyped | .artificial | .mainSubprogram => some [.flag]
  | .constValue => some [.constant, .block, .string]
  | _ => none

/-- Whether an attribute may be encoded with a form in units of a version. -/
def AttributeName.admits (name : AttributeName) (form : Form) (version : UInt16) : Bool :=
  match name.classes? with
  | some allowed => (form.classes version).any (allowed.contains ·)
  | none => !(form.classes version).isEmpty

end Dwarf
