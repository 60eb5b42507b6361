import Dwarf.Sections

/-! # Attribute values

The value of an attribute as its form delivers it, and the readings of it as a number, an
address, a reference or a string. -/

namespace Dwarf

/-- The value of an attribute. -/
inductive AttributeValue where
  /-- A target address. -/
  | address (value : UInt64)
  /-- Uninterpreted bytes: a block or an expression. -/
  | block (bytes : List UInt8)
  | unsigned (value : UInt64)
  | signed (value : Int64)
  | flag (value : Bool)
  /-- A string stored in place. -/
  | string (value : String)
  /-- An offset in the string section. -/
  | stringOffset (offset : UInt64)
  /-- A reference that counts from the start of the unit. -/
  | unitReference (relative : UInt64)
  /-- A reference to an absolute offset. -/
  | infoReference (offset : UInt64)
  /-- The signature of a type unit. -/
  | signature (value : UInt64)
  /-- An offset in the section that the attribute is about. -/
  | sectionOffset (offset : UInt64)
  deriving DecidableEq, Repr

namespace AttributeValue

/-- The value as an unsigned constant. A negative constant is none. -/
def unsigned? : AttributeValue → Option UInt64
  | unsigned value => some value
  | signed value => if 0 ≤ value then some value.toUInt64 else none
  | _ => none

/-- The value as a signed constant. -/
def signed? : AttributeValue → Option Int64
  | unsigned value => some value.toInt64
  | signed value => some value
  | _ => none

def address? : AttributeValue → Option UInt64
  | address value => some value
  | _ => none

def flag? : AttributeValue → Option Bool
  | flag value => some value
  | _ => none

def block? : AttributeValue → Option (List UInt8)
  | block bytes => some bytes
  | _ => none

def sectionOffset? : AttributeValue → Option UInt64
  | sectionOffset offset => some offset
  | _ => none

/-- The absolute offset that a value in the unit at `unit` refers to, if it fits in a word. -/
def reference? (unit : Nat) : AttributeValue → Option Nat
  | unitReference relative =>
    if unit + relative.toNat < UInt64.size then some (unit + relative.toNat) else none
  | infoReference offset => some offset.toNat
  | _ => none

/-- The value as a string, looked up in the string section where need be. -/
def string? (sections : Sections) : AttributeValue → Option String
  | string value => some value
  | stringOffset offset => sections.stringAt? offset
  | _ => none

end AttributeValue

end Dwarf
