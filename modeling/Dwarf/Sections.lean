import Dwarf.Decoder.Primitive
import Dwarf.Text.Utf8

/-! # Sections

The bytes that debug information is decoded from, by section. A section may be a window of a
larger buffer, and it may have an address in the memory of the program. -/

namespace Dwarf

/-- The bytes of a section and the address it is loaded at. -/
structure Section where
  bytes : List UInt8
  address : UInt64 := 0
  deriving DecidableEq, Repr, Inhabited

/-- A set of sections of one byte order. Each section is registered at most once. -/
structure Sections where
  order : ByteOrder
  entries : List (SectionId × Section) := []
  deriving DecidableEq, Repr, Inhabited

namespace Sections

/-- The registered section, if any. -/
def get? (sections : Sections) (id : SectionId) : Option Section :=
  sections.entries.lookup id

/-- Register a section in place of an earlier one of the same name. -/
def put (sections : Sections) (id : SectionId) (value : Section) : Sections :=
  { sections with entries := (id, value) :: sections.entries.filter fun entry => entry.1 != id }

/-- Register all bytes of a buffer as a section that is not loaded. -/
def insert (sections : Sections) (id : SectionId) (bytes : List UInt8) : Sections :=
  sections.put id { bytes }

/-- Register a window of a buffer as a section that is not loaded. -/
def insertRange (sections : Sections) (id : SectionId) (buffer : List UInt8)
    (offset length : Nat) : Except Error Sections :=
  if offset + length ≤ buffer.length then
    .ok (sections.insert id ((buffer.drop offset).take length))
  else .error (.unexpectedEnd offset)

/-- Set the load address of a section; a section that is not registered stays so. -/
def setAddress (sections : Sections) (id : SectionId) (address : UInt64) : Sections :=
  match sections.get? id with
  | some found => sections.put id { found with address }
  | none => sections

/-- The bytes of a section; one that is not registered is empty. -/
def data (sections : Sections) (id : SectionId) : List UInt8 :=
  (sections.get? id).elim [] Section.bytes

/-- The load address of a section; one that is not registered is at address zero. -/
def address (sections : Sections) (id : SectionId) : UInt64 :=
  (sections.get? id).elim 0 Section.address

/-- The bytes of a section that nothing can be done without. -/
def require (sections : Sections) (id : SectionId) : Except Error (List UInt8) :=
  match sections.get? id with
  | some found => .ok found.bytes
  | none => .error (.missingSection id)

def contains (sections : Sections) (id : SectionId) : Bool :=
  (sections.get? id).isSome

/-- The terminated string at an offset of the string section. -/
def stringAt? (sections : Sections) (offset : UInt64) : Option String :=
  (cstringAt? (sections.data .str) offset.toNat).map Utf8.decode

end Sections

end Dwarf
