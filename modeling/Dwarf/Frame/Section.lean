import Dwarf.Encoding
import Dwarf.SectionId

/-! # Sections of call frame information

Call frame information is stored in two sections of almost the same layout. They differ in how a
common entry is marked, how an entry names its common entry, which versions occur, and whether
addresses may be relative to the place where they are stored. -/

namespace Dwarf

/-- The two kinds of call frame sections. -/
inductive FrameKind where
  /-- The section for debuggers. -/
  | debug
  /-- The section that is loaded with the program. -/
  | exception
  deriving DecidableEq, Repr, Inhabited

/-- The section of a kind. -/
def FrameKind.section : FrameKind → SectionId
  | debug => .frame
  | exception => .ehFrame

/-- What the entries of one section share. -/
structure FrameSection where
  kind : FrameKind
  order : ByteOrder
  /-- The load address of the section. -/
  address : UInt64
  /-- The size of addresses where an entry does not say otherwise. -/
  addressSize : Nat
  deriving DecidableEq, Repr, Inhabited

/-- Restate a read that leaves the data as a defect of the entry at `offset`. -/
def FrameDefect.restate (offset : Nat) (defect : FrameDefect) : Error → Error
  | .unexpectedEnd _ => .malformedCallFrame offset defect
  | error => error

end Dwarf
