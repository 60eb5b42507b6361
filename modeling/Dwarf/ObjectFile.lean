import Dwarf.ByteOrder

/-! # Object files

An object file lists named sections and where in the file the bytes of each are. The formats
differ in the layout of that list and in the spelling of names. -/

namespace Dwarf

/-- A section as the object file lists it. -/
structure ObjectSection where
  /-- The name, if it can be read. -/
  name : Option (List UInt8)
  /-- Where the section is loaded. -/
  address : UInt64
  /-- Where its bytes are in the file and how many; a section without stored bytes has none. -/
  extent : Option (Nat × Nat)
  /-- Whether the stored bytes have to be decompressed. -/
  isCompressed : Bool := false
  deriving DecidableEq, Repr, Inhabited

/-- A format of object files. -/
inductive ObjectFormat where
  | elf
  | machO
  deriving DecidableEq, Repr, Inhabited

/-- An object file. -/
structure ObjectFile where
  format : ObjectFormat
  order : ByteOrder
  bytes : List UInt8
  /-- The sections in the order in which they are listed. -/
  sections : List ObjectSection
  deriving DecidableEq, Repr, Inhabited

namespace ObjectFile

/-- The part of a file at an offset, if it lies in the file. An empty part does so wherever it is
said to be. -/
def slice? (bytes : List UInt8) (offset length : Nat) : Option (List UInt8) :=
  if length = 0 ∨ offset + length ≤ bytes.length then some ((bytes.drop offset).take length)
  else none

/-- The number in a field of some bytes, if it lies in them. -/
def field? (order : ByteOrder) (bytes : List UInt8) (offset length : Nat) : Option Nat :=
  (slice? bytes offset length).map order.value

/-- Cut the first bytes off, `count` times `size` of them. -/
def records (size : Nat) : Nat → List UInt8 → List (List UInt8)
  | 0, _ => []
  | count + 1, bytes => bytes.take size :: records size count (bytes.drop size)

/-- The `count` records of a table in the file, if it lies in the file. -/
def table? (bytes : List UInt8) (offset count size : Nat) : Option (List (List UInt8)) :=
  (slice? bytes offset (count * size)).map (records size count)

end ObjectFile

namespace ObjectSection

/-- The bytes of a section, if they lie in the file. Compressed sections are not read. -/
def contents? (listed : ObjectSection) (file : List UInt8) : Option (List UInt8) :=
  if listed.isCompressed then none
  else
    match listed.extent with
    | some (offset, length) => ObjectFile.slice? file offset length
    | none => some []

end ObjectSection

namespace ObjectFormat

/-- Whether a stored name stands for a wanted one. In a Mach-O file two underscores stand for a
leading dot, and names have at most 16 bytes. -/
def spells (format : ObjectFormat) (wanted stored : List UInt8) : Bool :=
  stored == wanted ||
    match format, wanted with
    | machO, 0x2e :: rest => stored == 0x5f :: 0x5f :: rest.take 14
    | _, _ => false

/-- The name that an ELF file gives to a section of debug information that is compressed as a
whole. -/
def compressedName? (format : ObjectFormat) (name : String) : Option String :=
  if format = elf ∧ name.startsWith ".debug_" then some (".z" ++ (name.drop 1).toString) else none

end ObjectFormat

namespace ObjectFile

/-- The first section that is listed under a name. -/
def listed? (file : ObjectFile) (name : String) : Option ObjectSection :=
  file.sections.find? fun listed =>
    listed.name.any (file.format.spells name.toUTF8.toList)

/-- The section of a name, or else its compressed form. -/
def section? (file : ObjectFile) (name : String) : Option ObjectSection :=
  (file.listed? name).or <|
    ((file.format.compressedName? name).bind file.listed?).map
      fun listed => { listed with isCompressed := true }

end ObjectFile

end Dwarf
