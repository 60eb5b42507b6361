import Dwarf.ObjectFile.Elf.Layout

/-! # Section headers of ELF files

Symbol tables and relocations refer to other sections by number. A file is refused when such a
reference leads nowhere, or when a table of symbols does not lie in the file. -/

namespace Dwarf

namespace ObjectFile.Elf

/-- The fields of a section header that are needed. -/
structure SectionHeader where
  name : Nat
  type : Nat
  flags : Nat
  address : Nat
  offset : Nat
  size : Nat
  /-- The number of a section that this one refers to. -/
  link : Nat
  info : Nat
  deriving DecidableEq, Repr, Inhabited

namespace SectionHeader

/-- Read a section header. -/
def read? (layout : Layout) (order : ByteOrder) (record : List UInt8) : Option SectionHeader := do
  let field (place : Nat × Nat) : Option Nat := field? order record place.1 place.2
  return {
    name := ← field layout.name
    type := ← field layout.type
    flags := ← field layout.flags
    address := ← field layout.address
    offset := ← field layout.offset
    size := ← field layout.size
    link := ← field layout.link
    info := ← field layout.info }

/-- The types of symbol tables, of the linker and of the loader. -/
def symbolTypes : List Nat := [2, 11]

/-- The type of a section of names. -/
def namesType : Nat := 3

/-- The types of relocations. -/
def relocationTypes : List Nat := [4, 9, 0x40000014]

/-- The type of a section that has no bytes in the file. -/
def noBitsType : Nat := 8

/-- The type of a table of section numbers that do not fit in symbols. -/
def symbolIndicesType : Nat := 18

/-- The size of a number in such a table. -/
def symbolIndexSize : Nat := 4

/-- The flag of a compressed section. -/
def compressedFlag : Nat := 0x800

def isCompressed (header : SectionHeader) : Bool :=
  header.flags &&& compressedFlag != 0

/-- Where the bytes of a section are in the file. -/
def extent (header : SectionHeader) : Option (Nat × Nat) :=
  if header.type = noBitsType then none else some (header.offset, header.size)

/-- Whether the end of a section is a number of 64 bits. -/
def endFits (header : SectionHeader) : Bool :=
  header.offset + header.size < UInt64.size

/-- Whether a section lies in the file and is a whole number of records. -/
def isArray (header : SectionHeader) (bytes : List UInt8) (size : Nat) : Bool :=
  (slice? bytes header.offset header.size).isSome && header.size % size == 0

end SectionHeader

/-- Whether a symbol table can have its names in a section. The number zero stands for none. -/
def canHoldNames (headers : List SectionHeader) (index : Nat) : Bool :=
  index == 0 ||
    headers[index]?.any fun names =>
      names.type == SectionHeader.namesType && names.endFits

/-- The number of the first section of a type. -/
def firstOfType? (headers : List SectionHeader) (type : Nat) : Option Nat :=
  headers.findIdx? fun header => header.type == type

/-- Whether the symbol table of a number, its names, and the section numbers that belong to it can
be read. -/
def isSymbolTable (layout : Layout) (bytes : List UInt8) (headers : List SectionHeader)
    (index : Nat) : Bool :=
  headers[index]?.any fun table =>
    table.isArray bytes layout.symbolSize && canHoldNames headers table.link &&
      headers.all fun other =>
        other.type != SectionHeader.symbolIndicesType || other.link != index ||
          other.isArray bytes SectionHeader.symbolIndexSize

/-- Whether the first symbol table of each type can be read. -/
def symbolsAgree (layout : Layout) (bytes : List UInt8) (headers : List SectionHeader) : Bool :=
  SectionHeader.symbolTypes.all fun type =>
    (firstOfType? headers type).all (isSymbolTable layout bytes headers)

/-- Whether the relocations that use the symbol table of the linker apply to sections that the
file has. Without such a table those that use none count. -/
def relocationsAgree (headers : List SectionHeader) : Bool :=
  let symbols := (firstOfType? headers 2).getD 0
  headers.all fun header =>
    !SectionHeader.relocationTypes.contains header.type || header.link != symbols ||
      header.info < headers.length

end ObjectFile.Elf

end Dwarf
