import Dwarf.Decoder.Primitive
import Dwarf.ObjectFile.Elf.SectionHeader

/-! # ELF files

The header of a file says where the segment headers and the section headers are, and which section
holds the names of the sections. -/

namespace Dwarf

namespace ObjectFile.Elf

/-- A number of section headers at an offset of the file. -/
def headersAt? (layout : Layout) (order : ByteOrder) (bytes : List UInt8) (offset count : Nat) :
    Option (List SectionHeader) := do
  (← table? bytes offset count layout.sectionSize).mapM (SectionHeader.read? layout order)

/-- The first section header. A file without section headers has none. -/
def firstHeader? (layout : Layout) (order : ByteOrder) (bytes : List UInt8) (header : FileHeader) :
    Option SectionHeader := do
  if header.sectionsOffset = 0 ∨ header.sectionEntrySize ≠ layout.sectionSize then none
  else (← headersAt? layout order bytes header.sectionsOffset 1).head?

/-- The number of segments that stands for one that does not fit. -/
def escapedCount : Nat := 0xffff

/-- Whether the segment headers lie in the file. The first section header holds a number of
segments that does not fit in the header of the file. -/
def segmentsAgree (layout : Layout) (order : ByteOrder) (bytes : List UInt8)
    (header : FileHeader) : Bool :=
  header.segmentsOffset == 0 ||
    let count? :=
      if header.segmentCount = escapedCount then
        (firstHeader? layout order bytes header).map SectionHeader.info
      else some header.segmentCount
    count?.any fun count =>
      count == 0 ||
        header.segmentEntrySize == layout.segmentSize &&
          (slice? bytes header.segmentsOffset (count * layout.segmentSize)).isSome

/-- The bytes that hold the names of the sections. Where they do not lie in the file there are
none. -/
def namesOf? (bytes : List UInt8) (headers : List SectionHeader) (index : Nat) :
    Option (List UInt8) :=
  if index = 0 then none
  else
    headers[index]?.bind fun names =>
      match names.extent with
      | none => some []
      | some (offset, size) =>
        if names.endFits then some ((slice? bytes offset size).getD []) else none

/-- The index that stands for one that does not fit. -/
def escapedIndex : Nat := 0xffff

/-- The section headers of a file together with the bytes that hold their names. The first section
header holds a number of sections or an index of names that does not fit in the header of the
file. -/
def sectionHeaders? (layout : Layout) (order : ByteOrder) (bytes : List UInt8)
    (header : FileHeader) : Option (List SectionHeader × List UInt8) := do
  if header.sectionsOffset = 0 then return ([], [])
  else
    let first ← firstHeader? layout order bytes header
    let count := if header.sectionCount = 0 then first.size else header.sectionCount
    if count = 0 then return ([], [])
    else
      let headers ← headersAt? layout order bytes header.sectionsOffset count
      let index := if header.namesIndex = escapedIndex then first.link else header.namesIndex
      return (headers, ← namesOf? bytes headers index)

/-- A section as its header and the names list it. -/
def listing (names : List UInt8) (header : SectionHeader) : ObjectSection where
  name := cstringAt? names header.name
  address := UInt64.ofNat header.address
  extent := header.extent
  isCompressed := header.isCompressed

/-- Read an ELF file. -/
def read? (bytes : List UInt8) : Option ObjectFile := do
  let (layout, order) ← identify? bytes
  let header ← FileHeader.read? layout order bytes
  guard (segmentsAgree layout order bytes header)
  let (headers, names) ← sectionHeaders? layout order bytes header
  guard (symbolsAgree layout bytes headers)
  guard (relocationsAgree headers)
  return { format := .elf, order, bytes, sections := headers.map (listing names) }

end ObjectFile.Elf

end Dwarf
