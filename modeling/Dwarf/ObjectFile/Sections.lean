import Dwarf.ObjectFile.Elf
import Dwarf.ObjectFile.MachO
import Dwarf.Sections

/-! # Sections of object files

The sections that hold debug information, as an object file has them. -/

namespace Dwarf

namespace ObjectFile

/-- Read an object file of any known format. -/
def read? (bytes : List UInt8) : Option ObjectFile :=
  (Elf.read? bytes).or (MachO.read? bytes)

/-- The names under which a section is looked for, in this order. -/
def spellings (id : SectionId) : List String :=
  [id.name, "__" ++ (id.name.drop 1).toString]

/-- The section of an identity, under the first of its names that occurs. -/
def sectionOf? (file : ObjectFile) (id : SectionId) : Option ObjectSection :=
  (spellings id).findSome? file.section?

/-- The sections that are taken from object files. -/
def loadedIds : List SectionId :=
  [.abbreviations, .info, .line, .loc, .ranges, .str, .frame, .ehFrame]

/-- Register a section if the file has it. This fails if its bytes do not lie in the file. -/
def register? (file : ObjectFile) (sections : Sections) (id : SectionId) : Option Sections :=
  match file.sectionOf? id with
  | none => some sections
  | some listed =>
    (listed.contents? file.bytes).map fun bytes => sections.put id ⟨bytes, listed.address⟩

/-- The sections of an object file that hold debug information. -/
def toSections? (file : ObjectFile) : Option Sections :=
  loadedIds.foldlM file.register? { order := file.order }

end ObjectFile

/-- The sections that hold debug information in the bytes of an object file. -/
def Sections.ofObject? (bytes : List UInt8) : Option Sections :=
  (ObjectFile.read? bytes).bind ObjectFile.toSections?

end Dwarf
