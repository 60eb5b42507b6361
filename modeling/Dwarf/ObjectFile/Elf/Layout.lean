import Dwarf.ObjectFile

/-! # The layout of ELF files

There are two widths of the format; a field is at another place in each. The first bytes of a file
announce its width and its byte order. -/

namespace Dwarf

namespace ObjectFile.Elf

/-- The places of the fields that are needed, as an offset and a length, and the sizes of the
records. -/
structure Layout where
  headerSize : Nat
  segmentsOffset : Nat × Nat
  sectionsOffset : Nat × Nat
  segmentEntrySize : Nat × Nat
  segmentCount : Nat × Nat
  sectionEntrySize : Nat × Nat
  sectionCount : Nat × Nat
  namesIndex : Nat × Nat
  /-- The size of a segment header. -/
  segmentSize : Nat
  /-- The size of a section header. -/
  sectionSize : Nat
  name : Nat × Nat
  type : Nat × Nat
  flags : Nat × Nat
  address : Nat × Nat
  offset : Nat × Nat
  size : Nat × Nat
  link : Nat × Nat
  info : Nat × Nat
  /-- The size of a symbol. -/
  symbolSize : Nat

/-- The layout of the narrow format. -/
def narrow : Layout where
  headerSize := 52
  segmentsOffset := (28, 4)
  sectionsOffset := (32, 4)
  segmentEntrySize := (42, 2)
  segmentCount := (44, 2)
  sectionEntrySize := (46, 2)
  sectionCount := (48, 2)
  namesIndex := (50, 2)
  segmentSize := 32
  sectionSize := 40
  name := (0, 4)
  type := (4, 4)
  flags := (8, 4)
  address := (12, 4)
  offset := (16, 4)
  size := (20, 4)
  link := (24, 4)
  info := (28, 4)
  symbolSize := 16

/-- The layout of the wide format. -/
def wide : Layout where
  headerSize := 64
  segmentsOffset := (32, 8)
  sectionsOffset := (40, 8)
  segmentEntrySize := (54, 2)
  segmentCount := (56, 2)
  sectionEntrySize := (58, 2)
  sectionCount := (60, 2)
  namesIndex := (62, 2)
  segmentSize := 56
  sectionSize := 64
  name := (0, 4)
  type := (4, 4)
  flags := (8, 8)
  address := (16, 8)
  offset := (24, 8)
  size := (32, 8)
  link := (40, 4)
  info := (44, 4)
  symbolSize := 24

/-- The layout and the byte order that the first bytes of a file announce. -/
def identify? : List UInt8 → Option (Layout × ByteOrder)
  | 0x7f :: 0x45 :: 0x4c :: 0x46 :: width :: order :: 1 :: _ => do
    let layout ← match width with
      | 1 => some narrow
      | 2 => some wide
      | _ => none
    let order ← match order with
      | 1 => some .little
      | 2 => some .big
      | _ => none
    return (layout, order)
  | _ => none

/-- What the header of a file says about its tables. -/
structure FileHeader where
  segmentsOffset : Nat
  sectionsOffset : Nat
  segmentEntrySize : Nat
  segmentCount : Nat
  sectionEntrySize : Nat
  sectionCount : Nat
  /-- The index of the section that holds the names. -/
  namesIndex : Nat
  deriving DecidableEq, Repr, Inhabited

/-- Read the header of a file. -/
def FileHeader.read? (layout : Layout) (order : ByteOrder) (bytes : List UInt8) :
    Option FileHeader := do
  let header ← slice? bytes 0 layout.headerSize
  let field (place : Nat × Nat) : Option Nat := field? order header place.1 place.2
  return {
    segmentsOffset := ← field layout.segmentsOffset
    sectionsOffset := ← field layout.sectionsOffset
    segmentEntrySize := ← field layout.segmentEntrySize
    segmentCount := ← field layout.segmentCount
    sectionEntrySize := ← field layout.sectionEntrySize
    sectionCount := ← field layout.sectionCount
    namesIndex := ← field layout.namesIndex }

end ObjectFile.Elf

end Dwarf
