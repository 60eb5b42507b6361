import Dwarf.Abbreviation.Cache
import Dwarf.AddressRange
import Dwarf.Frame.Table
import Dwarf.Line.Table
import Dwarf.TypeGraph.Build

/-! # Images

All debug information of a program, decoded once. Whatever cannot be decoded is noted as a failure
and left out, and the rest can still be queried: units are decoded one by one, and neither the
call frame tables nor another unit depend on the entries of a unit. Only where the section of
units or that of abbreviations is missing there is no image. -/

namespace Dwarf

/-- A unit, a table or an entry that could not be decoded, and where it is. -/
structure DecodeFailure where
  origin : SectionId
  offset : Nat
  error : Error
  deriving DecidableEq, Repr

/-- The failure of something that has been tried. -/
def DecodeFailure.of? {α : Type} : Except DecodeFailure α → Option DecodeFailure
  | .ok _ => none
  | .error failure => some failure

/-- A unit with its line table and the addresses it covers. -/
structure ImageUnit where
  unit : CompilationUnit
  lines : Option LineTable
  ranges : List AddressRange
  deriving Repr, Inhabited

namespace ImageUnit

/-- Whether the unit covers an address. -/
def covers (unit : ImageUnit) (pc : UInt64) : Bool :=
  unit.ranges.any fun range => range.contains pc

/-- The line table that the root of a unit names, if it names one. -/
def decodeLines (sections : Sections) (unit : CompilationUnit) :
    Except DecodeFailure (Option LineTable) :=
  ((unit.root.value? .stmtList).bind AttributeValue.sectionOffset?).mapM fun offset =>
    (LineTable.decode (sections.data .line) offset.toNat unit.order unit.encoding.addressSize
      ((unit.compDir? sections).getD "")).mapError fun error => ⟨.line, offset.toNat, error⟩

/-- The addresses that the root of a unit covers. -/
def decodeRanges (sections : Sections) (unit : CompilationUnit) :
    Except DecodeFailure (List AddressRange) :=
  (AddressRange.ofEntry unit.root (sections.data .ranges) unit.encoding unit.baseAddress).mapError
    fun error => ⟨.ranges, unit.offset, error⟩

/-- Decode a unit with its line table and its addresses. Without the latter two the unit still
counts, and they are failures of their own. -/
def decode (sections : Sections) (header : UnitHeader) (table : AbbreviationTable) :
    Except DecodeFailure (ImageUnit × List DecodeFailure) := do
  let unit ← (CompilationUnit.decode (sections.data .info) header table sections.order).mapError
    fun error => ⟨.info, header.offset, error⟩
  let lines := decodeLines sections unit
  let ranges := decodeRanges sections unit
  let failures := (DecodeFailure.of? lines).toList ++ (DecodeFailure.of? ranges).toList
  return (⟨unit, lines.toOption.join, ranges.toOption.getD []⟩, failures)

end ImageUnit

/-- The debug information of a program. -/
structure Image where
  sections : Sections
  settings : Settings
  /-- The units that could be decoded, in the order of the section. -/
  units : List ImageUnit
  types : TypeGraph
  /-- The call frame tables, in the order in which they are consulted. -/
  frames : List FrameTable
  /-- What could not be decoded. -/
  failures : List DecodeFailure
  deriving Inhabited

namespace Image

/-- A unit that can be decoded, given by its header and its abbreviation table. -/
abbrev Job : Type :=
  UnitHeader × AbbreviationTable

/-- What the scan finds at an offset: a header together with the table it names, or a failure. -/
def job (abbreviations : List UInt8) (found : Nat × Except Error UnitHeader) :
    StateM AbbreviationCache (Except DecodeFailure Job) :=
  match found.2 with
  | .error error => return .error ⟨.info, found.1, error⟩
  | .ok header => do
    let answer ← modifyGet fun cache => cache.get abbreviations header.abbrevOffset
    match answer with
    | .error error => return .error ⟨.abbreviations, header.abbrevOffset, error⟩
    | .ok table => return .ok (header, table)

/-- The units that the information section announces. -/
def jobs (info abbreviations : List UInt8) (order : ByteOrder) :
    List (Except DecodeFailure Job) :=
  (((UnitHeader.scan info order).mapM (job abbreviations)).run {}).1

/-- The failures of a unit that has been tried. -/
def failuresOf : Except DecodeFailure (ImageUnit × List DecodeFailure) → List DecodeFailure
  | .ok (_, failures) => failures
  | .error failure => [failure]

/-- The call frame tables of the sections that are registered. -/
def decodeFrames (sections : Sections) (settings : Settings) (addressSize : Nat) :
    List FrameTable :=
  [FrameKind.debug, .exception].filterMap fun kind =>
    (sections.get? kind.section).map fun found =>
      FrameTable.decode found.bytes ⟨kind, sections.order, found.address, addressSize⟩
        settings.frameBudget

/-- The entries of a call frame table that could not be decoded. -/
def frameFailures (table : FrameTable) : List DecodeFailure :=
  table.errors.map fun (offset, error) => ⟨table.origin.kind.section, offset, error⟩

/-- The set of the units of an image. -/
def unitSetOf (units : List ImageUnit) : UnitSet :=
  ⟨units.map ImageUnit.unit⟩

/-- The size of addresses in call frame tables: that of the first unit. -/
def addressSizeOf (units : List ImageUnit) : Nat :=
  (units.head?.map fun unit => unit.unit.encoding.addressSize).getD 8

/-- Decode all debug information in some sections. -/
def load (sections : Sections) (settings : Settings) : Except Error Image := do
  let info ← sections.require .info
  let abbreviations ← sections.require .abbreviations
  let jobs := jobs info abbreviations sections.order
  let decoded := (jobs.filterMap Except.toOption).map fun (header, table) =>
    ImageUnit.decode sections header table
  let units := (decoded.filterMap Except.toOption).map Prod.fst
  let types := TypeSource.build { units := unitSetOf units, sections, settings }
  let frames := decodeFrames sections settings (addressSizeOf units)
  let failures :=
    jobs.filterMap DecodeFailure.of? ++ decoded.flatMap failuresOf ++ frames.flatMap frameFailures
  return { sections, settings, units, types, frames, failures }

/-- The units of an image as a set. -/
def unitSet (image : Image) : UnitSet :=
  unitSetOf image.units

/-- The entry at an absolute offset. -/
def entry? (image : Image) (offset : Nat) : Option EntryRef :=
  image.unitSet.entry? offset

/-- The type of the entry at an absolute offset. -/
def typeAt (image : Image) (offset : Nat) : Except Error TypeId :=
  image.types.typeAt image.unitSet offset

end Image

end Dwarf
