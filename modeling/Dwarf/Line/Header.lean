import Dwarf.Decoder.Primitive
import Dwarf.Text.Path
import Dwarf.Text.Utf8

/-! # Line program headers

The header of a line program gives the parameters of its instructions, the directories and the
files. -/

namespace Dwarf

/-- The parameters of a line program. -/
structure LineHeader where
  /-- The offset of the program in the line section. -/
  offset : Nat
  version : UInt16
  /-- 4 or 8, as announced by the length field. -/
  offsetSize : Nat
  minimumInstructionLength : UInt8
  /-- More than one only where an instruction holds several operations. -/
  maximumOperations : UInt8
  defaultIsStmt : Bool
  lineBase : Int8
  lineRange : UInt8
  /-- The first special opcode. -/
  opcodeBase : UInt8
  /-- The number of operands of each standard opcode. -/
  standardLengths : List UInt8
  directories : List String
  deriving DecidableEq, Repr, Inhabited

/-- A source file of a line program. -/
structure LineFile where
  name : String
  /-- The number of its directory; zero is the directory of the compilation. -/
  directoryIndex : UInt64
  modificationTime : UInt64
  length : UInt64
  /-- The name seen from its directory. -/
  path : String
  deriving DecidableEq, Repr, Inhabited

namespace LineFile

/-- The directory of a number, seen from the directory of the compilation. -/
def directory (compDir : String) (directories : List String) (index : UInt64) : String :=
  if index = 0 then compDir
  else Path.join compDir (directories[index.toNat - 1]?.getD "")

/-- Read a file; an empty name stands for none. -/
def decode (compDir : String) (directories : List String) : Consuming (Option LineFile) :=
  Decoder.cstring.bind fun stored =>
    if stored.isEmpty then return none
    else do
      let name := Utf8.decode stored
      let directoryIndex ← Decoder.unsigned
      let modificationTime ← Decoder.unsigned
      let length ← Decoder.unsigned
      let path := Path.join (directory compDir directories directoryIndex) name
      return some ⟨name, directoryIndex, modificationTime, length, path⟩

end LineFile

namespace LineHeader

/-- Read a directory; an empty name stands for none. -/
def directory : Consuming (Option String) :=
  Decoder.cstring.map fun stored => if stored.isEmpty then none else some (Utf8.decode stored)

/-- Restate a read that leaves the data as a defect of the program at `offset`. -/
def restate (offset : Nat) (defect : LineDefect) : Error → Error
  | .unexpectedEnd _ => .malformedLineProgram offset defect
  | error => error

/-- The position at which the instructions begin. -/
def programStart (offset : Nat) : Decoder Nat := do
  let length ← Decoder.sectionOffset
  let cursor ← Decoder.cursor
  if cursor.position + length.toNat ≤ cursor.size then return cursor.position + length.toNat
  else throw (.malformedLineProgram offset .headerPastUnit)

/-- Read a number that may not be zero. -/
def positive (offset : Nat) (defect : LineDefect) : Decoder UInt8 := do
  let number ← Decoder.uint8
  if number = 0 then throw (.malformedLineProgram offset defect) else return number

/-- Read the header of the program at `offset`, the files, and the position of the first
instruction. -/
def fields (offset : Nat) (compDir : String) : Decoder (LineHeader × List LineFile × Nat) := do
  let version ← Decoder.uint16
  if version < 2 ∨ 4 < version then
    throw (.malformedLineProgram offset (.unsupportedVersion version))
  else
    let start ← programStart offset
    let minimumInstructionLength ← Decoder.uint8
    let maximumOperations ← if 4 ≤ version then positive offset .noOperations else pure 1
    let defaultIsStmt ← Decoder.uint8
    let lineBase ← Decoder.int8
    let lineRange ← positive offset .zeroLineRange
    let opcodeBase ← positive offset .zeroOpcodeBase
    let standardLengths ← Decoder.bytes (opcodeBase.toNat - 1)
    let directories ← Decoder.untilNone directory
    let files ← Decoder.untilNone (LineFile.decode compDir directories)
    let cursor ← Decoder.cursor
    let header : LineHeader :=
      { offset
        version
        offsetSize := cursor.offsetSize
        minimumInstructionLength
        maximumOperations
        defaultIsStmt := defaultIsStmt != 0
        lineBase
        lineRange
        opcodeBase
        standardLengths
        directories }
    return (header, files, start)

/-- Read a header; running out of data means that it is truncated. -/
def decode (offset : Nat) (compDir : String) : Decoder (LineHeader × List LineFile × Nat) :=
  (fields offset compDir).mapError (restate offset .truncatedHeader)

end LineHeader

end Dwarf
