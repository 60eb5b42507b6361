import Dwarf.Line.Program

/-! # Line tables

The table that a line program describes: its files, and its sequences in the order of their start
addresses. -/

namespace Dwarf

/-- A position in a source file. -/
structure SourceLocation where
  path : String
  line : UInt64
  column : UInt64
  /-- The address of the row that gave the position. -/
  address : UInt64
  deriving DecidableEq, Repr, Inhabited

/-- A decoded line program. -/
structure LineTable where
  header : LineHeader
  /-- The files of the header and those that the program adds. -/
  files : List LineFile
  /-- The sequences by start address; where these agree, in the order of the program. -/
  sequences : List LineSequence
  deriving DecidableEq, Repr, Inhabited

namespace LineTable

/-- The table of a header, its files and a program. -/
def ofProgram (header : LineHeader) (files : List LineFile) (program : List LineInstruction) :
    LineTable :=
  let replay := LineReplay.run header program
  { header
    files := files ++ replay.files.reverse
    sequences := replay.sequences.reverse.mergeSort fun a b => a.start ≤ b.start }

/-- Split off the bytes of the program at `offset`, if all of them are there. -/
def window (offset : Nat) : Decoder Cursor := do
  let length ← Consuming.mapError (LineHeader.restate offset .truncatedLength)
    Decoder.initialLength
  let cursor ← Decoder.cursor
  if length.toNat ≤ cursor.remaining then Decoder.split length.toNat
  else throw (.malformedLineProgram offset .unitPastSection)

/-- Decode the line program at an offset of the line section. -/
def decode (data : List UInt8) (offset : Nat) (order : ByteOrder) (addressSize : Nat)
    (compDir : String) : Except Error LineTable := do
  if offset ≤ data.length then
    let cursor := Cursor.start (data.drop offset) offset order
    let unit ← (window offset).run (cursor.withAddressSize addressSize)
    let (header, files, start) ← (LineHeader.decode offset compDir).run unit
    let program ← (Decoder.many (LineInstruction.decode header compDir)).run (← unit.seek start)
    return ofProgram header files program
  else throw (.malformedLineProgram offset .offsetOutside)

/-- The file of a number, counting from one. -/
def file? (table : LineTable) (index : UInt64) : Option LineFile :=
  if index = 0 then none else table.files[index.toNat - 1]?

/-- The rows of all sequences. -/
def rows (table : LineTable) : List LineRow :=
  table.sequences.flatMap LineSequence.rows

/-- The last sequence that contains an address, among those that start at or below it. -/
def sequenceFor? (table : LineTable) (pc : UInt64) : Option LineSequence :=
  let upper := Bisection.boundary (fun sequence => sequence.start ≤ pc) table.sequences
  (table.sequences.take upper).reverse.find? fun sequence => sequence.contains pc

/-- The row that holds at an address, in the last sequence that contains it. -/
def rowFor? (table : LineTable) (pc : UInt64) : Option LineRow :=
  (table.sequenceFor? pc).bind fun sequence => sequence.rowFor? pc

/-- The source position that a row gives. A file that is not in the table is shown by its
number. -/
def location (table : LineTable) (row : LineRow) : SourceLocation :=
  let path := match table.file? row.file with
    | some file => file.path
    | none => s!"<file {row.file.toNat}>"
  ⟨path, row.line, row.column, row.address⟩

/-- The source position that holds at an address. -/
def locate? (table : LineTable) (pc : UInt64) : Option SourceLocation :=
  (table.rowFor? pc).map table.location

/-- The numbers of the files that answer to some text. -/
def filesNamed (table : LineTable) (text : String) : List UInt64 :=
  (table.files.zipIdx 1).filterMap fun (file, index) =>
    if Path.answersTo file.path file.name text then some (UInt64.ofNat index) else none

/-- The addresses at which the code of a line begins, in ascending order. -/
def addressesFor (table : LineTable) (file : String) (line : UInt64) : List UInt64 :=
  let files := table.filesNamed file
  let wanted (row : LineRow) : Bool := row.line == line && files.contains row.file
  let starts := table.sequences.flatMap fun sequence =>
    LineSequence.runStarts wanted false sequence.rows
  (starts.mergeSort fun a b => a ≤ b).eraseReps

end LineTable

end Dwarf
