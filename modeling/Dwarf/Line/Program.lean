import Dwarf.Line.Header
import Dwarf.Line.Row

/-! # Line programs

A line program is a run of instructions for a machine with one row as its registers. Special
instructions advance address and line at once and append the row; the others change registers,
append the row, end the sequence or add a file. -/

namespace Dwarf

/-- An instruction of a line program. -/
inductive LineInstruction where
  /-- Advance address and line as the number of a special opcode says, and append the row. -/
  | special (adjusted : UInt8)
  /-- Append the row. -/
  | copy
  | advancePc (operations : UInt64)
  | advanceLine (delta : Int64)
  | setFile (file : UInt64)
  | setColumn (column : UInt64)
  | negateStmt
  | setBasicBlock
  /-- Advance the address as the last special opcode would. -/
  | constAddPc
  /-- Advance the address by a number of bytes. -/
  | fixedAdvancePc (bytes : UInt16)
  | setPrologueEnd
  | setEpilogueBegin
  | setIsa (isa : UInt64)
  /-- Append the row as the end of the sequence. -/
  | endSequence
  | setAddress (address : UInt64)
  /-- Add a file, unless its name is empty. -/
  | defineFile (file : Option LineFile)
  | setDiscriminator (discriminator : UInt64)
  /-- An instruction without effect. -/
  | ignored
  deriving DecidableEq, Repr

namespace LineInstruction

/-- Read an address that fills the rest of an extended instruction, or else has the size of the
addresses of the unit. -/
def address (size : Nat) : Decoder UInt64 :=
  if size = 1 ∨ size = 2 ∨ size = 4 ∨ size = 8 then Decoder.sized size else Decoder.address

/-- Read an extended instruction from its own bytes. It starts at `start` in the line section. -/
def extended (header : LineHeader) (compDir : String) (start length : Nat) :
    Decoder LineInstruction := do
  match ← Decoder.uint8 with
  | 1 => return .endSequence
  | 2 => return .setAddress (← address (length - 1))
  | 3 =>
    let file := (LineFile.decode compDir header.directories).read
    return .defineFile (← file.mapError (LineHeader.restate start .truncatedFile))
  | 4 => return .setDiscriminator (← Decoder.unsigned)
  | _ => return .ignored

/-- Read the length of an extended instruction and the instruction. Of unknown instructions and
of operands that are longer than needed, the rest is passed over. -/
def framed (header : LineHeader) (compDir : String) (start : Nat) :
    Decoder LineInstruction := do
  let length ← Decoder.unsigned
  let body ← (Decoder.split length.toNat).mapError (LineHeader.restate start .extendedPastProgram)
  if length = 0 then return .ignored
  else Decoder.ofExcept ((extended header compDir start length.toNat).run body)

/-- Pass over a number of variable-length operands. -/
def skipOperands : Nat → Decoder Unit
  | 0 => return ()
  | count + 1 => do
    let _ ← Decoder.unsigned
    skipOperands count

/-- Read the operands of a standard instruction. -/
def standard (header : LineHeader) (opcode : UInt8) : Decoder LineInstruction := do
  match opcode with
  | 1 => return .copy
  | 2 => return .advancePc (← Decoder.unsigned)
  | 3 => return .advanceLine (← Decoder.signed)
  | 4 => return .setFile (← Decoder.unsigned)
  | 5 => return .setColumn (← Decoder.unsigned)
  | 6 => return .negateStmt
  | 7 => return .setBasicBlock
  | 8 => return .constAddPc
  | 9 => return .fixedAdvancePc (← Decoder.uint16)
  | 10 => return .setPrologueEnd
  | 11 => return .setEpilogueBegin
  | 12 => return .setIsa (← Decoder.unsigned)
  | _ =>
    skipOperands (header.standardLengths[opcode.toNat - 1]?.getD 0).toNat
    return .ignored

/-- Read one instruction. Running out of data means that an operand is truncated. -/
def decode (header : LineHeader) (compDir : String) : Consuming LineInstruction :=
  .located fun start =>
    let instruction := Decoder.uint8.bind fun opcode =>
      if header.opcodeBase ≤ opcode then return .special (opcode - header.opcodeBase)
      else if opcode = 0 then framed header compDir start
      else standard header opcode
    instruction.mapError (LineHeader.restate start .operandPastProgram)

end LineInstruction

namespace LineRow

/-- The registers at the start of a sequence. -/
def start (header : LineHeader) : LineRow :=
  { isStmt := header.defaultIsStmt }

/-- Advance the address by a number of operations. Where an instruction holds several operations,
the position within it is advanced first. -/
def advance (header : LineHeader) (row : LineRow) (operations : UInt64) : LineRow :=
  let length := header.minimumInstructionLength.toUInt64
  let perInstruction := header.maximumOperations.toUInt64
  if perInstruction ≤ 1 then { row with address := row.address + length * operations }
  else
    let position := row.opIndex + operations
    { row with
      address := row.address + length * (position / perInstruction)
      opIndex := position % perInstruction }

/-- The registers after a row has been appended: what holds for one row only is cleared. -/
def cleared (row : LineRow) : LineRow :=
  { row with
    basicBlock := false
    prologueEnd := false
    epilogueBegin := false
    discriminator := 0 }

end LineRow

/-- The state of the line machine. -/
structure LineReplay where
  row : LineRow
  /-- The rows of the current sequence, latest first. -/
  rows : List LineRow := []
  /-- The sequences so far, latest first. -/
  sequences : List LineSequence := []
  /-- The files that the program has added, latest first. -/
  files : List LineFile := []
  deriving DecidableEq, Repr, Inhabited

namespace LineReplay

/-- The state before the first instruction. -/
def start (header : LineHeader) : LineReplay where
  row := .start header

/-- Append the row. -/
def emit (state : LineReplay) : LineReplay :=
  { state with row := state.row.cleared, rows := state.row :: state.rows }

/-- Append the row as the end of the sequence and start another one. -/
def finish (header : LineHeader) (state : LineReplay) : LineReplay :=
  let rows := ({ state.row with endSequence := true } :: state.rows).reverse
  { state with
    row := .start header
    rows := []
    sequences := (LineSequence.ofRows? rows).toList ++ state.sequences }

/-- Execute one instruction. -/
def step (header : LineHeader) (state : LineReplay) : LineInstruction → LineReplay
  | .special adjusted =>
    let row := state.row.advance header (adjusted / header.lineRange).toUInt64
    let delta := header.lineBase.toInt64.toUInt64 + (adjusted % header.lineRange).toUInt64
    emit { state with row := { row with line := row.line + delta } }
  | .copy => state.emit
  | .advancePc operations => { state with row := state.row.advance header operations }
  | .advanceLine delta =>
    { state with row := { state.row with line := state.row.line + delta.toUInt64 } }
  | .setFile file => { state with row := { state.row with file } }
  | .setColumn column => { state with row := { state.row with column } }
  | .negateStmt => { state with row := { state.row with isStmt := !state.row.isStmt } }
  | .setBasicBlock => { state with row := { state.row with basicBlock := true } }
  | .constAddPc =>
    let operations := (255 - header.opcodeBase) / header.lineRange
    { state with row := state.row.advance header operations.toUInt64 }
  | .fixedAdvancePc bytes =>
    let address := state.row.address + bytes.toUInt64
    { state with row := { state.row with address, opIndex := 0 } }
  | .setPrologueEnd => { state with row := { state.row with prologueEnd := true } }
  | .setEpilogueBegin => { state with row := { state.row with epilogueBegin := true } }
  | .setIsa isa => { state with row := { state.row with isa } }
  | .endSequence => state.finish header
  | .setAddress address => { state with row := { state.row with address, opIndex := 0 } }
  | .defineFile file => { state with files := file.toList ++ state.files }
  | .setDiscriminator discriminator => { state with row := { state.row with discriminator } }
  | .ignored => state

/-- Execute a program. Rows after the last end of a sequence are dropped. -/
def run (header : LineHeader) (program : List LineInstruction) : LineReplay :=
  program.foldl (step header) (start header)

end LineReplay

end Dwarf
