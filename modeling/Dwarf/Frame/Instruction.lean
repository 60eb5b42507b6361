import Dwarf.Frame.Entry
import Dwarf.Frame.Rule

/-! # Call frame instructions

An instruction either moves to a later address or changes the rules. Several encodings of one
instruction are read as the same value: offsets have been multiplied by their unit, and an
advance is a number of units. -/

namespace Dwarf

/-- A call frame instruction. -/
inductive FrameInstruction where
  /-- Move on by a number of code units. -/
  | advance (units : UInt64)
  /-- Move on to an address. -/
  | setLocation (address : UInt64)
  | setRule (register : Nat) (rule : RegisterRule)
  /-- Return to the rule that the common entry has set. -/
  | restore (register : Nat)
  | rememberState
  | restoreState
  | defineCfa (rule : CfaRule)
  /-- Replace the register of the rule for the canonical frame address. -/
  | defineCfaRegister (register : Nat)
  /-- Replace the offset of the rule for the canonical frame address. -/
  | defineCfaOffset (offset : Int64)
  | nop
  deriving DecidableEq, Repr

namespace FrameInstruction

/-- What the reading of instructions depends on. -/
structure Reader where
  origin : FrameSection
  common : CommonEntry
  /-- The offset of the function entry that is replayed, named in errors. -/
  entry : Nat

namespace Reader

/-- The encoding of the expressions in instructions. -/
def encoding (reader : Reader) : Encoding where
  addressSize := reader.common.addressSize
  order := reader.origin.order

variable {α : Type}

/-- Read an operand; running out of data is a defect of the instruction. -/
def operand (reader : Reader) (decoder : Decoder α) : Decoder α :=
  decoder.mapError (FrameDefect.restate reader.entry .instructionPastEntry)

def unsigned (reader : Reader) : Decoder UInt64 :=
  reader.operand Decoder.unsigned.read

def signed (reader : Reader) : Decoder Int64 :=
  reader.operand Decoder.signed.read

/-- Read an unsigned number of data units. -/
def factored (reader : Reader) : Decoder Int64 := do
  return (← reader.unsigned).toInt64 * reader.common.dataAlignment

/-- Read a signed number of data units. -/
def signedFactored (reader : Reader) : Decoder Int64 := do
  return (← reader.signed) * reader.common.dataAlignment

/-- Read a register number. -/
def register (reader : Reader) : Decoder Nat := do
  let register ← Consuming.mapError (FrameDefect.restate reader.entry .truncatedRegister)
    Decoder.unsigned
  if register < 0x10000 then return register.toNat
  else throw (.malformedCallFrame reader.entry (.wideRegister register))

/-- Read an expression; errors of the expression itself are kept. -/
def expression (reader : Reader) : Decoder LocationExpression := do
  let length ← Consuming.mapError (FrameDefect.restate reader.entry .truncatedExpressionLength)
    Decoder.unsigned
  let bytes ← (Decoder.bytes length.toNat).mapError
    (FrameDefect.restate reader.entry .expressionPastEntry)
  Decoder.ofExcept (LocationExpression.decode bytes reader.encoding)

end Reader

/-- Read the operands of an instruction whose code fills the byte at `place`. -/
def extended (reader : Reader) (place : Nat) (code : UInt8) : Decoder FrameInstruction := do
  match code with
  | 0x00 => return .nop
  | 0x01 =>
    let encoding := reader.common.added.pointerEncoding
    return .setLocation (← encoding.decode reader.origin reader.entry)
  | 0x02 => return .advance (← reader.operand Decoder.uint8.read).toUInt64
  | 0x03 => return .advance (← reader.operand Decoder.uint16.read).toUInt64
  | 0x04 => return .advance (← reader.operand Decoder.uint32.read).toUInt64
  | 0x05 => return .setRule (← reader.register) (.offset (← reader.factored))
  | 0x06 => return .restore (← reader.register)
  | 0x07 => return .setRule (← reader.register) .undefined
  | 0x08 => return .setRule (← reader.register) .sameValue
  | 0x09 => return .setRule (← reader.register) (.register (← reader.register))
  | 0x0a => return .rememberState
  | 0x0b => return .restoreState
  | 0x0c => return .defineCfa (.registerPlus (← reader.register) (← reader.unsigned).toInt64)
  | 0x0d => return .defineCfaRegister (← reader.register)
  | 0x0e => return .defineCfaOffset (← reader.unsigned).toInt64
  | 0x0f => return .defineCfa (.expression (← reader.expression))
  | 0x10 => return .setRule (← reader.register) (.expression (← reader.expression))
  | 0x11 => return .setRule (← reader.register) (.offset (← reader.signedFactored))
  | 0x12 => return .defineCfa (.registerPlus (← reader.register) (← reader.signedFactored))
  | 0x13 => return .defineCfaOffset (← reader.signedFactored)
  | 0x14 => return .setRule (← reader.register) (.valOffset (← reader.factored))
  | 0x15 => return .setRule (← reader.register) (.valOffset (← reader.signedFactored))
  | 0x16 => return .setRule (← reader.register) (.valExpression (← reader.expression))
  | 0x2e =>
    let _ ← reader.unsigned
    return .nop
  | 0x2f =>
    let register ← reader.register
    let magnitude := (← reader.unsigned).toInt64
    return .setRule register (.offset (-magnitude * reader.common.dataAlignment))
  | _ => throw (.malformedCallFrame place (.unknownInstruction code))

/-- Read one instruction. Three instructions carry an operand in the low bits of their code. -/
def decode (reader : Reader) : Consuming FrameInstruction :=
  .located fun place =>
    (Consuming.mapError (FrameDefect.restate reader.entry .instructionPastEntry)
      Decoder.uint8).bind fun code => do
        let low := code &&& 0x3f
        match code &&& 0xc0 with
        | 0x40 => return .advance low.toUInt64
        | 0x80 => return .setRule low.toNat (.offset (← reader.factored))
        | 0xc0 => return .restore low.toNat
        | _ => extended reader place code

end FrameInstruction

end Dwarf
