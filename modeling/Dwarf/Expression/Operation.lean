import Dwarf.Decoder.Primitive
import Dwarf.Encoding

/-! # Location operations

An expression is a run of operations: an opcode and operands whose shape depends on the opcode
alone. The table of signatures also says how many values an operation takes from the stack. -/

namespace Dwarf

/-- How the operands of an operation are stored. -/
inductive OperandShape where
  | none
  | u8
  | i8
  | u16
  | i16
  | u32
  | i32
  | u64
  | i64
  | uleb
  | sleb
  | ulebSleb
  | ulebUleb
  | address
  | offset
  /-- A length and that many bytes. -/
  | block
  deriving DecidableEq, Repr, Inhabited

/-- What is known of an opcode. -/
structure Signature where
  shape : OperandShape
  /-- The number of values the stack has to hold. -/
  pops : Nat
  /-- Whether the operation can be evaluated. -/
  supported : Bool := true
  deriving DecidableEq, Repr, Inhabited

namespace Opcode

/-- The signatures of the opcodes that do not come in series. -/
def signatures : List (Opcode × Signature) :=
  [ (addr, ⟨.address, 0, true⟩), (deref, ⟨.none, 1, true⟩),
    (const1u, ⟨.u8, 0, true⟩), (const1s, ⟨.i8, 0, true⟩),
    (const2u, ⟨.u16, 0, true⟩), (const2s, ⟨.i16, 0, true⟩),
    (const4u, ⟨.u32, 0, true⟩), (const4s, ⟨.i32, 0, true⟩),
    (const8u, ⟨.u64, 0, true⟩), (const8s, ⟨.i64, 0, true⟩),
    (constu, ⟨.uleb, 0, true⟩), (consts, ⟨.sleb, 0, true⟩),
    (dup, ⟨.none, 1, true⟩), (drop, ⟨.none, 1, true⟩),
    (dupSecond, ⟨.none, 2, true⟩), (pick, ⟨.u8, 0, true⟩),
    (swap, ⟨.none, 2, true⟩), (rot, ⟨.none, 3, true⟩),
    (xderef, ⟨.none, 2, false⟩), (abs, ⟨.none, 1, true⟩), (and, ⟨.none, 2, true⟩),
    (div, ⟨.none, 2, true⟩), (minus, ⟨.none, 2, true⟩), (mod, ⟨.none, 2, true⟩),
    (mul, ⟨.none, 2, true⟩), (neg, ⟨.none, 1, true⟩), (not, ⟨.none, 1, true⟩),
    (or, ⟨.none, 2, true⟩), (plus, ⟨.none, 2, true⟩), (plusUconst, ⟨.uleb, 1, true⟩),
    (shl, ⟨.none, 2, true⟩), (shr, ⟨.none, 2, true⟩), (shra, ⟨.none, 2, true⟩),
    (xor, ⟨.none, 2, true⟩), (bra, ⟨.i16, 1, true⟩),
    (eq, ⟨.none, 2, true⟩), (ge, ⟨.none, 2, true⟩), (gt, ⟨.none, 2, true⟩),
    (le, ⟨.none, 2, true⟩), (lt, ⟨.none, 2, true⟩), (ne, ⟨.none, 2, true⟩),
    (skip, ⟨.i16, 0, true⟩), (regx, ⟨.uleb, 0, true⟩), (fbreg, ⟨.sleb, 0, true⟩),
    (bregx, ⟨.ulebSleb, 0, true⟩), (piece, ⟨.uleb, 0, true⟩),
    (derefSize, ⟨.u8, 1, true⟩), (xderefSize, ⟨.u8, 2, false⟩), (nop, ⟨.none, 0, true⟩),
    (pushObjectAddress, ⟨.none, 0, false⟩), (call2, ⟨.u16, 0, false⟩),
    (call4, ⟨.u32, 0, false⟩), (callRef, ⟨.offset, 0, false⟩),
    (formTlsAddress, ⟨.none, 1, false⟩), (callFrameCfa, ⟨.none, 0, true⟩),
    (bitPiece, ⟨.ulebUleb, 0, true⟩), (implicitValue, ⟨.block, 0, true⟩),
    (stackValue, ⟨.none, 1, true⟩), (entryValue, ⟨.block, 0, false⟩),
    (gnuPushTlsAddress, ⟨.none, 1, false⟩), (gnuEntryValue, ⟨.block, 0, false⟩) ]

/-- The three series of thirty-two opcodes that carry a small number in the opcode itself. -/
inductive Series where
  /-- The number is pushed. -/
  | literal
  /-- The number is that of the register that holds the value. -/
  | register
  /-- The number is that of a register to which an offset is added. -/
  | base
  deriving DecidableEq, Repr

/-- The series an opcode belongs to, and its number there. -/
def series? (opcode : Opcode) : Option (Series × Nat) :=
  let code := opcode.code.toNat
  if 0x30 ≤ code ∧ code < 0x50 then some (.literal, code - 0x30)
  else if 0x50 ≤ code ∧ code < 0x70 then some (.register, code - 0x50)
  else if 0x70 ≤ code ∧ code < 0x90 then some (.base, code - 0x70)
  else none

/-- The signature of an opcode. Without one the length of an operation is not known. -/
def signature? (opcode : Opcode) : Option Signature :=
  match opcode.series? with
  | some (.literal, _) | some (.register, _) => some ⟨.none, 0, true⟩
  | some (.base, _) => some ⟨.sleb, 0, true⟩
  | none => signatures.lookup opcode

end Opcode

/-- The operands of an operation. -/
inductive Operand where
  | none
  | unsigned (value : UInt64)
  | signed (value : Int64)
  /-- A register number and an offset. -/
  | unsignedSigned (first : UInt64) (second : Int64)
  | unsignedPair (first second : UInt64)
  | block (bytes : List UInt8)
  deriving DecidableEq, Repr, Inhabited

namespace Operand

/-- The leading operand as an unsigned number. -/
def toUnsigned : Operand → UInt64
  | unsigned value | unsignedSigned value _ | unsignedPair value _ => value
  | signed value => value.toUInt64
  | none | block _ => 0

/-- The signed operand, or the only operand as a signed number. -/
def toSigned : Operand → Int64
  | signed value | unsignedSigned _ value => value
  | unsigned value => value.toInt64
  | none | unsignedPair .. | block _ => 0

end Operand

/-- Read operands of a shape. -/
def OperandShape.decode : OperandShape → Decoder Operand
  | none => return .none
  | u8 => return .unsigned (← Decoder.uint8).toUInt64
  | i8 => return .signed (← Decoder.int8).toInt64
  | u16 => return .unsigned (← Decoder.uint16).toUInt64
  | i16 => return .signed (← Decoder.int16).toInt64
  | u32 => return .unsigned (← Decoder.uint32).toUInt64
  | i32 => return .signed (← Decoder.int32).toInt64
  | u64 => return .unsigned (← Decoder.uint64)
  | i64 => return .signed (← Decoder.int64)
  | uleb => return .unsigned (← Decoder.unsigned)
  | sleb => return .signed (← Decoder.signed)
  | ulebSleb => return .unsignedSigned (← Decoder.unsigned) (← Decoder.signed)
  | ulebUleb => return .unsignedPair (← Decoder.unsigned) (← Decoder.unsigned)
  | address => return .unsigned (← Decoder.address)
  | offset => return .unsigned (← Decoder.sectionOffset)
  | block => return .block (← Decoder.bytes (← Decoder.unsigned).toNat)

/-- An operation of an expression. -/
structure Operation where
  /-- The offset of the opcode in the expression. -/
  offset : Nat
  opcode : Opcode
  operand : Operand
  deriving DecidableEq, Repr, Inhabited

namespace Operation

/-- Why an opcode without a signature cannot be stepped over. -/
def withoutSignature (offset : Nat) (opcode : Opcode) : Error :=
  if opcode.isNamed then .unsupportedOpcode offset opcode else .unknownOpcode offset opcode

/-- Read one operation. -/
def decode : Consuming Operation :=
  .located fun offset => Decoder.uint8.bind fun code => do
    let opcode : Opcode := ⟨code⟩
    match opcode.signature? with
    | some signature => return ⟨offset, opcode, ← signature.shape.decode⟩
    | none => throw (withoutSignature offset opcode)

/-- The operations of an expression. -/
def decodeAll (bytes : List UInt8) (encoding : Encoding) : Except Error (List Operation) :=
  (Decoder.many decode).run (encoding.cursor bytes 0)

end Operation

end Dwarf
