import Dwarf.Expression.Arithmetic
import Dwarf.Expression.Operation

/-! # Instructions

What the supported operations do. An instruction is an operation whose operands have been given
their meaning at the width of an address. -/

namespace Dwarf

/-- What an operation does. -/
inductive Instruction where
  /-- Push a constant. -/
  | constant (value : UInt64)
  /-- Push the value of a register plus an offset. -/
  | registerPlus (register : Nat) (offset : Int64)
  /-- Push the frame base plus an offset. -/
  | frameBasePlus (offset : Int64)
  /-- Push the canonical frame address. -/
  | callFrameCfa
  /-- Push the value at a depth of the stack again; the top has depth zero. -/
  | pick (depth : Nat)
  | drop
  | swap
  /-- Move the top value below the two values under it. -/
  | rotate
  /-- Replace an address by the number of some bytes that is stored there. -/
  | deref (size : Nat)
  | unary (op : UnaryOp)
  | binary (op : BinaryOp)
  /-- Go on elsewhere. -/
  | skip (displacement : Int64)
  /-- Go on elsewhere unless the top value is zero. -/
  | branch (displacement : Int64)
  | nop
  /-- The location is a register. -/
  | inRegister (register : Nat)
  /-- The top value is the value itself. -/
  | stackValue
  /-- The value is given as bytes. -/
  | implicitValue (bytes : List UInt8)
  /-- The location so far holds one piece of the value. -/
  | piece (sizeBits bitOffset : UInt64)
  /-- An operand is out of range. -/
  | unsupported
  deriving DecidableEq, Repr

namespace Operation

/-- The register an operand names; register numbers have 16 bits. -/
def register? (operand : Operand) : Option Nat :=
  if operand.toUnsigned < 0x10000 then some operand.toUnsigned.toNat else none

/-- A number of bytes as a number of bits, at most the largest word. -/
def bitCount (bytes : UInt64) : UInt64 :=
  UInt64.ofNat (min (8 * bytes.toNat) (UInt64.size - 1))

/-- The instruction of an opcode that belongs to no series. -/
def single (encoding : Encoding) (opcode : Opcode) (operand : Operand) : Instruction :=
  match opcode with
  | .addr | .const1u | .const2u | .const4u | .const8u | .constu =>
    .constant (encoding.truncate operand.toUnsigned)
  | .const1s | .const2s | .const4s | .const8s | .consts =>
    .constant (encoding.truncate operand.toSigned.toUInt64)
  | .bregx =>
    match register? operand with
    | some register => .registerPlus register operand.toSigned
    | none => .unsupported
  | .fbreg => .frameBasePlus operand.toSigned
  | .regx =>
    match register? operand with
    | some register => .inRegister register
    | none => .unsupported
  | .callFrameCfa => .callFrameCfa
  | .dup => .pick 0
  | .dupSecond => .pick 1
  | .pick => .pick operand.toUnsigned.toNat
  | .drop => .drop
  | .swap => .swap
  | .rot => .rotate
  | .deref => .deref encoding.addressSize
  | .derefSize =>
    if 1 ≤ operand.toUnsigned ∧ operand.toUnsigned ≤ 8 then .deref operand.toUnsigned.toNat
    else .unsupported
  | .abs => .unary .abs
  | .neg => .unary .neg
  | .not => .unary .not
  | .plusUconst => .unary (.plus operand.toUnsigned)
  | .and => .binary .and
  | .div => .binary .div
  | .minus => .binary .minus
  | .mod => .binary .mod
  | .mul => .binary .mul
  | .or => .binary .or
  | .plus => .binary .plus
  | .shl => .binary .shl
  | .shr => .binary .shr
  | .shra => .binary .shra
  | .xor => .binary .xor
  | .eq => .binary .eq
  | .ge => .binary .ge
  | .gt => .binary .gt
  | .le => .binary .le
  | .lt => .binary .lt
  | .ne => .binary .ne
  | .skip => .skip operand.toSigned
  | .bra => .branch operand.toSigned
  | .nop => .nop
  | .stackValue => .stackValue
  | .implicitValue =>
    match operand with
    | .block bytes => .implicitValue bytes
    | _ => .unsupported
  | .piece => .piece (bitCount operand.toUnsigned) 0
  | .bitPiece =>
    match operand with
    | .unsignedPair sizeBits bitOffset => .piece sizeBits bitOffset
    | _ => .unsupported
  | _ => .unsupported

/-- The instruction of an operation. -/
def instruction (operation : Operation) (encoding : Encoding) : Instruction :=
  match operation.opcode.series? with
  | some (.literal, number) => .constant (UInt64.ofNat number)
  | some (.register, number) => .inRegister number
  | some (.base, number) => .registerPlus number operation.operand.toSigned
  | none => single encoding operation.opcode operation.operand

end Operation

end Dwarf
