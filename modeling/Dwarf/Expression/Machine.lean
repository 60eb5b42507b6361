import Dwarf.Expression
import Dwarf.Expression.Instruction
import Dwarf.Location
import Dwarf.Settings
import Dwarf.Target

/-! # Evaluation of expressions

The machine has a stack of words, the pieces found so far, and a place that ends the current
piece. One step executes one operation; `LocationExpression.evaluate` runs steps until the
operations are exhausted or the budget is. -/

namespace Dwarf

/-- What an evaluation is given besides the expression. -/
structure Evaluation where
  frameBase : Option UInt64 := none
  cfa : Option UInt64 := none
  /-- Values on the stack at the start, the last of them on top. -/
  initial : List UInt64 := []
  budget : Nat := ({} : Settings).expressionBudget
  stackLimit : Nat := ({} : Settings).stackLimit
  /-- The entry the evaluation is for, named in errors. -/
  entry : Nat := 0
  /-- The program counter the evaluation is for, named in errors. -/
  pc : UInt64 := 0
  deriving DecidableEq, Repr, Inhabited

namespace Evaluation

/-- The same evaluation under the limits of some settings. -/
def withLimits (evaluation : Evaluation) (settings : Settings) : Evaluation :=
  { evaluation with
    budget := settings.expressionBudget
    stackLimit := settings.stackLimit }

end Evaluation

/-- The state of an evaluation. -/
structure Machine where
  /-- The values on the stack, the top first. -/
  stack : List UInt64
  /-- A place that a piece operation or the end has to follow, and the operation it is from. -/
  pending : Option (Nat × Place) := none
  /-- The pieces so far, the latest first. -/
  pieces : List Piece := []
  deriving DecidableEq, Repr, Inhabited

namespace Machine

/-- The state before the first operation. -/
def start (evaluation : Evaluation) : Machine where
  stack := evaluation.initial.reverse

/-- Put a value on a stack that has room for it. -/
def push (machine : Machine) (evaluation : Evaluation) (operation : Operation) (value : UInt64) :
    Access Machine :=
  if machine.stack.length < evaluation.stackLimit then
    return { machine with stack := value :: machine.stack }
  else throw (.stackOverflow operation.offset evaluation.stackLimit)

/-- End the current piece with a place. -/
def settle (machine : Machine) (operation : Operation) (place : Place) : Machine :=
  { machine with pending := some (operation.offset, place) }

/-- The place of the current piece and the state without it: the pending place, else the address
on top of the stack, else nowhere. -/
def takePlace (machine : Machine) : Place × Machine :=
  match machine.pending, machine.stack with
  | some (_, place), _ => (place, { machine with pending := none })
  | none, top :: rest => (.address top, { machine with stack := rest })
  | none, [] => (.unavailable, machine)

/-- Add a piece. -/
def addPiece (machine : Machine) (sizeBits bitOffset : UInt64) : Machine :=
  let (place, rest) := machine.takePlace
  { rest with pieces := ⟨place, sizeBits, bitOffset⟩ :: rest.pieces }

/-- Read a number of `size` bytes from memory. -/
def readMemory (encoding : Encoding) (address : UInt64) (size : Nat) : Access UInt64 := do
  let bytes ← Access.memory address size
  if bytes.length < size then
    throw (.targetAccess (.shortRead address size bytes.length))
  else return UInt64.ofNat (encoding.order.value (bytes.take size))

/-- The error of an operation that finds too few values on the stack. -/
def underflow (operation : Operation) : Error :=
  .stackUnderflow operation.offset operation.opcode

/-- Execute an instruction. The answer tells whether to go on elsewhere, and at which
displacement. -/
def execute (machine : Machine) (evaluation : Evaluation) (encoding : Encoding)
    (operation : Operation) : Access (Machine × Option Int64) :=
  let goOn (machine : Machine) : Access (Machine × Option Int64) := return (machine, none)
  let push (machine : Machine) (value : UInt64) : Access (Machine × Option Int64) :=
    return (← machine.push evaluation operation value, none)
  match operation.instruction encoding, machine.stack with
  | .constant value, _ => push machine value
  | .registerPlus register offset, _ => do
    let base ← Access.register register
    push machine (encoding.truncate (base + offset.toUInt64))
  | .frameBasePlus offset, _ =>
    match evaluation.frameBase with
    | some base => push machine (encoding.truncate (base + offset.toUInt64))
    | none => throw (.missingFrameBase evaluation.entry)
  | .callFrameCfa, _ =>
    match evaluation.cfa with
    | some cfa => push machine cfa
    | none => throw (.missingCfa evaluation.pc)
  | .pick depth, stack =>
    match stack[depth]? with
    | some value => push machine value
    | none => throw (underflow operation)
  | .drop, _ :: rest => goOn { machine with stack := rest }
  | .swap, top :: second :: rest => goOn { machine with stack := second :: top :: rest }
  | .rotate, top :: second :: third :: rest =>
    goOn { machine with stack := second :: third :: top :: rest }
  | .deref size, address :: rest => do
    let value ← readMemory encoding address size
    push { machine with stack := rest } value
  | .unary op, value :: rest => push { machine with stack := rest } (op.apply encoding value)
  | .binary op, rhs :: lhs :: rest =>
    match op.apply encoding lhs rhs with
    | some value => push { machine with stack := rest } value
    | none => throw (.divisionByZero operation.offset)
  | .skip displacement, _ => return (machine, some displacement)
  | .branch displacement, condition :: rest =>
    let popped := { machine with stack := rest }
    if condition = 0 then goOn popped else return (popped, some displacement)
  | .nop, _ => goOn machine
  | .inRegister register, _ => goOn (machine.settle operation (.register register))
  | .stackValue, value :: rest =>
    goOn ({ machine with stack := rest }.settle operation (.value value))
  | .implicitValue bytes, _ => goOn (machine.settle operation (.bytes bytes))
  | .piece sizeBits bitOffset, _ => goOn (machine.addPiece sizeBits bitOffset)
  | .unsupported, _ => throw (.unsupportedOpcode operation.offset operation.opcode)
  | _, _ => throw (underflow operation)

/-- Whether an operation adds a piece. -/
def isPiece (operation : Operation) : Bool :=
  operation.opcode == .piece || operation.opcode == .bitPiece

/-- Why an operation may not be executed in a state, if so: only a piece may follow a pending
place, the operation has to be supported, and the stack has to hold what it takes. -/
def obstacle? (machine : Machine) (operation : Operation) : Option Error :=
  match machine.pending, isPiece operation with
  | some (offset, _), false => some (.invalidTerminator offset)
  | _, _ =>
    match operation.opcode.signature? with
    | none => some (.unknownOpcode operation.offset operation.opcode)
    | some signature =>
      if !signature.supported then some (.unsupportedOpcode operation.offset operation.opcode)
      else if machine.stack.length < signature.pops then some (underflow operation)
      else none

/-- Execute one operation. -/
def step (machine : Machine) (evaluation : Evaluation) (encoding : Encoding)
    (operation : Operation) : Access (Machine × Option Int64) :=
  match machine.obstacle? operation with
  | some error => throw error
  | none => machine.execute evaluation encoding operation

/-- The location that a finished evaluation has found. -/
def location (machine : Machine) : Except Error Location :=
  match machine.pieces, machine.pending with
  | [], some (_, place) => .ok (.whole place)
  | [], none => .ok (.whole machine.takePlace.1)
  | pieces, none => .ok (.split pieces.reverse)
  | _, some (offset, _) => .error (.invalidTerminator offset)

end Machine

namespace LocationExpression

/-- Execute operations with the budget that is left. -/
def run (expression : LocationExpression) (evaluation : Evaluation) :
    Nat → List Operation → Machine → Access Location
  | _, [], machine => Access.ofExcept machine.location
  | 0, _ :: _, _ => throw (.budgetExceeded evaluation.budget)
  | budget + 1, operation :: rest, machine => do
    let (next, jump) ← machine.step evaluation expression.encoding operation
    match jump with
    | none => expression.run evaluation budget rest next
    | some displacement =>
      let following ← Access.ofExcept (expression.following operation displacement)
      expression.run evaluation budget following next

/-- Evaluate an expression. -/
def evaluate (expression : LocationExpression) (evaluation : Evaluation) : Access Location :=
  expression.run evaluation evaluation.budget expression.operations (.start evaluation)

end LocationExpression

/-- A way to evaluate expressions. Whatever evaluates an expression takes one, and it is
`LocationExpression.evaluate` unless another one is given. -/
abbrev Evaluator : Type :=
  LocationExpression → Evaluation → Access Location

end Dwarf
