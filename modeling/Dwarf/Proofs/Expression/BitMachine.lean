import Dwarf.Expression.Machine
import Dwarf.Proofs.Expression.Width

/-!
# A stack machine over bit-vectors

A second account of the operations that need nothing but the stack.  Values are bit-vectors of the
width of an address, so nothing is ever truncated or extended: the operators are those on
bit-vectors, and constants are taken modulo the width.  The place in the program is the number of
an operation.
-/

namespace Dwarf

/-- What an operation does with bit-vectors. -/
inductive BitAction (width : Nat) where
  | push (value : BitVec width)
  /-- Push the value at a depth of the stack again; the top has depth zero. -/
  | copy (depth : Nat)
  | drop
  | swap
  /-- Move the top value below the two values under it. -/
  | rotate
  | unary (f : BitVec width → BitVec width)
  /-- Replace the value below the top and the top, unless that is a division by zero. -/
  | binary (f : BitVec width → BitVec width → Option (BitVec width))
  /-- Go on elsewhere. -/
  | skip
  /-- Go on elsewhere unless the top value is zero. -/
  | branch
  | nop
  /-- The top value is the value that is asked for. -/
  | answer

namespace BitAction

variable {width : Nat}

/-- The truth value of a comparison. -/
def test (holds : BitVec width → BitVec width → Bool) : BitAction width :=
  .binary fun x y => some (if holds x y then 1 else 0)

/-- An operator that always has a result. -/
def total (f : BitVec width → BitVec width → BitVec width) : BitAction width :=
  .binary fun x y => some (f x y)

/-- An operator that has a result unless the second value is zero. -/
def divide (f : BitVec width → BitVec width → BitVec width) : BitAction width :=
  .binary fun x y => if y = 0 then none else some (f x y)

/-- The action of an operation, if it needs nothing but the stack. -/
def of? (width : Nat) (operation : Operation) : Option (BitAction width) :=
  let operand := operation.operand
  let unsigned := BitVec.ofNat width operand.toUnsigned.toNat
  let signed := BitVec.ofInt width operand.toSigned.toInt
  match operation.opcode.series? with
  | some (.literal, number) => some (.push (BitVec.ofNat width number))
  | some _ => none
  | none =>
    match operation.opcode with
    | .addr | .const1u | .const2u | .const4u | .const8u | .constu => some (.push unsigned)
    | .const1s | .const2s | .const4s | .const8s | .consts => some (.push signed)
    | .dup => some (.copy 0)
    | .dupSecond => some (.copy 1)
    | .pick => some (.copy operand.toUnsigned.toNat)
    | .drop => some .drop
    | .swap => some .swap
    | .rot => some .rotate
    | .abs => some (.unary BitVec.abs)
    | .neg => some (.unary fun x => -x)
    | .not => some (.unary fun x => ~~~x)
    | .plusUconst => some (.unary fun x => x + unsigned)
    | .plus => some (.total fun x y => x + y)
    | .minus => some (.total fun x y => x - y)
    | .mul => some (.total fun x y => x * y)
    | .div => some (.divide BitVec.sdiv)
    | .mod => some (.divide BitVec.umod)
    | .and => some (.total fun x y => x &&& y)
    | .or => some (.total fun x y => x ||| y)
    | .xor => some (.total fun x y => x ^^^ y)
    | .shl => some (.total fun x y => x <<< y)
    | .shr => some (.total fun x y => x >>> y)
    | .shra => some (.total BitVec.sshiftRight')
    | .eq => some (.test fun x y => x == y)
    | .ne => some (.test fun x y => x != y)
    | .lt => some (.test BitVec.slt)
    | .le => some (.test BitVec.sle)
    | .gt => some (.test fun x y => y.slt x)
    | .ge => some (.test fun x y => y.sle x)
    | .skip => some .skip
    | .bra => some .branch
    | .nop => some .nop
    | .stackValue => some .answer
    | _ => none

end BitAction

/-- A state of the machine. -/
structure BitMachine (width : Nat) where
  /-- The number of the operation that comes next. -/
  place : Nat
  /-- The values on the stack, the top first. -/
  stack : List (BitVec width)
  /-- The value that was asked for, and where the operation is that gave it. -/
  answer : Option (Nat × BitVec width) := none

namespace BitMachine

variable {width : Nat}

/-- Where a branch leads: to the operation that starts so many bytes after it, or to the end. -/
def landing (expression : LocationExpression) (operation : Operation) : Except Error Nat :=
  let target := operation.offset + 3 + operation.operand.toSigned.toInt
  if target = expression.bytes.length then .ok expression.operations.length
  else
    match expression.operations.findIdx? fun other => (other.offset : Int) == target with
    | some place => .ok place
    | none => .error (.invalidBranch operation.offset target)

/-- Go on to the next operation with one more value on the stack, if there is room for it. -/
def push (machine : BitMachine width) (limit : Nat) (operation : Operation)
    (stack : List (BitVec width)) (value : BitVec width) : Except Error (BitMachine width) :=
  if stack.length < limit then .ok ⟨machine.place + 1, value :: stack, none⟩
  else .error (.stackOverflow operation.offset limit)

/-- Execute an action. -/
def act (machine : BitMachine width) (expression : LocationExpression) (limit : Nat)
    (operation : Operation) (action : BitAction width) : Except Error (BitMachine width) :=
  let next := machine.place + 1
  match action, machine.stack with
  | .push value, stack => machine.push limit operation stack value
  | .copy depth, stack =>
    match stack[depth]? with
    | some value => machine.push limit operation stack value
    | none => .error (.stackUnderflow operation.offset operation.opcode)
  | .drop, _ :: stack => .ok ⟨next, stack, none⟩
  | .swap, x :: y :: stack => .ok ⟨next, y :: x :: stack, none⟩
  | .rotate, x :: y :: z :: stack => .ok ⟨next, y :: z :: x :: stack, none⟩
  | .unary f, x :: stack => machine.push limit operation stack (f x)
  | .binary f, y :: x :: stack =>
    match f x y with
    | some value => machine.push limit operation stack value
    | none => .error (.divisionByZero operation.offset)
  | .skip, stack => do return ⟨← landing expression operation, stack, none⟩
  | .branch, x :: stack =>
    if x = 0 then .ok ⟨next, stack, none⟩
    else do return ⟨← landing expression operation, stack, none⟩
  | .nop, stack => .ok ⟨next, stack, none⟩
  | .answer, x :: stack => .ok ⟨next, stack, some (operation.offset, x)⟩
  | _, _ => .error (.stackUnderflow operation.offset operation.opcode)

/-- Execute one operation.  Nothing may follow an answer. -/
def step (machine : BitMachine width) (expression : LocationExpression) (limit : Nat)
    (operation : Operation) : Except Error (BitMachine width) :=
  match machine.answer, BitAction.of? width operation with
  | some (offset, _), _ => .error (.invalidTerminator offset)
  | none, some action => machine.act expression limit operation action
  | none, none => .error (.unsupportedOpcode operation.offset operation.opcode)

/-- What has been found: the answer, else the address on top of the stack, else nothing. -/
def location (machine : BitMachine width) : Location :=
  match machine.answer, machine.stack with
  | some (_, value), _ => .whole (.value (Word.ofBits value))
  | none, top :: _ => .whole (.address (Word.ofBits top))
  | none, [] => .whole .unavailable

/-- Execute operations until the program ends, at most as many as the budget allows. -/
def run (expression : LocationExpression) (evaluation : Evaluation) :
    Nat → BitMachine width → Except Error Location
  | 0, machine =>
    match expression.operations[machine.place]? with
    | none => .ok machine.location
    | some _ => .error (.budgetExceeded evaluation.budget)
  | budget + 1, machine =>
    match expression.operations[machine.place]? with
    | none => .ok machine.location
    | some operation => do
      run expression evaluation budget
        (← machine.step expression evaluation.stackLimit operation)

/-- Evaluate an expression with bit-vectors of some width. -/
def evaluate (width : Nat) (expression : LocationExpression) (evaluation : Evaluation) :
    Except Error Location :=
  let initial := evaluation.initial.reverse.map fun value => BitVec.ofNat width value.toNat
  run expression evaluation evaluation.budget ⟨0, initial, none⟩

end BitMachine

end Dwarf
