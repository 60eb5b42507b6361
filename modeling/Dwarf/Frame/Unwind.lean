import Dwarf.Expression.Machine
import Dwarf.Frame.Rule

/-! # Unwinding

The rules of a row are evaluated against a target: first the canonical frame address, then with
it the registers of the caller. -/

namespace Dwarf

/-- Where a caller goes on, and the canonical frame address of the callee. -/
structure CallerFrame where
  pc : UInt64
  cfa : UInt64
  deriving DecidableEq, Repr, Inhabited

namespace UnwindRow

/-- An address or a computed value as a number. -/
def number? : Location → Option UInt64
  | .whole (.address value) | .whole (.value value) => some value
  | _ => none

/-- Evaluate an expression to a number. -/
def evaluate (row : UnwindRow) (expression : LocationExpression) (evaluation : Evaluation)
    (defect : FrameDefect) (evaluator : Evaluator := LocationExpression.evaluate) :
    Access UInt64 := do
  match number? (← evaluator expression evaluation) with
  | some value => return value
  | none => throw (.malformedCallFrame row.entry defect)

/-- The canonical frame address. -/
def cfaValue (row : UnwindRow) (evaluator : Evaluator := LocationExpression.evaluate) :
    Access UInt64 :=
  match row.cfa with
  | .registerPlus register offset => do
    let base ← Access.register register
    return (base + offset.toUInt64) &&& row.encoding.maxAddress
  | .expression expression => row.evaluate expression {} .cfaNotAddress evaluator

/-- Read an address from memory. -/
def readAddress (row : UnwindRow) (address : UInt64) : Access UInt64 := do
  let size := row.encoding.addressSize
  let bytes ← Access.memory address size
  if (size = 1 ∨ size = 2 ∨ size = 4 ∨ size = 8) ∧ size ≤ bytes.length then
    return UInt64.ofNat (row.encoding.order.value (bytes.take size))
  else throw (.targetAccess (.shortSavedRegister address))

/-- Evaluate the expression of a register rule, which starts with the canonical frame address on
its stack. -/
def evaluateWithCfa (row : UnwindRow) (expression : LocationExpression) (cfa : UInt64)
    (evaluator : Evaluator := LocationExpression.evaluate) : Access UInt64 :=
  row.evaluate expression { cfa := some cfa, initial := [cfa] } .registerNotValue evaluator

/-- The value of a register in the caller, if it can be found. -/
def recover (row : UnwindRow) (register : Nat) (cfa : UInt64)
    (evaluator : Evaluator := LocationExpression.evaluate) : Access (Option UInt64) := do
  match row.rule register with
  | .undefined => return none
  | .sameValue => return some (← Access.register register)
  | .offset offset =>
    return some (← row.readAddress ((cfa + offset.toUInt64) &&& row.encoding.maxAddress))
  | .valOffset offset => return some ((cfa + offset.toUInt64) &&& row.encoding.maxAddress)
  | .register other => return some (← Access.register other)
  | .expression expression =>
    let address ← row.evaluateWithCfa expression cfa evaluator
    return some (← row.readAddress address)
  | .valExpression expression => return some (← row.evaluateWithCfa expression cfa evaluator)

/-- The frame of the caller. There is none when the return address is not known or zero. -/
def callerFrame (row : UnwindRow) (evaluator : Evaluator := LocationExpression.evaluate) :
    Access (Option CallerFrame) := do
  let cfa ← row.cfaValue evaluator
  let pc ← row.recover row.returnRegister cfa evaluator
  return (pc.filter (· != 0)).map fun pc => ⟨pc, cfa⟩

end UnwindRow

end Dwarf
