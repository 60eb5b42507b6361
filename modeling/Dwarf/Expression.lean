import Dwarf.Expression.Operation

/-! # Location expressions

A decoded expression keeps its bytes, since branches are measured in them. Branches lead to the
start of an operation or to the end of the expression; `LocationExpression.following` finds the
operations from there on. -/

namespace Dwarf

/-- A decoded location expression. -/
structure LocationExpression where
  bytes : List UInt8
  operations : List Operation
  encoding : Encoding
  deriving DecidableEq, Repr, Inhabited

namespace LocationExpression

/-- Decode an expression. -/
def decode (bytes : List UInt8) (encoding : Encoding) : Except Error LocationExpression := do
  return ⟨bytes, ← Operation.decodeAll bytes encoding, encoding⟩

/-- Whether an operation of some opcode occurs. -/
def uses (expression : LocationExpression) (opcode : Opcode) : Bool :=
  expression.operations.any fun operation => operation.opcode == opcode

/-- Whether the evaluation may need the frame base. -/
def usesFrameBase (expression : LocationExpression) : Bool :=
  expression.uses .fbreg

/-- Whether the evaluation may need the canonical frame address. -/
def usesCfa (expression : LocationExpression) : Bool :=
  expression.uses .callFrameCfa

/-- The operations from a byte offset on, if an operation starts there or the expression ends
there. -/
def operationsFrom? (expression : LocationExpression) (target : Int) : Option (List Operation) :=
  if target = expression.bytes.length then some []
  else
    match expression.operations.dropWhile fun operation => (operation.offset : Int) != target with
    | [] => none
    | operations => some operations

/-- The operations that a branch leads to. Its displacement counts from the end of its two-byte
operand. -/
def following (expression : LocationExpression) (operation : Operation) (displacement : Int64) :
    Except Error (List Operation) :=
  let target := operation.offset + 3 + displacement.toInt
  match expression.operationsFrom? target with
  | some operations => .ok operations
  | none => .error (.invalidBranch operation.offset target)

end LocationExpression

end Dwarf
