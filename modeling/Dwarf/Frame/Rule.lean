import Dwarf.Expression

/-! # Unwind rules

How the frame of a caller is found: a rule for the canonical frame address and rules for the
registers. A row holds the rules that are in force in an interval of addresses. -/

namespace Dwarf

/-- How the canonical frame address is computed. -/
inductive CfaRule where
  | registerPlus (register : Nat) (offset : Int64)
  | expression (expression : LocationExpression)
  deriving DecidableEq, Repr, Inhabited

/-- How the value of a register in the caller is found. -/
inductive RegisterRule where
  /-- It cannot be found. -/
  | undefined
  /-- It has not changed. -/
  | sameValue
  /-- It is stored at an offset from the canonical frame address. -/
  | offset (offset : Int64)
  /-- It is the canonical frame address plus an offset. -/
  | valOffset (offset : Int64)
  /-- It is in another register. -/
  | register (register : Nat)
  /-- It is stored at the address that an expression computes. -/
  | expression (expression : LocationExpression)
  /-- It is the value that an expression computes. -/
  | valExpression (expression : LocationExpression)
  deriving DecidableEq, Repr, Inhabited

/-- Rules by register, in ascending order of the registers. -/
structure RuleSet where
  rules : List (Nat × RegisterRule) := []
  deriving DecidableEq, Repr, Inhabited

namespace RuleSet

/-- The rule of a register. -/
def get? (set : RuleSet) (register : Nat) : Option RegisterRule :=
  set.rules.lookup register

/-- Put a rule at its place in ascending order. -/
def place (register : Nat) (rule : RegisterRule) :
    List (Nat × RegisterRule) → List (Nat × RegisterRule)
  | [] => [(register, rule)]
  | (other, kept) :: rest =>
    if register < other then (register, rule) :: (other, kept) :: rest
    else if register = other then (register, rule) :: rest
    else (other, kept) :: place register rule rest

/-- Set the rule of a register. -/
def insert (set : RuleSet) (register : Nat) (rule : RegisterRule) : RuleSet :=
  ⟨place register rule set.rules⟩

/-- Remove the rule of a register. -/
def erase (set : RuleSet) (register : Nat) : RuleSet :=
  ⟨set.rules.filter fun entry => entry.1 != register⟩

end RuleSet

/-- The rules in force from `start` up to but not including `stop`. -/
structure UnwindRow where
  start : UInt64
  stop : UInt64
  cfa : CfaRule
  registers : RuleSet
  /-- The register that stands for the return address. -/
  returnRegister : Nat
  /-- The offset of the function entry that the row comes from. -/
  entry : Nat
  /-- How values in memory are stored. -/
  encoding : Encoding
  deriving DecidableEq, Repr, Inhabited

namespace UnwindRow

def contains (row : UnwindRow) (pc : UInt64) : Bool :=
  row.start ≤ pc && pc < row.stop

/-- The rule of a register. A register without one has not changed. -/
def rule (row : UnwindRow) (register : Nat) : RegisterRule :=
  (row.registers.get? register).getD .sameValue

end UnwindRow

end Dwarf
