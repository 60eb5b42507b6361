/-! # Settings

The limits that keep the evaluation of untrusted programs bounded. -/

namespace Dwarf

/-- The limits of evaluations, and whether units may be decoded at the same time. The latter
never changes an answer. -/
structure Settings where
  /-- The operations one location expression may execute. -/
  expressionBudget : Nat := 10000
  /-- The call frame instructions that may be replayed for one function. -/
  frameBudget : Nat := 10000
  /-- The values the stack of an expression may hold. -/
  stackLimit : Nat := 1024
  parallel : Bool := true
  deriving DecidableEq, Repr, Inhabited

end Dwarf
