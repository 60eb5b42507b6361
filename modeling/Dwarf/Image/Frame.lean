import Dwarf.Frame.Unwind
import Dwarf.Image

/-! # Frames of an image

The first call frame table with a row for an address decides how its frame is unwound. -/

namespace Dwarf

namespace FrameTable

/-- The row in force at an address in the first of several tables that has one. -/
def firstRow (pc : UInt64) : List FrameTable → Except Error (Option UnwindRow)
  | [] => .ok none
  | table :: rest => do
    match ← table.unwindAt pc with
    | some row => return some row
    | none => firstRow pc rest

end FrameTable

namespace Image

/-- The row in force at an address. -/
def unwindAt (image : Image) (pc : UInt64) : Except Error (Option UnwindRow) :=
  FrameTable.firstRow pc image.frames

/-- The row in force at an address; where it cannot be computed there is none. -/
def unwindAt? (image : Image) (pc : UInt64) : Option UnwindRow :=
  (image.unwindAt pc).toOption.join

/-- The canonical frame address of a frame that is stopped at an address, if there is a row for
it. -/
def cfaAt (image : Image) (pc : UInt64) (rules : Evaluator := LocationExpression.evaluate) :
    Access (Option UInt64) := do
  match ← Access.ofExcept (image.unwindAt pc) with
  | some row => return some (← row.cfaValue rules)
  | none => return none

/-- The caller of a frame that is stopped at an address. -/
def callerFrame (image : Image) (pc : UInt64)
    (rules : Evaluator := LocationExpression.evaluate) : Access (Option CallerFrame) := do
  match ← Access.ofExcept (image.unwindAt pc) with
  | some row => row.callerFrame rules
  | none => return none

end Image

end Dwarf
