import Dwarf.Bisection
import Dwarf.Frame.Machine

/-! # Call frame tables

The function entries of a section by start address, with the common entries they use and the
entries that cannot be decoded. -/

namespace Dwarf

/-- The entries of a call frame section. -/
structure FrameTable where
  origin : FrameSection
  /-- The instructions that may be replayed for one function. -/
  budget : Nat
  /-- The common entries in use, by offset. -/
  commons : List CommonEntry
  /-- The function entries by start address; where these agree, in the order of the section. -/
  functions : List FunctionEntry
  /-- The entries that cannot be decoded, in the order of the section. -/
  errors : List (Nat × Error)
  deriving Repr, Inhabited

namespace FrameTable

/-- The common entry at an offset, either known or decoded, that the entry at `entry` names. -/
def common (origin : FrameSection) (data : List UInt8) (known : List CommonEntry)
    (entry offset : Nat) : Except Error CommonEntry :=
  match known.find? fun common => common.offset == offset with
  | some common => .ok common
  | none => do
    match ← FrameEntry.frame origin data offset with
    | some frame =>
      if frame.isCommon then CommonEntry.decode origin frame
      else throw (.malformedCallFrame entry (.danglingCie offset))
    | none => throw (.malformedCallFrame entry (.danglingCie offset))

/-- Keep a common entry at its place in ascending order of the offsets. -/
def keep (common : CommonEntry) : List CommonEntry → List CommonEntry
  | [] => [common]
  | other :: rest =>
    if common.offset < other.offset then common :: other :: rest
    else if common.offset = other.offset then other :: rest
    else other :: keep common rest

/-- Add what a frame contributes: nothing, a function entry, or an error. -/
def add (data : List UInt8) (table : FrameTable) (frame : Nat × Except Error FrameEntry) :
    FrameTable :=
  let failed (table : FrameTable) (error : Error) : FrameTable :=
    { table with errors := table.errors ++ [(frame.1, error)] }
  match frame.2 with
  | .error error => failed table error
  | .ok entry =>
    if entry.isCommon then table
    else
      match common table.origin data table.commons entry.offset entry.commonOffset with
      | .error error => failed table error
      | .ok common =>
        let table := { table with commons := keep common table.commons }
        match FunctionEntry.decode table.origin common entry with
        | .error error => failed table error
        | .ok function => { table with functions := table.functions ++ [function] }

/-- Decode a section. -/
def decode (data : List UInt8) (origin : FrameSection) (budget : Nat) : FrameTable :=
  let table := (FrameEntry.framesFrom origin data 0).foldl (add data) ⟨origin, budget, [], [], []⟩
  { table with functions := table.functions.mergeSort fun a b => a.start ≤ b.start }

/-- The last function entry that covers an address, among those that start at or below it. -/
def functionFor? (table : FrameTable) (pc : UInt64) : Option FunctionEntry :=
  let upper := Bisection.boundary (fun entry => entry.start ≤ pc) table.functions
  (table.functions.take upper).reverse.find? fun entry => entry.contains pc

/-- The rows of a function. -/
def rows (table : FrameTable) (entry : FunctionEntry) : Except Error (List UnwindRow) :=
  FrameMachine.Replay.rows ⟨table.origin, entry, table.budget⟩

/-- The row in force at an address. -/
def unwindAt (table : FrameTable) (pc : UInt64) : Except Error (Option UnwindRow) :=
  match table.functionFor? pc with
  | none => .ok none
  | some entry => do return (← table.rows entry).find? fun row => row.contains pc

end FrameTable

end Dwarf
