import Dwarf.Bisection

/-! # Line rows

A row says which source position holds from an address on. Rows come in sequences; the last row
of a sequence ends it and holds nowhere. -/

namespace Dwarf

/-- The registers of the line machine, and a row of the table they describe. -/
structure LineRow where
  address : UInt64 := 0
  /-- The operation within an instruction that holds several. -/
  opIndex : UInt64 := 0
  /-- The number of the file, counting from one. -/
  file : UInt64 := 1
  line : UInt64 := 1
  column : UInt64 := 0
  isStmt : Bool
  basicBlock : Bool := false
  endSequence : Bool := false
  prologueEnd : Bool := false
  epilogueBegin : Bool := false
  isa : UInt64 := 0
  discriminator : UInt64 := 0
  deriving DecidableEq, Repr, Inhabited

/-- Rows of a contiguous run of code. -/
structure LineSequence where
  /-- The address of the first row. -/
  start : UInt64
  /-- The address of the last row. -/
  stop : UInt64
  rows : List LineRow
  deriving DecidableEq, Repr, Inhabited

namespace LineSequence

def contains (sequence : LineSequence) (pc : UInt64) : Bool :=
  sequence.start ≤ pc && pc < sequence.stop

/-- The sequence of some rows, unless it covers no address. -/
def ofRows? (rows : List LineRow) : Option LineSequence :=
  match rows.head?, rows.getLast? with
  | some first, some last =>
    if first.address < last.address then some ⟨first.address, last.address, rows⟩ else none
  | _, _ => none

/-- The last row at or below an address, if it does not end the sequence. -/
def rowFor? (sequence : LineSequence) (pc : UInt64) : Option LineRow :=
  match Bisection.boundary (fun row => row.address ≤ pc) sequence.rows with
  | 0 => none
  | last + 1 => (sequence.rows[last]?).filter fun row => !row.endSequence

/-- The addresses at which a run of wanted statement rows begins, given whether the row before
was one. -/
def runStarts (wanted : LineRow → Bool) : Bool → List LineRow → List UInt64
  | _, [] => []
  | inRun, row :: rest =>
    let hit := !row.endSequence && wanted row && row.isStmt
    if hit && !inRun then row.address :: runStarts wanted hit rest
    else runStarts wanted hit rest

end LineSequence

end Dwarf
