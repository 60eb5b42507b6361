import Dwarf.Frame.Instruction

/-! # Replay of call frame instructions

The machine moves through the addresses of a function while instructions change the rules. When
it moves on, the rules in force become a row, if there is one for the canonical frame address. -/

namespace Dwarf

/-- The state of a replay. -/
structure FrameMachine where
  location : UInt64
  cfa : Option CfaRule := none
  registers : RuleSet := {}
  /-- The remembered rules, latest first. -/
  saved : List (Option CfaRule × RuleSet) := []
  /-- The rows so far, latest first. -/
  rows : List UnwindRow := []
  /-- The number of instructions executed. -/
  executed : Nat := 0
  deriving DecidableEq, Repr, Inhabited

namespace FrameMachine

/-- The state before the first instruction. -/
def start (entry : FunctionEntry) : FrameMachine where
  location := entry.start

/-- How values of a function are stored. -/
def encoding (origin : FrameSection) (entry : FunctionEntry) : Encoding where
  addressSize := entry.common.addressSize
  order := origin.order

/-- Make a row of the rules in force up to an address. -/
def close (machine : FrameMachine) (origin : FrameSection) (entry : FunctionEntry)
    (stop : UInt64) : FrameMachine :=
  match machine.cfa with
  | some cfa =>
    if machine.location < stop then
      let row : UnwindRow :=
        { start := machine.location
          stop
          cfa
          registers := machine.registers
          returnRegister := entry.common.returnRegister
          entry := entry.offset
          encoding := encoding origin entry }
      { machine with rows := row :: machine.rows }
    else machine
  | none => machine

/-- Move on to an address, at most to the end of the function. -/
def moveTo (machine : FrameMachine) (origin : FrameSection) (entry : FunctionEntry)
    (target : UInt64) : FrameMachine :=
  let stop := if target < entry.stop then target else entry.stop
  if machine.location < stop then
    { machine.close origin entry stop with location := stop }
  else machine

/-- Return a register to its initial rule. While the common entry is replayed there is none. -/
def restore (machine : FrameMachine) (initial : Option RuleSet) (register : Nat) : FrameMachine :=
  let registers := match initial.bind fun set => set.get? register with
    | some rule => machine.registers.insert register rule
    | none => machine.registers.erase register
  { machine with registers }

/-- Execute the instruction that is stored at `place`. -/
def step (machine : FrameMachine) (origin : FrameSection) (entry : FunctionEntry)
    (initial : Option RuleSet) (place : Nat) : FrameInstruction → Except Error FrameMachine
  | .advance units =>
    .ok (machine.moveTo origin entry (machine.location + units * entry.common.codeAlignment))
  | .setLocation address =>
    if address < machine.location then .error (.malformedCallFrame place .locationBackwards)
    else .ok (machine.moveTo origin entry address)
  | .setRule register rule =>
    .ok { machine with registers := machine.registers.insert register rule }
  | .restore register => .ok (machine.restore initial register)
  | .rememberState =>
    .ok { machine with saved := (machine.cfa, machine.registers) :: machine.saved }
  | .restoreState =>
    match machine.saved with
    | (cfa, registers) :: saved => .ok { machine with cfa, registers, saved }
    | [] => .error (.malformedCallFrame place .nothingRemembered)
  | .defineCfa rule => .ok { machine with cfa := some rule }
  | .defineCfaRegister register =>
    match machine.cfa with
    | some (.registerPlus _ offset) =>
      .ok { machine with cfa := some (.registerPlus register offset) }
    | _ => .error (.malformedCallFrame place .registerWithoutCfa)
  | .defineCfaOffset offset =>
    match machine.cfa with
    | some (.registerPlus register _) =>
      .ok { machine with cfa := some (.registerPlus register offset) }
    | _ => .error (.malformedCallFrame place .offsetWithoutCfa)
  | .nop => .ok machine

/-- What a replay depends on. -/
structure Replay where
  origin : FrameSection
  entry : FunctionEntry
  budget : Nat

namespace Replay

/-- How the instructions of a replay are read. -/
def reader (replay : Replay) : FrameInstruction.Reader where
  origin := replay.origin
  common := replay.entry.common
  entry := replay.entry.offset

/-- Read and execute one instruction within the budget. -/
def pass (replay : Replay) (initial : Option RuleSet) (machine : FrameMachine) :
    Consuming FrameMachine :=
  if replay.budget ≤ machine.executed then .fail (.budgetExceeded replay.budget)
  else .located fun place =>
    (FrameInstruction.decode replay.reader).bind fun instruction =>
      let counted := { machine with executed := machine.executed + 1 }
      Decoder.ofExcept (counted.step replay.origin replay.entry initial place instruction)

/-- Replay a run of instructions. -/
def run (replay : Replay) (initial : Option RuleSet) (instructions : List UInt8) (offset : Nat)
    (machine : FrameMachine) : Except Error FrameMachine :=
  let cursor := (Cursor.start instructions offset replay.origin.order).withAddressSize
    replay.entry.common.addressSize
  (Decoder.untilEnd (replay.pass initial) machine cursor).result

/-- The rows of a function: the instructions of its common entry are replayed first, and the
rules in force at the end hold up to the end of the function. -/
def rows (replay : Replay) : Except Error (List UnwindRow) := do
  let entry := replay.entry
  let prepared ← replay.run none entry.common.instructions entry.common.instructionsOffset
    (.start entry)
  let finished ← replay.run (some prepared.registers) entry.instructions
    entry.instructionsOffset prepared
  return (finished.close replay.origin entry entry.stop).rows.reverse

end Replay

end FrameMachine

end Dwarf
