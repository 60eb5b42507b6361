import Mathlib.Logic.Function.Basic
import Dwarf.Frame.Machine

/-!
# The rules in force, without rows

A reference machine for call frame instructions.  Its state is a location and the rules that hold
from there on; locations are exact numbers, register rules are functions, and nothing is ever
emitted.  The rules at an address are those of the state just before the first instruction that
moves the location past the address, or those of the last state.
-/

namespace Dwarf

/-- A location and the rules in force there. -/
structure RuleState where
  location : Nat
  cfa : Option CfaRule
  registers : Nat → Option RegisterRule
  /-- The remembered rules, latest first. -/
  saved : List (Option CfaRule × (Nat → Option RegisterRule))

namespace RuleState

/-- The state before the first instruction of a function. -/
def start (entry : FunctionEntry) : RuleState :=
  ⟨entry.start.toNat, none, fun _ => none, []⟩

/-- Move on to an address, but never back and at most to the end of the function. -/
def moveTo (state : RuleState) (entry : FunctionEntry) (target : Nat) : RuleState :=
  { state with location := max state.location (min target entry.stop.toNat) }

/-- Where an advance leads before it is clamped. -/
def advanced (state : RuleState) (entry : FunctionEntry) (units : UInt64) : Nat :=
  state.location + units.toNat * entry.common.codeAlignment.toNat

/-- Execute one instruction.  `initial` holds the register rules to which single registers return. -/
def step? (entry : FunctionEntry) (initial : Nat → Option RegisterRule) (state : RuleState) :
    FrameInstruction → Option RuleState
  | .advance units => some (state.moveTo entry (state.advanced entry units))
  | .setLocation address =>
      if address.toNat < state.location then none else some (state.moveTo entry address.toNat)
  | .setRule register rule =>
      some { state with registers := Function.update state.registers register (some rule) }
  | .restore register =>
      some { state with registers := Function.update state.registers register (initial register) }
  | .rememberState => some { state with saved := (state.cfa, state.registers) :: state.saved }
  | .restoreState =>
      match state.saved with
      | (cfa, registers) :: saved => some { state with cfa, registers, saved }
      | [] => none
  | .defineCfa rule => some { state with cfa := some rule }
  | .defineCfaRegister register =>
      match state.cfa with
      | some (.registerPlus _ offset) =>
          some { state with cfa := some (.registerPlus register offset) }
      | _ => none
  | .defineCfaOffset offset =>
      match state.cfa with
      | some (.registerPlus register _) =>
          some { state with cfa := some (.registerPlus register offset) }
      | _ => none
  | .nop => some state

/-- The states after each of some instructions. -/
def trace? (entry : FunctionEntry) (initial : Nat → Option RegisterRule) :
    RuleState → List FrameInstruction → Option (List RuleState)
  | _, [] => some []
  | state, instruction :: rest =>
      (state.step? entry initial instruction).bind fun next =>
        (trace? entry initial next rest).map (next :: ·)

/-- No advance leads past the largest word, as far as the instructions can be executed. -/
def FitsWord (entry : FunctionEntry) (initial : Nat → Option RegisterRule) :
    RuleState → List FrameInstruction → Prop
  | _, [] => True
  | state, instruction :: rest =>
      (∀ units, instruction = .advance units → state.advanced entry units < UInt64.size) ∧
        ∀ next, state.step? entry initial instruction = some next →
          FitsWord entry initial next rest

/-- The state in force at an address: the one just before the location first moves past it. -/
def inForceAt (pc : Nat) : RuleState → List RuleState → RuleState
  | state, [] => state
  | state, next :: later => if pc < next.location then state else inForceAt pc next later

/-! ## States that follow each other -/

/-- The location never moves back, and it does not move past the end of the function. -/
theorem step?_location {entry : FunctionEntry} {initial : Nat → Option RegisterRule}
    {state next : RuleState} {instruction : FrameInstruction}
    (stepped : state.step? entry initial instruction = some next) :
    state.location ≤ next.location ∧ next.location ≤ max state.location entry.stop.toNat := by
  have moved (target : Nat) : state.location ≤ (state.moveTo entry target).location ∧
      (state.moveTo entry target).location ≤ max state.location entry.stop.toNat := by
    simp only [moveTo]
    omega
  have stayed {other : RuleState} (same : other.location = state.location) :
      state.location ≤ other.location ∧ other.location ≤ max state.location entry.stop.toNat :=
    ⟨Nat.le_of_eq same.symm, same ▸ Nat.le_max_left _ _⟩
  unfold step? at stepped
  split at stepped
  case h_1 => cases stepped; exact moved _
  case h_2 =>
      split at stepped
      · cases stepped
      · cases stepped; exact moved _
  case h_6 | h_8 | h_9 =>
      split at stepped
      · cases stepped; exact stayed rfl
      · cases stepped
  all_goals cases stepped; exact stayed rfl

theorem inForceAt_append_of_lt {pc : Nat} {state : RuleState} {earlier later : List RuleState}
    (lower : state.location ≤ pc) (upper : pc < (earlier.getLastD state).location) :
    inForceAt pc state (earlier ++ later) = inForceAt pc state earlier := by
  induction earlier generalizing state with
  | nil => exact absurd lower (Nat.not_le.mpr upper)
  | cons next rest ih =>
      rw [List.cons_append, inForceAt, inForceAt]
      by_cases here : pc < next.location
      · rw [if_pos here, if_pos here]
      · rw [if_neg here, if_neg here]
        rw [List.getLastD_cons] at upper
        exact ih (Nat.not_lt.mp here) upper

theorem inForceAt_append_of_le {pc : Nat} {state : RuleState} {earlier later : List RuleState}
    (reached : ∀ next ∈ earlier, next.location ≤ pc) :
    inForceAt pc state (earlier ++ later) = inForceAt pc (earlier.getLastD state) later := by
  induction earlier generalizing state with
  | nil => rfl
  | cons next rest ih =>
      have notPast : ¬ pc < next.location := Nat.not_lt.mpr (reached next (List.mem_cons_self ..))
      rw [List.cons_append, inForceAt, if_neg notPast, List.getLastD_cons]
      exact ih fun other member => reached other (List.mem_cons_of_mem _ member)

end RuleState

/-- The instructions of a function: those of its common entry, then its own. -/
structure FrameProgram where
  common : List FrameInstruction
  own : List FrameInstruction
  deriving DecidableEq, Repr

namespace FrameProgram

/-- Read a run of instructions without executing them. -/
def instructions (origin : FrameSection) (entry : FunctionEntry) (bytes : List UInt8)
    (offset : Nat) : Except Error (List FrameInstruction) :=
  (Decoder.many (FrameInstruction.decode ⟨origin, entry.common, entry.offset⟩)).run
    ((Cursor.start bytes offset origin.order).withAddressSize entry.common.addressSize)

/-- Read the instructions of a function. -/
def decode (origin : FrameSection) (entry : FunctionEntry) : Except Error FrameProgram := do
  let common ← instructions origin entry entry.common.instructions entry.common.instructionsOffset
  let own ← instructions origin entry entry.instructions entry.instructionsOffset
  return ⟨common, own⟩

/-- The states after each instruction.  While the common entry is executed there are no rules to
return to; afterwards these are the ones it has set. -/
def trace? (program : FrameProgram) (entry : FunctionEntry) : Option (List RuleState) :=
  let start := RuleState.start entry
  (start.trace? entry (fun _ => none) program.common).bind fun prepared =>
    let last := prepared.getLastD start
    (last.trace? entry last.registers program.own).map (prepared ++ ·)

/-- No advance of the program leads past the largest word. -/
def FitsWord (program : FrameProgram) (entry : FunctionEntry) : Prop :=
  let start := RuleState.start entry
  start.FitsWord entry (fun _ => none) program.common ∧
    ∀ prepared, start.trace? entry (fun _ => none) program.common = some prepared →
      (prepared.getLastD start).FitsWord entry (prepared.getLastD start).registers program.own

end FrameProgram

end Dwarf
