import Dwarf.Error

/-! # Targets

A target is a stopped program whose registers and memory can be read. Reading is the only effect
of an evaluation: `Access` records every read of a target in order, also those that fail. Where
there is no target every read fails and none is recorded. -/

namespace Dwarf

variable {α : Type}

/-- A stopped program. -/
structure Target where
  register : Nat → Except AccessFault UInt64
  /-- The bytes from an address on. A target may deliver fewer than it was asked for. -/
  memory : UInt64 → Nat → Except AccessFault (List UInt8)

/-- A read that a target was asked for. -/
inductive TargetRead where
  | register (number : Nat)
  | memory (address : UInt64) (length : Nat)
  deriving DecidableEq, Repr

/-- A computation that may read a target and may fail. -/
abbrev Access (α : Type) : Type :=
  ReaderT (Option Target) (ExceptT Error (StateM (Array TargetRead))) α

namespace Access

/-- The result of a computation and the reads it made. -/
def run (access : Access α) (target : Option Target) : Except Error α × Array TargetRead :=
  (ReaderT.run access target).run.run #[]

/-- A result that needs no target. -/
def ofExcept (result : Except Error α) : Access α :=
  fun _ => ExceptT.mk (pure result)

/-- A read of a target as a result. -/
def ofRead (result : Except AccessFault α) : Access α :=
  ofExcept (result.mapError Error.targetAccess)

/-- Note a read that the target is asked for. -/
def note (read : TargetRead) : Access Unit :=
  modify fun reads => reads.push read

/-- Read a register. -/
def register (number : Nat) : Access UInt64 := do
  match ← read with
  | none => throw (.targetAccess (.registerWithoutTarget number))
  | some target =>
    note (.register number)
    ofRead (target.register number)

/-- Read memory. -/
def memory (address : UInt64) (length : Nat) : Access (List UInt8) := do
  match ← read with
  | none => throw (.targetAccess (.memoryWithoutTarget address))
  | some target =>
    note (.memory address length)
    ofRead (target.memory address length)

/-- The outcome of a computation as a value, so that others can go on after a failure. -/
def attempt (access : Access α) : Access (Except Error α) :=
  tryCatch (Except.ok <$> access) fun error => pure (.error error)

end Access

end Dwarf
