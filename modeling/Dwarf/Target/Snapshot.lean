import Dwarf.Target

/-! # Snapshots

A snapshot is a target whose registers and memory have been saved. -/

namespace Dwarf

/-- Saved bytes and the address of the first. -/
structure Region where
  start : UInt64
  bytes : List UInt8
  deriving DecidableEq, Repr, Inhabited

/-- The byte at an address, if the region holds it. -/
def Region.byte? (region : Region) (address : UInt64) : Option UInt8 :=
  if region.start ≤ address then region.bytes[address.toNat - region.start.toNat]? else none

/-- Saved registers and memory. Of several entries for one register or address the first counts. -/
structure Snapshot where
  registers : List (Nat × UInt64) := []
  regions : List Region := []
  /-- Whether a read that meets an unmapped byte delivers the bytes before it. -/
  deliversShort : Bool := false
  deriving DecidableEq, Repr, Inhabited

namespace Snapshot

/-- The saved byte at an address. -/
def byte? (snapshot : Snapshot) (address : UInt64) : Option UInt8 :=
  snapshot.regions.findSome? fun region => region.byte? address

/-- The saved bytes from an address on; addresses go on at zero after the largest. -/
def memory (snapshot : Snapshot) (address : UInt64) : Nat → Except AccessFault (List UInt8)
  | 0 => .ok []
  | length + 1 =>
    match snapshot.byte? address with
    | some byte => (snapshot.memory (address + 1) length).map (byte :: ·)
    | none => if snapshot.deliversShort then .ok [] else .error (.unmapped address)

/-- The value of a register. -/
def register (snapshot : Snapshot) (number : Nat) : Except AccessFault UInt64 :=
  match snapshot.registers.lookup number with
  | some value => .ok value
  | none => .error (.noRegister number)

/-- The target that a snapshot stands for. -/
def target (snapshot : Snapshot) : Target where
  register := snapshot.register
  memory := snapshot.memory

end Snapshot

end Dwarf
