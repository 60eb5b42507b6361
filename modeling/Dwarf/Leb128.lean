/-! # Variable-length integers

A LEB128 number is a run of bytes that each carry seven bits, least significant group first; the
high bit marks every byte but the last. The readers here deliver 64-bit words. A group that lies
wholly above bit 63 has to be padding; the group that straddles bit 63 keeps only its low bit.
The shift has no bound here; a shift of 32 bits agrees with it on every number of fewer than
`2 ^ 32 / 7` bytes. -/

namespace Dwarf.Leb128

variable {α : Type}

/-- Why a number could not be read. -/
inductive Fault where
  /-- The bytes end inside the number. -/
  | endOfData
  /-- A group above bit 63 is not padding. -/
  | outOfRange
  deriving DecidableEq, Repr

/-- The result of a read and the number of bytes it looked at. -/
structure Scan (α : Type) where
  result : Except Fault α
  used : Nat

/-- The seven bits that a byte contributes. -/
def group (byte : UInt8) : UInt8 :=
  byte &&& 0x7f

/-- Whether another byte follows. -/
def continues (byte : UInt8) : Bool :=
  byte &&& 0x80 ≠ 0

/-- Add the group of a byte at bit `shift`. Above bit 63 only the groups that `padding` accepts
may occur, and they change nothing. -/
def absorb (padding : UInt8 → Bool) (total : UInt64) (shift : Nat) (byte : UInt8) :
    Option UInt64 :=
  if shift < 64 then some (total ||| (group byte).toUInt64 <<< UInt64.ofNat shift)
  else if padding (group byte) then some total
  else none

/-- Read a number whose groups below `shift` are already in `total`, looking at `used` bytes so
far. At the last byte, `finish` makes the value from that byte, the bit after its group and the
bits read. -/
def readFrom (padding : UInt8 → Bool) (finish : UInt8 → Nat → UInt64 → α) (total : UInt64)
    (shift used : Nat) : List UInt8 → Scan α
  | [] => ⟨.error .endOfData, used⟩
  | byte :: rest =>
    match absorb padding total shift byte with
    | none => ⟨.error .outOfRange, used + 1⟩
    | some total =>
      if continues byte then readFrom padding finish total (shift + 7) (used + 1) rest
      else ⟨.ok (finish byte (shift + 7) total), used + 1⟩

/-- Padding of an unsigned number: groups of zeros. -/
def isZeroGroup (bits : UInt8) : Bool :=
  bits = 0

/-- Padding of a signed number: groups of zeros or of ones. -/
def isSignGroup (bits : UInt8) : Bool :=
  bits = 0 || bits = 0x7f

/-- The signed word denoted by groups that end at bit `shift`, the last of which was `byte`: its
bit 6 is the sign and fills the bits above. -/
def signedWord (byte : UInt8) (shift : Nat) (total : UInt64) : Int64 :=
  if shift < 64 ∧ byte &&& 0x40 ≠ 0 then
    (total ||| (0xffffffffffffffff : UInt64) <<< UInt64.ofNat shift).toInt64
  else total.toInt64

/-- Read an unsigned number at the start of a byte string. -/
def unsigned (bytes : List UInt8) : Scan UInt64 :=
  readFrom isZeroGroup (fun _ _ total => total) 0 0 0 bytes

/-- Read a signed number at the start of a byte string. -/
def signed (bytes : List UInt8) : Scan Int64 :=
  readFrom isSignGroup signedWord 0 0 0 bytes

theorem readFrom_used_le (padding : UInt8 → Bool) (finish : UInt8 → Nat → UInt64 → α)
    (total : UInt64) (shift used : Nat) (bytes : List UInt8) :
    (readFrom padding finish total shift used bytes).used ≤ used + bytes.length := by
  fun_induction readFrom padding finish total shift used bytes <;> simp_all
  omega

theorem lt_readFrom_used {padding : UInt8 → Bool} {finish : UInt8 → Nat → UInt64 → α}
    {total : UInt64} {shift used : Nat} {bytes : List UInt8} {value : α}
    (read : (readFrom padding finish total shift used bytes).result = .ok value) :
    used < (readFrom padding finish total shift used bytes).used := by
  fun_induction readFrom padding finish total shift used bytes <;> simp_all
  omega

theorem unsigned_used_le (bytes : List UInt8) : (unsigned bytes).used ≤ bytes.length := by
  simpa [unsigned] using readFrom_used_le isZeroGroup (fun _ _ total => total) 0 0 0 bytes

theorem signed_used_le (bytes : List UInt8) : (signed bytes).used ≤ bytes.length := by
  simpa [signed] using readFrom_used_le isSignGroup signedWord 0 0 0 bytes

theorem unsigned_used_pos {bytes : List UInt8} {value : UInt64}
    (read : (unsigned bytes).result = .ok value) : 0 < (unsigned bytes).used :=
  lt_readFrom_used read

theorem signed_used_pos {bytes : List UInt8} {value : Int64}
    (read : (signed bytes).result = .ok value) : 0 < (signed bytes).used :=
  lt_readFrom_used read

end Dwarf.Leb128
