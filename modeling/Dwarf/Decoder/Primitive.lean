import Dwarf.Decoder
import Dwarf.Leb128

/-! # Primitive reads

Byte strings, integers of fixed and of variable width, and terminated strings. A read that does
not fit fails at the offset where it began and leaves the cursor there; only a variable-length
integer has already passed the bytes it looked at. -/

namespace Dwarf.Decoder

/-- Read a byte string of a given length. -/
def bytes (count : Nat) : Decoder (List UInt8) := fun cursor =>
  if fits : count ≤ cursor.remaining then
    ⟨.ok (cursor.rest.take count), cursor.forward count fits, .forward cursor count fits⟩
  else ⟨.error (.unexpectedEnd cursor.offset), cursor, .refl cursor⟩

/-- Pass over a number of bytes. -/
def skip (count : Nat) : Decoder Unit :=
  bind (bytes count) fun _ => pure ()

/-- Read a byte string of a given positive length. -/
def nonemptyBytes (count : Nat) (positive : 0 < count) : Consuming (List UInt8) where
  read := bytes count
  advances cursor value read := by
    unfold bytes at read ⊢
    split
    · exact Nat.lt_add_of_pos_right positive
    next overlong => simp [overlong] at read

/-- Split off a cursor over the next bytes and pass over them. -/
def split (count : Nat) : Decoder Cursor := fun cursor =>
  if fits : count ≤ cursor.remaining then
    let inner := Cursor.start (cursor.rest.take count) cursor.offset cursor.order
    ⟨.ok ((inner.withAddressSize cursor.addressSize).withOffsetSize cursor.offsetSize),
      cursor.forward count fits, .forward cursor count fits⟩
  else ⟨.error (.unexpectedEnd cursor.offset), cursor, .refl cursor⟩

/-- Read an unsigned integer of a fixed positive width in bytes. -/
def fixed (count : Nat) (positive : 0 < count) : Consuming Nat :=
  (nonemptyBytes count positive).bind fun stored =>
    bind cursor fun cursor => pure (cursor.order.value stored)

def uint8 : Consuming UInt8 :=
  (fixed 1 (by decide)).map UInt8.ofNat

def uint16 : Consuming UInt16 :=
  (fixed 2 (by decide)).map UInt16.ofNat

def uint32 : Consuming UInt32 :=
  (fixed 4 (by decide)).map UInt32.ofNat

def uint64 : Consuming UInt64 :=
  (fixed 8 (by decide)).map UInt64.ofNat

def int8 : Consuming Int8 :=
  uint8.map UInt8.toInt8

def int16 : Consuming Int16 :=
  uint16.map UInt16.toInt16

def int32 : Consuming Int32 :=
  uint32.map UInt32.toInt32

def int64 : Consuming Int64 :=
  uint64.map UInt64.toInt64

/-- Fail for want of data at the current offset. -/
def failHere {α : Type} : Decoder α :=
  fun cursor => ⟨.error (.unexpectedEnd cursor.offset), cursor, .refl cursor⟩

/-- Read an unsigned integer of 1, 2, 4 or 8 bytes. Other widths do not occur and fail. -/
def sized (width : Nat) : Consuming UInt64 :=
  match width with
  | 1 => uint8.map UInt8.toUInt64
  | 2 => uint16.map UInt16.toUInt64
  | 4 => uint32.map UInt32.toUInt64
  | 8 => uint64
  | _ => ⟨failHere, fun _ _ read => by simp [failHere] at read⟩

/-- Read a target address. -/
def address : Consuming UInt64 where
  read cursor := (sized cursor.addressSize).read cursor
  advances cursor := (sized cursor.addressSize).advances cursor

/-- Read a section offset. -/
def sectionOffset : Consuming UInt64 where
  read cursor := (sized cursor.offsetSize).read cursor
  advances cursor := (sized cursor.offsetSize).advances cursor

/-- Where a failed read of a variable-length integer is reported: at the end of the data, or at
the start of a number that is out of range. -/
def leb128Error (cursor : Cursor) : Leb128.Fault → Error
  | .endOfData => .unexpectedEnd (cursor.base + cursor.size)
  | .outOfRange => .unexpectedEnd cursor.offset

/-- Read a variable-length integer with a scanner that stays within its bytes. -/
def leb128 {α : Type} (scan : List UInt8 → Leb128.Scan α)
    (used_le : ∀ bytes, (scan bytes).used ≤ bytes.length)
    (used_pos : ∀ {bytes value}, (scan bytes).result = .ok value → 0 < (scan bytes).used) :
    Consuming α where
  read cursor :=
    let scanned := scan cursor.rest
    have fits : scanned.used ≤ cursor.remaining := by
      rw [← cursor.rest_length]
      exact used_le cursor.rest
    ⟨scanned.result.mapError (leb128Error cursor), cursor.forward scanned.used fits,
      .forward cursor scanned.used fits⟩
  advances cursor value read := by
    have succeeded : (scan cursor.rest).result = .ok value := by
      change (scan cursor.rest).result.mapError (leb128Error cursor) = .ok value at read
      revert read
      cases (scan cursor.rest).result with
      | error fault => exact nofun
      | ok found => exact fun read => congrArg Except.ok (Except.ok.inj read)
    exact Nat.lt_add_of_pos_right (used_pos succeeded)

/-- Read an unsigned variable-length integer. -/
def unsigned : Consuming UInt64 :=
  leb128 Leb128.unsigned Leb128.unsigned_used_le Leb128.unsigned_used_pos

/-- Read a signed variable-length integer. -/
def signed : Consuming Int64 :=
  leb128 Leb128.signed Leb128.signed_used_le Leb128.signed_used_pos

theorem takeWhile_length_lt_of_zero_mem {bytes : List UInt8} (terminated : 0 ∈ bytes) :
    (bytes.takeWhile (· != 0)).length < bytes.length := by
  induction bytes with
  | nil => simp at terminated
  | cons byte rest ih =>
    by_cases zero : byte = 0
    · simp [zero]
    · have later : 0 ∈ rest := by
        rcases List.mem_cons.mp terminated with same | later
        · exact absurd same.symm zero
        · exact later
      simpa [List.takeWhile_cons, zero] using ih later

/-- Read a string and its terminating zero byte; the string excludes the terminator. -/
def cstring : Consuming (List UInt8) where
  read cursor :=
    if terminated : 0 ∈ cursor.rest then
      let text := cursor.rest.takeWhile (· != 0)
      have fits : text.length + 1 ≤ cursor.remaining := by
        rw [← cursor.rest_length]
        exact takeWhile_length_lt_of_zero_mem terminated
      ⟨.ok text, cursor.forward (text.length + 1) fits, .forward cursor _ fits⟩
    else ⟨.error (.unexpectedEnd (cursor.base + cursor.size)), cursor, .refl cursor⟩
  advances cursor value read := by
    dsimp only at read ⊢
    split
    · exact Nat.lt_add_of_pos_right (Nat.succ_pos _)
    next unterminated => simp [unterminated] at read

/-- Set the offset size announced by the data. -/
def setOffsetSize (size : Nat) : Decoder Unit := fun cursor =>
  ⟨.ok (), cursor.withOffsetSize size, (Cursor.Reaches.refl cursor).withOffsetSize size⟩

/-- Read the length of a unit, which also announces the size of its section offsets: the largest
32-bit number escapes to a 64-bit length and eight-byte offsets. -/
def initialLength : Consuming UInt64 :=
  uint32.bind fun length => do
    if length = 0xffffffff then
      setOffsetSize 8
      uint64
    else
      setOffsetSize 4
      return length.toUInt64

end Dwarf.Decoder

namespace Dwarf

/-- The terminated string at an offset of a byte string, without its terminator. -/
def cstringAt? (data : List UInt8) (offset : Nat) : Option (List UInt8) :=
  let rest := data.drop offset
  if 0 ∈ rest then some (rest.takeWhile (· != 0)) else none

end Dwarf
