import Dwarf.Decoder.Primitive
import Dwarf.Frame.Section

/-! # Encoded pointers

An encoded pointer begins with a byte that its context supplies: the low bits give the format,
the middle bits what the value is relative to, and the high bit an indirection. Formats with and
without sign are read; a value is absolute or relative to the place where it is stored. -/

namespace Dwarf

/-- The encoding of a pointer. -/
structure PointerEncoding where
  code : UInt8
  deriving DecidableEq, Repr, Inhabited

namespace PointerEncoding

/-- An absolute pointer of the size of an address. -/
def absolute : PointerEncoding := ⟨0x00⟩

/-- There is no pointer. -/
def omitted : PointerEncoding := ⟨0xff⟩

/-- The same format for an absolute value. -/
def formatOnly (encoding : PointerEncoding) : PointerEncoding :=
  ⟨encoding.code &&& 0x0f⟩

/-- Read the stored number of a format; `none` for an unknown format. -/
def stored? (encoding : PointerEncoding) : Option (Decoder UInt64) :=
  match encoding.code &&& 0x0f with
  | 0x00 => some do Decoder.address
  | 0x01 => some do Decoder.unsigned
  | 0x02 => some do return (← Decoder.uint16).toUInt64
  | 0x03 => some do return (← Decoder.uint32).toUInt64
  | 0x04 => some do Decoder.uint64
  | 0x09 => some do return (← Decoder.signed).toUInt64
  | 0x0a => some do return (← Decoder.int16).toInt64.toUInt64
  | 0x0b => some do return (← Decoder.int32).toInt64.toUInt64
  | 0x0c => some do return (← Decoder.int64).toUInt64
  | _ => none

/-- The pointer that a number stored at an address stands for. -/
def apply (encoding : PointerEncoding) (place value : UInt64) (addressSize entry : Nat) :
    Except Error UInt64 :=
  match encoding.code &&& 0x70 with
  | 0x00 => .ok (value &&& largestAddress addressSize)
  | 0x10 => .ok ((place + value) &&& largestAddress addressSize)
  | application => .error (.malformedCallFrame entry (.pointerApplication application))

/-- Read a pointer of the entry at `entry`. -/
def decode (encoding : PointerEncoding) (origin : FrameSection) (entry : Nat) :
    Decoder UInt64 := do
  if encoding = omitted then throw (.malformedCallFrame entry .pointerOmitted)
  else if encoding.code &&& 0x80 ≠ 0 then throw (.malformedCallFrame entry .indirectPointer)
  else
    let cursor ← Decoder.cursor
    let some stored := encoding.stored?
      | throw (.malformedCallFrame entry (.pointerFormat encoding.code))
    let value ← stored.mapError (FrameDefect.restate entry .pointerPastEntry)
    let place := origin.address + UInt64.ofNat cursor.offset
    Decoder.ofExcept (encoding.apply place value cursor.addressSize entry)

end PointerEncoding

end Dwarf
