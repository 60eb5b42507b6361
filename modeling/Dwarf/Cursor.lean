import Dwarf.ByteOrder
import Dwarf.Error

/-! # Cursors

A cursor is a place in a window of bytes. The window is part of a section, `base` is the section
offset of its first byte, and the cursor carries the byte order and the sizes that reads need.
Reads only move forward: `Cursor.Reaches` relates a cursor to those that reads can lead to. -/

namespace Dwarf

/-- A place in a window of bytes. -/
structure Cursor where
  /-- The bytes that may be read. -/
  window : List UInt8
  /-- The number of bytes in the window. -/
  size : Nat
  /-- The number of bytes already passed. -/
  position : Nat
  /-- The bytes still to be read. -/
  rest : List UInt8
  /-- The section offset of the first byte of the window. -/
  base : Nat
  order : ByteOrder
  /-- The size of a target address in bytes. -/
  addressSize : Nat
  /-- The size of a section offset in bytes. -/
  offsetSize : Nat
  size_eq : size = window.length
  rest_eq : rest = window.drop position
  position_le : position ≤ size

namespace Cursor

/-- The start of a window, for eight-byte addresses and four-byte offsets. -/
def start (window : List UInt8) (base : Nat) (order : ByteOrder) : Cursor where
  window := window
  size := window.length
  position := 0
  rest := window
  base := base
  order := order
  addressSize := 8
  offsetSize := 4
  size_eq := rfl
  rest_eq := rfl
  position_le := Nat.zero_le _

/-- The same place with another address size. -/
def withAddressSize (cursor : Cursor) (size : Nat) : Cursor :=
  { cursor with addressSize := size }

/-- The same place with another offset size. -/
def withOffsetSize (cursor : Cursor) (size : Nat) : Cursor :=
  { cursor with offsetSize := size }

/-- The section offset of the next byte. -/
def offset (cursor : Cursor) : Nat :=
  cursor.base + cursor.position

/-- The number of bytes still to be read. -/
def remaining (cursor : Cursor) : Nat :=
  cursor.size - cursor.position

/-- Whether the whole window has been read. -/
def atEnd (cursor : Cursor) : Bool :=
  cursor.size ≤ cursor.position

theorem rest_length (cursor : Cursor) : cursor.rest.length = cursor.remaining := by
  simp [cursor.rest_eq, remaining, cursor.size_eq]

/-- The place `count` bytes further on. -/
def forward (cursor : Cursor) (count : Nat) (fits : count ≤ cursor.remaining) : Cursor :=
  { cursor with
    position := cursor.position + count
    rest := cursor.rest.drop count
    rest_eq := by rw [cursor.rest_eq, List.drop_drop]
    position_le := by
      have := cursor.position_le
      unfold remaining at fits
      omega }

/-- Move to a position of the window. -/
def seek (cursor : Cursor) (position : Nat) : Except Error Cursor :=
  if within : position ≤ cursor.size then
    .ok { cursor with
      position := position
      rest := cursor.window.drop position
      rest_eq := rfl
      position_le := within }
  else .error (.unexpectedEnd (cursor.base + position))

/-- One cursor can be reached from another by reading: it looks at the same window, and not at an
earlier place. Only the offset size may differ, since it is announced by the data. -/
structure Reaches (source target : Cursor) : Prop where
  window_eq : target.window = source.window
  base_eq : target.base = source.base
  order_eq : target.order = source.order
  addressSize_eq : target.addressSize = source.addressSize
  position_le : source.position ≤ target.position

namespace Reaches

theorem refl (cursor : Cursor) : Reaches cursor cursor :=
  ⟨rfl, rfl, rfl, rfl, Nat.le_refl _⟩

theorem trans {a b c : Cursor} (ab : Reaches a b) (bc : Reaches b c) : Reaches a c :=
  ⟨bc.window_eq.trans ab.window_eq, bc.base_eq.trans ab.base_eq,
    bc.order_eq.trans ab.order_eq, bc.addressSize_eq.trans ab.addressSize_eq,
    Nat.le_trans ab.position_le bc.position_le⟩

theorem forward (cursor : Cursor) (count : Nat) (fits : count ≤ cursor.remaining) :
    Reaches cursor (cursor.forward count fits) :=
  ⟨rfl, rfl, rfl, rfl, Nat.le_add_right _ _⟩

theorem withOffsetSize {source target : Cursor} (reached : Reaches source target) (size : Nat) :
    Reaches source (target.withOffsetSize size) :=
  ⟨reached.window_eq, reached.base_eq, reached.order_eq, reached.addressSize_eq,
    reached.position_le⟩

theorem size_eq {source target : Cursor} (reached : Reaches source target) :
    target.size = source.size := by
  rw [target.size_eq, source.size_eq, reached.window_eq]

/-- A place further on leaves fewer bytes to be read. -/
theorem remaining_lt {source target : Cursor} (reached : Reaches source target)
    (advanced : source.position < target.position) : target.remaining < source.remaining := by
  have size := reached.size_eq
  have within := target.position_le
  unfold remaining
  omega

end Reaches

end Cursor

end Dwarf
