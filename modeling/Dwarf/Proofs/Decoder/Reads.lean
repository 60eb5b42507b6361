import Dwarf.Proofs.Decoder.Confined
import Dwarf.Proofs.Decoder.Leb128

/-!
# What a read delivers

Every kind of read that a cursor offers delivers what is stored in the bytes that it passes, and in
nothing else.  A read of fixed size is done at once or not at all: it passes as many bytes as it asks
for, or it fails and the cursor stays where it is.
-/

namespace Dwarf

/-! ## Kinds of reads -/

/-- The reads that a cursor offers. -/
inductive Read where
  | uint8
  | uint16
  | uint32
  | uint64
  | int8
  | int16
  | int32
  | int64
  | sized (width : Nat)
  | address
  | sectionOffset
  | bytes (count : Nat)
  /-- An unsigned variable-length integer; a size of variable length is read in the same way. -/
  | unsigned
  | signed
  | cstring
  | initialLength
  deriving DecidableEq, Repr

/-- What a read delivers. -/
inductive ReadValue where
  | number (number : Int)
  | bytes (bytes : List UInt8)
  deriving DecidableEq, Repr

/-- The same answer with its value stated in another way. -/
def Reading.restate {α β : Type} {start : Cursor} (statement : α → β) (reading : Reading start α) :
    Reading start β :=
  ⟨reading.result.map statement, reading.next, reading.reached⟩

/-- State what a decoder delivers in another way. -/
def Decoder.restate {α β : Type} (statement : α → β) (decoder : Decoder α) : Decoder β :=
  fun cursor => (decoder cursor).restate statement

namespace Read

/-- The decoder of a kind of read. -/
def decoder : Read → Decoder ReadValue
  | uint8 => Decoder.uint8.read.restate fun word => .number word.toNat
  | uint16 => Decoder.uint16.read.restate fun word => .number word.toNat
  | uint32 => Decoder.uint32.read.restate fun word => .number word.toNat
  | uint64 => Decoder.uint64.read.restate fun word => .number word.toNat
  | int8 => Decoder.int8.read.restate fun word => .number word.toInt
  | int16 => Decoder.int16.read.restate fun word => .number word.toInt
  | int32 => Decoder.int32.read.restate fun word => .number word.toInt
  | int64 => Decoder.int64.read.restate fun word => .number word.toInt
  | sized width => (Decoder.sized width).read.restate fun word => .number word.toNat
  | address => Decoder.address.read.restate fun word => .number word.toNat
  | sectionOffset => Decoder.sectionOffset.read.restate fun word => .number word.toNat
  | bytes count => (Decoder.bytes count).restate .bytes
  | unsigned => Decoder.unsigned.read.restate fun word => .number word.toNat
  | signed => Decoder.signed.read.restate fun word => .number word.toInt
  | cstring => Decoder.cstring.read.restate .bytes
  | initialLength => Decoder.initialLength.read.restate fun word => .number word.toNat

/-- The number of bytes that a read of fixed size asks for at a cursor. -/
def width? (cursor : Cursor) : Read → Option Nat
  | uint8 | int8 => some 1
  | uint16 | int16 => some 2
  | uint32 | int32 => some 4
  | uint64 | int64 => some 8
  | sized width => some width
  | address => some cursor.addressSize
  | sectionOffset => some cursor.offsetSize
  | bytes count => some count
  | unsigned | signed | cstring | initialLength => none

/-- What a read of fixed size makes of the bytes that it passes. -/
def ofStored (order : ByteOrder) (stored : List UInt8) : Read → ReadValue
  | int8 | int16 | int32 | int64 => .number (Int.bmod (order.value stored) (256 ^ stored.length))
  | bytes _ => .bytes stored
  | _ => .number (order.value stored)

/-- A byte string stores what a read delivers, in the byte order and with the sizes of a cursor. -/
inductive Conveys (cursor : Cursor) : Read → List UInt8 → ReadValue → Prop where
  | fixed {kind : Read} {stored : List UInt8} (width : kind.width? cursor = some stored.length) :
      Conveys cursor kind stored (kind.ofStored cursor.order stored)
  | unsigned {stored : List UInt8} {word : UInt64}
      (scanned : Leb128.unsigned stored = ⟨.ok word, stored.length⟩) :
      Conveys cursor .unsigned stored (.number word.toNat)
  | signed {stored : List UInt8} {word : Int64}
      (scanned : Leb128.signed stored = ⟨.ok word, stored.length⟩) :
      Conveys cursor .signed stored (.number word.toInt)
  | cstring {text : List UInt8} (nonzero : ∀ byte ∈ text, byte ≠ 0) :
      Conveys cursor .cstring (text ++ [0]) (.bytes text)
  | short {stored : List UInt8} (length : stored.length = 4)
      (unescaped : cursor.order.value stored ≠ 0xffffffff) :
      Conveys cursor .initialLength stored (.number (cursor.order.value stored))
  | escaped {escape stored : List UInt8} (escape_length : escape.length = 4)
      (escaped : cursor.order.value escape = 0xffffffff) (length : stored.length = 8) :
      Conveys cursor .initialLength (escape ++ stored) (.number (cursor.order.value stored))

end Read

namespace Cursor

variable {cursor next : Cursor}

/-- The bytes from one place to another. -/
def passedTo (cursor next : Cursor) : List UInt8 :=
  cursor.rest.take (next.position - cursor.position)

theorem length_take (cursor : Cursor) {count : Nat} (fits : count ≤ cursor.remaining) :
    (cursor.rest.take count).length = count :=
  List.length_take_of_le (cursor.rest_length ▸ fits)

theorem passedTo_of_position {count : Nat} (moved : next.position = cursor.position + count) :
    cursor.passedTo next = cursor.rest.take count := by
  rw [passedTo, moved, Nat.add_sub_cancel_left]

theorem Passed.passedTo_eq {bytes : List UInt8} (passed : cursor.Passed bytes next) :
    cursor.passedTo next = bytes := by
  obtain ⟨fits, rfl⟩ := passed.forward_eq
  rw [passedTo_of_position rfl, passed.rest_eq, List.take_left]

end Cursor

namespace Decoder

variable {α β : Type} {cursor : Cursor}

/-! ## All or nothing -/

/-- A reading that passes the next bytes and delivers a value, or fails for want of data where it
began. -/
inductive AllOrNothing (cursor : Cursor) (count : Nat) (value : α) : Reading cursor α → Prop where
  | all (fits : count ≤ cursor.remaining) : AllOrNothing cursor count value
      ⟨.ok value, cursor.forward count fits, .forward cursor count fits⟩
  | nothing : AllOrNothing cursor count value
      ⟨.error (.unexpectedEnd cursor.offset), cursor, .refl cursor⟩

theorem AllOrNothing.restate {count : Nat} {value : α} {reading : Reading cursor α}
    (answer : AllOrNothing cursor count value reading) (statement : α → β) :
    AllOrNothing cursor count (statement value) (reading.restate statement) := by
  cases answer with
  | all fits => exact .all fits
  | nothing => exact .nothing

theorem AllOrNothing.congr {count : Nat} {value other : α} {reading : Reading cursor α}
    (answer : AllOrNothing cursor count value reading)
    (same : count ≤ cursor.remaining → value = other) :
    AllOrNothing cursor count other reading := by
  cases answer with
  | all fits =>
      rw [same fits]
      exact .all fits
  | nothing => exact .nothing

theorem AllOrNothing.of_ok {count : Nat} {value delivered : α} {reading : Reading cursor α}
    (answer : AllOrNothing cursor count value reading) (read : reading.result = .ok delivered) :
    ∃ fits, delivered = value ∧ reading.next = cursor.forward count fits := by
  cases answer with
  | all fits => exact ⟨fits, (Except.ok.inj read).symm, rfl⟩
  | nothing => cases read

theorem AllOrNothing.of_error {count : Nat} {value : α} {error : Error}
    {reading : Reading cursor α} (answer : AllOrNothing cursor count value reading)
    (failed : reading.result = .error error) : reading.next = cursor := by
  cases answer with
  | all fits => cases failed
  | nothing => rfl

theorem PlainAs.allOrNothing {decoder : Decoder α} {count : Nat}
    {value : ByteOrder → List UInt8 → α} (reads : decoder.PlainAs count value) (cursor : Cursor) :
    AllOrNothing cursor count (value cursor.order (cursor.rest.take count)) (decoder cursor) := by
  rw [reads cursor]
  split
  next fits => exact .all fits
  next => exact .nothing

theorem plainAs_skip (count : Nat) : (skip count).PlainAs count fun _ _ => () :=
  (plainAs_bytes count).bind_pure fun _ _ => ()

/-- The cursor that is split off over the next bytes. -/
def splitOff (cursor : Cursor) (count : Nat) : Cursor :=
  ((Cursor.start (cursor.rest.take count) cursor.offset cursor.order).withAddressSize
    cursor.addressSize).withOffsetSize cursor.offsetSize

theorem split_allOrNothing (cursor : Cursor) (count : Nat) :
    AllOrNothing cursor count (splitOff cursor count) (split count cursor) := by
  unfold split
  split
  next fits => exact .all fits
  next => exact .nothing

/-! ## Words of fixed width -/

theorem plainAs_uint8 :
    uint8.read.PlainAs 1 fun order stored => UInt8.ofNat (order.value stored) :=
  (plainAs_fixed 1 _).map _

theorem plainAs_uint16 :
    uint16.read.PlainAs 2 fun order stored => UInt16.ofNat (order.value stored) :=
  (plainAs_fixed 2 _).map _

theorem plainAs_uint32 :
    uint32.read.PlainAs 4 fun order stored => UInt32.ofNat (order.value stored) :=
  (plainAs_fixed 4 _).map _

theorem plainAs_uint64 :
    uint64.read.PlainAs 8 fun order stored => UInt64.ofNat (order.value stored) :=
  (plainAs_fixed 8 _).map _

section

variable (order : ByteOrder) {stored : List UInt8}

theorem toNat_word {width : Nat} (length : stored.length = width) :
    (BitVec.ofNat (8 * width) (order.value stored)).toNat = order.value stored := by
  rw [BitVec.toNat_ofNat, Nat.mod_eq_of_lt (length ▸ order.value_lt stored)]

theorem toInt_word {width : Nat} (length : stored.length = width) :
    (BitVec.ofNat (8 * width) (order.value stored)).toInt =
      Int.bmod (order.value stored) (256 ^ stored.length) := by
  rw [BitVec.toInt_eq_toNat_bmod, toNat_word order length, Nat.pow_mul, length]

theorem toNat_uint8 (length : stored.length = 1) :
    (UInt8.ofNat (order.value stored)).toNat = order.value stored :=
  toNat_word order length

theorem toNat_uint16 (length : stored.length = 2) :
    (UInt16.ofNat (order.value stored)).toNat = order.value stored :=
  toNat_word order length

theorem toNat_uint32 (length : stored.length = 4) :
    (UInt32.ofNat (order.value stored)).toNat = order.value stored :=
  toNat_word order length

theorem toNat_uint64 (length : stored.length = 8) :
    (UInt64.ofNat (order.value stored)).toNat = order.value stored :=
  toNat_word order length

theorem toInt_int8 (length : stored.length = 1) :
    (UInt8.ofNat (order.value stored)).toInt8.toInt =
      Int.bmod (order.value stored) (256 ^ stored.length) :=
  toInt_word order length

theorem toInt_int16 (length : stored.length = 2) :
    (UInt16.ofNat (order.value stored)).toInt16.toInt =
      Int.bmod (order.value stored) (256 ^ stored.length) :=
  toInt_word order length

theorem toInt_int32 (length : stored.length = 4) :
    (UInt32.ofNat (order.value stored)).toInt32.toInt =
      Int.bmod (order.value stored) (256 ^ stored.length) :=
  toInt_word order length

theorem toInt_int64 (length : stored.length = 8) :
    (UInt64.ofNat (order.value stored)).toInt64.toInt =
      Int.bmod (order.value stored) (256 ^ stored.length) :=
  toInt_word order length

end

section

variable {decoder : Decoder α} {count : Nat} {value : ByteOrder → List UInt8 → α}

theorem PlainAs.allOrNothing_toNat (reads : decoder.PlainAs count value) {toNat : α → Nat}
    (same : ∀ order {stored}, stored.length = count → toNat (value order stored) = order.value stored)
    (cursor : Cursor) :
    AllOrNothing cursor count (.number (cursor.order.value (cursor.rest.take count)))
      ((decoder cursor).restate fun word => ReadValue.number (toNat word)) := by
  refine ((reads.allOrNothing cursor).restate _).congr fun fits => ?_
  rw [same _ (cursor.length_take fits)]

theorem PlainAs.allOrNothing_toInt (reads : decoder.PlainAs count value) {toInt : α → Int}
    (same : ∀ order {stored}, stored.length = count →
      toInt (value order stored) = Int.bmod (order.value stored) (256 ^ stored.length))
    (cursor : Cursor) :
    AllOrNothing cursor count
      (.number (Int.bmod (cursor.order.value (cursor.rest.take count))
        (256 ^ (cursor.rest.take count).length)))
      ((decoder cursor).restate fun word => ReadValue.number (toInt word)) := by
  refine ((reads.allOrNothing cursor).restate _).congr fun fits => ?_
  rw [same _ (cursor.length_take fits)]

end

theorem sized_allOrNothing (cursor : Cursor) (width : Nat) :
    AllOrNothing cursor width (ReadValue.number (cursor.order.value (cursor.rest.take width)))
      (((sized width).read cursor).restate fun word => .number word.toNat) := by
  unfold sized
  split
  · exact (plainAs_uint8.map UInt8.toUInt64).allOrNothing_toNat
      (fun order _ length => (UInt8.toNat_toUInt64 _).trans (toNat_uint8 order length)) cursor
  · exact (plainAs_uint16.map UInt16.toUInt64).allOrNothing_toNat
      (fun order _ length => (UInt16.toNat_toUInt64 _).trans (toNat_uint16 order length)) cursor
  · exact (plainAs_uint32.map UInt32.toUInt64).allOrNothing_toNat
      (fun order _ length => (UInt32.toNat_toUInt64 _).trans (toNat_uint32 order length)) cursor
  · exact plainAs_uint64.allOrNothing_toNat toNat_uint64 cursor
  · exact .nothing

/-- A read of fixed size passes its bytes and delivers what they store, or it fails where it
began. -/
theorem read_allOrNothing {kind : Read} {count : Nat} (width : kind.width? cursor = some count) :
    AllOrNothing cursor count (kind.ofStored cursor.order (cursor.rest.take count))
      (kind.decoder cursor) := by
  cases kind with
  | uint8 =>
      cases width
      exact plainAs_uint8.allOrNothing_toNat toNat_uint8 cursor
  | uint16 =>
      cases width
      exact plainAs_uint16.allOrNothing_toNat toNat_uint16 cursor
  | uint32 =>
      cases width
      exact plainAs_uint32.allOrNothing_toNat toNat_uint32 cursor
  | uint64 =>
      cases width
      exact plainAs_uint64.allOrNothing_toNat toNat_uint64 cursor
  | int8 =>
      cases width
      exact (plainAs_uint8.map UInt8.toInt8).allOrNothing_toInt toInt_int8 cursor
  | int16 =>
      cases width
      exact (plainAs_uint16.map UInt16.toInt16).allOrNothing_toInt toInt_int16 cursor
  | int32 =>
      cases width
      exact (plainAs_uint32.map UInt32.toInt32).allOrNothing_toInt toInt_int32 cursor
  | int64 =>
      cases width
      exact (plainAs_uint64.map UInt64.toInt64).allOrNothing_toInt toInt_int64 cursor
  | sized size =>
      cases width
      exact sized_allOrNothing cursor _
  | address =>
      cases width
      exact sized_allOrNothing cursor cursor.addressSize
  | sectionOffset =>
      cases width
      exact sized_allOrNothing cursor cursor.offsetSize
  | bytes count =>
      cases width
      exact ((plainAs_bytes count).allOrNothing cursor).restate _
  | unsigned => cases width
  | signed => cases width
  | cstring => cases width
  | initialLength => cases width

/-! ## Reads of any size -/

theorem conveys_fixed {kind : Read} {count : Nat} (width : kind.width? cursor = some count)
    {value : ReadValue} (read : (kind.decoder cursor).result = .ok value) :
    kind.Conveys cursor (cursor.passedTo (kind.decoder cursor).next) value := by
  obtain ⟨fits, rfl, next⟩ := (read_allOrNothing width).of_ok read
  rw [next, Cursor.passedTo_of_position rfl]
  exact .fixed (by rw [cursor.length_take fits, width])

theorem conveys_cstring {text : List UInt8} (read : (cstring.read cursor).result = .ok text) :
    Read.Conveys cursor .cstring (cursor.passedTo (cstring.read cursor).next) (.bytes text) := by
  unfold cstring at read ⊢
  dsimp only at read ⊢
  split at read
  next terminated =>
    rw [dif_pos terminated]
    cases read
    obtain ⟨behind, split⟩ := eq_takeWhile_append terminated
    have passed : cursor.rest.take ((cursor.rest.takeWhile (· != 0)).length + 1) =
        cursor.rest.takeWhile (· != 0) ++ [0] := by
      have front := congrArg (List.take (cursor.rest.takeWhile (· != 0) ++ [0]).length) split
      rwa [List.take_left, List.length_append] at front
    rw [Cursor.passedTo_of_position rfl, passed]
    refine .cstring fun byte member => ?_
    simpa using List.all_eq_true.mp List.all_takeWhile byte member
  next => cases read

/-- A length field is its first word, or an escape and the word that follows. -/
theorem conveys_initialLength {word : UInt64}
    (read : (initialLength.read cursor).result = .ok word) :
    Read.Conveys cursor .initialLength (cursor.passedTo (initialLength.read cursor).next)
      (.number word.toNat) := by
  rw [initialLength_read] at read ⊢
  obtain ⟨length, length_read, rest_read⟩ := bind_result_eq_ok.mp read
  obtain ⟨fits, rfl, middle⟩ :=
    (plainAs_uint32.allOrNothing cursor).of_ok length_read
  have length_eq := toNat_uint32 cursor.order (cursor.length_take fits)
  rw [bind_next length_read]
  rw [middle] at rest_read ⊢
  unfold lengthAfter at rest_read ⊢
  split at rest_read
  next escaped =>
    rw [if_pos escaped]
    let announced := (cursor.forward 4 fits).withOffsetSize 8
    have set : (setOffsetSize 8 (cursor.forward 4 fits)).result = .ok () := rfl
    rw [bind_result set] at rest_read
    obtain ⟨more, rfl, last⟩ :=
      (plainAs_uint64.allOrNothing announced).of_ok rest_read
    rw [bind_next set]
    have passed : cursor.passedTo (announced.forward 8 more) =
        cursor.rest.take 4 ++ announced.rest.take 8 := by
      rw [Cursor.passedTo_of_position (Nat.add_assoc cursor.position 4 8), List.take_add]
      rfl
    change Read.Conveys cursor .initialLength
      (cursor.passedTo (uint64.read announced).next) _
    rw [last, passed, toNat_uint64 _ (announced.length_take more)]
    refine .escaped (cursor.length_take fits) ?_ (announced.length_take more)
    rw [← length_eq, escaped]
    rfl
  next unescaped =>
    rw [if_neg unescaped]
    cases rest_read
    have passed : cursor.passedTo ((cursor.forward 4 fits).withOffsetSize 4) = cursor.rest.take 4 :=
      Cursor.passedTo_of_position rfl
    change Read.Conveys cursor .initialLength
      (cursor.passedTo ((cursor.forward 4 fits).withOffsetSize 4)) _
    rw [passed, UInt32.toNat_toUInt64, length_eq]
    refine .short (cursor.length_take fits) fun same => unescaped ?_
    rw [← UInt32.toNat_inj, length_eq, same]
    rfl

/-- A read delivers what is stored in the bytes that it passes. -/
theorem conveys_of_read {kind : Read} {value : ReadValue}
    (read : (kind.decoder cursor).result = .ok value) :
    kind.Conveys cursor (cursor.passedTo (kind.decoder cursor).next) value := by
  cases width : kind.width? cursor with
  | some count => exact conveys_fixed width read
  | none =>
      cases kind with
      | unsigned =>
          obtain ⟨word, scanned, rfl⟩ := map_eq_ok_iff.mp read
          obtain ⟨stored, recognizes, passed⟩ := local_unsigned.passed scanned
          have stored_eq : cursor.passedTo (Read.unsigned.decoder cursor).next = stored :=
            passed.passedTo_eq
          rw [stored_eq]
          exact .unsigned (recognizes_unsigned_iff.mp recognizes)
      | signed =>
          obtain ⟨word, scanned, rfl⟩ := map_eq_ok_iff.mp read
          obtain ⟨stored, recognizes, passed⟩ := local_signed.passed scanned
          have stored_eq : cursor.passedTo (Read.signed.decoder cursor).next = stored :=
            passed.passedTo_eq
          rw [stored_eq]
          exact .signed (recognizes_signed_iff.mp recognizes)
      | cstring =>
          obtain ⟨text, found, rfl⟩ := map_eq_ok_iff.mp read
          exact conveys_cstring found
      | initialLength =>
          obtain ⟨word, found, rfl⟩ := map_eq_ok_iff.mp read
          exact conveys_initialLength found
      | _ => cases width

end Decoder

end Dwarf
