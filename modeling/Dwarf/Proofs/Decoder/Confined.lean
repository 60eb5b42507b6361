import Dwarf.Decoder.Primitive
import Dwarf.Proofs.Decoder.Passes

/-!
# Decoders that see no more than they pass

A read of a fixed number of bytes depends on these bytes alone, and it fails only for want of data.
What is built of such reads is confined: even when it fails, it has looked at nothing behind the
place where it stopped.  So it gives the same answer on two windows that differ only further on.
-/

namespace Dwarf

/-- Two cursors at the same place of windows that have the same size and agree below a position. -/
structure Cursor.AgreeBelow (limit : Nat) (cursor other : Cursor) : Prop where
  size_eq : other.size = cursor.size
  position_eq : other.position = cursor.position
  base_eq : other.base = cursor.base
  order_eq : other.order = cursor.order
  addressSize_eq : other.addressSize = cursor.addressSize
  offsetSize_eq : other.offsetSize = cursor.offsetSize
  window_eq : other.window.take limit = cursor.window.take limit

namespace Cursor.AgreeBelow

variable {limit : Nat} {cursor other : Cursor}

theorem offset_eq (agree : cursor.AgreeBelow limit other) : other.offset = cursor.offset := by
  rw [offset, offset, agree.base_eq, agree.position_eq]

theorem remaining_eq (agree : cursor.AgreeBelow limit other) :
    other.remaining = cursor.remaining := by
  rw [remaining, remaining, agree.size_eq, agree.position_eq]

theorem take_rest (agree : cursor.AgreeBelow limit other) {count : Nat}
    (below : cursor.position + count ≤ limit) : other.rest.take count = cursor.rest.take count := by
  have split (window : List UInt8) (position : Nat) (within : position + count ≤ limit) :
      (window.drop position).take count = ((window.take limit).drop position).take count := by
    rw [List.drop_take, List.take_take, Nat.min_eq_left (by omega)]
  rw [other.rest_eq, cursor.rest_eq, agree.position_eq, split _ _ below, split cursor.window _ below,
    agree.window_eq]

theorem forward (agree : cursor.AgreeBelow limit other) {count : Nat}
    (fits : count ≤ cursor.remaining) (other_fits : count ≤ other.remaining) :
    (cursor.forward count fits).AgreeBelow limit (other.forward count other_fits) :=
  { agree with position_eq := congrArg (· + count) agree.position_eq }

end Cursor.AgreeBelow

namespace Decoder

variable {α β : Type}

/-- The decoder reads a fixed number of bytes, and `value` makes its value of them and the byte
order. -/
def PlainAs (decoder : Decoder α) (count : Nat) (value : ByteOrder → List UInt8 → α) : Prop :=
  ∀ cursor, decoder cursor =
    if fits : count ≤ cursor.remaining then
      ⟨.ok (value cursor.order (cursor.rest.take count)), cursor.forward count fits,
        .forward cursor count fits⟩
    else ⟨.error (.unexpectedEnd cursor.offset), cursor, .refl cursor⟩

/-- The decoder reads a fixed number of bytes and makes its value of them and the byte order. -/
def Plain (decoder : Decoder α) (count : Nat) : Prop :=
  ∃ value : ByteOrder → List UInt8 → α, ∀ cursor, decoder cursor =
    if fits : count ≤ cursor.remaining then
      ⟨.ok (value cursor.order (cursor.rest.take count)), cursor.forward count fits,
        .forward cursor count fits⟩
    else ⟨.error (.unexpectedEnd cursor.offset), cursor, .refl cursor⟩

/-- Whether it succeeds or fails, the decoder sees nothing behind the place where it stops. -/
def Confined (decoder : Decoder α) : Prop :=
  ∀ ⦃limit : Nat⦄ ⦃cursor other : Cursor⦄, cursor.AgreeBelow limit other →
    (decoder cursor).next.position ≤ limit →
      (decoder other).result = (decoder cursor).result ∧
        (decoder cursor).next.AgreeBelow limit (decoder other).next

/-! ## Plain reads -/

theorem plainAs_bytes (count : Nat) : (Decoder.bytes count).PlainAs count fun _ stored => stored :=
  fun _ => rfl

theorem PlainAs.plain {decoder : Decoder α} {count : Nat} {value : ByteOrder → List UInt8 → α}
    (reads : decoder.PlainAs count value) : decoder.Plain count :=
  ⟨value, reads⟩

theorem plain_bytes (count : Nat) : (Decoder.bytes count).Plain count :=
  (plainAs_bytes count).plain

theorem PlainAs.bind_pure {decoder : Decoder α} {count : Nat} {value : ByteOrder → List UInt8 → α}
    (reads : decoder.PlainAs count value) (f : ByteOrder → α → β) :
    (bind decoder fun value => bind cursor fun cursor => pure (f cursor.order value)).PlainAs count
      fun order stored => f order (value order stored) := by
  intro cursor
  unfold bind
  rw [reads cursor]
  split
  · rfl
  · rfl

theorem Plain.bind_pure {decoder : Decoder α} {count : Nat} (plain : decoder.Plain count)
    (f : ByteOrder → α → β) :
    (bind decoder fun value => bind cursor fun cursor => pure (f cursor.order value)).Plain
      count := by
  obtain ⟨_, reads⟩ := plain
  exact (PlainAs.bind_pure reads f).plain

theorem plainAs_fixed (count : Nat) (positive : 0 < count) :
    (fixed count positive).read.PlainAs count ByteOrder.value :=
  (plainAs_bytes count).bind_pure fun order stored => order.value stored

theorem plain_fixed (count : Nat) (positive : 0 < count) : (fixed count positive).read.Plain count :=
  (plainAs_fixed count positive).plain

theorem PlainAs.map {decoder : Consuming α} {count : Nat} {value : ByteOrder → List UInt8 → α}
    (reads : decoder.read.PlainAs count value) (f : α → β) :
    (decoder.map f).read.PlainAs count fun order stored => f (value order stored) :=
  reads.bind_pure fun _ => f

theorem Plain.map {decoder : Consuming α} {count : Nat} (plain : decoder.read.Plain count)
    (f : α → β) : (decoder.map f).read.Plain count :=
  plain.bind_pure fun _ => f

theorem plain_uint8 : uint8.read.Plain 1 := (plain_fixed 1 _).map _

theorem plain_uint16 : uint16.read.Plain 2 := (plain_fixed 2 _).map _

theorem plain_uint32 : uint32.read.Plain 4 := (plain_fixed 4 _).map _

theorem plain_uint64 : uint64.read.Plain 8 := (plain_fixed 8 _).map _

theorem Plain.next {decoder : Decoder α} {count : Nat} (plain : decoder.Plain count)
    {cursor : Cursor} {value : α} (read : (decoder cursor).result = .ok value) :
    (decoder cursor).next.offset = cursor.offset + count ∧
      (decoder cursor).next.offsetSize = cursor.offsetSize := by
  obtain ⟨_, reads⟩ := plain
  rw [reads cursor] at read ⊢
  split at read
  next fits =>
    rw [dif_pos fits]
    exact ⟨(Nat.add_assoc _ _ _).symm, rfl⟩
  next => cases read

theorem Plain.succeeds {decoder : Decoder α} {count : Nat} (plain : decoder.Plain count)
    {cursor : Cursor} (fits : count ≤ cursor.remaining) :
    ∃ value, (decoder cursor).result = .ok value := by
  obtain ⟨value, reads⟩ := plain
  exact ⟨_, by rw [reads, dif_pos fits]⟩

theorem Plain.error {decoder : Decoder α} {count : Nat} (plain : decoder.Plain count)
    {cursor : Cursor} {error : Error} (failed : (decoder cursor).result = .error error) :
    error = .unexpectedEnd cursor.offset := by
  obtain ⟨_, reads⟩ := plain
  rw [reads cursor] at failed
  split at failed
  next => cases failed
  next => exact (Except.error.inj failed).symm

theorem Plain.confined {decoder : Decoder α} {count : Nat} (plain : decoder.Plain count) :
    decoder.Confined := by
  obtain ⟨value, reads⟩ := plain
  intro limit cursor other agree below
  rw [reads cursor] at below ⊢
  rw [reads other]
  by_cases fits : count ≤ cursor.remaining
  · have other_fits : count ≤ other.remaining := agree.remaining_eq ▸ fits
    rw [dif_pos fits] at below ⊢
    rw [dif_pos other_fits]
    refine ⟨?_, agree.forward fits other_fits⟩
    rw [agree.order_eq, agree.take_rest below]
  · have other_overlong : ¬count ≤ other.remaining := agree.remaining_eq ▸ fits
    rw [dif_neg fits, dif_neg other_overlong]
    exact ⟨by rw [agree.offset_eq], agree⟩

/-! ## What is confined -/

theorem confined_pure (value : α) : (Decoder.pure value).Confined :=
  fun _ _ _ agree _ => ⟨rfl, agree⟩

theorem confined_fail (error : Error) : (Decoder.fail error : Decoder α).Confined :=
  fun _ _ _ agree _ => ⟨rfl, agree⟩

theorem confined_failHere : (failHere : Decoder α).Confined := by
  intro limit cursor other agree _
  refine ⟨?_, agree⟩
  rw [failHere, failHere, agree.offset_eq]

theorem confined_setOffsetSize (size : Nat) : (setOffsetSize size).Confined :=
  fun _ _ _ agree _ => ⟨rfl, { agree with offsetSize_eq := rfl }⟩

theorem Confined.bind {first : Decoder α} {second : α → Decoder β} (left : first.Confined)
    (right : ∀ inner, (second inner).Confined) : (Decoder.bind first second).Confined := by
  intro limit cursor other agree below
  cases read : (first cursor).result with
  | error error =>
      obtain ⟨stopped, stopped_at⟩ := @bind_of_error _ _ first second _ _ read
      rw [stopped_at] at below ⊢
      obtain ⟨same, later⟩ := left agree below
      obtain ⟨other_stopped, other_at⟩ := @bind_of_error _ _ first second _ _ (same.trans read)
      rw [stopped, other_stopped, other_at]
      exact ⟨rfl, later⟩
  | ok inner =>
      rw [bind_next read] at below ⊢
      have first_below := Nat.le_trans (second inner (first cursor).next).reached.position_le below
      obtain ⟨same, later⟩ := left agree first_below
      have other_read := same.trans read
      rw [bind_result read, bind_result other_read, bind_next other_read]
      exact right inner later below

theorem confined_of_agree (decoder : Cursor → Decoder α)
    (select : ∀ {limit : Nat} {cursor other : Cursor}, cursor.AgreeBelow limit other →
      decoder other = decoder cursor)
    (confined : ∀ cursor, (decoder cursor).Confined) :
    Confined fun cursor => decoder cursor cursor := by
  intro limit cursor other agree below
  dsimp only at below ⊢
  rw [select agree]
  exact confined cursor agree below

theorem confined_sized (width : Nat) : (sized width).read.Confined := by
  unfold sized
  split
  · exact (plain_uint8.map _).confined
  · exact (plain_uint16.map _).confined
  · exact (plain_uint32.map _).confined
  · exact plain_uint64.confined
  · exact confined_failHere

theorem confined_sectionOffset : sectionOffset.read.Confined :=
  confined_of_agree (fun cursor => (sized cursor.offsetSize).read)
    (fun agree => by rw [agree.offsetSize_eq]) fun _ => confined_sized _

/-- What follows the first word of a length field. -/
def lengthAfter (word : UInt32) : Decoder UInt64 :=
  if word = 0xffffffff then bind (setOffsetSize 8) fun _ => uint64.read
  else bind (setOffsetSize 4) fun _ => pure word.toUInt64

theorem initialLength_read (cursor : Cursor) :
    initialLength.read cursor = bind uint32.read lengthAfter cursor := rfl

theorem confined_initialLength : initialLength.read.Confined := by
  refine plain_uint32.confined.bind fun length => ?_
  split
  · exact (confined_setOffsetSize 8).bind fun _ => plain_uint64.confined
  · exact (confined_setOffsetSize 4).bind fun _ => confined_pure _

end Decoder

end Dwarf
