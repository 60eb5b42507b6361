import Dwarf.Proofs.Decoder.Confined
import Dwarf.Proofs.Decoder.Integer

/-!
# Windows

A unit announces its length and is read in a window of its own.  The window at a length field is
the announced bytes, whatever comes behind them.  Inside, a decoder that has succeeded goes on to
succeed when the window grows at its end, and a local decoder on a part that has been split off is
local again.
-/

namespace Dwarf

/-- Where the place of a cursor is counted from: the start of its window or that of its section. -/
inductive Cursor.Measure where
  | position
  | offset

/-- The place of a cursor. -/
def Cursor.place (cursor : Cursor) : Cursor.Measure → Nat
  | .position => cursor.position
  | .offset => cursor.offset

/-- One cursor is at the same place as another, and more bytes come at the end. -/
structure Cursor.Grown (measure : Cursor.Measure) (tail : List UInt8) (cursor other : Cursor) :
    Prop where
  place_eq : other.place measure = cursor.place measure
  rest_eq : other.rest = cursor.rest ++ tail
  order_eq : other.order = cursor.order
  addressSize_eq : other.addressSize = cursor.addressSize
  offsetSize_eq : other.offsetSize = cursor.offsetSize

namespace Cursor

variable {measure : Measure} {tail : List UInt8} {cursor other : Cursor}

theorem place_forward {count : Nat} (fits : count ≤ cursor.remaining) :
    (cursor.forward count fits).place measure = cursor.place measure + count := by
  cases measure with
  | position => rfl
  | offset => exact (Nat.add_assoc cursor.base cursor.position count).symm

theorem Grown.position_eq (grown : cursor.Grown .position tail other) :
    other.position = cursor.position :=
  grown.place_eq

theorem Grown.offset_eq (grown : cursor.Grown .offset tail other) : other.offset = cursor.offset :=
  grown.place_eq

theorem Grown.under (grown : cursor.Grown measure tail other) : other.Under cursor.encoding :=
  ⟨grown.order_eq, grown.addressSize_eq, grown.offsetSize_eq⟩

theorem size_eq_rest (cursor : Cursor) : cursor.size = cursor.position + cursor.rest.length := by
  have within := cursor.position_le
  rw [cursor.rest_length, remaining]
  omega

theorem Grown.size_le (grown : cursor.Grown .position tail other) : cursor.size ≤ other.size := by
  rw [size_eq_rest cursor, size_eq_rest other, grown.position_eq, grown.rest_eq,
    List.length_append]
  omega

theorem Grown.forward (grown : cursor.Grown measure tail other) {bytes after : List UInt8}
    (rest : cursor.rest = bytes ++ after) (fits : bytes.length ≤ cursor.remaining)
    (more : bytes.length ≤ other.remaining) :
    (cursor.forward bytes.length fits).Grown measure tail (other.forward bytes.length more) where
  place_eq := by rw [place_forward, place_forward, grown.place_eq]
  rest_eq := by
    have other_rest : other.rest = bytes ++ (after ++ tail) := by
      rw [grown.rest_eq, rest, List.append_assoc]
    rw [forward_rest rest fits, forward_rest other_rest more]
  order_eq := grown.order_eq
  addressSize_eq := grown.addressSize_eq
  offsetSize_eq := grown.offsetSize_eq

theorem grown_cursor (encoding : Encoding) (data tail : List UInt8) (base other : Nat) :
    (encoding.cursor data base).Grown .position tail (encoding.cursor (data ++ tail) other) :=
  ⟨rfl, rfl, rfl, rfl, rfl⟩

end Cursor

namespace Decoder

variable {α β : Type} {encoding : Encoding} {measure : Cursor.Measure}

/-! ## Windows that grow -/

/-- What the decoder delivers it still delivers at the same place when the window grows at its end,
and it does not announce another offset size. -/
def Stable (measure : Cursor.Measure) (decoder : Decoder α) : Prop :=
  ∀ ⦃tail : List UInt8⦄ ⦃cursor other : Cursor⦄ ⦃value : α⦄, cursor.Grown measure tail other →
    (decoder cursor).result = .ok value →
      (decoder other).result = .ok value ∧
        (decoder cursor).next.Grown measure tail (decoder other).next ∧
        (decoder cursor).next.offsetSize = cursor.offsetSize

theorem Stable.under {decoder : Decoder α} (stable : decoder.Stable measure) {cursor : Cursor}
    (under : cursor.Under encoding) {value : α} (read : (decoder cursor).result = .ok value) :
    (decoder cursor).next.Under encoding := by
  have itself : cursor.Grown measure [] cursor := ⟨rfl, (List.append_nil _).symm, rfl, rfl, rfl⟩
  have reached := (decoder cursor).reached
  exact ⟨reached.order_eq.trans under.order_eq, reached.addressSize_eq.trans under.addressSize_eq,
    (stable itself read).2.2.trans under.offsetSize_eq⟩

theorem Local.stable {decoder : Decoder α} (locality : decoder.Local) : decoder.Stable measure := by
  intro tail cursor other value grown read
  obtain ⟨bytes, after, rest, recognizes⟩ := locality cursor.under_encoding read
  obtain ⟨fits, _, next⟩ := recognizes cursor.under_encoding rest
  have other_rest : other.rest = bytes ++ (after ++ tail) := by
    rw [grown.rest_eq, rest, List.append_assoc]
  obtain ⟨more, other_read, other_next⟩ := recognizes grown.under other_rest
  rw [next, other_next]
  exact ⟨other_read, grown.forward rest fits more, rfl⟩

theorem Stable.bind {first : Decoder α} {second : α → Decoder β} (left : first.Stable measure)
    (right : ∀ inner, (second inner).Stable measure) :
    (Decoder.bind first second).Stable measure := by
  intro tail cursor other value grown read
  obtain ⟨inner, first_read, second_read⟩ := bind_result_eq_ok.mp read
  obtain ⟨other_first, onward, size⟩ := left grown first_read
  obtain ⟨other_second, last, last_size⟩ := right inner onward second_read
  rw [bind_next first_read, bind_next other_first]
  exact ⟨bind_result_eq_ok.mpr ⟨inner, other_first, other_second⟩, last, last_size.trans size⟩

theorem Stable.mapError {decoder : Decoder α} (stable : decoder.Stable measure)
    (restate : Error → Error) : (decoder.mapError restate).Stable measure := by
  intro tail cursor other value grown read
  obtain ⟨other_read, onward, size⟩ := stable grown (mapError_result_eq_ok.mp read)
  rw [(mapError_eq ..).2, (mapError_eq ..).2]
  exact ⟨mapError_result_eq_ok.mpr other_read, onward, size⟩

theorem stable_of_grown (decoder : Cursor → Decoder α)
    (select : ∀ {tail : List UInt8} {cursor other : Cursor}, cursor.Grown measure tail other →
      decoder other = decoder cursor)
    (stable : ∀ cursor, (decoder cursor).Stable measure) :
    Stable measure fun cursor => decoder cursor cursor := by
  intro tail cursor other value grown read
  dsimp only at read ⊢
  rw [select grown]
  exact stable cursor grown read

/-! ## Parts that are split off -/

/-- Run a decoder on the next bytes alone and pass over them. -/
def inside (count : Nat) (restate : Error → Error) (decoder : Decoder α) : Decoder α :=
  Decoder.bind ((split count).mapError restate) fun body => Decoder.ofExcept (decoder.run body)

theorem split_eq {cursor : Cursor} {bytes after : List UInt8} (under : cursor.Under encoding)
    (rest : cursor.rest = bytes ++ after) :
    ∃ fits, (split bytes.length cursor).result = .ok (encoding.cursor bytes cursor.offset) ∧
      (split bytes.length cursor).next = cursor.forward bytes.length fits := by
  have fits := Cursor.fits_of_rest rest
  refine ⟨fits, ?_, ?_⟩
  · simp only [split, fits, dite_true, rest, List.take_left, Encoding.cursor, under.order_eq,
      under.addressSize_eq, under.offsetSize_eq]
  · simp only [split, fits, dite_true]

theorem rest_of_split {cursor body : Cursor} {count : Nat}
    (read : (split count cursor).result = .ok body) :
    ∃ bytes after, cursor.rest = bytes ++ after ∧ bytes.length = count := by
  unfold split at read
  split at read
  next fits =>
    refine ⟨cursor.rest.take count, cursor.rest.drop count, ?_, ?_⟩
    · exact (List.take_append_drop count cursor.rest).symm
    · rw [List.length_take, cursor.rest_length]
      exact Nat.min_eq_left fits
  next => cases read

theorem inside_eq {decoder : Decoder α} {restate : Error → Error} {cursor : Cursor}
    {bytes after : List UInt8} (under : cursor.Under encoding)
    (rest : cursor.rest = bytes ++ after) :
    ∃ fits, (inside bytes.length restate decoder cursor).result =
        decoder.run (encoding.cursor bytes cursor.offset) ∧
      (inside bytes.length restate decoder cursor).next = cursor.forward bytes.length fits := by
  obtain ⟨fits, read, next⟩ := split_eq under rest
  have restated := (@mapError_result_eq_ok _ restate _ _ _).mpr read
  refine ⟨fits, ?_, ?_⟩
  · rw [inside, bind_result restated]
    rfl
  · rw [inside, bind_next restated]
    exact (mapError_eq ..).2.trans next

theorem Recognizes.inside {decoder : Decoder α} {front back : List UInt8} {value : α} {count : Nat}
    (recognizes : decoder.Recognizes encoding front value) (restate : Error → Error)
    (length : (front ++ back).length = count) :
    (Decoder.inside count restate decoder).Recognizes encoding (front ++ back) value := by
  subst length
  intro cursor after under rest
  obtain ⟨fits, result, next⟩ := inside_eq under rest
  obtain ⟨_, read, _⟩ := recognizes (Cursor.under_cursor encoding (front ++ back) cursor.offset) rfl
  exact ⟨fits, result.trans read, next⟩

theorem local_inside {decoder : Decoder α} (locality : decoder.Local) (count : Nat)
    (restate : Error → Error) : (inside count restate decoder).Local := by
  intro encoding cursor value under read
  obtain ⟨body, split_read, _⟩ := bind_result_eq_ok.mp read
  obtain ⟨bytes, after, rest, rfl⟩ := rest_of_split (mapError_result_eq_ok.mp split_read)
  obtain ⟨_, result, _⟩ := inside_eq under rest
  rw [result] at read
  obtain ⟨front, back, split, recognizes⟩ := locality (Cursor.under_cursor ..) read
  have bytes_eq : bytes = front ++ back := split
  rw [bytes_eq] at rest ⊢
  exact ⟨front ++ back, after, rest, recognizes.inside restate rfl⟩

theorem inside_follows {decoder other : Decoder α} (follows : decoder.Follows other) (count : Nat)
    (restate again : Error → Error) :
    (inside count restate decoder).Follows (inside count again other) := by
  refine Follows.bind ((Follows.refl _).mapError _ _) fun body cursor value read => ?_
  exact ⟨(@follows body value read).1, rfl⟩

end Decoder

/-! ## Length fields -/

namespace Encoding

/-- The length field in front of a unit, which also announces the offset size. -/
def lengthField (encoding : Encoding) (length : Nat) : List UInt8 :=
  if encoding.offsetSize = 8 then
    encoding.order.digits 4 0xffffffff ++ encoding.order.digits 8 length
  else encoding.order.digits 4 length

/-- The length can be announced together with the offset size. -/
def Announces (encoding : Encoding) (length : Nat) : Prop :=
  encoding.offsetSize = 4 ∧ length < 0xffffffff ∨ encoding.offsetSize = 8 ∧ length < 2 ^ 64

instance (encoding : Encoding) (length : Nat) : Decidable (encoding.Announces length) :=
  inferInstanceAs (Decidable (_ ∨ _))

theorem Announces.lt {encoding : Encoding} {length : Nat}
    (announced : encoding.Announces length) : length < 2 ^ 64 := by
  rcases announced with ⟨_, small⟩ | ⟨_, small⟩
  · omega
  · exact small

theorem Announces.mono {encoding : Encoding} {length other : Nat}
    (announced : encoding.Announces other) (le : length ≤ other) : encoding.Announces length :=
  announced.imp (fun ⟨size, small⟩ => ⟨size, Nat.lt_of_le_of_lt le small⟩)
    fun ⟨size, small⟩ => ⟨size, Nat.lt_of_le_of_lt le small⟩

/-- The contents of a unit behind their length. -/
def unit (encoding : Encoding) (contents : List UInt8) : List UInt8 :=
  encoding.lengthField contents.length ++ contents

end Encoding

namespace Decoder

variable {length : Nat} {cursor : Cursor} {after : List UInt8}

theorem initialLength_narrow (size : encoding.offsetSize = 4) (small : length < 0xffffffff)
    (order : cursor.order = encoding.order) (address : cursor.addressSize = encoding.addressSize)
    (rest : cursor.rest = encoding.lengthField length ++ after) :
    (initialLength.read cursor).result = .ok (UInt64.ofNat length) ∧
      (initialLength.read cursor).next.rest = after ∧
        (initialLength.read cursor).next.Under encoding := by
  have field : encoding.lengthField length = encoding.order.digits 4 length := by
    rw [Encoding.lengthField, if_neg (by simp [size])]
  have word : (UInt32.ofNat length).toNat = length := by
    rw [UInt32.toNat_ofNat']
    omega
  have stored : cursor.rest =
      cursor.encoding.order.digits 4 (UInt32.ofNat length).toNat ++ after := by
    rw [rest, field, word, ← order]
    rfl
  obtain ⟨fits, read, next⟩ := recognizes_uint32 _ cursor.under_encoding stored
  have kept : UInt32.ofNat length ≠ 0xffffffff := by
    intro same
    rw [same] at word
    exact absurd word.symm (Nat.ne_of_lt small)
  have widened : (UInt32.ofNat length).toUInt64 = UInt64.ofNat length := by
    rw [← UInt64.toNat_inj, UInt32.toNat_toUInt64, word, UInt64.toNat_ofNat']
    omega
  rw [initialLength_read, bind_result read, bind_next read, next, lengthAfter, if_neg kept,
    ← widened]
  exact ⟨rfl, Cursor.forward_rest stored fits, order, address, size.symm⟩

theorem initialLength_wide (size : encoding.offsetSize = 8) (small : length < 2 ^ 64)
    (order : cursor.order = encoding.order) (address : cursor.addressSize = encoding.addressSize)
    (rest : cursor.rest = encoding.lengthField length ++ after) :
    (initialLength.read cursor).result = .ok (UInt64.ofNat length) ∧
      (initialLength.read cursor).next.rest = after ∧
        (initialLength.read cursor).next.Under encoding := by
  have field : encoding.lengthField length =
      encoding.order.digits 4 0xffffffff ++ encoding.order.digits 8 length := by
    rw [Encoding.lengthField, if_pos size]
  have word : (UInt64.ofNat length).toNat = length := by
    rw [UInt64.toNat_ofNat']
    exact Nat.mod_eq_of_lt small
  have escape : cursor.rest = cursor.encoding.order.digits 4 (0xffffffff : UInt32).toNat ++
      (encoding.order.digits 8 (UInt64.ofNat length).toNat ++ after) := by
    rw [rest, field, word, List.append_assoc, ← order]
    rfl
  obtain ⟨fits, read, next⟩ := recognizes_uint32 _ cursor.under_encoding escape
  let announced := (cursor.forward _ fits).withOffsetSize 8
  have under : announced.Under encoding := ⟨order, address, size.symm⟩
  have remaining : announced.rest = _ := Cursor.forward_rest escape fits
  obtain ⟨more, read_more, next_more⟩ := recognizes_uint64 _ under remaining
  have set : (setOffsetSize 8 (cursor.forward _ fits)).result = .ok () := rfl
  rw [initialLength_read, bind_result read, bind_next read, next, lengthAfter, if_pos rfl,
    bind_result set, bind_next set]
  change (uint64.read announced).result = _ ∧ (uint64.read announced).next.rest = _ ∧
    (uint64.read announced).next.Under encoding
  rw [next_more]
  exact ⟨read_more, Cursor.forward_rest remaining more, under.forward more⟩

/-- Whatever the cursor takes the offset size for, a length field is read as the length and sets
the offset size that it announces. -/
theorem initialLength_lengthField (announced : encoding.Announces length)
    (order : cursor.order = encoding.order) (address : cursor.addressSize = encoding.addressSize)
    (rest : cursor.rest = encoding.lengthField length ++ after) :
    (initialLength.read cursor).result = .ok (UInt64.ofNat length) ∧
      (initialLength.read cursor).next.rest = after ∧
        (initialLength.read cursor).next.Under encoding := by
  rcases announced with ⟨size, small⟩ | ⟨size, small⟩
  · exact initialLength_narrow size small order address rest
  · exact initialLength_wide size small order address rest

end Decoder

end Dwarf
