import Dwarf.Encoding
import Dwarf.Decoder.Primitive
import Dwarf.Proofs.Decoder.Local

/-!
# Reading at another address size

Nothing but the reads of target addresses asks for the size of an address.  A decoder without them
reads the same at a cursor for addresses of another size, and stops in the same place.
-/

namespace Dwarf

theorem Encoding.cursor_withAddressSize (encoding : Encoding) (data : List UInt8)
    (base size : Nat) :
    ({ encoding with addressSize := size } : Encoding).cursor data base =
      (encoding.cursor data base).withAddressSize size :=
  rfl

namespace Decoder

variable {α β : Type}

/-- The size of an address makes no difference to what is read. -/
def Sizeless (decoder : Decoder α) : Prop :=
  ∀ (cursor : Cursor) (size : Nat),
    (decoder (cursor.withAddressSize size)).result = (decoder cursor).result ∧
      (decoder (cursor.withAddressSize size)).next = (decoder cursor).next.withAddressSize size

/-! ## Composition -/

theorem sizeless_pure (value : α) : (Decoder.pure value).Sizeless :=
  fun _ _ => ⟨rfl, rfl⟩

theorem sizeless_fail (error : Error) : (Decoder.fail error : Decoder α).Sizeless :=
  fun _ _ => ⟨rfl, rfl⟩

/-- The address size makes no difference to two decoders in a row if it makes none to the first and
to the second that the value of the first selects. -/
theorem Sizeless.bind_of {first : Decoder α} {second : α → Decoder β} (left : first.Sizeless)
    {cursor : Cursor} (right : ∀ value, (first cursor).result = .ok value → (second value).Sizeless)
    (size : Nat) :
    (Decoder.bind first second (cursor.withAddressSize size)).result =
        (Decoder.bind first second cursor).result ∧
      (Decoder.bind first second (cursor.withAddressSize size)).next =
        (Decoder.bind first second cursor).next.withAddressSize size := by
  obtain ⟨result, next⟩ := left cursor size
  cases read : (first cursor).result with
  | error error =>
      rw [read] at result
      obtain ⟨failed, stop⟩ := @bind_of_error _ _ _ second _ _ read
      obtain ⟨resized_failed, resized_stop⟩ := @bind_of_error _ _ _ second _ _ result
      exact ⟨resized_failed.trans failed.symm, by rw [resized_stop, stop, next]⟩
  | ok value =>
      rw [read] at result
      rw [bind_result result, bind_next result, bind_result read, bind_next read, next]
      exact right value read _ size

theorem Sizeless.bind {first : Decoder α} {second : α → Decoder β} (left : first.Sizeless)
    (right : ∀ value, (second value).Sizeless) : (Decoder.bind first second).Sizeless :=
  fun _ size => left.bind_of (fun value _ => right value) size

theorem Sizeless.map {decoder : Decoder α} (sizeless : decoder.Sizeless) (f : α → β) :
    (Decoder.bind decoder fun value => Decoder.pure (f value)).Sizeless :=
  sizeless.bind fun value => sizeless_pure (f value)

/-! ## Primitive reads -/

theorem sizeless_bytes (count : Nat) : (Decoder.bytes count).Sizeless := by
  intro cursor size
  unfold Decoder.bytes
  by_cases fits : count ≤ cursor.remaining
  · have resized_fits : count ≤ (cursor.withAddressSize size).remaining := fits
    rw [dif_pos fits, dif_pos resized_fits]
    exact ⟨rfl, rfl⟩
  · have resized_short : ¬count ≤ (cursor.withAddressSize size).remaining := fits
    rw [dif_neg fits, dif_neg resized_short]
    exact ⟨rfl, rfl⟩

theorem sizeless_fixed (count : Nat) (positive : 0 < count) : (fixed count positive).read.Sizeless :=
  (sizeless_bytes count).bind fun _ _ _ => ⟨rfl, rfl⟩

theorem sizeless_uint8 : uint8.read.Sizeless := (sizeless_fixed 1 _).map _

theorem sizeless_uint16 : uint16.read.Sizeless := (sizeless_fixed 2 _).map _

theorem sizeless_uint32 : uint32.read.Sizeless := (sizeless_fixed 4 _).map _

theorem sizeless_uint64 : uint64.read.Sizeless := (sizeless_fixed 8 _).map _

theorem sizeless_sized (width : Nat) : (sized width).read.Sizeless := by
  unfold sized
  split
  · exact sizeless_uint8.map _
  · exact sizeless_uint16.map _
  · exact sizeless_uint32.map _
  · exact sizeless_uint64
  · exact fun _ _ => ⟨rfl, rfl⟩

theorem sizeless_sectionOffset : sectionOffset.read.Sizeless :=
  fun cursor => sizeless_sized cursor.offsetSize cursor

theorem sizeless_leb128 {scan : List UInt8 → Leb128.Scan α}
    (used_le : ∀ bytes, (scan bytes).used ≤ bytes.length)
    (used_pos : ∀ {bytes value}, (scan bytes).result = .ok value → 0 < (scan bytes).used) :
    (leb128 scan used_le used_pos).read.Sizeless :=
  fun _ _ => ⟨rfl, rfl⟩

theorem sizeless_unsigned : unsigned.read.Sizeless := sizeless_leb128 _ _

theorem sizeless_signed : signed.read.Sizeless := sizeless_leb128 _ _

theorem Composed.sizeless {decoder : Decoder α} (composed : Composed false decoder) :
    decoder.Sizeless := by
  induction composed with
  | pure value => exact sizeless_pure value
  | bind _ _ left right => exact left.bind right
  | bytes count => exact sizeless_bytes count
  | fixed count positive => exact sizeless_fixed count positive
  | unsigned => exact sizeless_unsigned
  | signed => exact sizeless_signed
  | sectionOffset => exact sizeless_sectionOffset
  | address allowed => cases allowed

/-! ## Items up to the end of the window -/

/-- Items that are read alike are the same items. -/
theorem Reads.withAddressSize {item : Consuming α} {cursor : Cursor} {values : List α}
    (reads : Reads item cursor values) (size : Nat)
    (alike : ∀ {cursor value}, value ∈ values → (item.read cursor).result = .ok value →
      (item.read (cursor.withAddressSize size)).result = .ok value ∧
        (item.read (cursor.withAddressSize size)).next =
          (item.read cursor).next.withAddressSize size) :
    Reads item (cursor.withAddressSize size) values := by
  induction reads with
  | done finished => exact .done finished
  | more unfinished read _ ih =>
      obtain ⟨again, next⟩ := alike List.mem_cons_self read
      refine .more unfinished again ?_
      rw [next]
      exact ih fun member => alike (List.mem_cons_of_mem _ member)

end Decoder

end Dwarf
