import Dwarf.Proofs.Decoder.Local
import Dwarf.Frame.Section

/-!
# Reading elsewhere

The same bytes can be stored at another place of a section.  What is read of them may depend on the
place only through the offsets that errors name: decoders that are built of the primitive reads
deliver the same value or fail in the same way, and stop at corresponding places.
-/

namespace Dwarf

namespace Error

/-- The kind of a failure: the error without the offset in the section that it names. -/
def placeless : Error → Error
  | .unexpectedEnd _ => .unexpectedEnd 0
  | .malformedCallFrame _ defect => .malformedCallFrame 0 defect
  | error => error

theorem placeless_restate (offset : Nat) (defect : FrameDefect) (error : Error) :
    (FrameDefect.restate offset defect error).placeless =
      (FrameDefect.restate 0 defect error.placeless).placeless := by
  cases error <;> rfl

end Error

/-- The same value, or failures of the same kind. -/
def Agree {α : Type} (result other : Except Error α) : Prop :=
  result.mapError Error.placeless = other.mapError Error.placeless

namespace Agree

variable {α : Type} {result other : Except Error α}

theorem refl (result : Except Error α) : Agree result result :=
  Eq.refl _

/-- Results that agree are the same value or two errors of one kind. -/
theorem cases (agree : Agree result other) :
    (∃ value, result = .ok value ∧ other = .ok value) ∨
      ∃ error again, result = .error error ∧ other = .error again ∧
        error.placeless = again.placeless := by
  cases result with
  | ok value =>
      cases other with
      | ok same => exact .inl ⟨value, rfl, congrArg Except.ok (Except.ok.inj agree).symm⟩
      | error error => cases agree
  | error error =>
      cases other with
      | ok value => cases agree
      | error again => exact .inr ⟨error, again, rfl, rfl, Except.error.inj agree⟩

theorem error {error again : Error} (alike : error.placeless = again.placeless) :
    Agree (.error error : Except Error α) (.error again) :=
  congrArg Except.error alike

end Agree

namespace Cursor

/-- The same bytes are to be read, in the same way. -/
structure Similar (cursor other : Cursor) : Prop where
  rest_eq : other.rest = cursor.rest
  order_eq : other.order = cursor.order
  addressSize_eq : other.addressSize = cursor.addressSize
  offsetSize_eq : other.offsetSize = cursor.offsetSize

namespace Similar

variable {cursor other : Cursor}

theorem remaining_eq (similar : cursor.Similar other) : other.remaining = cursor.remaining := by
  rw [← other.rest_length, ← cursor.rest_length, similar.rest_eq]

theorem atEnd_eq (similar : cursor.Similar other) : other.atEnd = cursor.atEnd := by
  rw [Bool.eq_iff_iff, atEnd_iff_rest, atEnd_iff_rest, similar.rest_eq]

theorem forward (similar : cursor.Similar other) {count : Nat} (fits : count ≤ cursor.remaining)
    (other_fits : count ≤ other.remaining) :
    (cursor.forward count fits).Similar (other.forward count other_fits) :=
  { similar with rest_eq := congrArg (List.drop count) similar.rest_eq }

theorem of_under {encoding : Encoding} (under : cursor.Under encoding)
    (other_under : other.Under encoding) (rest_eq : other.rest = cursor.rest) :
    cursor.Similar other :=
  ⟨rest_eq, other_under.order_eq.trans under.order_eq.symm,
    other_under.addressSize_eq.trans under.addressSize_eq.symm,
    other_under.offsetSize_eq.trans under.offsetSize_eq.symm⟩

end Similar

end Cursor

namespace Decoder

variable {α β : Type}

/-- Two decoders read similar cursors alike. -/
def Alike (decoder other : Decoder α) : Prop :=
  ∀ ⦃cursor place : Cursor⦄, cursor.Similar place →
    Agree (decoder cursor).result (other place).result ∧
      (decoder cursor).next.Similar (other place).next

/-! ## Composition -/

theorem alike_pure (value : α) : (Decoder.pure value).Alike (Decoder.pure value) :=
  fun _ _ similar => ⟨.refl _, similar⟩

theorem alike_fail {error other : Error} (alike : error.placeless = other.placeless) :
    (Decoder.fail error : Decoder α).Alike (Decoder.fail other) :=
  fun _ _ similar => ⟨.error alike, similar⟩

theorem alike_ofExcept {result other : Except Error α} (agree : Agree result other) :
    (Decoder.ofExcept result).Alike (Decoder.ofExcept other) :=
  fun _ _ similar => ⟨agree, similar⟩

/-- After readings that agree, decoders go on alike if those selected by the common value do. -/
theorem bind_similar {first other : Decoder α} {second later : α → Decoder β}
    {cursor place : Cursor} (agree : Agree (first cursor).result (other place).result)
    (next : (first cursor).next.Similar (other place).next)
    (right : ∀ value, (first cursor).result = .ok value → (second value).Alike (later value)) :
    Agree (Decoder.bind first second cursor).result (Decoder.bind other later place).result ∧
      (Decoder.bind first second cursor).next.Similar (Decoder.bind other later place).next := by
  unfold Decoder.bind
  generalize first cursor = reading at agree next right ⊢
  generalize other place = again at agree next ⊢
  rcases reading with ⟨result, middle, reached⟩
  rcases again with ⟨other_result, there, other_reached⟩
  rcases agree.cases with ⟨value, rfl, rfl⟩ | ⟨error, fault, rfl, rfl, alike⟩
  · exact right value rfl next
  · exact ⟨.error alike, next⟩

theorem Alike.bind {first other : Decoder α} {second later : α → Decoder β}
    (left : first.Alike other) (right : ∀ value, (second value).Alike (later value)) :
    (Decoder.bind first second).Alike (Decoder.bind other later) :=
  fun _ _ similar => bind_similar (left similar).1 (left similar).2 fun value _ => right value

theorem Alike.map {decoder other : Decoder α} (f : α → β) (alike : decoder.Alike other) :
    (Decoder.bind decoder fun value => Decoder.pure (f value)).Alike
      (Decoder.bind other fun value => Decoder.pure (f value)) :=
  alike.bind fun value => alike_pure (f value)

/-- Errors that are restated as a defect of an entry stay of one kind, whatever the entry. -/
theorem Alike.restate {decoder other : Decoder α} (alike : decoder.Alike other)
    (offset place : Nat) (defect : FrameDefect) :
    (decoder.mapError (FrameDefect.restate offset defect)).Alike
      (other.mapError (FrameDefect.restate place defect)) := by
  intro cursor there similar
  obtain ⟨agree, next⟩ := alike similar
  rw [(mapError_eq ..).1, (mapError_eq ..).1, (mapError_eq ..).2, (mapError_eq ..).2]
  refine ⟨?_, next⟩
  rcases agree.cases with ⟨value, same, other_same⟩ | ⟨_, _, same, other_same, kind⟩
  · rw [same, other_same]
    exact .refl _
  · rw [same, other_same]
    refine .error ?_
    rw [Error.placeless_restate offset, Error.placeless_restate place, kind]

theorem alike_of_similar (decoder : Cursor → Decoder α)
    (same : ∀ {cursor place : Cursor}, cursor.Similar place → decoder place = decoder cursor)
    (alike : ∀ cursor, (decoder cursor).Alike (decoder cursor)) :
    Alike (fun cursor => decoder cursor cursor) fun cursor => decoder cursor cursor := by
  intro cursor place similar
  dsimp only
  rw [same similar]
  exact alike cursor similar

/-! ## Primitive reads -/

theorem alike_bytes (count : Nat) : (Decoder.bytes count).Alike (Decoder.bytes count) := by
  intro cursor place similar
  unfold Decoder.bytes
  by_cases fits : count ≤ cursor.remaining
  · have other_fits : count ≤ place.remaining := similar.remaining_eq.symm ▸ fits
    rw [dif_pos fits, dif_pos other_fits, similar.rest_eq]
    exact ⟨.refl _, similar.forward fits other_fits⟩
  · have other_short : ¬count ≤ place.remaining := similar.remaining_eq.symm ▸ fits
    rw [dif_neg fits, dif_neg other_short]
    exact ⟨.error rfl, similar⟩

theorem alike_fixed (count : Nat) (positive : 0 < count) :
    (fixed count positive).read.Alike (fixed count positive).read :=
  (alike_bytes count).bind fun stored =>
    alike_of_similar (fun cursor => Decoder.pure (cursor.order.value stored))
      (fun similar => by rw [similar.order_eq]) fun _ => alike_pure _

theorem alike_uint8 : uint8.read.Alike uint8.read := (alike_fixed 1 _).map _

theorem alike_uint16 : uint16.read.Alike uint16.read := (alike_fixed 2 _).map _

theorem alike_uint32 : uint32.read.Alike uint32.read := (alike_fixed 4 _).map _

theorem alike_uint64 : uint64.read.Alike uint64.read := (alike_fixed 8 _).map _

theorem alike_sized (width : Nat) : (sized width).read.Alike (sized width).read := by
  unfold sized
  split
  · exact alike_uint8.map _
  · exact alike_uint16.map _
  · exact alike_uint32.map _
  · exact alike_uint64
  · exact fun _ _ similar => ⟨.error rfl, similar⟩

theorem alike_address : address.read.Alike address.read :=
  alike_of_similar (fun cursor => (sized cursor.addressSize).read)
    (fun similar => by rw [similar.addressSize_eq]) fun _ => alike_sized _

theorem alike_leb128 {scan : List UInt8 → Leb128.Scan α}
    (used_le : ∀ bytes, (scan bytes).used ≤ bytes.length)
    (used_pos : ∀ {bytes value}, (scan bytes).result = .ok value → 0 < (scan bytes).used) :
    (leb128 scan used_le used_pos).read.Alike (leb128 scan used_le used_pos).read := by
  intro cursor place similar
  have rest := similar.rest_eq
  refine ⟨?_, { similar with rest_eq := ?_ }⟩
  · change Agree ((scan cursor.rest).result.mapError (leb128Error cursor))
      ((scan place.rest).result.mapError (leb128Error place))
    rw [rest]
    cases (scan cursor.rest).result with
    | ok value => exact .refl _
    | error fault => cases fault <;> exact .error rfl
  · change place.rest.drop (scan place.rest).used = cursor.rest.drop (scan cursor.rest).used
    rw [rest]

theorem alike_unsigned : unsigned.read.Alike unsigned.read := alike_leb128 _ _

theorem alike_signed : signed.read.Alike signed.read := alike_leb128 _ _

theorem alike_sectionOffset : sectionOffset.read.Alike sectionOffset.read :=
  alike_of_similar (fun cursor => (sized cursor.offsetSize).read)
    (fun similar => by rw [similar.offsetSize_eq]) fun _ => alike_sized _

theorem Composed.alike {addresses : Bool} {decoder : Decoder α}
    (composed : Composed addresses decoder) : decoder.Alike decoder := by
  induction composed with
  | pure value => exact alike_pure value
  | bind _ _ left right => exact left.bind right
  | bytes count => exact alike_bytes count
  | fixed count positive => exact alike_fixed count positive
  | unsigned => exact alike_unsigned
  | signed => exact alike_signed
  | sectionOffset => exact alike_sectionOffset
  | address => exact alike_address

end Decoder

end Dwarf
