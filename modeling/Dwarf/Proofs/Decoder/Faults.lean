import Dwarf.Proofs.Decoder.Confined
import Dwarf.Proofs.Decoder.Local
import Dwarf.Proofs.Except

/-!
# What decoders fail with

A primitive read fails for want of data and for no other reason.  A decoder that is put together
from others fails with what its parts fail with, so the kinds of its errors can be read off its
parts, and restating errors restates their kinds.  The loops raise what their passes raise.
-/

namespace Dwarf.Decoder

variable {α β σ : Type} {kind : Error → Prop}

/-- The decoder fails for want of data only. -/
def Starves (decoder : Decoder α) : Prop :=
  ∀ ⦃cursor : Cursor⦄ ⦃error : Error⦄, (decoder cursor).result = .error error →
    ∃ offset, error = .unexpectedEnd offset

theorem Plain.starves {decoder : Decoder α} {count : Nat} (plain : decoder.Plain count) :
    decoder.Starves :=
  fun _ _ failed => ⟨_, plain.error failed⟩

theorem starves_pure (value : α) : (Decoder.pure value).Starves :=
  fun _ _ failed => nomatch failed

theorem Starves.bind {first : Decoder α} {second : α → Decoder β} (left : first.Starves)
    (right : ∀ inner, (second inner).Starves) : (Decoder.bind first second).Starves := by
  intro cursor error failed
  rcases bind_result_eq_error.mp failed with stopped | ⟨inner, _, stopped⟩
  · exact left stopped
  · exact right inner stopped

theorem starves_sized (width : Nat) : (sized width).read.Starves := by
  unfold sized
  split
  · exact (plain_uint8.map _).starves
  · exact (plain_uint16.map _).starves
  · exact (plain_uint32.map _).starves
  · exact plain_uint64.starves
  · exact fun _ _ failed => ⟨_, (Except.error.inj failed).symm⟩

theorem starves_initialLength : initialLength.read.Starves := by
  refine plain_uint32.starves.bind fun length => ?_
  split
  · exact Starves.bind (fun _ _ failed => nomatch failed) fun _ => plain_uint64.starves
  · exact Starves.bind (fun _ _ failed => nomatch failed) fun _ => starves_pure _

theorem starves_sectionOffset : sectionOffset.read.Starves :=
  fun cursor _ failed => starves_sized cursor.offsetSize failed

/-- Whatever the decoder fails with is of some kind. -/
def Raises (kind : Error → Prop) (decoder : Decoder α) : Prop :=
  ∀ ⦃cursor : Cursor⦄ ⦃error : Error⦄, (decoder cursor).result = .error error → kind error

/-- Errors of some kind, and the want of data. -/
inductive ShortOr (kind : Error → Prop) : Error → Prop where
  | short (offset : Nat) : ShortOr kind (.unexpectedEnd offset)
  | fault {error : Error} (known : kind error) : ShortOr kind error

/-! ## Primitive reads -/

theorem starves_bytes (count : Nat) : (Decoder.bytes count).Starves :=
  (plain_bytes count).starves

theorem starves_uint8 : uint8.read.Starves := plain_uint8.starves

theorem starves_uint16 : uint16.read.Starves := plain_uint16.starves

theorem starves_uint32 : uint32.read.Starves := plain_uint32.starves

theorem starves_uint64 : uint64.read.Starves := plain_uint64.starves

theorem starves_address : address.read.Starves :=
  fun cursor _ failed => starves_sized cursor.addressSize failed

theorem starves_leb128 {scan : List UInt8 → Leb128.Scan α}
    {used_le : ∀ bytes, (scan bytes).used ≤ bytes.length}
    {used_pos : ∀ {bytes value}, (scan bytes).result = .ok value → 0 < (scan bytes).used} :
    (leb128 scan used_le used_pos).read.Starves := by
  intro cursor error failed
  obtain ⟨fault, _, rfl⟩ := mapError_eq_error_iff.mp failed
  cases fault with
  | endOfData => exact ⟨_, rfl⟩
  | outOfRange => exact ⟨_, rfl⟩

theorem starves_unsigned : unsigned.read.Starves := starves_leb128

theorem starves_signed : signed.read.Starves := starves_leb128

theorem starves_cstring : cstring.read.Starves := by
  intro cursor error failed
  unfold cstring at failed
  dsimp only at failed
  split at failed
  next => cases failed
  next => exact ⟨_, (Except.error.inj failed).symm⟩

theorem starves_split (count : Nat) : (split count).Starves := by
  intro cursor error failed
  unfold split at failed
  split at failed
  next => cases failed
  next => exact ⟨_, (Except.error.inj failed).symm⟩

theorem Starves.map {decoder : Consuming α} (starves : decoder.read.Starves) (f : α → β) :
    (decoder.map f).read.Starves :=
  starves.bind fun _ => starves_pure _

theorem Composed.starves {addresses : Bool} {decoder : Decoder α}
    (composed : Composed addresses decoder) : decoder.Starves := by
  induction composed with
  | pure value => exact starves_pure value
  | bind _ _ left right => exact left.bind right
  | bytes count => exact starves_bytes count
  | fixed count positive => exact (plain_fixed count positive).starves
  | unsigned => exact starves_unsigned
  | signed => exact starves_signed
  | sectionOffset => exact starves_sectionOffset
  | address => exact starves_address

/-! ## Decoders put together -/

theorem Starves.raises {decoder : Decoder α} (starves : decoder.Starves)
    (short : ∀ offset, kind (.unexpectedEnd offset)) : decoder.Raises kind := by
  intro cursor error failed
  obtain ⟨offset, rfl⟩ := starves failed
  exact short offset

theorem Starves.raises_short {decoder : Decoder α} (starves : decoder.Starves) :
    decoder.Raises (ShortOr kind) :=
  starves.raises .short

theorem raises_pure (value : α) : (Decoder.pure value).Raises kind :=
  fun _ _ failed => nomatch failed

theorem raises_fail {error : Error} (known : kind error) :
    (Decoder.fail error : Decoder α).Raises kind := by
  intro cursor other failed
  cases failed
  exact known

theorem raises_ofExcept {result : Except Error α}
    (known : ∀ error, result = .error error → kind error) :
    (Decoder.ofExcept result).Raises kind :=
  fun _ error failed => known error failed

theorem raises_cursor : Raises kind Decoder.cursor :=
  fun _ _ failed => nomatch failed

theorem raises_offset : Raises kind Decoder.offset :=
  fun _ _ failed => nomatch failed

theorem Raises.mono {other : Error → Prop} {decoder : Decoder α} (raises : decoder.Raises kind)
    (weaker : ∀ {error}, kind error → other error) : decoder.Raises other :=
  fun _ _ failed => weaker (raises failed)

theorem raises_located {decoder : Nat → Consuming α}
    (raises : ∀ offset, (decoder offset).read.Raises kind) :
    (Consuming.located decoder).read.Raises kind :=
  fun cursor _ failed => raises cursor.offset failed

theorem Raises.bind {first : Decoder α} {second : α → Decoder β} (left : first.Raises kind)
    (right : ∀ inner, (second inner).Raises kind) : (Decoder.bind first second).Raises kind := by
  intro cursor error failed
  rcases bind_result_eq_error.mp failed with stopped | ⟨inner, _, stopped⟩
  · exact left stopped
  · exact right inner stopped

theorem Raises.map {decoder : Consuming α} (raises : decoder.read.Raises kind) (f : α → β) :
    (decoder.map f).read.Raises kind :=
  raises.bind fun _ => raises_pure _

theorem Raises.mapError {other : Error → Prop} {decoder : Decoder α} (raises : decoder.Raises kind)
    {restate : Error → Error} (restated : ∀ error, kind error → other (restate error)) :
    (decoder.mapError restate).Raises other := by
  intro cursor error failed
  rw [(mapError_eq restate decoder cursor).1] at failed
  obtain ⟨earlier, inner, rfl⟩ := mapError_eq_error_iff.mp failed
  exact restated earlier (raises inner)

theorem raises_restated (decoder : Decoder α) {error : Error} (known : kind error) :
    (decoder.mapError fun _ => error).Raises kind := by
  intro cursor other failed
  rw [(mapError_eq _ decoder cursor).1] at failed
  obtain ⟨_, _, rfl⟩ := mapError_eq_error_iff.mp failed
  exact known

theorem raises_mapM {item : α → Decoder β} (values : List α)
    (raises : ∀ value, (item value).Raises kind) : Raises kind (values.mapM item) := by
  induction values with
  | nil =>
      rw [List.mapM_nil]
      exact raises_pure _
  | cons value values ih =>
      rw [List.mapM_cons]
      exact (raises value).bind fun _ => Raises.bind ih fun _ => raises_pure _

/-! ## Loops -/

theorem raises_iterate {pass : σ → Consuming (Pass σ β)}
    (raises : ∀ state, (pass state).read.Raises kind) (state : σ) :
    Raises kind (iterate pass state) := by
  intro cursor error failed
  fun_induction iterate pass state cursor with
  | case1 state cursor earlier next reached found =>
      cases failed
      have stopped : ((pass state).read cursor).result = .error error := by rw [found]
      exact raises state stopped
  | case2 state cursor value next reached found => cases failed
  | case3 state cursor following next reached found ih => exact ih failed

theorem raises_untilEnd {pass : σ → Consuming σ}
    (raises : ∀ state, (pass state).read.Raises kind) (state : σ) :
    Raises kind (untilEnd pass state) := by
  intro cursor error failed
  fun_induction untilEnd pass state cursor with
  | case1 state cursor finished => cases failed
  | case2 state cursor unfinished earlier next reached found =>
      cases failed
      have stopped : ((pass state).read cursor).result = .error error := by rw [found]
      exact raises state stopped
  | case3 state cursor unfinished following next reached found ih => exact ih failed

theorem raises_untilNone {item : Consuming (Option α)} (raises : item.read.Raises kind) :
    (untilNone item).Raises kind :=
  raises_iterate (fun _ => raises.map _) []

theorem raises_many {item : Consuming α} (raises : item.read.Raises kind) :
    (many item).Raises kind :=
  Raises.bind (raises_untilEnd (fun _ => raises.map _) []) fun _ => raises_pure _

end Dwarf.Decoder
