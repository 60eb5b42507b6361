import Dwarf.Proofs.Decoder.Continuation
import Dwarf.Proofs.Decoder.Placeless

/-!
# Decoding further on

The same bytes may lie further on in a window.  What is read of them is the same but for the offsets
that it names, and if they cannot be read the error is the same one further on.  So items that come
behind other items are read, or fail to be read, as they would be alone.
-/

namespace Dwarf

/-- The error of decoding an expression whose bytes lie so much further on. -/
def Error.shift (distance : Nat) : Error → Error
  | .unexpectedEnd offset => .unexpectedEnd (offset + distance)
  | .unknownOpcode offset opcode => .unknownOpcode (offset + distance) opcode
  | .unsupportedOpcode offset opcode => .unsupportedOpcode (offset + distance) opcode
  | error => error

/-- A result with its value restated and its error shifted. -/
def shiftResult {α β : Type} (distance : Nat) (f : α → β) (result : Except Error α) :
    Except Error β :=
  (result.map f).mapError (Error.shift distance)

namespace Cursor

/-- The same bytes are to be read in the same way, at an offset so much further on. -/
structure Shifted (distance : Nat) (cursor other : Cursor) : Prop extends cursor.Similar other where
  offset_eq : other.offset = cursor.offset + distance

variable {distance : Nat} {cursor other : Cursor}

theorem Shifted.forward (shifted : cursor.Shifted distance other) {count : Nat}
    (fits : count ≤ cursor.remaining) (other_fits : count ≤ other.remaining) :
    (cursor.forward count fits).Shifted distance (other.forward count other_fits) where
  toSimilar := shifted.toSimilar.forward fits other_fits
  offset_eq := by
    have same := shifted.offset_eq
    simp only [offset, Cursor.forward] at same ⊢
    omega

theorem Shifted.stop_eq (shifted : cursor.Shifted distance other) :
    other.base + other.size = cursor.base + cursor.size + distance := by
  have offset_eq := shifted.offset_eq
  have remaining_eq := shifted.remaining_eq
  have within := cursor.position_le
  have other_within := other.position_le
  simp only [offset, remaining] at offset_eq remaining_eq
  omega

end Cursor

namespace Decoder

variable {α β γ δ : Type} {distance : Nat} {f : α → β} {g : γ → δ}

/-- Further on, the other decoder delivers what becomes of what this one delivers, or fails as this
one fails, and it passes the same bytes. -/
def Shifts (distance : Nat) (f : α → β) (decoder : Decoder α) (other : Decoder β) : Prop :=
  ∀ ⦃cursor place : Cursor⦄, cursor.Shifted distance place →
    (other place).result = shiftResult distance f (decoder cursor).result ∧
      (decoder cursor).next.Shifted distance (other place).next

/-! ## Composition -/

theorem shifts_pure {value : α} {other : β} (same : f value = other) :
    (Decoder.pure value).Shifts distance f (Decoder.pure other) :=
  fun _ _ shifted => ⟨congrArg Except.ok same.symm, shifted⟩

theorem shifts_fail {error other : Error} (same : error.shift distance = other) :
    (Decoder.fail error).Shifts distance f (Decoder.fail other) :=
  fun _ _ shifted => ⟨congrArg Except.error same.symm, shifted⟩

theorem Shifts.bind {first : Decoder α} {other : Decoder β} {second : α → Decoder γ}
    {later : β → Decoder δ} (left : first.Shifts distance f other)
    (right : ∀ value, (second value).Shifts distance g (later (f value))) :
    (Decoder.bind first second).Shifts distance g (Decoder.bind other later) := by
  intro cursor place shifted
  obtain ⟨result, next⟩ := left shifted
  cases read : (first cursor).result with
  | error error =>
      rw [read] at result
      obtain ⟨failed, stop⟩ := @bind_of_error _ _ first second _ _ read
      obtain ⟨other_failed, other_stop⟩ := @bind_of_error _ _ other later _ _ result
      rw [failed, stop, other_failed, other_stop]
      exact ⟨rfl, next⟩
  | ok value =>
      rw [read] at result
      rw [bind_result read, bind_next read, bind_result result, bind_next result]
      exact right value next

theorem Shifts.map {decoder : Decoder α} {other : Decoder β} {make : α → γ} {remake : β → δ}
    (shifts : decoder.Shifts distance f other) (same : ∀ value, g (make value) = remake (f value)) :
    (Decoder.bind decoder fun value => Decoder.pure (make value)).Shifts distance g
      (Decoder.bind other fun value => Decoder.pure (remake value)) :=
  shifts.bind fun value => shifts_pure (same value)

theorem shifts_of_shifted (decoder : Cursor → Decoder α) (other : Cursor → Decoder β)
    (shifts : ∀ {cursor place : Cursor}, cursor.Shifted distance place →
      (decoder cursor).Shifts distance f (other place)) :
    Shifts distance f (fun cursor => decoder cursor cursor) fun cursor => other cursor cursor :=
  fun _ _ shifted => shifts shifted shifted

/-! ## Primitive reads -/

theorem Plain.shifts {decoder : Decoder α} {count : Nat} (plain : decoder.Plain count) :
    decoder.Shifts distance id decoder := by
  obtain ⟨value, reads⟩ := plain
  intro cursor place shifted
  rw [reads cursor, reads place]
  by_cases fits : count ≤ cursor.remaining
  · have other_fits : count ≤ place.remaining := shifted.remaining_eq.symm ▸ fits
    rw [dif_pos fits, dif_pos other_fits, shifted.order_eq, shifted.rest_eq]
    exact ⟨rfl, shifted.forward fits other_fits⟩
  · have other_short : ¬count ≤ place.remaining := shifted.remaining_eq.symm ▸ fits
    rw [dif_neg fits, dif_neg other_short, shifted.offset_eq]
    exact ⟨rfl, shifted⟩

theorem shifts_sized (width : Nat) : (sized width).read.Shifts distance id (sized width).read := by
  unfold sized
  split
  · exact (plain_uint8.map _).shifts
  · exact (plain_uint16.map _).shifts
  · exact (plain_uint32.map _).shifts
  · exact plain_uint64.shifts
  · intro cursor place shifted
    refine ⟨?_, shifted⟩
    change Except.error (Error.unexpectedEnd place.offset) = _
    rw [shifted.offset_eq]
    rfl

theorem shifts_address : address.read.Shifts distance id address.read :=
  shifts_of_shifted (fun cursor => (sized cursor.addressSize).read)
    (fun place => (sized place.addressSize).read) fun shifted => by
      rw [shifted.addressSize_eq]
      exact shifts_sized _

theorem shifts_sectionOffset : sectionOffset.read.Shifts distance id sectionOffset.read :=
  shifts_of_shifted (fun cursor => (sized cursor.offsetSize).read)
    (fun place => (sized place.offsetSize).read) fun shifted => by
      rw [shifted.offsetSize_eq]
      exact shifts_sized _

theorem shifts_leb128 {scan : List UInt8 → Leb128.Scan α}
    (used_le : ∀ bytes, (scan bytes).used ≤ bytes.length)
    (used_pos : ∀ {bytes value}, (scan bytes).result = .ok value → 0 < (scan bytes).used) :
    (leb128 scan used_le used_pos).read.Shifts distance id
      (leb128 scan used_le used_pos).read := by
  intro cursor place shifted
  have fits (cursor : Cursor) : (scan cursor.rest).used ≤ cursor.remaining :=
    cursor.rest_length ▸ used_le cursor.rest
  have scanned := congrArg scan shifted.rest_eq
  constructor
  · change (scan place.rest).result.mapError (leb128Error place) =
      shiftResult distance id ((scan cursor.rest).result.mapError (leb128Error cursor))
    rw [scanned]
    cases (scan cursor.rest).result with
    | ok value => rfl
    | error fault =>
        cases fault with
        | endOfData => exact congrArg (Except.error ∘ Error.unexpectedEnd) shifted.stop_eq
        | outOfRange => exact congrArg (Except.error ∘ Error.unexpectedEnd) shifted.offset_eq
  · have moved := shifted.forward (fits cursor) (scanned ▸ fits place)
    change (cursor.forward _ (fits cursor)).Shifted distance (place.forward _ (fits place))
    simp only [scanned]
    exact moved

theorem shifts_unsigned : unsigned.read.Shifts distance id unsigned.read :=
  shifts_leb128 _ _

theorem shifts_signed : signed.read.Shifts distance id signed.read :=
  shifts_leb128 _ _

theorem Composed.shifts {addresses : Bool} {decoder : Decoder α}
    (composed : Composed addresses decoder) : decoder.Shifts distance id decoder := by
  induction composed with
  | pure value => exact shifts_pure rfl
  | bind _ _ left right => exact left.bind right
  | bytes count => exact (plain_bytes count).shifts
  | fixed count positive => exact (plain_fixed count positive).shifts
  | unsigned => exact shifts_unsigned
  | signed => exact shifts_signed
  | sectionOffset => exact shifts_sectionOffset
  | address => exact shifts_address

/-! ## Items up to the end of the window -/

variable {item : Consuming α} {other : Consuming β}

theorem Shifts.collect (shifts : item.read.Shifts distance f other.read) (found : List α)
    (earlier : List β) :
    (item.map (· :: found)).read.Shifts distance (fun items => items.map f ++ earlier)
      (other.map (· :: (found.map f ++ earlier))).read :=
  shifts.map fun _ => rfl

/-- Items are collected further on as they are here, before the ones collected earlier. -/
theorem Shifts.untilEnd (shifts : item.read.Shifts distance f other.read) (earlier : List β)
    {cursor place : Cursor} (shifted : cursor.Shifted distance place) (found : List α) :
    (Decoder.untilEnd (fun found => other.map (· :: found)) (found.map f ++ earlier) place).result =
      shiftResult distance (fun items => items.map f ++ earlier)
        (Decoder.untilEnd (fun found => item.map (· :: found)) found cursor).result := by
  fun_induction Decoder.untilEnd (fun found => item.map (· :: found)) found cursor
    generalizing place with
  | case1 found cursor finished =>
      rw [untilEnd_of_atEnd (shifted.atEnd_eq.trans finished)]
      rfl
  | case2 found cursor unfinished error next reached read =>
      have open_place : place.atEnd = false := by simpa [shifted.atEnd_eq] using unfinished
      have failed := (shifts.collect found earlier shifted).1
      rw [read] at failed
      exact untilEnd_result_of_error open_place failed
  | case3 found cursor unfinished following next reached read ih =>
      have open_place : place.atEnd = false := by simpa [shifted.atEnd_eq] using unfinished
      obtain ⟨passed, onward⟩ := shifts.collect found earlier shifted
      rw [read] at passed onward
      rw [(untilEnd_result_of_ok open_place passed).1]
      exact ih onward

/-- Where items end and more bytes follow, the loop comes to these bytes with the items found. -/
theorem Reads.visits (stable : item.read.Stable .offset) {tail : List UInt8} {cursor place : Cursor}
    {values : List α} (reads : Reads item cursor values) (grown : cursor.Grown .offset tail place)
    (found : List α) :
    ∃ behind, Visits (fun found => item.map (· :: found)) place found behind
        (values.reverse ++ found) ∧
      behind.offset = cursor.stop ∧ behind.rest = tail ∧ behind.Under cursor.encoding := by
  induction reads generalizing place found with
  | @done cursor finished =>
      have empty := Cursor.atEnd_iff_rest.mp finished
      refine ⟨place, .start, ?_, ?_, grown.under⟩
      · rw [grown.offset_eq, Cursor.stop, empty]
        rfl
      · rw [grown.rest_eq, empty, List.nil_append]
  | @more cursor value values unfinished read _ ih =>
      obtain ⟨place_read, next, size⟩ := stable grown read
      obtain ⟨behind, visits, offset_eq, rest_eq, under⟩ := ih next (value :: found)
      have reached := (item.read cursor).reached
      have collected : ((item.map (· :: found)).read place).result = .ok (value :: found) :=
        bind_result_eq_ok.mpr ⟨value, place_read, rfl⟩
      have onward : ((item.map (· :: found)).read place).next = (item.read place).next :=
        bind_next place_read
      rw [List.reverse_cons, List.append_assoc]
      refine ⟨behind, ?_, offset_eq.trans reached.stop_eq, rest_eq, ?_⟩
      · exact Visits.behind (grown.unfinished unfinished) collected (onward ▸ visits)
      · exact ⟨under.order_eq.trans reached.order_eq,
          under.addressSize_eq.trans reached.addressSize_eq, under.offsetSize_eq.trans size⟩

/-- Items are read behind other items as they are read alone. -/
theorem Reads.many_append {item : Consuming α} {f : α → α}
    (shifts : item.read.Shifts distance f item.read) (stable : item.read.Stable .offset)
    {tail : List UInt8} {cursor place alone : Cursor} {values : List α}
    (reads : Reads item cursor values) (grown : cursor.Grown .offset tail place)
    (under : alone.Under cursor.encoding) (rest_eq : alone.rest = tail)
    (stop_eq : cursor.stop = alone.offset + distance) :
    (Decoder.many item).run place =
      shiftResult distance (fun later => values ++ later.map f) ((Decoder.many item).run alone) := by
  obtain ⟨behind, visits, offset_eq, behind_rest, behind_under⟩ :=
    reads.visits stable grown []
  have similar : alone.Similar behind :=
    .of_under under behind_under (behind_rest.trans rest_eq.symm)
  have shifted : alone.Shifted distance behind := ⟨similar, offset_eq.trans stop_eq⟩
  have collected := shifts.untilEnd values.reverse shifted []
  rw [List.map_nil, List.nil_append] at collected
  rw [List.append_nil] at visits
  have loop := visits.untilEnd_result.trans collected
  unfold Decoder.run Decoder.many
  cases result : (Decoder.untilEnd (fun found => item.map (· :: found)) [] alone).result with
  | error error =>
      rw [result] at loop
      rw [(bind_of_error result).1, (bind_of_error loop).1]
      rfl
  | ok later =>
      rw [result] at loop
      rw [bind_result result, bind_result loop]
      refine congrArg Except.ok ?_
      rw [List.reverse_append, List.reverse_reverse]
      exact congrArg (values ++ ·) List.map_reverse.symm

end Decoder

end Dwarf
