import Dwarf.Encoding
import Dwarf.Decoder.Primitive
import Dwarf.Proofs.Decoder.Passes

/-!
# Decoders and the bytes they pass

A decoder is local if its success depends on nothing but the bytes it passes over, the byte order
and the sizes of the cursor: put the same bytes anywhere else, whatever follows them, and it
delivers the same value and stops behind them.  All decoders built from the primitive reads without
looking at their place are local, and what a local decoder recognizes is prefix-free.
-/

namespace Dwarf

/-- The cursor has the byte order and the sizes of an encoding. -/
structure Cursor.Under (cursor : Cursor) (encoding : Encoding) : Prop where
  order_eq : cursor.order = encoding.order
  addressSize_eq : cursor.addressSize = encoding.addressSize
  offsetSize_eq : cursor.offsetSize = encoding.offsetSize

namespace Cursor

/-- The encoding whose sizes and byte order a cursor has. -/
def encoding (cursor : Cursor) : Encoding :=
  { addressSize := cursor.addressSize, offsetSize := cursor.offsetSize, order := cursor.order }

theorem under_encoding (cursor : Cursor) : cursor.Under cursor.encoding :=
  ⟨rfl, rfl, rfl⟩

theorem Under.forward {cursor : Cursor} {encoding : Encoding} (under : cursor.Under encoding)
    {count : Nat} (fits : count ≤ cursor.remaining) : (cursor.forward count fits).Under encoding :=
  ⟨under.order_eq, under.addressSize_eq, under.offsetSize_eq⟩

theorem under_cursor (encoding : Encoding) (data : List UInt8) (base : Nat) :
    (encoding.cursor data base).Under encoding :=
  ⟨rfl, rfl, rfl⟩

theorem fits_of_rest {cursor : Cursor} {bytes after : List UInt8}
    (rest : cursor.rest = bytes ++ after) : bytes.length ≤ cursor.remaining := by
  rw [← cursor.rest_length, rest, List.length_append]
  exact Nat.le_add_right _ _

theorem forward_rest {cursor : Cursor} {bytes after : List UInt8}
    (rest : cursor.rest = bytes ++ after) (fits : bytes.length ≤ cursor.remaining) :
    (cursor.forward bytes.length fits).rest = after := by
  change cursor.rest.drop bytes.length = after
  rw [rest, List.drop_left]

theorem forward_forward {cursor : Cursor} {first second : Nat} (fits : first ≤ cursor.remaining)
    (more : second ≤ (cursor.forward first fits).remaining)
    (both : first + second ≤ cursor.remaining) :
    (cursor.forward first fits).forward second more = cursor.forward (first + second) both := by
  simp [forward, Nat.add_assoc]

theorem atEnd_iff_rest {cursor : Cursor} : cursor.atEnd = true ↔ cursor.rest = [] := by
  rw [← List.length_eq_zero_iff, cursor.rest_length]
  have within := cursor.position_le
  simp only [atEnd, remaining, decide_eq_true_eq]
  omega

end Cursor

namespace Decoder

variable {α β : Type} {encoding : Encoding}

/-- On its own, the byte string is read as the value and nothing of it is left. -/
def Consumes (decoder : Decoder α) (encoding : Encoding) (bytes : List UInt8) (value : α) : Prop :=
  (decoder (encoding.cursor bytes 0)).result = .ok value ∧
    (decoder (encoding.cursor bytes 0)).next.atEnd = true

/-- Wherever the byte string comes next, it is read as the value and nothing more is passed. -/
def Recognizes (decoder : Decoder α) (encoding : Encoding) (bytes : List UInt8) (value : α) :
    Prop :=
  ∀ ⦃cursor : Cursor⦄ ⦃after : List UInt8⦄, cursor.Under encoding → cursor.rest = bytes ++ after →
    ∃ fits, (decoder cursor).result = .ok value ∧
      (decoder cursor).next = cursor.forward bytes.length fits

/-- The decoder recognizes what it has passed whenever it succeeds. -/
def Local (decoder : Decoder α) : Prop :=
  ∀ ⦃encoding : Encoding⦄ ⦃cursor : Cursor⦄ ⦃value : α⦄, cursor.Under encoding →
    (decoder cursor).result = .ok value →
      ∃ bytes after, cursor.rest = bytes ++ after ∧ decoder.Recognizes encoding bytes value

/-- Where one decoder succeeds, the other delivers the same value and stops at the same place. -/
def Follows (decoder other : Decoder α) : Prop :=
  ∀ ⦃cursor : Cursor⦄ ⦃value : α⦄, (other cursor).result = .ok value →
    (decoder cursor).result = .ok value ∧ (decoder cursor).next = (other cursor).next

/-! ## Recognized byte strings -/

theorem Recognizes.consumes {decoder : Decoder α} {bytes : List UInt8} {value : α}
    (recognizes : decoder.Recognizes encoding bytes value) :
    decoder.Consumes encoding bytes value := by
  obtain ⟨fits, read, next⟩ := recognizes (Cursor.under_cursor encoding bytes 0)
    (List.append_nil bytes).symm
  refine ⟨read, ?_⟩
  rw [next, Cursor.atEnd_iff_rest]
  exact Cursor.forward_rest (List.append_nil bytes).symm fits

/-- Recognized bytes can be read at the start of a window, whatever comes behind them. -/
theorem Recognizes.run {decoder : Decoder α} {bytes : List UInt8} {value : α}
    (recognizes : decoder.Recognizes encoding bytes value) (after : List UInt8) (base : Nat) :
    decoder.run (encoding.cursor (bytes ++ after) base) = .ok value := by
  obtain ⟨_, read, _⟩ := recognizes (Cursor.under_cursor encoding (bytes ++ after) base) rfl
  exact read

theorem Consumes.recognizes {decoder : Decoder α} {bytes : List UInt8} {value : α}
    (consumes : decoder.Consumes encoding bytes value) (locality : decoder.Local) :
    decoder.Recognizes encoding bytes value := by
  have under := Cursor.under_cursor encoding bytes 0
  obtain ⟨front, after, rest, recognizes⟩ := locality under consumes.1
  obtain ⟨fits, _, next⟩ := recognizes under rest
  have ended := consumes.2
  rw [next, Cursor.atEnd_iff_rest, Cursor.forward_rest rest fits] at ended
  have same : bytes = front := by
    rw [ended, List.append_nil] at rest
    exact rest
  exact same ▸ recognizes

theorem Recognizes.unique {decoder : Decoder α} {first second after behind : List UInt8}
    {value other : α} (left : decoder.Recognizes encoding first value)
    (right : decoder.Recognizes encoding second other)
    (same : first ++ after = second ++ behind) :
    first = second ∧ value = other ∧ after = behind := by
  have under := Cursor.under_cursor encoding (first ++ after) 0
  obtain ⟨fits, read, next⟩ := left under rfl
  obtain ⟨other_fits, other_read, other_next⟩ := right under same
  have position := congrArg Cursor.position (next.symm.trans other_next)
  have length : first.length = second.length := Nat.add_left_cancel position
  obtain ⟨front, back⟩ := List.append_inj same length
  exact ⟨front, Except.ok.inj (read.symm.trans other_read), back⟩

theorem Recognizes.pure (value : α) : (Decoder.pure value).Recognizes encoding [] value :=
  fun _ _ _ _ => ⟨Nat.zero_le _, rfl, rfl⟩

theorem Recognizes.bind {first : Decoder α} {second : α → Decoder β} {front back : List UInt8}
    {inner : α} {value : β} (left : first.Recognizes encoding front inner)
    (right : (second inner).Recognizes encoding back value) :
    (Decoder.bind first second).Recognizes encoding (front ++ back) value := by
  intro cursor after under rest
  rw [List.append_assoc] at rest
  obtain ⟨fits, read, next⟩ := left under rest
  obtain ⟨more, read_more, next_more⟩ := right (under.forward fits) (Cursor.forward_rest rest fits)
  have both : (front ++ back).length ≤ cursor.remaining :=
    Cursor.fits_of_rest ((List.append_assoc front back after).symm ▸ rest)
  refine ⟨both, bind_result_eq_ok.mpr ⟨inner, read, next ▸ read_more⟩, ?_⟩
  rw [bind_next read, next, next_more]
  simp only [List.length_append] at both ⊢
  exact Cursor.forward_forward fits more both

theorem Recognizes.follow {decoder other : Decoder α} {bytes : List UInt8} {value : α}
    (recognizes : other.Recognizes encoding bytes value) (follows : decoder.Follows other) :
    decoder.Recognizes encoding bytes value := by
  intro cursor after under rest
  obtain ⟨fits, read, next⟩ := recognizes under rest
  obtain ⟨value_eq, next_eq⟩ := follows read
  exact ⟨fits, value_eq, next_eq.trans next⟩

/-! ## Decoders that succeed alike -/

theorem Follows.refl (decoder : Decoder α) : decoder.Follows decoder :=
  fun _ _ read => ⟨read, rfl⟩

theorem Follows.fail (decoder : Decoder α) (error : Error) :
    decoder.Follows (Decoder.fail error) :=
  fun _ _ read => nomatch read

theorem Follows.bind {first other : Decoder α} {second after : α → Decoder β}
    (left : first.Follows other) (right : ∀ inner, (second inner).Follows (after inner)) :
    (Decoder.bind first second).Follows (Decoder.bind other after) := by
  intro cursor value read
  obtain ⟨inner, other_read, after_read⟩ := bind_result_eq_ok.mp read
  obtain ⟨first_read, next⟩ := left other_read
  obtain ⟨second_read, last⟩ := right inner after_read
  refine ⟨bind_result_eq_ok.mpr ⟨inner, first_read, next ▸ second_read⟩, ?_⟩
  rw [bind_next first_read, bind_next other_read, next, last]

/-! ## Local decoders -/

theorem Local.rest {decoder : Decoder α} (locality : decoder.Local) {cursor : Cursor} {value : α}
    (read : (decoder cursor).result = .ok value) :
    ∃ bytes, decoder.Recognizes cursor.encoding bytes value ∧
      cursor.rest = bytes ++ (decoder cursor).next.rest := by
  obtain ⟨bytes, after, rest, recognizes⟩ := locality cursor.under_encoding read
  obtain ⟨fits, _, next⟩ := recognizes cursor.under_encoding rest
  refine ⟨bytes, recognizes, ?_⟩
  rw [next, Cursor.forward_rest rest fits, rest]

theorem local_pure (value : α) : (Decoder.pure value).Local :=
  fun _ _ _ _ read => ⟨[], _, rfl, Except.ok.inj read ▸ Recognizes.pure _⟩

theorem local_fail (error : Error) : (Decoder.fail error : Decoder α).Local :=
  fun _ _ _ _ read => nomatch read

theorem Local.bind {first : Decoder α} {second : α → Decoder β} (left : first.Local)
    (right : ∀ inner, (second inner).Local) : (Decoder.bind first second).Local := by
  intro encoding cursor value under read
  obtain ⟨inner, first_read, second_read⟩ := bind_result_eq_ok.mp read
  obtain ⟨front, after, rest, recognizes⟩ := left under first_read
  obtain ⟨fits, _, next⟩ := recognizes under rest
  rw [next] at second_read
  obtain ⟨back, behind, more, recognizes_more⟩ :=
    right inner (under.forward fits) second_read
  rw [Cursor.forward_rest rest fits] at more
  refine ⟨front ++ back, behind, ?_, recognizes.bind recognizes_more⟩
  rw [rest, more, List.append_assoc]

theorem Local.map {decoder : Decoder α} (f : α → β) (locality : decoder.Local) :
    (Decoder.bind decoder fun value => Decoder.pure (f value)).Local :=
  locality.bind fun _ => local_pure _

/-- A decoder that only asks for the byte order or a size of its cursor. -/
theorem local_of_under (decoder : Cursor → Decoder α) (selected : Encoding → Decoder α)
    (select : ∀ {encoding : Encoding} {cursor : Cursor}, cursor.Under encoding →
      decoder cursor = selected encoding)
    (locality : ∀ encoding, (selected encoding).Local) :
    Local fun cursor => decoder cursor cursor := by
  intro encoding cursor value under read
  dsimp only at read
  rw [select under] at read
  obtain ⟨bytes, after, rest, recognizes⟩ := locality encoding under read
  refine ⟨bytes, after, rest, ?_⟩
  intro other behind other_under other_rest
  dsimp only
  rw [select other_under]
  exact recognizes other_under other_rest

theorem rest_of_bytes {count : Nat} {cursor : Cursor} {stored : List UInt8}
    (read : (Decoder.bytes count cursor).result = .ok stored) :
    stored.length = count ∧ cursor.rest = stored ++ (Decoder.bytes count cursor).next.rest := by
  unfold Decoder.bytes at read ⊢
  by_cases fits : count ≤ cursor.remaining
  · simp only [fits, dite_true, Except.ok.injEq] at read ⊢
    subst read
    rw [List.length_take, cursor.rest_length]
    exact ⟨Nat.min_eq_left fits, (List.take_append_drop count cursor.rest).symm⟩
  · simp [fits] at read

theorem local_bytes (count : Nat) : (Decoder.bytes count).Local := by
  intro encoding cursor value under read
  obtain ⟨length, rest⟩ := rest_of_bytes read
  refine ⟨value, _, rest, ?_⟩
  intro other after _ other_rest
  have fits := Cursor.fits_of_rest other_rest
  rw [← length]
  refine ⟨fits, ?_, ?_⟩
  · simp only [Decoder.bytes, fits, dite_true, other_rest, List.take_left]
  · simp only [Decoder.bytes, fits, dite_true]

theorem local_fixed (count : Nat) (positive : 0 < count) : (fixed count positive).read.Local :=
  (local_bytes count).bind fun stored =>
    local_of_under (fun cursor => Decoder.pure (cursor.order.value stored))
      (fun encoding => Decoder.pure (encoding.order.value stored))
      (fun under => by rw [under.order_eq]) fun _ => local_pure _

theorem local_uint8 : uint8.read.Local := (local_fixed 1 _).map _

theorem local_uint16 : uint16.read.Local := (local_fixed 2 _).map _

theorem local_uint32 : uint32.read.Local := (local_fixed 4 _).map _

theorem local_uint64 : uint64.read.Local := (local_fixed 8 _).map _

theorem local_sized (width : Nat) : (sized width).read.Local := by
  unfold sized
  split
  · exact local_uint8.map _
  · exact local_uint16.map _
  · exact local_uint32.map _
  · exact local_uint64
  · exact fun _ _ _ _ read => nomatch read

theorem local_address : address.read.Local :=
  local_of_under (fun cursor => (sized cursor.addressSize).read)
    (fun encoding => (sized encoding.addressSize).read)
    (fun under => by rw [under.addressSize_eq]) fun _ => local_sized _

theorem local_sectionOffset : sectionOffset.read.Local :=
  local_of_under (fun cursor => (sized cursor.offsetSize).read)
    (fun encoding => (sized encoding.offsetSize).read)
    (fun under => by rw [under.offsetSize_eq]) fun _ => local_sized _

/-- A variable-length integer ends where its last byte says so. -/
theorem readFrom_ok {padding : UInt8 → Bool} {finish : UInt8 → Nat → UInt64 → α} {total : UInt64}
    {shift used : Nat} {bytes : List UInt8} {value : α}
    (read : (Leb128.readFrom padding finish total shift used bytes).result = .ok value) :
    ∃ front after, bytes = front ++ after ∧ ∀ behind,
      Leb128.readFrom padding finish total shift used (front ++ behind) =
        ⟨.ok value, used + front.length⟩ := by
  induction bytes generalizing total shift used with
  | nil => cases read
  | cons byte rest ih =>
      rw [Leb128.readFrom] at read
      cases absorbed : Leb128.absorb padding total shift byte with
      | none => simp [absorbed] at read
      | some next =>
          simp only [absorbed] at read
          by_cases more : Leb128.continues byte = true
          · rw [if_pos more] at read
            obtain ⟨front, after, split, same⟩ := ih read
            refine ⟨byte :: front, after, by rw [split]; rfl, fun behind => ?_⟩
            rw [List.cons_append, Leb128.readFrom, absorbed]
            simp only [more, if_true]
            rw [same, List.length_cons]
            congr 1
            omega
          · rw [if_neg more] at read
            refine ⟨[byte], rest, rfl, fun behind => ?_⟩
            rw [List.cons_append, Leb128.readFrom, absorbed]
            simp only [more]
            rw [← Except.ok.inj read]
            rfl

theorem local_leb128 {scan : List UInt8 → Leb128.Scan α}
    (used_le : ∀ bytes, (scan bytes).used ≤ bytes.length)
    (used_pos : ∀ {bytes value}, (scan bytes).result = .ok value → 0 < (scan bytes).used)
    (ends : ∀ {bytes value}, (scan bytes).result = .ok value → ∃ front after,
      bytes = front ++ after ∧ ∀ behind, scan (front ++ behind) = ⟨.ok value, front.length⟩) :
    (leb128 scan used_le used_pos).read.Local := by
  intro encoding cursor value under read
  have succeeded : (scan cursor.rest).result = .ok value := by
    change (scan cursor.rest).result.mapError (leb128Error cursor) = .ok value at read
    cases result : (scan cursor.rest).result with
    | error fault => rw [result] at read; cases read
    | ok found => rw [result] at read; exact congrArg Except.ok (Except.ok.inj read)
  obtain ⟨front, after, rest, same⟩ := ends succeeded
  refine ⟨front, after, rest, ?_⟩
  intro other behind _ other_rest
  have scanned := same behind
  rw [← other_rest] at scanned
  refine ⟨Cursor.fits_of_rest other_rest, ?_, ?_⟩
  · change (scan other.rest).result.mapError (leb128Error other) = .ok value
    rw [scanned]
    rfl
  · change other.forward (scan other.rest).used (other.rest_length ▸ used_le other.rest) = _
    simp only [scanned]

theorem local_unsigned : unsigned.read.Local :=
  local_leb128 _ _ fun read => by simpa [Leb128.unsigned] using readFrom_ok read

theorem local_signed : signed.read.Local :=
  local_leb128 _ _ fun read => by simpa [Leb128.signed] using readFrom_ok read

/-- A terminated string is followed by its terminator and whatever comes after. -/
theorem eq_takeWhile_append {bytes : List UInt8} (terminated : 0 ∈ bytes) :
    ∃ after, bytes = bytes.takeWhile (· != 0) ++ [0] ++ after := by
  induction bytes with
  | nil => cases terminated
  | cons byte rest ih =>
      by_cases zero : byte = 0
      · exact ⟨rest, by simp [zero]⟩
      · have later : 0 ∈ rest := by simpa [Ne.symm zero] using terminated
        obtain ⟨after, split⟩ := ih later
        refine ⟨after, ?_⟩
        rw [List.takeWhile_cons_of_pos (by simpa using zero), List.cons_append, List.cons_append,
          ← split]

theorem takeWhile_terminated {text : List UInt8} (after : List UInt8)
    (nonzero : ∀ byte ∈ text, byte ≠ 0) :
    (text ++ [0] ++ after).takeWhile (· != 0) = text := by
  rw [List.append_assoc, List.takeWhile_append_of_pos (by simpa using nonzero)]
  simp

theorem local_cstring : cstring.read.Local := by
  intro encoding cursor value under read
  have unfolded {other : Cursor} (terminated : 0 ∈ other.rest) :
      ∃ fits, (cstring.read other).result = .ok (other.rest.takeWhile (· != 0)) ∧
        (cstring.read other).next =
          other.forward ((other.rest.takeWhile (· != 0)).length + 1) fits := by
    have fits := takeWhile_length_lt_of_zero_mem terminated
    rw [other.rest_length] at fits
    exact ⟨fits, by simp only [cstring, terminated, dite_true],
      by simp only [cstring, terminated, dite_true]⟩
  by_cases terminated : 0 ∈ cursor.rest
  · obtain ⟨_, found, _⟩ := unfolded terminated
    have text : value = cursor.rest.takeWhile (· != 0) := Except.ok.inj (read.symm.trans found)
    have nonzero : ∀ byte ∈ value, byte ≠ 0 := by
      intro byte member
      rw [text] at member
      simpa using List.all_eq_true.mp List.all_takeWhile byte member
    obtain ⟨behind, split⟩ := eq_takeWhile_append terminated
    rw [← text] at split
    refine ⟨value ++ [0], behind, split, ?_⟩
    intro other after _ rest
    have other_terminated : 0 ∈ other.rest := by simp [rest]
    obtain ⟨fits, other_read, next⟩ := unfolded other_terminated
    have same : other.rest.takeWhile (· != 0) = value := by
      rw [rest]
      exact takeWhile_terminated after nonzero
    simp only [same] at other_read next
    refine ⟨Cursor.fits_of_rest rest, other_read, ?_⟩
    simpa using next
  · simp [cstring, terminated] at read

/-! ## Decoders of numbers -/

/-- Decoders that are put together from reads of numbers and byte strings.  Target addresses may be
among the numbers or not. -/
inductive Composed (addresses : Bool) : ∀ {α : Type}, Decoder α → Prop where
  | pure {α : Type} (value : α) : Composed addresses (Decoder.pure value)
  | bind {α β : Type} {first : Decoder α} {second : α → Decoder β}
      (left : Composed addresses first) (right : ∀ inner, Composed addresses (second inner)) :
      Composed addresses (Decoder.bind first second)
  | bytes (count : Nat) : Composed addresses (Decoder.bytes count)
  | fixed (count : Nat) (positive : 0 < count) : Composed addresses (fixed count positive).read
  | unsigned : Composed addresses unsigned.read
  | signed : Composed addresses signed.read
  | sectionOffset : Composed addresses sectionOffset.read
  | address (allowed : addresses = true) : Composed addresses address.read

variable {addresses : Bool}

theorem Composed.map {decoder : Decoder α} (f : α → β) (composed : Composed addresses decoder) :
    Composed addresses (Decoder.bind decoder fun value => Decoder.pure (f value)) :=
  composed.bind fun _ => .pure _

theorem composed_uint8 : Composed addresses uint8.read := (Composed.fixed 1 _).map _

theorem composed_uint16 : Composed addresses uint16.read := (Composed.fixed 2 _).map _

theorem composed_uint32 : Composed addresses uint32.read := (Composed.fixed 4 _).map _

theorem composed_uint64 : Composed addresses uint64.read := (Composed.fixed 8 _).map _

theorem Composed.local {decoder : Decoder α} (composed : Composed addresses decoder) :
    decoder.Local := by
  induction composed with
  | pure value => exact local_pure value
  | bind _ _ left right => exact left.bind right
  | bytes count => exact local_bytes count
  | fixed count positive => exact local_fixed count positive
  | unsigned => exact local_unsigned
  | signed => exact local_signed
  | sectionOffset => exact local_sectionOffset
  | address => exact local_address

end Decoder

end Dwarf
