import Dwarf.Proofs.Expression.Width
import Dwarf.Proofs.Frame.Instruction
import Dwarf.Proofs.Frame.Layout
import Dwarf.Proofs.Unit.Header

/-!
# Entries read back

An entry of a call frame section is found where it has been laid out, in either kind of section, and
the fields of common entries and functions without augmentation are read back from their contents.
-/

namespace Dwarf

namespace Decoder

variable {α β : Type} {encoding : Encoding}

theorem Recognizes.read {decoder : Decoder α} {front after : List UInt8} {value : α}
    (recognizes : decoder.Recognizes encoding front value) {cursor : Cursor}
    (under : cursor.Under encoding) (rest : cursor.rest = front ++ after) :
    (decoder cursor).result = .ok value ∧ (decoder cursor).next.Under encoding ∧
      (decoder cursor).next.rest = after ∧
        (decoder cursor).next.offset = cursor.offset + front.length := by
  obtain ⟨fits, read, next⟩ := recognizes under rest
  rw [next]
  exact ⟨read, under.forward fits, Cursor.forward_rest rest fits, (Nat.add_assoc _ _ _).symm⟩

theorem Recognizes.andThen {first : Decoder α} {second : α → Decoder β} {front after : List UInt8}
    {value : α} (recognizes : first.Recognizes encoding front value) {cursor : Cursor}
    (under : cursor.Under encoding) (rest : cursor.rest = front ++ after) {answer : Except Error β}
    (onward : ∀ next : Cursor, next.Under encoding → next.rest = after →
      next.offset = cursor.offset + front.length → (second value next).result = answer) :
    (Decoder.bind first second cursor).result = answer := by
  obtain ⟨read, next_under, next_rest, next_offset⟩ := recognizes.read under rest
  rw [Decoder.bind_result read]
  exact onward _ next_under next_rest next_offset

theorem split_read {cursor : Cursor} {bytes after : List UInt8} {count : Nat}
    (length : bytes.length = count) (under : cursor.Under encoding)
    (rest : cursor.rest = bytes ++ after) :
    (split count cursor).result = .ok (encoding.cursor bytes cursor.offset) ∧
      (split count cursor).next.offset = cursor.offset + count := by
  subst length
  obtain ⟨fits, read, next⟩ := split_eq under rest
  rw [next]
  exact ⟨read, (Nat.add_assoc _ _ _).symm⟩

end Decoder

open Decoder

namespace PointerEncoding

/-- An absolute pointer is the address itself. -/
theorem recognizes_absolute {encoding : Encoding} (possible : encoding.addressSize ∈ [1, 2, 4, 8])
    {address : UInt64} (fits : address.toNat < 256 ^ encoding.addressSize) (origin : FrameSection)
    (entry : Nat) :
    (absolute.decode origin entry).Recognizes encoding
      (encoding.order.digits encoding.addressSize address.toNat) address := by
  intro cursor after under rest
  have fetched : absolute.decode origin entry cursor =
      absolute.fetch Decoder.address.read origin.address entry cursor cursor := rfl
  have read := (recognizes_address possible fits).mapError
    (FrameDefect.restate entry .pointerPastEntry)
  have masked : address &&& largestAddress cursor.addressSize = address := by
    rw [under.addressSize_eq, ← UInt64.toNat_inj]
    rw [← Nat.pow_mul 2 8] at fits
    exact ((Encoding.sized_of_mem possible).and_maxAddress address).trans (Nat.mod_eq_of_lt fits)
  have applied : absolute.apply (origin.address + UInt64.ofNat cursor.offset) address
      cursor.addressSize entry = .ok address := congrArg Except.ok masked
  have both : (absolute.fetch Decoder.address.read origin.address entry cursor).Recognizes encoding
      (encoding.order.digits encoding.addressSize address.toNat ++ []) address :=
    read.bind (Recognizes.ofExcept applied)
  rw [List.append_nil] at both
  rw [fetched]
  exact both under rest

end PointerEncoding

namespace FrameEntry

variable {origin : FrameSection}

/-- What follows when the bytes of an entry have been split off. -/
def afterSplit (origin : FrameSection) (offset : Nat) (length : UInt64) (inner : Cursor) :
    Decoder (Option FrameEntry) :=
  Decoder.bind Decoder.offset fun next =>
    if length = 0 then Decoder.pure (some ⟨offset, true, 0, inner, next⟩)
    else
      let marked :=
        (mark origin.kind).mapError (FrameDefect.restate offset .headerPastSection) inner
      Decoder.bind (Decoder.ofExcept marked.result) fun classified =>
        Decoder.pure (some ⟨offset, classified.1, classified.2, marked.next, next⟩)

theorem afterSplit_result {offset : Nat} {length : UInt64} (positive : length ≠ 0)
    {inner cursor : Cursor} {classified : Bool × Nat}
    (marked : (mark origin.kind inner).result = .ok classified) :
    (afterSplit origin offset length inner cursor).result =
      .ok (some ⟨offset, classified.1, classified.2, (mark origin.kind inner).next,
        cursor.offset⟩) := by
  obtain ⟨result_eq, next_eq⟩ :=
    mapError_eq (FrameDefect.restate offset .headerPastSection) (mark origin.kind) inner
  rw [marked] at result_eq
  unfold afterSplit
  simp only [if_neg positive, result_eq, next_eq]
  rfl

/-- What follows the length of an entry. -/
def afterLength (origin : FrameSection) (offset : Nat) (length : UInt64) :
    Decoder (Option FrameEntry) :=
  if length = 0 ∧ origin.kind = .exception then Decoder.pure none
  else Decoder.bind
    ((split length.toNat).mapError (FrameDefect.restate offset .entryPastSection))
    (afterSplit origin offset length)

theorem extent_eq (origin : FrameSection) (offset : Nat) :
    extent origin offset = Decoder.bind
      (initialLength.read.mapError (FrameDefect.restate offset .headerPastSection))
      (afterLength origin offset) :=
  rfl

/-- Where an entry is read. -/
def startAt (origin : FrameSection) (data : List UInt8) (offset : Nat) : Cursor :=
  (Cursor.start (data.drop offset) offset origin.order).withAddressSize origin.addressSize

theorem extent_length {length : Nat} (small : length < 0xffffffff) {cursor : Cursor}
    {after : List UInt8} (under : cursor.Under origin.encoding)
    (rest : cursor.rest = origin.order.digits 4 length ++ after) (offset : Nat) :
    ∃ next : Cursor,
      (extent origin offset cursor).result = (afterLength origin offset (.ofNat length) next).result ∧
        next.Under origin.encoding ∧ next.rest = after ∧ next.offset = cursor.offset + 4 := by
  obtain ⟨read, next_rest, next_under⟩ := @initialLength_narrow _ _ _ origin.encoding rfl
    small under.order_eq under.addressSize_eq rest
  obtain ⟨_, next_offset⟩ := initialLength_next read
  rw [next_under.offsetSize_eq] at next_offset
  refine ⟨_, ?_, next_under, next_rest, next_offset⟩
  rw [extent_eq, Decoder.bind_result (mapError_result_eq_ok.mpr read), (mapError_eq ..).2]

/-- A mark of four bytes is classified by its number and its place. -/
theorem mark_digits (kind : FrameKind) {encoding : Encoding} (size : encoding.offsetSize = 4)
    {number : Nat} (narrow : number < 256 ^ 4) {cursor : Cursor} {after : List UInt8}
    (under : cursor.Under encoding)
    (rest : cursor.rest = encoding.order.digits 4 number ++ after) :
    (mark kind cursor).result = .ok (classify kind cursor.offset number 4) ∧
      (mark kind cursor).next.Under encoding ∧ (mark kind cursor).next.rest = after ∧
        (mark kind cursor).next.offset = cursor.offset + 4 := by
  have word : (UInt64.ofNat number).toNat = number := by
    rw [UInt64.toNat_ofNat']
    omega
  have recognizes := @recognizes_sectionOffset encoding (by simp [size]) (.ofNat number)
    (by rw [word, size]; exact narrow)
  rw [word, size] at recognizes
  obtain ⟨read, next⟩ := recognizes.read under rest
  rw [ByteOrder.digits_length] at next
  have classified : mark kind cursor = Decoder.bind sectionOffset.read (fun mark => Decoder.pure
      (classify kind cursor.offset mark.toNat cursor.offsetSize)) cursor := rfl
  rw [classified, Decoder.bind_result read, bind_next read, under.offsetSize_eq, size, word]
  exact ⟨rfl, next⟩

theorem startAt_under (origin : FrameSection) (data : List UInt8) (offset : Nat) :
    (startAt origin data offset).Under origin.encoding :=
  ⟨rfl, rfl, rfl⟩

theorem startAt_offset (origin : FrameSection) (data : List UInt8) (offset : Nat) :
    (startAt origin data offset).offset = offset :=
  Nat.add_zero offset

theorem frame_eq {before rest : List UInt8} :
    frame origin (before ++ rest) before.length =
      (extent origin before.length (startAt origin (before ++ rest) before.length)).result := by
  rw [frame, if_pos (by simp)]
  rfl

/-- An entry with a mark is found where it is stored. -/
theorem frame_framed {before contents after : List UInt8} {number : Nat}
    (small : 4 + contents.length < 0xffffffff) (narrow : number < 256 ^ 4) :
    ∃ body : Cursor,
      frame origin (before ++ (origin.framed number contents ++ after)) before.length =
          .ok (some ⟨before.length, (classify origin.kind (before.length + 4) number 4).1,
            (classify origin.kind (before.length + 4) number 4).2, body,
            before.length + (origin.framed number contents).length⟩) ∧
        body.Under origin.encoding ∧ body.rest = contents ∧ body.offset = before.length + 8 := by
  have under := startAt_under origin (before ++ (origin.framed number contents ++ after))
    before.length
  have start_rest : (startAt origin (before ++ (origin.framed number contents ++ after))
      before.length).rest = origin.order.digits 4 (4 + contents.length) ++
        ((origin.order.digits 4 number ++ contents) ++ after) := by
    change (before ++ _).drop before.length = _
    rw [List.drop_left, FrameSection.framed, List.append_assoc]
  obtain ⟨next, result, next_under, next_rest, next_offset⟩ :=
    extent_length small under start_rest before.length
  have length : (origin.order.digits 4 number ++ contents).length = 4 + contents.length := by
    rw [List.length_append, ByteOrder.digits_length]
  have word : (UInt64.ofNat (4 + contents.length)).toNat = 4 + contents.length := by
    rw [UInt64.toNat_ofNat']
    omega
  have positive : UInt64.ofNat (4 + contents.length) ≠ 0 := by
    intro zero
    rw [zero] at word
    change 0 = _ at word
    omega
  obtain ⟨inner_read, stop⟩ := split_read (length.trans word.symm) next_under next_rest
  have inner_under := Cursor.under_cursor origin.encoding (origin.order.digits 4 number ++ contents)
    next.offset
  obtain ⟨marked, body_under, body_rest, body_offset⟩ :=
    mark_digits origin.kind rfl narrow inner_under rfl
  have inner_offset : (origin.encoding.cursor (origin.order.digits 4 number ++ contents)
      next.offset).offset = before.length + 4 := next_offset
  rw [inner_offset] at marked body_offset
  refine ⟨_, ?_, body_under, body_rest, body_offset⟩
  rw [frame_eq, result, afterLength, if_neg fun empty => positive empty.1,
    Decoder.bind_result (mapError_result_eq_ok.mpr inner_read), (mapError_eq ..).2,
    afterSplit_result positive marked, stop, word, next_offset, FrameSection.framed_length,
    startAt_offset, Nat.add_assoc, ← Nat.add_assoc 4 4]

theorem frame_terminator (before after : List UInt8) (loaded : origin.kind = .exception) :
    frame origin (before ++ ([0, 0, 0, 0] ++ after)) before.length = .ok none := by
  have under := startAt_under origin (before ++ ([0, 0, 0, 0] ++ after)) before.length
  have zeros : origin.order.digits 4 0 = [0, 0, 0, 0] := by cases origin.order <;> rfl
  have rest : (startAt origin (before ++ ([0, 0, 0, 0] ++ after)) before.length).rest =
      origin.order.digits 4 0 ++ after := by
    change (before ++ _).drop before.length = _
    rw [List.drop_left, zeros]
  obtain ⟨next, result, _⟩ := extent_length (by decide) under rest before.length
  rw [frame_eq, result, afterLength, if_pos ⟨rfl, loaded⟩]
  rfl

end FrameEntry

theorem Decoder.recognizes_empty {encoding : Encoding} :
    cstring.read.Recognizes encoding [0] [] :=
  Consumes.recognizes ⟨rfl, rfl⟩ local_cstring

namespace ReturnRegister

variable {encoding : Encoding}

theorem supports_version (register : ReturnRegister) (kind : FrameKind) :
    CommonEntry.supports kind register.version = true := by
  cases register <;> cases kind <;> rfl

theorem statedAddressSize_eq (register : ReturnRegister) (origin : FrameSection) (offset : Nat) :
    CommonEntry.statedAddressSize origin offset register.version =
      Decoder.pure origin.addressSize := by
  cases register <;> rfl

theorem recognizes_stored (register : ReturnRegister) (offset : Nat) :
    (CommonEntry.register offset register.version).Recognizes encoding register.stored
      register.number := by
  cases register with
  | byte number => exact (recognizes_uint8 number).map UInt8.toNat
  | leb128 number =>
      have word : (UInt64.ofNat number.toNat).toNat = number.toNat := by
        have := number.toNat_lt
        rw [UInt64.toNat_ofNat']
        omega
      have small : UInt64.ofNat number.toNat < 0x10000 := by
        rw [UInt64.lt_iff_toNat_lt, word]
        exact number.toNat_lt
      have checked : (if UInt64.ofNat number.toNat < 0x10000 then
          Decoder.pure (UInt64.ofNat number.toNat).toNat
          else Decoder.fail (.malformedCallFrame offset .wideReturnRegister)).Recognizes encoding []
            number.toNat := by
        rw [if_pos small, word]
        exact Recognizes.pure _
      have both : (CommonEntry.register offset (leb128 number).version).Recognizes encoding
          (Leb128.encode (UInt64.ofNat number.toNat).toNat ++ []) number.toNat :=
        (recognizes_unsigned _).bind checked
      rw [List.append_nil, word] at both
      exact both

end ReturnRegister

namespace CommonDescription

variable {origin : FrameSection}

/-- A common entry is read back from its contents. -/
theorem decode_entry (description : CommonDescription) {frame : FrameEntry}
    (under : frame.body.Under origin.encoding) (rest : frame.body.rest = description.contents)
    (offset : frame.body.offset = frame.offset + 8) :
    CommonEntry.decode origin frame =
      .ok (description.entry frame.offset origin.addressSize) := by
  refine mapError_result_eq_ok.mpr ?_
  rw [contents, header] at rest
  simp only [List.append_assoc] at rest
  unfold CommonEntry.fields
  refine (recognizes_uint8 _).andThen under rest fun first under rest first_offset => ?_
  rw [if_neg (by rw [ReturnRegister.supports_version]; decide)]
  refine recognizes_empty.andThen under rest fun second under rest second_offset => ?_
  rw [ReturnRegister.statedAddressSize_eq]
  refine (recognizes_unsigned _).andThen under rest fun third under rest third_offset => ?_
  refine (recognizes_signed _).andThen under rest fun fourth under rest fourth_offset => ?_
  refine (description.returnRegister.recognizes_stored _).andThen under rest
    fun fifth under rest fifth_offset => ?_
  have place : fifth.offset = frame.offset + 8 + description.header.length := by
    rw [fifth_offset, fourth_offset, third_offset, second_offset, first_offset, offset, header]
    simp only [List.length_append]
    omega
  rw [entry, ← place, ← rest]
  rfl

end CommonDescription

namespace FunctionDescription

variable {origin : FrameSection}

/-- A function entry is read back from its contents, with a common entry without augmentation. -/
theorem decode_entry (description : FunctionDescription) {frame : FrameEntry} {common : CommonEntry}
    (possible : origin.addressSize ∈ [1, 2, 4, 8]) (size : common.addressSize = origin.addressSize)
    (plain : common.added = {} ∧ common.hasData = false)
    (start_fits : description.start.toNat < 256 ^ origin.addressSize)
    (range_fits : description.range.toNat < 256 ^ origin.addressSize)
    (under : frame.body.Under origin.encoding)
    (rest : frame.body.rest = description.contents origin.order origin.addressSize)
    (offset : frame.body.offset = frame.offset + 8) :
    FunctionEntry.decode origin common frame = .ok (description.entry frame.offset common) := by
  refine mapError_result_eq_ok.mpr ?_
  have body_under : (frame.body.withAddressSize common.addressSize).Under origin.encoding :=
    ⟨under.order_eq, size, under.offsetSize_eq⟩
  have body_rest : (frame.body.withAddressSize common.addressSize).rest = _ := rest
  rw [contents] at body_rest
  unfold FunctionEntry.fields
  rw [plain.1]
  refine (PointerEncoding.recognizes_absolute possible start_fits origin frame.offset).andThen
    body_under body_rest fun first under rest first_offset => ?_
  refine (PointerEncoding.recognizes_absolute possible range_fits origin frame.offset).andThen
    under rest fun second under rest second_offset => ?_
  have undetailed : FunctionEntry.augmentationData origin common frame.offset =
      Decoder.pure none := by
    unfold FunctionEntry.augmentationData
    rw [plain.2]
    rfl
  rw [undetailed]
  have place : second.offset = frame.offset + 8 + 2 * common.addressSize := by
    have start_place : (frame.body.withAddressSize common.addressSize).offset =
        frame.offset + 8 := offset
    rw [second_offset, first_offset, start_place, ByteOrder.digits_length, ByteOrder.digits_length,
      size]
    change frame.offset + 8 + origin.addressSize + origin.addressSize = _
    omega
  rw [entry, ← place, ← rest]
  rfl

end FunctionDescription

end Dwarf
