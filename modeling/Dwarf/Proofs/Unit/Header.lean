import Dwarf.Unit.Header
import Dwarf.Proofs.Except
import Dwarf.Proofs.Decoder.Confined
import Dwarf.Proofs.Decoder.Faults

/-!
# Unit headers and where units end

A header that can be decoded lies inside its unit, and its unit lies inside the section; whether the
end is computed from the fields or by going on from the length field, it is the same.  Decoding a
header looks at nothing behind the place where it stops, so it gives the same answer in two sections
that differ only further on.
-/

namespace Dwarf

open Decoder

namespace Decoder

variable {α β : Type}

theorem plain_sectionOffset {cursor : Cursor}
    (format : cursor.offsetSize = 4 ∨ cursor.offsetSize = 8) :
    (sized cursor.offsetSize).read.Plain cursor.offsetSize := by
  cases format with
  | inl narrow =>
      rw [narrow]
      exact plain_uint32.map _
  | inr wide =>
      rw [wide]
      exact plain_uint64

theorem sectionOffset_next {cursor : Cursor} {value : UInt64}
    (format : cursor.offsetSize = 4 ∨ cursor.offsetSize = 8)
    (read : (sectionOffset.read cursor).result = .ok value) :
    (sectionOffset.read cursor).next.offset = cursor.offset + cursor.offsetSize ∧
      (sectionOffset.read cursor).next.offsetSize = cursor.offsetSize :=
  (plain_sectionOffset format).next read

/-- A length field announces the offset size, and its own size follows from that. -/
theorem initialLength_next {cursor : Cursor} {length : UInt64}
    (read : (initialLength.read cursor).result = .ok length) :
    ((initialLength.read cursor).next.offsetSize = 4 ∨
        (initialLength.read cursor).next.offsetSize = 8) ∧
      (initialLength.read cursor).next.offset = cursor.offset +
        UnitHeader.lengthFieldSize (initialLength.read cursor).next.offsetSize := by
  rw [initialLength_read] at read ⊢
  obtain ⟨word, word_read, later⟩ := bind_result_eq_ok.mp read
  obtain ⟨word_end, _⟩ := plain_uint32.next word_read
  rw [bind_next word_read]
  unfold lengthAfter at later ⊢
  split at later
  next wide =>
    obtain ⟨_, _, rest⟩ := bind_result_eq_ok.mp later
    obtain ⟨field_end, size⟩ := plain_uint64.next rest
    have announced : (setOffsetSize 8 (uint32.read cursor).next).result = .ok () := rfl
    rw [if_pos wide, bind_next announced, field_end, size]
    refine ⟨.inr rfl, ?_⟩
    change (uint32.read cursor).next.offset + 8 = cursor.offset + 12
    rw [word_end]
  next narrow =>
    rw [if_neg narrow]
    exact ⟨.inl rfl, word_end⟩

end Decoder

namespace UnitHeader

/-! ## The fields -/

/-- What follows the length field and the version of a header at an offset. -/
def fieldsAfter (offset : Nat) (length : UInt64) (version : UInt16) : Decoder UnitHeader :=
  Decoder.bind sectionOffset.read fun abbrevOffset =>
    Decoder.bind uint8.read fun addressSize => Decoder.bind Decoder.cursor fun after =>
      Decoder.pure {
        offset
        unitLength := length.toNat
        version
        abbrevOffset := abbrevOffset.toNat
        addressSize := addressSize.toNat
        offsetSize := after.offsetSize
        entriesOffset := after.offset }

/-- What follows the length field of a header at an offset. -/
def versionAndFields (offset : Nat) (length : UInt64) : Decoder UnitHeader :=
  Decoder.bind uint16.read fun version =>
    if version < 2 ∨ 4 < version then Decoder.fail (.unsupportedVersion offset version)
    else fieldsAfter offset length version

theorem fields_eq (cursor : Cursor) :
    fields cursor =
      Decoder.bind initialLength.read (versionAndFields cursor.offset) cursor := rfl

theorem confined_fieldsAfter (offset : Nat) (length : UInt64) (version : UInt16) :
    (fieldsAfter offset length version).Confined := by
  refine confined_sectionOffset.bind fun _ => plain_uint8.confined.bind fun _ => ?_
  exact confined_of_agree (fun _ => Decoder.pure _)
    (fun agree => by rw [agree.offsetSize_eq, agree.offset_eq]) fun _ => confined_pure _

theorem starves_fieldsAfter (offset : Nat) (length : UInt64) (version : UInt16) :
    (fieldsAfter offset length version).Starves :=
  starves_sectionOffset.bind fun _ => plain_uint8.starves.bind fun _ _ _ failed => nomatch failed

theorem confined_fields : fields.Confined := by
  refine confined_of_agree (fun cursor =>
    Decoder.bind initialLength.read (versionAndFields cursor.offset))
    (fun agree => by rw [agree.offset_eq]) fun cursor => ?_
  refine confined_initialLength.bind fun length => plain_uint16.confined.bind fun version => ?_
  split
  · exact confined_fail _
  · exact confined_fieldsAfter _ _ _

theorem fieldsAfter_ok {cursor : Cursor} {offset : Nat} {length : UInt64} {version : UInt16}
    {header : UnitHeader} (format : cursor.offsetSize = 4 ∨ cursor.offsetSize = 8)
    (read : (fieldsAfter offset length version cursor).result = .ok header) :
    header.offset = offset ∧ header.unitLength = length.toNat ∧
      header.offsetSize = cursor.offsetSize ∧
        header.entriesOffset = cursor.offset + cursor.offsetSize + 1 ∧
          (fieldsAfter offset length version cursor).next.offset = header.entriesOffset := by
  obtain ⟨abbrevOffset, offset_read, rest⟩ := bind_result_eq_ok.mp read
  obtain ⟨offset_end, offset_size⟩ := sectionOffset_next format offset_read
  obtain ⟨addressSize, size_read, rest⟩ := bind_result_eq_ok.mp rest
  obtain ⟨size_end, size_size⟩ := plain_uint8.next size_read
  have last : (fieldsAfter offset length version cursor).next =
      (uint8.read (sectionOffset.read cursor).next).next :=
    (bind_next offset_read).trans (bind_next size_read)
  rw [last]
  cases rest
  exact ⟨rfl, rfl, size_size.trans offset_size, by rw [← offset_end]; exact size_end, rfl⟩

/-- What the fields of a header say about the place where they were read. -/
structure ReadAt (cursor : Cursor) (header : UnitHeader) : Prop where
  offset_eq : header.offset = cursor.offset
  format : header.offsetSize = 4 ∨ header.offsetSize = 8
  entriesOffset_eq : header.entriesOffset =
    header.offset + lengthFieldSize header.offsetSize + header.offsetSize + 3
  next_offset : (fields cursor).next.offset = header.entriesOffset
  length_read : ∃ length, (initialLength.read cursor).result = .ok length ∧
    header.unitLength = length.toNat ∧ (initialLength.read cursor).next.offset =
      header.offset + lengthFieldSize header.offsetSize

theorem readAt_of_fields {cursor : Cursor} {header : UnitHeader}
    (read : (fields cursor).result = .ok header) : ReadAt cursor header := by
  rw [fields_eq] at read
  obtain ⟨length, length_read, rest⟩ := bind_result_eq_ok.mp read
  obtain ⟨format, length_end⟩ := initialLength_next length_read
  obtain ⟨version, version_read, rest⟩ := bind_result_eq_ok.mp rest
  obtain ⟨version_end, version_size⟩ := plain_uint16.next version_read
  have after_version : (fields cursor).next = _ :=
    (@bind_next _ _ _ (versionAndFields cursor.offset) _ _ length_read).trans
      (bind_next version_read)
  split at rest
  · cases rest
  next supported =>
    have format_after : (uint16.read (initialLength.read cursor).next).next.offsetSize = 4 ∨
        (uint16.read (initialLength.read cursor).next).next.offsetSize = 8 := by
      rw [version_size]
      exact format
    obtain ⟨offset_eq, length_eq, size_eq, entries_eq, next_eq⟩ := fieldsAfter_ok format_after rest
    rw [version_size] at size_eq entries_eq
    rw [if_neg supported] at after_version
    have stopped := (congrArg Cursor.offset after_version).trans next_eq
    refine ⟨offset_eq, size_eq ▸ format, ?_, stopped, length, length_read, length_eq, ?_⟩
    · rw [entries_eq, version_end, length_end, offset_eq, size_eq]
      omega
    · rw [length_end, offset_eq, size_eq]

/-- A header whose version cannot be decoded has been read up to its version. -/
theorem fields_unsupported {cursor : Cursor} {offset : Nat} {version : UInt16}
    (failed : (fields cursor).result = .error (.unsupportedVersion offset version)) :
    ∃ length, (initialLength.read cursor).result = .ok length ∧
      (fields cursor).next.offset = (initialLength.read cursor).next.offset + 2 := by
  rw [fields_eq] at failed ⊢
  cases length_read : (initialLength.read cursor).result with
  | error error =>
      rw [(bind_of_error length_read).1] at failed
      obtain ⟨_, starved⟩ := starves_initialLength length_read
      cases failed.symm.trans (congrArg Except.error starved)
  | ok length =>
      refine ⟨length, rfl, ?_⟩
      rw [bind_result length_read] at failed
      rw [bind_next length_read]
      unfold versionAndFields at failed ⊢
      cases version_read : (uint16.read (initialLength.read cursor).next).result with
      | error error =>
          rw [(bind_of_error version_read).1] at failed
          obtain ⟨_, starved⟩ := plain_uint16.starves version_read
          cases failed.symm.trans (congrArg Except.error starved)
      | ok found =>
          rw [bind_result version_read] at failed
          rw [bind_next version_read]
          split at failed
          next unsupported =>
            obtain ⟨version_end, _⟩ := plain_uint16.next version_read
            rw [if_pos unsupported]
            exact version_end
          next =>
            obtain ⟨_, starved⟩ := starves_fieldsAfter _ _ _ failed
            cases starved

/-! ## Decoding a header -/

variable {info : List UInt8} {order : ByteOrder} {offset : Nat}

/-- A cursor at the start of a header. -/
abbrev startAt (info : List UInt8) (order : ByteOrder) (offset : Nat) : Cursor :=
  Cursor.start (info.drop offset) offset order

theorem startAt_offset : (startAt info order offset).offset = offset :=
  Nat.add_zero offset

/-- A header is decoded from its fields. -/
theorem decode_eq (inside : offset ≤ info.length) :
    decode info order offset =
      match (fields (startAt info order offset)).result with
      | .ok header =>
        if header.stop ≤ info.length ∧ header.entriesOffset ≤ header.stop then .ok header
        else .error (.truncatedUnit offset info.length)
      | .error error => .error (restate offset info.length error) := by
  unfold decode
  rw [if_pos inside]
  unfold Decoder.run
  rw [(mapError_eq _ _ _).1]
  cases (fields (startAt info order offset)).result with
  | ok header => rfl
  | error error => rfl

/-- The end by the length field alone is where the length counts from, and the length further on. -/
theorem declaredStop?_eq_some_iff {next : Nat} :
    declaredStop? info order offset = some next ↔
      ∃ length, (initialLength.read (startAt info order offset)).result = .ok length ∧
        (initialLength.read (startAt info order offset)).next.offset + length.toNat = next := by
  change (Decoder.bind initialLength.read (fun length => Decoder.bind Decoder.offset fun here =>
    Decoder.pure (here + length.toNat)) (startAt info order offset)).result.toOption = _ ↔ _
  cases read : (initialLength.read (startAt info order offset)).result with
  | error error =>
      rw [(bind_of_error read).1]
      constructor
      · intro follows
        cases follows
      · rintro ⟨_, announced, _⟩
        cases announced
  | ok length =>
      rw [bind_result read]
      constructor
      · intro follows
        exact ⟨length, rfl, Option.some.inj follows⟩
      · rintro ⟨_, announced, ends⟩
        cases announced
        exact congrArg some ends

/-- What a header that can be decoded says about its unit. -/
structure Sound (info : List UInt8) (order : ByteOrder) (offset : Nat) (header : UnitHeader) :
    Prop where
  offset_eq : header.offset = offset
  format : header.offsetSize = 4 ∨ header.offsetSize = 8
  offset_lt : header.offset + 11 ≤ header.entriesOffset
  entriesOffset_le : header.entriesOffset ≤ header.stop
  stop_le : header.stop ≤ info.length
  declaredStop_eq : declaredStop? info order offset = some header.stop
  read_until : (fields (startAt info order offset)).next.offset = header.entriesOffset

theorem sound_of_decode {header : UnitHeader} (inside : offset ≤ info.length)
    (decoded : decode info order offset = .ok header) : Sound info order offset header := by
  rw [decode_eq inside] at decoded
  split at decoded
  next found read =>
    split at decoded
    next bounds =>
      cases decoded
      obtain ⟨offset_eq, format, entries_eq, next_eq, length, length_read, length_eq, field_end⟩ :=
        readAt_of_fields read
      rw [startAt_offset] at offset_eq
      refine ⟨offset_eq, format, ?_, bounds.2, bounds.1, ?_, next_eq⟩
      · obtain narrow | wide := format
        · have field : lengthFieldSize 4 = 4 := rfl
          rw [narrow, field] at entries_eq
          omega
        · have field : lengthFieldSize 8 = 12 := rfl
          rw [wide, field] at entries_eq
          omega
      · exact declaredStop?_eq_some_iff.mpr
          ⟨length, length_read, by rw [field_end, stop, length_eq]⟩
    next => cases decoded
  next => cases decoded

/-- A unit whose version cannot be decoded is read up to its version, which stands right behind
the length field. -/
theorem read_until_of_unsupported {unit next : Nat} {version : UInt16}
    (inside : offset ≤ info.length)
    (failed : decode info order offset = .error (.unsupportedVersion unit version))
    (follows : declaredStop? info order offset = some next) :
    (fields (startAt info order offset)).next.offset ≤ next + 2 := by
  rw [decode_eq inside] at failed
  cases read : (fields (startAt info order offset)).result with
  | ok header =>
      simp only [read] at failed
      split at failed
      · cases failed
      · cases failed
  | error error =>
      rw [read] at failed
      cases error with
      | unsupportedVersion found version =>
          obtain ⟨length, length_read, stopped⟩ := fields_unsupported read
          obtain ⟨announced, _, ends⟩ := declaredStop?_eq_some_iff.mp follows
          rw [stopped, ← ends]
          exact Nat.add_le_add_right (Nat.le_add_right _ _) 2
      | _ => cases failed

end UnitHeader

end Dwarf
