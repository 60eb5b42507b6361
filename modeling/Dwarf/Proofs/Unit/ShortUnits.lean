import Dwarf.Proofs.Unit.Scan

/-!
# Units too short for their headers

A length field says where a unit ends, and the scan goes on there as a rule.  It needs the version
of the unit to do so, though, and where that can be decoded it needs all other fields of the header
before the end.  A unit that has no room for them hides all units behind it.
-/

namespace Dwarf

open Decoder

namespace UnitHeader

variable {info : List UInt8} {order : ByteOrder} {offset next : Nat}

/-- The place behind a length field. -/
def behindLength (info : List UInt8) (order : ByteOrder) (offset : Nat) : Cursor :=
  (initialLength.read (startAt info order offset)).next

/-- What the scan has to read of a unit to go on behind it: a version that cannot be decoded, or
one that can, with all other fields of the header before the end. -/
def Passable (info : List UInt8) (order : ByteOrder) (offset next : Nat) : Prop :=
  ∃ version, (uint16.read (behindLength info order offset)).result = .ok version ∧
    (version < 2 ∨ 4 < version ∨
      (behindLength info order offset).offset +
        (behindLength info order offset).offsetSize + 3 ≤ next)

/-! ## One unit -/

theorem remaining_of_reaches {cursor : Cursor}
    (reached : (startAt info order offset).Reaches cursor) :
    cursor.remaining = info.length - cursor.offset := by
  have size : cursor.size = (info.drop offset).length := reached.size_eq
  have base : cursor.base = offset := reached.base_eq
  rw [List.length_drop] at size
  rw [Cursor.remaining, Cursor.offset, size, base]
  omega

/-- The fields behind a version can be read where there is room for them. -/
theorem fieldsAfter_of_room {cursor : Cursor} (length : UInt64) (version : UInt16)
    (format : cursor.offsetSize = 4 ∨ cursor.offsetSize = 8)
    (room : cursor.offsetSize + 1 ≤ cursor.remaining) :
    ∃ header, (fieldsAfter offset length version cursor).result = .ok header := by
  obtain ⟨abbrevOffset, offset_read⟩ : ∃ value, (sectionOffset.read cursor).result = .ok value :=
    (plain_sectionOffset format).succeeds (Nat.le_of_succ_le room)
  obtain ⟨offset_end, _⟩ := sectionOffset_next format offset_read
  have reached := (sectionOffset.read cursor).reached
  have size := reached.size_eq
  have base := reached.base_eq
  have left : 1 ≤ (sectionOffset.read cursor).next.remaining := by
    unfold Cursor.offset at offset_end
    unfold Cursor.remaining at room ⊢
    omega
  obtain ⟨addressSize, size_read⟩ := plain_uint8.succeeds left
  exact ⟨_, (bind_result offset_read).trans ((bind_result size_read).trans rfl)⟩

theorem decode_of_starved {earlier : Nat} (inside : offset ≤ info.length)
    (starved : (fields (startAt info order offset)).result = .error (.unexpectedEnd earlier)) :
    decode info order offset = .error (.truncatedUnit offset info.length) := by
  rw [decode_eq inside, starved]
  rfl

theorem behindLength_offset {length : UInt64}
    (read : (initialLength.read (startAt info order offset)).result = .ok length) :
    ((behindLength info order offset).offsetSize = 4 ∨
        (behindLength info order offset).offsetSize = 8) ∧
      (behindLength info order offset).offset =
        offset + lengthFieldSize (behindLength info order offset).offsetSize := by
  obtain ⟨format, field_end⟩ := initialLength_next read
  rw [startAt_offset] at field_end
  exact ⟨format, field_end⟩

theorem fields_of_length {length : UInt64}
    (read : (initialLength.read (startAt info order offset)).result = .ok length) :
    (fields (startAt info order offset)).result =
      (versionAndFields offset length (behindLength info order offset)).result := by
  rw [fields_eq, bind_result read, startAt_offset]
  rfl

/-- Where the version can be decoded, the unit is passable if all fields of the header stand before
the end. -/
theorem passable_iff_of_version {version : UInt16}
    (read : (uint16.read (behindLength info order offset)).result = .ok version)
    (supported : ¬(version < 2 ∨ 4 < version)) :
    Passable info order offset next ↔
      (behindLength info order offset).offset +
        (behindLength info order offset).offsetSize + 3 ≤ next := by
  constructor
  · rintro ⟨found, found_read, low | high | room⟩
    · cases read.symm.trans found_read
      exact absurd (.inl low) supported
    · cases read.symm.trans found_read
      exact absurd (.inr high) supported
    · exact room
  · intro room
    exact ⟨version, read, .inr (.inr room)⟩

/-- A unit of a version that can be decoded is decoded, unless its header does not end before the
unit. -/
theorem decode_of_version {version : UInt16} {length : UInt64} (inside : offset ≤ info.length)
    (length_read : (initialLength.read (startAt info order offset)).result = .ok length)
    (ends : (behindLength info order offset).offset + length.toNat = next)
    (within : next ≤ info.length)
    (read : (uint16.read (behindLength info order offset)).result = .ok version)
    (supported : ¬(version < 2 ∨ 4 < version)) :
    if (behindLength info order offset).offset +
        (behindLength info order offset).offsetSize + 3 ≤ next then
      ∃ header, decode info order offset = .ok header ∧ header.stop = next
    else decode info order offset = .error (.truncatedUnit offset info.length) := by
  obtain ⟨format, field_end⟩ := behindLength_offset length_read
  obtain ⟨version_end, version_size⟩ := plain_uint16.next read
  have after : (fields (startAt info order offset)).result =
      (fieldsAfter offset length version
        (uint16.read (behindLength info order offset)).next).result := by
    rw [fields_of_length length_read, versionAndFields, bind_result read, if_neg supported]
  have reached : (startAt info order offset).Reaches
      (uint16.read (behindLength info order offset)).next :=
    (initialLength.read (startAt info order offset)).reached.trans
      (uint16.read (behindLength info order offset)).reached
  have remaining := remaining_of_reaches reached
  rw [← version_size] at format field_end ⊢
  generalize (uint16.read (behindLength info order offset)).next = middle at *
  cases fields_read : (fieldsAfter offset length version middle).result with
  | error error =>
      rw [if_neg]
      · obtain ⟨earlier, rfl⟩ := starves_fieldsAfter _ _ _ fields_read
        exact decode_of_starved inside (after.trans fields_read)
      · intro room
        obtain ⟨header, header_read⟩ := fieldsAfter_of_room length version format (by omega)
        cases fields_read.symm.trans header_read
  | ok header =>
      obtain ⟨offset_eq, length_eq, size_eq, entries_eq, _⟩ := fieldsAfter_ok format fields_read
      have stop : header.stop = next := by
        rw [UnitHeader.stop, offset_eq, size_eq, length_eq, ← field_end, ends]
      have header_end : header.entriesOffset =
          (behindLength info order offset).offset + middle.offsetSize + 3 := by omega
      rw [decode_eq inside, after, fields_read, ← header_end]
      dsimp only
      split
      next room => exact ⟨header, if_pos ⟨stop ▸ within, stop ▸ room⟩, stop⟩
      next short => exact if_neg fun bounds => short (stop ▸ bounds.2)

/-- Behind a unit whose length field says where it ends, the scan goes on there if the unit is
passable.  Otherwise the unit is truncated. -/
theorem following?_of_declared (inside : offset ≤ info.length)
    (declared : declaredStop? info order offset = some next) (within : next ≤ info.length) :
    Passable info order offset next ∧
        following? info order offset (decode info order offset) = some next ∨
      ¬Passable info order offset next ∧
        decode info order offset = .error (.truncatedUnit offset info.length) := by
  obtain ⟨length, length_read, ends⟩ := declaredStop?_eq_some_iff.mp declared
  cases read : (uint16.read (behindLength info order offset)).result with
  | error error =>
      obtain ⟨earlier, rfl⟩ := starves_uint16 read
      refine .inr ⟨fun ⟨_, known, _⟩ => (nomatch read.symm.trans known), ?_⟩
      have starved : (fields (startAt info order offset)).result =
          .error (.unexpectedEnd earlier) :=
        (fields_of_length length_read).trans (bind_of_error read).1
      exact decode_of_starved inside starved
  | ok version =>
      by_cases unsupported : version < 2 ∨ 4 < version
      · refine .inl ⟨⟨version, read, unsupported.imp_right .inl⟩, ?_⟩
        rw [decode_eq inside, fields_of_length length_read, versionAndFields, bind_result read,
          if_pos unsupported]
        exact declared
      · have decoded := decode_of_version inside length_read ends within read unsupported
        rw [passable_iff_of_version read unsupported]
        split at decoded
        next room =>
          obtain ⟨header, decoded, stop⟩ := decoded
          rw [decoded]
          exact .inl ⟨room, congrArg some stop⟩
        next short => exact .inr ⟨short, decoded⟩

/-! ## All units -/

/-- The scan comes to an offset. -/
def Visits (info : List UInt8) (order : ByteOrder) (offset : Nat) : Prop :=
  offset ∈ (scan info order).map Prod.fst

namespace Walk

variable {start : Nat} {found : List Visit}

/-- A walk that can go on from an offset inside the section goes on there. -/
theorem visits_next (walk : Walk info order start found) (visited : offset ∈ found.map Prod.fst)
    (follows : following? info order offset (decode info order offset) = some next)
    (later : offset < next) (inside : next < info.length) : next ∈ found.map Prod.fst := by
  induction walk with
  | done past => cases visited
  | @stuck place _ lost =>
      cases List.mem_singleton.mp visited
      exact absurd ⟨later, Nat.le_of_lt inside⟩ (lost next follows)
  | @onward place following found _ goes_on _ _ walk ih =>
      rcases List.mem_cons.mp visited with here | further
      · dsimp only at here
        subst here
        cases goes_on.symm.trans follows
        cases walk with
        | done past => exact absurd inside (Nat.not_lt.mpr past)
        | stuck => exact List.mem_cons_of_mem _ List.mem_cons_self
        | onward => exact List.mem_cons_of_mem _ List.mem_cons_self
      · exact List.mem_cons_of_mem _ (ih further)

/-- A walk that cannot go on from an offset ends there. -/
theorem getLast?_of_lost (walk : Walk info order start found)
    (visited : offset ∈ found.map Prod.fst)
    (lost : following? info order offset (decode info order offset) = none) :
    found.getLast? = some (offset, decode info order offset) := by
  induction walk with
  | done past => cases visited
  | stuck =>
      cases List.mem_singleton.mp visited
      rfl
  | onward _ goes_on _ _ walk ih =>
      rcases List.mem_cons.mp visited with here | further
      · dsimp only at here
        subst here
        cases goes_on.symm.trans lost
      · rw [List.getLast?_cons, ih further]
        rfl

theorem le_of_getLast? (walk : Walk info order start found) {last visit : Visit}
    (ends : found.getLast? = some last) (visited : visit ∈ found) : visit.1 ≤ last.1 := by
  obtain ⟨before, rfl⟩ := List.getLast?_eq_some_iff.mp ends
  rcases List.mem_append.mp visited with earlier | same
  · have ordered := (List.pairwise_append.mp walk.pairwise).2.2
    exact Nat.le_of_lt (ordered visit earlier last List.mem_cons_self).1
  · exact Nat.le_of_eq (congrArg Prod.fst (List.mem_singleton.mp same))

end Walk

theorem lt_of_declared (declared : declaredStop? info order offset = some next) :
    offset < next := by
  obtain ⟨length, read, ends⟩ := declaredStop?_eq_some_iff.mp declared
  obtain ⟨format, field_end⟩ := behindLength_offset read
  change (behindLength info order offset).offset + length.toNat = next at ends
  have positive : 0 < lengthFieldSize (behindLength info order offset).offsetSize := by
    unfold lengthFieldSize
    split
    · decide
    · decide
  omega

theorem lt_of_visits (visits : Visits info order offset) : offset < info.length := by
  obtain ⟨visit, visited, rfl⟩ := List.mem_map.mp visits
  exact ((walk_scanFrom info order 0).mem visited).2.1

/-- Where a unit is declared to end inside the section, the next one is visited if and only if the
unit is passable.  So the scan stops early at a length field that cannot be read, at a unit that
runs past the section, or at a unit that is too short for its header. -/
theorem scan_visits (info : List UInt8) (order : ByteOrder) :
    (∀ offset next, Visits info order offset → declaredStop? info order offset = some next →
      next < info.length → (Visits info order next ↔ Passable info order offset next)) ∧
    ∀ offset header, (scan info order).getLast? = some (offset, header) →
      declaredStop? info order offset = none ∨
        ∃ next, declaredStop? info order offset = some next ∧
          (info.length ≤ next ∨ ¬Passable info order offset next ∧
            header = .error (.truncatedUnit offset info.length)) := by
  have walk : Walk info order 0 (scan info order) := walk_scanFrom info order 0
  have passed : ∀ offset next, Visits info order offset →
      declaredStop? info order offset = some next → next < info.length →
        (Visits info order next ↔ Passable info order offset next) := by
    intro offset next visits declared inside
    have later := lt_of_declared declared
    rcases following?_of_declared (Nat.le_of_lt (lt_of_visits visits)) declared
      (Nat.le_of_lt inside) with ⟨passable, follows⟩ | ⟨stuck, decoded⟩
    · exact ⟨fun _ => passable, fun _ => walk.visits_next visits follows later inside⟩
    · refine ⟨fun beyond => ?_, fun passable => absurd passable stuck⟩
      obtain ⟨visit, visited, rfl⟩ := List.mem_map.mp beyond
      have lost : following? info order offset (decode info order offset) = none := by
        rw [decoded]
        rfl
      have last := walk.le_of_getLast? (walk.getLast?_of_lost visits lost) visited
      exact absurd later (Nat.not_lt.mpr last)
  refine ⟨passed, fun offset header ends => ?_⟩
  have visited := List.mem_of_getLast? ends
  have visits : Visits info order offset := List.mem_map_of_mem visited
  cases declared : declaredStop? info order offset with
  | none => exact .inl rfl
  | some next =>
      refine .inr ⟨next, rfl, ?_⟩
      by_cases inside : next < info.length
      · have later := lt_of_declared declared
        rcases following?_of_declared (Nat.le_of_lt (lt_of_visits visits)) declared
          (Nat.le_of_lt inside) with ⟨_, follows⟩ | ⟨stuck, decoded⟩
        · obtain ⟨visit, beyond, rfl⟩ :=
            List.mem_map.mp (walk.visits_next visits follows later inside)
          exact absurd later (Nat.not_lt.mpr (walk.le_of_getLast? ends beyond))
        · exact .inr ⟨stuck, ((walk.mem visited).2.2).trans decoded⟩
      · exact .inl (Nat.le_of_not_lt inside)

/-- A unit of version 5 that has a version only, and a unit of version 4 without entries. -/
def afterUnknown : List UInt8 :=
  [2, 0, 0, 0, 5, 0, 7, 0, 0, 0, 4, 0, 0, 0, 0, 0, 8]

/-- The unit of version 5 is passed. -/
theorem afterUnknown_visits : Visits afterUnknown .little 0 ∧
    declaredStop? afterUnknown .little 0 = some 6 ∧ Visits afterUnknown .little 6 := by
  have visits : Visits afterUnknown .little 0 := by
    unfold Visits scan scanFrom
    exact List.mem_cons_self
  have declared : declaredStop? afterUnknown .little 0 = some 6 := rfl
  have passable : Passable afterUnknown .little 0 6 := ⟨5, rfl, .inr (.inl (by decide))⟩
  exact ⟨visits, declared,
    ((scan_visits afterUnknown .little).1 0 6 visits declared (by decide)).mpr passable⟩

/-- A unit of version 4 that ends within its header, and the same unit without entries. -/
def afterShort : List UInt8 :=
  [3, 0, 0, 0, 4, 0, 0, 7, 0, 0, 0, 4, 0, 0, 0, 0, 0, 8]

/-- The unit behind the short one is not found, although it can be decoded and begins where the
short one is declared to end. -/
theorem afterShort_hides : Visits afterShort .little 0 ∧
    declaredStop? afterShort .little 0 = some 7 ∧ 7 < afterShort.length ∧
      decode afterShort .little 7 = .ok ⟨7, 7, 4, 0, 8, 4, 18⟩ ∧ ¬Visits afterShort .little 7 := by
  have visited : (scan afterShort .little).map Prod.fst = [0] := by
    unfold scan scanFrom
    rfl
  unfold Visits
  rw [visited]
  exact ⟨List.mem_singleton_self 0, rfl, by decide, rfl, by decide⟩

end UnitHeader

end Dwarf
