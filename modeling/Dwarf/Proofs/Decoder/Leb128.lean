import Dwarf.Proofs.Decoder.Integer
import Dwarf.Proofs.Except

/-!
# Variable-length integers at a cursor

A read passes over one encoding and delivers the number of its groups modulo the range of the word:
bits above the word are lost where the straddling group has them, and padding above the word need not
agree with the sign.  Where the number is in range it is read exactly, however long its encoding is,
so the readers undo the shortest encodings.  A shift counted in 32 bits reads the same as long as
seven times the bytes of one number stay below `2 ^ 32`: this is `Leb128.unsigned_eq_word` and
`Leb128.signed_eq_word`.
-/

namespace Dwarf

/-- The next cursor is the one behind the bytes that come first. -/
structure Cursor.Passed (cursor : Cursor) (bytes : List UInt8) (next : Cursor) : Prop where
  rest_eq : cursor.rest = bytes ++ next.rest
  forward_eq : ∃ fits, next = cursor.forward bytes.length fits

theorem Cursor.passed_of_rest {cursor : Cursor} {bytes after : List UInt8}
    (rest : cursor.rest = bytes ++ after) (fits : bytes.length ≤ cursor.remaining) :
    cursor.Passed bytes (cursor.forward bytes.length fits) where
  rest_eq := by rw [Cursor.forward_rest rest fits, rest]
  forward_eq := ⟨fits, rfl⟩

theorem Cursor.rest_of_window {cursor : Cursor} {before after : List UInt8}
    (window : cursor.window = before ++ after) (position : cursor.position = before.length) :
    cursor.rest = after := by
  rw [cursor.rest_eq, window, position, List.drop_left]

namespace Decoder

open Leb128 (Terminated IsShortest groupsValue signedValue isSignGroup group widen encode
  encodeSigned)

variable {α : Type} {cursor : Cursor}

theorem Local.passed {decoder : Decoder α} (locality : decoder.Local) {value : α}
    (read : (decoder cursor).result = .ok value) :
    ∃ bytes, decoder.Recognizes cursor.encoding bytes value ∧
      cursor.Passed bytes (decoder cursor).next := by
  obtain ⟨bytes, after, rest, recognizes⟩ := locality cursor.under_encoding read
  obtain ⟨fits, _, next⟩ := recognizes cursor.under_encoding rest
  exact ⟨bytes, recognizes, next ▸ Cursor.passed_of_rest rest fits⟩

section

variable {scan : List UInt8 → Leb128.Scan α}
  (used_le : ∀ bytes, (scan bytes).used ≤ bytes.length)
  (used_pos : ∀ {bytes value}, (scan bytes).result = .ok value → 0 < (scan bytes).used)

theorem leb128_reads {bytes : List UInt8} {value : α} (first : bytes <+: cursor.rest)
    (scanned : ∀ after, scan (bytes ++ after) = ⟨.ok value, bytes.length⟩) :
    ((leb128 scan used_le used_pos).read cursor).result = .ok value ∧
      cursor.Passed bytes ((leb128 scan used_le used_pos).read cursor).next := by
  obtain ⟨after, rest⟩ := first
  have here := scanned after
  rw [rest] at here
  have fits := Cursor.fits_of_rest rest.symm
  have next : ((leb128 scan used_le used_pos).read cursor).next =
      cursor.forward bytes.length fits := by
    change cursor.forward (scan cursor.rest).used (cursor.rest_length ▸ used_le cursor.rest) = _
    simp only [here]
  constructor
  · change (scan cursor.rest).result.mapError _ = .ok value
    rw [here, mapError_ok]
  · exact next ▸ Cursor.passed_of_rest rest.symm fits

theorem leb128_fails {fault : Leb128.Fault} (failed : (scan cursor.rest).result = .error fault) :
    ((leb128 scan used_le used_pos).read cursor).result = .error (leb128Error cursor fault) := by
  change (scan cursor.rest).result.mapError _ = _
  rw [failed, mapError_error]

end

/-! ## Which numbers are read exactly -/

/-- An unsigned read that succeeds delivers the number of the groups it has passed, less what lies
above the word.  It is exact if the number fits a word.  A number that fits is always read, and a
read is refused exactly if some group above the word is not zero: of the numbers that do not fit,
those below `2 ^ 70` lose the upper bits of the group that straddles the end of the word. -/
theorem unsigned_by_groups (cursor : Cursor) :
    (∀ value, (unsigned.read cursor).result = .ok value →
      ∃ bytes, Terminated bytes ∧ cursor.Passed bytes (unsigned.read cursor).next ∧
        groupsValue bytes < 2 ^ 70 ∧ value.toNat = groupsValue bytes % 2 ^ 64 ∧
        (value.toNat = (bytes.mapIdx fun place byte => (group byte).toNat * 2 ^ (7 * place)).sum ↔
          groupsValue bytes < 2 ^ 64)) ∧
    ∀ bytes, Terminated bytes → bytes <+: cursor.rest →
      (groupsValue bytes < 2 ^ 64 →
        (unsigned.read cursor).result = .ok (.ofNat (groupsValue bytes)) ∧
          cursor.Passed bytes (unsigned.read cursor).next) ∧
      (2 ^ 70 ≤ groupsValue bytes ↔
        (unsigned.read cursor).result = .error (.unexpectedEnd cursor.offset)) := by
  have reads {bytes : List UInt8} (terminated : Terminated bytes) (first : bytes <+: cursor.rest)
      (low : groupsValue bytes < 2 ^ 70) :=
    leb128_reads Leb128.unsigned_used_le Leb128.unsigned_used_pos first
      fun after => (Leb128.unsigned_terminated terminated after).1 low
  constructor
  · intro value read
    obtain ⟨bytes, recognizes, passed⟩ := local_unsigned.passed read
    have terminated := Leb128.terminated_of_unsigned (recognizes_unsigned_iff.mp recognizes)
    have first : bytes <+: cursor.rest := ⟨_, passed.rest_eq.symm⟩
    have low : groupsValue bytes < 2 ^ 70 := by
      by_contra high
      have refused := (Leb128.unsigned_terminated terminated []).2 (Nat.not_lt.mp high)
      rw [List.append_nil, recognizes_unsigned_iff.mp recognizes] at refused
      cases refused
    have value_eq : value = .ofNat (groupsValue bytes) :=
      Except.ok.inj (read.symm.trans (reads terminated first low).1)
    rw [value_eq, UInt64.toNat_ofNat']
    refine ⟨bytes, terminated, passed, low, rfl, ?_⟩
    rw [← Leb128.groupsValue_eq_sum]
    omega
  · intro bytes terminated first
    refine ⟨fun fits => reads terminated first (Nat.lt_trans fits (by decide)), ?_⟩
    constructor
    · intro high
      obtain ⟨after, rest⟩ := first
      have refused := (Leb128.unsigned_terminated terminated after).2 high
      rw [rest] at refused
      exact leb128_fails Leb128.unsigned_used_le Leb128.unsigned_used_pos refused
    · intro refused
      by_contra low
      have read := (reads terminated first (Nat.not_le.mp low)).1
      cases read.symm.trans refused

/-- A place in a section behind one byte of something else. -/
def behindOne (bytes : List UInt8) : Cursor :=
  (Cursor.start (0xee :: bytes) 0x40 .little).forward 1 (Nat.succ_le_succ (Nat.zero_le _))

/-- A small number is read through its padding, and a number above `2 ^ 70` is refused where it
begins. -/
theorem unsigned_by_groups_padded :
    let padded : List UInt8 := [0xe5, 0x8e, 0xa6, 0x80, 0x80, 0x80, 0x80, 0x80, 0x80, 0x80, 0x00]
    let overlong : List UInt8 := [0x80, 0x80, 0x80, 0x80, 0x80, 0x80, 0x80, 0x80, 0x80, 0x80, 0x01]
    (unsigned.read (behindOne padded)).result = .ok 624485 ∧
      (behindOne padded).Passed padded (unsigned.read (behindOne padded)).next ∧
      (unsigned.read (behindOne overlong)).result = .error (.unexpectedEnd 0x41) := by
  intro padded overlong
  have padded_terminated : Terminated padded := by
    iterate 10 refine .more (by decide) ?_
    exact .last (by decide)
  have overlong_terminated : Terminated overlong := by
    iterate 10 refine .more (by decide) ?_
    exact .last (by decide)
  have read := ((unsigned_by_groups (behindOne padded)).2 padded padded_terminated
    List.prefix_rfl).1 (by decide)
  have refused := ((unsigned_by_groups (behindOne overlong)).2 overlong overlong_terminated
    List.prefix_rfl).2.mp (by decide)
  exact ⟨read.1, read.2, refused⟩

/-- The straddling group `2` denotes `2 ^ 64`, which is read as zero. -/
theorem unsigned_straddling_lost :
    let straddling : List UInt8 := [0x80, 0x80, 0x80, 0x80, 0x80, 0x80, 0x80, 0x80, 0x80, 0x02]
    Terminated straddling ∧ groupsValue straddling = 2 ^ 64 ∧
      (unsigned.read (behindOne straddling)).result = .ok 0 ∧
      (unsigned.read (behindOne straddling)).next.rest = [] := by
  intro straddling
  have terminated : Terminated straddling := by
    iterate 9 refine .more (by decide) ?_
    exact .last (by decide)
  exact ⟨terminated, by decide, by decide +kernel, by decide +kernel⟩

/-- A signed read that succeeds delivers the number of the groups it has passed, modulo the range of
the word.  It is exact if the number is in that range.  A number in range is always read, with as
many groups as repeat its sign, and a read is refused exactly if some group above the word is neither
zeros nor ones: numbers out of range are read if only the group that straddles the end of the word,
or padding of both kinds, takes them there. -/
theorem signed_by_groups (cursor : Cursor) :
    (∀ value, (signed.read cursor).result = .ok value →
      ∃ bytes, Terminated bytes ∧ cursor.Passed bytes (signed.read cursor).next ∧
        (∀ byte ∈ bytes.drop 10, isSignGroup (group byte) = true) ∧
        value = Int64.ofInt (signedValue bytes) ∧
        (value.toInt = signedValue bytes ↔
          -2 ^ 63 ≤ signedValue bytes ∧ signedValue bytes < 2 ^ 63)) ∧
    (∀ bytes count, Terminated bytes → widen^[count] bytes <+: cursor.rest →
      -2 ^ 63 ≤ signedValue bytes → signedValue bytes < 2 ^ 63 →
        (signed.read cursor).result = .ok (.ofInt (signedValue bytes)) ∧
          cursor.Passed (widen^[count] bytes) (signed.read cursor).next) ∧
    ∀ bytes, Terminated bytes → bytes <+: cursor.rest →
      ((∃ byte ∈ bytes.drop 10, isSignGroup (group byte) = false) ↔
        (signed.read cursor).result = .error (.unexpectedEnd cursor.offset)) := by
  have reads {bytes : List UInt8} (terminated : Terminated bytes) (first : bytes <+: cursor.rest)
      (padded : ∀ byte ∈ bytes.drop 10, isSignGroup (group byte) = true) :=
    leb128_reads Leb128.signed_used_le Leb128.signed_used_pos first
      (Leb128.signed_padded terminated padded)
  have unpadded_iff {bytes : List UInt8} :
      (∃ byte ∈ bytes.drop 10, isSignGroup (group byte) = false) ↔
        ¬∀ byte ∈ bytes.drop 10, isSignGroup (group byte) = true := by
    simp
  refine ⟨?_, ?_, ?_⟩
  · intro value read
    obtain ⟨bytes, recognizes, passed⟩ := local_signed.passed read
    have terminated := Leb128.terminated_of_signed (recognizes_signed_iff.mp recognizes)
    have first : bytes <+: cursor.rest := ⟨_, passed.rest_eq.symm⟩
    have padded : ∀ byte ∈ bytes.drop 10, isSignGroup (group byte) = true := by
      by_contra unpadded
      have refused := Leb128.signed_unpadded terminated unpadded []
      rw [List.append_nil, recognizes_signed_iff.mp recognizes] at refused
      cases refused
    have value_eq : value = .ofInt (signedValue bytes) :=
      Except.ok.inj (read.symm.trans (reads terminated first padded).1)
    refine ⟨bytes, terminated, passed, padded, value_eq, ?_⟩
    constructor
    · intro exactly
      rw [← exactly]
      exact ⟨value.le_toInt, value.toInt_lt⟩
    · rintro ⟨low, high⟩
      rw [value_eq]
      exact Int64.toInt_ofInt_of_le low high
  · intro bytes count terminated first low high
    obtain ⟨widened, same⟩ := terminated.iterate_widen count
    have padded := Leb128.isSignGroup_of_inRange (same ▸ low) (same ▸ high)
    have read := reads widened first padded
    rwa [same] at read
  · intro bytes terminated first
    rw [unpadded_iff]
    constructor
    · intro unpadded
      obtain ⟨after, rest⟩ := first
      have refused := Leb128.signed_unpadded terminated unpadded after
      rw [rest] at refused
      exact leb128_fails Leb128.signed_used_le Leb128.signed_used_pos refused
    · intro refused padded
      cases (reads terminated first padded).1.symm.trans refused

/-- The number `-128` is read through three groups of padding, and a group above the word that is
neither zeros nor ones is refused. -/
theorem signed_by_groups_padded :
    let overlong : List UInt8 := [0x80, 0x80, 0x80, 0x80, 0x80, 0x80, 0x80, 0x80, 0x80, 0x80, 0x7e]
    widen^[3] [0x80, 0x7f] = [0x80, 0xff, 0xff, 0xff, 0x7f] ∧
      (signed.read (behindOne [0x80, 0xff, 0xff, 0xff, 0x7f])).result = .ok (-128) ∧
      (signed.read (behindOne overlong)).result = .error (.unexpectedEnd 0x41) := by
  intro overlong
  have short_terminated : Terminated [0x80, 0x7f] := .more (by decide) (.last (by decide))
  have overlong_terminated : Terminated overlong := by
    iterate 10 refine .more (by decide) ?_
    exact .last (by decide)
  have read := (signed_by_groups (behindOne [0x80, 0xff, 0xff, 0xff, 0x7f])).2.1 [0x80, 0x7f] 3
    short_terminated List.prefix_rfl (by decide) (by decide)
  have refused := ((signed_by_groups (behindOne overlong)).2.2 overlong overlong_terminated
    List.prefix_rfl).mp ⟨0x7e, by decide, by decide⟩
  exact ⟨rfl, read.1, refused⟩

/-- The straddling group `1` denotes `2 ^ 63`, which is read as the least number of the range; and
ten groups of ones behind which a group of zeros makes the number positive are read as `-1`. -/
theorem signed_straddling_lost :
    let straddling : List UInt8 := [0x80, 0x80, 0x80, 0x80, 0x80, 0x80, 0x80, 0x80, 0x80, 0x01]
    let mixed : List UInt8 := [0xff, 0xff, 0xff, 0xff, 0xff, 0xff, 0xff, 0xff, 0xff, 0xff, 0x00]
    (Terminated straddling ∧ signedValue straddling = 2 ^ 63 ∧
      (signed.read (behindOne straddling)).result = .ok (-9223372036854775808) ∧
      (signed.read (behindOne straddling)).next.rest = []) ∧
    Terminated mixed ∧ signedValue mixed = 2 ^ 70 - 1 ∧
      (signed.read (behindOne mixed)).result = .ok (-1) ∧
      (signed.read (behindOne mixed)).next.rest = [] := by
  intro straddling mixed
  have terminated : Terminated straddling := by
    iterate 9 refine .more (by decide) ?_
    exact .last (by decide)
  have mixed_terminated : Terminated mixed := by
    iterate 10 refine .more (by decide) ?_
    exact .last (by decide)
  exact ⟨⟨terminated, by decide, by decide +kernel, by decide +kernel⟩,
    mixed_terminated, by decide, by decide +kernel, by decide +kernel⟩

/-! ## Reading undoes encoding -/

/-- Wherever the bytes stand, and whatever comes behind them, they are read as the value and nothing
more is passed; and where the data end inside them the read fails at the end of the data. -/
structure Restores (decoder : Consuming α) (bytes : List UInt8) (value : α) : Prop where
  whole : ∀ (cursor : Cursor) (before after : List UInt8),
    cursor.window = before ++ (bytes ++ after) → cursor.position = before.length →
      (decoder.read cursor).result = .ok value ∧
        (decoder.read cursor).next.position = before.length + bytes.length ∧
          (decoder.read cursor).next.rest = after
  partly : ∀ (cursor : Cursor) (before front : List UInt8), front <+: bytes → front ≠ bytes →
    cursor.window = before ++ front → cursor.position = before.length →
      (decoder.read cursor).result = .error (.unexpectedEnd (cursor.base + cursor.size))

/-- A scanner that reads the bytes to their end, and that runs out of data inside them, restores the
value. -/
theorem restores_leb128 {scan : List UInt8 → Leb128.Scan α}
    (used_le : ∀ bytes, (scan bytes).used ≤ bytes.length)
    (used_pos : ∀ {bytes value}, (scan bytes).result = .ok value → 0 < (scan bytes).used)
    {bytes : List UInt8} {value : α}
    (scanned : ∀ after, scan (bytes ++ after) = ⟨.ok value, bytes.length⟩)
    (unfinished : ∀ front, front <+: bytes → front ≠ bytes →
      (scan front).result = .error .endOfData) :
    Restores (leb128 scan used_le used_pos) bytes value where
  whole cursor before after window position := by
    have rest := Cursor.rest_of_window window position
    have first : bytes <+: cursor.rest := ⟨after, rest.symm⟩
    obtain ⟨read, rest_eq, fits, forward⟩ := leb128_reads used_le used_pos first scanned
    refine ⟨read, ?_, ?_⟩
    · rw [forward, ← position]
      rfl
    · exact (List.append_cancel_left (rest.symm.trans rest_eq)).symm
  partly cursor before front part proper window position := by
    have failed := unfinished front part proper
    rw [← Cursor.rest_of_window window position] at failed
    exact leb128_fails used_le used_pos failed

/-- Each word has one shortest unsigned and one shortest signed encoding, and the reads restore it
from them. -/
theorem leb128_undoes_encoding :
    (∀ value : UInt64, IsShortest groupsValue value.toNat (encode value.toNat) ∧
      Restores unsigned (encode value.toNat) value) ∧
    ∀ value : Int64, IsShortest signedValue value.toInt (encodeSigned value.toInt) ∧
      Restores signed (encodeSigned value.toInt) value := by
  constructor
  · intro value
    refine ⟨Leb128.isShortest_encode _, restores_leb128 Leb128.unsigned_used_le
      Leb128.unsigned_used_pos (Leb128.unsigned_encode value) ?_⟩
    intro front part proper
    exact Leb128.unsigned_unfinished (Leb128.terminated_encode _)
      (Leb128.length_encode_le (Nat.lt_trans value.toNat_lt (by decide))) part proper
  · intro value
    refine ⟨Leb128.isShortest_encodeSigned _, restores_leb128 Leb128.signed_used_le
      Leb128.signed_used_pos (Leb128.signed_encodeSigned value) ?_⟩
    intro front part proper
    have low := value.le_toInt
    have high := value.toInt_lt
    exact Leb128.signed_unfinished (Leb128.terminated_encodeSigned _)
      (Leb128.length_encodeSigned_le (by omega) (by omega)) part proper

end Decoder

end Dwarf
