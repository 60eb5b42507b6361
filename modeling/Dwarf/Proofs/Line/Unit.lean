import Dwarf.Proofs.Decoder.Delivery
import Dwarf.Proofs.Except
import Dwarf.Proofs.Line.Instruction

/-!
# Line programs in their units

A header that has been accepted on its own is accepted when a program follows, and it says where
the program begins.  So a unit of the line section is decoded exactly when the bytes from there on
are a run of instructions, and its table is what the machine has at their end.
-/

namespace Dwarf

open Decoder

variable {encoding : Encoding} {compDir : String}

namespace LineHeader

/-! ## Headers -/

theorem local_directory : directory.read.Local :=
  local_cstring.map _

theorem local_positive (offset : Nat) (defect : LineDefect) : (positive offset defect).Local := by
  refine local_uint8.bind fun number => ?_
  split
  · exact local_fail _
  · exact local_pure _

/-- The number of operations of an instruction; older versions have one always. -/
def operations (offset : Nat) (version : UInt16) : Decoder UInt8 :=
  if 4 ≤ version then positive offset .noOperations else Decoder.pure 1

/-- What follows the sizes of an instruction. -/
def afterOperations (offset : Nat) (compDir : String) (version : UInt16) (start : Nat)
    (minimumInstructionLength maximumOperations : UInt8) :
    Decoder (LineHeader × List LineFile × Nat) := do
  let defaultIsStmt ← Decoder.uint8
  let lineBase ← Decoder.int8
  let lineRange ← positive offset .zeroLineRange
  let opcodeBase ← positive offset .zeroOpcodeBase
  let standardLengths ← Decoder.bytes (opcodeBase.toNat - 1)
  let directories ← Decoder.untilNone directory
  let files ← Decoder.untilNone (LineFile.decode compDir directories)
  let cursor ← Decoder.cursor
  let header : LineHeader :=
    { offset
      version
      offsetSize := cursor.offsetSize
      minimumInstructionLength
      maximumOperations
      defaultIsStmt := defaultIsStmt != 0
      lineBase
      lineRange
      opcodeBase
      standardLengths
      directories }
  return (header, files, start)

/-- What follows the length of the header. -/
def afterStart (offset : Nat) (compDir : String) (version : UInt16) (start : Nat) :
    Decoder (LineHeader × List LineFile × Nat) :=
  Decoder.bind Decoder.uint8.read fun minimumInstructionLength =>
    Decoder.bind (operations offset version)
      (afterOperations offset compDir version start minimumInstructionLength)

/-- What follows the version of the header. -/
def afterVersion (offset : Nat) (compDir : String) (version : UInt16) :
    Decoder (LineHeader × List LineFile × Nat) :=
  if version < 2 ∨ 4 < version then
    Decoder.fail (.malformedLineProgram offset (.unsupportedVersion version))
  else Decoder.bind (programStart offset) (afterStart offset compDir version)

theorem fields_eq (offset : Nat) (compDir : String) :
    fields offset compDir = Decoder.bind Decoder.uint16.read (afterVersion offset compDir) := by
  refine congrArg (Decoder.bind Decoder.uint16.read) (funext fun version => ?_)
  unfold afterVersion afterStart operations
  by_cases new : 4 ≤ version
  · simp only [new, if_true]
    rfl
  · simp only [new, if_false]
    rfl

theorem local_operations (offset : Nat) (version : UInt16) : (operations offset version).Local := by
  unfold operations
  split
  · exact local_positive offset _
  · exact local_pure 1

theorem local_afterOperations (offset : Nat) (version : UInt16) (start : Nat)
    (minimumInstructionLength maximumOperations : UInt8) :
    (afterOperations offset compDir version start minimumInstructionLength
      maximumOperations).Local := by
  refine local_uint8.bind fun defaultIsStmt => (local_uint8.map _).bind fun lineBase => ?_
  refine (local_positive offset _).bind fun lineRange => ?_
  refine (local_positive offset _).bind fun opcodeBase => ?_
  refine (local_bytes _).bind fun standardLengths => ?_
  refine (local_untilNone local_directory).bind fun directories => ?_
  refine (local_untilNone (LineFile.local_decode compDir directories)).bind fun files => ?_
  let deliver (offsetSize : Nat) : Decoder (LineHeader × List LineFile × Nat) :=
    Decoder.pure
      ({ offset, version, offsetSize, minimumInstructionLength, maximumOperations
         defaultIsStmt := defaultIsStmt != 0
         lineBase, lineRange, opcodeBase, standardLengths, directories }, files, start)
  exact local_of_under (fun cursor => deliver cursor.offsetSize)
    (fun encoding => deliver encoding.offsetSize) (fun under => by rw [under.offsetSize_eq])
    fun _ => local_pure _

theorem local_afterStart (offset : Nat) (version : UInt16) (start : Nat) :
    (afterStart offset compDir version start).Local :=
  local_uint8.bind fun minimumInstructionLength =>
    (local_operations offset version).bind
      (local_afterOperations offset version start minimumInstructionLength)

/-- What follows the number that says how far on the program begins. -/
def startAfter (offset : Nat) (length : UInt64) : Decoder Nat :=
  Decoder.bind Decoder.cursor fun cursor =>
    if cursor.position + length.toNat ≤ cursor.size then
      Decoder.pure (cursor.position + length.toNat)
    else Decoder.fail (.malformedLineProgram offset .headerPastUnit)

theorem programStart_eq (offset : Nat) :
    programStart offset = Decoder.bind Decoder.sectionOffset.read (startAfter offset) := rfl

theorem startAfter_eq_ok {offset start : Nat} {length : UInt64} {cursor : Cursor} :
    (startAfter offset length cursor).result = .ok start ↔
      cursor.position + length.toNat = start ∧ start ≤ cursor.size := by
  have found : (Decoder.cursor cursor).result = .ok cursor := rfl
  unfold startAfter
  rw [bind_result found]
  split
  next within =>
    constructor
    · intro same
      cases same
      exact ⟨rfl, within⟩
    · rintro ⟨rfl, _⟩
      rfl
  next beyond =>
    constructor
    · exact nofun
    · rintro ⟨rfl, within⟩
      exact absurd within beyond

theorem startAfter_next (offset : Nat) (length : UInt64) (cursor : Cursor) :
    (startAfter offset length cursor).next = cursor := by
  have found : (Decoder.cursor cursor).result = .ok cursor := rfl
  unfold startAfter
  rw [bind_next found]
  split <;> rfl

theorem stable_programStart (offset : Nat) : (programStart offset).Stable .position := by
  rw [programStart_eq]
  refine local_sectionOffset.stable.bind fun length tail cursor other start grown read => ?_
  obtain ⟨begins, within⟩ := startAfter_eq_ok.mp read
  rw [startAfter_next, startAfter_next]
  refine ⟨startAfter_eq_ok.mpr ⟨?_, Nat.le_trans within grown.size_le⟩, grown, rfl⟩
  rw [grown.position_eq, begins]

theorem programStart_le {offset start : Nat} {cursor : Cursor}
    (read : (programStart offset cursor).result = .ok start) : start ≤ cursor.size := by
  rw [programStart_eq] at read
  obtain ⟨length, _, later⟩ := bind_result_eq_ok.mp read
  rw [← (Decoder.sectionOffset.read cursor).reached.size_eq]
  exact (startAfter_eq_ok.mp later).2

theorem stable_decode (offset : Nat) (compDir : String) :
    (decode offset compDir).Stable .position := by
  refine Stable.mapError ?_ _
  rw [fields_eq]
  refine local_uint16.stable.bind fun version => ?_
  unfold afterVersion
  split
  · exact (local_fail _).stable
  · exact (stable_programStart offset).bind fun start =>
      (local_afterStart offset version start).stable

end LineHeader

namespace LineHeader

theorem delivers_start (offset : Nat) (version : UInt16) (start : Nat) :
    Delivers (fun delivered => delivered.2.2 = start)
      (afterStart offset compDir version start) := by
  refine delivers_bind fun minimumInstructionLength => delivers_bind fun maximumOperations => ?_
  refine delivers_bind fun defaultIsStmt => delivers_bind fun lineBase => ?_
  refine delivers_bind fun lineRange => delivers_bind fun opcodeBase => ?_
  refine delivers_bind fun standardLengths => delivers_bind fun directories => ?_
  refine delivers_bind fun files => delivers_bind fun cursor => ?_
  exact delivers_pure rfl

theorem start_le {offset start : Nat} {cursor : Cursor} {header : LineHeader}
    {files : List LineFile}
    (accepted : (decode offset compDir).run cursor = .ok (header, files, start)) :
    start ≤ cursor.size := by
  have read := mapError_result_eq_ok.mp accepted
  rw [fields_eq] at read
  obtain ⟨version, _, later⟩ := bind_result_eq_ok.mp read
  unfold afterVersion at later
  split at later
  next => cases later
  next =>
    obtain ⟨begins, start_read, last⟩ := bind_result_eq_ok.mp later
    have same : start = begins := delivers_start offset version begins last
    rw [same, ← (Decoder.uint16.read cursor).reached.size_eq]
    exact programStart_le start_read

/-- What the line machine takes for granted about a header: what it divides by is not zero, and
every standard opcode has a number of operands. -/
structure Ready (header : LineHeader) : Prop where
  lineRange_ne_zero : header.lineRange ≠ 0
  maximumOperations_ne_zero : header.maximumOperations ≠ 0
  opcodeBase_ne_zero : header.opcodeBase ≠ 0
  length_standardLengths : header.standardLengths.length = header.opcodeBase.toNat - 1

theorem Ready.operands {header : LineHeader} (ready : header.Ready) {opcode : UInt8}
    (nonzero : opcode ≠ 0) (standard : opcode < header.opcodeBase) :
    opcode.toNat - 1 < header.standardLengths.length := by
  rw [ready.length_standardLengths]
  have positive : opcode.toNat ≠ 0 := mt (UInt8.toNat_inj (b := 0)).mp nonzero
  have below := UInt8.lt_iff_toNat_lt.mp standard
  omega

theorem delivers_positive (offset : Nat) (defect : LineDefect) :
    Delivers (· ≠ 0) (positive offset defect) := by
  refine delivers_bind fun number => ?_
  split
  next => exact delivers_fail
  next nonzero => exact delivers_pure nonzero

theorem delivers_operations (offset : Nat) (version : UInt16) :
    Delivers (· ≠ 0) (operations offset version) := by
  unfold operations
  split
  · exact delivers_positive offset _
  · exact delivers_pure (by decide)

theorem delivers_afterOperations (offset : Nat) (version : UInt16) (start : Nat)
    (minimumInstructionLength : UInt8) {maximumOperations : UInt8}
    (operations : maximumOperations ≠ 0) :
    Delivers (fun delivered => delivered.1.Ready)
      (afterOperations offset compDir version start minimumInstructionLength
        maximumOperations) := by
  refine delivers_bind fun defaultIsStmt => delivers_bind fun lineBase => ?_
  refine (delivers_positive offset _).bind fun lineRange range => ?_
  refine (delivers_positive offset _).bind fun opcodeBase base => ?_
  refine (delivers_bytes _).bind fun standardLengths length => ?_
  refine delivers_bind fun directories => delivers_bind fun files => delivers_bind fun cursor => ?_
  exact delivers_pure ⟨range, operations, base, length⟩

theorem delivers_fields (offset : Nat) :
    Delivers (fun delivered => delivered.1.Ready) (fields offset compDir) := by
  rw [fields_eq]
  refine delivers_bind fun version => ?_
  unfold afterVersion
  split
  · exact delivers_fail
  · refine delivers_bind fun start => delivers_bind fun minimumInstructionLength => ?_
    exact (delivers_operations offset version).bind fun _ nonzero =>
      delivers_afterOperations offset version start minimumInstructionLength nonzero

theorem ready_of_accepted {offset start : Nat} {cursor : Cursor} {header : LineHeader}
    {files : List LineFile}
    (accepted : (decode offset compDir).run cursor = .ok (header, files, start)) : header.Ready :=
  delivers_fields offset (mapError_result_eq_ok.mp accepted)

end LineHeader

/-- A header of version 4 for instructions of two bytes that hold three operations. -/
def wideInstructions : LineHeader where
  offset := 0
  version := 4
  offsetSize := 4
  minimumInstructionLength := 2
  maximumOperations := 3
  defaultIsStmt := true
  lineBase := -5
  lineRange := 14
  opcodeBase := 13
  standardLengths := [0, 1, 1, 1, 1, 0, 0, 0, 1, 0, 0, 1]
  directories := []

/-- The bytes of that header, without files. -/
def wideInstructionsBytes : List UInt8 :=
  [4, 0, 20, 0, 0, 0, 2, 3, 1, 0xfb, 14, 13, 0, 1, 1, 1, 1, 0, 0, 0, 1, 0, 0, 1, 0, 0]

theorem wideInstructions_accepted :
    (LineHeader.decode 0 "").run (({} : Encoding).cursor wideInstructionsBytes 0) =
      .ok (wideInstructions, [], 26) := by
  decide +kernel

namespace LineTable

/-! ## Units -/

/-- The table of a header, its files and the state at the end of the program. -/
def ofReplay (header : LineHeader) (files : List LineFile) (replay : LineReplay) : LineTable where
  header := header
  files := files ++ replay.files.reverse
  sequences := replay.sequences.reverse.mergeSort fun a b => a.start ≤ b.start

/-- What follows the length of a unit. -/
def contentsAfter (offset : Nat) (length : UInt64) : Decoder Cursor :=
  Decoder.bind Decoder.cursor fun cursor =>
    if length.toNat ≤ cursor.remaining then Decoder.split length.toNat
    else Decoder.fail (.malformedLineProgram offset .unitPastSection)

theorem window_eq (offset : Nat) :
    window offset = Decoder.bind
      (Decoder.initialLength.read.mapError (LineHeader.restate offset .truncatedLength))
        (contentsAfter offset) := rfl

theorem contentsAfter_fits {offset : Nat} {length : UInt64} {cursor : Cursor}
    (fits : length.toNat ≤ cursor.remaining) :
    (contentsAfter offset length cursor).result = (Decoder.split length.toNat cursor).result := by
  have found : (Decoder.cursor cursor).result = .ok cursor := rfl
  unfold contentsAfter
  rw [bind_result found, if_pos fits]
  rfl

/-- The window of a unit is its contents. -/
theorem window_unit {contents after : List UInt8} (offset : Nat)
    (announced : encoding.Announces contents.length) :
    ∃ base, (window offset).run
      ((Cursor.start (encoding.unit contents ++ after) offset encoding.order).withAddressSize
        encoding.addressSize) = .ok (encoding.cursor contents base) := by
  generalize here : (Cursor.start (encoding.unit contents ++ after) offset
    encoding.order).withAddressSize encoding.addressSize = cursor
  have order : cursor.order = encoding.order := by rw [← here]; rfl
  have address : cursor.addressSize = encoding.addressSize := by rw [← here]; rfl
  have rest : cursor.rest = encoding.lengthField contents.length ++ (contents ++ after) := by
    rw [← here]
    exact List.append_assoc _ _ _
  have length : (UInt64.ofNat contents.length).toNat = contents.length := by
    rw [UInt64.toNat_ofNat']
    exact Nat.mod_eq_of_lt announced.lt
  obtain ⟨read, behind, under⟩ := initialLength_lengthField announced order address rest
  obtain ⟨fits, split_read, _⟩ := split_eq under behind
  refine ⟨(Decoder.initialLength.read cursor).next.offset, ?_⟩
  rw [window_eq, Decoder.run, bind_result (mapError_result_eq_ok.mpr read), (mapError_eq ..).2,
    contentsAfter_fits (length.symm ▸ fits), length]
  exact split_read

theorem seek_eq {data : List UInt8} {base start : Nat} (within : start ≤ data.length) :
    ∃ cursor, (encoding.cursor data base).seek start = .ok cursor ∧ cursor.Under encoding ∧
      cursor.rest = data.drop start := by
  refine ⟨_, dif_pos within, ⟨rfl, rfl, rfl⟩, rfl⟩

/-- A unit whose header has been accepted is decoded exactly when the bytes from the start of the
program on are a run of instructions. -/
theorem decode_unit_eq_ok_iff {head body before after : List UInt8} {header : LineHeader}
    {files : List LineFile} {start : Nat} {table : LineTable}
    (accepted : (LineHeader.decode before.length compDir).run (encoding.cursor head 0) =
      .ok (header, files, start))
    (announced : encoding.Announces (head ++ body).length) :
    decode (before ++ (encoding.unit (head ++ body) ++ after)) before.length encoding.order
        encoding.addressSize compDir = .ok table ↔
      ∃ last, LineReplay.Replays header compDir encoding (head.drop start ++ body)
        (.start header) last ∧ table = ofReplay header files last := by
  obtain ⟨base, found⟩ := @window_unit encoding (head ++ body) after before.length announced
  have accepted_again : (LineHeader.decode before.length compDir).run
      (encoding.cursor (head ++ body) base) = .ok (header, files, start) :=
    (LineHeader.stable_decode before.length compDir
      (Cursor.grown_cursor encoding head body 0 base) accepted).1
  have within : start ≤ head.length := LineHeader.start_le accepted
  have within_unit : start ≤ (head ++ body).length := by
    rw [List.length_append]
    omega
  obtain ⟨cursor, sought, under, rest⟩ := @seek_eq encoding (head ++ body) base start within_unit
  rw [List.drop_append_of_le_length within] at rest
  have program_iff {program : List LineInstruction} :=
    @many_eq_ok_iff _ encoding _ (@LineInstruction.local_decode header compDir) _ program under
  rw [rest] at program_iff
  unfold decode
  rw [if_pos (by simp), List.drop_left]
  dsimp only
  rw [found]
  change ((LineHeader.decode before.length compDir).run _ >>= _) = _ ↔ _
  rw [accepted_again]
  change ((encoding.cursor (head ++ body) base).seek start >>= _) = _ ↔ _
  rw [sought]
  change ((many _).run cursor >>= _) = _ ↔ _
  rw [bind_eq_ok_iff]
  constructor
  · rintro ⟨program, read, same⟩
    cases same
    exact ⟨_, ⟨program, program_iff.mp read, rfl⟩, rfl⟩
  · rintro ⟨last, ⟨program, spelled, rfl⟩, rfl⟩
    exact ⟨program, program_iff.mpr spelled, rfl⟩

end LineTable

end Dwarf
