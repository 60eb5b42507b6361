import Dwarf.AddressRange
import Dwarf.Proofs.Decoder.Faults
import Dwarf.Proofs.Line.Unit
import Dwarf.Proofs.Unit.Header
import Dwarf.Proofs.Unit.Links

/-!
# The faults of the structural decoders

Each decoder of a section has errors of its own, and fails with no others: the want of data is
restated wherever a read can meet it, and where it is not restated the read cannot meet it, because
a length has been checked before.  The same goes for what is looked up without a check: numbers of
operands in a header, divisors, and the open parents in the arena of a unit.
-/

namespace Dwarf

open Decoder

/-! ## Abbreviation tables -/

/-- The errors of abbreviation tables. -/
inductive AbbreviationTable.Fault : Error → Prop where
  | malformed (offset : Nat) (defect : AbbreviationDefect) :
      Fault (.malformedAbbreviation offset defect)

namespace AttributeSpec

theorem raises_ofCodes (offset : Nat) (name form : UInt64) :
    (Decoder.ofExcept (ofCodes offset name form)).Raises AbbreviationTable.Fault := by
  refine raises_ofExcept fun error failed => ?_
  unfold ofCodes at failed
  dsimp only at failed
  split at failed
  · cases failed
    exact .malformed _ _
  · split at failed
    · cases failed
    · cases failed
      exact .malformed _ _

theorem raises_decode : decode.read.Raises (ShortOr AbbreviationTable.Fault) := by
  refine raises_located fun offset => ?_
  refine starves_unsigned.raises_short.bind fun name => ?_
  refine starves_unsigned.raises_short.bind fun form => ?_
  split
  · exact raises_pure _
  · exact ((raises_ofCodes offset name form).mono .fault).bind fun _ => raises_pure _

end AttributeSpec

namespace Abbreviation

theorem raises_childrenFlag (offset : Nat) :
    (childrenFlag offset).Raises (ShortOr AbbreviationTable.Fault) := by
  refine starves_uint8.raises_short.bind fun flag => ?_
  split
  · exact raises_pure _
  · exact raises_pure _
  · exact raises_fail (.fault (.malformed _ _))

theorem raises_body (offset : Nat) (code : UInt64) :
    (body offset code).Raises (ShortOr AbbreviationTable.Fault) := by
  refine starves_unsigned.raises_short.bind fun tag => ?_
  split
  · exact raises_fail (.fault (.malformed _ _))
  · refine (raises_childrenFlag offset).bind fun hasChildren => ?_
    exact (raises_untilNone AttributeSpec.raises_decode).bind fun _ => raises_pure _

end Abbreviation

namespace AbbreviationTable

theorem raises_extend (found : List Abbreviation) : (extend found).read.Raises (ShortOr Fault) := by
  refine raises_located fun offset => ?_
  refine starves_unsigned.raises_short.bind fun code => ?_
  split
  · exact raises_pure _
  · refine (Abbreviation.raises_body offset code).bind fun declaration => ?_
    split
    · exact raises_fail (.fault (.malformed _ _))
    · exact raises_pure _

theorem fault_restate {error : Error} (raised : ShortOr Fault error) : Fault (restate error) := by
  cases raised with
  | short offset => exact .malformed offset .unterminated
  | fault known =>
      cases known
      exact .malformed _ _

theorem fault_of_decode {data : List UInt8} {offset : Nat} {error : Error}
    (failed : decode data offset = .error error) : Fault error := by
  unfold decode at failed
  split at failed
  · have raises := (raises_iterate raises_extend []).bind fun table =>
      raises_cursor.bind fun stop => raises_pure (table, stop.position)
    exact raises.mapError (fun _ => fault_restate) failed
  · cases failed
    exact .malformed _ _

end AbbreviationTable

/-! ## Unit headers -/

/-- The errors of the header at an offset. -/
inductive UnitHeader.Fault (offset : Nat) : Error → Prop where
  | truncated (stop : Nat) : Fault offset (.truncatedUnit offset stop)
  | version (version : UInt16) : Fault offset (.unsupportedVersion offset version)

namespace UnitHeader

theorem raises_versionAndFields (offset : Nat) (length : UInt64) :
    (versionAndFields offset length).Raises (ShortOr (Fault offset)) := by
  refine starves_uint16.raises_short.bind fun version => ?_
  split
  · exact raises_fail (.fault (.version _))
  · exact (starves_fieldsAfter offset length version).raises_short

theorem fault_restate {offset size : Nat} {error : Error}
    (raised : ShortOr (Fault offset) error) : Fault offset (restate offset size error) := by
  cases raised with
  | short place => exact .truncated size
  | fault known =>
      cases known with
      | truncated stop => exact .truncated stop
      | version version => exact .version version

theorem fault_of_decode {info : List UInt8} {order : ByteOrder} {offset : Nat} {error : Error}
    (failed : decode info order offset = .error error) : Fault offset error := by
  by_cases inside : offset ≤ info.length
  · rw [decode_eq inside, fields_eq, startAt_offset] at failed
    split at failed
    next header read =>
      split at failed
      · cases failed
      · cases failed
        exact .truncated _
    next earlier stopped =>
      cases failed
      have raises : (Decoder.bind initialLength.read (versionAndFields offset)).Raises
          (ShortOr (Fault offset)) :=
        starves_initialLength.raises_short.bind (raises_versionAndFields offset)
      exact fault_restate (raises stopped)
  · rw [decode, if_neg inside] at failed
    cases failed
    exact .truncated _

end UnitHeader

/-! ## Units -/

/-- The errors of the entries of the unit at an offset. -/
inductive CompilationUnit.Fault (unit : Nat) : Error → Prop where
  | truncated (offset : Nat) : Fault unit (.truncatedUnit unit offset)
  | unbalanced (offset : Nat) : Fault unit (.unbalancedTree unit offset)
  | unknownCode (offset : Nat) (code : UInt64) : Fault unit (.unknownAbbreviationCode unit offset code)
  | illegalForm (offset : Nat) (name : AttributeName) (form : Form) :
      Fault unit (.illegalForm offset name form)

namespace Form

theorem starves_resolve (count : Nat) (form : Form) : (resolve count form).Starves := by
  induction count generalizing form with
  | zero =>
      unfold resolve
      exact starves_pure _
  | succ count ih =>
      unfold resolve
      split
      next other form same =>
        cases same
        exact starves_unsigned.bind fun code => ih _
      next => exact starves_pure _

theorem starves_blockOf (length : Nat) : (blockOf length).Starves :=
  (starves_bytes length).bind fun _ => starves_pure _

/-- Whatever the form, reading its values fails for want of data only. -/
theorem starves_value {form : Form} {version : UInt16} {reader : Decoder AttributeValue}
    (found : form.value? version = some reader) : reader.Starves := by
  unfold value? at found
  split at found
  case h_1 => cases found; exact starves_address.bind fun _ => starves_pure _
  case h_2 => cases found; exact starves_uint8.bind fun _ => starves_blockOf _
  case h_3 => cases found; exact starves_uint16.bind fun _ => starves_blockOf _
  case h_4 => cases found; exact starves_uint32.bind fun _ => starves_blockOf _
  case h_5 | h_6 => cases found; exact starves_unsigned.bind fun _ => starves_blockOf _
  case h_7 | h_13 | h_17 => cases found; exact starves_uint8.bind fun _ => starves_pure _
  case h_8 | h_18 => cases found; exact starves_uint16.bind fun _ => starves_pure _
  case h_9 | h_19 => cases found; exact starves_uint32.bind fun _ => starves_pure _
  case h_10 | h_20 | h_23 => cases found; exact starves_uint64.bind fun _ => starves_pure _
  case h_11 => cases found; exact starves_signed.bind fun _ => starves_pure _
  case h_12 | h_21 => cases found; exact starves_unsigned.bind fun _ => starves_pure _
  case h_14 => cases found; exact starves_pure _
  case h_15 => cases found; exact starves_cstring.bind fun _ => starves_pure _
  case h_16 | h_24 => cases found; exact starves_sectionOffset.bind fun _ => starves_pure _
  case h_22 =>
      split at found
      · cases found; exact starves_address.bind fun _ => starves_pure _
      · cases found; exact starves_sectionOffset.bind fun _ => starves_pure _
  case h_25 => cases found

end Form

theorem Attribute.raises_decode (unit entry : Nat) (version : UInt16) (spec : AttributeSpec) :
    (decode entry version spec).Raises (ShortOr (CompilationUnit.Fault unit)) := by
  unfold decode
  refine (Form.starves_resolve _ _).raises_short.bind fun form => ?_
  cases found : form.value? version with
  | none => exact raises_fail (.fault (.illegalForm _ _ _))
  | some reader =>
      refine (Form.starves_value found).raises_short.bind fun value => ?_
      split
      · exact raises_pure _
      · exact raises_fail (.fault (.illegalForm _ _ _))

namespace EntryTree

open CompilationUnit (Fault)

theorem raises_close (tree : EntryTree) (unit offset : Nat) :
    (Decoder.ofExcept (tree.close unit offset)).Raises (Fault unit) := by
  refine raises_ofExcept fun error failed => ?_
  unfold close at failed
  split at failed
  · cases failed
  · split at failed
    · cases failed
      exact .unbalanced offset
    · cases failed

theorem raises_extend (unit : Nat) (version : UInt16) (table : AbbreviationTable)
    (tree : EntryTree) : (extend unit version table tree).read.Raises (ShortOr (Fault unit)) := by
  refine raises_located fun offset => ?_
  refine starves_unsigned.raises_short.bind fun code => ?_
  split
  · exact (raises_close tree unit offset).mono .fault
  · split
    · exact raises_fail (.fault (.unbalanced _))
    · cases table.get? code with
      | none => exact raises_fail (.fault (.unknownCode _ _))
      | some layout =>
          refine (raises_mapM _ fun spec => Attribute.raises_decode unit _ _ spec).bind ?_
          exact fun _ => raises_pure _

theorem fault_restate {unit : Nat} {error : Error} (raised : ShortOr (Fault unit) error) :
    Fault unit (restate unit error) := by
  cases raised with
  | short place => exact .truncated place
  | fault known =>
      cases known with
      | truncated offset => exact .truncated offset
      | unbalanced offset => exact .unbalanced offset
      | unknownCode offset code => exact .unknownCode offset code
      | illegalForm offset name form => exact .illegalForm offset name form

theorem raises_decode (unit : Nat) (version : UInt16) (table : AbbreviationTable) :
    (decode unit version table).Raises (ShortOr (Fault unit)) := by
  refine Raises.bind (raises_untilEnd (raises_extend unit version table) {}) fun tree => ?_
  split
  · exact raises_pure _
  · exact Raises.bind raises_offset fun _ => raises_fail (.fault (.truncated _))

end EntryTree

theorem CompilationUnit.fault_of_decode {info : List UInt8} {header : UnitHeader}
    {table : AbbreviationTable} {order : ByteOrder} {error : Error}
    (failed : decode info header table order = .error error) : Fault header.offset error := by
  unfold decode at failed
  obtain stopped | ⟨entries, _, same⟩ := bind_eq_error_iff.mp failed
  · exact (EntryTree.raises_decode header.offset header.version table).mapError
      (fun _ => EntryTree.fault_restate) stopped
  · cases same

/-! ## Places in the arena -/

namespace EntryTree

theorem opens_of_visits {unit : Nat} {version : UInt16} {table : AbbreviationTable}
    {start cursor : Cursor} {tree : EntryTree}
    (visits : Visits (extend unit version table) start {} cursor tree) : tree.Opens := by
  induction visits with
  | start => exact opens_empty
  | @pass cursor tree following _ _ read opens =>
      let encoding : Encoding := ⟨cursor.addressSize, cursor.offsetSize, version, cursor.order⟩
      have under : cursor.Under encoding := ⟨rfl, rfl, rfl⟩
      obtain ⟨_, _, _, _, absorbed⟩ := absorb_of_extend under read
      exact opens.absorb absorbed

end EntryTree

/-! ## Range lists -/

theorem AddressRange.fault_of_decodeList {data : List UInt8} {offset : Nat} {encoding : Encoding}
    {base : UInt64} {error : Error} (failed : decodeList data offset encoding base = .error error) :
    error = .malformedRangeList offset := by
  unfold decodeList at failed
  split at failed
  · have restated : Raises (· = .malformedRangeList offset) (Decoder.mapError _ _) :=
      raises_restated (Decoder.iterate (extend encoding) (base, [])) rfl
    exact restated failed
  · exact (Except.error.inj failed).symm

/-! ## Line programs -/

/-- The errors of line programs. -/
inductive LineTable.Fault : Error → Prop where
  | malformed (offset : Nat) (defect : LineDefect) : Fault (.malformedLineProgram offset defect)

open LineTable (Fault)

theorem LineFile.starves_decode (compDir : String) (directories : List String) :
    (decode compDir directories).read.Starves := by
  rw [decode_read]
  refine starves_cstring.bind fun stored => ?_
  unfold afterName
  split
  · exact starves_pure _
  · exact starves_unsigned.bind fun _ => starves_unsigned.bind fun _ =>
      starves_unsigned.bind fun _ => starves_pure _

namespace LineHeader

variable {compDir : String}

theorem fault_restate {offset : Nat} {defect : LineDefect} {error : Error}
    (raised : ShortOr Fault error) : Fault (restate offset defect error) := by
  cases raised with
  | short place => exact .malformed offset defect
  | fault known =>
      cases known
      exact .malformed _ _

theorem raises_positive (offset : Nat) (defect : LineDefect) :
    (positive offset defect).Raises (ShortOr Fault) := by
  refine starves_uint8.raises_short.bind fun number => ?_
  split
  · exact raises_fail (.fault (.malformed _ _))
  · exact raises_pure _

theorem raises_operations (offset : Nat) (version : UInt16) :
    (operations offset version).Raises (ShortOr Fault) := by
  unfold operations
  split
  · exact raises_positive offset _
  · exact raises_pure _

theorem raises_afterOperations (offset : Nat) (version : UInt16) (start : Nat)
    (minimumInstructionLength maximumOperations : UInt8) :
    (afterOperations offset compDir version start minimumInstructionLength
      maximumOperations).Raises (ShortOr Fault) := by
  refine starves_uint8.raises_short.bind fun defaultIsStmt => ?_
  refine (starves_uint8.map _).raises_short.bind fun lineBase => ?_
  refine (raises_positive offset _).bind fun lineRange => ?_
  refine (raises_positive offset _).bind fun opcodeBase => ?_
  refine (starves_bytes _).raises_short.bind fun standardLengths => ?_
  refine (raises_untilNone (starves_cstring.map _).raises_short).bind fun directories => ?_
  refine (raises_untilNone (LineFile.starves_decode _ _).raises_short).bind fun files => ?_
  exact Raises.bind raises_cursor fun _ => raises_pure _

theorem raises_programStart (offset : Nat) : (programStart offset).Raises (ShortOr Fault) := by
  refine starves_sectionOffset.raises_short.bind fun length => ?_
  refine Raises.bind raises_cursor fun cursor => ?_
  split
  · exact raises_pure _
  · exact raises_fail (.fault (.malformed _ _))

theorem raises_fields (offset : Nat) : (fields offset compDir).Raises (ShortOr Fault) := by
  rw [fields_eq]
  refine starves_uint16.raises_short.bind fun version => ?_
  unfold afterVersion
  split
  · exact raises_fail (.fault (.malformed _ _))
  · refine (raises_programStart offset).bind fun start => ?_
    refine starves_uint8.raises_short.bind fun minimumInstructionLength => ?_
    exact (raises_operations offset version).bind fun _ => raises_afterOperations _ _ _ _ _

theorem raises_decode (offset : Nat) : (decode offset compDir).Raises Fault :=
  (raises_fields offset).mapError fun _ => fault_restate

end LineHeader

namespace LineInstruction

variable {header : LineHeader} {compDir : String}

theorem starves_address (size : Nat) : (address size).Starves := by
  unfold address
  split
  · exact starves_sized size
  · exact Decoder.starves_address

theorem raises_extended (start length : Nat) :
    (extended header compDir start length).Raises (ShortOr Fault) := by
  refine starves_uint8.raises_short.bind fun code => ?_
  change (afterCode header compDir start length code).Raises _
  unfold afterCode
  split
  · exact raises_pure _
  · exact (starves_address _).raises_short.bind fun _ => raises_pure _
  · have file : (LineFile.decode compDir header.directories).read.Raises (ShortOr Fault) :=
      (LineFile.starves_decode compDir header.directories).raises_short
    refine (file.mapError fun _ raised => ?_).bind fun _ => raises_pure _
    exact .fault (LineHeader.fault_restate raised)
  · exact starves_unsigned.raises_short.bind fun _ => raises_pure _
  · exact raises_pure _

theorem raises_framed (start : Nat) : (framed header compDir start).Raises (ShortOr Fault) := by
  refine starves_unsigned.raises_short.bind fun length => ?_
  have body : (Decoder.split length.toNat).Raises (ShortOr Fault) :=
    (starves_split length.toNat).raises_short
  refine (body.mapError fun _ raised => ?_).bind fun cursor => ?_
  · exact .fault (LineHeader.fault_restate raised)
  · split
    · exact raises_pure _
    · exact raises_ofExcept fun error failed => raises_extended start length.toNat failed

theorem starves_skipOperands (count : Nat) : (skipOperands count).Starves := by
  induction count with
  | zero => exact starves_pure _
  | succ count ih => exact starves_unsigned.bind fun _ => ih

theorem starves_standard (opcode : UInt8) : (standard header opcode).Starves := by
  unfold standard
  split
  · exact starves_pure _
  · exact starves_unsigned.bind fun _ => starves_pure _
  · exact starves_signed.bind fun _ => starves_pure _
  · exact starves_unsigned.bind fun _ => starves_pure _
  · exact starves_unsigned.bind fun _ => starves_pure _
  · exact starves_pure _
  · exact starves_pure _
  · exact starves_pure _
  · exact starves_uint16.bind fun _ => starves_pure _
  · exact starves_pure _
  · exact starves_pure _
  · exact starves_unsigned.bind fun _ => starves_pure _
  · exact (starves_skipOperands _).bind fun _ => starves_pure _

theorem raises_decode : (decode header compDir).read.Raises Fault := by
  refine raises_located fun start => ?_
  have raises : (Decoder.bind Decoder.uint8.read fun opcode =>
      if header.opcodeBase ≤ opcode then
        Decoder.pure (LineInstruction.special (opcode - header.opcodeBase))
      else if opcode = 0 then framed header compDir start
      else standard header opcode).Raises (ShortOr Fault) := by
    refine starves_uint8.raises_short.bind fun opcode => ?_
    split
    · exact raises_pure _
    · split
      · exact raises_framed start
      · exact (starves_standard opcode).raises_short
  exact raises.mapError fun _ => LineHeader.fault_restate

end LineInstruction

namespace LineTable

theorem raises_contentsAfter (offset : Nat) (length : UInt64) :
    (contentsAfter offset length).Raises Fault := by
  intro cursor error failed
  by_cases fits : length.toNat ≤ cursor.remaining
  · rw [contentsAfter_fits fits, Decoder.split, dif_pos fits] at failed
    cases failed
  · have found : (Decoder.cursor cursor).result = .ok cursor := rfl
    rw [contentsAfter, bind_result found, if_neg fits] at failed
    cases failed
    exact .malformed _ _

theorem raises_window (offset : Nat) : (window offset).Raises Fault := by
  rw [window_eq]
  exact (starves_initialLength.raises_short.mapError fun _ => LineHeader.fault_restate).bind
    (raises_contentsAfter offset)

theorem seek_of_accepted {offset : Nat} {compDir : String} {cursor : Cursor} {header : LineHeader}
    {files : List LineFile} {start : Nat}
    (accepted : (LineHeader.decode offset compDir).run cursor = .ok (header, files, start)) :
    ∃ program, cursor.seek start = .ok program :=
  ⟨_, dif_pos (LineHeader.start_le accepted)⟩

theorem fault_of_decode {data : List UInt8} {offset : Nat} {order : ByteOrder} {addressSize : Nat}
    {compDir : String} {error : Error}
    (failed : decode data offset order addressSize compDir = .error error) : Fault error := by
  unfold decode at failed
  split at failed
  · obtain stopped | ⟨unit, _, failed⟩ := bind_eq_error_iff.mp failed
    · exact raises_window offset stopped
    · obtain stopped | ⟨⟨header, files, start⟩, accepted, failed⟩ := bind_eq_error_iff.mp failed
      · exact LineHeader.raises_decode offset stopped
      · obtain outside | ⟨program, sought, failed⟩ := bind_eq_error_iff.mp failed
        · obtain ⟨_, found⟩ := seek_of_accepted accepted
          rw [found] at outside
          cases outside
        · obtain stopped | ⟨_, _, same⟩ := bind_eq_error_iff.mp failed
          · exact raises_many LineInstruction.raises_decode stopped
          · cases same
  · cases failed
    exact .malformed _ _

end LineTable

/-! ## All of them -/

/-- The structural decoders fail with their own errors only.  Nothing that they look up, divide by
or go to without a check of its own can be missing: the contents of a line unit and the place where
its program begins, the numbers of operands, the divisors of the line machine, and the parents and
the root in the arena of a unit. -/
theorem decoders_raise_own_faults :
    (∀ {data offset error}, AbbreviationTable.decode data offset = .error error →
      AbbreviationTable.Fault error) ∧
    (∀ {info order offset error}, UnitHeader.decode info order offset = .error error →
      UnitHeader.Fault offset error) ∧
    (∀ {info header table order error},
      CompilationUnit.decode info header table order = .error error →
        CompilationUnit.Fault header.offset error) ∧
    (∀ {data offset encoding base error},
      AddressRange.decodeList data offset encoding base = .error error →
        error = .malformedRangeList offset) ∧
    (∀ {data offset order addressSize compDir error},
      LineTable.decode data offset order addressSize compDir = .error error →
        LineTable.Fault error) ∧
    (∀ {length cursor}, length ≤ cursor.remaining →
      ∃ contents, (Decoder.split length).run cursor = .ok contents) ∧
    (∀ {offset compDir cursor header files start},
      (LineHeader.decode offset compDir).run cursor = .ok (header, files, start) →
        (∃ program, cursor.seek start = .ok program) ∧ header.lineRange ≠ 0 ∧
          header.maximumOperations ≠ 0 ∧ ∀ opcode : UInt8, opcode ≠ 0 →
            opcode < header.opcodeBase → opcode.toNat - 1 < header.standardLengths.length) ∧
    (∀ {unit version table start cursor tree},
      Visits (EntryTree.extend unit version table) start {} cursor tree →
        ∀ parent ∈ tree.openParents, parent < tree.entries.size) ∧
    (∀ {info header table order unit}, CompilationUnit.decode info header table order = .ok unit →
      0 < unit.entries.size ∧ ∀ {id : Nat} {entry : Entry}, unit.entries[id]? = some entry →
        ∀ parent ∈ entry.parent, parent < unit.entries.size) := by
  refine ⟨AbbreviationTable.fault_of_decode, UnitHeader.fault_of_decode,
    CompilationUnit.fault_of_decode, AddressRange.fault_of_decodeList, LineTable.fault_of_decode,
    ?_, ?_, ?_, ?_⟩
  · intro length cursor fits
    rw [Decoder.run, Decoder.split, dif_pos fits]
    exact ⟨_, rfl⟩
  · intro offset compDir cursor header files start accepted
    have ready := LineHeader.ready_of_accepted accepted
    exact ⟨LineTable.seek_of_accepted accepted, ready.lineRange_ne_zero,
      ready.maximumOperations_ne_zero, fun _ => ready.operands⟩
  · intro unit version table start cursor tree visits parent opened
    obtain ⟨_, stored, _⟩ := EntryTree.opens_of_visits visits parent opened
    exact (Array.getElem?_eq_some_iff.mp stored).1
  · intro info header table order unit decoded
    obtain ⟨_, linked, _, rooted⟩ := CompilationUnit.decode_arranged decoded
    refine ⟨rooted, fun found parent hangs => ?_⟩
    have bound := (Array.getElem?_eq_some_iff.mp found).1
    exact Nat.lt_trans (linked.parent_lt found hangs) bound

/-- A table without its end, a section without a unit and a unit without its entry, a list without
its end and a program without its last bytes; and a header and a unit that are complete. -/
theorem faults_of_short_data :
    (AbbreviationTable.decode [1] 0 = .error (.malformedAbbreviation 1 .unterminated) ∧
      AbbreviationTable.Fault (.malformedAbbreviation 1 .unterminated)) ∧
    (UnitHeader.decode [] .little 0 = .error (.truncatedUnit 0 0) ∧
      UnitHeader.Fault 0 (.truncatedUnit 0 0)) ∧
    (CompilationUnit.decode [7, 0, 0, 0, 4, 0, 0, 0, 0, 0, 8] ⟨0, 7, 4, 0, 8, 4, 11⟩ ⟨[]⟩ .little =
        .error (.truncatedUnit 0 11) ∧ CompilationUnit.Fault 0 (.truncatedUnit 0 11)) ∧
    (∃ error, AddressRange.decodeList [0] 0 {} 0 = .error error ∧
      error = .malformedRangeList 0) ∧
    (LineTable.decode [2, 0, 0, 0, 4] 0 .little 8 "" =
        .error (.malformedLineProgram 0 .unitPastSection) ∧
      LineTable.Fault (.malformedLineProgram 0 .unitPastSection)) ∧
    (∃ contents, (Decoder.split 2).run (({} : Encoding).cursor [4, 0] 0) = .ok contents) ∧
    (∃ program, (({} : Encoding).cursor wideInstructionsBytes 0).seek 26 = .ok program) ∧
    12 - 1 < wideInstructions.standardLengths.length ∧
    (∀ parent ∈ ({} : EntryTree).openParents, parent < 0) ∧
    ∃ unit, CompilationUnit.decode [8, 0, 0, 0, 4, 0, 0, 0, 0, 0, 8, 1] ⟨0, 8, 4, 0, 8, 4, 11⟩
      ⟨[⟨1, ⟨0x24⟩, false, []⟩]⟩ .little = .ok unit ∧ 0 < unit.entries.size := by
  obtain ⟨abbreviation, header, unit, ranges, line, contents, accepted, parents, decoded⟩ :=
    decoders_raise_own_faults
  have unterminated : AbbreviationTable.decode [1] 0 =
      .error (.malformedAbbreviation 1 .unterminated) := by cbv
  have no_header : UnitHeader.decode [] .little 0 = .error (.truncatedUnit 0 0) := by cbv
  have no_entry : CompilationUnit.decode [7, 0, 0, 0, 4, 0, 0, 0, 0, 0, 8] ⟨0, 7, 4, 0, 8, 4, 11⟩
      ⟨[]⟩ .little = .error (.truncatedUnit 0 11) := by cbv
  have no_end : AddressRange.decodeList [0] 0 {} 0 = .error (.malformedRangeList 0) := by cbv
  have no_program : LineTable.decode [2, 0, 0, 0, 4] 0 .little 8 "" =
      .error (.malformedLineProgram 0 .unitPastSection) := by cbv
  have one_entry : CompilationUnit.decode [8, 0, 0, 0, 4, 0, 0, 0, 0, 0, 8, 1]
      ⟨0, 8, 4, 0, 8, 4, 11⟩ ⟨[⟨1, ⟨0x24⟩, false, []⟩]⟩ .little =
        .ok ⟨⟨0, 8, 4, 0, 8, 4, 11⟩, .little, ⟨[⟨1, ⟨0x24⟩, false, []⟩]⟩,
          #[⟨11, ⟨0x24⟩, false, [], none, #[]⟩]⟩ := by cbv
  have wide := accepted wideInstructions_accepted
  refine ⟨⟨unterminated, abbreviation unterminated⟩, ⟨no_header, header no_header⟩,
    ⟨no_entry, unit no_entry⟩, ⟨_, no_end, ranges no_end⟩, ⟨no_program, line no_program⟩,
    contents (by decide), wide.1, wide.2.2.2 12 (by decide) (by decide), ?_, _, one_entry,
    (decoded one_entry).1⟩
  have begun : Visits (EntryTree.extend 0 4 ⟨[]⟩) (({} : Encoding).cursor [] 0) {}
      (({} : Encoding).cursor [] 0) {} := .start
  exact parents begun

end Dwarf
