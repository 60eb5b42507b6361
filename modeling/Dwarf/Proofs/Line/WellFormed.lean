import Dwarf.Proofs.Line.Sequence
import Dwarf.Proofs.Line.SpecialOpcode

/-!
# Well-formed line tables

Every table that is decoded is well formed.  The shape of its sequences is known from how they end.
What remains is the operation index of each row: it is a remainder by the number of operations of
an instruction wherever an advance changes it, and zero at the start and wherever an address is set,
and a header that has been accepted does not divide by zero.
-/

namespace Dwarf

variable {header : LineHeader}

/-! ## What is well formed -/

/-- The operation index of the row is one that an instruction has. -/
def LineRow.Positioned (header : LineHeader) (row : LineRow) : Prop :=
  row.opIndex < header.maximumOperations.toUInt64

/-- The sequence covers addresses, from its first row to its last, which is the one that ends it. -/
structure LineSequence.WellFormed (header : LineHeader) (sequence : LineSequence) : Prop where
  covers : sequence.start < sequence.stop
  first : sequence.rows.head?.map LineRow.address = some sequence.start
  last : sequence.rows.getLast?.map LineRow.address = some sequence.stop
  ends : ∀ (index : Nat) (inside : index < sequence.rows.length),
    sequence.rows[index].endSequence = true ↔ index + 1 = sequence.rows.length
  positioned : ∀ row ∈ sequence.rows, row.Positioned header

/-- The sequences are well formed and sorted by their starts. -/
structure LineTable.WellFormed (table : LineTable) : Prop where
  ascending : table.sequences.Pairwise fun sequence later => sequence.start ≤ later.start
  sequences : ∀ sequence ∈ table.sequences, sequence.WellFormed table.header

/-! ## The shape of a sequence -/

namespace LineSequence

/-- A row of a finished sequence ends it just if it is the last. -/
theorem Finished.endSequence_iff {sequence : LineSequence} (finished : sequence.Finished)
    (index : Nat) (inside : index < sequence.rows.length) :
    sequence.rows[index].endSequence = true ↔ index + 1 = sequence.rows.length := by
  obtain ⟨first, inner, last, before, ends, _⟩ := finished
  have count : (first :: (inner ++ [last])).length = (first :: inner).length + 1 := by
    rw [List.length_cons, List.length_append, List.length_singleton, List.length_cons]
  dsimp only at inside ⊢
  rw [count] at inside ⊢
  rcases Nat.lt_or_ge index (first :: inner).length with front | back
  · have member : (first :: (inner ++ [last]))[index] = (first :: inner)[index] :=
      List.getElem_append_left front
    rw [member, before _ (List.getElem_mem front)]
    constructor
    · exact nofun
    · intro same
      omega
  · obtain rfl : index = (first :: inner).length := by omega
    have member : (first :: (inner ++ [last]))[(first :: inner).length] = last :=
      List.getElem_concat_length rfl _
    rw [member]
    exact ⟨fun _ => rfl, fun _ => ends⟩

theorem Finished.wellFormed {sequence : LineSequence} (finished : sequence.Finished)
    (positioned : ∀ row ∈ sequence.rows, row.Positioned header) : sequence.WellFormed header where
  covers := by
    cases finished with
    | intro _ _ _ _ _ ascends => exact ascends
  first := by
    cases finished with
    | intro first => rfl
  last := by
    cases finished with
    | intro first inner last =>
        rw [← List.cons_append, List.getLast?_concat]
        rfl
  ends := finished.endSequence_iff
  positioned := positioned

theorem rows_ofRows? {rows : List LineRow} {sequence : LineSequence}
    (kept : ofRows? rows = some sequence) : sequence.rows = rows := by
  unfold ofRows? at kept
  split at kept
  · split at kept
    · cases kept
      rfl
    · cases kept
  · cases kept

end LineSequence

/-! ## Operation indices -/

namespace LineRow

theorem positioned_of_zero (nonzero : header.maximumOperations ≠ 0) {row : LineRow}
    (zero : row.opIndex = 0) : row.Positioned header := by
  have positive : header.maximumOperations.toNat ≠ 0 := mt (UInt8.toNat_inj (b := 0)).mp nonzero
  rw [Positioned, zero, UInt64.lt_iff_toNat_lt, UInt8.toNat_toUInt64]
  exact Nat.pos_of_ne_zero positive

theorem Positioned.advance {row : LineRow} (positioned : row.Positioned header)
    (operations : UInt64) : (row.advance header operations).Positioned header := by
  unfold LineRow.advance
  dsimp only
  split
  next single => exact positioned
  next several =>
    have more : 0 < header.maximumOperations.toUInt64 :=
      UInt64.lt_of_lt_of_le (by decide) (UInt64.le_of_lt (UInt64.not_le.mp several))
    exact UInt64.mod_lt _ more

end LineRow

namespace LineReplay

/-- The operation indices of the row, of the rows of the current sequence and of those of the
sequences before are ones that an instruction has. -/
structure Positioned (header : LineHeader) (state : LineReplay) : Prop where
  row : state.row.Positioned header
  rows : ∀ row ∈ state.rows, row.Positioned header
  sequences : ∀ sequence ∈ state.sequences, ∀ row ∈ sequence.rows, row.Positioned header

variable {state : LineReplay}

theorem positioned_start (nonzero : header.maximumOperations ≠ 0) :
    (start header).Positioned header :=
  ⟨LineRow.positioned_of_zero nonzero rfl, nofun, nofun⟩

theorem Positioned.withRow (positioned : state.Positioned header) {row : LineRow}
    (inside : row.Positioned header) : { state with row }.Positioned header :=
  ⟨inside, positioned.rows, positioned.sequences⟩

theorem Positioned.emit (positioned : state.Positioned header) : state.emit.Positioned header :=
  ⟨positioned.row, List.forall_mem_cons.mpr ⟨positioned.row, positioned.rows⟩,
    positioned.sequences⟩

theorem Positioned.finish (nonzero : header.maximumOperations ≠ 0)
    (positioned : state.Positioned header) : (state.finish header).Positioned header := by
  refine ⟨LineRow.positioned_of_zero nonzero rfl, nofun, fun sequence member row inside => ?_⟩
  rcases List.mem_append.mp member with added | before
  · rw [LineSequence.rows_ofRows? (Option.mem_toList.mp added), List.mem_reverse] at inside
    rcases List.mem_cons.mp inside with rfl | earlier
    · exact positioned.row
    · exact positioned.rows row earlier
  · exact positioned.sequences sequence before row inside

theorem Positioned.step (nonzero : header.maximumOperations ≠ 0)
    (positioned : state.Positioned header) (instruction : LineInstruction) :
    (step header state instruction).Positioned header := by
  have advanced (operations : UInt64) : (state.row.advance header operations).Positioned header :=
    positioned.row.advance operations
  cases instruction with
  | special adjusted =>
      refine Positioned.emit (positioned.withRow ?_)
      exact advanced _
  | copy => exact positioned.emit
  | advancePc operations => exact positioned.withRow (advanced operations)
  | constAddPc => exact positioned.withRow (advanced _)
  | setAddress | fixedAdvancePc =>
      exact positioned.withRow (LineRow.positioned_of_zero nonzero rfl)
  | endSequence => exact positioned.finish nonzero
  | defineFile file => exact ⟨positioned.row, positioned.rows, positioned.sequences⟩
  | ignored => exact positioned
  | advanceLine | setFile | setColumn | negateStmt | setBasicBlock | setPrologueEnd
  | setEpilogueBegin | setIsa | setDiscriminator => exact positioned.withRow positioned.row

theorem Positioned.run (nonzero : header.maximumOperations ≠ 0)
    (positioned : state.Positioned header) (program : List LineInstruction) :
    (program.foldl (LineReplay.step header) state).Positioned header := by
  induction program generalizing state with
  | nil => exact positioned
  | cons instruction program ih => exact ih (positioned.step nonzero instruction)

end LineReplay

/-! ## Tables -/

namespace LineTable

theorem positioned_ofProgram (nonzero : header.maximumOperations ≠ 0) (files : List LineFile)
    (program : List LineInstruction) :
    ∀ sequence ∈ (ofProgram header files program).sequences, ∀ row ∈ sequence.rows,
      row.Positioned header := by
  intro sequence member
  have positioned := (LineReplay.positioned_start nonzero).run nonzero program
  exact positioned.sequences sequence (List.mem_reverse.mp (List.mem_mergeSort.mp member))

variable {data : List UInt8} {offset addressSize : Nat} {order : ByteOrder} {compDir : String}
  {table : LineTable}

/-- A table that has been decoded, from whatever data, is well formed. -/
theorem wellFormed_of_decode
    (decoded : decode data offset order addressSize compDir = .ok table) : table.WellFormed := by
  obtain ⟨_, header, files, _, _, program, accepted, _, rfl⟩ := exists_program decoded
  have sorted := sorted_ofProgram header files program
  have nonzero := (LineHeader.ready_of_accepted accepted).maximumOperations_ne_zero
  have positioned := positioned_ofProgram nonzero files program
  exact ⟨sorted.ascending, fun sequence member =>
    (sorted.finished sequence member).wellFormed (positioned sequence member)⟩

/-- A table one of whose rows is at the second operation of an instruction. -/
theorem advancedTwice_wellFormed :
    ∃ data table, decode data 0 .little 8 "" = .ok table ∧
      table.sequences = [advancedTwice] ∧ table.WellFormed :=
  ⟨_, _, compactProgram_decoded, rfl, wellFormed_of_decode compactProgram_decoded⟩

end LineTable

end Dwarf
