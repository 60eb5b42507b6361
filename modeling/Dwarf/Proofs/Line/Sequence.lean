import Dwarf.Line.Table
import Dwarf.Proofs.Except
import Dwarf.Proofs.StableSort

/-!
# The sequences of a line table

While a program runs, none of the rows that have been appended ends a sequence.  The row that does
is appended last, and the sequence is kept only if this row lies above the first one.  Sorting the
sequences changes none of them.
-/

namespace Dwarf

/-! ## One sequence -/

namespace LineSequence

/-- A sequence as it is kept: it begins at its first row and stops at its last one, which alone ends
it and lies above the first. -/
inductive Finished : LineSequence → Prop where
  | intro (first : LineRow) (inner : List LineRow) (last : LineRow)
      (inside : ∀ row ∈ first :: inner, row.endSequence = false) (ends : last.endSequence = true)
      (ascends : first.address < last.address) :
      Finished ⟨first.address, last.address, first :: (inner ++ [last])⟩

/-- Rows with an end behind them are kept as a finished sequence or not at all. -/
theorem finished_of_rows {body : List LineRow} {last : LineRow} {sequence : LineSequence}
    (inside : ∀ row ∈ body, row.endSequence = false) (ends : last.endSequence = true)
    (kept : ofRows? (body ++ [last]) = some sequence) : sequence.Finished := by
  cases body with
  | nil =>
      simp only [ofRows?, List.nil_append, List.head?_cons, List.getLast?_singleton] at kept
      split at kept
      next ascends => exact absurd ascends (UInt64.lt_irrefl _)
      next => cases kept
  | cons first inner =>
      have front : (first :: inner ++ [last]).head? = some first := rfl
      rw [ofRows?, front, List.getLast?_concat] at kept
      dsimp only at kept
      split at kept
      next ascends =>
        cases kept
        exact .intro first inner last inside ends ascends
      next => cases kept

end LineSequence

/-! ## The machine -/

theorem LineRow.advance_endSequence (header : LineHeader) (row : LineRow) (operations : UInt64) :
    (row.advance header operations).endSequence = row.endSequence := by
  unfold advance
  dsimp only
  split <;> rfl

namespace LineReplay

/-- No row of the current sequence ends it, and those before are finished. -/
structure Orderly (state : LineReplay) : Prop where
  row : state.row.endSequence = false
  rows : ∀ row ∈ state.rows, row.endSequence = false
  sequences : ∀ sequence ∈ state.sequences, sequence.Finished

variable {header : LineHeader} {state : LineReplay}

theorem orderly_start (header : LineHeader) : (start header).Orderly :=
  ⟨rfl, nofun, nofun⟩

theorem Orderly.withRow (orderly : state.Orderly) {row : LineRow}
    (inside : row.endSequence = false) : { state with row }.Orderly :=
  ⟨inside, orderly.rows, orderly.sequences⟩

theorem Orderly.emit (orderly : state.Orderly) : state.emit.Orderly :=
  ⟨orderly.row, List.forall_mem_cons.mpr ⟨orderly.row, orderly.rows⟩, orderly.sequences⟩

theorem Orderly.finish (orderly : state.Orderly) : (state.finish header).Orderly := by
  refine ⟨rfl, nofun, fun sequence member => ?_⟩
  rcases List.mem_append.mp member with added | before
  · have kept := Option.mem_toList.mp added
    rw [List.reverse_cons] at kept
    refine LineSequence.finished_of_rows (fun row inside => ?_) rfl kept
    exact orderly.rows row (List.mem_reverse.mp inside)
  · exact orderly.sequences sequence before

theorem Orderly.step (orderly : state.Orderly) (instruction : LineInstruction) :
    (step header state instruction).Orderly := by
  have advanced (operations : UInt64) :
      (state.row.advance header operations).endSequence = false :=
    (LineRow.advance_endSequence ..).trans orderly.row
  cases instruction with
  | special adjusted =>
      refine Orderly.emit (orderly.withRow ?_)
      exact advanced _
  | copy => exact orderly.emit
  | advancePc operations => exact orderly.withRow (advanced operations)
  | constAddPc => exact orderly.withRow (advanced _)
  | endSequence => exact orderly.finish
  | defineFile file => exact ⟨orderly.row, orderly.rows, orderly.sequences⟩
  | ignored => exact orderly
  | advanceLine | setFile | setColumn | negateStmt | setBasicBlock | fixedAdvancePc
  | setPrologueEnd | setEpilogueBegin | setIsa | setAddress | setDiscriminator =>
      exact orderly.withRow orderly.row

theorem Orderly.run (orderly : state.Orderly) (program : List LineInstruction) :
    (program.foldl (LineReplay.step header) state).Orderly := by
  induction program generalizing state with
  | nil => exact orderly
  | cons instruction program ih => exact ih (orderly.step instruction)

end LineReplay

/-! ## Tables -/

namespace LineTable

/-- The sequences are finished, and they are sorted by their starts. -/
structure Sorted (table : LineTable) : Prop where
  finished : ∀ sequence ∈ table.sequences, sequence.Finished
  ascending : table.sequences.Pairwise fun sequence later => sequence.start ≤ later.start

theorem sorted_ofProgram (header : LineHeader) (files : List LineFile)
    (program : List LineInstruction) : (ofProgram header files program).Sorted where
  finished sequence member := by
    have orderly := @LineReplay.Orderly.run header _ (LineReplay.orderly_start header) program
    exact orderly.sequences sequence (List.mem_reverse.mp (List.mem_mergeSort.mp member))
  ascending := pairwise_mergeSort_key LineSequence.start _

variable {data : List UInt8} {offset addressSize : Nat} {order : ByteOrder} {compDir : String}
  {table : LineTable}

/-- A decoded table is made of a header with its files and of a program. -/
theorem exists_program (decoded : decode data offset order addressSize compDir = .ok table) :
    ∃ unit header files start cursor program,
      (LineHeader.decode offset compDir).run unit = .ok (header, files, start) ∧
      (Decoder.many (LineInstruction.decode header compDir)).run cursor = .ok program ∧
      table = ofProgram header files program := by
  unfold decode at decoded
  split at decoded
  · obtain ⟨unit, _, decoded⟩ := bind_eq_ok_iff.mp decoded
    obtain ⟨⟨header, files, start⟩, accepted, decoded⟩ := bind_eq_ok_iff.mp decoded
    obtain ⟨cursor, _, decoded⟩ := bind_eq_ok_iff.mp decoded
    obtain ⟨program, read, same⟩ := bind_eq_ok_iff.mp decoded
    cases same
    exact ⟨unit, header, files, start, cursor, program, accepted, read, rfl⟩
  · cases decoded

theorem sorted_of_decode (decoded : decode data offset order addressSize compDir = .ok table) :
    table.Sorted := by
  obtain ⟨_, header, files, _, _, program, _, _, rfl⟩ := exists_program decoded
  exact sorted_ofProgram header files program

end LineTable

end Dwarf
