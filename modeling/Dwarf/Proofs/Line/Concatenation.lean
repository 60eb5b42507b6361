import Dwarf.Proofs.Line.RoundTrip
import Dwarf.Proofs.Line.Sequence

/-!
# Line programs one behind the other

The end of a sequence leaves the line machine as it was at the start, but for the tables.  So behind
it a program does what it does alone: its sequences and files come on top of those that are there.
-/

namespace Dwarf

open Decoder

variable {encoding : Encoding} {header : LineHeader} {compDir : String}

/-! ## Steps on top of a state -/

/-- The file that an instruction adds. -/
def LineInstruction.file? : LineInstruction → Option LineFile
  | .defineFile file => file
  | _ => none

namespace LineReplay

/-- The sequences and files of one state on top of those of another. -/
def above (state base : LineReplay) : LineReplay :=
  { state with
    sequences := state.sequences ++ base.sequences
    files := state.files ++ base.files }

theorem step_above (state base : LineReplay) (instruction : LineInstruction) :
    step header (state.above base) instruction = (step header state instruction).above base := by
  cases instruction with
  | endSequence => simp only [step, finish, above, List.append_assoc]
  | defineFile file => simp only [step, above, List.append_assoc]
  | _ => rfl

theorem foldl_above (state base : LineReplay) (program : List LineInstruction) :
    program.foldl (step header) (state.above base) =
      (program.foldl (step header) state).above base := by
  induction program generalizing state with
  | nil => rfl
  | cons instruction program ih => rw [List.foldl_cons, List.foldl_cons, step_above, ih]

/-- A state with the registers of the start, and without rows of a sequence, is the start on top of
it. -/
theorem eq_start_above {state : LineReplay} (fresh : state.row = .start header)
    (empty : state.rows = []) : state = (start header).above state := by
  obtain ⟨row, rows, sequences, files⟩ := state
  cases fresh
  cases empty
  rfl

theorem fresh_of_endSequence (header : LineHeader) (program : List LineInstruction) :
    (run header (program ++ [.endSequence])).row = .start header ∧
      (run header (program ++ [.endSequence])).rows = [] := by
  rw [run, List.foldl_append]
  exact ⟨rfl, rfl⟩

theorem run_append (header : LineHeader) (program later : List LineInstruction) :
    run header (program ++ [.endSequence] ++ later) =
      (run header later).above (run header (program ++ [.endSequence])) := by
  obtain ⟨fresh, empty⟩ := fresh_of_endSequence header program
  rw [run, List.foldl_append]
  change later.foldl (step header) (run header (program ++ [.endSequence])) = _
  conv_lhs => rw [eq_start_above fresh empty]
  exact foldl_above _ _ later

/-- The files of a state are those that the instructions have added. -/
theorem foldl_files (state : LineReplay) (program : List LineInstruction) :
    (program.foldl (step header) state).files =
      (program.filterMap LineInstruction.file?).reverse ++ state.files := by
  induction program generalizing state with
  | nil => rfl
  | cons instruction program ih =>
      rw [List.foldl_cons, ih, List.filterMap_cons]
      cases instruction with
      | defineFile file =>
          cases file with
          | none => rfl
          | some file => simp [step, LineInstruction.file?]
      | _ => rfl

end LineReplay

/-! ## Units -/

namespace LineTable

/-- The table of a unit whose program is a byte string, behind the bytes of its header. -/
def ofUnit (encoding : Encoding) (compDir : String) (before front after program : List UInt8) :
    Except Error LineTable :=
  decode (before ++ (encoding.unit (front ++ program) ++ after)) before.length encoding.order
    encoding.addressSize compDir

/-- In front of a program the header is accepted, and the program begins behind it. -/
def Accepts (encoding : Encoding) (compDir : String) (before front program : List UInt8)
    (header : LineHeader) (files : List LineFile) : Prop :=
  (LineHeader.decode before.length compDir).run (encoding.cursor (front ++ program) 0) =
    .ok (header, files, front.length)

/-- The byte string is read as a run of instructions. -/
def Reads (encoding : Encoding) (compDir : String) (header : LineHeader) (bytes : List UInt8)
    (program : List LineInstruction) : Prop :=
  (Decoder.many (LineInstruction.decode header compDir)).run (encoding.cursor bytes 0) =
    .ok program

theorem reads_iff_spelled {bytes : List UInt8} {program : List LineInstruction} :
    Reads encoding compDir header bytes program ↔
      Spelled (LineInstruction.decode header compDir) encoding bytes program :=
  many_eq_ok_iff LineInstruction.local_decode (Cursor.under_cursor encoding bytes 0)

variable {before front after first second : List UInt8} {files : List LineFile}

theorem Accepts.append (accepts : Accepts encoding compDir before front first header files)
    (second : List UInt8) :
    Accepts encoding compDir before front (first ++ second) header files := by
  have grown := Cursor.grown_cursor encoding (front ++ first) second 0 0
  rw [List.append_assoc] at grown
  exact (LineHeader.stable_decode before.length compDir grown accepts).1

/-- A unit has a table exactly when its program can be read, and then it is the table of the header,
the files and the program. -/
theorem ofUnit_eq_ok_iff {program : List UInt8} {table : LineTable}
    (accepts : Accepts encoding compDir before front program header files)
    (announced : encoding.Announces (front ++ program).length) :
    ofUnit encoding compDir before front after program = .ok table ↔
      ∃ instructions, Reads encoding compDir header program instructions ∧
        table = ofProgram header files instructions := by
  rw [← List.append_nil (front ++ program)] at announced
  have unit := @decode_unit_eq_ok_iff encoding compDir (front ++ program) [] before after header
    files front.length table accepts announced
  rw [List.drop_left, List.append_nil, List.append_nil] at unit
  refine unit.trans ?_
  constructor
  · rintro ⟨_, ⟨instructions, spelled, rfl⟩, rfl⟩
    exact ⟨instructions, reads_iff_spelled.mpr spelled, rfl⟩
  · rintro ⟨instructions, read, rfl⟩
    exact ⟨_, ⟨instructions, reads_iff_spelled.mp read, rfl⟩, rfl⟩

/-- The tables of two programs and of the first with the second behind it. -/
structure Joined (header : LineHeader) (files : List LineFile)
    (first second : List LineInstruction) (left right whole : LineTable) : Prop where
  header_eq : left.header = header ∧ right.header = header ∧ whole.header = header
  /-- The rows of the second program are those that it has alone. -/
  sequences_eq : whole.sequences =
    (left.sequences ++ right.sequences).mergeSort fun a b => a.start ≤ b.start
  left_files : left.files = files ++ first.filterMap LineInstruction.file?
  right_files : right.files = files ++ second.filterMap LineInstruction.file?
  whole_files : whole.files = files ++ (first.filterMap LineInstruction.file? ++
    second.filterMap LineInstruction.file?)

theorem files_ofProgram (header : LineHeader) (files : List LineFile)
    (program : List LineInstruction) :
    (ofProgram header files program).files =
      files ++ program.filterMap LineInstruction.file? := by
  have added := @LineReplay.foldl_files header (.start header) program
  change files ++ (program.foldl (LineReplay.step header) (.start header)).files.reverse = _
  rw [added, List.reverse_append, List.reverse_reverse]
  rfl

theorem joined_ofProgram (header : LineHeader) (files : List LineFile)
    (program second : List LineInstruction) :
    Joined header files (program ++ [.endSequence]) second
      (ofProgram header files (program ++ [.endSequence])) (ofProgram header files second)
      (ofProgram header files (program ++ [.endSequence] ++ second)) where
  header_eq := ⟨rfl, rfl, rfl⟩
  sequences_eq := by
    have sequences : (LineReplay.run header (program ++ [.endSequence] ++ second)).sequences = _ :=
      congrArg LineReplay.sequences (LineReplay.run_append header program second)
    simp only [ofProgram, sequences, LineReplay.above, List.reverse_append]
    exact (mergeSort_append_key LineSequence.start _ _).symm
  left_files := files_ofProgram ..
  right_files := files_ofProgram ..
  whole_files := by rw [files_ofProgram, List.filterMap_append]

/-- Sequences are independent of one another.  Where the header is accepted in front of either
program and the first one can be read and ends a sequence, both together can be read exactly when
the second can.  The registers are then those of the start, and the table has the sequences of the
two programs, stably sorted by their starts, and the files of the header, of the first program and
of the second. -/
theorem ofUnit_append {program : List LineInstruction}
    (accepts : Accepts encoding compDir before front first header files)
    (accepts_second : Accepts encoding compDir before front second header files)
    (announced : encoding.Announces (front ++ (first ++ second)).length)
    (read : Reads encoding compDir header first (program ++ [.endSequence])) :
    (LineReplay.run header (program ++ [.endSequence])).row = .start header ∧
      (LineReplay.run header (program ++ [.endSequence])).rows = [] ∧
      ∃ left, ofUnit encoding compDir before front after first = .ok left ∧
        ((∃ whole, ofUnit encoding compDir before front after (first ++ second) = .ok whole) ↔
          ∃ right, ofUnit encoding compDir before front after second = .ok right) ∧
        ∀ right, ofUnit encoding compDir before front after second = .ok right →
          ∃ instructions whole, Reads encoding compDir header second instructions ∧
            ofUnit encoding compDir before front after (first ++ second) = .ok whole ∧
            Joined header files (program ++ [.endSequence]) instructions left right whole := by
  have sizes : (front ++ (first ++ second)).length =
      front.length + (first.length + second.length) := by
    rw [List.length_append, List.length_append]
  have first_table (table : LineTable) := @ofUnit_eq_ok_iff encoding header compDir before front
    after files first table accepts (announced.mono (by rw [sizes, List.length_append]; omega))
  have second_table (table : LineTable) := @ofUnit_eq_ok_iff encoding header compDir before front
    after files second table accepts_second
    (announced.mono (by rw [sizes, List.length_append]; omega))
  have whole_table (table : LineTable) := @ofUnit_eq_ok_iff encoding header compDir before front
    after files (first ++ second) table (accepts.append second) announced
  have spelled := reads_iff_spelled.mp read
  have joins (instructions : List LineInstruction)
      (read_second : Reads encoding compDir header second instructions) :
      Reads encoding compDir header (first ++ second) (program ++ [.endSequence] ++ instructions) :=
    reads_iff_spelled.mpr (spelled.append (reads_iff_spelled.mp read_second))
  obtain ⟨fresh, empty⟩ := LineReplay.fresh_of_endSequence header program
  refine ⟨fresh, empty, _, (first_table _).mpr ⟨_, read, rfl⟩, ⟨?_, ?_⟩, ?_⟩
  · rintro ⟨whole, decoded⟩
    obtain ⟨all, read_all, _⟩ := (whole_table whole).mp decoded
    obtain ⟨instructions, _, rest⟩ := spelled.of_append (reads_iff_spelled.mp read_all)
    exact ⟨_, (second_table _).mpr ⟨instructions, reads_iff_spelled.mpr rest, rfl⟩⟩
  · rintro ⟨right, decoded⟩
    obtain ⟨instructions, read_second, _⟩ := (second_table right).mp decoded
    exact ⟨_, (whole_table _).mpr ⟨_, joins instructions read_second, rfl⟩⟩
  · intro right decoded
    obtain ⟨instructions, read_second, rfl⟩ := (second_table right).mp decoded
    exact ⟨instructions, _, read_second, (whole_table _).mpr ⟨_, joins _ read_second, rfl⟩,
      joined_ofProgram header files program instructions⟩

/-- A program that changes all registers that last, but for its last instruction. -/
def busyProgram : List LineInstruction :=
  [.setAddress 0x2000, .setFile 2, .setColumn 9, .negateStmt, .setIsa 3, .advanceLine 7, .copy,
    .advancePc 4]

/-- A program that leaves them alone. -/
def quietProgram : List LineInstruction :=
  [.setAddress 0x1000, .copy, .advancePc 4, .endSequence]

/-- The sequence of the first program. -/
def busySequence : LineSequence where
  start := 0x2000
  stop := 0x2002
  rows := [{ address := 0x2000, file := 2, line := 8, column := 9, isStmt := false, isa := 3 },
    { address := 0x2002, opIndex := 1, file := 2, line := 8, column := 9, isStmt := false
      endSequence := true, isa := 3 }]

/-- The sequence of the second program, which lies below that of the first. -/
def quietSequence : LineSequence where
  start := 0x1000
  stop := 0x1002
  rows := [{ address := 0x1000, isStmt := true },
    { address := 0x1002, opIndex := 1, isStmt := true, endSequence := true }]

theorem reads_encodeAll {program : List LineInstruction}
    (formed : ∀ instruction ∈ program, instruction.opcode?.isSome = true) :
    Reads {} "" wideInstructions (LineInstruction.encodeAll .little program) program := by
  refine reads_iff_spelled.mpr (@LineInstruction.spelled_encodeAll {} _ _ _ fun _ member => ?_)
  obtain ⟨opcode, found⟩ := Option.isSome_iff_exists.mp (formed _ member)
  exact ⟨opcode, found, LineInstruction.opcode?_lt found⟩

theorem busyProgram_quietProgram_joined :
    ∃ program instructions left right whole,
      Reads {} "" wideInstructions
        (LineInstruction.encodeAll .little (busyProgram ++ [.endSequence]))
        (program ++ [.endSequence]) ∧
      ofUnit {} "" [] wideInstructionsBytes []
        (LineInstruction.encodeAll .little (busyProgram ++ [.endSequence])) = .ok left ∧
      ofUnit {} "" [] wideInstructionsBytes []
        (LineInstruction.encodeAll .little quietProgram) = .ok right ∧
      ofUnit {} "" [] wideInstructionsBytes []
        (LineInstruction.encodeAll .little (busyProgram ++ [.endSequence]) ++
          LineInstruction.encodeAll .little quietProgram) = .ok whole ∧
      Joined wideInstructions [] (program ++ [.endSequence]) instructions left right whole ∧
      whole.sequences = [quietSequence, busySequence] := by
  have accepts : Accepts {} "" [] wideInstructionsBytes [] wideInstructions [] := by
    rw [Accepts, List.append_nil]
    exact wideInstructions_accepted
  have read := @reads_encodeAll (busyProgram ++ [.endSequence]) (by decide)
  have read_second := @reads_encodeAll quietProgram (by decide)
  have first := (@ofUnit_eq_ok_iff {} wideInstructions "" [] wideInstructionsBytes [] [] _ _
    (accepts.append _) (by decide +kernel)).mpr ⟨_, read, rfl⟩
  have second := (@ofUnit_eq_ok_iff {} wideInstructions "" [] wideInstructionsBytes [] [] _ _
    (accepts.append _) (by decide +kernel)).mpr ⟨_, read_second, rfl⟩
  obtain ⟨_, _, left, again, _, joins⟩ := @ofUnit_append {} wideInstructions "" []
    wideInstructionsBytes [] _ (LineInstruction.encodeAll .little quietProgram) [] busyProgram
    (accepts.append _) (accepts.append _) (by decide +kernel) read
  cases first.symm.trans again
  obtain ⟨instructions, whole, _, both, joined⟩ := joins _ second
  refine ⟨_, instructions, _, _, whole, read, first, second, both, joined, ?_⟩
  have listed : (ofProgram wideInstructions [] (busyProgram ++ [.endSequence])).sequences ++
      (ofProgram wideInstructions [] quietProgram).sequences = [busySequence, quietSequence] := by
    decide +kernel
  rw [joined.sequences_eq, listed]
  exact mergeSort_swap (by decide)

end LineTable

end Dwarf
