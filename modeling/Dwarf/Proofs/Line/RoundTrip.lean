import Dwarf.Proofs.Line.Unit
import Dwarf.Proofs.StableSort

/-!
# Line programs of given sequences

Any sequences that cover addresses are the table of some program.  For each row the program states
the address, the way to the new line and the other registers, and then appends the row.  The
registers that hold for one row only are clear whenever a row begins, so what is stated for a row
does not depend on the rows before, except for the line and the statement flag.
-/

namespace Dwarf

open Decoder

variable {encoding : Encoding} {header : LineHeader} {compDir : String}

/-- The rows of a sequence that a program can give without operation indices: any registers, an
end only at the end, and the last address above the first. -/
structure SequenceRows where
  first : LineRow
  others : List LineRow
  last : LineRow
  plain : ∀ row ∈ first :: others, row.opIndex = 0 ∧ row.endSequence = false
  closes : last.opIndex = 0 ∧ last.endSequence = true
  ascends : first.address < last.address

namespace SequenceRows

def rows (source : SequenceRows) : List LineRow :=
  source.first :: (source.others ++ [source.last])

def sequence (source : SequenceRows) : LineSequence :=
  ⟨source.first.address, source.last.address, source.rows⟩

end SequenceRows

/-! ## The program -/

namespace LineInstruction

/-- An instruction that is only there on a condition. -/
def whenever (condition : Bool) (instruction : LineInstruction) : List LineInstruction :=
  if condition then [instruction] else []

end LineInstruction

namespace LineRow

open LineInstruction (whenever)

/-- State the registers of a row, coming from the registers that another one has left. -/
def stateAs (current target : LineRow) : List LineInstruction :=
  [.setAddress target.address, .advanceLine (target.line - current.line).toInt64,
    .setFile target.file, .setColumn target.column, .setIsa target.isa] ++
  (whenever (target.isStmt != current.isStmt) .negateStmt ++
    (whenever target.basicBlock .setBasicBlock ++
      (whenever target.prologueEnd .setPrologueEnd ++
        (whenever target.epilogueBegin .setEpilogueBegin ++
          [.setDiscriminator target.discriminator]))))

/-- State and append rows one after the other, and end the sequence with the last one. -/
def programTo (last : LineRow) : LineRow → List LineRow → List LineInstruction
  | current, [] => stateAs current last ++ [.endSequence]
  | current, row :: rows => stateAs current row ++ .copy :: programTo last row.cleared rows

/-- What holds for one row only is clear. -/
structure Ready (row : LineRow) : Prop where
  basicBlock_eq : row.basicBlock = false
  prologueEnd_eq : row.prologueEnd = false
  epilogueBegin_eq : row.epilogueBegin = false
  endSequence_eq : row.endSequence = false

theorem ready_start (header : LineHeader) : (start header).Ready :=
  ⟨rfl, rfl, rfl, rfl⟩

theorem ready_cleared {row : LineRow} (inside : row.endSequence = false) : row.cleared.Ready :=
  ⟨rfl, rfl, rfl, inside⟩

end LineRow

/-- The program of a sequence. -/
def SequenceRows.program (header : LineHeader) (source : SequenceRows) : List LineInstruction :=
  LineRow.programTo source.last (.start header) (source.first :: source.others)

namespace LineReplay

/-! ## Rows -/

variable {state : LineReplay}

theorem foldl_whenever {instruction : LineInstruction} (switched : Bool → LineReplay)
    (on : step header state instruction = switched true) (off : switched false = state)
    (condition : Bool) :
    (LineInstruction.whenever condition instruction).foldl (step header) state =
      switched condition := by
  cases condition with
  | false => exact off.symm
  | true => exact on

theorem foldl_negateStmt (wanted : Bool) :
    (LineInstruction.whenever (wanted != state.row.isStmt) .negateStmt).foldl (step header) state =
      { state with row := { state.row with isStmt := wanted } } := by
  let switched (differs : Bool) : LineReplay :=
    { state with row := { state.row with isStmt := differs ^^ state.row.isStmt } }
  have on : step header state .negateStmt = switched true := by
    simp only [step, switched, Bool.true_xor]
  have off : switched false = state := by
    simp only [switched, Bool.false_xor]
  have toggled : ((wanted != state.row.isStmt) ^^ state.row.isStmt) = wanted := by
    cases wanted <;> cases state.row.isStmt <;> rfl
  rw [foldl_whenever switched on off]
  simp only [switched, toggled]

theorem foldl_setBasicBlock (clear : state.row.basicBlock = false) (wanted : Bool) :
    (LineInstruction.whenever wanted .setBasicBlock).foldl (step header) state =
      { state with row := { state.row with basicBlock := wanted } } :=
  foldl_whenever (fun value => { state with row := { state.row with basicBlock := value } }) rfl
    (by rw [← clear]) wanted

theorem foldl_setPrologueEnd (clear : state.row.prologueEnd = false) (wanted : Bool) :
    (LineInstruction.whenever wanted .setPrologueEnd).foldl (step header) state =
      { state with row := { state.row with prologueEnd := wanted } } :=
  foldl_whenever (fun value => { state with row := { state.row with prologueEnd := value } }) rfl
    (by rw [← clear]) wanted

theorem foldl_setEpilogueBegin (clear : state.row.epilogueBegin = false) (wanted : Bool) :
    (LineInstruction.whenever wanted .setEpilogueBegin).foldl (step header) state =
      { state with row := { state.row with epilogueBegin := wanted } } :=
  foldl_whenever (fun value => { state with row := { state.row with epilogueBegin := value } }) rfl
    (by rw [← clear]) wanted

theorem add_lineDelta (current target : UInt64) :
    current + (target - current).toInt64.toUInt64 = target := by
  rw [UInt64.toUInt64_toInt64, UInt64.add_comm, UInt64.sub_add_cancel]

/-- Once a row has been stated the registers are that row, but for the end of the sequence. -/
theorem foldl_stateAs {target : LineRow} (ready : state.row.Ready) (plain : target.opIndex = 0) :
    (state.row.stateAs target).foldl (step header) state =
      { state with row := { target with endSequence := false } } := by
  rw [LineRow.stateAs, List.foldl_append]
  have numbers : [.setAddress target.address, .advanceLine (target.line - state.row.line).toInt64,
      .setFile target.file, .setColumn target.column, .setIsa target.isa].foldl (step header)
        state = { state with
          row := { state.row with
            address := target.address, opIndex := 0, line := target.line, file := target.file
            column := target.column, isa := target.isa } } := by
    simp only [List.foldl_cons, List.foldl_nil, step, add_lineDelta]
  rw [numbers]
  simp only [List.foldl_append]
  rw [foldl_negateStmt, foldl_setBasicBlock, foldl_setPrologueEnd, foldl_setEpilogueBegin]
  · simp only [List.foldl_cons, List.foldl_nil, step, ← plain, ready.endSequence_eq]
  · exact ready.epilogueBegin_eq
  · exact ready.prologueEnd_eq
  · exact ready.basicBlock_eq

/-! ## Sequences -/

/-- From a state in which the registers of the last row are clear, rows are stated and appended
one after the other, and the sequence that ends with them has all its rows. -/
theorem foldl_programTo {last : LineRow} {rows : List LineRow}
    (plain : ∀ row ∈ rows, row.opIndex = 0 ∧ row.endSequence = false)
    (closes : last.opIndex = 0 ∧ last.endSequence = true) (ready : state.row.Ready) :
    (LineRow.programTo last state.row rows).foldl (step header) state =
      { state with
        row := .start header
        rows := []
        sequences := (LineSequence.ofRows? (state.rows.reverse ++ (rows ++ [last]))).toList ++
          state.sequences } := by
  induction rows generalizing state with
  | nil =>
      rw [LineRow.programTo, List.foldl_append, foldl_stateAs ready closes.1]
      simp only [List.foldl_cons, List.foldl_nil, step, finish, ← closes.2, List.reverse_cons,
        List.nil_append]
  | cons row rows ih =>
      obtain ⟨⟨row_plain, row_inside⟩, rows_plain⟩ := List.forall_mem_cons.mp plain
      let appended : LineReplay :=
        { state with row := row.cleared, rows := row :: state.rows }
      have copied : step header { state with row := { row with endSequence := false } } .copy =
          appended := by
        rw [← row_inside]
        rfl
      have rest := @ih appended rows_plain (LineRow.ready_cleared row_inside)
      rw [LineRow.programTo, List.foldl_append, foldl_stateAs ready row_plain, List.foldl_cons,
        copied]
      refine rest.trans ?_
      simp only [appended, List.reverse_cons, List.append_assoc, List.cons_append, List.nil_append]

theorem ofRows?_rows (source : SequenceRows) :
    LineSequence.ofRows? source.rows = some source.sequence := by
  have ends : source.rows.getLast? = some source.last := by
    rw [SequenceRows.rows, ← List.cons_append, List.getLast?_concat]
  unfold LineSequence.ofRows?
  rw [ends]
  exact if_pos source.ascends

theorem foldl_program (source : SequenceRows) (fresh : state.row = .start header)
    (empty : state.rows = []) :
    (source.program header).foldl (step header) state =
      { state with sequences := source.sequence :: state.sequences } := by
  have ready : state.row.Ready := fresh ▸ LineRow.ready_start header
  have ran := @foldl_programTo header state _ _ source.plain source.closes ready
  rw [fresh, empty] at ran
  refine ran.trans ?_
  have whole : ([] : List LineRow).reverse ++ (source.first :: source.others ++ [source.last]) =
      source.rows := rfl
  rw [whole, ofRows?_rows]
  simp only [Option.toList_some, List.singleton_append, ← fresh, ← empty]

theorem foldl_programs (sources : List SequenceRows) (fresh : state.row = .start header)
    (empty : state.rows = []) :
    (sources.flatMap (SequenceRows.program header)).foldl (step header) state =
      { state with
        sequences := (sources.map SequenceRows.sequence).reverse ++ state.sequences } := by
  induction sources generalizing state with
  | nil => rfl
  | cons source sources ih =>
      rw [List.flatMap_cons, List.foldl_append, foldl_program source fresh empty,
        @ih { state with sequences := source.sequence :: state.sequences } fresh empty]
      simp only [List.map_cons, List.reverse_cons, List.append_assoc, List.singleton_append]

end LineReplay

/-! ## The bytes -/

namespace LineInstruction

/-- The instruction is of a fixed form. -/
def HasForm (instruction : LineInstruction) : Prop :=
  instruction.opcode?.isSome = true

theorem opcode?_lt {instruction : LineInstruction} {opcode : UInt8}
    (found : instruction.opcode? = some opcode) : opcode < 13 := by
  cases instruction <;> simp only [opcode?, Option.some.injEq, reduceCtorEq] at found <;>
    subst found <;> decide

theorem hasForm_whenever {instruction : LineInstruction} (form : instruction.HasForm)
    (condition : Bool) : ∀ member ∈ whenever condition instruction, member.HasForm := by
  cases condition with
  | false => exact fun _ absent => nomatch absent
  | true => exact List.forall_mem_singleton.mpr form

end LineInstruction

namespace LineRow

open LineInstruction

theorem hasForm_stateAs (current target : LineRow) :
    ∀ instruction ∈ stateAs current target, instruction.HasForm := by
  simp only [stateAs, List.forall_mem_append, List.forall_mem_cons]
  refine ⟨⟨rfl, rfl, rfl, rfl, rfl, nofun⟩, @hasForm_whenever .negateStmt rfl _,
    @hasForm_whenever .setBasicBlock rfl _, @hasForm_whenever .setPrologueEnd rfl _,
    @hasForm_whenever .setEpilogueBegin rfl _, rfl, nofun⟩

theorem hasForm_programTo (last current : LineRow) (rows : List LineRow) :
    ∀ instruction ∈ programTo last current rows, instruction.HasForm := by
  induction rows generalizing current with
  | nil =>
      rw [programTo, List.forall_mem_append]
      exact ⟨hasForm_stateAs current last, List.forall_mem_singleton.mpr rfl⟩
  | cons row rows ih =>
      rw [programTo, List.forall_mem_append, List.forall_mem_cons]
      exact ⟨hasForm_stateAs current row, rfl, ih row.cleared⟩

end LineRow

/-- The bytes of the programs of some sequences. -/
def SequenceRows.encodeAll (header : LineHeader) (order : ByteOrder)
    (sources : List SequenceRows) : List UInt8 :=
  LineInstruction.encodeAll order (sources.flatMap (SequenceRows.program header))

theorem SequenceRows.spelled_encodeAll (standing : 13 ≤ header.opcodeBase)
    (sources : List SequenceRows) :
    Spelled (LineInstruction.decode header compDir) encoding
      (SequenceRows.encodeAll header encoding.order sources)
      (sources.flatMap (SequenceRows.program header)) := by
  refine LineInstruction.spelled_encodeAll fun instruction member => ?_
  obtain ⟨source, _, inside⟩ := List.mem_flatMap.mp member
  obtain ⟨opcode, found⟩ := Option.isSome_iff_exists.mp
    (LineRow.hasForm_programTo _ _ _ instruction inside)
  exact ⟨opcode, found, UInt8.lt_of_lt_of_le (LineInstruction.opcode?_lt found) standing⟩

namespace LineTable

/-- Line programs round-trip.  Behind any header that has been accepted and leaves the standard
opcodes their numbers, the programs of some sequences are decoded as exactly these sequences, row
for row, in the order of their start addresses. -/
theorem decode_sources {head before after : List UInt8} {files : List LineFile}
    (sources : List SequenceRows)
    (accepted : (LineHeader.decode before.length compDir).run (encoding.cursor head 0) =
      .ok (header, files, head.length))
    (standing : 13 ≤ header.opcodeBase)
    (announced : encoding.Announces
      (head ++ SequenceRows.encodeAll header encoding.order sources).length) :
    decode
        (before ++
          (encoding.unit (head ++ SequenceRows.encodeAll header encoding.order sources) ++ after))
        before.length encoding.order encoding.addressSize compDir =
      .ok ⟨header, files,
        (sources.map SequenceRows.sequence).mergeSort fun a b => a.start ≤ b.start⟩ := by
  rw [decode_unit_eq_ok_iff accepted announced, List.drop_length, List.nil_append]
  refine ⟨_, ⟨_, SequenceRows.spelled_encodeAll standing sources, rfl⟩, ?_⟩
  rw [LineReplay.foldl_programs sources rfl rfl]
  simp only [ofReplay, LineReplay.start, List.append_nil, List.reverse_reverse, List.reverse_nil]

/-- A sequence of three rows. -/
def highRows : SequenceRows where
  first := { address := 0x2000, line := 7, column := 3, isStmt := true, prologueEnd := true }
  others := [{ address := 0x2004, line := 2, isStmt := false, discriminator := 300 }]
  last := { address := 0x2010, line := 2, isStmt := false, endSequence := true }
  plain := by decide
  closes := by decide
  ascends := by decide

/-- A sequence below that one, of the least number of rows. -/
def lowRows : SequenceRows where
  first := { address := 0x1000, line := 0xffffffffffffffff, isStmt := false, basicBlock := true }
  others := []
  last := { address := 0x1008, file := 2, isStmt := true, isa := 1, endSequence := true }
  plain := by decide
  closes := by decide
  ascends := by decide

theorem highRows_lowRows_restored :
    decode
        ([] ++ (({} : Encoding).unit (wideInstructionsBytes ++
          SequenceRows.encodeAll wideInstructions .little [highRows, lowRows]) ++ [7]))
        0 .little 8 "" =
      .ok ⟨wideInstructions, [], [lowRows.sequence, highRows.sequence]⟩ := by
  have restored := @decode_sources {} wideInstructions "" wideInstructionsBytes [] [7] []
    [highRows, lowRows] wideInstructions_accepted (by decide) (by decide +kernel)
  have sorted : ([highRows, lowRows].map SequenceRows.sequence).mergeSort
      (fun a b => a.start ≤ b.start) = [lowRows.sequence, highRows.sequence] :=
    mergeSort_swap (by decide)
  rw [sorted] at restored
  exact restored

end LineTable

end Dwarf
