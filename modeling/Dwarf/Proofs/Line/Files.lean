import Dwarf.Proofs.Line.Sequence
import Dwarf.Proofs.Line.Unit
import Dwarf.Proofs.Text.Path
import Dwarf.Proofs.Text.Utf8

/-!
# The files of a line table

Every file of a decoded table has a name, and its path is the name seen from its directory, whether
the header or the program has added it.  So a reference to the current directory in front of a text
changes the files that answer to it only where the text is a whole path.
-/

namespace Dwarf

open Decoder

/-- A file of a program with some directories: it has a name, and its path is the name seen from its
directory. -/
structure LineFile.Placed (compDir : String) (directories : List String) (file : LineFile) :
    Prop where
  named : file.name ≠ ""
  path_eq : file.path =
    Path.join (LineFile.directory compDir directories file.directoryIndex) file.name

variable {compDir : String}

theorem LineFile.delivers_decode (directories : List String) :
    Delivers (fun found => ∀ file ∈ found, LineFile.Placed compDir directories file)
      (LineFile.decode compDir directories).read := by
  refine delivers_bind fun stored => ?_
  split
  next => exact delivers_pure nofun
  next some_bytes =>
    refine delivers_bind fun directoryIndex => delivers_bind fun modificationTime => ?_
    refine delivers_bind fun length => delivers_pure fun file member => ?_
    cases member
    exact ⟨Utf8.decode_ne_empty (mt List.isEmpty_iff.mpr some_bytes), rfl⟩

namespace LineHeader

theorem delivers_files (offset : Nat) :
    Delivers
      (fun delivered => ∀ file ∈ delivered.2.1,
        LineFile.Placed compDir delivered.1.directories file)
      (decode offset compDir) := by
  refine Delivers.mapError ?_ _
  rw [fields_eq]
  refine delivers_bind fun version => ?_
  unfold afterVersion
  split
  · exact delivers_fail
  · refine delivers_bind fun start => delivers_bind fun minimumInstructionLength => ?_
    refine delivers_bind fun maximumOperations => delivers_bind fun defaultIsStmt => ?_
    refine delivers_bind fun lineBase => delivers_bind fun lineRange => ?_
    refine delivers_bind fun opcodeBase => delivers_bind fun standardLengths => ?_
    refine delivers_bind fun directories => ?_
    have all := delivers_untilNone (@LineFile.delivers_decode compDir directories)
    exact all.bind fun files placed => delivers_bind fun cursor => delivers_pure placed

end LineHeader

/-! ## Files that the program adds -/

/-- A file that the instruction adds is one of a program with some directories. -/
def LineInstruction.AddsPlaced (compDir : String) (header : LineHeader)
    (instruction : LineInstruction) : Prop :=
  ∀ file, instruction = .defineFile (some file) →
    LineFile.Placed compDir header.directories file

namespace LineInstruction

variable {header : LineHeader}

theorem delivers_standard (opcode : UInt8) :
    Delivers (AddsPlaced compDir header) (standard header opcode) := by
  unfold standard
  split <;> first
    | exact delivers_pure nofun
    | exact delivers_bind fun _ => delivers_pure nofun

theorem delivers_extended (start length : Nat) :
    Delivers (AddsPlaced compDir header) (extended header compDir start length) := by
  refine delivers_bind fun code => ?_
  change Delivers _ (afterCode header compDir start length code)
  unfold afterCode
  split
  · exact delivers_pure nofun
  · exact delivers_bind fun _ => delivers_pure nofun
  · have file := (@LineFile.delivers_decode compDir header.directories).mapError
      (LineHeader.restate start .truncatedFile)
    refine file.bind fun found placed => delivers_pure fun file same => ?_
    cases same
    exact placed file rfl
  · exact delivers_bind fun _ => delivers_pure nofun
  · exact delivers_pure nofun

theorem delivers_decode :
    Delivers (AddsPlaced compDir header) (decode header compDir).read := by
  refine delivers_located fun start => Delivers.mapError ?_ _
  refine delivers_bind fun opcode => ?_
  split
  · exact delivers_pure nofun
  · split
    · refine delivers_bind fun length => delivers_bind fun body => ?_
      split
      · exact delivers_pure nofun
      · exact delivers_ofExcept fun _ read => delivers_extended start length.toNat read
    · exact delivers_standard opcode

end LineInstruction

namespace LineReplay

variable {header : LineHeader} {state : LineReplay}

theorem placed_step (placed : ∀ file ∈ state.files, LineFile.Placed compDir header.directories file)
    {instruction : LineInstruction} (adds : instruction.AddsPlaced compDir header) :
    ∀ file ∈ (step header state instruction).files,
      LineFile.Placed compDir header.directories file := by
  cases instruction with
  | defineFile added =>
      intro file member
      rcases List.mem_append.mp member with new | before
      · cases Option.mem_toList.mp new
        exact adds file rfl
      · exact placed file before
  | _ => exact placed

theorem placed_run (placed : ∀ file ∈ state.files, LineFile.Placed compDir header.directories file)
    {program : List LineInstruction}
    (adds : ∀ instruction ∈ program, instruction.AddsPlaced compDir header) :
    ∀ file ∈ (program.foldl (step header) state).files,
      LineFile.Placed compDir header.directories file := by
  induction program generalizing state with
  | nil => exact placed
  | cons instruction program ih =>
      obtain ⟨first, rest⟩ := List.forall_mem_cons.mp adds
      exact ih (placed_step placed first) rest

end LineReplay

namespace LineTable

variable {data : List UInt8} {offset addressSize : Nat} {order : ByteOrder} {table : LineTable}

theorem placed_of_decode (decoded : decode data offset order addressSize compDir = .ok table) :
    ∀ file ∈ table.files, LineFile.Placed compDir table.header.directories file := by
  obtain ⟨_, header, files, _, _, program, accepted, read, rfl⟩ := exists_program decoded
  have added := @LineReplay.placed_run compDir header (LineReplay.start header) nofun program
    (delivers_many LineInstruction.delivers_decode read)
  intro file member
  rcases List.mem_append.mp member with stated | later
  · exact LineHeader.delivers_files offset accepted file stated
  · exact added file (List.mem_reverse.mp later)

theorem filesNamed_congr {text other : String}
    (same : ∀ file ∈ table.files,
      Path.answersTo file.path file.name text = Path.answersTo file.path file.name other) :
    table.filesNamed text = table.filesNamed other := by
  refine List.filterMap_congr fun entry member => ?_
  dsimp only
  rw [same entry.1 (List.fst_mem_of_mem_zipIdx member)]

/-- A file of a decoded table answers to a text with a reference to the current directory in front
if it answers to the text, unless the text is its whole path.  So the addresses of a line do not
depend on the reference where the text begins with one anyway or is no file's whole path. -/
theorem addressesFor_current (decoded : decode data offset order addressSize compDir = .ok table)
    (text : String) :
    (∀ file ∈ table.files, Path.answersTo file.path file.name ("./" ++ text) = true ↔
      Path.answersTo file.path file.name text = true ∧
        (file.path = text → ∃ rest, text = "./" ++ rest)) ∧
    ((∃ rest, text = "./" ++ rest) ∨ (∀ file ∈ table.files, file.path ≠ text) →
      ∀ line, table.addressesFor ("./" ++ text) line = table.addressesFor text line) := by
  have answers_iff (file) (member : file ∈ table.files) :=
    have placed := placed_of_decode decoded file member
    Path.answersTo_current_iff placed.named placed.path_eq text
  refine ⟨answers_iff, fun harmless line => ?_⟩
  have same : table.filesNamed ("./" ++ text) = table.filesNamed text := by
    refine filesNamed_congr fun file member => Bool.eq_iff_iff.mpr ?_
    rw [answers_iff file member]
    refine and_iff_left fun whole => ?_
    exact harmless.elim id fun different => absurd whole (different file member)
  unfold addressesFor
  rw [same]

/-- A program with one file and a row of line 5. -/
def oneLine : List UInt8 :=
  [0x30, 0, 0, 0, 2, 0, 0x17, 0, 0, 0, 1, 1, 0xfb, 14, 10, 0, 1, 1, 1, 1, 0, 0, 0, 1, 0,
    0x61, 0x2e, 0x63, 0, 0, 0, 0, 0, 0, 9, 2, 0, 0x10, 0, 0, 0, 0, 0, 0, 3, 4, 1, 2, 8, 0, 1, 1]

/-- The table of the program, given the path of its file. -/
def oneLineTable (path : String) : LineTable where
  header := ⟨0, 2, 4, 1, 1, true, -5, 14, 10, [0, 1, 1, 1, 1, 0, 0, 0, 1], []⟩
  files := [⟨"a.c", 0, 0, 0, path⟩]
  sequences := [⟨0x1000, 0x1008, [{ address := 0x1000, line := 5, isStmt := true },
    { address := 0x1008, line := 5, isStmt := true, endSequence := true }]⟩]

/-- In a directory, the name with the reference finds the lines. -/
theorem oneLine_found :
    decode oneLine 0 .little 8 "/src" = .ok (oneLineTable "/src/a.c") ∧
      (∀ file ∈ (oneLineTable "/src/a.c").files, file.path ≠ "a.c") ∧
      (oneLineTable "/src/a.c").addressesFor ("./" ++ "a.c") 5 =
        (oneLineTable "/src/a.c").addressesFor "a.c" 5 := by
  have decoded : decode oneLine 0 .little 8 "/src" = .ok (oneLineTable "/src/a.c") := by
    decide +kernel
  have different : ∀ file ∈ (oneLineTable "/src/a.c").files, file.path ≠ "a.c" := by decide
  exact ⟨decoded, different, (addressesFor_current decoded "a.c").2 (.inr different) 5⟩

/-- Without one, the name is the whole path, and with the reference it finds nothing. -/
theorem oneLine_missed :
    decode oneLine 0 .little 8 "" = .ok (oneLineTable "a.c") ∧
      (oneLineTable "a.c").addressesFor "a.c" 5 = [0x1000] ∧
      (oneLineTable "a.c").addressesFor ("./" ++ "a.c") 5 = [] := by
  exact ⟨by decide +kernel, by decide +kernel, by decide +kernel⟩

end LineTable

end Dwarf
