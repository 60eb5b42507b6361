import Mathlib.Data.List.Basic
import Mathlib.Data.List.Induction
import Dwarf.Proofs.Line.Sequence

/-!
# The addresses of a line

The addresses of a line are those at which a run of its statements begins.  A row of the line that
is no statement ends such a run, so there can be more than one of them while the line lasts, and one
if no statement follows such a row.
-/

namespace Dwarf

/-! ## Sorted addresses without repetitions -/

theorem mem_eraseReps_loop {address first : UInt64} {rest kept : List UInt64} :
    address ∈ List.eraseRepsBy.loop (· == ·) first rest kept ↔
      address ∈ kept ∨ address = first ∨ address ∈ rest := by
  induction rest generalizing first kept with
  | nil => simp [List.eraseRepsBy.loop, or_comm]
  | cons next rest ih =>
      rw [List.eraseRepsBy.loop]
      split
      next same =>
        rw [ih, beq_iff_eq.mp same, List.mem_cons, or_self_left]
      next => rw [ih, List.mem_cons, List.mem_cons, or_assoc, or_left_comm]

theorem ascending_eraseReps_loop {first : UInt64} {rest kept : List UInt64}
    (ascending : (first :: rest).Pairwise (· ≤ ·)) (descending : (first :: kept).Pairwise (· > ·)) :
    (List.eraseRepsBy.loop (· == ·) first rest kept).Pairwise (· < ·) := by
  induction rest generalizing first kept with
  | nil => exact List.pairwise_reverse.mpr descending
  | cons next rest ih =>
      obtain ⟨below, ascending⟩ := List.pairwise_cons.mp ascending
      rw [List.eraseRepsBy.loop]
      split
      next same =>
        rw [beq_iff_eq.mp same] at descending ⊢
        exact ih ascending descending
      next different =>
        have above : first < next :=
          UInt64.lt_of_le_of_ne (below next List.mem_cons_self) (beq_eq_false_iff_ne.mp different)
        refine ih ascending (List.pairwise_cons.mpr ⟨fun earlier member => ?_, descending⟩)
        rcases List.mem_cons.mp member with rfl | member
        · exact above
        · exact UInt64.lt_trans ((List.pairwise_cons.mp descending).1 earlier member) above

theorem mem_sorted_addresses {address : UInt64} (addresses : List UInt64) :
    address ∈ (addresses.mergeSort fun a b => a ≤ b).eraseReps ↔ address ∈ addresses := by
  rw [← (List.mergeSort_perm addresses fun a b => a ≤ b).mem_iff]
  cases addresses.mergeSort fun a b => a ≤ b with
  | nil => rfl
  | cons first rest =>
      refine mem_eraseReps_loop.trans ?_
      rw [List.mem_cons]
      exact or_iff_right List.not_mem_nil

theorem ascending_sorted_addresses (addresses : List UInt64) :
    (addresses.mergeSort fun a b => a ≤ b).eraseReps.Pairwise (· < ·) := by
  have sorted : (addresses.mergeSort fun a b => a ≤ b).Pairwise (· ≤ ·) :=
    pairwise_mergeSort_key id addresses
  cases sort : addresses.mergeSort fun a b => a ≤ b with
  | nil => exact .nil
  | cons first rest =>
      rw [sort] at sorted
      exact ascending_eraseReps_loop sorted (List.pairwise_singleton ..)

/-! ## Runs of rows -/

namespace LineSequence

/-- The row begins a run of rows with some property: there is no such row right before it. -/
def Begins (property : LineRow → Prop) (rows : List LineRow) (row : LineRow) : Prop :=
  ∃ before after, rows = before ++ row :: after ∧ property row ∧
    ∀ previous ∈ before.getLast?, ¬property previous

/-- The row is the first statement in a maximal run of rows with some property. -/
def FirstStatement (property : LineRow → Prop) (rows : List LineRow) (row : LineRow) : Prop :=
  ∃ before skipped after, rows = before ++ (skipped ++ row :: after) ∧
    (∀ previous ∈ before.getLast?, ¬property previous) ∧
    (∀ other ∈ skipped, property other ∧ other.isStmt = false) ∧
    property row ∧ row.isStmt = true

/-- Between two statements in a run of rows with some property there are only statements. -/
def Unbroken (property : LineRow → Prop) (rows : List LineRow) : Prop :=
  ∀ before first inner last after, rows = before ++ first :: (inner ++ last :: after) →
    (∀ row ∈ first :: (inner ++ [last]), property row) →
      first.isStmt = true → last.isStmt = true → ∀ row ∈ inner, row.isStmt = true

/-- Whether a row is a wanted statement. -/
def isHit (wanted : LineRow → Bool) (row : LineRow) : Bool :=
  !row.endSequence && wanted row && row.isStmt

theorem runStarts_cons (wanted : LineRow → Bool) (inRun : Bool) (row : LineRow)
    (rest : List LineRow) :
    runStarts wanted inRun (row :: rest) =
      if isHit wanted row && !inRun then row.address :: runStarts wanted (isHit wanted row) rest
      else runStarts wanted (isHit wanted row) rest :=
  rfl

section

variable {wanted : LineRow → Bool} {inRun : Bool} {address : UInt64}

theorem mem_runStarts_cons {row : LineRow} {rest : List LineRow} :
    address ∈ runStarts wanted inRun (row :: rest) ↔
      (isHit wanted row = true ∧ inRun = false ∧ row.address = address) ∨
        address ∈ runStarts wanted (isHit wanted row) rest := by
  rw [runStarts_cons]
  split
  next begins =>
    rw [Bool.and_eq_true, Bool.not_eq_true'] at begins
    rw [List.mem_cons]
    simp only [begins, true_and, eq_comm]
  next otherwise =>
    rw [Bool.and_eq_true, Bool.not_eq_true'] at otherwise
    exact (or_iff_right fun begins => otherwise ⟨begins.1, begins.2.1⟩).symm

theorem previous_cons (row : LineRow) (before : List LineRow) :
    (row :: before).getLast?.elim inRun (isHit wanted) =
      before.getLast?.elim (isHit wanted row) (isHit wanted) := by
  rw [List.getLast?_cons]
  cases before.getLast? with
  | none => rfl
  | some last => rfl

/-- The addresses are those of the wanted statements without one right before them. -/
theorem mem_runStarts {rows : List LineRow} :
    address ∈ runStarts wanted inRun rows ↔
      ∃ before row after, rows = before ++ row :: after ∧ isHit wanted row = true ∧
        before.getLast?.elim inRun (isHit wanted) = false ∧ row.address = address := by
  induction rows generalizing inRun with
  | nil => simp [runStarts]
  | cons first rest ih =>
      rw [mem_runStarts_cons, ih]
      constructor
      · rintro (⟨hit, start, same⟩ | ⟨before, row, after, rfl, hit, start, same⟩)
        · exact ⟨[], first, rest, rfl, hit, start, same⟩
        · exact ⟨first :: before, row, after, rfl, hit, (previous_cons ..).trans start, same⟩
      · rintro ⟨before, row, after, split, hit, start, same⟩
        cases before with
        | nil =>
            cases split
            exact .inl ⟨hit, start, same⟩
        | cons other before =>
            cases split
            exact .inr ⟨before, row, after, rfl, hit, (previous_cons ..).symm.trans start, same⟩

end

/-- From outside, the addresses are those of the rows at which a run begins. -/
theorem mem_runStarts_iff {wanted : LineRow → Bool} {rows : List LineRow} {address : UInt64} :
    address ∈ runStarts wanted false rows ↔
      ∃ row, Begins (fun row => isHit wanted row = true) rows row ∧ row.address = address := by
  have outside (before : List LineRow) :
      before.getLast?.elim false (isHit wanted) = false ↔
        ∀ previous ∈ before.getLast?, ¬isHit wanted previous = true := by
    cases before.getLast? <;> simp
  rw [mem_runStarts]
  constructor
  · rintro ⟨before, row, after, split, hit, start, same⟩
    exact ⟨row, ⟨before, after, split, hit, (outside before).mp start⟩, same⟩
  · rintro ⟨row, ⟨before, after, split, hit, start⟩, same⟩
    exact ⟨before, row, after, split, hit, (outside before).mpr start, same⟩

/-! ## Runs of statements and runs of rows -/

section

variable {property : LineRow → Prop} {rows : List LineRow} {row : LineRow}

/-- The first statement of a run of rows begins a run of statements. -/
theorem FirstStatement.begins (firstStatement : FirstStatement property rows row) :
    Begins (fun row => property row ∧ row.isStmt = true) rows row := by
  obtain ⟨before, skipped, after, rfl, outside, others, has, statement⟩ := firstStatement
  refine ⟨before ++ skipped, after, (List.append_assoc ..).symm, ⟨has, statement⟩, ?_⟩
  rintro previous member ⟨previous_has, previous_statement⟩
  rw [List.getLast?_append] at member
  cases last : skipped.getLast? with
  | none =>
      rw [last, Option.none_or] at member
      exact outside previous member previous_has
  | some other =>
      rw [last, Option.some_or] at member
      rw [Option.mem_some.mp member] at last
      rw [(others previous (List.mem_of_getLast? last)).2] at previous_statement
      cases previous_statement

/-- Every list ends in a run of rows with some property. -/
theorem exists_run (property : LineRow → Prop) (rows : List LineRow) :
    ∃ before run, rows = before ++ run ∧ (∀ previous ∈ before.getLast?, ¬property previous) ∧
      ∀ row ∈ run, property row := by
  induction rows using List.reverseRecOn with
  | nil => exact ⟨[], [], rfl, nofun, nofun⟩
  | append_singleton front last ih =>
      by_cases has : property last
      · obtain ⟨before, run, rfl, outside, inside⟩ := ih
        refine ⟨before, run ++ [last], List.append_assoc .., outside, fun row member => ?_⟩
        rcases List.mem_append.mp member with earlier | at_end
        · exact inside row earlier
        · rwa [List.mem_singleton.mp at_end]
      · refine ⟨front ++ [last], [], (List.append_nil _).symm, fun previous member => ?_, nofun⟩
        rw [List.getLast?_concat] at member
        rwa [← Option.mem_some.mp member]

theorem unbroken_of_statements (statements : ∀ row ∈ rows, row.isStmt = true) :
    Unbroken property rows := by
  rintro before first inner last after rfl _ _ _ row member
  exact statements row (by simp [member])

/-- Where runs are unbroken, a run of statements begins at the first statement of a run of rows. -/
theorem Unbroken.firstStatement (unbroken : Unbroken property rows)
    (begins : Begins (fun row => property row ∧ row.isStmt = true) rows row) :
    FirstStatement property rows row := by
  obtain ⟨front, after, rfl, ⟨has, statement⟩, start⟩ := begins
  obtain ⟨before, run, rfl, outside, inside⟩ := exists_run property front
  refine ⟨before, run, after, List.append_assoc .., outside, fun other member => ?_, has, statement⟩
  refine ⟨inside other member, Bool.eq_false_iff.mpr fun other_statement => ?_⟩
  obtain ⟨left, inner, rfl⟩ := List.append_of_mem member
  have between : ∀ row ∈ inner, row.isStmt = true := by
    refine unbroken (before ++ left) other inner row after (by simp) ?_ other_statement statement
    simp only [List.forall_mem_append, List.forall_mem_cons] at inside ⊢
    exact ⟨inside.2.1, inside.2.2, has, nofun⟩
  rcases List.eq_nil_or_concat' inner with rfl | ⟨init, last, rfl⟩
  · exact start other (by simp) ⟨inside other member, other_statement⟩
  · rw [← List.cons_append, ← List.append_assoc, ← List.append_assoc, List.getLast?_concat] at start
    exact start last rfl ⟨inside last (by simp), between last (by simp)⟩

end

end LineSequence

/-! ## The addresses of a line in a table -/

namespace LineTable

open LineSequence

variable {table : LineTable} {text : String} {line : UInt64} {row : LineRow}

/-- The row is of a line in a file that answers to some text, and does not end its sequence. -/
structure Carries (table : LineTable) (text : String) (line : UInt64) (row : LineRow) : Prop where
  inside : row.endSequence = false
  line_eq : row.line = line
  file : ∃ index file, table.files[index]? = some file ∧
    Path.answersTo file.path file.name text = true ∧ row.file = UInt64.ofNat (index + 1)

theorem mem_filesNamed {number : UInt64} :
    number ∈ table.filesNamed text ↔ ∃ index file, table.files[index]? = some file ∧
      Path.answersTo file.path file.name text = true ∧ number = UInt64.ofNat (index + 1) := by
  unfold filesNamed
  rw [List.mem_filterMap]
  constructor
  · rintro ⟨⟨file, index⟩, member, found⟩
    obtain ⟨positive, at_index⟩ := List.mem_zipIdx_iff_le_and_getElem?_sub.mp member
    dsimp only at found positive at_index
    split at found
    next answers =>
      refine ⟨index - 1, file, at_index, answers, ?_⟩
      rw [Nat.sub_add_cancel positive]
      exact (Option.some.inj found).symm
    next => cases found
  · rintro ⟨index, file, at_index, answers, rfl⟩
    refine ⟨(file, index + 1), List.mem_zipIdx_iff_le_and_getElem?_sub.mpr ⟨?_, at_index⟩, ?_⟩
    · exact Nat.le_add_left 1 index
    · exact if_pos answers

theorem isHit_iff :
    isHit (fun row => row.line == line && (table.filesNamed text).contains row.file) row = true ↔
      table.Carries text line row ∧ row.isStmt = true := by
  simp only [isHit, Bool.and_eq_true, Bool.not_eq_true', beq_iff_eq, List.contains_iff_mem,
    mem_filesNamed]
  constructor
  · rintro ⟨⟨inside, line_eq, file⟩, statement⟩
    exact ⟨⟨inside, line_eq, file⟩, statement⟩
  · rintro ⟨⟨inside, line_eq, file⟩, statement⟩
    exact ⟨⟨inside, line_eq, file⟩, statement⟩

theorem mem_addressesFor {address : UInt64} :
    address ∈ table.addressesFor text line ↔ ∃ sequence ∈ table.sequences, ∃ row,
      Begins (fun row => table.Carries text line row ∧ row.isStmt = true) sequence.rows row ∧
        row.address = address := by
  unfold addressesFor
  dsimp only
  rw [mem_sorted_addresses, List.mem_flatMap]
  simp only [mem_runStarts_iff, isHit_iff]

/-- The addresses of a line ascend, and they are those at which a run of its statements begins.  The
first statement of every maximal run of rows of the line is among them, and there are no others if
the statements in each of these runs follow one another. -/
theorem addresses_of_line (table : LineTable) (text : String) (line : UInt64) :
    (table.addressesFor text line).Pairwise (· < ·) ∧
    (∀ address, address ∈ table.addressesFor text line ↔
      ∃ sequence ∈ table.sequences, ∃ row,
        Begins (fun row => table.Carries text line row ∧ row.isStmt = true) sequence.rows row ∧
          row.address = address) ∧
    (∀ sequence ∈ table.sequences, ∀ row,
      FirstStatement (table.Carries text line) sequence.rows row →
        row.address ∈ table.addressesFor text line) ∧
    ((∀ sequence ∈ table.sequences, Unbroken (table.Carries text line) sequence.rows) →
      ∀ address, address ∈ table.addressesFor text line ↔
        ∃ sequence ∈ table.sequences, ∃ row,
          FirstStatement (table.Carries text line) sequence.rows row ∧ row.address = address) := by
  have first_among (sequence) (member : sequence ∈ table.sequences) (row)
      (firstStatement : FirstStatement (table.Carries text line) sequence.rows row) :
      row.address ∈ table.addressesFor text line :=
    mem_addressesFor.mpr ⟨sequence, member, row, firstStatement.begins, rfl⟩
  refine ⟨ascending_sorted_addresses _, fun address => mem_addressesFor, first_among, ?_⟩
  intro unbroken address
  constructor
  · intro among
    obtain ⟨sequence, member, row, begins, same⟩ := mem_addressesFor.mp among
    exact ⟨sequence, member, row, (unbroken sequence member).firstStatement begins, same⟩
  · rintro ⟨sequence, member, row, firstStatement, rfl⟩
    exact first_among sequence member row firstStatement

/-- A row of line 5 in the only file. -/
def lineFive (address : UInt64) (isStmt endSequence : Bool) : LineRow :=
  { address, line := 5, isStmt, endSequence }

/-- Three rows of a line and the end of their sequence. -/
def threeRows (second : Bool) : LineTable where
  header := ⟨0, 2, 4, 1, 1, true, -5, 14, 10, [0, 1, 1, 1, 1, 0, 0, 0, 1], []⟩
  files := [⟨"a.c", 0, 0, 0, "a.c"⟩]
  sequences := [⟨0x1000, 0x1010, [lineFive 0x1000 true false, lineFive 0x1004 second false,
    lineFive 0x1008 true false, lineFive 0x1010 true true]⟩]

theorem carries_lineFive (second : Bool) (address : UInt64) (isStmt : Bool) :
    (threeRows second).Carries "a.c" 5 (lineFive address isStmt false) :=
  ⟨rfl, rfl, 0, _, rfl, by decide, rfl⟩

/-- If all three rows are statements, the addresses are those of first statements. -/
theorem threeStatements_first :
    0x1000 ∈ (threeRows true).addressesFor "a.c" 5 ∧
      ∀ address, address ∈ (threeRows true).addressesFor "a.c" 5 ↔
        ∃ sequence ∈ (threeRows true).sequences, ∃ row,
          FirstStatement ((threeRows true).Carries "a.c" 5) sequence.rows row ∧
            row.address = address := by
  obtain ⟨_, _, first_among, exactly⟩ := addresses_of_line (threeRows true) "a.c" 5
  refine ⟨first_among _ (List.mem_singleton_self _) (lineFive 0x1000 true false) ?_, exactly ?_⟩
  · exact ⟨[], [], _, rfl, nofun, nofun, carries_lineFive true _ _, rfl⟩
  · exact List.forall_mem_singleton.mpr (unbroken_of_statements (by decide))

/-- The rows of line 5 in a program, of which the second is no statement. -/
def interrupted : List UInt8 :=
  [0x38, 0, 0, 0, 2, 0, 0x17, 0, 0, 0, 1, 1, 0xfb, 14, 10, 0, 1, 1, 1, 1, 0, 0, 0, 1, 0,
    0x61, 0x2e, 0x63, 0, 0, 0, 0, 0, 0, 9, 2, 0, 0x10, 0, 0, 0, 0, 0, 0,
    3, 4, 1, 6, 2, 4, 1, 6, 2, 4, 1, 2, 8, 0, 1, 1]

/-- A row that is no statement makes a second address of one run of rows of the line. -/
theorem interrupted_twice :
    decode interrupted 0 .little 8 "" = .ok (threeRows false) ∧
      (∃ run last, (threeRows false).sequences.map LineSequence.rows = [run ++ [last]] ∧
        (∀ row ∈ run, (threeRows false).Carries "a.c" 5 row) ∧ last.endSequence = true) ∧
      (threeRows false).addressesFor "a.c" 5 = [0x1000, 0x1008] := by
  refine ⟨by decide +kernel, ?_, ?_⟩
  · refine ⟨[lineFive 0x1000 true false, lineFive 0x1004 false false, lineFive 0x1008 true false],
      lineFive 0x1010 true true, rfl, ?_, rfl⟩
    simp only [List.forall_mem_cons]
    exact ⟨carries_lineFive .., carries_lineFive .., carries_lineFive .., nofun⟩
  · have starts : (threeRows false).sequences.flatMap (fun sequence =>
        runStarts (fun row => row.line == 5 && ((threeRows false).filesNamed "a.c").contains row.file)
          false sequence.rows) = [0x1000, 0x1008] := by
      decide +kernel
    unfold addressesFor
    dsimp only
    rw [starts, List.mergeSort_of_pairwise (by decide)]
    rfl

end LineTable

end Dwarf
