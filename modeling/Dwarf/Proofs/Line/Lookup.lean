import Dwarf.Proofs.Bisection
import Dwarf.Proofs.Line.Sequence

/-!
# Lines by address

The sequences of a table are sorted by their starts, so no sequence behind the boundary that
bisection finds contains the address, and the search from there backwards meets the last one that
does.  Where the rows of a sequence ascend, bisection finds the last row at or below the address;
it is not the end of the sequence, which lies above.
-/

namespace Dwarf

/-! ## The row of a sequence -/

namespace LineSequence

variable {sequence : LineSequence} {pc : UInt64}

theorem contains_iff : sequence.contains pc = true ↔ sequence.start ≤ pc ∧ pc < sequence.stop := by
  simp only [contains, Bool.and_eq_true, decide_eq_true_eq]

/-- The addresses of the rows do not go down. -/
def Ascending (sequence : LineSequence) : Prop :=
  sequence.rows.Pairwise fun row later => row.address ≤ later.address

instance (sequence : LineSequence) : Decidable sequence.Ascending :=
  inferInstanceAs (Decidable (List.Pairwise _ _))

theorem Ascending.rowFor?_eq (ascending : sequence.Ascending) (pc : UInt64) :
    sequence.rowFor? pc =
      (sequence.rows.reverse.find? fun row => row.address ≤ pc).filter
        fun row => !row.endSequence := by
  rw [Bisection.find?_reverse_eq (Bisection.ordered_of_ascending ascending pc)]
  unfold rowFor?
  cases Bisection.boundary (fun row : LineRow => row.address ≤ pc) sequence.rows with
  | zero => rfl
  | succ last => rfl

/-- In a finished sequence that contains an address, some row is at or below it, and no such row ends
the sequence. -/
theorem Finished.rows_of_contains (finished : sequence.Finished)
    (contains : sequence.contains pc = true) :
    (∃ row ∈ sequence.rows, row.address ≤ pc) ∧
      ∀ row ∈ sequence.rows, row.address ≤ pc → row.endSequence = false := by
  cases finished with
  | intro first inner last inside ends ascends =>
      obtain ⟨above, below⟩ := contains_iff.mp contains
      refine ⟨⟨first, List.mem_cons_self, above⟩, fun row member at_or_below => ?_⟩
      rw [← List.cons_append] at member
      rcases List.mem_append.mp member with body | at_end
      · exact inside row body
      · rw [List.mem_singleton.mp at_end] at at_or_below
        exact absurd below (UInt64.not_lt.mpr at_or_below)

theorem Finished.rowFor?_eq (finished : sequence.Finished) (ascending : sequence.Ascending)
    (contains : sequence.contains pc = true) :
    sequence.rowFor? pc = sequence.rows.reverse.find? fun row => row.address ≤ pc := by
  rw [ascending.rowFor?_eq]
  cases found : sequence.rows.reverse.find? fun row => row.address ≤ pc with
  | none => rfl
  | some row =>
      obtain ⟨member, at_or_below⟩ := (find?_reverse_eq_some_iff.mp found).mem
      have inside := (finished.rows_of_contains contains).2 row member
        (of_decide_eq_true at_or_below)
      rw [Option.filter_some, inside]
      rfl

end LineSequence

/-! ## The row of a table -/

namespace LineTable

variable {table : LineTable} {pc : UInt64} {row : LineRow}

/-- Some sequence contains the address. -/
def Covers (table : LineTable) (pc : UInt64) : Prop :=
  ∃ sequence ∈ table.sequences, sequence.start ≤ pc ∧ pc < sequence.stop

/-- The row is the last one at or below the address in the last sequence that contains it. -/
def Holds (table : LineTable) (pc : UInt64) (row : LineRow) : Prop :=
  ∃ sequence,
    LastWith (fun sequence => sequence.start ≤ pc ∧ pc < sequence.stop) table.sequences sequence ∧
      LastWith (fun row => row.address ≤ pc) sequence.rows row

/-- The rows of all sequences ascend. -/
def Ascending (table : LineTable) : Prop :=
  ∀ sequence ∈ table.sequences, sequence.Ascending

instance (table : LineTable) : Decidable table.Ascending :=
  inferInstanceAs (Decidable (∀ sequence ∈ table.sequences, sequence.Ascending))

theorem Sorted.sequenceFor?_eq (sorted : table.Sorted) (pc : UInt64) :
    table.sequenceFor? pc = table.sequences.reverse.find? fun sequence => sequence.contains pc := by
  exact Bisection.find?_below sorted.ascending fun sequence contains =>
    (LineSequence.contains_iff.mp contains).1

theorem Sorted.sequenceFor?_eq_some_iff (sorted : table.Sorted) {sequence : LineSequence} :
    table.sequenceFor? pc = some sequence ↔
      LastWith (fun sequence => sequence.start ≤ pc ∧ pc < sequence.stop) table.sequences
        sequence := by
  rw [sorted.sequenceFor?_eq, find?_reverse_eq_some_iff]
  simp only [LineSequence.contains_iff]

theorem Sorted.sequenceFor?_isSome_iff (sorted : table.Sorted) :
    (table.sequenceFor? pc).isSome = true ↔ table.Covers pc := by
  rw [sorted.sequenceFor?_eq, List.find?_isSome]
  simp only [List.mem_reverse, LineSequence.contains_iff]
  rfl

variable (sorted : table.Sorted) (ascending : table.Ascending)
include sorted ascending

theorem rowFor?_eq_some_iff : table.rowFor? pc = some row ↔ table.Holds pc row := by
  unfold rowFor?
  rw [Option.bind_eq_some_iff]
  refine exists_congr fun sequence => ?_
  rw [sorted.sequenceFor?_eq_some_iff]
  refine and_congr_right fun last => ?_
  obtain ⟨member, contains⟩ := last.mem
  rw [(sorted.finished sequence member).rowFor?_eq (ascending sequence member)
    (LineSequence.contains_iff.mpr contains), find?_reverse_eq_some_iff]
  simp only [decide_eq_true_eq]

theorem rowFor?_isSome_iff : (table.rowFor? pc).isSome = true ↔ table.Covers pc := by
  rw [← sorted.sequenceFor?_isSome_iff]
  unfold rowFor?
  cases found : table.sequenceFor? pc with
  | none => rfl
  | some sequence =>
      obtain ⟨member, contains⟩ := (sorted.sequenceFor?_eq_some_iff.mp found).mem
      have contains := LineSequence.contains_iff.mpr contains
      have finished := sorted.finished sequence member
      obtain ⟨row, inside, at_or_below⟩ := (finished.rows_of_contains contains).1
      rw [Option.bind_some, finished.rowFor?_eq (ascending sequence member) contains,
        List.find?_isSome]
      refine iff_of_true ⟨row, List.mem_reverse.mpr inside, decide_eq_true at_or_below⟩ rfl

theorem locate?_eq_some_iff {location : SourceLocation} :
    table.locate? pc = some location ↔ ∃ row, table.Holds pc row ∧ location = table.location row := by
  unfold locate?
  rw [Option.map_eq_some_iff]
  refine exists_congr fun row => ?_
  rw [rowFor?_eq_some_iff sorted ascending, eq_comm]

theorem locate?_eq_none_iff : table.locate? pc = none ↔ ¬table.Covers pc := by
  unfold locate?
  rw [Option.map_eq_none_iff, ← rowFor?_isSome_iff sorted ascending, Bool.not_eq_true,
    Option.isSome_eq_false_iff, Option.isNone_iff_eq_none]

omit sorted ascending in
theorem Holds.covers (holds : table.Holds pc row) : table.Covers pc := by
  obtain ⟨sequence, last, _⟩ := holds
  exact ⟨sequence, last.mem⟩

omit ascending in
theorem Holds.inside (holds : table.Holds pc row) : row.endSequence = false := by
  obtain ⟨sequence, last, last_row⟩ := holds
  obtain ⟨member, contains⟩ := last.mem
  have rows := (sorted.finished sequence member).rows_of_contains
    (LineSequence.contains_iff.mpr contains)
  exact rows.2 row last_row.mem.1 last_row.mem.2

end LineTable

end Dwarf
