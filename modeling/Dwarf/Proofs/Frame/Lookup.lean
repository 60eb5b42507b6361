import Dwarf.Proofs.Bisection
import Dwarf.Proofs.Frame.Accounting

/-!
# Functions by address

The functions of a decoded section are sorted by their starts, so no function behind the boundary
that bisection finds covers the address, and the search from there backwards meets the last one that
does.  The sort order alone carries this: functions may overlap, lie in each other, begin at the same
address, be empty or wrap, and a function that starts next below an address need not cover it.
-/

namespace Dwarf

namespace FunctionEntry

variable {entry : FunctionEntry} {pc : UInt64}

/-- The function extends over an address.  A function whose end wraps extends over none. -/
def Covers (entry : FunctionEntry) (pc : UInt64) : Prop :=
  entry.start ≤ pc ∧ pc < entry.stop

theorem contains_iff : entry.contains pc = true ↔ entry.Covers pc := by
  simp only [contains, Covers, Bool.and_eq_true, decide_eq_true_eq]

/-- The function comes before another one in a table: it starts below it, or at the same address and
is stored before it. -/
def Precedes (entry later : FunctionEntry) : Prop :=
  entry.start < later.start ∨ entry.start = later.start ∧ entry.offset < later.offset

theorem Precedes.start_le {later : FunctionEntry} (precedes : entry.Precedes later) :
    entry.start ≤ later.start := by
  rcases precedes with below | ⟨same, _⟩
  · exact UInt64.le_of_lt below
  · exact same ▸ UInt64.le_refl _

end FunctionEntry

namespace FrameTable

variable {table : FrameTable} {pc : UInt64}

theorem precedes_of_decode (data : List UInt8) (origin : FrameSection) (budget : Nat) :
    (decode data origin budget).functions.Pairwise FunctionEntry.Precedes := by
  obtain ⟨entries, stop, framed⟩ := FrameEntry.exists_framed origin data 0
  exact (accounts_framed framed budget).sorted

section

variable (sorted : table.functions.Pairwise FunctionEntry.Precedes)
include sorted

theorem functionFor?_eq (pc : UInt64) :
    table.functionFor? pc = table.functions.reverse.find? fun entry => entry.contains pc :=
  Bisection.find?_below (sorted.imp FunctionEntry.Precedes.start_le) fun _ contains =>
    (FunctionEntry.contains_iff.mp contains).1

theorem functionFor?_eq_some_iff {entry : FunctionEntry} :
    table.functionFor? pc = some entry ↔
      LastWith (fun other => other.Covers pc) table.functions entry := by
  rw [functionFor?_eq sorted, find?_reverse_eq_some_iff]
  simp only [FunctionEntry.contains_iff]

theorem functionFor?_isSome_iff :
    (table.functionFor? pc).isSome = true ↔ ∃ entry ∈ table.functions, entry.Covers pc := by
  rw [functionFor?_eq sorted, List.find?_isSome]
  simp only [List.mem_reverse, FunctionEntry.contains_iff]

theorem precedes_of_lastWith {property : FunctionEntry → Prop} {entry other : FunctionEntry}
    (last : LastWith property table.functions entry) (member : other ∈ table.functions)
    (has : property other) : other = entry ∨ other.Precedes entry := by
  obtain ⟨before, after, split, _, none_after⟩ := last
  rw [split] at sorted member
  rcases List.mem_append.mp member with earlier | here_or_later
  · exact .inr ((List.pairwise_append.mp sorted).2.2 other earlier entry List.mem_cons_self)
  · rcases List.mem_cons.mp here_or_later with same | later
    · exact .inl same
    · exact absurd has (none_after other later)

end

/-- A function is found for an address exactly if some function of the section covers it.  It is then
the last one in the table that does: all others start below it, or at the same address and are stored
before it. -/
theorem functionFor?_of_decode (data : List UInt8) (origin : FrameSection) (budget : Nat)
    (pc : UInt64) :
    let table := decode data origin budget
    ((table.functionFor? pc).isSome = true ↔ ∃ entry ∈ table.functions, entry.Covers pc) ∧
      ∀ entry, (table.functionFor? pc = some entry ↔
          LastWith (fun other => other.Covers pc) table.functions entry) ∧
        (table.functionFor? pc = some entry → ∀ other ∈ table.functions, other.Covers pc →
          other = entry ∨ other.Precedes entry) := by
  intro table
  have sorted := precedes_of_decode data origin budget
  refine ⟨functionFor?_isSome_iff sorted, fun entry => ⟨functionFor?_eq_some_iff sorted, ?_⟩⟩
  intro found other member covers
  exact precedes_of_lastWith sorted ((functionFor?_eq_some_iff sorted).mp found) member covers

end FrameTable

end Dwarf
