import Dwarf.Proofs.Decoder.Budget
import Dwarf.Proofs.Frame.Faults
import Dwarf.Proofs.Frame.Nesting

/-!
# The budget of a replay

Without a budget the replay of a function comes to an outcome, and starts some number of
instructions of both programs on the way.  A budget that covers this number makes no difference,
and under a smaller one the replay fails for want of it, whatever it would have come to.
-/

namespace Dwarf

open Decoder

namespace FrameMachine

section Unlimited

variable (origin : FrameSection) (entry : FunctionEntry)

/-- Read and execute one instruction, however many have been executed. -/
def freePass (initial : Option RuleSet) (machine : FrameMachine) : Consuming FrameMachine :=
  .located fun place =>
    (FrameInstruction.decode ⟨origin, entry.common, entry.offset⟩).bind fun instruction =>
      Decoder.ofExcept ((machine.later 1).step origin entry initial place instruction)

/-- The start of a program. -/
def programCursor (instructions : List UInt8) (offset : Nat) : Cursor :=
  (Cursor.start instructions offset origin.order).withAddressSize entry.common.addressSize

/-- Replay a run of instructions without a budget. -/
def freeRun (initial : Option RuleSet) (instructions : List UInt8) (offset : Nat)
    (machine : FrameMachine) : Except Error FrameMachine :=
  (untilEnd (freePass origin entry initial) machine
    (programCursor origin entry instructions offset)).result

/-- The number of instructions that a run without a budget starts, one that fails included. -/
def startedIn (initial : Option RuleSet) (instructions : List UInt8) (offset : Nat)
    (machine : FrameMachine) : Nat :=
  started (freePass origin entry initial) machine (programCursor origin entry instructions offset)

/-- The replay of the instructions of the common entry, without a budget. -/
def prepare : Except Error FrameMachine :=
  freeRun origin entry none entry.common.instructions entry.common.instructionsOffset (start entry)

/-- The rows of a function, without a budget. -/
def unlimitedRows : Except Error (List UnwindRow) := do
  let prepared ← prepare origin entry
  let finished ← freeRun origin entry (some prepared.registers) entry.instructions
    entry.instructionsOffset prepared
  return (finished.close origin entry entry.stop).rows.reverse

/-- The number of instructions that are started for a function without a budget: those of the
common entry and, unless one of them fails, those of the function entry. -/
def startedInstructions : Nat :=
  startedIn origin entry none entry.common.instructions entry.common.instructionsOffset
      (start entry) +
    match prepare origin entry with
    | .ok prepared =>
      startedIn origin entry (some prepared.registers) entry.instructions
        entry.instructionsOffset prepared
    | .error _ => 0

end Unlimited

variable {origin : FrameSection} {entry : FunctionEntry} {initial : Option RuleSet}
  {instructions : List UInt8} {offset : Nat} {machine last : FrameMachine}

theorem freePass_counts : Counts executed (freePass origin entry initial) := by
  intro machine following cursor read
  obtain ⟨instruction, _, stepped⟩ := bind_result_eq_ok.mp read
  exact (step_nesting stepped).1

theorem executed_of_freeRun
    (ran : freeRun origin entry initial instructions offset machine = .ok last) :
    last.executed = machine.executed + startedIn origin entry initial instructions offset machine :=
  freePass_counts.untilEnd ran

namespace Replay

variable {replay : Replay}

theorem pass_eq_within (initial : Option RuleSet) :
    replay.pass initial = within replay.budget executed (.budgetExceeded replay.budget)
      (freePass replay.origin replay.entry initial) :=
  rfl

theorem run_eq (covered : machine.executed ≤ replay.budget) :
    replay.run initial instructions offset machine =
      if machine.executed +
          startedIn replay.origin replay.entry initial instructions offset machine ≤ replay.budget
      then freeRun replay.origin replay.entry initial instructions offset machine
      else .error (.budgetExceeded replay.budget) := by
  rw [run, pass_eq_within]
  exact freePass_counts.untilEnd_within _ covered

/-- The replay of a function comes to what it comes to without a budget if its budget covers the
instructions that are started then. -/
theorem rows_eq_unlimited :
    replay.rows =
      if startedInstructions replay.origin replay.entry ≤ replay.budget
      then unlimitedRows replay.origin replay.entry
      else .error (.budgetExceeded replay.budget) := by
  have common := @run_eq none replay.entry.common.instructions
    replay.entry.common.instructionsOffset (start replay.entry) replay (Nat.zero_le _)
  have counted : (start replay.entry).executed = 0 := rfl
  rw [counted, Nat.zero_add] at common
  unfold rows unlimitedRows startedInstructions
  dsimp only
  rw [common]
  cases prepared_eq : prepare replay.origin replay.entry with
  | error error =>
      unfold prepare at prepared_eq
      rw [prepared_eq, Nat.add_zero]
      split <;> rfl
  | ok prepared =>
      have executed := executed_of_freeRun prepared_eq
      rw [counted, Nat.zero_add] at executed
      unfold prepare at prepared_eq
      rw [prepared_eq]
      by_cases covered : startedIn replay.origin replay.entry none replay.entry.common.instructions
          replay.entry.common.instructionsOffset (start replay.entry) ≤ replay.budget
      · rw [if_pos covered]
        change (replay.run _ _ _ _ >>= _) = _
        rw [run_eq (executed ▸ covered), executed]
        split <;> rfl
      · rw [if_neg covered, if_neg (by omega)]
        rfl

end Replay

end FrameMachine

namespace FrameTable

open FrameMachine

/-- Without a budget no replay fails for want of one. -/
theorem unlimitedRows_ne_budgetExceeded (origin : FrameSection) (entry : FunctionEntry)
    (budget : Nat) : unlimitedRows origin entry ≠ .error (.budgetExceeded budget) := by
  intro failed
  have same {covering : Nat} (covers : startedInstructions origin entry ≤ covering) :
      budget = covering := by
    have rows : (⟨origin, entry, covering⟩ : Replay).rows = .error (.budgetExceeded budget) := by
      rw [Replay.rows_eq_unlimited, if_pos covers, failed]
    rcases Replay.rows_eq_error rows with fault | breaks
    · cases fault
      rfl
    · cases breaks.rows_eq.2
  have first := same (Nat.le_refl _)
  have second := same (Nat.le_succ _)
  omega

/-- The budget cuts off exactly.  If it covers the instructions that the replay of a function starts
without one, one that fails included, then the replay comes to the same rows or the same error, and
else it fails for want of budget.  So a larger budget changes neither rows nor another error. -/
theorem rows_cut_off_exactly (table : FrameTable) (entry : FunctionEntry) :
    table.rows entry =
        (if startedInstructions table.origin entry ≤ table.budget
        then unlimitedRows table.origin entry
        else .error (.budgetExceeded table.budget)) ∧
      (∀ budget, unlimitedRows table.origin entry ≠ .error (.budgetExceeded budget)) ∧
      ∀ budget, table.budget ≤ budget →
        table.rows entry ≠ .error (.budgetExceeded table.budget) →
          ({ table with budget } : FrameTable).rows entry = table.rows entry := by
  have rows (table : FrameTable) : table.rows entry =
      if startedInstructions table.origin entry ≤ table.budget
      then unlimitedRows table.origin entry
      else .error (.budgetExceeded table.budget) :=
    @Replay.rows_eq_unlimited (table.replay entry)
  refine ⟨rows table, unlimitedRows_ne_budgetExceeded table.origin entry, ?_⟩
  intro budget larger sufficient
  rw [rows table] at sufficient ⊢
  have covered : startedInstructions table.origin entry ≤ table.budget := by
    by_contra short
    exact sufficient (if_neg short)
  rw [rows { table with budget }, if_pos covered]
  exact if_pos (Nat.le_trans covered larger)

/-- A function of three instructions is replayed within a budget of three, and not of two. -/
theorem prologue_cut_off :
    startedInstructions prologueTable.origin prologue = 3 ∧
      (∃ rows, ({ prologueTable with budget := 3 } : FrameTable).rows prologue = .ok rows ∧
        prologueTable.rows prologue = .ok rows) ∧
      ({ prologueTable with budget := 2 } : FrameTable).rows prologue =
        .error (.budgetExceeded 2) := by
  have count : startedInstructions prologueTable.origin prologue = 3 := by cbv
  have replayed : (({ prologueTable with budget := 3 } : FrameTable).rows prologue).toBool = true := by
    cbv
  obtain ⟨_, _, larger⟩ := rows_cut_off_exactly { prologueTable with budget := 3 } prologue
  obtain ⟨short, _, _⟩ := rows_cut_off_exactly { prologueTable with budget := 2 } prologue
  refine ⟨count, ?_, short.trans (if_neg ?_)⟩
  · cases rows : ({ prologueTable with budget := 3 } : FrameTable).rows prologue with
    | error error =>
        rw [rows] at replayed
        cases replayed
    | ok found =>
        rw [rows] at larger
        exact ⟨found, rfl, larger 10 (by decide) (by simp)⟩
  · change ¬startedInstructions prologueTable.origin prologue ≤ 2
    rw [count]
    decide

end FrameTable

end Dwarf
