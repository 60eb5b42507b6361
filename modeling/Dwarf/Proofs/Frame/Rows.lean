import Dwarf.Frame.Table
import Dwarf.Proofs.Decoder.Passes
import Dwarf.Proofs.Except
import Dwarf.Proofs.Frame.Coverage
import Dwarf.Proofs.Frame.Simulation

/-!
# Rows of a replay

A replay emits rows lazily, when the location moves on.  Each step of it is a step of the reference
machine, and the rows it adds cover the addresses it passes.  By induction the rows of a function
cover it: every address is in a row exactly when a rule for the canonical frame address is in force
there, and the row holds the rules in force.
-/

namespace Dwarf

namespace FrameMachine

theorem pending_reverse (machine : FrameMachine) (origin : FrameSection) (entry : FunctionEntry)
    (stop : UInt64) :
    (machine.pending origin entry stop).reverse = machine.pending origin entry stop := by
  unfold pending
  cases machine.cfa with
  | none => rfl
  | some cfa => by_cases moves : machine.location < stop <;> simp [moves]

/-- The row covers the addresses from the location on, all in the state that the machine shows. -/
theorem pending_covers {machine : FrameMachine} {state : RuleState} {inForce : UInt64 → RuleState}
    (origin : FrameSection) (entry : FunctionEntry) {stop : UInt64} {last : Nat}
    (shows : machine.Shows state) (stop_eq : max state.location stop.toNat = last)
    (constant : ∀ pc : UInt64, state.location ≤ pc.toNat → pc.toNat < last → inForce pc = state) :
    Covers (machine.pending origin entry stop) state.location last inForce := by
  have location := shows.location
  unfold pending
  cases defined : machine.cfa with
  | none =>
      have undefined : state.cfa = none := shows.cfa ▸ defined
      refine ⟨by simp, .nil, ?_, by simp⟩
      intro pc lower upper is_some
      rw [constant pc lower upper, undefined] at is_some
      cases is_some
  | some cfa =>
      by_cases moves : machine.location < stop
      · have moved := UInt64.lt_iff_toNat_lt.mp moves
        have last_eq : stop.toNat = last := by omega
        have rules : state.cfa = some cfa := shows.cfa ▸ defined
        simp only [moves, if_true]
        refine ⟨?_, List.pairwise_singleton _ _, ?_, ?_⟩
        · intro row member
          rw [List.mem_singleton.mp member]
          exact ⟨Nat.le_of_eq location.symm, moves, Nat.le_of_eq last_eq⟩
        · intro pc lower upper _
          refine ⟨_, List.mem_singleton_self _, UnwindRow.contains_iff.mpr ⟨?_, ?_⟩⟩
          · exact UInt64.le_iff_toNat_le.mpr (Nat.le_trans (Nat.le_of_eq location) lower)
          · exact UInt64.lt_iff_toNat_lt.mpr (last_eq ▸ upper)
        · intro row member pc contained
          rw [List.mem_singleton.mp member] at contained ⊢
          obtain ⟨lower, upper⟩ := UnwindRow.contains_iff.mp contained
          rw [UInt64.le_iff_toNat_le] at lower
          rw [UInt64.lt_iff_toNat_lt] at upper
          rw [constant pc (location ▸ lower) (last_eq ▸ upper), RuleState.rules?, rules,
            ← shows.registers]
          rfl
      · have stays : ¬ machine.location.toNat < stop.toNat :=
          fun less => moves (UInt64.lt_iff_toNat_lt.mpr less)
        have last_eq : last = state.location := by omega
        simp only [moves, if_false]
        rw [last_eq]
        exact Covers.empty _ _

/-! ## Runs of instructions -/

/-- Executing instructions one after the other, wherever they are stored. -/
inductive Executes (origin : FrameSection) (entry : FunctionEntry) (initial : Option RuleSet) :
    FrameMachine → List FrameInstruction → FrameMachine → Prop where
  | done (machine : FrameMachine) : Executes origin entry initial machine [] machine
  | next {machine middle last : FrameMachine} {place : Nat} {instruction : FrameInstruction}
      {rest : List FrameInstruction}
      (stepped : FrameMachine.step { machine with executed := machine.executed + 1 } origin entry
        initial place instruction = .ok middle)
      (onward : Executes origin entry initial middle rest last) :
      Executes origin entry initial machine (instruction :: rest) last

/-- A pass of a replay reads one instruction and executes it. -/
theorem pass_factors {replay : Replay} {initial : Option RuleSet} {machine middle : FrameMachine}
    {cursor : Cursor}
    (passed : ((replay.pass initial machine).read cursor).result = .ok middle) :
    ∃ instruction,
      ((FrameInstruction.decode replay.reader).read cursor).result = .ok instruction ∧
        ((replay.pass initial machine).read cursor).next =
          ((FrameInstruction.decode replay.reader).read cursor).next ∧
        ∃ place, FrameMachine.step { machine with executed := machine.executed + 1 } replay.origin
          replay.entry initial place instruction = .ok middle := by
  unfold Replay.pass at passed ⊢
  by_cases spent : replay.budget ≤ machine.executed
  · simp [spent, Consuming.fail, Decoder.fail] at passed
  · simp only [spent, if_false] at passed ⊢
    obtain ⟨instruction, decoded, stepped⟩ := Decoder.bind_result_eq_ok.mp passed
    exact ⟨instruction, decoded, Decoder.bind_next decoded, cursor.offset, stepped⟩

theorem run_executes {replay : Replay} {initial : Option RuleSet} {bytes : List UInt8}
    {offset : Nat} {machine last : FrameMachine}
    (ran : replay.run initial bytes offset machine = .ok last) :
    ∃ instructions,
      FrameProgram.instructions replay.origin replay.entry bytes offset = .ok instructions ∧
        Executes replay.origin replay.entry initial machine instructions last := by
  obtain ⟨instructions, reads, executes⟩ := (Decoder.untilEnd_eq_ok_iff.mp ran).reads
    (Executes replay.origin replay.entry initial) .done
    (fun ⟨_, stepped⟩ onward => .next stepped onward) pass_factors
  exact ⟨instructions, reads.many, executes⟩

/-- A run is a run of the reference machine, and the rows it adds cover the addresses it passes. -/
theorem Executes.covers {origin : FrameSection} {entry : FunctionEntry} {initial : Option RuleSet}
    {machine last : FrameMachine} {instructions : List FrameInstruction}
    (executes : Executes origin entry initial machine instructions last) {state : RuleState}
    (shows : machine.Shows state)
    (fits : state.FitsWord entry (initialRules initial) instructions) :
    ∃ states fresh, state.trace? entry (initialRules initial) instructions = some states ∧
      last.Shows (states.getLastD state) ∧ last.rows = fresh ++ machine.rows ∧
      (∀ next ∈ states, next.location ≤ (states.getLastD state).location) ∧
      state.location ≤ (states.getLastD state).location ∧
      (states.getLastD state).location ≤ max state.location entry.stop.toNat ∧
      Covers fresh.reverse state.location (states.getLastD state).location
        (fun pc => state.inForceAt pc.toNat states) := by
  induction executes generalizing state with
  | done machine =>
      exact ⟨[], [], rfl, shows, rfl, by simp, Nat.le_refl _, Nat.le_max_left _ _,
        Covers.empty _ _⟩
  | @next machine middle last place instruction rest stepped onward ih =>
      have counted : FrameMachine.Shows { machine with executed := machine.executed + 1 } state :=
        ⟨shows.location, shows.cfa, shows.registers, shows.saved⟩
      obtain ⟨following, step, reached⟩ := step_simulates counted fits.1 stepped
      have rows := (step_rows stepped).2
      obtain ⟨states, fresh, trace, final, later_rows, monotone, forward, bounded, covers⟩ :=
        ih reached (fits.2 following step)
      obtain ⟨step_forward, step_bounded⟩ := RuleState.step?_location step
      refine ⟨following :: states, fresh ++ machine.pending origin entry middle.location, ?_, ?_,
        ?_, ?_, ?_, ?_, ?_⟩
      · rw [RuleState.trace?, step, Option.bind_some, trace, Option.map_some]
      · rw [List.getLastD_cons]
        exact final
      · rw [later_rows, rows, List.append_assoc]
        rfl
      · rw [List.getLastD_cons]
        exact List.forall_mem_cons.mpr ⟨forward, monotone⟩
      · rw [List.getLastD_cons]
        exact Nat.le_trans step_forward forward
      · rw [List.getLastD_cons]
        omega
      · rw [List.getLastD_cons, List.reverse_append, pending_reverse]
        have stop_eq : max state.location middle.location.toNat = following.location := by
          rw [reached.location]
          exact Nat.max_eq_right step_forward
        have passed : Covers (machine.pending origin entry middle.location) state.location
            following.location (fun pc => state.inForceAt pc.toNat [following]) :=
          pending_covers origin entry shows stop_eq fun pc _ upper => if_pos upper
        exact Covers.append_trace [following] passed covers (by simp) step_forward forward

/-! ## The rows of a function -/

theorem Replay.runs_of_rows {replay : Replay} {rows : List UnwindRow}
    (replayed : replay.rows = .ok rows) :
    ∃ prepared finished,
      replay.run none replay.entry.common.instructions replay.entry.common.instructionsOffset
          (.start replay.entry) = .ok prepared ∧
        replay.run (some prepared.registers) replay.entry.instructions
            replay.entry.instructionsOffset prepared = .ok finished ∧
          (finished.close replay.origin replay.entry replay.entry.stop).rows.reverse = rows := by
  obtain ⟨prepared, prepare, remaining⟩ := bind_eq_ok_iff.mp replayed
  obtain ⟨finished, finish, closing⟩ := bind_eq_ok_iff.mp remaining
  exact ⟨prepared, finished, prepare, finish, Except.ok.inj closing⟩

/-- The rows of a function cover it with the states that its program passes through. -/
theorem rows_cover {replay : Replay} {rows : List UnwindRow} (replayed : replay.rows = .ok rows)
    (fits : ∀ program, FrameProgram.decode replay.origin replay.entry = .ok program →
      program.FitsWord replay.entry) :
    ∃ program states, FrameProgram.decode replay.origin replay.entry = .ok program ∧
      program.trace? replay.entry = some states ∧
      Covers rows replay.entry.start.toNat
        (max replay.entry.start.toNat replay.entry.stop.toNat)
        (fun pc => (RuleState.start replay.entry).inForceAt pc.toNat states) := by
  obtain ⟨prepared, finished, prepare, finish, closing⟩ := replay.runs_of_rows replayed
  obtain ⟨common, read_common, execute_common⟩ := run_executes prepare
  obtain ⟨own, read_own, execute_own⟩ := run_executes finish
  have decoded : FrameProgram.decode replay.origin replay.entry = .ok ⟨common, own⟩ :=
    bind_eq_ok_iff.mpr ⟨common, read_common, bind_eq_ok_iff.mpr ⟨own, read_own, rfl⟩⟩
  obtain ⟨fits_common, fits_own⟩ := fits _ decoded
  obtain ⟨states, fresh, trace, reached, rows_eq, monotone, forward, bounded, covers⟩ :=
    execute_common.covers (shows_start replay.entry) fits_common
  have initial : initialRules (some prepared.registers) =
      (states.getLastD (.start replay.entry)).registers := reached.registers
  have fits_after := fits_own states trace
  rw [← initial] at fits_after
  obtain ⟨later, added, later_trace, final, later_rows, later_monotone, later_forward,
    later_bounded, later_covers⟩ := execute_own.covers reached fits_after
  refine ⟨_, states ++ later, decoded, ?_, ?_⟩
  · unfold FrameProgram.trace?
    dsimp only
    change (RuleState.start replay.entry).trace? replay.entry (fun _ => none) common = _ at trace
    rw [trace, Option.bind_some, ← initial, later_trace, Option.map_some]
  · have rows_eq : rows = fresh.reverse ++ (added.reverse ++
        finished.pending replay.origin replay.entry replay.entry.stop) := by
      rw [← closing, close_eq, later_rows, rows_eq]
      simp [FrameMachine.start, pending_reverse]
    rw [rows_eq]
    have closed : Covers (finished.pending replay.origin replay.entry replay.entry.stop) _ _
        (fun pc => (later.getLastD (states.getLastD (.start replay.entry))).inForceAt pc.toNat []) :=
      pending_covers replay.origin replay.entry final rfl fun _ _ _ => rfl
    have last_eq : max (later.getLastD (states.getLastD (.start replay.entry))).location
        replay.entry.stop.toNat = max replay.entry.start.toNat replay.entry.stop.toNat := by
      change _ ≤ max replay.entry.start.toNat _ at bounded
      change replay.entry.start.toNat ≤ _ at forward
      omega
    rw [last_eq] at closed
    have ended := later_covers.append_trace later closed later_monotone later_forward (by omega)
    rw [List.append_nil] at ended
    exact covers.append_trace states ended monotone forward (by omega)

end FrameMachine

namespace FrameTable

/-- The rows of a function are those of the states in force at its addresses. -/
structure RowsFollow (table : FrameTable) (entry : FunctionEntry) (rows : List UnwindRow)
    (inForceAt : Nat → RuleState) : Prop where
  /-- The rows are intervals of addresses of the function. -/
  within : ∀ row ∈ rows,
    entry.start ≤ row.start ∧ row.start < row.stop ∧ row.stop ≤ entry.stop
  ordered : rows.Pairwise fun earlier later => earlier.stop ≤ later.start
  /-- An address is in a row exactly when a rule for the canonical frame address is in force. -/
  covered : ∀ pc, entry.start ≤ pc → pc < entry.stop →
    ((∃ row ∈ rows, row.contains pc = true) ↔ (inForceAt pc.toNat).cfa.isSome = true)
  /-- A row holds the rules in force at each of its addresses. -/
  faithful : ∀ row ∈ rows, ∀ pc, row.contains pc = true →
    (inForceAt pc.toNat).rules? = some row.rules
  /-- Unwinding at an address of the function finds the rules in force there. -/
  unwound : ∀ pc, table.functionFor? pc = some entry →
    ∃ found, table.unwindAt pc = .ok found ∧
      found.map UnwindRow.rules = (inForceAt pc.toNat).rules?

/-- If a function can be replayed and none of its advances leaves the words, then its rows are
those of the rules in force at its addresses: the ones that hold just before an instruction moves
the location past the address. -/
theorem rows_follow_rules_in_force {table : FrameTable} {entry : FunctionEntry}
    {rows : List UnwindRow} (replayed : table.rows entry = .ok rows)
    (fits : ∀ program, FrameProgram.decode table.origin entry = .ok program →
      program.FitsWord entry) :
    ∃ program states, FrameProgram.decode table.origin entry = .ok program ∧
      program.trace? entry = some states ∧
      table.RowsFollow entry rows fun pc => (RuleState.start entry).inForceAt pc states := by
  obtain ⟨program, states, decoded, trace, covers⟩ := FrameMachine.rows_cover replayed fits
  have inside {pc : UInt64} (upper : pc < entry.stop) :
      pc.toNat < max entry.start.toNat entry.stop.toNat :=
    Nat.lt_of_lt_of_le (UInt64.lt_iff_toNat_lt.mp upper) (Nat.le_max_right _ _)
  refine ⟨program, states, decoded, trace, ?_, covers.ordered, ?_, covers.faithful, ?_⟩
  · intro row member
    obtain ⟨lower, proper, upper⟩ := covers.within row member
    dsimp only at lower upper
    have length := UInt64.lt_iff_toNat_lt.mp proper
    refine ⟨UInt64.le_iff_toNat_le.mpr lower, proper, UInt64.le_iff_toNat_le.mpr ?_⟩
    omega
  · intro pc lower upper
    exact covers.contains_iff (UInt64.le_iff_toNat_le.mp lower) (inside upper)
  · intro pc found
    have contained : entry.contains pc = true := by simpa using List.find?_some found
    obtain ⟨lower, upper⟩ : entry.start ≤ pc ∧ pc < entry.stop := by
      simpa [FunctionEntry.contains] using contained
    refine ⟨_, ?_, covers.find?_rules (UInt64.le_iff_toNat_le.mp lower) (inside upper)⟩
    rw [unwindAt, found]
    exact bind_eq_ok_iff.mpr ⟨rows, replayed, rfl⟩

/-- A function whose stack pointer moves by one word at its second address. -/
def prologue : FunctionEntry where
  offset := 20
  common := {
    offset := 0
    version := 1
    augmentation := ""
    addressSize := 8
    codeAlignment := 1
    dataAlignment := -8
    returnRegister := 16
    added := {}
    hasData := false
    instructions := [0x0c, 7, 8]
    instructionsOffset := 12 }
  start := 0x1000
  range := 0x40
  lsda := none
  instructions := [0x41, 0x0e, 16]
  instructionsOffset := 40

/-- A section with one function. -/
def prologueTable : FrameTable :=
  ⟨⟨.debug, .little, 0, 8⟩, 10, [prologue.common], [prologue], []⟩

theorem rows_follow_prologue :
    ∃ rows program states, prologueTable.rows prologue = .ok rows ∧
      FrameProgram.decode prologueTable.origin prologue = .ok program ∧
      program.FitsWord prologue ∧ program.trace? prologue = some states ∧
      prologueTable.RowsFollow prologue rows
        fun pc => (RuleState.start prologue).inForceAt pc states := by
  have decoded : FrameProgram.decode prologueTable.origin prologue =
      .ok ⟨[.defineCfa (.registerPlus 7 8)], [.advance 1, .defineCfaOffset 16]⟩ :=
    toOption_eq_some_iff.mp (by decide +kernel)
  have fits : ∀ program, FrameProgram.decode prologueTable.origin prologue = .ok program →
      program.FitsWord prologue := by
    intro program found
    rw [decoded] at found
    cases found
    simp [FrameProgram.FitsWord, RuleState.FitsWord, RuleState.trace?, RuleState.step?,
      RuleState.advanced, RuleState.start, prologue, UInt64.size]
  have replayed : (prologueTable.rows prologue).toBool = true := by decide +kernel
  cases rows : prologueTable.rows prologue with
  | error error => rw [rows] at replayed; cases replayed
  | ok found =>
      obtain ⟨program, states, read, trace, follow⟩ := rows_follow_rules_in_force rows fits
      exact ⟨found, program, states, rfl, read, fits program read, trace, follow⟩

end FrameTable

end Dwarf
