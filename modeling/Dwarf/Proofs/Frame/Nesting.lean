import Dwarf.Proofs.Decoder.Continuation
import Dwarf.Proofs.Frame.Alternatives

/-!
# Rules that come back

Instructions between a remembering one and the restoring one that goes with it do not look at what
has been remembered before them.  So they run alike on top of any stack, and at the end the rules
are those at the beginning.  What is read and what is executed are kept apart: the instructions of
two programs, one behind the other, are those of each, and a run that is too long for the budget is
known to be so by the number of its instructions alone.
-/

namespace Dwarf

open Decoder

/-! ## Instructions in longer programs -/

namespace PointerEncoding

/-- A pointer may be relative to its own offset, and so it is read again at this offset only. -/
theorem stable_decode (encoding : PointerEncoding) (origin : FrameSection) (entry : Nat) :
    (encoding.decode origin entry).Stable .offset := by
  rw [decode_eq]
  split
  · exact (local_fail _).stable
  · split
    · exact (local_fail _).stable
    · split
      next stored found =>
        refine stable_of_grown (encoding.fetch stored origin.address entry)
          (fun grown => ?_) fun cursor => ?_
        · unfold fetch
          rw [grown.offset_eq, grown.addressSize_eq]
        · exact (((composed_stored found).local.mapError _).bind fun _ => local_ofExcept _).stable
      · exact (local_fail _).stable

end PointerEncoding

namespace FrameInstruction

variable {reader : Reader}

namespace Reader

theorem local_unsigned (reader : Reader) : reader.unsigned.Local :=
  Decoder.local_unsigned.mapError _

theorem local_signed (reader : Reader) : reader.signed.Local :=
  Decoder.local_signed.mapError _

theorem local_factored (reader : Reader) : reader.factored.Local :=
  reader.local_unsigned.map _

theorem local_signedFactored (reader : Reader) : reader.signedFactored.Local :=
  reader.local_signed.map _

theorem local_register (reader : Reader) : reader.register.Local := by
  refine (Decoder.local_unsigned.mapError _).bind fun register => ?_
  split
  · exact local_pure _
  · exact local_fail _

theorem local_expression (reader : Reader) : reader.expression.Local :=
  (Decoder.local_unsigned.mapError _).bind fun length =>
    ((local_bytes length.toNat).mapError _).bind fun _ => local_ofExcept _

end Reader

theorem stable_extended (place : Nat) (code : UInt8) :
    (extended reader place code).Stable .offset := by
  unfold extended
  split
  · exact (local_pure _).stable
  · exact (PointerEncoding.stable_decode _ _ _).bind fun _ => (local_pure _).stable
  · exact ((local_uint8.mapError _).map _).stable
  · exact ((local_uint16.mapError _).map _).stable
  · exact ((local_uint32.mapError _).map _).stable
  · exact (reader.local_register.bind fun _ => reader.local_factored.map _).stable
  · exact (reader.local_register.map _).stable
  · exact (reader.local_register.map _).stable
  · exact (reader.local_register.map _).stable
  · exact (reader.local_register.bind fun _ => reader.local_register.map _).stable
  · exact (local_pure _).stable
  · exact (local_pure _).stable
  · exact (reader.local_register.bind fun _ => reader.local_unsigned.map _).stable
  · exact (reader.local_register.map _).stable
  · exact (reader.local_unsigned.map _).stable
  · exact (reader.local_expression.map _).stable
  · exact (reader.local_register.bind fun _ => reader.local_expression.map _).stable
  · exact (reader.local_register.bind fun _ => reader.local_signedFactored.map _).stable
  · exact (reader.local_register.bind fun _ => reader.local_signedFactored.map _).stable
  · exact (reader.local_signedFactored.map _).stable
  · exact (reader.local_register.bind fun _ => reader.local_factored.map _).stable
  · exact (reader.local_register.bind fun _ => reader.local_signedFactored.map _).stable
  · exact (reader.local_register.bind fun _ => reader.local_expression.map _).stable
  · exact (reader.local_unsigned.map _).stable
  · exact (reader.local_register.bind fun _ => reader.local_unsigned.map _).stable
  · exact (local_fail _).stable

theorem stable_afterCode (place : Nat) (code : UInt8) :
    (afterCode reader place code).Stable .offset := by
  unfold afterCode
  split
  · exact (local_pure _).stable
  · exact (reader.local_factored.map _).stable
  · exact (local_pure _).stable
  · exact stable_extended place code

theorem stable_decode (reader : Reader) : (decode reader).read.Stable .offset :=
  Stable.located fun place =>
    (local_uint8.mapError _).stable.bind (stable_afterCode place)

end FrameInstruction

namespace FrameProgram

variable {origin : FrameSection} {entry : FunctionEntry} {front back : List UInt8} {offset : Nat}
  {values others : List FrameInstruction}

theorem instructions_append (read : instructions origin entry front offset = .ok values)
    (later : instructions origin entry back (offset + front.length) = .ok others) :
    instructions origin entry (front ++ back) offset = .ok (values ++ others) := by
  refine @Reads.many _ _ ((Cursor.start (front ++ back) offset origin.order).withAddressSize
    entry.common.addressSize) _ ?_
  exact (reads_of_many read).append (FrameInstruction.stable_decode _)
    ⟨rfl, rfl, rfl, rfl, rfl⟩ (reads_of_many later) rfl rfl ⟨rfl, rfl, rfl⟩

theorem instructions_single {bytes : List UInt8} {value : FrameInstruction}
    (recognizes : (FrameInstruction.decode ⟨origin, entry.common, entry.offset⟩).read.Recognizes
      ⟨entry.common.addressSize, 4, 4, origin.order⟩ bytes value) (offset : Nat) :
    instructions origin entry bytes offset = .ok [value] :=
  (recognizes.spelled.reads ⟨rfl, rfl, rfl⟩ rfl).many

end FrameProgram

/-! ## Instructions on top of a stack -/

/-- How many rules are remembered behind an instruction, if this does not restore rules that have
been remembered before. -/
def FrameInstruction.nesting? (depth : Nat) : FrameInstruction → Option Nat
  | .rememberState => some (depth + 1)
  | .restoreState => if depth = 0 then none else some (depth - 1)
  | _ => some depth

/-- Every restoring instruction goes with a remembering one before it, and none is left over. -/
def FrameInstruction.Balanced (program : List FrameInstruction) : Prop :=
  program.foldlM FrameInstruction.nesting? 0 = some 0

instance (program : List FrameInstruction) : Decidable (FrameInstruction.Balanced program) :=
  inferInstanceAs (Decidable (_ = _))

namespace FrameMachine

variable {origin : FrameSection} {entry : FunctionEntry} {initial : Option RuleSet}
  {machine last : FrameMachine} {values others : List FrameInstruction}

/-- The machine with more remembered rules under its own. -/
def onto (machine : FrameMachine) (stack : List (Option CfaRule × RuleSet)) : FrameMachine :=
  { machine with saved := machine.saved ++ stack }

theorem moveTo_onto (machine : FrameMachine) (stack : List (Option CfaRule × RuleSet))
    (target : UInt64) :
    (machine.onto stack).moveTo origin entry target =
      (machine.moveTo origin entry target).onto stack := by
  obtain ⟨saved, executed⟩ := moveTo_keeps machine origin entry target
  rw [onto, onto, moveTo_with, saved, executed]

/-- A nested instruction does not look at the rules under those of the machine. -/
theorem step_onto {instruction : FrameInstruction} {depth : Nat}
    (nested : instruction.nesting? machine.saved.length = some depth)
    (stack : List (Option CfaRule × RuleSet)) (place : Nat) :
    (machine.onto stack).step origin entry initial place instruction =
      (machine.step origin entry initial place instruction).map (onto · stack) := by
  cases instruction with
  | advance units => exact congrArg Except.ok (moveTo_onto machine stack _)
  | setLocation address =>
      have location_eq : (machine.onto stack).location = machine.location := rfl
      simp only [step, location_eq]
      split
      · rfl
      · exact congrArg Except.ok (moveTo_onto machine stack address)
  | restoreState =>
      cases saved : machine.saved with
      | nil =>
          rw [saved] at nested
          cases nested
      | cons rules outer => simp [step, onto, saved, Except.map]
  | defineCfaRegister register =>
      rcases defined : machine.cfa with _ | _ | _ <;> simp [step, onto, defined, Except.map]
  | defineCfaOffset distance =>
      rcases defined : machine.cfa with _ | _ | _ <;> simp [step, onto, defined, Except.map]
  | setRule | restore | rememberState | defineCfa | nop => rfl

/-- An instruction is counted elsewhere, and the remembered rules are as many as the nesting
says. -/
theorem step_nesting {next : FrameMachine} {instruction : FrameInstruction} {place : Nat}
    (stepped : machine.step origin entry initial place instruction = .ok next) :
    next.executed = machine.executed ∧
      instruction.nesting? machine.saved.length = some next.saved.length := by
  have moved (target : UInt64) : (machine.moveTo origin entry target).executed = machine.executed ∧
      some machine.saved.length = some (machine.moveTo origin entry target).saved.length := by
    obtain ⟨saved, executed⟩ := moveTo_keeps machine origin entry target
    exact ⟨executed, by rw [saved]⟩
  cases instruction with
  | advance units =>
      cases stepped
      exact moved _
  | setLocation address =>
      dsimp only [step] at stepped
      split at stepped
      · cases stepped
      · cases stepped
        exact moved address
  | restoreState =>
      dsimp only [step] at stepped
      split at stepped
      next remembered =>
        cases stepped
        rw [remembered]
        exact ⟨rfl, rfl⟩
      next => cases stepped
  | defineCfaRegister | defineCfaOffset =>
      dsimp only [step] at stepped
      split at stepped
      · cases stepped
        exact ⟨rfl, rfl⟩
      · cases stepped
  | setRule | restore | rememberState | defineCfa | nop =>
      cases stepped
      exact ⟨rfl, rfl⟩

/-! ## Runs on top of a stack -/

theorem Executes.append (executes : Executes origin entry initial machine values last)
    {final : FrameMachine} (onward : Executes origin entry initial last others final) :
    Executes origin entry initial machine (values ++ others) final := by
  induction executes with
  | done machine => exact onward
  | next stepped _ ih => exact .next stepped (ih onward)

theorem Executes.executed_eq (executes : Executes origin entry initial machine values last) :
    last.executed = machine.executed + values.length := by
  induction executes with
  | done machine => rfl
  | @next machine middle last place instruction rest stepped _ ih =>
      have counted : middle.executed = machine.executed + 1 := (step_nesting stepped).1
      rw [ih, counted, List.length_cons]
      omega

/-- A run does not look at the number of instructions before it. -/
theorem Executes.later (executes : Executes origin entry initial machine values last)
    (count : Nat) :
    Executes origin entry initial (machine.later count) values (last.later count) := by
  induction executes with
  | done machine => exact .done _
  | @next machine middle last place instruction rest stepped _ ih =>
      have counted : (machine.later count).later 1 = (machine.later 1).later count := by
        simp only [FrameMachine.later, Nat.add_right_comm]
      have again : ((machine.later count).later 1).step origin entry initial place instruction =
          .ok (middle.later count) := by
        rw [counted, step_later]
        exact congrArg (Except.map _) stepped
      exact .next again ih

/-- Nested instructions run alike on top of any stack. -/
theorem Executes.onto (executes : Executes origin entry initial machine values last)
    {depth : Nat} (nested : values.foldlM FrameInstruction.nesting? machine.saved.length =
      some depth)
    (stack : List (Option CfaRule × RuleSet)) :
    Executes origin entry initial (machine.onto stack) values (last.onto stack) := by
  induction executes with
  | done machine => exact .done _
  | @next machine middle last place instruction rest stepped _ ih =>
      obtain ⟨inner, here, onward⟩ := Option.bind_eq_some_iff.mp nested
      obtain rfl : middle.saved.length = inner :=
        Option.some.inj ((step_nesting stepped).2.symm.trans here)
      have again : ((machine.onto stack).later 1).step origin entry initial place instruction =
          .ok (middle.onto stack) := by
        have above := @step_onto origin entry initial (machine.later 1) _ _ here stack place
        exact above.trans (congrArg (Except.map _) stepped)
      exact .next again (ih onward)

/-- Nested instructions that run on top of a stack run without it. -/
theorem Executes.of_onto {stack : List (Option CfaRule × RuleSet)} {depth : Nat}
    (executes : Executes origin entry initial (machine.onto stack) values last)
    (nested : values.foldlM FrameInstruction.nesting? machine.saved.length = some depth) :
    ∃ core, Executes origin entry initial machine values core ∧ last = core.onto stack ∧
      core.saved.length = depth := by
  generalize same : machine.onto stack = based at executes
  induction executes generalizing machine with
  | done based => exact ⟨machine, .done machine, same.symm, Option.some.inj nested⟩
  | @next based middle last place instruction rest stepped _ ih =>
      subst same
      obtain ⟨inner, here, onward⟩ := Option.bind_eq_some_iff.mp nested
      have above := @step_onto origin entry initial (machine.later 1) _ _ here stack place
      obtain ⟨next, next_stepped, next_onto⟩ := map_eq_ok_iff.mp (above.symm.trans stepped)
      obtain rfl : next.saved.length = inner :=
        Option.some.inj ((step_nesting next_stepped).2.symm.trans here)
      obtain ⟨core, core_executes, last_eq, core_depth⟩ := ih onward next_onto
      exact ⟨core, .next next_stepped core_executes, last_eq, core_depth⟩

/-- Behind balanced instructions between a remembering and a restoring one, only the location and
the rows are other than before. -/
theorem Executes.bracketed (executes : Executes origin entry initial machine values last)
    (balanced : FrameInstruction.Balanced values) :
    Executes origin entry initial machine (.rememberState :: (values ++ [.restoreState]))
      { machine with
        location := last.location
        rows := last.rows
        executed := last.executed + 2 } := by
  let bare : FrameMachine := { machine with saved := [] }
  have based : Executes origin entry initial (bare.onto machine.saved) values last := executes
  obtain ⟨core, core_executes, rfl, depth⟩ := based.of_onto balanced
  have empty : core.saved = [] := List.length_eq_zero_iff.mp depth
  let stack := (machine.cfa, machine.registers) :: machine.saved
  have inside := (core_executes.later 1).onto balanced stack
  have remembers : (machine.later 1).step origin entry initial 0 .rememberState =
      .ok ((bare.later 1).onto stack) := rfl
  have restores : (((core.later 1).onto stack).later 1).step origin entry initial 0
      .restoreState = .ok
        { machine with
          location := core.location
          rows := core.rows
          executed := core.executed + 2 } := by
    simp only [step, FrameMachine.onto, FrameMachine.later, empty, List.nil_append, stack]
  exact .next remembers (inside.append (.next restores (.done _)))

/-! ## Runs within a budget -/

namespace Replay

variable {replay : Replay}

theorem execute_of_step {next : FrameMachine} {instruction : FrameInstruction} {place : Nat}
    (stepped : (machine.later 1).step replay.origin replay.entry initial place instruction =
      .ok next)
    (within : machine.executed < replay.budget) (other : Nat) :
    replay.execute initial machine other (.ok instruction) = .ok next := by
  have executed : replay.execute initial machine place (.ok instruction) = .ok next := by
    rw [execute, if_neg (Nat.not_le.mpr within)]
    exact stepped
  exact execute_elsewhere executed other

/-- Instructions that can be read and executed are replayed, unless they are too many. -/
theorem resume_of_reads {cursor : Cursor}
    (reads : Reads (FrameInstruction.decode replay.reader) cursor values)
    (executes : Executes replay.origin replay.entry initial machine values last)
    (affordable : values = [] → machine.executed ≤ replay.budget) :
    replay.resume initial machine cursor =
      if last.executed ≤ replay.budget then .ok last
      else .error (.budgetExceeded replay.budget) := by
  induction reads generalizing machine with
  | done finished =>
      cases executes
      rw [resume_atEnd _ _ finished, if_pos (affordable rfl)]
  | @more cursor instruction rest unfinished read _ ih =>
      cases executes with
      | @next _ middle _ place _ _ stepped onward =>
          have counted : middle.executed = machine.executed + 1 := (step_nesting stepped).1
          have total := onward.executed_eq
          rw [resume_next _ _ unfinished, read]
          by_cases spent : replay.budget ≤ machine.executed
          · rw [execute, if_pos spent, if_neg (by omega)]
            rfl
          · rw [execute_of_step stepped (Nat.not_le.mp spent), ok_bind]
            exact ih onward fun _ => by omega

theorem run_of_executes {bytes : List UInt8} {offset : Nat}
    (read : FrameProgram.instructions replay.origin replay.entry bytes offset = .ok values)
    (executes : Executes replay.origin replay.entry initial machine values last)
    (nonempty : values ≠ []) :
    replay.run initial bytes offset machine =
      if last.executed ≤ replay.budget then .ok last
      else .error (.budgetExceeded replay.budget) :=
  resume_of_reads (reads_of_many read) executes fun empty => absurd empty nonempty

theorem executes_of_run {bytes : List UInt8} {offset : Nat}
    (ran : replay.run initial bytes offset machine = .ok last)
    (read : FrameProgram.instructions replay.origin replay.entry bytes offset = .ok values) :
    Executes replay.origin replay.entry initial machine values last := by
  obtain ⟨found, read_again, executes⟩ := run_executes ran
  cases read.symm.trans read_again
  exact executes

/-! ## Remembered rules and initial rules -/

theorem instructions_bracketed {program : List UInt8} {offset : Nat}
    (read : FrameProgram.instructions replay.origin replay.entry program (offset + 1) =
      .ok values) :
    FrameProgram.instructions replay.origin replay.entry (0x0a :: (program ++ [0x0b])) offset =
      .ok (.rememberState :: (values ++ [.restoreState])) := by
  have remembers := @FrameInstruction.answers_decode replay.reader replay.reader.encoding []
    0x0a (.ok .rememberState) fun place => (Recognizes.pure _).answers
  have restores := @FrameInstruction.answers_decode replay.reader replay.reader.encoding []
    0x0b (.ok .restoreState) fun place => (Recognizes.pure _).answers
  have first := FrameProgram.instructions_single remembers.recognizes offset
  have last := FrameProgram.instructions_single restores.recognizes (offset + 1 + program.length)
  exact FrameProgram.instructions_append first (FrameProgram.instructions_append read last)

/-- Balanced instructions between remembering and restoring the rules leave all rules, remembered
ones included, as they were: if they can be replayed, and the budget has room for two more, then
only the location and the rows are other than before.  And an instruction that restores a register,
behind any instructions that can be replayed after those of the common entry, leaves this register
with the rule that the common entry has set, or without one if it has set none. -/
theorem rules_come_back (replay : Replay) :
    (∀ {initial : Option RuleSet} {machine last : FrameMachine} {program : List UInt8}
        {offset : Nat} {values : List FrameInstruction},
      replay.run initial program (offset + 1) machine = .ok last →
      FrameProgram.instructions replay.origin replay.entry program (offset + 1) = .ok values →
      FrameInstruction.Balanced values →
      replay.run initial (0x0a :: (program ++ [0x0b])) offset machine =
        if last.executed + 2 ≤ replay.budget then
          .ok { machine with
            location := last.location
            rows := last.rows
            executed := last.executed + 2 }
        else .error (.budgetExceeded replay.budget)) ∧
    ∀ {prepared machine : FrameMachine} {front bytes : List UInt8} {offset register : Nat}
        {instruction : StoredInstruction},
      replay.run none replay.entry.common.instructions replay.entry.common.instructionsOffset
          (.start replay.entry) = .ok prepared →
      replay.run (some prepared.registers) front offset prepared = .ok machine →
      instruction.StoredAs replay.reader.encoding bytes →
      instruction.meaning replay.reader = .ok (.restore register) →
      ∃ registers : RuleSet,
        registers.get? register = prepared.registers.get? register ∧
        (∀ other, other ≠ register → registers.get? other = machine.registers.get? other) ∧
        replay.run (some prepared.registers) (front ++ bytes) offset prepared =
          if machine.executed + 1 ≤ replay.budget then
            .ok { machine with registers, executed := machine.executed + 1 }
          else .error (.budgetExceeded replay.budget) := by
  constructor
  · intro initial machine last program offset values ran read balanced
    have executes := (executes_of_run ran read).bracketed balanced
    exact run_of_executes (instructions_bracketed read) executes (List.cons_ne_nil _ _)
  · intro prepared machine front bytes offset register instruction _ ran stored meaning
    obtain ⟨values, read, executes⟩ := run_executes ran
    have answers := stored.answers replay.reader
    rw [meaning] at answers
    have read_restore := FrameProgram.instructions_single answers.recognizes
      (offset + front.length)
    let restored := (machine.later 1).restore (some prepared.registers) register
    have registers : restored.registers.get? = _ :=
      restore_registers (machine.later 1) (some prepared.registers) register
    have restores : (machine.later 1).step replay.origin replay.entry (some prepared.registers) 0
        (.restore register) = .ok restored := rfl
    refine ⟨restored.registers, ?_, ?_,
      run_of_executes (FrameProgram.instructions_append read read_restore)
        (executes.append (.next restores (.done _))) (by simp)⟩
    · rw [registers, Function.update_self]
      rfl
    · intro other different
      rw [registers, Function.update_of_ne different]
      rfl

/-- A replay of a function whose common entry says where the return address is stored. -/
def returning : Replay where
  origin := ⟨.debug, .little, 0, 8⟩
  entry :=
    { FrameTable.prologue with
      common := { FrameTable.prologue.common with instructions := [0x0c, 7, 8, 0x90, 1] } }
  budget := 20

/-- The machine behind the instructions of the common entry. -/
def returningPrepared : FrameMachine where
  location := 0x1000
  cfa := some (.registerPlus 7 8)
  registers := ⟨[(16, .offset (-8))]⟩
  executed := 2

/-- Instructions that set a rule, remember and restore rules and move on. -/
def returningInside : List UInt8 :=
  [0x0e, 16] ++ (0x0a :: ([0x07, 3] ++ [0x0b]) ++ [0x44])

theorem instructions_returningInside :
    FrameProgram.instructions returning.origin returning.entry returningInside 41 =
      .ok [.defineCfaOffset 16, .rememberState, .setRule 3 .undefined, .restoreState,
        .advance 4] := by
  have offset : FrameProgram.instructions returning.origin returning.entry [0x0e, 16] 41 =
      .ok [.defineCfaOffset 16] := by cbv
  have rule : FrameProgram.instructions returning.origin returning.entry [0x07, 3] 44 =
      .ok [.setRule 3 .undefined] := by cbv
  have move : FrameProgram.instructions returning.origin returning.entry [0x44] 47 =
      .ok [.advance 4] := by cbv
  exact FrameProgram.instructions_append offset
    (FrameProgram.instructions_append (instructions_bracketed rule) move)

/-- The row of the addresses before one that the function moves on to. -/
def returningRow (stop : UInt64) (cfa : CfaRule) (rule : RegisterRule) : UnwindRow where
  start := 0x1000
  stop := stop
  cfa := cfa
  registers := ⟨[(16, rule)]⟩
  returnRegister := 16
  entry := 20
  encoding := FrameMachine.encoding returning.origin returning.entry

/-- The machine behind these instructions. -/
def returningLast : FrameMachine :=
  { returningPrepared with
    location := 0x1004
    cfa := some (.registerPlus 7 16)
    rows := [returningRow 0x1004 (.registerPlus 7 16) (.offset (-8))]
    executed := 7 }

theorem run_returningInside :
    returning.run (some returningPrepared.registers) returningInside 41 returningPrepared =
      .ok returningLast := by
  have execute {machine middle last : FrameMachine} {instruction : FrameInstruction}
      {rest : List FrameInstruction}
      (stepped : (machine.later 1).step returning.origin returning.entry
        (some returningPrepared.registers) 0 instruction = .ok middle)
      (onward : Executes returning.origin returning.entry (some returningPrepared.registers)
        middle rest last) := Executes.next stepped onward
  have executes : Executes returning.origin returning.entry (some returningPrepared.registers)
      returningPrepared [.defineCfaOffset 16, .rememberState, .setRule 3 .undefined,
        .restoreState, .advance 4] returningLast :=
    execute rfl (execute rfl (execute rfl (execute rfl (execute rfl (.done _)))))
  exact (run_of_executes instructions_returningInside executes (List.cons_ne_nil _ _)).trans
    (if_pos (by decide))

/-- The machine behind instructions that make the return address undefined and move on. -/
def returningUndefined : FrameMachine :=
  { returningPrepared with
    location := 0x1002
    registers := ⟨[(16, .undefined)]⟩
    rows := [returningRow 0x1002 (.registerPlus 7 8) .undefined]
    executed := 4 }

theorem returning_rules_come_back :
    ∃ registers : RuleSet,
      returning.run (some returningPrepared.registers) (0x0a :: (returningInside ++ [0x0b])) 40
          returningPrepared =
        .ok { returningPrepared with
          location := 0x1004
          rows := returningLast.rows
          executed := 9 } ∧
      returning.run (some returningPrepared.registers) [0x07, 16, 0x42] 40 returningPrepared =
        .ok returningUndefined ∧
      registers.get? 16 = some (.offset (-8)) ∧
      returning.run (some returningPrepared.registers) ([0x07, 16, 0x42] ++ [0xd0]) 40
          returningPrepared =
        .ok { returningUndefined with registers, executed := 5 } := by
  have prepared : returning.run none returning.entry.common.instructions
      returning.entry.common.instructionsOffset (.start returning.entry) =
        .ok returningPrepared := by
    cbv
  have front : returning.run (some returningPrepared.registers) [0x07, 16, 0x42] 40
      returningPrepared = .ok returningUndefined := by
    cbv
  have stored : (StoredInstruction.restore 16).StoredAs returning.reader.encoding [0xd0] :=
    ⟨[], .nil, rfl⟩
  obtain ⟨bracketed, restored⟩ := rules_come_back returning
  obtain ⟨registers, found, _, behind⟩ := restored prepared front stored rfl
  exact ⟨registers, bracketed run_returningInside instructions_returningInside (by decide), front,
    found, behind⟩

end Replay

end FrameMachine

end Dwarf
