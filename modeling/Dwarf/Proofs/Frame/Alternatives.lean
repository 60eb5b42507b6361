import Dwarf.Frame.Table
import Dwarf.Proofs.Except
import Dwarf.Proofs.Frame.Rows
import Dwarf.Proofs.Frame.Stored

/-!
# Alternative encodings of call frame instructions

An instruction of a call frame program can be stored in another way that means the same, in either
program of a function and behind any instructions that can be read.  The machine is in the same state
behind it, and what follows is read from similar cursors, so the replay ends in the same rows or fails
in the same way.  One instruction can also be replaced by two: then the machine is ahead by one
executed instruction, which shows only when the budget is exhausted.
-/

namespace Dwarf

open Decoder FrameInstruction

namespace Decoder

/-- The places to which reading items one after the other leads. -/
inductive Boundary {α : Type} (item : Consuming α) : Cursor → Cursor → Prop where
  | here {cursor : Cursor} : Boundary item cursor cursor
  | later {cursor last : Cursor} {value : α} (read : (item.read cursor).result = .ok value)
      (rest : Boundary item (item.read cursor).next last) : Boundary item cursor last

end Decoder

namespace FrameInstruction.Reader

/-- Reading the instructions one after the other comes to no new location that is stored relative
to its place. -/
def AvoidsRelative (reader : Reader) (cursor : Cursor) : Prop :=
  reader.common.added.pointerEncoding.IsRelative →
    ∀ place, Boundary (decode reader) cursor place → place.rest.head? ≠ some 0x01

theorem AvoidsRelative.next {reader : Reader} {cursor : Cursor} {instruction : FrameInstruction}
    (avoids : reader.AvoidsRelative cursor)
    (read : ((decode reader).read cursor).result = .ok instruction) :
    AvoidsRelative reader ((decode reader).read cursor).next :=
  fun relative last later => avoids relative last (.later read later)

end FrameInstruction.Reader

namespace FrameMachine

variable {origin : FrameSection} {entry : FunctionEntry} {initial : Option RuleSet}

/-! ## Machines that have executed more -/

/-- The machine after a number of further instructions that have changed nothing else. -/
def later (machine : FrameMachine) (count : Nat) : FrameMachine :=
  { machine with executed := machine.executed + count }

theorem moveTo_later (machine : FrameMachine) (count : Nat) (target : UInt64) :
    (machine.later count).moveTo origin entry target =
      (machine.moveTo origin entry target).later count := by
  obtain ⟨saved, executed⟩ := moveTo_keeps machine origin entry target
  rw [later, later, moveTo_with, saved, executed]

/-- No instruction looks at the number of instructions before it. -/
theorem step_later (machine : FrameMachine) (count place : Nat) (instruction : FrameInstruction) :
    (machine.later count).step origin entry initial place instruction =
      (machine.step origin entry initial place instruction).map (later · count) := by
  cases instruction with
  | advance units => exact congrArg Except.ok (moveTo_later machine count _)
  | setLocation address =>
      simp only [step]
      split
      next backwards =>
        have same : address < machine.location := backwards
        rw [if_pos same]
        rfl
      next forwards =>
        have same : ¬address < machine.location := forwards
        rw [if_neg same]
        exact congrArg Except.ok (moveTo_later machine count address)
  | setRule register rule => rfl
  | restore register => rfl
  | rememberState => rfl
  | restoreState =>
      cases saved : machine.saved <;> simp [step, later, saved, Except.map]
  | defineCfa rule => rfl
  | defineCfaRegister register =>
      rcases defined : machine.cfa with _ | _ | _ <;> simp [step, later, defined, Except.map]
  | defineCfaOffset distance =>
      rcases defined : machine.cfa with _ | _ | _ <;> simp [step, later, defined, Except.map]
  | nop => rfl

/-- The place of an instruction shows in errors only. -/
theorem step_agree (machine : FrameMachine) (place other : Nat) (instruction : FrameInstruction) :
    Agree (machine.step origin entry initial place instruction)
      (machine.step origin entry initial other instruction) := by
  cases instruction with
  | setLocation address =>
      simp only [step]
      split
      · exact .error rfl
      · exact .refl _
  | restoreState =>
      simp only [step]
      split
      · exact .refl _
      · exact .error rfl
  | defineCfaRegister register =>
      simp only [step]
      split
      · exact .refl _
      · exact .error rfl
  | defineCfaOffset distance =>
      simp only [step]
      split
      · exact .refl _
      · exact .error rfl
  | _ => exact .refl _

/-- The second of two replays has executed more instructions.  It ends as the first one does, unless
its budget is exhausted before. -/
inductive Ahead (budget count : Nat) : Except Error FrameMachine → Except Error FrameMachine → Prop where
  | ok (machine : FrameMachine) : Ahead budget count (.ok machine) (.ok (machine.later count))
  | failed {error other : Error} (alike : error.placeless = other.placeless) :
      Ahead budget count (.error error) (.error other)
  | spent (further : 0 < count) (result : Except Error FrameMachine) :
      Ahead budget count result (.error (.budgetExceeded budget))

namespace Ahead

variable {budget count : Nat} {result other : Except Error FrameMachine}

theorem agree (ahead : Ahead budget 0 result other) : Agree result other := by
  cases ahead with
  | ok machine => exact .refl _
  | failed alike => exact .error alike
  | spent further => exact absurd further (Nat.lt_irrefl 0)

theorem bind {second after : FrameMachine → Except Error FrameMachine}
    (ahead : Ahead budget count result other)
    (onward : ∀ machine, result = .ok machine →
      Ahead budget count (second machine) (after (machine.later count))) :
    Ahead budget count (result >>= second) (other >>= after) := by
  cases ahead with
  | ok machine => exact onward machine rfl
  | failed alike => exact .failed alike
  | spent further => exact .spent further _

theorem bind_agree {second after : FrameMachine → Except Error FrameMachine}
    (agree : Agree result other)
    (onward : ∀ machine, result = .ok machine →
      Ahead budget count (second machine) (after machine)) :
    Ahead budget count (result >>= second) (other >>= after) := by
  rcases agree.cases with ⟨machine, rfl, rfl⟩ | ⟨_, _, rfl, rfl, alike⟩
  · exact onward machine rfl
  · exact .failed alike

/-- What does not show the number of executed instructions agrees, unless this number has exhausted
the budget of the second replay only. -/
theorem map {α : Type} {f : FrameMachine → α} (ahead : Ahead budget count result other)
    (unseen : ∀ machine, f (machine.later count) = f machine)
    (affordable : 0 < count → other.map f = .error (.budgetExceeded budget) →
      result.map f = .error (.budgetExceeded budget)) :
    Agree (result.map f) (other.map f) := by
  cases ahead with
  | ok machine => exact congrArg Except.ok (unseen machine).symm
  | failed alike => exact .error alike
  | spent further =>
      rw [affordable further rfl]
      exact .refl _

end Ahead

/-! ## Passes -/

namespace Replay

/-- Execute what has been read at a place, within the budget. -/
def execute (replay : Replay) (initial : Option RuleSet) (machine : FrameMachine) (place : Nat)
    (read : Except Error FrameInstruction) : Except Error FrameMachine :=
  if replay.budget ≤ machine.executed then .error (.budgetExceeded replay.budget)
  else read >>= (machine.later 1).step replay.origin replay.entry initial place

variable {replay : Replay}

theorem ok_of_execute {initial : Option RuleSet} {machine following : FrameMachine} {place : Nat}
    {read : Except Error FrameInstruction}
    (executed : replay.execute initial machine place read = .ok following) :
    ∃ instruction, read = .ok instruction := by
  unfold execute at executed
  split at executed
  · cases executed
  · obtain ⟨instruction, same, _⟩ := bind_eq_ok_iff.mp executed
    exact ⟨instruction, same⟩

/-- A machine that has executed more does the same at another place, within the budget. -/
theorem execute_ahead (initial : Option RuleSet) (machine : FrameMachine) (count place other : Nat)
    {read again : Except Error FrameInstruction} (agree : Agree read again) :
    Ahead replay.budget count (replay.execute initial machine place read)
      (replay.execute initial (machine.later count) other again) := by
  unfold execute
  by_cases spent : replay.budget ≤ machine.executed
  · have further : replay.budget ≤ (machine.later count).executed := Nat.le_add_right_of_le spent
    rw [if_pos spent, if_pos further]
    exact .failed rfl
  · by_cases further : replay.budget ≤ (machine.later count).executed
    · have positive : 0 < count := by
        change replay.budget ≤ machine.executed + count at further
        omega
      rw [if_pos further]
      exact .spent positive _
    · rw [if_neg spent, if_neg further]
      have counted : (machine.later count).later 1 = (machine.later 1).later count := by
        simp [later, Nat.add_right_comm]
      rcases agree.cases with ⟨instruction, rfl, rfl⟩ | ⟨_, _, rfl, rfl, alike⟩
      · change Ahead _ _ ((machine.later 1).step _ _ _ _ _)
          (((machine.later count).later 1).step _ _ _ _ _)
        rw [counted, step_later (machine.later 1)]
        rcases (step_agree (machine.later 1) place other instruction).cases with
          ⟨following, same, other_same⟩ | ⟨_, _, same, other_same, alike⟩
        · rw [same, other_same]
          exact .ok following
        · rw [same, other_same]
          exact .failed alike
      · exact .failed alike

theorem execute_agree (initial : Option RuleSet) (machine : FrameMachine) (place other : Nat)
    (read : Except Error FrameInstruction) :
    Agree (replay.execute initial machine place read)
      (replay.execute initial machine other read) :=
  (execute_ahead initial machine 0 place other (.refl read)).agree

theorem execute_elsewhere {initial : Option RuleSet} {machine following : FrameMachine}
    {place : Nat} {read : Except Error FrameInstruction}
    (executed : replay.execute initial machine place read = .ok following) (other : Nat) :
    replay.execute initial machine other read = .ok following := by
  have agree : Agree (replay.execute initial machine place read)
      (replay.execute initial machine other read) := execute_agree initial machine place other read
  rw [executed] at agree
  rcases agree.cases with ⟨_, found, again⟩ | ⟨_, _, found, _⟩
  · cases found
    exact again
  · cases found

/-- A pass executes what has been read. -/
theorem pass_eq (initial : Option RuleSet) (machine : FrameMachine) (cursor : Cursor) :
    ((replay.pass initial machine).read cursor).result =
        replay.execute initial machine cursor.offset ((decode replay.reader).read cursor).result ∧
      ∀ following, ((replay.pass initial machine).read cursor).result = .ok following →
        ((replay.pass initial machine).read cursor).next =
          ((decode replay.reader).read cursor).next := by
  unfold pass execute
  by_cases spent : replay.budget ≤ machine.executed
  · rw [if_pos spent, if_pos spent]
    exact ⟨rfl, nofun⟩
  · rw [if_neg spent, if_neg spent]
    change (Decoder.bind (decode replay.reader).read _ cursor).result = _ ∧ ∀ following,
      (Decoder.bind (decode replay.reader).read _ cursor).result = .ok following →
        (Decoder.bind (decode replay.reader).read _ cursor).next = _
    unfold Decoder.bind
    generalize (decode replay.reader).read cursor = reading
    rcases reading with ⟨result, next, reached⟩
    cases result with
    | error error => exact ⟨rfl, nofun⟩
    | ok instruction => exact ⟨rfl, fun _ _ => rfl⟩

/-! ## Loops -/

/-- The replay from a machine on, of the instructions from a cursor on. -/
def resume (replay : Replay) (initial : Option RuleSet) (machine : FrameMachine) (cursor : Cursor) :
    Except Error FrameMachine :=
  (untilEnd (replay.pass initial) machine cursor).result

theorem resume_atEnd (initial : Option RuleSet) (machine : FrameMachine) {cursor : Cursor}
    (finished : cursor.atEnd = true) : replay.resume initial machine cursor = .ok machine := by
  rw [resume, untilEnd_of_atEnd finished]

theorem resume_next (initial : Option RuleSet) (machine : FrameMachine) {cursor : Cursor}
    (unfinished : cursor.atEnd = false) :
    replay.resume initial machine cursor =
      (replay.execute initial machine cursor.offset ((decode replay.reader).read cursor).result >>=
        fun following =>
          replay.resume initial following ((decode replay.reader).read cursor).next) := by
  obtain ⟨result_eq, next_eq⟩ := @pass_eq replay initial machine cursor
  cases executed : replay.execute initial machine cursor.offset
      ((decode replay.reader).read cursor).result with
  | error error =>
      rw [executed] at result_eq
      exact untilEnd_result_of_error unfinished result_eq
  | ok following =>
      rw [executed] at result_eq
      rw [resume, (untilEnd_result_of_ok unfinished result_eq).1, next_eq following result_eq]
      rfl

/-- What follows does not depend on where it is stored and what has been executed before, within the
budget. -/
theorem resume_ahead (initial : Option RuleSet) (machine : FrameMachine) (count : Nat)
    {cursor place : Cursor} (similar : cursor.Similar place)
    (avoids : replay.reader.AvoidsRelative cursor) :
    Ahead replay.budget count (replay.resume initial machine cursor)
      (replay.resume initial (machine.later count) place) := by
  by_cases finished : cursor.atEnd = true
  · rw [resume_atEnd _ _ finished, resume_atEnd _ _ (similar.atEnd_eq.trans finished)]
    exact .ok machine
  · have unfinished := Bool.eq_false_iff.mpr finished
    rw [resume_next _ _ unfinished, resume_next _ _ (similar.atEnd_eq.trans unfinished)]
    obtain ⟨agree, next⟩ := decode_similar similar fun relative => avoids relative _ .here
    refine (execute_ahead initial machine count cursor.offset place.offset agree).bind ?_
    intro following executed
    obtain ⟨instruction, read⟩ := ok_of_execute executed
    exact resume_ahead initial following count next fun relative last later =>
      avoids relative last (.later read later)
termination_by cursor.remaining
decreasing_by
  exact ((decode replay.reader).read cursor).reached.remaining_lt
    ((decode replay.reader).advances _ _ read)

/-! ## Gaps -/

variable {encoding : Encoding}

/-- A replay at bytes whose reading is known executes the answer and goes on behind them. -/
theorem resume_answers {bytes after : List UInt8} {answer : Except Error FrameInstruction}
    (answers : (decode replay.reader).read.Answers encoding bytes answer) (nonempty : bytes ≠ [])
    (initial : Option RuleSet) (machine : FrameMachine) {cursor : Cursor}
    (under : cursor.Under encoding) (rest : cursor.rest = bytes ++ after) :
    ∃ next : Cursor,
      replay.resume initial machine cursor =
          (replay.execute initial machine cursor.offset answer >>= fun following =>
            replay.resume initial following next) ∧
        ∀ instruction, answer = .ok instruction → next.Under encoding ∧ next.rest = after ∧
          (replay.reader.AvoidsRelative cursor → replay.reader.AvoidsRelative next) := by
  obtain ⟨read, forward⟩ := answers under rest
  have unfinished : cursor.atEnd = false := by
    rw [← Bool.not_eq_true, Cursor.atEnd_iff_rest, rest, List.append_eq_nil_iff]
    exact fun empty => nonempty empty.1
  refine ⟨((decode replay.reader).read cursor).next, ?_, ?_⟩
  · rw [resume_next _ _ unfinished, read]
  · rintro instruction same
    obtain ⟨fits, next⟩ := forward instruction same
    refine ⟨next ▸ under.forward fits, next ▸ Cursor.forward_rest rest fits, ?_⟩
    exact fun avoids => avoids.next (read.trans same)

/-- Two replays with the same instructions first differ as they do behind these, from the machine
that these lead to. -/
theorem resume_front {front back other : List UInt8} {values : List FrameInstruction}
    (spelled : Spelled (decode replay.reader) encoding front values) {count : Nat}
    (initial : Option RuleSet) {machine : FrameMachine} {cursor place alone : Cursor}
    (under : cursor.Under encoding) (place_under : place.Under encoding)
    (alone_under : alone.Under encoding) (rest : cursor.rest = front ++ back)
    (place_rest : place.rest = front ++ other) (alone_rest : alone.rest = front)
    (avoids : replay.reader.AvoidsRelative cursor)
    (onward : ∀ last, replay.resume initial machine alone = .ok last →
      ∀ next there : Cursor, next.Under encoding → there.Under encoding → next.rest = back →
        there.rest = other → replay.reader.AvoidsRelative next →
          Ahead replay.budget count (replay.resume initial last next)
            (replay.resume initial last there)) :
    Ahead replay.budget count (replay.resume initial machine cursor)
      (replay.resume initial machine place) := by
  induction spelled generalizing machine cursor place alone with
  | nil =>
      have finished : replay.resume initial machine alone = .ok machine :=
        resume_atEnd initial machine (Cursor.atEnd_iff_rest.mpr alone_rest)
      exact onward machine finished cursor place under place_under rest place_rest avoids
  | @cons first later value values recognizes _ ih =>
      rw [List.append_assoc] at rest place_rest
      have answers := recognizes.answers
      have nonempty := recognizes.ne_nil
      obtain ⟨next, resumes, after⟩ := resume_answers answers nonempty initial machine under rest
      obtain ⟨there, there_resumes, there_after⟩ :=
        resume_answers answers nonempty initial machine place_under place_rest
      rw [← List.append_nil later, ← List.append_assoc] at alone_rest
      rw [List.append_assoc] at alone_rest
      obtain ⟨apart, apart_resumes, apart_after⟩ :=
        resume_answers answers nonempty initial machine alone_under alone_rest
      obtain ⟨next_under, next_rest, next_avoids⟩ := after value rfl
      obtain ⟨there_under, there_rest, _⟩ := there_after value rfl
      obtain ⟨apart_under, apart_rest, _⟩ := apart_after value rfl
      rw [List.append_nil] at apart_rest
      rw [resumes, there_resumes]
      refine Ahead.bind_agree (execute_agree initial machine cursor.offset place.offset _)
        fun following executed => ?_
      refine ih next_under there_under apart_under next_rest there_rest apart_rest
        (next_avoids avoids) fun last resumed => onward last ?_
      rw [apart_resumes, execute_elsewhere executed]
      exact resumed

/-- An instruction can be replaced by another one that is read as the same. -/
theorem resume_single {old new back : List UInt8} {answer : Except Error FrameInstruction}
    (answers : (decode replay.reader).read.Answers encoding old answer) (nonempty : old ≠ [])
    (new_answers : (decode replay.reader).read.Answers encoding new answer)
    (new_nonempty : new ≠ []) (initial : Option RuleSet) (machine : FrameMachine)
    {cursor place : Cursor} (under : cursor.Under encoding) (place_under : place.Under encoding)
    (rest : cursor.rest = old ++ back) (place_rest : place.rest = new ++ back)
    (avoids : replay.reader.AvoidsRelative cursor) :
    Ahead replay.budget 0 (replay.resume initial machine cursor)
      (replay.resume initial machine place) := by
  obtain ⟨next, resumes, after⟩ := resume_answers answers nonempty initial machine under rest
  obtain ⟨there, there_resumes, there_after⟩ :=
    resume_answers new_answers new_nonempty initial machine place_under place_rest
  rw [resumes, there_resumes]
  refine Ahead.bind_agree (execute_agree initial machine cursor.offset place.offset _)
    fun following executed => ?_
  obtain ⟨instruction, same⟩ := ok_of_execute executed
  obtain ⟨next_under, next_rest, next_avoids⟩ := after instruction same
  obtain ⟨there_under, there_rest, _⟩ := there_after instruction same
  exact resume_ahead initial following 0
    (.of_under next_under there_under (there_rest.trans next_rest.symm)) (next_avoids avoids)

/-- A rule for the canonical frame address can be set in two steps, where one with a register is in
force. -/
theorem resume_split {register distance : UInt64} {old first second back : List UInt8}
    (stored : (StoredInstruction.defCfa register distance).StoredAs encoding old)
    (first_stored : (StoredInstruction.defCfaRegister register).StoredAs encoding first)
    (second_stored : (StoredInstruction.defCfaOffset distance).StoredAs encoding second)
    (initial : Option RuleSet) {machine : FrameMachine}
    (inForce : ∃ register distance, machine.cfa = some (.registerPlus register distance))
    {cursor place : Cursor} (under : cursor.Under encoding) (place_under : place.Under encoding)
    (rest : cursor.rest = old ++ back) (place_rest : place.rest = first ++ (second ++ back))
    (avoids : replay.reader.AvoidsRelative cursor) :
    Ahead replay.budget 1 (replay.resume initial machine cursor)
      (replay.resume initial machine place) := by
  obtain ⟨next, resumes, after⟩ := resume_answers (stored.answers replay.reader) stored.ne_nil
    initial machine under rest
  obtain ⟨middle, middle_resumes, middle_after⟩ :=
    resume_answers (first_stored.answers replay.reader) first_stored.ne_nil initial machine
      place_under place_rest
  rw [resumes, middle_resumes]
  by_cases spent : replay.budget ≤ machine.executed
  · rw [execute, execute, if_pos spent, if_pos spent]
    exact .failed rfl
  cases number : replay.reader.number register with
  | error error =>
      rw [execute, execute, if_neg spent, if_neg spent, StoredInstruction.meaning,
        StoredInstruction.meaning, number]
      exact .failed rfl
  | ok name =>
      obtain ⟨former, offset, defined⟩ := inForce
      let renamed := { machine.later 1 with cfa := some (.registerPlus name offset) }
      let redefined := { machine.later 1 with cfa := some (.registerPlus name distance.toInt64) }
      have whole : (StoredInstruction.defCfa register distance).meaning replay.reader =
          .ok (.defineCfa (.registerPlus name distance.toInt64)) := by
        rw [StoredInstruction.meaning, number]
        rfl
      have half : (StoredInstruction.defCfaRegister register).meaning replay.reader =
          .ok (.defineCfaRegister name) := by
        rw [StoredInstruction.meaning, number]
        rfl
      have renames : (machine.later 1).step replay.origin replay.entry initial place.offset
          (.defineCfaRegister name) = .ok renamed := by
        simp only [step, later, defined]
        rfl
      obtain ⟨next_under, next_rest, next_avoids⟩ := after _ whole
      obtain ⟨middle_under, middle_rest, _⟩ := middle_after _ half
      obtain ⟨there, there_resumes, there_after⟩ :=
        resume_answers (second_stored.answers replay.reader) second_stored.ne_nil initial renamed
          middle_under middle_rest
      obtain ⟨there_under, there_rest, _⟩ := there_after _ rfl
      have redefines : (machine.later 1).step replay.origin replay.entry initial cursor.offset
          (.defineCfa (.registerPlus name distance.toInt64)) = .ok redefined := rfl
      rw [whole, half, execute, execute, if_neg spent, if_neg spent, ok_bind, ok_bind, redefines,
        renames, ok_bind, ok_bind, there_resumes, execute]
      by_cases further : replay.budget ≤ renamed.executed
      · rw [if_pos further]
        exact .spent Nat.one_pos _
      · rw [if_neg further]
        exact resume_ahead initial redefined 1
          (.of_under next_under there_under (there_rest.trans next_rest.symm)) (next_avoids avoids)

/-! ## The programs of a function -/

/-- Where the reading of a program starts. -/
def cursor (replay : Replay) (program : List UInt8) (offset : Nat) : Cursor :=
  (Cursor.start program offset replay.origin.order).withAddressSize replay.entry.common.addressSize

theorem under_cursor (replay : Replay) (program : List UInt8) (offset : Nat) :
    (replay.cursor program offset).Under replay.reader.encoding :=
  ⟨rfl, rfl, rfl⟩

theorem run_ahead (initial : Option RuleSet) (machine : FrameMachine) (count : Nat)
    {program : List UInt8} {offset : Nat}
    (avoids : replay.reader.AvoidsRelative (replay.cursor program offset)) (place : Nat) :
    Ahead replay.budget count (replay.run initial program offset machine)
      (replay.run initial program place (machine.later count)) :=
  resume_ahead initial machine count
    (.of_under (replay.under_cursor program offset) (replay.under_cursor program place) rfl) avoids

/-- No new location in the two programs of a function is stored relative to its place. -/
structure LocationsAbsolute (replay : Replay) : Prop where
  common : replay.reader.AvoidsRelative
    (replay.cursor replay.entry.common.instructions replay.entry.common.instructionsOffset)
  own : replay.reader.AvoidsRelative
    (replay.cursor replay.entry.instructions replay.entry.instructionsOffset)

/-- Replay two programs, the first one as that of the common entry. -/
def both (replay : Replay) (common own : List UInt8) (commonOffset ownOffset : Nat) :
    Except Error FrameMachine := do
  let prepared ← replay.run none common commonOffset (.start replay.entry)
  replay.run (some prepared.registers) own ownOffset prepared

end Replay

end FrameMachine

open FrameMachine

/-- The function with other programs, which may be stored elsewhere. -/
def FunctionEntry.withPrograms (entry : FunctionEntry) (common own : List UInt8)
    (commonOffset ownOffset : Nat) : FunctionEntry :=
  { entry with
    common := { entry.common with instructions := common, instructionsOffset := commonOffset }
    instructions := own
    instructionsOffset := ownOffset }

namespace FrameMachine.Replay

theorem rows_withPrograms (origin : FrameSection) (entry : FunctionEntry) (budget : Nat)
    (common own : List UInt8) (commonOffset ownOffset : Nat) :
    rows ⟨origin, entry.withPrograms common own commonOffset ownOffset, budget⟩ =
      (both ⟨origin, entry, budget⟩ common own commonOffset ownOffset).map fun finished =>
        (finished.close origin entry entry.stop).rows.reverse := by
  have same : run ⟨origin, entry.withPrograms common own commonOffset ownOffset, budget⟩ =
      run ⟨origin, entry, budget⟩ := rfl
  unfold rows both
  rw [same]
  change (run ⟨origin, entry, budget⟩ none common commonOffset (.start entry) >>= _) = _
  cases run ⟨origin, entry, budget⟩ none common commonOffset (.start entry) with
  | error error => rfl
  | ok prepared =>
      rw [ok_bind, ok_bind]
      change (run ⟨origin, entry, budget⟩ (some prepared.registers) own ownOffset prepared >>= _) = _
      cases run ⟨origin, entry, budget⟩ (some prepared.registers) own ownOffset prepared with
      | error error => rfl
      | ok finished => rfl

end FrameMachine.Replay

/-! ## Gaps in programs -/

/-- A place for instructions in one of the two programs of a function, with the bytes before and
behind it. -/
inductive ProgramGap where
  | common (front back : List UInt8)
  | own (front back : List UInt8)

namespace ProgramGap

variable {replay : Replay}

/-- The bytes before the gap. -/
def front : ProgramGap → List UInt8
  | common front _ | own front _ => front

/-- The program of the common entry, with some bytes in the gap if it is there. -/
def commonWith (gap : ProgramGap) (entry : FunctionEntry) (bytes : List UInt8) : List UInt8 :=
  match gap with
  | common front back => front ++ (bytes ++ back)
  | own _ _ => entry.common.instructions

/-- The program of the function, with some bytes in the gap if it is there. -/
def ownWith (gap : ProgramGap) (entry : FunctionEntry) (bytes : List UInt8) : List UInt8 :=
  match gap with
  | common _ _ => entry.instructions
  | own front back => front ++ (bytes ++ back)

/-- The function with some bytes in the gap, its programs stored at two offsets. -/
def fill (gap : ProgramGap) (entry : FunctionEntry) (bytes : List UInt8)
    (commonOffset ownOffset : Nat) : FunctionEntry :=
  entry.withPrograms (gap.commonWith entry bytes) (gap.ownWith entry bytes) commonOffset ownOffset

/-- A replay comes to the gap in the state of the machine, the programs being stored at two
offsets. -/
def Reached (gap : ProgramGap) (replay : Replay) (commonOffset ownOffset : Nat)
    (machine : FrameMachine) : Prop :=
  match gap with
  | common front _ => replay.run none front commonOffset (.start replay.entry) = .ok machine
  | own front _ => ∃ prepared,
      replay.run none replay.entry.common.instructions commonOffset (.start replay.entry) =
          .ok prepared ∧
        replay.run (some prepared.registers) front ownOffset prepared = .ok machine

/-- What is stored in a gap is stored in another way: an instruction in an alternative encoding, or
in two steps, with one extra instruction. -/
inductive Respelled (gap : ProgramGap) (replay : Replay) (commonOffset ownOffset : Nat) :
    Nat → List UInt8 → List UInt8 → Prop where
  | single {old new : List UInt8} {instruction other : StoredInstruction}
      (alternative : instruction.Alternative replay.entry.common.dataAlignment other)
      (stored : instruction.StoredAs replay.reader.encoding old)
      (other_stored : other.StoredAs replay.reader.encoding new) :
      Respelled gap replay commonOffset ownOffset 0 old new
  | split {old first second : List UInt8} {register distance : UInt64}
      (stored : (StoredInstruction.defCfa register distance).StoredAs replay.reader.encoding old)
      (first_stored :
        (StoredInstruction.defCfaRegister register).StoredAs replay.reader.encoding first)
      (second_stored :
        (StoredInstruction.defCfaOffset distance).StoredAs replay.reader.encoding second)
      (inForce : ∀ machine, gap.Reached replay commonOffset ownOffset machine →
        ∃ register distance, machine.cfa = some (.registerPlus register distance)) :
      Respelled gap replay commonOffset ownOffset 1 old (first ++ second)

variable {gap : ProgramGap} {commonOffset ownOffset extra : Nat} {old new : List UInt8}

/-- From a machine that comes to the gap, both replays end alike. -/
theorem Respelled.resume (respelled : gap.Respelled replay commonOffset ownOffset extra old new)
    {machine : FrameMachine} (reached : gap.Reached replay commonOffset ownOffset machine)
    (initial : Option RuleSet) {cursor place : Cursor}
    (under : cursor.Under replay.reader.encoding) (place_under : place.Under replay.reader.encoding)
    {back : List UInt8} (rest : cursor.rest = old ++ back) (place_rest : place.rest = new ++ back)
    (avoids : replay.reader.AvoidsRelative cursor) :
    Ahead replay.budget extra (replay.resume initial machine cursor)
      (replay.resume initial machine place) := by
  cases respelled with
  | single alternative stored other_stored =>
      have answers := other_stored.answers replay.reader
      rw [StoredInstruction.Alternative.meaning_eq alternative] at answers
      exact Replay.resume_single (stored.answers _) stored.ne_nil answers other_stored.ne_nil
        initial machine under place_under rest place_rest avoids
  | split stored first_stored second_stored inForce =>
      rw [List.append_assoc] at place_rest
      exact Replay.resume_split stored first_stored second_stored initial (inForce machine reached)
        under place_under rest place_rest avoids

theorem Respelled.both {values : List FrameInstruction}
    (readable : Spelled (FrameInstruction.decode replay.reader) replay.reader.encoding gap.front
      values)
    (respelled : gap.Respelled replay commonOffset ownOffset extra old new)
    (absolute : Replay.LocationsAbsolute
      { replay with entry := gap.fill replay.entry old commonOffset ownOffset })
    (newCommonOffset newOwnOffset : Nat) :
    Ahead replay.budget extra
      (replay.both (gap.commonWith replay.entry old) (gap.ownWith replay.entry old) commonOffset
        ownOffset)
      (replay.both (gap.commonWith replay.entry new) (gap.ownWith replay.entry new)
        newCommonOffset newOwnOffset) := by
  have under := replay.under_cursor
  cases gap with
  | common front back =>
      have first : Ahead replay.budget extra
          (replay.run none (front ++ (old ++ back)) commonOffset (.start replay.entry))
          (replay.run none (front ++ (new ++ back)) newCommonOffset (.start replay.entry)) := by
        refine Replay.resume_front readable none (under _ _) (under _ _) (under front commonOffset)
          rfl rfl rfl absolute.common ?_
        intro last resumed next there next_under there_under rest there_rest avoids
        exact respelled.resume resumed none next_under there_under rest there_rest avoids
      refine first.bind fun prepared _ => ?_
      have own : replay.reader.AvoidsRelative (replay.cursor replay.entry.instructions ownOffset) :=
        absolute.own
      exact Replay.run_ahead (some prepared.registers) prepared extra own newOwnOffset
  | own front back =>
      have common : replay.reader.AvoidsRelative
          (replay.cursor replay.entry.common.instructions commonOffset) := absolute.common
      have first := (Replay.run_ahead none (.start replay.entry) 0 common newCommonOffset).agree
      refine Ahead.bind_agree first fun prepared ready => ?_
      refine Replay.resume_front readable (some prepared.registers) (under _ _) (under _ _)
        (under front ownOffset) rfl rfl rfl absolute.own ?_
      intro last resumed next there next_under there_under rest there_rest avoids
      exact respelled.resume ⟨prepared, ready, resumed⟩ _ next_under there_under rest there_rest
        avoids

end ProgramGap

namespace FrameTable

/-- The replay of a function. -/
def replay (table : FrameTable) (entry : FunctionEntry) : Replay :=
  ⟨table.origin, entry, table.budget⟩

/-- Alternative encodings are equivalent.  In a function whose programs contain no location relative
to its place, an instruction behind any instructions that can be read is stored in another way that
means the same.  Wherever the programs are then stored, the rows are the same, or the replay fails
in the same way, unless it is an extra instruction that exhausts the budget. -/
theorem rows_respelled {table : FrameTable} {entry : FunctionEntry} {gap : ProgramGap}
    {values : List FrameInstruction}
    (readable : Spelled (FrameInstruction.decode (table.replay entry).reader)
      (table.replay entry).reader.encoding gap.front values)
    {commonOffset ownOffset extra : Nat} {old new : List UInt8}
    (absolute : (table.replay (gap.fill entry old commonOffset ownOffset)).LocationsAbsolute)
    (respelled : gap.Respelled (table.replay entry) commonOffset ownOffset extra old new)
    (newCommonOffset newOwnOffset : Nat)
    (affordable : 0 < extra →
      table.rows (gap.fill entry new newCommonOffset newOwnOffset) =
          .error (.budgetExceeded table.budget) →
        table.rows (gap.fill entry old commonOffset ownOffset) =
          .error (.budgetExceeded table.budget)) :
    Agree (table.rows (gap.fill entry old commonOffset ownOffset))
      (table.rows (gap.fill entry new newCommonOffset newOwnOffset)) := by
  have ahead := respelled.both readable absolute newCommonOffset newOwnOffset
  have rows_eq (bytes : List UInt8) (commonOffset ownOffset : Nat) :=
    Replay.rows_withPrograms table.origin entry table.budget (gap.commonWith entry bytes)
      (gap.ownWith entry bytes) commonOffset ownOffset
  have old_rows : table.rows (gap.fill entry old commonOffset ownOffset) = _ := rows_eq old _ _
  have new_rows : table.rows (gap.fill entry new newCommonOffset newOwnOffset) = _ :=
    rows_eq new _ _
  rw [old_rows, new_rows] at affordable ⊢
  exact Ahead.map ahead (fun machine => by rw [close_eq, close_eq]; rfl) affordable

/-- Behind an advance of one unit, an offset of 16 can be stored as two units back; and a program can
name another frame pointer and its offset one after the other. -/
theorem rows_respelled_prologue :
    Agree (prologueTable.rows ((ProgramGap.own [0x41] []).fill prologue [0x0e, 16] 12 40))
        (prologueTable.rows ((ProgramGap.own [0x41] []).fill prologue [0x13, 0x7e] 13 44)) ∧
      Agree (prologueTable.rows ((ProgramGap.own [] []).fill prologue [0x0c, 6, 16] 12 40))
        (prologueTable.rows ((ProgramGap.own [] []).fill prologue ([0x0d, 6] ++ [0x0e, 16])
          12 40)) := by
  have unsigned (word : UInt64) (small : word.toNat < 128) :
      Decoder.unsigned.read.Recognizes (prologueTable.replay prologue).reader.encoding
        [.ofNat word.toNat] word := by
    have read := @recognizes_unsigned (prologueTable.replay prologue).reader.encoding word
    rw [Leb128.encode_of_lt small] at read
    exact read
  have placed : ¬prologue.common.added.pointerEncoding.IsRelative := by decide
  have absolute (gap : ProgramGap) (bytes : List UInt8) :
      (prologueTable.replay (gap.fill prologue bytes 12 40)).LocationsAbsolute :=
    ⟨fun relative => absurd relative placed, fun relative => absurd relative placed⟩
  constructor
  · have advance : (StoredInstruction.advanceLoc 1).StoredAs
        (prologueTable.replay prologue).reader.encoding [0x41] := ⟨[], .nil, by decide⟩
    have readable := (advance.answers (prologueTable.replay prologue).reader).recognizes.spelled
    have two_back : (StoredInstruction.defCfaOffset 16).Alternative (-8) (.defCfaOffsetSf (-2)) :=
      .defCfaOffsetSf (by decide)
    have signed : Leb128.encodeSigned (-2) = [0x7e] := by cbv
    exact rows_respelled readable (absolute _ _) (.single two_back
      ⟨[[16]], .cons (unsigned 16 (by decide)) .nil, rfl⟩
      ⟨[[0x7e]], .cons (signed ▸ recognizes_signed (-2)) .nil, rfl⟩) 13 44
      fun positive => absurd positive (Nat.lt_irrefl 0)
  · let prepared := { FrameMachine.start prologue with
      cfa := some (.registerPlus 7 8), executed := 1 }
    have common : (prologueTable.replay prologue).run none [0x0c, 7, 8] 12 (.start prologue) =
        .ok prepared := by
      cbv
    have finishes : (prologueTable.rows ((ProgramGap.own [] []).fill prologue
        ([0x0d, 6] ++ [0x0e, 16]) 12 40)).toBool = true := by
      cbv
    have whole : (StoredInstruction.defCfa 6 16).StoredAs
        (prologueTable.replay prologue).reader.encoding [0x0c, 6, 16] :=
      ⟨[[6], [16]], .cons (unsigned 6 (by decide)) (.cons (unsigned 16 (by decide)) .nil), rfl⟩
    refine rows_respelled .nil (absolute _ _) (.split whole
      ⟨[[6]], .cons (unsigned 6 (by decide)) .nil, rfl⟩
      ⟨[[16]], .cons (unsigned 16 (by decide)) .nil, rfl⟩ ?_) 12 40 ?_
    · rintro machine ⟨ready, same, reached⟩
      cases common.symm.trans same
      cases (Replay.resume_atEnd (some prepared.registers) prepared rfl).symm.trans reached
      exact ⟨7, 8, rfl⟩
    · intro _ exhausted
      have stopped := (congrArg Except.toBool exhausted).symm.trans finishes
      cases stopped

end FrameTable

end Dwarf
