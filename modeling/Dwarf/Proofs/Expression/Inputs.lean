import Dwarf.Proofs.Expression.Limits

/-!
# Inputs that are not used

An evaluation may be given a frame base and a canonical frame address.  Only the operations of one
opcode ask for the one and only those of another for the other, so an expression without them is
evaluated alike whatever is given, and it never fails for want of it.  A branch leads to operations of
the same expression, so it is enough to look through its operations once.
-/

namespace Dwarf

namespace Access

variable {α β : Type}

/-- Whatever error a computation fails with has a property. -/
def Raises (access : Access α) (cause : Error → Prop) : Prop :=
  ∀ target reads error later, access.resume target reads = (.error error, later) → cause error

variable {cause : Error → Prop}

theorem raises_pure (value : α) : (pure value : Access α).Raises cause := by
  intro _ _ _ _ failed
  rw [resume_pure] at failed
  cases failed

theorem raises_throw {error : Error} (caused : cause error) :
    (throw error : Access α).Raises cause := by
  intro _ _ _ _ failed
  rw [resume_throw] at failed
  cases failed
  exact caused

theorem raises_ofExcept {result : Except Error α}
    (caused : ∀ error, result = .error error → cause error) : (ofExcept result).Raises cause := by
  intro _ _ error _ failed
  rw [resume_ofExcept] at failed
  exact caused error (congrArg Prod.fst failed)

theorem Raises.bind {first : Access α} {second : α → Access β} (left : first.Raises cause)
    (right : ∀ value, (second value).Raises cause) : (first >>= second).Raises cause := by
  intro target reads error later failed
  rw [resume_bind] at failed
  cases begun : first.resume target reads with
  | mk outcome middle =>
      rw [begun] at failed
      cases outcome with
      | error found =>
          cases failed
          exact left _ _ _ _ begun
      | ok value => exact right value _ _ _ _ failed

theorem raises_ofRead (caused : ∀ fault, cause (.targetAccess fault))
    (result : Except AccessFault α) : (ofRead result).Raises cause := by
  refine raises_ofExcept fun error found => ?_
  cases result with
  | ok value => cases found
  | error fault =>
      cases found
      exact caused fault

theorem raises_register (caused : ∀ fault, cause (.targetAccess fault)) (number : Nat) :
    (register number).Raises cause := by
  intro target reads error later failed
  cases target with
  | none => exact raises_throw (caused _) none reads _ _ failed
  | some target => exact raises_ofRead caused (target.register number) (some target) _ _ _ failed

theorem raises_memory (caused : ∀ fault, cause (.targetAccess fault)) (address : UInt64)
    (length : Nat) : (memory address length).Raises cause := by
  intro target reads error later failed
  cases target with
  | none => exact raises_throw (caused _) none reads _ _ failed
  | some target => exact raises_ofRead caused (target.memory address length) (some target) _ _ _ failed

end Access

open Access

/-- What an evaluation may be given. -/
inductive EvaluationInput where
  | frameBase
  | cfa

namespace EvaluationInput

/-- The opcode of the operations that use the input. -/
def opcode : EvaluationInput → Opcode
  | frameBase => .fbreg
  | cfa => .callFrameCfa

/-- The same evaluation with the input given or absent. -/
def give (evaluation : Evaluation) (value : Option UInt64) : EvaluationInput → Evaluation
  | frameBase => { evaluation with frameBase := value }
  | cfa => { evaluation with cfa := value }

/-- The instruction asks for the input. -/
inductive AskedBy : EvaluationInput → Instruction → Prop where
  | frameBase (offset : Int64) : AskedBy .frameBase (.frameBasePlus offset)
  | cfa : AskedBy .cfa .callFrameCfa

/-- The error of an evaluation to which the input is not given. -/
inductive Missing : EvaluationInput → Error → Prop where
  | frameBase (entry : Nat) : Missing .frameBase (.missingFrameBase entry)
  | cfa (pc : UInt64) : Missing .cfa (.missingCfa pc)

variable {input : EvaluationInput}

theorem opcode_of_asked {operation : Operation} {encoding : Encoding}
    (asked : input.AskedBy (operation.instruction encoding)) :
    operation.opcode = input.opcode := by
  have named := operation.instruction_namedBy encoding
  generalize operation.instruction encoding = instruction at asked named
  cases asked with
  | frameBase => exact named
  | cfa => exact named

end EvaluationInput

namespace Machine

variable {input : EvaluationInput} {evaluation : Evaluation} {encoding : Encoding}
  {operation : Operation} {machine : Machine}

/-! ## One operation -/

theorem execute_give (given : Option UInt64)
    (unasked : ¬input.AskedBy (operation.instruction encoding)) :
    machine.execute (input.give evaluation given) encoding operation =
      machine.execute evaluation encoding operation := by
  unfold execute
  generalize operation.instruction encoding = instruction at unasked ⊢
  obtain ⟨stack, pending, pieces⟩ := machine
  rcases stack with _ | ⟨top, _ | ⟨second, _ | ⟨third, stack⟩⟩⟩
  all_goals
    cases input with
    | frameBase =>
        cases instruction with
        | frameBasePlus offset => exact absurd (.frameBase offset) unasked
        | _ => rfl
    | cfa =>
        cases instruction with
        | callFrameCfa => exact absurd .cfa unasked
        | _ => rfl

theorem raises_pushOn (value : UInt64) :
    (machine.pushOn evaluation operation value).Raises (¬input.Missing ·) := by
  refine Raises.bind ?_ fun _ => raises_pure _
  unfold push
  split
  · exact raises_pure _
  · exact raises_throw nofun

theorem raises_readMemory {cause : Error → Prop} (caused : ∀ fault, cause (.targetAccess fault))
    (address : UInt64) (size : Nat) : (readMemory encoding address size).Raises cause := by
  refine (raises_memory caused address size).bind fun bytes => ?_
  split
  · exact raises_throw (caused _)
  · exact raises_pure _

theorem raises_underflow :
    (throw (underflow operation) : Access (Machine × Option Int64)).Raises (¬input.Missing ·) :=
  raises_throw nofun

theorem raises_execute (unasked : ¬input.AskedBy (operation.instruction encoding)) :
    (machine.execute evaluation encoding operation).Raises (¬input.Missing ·) := by
  obtain ⟨stack, pending, pieces⟩ := machine
  unfold execute
  dsimp only
  generalize operation.instruction encoding = instruction at unasked ⊢
  cases instruction with
  | constant value => exact raises_pushOn value
  | registerPlus register offset =>
      exact (raises_register (fun _ => nofun) register).bind fun _ => raises_pushOn _
  | frameBasePlus offset =>
      cases evaluation.frameBase with
      | some base => exact raises_pushOn _
      | none =>
          refine raises_throw fun missing => ?_
          cases missing
          exact unasked (.frameBase offset)
  | callFrameCfa =>
      cases evaluation.cfa with
      | some cfa => exact raises_pushOn cfa
      | none =>
          refine raises_throw fun missing => ?_
          cases missing
          exact unasked .cfa
  | pick depth =>
      dsimp only
      cases stack[depth]? with
      | none => exact raises_underflow
      | some value => exact raises_pushOn value
  | drop =>
      obtain _ | ⟨_, stack⟩ := stack
      · exact raises_underflow
      · exact raises_pure _
  | swap =>
      obtain _ | ⟨_, _ | ⟨_, stack⟩⟩ := stack
      · exact raises_underflow
      · exact raises_underflow
      · exact raises_pure _
  | rotate =>
      obtain _ | ⟨_, _ | ⟨_, _ | ⟨_, stack⟩⟩⟩ := stack
      · exact raises_underflow
      · exact raises_underflow
      · exact raises_underflow
      · exact raises_pure _
  | deref size =>
      obtain _ | ⟨address, stack⟩ := stack
      · exact raises_underflow
      · exact (raises_readMemory (fun _ => nofun) address size).bind fun _ => raises_pushOn _
  | unary op =>
      obtain _ | ⟨_, stack⟩ := stack
      · exact raises_underflow
      · exact raises_pushOn _
  | binary op =>
      obtain _ | ⟨rhs, _ | ⟨lhs, stack⟩⟩ := stack
      · exact raises_underflow
      · exact raises_underflow
      · dsimp only
        cases op.apply encoding lhs rhs with
        | none => exact raises_throw nofun
        | some value => exact raises_pushOn value
  | branch displacement =>
      obtain _ | ⟨_, stack⟩ := stack
      · exact raises_underflow
      · dsimp only
        split
        next => exact raises_pure _
        next => exact raises_pure _
  | stackValue =>
      obtain _ | ⟨_, stack⟩ := stack
      · exact raises_underflow
      · exact raises_pure _
  | unsupported => exact raises_throw nofun
  | skip | nop | inRegister | implicitValue | piece => exact raises_pure _

theorem not_missing_of_obstacle {error : Error}
    (found : machine.obstacle? operation = some error) : ¬input.Missing error := by
  obtain ⟨_, rfl⟩ | rfl | rfl | rfl := obstacle_cases found
  all_goals exact nofun

theorem step_give (given : Option UInt64) (other : operation.opcode ≠ input.opcode) :
    machine.step (input.give evaluation given) encoding operation =
      machine.step evaluation encoding operation := by
  unfold step
  rw [execute_give given fun asked => other (EvaluationInput.opcode_of_asked asked)]

theorem raises_step (other : operation.opcode ≠ input.opcode) :
    (machine.step evaluation encoding operation).Raises (¬input.Missing ·) := by
  unfold step
  cases found : machine.obstacle? operation with
  | some error => exact raises_throw (not_missing_of_obstacle found)
  | none => exact raises_execute fun asked => other (EvaluationInput.opcode_of_asked asked)

theorem not_missing_of_location {error : Error} (failed : machine.location = .error error) :
    ¬input.Missing error := by
  unfold location at failed
  split at failed
  all_goals cases failed
  exact nofun

end Machine

/-! ## All operations of an expression -/

namespace LocationExpression

variable {expression : LocationExpression} {evaluation : Evaluation} {input : EvaluationInput}

theorem ne_of_mem_of_unused {opcode : Opcode} (unused : expression.uses opcode = false)
    {operation : Operation} (member : operation ∈ expression.operations) :
    operation.opcode ≠ opcode := by
  intro same
  have used : expression.uses opcode = true :=
    List.any_eq_true.mpr ⟨operation, member, beq_iff_eq.mpr same⟩
  rw [unused] at used
  cases used

theorem run_give (given : Option UInt64) (unused : expression.uses input.opcode = false)
    (budget : Nat) (operations : List Operation) (machine : Machine)
    (within : operations ⊆ expression.operations) :
    expression.run (input.give evaluation given) budget operations machine =
      expression.run evaluation budget operations machine := by
  induction budget generalizing operations machine with
  | zero =>
      cases operations with
      | nil => rfl
      | cons operation rest => cases input <;> rfl
  | succ budget ih =>
      cases operations with
      | nil => rfl
      | cons operation rest =>
          obtain ⟨member, later⟩ := List.cons_subset.mp within
          rw [run, run, Machine.step_give given (ne_of_mem_of_unused unused member)]
          refine bind_congr ?_
          rintro ⟨next, jump⟩
          cases jump with
          | none => exact ih rest next later
          | some displacement =>
              dsimp only
              cases found : expression.following operation displacement with
              | error error => rfl
              | ok following => exact ih following next (following_subset found)

theorem evaluate_give (given : Option UInt64) (unused : expression.uses input.opcode = false) :
    expression.evaluate (input.give evaluation given) = expression.evaluate evaluation := by
  have same := @run_give expression evaluation input given unused evaluation.budget
    expression.operations (.start evaluation) (List.Subset.refl _)
  cases input <;> exact same

theorem not_missing_of_following {operation : Operation} {displacement : Int64} {error : Error}
    (failed : expression.following operation displacement = .error error) :
    ¬input.Missing error := by
  unfold LocationExpression.following at failed
  dsimp only at failed
  split at failed
  next => cases failed
  next =>
    cases failed
    exact nofun

theorem raises_run (unused : expression.uses input.opcode = false) (budget : Nat)
    (operations : List Operation) (machine : Machine)
    (within : operations ⊆ expression.operations) :
    (expression.run evaluation budget operations machine).Raises (¬input.Missing ·) := by
  induction budget generalizing operations machine with
  | zero =>
      cases operations with
      | nil => exact raises_ofExcept fun _ => Machine.not_missing_of_location
      | cons operation rest => exact raises_throw nofun
  | succ budget ih =>
      cases operations with
      | nil => exact raises_ofExcept fun _ => Machine.not_missing_of_location
      | cons operation rest =>
          obtain ⟨member, later⟩ := List.cons_subset.mp within
          refine (Machine.raises_step (ne_of_mem_of_unused unused member)).bind ?_
          rintro ⟨next, jump⟩
          cases jump with
          | none => exact ih rest next later
          | some displacement =>
              dsimp only
              cases found : expression.following operation displacement with
              | error error => exact raises_throw (not_missing_of_following found)
              | ok following => exact ih following next (following_subset found)

theorem evaluate_ne_missing (unused : expression.uses input.opcode = false)
    (target : Option Target) {error : Error} (missing : input.Missing error) :
    ((expression.evaluate evaluation).run target).1 ≠ .error error := by
  intro failed
  exact raises_run unused _ _ _ (List.Subset.refl _) target #[] error _
    (Prod.ext failed rfl) missing

/-- An expression that does not use the frame base has the same outcome and makes the same reads
with every frame base and without one, and never fails for want of one; and so for the canonical
frame address. -/
theorem evaluate_unused (expression : LocationExpression) (evaluation : Evaluation)
    (target : Option Target) :
    (expression.usesFrameBase = false →
      (∀ first second : Option UInt64,
        (expression.evaluate { evaluation with frameBase := first }).run target =
          (expression.evaluate { evaluation with frameBase := second }).run target) ∧
      ∀ entry, ((expression.evaluate evaluation).run target).1 ≠
        .error (.missingFrameBase entry)) ∧
    (expression.usesCfa = false →
      (∀ first second : Option UInt64,
        (expression.evaluate { evaluation with cfa := first }).run target =
          (expression.evaluate { evaluation with cfa := second }).run target) ∧
      ∀ pc, ((expression.evaluate evaluation).run target).1 ≠ .error (.missingCfa pc)) := by
  constructor
  · intro unused
    have alike (given : Option UInt64) :
        expression.evaluate { evaluation with frameBase := given } =
          expression.evaluate evaluation :=
      @evaluate_give expression evaluation .frameBase given unused
    refine ⟨fun first second => by rw [alike first, alike second], fun entry => ?_⟩
    exact @evaluate_ne_missing expression evaluation .frameBase unused target _ (.frameBase entry)
  · intro unused
    have alike (given : Option UInt64) :
        expression.evaluate { evaluation with cfa := given } = expression.evaluate evaluation :=
      @evaluate_give expression evaluation .cfa given unused
    refine ⟨fun first second => by rw [alike first, alike second], fun pc => ?_⟩
    exact @evaluate_ne_missing expression evaluation .cfa unused target _ (.cfa pc)

/-- The loop that counts a register down uses neither input. -/
theorem evaluate_unused_countdown :
    countdown.usesFrameBase = false ∧ countdown.usesCfa = false ∧
      (countdown.evaluate { frameBase := some 0x1000 }).run
          (some ⟨fun _ => .ok 3, fun _ _ => .ok []⟩) =
        (countdown.evaluate { frameBase := none }).run
          (some ⟨fun _ => .ok 3, fun _ _ => .ok []⟩) ∧
      (countdown.evaluate { cfa := some 0x1000 }).run none =
        (countdown.evaluate { cfa := none }).run none ∧
      ((countdown.evaluate {}).run none).1 ≠ .error (.missingFrameBase 0) ∧
      ((countdown.evaluate {}).run none).1 ≠ .error (.missingCfa 0) := by
  have unbased : countdown.usesFrameBase = false := rfl
  have frameless : countdown.usesCfa = false := rfl
  obtain ⟨based, _⟩ :=
    evaluate_unused countdown {} (some ⟨fun _ => .ok 3, fun _ _ => .ok []⟩)
  obtain ⟨absent, framed⟩ := evaluate_unused countdown {} none
  exact ⟨unbased, frameless, (based unbased).1 (some 0x1000) none,
    (framed frameless).1 (some 0x1000) none, (absent unbased).2 0, (framed frameless).2 0⟩

end LocationExpression

end Dwarf
