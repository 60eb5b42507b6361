import Dwarf.Expression.Machine
import Dwarf.Proofs.Access

/-!
# The effect of one operation

Whichever operation it is, executing it comes to one of five things.  It fails, it goes on in another
state, or it pushes a value, which it may have computed from a register or read from memory before.
So an operation reads the target at most once, and nothing but the push looks at the limits of the
evaluation.
-/

namespace Dwarf

/-- The errors of an evaluation that comes to its limits. -/
inductive Error.Limit : Error → Prop where
  | budget (count : Nat) : Limit (.budgetExceeded count)
  | stack (offset limit : Nat) : Limit (.stackOverflow offset limit)

namespace Machine

/-- What executing an operation comes to. -/
inductive Effect where
  | fail (error : Error) (unlimited : ¬error.Limit)
  /-- Go on in another state, here or at a displacement. -/
  | goOn (next : Machine) (jump : Option Int64)
  /-- Push a value on what is kept of the stack. -/
  | push (kept : Machine) (value : UInt64)
  /-- Push what is computed from the value of a register. -/
  | register (kept : Machine) (number : Nat) (value : UInt64 → UInt64)
  /-- Push the number that is stored in memory. -/
  | memory (kept : Machine) (address : UInt64) (size : Nat)

variable {evaluation : Evaluation} {encoding : Encoding} {operation : Operation}
  {machine : Machine}

/-- Push a value and go on behind the operation. -/
def pushOn (machine : Machine) (evaluation : Evaluation) (operation : Operation) (value : UInt64) :
    Access (Machine × Option Int64) := do
  return (← machine.push evaluation operation value, none)

/-- Have an effect, within the limits of an evaluation. -/
def Effect.perform (evaluation : Evaluation) (encoding : Encoding) (operation : Operation) :
    Effect → Access (Machine × Option Int64)
  | .fail error _ => throw error
  | .goOn next jump => return (next, jump)
  | .push kept value => kept.pushOn evaluation operation value
  | .register kept number value => do
    kept.pushOn evaluation operation (value (← Access.register number))
  | .memory kept address size => do
    kept.pushOn evaluation operation (← readMemory encoding address size)

/-- The computation has one effect, whatever the limits of the evaluation. -/
def HasEffect (evaluation : Evaluation) (encoding : Encoding) (operation : Operation)
    (computation : Evaluation → Access (Machine × Option Int64)) : Prop :=
  ∃ effect : Effect, ∀ budget stackLimit,
    computation { evaluation with budget, stackLimit } =
      effect.perform { evaluation with budget, stackLimit } encoding operation

theorem hasEffect_fail {error : Error} (unlimited : ¬error.Limit) :
    HasEffect evaluation encoding operation fun _ => throw error :=
  ⟨.fail error unlimited, fun _ _ => rfl⟩

theorem hasEffect_underflow :
    HasEffect evaluation encoding operation fun _ => throw (underflow operation) :=
  hasEffect_fail nofun

theorem hasEffect_goOn (next : Machine) (jump : Option Int64) :
    HasEffect evaluation encoding operation fun _ => pure (next, jump) :=
  ⟨.goOn next jump, fun _ _ => rfl⟩

theorem hasEffect_push (kept : Machine) (value : UInt64) :
    HasEffect evaluation encoding operation fun limits =>
      kept.pushOn limits operation value :=
  ⟨.push kept value, fun _ _ => rfl⟩

theorem hasEffect_execute (machine : Machine) (evaluation : Evaluation) (encoding : Encoding)
    (operation : Operation) :
    HasEffect evaluation encoding operation fun limits =>
      machine.execute limits encoding operation := by
  obtain ⟨stack, pending, pieces⟩ := machine
  unfold HasEffect execute
  dsimp only
  generalize operation.instruction encoding = instruction
  cases instruction with
  | constant value => exact hasEffect_push _ value
  | registerPlus register offset =>
      exact ⟨.register _ register fun base => encoding.truncate (base + offset.toUInt64),
        fun _ _ => rfl⟩
  | frameBasePlus offset =>
      cases evaluation.frameBase with
      | none => exact @hasEffect_fail evaluation _ _ _ nofun
      | some base => exact @hasEffect_push evaluation _ _ _ _
  | callFrameCfa =>
      cases evaluation.cfa with
      | none => exact @hasEffect_fail evaluation _ _ _ nofun
      | some cfa => exact @hasEffect_push evaluation _ _ _ cfa
  | pick depth =>
      dsimp only
      cases stack[depth]? with
      | none => exact hasEffect_underflow
      | some value => exact hasEffect_push _ value
  | drop =>
      obtain _ | ⟨_, stack⟩ := stack
      · exact hasEffect_underflow
      · exact hasEffect_goOn _ _
  | swap =>
      obtain _ | ⟨_, _ | ⟨_, stack⟩⟩ := stack
      · exact hasEffect_underflow
      · exact hasEffect_underflow
      · exact hasEffect_goOn _ _
  | rotate =>
      obtain _ | ⟨_, _ | ⟨_, _ | ⟨_, stack⟩⟩⟩ := stack
      · exact hasEffect_underflow
      · exact hasEffect_underflow
      · exact hasEffect_underflow
      · exact hasEffect_goOn _ _
  | deref size =>
      obtain _ | ⟨address, stack⟩ := stack
      · exact hasEffect_underflow
      · exact ⟨.memory _ address size, fun _ _ => rfl⟩
  | unary op =>
      obtain _ | ⟨_, stack⟩ := stack
      · exact hasEffect_underflow
      · exact hasEffect_push _ _
  | binary op =>
      obtain _ | ⟨rhs, _ | ⟨lhs, stack⟩⟩ := stack
      · exact hasEffect_underflow
      · exact hasEffect_underflow
      · dsimp only
        cases op.apply encoding lhs rhs with
        | none => exact hasEffect_fail nofun
        | some value => exact hasEffect_push _ value
  | skip displacement => exact hasEffect_goOn _ _
  | branch displacement =>
      obtain _ | ⟨_, stack⟩ := stack
      · exact hasEffect_underflow
      · dsimp only
        split
        next => exact hasEffect_goOn _ _
        next => exact hasEffect_goOn _ _
  | nop => exact hasEffect_goOn _ _
  | inRegister register => exact hasEffect_goOn _ _
  | stackValue =>
      obtain _ | ⟨_, stack⟩ := stack
      · exact hasEffect_underflow
      · exact hasEffect_goOn _ _
  | implicitValue bytes => exact hasEffect_goOn _ _
  | piece sizeBits bitOffset => exact hasEffect_goOn _ _
  | unsupported => exact hasEffect_fail nofun

/-- What may stand in the way of an operation is one of four things. -/
theorem obstacle_cases {error : Error} (found : machine.obstacle? operation = some error) :
    (∃ offset, error = .invalidTerminator offset) ∨
      error = .unknownOpcode operation.offset operation.opcode ∨
      error = .unsupportedOpcode operation.offset operation.opcode ∨
      error = underflow operation := by
  unfold obstacle? at found
  split at found
  · cases found
    exact .inl ⟨_, rfl⟩
  · split at found
    · cases found
      exact .inr (.inl rfl)
    · split at found
      · cases found
        exact .inr (.inr (.inl rfl))
      · split at found
        · cases found
          exact .inr (.inr (.inr rfl))
        · cases found

theorem unlimited_of_obstacle {error : Error}
    (found : machine.obstacle? operation = some error) : ¬error.Limit := by
  obtain ⟨_, rfl⟩ | rfl | rfl | rfl := obstacle_cases found
  all_goals exact nofun

/-- A step has one effect, whatever the limits of the evaluation. -/
theorem hasEffect_step (machine : Machine) (evaluation : Evaluation) (encoding : Encoding)
    (operation : Operation) :
    HasEffect evaluation encoding operation fun limits =>
      machine.step limits encoding operation := by
  unfold step
  cases found : machine.obstacle? operation with
  | none => exact hasEffect_execute machine evaluation encoding operation
  | some error => exact hasEffect_fail (unlimited_of_obstacle found)

theorem exists_effect (machine : Machine) (evaluation : Evaluation) (encoding : Encoding)
    (operation : Operation) :
    ∃ effect : Effect, machine.step evaluation encoding operation =
      effect.perform evaluation encoding operation :=
  let ⟨effect, same⟩ := hasEffect_step machine evaluation encoding operation
  ⟨effect, same evaluation.budget evaluation.stackLimit⟩

end Machine

end Dwarf
