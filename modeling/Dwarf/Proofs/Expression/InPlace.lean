import Dwarf.Proofs.Expression.Operands
import Dwarf.Proofs.Expression.Straight
import Dwarf.Proofs.Expression.Workspace

/-!
# Evaluation in place

An operation that is executed on a stack in place may ask for a value below the bottom, or find an
operand of another kind than its instruction is made of.  The table of signatures rules this out: what
is checked before an operation of a decoded expression is enough for its instruction.  So an
evaluation in place never faults, and it comes to what the evaluation comes to.
-/

namespace Dwarf

open Access

namespace Work

/-- Execute an instruction.  The answer tells whether to go on elsewhere. -/
def perform (evaluation : Evaluation) (encoding : Encoding) (operation : Operation) :
    Work (Option Int64) :=
  let pushOn := pushOn evaluation operation
  match operation.instruction encoding with
  | .constant value => pushOn value
  | .registerPlus register offset => do
    let base ← reading (Access.register register)
    pushOn (encoding.truncate (base + offset.toUInt64))
  | .frameBasePlus offset =>
    match evaluation.frameBase with
    | some base => pushOn (encoding.truncate (base + offset.toUInt64))
    | none => throw (.error (.missingFrameBase evaluation.entry))
  | .callFrameCfa =>
    match evaluation.cfa with
    | some cfa => pushOn cfa
    | none => throw (.error (.missingCfa evaluation.pc))
  | .pick depth => pick evaluation operation depth
  | .drop => do
    let _ ← pop
    return none
  | .swap => do
    rotate 2
    return none
  | .rotate => do
    rotate 3
    return none
  | .deref size => do
    let address ← pop
    pushOn (← reading (Machine.readMemory encoding address size))
  | .unary op => do
    pushOn (op.apply encoding (← pop))
  | .binary op => do
    let rhs ← pop
    let lhs ← pop
    match op.apply encoding lhs rhs with
    | some value => pushOn value
    | none => throw (.error (.divisionByZero operation.offset))
  | .skip displacement => return some displacement
  | .branch displacement => do
    if (← pop) = 0 then return none else return some displacement
  | .nop => return none
  | .inRegister register => do
    settle operation (.register register)
    return none
  | .stackValue => do
    settle operation (.value (← pop))
    return none
  | .implicitValue bytes => do
    settle operation (.bytes bytes)
    return none
  | .piece sizeBits bitOffset => do
    addPiece sizeBits bitOffset
    return none
  | .unsupported => throw (.error (.unsupportedOpcode operation.offset operation.opcode))

/-- Execute one operation, if there is no obstacle to it. -/
def step (evaluation : Evaluation) (encoding : Encoding) (operation : Operation) :
    Work (Option Int64) := do
  match (← get).machine.obstacle? operation with
  | some error => throw (.error error)
  | none =>
    if operation.operand.kind = operation.opcode.operandKind then
      perform evaluation encoding operation
    else throw .fault

/-- Execute operations with the budget that is left. -/
def run (expression : LocationExpression) (evaluation : Evaluation) :
    Nat → List Operation → Work Location
  | _, [] => do
    reading (Access.ofExcept (← get).machine.location)
  | 0, _ :: _ => throw (.error (.budgetExceeded evaluation.budget))
  | budget + 1, operation :: rest => do
    match ← step evaluation expression.encoding operation with
    | none => run expression evaluation budget rest
    | some displacement =>
      let following ← reading (Access.ofExcept (expression.following operation displacement))
      run expression evaluation budget following

variable {target : Option Target} {reads : Array TargetRead} {evaluation : Evaluation}
  {encoding : Encoding} {operation : Operation} {machine : Machine}

/-! ## One instruction -/

/-- The error of an operation that asks for more values than there are. -/
def IsUnderflow (error : Error) : Prop :=
  ∃ offset opcode, error = .stackUnderflow offset opcode

theorem resume_pick {depth : Nat} {value : UInt64} (found : machine.stack[depth]? = some value) :
    (pick evaluation operation depth).resume target (machine.laid reads) =
      (pushOn evaluation operation value).resume target (machine.laid reads) := by
  have within := (List.getElem?_eq_some_iff.mp found).1
  rw [pick, resume_get_bind, Machine.laid_values_length, if_neg fun short => Nat.not_le_of_lt within short.2,
    resume_bind, resume_peek found]

/-- Where the stack holds what an instruction takes, it is executed in place without a fault, and it
does not underflow. -/
theorem mirrors_perform
    (deep : (operation.instruction encoding).reach ≤ machine.stack.length) :
    Mirrors (¬IsUnderflow ·) target (machine.laid reads) (perform evaluation encoding operation)
      (machine.execute evaluation encoding operation) := by
  obtain ⟨stack, pending, pieces⟩ := machine
  have pushes (stack : List UInt64) (reads : Array TargetRead) (value : UInt64) :
      Mirrors (¬IsUnderflow ·) target ((⟨stack, pending, pieces⟩ : Machine).laid reads)
        (pushOn evaluation operation value)
        ((⟨stack, pending, pieces⟩ : Machine).pushOn evaluation operation value) :=
    mirrors_pushOn (fun _ _ => nofun) value
  unfold perform Machine.execute
  dsimp only
  generalize operation.instruction encoding = instruction at deep
  cases instruction with
  | constant value => exact pushes stack reads value
  | registerPlus register offset =>
      exact mirrors_reading (raises_register (fun _ => nofun) register) fun base later =>
        pushes stack later _
  | frameBasePlus offset =>
      cases evaluation.frameBase with
      | none => exact mirrors_throw nofun
      | some base => exact pushes stack reads _
  | callFrameCfa =>
      cases evaluation.cfa with
      | none => exact mirrors_throw nofun
      | some cfa => exact pushes stack reads cfa
  | pick depth =>
      have found : stack[depth]? = some stack[depth] := List.getElem?_eq_getElem deep
      dsimp only
      rw [found]
      unfold Mirrors
      rw [resume_pick found]
      exact pushes stack reads _
  | drop =>
      obtain _ | ⟨top, stack⟩ := stack
      · cases deep
      · exact mirrors_pop (mirrors_goOn rfl)
  | swap =>
      obtain _ | ⟨top, _ | ⟨second, stack⟩⟩ := stack
      · cases deep
      · exact absurd (show 2 ≤ 1 from deep) (by decide)
      · exact mirrors_change (resume_rotate [top, second] [second, top] rfl)
  | rotate =>
      obtain _ | ⟨top, _ | ⟨second, _ | ⟨third, stack⟩⟩⟩ := stack
      · cases deep
      · exact absurd (show 3 ≤ 1 from deep) (by decide)
      · exact absurd (show 3 ≤ 2 from deep) (by decide)
      · exact mirrors_change (resume_rotate [top, second, third] [second, third, top] rfl)
  | deref size =>
      obtain _ | ⟨address, stack⟩ := stack
      · cases deep
      · exact mirrors_pop (mirrors_reading (Machine.raises_readMemory (fun _ => nofun) address size)
          fun value later => pushes stack later value)
  | unary op =>
      obtain _ | ⟨value, stack⟩ := stack
      · cases deep
      · exact mirrors_pop (pushes stack reads _)
  | binary op =>
      obtain _ | ⟨rhs, _ | ⟨lhs, stack⟩⟩ := stack
      · cases deep
      · exact absurd (show 2 ≤ 1 from deep) (by decide)
      · refine mirrors_pop (mirrors_pop ?_)
        dsimp only
        cases op.apply encoding lhs rhs with
        | none => exact mirrors_throw nofun
        | some value => exact pushes stack reads value
  | skip displacement => exact mirrors_goOn rfl
  | branch displacement =>
      obtain _ | ⟨condition, stack⟩ := stack
      · cases deep
      · refine mirrors_pop ?_
        dsimp only
        by_cases zero : condition = 0
        · rw [if_pos zero, if_pos zero]
          exact mirrors_goOn rfl
        · rw [if_neg zero, if_neg zero]
          exact mirrors_goOn rfl
  | nop => exact mirrors_goOn rfl
  | inRegister register => exact mirrors_goOn rfl
  | stackValue =>
      obtain _ | ⟨value, stack⟩ := stack
      · cases deep
      · exact mirrors_pop (mirrors_goOn rfl)
  | implicitValue bytes => exact mirrors_goOn rfl
  | piece sizeBits bitOffset => exact mirrors_change (resume_addPiece sizeBits bitOffset _)
  | unsupported => exact mirrors_throw nofun

theorem resume_perform_pick (picks : operation.opcode = .pick)
    (beyond : machine.stack.length ≤ operation.operand.toUnsigned.toNat) :
    (perform evaluation encoding operation).resume target (machine.laid reads) =
      (.error (.error (Machine.underflow operation)), machine.laid reads) := by
  unfold perform
  rw [instruction_pick picks encoding]
  dsimp only
  rw [pick, resume_get_bind, Machine.laid_values_length, if_pos ⟨picks, beyond⟩]
  rfl

/-! ## One operation -/

/-- The stack holds fewer values than an operation has to find there, or not the one that it asks for
by its depth. -/
def Short (machine : Machine) (operation : Operation) (signature : Signature) : Prop :=
  machine.stack.length < signature.pops ∨
    operation.opcode = .pick ∧ machine.stack.length ≤ operation.operand.toUnsigned.toNat

variable {signature : Signature}

theorem reach_le (signed : operation.opcode.signature? = some signature)
    (deep : ¬Short machine operation signature) :
    (operation.instruction encoding).reach ≤ machine.stack.length := by
  by_cases picks : operation.opcode = .pick
  · rw [instruction_pick picks encoding]
    exact Nat.lt_of_not_le fun beyond => deep (.inr ⟨picks, beyond⟩)
  · have table := reach_le_pops signed picks encoding
    exact table.trans (Nat.le_of_not_lt fun shallow => deep (.inl shallow))

theorem resume_step (typed : machine.obstacle? operation = none →
      operation.operand.kind = operation.opcode.operandKind) :
    (step evaluation encoding operation).resume target (machine.laid reads) =
      match machine.obstacle? operation with
      | some error => (.error (.error error), machine.laid reads)
      | none => (perform evaluation encoding operation).resume target (machine.laid reads) := by
  rw [step, resume_get_bind, Machine.laid_machine]
  cases clear : machine.obstacle? operation with
  | some error => rfl
  | none =>
      dsimp only
      rw [if_pos (typed clear)]

section

variable (typed : operation.operand.kind = operation.opcode.operandKind)
  (signed : operation.opcode.signature? = some signature) (supported : signature.supported = true)
  (free : machine.pending = none ∨ Machine.isPiece operation = true)

include typed signed supported free

theorem step_of_short (short : Short machine operation signature) :
    (step evaluation encoding operation).resume target (machine.laid reads) =
      (.error (.error (Machine.underflow operation)), machine.laid reads) := by
  rw [resume_step fun _ => typed, Machine.obstacle?_of_supported free signed supported]
  by_cases shallow : machine.stack.length < signature.pops
  · rw [if_pos shallow]
  · rw [if_neg shallow]
    obtain ⟨picks, beyond⟩ := short.resolve_left shallow
    exact resume_perform_pick picks beyond

theorem mirrors_step_of_deep (deep : ¬Short machine operation signature) :
    Mirrors (¬IsUnderflow ·) target (machine.laid reads) (step evaluation encoding operation)
      (machine.step evaluation encoding operation) := by
  have clear : machine.obstacle? operation = none := by
    rw [Machine.obstacle?_of_supported free signed supported,
      if_neg fun shallow => deep (.inl shallow)]
  have performed := @mirrors_perform target reads evaluation encoding operation machine
    (reach_le signed deep)
  unfold Mirrors at performed ⊢
  rw [resume_step fun _ => typed, Machine.step, clear]
  exact performed

end

/-- In every state, an operation whose operand is of its kind does in place what it does to the
machine. -/
theorem mirrors_step (typed : ∀ signature, operation.opcode.signature? = some signature →
      signature.supported = true → operation.operand.kind = operation.opcode.operandKind) :
    Mirrors (fun _ => True) target (machine.laid reads) (step evaluation encoding operation)
      (machine.step evaluation encoding operation) := by
  cases found : machine.obstacle? operation with
  | some error =>
      have stopped := @resume_step target reads evaluation encoding operation machine
        fun clear => nomatch found.symm.trans clear
      unfold Mirrors
      rw [stopped, Machine.step, found]
      exact ⟨trivial, _, rfl, rfl⟩
  | none =>
      obtain ⟨free, signature, signed, supported, enough⟩ := Machine.supported_of_clear found
      have kind := typed signature signed supported
      by_cases short : Short machine operation signature
      · obtain ⟨picks, beyond⟩ := short.resolve_left (Nat.not_lt_of_le enough)
        have missing : machine.stack[operation.operand.toUnsigned.toNat]? = none :=
          List.getElem?_eq_none beyond
        have stopped := @step_of_short target reads evaluation encoding operation machine signature
          kind signed supported free short
        unfold Mirrors
        rw [stopped, Machine.step, found, Machine.execute, instruction_pick picks encoding]
        dsimp only
        rw [missing]
        exact ⟨trivial, _, rfl, rfl⟩
      · exact (mirrors_step_of_deep kind signed supported free short).mono fun _ _ => trivial

/-! ## Whole evaluations -/

theorem resume_run_nil (expression : LocationExpression) (budget : Nat) :
    ∃ left, (run expression evaluation budget []).resume target (machine.laid reads) =
        (((expression.run evaluation budget [] machine).resume target reads).1.mapError .error,
          left) ∧
      left.reads = ((expression.run evaluation budget [] machine).resume target reads).2 := by
  cases budget with
  | zero =>
      rw [run, resume_get_bind, Machine.laid_machine]
      exact ⟨_, rfl, rfl⟩
  | succ budget =>
      rw [run, resume_get_bind, Machine.laid_machine]
      exact ⟨_, rfl, rfl⟩

/-- What is left of an evaluation comes to the same in place. -/
theorem resume_run {bytes : List UInt8} {expression : LocationExpression}
    (decoded : LocationExpression.decode bytes encoding = .ok expression) (budget : Nat)
    {operations : List Operation} (suffix : operations <:+ expression.operations)
    (machine : Machine) (reads : Array TargetRead) :
    ∃ left, (run expression evaluation budget operations).resume target (machine.laid reads) =
        (((expression.run evaluation budget operations machine).resume target reads).1.mapError .error,
          left) ∧
      left.reads = ((expression.run evaluation budget operations machine).resume target reads).2 := by
  induction budget generalizing operations machine reads with
  | zero =>
      cases operations with
      | nil => exact resume_run_nil expression 0
      | cons operation rest => exact ⟨_, rfl, rfl⟩
  | succ budget ih =>
      cases operations with
      | nil => exact resume_run_nil expression (budget + 1)
      | cons operation rest =>
          have mirrors := @mirrors_step target reads evaluation expression.encoding operation machine
            fun signature signed supported => LocationExpression.kind_of_decode decoded
              (suffix.subset List.mem_cons_self) signed supported
          rw [run, LocationExpression.run, resume_bind, Access.resume_bind]
          rcases stepped : (machine.step evaluation expression.encoding operation).resume target reads
            with ⟨error | ⟨next, jump⟩, later⟩
          · obtain ⟨_, left, worked, same⟩ := mirrors.of_error stepped
            rw [worked]
            exact ⟨left, rfl, same⟩
          · rw [mirrors.of_ok stepped]
            cases jump with
            | none => exact ih ((List.suffix_cons operation rest).trans suffix) next later
            | some displacement =>
                dsimp only
                rw [Access.resume_bind, resume_bind, resume_reading, Access.resume_ofExcept]
                cases found : expression.following operation displacement with
                | error error => exact ⟨_, rfl, rfl⟩
                | ok following => exact ih (LocationExpression.following_suffix found) next later

/-- What the checks before an operation are worth in a state and after some reads.  With them passed,
the operand is of the kind that the instruction is made of, and the instruction does not fault. -/
structure Guarded (evaluation : Evaluation) (encoding : Encoding) (target : Option Target)
    (operation : Operation) (signature : Signature) (machine : Machine)
    (reads : Array TargetRead) : Prop where
  typed : operation.operand.kind = operation.opcode.operandKind
  /-- The instruction is made of nothing else. -/
  made : ∀ other : Operand,
    other.part operation.opcode.operandKind = operation.operand.part operation.opcode.operandKind →
      Operation.instruction { operation with operand := other } encoding =
        operation.instruction encoding
  faultless : signature.pops ≤ machine.stack.length →
    ((perform evaluation encoding operation).resume target (machine.laid reads)).1 ≠ .error .fault
  underflows_iff : (∃ error, IsUnderflow error ∧
      ((step evaluation encoding operation).resume target (machine.laid reads)).1 =
        .error (.error error)) ↔ Short machine operation signature
  untouched : Short machine operation signature →
    (step evaluation encoding operation).resume target (machine.laid reads) =
      (.error (.error (Machine.underflow operation)), machine.laid reads)
  mirrors : Mirrors (fun _ => True) target (machine.laid reads) (step evaluation encoding operation)
    (machine.step evaluation encoding operation)

theorem guarded_of_typed (typed : operation.operand.kind = operation.opcode.operandKind)
    (signed : operation.opcode.signature? = some signature) (supported : signature.supported = true)
    (free : machine.pending = none ∨ Machine.isPiece operation = true) :
    Guarded evaluation encoding target operation signature machine reads where
  typed := typed
  made other same := operation.instruction_congr encoding same
  faultless enough := by
    by_cases short : Short machine operation signature
    · obtain ⟨picks, beyond⟩ := short.resolve_left (Nat.not_lt_of_le enough)
      rw [resume_perform_pick picks beyond]
      exact nofun
    · exact (mirrors_perform (reach_le signed short)).faultless
  underflows_iff := by
    constructor
    · rintro ⟨error, underflows, failed⟩
      by_contra deep
      exact (mirrors_step_of_deep typed signed supported free deep).caused failed underflows
    · intro short
      refine ⟨Machine.underflow operation, ⟨_, _, rfl⟩, ?_⟩
      rw [step_of_short typed signed supported free short]
  untouched := step_of_short typed signed supported free
  mirrors := mirrors_step fun _ _ _ => typed

/-- The table of signatures guards the instructions.  For every operation of a decoded expression that
can be evaluated and every state in which it may follow, whether an evaluation comes to it or not: the
operand is of the kind that the instruction is made of, and with as many values as the table says the
instruction takes none from below the bottom of the stack.  The operation underflows just if there are
fewer values, or if it asks for a depth that there is not, and then it has changed nothing and read
nothing.  So the whole evaluation in place never faults, and it comes to the same after the same
reads. -/
theorem signatures_guard_stack {bytes : List UInt8} {expression : LocationExpression}
    (decoded : LocationExpression.decode bytes encoding = .ok expression) (evaluation : Evaluation)
    (target : Option Target) :
    (∀ operation ∈ expression.operations, ∀ signature,
      operation.opcode.signature? = some signature → signature.supported = true →
        ∀ machine : Machine, machine.pending = none ∨ Machine.isPiece operation = true → ∀ reads,
          Guarded evaluation expression.encoding target operation signature machine reads) ∧
      ∃ left, (run expression evaluation evaluation.budget expression.operations).resume target
            ((Machine.start evaluation).laid #[]) =
          (((expression.evaluate evaluation).run target).1.mapError .error, left) ∧
        left.reads = ((expression.evaluate evaluation).run target).2 := by
  constructor
  · intro operation member signature signed supported machine free reads
    have typed := LocationExpression.kind_of_decode decoded member signed supported
    exact guarded_of_typed typed signed supported free
  · exact resume_run decoded evaluation.budget (List.suffix_refl _) (.start evaluation) #[]

/-- Two values on the stack, and the operation that asks for the third of them: it underflows and
leaves the stack as it is, while with three values it finds the one at the bottom. -/
theorem signatures_guard_stack_pick :
    LocationExpression.decode [0x15, 0x02] {} = .ok ⟨[0x15, 0x02], [⟨0, .pick, .unsigned 2⟩], {}⟩ ∧
      (step {} {} ⟨0, .pick, .unsigned 2⟩).resume none (Machine.laid ⟨[8, 7], none, []⟩ #[]) =
        (.error (.error (.stackUnderflow 0 .pick)), ⟨[7, 8], none, [], #[]⟩) ∧
      (step {} {} ⟨0, .pick, .unsigned 2⟩).resume none (Machine.laid ⟨[9, 8, 7], none, []⟩ #[]) =
        (.ok none, ⟨[7, 8, 9, 7], none, [], #[]⟩) := by
  have decoded : LocationExpression.decode [0x15, 0x02] {} =
      .ok ⟨[0x15, 0x02], [⟨0, .pick, .unsigned 2⟩], {}⟩ := by decide +kernel
  obtain ⟨guarded, _⟩ := signatures_guard_stack decoded {} none
  have table : Opcode.signature? .pick = some ⟨.u8, 0, true⟩ := by decide
  have shallow := guarded _ List.mem_cons_self _ table rfl ⟨[8, 7], none, []⟩ (.inl rfl) #[]
  have deep := guarded _ List.mem_cons_self _ table rfl ⟨[9, 8, 7], none, []⟩ (.inl rfl) #[]
  have found : ((⟨[9, 8, 7], none, []⟩ : Machine).step {} {} ⟨0, .pick, .unsigned 2⟩).resume none #[] =
      (.ok (⟨[7, 9, 8, 7], none, []⟩, none), #[]) := by decide +kernel
  exact ⟨decoded, shallow.untouched (.inr ⟨rfl, by decide⟩), deep.mirrors.of_ok found⟩

end Work

end Dwarf
