import Dwarf.Proofs.Expression.BitMachine
import Dwarf.Proofs.Expression.Observation

/-!
# Evaluation at the width of an address

The evaluator keeps bit-vectors in words.  One operation at a time it does what the machine over
bit-vectors does, so it ends with the same location or with the same error at the same operation,
and it reads nothing of the target.
-/

namespace Dwarf

open Word

/-- The opcodes that need nothing but the stack, apart from the literals. -/
def Opcode.computing : List Opcode :=
  [.addr, .const1u, .const1s, .const2u, .const2s, .const4u, .const4s, .const8u, .const8s, .constu,
    .consts, .dup, .drop, .dupSecond, .pick, .swap, .rot, .abs, .and, .div, .minus, .mod, .mul,
    .neg, .not, .or, .plus, .plusUconst, .shl, .shr, .shra, .xor, .bra, .eq, .ge, .gt, .le, .lt,
    .ne, .skip, .nop, .stackValue]

/-- An operation that needs nothing but the stack. -/
def Operation.Computes (operation : Operation) : Prop :=
  operation.opcode ∈ Opcode.computing ∨ ∃ number, operation.opcode.series? = some (.literal, number)

/-- The number of values that an action takes or looks at. -/
def BitAction.needs {width : Nat} : BitAction width → Nat
  | .copy depth => depth + 1
  | .drop | .unary _ | .branch | .answer => 1
  | .swap | .binary _ => 2
  | .rotate => 3
  | .push _ | .skip | .nop => 0

/-- An instruction does with words what an action does with the bit-vectors in them. -/
inductive Implements (encoding : Encoding) (operation : Operation) :
    Instruction → BitAction encoding.width → Prop where
  | push {value : UInt64} {bits : BitVec encoding.width} (same : value = ofBits bits) :
      Implements encoding operation (.constant value) (.push bits)
  | copy (depth : Nat) : Implements encoding operation (.pick depth) (.copy depth)
  | drop : Implements encoding operation .drop .drop
  | swap : Implements encoding operation .swap .swap
  | rotate : Implements encoding operation .rotate .rotate
  | unary {op : UnaryOp} {f : BitVec encoding.width → BitVec encoding.width}
      (same : ∀ x, op.apply encoding (ofBits x) = ofBits (f x)) :
      Implements encoding operation (.unary op) (.unary f)
  | binary {op : BinaryOp}
      {f : BitVec encoding.width → BitVec encoding.width → Option (BitVec encoding.width)}
      (same : ∀ x y, op.apply encoding (ofBits x) (ofBits y) = (f x y).map ofBits) :
      Implements encoding operation (.binary op) (.binary f)
  | skip : Implements encoding operation (.skip operation.operand.toSigned) .skip
  | branch : Implements encoding operation (.branch operation.operand.toSigned) .branch
  | nop : Implements encoding operation .nop .nop
  | answer : Implements encoding operation .stackValue .answer

/-- An operation that both machines know. -/
structure Understood (encoding : Encoding) (operation : Operation)
    (action : BitAction encoding.width) : Prop where
  known : BitAction.of? encoding.width operation = some action
  implements : Implements encoding operation (operation.instruction encoding) action
  allowed : operation.opcode.signature?.any
    (fun signature => signature.supported && signature.pops ≤ action.needs) = true
  piece : Machine.isPiece operation = false

variable {encoding : Encoding} {operation : Operation}

/-! ## Constants -/

theorem truncate_unsigned (sized : encoding.Sized) (value : UInt64) :
    encoding.truncate value = ofBits (BitVec.ofNat encoding.width value.toNat) := by
  rw [Encoding.truncate_eq sized, ← UInt64.toNat_toBitVec, BitVec.ofNat_toNat]

theorem truncate_signed (sized : encoding.Sized) (value : Int64) :
    encoding.truncate value.toUInt64 = ofBits (BitVec.ofInt encoding.width value.toInt) := by
  refine Encoding.truncate_ofBits sized (BitVec.eq_of_toInt_eq ?_)
  rw [Encoding.setWidth_toInt sized.width_le, Int64.toBitVec_toUInt64, Int64.toInt_toBitVec,
    BitVec.toInt_ofInt]

theorem ofBits_literal (sized : encoding.Sized) {number : Nat} (small : number < 32) :
    UInt64.ofNat number = ofBits (BitVec.ofNat encoding.width number) := by
  rw [← UInt64.toNat_inj, ofBits_toNat sized, BitVec.toNat_ofNat, UInt64.toNat_ofNat',
    Nat.mod_eq_of_lt (Nat.lt_trans small (by decide)),
    Nat.mod_eq_of_lt (Nat.lt_of_lt_of_le small sized.literals_fit)]

/-! ## One operation -/

theorem implements_divide {op : BinaryOp}
    {f : BitVec encoding.width → BitVec encoding.width → BitVec encoding.width}
    (same : ∀ x y, op.apply encoding (ofBits x) (ofBits y) =
      if y = 0 then none else some (ofBits (f x y))) :
    Implements encoding operation (.binary op) (.divide f) := by
  refine .binary fun x y => (same x y).trans ?_
  split <;> rfl

theorem implements_test (sized : encoding.Sized) {op : BinaryOp}
    {holds : BitVec encoding.width → BitVec encoding.width → Bool}
    (same : ∀ x y, op.apply encoding (ofBits x) (ofBits y) = some (BinaryOp.truth (holds x y))) :
    Implements encoding operation (.binary op) (.test holds) := by
  refine .binary fun x y => (same x y).trans ?_
  rw [truth_eq sized]
  rfl

theorem understood_literal (sized : encoding.Sized) {number : Nat}
    (literal : operation.opcode.series? = some (.literal, number)) :
    Understood encoding operation (.push (BitVec.ofNat encoding.width number)) where
  known := by simp only [BitAction.of?, literal]
  implements := by
    simp only [Operation.instruction, literal]
    exact .push (ofBits_literal sized (Operation.series_lt literal))
  allowed := by
    simp only [Opcode.signature?, literal]
    rfl
  piece := by
    have other {opcode : Opcode} (unseries : opcode.series? = none) :
        operation.opcode ≠ opcode := by
      rintro same
      rw [same, unseries] at literal
      cases literal
    have not_piece : operation.opcode ≠ .piece := other rfl
    have not_bitPiece : operation.opcode ≠ .bitPiece := other rfl
    simp [Machine.isPiece, not_piece, not_bitPiece]

theorem understood (sized : encoding.Sized) (computes : operation.Computes) :
    ∃ action, Understood encoding operation action := by
  obtain member | ⟨number, literal⟩ := computes
  · obtain ⟨offset, opcode, operand⟩ := operation
    simp only [Opcode.computing, List.mem_cons, List.not_mem_nil, or_false] at member
    rcases member with rfl | rfl | rfl | rfl | rfl | rfl | rfl | rfl | rfl | rfl | rfl | rfl |
      rfl | rfl | rfl | rfl | rfl | rfl | rfl | rfl | rfl | rfl | rfl | rfl | rfl | rfl | rfl |
      rfl | rfl | rfl | rfl | rfl | rfl | rfl | rfl | rfl | rfl | rfl | rfl | rfl | rfl | rfl
    · exact ⟨_, rfl, .push (truncate_unsigned sized _), rfl, rfl⟩
    · exact ⟨_, rfl, .push (truncate_unsigned sized _), rfl, rfl⟩
    · exact ⟨_, rfl, .push (truncate_signed sized _), rfl, rfl⟩
    · exact ⟨_, rfl, .push (truncate_unsigned sized _), rfl, rfl⟩
    · exact ⟨_, rfl, .push (truncate_signed sized _), rfl, rfl⟩
    · exact ⟨_, rfl, .push (truncate_unsigned sized _), rfl, rfl⟩
    · exact ⟨_, rfl, .push (truncate_signed sized _), rfl, rfl⟩
    · exact ⟨_, rfl, .push (truncate_unsigned sized _), rfl, rfl⟩
    · exact ⟨_, rfl, .push (truncate_signed sized _), rfl, rfl⟩
    · exact ⟨_, rfl, .push (truncate_unsigned sized _), rfl, rfl⟩
    · exact ⟨_, rfl, .push (truncate_signed sized _), rfl, rfl⟩
    · exact ⟨_, rfl, .copy 0, rfl, rfl⟩
    · exact ⟨_, rfl, .drop, rfl, rfl⟩
    · exact ⟨_, rfl, .copy 1, rfl, rfl⟩
    · exact ⟨_, rfl, .copy _, rfl, rfl⟩
    · exact ⟨_, rfl, .swap, rfl, rfl⟩
    · exact ⟨_, rfl, .rotate, rfl, rfl⟩
    · exact ⟨_, rfl, .unary (apply_abs sized), rfl, rfl⟩
    · exact ⟨_, rfl, .binary (apply_and sized), rfl, rfl⟩
    · exact ⟨_, rfl, implements_divide (apply_div sized), rfl, rfl⟩
    · exact ⟨_, rfl, .binary (apply_minus sized), rfl, rfl⟩
    · exact ⟨_, rfl, implements_divide (apply_mod sized), rfl, rfl⟩
    · exact ⟨_, rfl, .binary (apply_mul sized), rfl, rfl⟩
    · exact ⟨_, rfl, .unary (apply_neg sized), rfl, rfl⟩
    · exact ⟨_, rfl, .unary (apply_not sized), rfl, rfl⟩
    · exact ⟨_, rfl, .binary (apply_or sized), rfl, rfl⟩
    · exact ⟨_, rfl, .binary (apply_plus sized), rfl, rfl⟩
    · exact ⟨_, rfl, .unary (apply_plus_constant sized _), rfl, rfl⟩
    · exact ⟨_, rfl, .binary (apply_shl sized), rfl, rfl⟩
    · exact ⟨_, rfl, .binary (apply_shr sized), rfl, rfl⟩
    · exact ⟨_, rfl, .binary (apply_shra sized), rfl, rfl⟩
    · exact ⟨_, rfl, .binary (apply_xor sized), rfl, rfl⟩
    · exact ⟨_, rfl, .branch, rfl, rfl⟩
    · exact ⟨_, rfl, implements_test sized (apply_eq sized), rfl, rfl⟩
    · exact ⟨_, rfl, implements_test sized (apply_ge sized), rfl, rfl⟩
    · exact ⟨_, rfl, implements_test sized (apply_gt sized), rfl, rfl⟩
    · exact ⟨_, rfl, implements_test sized (apply_le sized), rfl, rfl⟩
    · exact ⟨_, rfl, implements_test sized (apply_lt sized), rfl, rfl⟩
    · exact ⟨_, rfl, implements_test sized (apply_ne sized), rfl, rfl⟩
    · exact ⟨_, rfl, .skip, rfl, rfl⟩
    · exact ⟨_, rfl, .nop, rfl, rfl⟩
    · exact ⟨_, rfl, .answer, rfl, rfl⟩
  · exact ⟨_, understood_literal sized literal⟩

/-! ## One step -/

/-- The state of words that a state of bit-vectors stands for. -/
def BitMachine.toMachine (machine : BitMachine encoding.width) : Machine where
  stack := machine.stack.map ofBits
  pending := machine.answer.map fun (offset, value) => (offset, .value (ofBits value))

/-- An action that finds too few values fails. -/
theorem act_underflow {width : Nat} {machine : BitMachine width} {expression : LocationExpression}
    {limit : Nat} {action : BitAction width} (short : machine.stack.length < action.needs) :
    machine.act expression limit operation action =
      .error (.stackUnderflow operation.offset operation.opcode) := by
  obtain ⟨place, stack, answer⟩ := machine
  cases action with
  | push | skip | nop => exact absurd short (Nat.not_lt_zero _)
  | copy depth =>
      have beyond : stack[depth]? = none :=
        List.getElem?_eq_none (Nat.le_of_lt_succ short)
      simp only [BitMachine.act, beyond]
  | drop | unary | branch | answer =>
      obtain _ | ⟨x, stack⟩ := stack
      · rfl
      · exact absurd short (by simp [BitAction.needs])
  | swap | binary =>
      obtain _ | ⟨x, _ | ⟨y, stack⟩⟩ := stack
      · rfl
      · rfl
      · exact absurd short (by simp [BitAction.needs])
  | rotate =>
      obtain _ | ⟨x, _ | ⟨y, _ | ⟨z, stack⟩⟩⟩ := stack
      · rfl
      · rfl
      · rfl
      · exact absurd short (by simp [BitAction.needs])

/-- Both machines find the same operations at the end of a branch. -/
theorem following_eq_landing {expression : LocationExpression} :
    expression.following operation operation.operand.toSigned =
      (BitMachine.landing expression operation).map expression.operations.drop := by
  unfold LocationExpression.following LocationExpression.operationsFrom? BitMachine.landing
  dsimp only
  generalize (operation.offset : Int) + 3 + operation.operand.toSigned.toInt = target
  by_cases finished : target = expression.bytes.length
  · simp only [if_pos finished, Except.map, List.drop_length]
  · simp only [if_neg finished, List.dropWhile_eq_drop_findIdx_not, bne, Bool.not_not]
    cases found : expression.operations.findIdx? fun other => (other.offset : Int) == target with
    | none =>
        have nowhere := List.findIdx_eq_length.mpr (List.findIdx?_eq_none_iff.mp found)
        rw [nowhere, List.drop_length]
        rfl
    | some place =>
        obtain ⟨inside, same⟩ := List.findIdx?_eq_some_iff_findIdx_eq.mp found
        rw [same, List.drop_eq_getElem_cons inside]
        exact congrArg Except.ok (List.drop_eq_getElem_cons inside).symm

variable {expression : LocationExpression} {evaluation : Evaluation} {target : Option Target}
  {reads : Array TargetRead}

/-- The operations that are left and the state, as the evaluator keeps them. -/
def BitMachine.left (expression : LocationExpression)
    (machine : BitMachine expression.encoding.width) : List Operation × Machine :=
  (expression.operations.drop machine.place, machine.toMachine)

theorem resume_push (machine : BitMachine expression.encoding.width)
    (stack : List (BitVec expression.encoding.width)) (value : BitVec expression.encoding.width) :
    ((do return (← Machine.push ⟨stack.map ofBits, none, []⟩ evaluation operation (ofBits value),
          none)) >>=
        expression.goOn operation (expression.operations.drop (machine.place + 1))).resume
        target reads =
      ((machine.push evaluation.stackLimit operation stack value).map
        (BitMachine.left expression), reads) := by
  unfold Machine.push BitMachine.push
  rw [List.length_map]
  split <;> rfl

theorem resume_landing (stack : List (BitVec expression.encoding.width))
    (rest : List Operation) :
    (expression.goOn operation rest
        (⟨stack.map ofBits, none, []⟩, some operation.operand.toSigned)).resume target reads =
      (Except.map (BitMachine.left expression)
        (do return ⟨← BitMachine.landing expression operation, stack, none⟩), reads) := by
  rw [LocationExpression.goOn, following_eq_landing, Access.resume_bind, Access.resume_ofExcept]
  cases BitMachine.landing expression operation <;> rfl

/-- Executing an instruction does what executing the action does. -/
theorem resume_execute (sized : expression.encoding.Sized)
    {action : BitAction expression.encoding.width}
    (implements : Implements expression.encoding operation
      (operation.instruction expression.encoding) action)
    (place : Nat) (stack : List (BitVec expression.encoding.width)) :
    (Machine.execute ⟨stack.map ofBits, none, []⟩ evaluation expression.encoding operation >>=
        expression.goOn operation (expression.operations.drop (place + 1))).resume target reads =
      ((BitMachine.act ⟨place, stack, none⟩ expression evaluation.stackLimit operation action).map
        (BitMachine.left expression), reads) := by
  unfold Machine.execute
  generalize operation.instruction expression.encoding = instruction at implements
  cases implements with
  | push same =>
      rw [same]
      exact resume_push ⟨place, stack, none⟩ stack _
  | copy depth =>
      simp only [List.getElem?_map, BitMachine.act]
      cases stack[depth]? with
      | none => rfl
      | some value => exact resume_push ⟨place, stack, none⟩ stack value
  | drop =>
      obtain _ | ⟨x, stack⟩ := stack
      · rfl
      · rfl
  | swap =>
      obtain _ | ⟨x, _ | ⟨y, stack⟩⟩ := stack
      · rfl
      · rfl
      · rfl
  | rotate =>
      obtain _ | ⟨x, _ | ⟨y, _ | ⟨z, stack⟩⟩⟩ := stack
      · rfl
      · rfl
      · rfl
      · rfl
  | unary same =>
      obtain _ | ⟨x, stack⟩ := stack
      · rfl
      · simp only [List.map_cons, same]
        exact resume_push ⟨place, x :: stack, none⟩ stack _
  | @binary op f same =>
      obtain _ | ⟨y, _ | ⟨x, stack⟩⟩ := stack
      · rfl
      · rfl
      · simp only [List.map_cons, same, BitMachine.act]
        cases f x y with
        | none => rfl
        | some value => exact resume_push ⟨place, y :: x :: stack, none⟩ stack value
  | skip => exact resume_landing stack (expression.operations.drop (place + 1))
  | branch =>
      obtain _ | ⟨x, stack⟩ := stack
      · rfl
      · simp only [List.map_cons, BitMachine.act]
        by_cases zero : x = 0
        · rw [if_pos zero, if_pos ((ofBits_eq_zero sized).mpr zero)]
          rfl
        · rw [if_neg zero, if_neg (mt (ofBits_eq_zero sized).mp zero)]
          exact resume_landing stack (expression.operations.drop (place + 1))
  | nop => rfl
  | answer =>
      obtain _ | ⟨x, stack⟩ := stack
      · rfl
      · rfl

/-- Executing an operation does what executing its action does. -/
theorem resume_advance (sized : expression.encoding.Sized) (computes : operation.Computes)
    (machine : BitMachine expression.encoding.width) :
    (expression.advance evaluation operation (expression.operations.drop (machine.place + 1))
        machine.toMachine).resume target reads =
      ((machine.step expression evaluation.stackLimit operation).map
        (BitMachine.left expression), reads) := by
  obtain ⟨action, known, implements, allowed, piece⟩ := understood sized computes
  obtain ⟨place, stack, answer⟩ := machine
  simp only [LocationExpression.advance, Machine.step, Machine.obstacle?, BitMachine.step, known]
  cases answer with
  | some answer => simp only [BitMachine.toMachine, piece]; rfl
  | none =>
      cases signed : operation.opcode.signature? with
      | none => simp only [signed, Option.any_none, Bool.false_eq_true] at allowed
      | some signature =>
          simp only [signed, Option.any_some, Bool.and_eq_true, decide_eq_true_eq] at allowed
          obtain ⟨supported, enough⟩ := allowed
          simp only [BitMachine.toMachine, Option.map_none, supported, List.length_map,
            Bool.not_true, Bool.false_eq_true, if_false]
          by_cases short : stack.length < signature.pops
          · have few : (⟨place, stack, none⟩ : BitMachine _).stack.length < action.needs :=
              Nat.lt_of_lt_of_le short enough
            rw [if_pos short, act_underflow few]
            rfl
          · rw [if_neg short]
            exact resume_execute sized implements place stack

theorem location_eq {machine : BitMachine encoding.width} :
    machine.toMachine.location = .ok machine.location := by
  obtain ⟨place, stack, answer⟩ := machine
  cases answer with
  | some => rfl
  | none => cases stack <;> rfl

theorem resume_finished {machine : BitMachine expression.encoding.width} {budget : Nat}
    (finished : expression.operations[machine.place]? = none) :
    (expression.run evaluation budget (expression.operations.drop machine.place)
        machine.toMachine).resume target reads =
      (.ok machine.location, reads) := by
  rw [List.drop_eq_nil_of_le (List.getElem?_eq_none_iff.mp finished)]
  cases budget <;> exact congrArg (·, reads) location_eq

/-- By induction on the budget, where the evaluator has the operations from the place of the machine
on in hand. -/
theorem resume_run (sized : expression.encoding.Sized)
    (computes : ∀ operation ∈ expression.operations, operation.Computes) (budget : Nat)
    (machine : BitMachine expression.encoding.width) :
    (expression.run evaluation budget (expression.operations.drop machine.place)
        machine.toMachine).resume target reads =
      (BitMachine.run expression evaluation budget machine, reads) := by
  induction budget generalizing machine with
  | zero =>
      unfold BitMachine.run
      cases next : expression.operations[machine.place]? with
      | none => exact resume_finished next
      | some operation =>
          rw [List.drop_eq_getElem?_toList_append, next]
          rfl
  | succ budget ih =>
      unfold BitMachine.run
      cases next : expression.operations[machine.place]? with
      | none => exact resume_finished next
      | some operation =>
          have computed := computes operation (List.mem_of_getElem? next)
          rw [List.drop_eq_getElem?_toList_append, next, Option.toList_some, List.singleton_append,
            LocationExpression.resume_run_cons, resume_advance sized computed]
          dsimp only
          cases machine.step expression evaluation.stackLimit operation with
          | error => rfl
          | ok following => exact ih following

/-- The state of bit-vectors before the first operation. -/
def BitMachine.start (width : Nat) (evaluation : Evaluation) : BitMachine width where
  place := 0
  stack := evaluation.initial.reverse.map fun value => BitVec.ofNat width value.toNat

theorem start_eq (sized : encoding.Sized)
    (below : ∀ value ∈ evaluation.initial, value.toNat < 2 ^ encoding.width) :
    Machine.start evaluation = (BitMachine.start encoding.width evaluation).toMachine := by
  have kept : evaluation.initial.reverse =
      (evaluation.initial.reverse.map fun value =>
        BitVec.ofNat encoding.width value.toNat).map ofBits := by
    conv_lhs => rw [← List.map_id evaluation.initial.reverse]
    rw [List.map_map]
    refine List.map_congr_left fun value member => ?_
    exact (ofBits_ofNat sized (below value (List.mem_reverse.mp member))).symm
  rw [Machine.start, kept]
  rfl

/-- Evaluation is evaluation by bit-vectors of the width of an address. -/
theorem evaluate_eq_bitMachine (expression : LocationExpression) (evaluation : Evaluation)
    (target : Option Target) (sized : expression.encoding.Sized)
    (computes : ∀ operation ∈ expression.operations, operation.Computes)
    (narrow : ∀ value ∈ evaluation.initial, value.toNat < 2 ^ expression.encoding.width) :
    (expression.evaluate evaluation).run target =
      (BitMachine.evaluate expression.encoding.width expression evaluation, #[]) := by
  rw [Access.run_eq_resume, LocationExpression.evaluate, start_eq sized narrow]
  exact resume_run sized computes evaluation.budget (.start expression.encoding.width evaluation)

/-- The least number of four bytes divided by minus one is itself. -/
theorem evaluate_least_div_minus_one :
    let encoding : Encoding := { addressSize := 4 }
    let expression : LocationExpression :=
      ⟨[0x1b, 0x9f], [⟨0, .div, .none⟩, ⟨1, .stackValue, .none⟩], encoding⟩
    let evaluation : Evaluation :=
      { initial := [0x80000000, 0xffffffff], budget := 2, stackLimit := 1 }
    LocationExpression.decode [0x1b, 0x9f] encoding = .ok expression ∧
      encoding.Sized ∧
      (∀ operation ∈ expression.operations, operation.Computes) ∧
      (∀ value ∈ evaluation.initial, value.toNat < 2 ^ encoding.width) ∧
      (expression.evaluate evaluation).run none = (.ok (.whole (.value 0x80000000)), #[]) := by
  intro encoding expression evaluation
  have decoded : LocationExpression.decode [0x1b, 0x9f] encoding = .ok expression := by
    decide +kernel
  have sized : encoding.Sized := ⟨by decide, by decide⟩
  have computes : ∀ operation ∈ expression.operations, operation.Computes := by
    simp [expression, Operation.Computes, Opcode.computing]
  have narrow : ∀ value ∈ evaluation.initial, value.toNat < 2 ^ encoding.width := by
    simp [evaluation, encoding, Encoding.width]
  have quotient : BitMachine.evaluate encoding.width expression evaluation =
      .ok (.whole (.value 0x80000000)) := by
    decide +kernel
  refine ⟨decoded, sized, computes, narrow, ?_⟩
  rw [← quotient]
  exact evaluate_eq_bitMachine expression evaluation none sized computes narrow

end Dwarf
