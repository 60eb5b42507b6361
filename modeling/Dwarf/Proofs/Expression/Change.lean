import Mathlib.Data.List.Perm.Subperm
import Dwarf.Expression.Machine
import Dwarf.Proofs.Access

/-!
# What one operation can do

All that an operation can do to the state of an evaluation, whichever operation it is: it puts a
value on the stack, drops or moves values, says what place ends the current piece, or adds a piece.
What every run keeps follows from this list.
-/

namespace Dwarf

open Access

/-- The address or the computed value of a place. -/
def Place.word? : Place → Option UInt64
  | .address word | .value word => some word
  | .register _ | .bytes _ | .unavailable => none

/-- The numbers in an instruction that matter for the size of the values it pushes. -/
def Instruction.Numbers (encoding : Encoding) (opcode : Opcode) (operand : Operand) :
    Instruction → Prop
  | .constant value => (∃ word, value = encoding.truncate word) ∨ value.toNat < 32
  | .deref size =>
    opcode = .deref ∧ size = encoding.addressSize ∨
      opcode = .derefSize ∧ size = operand.toUnsigned.toNat
  | _ => True

/-- The opcodes of an instruction that no more than two opcodes have. -/
def Instruction.NamedBy (opcode : Opcode) : Instruction → Prop
  | .frameBasePlus _ => opcode = .fbreg
  | .callFrameCfa => opcode = .callFrameCfa
  | .skip _ => opcode = .skip
  | .branch _ => opcode = .bra
  | .piece _ _ => opcode = .piece ∨ opcode = .bitPiece
  | _ => True

namespace Operation

theorem single_numbers (encoding : Encoding) (opcode : Opcode) (operand : Operand) :
    (single encoding opcode operand).Numbers encoding opcode operand := by
  unfold single
  split
  any_goals exact trivial
  any_goals exact Or.inl ⟨_, rfl⟩
  any_goals split
  any_goals exact trivial
  · exact .inl ⟨rfl, rfl⟩
  · exact .inr ⟨rfl, rfl⟩

theorem series_lt {opcode : Opcode} {series : Opcode.Series} {number : Nat}
    (member : opcode.series? = some (series, number)) : number < 32 := by
  unfold Opcode.series? at member
  dsimp only at member
  split at member
  next => cases member; omega
  next =>
    split at member
    next => cases member; omega
    next =>
      split at member
      next => cases member; omega
      next => cases member

theorem instruction_numbers (operation : Operation) (encoding : Encoding) :
    (operation.instruction encoding).Numbers encoding operation.opcode operation.operand := by
  unfold instruction
  split
  next member =>
    have small := series_lt member
    refine .inr ?_
    rw [UInt64.toNat_ofNat', Nat.mod_eq_of_lt (Nat.lt_trans small (by decide))]
    exact small
  next => exact trivial
  next => exact trivial
  next => exact single_numbers _ _ _

theorem single_namedBy (encoding : Encoding) (opcode : Opcode) (operand : Operand) :
    (single encoding opcode operand).NamedBy opcode := by
  unfold single
  split
  any_goals exact trivial
  any_goals exact rfl
  any_goals split
  any_goals exact trivial
  · exact .inl rfl
  · exact .inr rfl

theorem instruction_namedBy (operation : Operation) (encoding : Encoding) :
    (operation.instruction encoding).NamedBy operation.opcode := by
  unfold instruction
  split
  next => exact trivial
  next => exact trivial
  next => exact trivial
  next => exact single_namedBy _ _ _

end Operation

namespace Machine

variable {evaluation : Evaluation} {encoding : Encoding} {operation : Operation}
  {machine : Machine}

/-- Where a value that an operation pushes comes from. -/
inductive Given (machine : Machine) (evaluation : Evaluation) (encoding : Encoding)
    (operation : Operation) : UInt64 → Prop where
  | stack {value : UInt64} (member : value ∈ machine.stack) :
      Given machine evaluation encoding operation value
  | cfa {value : UInt64} (known : evaluation.cfa = some value) :
      Given machine evaluation encoding operation value
  | truncated (value : UInt64) :
      Given machine evaluation encoding operation (encoding.truncate value)
  | small {value : UInt64} (below : value.toNat < 32) :
      Given machine evaluation encoding operation value
  | read {bytes : List UInt8}
      (width : operation.opcode = .deref ∧ bytes.length = encoding.addressSize ∨
        operation.opcode = .derefSize ∧ bytes.length = operation.operand.toUnsigned.toNat) :
      Given machine evaluation encoding operation (UInt64.ofNat (encoding.order.value bytes))

/-- The states that an operation can lead to. -/
inductive Change (machine : Machine) (evaluation : Evaluation) (encoding : Encoding)
    (operation : Operation) : Machine → Prop where
  | push {kept : List UInt64} {value : UInt64} (from_stack : kept.Subperm machine.stack)
      (room : kept.length < evaluation.stackLimit)
      (given : Given machine evaluation encoding operation value) :
      Change machine evaluation encoding operation { machine with stack := value :: kept }
  | keep {kept : List UInt64} (from_stack : kept.Subperm machine.stack) :
      Change machine evaluation encoding operation { machine with stack := kept }
  | settle {kept : List UInt64} {place : Place} (from_stack : kept.Subperm machine.stack)
      (word : ∀ word ∈ place.word?, word ∈ machine.stack) :
      Change machine evaluation encoding operation
        (settle { machine with stack := kept } operation place)
  | piece (sizeBits bitOffset : UInt64) :
      Change machine evaluation encoding operation (machine.addPiece sizeBits bitOffset)

theorem ensures_push {stack kept : List UInt64} {pending : Option (Nat × Place)}
    {pieces : List Piece} {value : UInt64} (from_stack : kept.Subperm stack)
    (given : Given ⟨stack, pending, pieces⟩ evaluation encoding operation value) :
    (do return (← push ⟨kept, pending, pieces⟩ evaluation operation value, none)).Ensures
      fun result : Machine × Option Int64 =>
        Change ⟨stack, pending, pieces⟩ evaluation encoding operation result.1 := by
  unfold push
  split
  next room => exact ensures_pure (.push from_stack room given)
  next => exact ensures_throw

theorem ensures_readMemory (address : UInt64) (size : Nat) :
    (readMemory encoding address size).Ensures fun value =>
      ∃ bytes : List UInt8, bytes.length = size ∧
        value = UInt64.ofNat (encoding.order.value bytes) := by
  refine ensures_true.bind fun bytes _ => ?_
  split
  next => exact ensures_throw
  next enough =>
    exact ensures_pure ⟨_, List.length_take_of_le (Nat.le_of_not_lt enough), rfl⟩

theorem given_unary (op : UnaryOp) (value : UInt64) :
    Given machine evaluation encoding operation (op.apply encoding value) :=
  .truncated _

theorem given_truth (holds : Bool) :
    Given machine evaluation encoding operation (BinaryOp.truth holds) := by
  cases holds <;> exact .small (by decide)

theorem given_shifted (amount result : UInt64) :
    Given machine evaluation encoding operation (BinaryOp.shifted encoding amount result) := by
  unfold BinaryOp.shifted
  split
  next => exact .truncated _
  next => exact .small (by decide)

theorem given_binary {op : BinaryOp} {lhs rhs value : UInt64}
    (applied : op.apply encoding lhs rhs = some value) :
    Given machine evaluation encoding operation value := by
  cases op with
  | and | or | xor | plus | minus | mul | shra =>
      cases applied
      exact .truncated _
  | div | mod =>
      obtain ⟨_, same⟩ := Option.ite_none_left_eq_some.mp applied
      cases same
      exact .truncated _
  | shl | shr =>
      cases applied
      exact given_shifted _ _
  | eq | ne | lt | le | gt | ge =>
      cases applied
      exact given_truth _

/-- Executing an operation leads to one of the states that an operation can lead to. -/
theorem ensures_execute :
    (machine.execute evaluation encoding operation).Ensures fun result =>
      Change machine evaluation encoding operation result.1 := by
  have numbers := operation.instruction_numbers encoding
  obtain ⟨stack, pending, pieces⟩ := machine
  unfold execute
  dsimp only
  generalize operation.instruction encoding = instruction at numbers ⊢
  cases instruction with
  | constant value =>
      obtain ⟨word, rfl⟩ | below := numbers
      · exact ensures_push (.refl _) (.truncated word)
      · exact ensures_push (.refl _) (.small below)
  | registerPlus register offset =>
      exact ensures_true.bind fun base _ => ensures_push (.refl _) (.truncated _)
  | frameBasePlus offset =>
      cases evaluation.frameBase with
      | none => exact ensures_throw
      | some base => exact ensures_push (.refl _) (.truncated _)
  | callFrameCfa =>
      cases known : evaluation.cfa with
      | none => exact ensures_throw
      | some cfa => exact ensures_push (.refl _) (.cfa known)
  | pick depth =>
      dsimp only
      cases found : stack[depth]? with
      | none => exact ensures_throw
      | some value => exact ensures_push (.refl _) (.stack (List.mem_of_getElem? found))
  | drop =>
      obtain _ | ⟨x, stack⟩ := stack
      · exact ensures_throw
      · exact ensures_pure (.keep (List.sublist_cons_self x stack).subperm)
  | swap =>
      obtain _ | ⟨x, _ | ⟨y, stack⟩⟩ := stack
      · exact ensures_throw
      · exact ensures_throw
      · exact ensures_pure (.keep (List.Perm.swap x y stack).subperm)
  | rotate =>
      obtain _ | ⟨x, _ | ⟨y, _ | ⟨z, stack⟩⟩⟩ := stack
      · exact ensures_throw
      · exact ensures_throw
      · exact ensures_throw
      · have moved : (y :: z :: x :: stack).Perm (x :: y :: z :: stack) :=
          @List.perm_middle _ x [y, z] stack
        exact ensures_pure (.keep moved.subperm)
  | deref size =>
      obtain _ | ⟨address, stack⟩ := stack
      · exact ensures_throw
      · refine (ensures_readMemory address size).bind fun value read => ?_
        obtain ⟨bytes, rfl, rfl⟩ := read
        exact ensures_push (List.sublist_cons_self address stack).subperm (.read numbers)
  | unary op =>
      obtain _ | ⟨x, stack⟩ := stack
      · exact ensures_throw
      · exact ensures_push (List.sublist_cons_self x stack).subperm (given_unary op x)
  | binary op =>
      obtain _ | ⟨rhs, _ | ⟨lhs, stack⟩⟩ := stack
      · exact ensures_throw
      · exact ensures_throw
      · have rest := ((List.sublist_cons_self lhs stack).cons rhs).subperm
        dsimp only
        cases applied : op.apply encoding lhs rhs with
        | none => exact ensures_throw
        | some value => exact ensures_push rest (given_binary applied)
  | skip displacement => exact ensures_pure (.keep (.refl _))
  | branch displacement =>
      obtain _ | ⟨condition, stack⟩ := stack
      · exact ensures_throw
      · have popped := (List.sublist_cons_self condition stack).subperm
        dsimp only
        split
        next => exact ensures_pure (.keep popped)
        next => exact ensures_pure (.keep popped)
  | nop => exact ensures_pure (.keep (.refl _))
  | inRegister register => exact ensures_pure (.settle (.refl _) nofun)
  | stackValue =>
      obtain _ | ⟨value, stack⟩ := stack
      · exact ensures_throw
      · refine ensures_pure (.settle (List.sublist_cons_self value stack).subperm ?_)
        rintro _ ⟨⟩
        exact List.mem_cons_self
  | implicitValue bytes => exact ensures_pure (.settle (.refl _) nofun)
  | piece sizeBits bitOffset => exact ensures_pure (.piece sizeBits bitOffset)
  | unsupported => exact ensures_throw

theorem ensures_step :
    (machine.step evaluation encoding operation).Ensures fun result =>
      Change machine evaluation encoding operation result.1 := by
  unfold step
  split
  next => exact ensures_throw
  next => exact ensures_execute

end Machine

end Dwarf
