import Dwarf.Expression.Instruction
import Dwarf.Proofs.Decoder.Delivery
import Dwarf.Proofs.Expression.Tiling

/-!
# Operands and the instructions made of them

The table of signatures says in which shape the operands of an opcode are stored and how many values
the stack has to hold.  The instruction of an opcode is made of an operand of some kind, and it takes
some values from the stack.  These are written down in two places, and for every operation that can
be evaluated they agree.
-/

namespace Dwarf

open Decoder

/-! ## Kinds of operands -/

/-- What an operand consists of. -/
inductive OperandKind where
  | none
  | unsigned
  | signed
  | unsignedSigned
  | unsignedPair
  | block
  deriving DecidableEq, Repr

/-- The kind of an operand. -/
def Operand.kind : Operand → OperandKind
  | none => .none
  | unsigned _ => .unsigned
  | signed _ => .signed
  | unsignedSigned .. => .unsignedSigned
  | unsignedPair .. => .unsignedPair
  | block _ => .block

/-- All of an operand that can be seen by looking for an operand of some kind. -/
def Operand.part (operand : Operand) : OperandKind → Operand
  | .none => .none
  | .unsigned => .unsigned operand.toUnsigned
  | .signed => .signed operand.toSigned
  | .unsignedSigned => .unsignedSigned operand.toUnsigned operand.toSigned
  | .unsignedPair =>
    match operand with
    | .unsignedPair first second => .unsignedPair first second
    | _ => .none
  | .block =>
    match operand with
    | .block bytes => .block bytes
    | _ => .none

/-- The kind of the operands that are stored in a shape. -/
def OperandShape.kind : OperandShape → OperandKind
  | none => .none
  | u8 | u16 | u32 | u64 | uleb | address | offset => .unsigned
  | i8 | i16 | i32 | i64 | sleb => .signed
  | ulebSleb => .unsignedSigned
  | ulebUleb => .unsignedPair
  | block => .block

theorem OperandShape.delivers_kind (shape : OperandShape) :
    Delivers (fun operand => operand.kind = shape.kind) shape.decode := by
  cases shape with
  | none => exact delivers_pure rfl
  | ulebSleb => exact delivers_bind fun _ => delivers_bind fun _ => delivers_pure rfl
  | ulebUleb => exact delivers_bind fun _ => delivers_bind fun _ => delivers_pure rfl
  | block => exact delivers_bind fun _ => delivers_bind fun _ => delivers_pure rfl
  | _ => exact delivers_bind fun _ => delivers_pure rfl

namespace Opcode

/-- The kind of operand that the instruction of an opcode outside the series is made of. -/
def singleKind : Opcode → OperandKind
  | .addr | .const1u | .const2u | .const4u | .const8u | .constu => .unsigned
  | .const1s | .const2s | .const4s | .const8s | .consts => .signed
  | .pick | .plusUconst | .regx | .piece | .derefSize => .unsigned
  | .bra | .skip | .fbreg => .signed
  | .bregx => .unsignedSigned
  | .bitPiece => .unsignedPair
  | .implicitValue => .block
  | _ => .none

/-- The kind of operand that the instruction of an opcode is made of. -/
def operandKind (opcode : Opcode) : OperandKind :=
  match opcode.series? with
  | some (.base, _) => .signed
  | some (.literal, _) | some (.register, _) => .none
  | none => opcode.singleKind

end Opcode

/-- How many values from the top of the stack an instruction takes or looks at. -/
def Instruction.reach : Instruction → Nat
  | .drop | .deref _ | .unary _ | .branch _ | .stackValue => 1
  | .swap | .binary _ => 2
  | .rotate => 3
  | .pick depth => depth + 1
  | _ => 0

namespace Operation

theorem single_part (encoding : Encoding) (opcode : Opcode) (operand : Operand) :
    single encoding opcode (operand.part opcode.singleKind) = single encoding opcode operand := by
  unfold single
  split
  any_goals rfl
  · cases operand <;> rfl
  · cases operand <;> rfl

theorem instruction_part (operation : Operation) (encoding : Encoding) :
    instruction { operation with operand := operation.operand.part operation.opcode.operandKind }
      encoding = operation.instruction encoding := by
  unfold instruction Opcode.operandKind
  dsimp only
  generalize operation.opcode.series? = found
  cases found with
  | some member =>
      obtain ⟨series, number⟩ := member
      cases series <;> rfl
  | none => exact single_part encoding operation.opcode operation.operand

theorem instruction_congr (operation : Operation) (encoding : Encoding) {other : Operand}
    (same : other.part operation.opcode.operandKind =
      operation.operand.part operation.opcode.operandKind) :
    instruction { operation with operand := other } encoding = operation.instruction encoding := by
  have made := instruction_part { operation with operand := other } encoding
  dsimp only at made
  rw [← made, same, instruction_part]

end Operation

/-! ## What the table says -/

/-- The table of signatures and the instructions agree on the kinds of operands. -/
theorem kind_of_signature {opcode : Opcode} {signature : Signature}
    (signed : opcode.signature? = some signature) (supported : signature.supported = true) :
    signature.shape.kind = opcode.operandKind := by
  have table : ∀ entry ∈ Opcode.signatures, entry.2.supported = true →
      entry.2.shape.kind = entry.1.singleKind := by
    decide
  unfold Opcode.signature? at signed
  unfold Opcode.operandKind
  generalize opcode.series? = found at signed ⊢
  cases found with
  | some member =>
      obtain ⟨series, number⟩ := member
      cases series <;> cases signed <;> rfl
  | none =>
      obtain ⟨before, behind, split, _⟩ := List.lookup_eq_some_iff.mp signed
      have listed : (opcode, signature) ∈ Opcode.signatures :=
        split ▸ List.mem_append_right _ List.mem_cons_self
      exact table _ listed supported

/-- The number of values that an opcode outside the series has to find on the stack. -/
def Opcode.singlePops (opcode : Opcode) : Nat :=
  ((signatures.lookup opcode).map Signature.pops).getD 0

/-- How deep in the stack the value lies that the opcode `pick` asks for is for its operand to say.
All other instructions take and look at no more values than the table says. -/
theorem reach_single (encoding : Encoding) {opcode : Opcode} (other : opcode ≠ .pick)
    (operand : Operand) :
    (Operation.single encoding opcode operand).reach ≤ opcode.singlePops := by
  unfold Operation.single
  split
  any_goals exact Nat.zero_le _
  any_goals decide
  any_goals split
  any_goals exact Nat.zero_le _
  · exact absurd rfl other
  all_goals
    change 1 ≤ _
    decide

/-- The table of signatures and the instructions agree on what has to be on the stack. -/
theorem reach_le_pops {operation : Operation} {signature : Signature}
    (signed : operation.opcode.signature? = some signature) (other : operation.opcode ≠ .pick)
    (encoding : Encoding) : (operation.instruction encoding).reach ≤ signature.pops := by
  unfold Opcode.signature? at signed
  unfold Operation.instruction
  generalize operation.opcode.series? = found at signed ⊢
  cases found with
  | some member =>
      obtain ⟨series, number⟩ := member
      cases series <;> exact Nat.zero_le _
  | none =>
      have pops : operation.opcode.singlePops = signature.pops := by
        rw [Opcode.singlePops, show Opcode.signatures.lookup operation.opcode = _ from signed]
        rfl
      exact pops ▸ reach_single encoding other operation.operand

theorem instruction_pick {operation : Operation} (picks : operation.opcode = .pick)
    (encoding : Encoding) :
    operation.instruction encoding = .pick operation.operand.toUnsigned.toNat := by
  unfold Operation.instruction
  rw [picks]
  rfl

/-! ## Decoded operations -/

variable {encoding : Encoding} {bytes : List UInt8}

theorem Operation.Stored.kind {offset : Nat} {operations : List Operation}
    (stored : Stored encoding offset bytes operations) {operation : Operation}
    (member : operation ∈ operations) :
    ∃ signature, operation.opcode.signature? = some signature ∧
      operation.operand.kind = signature.shape.kind := by
  induction stored with
  | nil => cases member
  | @cons _ opcode signature operand _ _ _ signed recognizes _ ih =>
      rcases List.mem_cons.mp member with rfl | later
      · exact ⟨signature, signed, signature.shape.delivers_kind recognizes.consumes.1⟩
      · exact ih later

/-- The operand of a decoded operation that can be evaluated is of the kind that its instruction is
made of. -/
theorem LocationExpression.kind_of_decode {expression : LocationExpression}
    (decoded : decode bytes encoding = .ok expression) {operation : Operation}
    (member : operation ∈ expression.operations) {signature : Signature}
    (signed : operation.opcode.signature? = some signature)
    (supported : signature.supported = true) :
    operation.operand.kind = operation.opcode.operandKind := by
  obtain ⟨found, found_signed, kind⟩ := (stored_of_decode decoded).kind member
  cases signed.symm.trans found_signed
  rw [kind, kind_of_signature signed supported]

end Dwarf
