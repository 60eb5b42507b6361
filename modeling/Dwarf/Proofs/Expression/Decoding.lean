import Dwarf.Expression
import Dwarf.Proofs.Decoder.AddressSize
import Dwarf.Proofs.Decoder.Composition
import Dwarf.Proofs.Decoder.Integer

/-!
# The bytes of an expression

An operation is stored as its opcode and its operands, of the shape that the table of signatures
gives.  Operations that are stored one behind the other are decoded, each at the offset where the
ones before it end.  The size of an address matters to the operand of one operation only.
-/

namespace Dwarf

open Decoder

/-- The operands of every shape are numbers and byte strings. -/
theorem OperandShape.composed_decode (shape : OperandShape) {addresses : Bool}
    (allowed : shape = .address → addresses = true) : Composed addresses shape.decode := by
  cases shape with
  | none => exact .pure _
  | u8 => exact composed_uint8.map _
  | i8 => exact (composed_uint8.map _).map _
  | u16 => exact composed_uint16.map _
  | i16 => exact (composed_uint16.map _).map _
  | u32 => exact composed_uint32.map _
  | i32 => exact (composed_uint32.map _).map _
  | u64 => exact composed_uint64.map _
  | i64 => exact (composed_uint64.map _).map _
  | uleb => exact Composed.unsigned.map _
  | sleb => exact Composed.signed.map _
  | ulebSleb => exact Composed.unsigned.bind fun _ => Composed.signed.map _
  | ulebUleb => exact Composed.unsigned.bind fun _ => Composed.unsigned.map _
  | address => exact (Composed.address (allowed rfl)).map _
  | offset => exact Composed.sectionOffset.map _
  | block => exact Composed.unsigned.bind fun length => (Composed.bytes length.toNat).map _

namespace Operation

variable {encoding : Encoding}

/-- Read the operands of an opcode that was found at an offset. -/
def decodeOperand (offset : Nat) (opcode : Opcode) : Decoder Operation :=
  match opcode.signature? with
  | some signature =>
      Decoder.bind signature.shape.decode fun operand => Decoder.pure ⟨offset, opcode, operand⟩
  | none => Decoder.fail (withoutSignature offset opcode)

theorem decode_eq :
    decode = .located fun offset => uint8.bind fun code => decodeOperand offset ⟨code⟩ :=
  rfl

/-! ## Stored operations -/

/-- The bytes of operations, the first of which lies at an offset. -/
inductive Stored (encoding : Encoding) : Nat → List UInt8 → List Operation → Prop where
  | nil (offset : Nat) : Stored encoding offset [] []
  | cons {offset : Nat} {opcode : Opcode} {signature : Signature} {operand : Operand}
      {front back : List UInt8} {operations : List Operation}
      (signed : opcode.signature? = some signature)
      (recognizes : signature.shape.decode.Recognizes encoding front operand)
      (rest : Stored encoding (offset + (opcode.code :: front).length) back operations) :
      Stored encoding offset (opcode.code :: front ++ back)
        (⟨offset, opcode, operand⟩ :: operations)

theorem Stored.single {offset : Nat} {opcode : Opcode} {signature : Signature} {operand : Operand}
    {bytes : List UInt8} (signed : opcode.signature? = some signature)
    (recognizes : signature.shape.decode.Recognizes encoding bytes operand) :
    Stored encoding offset (opcode.code :: bytes) [⟨offset, opcode, operand⟩] := by
  have stored := Stored.cons signed recognizes (.nil (offset + (opcode.code :: bytes).length))
  rw [List.append_nil] at stored
  exact stored

theorem recognizes_decode {offset : Nat} {opcode : Opcode} {signature : Signature}
    {operand : Operand} {bytes : List UInt8} (signed : opcode.signature? = some signature)
    (recognizes : signature.shape.decode.Recognizes encoding bytes operand) :
    (uint8.bind fun code => decodeOperand offset ⟨code⟩).read.Recognizes encoding
      (opcode.code :: bytes) ⟨offset, opcode, operand⟩ := by
  have operands : (decodeOperand offset opcode).Recognizes encoding bytes
      ⟨offset, opcode, operand⟩ := by
    rw [decodeOperand, signed]
    exact recognizes.map _
  exact (recognizes_uint8 opcode.code).bind operands

theorem Stored.reads {offset : Nat} {bytes : List UInt8} {operations : List Operation}
    (stored : Stored encoding offset bytes operations) {cursor : Cursor}
    (under : cursor.Under encoding) (place : cursor.offset = offset) (rest : cursor.rest = bytes) :
    Reads decode cursor operations := by
  induction stored generalizing cursor with
  | nil => exact .done (Cursor.atEnd_iff_rest.mpr rest)
  | @cons offset opcode signature operand front back operations signed recognizes _ ih =>
      obtain ⟨fits, read, next⟩ := recognizes_decode signed recognizes under rest
      have unfinished : cursor.atEnd = false := by
        rw [← Bool.not_eq_true, Cursor.atEnd_iff_rest, rest]
        exact nofun
      subst place
      refine .more unfinished (decode_eq ▸ read) ?_
      have passed : (decode.read cursor).next = cursor.forward (opcode.code :: front).length fits := by
        rw [decode_eq]
        exact next
      rw [passed]
      exact ih (under.forward fits) (Nat.add_assoc ..).symm (Cursor.forward_rest rest fits)

theorem Stored.decoded {bytes : List UInt8} {operations : List Operation}
    (stored : Stored encoding 0 bytes operations) :
    LocationExpression.decode bytes encoding = .ok ⟨bytes, operations, encoding⟩ := by
  have reads := stored.reads (Cursor.under_cursor encoding bytes 0) rfl rfl
  have decoded : decodeAll bytes encoding = .ok operations := reads.many
  rw [LocationExpression.decode, decoded]
  rfl

/-! ## Addresses of another size -/

/-- Only one operation has an address for its operand. -/
theorem shape_ne_address {opcode : Opcode} {signature : Signature}
    (signed : opcode.signature? = some signature) (other : opcode ≠ .addr) :
    signature.shape ≠ .address := by
  have table : ∀ entry ∈ Opcode.signatures, entry.1 ≠ .addr → entry.2.shape ≠ .address := by
    decide
  unfold Opcode.signature? at signed
  split at signed
  · cases signed
    exact nofun
  · cases signed
    exact nofun
  · cases signed
    exact nofun
  · obtain ⟨before, behind, split, _⟩ := List.lookup_eq_some_iff.mp signed
    exact table (opcode, signature) (split ▸ List.mem_append_right _ List.mem_cons_self) other

theorem sizeless_decodeOperand (offset : Nat) {opcode : Opcode} (other : opcode ≠ .addr) :
    (decodeOperand offset opcode).Sizeless := by
  unfold decodeOperand
  split
  next signature signed =>
    have composed : Composed false signature.shape.decode :=
      signature.shape.composed_decode fun same => absurd same (shape_ne_address signed other)
    exact composed.sizeless.map _
  next => exact sizeless_fail _

theorem decodeOperand_opcode {offset : Nat} {opcode : Opcode} {cursor : Cursor}
    {operation : Operation} (read : (decodeOperand offset opcode cursor).result = .ok operation) :
    operation.opcode = opcode := by
  unfold decodeOperand at read
  cases signed : opcode.signature? with
  | none =>
      rw [signed] at read
      cases read
  | some signature =>
      rw [signed] at read
      obtain ⟨operand, _, same⟩ := bind_result_eq_ok.mp read
      cases same
      rfl

theorem decode_withAddressSize {cursor : Cursor} {operation : Operation}
    (other : operation.opcode ≠ .addr) (size : Nat)
    (read : (decode.read cursor).result = .ok operation) :
    (decode.read (cursor.withAddressSize size)).result = .ok operation ∧
      (decode.read (cursor.withAddressSize size)).next =
        (decode.read cursor).next.withAddressSize size := by
  rw [← read, decode_eq]
  rw [decode_eq] at read
  obtain ⟨code, code_read, operand_read⟩ := bind_result_eq_ok.mp read
  refine sizeless_uint8.bind_of (fun value value_read => ?_) size
  rw [Except.ok.inj (value_read.symm.trans code_read)]
  exact sizeless_decodeOperand cursor.offset (decodeOperand_opcode operand_read ▸ other)

end Operation

namespace LocationExpression

variable {bytes : List UInt8} {operations : List Operation} {encoding : Encoding}

theorem decode_eq_ok_iff :
    decode bytes encoding = .ok ⟨bytes, operations, encoding⟩ ↔
      Operation.decodeAll bytes encoding = .ok operations := by
  unfold decode
  cases Operation.decodeAll bytes encoding with
  | error => exact ⟨nofun, nofun⟩
  | ok found =>
      constructor
      · rintro ⟨⟩
        rfl
      · rintro ⟨⟩
        rfl

theorem decode_withAddressSize (others : ∀ operation ∈ operations, operation.opcode ≠ .addr)
    (size : Nat) (decoded : decode bytes encoding = .ok ⟨bytes, operations, encoding⟩) :
    decode bytes { encoding with addressSize := size } =
      .ok ⟨bytes, operations, { encoding with addressSize := size }⟩ := by
  rw [decode_eq_ok_iff] at decoded ⊢
  have reads := reads_of_many decoded
  have again := reads.withAddressSize size fun member read =>
    Operation.decode_withAddressSize (others _ member) size read
  rw [Operation.decodeAll, Encoding.cursor_withAddressSize]
  exact again.many

end LocationExpression

end Dwarf
