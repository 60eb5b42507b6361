import Dwarf.Frame.Unwind
import Dwarf.Proofs.Expression.Decoding
import Dwarf.Proofs.Expression.Width
import Dwarf.Proofs.Frame.Simulation

/-!
# Offsets as expressions

A rule that adds an offset to the canonical frame address, or to a register, says what an
expression of one or two operations says.
-/

namespace Dwarf

namespace Operation

theorem register?_toUInt64 (register : UInt16) (offset : Int64) :
    register? (.unsignedSigned register.toUInt64 offset) = some register.toNat := by
  have below : register.toUInt64 < 0x10000 := by
    rw [UInt64.lt_iff_toNat_lt, UInt16.toNat_toUInt64]
    exact register.toNat_lt
  simp only [register?, Operand.toUnsigned, if_pos below, UInt16.toNat_toUInt64]

theorem single_bregx (encoding : Encoding) (operand : Operand) :
    single encoding .bregx operand =
      (register? operand).elim .unsupported (.registerPlus · operand.toSigned) := by
  cases named : register? operand with
  | none =>
      unfold single
      rw [named]
      rfl
  | some register =>
      unfold single
      rw [named]
      rfl

end Operation

namespace LocationExpression

/-- The expression that adds an offset to the value it finds on the stack; the offset is stored as
some bytes. -/
def adding (encoding : Encoding) (spelling : List UInt8) (offset : Int64) : LocationExpression where
  bytes := 0x11 :: spelling ++ [0x22]
  operations := [⟨0, .consts, .signed offset⟩, ⟨spelling.length + 1, .plus, .none⟩]
  encoding := encoding

/-- The expression that adds an offset to a register; both are stored as some bytes. -/
def displaced (encoding : Encoding) (spelling : List UInt8) (register : UInt16) (offset : Int64) :
    LocationExpression where
  bytes := 0x92 :: spelling
  operations := [⟨0, .bregx, .unsignedSigned register.toUInt64 offset⟩]
  encoding := encoding

variable {encoding : Encoding}

theorem evaluate_adding (spelling : List UInt8) (offset : Int64) (cfa : UInt64) :
    (adding encoding spelling offset).evaluate { cfa := some cfa, initial := [cfa] } =
      pure (Location.whole (.address
        (encoding.truncate (cfa + encoding.truncate offset.toUInt64)))) :=
  rfl

theorem evaluate_displaced (spelling : List UInt8) (register : UInt16) (offset : Int64) :
    (displaced encoding spelling register offset).evaluate {} = do
      let base ← Access.register register.toNat
      return Location.whole (.address (encoding.truncate (base + offset.toUInt64))) := by
  let operation : Operation := ⟨0, .bregx, .unsignedSigned register.toUInt64 offset⟩
  have instruction : operation.instruction encoding = .registerPlus register.toNat offset := by
    change Operation.single encoding .bregx operation.operand = _
    rw [Operation.single_bregx, Operation.register?_toUInt64]
    rfl
  have executed : (Machine.start {}).execute {} encoding operation = do
      let base ← Access.register register.toNat
      return (⟨[encoding.truncate (base + offset.toUInt64)], none, []⟩, none) := by
    unfold Machine.execute
    rw [instruction]
    rfl
  change (Machine.start {}).execute {} encoding operation >>= _ = _
  rw [executed, bind_assoc]
  rfl

open Decoder Operation

theorem decode_adding {spelling : List UInt8} {offset : Int64}
    (spelled : Leb128.signed spelling = ⟨.ok offset, spelling.length⟩) :
    decode (adding encoding spelling offset).bytes encoding =
      .ok (adding encoding spelling offset) := by
  have consts : Opcode.consts.signature? = some ⟨.sleb, 0, true⟩ := rfl
  have plus : Opcode.plus.signature? = some ⟨.none, 2, true⟩ := rfl
  have constant : OperandShape.sleb.decode.Recognizes encoding spelling (.signed offset) :=
    (recognizes_signed_iff.mpr spelled).map _
  have nothing : OperandShape.none.decode.Recognizes encoding [] .none := .pure _
  have sum : Stored encoding (0 + (Opcode.consts.code :: spelling).length) [0x22]
      [⟨spelling.length + 1, .plus, .none⟩] := by
    rw [Nat.zero_add, List.length_cons]
    exact .single plus nothing
  exact (Stored.cons consts constant sum).decoded

theorem decode_displaced {registerSpelling spelling : List UInt8} {register : UInt16}
    {offset : Int64}
    (register_spelled : Leb128.unsigned registerSpelling =
      ⟨.ok register.toUInt64, registerSpelling.length⟩)
    (spelled : Leb128.signed spelling = ⟨.ok offset, spelling.length⟩) :
    decode (displaced encoding (registerSpelling ++ spelling) register offset).bytes encoding =
      .ok (displaced encoding (registerSpelling ++ spelling) register offset) := by
  have operands : OperandShape.ulebSleb.decode.Recognizes encoding (registerSpelling ++ spelling)
      (.unsignedSigned register.toUInt64 offset) :=
    (recognizes_unsigned_iff.mpr register_spelled).bind
      ((recognizes_signed_iff.mpr spelled).map _)
  have bregx : Opcode.bregx.signature? = some ⟨.ulebSleb, 0, true⟩ := rfl
  exact (Stored.single bregx operands).decoded

end LocationExpression

namespace UnwindRow

variable {row : UnwindRow}

/-- The row with another rule for a register. -/
def withRule (row : UnwindRow) (register : Nat) (rule : RegisterRule) : UnwindRow :=
  { row with registers := row.registers.insert register rule }

/-- The row with another rule for the canonical frame address. -/
def withCfa (row : UnwindRow) (cfa : CfaRule) : UnwindRow :=
  { row with cfa }

@[simp]
theorem rule_withRule (register : Nat) (rule : RegisterRule) :
    (row.withRule register rule).rule register = rule := by
  rw [UnwindRow.rule, withRule, RuleSet.get?_insert, Function.update_self]
  rfl

theorem evaluateWithCfa_adding (sized : row.encoding.Sized) (register : Nat) (rule : RegisterRule)
    (spelling : List UInt8) (offset : Int64) (cfa : UInt64) :
    (row.withRule register rule).evaluateWithCfa (.adding row.encoding spelling offset) cfa =
      pure ((cfa + offset.toUInt64) &&& row.encoding.maxAddress) := by
  rw [evaluateWithCfa, evaluate, LocationExpression.evaluate_adding,
    Encoding.truncate_add_truncate sized]
  rfl

theorem evaluate_displaced (spelling : List UInt8) (register : UInt16) (offset : Int64)
    (defect : FrameDefect) :
    row.evaluate (.displaced row.encoding spelling register offset) {} defect = do
      let base ← Access.register register.toNat
      return (base + offset.toUInt64) &&& row.encoding.maxAddress := by
  rw [evaluate, LocationExpression.evaluate_displaced, bind_assoc]
  rfl

/-- Whatever the address size, a rule that adds an offset is the same computation as the rule with
the expression that adds it: it has the same value or error and makes the same reads.  The numbers
in the expressions may be stored in any way in which they are read back; `Leb128.unsigned_encode`
and `Leb128.signed_encodeSigned` give one for each number. -/
theorem offset_rules_eq_expression_rules (row : UnwindRow)
    (possible : row.encoding.addressSize ∈ [1, 2, 4, 8]) (register : Nat) (base : UInt16)
    (cfa : UInt64) (offset : Int64) {registerSpelling spelling : List UInt8}
    (register_spelled : Leb128.unsigned registerSpelling =
      ⟨.ok base.toUInt64, registerSpelling.length⟩)
    (spelled : Leb128.signed spelling = ⟨.ok offset, spelling.length⟩) :
    let sum := LocationExpression.adding row.encoding spelling offset
    let displaced :=
      LocationExpression.displaced row.encoding (registerSpelling ++ spelling) base offset
    LocationExpression.decode sum.bytes row.encoding = .ok sum ∧
      LocationExpression.decode displaced.bytes row.encoding = .ok displaced ∧
      (row.withRule register (.offset offset)).recover register cfa =
        (row.withRule register (.expression sum)).recover register cfa ∧
      (row.withRule register (.valOffset offset)).recover register cfa =
        (row.withRule register (.valExpression sum)).recover register cfa ∧
      (row.withCfa (.registerPlus base.toNat offset)).cfaValue =
        (row.withCfa (.expression displaced)).cfaValue := by
  intro sum displaced
  have sized := Encoding.sized_of_mem possible
  refine ⟨LocationExpression.decode_adding spelled,
    LocationExpression.decode_displaced register_spelled spelled, ?_, ?_, ?_⟩
  · simp only [sum, recover, rule_withRule, evaluateWithCfa_adding sized, pure_bind]
    rfl
  · simp only [sum, recover, rule_withRule, evaluateWithCfa_adding sized, pure_bind]
    rfl
  · exact (evaluate_displaced (registerSpelling ++ spelling) base offset .cfaNotAddress).symm

/-- Two bytes below the end of the address space, an offset of four wraps around; the expressions
store it with a byte more than it takes. -/
theorem wrapping_offset :
    let encoding : Encoding := { addressSize := 2 }
    let row : UnwindRow := ⟨0, 0x100, .registerPlus 7 0, {}, 16, 0, encoding⟩
    let sum := LocationExpression.adding encoding [0x84, 0x00] 4
    let displaced := LocationExpression.displaced encoding [0x87, 0x00, 0x84, 0x00] 7 4
    LocationExpression.decode sum.bytes encoding = .ok sum ∧
      LocationExpression.decode displaced.bytes encoding = .ok displaced ∧
      (row.withRule 3 (.expression sum)).recover 3 0xfffe =
        (do return some (← row.readAddress 2)) ∧
      (row.withRule 3 (.valExpression sum)).recover 3 0xfffe = pure (some 2) ∧
      (row.withCfa (.expression displaced)).cfaValue =
        (do return ((← Access.register 7) + 4) &&& 0xffff) := by
  intro encoding row sum displaced
  have spelled : Leb128.signed [0x84, 0x00] = ⟨.ok 4, 2⟩ := rfl
  have register_spelled : Leb128.unsigned [0x87, 0x00] = ⟨.ok 7, 2⟩ := rfl
  have wrapped : (0xfffe + (4 : Int64).toUInt64) &&& encoding.maxAddress = 2 := by decide
  obtain ⟨sum_decoded, displaced_decoded, saved, computed, cfa⟩ :=
    offset_rules_eq_expression_rules row (by decide) 3 7 0xfffe 4 register_spelled spelled
  refine ⟨sum_decoded, displaced_decoded, saved.symm.trans ?_, computed.symm.trans ?_,
    cfa.symm.trans rfl⟩
  · exact congrArg (fun address => (do return some (← row.readAddress address))) wrapped
  · exact congrArg (fun value => pure (some value)) wrapped

end UnwindRow

end Dwarf
