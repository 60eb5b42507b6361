import Dwarf.Frame.Table
import Dwarf.Proofs.Decoder.Faults
import Dwarf.Proofs.Expression.Decoding
import Dwarf.Proofs.Frame.Course

/-!
# What a replay fails with

Whatever the programs of a function contain, their replay fails with a defect of call frame
information or because its budget is exhausted, with one exception.  An instruction may carry a
location expression, and where this expression cannot be decoded the replay fails with the error of
the expression, whose place counts from the start of the expression.
-/

namespace Dwarf

open Decoder

/-! ## Expressions -/

namespace LocationExpression

/-- What the decoding of an expression fails with. -/
inductive Fault : Error → Prop where
  | unexpectedEnd (offset : Nat) : Fault (.unexpectedEnd offset)
  | unknownOpcode (offset : Nat) (opcode : Opcode) : Fault (.unknownOpcode offset opcode)
  | unsupportedOpcode (offset : Nat) (opcode : Opcode) : Fault (.unsupportedOpcode offset opcode)

theorem raises_operation : Operation.decode.read.Raises Fault := by
  refine raises_located fun offset => ?_
  refine Raises.bind (starves_uint8.raises .unexpectedEnd) fun code => ?_
  dsimp only
  split
  next signature _ =>
    exact ((signature.shape.composed_decode fun _ => rfl).starves.raises .unexpectedEnd).bind fun _ => raises_pure _
  next =>
    refine raises_fail ?_
    unfold Operation.withoutSignature
    split
    · exact .unsupportedOpcode offset _
    · exact .unknownOpcode offset _

theorem fault_of_decode {bytes : List UInt8} {encoding : Encoding} {error : Error}
    (failed : decode bytes encoding = .error error) : Fault error := by
  rcases bind_eq_error_iff.mp failed with read | ⟨_, _, done⟩
  · exact raises_many raises_operation read
  · cases done

end LocationExpression

/-! ## Instructions -/

/-- What the reading or the execution of an instruction without an expression fails with. -/
inductive FrameInstruction.Fault : Error → Prop where
  | malformed (offset : Nat) (defect : FrameDefect) : Fault (.malformedCallFrame offset defect)

namespace FrameInstruction

variable {reader : Reader} {block : List UInt8} {error : Error}

theorem Fault.restate {offset : Nat} {defect : FrameDefect} (raised : ShortOr Fault error) :
    Fault (FrameDefect.restate offset defect error) := by
  cases raised with
  | short place => exact .malformed offset defect
  | fault known =>
      cases known
      exact .malformed _ _

theorem raises_restate {α : Type} {decoder : Decoder α} (starves : decoder.Starves) (offset : Nat)
    (defect : FrameDefect) : (decoder.mapError (FrameDefect.restate offset defect)).Raises Fault :=
  (starves.raises .short).mapError fun _ => Fault.restate

end FrameInstruction

namespace PointerEncoding

variable {encoding : PointerEncoding}

theorem raises_apply (place value : UInt64) (addressSize entry : Nat) :
    (Decoder.ofExcept (encoding.apply place value addressSize entry)).Raises
      FrameInstruction.Fault := by
  refine raises_ofExcept fun error failed => ?_
  unfold apply at failed
  split at failed
  · cases failed
  · cases failed
  · cases failed
    exact .malformed _ _

theorem raises_decode (origin : FrameSection) (entry : Nat) :
    (encoding.decode origin entry).Raises FrameInstruction.Fault := by
  rw [decode_eq]
  split
  · exact raises_fail (.malformed _ _)
  · split
    · exact raises_fail (.malformed _ _)
    · split
      next stored found =>
        intro cursor error failed
        exact ((FrameInstruction.raises_restate (composed_stored found).starves _ _).bind fun _ =>
          raises_apply _ _ _ _) failed
      next => exact raises_fail (.malformed _ _)

end PointerEncoding

namespace FrameInstruction

variable {reader : Reader} {block : List UInt8} {error : Error}

namespace Reader

theorem raises_operand {α : Type} {decoder : Decoder α} (starves : decoder.Starves)
    (reader : Reader) : (reader.operand decoder).Raises Fault :=
  raises_restate starves _ _

theorem raises_unsigned (reader : Reader) : reader.unsigned.Raises Fault :=
  reader.raises_operand starves_unsigned

theorem raises_signed (reader : Reader) : reader.signed.Raises Fault :=
  reader.raises_operand starves_signed

theorem raises_factored (reader : Reader) : reader.factored.Raises Fault :=
  reader.raises_unsigned.bind fun _ => raises_pure _

theorem raises_signedFactored (reader : Reader) : reader.signedFactored.Raises Fault :=
  reader.raises_signed.bind fun _ => raises_pure _

theorem raises_register (reader : Reader) : reader.register.Raises Fault := by
  refine (raises_restate starves_unsigned _ _).bind fun register => ?_
  split
  · exact raises_pure _
  · exact raises_fail (.malformed _ _)

end Reader

/-- Without an expression, what is read of an instruction fails with a fault only. -/
theorem raises_extended {code : UInt8} (cfa : code ≠ 0x0f)
    (registered : ¬(code = 0x10 ∨ code = 0x16)) (place : Nat) :
    (extended reader place code).Raises Fault := by
  unfold extended
  split
  · exact raises_pure _
  · exact (PointerEncoding.raises_decode _ _).bind fun _ => raises_pure _
  · exact (reader.raises_operand starves_uint8).bind fun _ => raises_pure _
  · exact (reader.raises_operand starves_uint16).bind fun _ => raises_pure _
  · exact (reader.raises_operand starves_uint32).bind fun _ => raises_pure _
  · exact reader.raises_register.bind fun _ => reader.raises_factored.bind fun _ => raises_pure _
  · exact reader.raises_register.bind fun _ => raises_pure _
  · exact reader.raises_register.bind fun _ => raises_pure _
  · exact reader.raises_register.bind fun _ => raises_pure _
  · exact reader.raises_register.bind fun _ => reader.raises_register.bind fun _ => raises_pure _
  · exact raises_pure _
  · exact raises_pure _
  · exact reader.raises_register.bind fun _ => reader.raises_unsigned.bind fun _ => raises_pure _
  · exact reader.raises_register.bind fun _ => raises_pure _
  · exact reader.raises_unsigned.bind fun _ => raises_pure _
  · exact absurd rfl cfa
  · exact absurd (.inl rfl) registered
  · exact reader.raises_register.bind fun _ => reader.raises_signedFactored.bind fun _ =>
      raises_pure _
  · exact reader.raises_register.bind fun _ => reader.raises_signedFactored.bind fun _ =>
      raises_pure _
  · exact reader.raises_signedFactored.bind fun _ => raises_pure _
  · exact reader.raises_register.bind fun _ => reader.raises_factored.bind fun _ => raises_pure _
  · exact reader.raises_register.bind fun _ => reader.raises_signedFactored.bind fun _ =>
      raises_pure _
  · exact absurd (.inr rfl) registered
  · exact reader.raises_unsigned.bind fun _ => raises_pure _
  · exact reader.raises_register.bind fun _ => reader.raises_unsigned.bind fun _ => raises_pure _
  · exact raises_fail (.malformed _ _)

theorem raises_afterCode {code : UInt8} (cfa : code ≠ 0x0f)
    (registered : ¬(code = 0x10 ∨ code = 0x16)) (place : Nat) :
    (afterCode reader place code).Raises Fault := by
  unfold afterCode
  split
  · exact raises_pure _
  · exact reader.raises_factored.bind fun _ => raises_pure _
  · exact raises_pure _
  · exact raises_extended cfa registered place

/-! ## Instructions that carry an expression -/

/-- The bytes begin with a block, with its length before it. -/
inductive HoldsBlock (block : List UInt8) : List UInt8 → Prop where
  | intro {length : List UInt8} {count : UInt64}
      (stored : Leb128.unsigned length = ⟨.ok count, length.length⟩)
      (same : block.length = count.toNat) (after : List UInt8) :
      HoldsBlock block (length ++ (block ++ after))

/-- The bytes begin with an instruction that carries the block as an expression: for the canonical
frame address, or for a register. -/
inductive Carries (block : List UInt8) : List UInt8 → Prop where
  | cfa {behind : List UInt8} (holds : HoldsBlock block behind) : Carries block (0x0f :: behind)
  | register {code : UInt8} (kind : code = 0x10 ∨ code = 0x16) {register : List UInt8}
      {number : UInt64} (stored : Leb128.unsigned register = ⟨.ok number, register.length⟩)
      (small : number < 0x10000) {behind : List UInt8} (holds : HoldsBlock block behind) :
      Carries block (code :: (register ++ behind))

namespace Reader

theorem rest_of_unsigned {restate : Error → Error} {cursor : Cursor} {value : UInt64}
    (read : ((Consuming.mapError restate Decoder.unsigned).read cursor).result = .ok value) :
    ∃ bytes, Leb128.unsigned bytes = ⟨.ok value, bytes.length⟩ ∧
      cursor.rest =
        bytes ++ ((Consuming.mapError restate Decoder.unsigned).read cursor).next.rest := by
  obtain ⟨bytes, recognizes, rest⟩ :=
    Local.rest Decoder.local_unsigned (mapError_result_eq_ok.mp read)
  refine ⟨bytes, recognizes_unsigned_iff.mp recognizes, ?_⟩
  rw [rest]
  exact congrArg (bytes ++ ·.rest) (mapError_eq _ _ _).2.symm

theorem fault_or_broken {cursor : Cursor} (failed : (reader.expression cursor).result = .error error) :
    Fault error ∨ ∃ block, HoldsBlock block cursor.rest ∧
      LocationExpression.decode block reader.encoding = .error error := by
  rcases bind_result_eq_error.mp failed with short | ⟨count, read, failed⟩
  · exact .inl (raises_restate starves_unsigned _ _ short)
  rcases bind_result_eq_error.mp failed with short | ⟨block, taken, broken⟩
  · exact .inl (raises_restate (starves_bytes _) _ _ short)
  obtain ⟨length, stored, rest⟩ := rest_of_unsigned read
  obtain ⟨same, after⟩ := rest_of_bytes (mapError_result_eq_ok.mp taken)
  have split : cursor.rest = length ++ (block ++ _) := rest.trans (congrArg (length ++ ·) after)
  rw [split]
  exact .inr ⟨block, .intro stored same _, broken⟩

/-- The number of a register that has been read is stored before what follows. -/
theorem rest_of_register {cursor : Cursor} {register : Nat}
    (read : (reader.register cursor).result = .ok register) :
    ∃ bytes number, Leb128.unsigned bytes = ⟨.ok number, bytes.length⟩ ∧ number < 0x10000 ∧
      cursor.rest = bytes ++ (reader.register cursor).next.rest := by
  obtain ⟨number, found, accepted⟩ := bind_result_eq_ok.mp read
  obtain ⟨bytes, stored, rest⟩ := rest_of_unsigned found
  have next : (reader.register cursor).next = _ := bind_next found
  by_cases small : number < 0x10000
  · rw [if_pos small] at next
    rw [next]
    exact ⟨bytes, number, stored, small, rest⟩
  · rw [if_neg small] at accepted
    cases accepted

/-- A block is read as an expression wherever it stands behind its length. -/
theorem answers_holding (reader : Reader) (encoding : Encoding) {bytes : List UInt8}
    (holds : HoldsBlock block bytes) :
    ∃ front after, bytes = front ++ after ∧ reader.expression.Answers encoding front
      (LocationExpression.decode block reader.encoding) := by
  cases holds with
  | @intro length count stored same after =>
      have counted := ((@recognizes_unsigned_iff encoding _ _).mpr stored).mapError
        (FrameDefect.restate reader.entry .truncatedExpressionLength)
      have taken := (@recognizes_bytes encoding block).mapError
        (FrameDefect.restate reader.entry .expressionPastEntry)
      have decoded := @answers_ofExcept _ encoding (LocationExpression.decode block reader.encoding)
      rw [same] at taken
      refine ⟨length ++ (block ++ []), after, by simp, ?_⟩
      refine counted.bind_answers ?_
      exact taken.bind_answers decoded

end Reader

theorem afterCode_cfa (reader : Reader) (place : Nat) :
    afterCode reader place 0x0f = Decoder.bind reader.expression fun expression =>
      Decoder.pure (.defineCfa (.expression expression)) :=
  rfl

theorem afterCode_registered {code : UInt8} (kind : code = 0x10 ∨ code = 0x16) :
    ∃ f : Nat → LocationExpression → FrameInstruction, ∀ reader place,
      afterCode reader place code = Decoder.bind reader.register fun register =>
        Decoder.bind reader.expression fun expression =>
          Decoder.pure (f register expression) := by
  rcases kind with rfl | rfl
  · exact ⟨fun register expression => .setRule register (.expression expression), fun _ _ => rfl⟩
  · exact ⟨fun register expression => .setRule register (.valExpression expression), fun _ _ => rfl⟩

/-- The reading of an instruction fails with a fault or with the error of an expression that the
instruction carries. -/
theorem fault_or_broken {cursor : Cursor}
    (failed : ((decode reader).read cursor).result = .error error) :
    Fault error ∨ ∃ block, Carries block cursor.rest ∧
      LocationExpression.decode block reader.encoding = .error error := by
  change (Decoder.bind (code reader).read (afterCode reader cursor.offset) cursor).result = _
    at failed
  rcases bind_result_eq_error.mp failed with short | ⟨byte, read, failed⟩
  · exact .inl (raises_restate starves_uint8 _ _ short)
  rw [rest_of_code read]
  by_cases cfa : byte = 0x0f
  · rw [cfa, afterCode_cfa] at failed
    rcases bind_result_eq_error.mp failed with failed | ⟨_, _, done⟩
    · exact (reader.fault_or_broken failed).imp_right fun ⟨block, holds, broken⟩ =>
        ⟨block, cfa ▸ .cfa holds, broken⟩
    · cases done
  by_cases kind : byte = 0x10 ∨ byte = 0x16
  · obtain ⟨f, same⟩ := afterCode_registered kind
    rw [same] at failed
    rcases bind_result_eq_error.mp failed with short | ⟨register, register_read, failed⟩
    · exact .inl (reader.raises_register short)
    obtain ⟨bytes, number, stored, small, rest⟩ := reader.rest_of_register register_read
    rcases bind_result_eq_error.mp failed with failed | ⟨_, _, done⟩
    · rw [rest]
      exact (reader.fault_or_broken failed).imp_right fun ⟨block, holds, broken⟩ =>
        ⟨block, .register kind stored small holds, broken⟩
    · cases done
  · exact .inl (raises_afterCode cfa kind _ failed)

theorem Carries.unfinished {cursor : Cursor} (carries : Carries block cursor.rest) :
    cursor.atEnd = false := by
  rw [← Bool.not_eq_true, Cursor.atEnd_iff_rest]
  intro empty
  rw [empty] at carries
  cases carries

/-- An instruction that carries a broken expression cannot be read. -/
theorem Carries.fails {cursor : Cursor} (carries : Carries block cursor.rest)
    (broken : LocationExpression.decode block reader.encoding = .error error) :
    ((decode reader).read cursor).result = .error error := by
  have under := cursor.under_encoding
  generalize rest : cursor.rest = bytes at carries
  cases carries with
  | cfa holds =>
      obtain ⟨front, after, rfl, answers⟩ := reader.answers_holding cursor.encoding holds
      rw [broken] at answers
      have failing (place : Nat) : (afterCode reader place 0x0f).Answers cursor.encoding front
          (.error error) :=
        afterCode_cfa reader place ▸ answers.bind_of_error
      exact (answers_decode failing under rest).1
  | @register code kind register number stored small behind holds =>
      obtain ⟨f, same⟩ := afterCode_registered kind
      obtain ⟨front, after, rfl, answers⟩ := reader.answers_holding cursor.encoding holds
      rw [broken] at answers
      have named := reader.answers_register ((@recognizes_unsigned_iff cursor.encoding _ _).mpr stored)
      rw [Reader.number, if_pos small] at named
      have failing (place : Nat) : (afterCode reader place code).Answers cursor.encoding
          (register ++ front) (.error error) :=
        same reader place ▸ named.recognizes.bind_answers answers.bind_of_error
      rw [← List.append_assoc] at rest
      exact (answers_decode failing under rest).1

end FrameInstruction

/-! ## Replays -/

namespace FrameMachine

/-- An instruction that cannot be executed is a fault. -/
theorem fault_of_step {machine : FrameMachine} {origin : FrameSection} {entry : FunctionEntry}
    {initial : Option RuleSet} {place : Nat} {instruction : FrameInstruction} {error : Error}
    (failed : machine.step origin entry initial place instruction = .error error) :
    FrameInstruction.Fault error := by
  cases instruction with
  | setLocation address =>
      dsimp only [step] at failed
      split at failed
      · cases failed
        exact .malformed _ _
      · cases failed
  | restoreState | defineCfaRegister register | defineCfaOffset offset =>
      dsimp only [step] at failed
      split at failed
      · cases failed
      · cases failed
        exact .malformed _ _
  | advance | setRule | restore | rememberState | defineCfa | nop => cases failed

namespace Replay

/-- What a replay fails with unless it comes to a broken expression. -/
inductive Fault (budget : Nat) : Error → Prop where
  | malformed (offset : Nat) (defect : FrameDefect) : Fault budget (.malformedCallFrame offset defect)
  | exhausted : Fault budget (.budgetExceeded budget)

/-- The replay of a function comes, within the budget, to an instruction with an expression that
cannot be decoded. -/
def Breaks (replay : Replay) (error : Error) : Prop :=
  ∃ initial cursor machine block, replay.ComesTo initial cursor machine ∧
    machine.executed < replay.budget ∧ FrameInstruction.Carries block cursor.rest ∧
      LocationExpression.decode block replay.reader.encoding = .error error

variable {replay : Replay} {error : Error}

theorem Fault.of_instruction {budget : Nat} (fault : FrameInstruction.Fault error) :
    Fault budget error := by
  cases fault
  exact .malformed _ _

theorem Fault.not_expression {budget : Nat} (fault : Fault budget error) :
    ¬LocationExpression.Fault error := by
  cases fault <;> exact nofun

/-- A pass fails with a fault or because the instruction cannot be read. -/
theorem execute_eq_error {initial : Option RuleSet} {machine : FrameMachine} {place : Nat}
    {read : Except Error FrameInstruction}
    (failed : replay.execute initial machine place read = .error error) :
    Fault replay.budget error ∨ machine.executed < replay.budget ∧ read = .error error := by
  unfold execute at failed
  split at failed
  · cases failed
    exact .inl .exhausted
  next affordable =>
    rcases bind_eq_error_iff.mp failed with unread | ⟨_, _, stopped⟩
    · exact .inr ⟨Nat.lt_of_not_le affordable, unread⟩
    · exact .inl (.of_instruction (fault_of_step stopped))

theorem rows_eq_error (failed : replay.rows = .error error) :
    Fault replay.budget error ∨ replay.Breaks error := by
  obtain ⟨initial, cursor, machine, comes, _, stopped⟩ := rows_eq_error_iff.mp failed
  rw [(pass_eq initial machine cursor).1] at stopped
  rcases execute_eq_error stopped with fault | ⟨affordable, unread⟩
  · exact .inl fault
  rcases FrameInstruction.fault_or_broken unread with fault | ⟨block, carries, broken⟩
  · exact .inl (.of_instruction fault)
  · exact .inr ⟨initial, cursor, machine, block, comes, affordable, carries, broken⟩

theorem Breaks.rows_eq (breaks : replay.Breaks error) :
    replay.rows = .error error ∧ LocationExpression.Fault error := by
  obtain ⟨initial, cursor, machine, block, comes, affordable, carries, broken⟩ := breaks
  refine ⟨rows_eq_error_iff.mpr ⟨initial, cursor, machine, comes, carries.unfinished, ?_⟩,
    LocationExpression.fault_of_decode broken⟩
  rw [(pass_eq initial machine cursor).1, execute, if_neg (Nat.not_le_of_lt affordable),
    carries.fails broken]
  rfl

end Replay

end FrameMachine

namespace FrameTable

open FrameMachine.Replay (Fault Breaks)

/-- The replay of a function fails with a defect of call frame information or because its budget is
exhausted, except that it fails with another error exactly if it comes to an instruction whose
expression cannot be decoded with this error.  The same holds where a function is unwound. -/
theorem faults_of_rows (table : FrameTable) (error : Error) :
    (∀ entry, table.rows entry = .error error ∧ ¬Fault table.budget error ↔
      (table.replay entry).Breaks error) ∧
    ∀ pc, table.unwindAt pc = .error error ∧ ¬Fault table.budget error ↔
      ∃ entry, table.functionFor? pc = some entry ∧ (table.replay entry).Breaks error := by
  have rows (entry : FunctionEntry) : table.rows entry = .error error ∧ ¬Fault table.budget error ↔
      (table.replay entry).Breaks error := by
    constructor
    · rintro ⟨failed, foreign⟩
      exact (FrameMachine.Replay.rows_eq_error failed).resolve_left foreign
    · intro breaks
      obtain ⟨failed, fault⟩ := breaks.rows_eq
      exact ⟨failed, fun own => own.not_expression fault⟩
  refine ⟨rows, fun pc => ?_⟩
  unfold unwindAt
  cases found : table.functionFor? pc with
  | none => simp
  | some entry =>
      have unwound : (do return (← table.rows entry).find? fun row => row.contains pc :
          Except Error (Option UnwindRow)) = .error error ↔ table.rows entry = .error error := by
        rw [bind_eq_error_iff]
        exact or_iff_left fun ⟨_, _, done⟩ => nomatch done
      simp only [unwound, rows, Option.some.injEq, exists_eq_left']

/-- A section with one function, whose rule for the canonical frame address is an expression of one
byte: an operation without its operand. -/
def missingOperand : FrameTable :=
  decode
    [0x0c, 0, 0, 0, 0xff, 0xff, 0xff, 0xff, 1, 0, 1, 0x78, 0x10, 0x0f, 1, 0x08,
      0x14, 0, 0, 0, 0, 0, 0, 0, 0, 0x10, 0, 0, 0, 0, 0, 0, 0x10, 0, 0, 0, 0, 0, 0, 0]
    ⟨.debug, .little, 0, 8⟩ 10000

/-- Its replay and unwinding in it run out of data at an offset of the expression. -/
theorem missingOperand_leaks :
    ∃ entry ∈ missingOperand.functions, ∃ error, missingOperand.rows entry = .error error ∧
      missingOperand.unwindAt entry.start = .error error ∧ ¬Fault missingOperand.budget error := by
  have facts : missingOperand.functions.map (fun entry =>
      (missingOperand.rows entry, missingOperand.unwindAt entry.start)) =
        [(.error (.unexpectedEnd 1), .error (.unexpectedEnd 1))] := by
    decide +kernel
  obtain ⟨entry, functions, replayed⟩ := List.map_eq_singleton_iff.mp facts
  obtain ⟨rows, unwound⟩ := Prod.mk.inj replayed
  exact ⟨entry, functions ▸ List.mem_singleton_self entry, _, rows, unwound, nofun⟩

end FrameTable

end Dwarf
