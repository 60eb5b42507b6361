import Mathlib.Data.Int.ModEq
import Mathlib.Data.List.Forall2
import Dwarf.Proofs.Frame.Instruction

/-!
# Stored call frame instructions

The instructions that have alternative encodings, with their operands as they are stored.  A
variable-length operand may be stored in any byte string that is read as its value.  Reading such an
instruction gives its meaning, which is an error if a register number is too large.
-/

namespace Dwarf

namespace Decoder

variable {α β : Type} {encoding : Encoding}

/-- Wherever the byte string comes next, the decoder gives the answer.  If this is a value, the
decoder has passed the byte string and nothing more. -/
def Answers (decoder : Decoder α) (encoding : Encoding) (bytes : List UInt8)
    (answer : Except Error α) : Prop :=
  ∀ ⦃cursor : Cursor⦄ ⦃after : List UInt8⦄, cursor.Under encoding → cursor.rest = bytes ++ after →
    (decoder cursor).result = answer ∧ ∀ value, answer = .ok value →
      ∃ fits, (decoder cursor).next = cursor.forward bytes.length fits

theorem Recognizes.answers {decoder : Decoder α} {bytes : List UInt8} {value : α}
    (recognizes : decoder.Recognizes encoding bytes value) :
    decoder.Answers encoding bytes (.ok value) := by
  intro cursor after under rest
  obtain ⟨fits, read, next⟩ := recognizes under rest
  exact ⟨read, fun _ _ => ⟨fits, next⟩⟩

theorem Answers.recognizes {decoder : Decoder α} {bytes : List UInt8} {value : α}
    (answers : decoder.Answers encoding bytes (.ok value)) :
    decoder.Recognizes encoding bytes value := by
  intro cursor after under rest
  obtain ⟨read, next⟩ := answers under rest
  obtain ⟨fits, next⟩ := next value rfl
  exact ⟨fits, read, next⟩

theorem answers_fail (bytes : List UInt8) (error : Error) :
    (Decoder.fail error : Decoder α).Answers encoding bytes (.error error) :=
  fun _ _ _ _ => ⟨rfl, nofun⟩

theorem answers_ofExcept (result : Except Error α) :
    (Decoder.ofExcept result).Answers encoding [] result :=
  fun _ _ _ _ => ⟨rfl, fun _ _ => ⟨Nat.zero_le _, rfl⟩⟩

theorem Answers.bind {first : Decoder α} {second : α → Decoder β} {front back : List UInt8}
    {inner : Except Error α} {answer : α → Except Error β}
    (left : first.Answers encoding front inner)
    (right : ∀ value, inner = .ok value →
      (second value).Answers encoding back (answer value)) :
    (Decoder.bind first second).Answers encoding (front ++ back) (inner >>= answer) := by
  cases inner with
  | error error =>
      intro cursor after under rest
      rw [List.append_assoc] at rest
      exact ⟨(bind_of_error (left under rest).1).1, nofun⟩
  | ok value =>
      cases answered : answer value with
      | ok last =>
          have later := right value rfl
          rw [answered] at later
          have both := (left.recognizes.bind later.recognizes).answers
          rw [← answered] at both
          exact both
      | error error =>
          intro cursor after under rest
          rw [List.append_assoc] at rest
          obtain ⟨fits, read, next⟩ := left.recognizes under rest
          have failed := (right value rfl (under.forward fits) (Cursor.forward_rest rest fits)).1
          change _ = answer value ∧ ∀ last, answer value = .ok last → _
          rw [answered] at failed ⊢
          refine ⟨?_, nofun⟩
          rw [← next] at failed
          unfold Decoder.bind
          rw [reading_of_result read]
          exact failed

theorem Answers.bind_of_error {first : Decoder α} {second : α → Decoder β} {bytes : List UInt8}
    {error : Error} (failed : first.Answers encoding bytes (.error error)) :
    (Decoder.bind first second).Answers encoding bytes (.error error) :=
  fun _ _ under rest => ⟨(Decoder.bind_of_error (failed under rest).1).1, nofun⟩

theorem Recognizes.bind_answers {first : Decoder α} {second : α → Decoder β}
    {front back : List UInt8} {inner : α} {answer : Except Error β}
    (left : first.Recognizes encoding front inner)
    (right : (second inner).Answers encoding back answer) :
    (Decoder.bind first second).Answers encoding (front ++ back) answer := by
  refine @Answers.bind _ _ _ _ second _ _ _ (fun _ => answer) left.answers ?_
  rintro _ ⟨⟩
  exact right

theorem Answers.located {decoder : Nat → Consuming α} {bytes : List UInt8}
    {answer : Except Error α}
    (answers : ∀ offset, (decoder offset).read.Answers encoding bytes answer) :
    (Consuming.located decoder).read.Answers encoding bytes answer :=
  fun cursor _ under rest => answers cursor.offset under rest

end Decoder

open Decoder

/-- An operand of a stored instruction. -/
inductive FrameOperand where
  | unsigned (value : UInt64)
  | signed (value : Int64)
  | byte (value : UInt8)
  | half (value : UInt16)
  | word (value : UInt32)

/-- The byte string is read as the operand. -/
def FrameOperand.StoredAs (encoding : Encoding) (bytes : List UInt8) : FrameOperand → Prop
  | unsigned value => Decoder.unsigned.read.Recognizes encoding bytes value
  | signed value => Decoder.signed.read.Recognizes encoding bytes value
  | byte value => Decoder.uint8.read.Recognizes encoding bytes value
  | half value => Decoder.uint16.read.Recognizes encoding bytes value
  | word value => Decoder.uint32.read.Recognizes encoding bytes value

namespace FrameOperand

variable {encoding : Encoding} {operand other : FrameOperand} {stored : List (List UInt8)}

theorem stored_single (parts : List.Forall₂ (fun operand bytes => StoredAs encoding bytes operand)
    [operand] stored) : operand.StoredAs encoding stored.flatten := by
  rcases parts with _ | ⟨first, _ | _⟩
  rw [List.flatten_singleton]
  exact first

theorem stored_pair (parts : List.Forall₂ (fun operand bytes => StoredAs encoding bytes operand)
    [operand, other] stored) :
    ∃ front back, stored.flatten = front ++ back ∧ operand.StoredAs encoding front ∧
      other.StoredAs encoding back := by
  rcases parts with _ | ⟨first, rest⟩
  exact ⟨_, _, List.flatten_cons, first, stored_single rest⟩

end FrameOperand

/-- A call frame instruction as it is stored. -/
inductive StoredInstruction where
  | advanceLoc (units : Fin 64)
  | advanceLoc1 (units : UInt8)
  | advanceLoc2 (units : UInt16)
  | advanceLoc4 (units : UInt32)
  | offset (register : Fin 64) (units : UInt64)
  | offsetExtended (register units : UInt64)
  | offsetExtendedSf (register : UInt64) (units : Int64)
  | negativeOffsetExtended (register units : UInt64)
  | valOffset (register units : UInt64)
  | valOffsetSf (register : UInt64) (units : Int64)
  | restore (register : Fin 64)
  | restoreExtended (register : UInt64)
  | defCfa (register distance : UInt64)
  | defCfaSf (register : UInt64) (units : Int64)
  | defCfaRegister (register : UInt64)
  | defCfaOffset (distance : UInt64)
  | defCfaOffsetSf (units : Int64)

namespace StoredInstruction

/-- The first byte of an instruction. Three instructions carry an operand in its low bits. -/
def code : StoredInstruction → UInt8
  | advanceLoc units => 0x40 + .ofNat units
  | advanceLoc1 _ => 0x02
  | advanceLoc2 _ => 0x03
  | advanceLoc4 _ => 0x04
  | offset register _ => 0x80 + .ofNat register
  | offsetExtended _ _ => 0x05
  | offsetExtendedSf _ _ => 0x11
  | negativeOffsetExtended _ _ => 0x2f
  | valOffset _ _ => 0x14
  | valOffsetSf _ _ => 0x15
  | restore register => 0xc0 + .ofNat register
  | restoreExtended _ => 0x06
  | defCfa _ _ => 0x0c
  | defCfaSf _ _ => 0x12
  | defCfaRegister _ => 0x0d
  | defCfaOffset _ => 0x0e
  | defCfaOffsetSf _ => 0x13

/-- The operands behind the first byte. -/
def operands : StoredInstruction → List FrameOperand
  | advanceLoc _ | restore _ => []
  | advanceLoc1 units => [.byte units]
  | advanceLoc2 units => [.half units]
  | advanceLoc4 units => [.word units]
  | offset _ units => [.unsigned units]
  | offsetExtended register units | negativeOffsetExtended register units
  | valOffset register units | defCfa register units => [.unsigned register, .unsigned units]
  | offsetExtendedSf register units | valOffsetSf register units
  | defCfaSf register units => [.unsigned register, .signed units]
  | restoreExtended register | defCfaRegister register => [.unsigned register]
  | defCfaOffset distance => [.unsigned distance]
  | defCfaOffsetSf units => [.signed units]

/-- The byte string is the code of the instruction followed by byte strings of its operands. -/
def StoredAs (instruction : StoredInstruction) (encoding : Encoding) (bytes : List UInt8) : Prop :=
  ∃ stored, List.Forall₂ (fun operand bytes => operand.StoredAs encoding bytes)
    instruction.operands stored ∧ bytes = instruction.code :: stored.flatten

end StoredInstruction

namespace FrameInstruction

variable {reader : Reader} {encoding : Encoding} {bytes : List UInt8}

namespace Reader

/-- The register of a number, if there can be one. -/
def number (reader : Reader) (register : UInt64) : Except Error Nat :=
  if register < 0x10000 then .ok register.toNat
  else .error (.malformedCallFrame reader.entry (.wideRegister register))

theorem answers_register (reader : Reader) {register : UInt64}
    (stored : Decoder.unsigned.read.Recognizes encoding bytes register) :
    reader.register.Answers encoding bytes (reader.number register) := by
  have number (register : UInt64) : (if register < 0x10000 then Decoder.pure register.toNat
      else Decoder.fail (.malformedCallFrame reader.entry (.wideRegister register))).Answers
        encoding [] (reader.number register) := by
    unfold Reader.number
    split
    · exact (Recognizes.pure _).answers
    · exact answers_fail _ _
  have both := (stored.mapError (FrameDefect.restate reader.entry .truncatedRegister)).answers.bind
    fun register _ => number register
  rw [List.append_nil] at both
  exact both

theorem recognizes_unsigned (reader : Reader) {value : UInt64}
    (stored : Decoder.unsigned.read.Recognizes encoding bytes value) :
    reader.unsigned.Recognizes encoding bytes value :=
  stored.mapError _

theorem recognizes_factored (reader : Reader) {units : UInt64}
    (stored : Decoder.unsigned.read.Recognizes encoding bytes units) :
    reader.factored.Recognizes encoding bytes (units.toInt64 * reader.common.dataAlignment) :=
  (stored.mapError _).map _

theorem recognizes_signedFactored (reader : Reader) {units : Int64}
    (stored : Decoder.signed.read.Recognizes encoding bytes units) :
    reader.signedFactored.Recognizes encoding bytes (units * reader.common.dataAlignment) :=
  (stored.mapError _).map _

end Reader

theorem answers_decode {code : UInt8} {answer : Except Error FrameInstruction}
    (after : ∀ place, (afterCode reader place code).Answers encoding bytes answer) :
    (decode reader).read.Answers encoding (code :: bytes) answer := by
  refine Answers.located fun place => ?_
  have read := (@recognizes_uint8 encoding code).mapError
    (FrameDefect.restate reader.entry .instructionPastEntry)
  exact read.bind_answers (after place)

end FrameInstruction

namespace StoredInstruction

open FrameInstruction

variable {reader : Reader} {encoding : Encoding} {bytes : List UInt8}

/-- What a stored instruction means to a reader. -/
def meaning (reader : Reader) : StoredInstruction → Except Error FrameInstruction
  | advanceLoc units => .ok (.advance (.ofNat units))
  | advanceLoc1 units => .ok (.advance units.toUInt64)
  | advanceLoc2 units => .ok (.advance units.toUInt64)
  | advanceLoc4 units => .ok (.advance units.toUInt64)
  | offset register units =>
    .ok (.setRule register (.offset (units.toInt64 * reader.common.dataAlignment)))
  | offsetExtended register units => do
    return .setRule (← reader.number register)
      (.offset (units.toInt64 * reader.common.dataAlignment))
  | offsetExtendedSf register units => do
    return .setRule (← reader.number register) (.offset (units * reader.common.dataAlignment))
  | negativeOffsetExtended register units => do
    return .setRule (← reader.number register)
      (.offset (-units.toInt64 * reader.common.dataAlignment))
  | valOffset register units => do
    return .setRule (← reader.number register)
      (.valOffset (units.toInt64 * reader.common.dataAlignment))
  | valOffsetSf register units => do
    return .setRule (← reader.number register) (.valOffset (units * reader.common.dataAlignment))
  | restore register => .ok (.restore register)
  | restoreExtended register => do return .restore (← reader.number register)
  | defCfa register distance => do
    return .defineCfa (.registerPlus (← reader.number register) distance.toInt64)
  | defCfaSf register units => do
    return .defineCfa (.registerPlus (← reader.number register)
      (units * reader.common.dataAlignment))
  | defCfaRegister register => do return .defineCfaRegister (← reader.number register)
  | defCfaOffset distance => .ok (.defineCfaOffset distance.toInt64)
  | defCfaOffsetSf units => .ok (.defineCfaOffset (units * reader.common.dataAlignment))

theorem packed_code {selector : UInt8} (possible : selector ∈ [0x40, 0x80, 0xc0])
    (operand : Fin 64) :
    (selector + .ofNat operand) &&& 0xc0 = selector ∧
      (selector + .ofNat operand) &&& 0x3f = .ofNat operand := by
  revert selector operand
  decide +kernel

theorem packed_operand (operand : Fin 64) : (UInt8.ofNat operand).toNat = operand := by
  rw [UInt8.toNat_ofNat']
  exact Nat.mod_eq_of_lt (by omega)

theorem widen_packed (operand : Fin 64) :
    (UInt8.ofNat operand).toUInt64 = .ofNat operand := by
  rw [← UInt64.toNat_inj, UInt8.toNat_toUInt64, packed_operand, UInt64.toNat_ofNat']
  exact (Nat.mod_eq_of_lt (by omega)).symm

theorem afterCode_advanceLoc (units : Fin 64) (place : Nat) :
    afterCode reader place (0x40 + .ofNat units) = Decoder.pure (.advance (.ofNat units)) := by
  obtain ⟨selected, operand⟩ := @packed_code 0x40 (by decide) units
  unfold afterCode
  rw [selected, operand, widen_packed]
  rfl

theorem afterCode_offset (register : Fin 64) (place : Nat) :
    afterCode reader place (0x80 + .ofNat register) = Decoder.bind reader.factored fun distance =>
      Decoder.pure (.setRule register (.offset distance)) := by
  obtain ⟨selected, operand⟩ := @packed_code 0x80 (by decide) register
  unfold afterCode
  rw [selected, operand, packed_operand]
  rfl

theorem afterCode_restore (register : Fin 64) (place : Nat) :
    afterCode reader place (0xc0 + .ofNat register) = Decoder.pure (.restore register) := by
  obtain ⟨selected, operand⟩ := @packed_code 0xc0 (by decide) register
  unfold afterCode
  rw [selected, operand, packed_operand]
  rfl

theorem answers_pair {α : Type} (reader : Reader) (f : Nat → α → FrameInstruction)
    {front back : List UInt8} {register : UInt64} {second : Decoder α} {value : α}
    (left : FrameOperand.StoredAs encoding front (.unsigned register))
    (right : second.Recognizes encoding back value) :
    (Decoder.bind reader.register fun register => Decoder.bind second fun value =>
      Decoder.pure (f register value)).Answers encoding (front ++ back)
        (do return f (← reader.number register) value) :=
  (reader.answers_register left).bind fun register _ => (right.map (f register)).answers

theorem answers_single (reader : Reader) (f : Nat → FrameInstruction) {register : UInt64}
    (stored : FrameOperand.StoredAs encoding bytes (.unsigned register)) :
    (Decoder.bind reader.register fun register => Decoder.pure (f register)).Answers encoding bytes
      (do return f (← reader.number register)) := by
  have rest (number : Nat) (_ : reader.number register = .ok number) :
      (Decoder.pure (f number)).Answers encoding [] (.ok (f number)) :=
    (Recognizes.pure (f number)).answers
  have both := (reader.answers_register stored).bind rest
  rw [List.append_nil] at both
  exact both

/-- A stored instruction is read as what it means. -/
theorem StoredAs.answers {instruction : StoredInstruction}
    (stored : instruction.StoredAs encoding bytes) (reader : Reader) :
    (decode reader).read.Answers encoding bytes (instruction.meaning reader) := by
  obtain ⟨parts, operands, rfl⟩ := stored
  refine answers_decode fun place => ?_
  cases instruction with dsimp only [StoredInstruction.code]
  | advanceLoc units =>
      cases operands
      exact afterCode_advanceLoc units place ▸ (Recognizes.pure _).answers
  | advanceLoc1 units =>
      have read := (FrameOperand.stored_single operands).mapError
        (FrameDefect.restate reader.entry .instructionPastEntry)
      exact (read.map fun units => FrameInstruction.advance units.toUInt64).answers
  | advanceLoc2 units =>
      have read := (FrameOperand.stored_single operands).mapError
        (FrameDefect.restate reader.entry .instructionPastEntry)
      exact (read.map fun units => FrameInstruction.advance units.toUInt64).answers
  | advanceLoc4 units =>
      have read := (FrameOperand.stored_single operands).mapError
        (FrameDefect.restate reader.entry .instructionPastEntry)
      exact (read.map fun units => FrameInstruction.advance units.toUInt64).answers
  | offset register units =>
      have read := reader.recognizes_factored (FrameOperand.stored_single operands)
      exact afterCode_offset register place ▸ (read.map _).answers
  | offsetExtended register units =>
      obtain ⟨front, back, same, left, right⟩ := FrameOperand.stored_pair operands
      rw [same]
      exact answers_pair reader (fun register distance => .setRule register (.offset distance)) left
        (reader.recognizes_factored right)
  | offsetExtendedSf register units =>
      obtain ⟨front, back, same, left, right⟩ := FrameOperand.stored_pair operands
      rw [same]
      exact answers_pair reader (fun register distance => .setRule register (.offset distance)) left
        (reader.recognizes_signedFactored right)
  | negativeOffsetExtended register units =>
      obtain ⟨front, back, same, left, right⟩ := FrameOperand.stored_pair operands
      rw [same]
      have negated := answers_pair reader (fun register units => .setRule register
        (.offset (-units.toInt64 * reader.common.dataAlignment))) left
        (reader.recognizes_unsigned right)
      exact negated
  | valOffset register units =>
      obtain ⟨front, back, same, left, right⟩ := FrameOperand.stored_pair operands
      rw [same]
      exact answers_pair reader (fun register distance => .setRule register (.valOffset distance))
        left (reader.recognizes_factored right)
  | valOffsetSf register units =>
      obtain ⟨front, back, same, left, right⟩ := FrameOperand.stored_pair operands
      rw [same]
      exact answers_pair reader (fun register distance => .setRule register (.valOffset distance))
        left (reader.recognizes_signedFactored right)
  | restore register =>
      cases operands
      exact afterCode_restore register place ▸ (Recognizes.pure _).answers
  | restoreExtended register =>
      exact answers_single reader .restore (FrameOperand.stored_single operands)
  | defCfa register distance =>
      obtain ⟨front, back, same, left, right⟩ := FrameOperand.stored_pair operands
      rw [same]
      exact answers_pair reader (fun register distance =>
        .defineCfa (.registerPlus register distance.toInt64)) left (reader.recognizes_unsigned right)
  | defCfaSf register units =>
      obtain ⟨front, back, same, left, right⟩ := FrameOperand.stored_pair operands
      rw [same]
      exact answers_pair reader (fun register distance =>
        .defineCfa (.registerPlus register distance)) left (reader.recognizes_signedFactored right)
  | defCfaRegister register =>
      exact answers_single reader .defineCfaRegister (FrameOperand.stored_single operands)
  | defCfaOffset distance =>
      have read := reader.recognizes_unsigned (FrameOperand.stored_single operands)
      exact (read.map fun distance => defineCfaOffset distance.toInt64).answers
  | defCfaOffsetSf units =>
      have read := reader.recognizes_signedFactored (FrameOperand.stored_single operands)
      exact (read.map defineCfaOffset).answers

theorem StoredAs.ne_nil {instruction : StoredInstruction}
    (stored : instruction.StoredAs encoding bytes) : bytes ≠ [] := by
  obtain ⟨parts, _, rfl⟩ := stored
  exact List.cons_ne_nil _ _

/-! ## Alternative encodings -/

/-- Two ways to store one instruction, for offsets that are stored in units of `dataAlignment`. -/
inductive Alternative (dataAlignment : Int64) : StoredInstruction → StoredInstruction → Prop where
  | advanceLoc1 (units : Fin 64) :
      Alternative dataAlignment (.advanceLoc units) (.advanceLoc1 (.ofNat units))
  | advanceLoc2 (units : Fin 64) :
      Alternative dataAlignment (.advanceLoc units) (.advanceLoc2 (.ofNat units))
  | advanceLoc4 (units : Fin 64) :
      Alternative dataAlignment (.advanceLoc units) (.advanceLoc4 (.ofNat units))
  | offsetExtended (register : Fin 64) (units : UInt64) :
      Alternative dataAlignment (.offset register units) (.offsetExtended (.ofNat register) units)
  | offsetExtendedSf (register : UInt64) {units : UInt64} {signed : Int64}
      (same : signed.toInt = units.toNat) :
      Alternative dataAlignment (.offsetExtended register units) (.offsetExtendedSf register signed)
  | negativeOffset (register : UInt64) {units : UInt64} {signed : Int64}
      (opposite : signed.toInt = -units.toNat) :
      Alternative dataAlignment (.negativeOffsetExtended register units)
        (.offsetExtendedSf register signed)
  | valOffsetSf (register : UInt64) {units : UInt64} {signed : Int64}
      (same : signed.toInt = units.toNat) :
      Alternative dataAlignment (.valOffset register units) (.valOffsetSf register signed)
  | restoreExtended (register : Fin 64) :
      Alternative dataAlignment (.restore register) (.restoreExtended (.ofNat register))
  | defCfaSf (register : UInt64) {distance : UInt64} {units : Int64}
      (same : (distance.toNat : Int) ≡ units.toInt * dataAlignment.toInt [ZMOD 2 ^ 64]) :
      Alternative dataAlignment (.defCfa register distance) (.defCfaSf register units)
  | defCfaOffsetSf {distance : UInt64} {units : Int64}
      (same : (distance.toNat : Int) ≡ units.toInt * dataAlignment.toInt [ZMOD 2 ^ 64]) :
      Alternative dataAlignment (.defCfaOffset distance) (.defCfaOffsetSf units)

theorem number_ofNat (register : Fin 64) : reader.number (.ofNat register) = .ok register := by
  have value : (UInt64.ofNat register).toNat = register := by
    rw [UInt64.toNat_ofNat']
    exact Nat.mod_eq_of_lt (by omega)
  have small : UInt64.ofNat register < 0x10000 := by
    rw [UInt64.lt_iff_toNat_lt, value]
    exact Nat.lt_trans register.isLt (by decide)
  rw [Reader.number, if_pos small, value]

theorem toInt64_eq_ofInt (word : UInt64) : word.toInt64 = .ofInt word.toNat := by
  rw [Int64.ofInt_eq_ofNat, ← UInt64.toInt64_ofNat', UInt64.ofNat_toNat]

theorem toInt64_eq {word : UInt64} {number : Int64} (same : number.toInt = word.toNat) :
    word.toInt64 = number := by
  rw [toInt64_eq_ofInt, ← same, Int64.ofInt_toInt]

theorem neg_toInt64_eq {word : UInt64} {number : Int64} (opposite : number.toInt = -word.toNat) :
    -word.toInt64 = number := by
  rw [toInt64_eq_ofInt, ← Int64.ofInt_neg, ← opposite, Int64.ofInt_toInt]

theorem toInt64_eq_mul {word : UInt64} {units unit : Int64}
    (same : (word.toNat : Int) ≡ units.toInt * unit.toInt [ZMOD 2 ^ 64]) :
    word.toInt64 = units * unit := by
  rw [toInt64_eq_ofInt, Int64.ofInt_eq_iff_bmod_eq_toInt, Int64.toInt_mul, ← Int.emod_bmod,
    ← Int.emod_bmod (units.toInt * unit.toInt)]
  exact congrArg (fun number => Int.bmod number (2 ^ 64)) same

/-- Alternative encodings mean the same, a register number that is too large included. -/
theorem Alternative.meaning_eq {instruction other : StoredInstruction}
    (alternative : Alternative reader.common.dataAlignment instruction other) :
    other.meaning reader = instruction.meaning reader := by
  cases alternative with
  | advanceLoc1 units =>
      have same : (UInt8.ofNat units).toUInt64 = .ofNat units := widen_packed units
      rw [meaning, meaning, same]
  | advanceLoc2 units =>
      have same : (UInt16.ofNat units).toUInt64 = .ofNat units := by
        rw [← UInt64.toNat_inj, UInt16.toNat_toUInt64, UInt16.toNat_ofNat', UInt64.toNat_ofNat']
        omega
      rw [meaning, meaning, same]
  | advanceLoc4 units =>
      have same : (UInt32.ofNat units).toUInt64 = .ofNat units := by
        rw [← UInt64.toNat_inj, UInt32.toNat_toUInt64, UInt32.toNat_ofNat', UInt64.toNat_ofNat']
        omega
      rw [meaning, meaning, same]
  | offsetExtended register units =>
      rw [meaning, meaning, number_ofNat]
      rfl
  | offsetExtendedSf register same => rw [meaning, meaning, toInt64_eq same]
  | negativeOffset register opposite => rw [meaning, meaning, neg_toInt64_eq opposite]
  | valOffsetSf register same => rw [meaning, meaning, toInt64_eq same]
  | restoreExtended register =>
      rw [meaning, meaning, number_ofNat]
      rfl
  | defCfaSf register same => rw [meaning, meaning, toInt64_eq_mul same]
  | defCfaOffsetSf same => rw [meaning, meaning, toInt64_eq_mul same]

end StoredInstruction

end Dwarf
