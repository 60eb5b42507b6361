import Dwarf.Frame.Instruction
import Dwarf.Proofs.Decoder.Integer
import Dwarf.Proofs.Decoder.Placeless

/-!
# Call frame instructions elsewhere

What an instruction is read as does not depend on the place where it is stored, with one exception:
a new location may be stored relative to its own place.
-/

namespace Dwarf

open Decoder

namespace PointerEncoding

/-- The value is relative to the place where it is stored. -/
def IsRelative (encoding : PointerEncoding) : Prop :=
  encoding.code &&& 0x70 = 0x10

instance (encoding : PointerEncoding) : Decidable encoding.IsRelative :=
  inferInstanceAs (Decidable (_ = _))

theorem apply_place {encoding : PointerEncoding} (absolute : ¬encoding.IsRelative)
    (place other value : UInt64) (addressSize entry : Nat) :
    encoding.apply place value addressSize entry = encoding.apply other value addressSize entry := by
  unfold apply
  split
  · rfl
  next relative => exact absurd relative absolute
  · rfl

/-- What follows the check of an encoding: the stored number, and what it stands for. -/
def fetch (encoding : PointerEncoding) (stored : Decoder UInt64) (address : UInt64) (entry : Nat)
    (cursor : Cursor) : Decoder UInt64 :=
  Decoder.bind (stored.mapError (FrameDefect.restate entry .pointerPastEntry)) fun value =>
    Decoder.ofExcept (encoding.apply (address + UInt64.ofNat cursor.offset) value
      cursor.addressSize entry)

theorem decode_eq (encoding : PointerEncoding) (origin : FrameSection) (entry : Nat) :
    encoding.decode origin entry =
      if encoding = omitted then Decoder.fail (.malformedCallFrame entry .pointerOmitted)
      else if encoding.code &&& 0x80 ≠ 0 then
        Decoder.fail (.malformedCallFrame entry .indirectPointer)
      else match encoding.stored? with
        | some stored => fun cursor => encoding.fetch stored origin.address entry cursor cursor
        | none => Decoder.fail (.malformedCallFrame entry (.pointerFormat encoding.code)) := by
  unfold decode
  split
  · rfl
  · split
    · rfl
    · cases encoding.stored? <;> rfl

theorem fetch_similar {encoding : PointerEncoding} (absolute : ¬encoding.IsRelative)
    (stored : Decoder UInt64) (address other : UInt64) (entry : Nat) {cursor place : Cursor}
    (size_eq : place.addressSize = cursor.addressSize) :
    encoding.fetch stored other entry place = encoding.fetch stored address entry cursor := by
  unfold fetch
  congr 1
  funext value
  rw [size_eq, apply_place absolute]

theorem decode_section {encoding : PointerEncoding} (absolute : ¬encoding.IsRelative)
    (origin other : FrameSection) (entry : Nat) :
    encoding.decode other entry = encoding.decode origin entry := by
  rw [decode_eq, decode_eq]
  cases encoding.stored? with
  | none => rfl
  | some stored =>
      have fetched : (fun cursor => encoding.fetch stored other.address entry cursor cursor) =
          fun cursor => encoding.fetch stored origin.address entry cursor cursor :=
        funext fun cursor =>
          congrFun (fetch_similar absolute stored origin.address other.address entry rfl) cursor
      simp only [fetched]

/-- The number of a pointer is read in the same way wherever it is stored. -/
theorem composed_stored {encoding : PointerEncoding} {stored : Decoder UInt64}
    (found : encoding.stored? = some stored) : Composed true stored := by
  unfold stored? at found
  split at found
  · cases found; exact .address rfl
  · cases found; exact .unsigned
  · cases found; exact composed_uint16.map _
  · cases found; exact composed_uint32.map _
  · cases found; exact composed_uint64
  · cases found; exact Composed.signed.map _
  · cases found; exact (composed_uint16.map _).map _
  · cases found; exact (composed_uint32.map _).map _
  · cases found; exact (composed_uint64.map _).map _
  · cases found

theorem alike_decode {encoding : PointerEncoding} (absolute : ¬encoding.IsRelative)
    (origin : FrameSection) (entry : Nat) :
    (encoding.decode origin entry).Alike (encoding.decode origin entry) := by
  rw [decode_eq]
  split
  · exact alike_fail rfl
  · split
    · exact alike_fail rfl
    · split
      next stored found =>
        exact alike_of_similar (encoding.fetch stored origin.address entry)
          (fun similar => fetch_similar absolute _ _ _ _ similar.addressSize_eq)
          fun cursor => ((composed_stored found).alike.restate _ _ _).bind fun _ => alike_ofExcept (.refl _)
      · exact alike_fail rfl

end PointerEncoding

namespace FrameInstruction

variable {reader : Reader}

/-! ## Operands -/

namespace Reader

theorem alike_operand {α : Type} {decoder : Decoder α} (alike : decoder.Alike decoder)
    (reader : Reader) : (reader.operand decoder).Alike (reader.operand decoder) :=
  alike.restate _ _ _

theorem alike_unsigned (reader : Reader) : reader.unsigned.Alike reader.unsigned :=
  reader.alike_operand Decoder.alike_unsigned

theorem alike_signed (reader : Reader) : reader.signed.Alike reader.signed :=
  reader.alike_operand Decoder.alike_signed

theorem alike_factored (reader : Reader) : reader.factored.Alike reader.factored :=
  reader.alike_unsigned.map _

theorem alike_signedFactored (reader : Reader) :
    reader.signedFactored.Alike reader.signedFactored :=
  reader.alike_signed.map _

theorem alike_register (reader : Reader) : reader.register.Alike reader.register := by
  refine (Decoder.alike_unsigned.restate _ _ _).bind fun register => ?_
  split
  · exact alike_pure _
  · exact alike_fail rfl

theorem alike_expression (reader : Reader) : reader.expression.Alike reader.expression :=
  (Decoder.alike_unsigned.restate _ _ _).bind fun length =>
    ((alike_bytes length.toNat).restate _ _ _).bind fun _ => alike_ofExcept (.refl _)

end Reader

/-! ## Instructions -/

/-- Only a new location depends on where it is stored. -/
theorem alike_extended {code : UInt8}
    (placeless : code = 0x01 → ¬reader.common.added.pointerEncoding.IsRelative)
    (place other : Nat) : (extended reader place code).Alike (extended reader other code) := by
  unfold extended
  split
  · exact alike_pure _
  · exact (PointerEncoding.alike_decode (placeless rfl) _ _).map _
  · exact (reader.alike_operand alike_uint8).map _
  · exact (reader.alike_operand alike_uint16).map _
  · exact (reader.alike_operand alike_uint32).map _
  · exact reader.alike_register.bind fun _ => reader.alike_factored.map _
  · exact reader.alike_register.map _
  · exact reader.alike_register.map _
  · exact reader.alike_register.map _
  · exact reader.alike_register.bind fun _ => reader.alike_register.map _
  · exact alike_pure _
  · exact alike_pure _
  · exact reader.alike_register.bind fun _ => reader.alike_unsigned.map _
  · exact reader.alike_register.map _
  · exact reader.alike_unsigned.map _
  · exact reader.alike_expression.map _
  · exact reader.alike_register.bind fun _ => reader.alike_expression.map _
  · exact reader.alike_register.bind fun _ => reader.alike_signedFactored.map _
  · exact reader.alike_register.bind fun _ => reader.alike_signedFactored.map _
  · exact reader.alike_signedFactored.map _
  · exact reader.alike_register.bind fun _ => reader.alike_factored.map _
  · exact reader.alike_register.bind fun _ => reader.alike_signedFactored.map _
  · exact reader.alike_register.bind fun _ => reader.alike_expression.map _
  · exact reader.alike_unsigned.bind fun _ => alike_pure _
  · exact reader.alike_register.bind fun _ => reader.alike_unsigned.map _
  · exact alike_fail rfl

/-- What follows the code of an instruction. -/
def afterCode (reader : Reader) (place : Nat) (code : UInt8) : Decoder FrameInstruction :=
  match code &&& 0xc0 with
  | 0x40 => Decoder.pure (.advance (code &&& 0x3f).toUInt64)
  | 0x80 => Decoder.bind reader.factored fun offset =>
      Decoder.pure (.setRule (code &&& 0x3f).toNat (.offset offset))
  | 0xc0 => Decoder.pure (.restore (code &&& 0x3f).toNat)
  | _ => extended reader place code

/-- The code of an instruction. -/
def code (reader : Reader) : Consuming UInt8 :=
  Consuming.mapError (FrameDefect.restate reader.entry .instructionPastEntry) Decoder.uint8

theorem alike_afterCode {code : UInt8}
    (placeless : code = 0x01 → ¬reader.common.added.pointerEncoding.IsRelative)
    (place other : Nat) : (afterCode reader place code).Alike (afterCode reader other code) := by
  unfold afterCode
  split
  · exact alike_pure _
  · exact reader.alike_factored.map _
  · exact alike_pure _
  · exact alike_extended placeless place other

theorem rest_of_code {cursor : Cursor} {byte : UInt8}
    (read : ((code reader).read cursor).result = .ok byte) :
    cursor.rest = byte :: ((code reader).read cursor).next.rest := by
  obtain ⟨bytes, recognizes, rest⟩ := Local.rest local_uint8 (mapError_result_eq_ok.mp read)
  rw [recognizes.of_uint8] at rest
  rw [rest]
  exact congrArg (byte :: ·.rest) (mapError_eq _ _ _).2.symm

theorem code_head {cursor : Cursor} {byte : UInt8}
    (read : ((code reader).read cursor).result = .ok byte) : cursor.rest.head? = some byte := by
  rw [rest_of_code read]
  rfl

/-- Similar cursors are read as the same instruction, unless it is a new location that is stored
relative to its place. -/
theorem decode_similar {cursor place : Cursor} (similar : cursor.Similar place)
    (placeless : reader.common.added.pointerEncoding.IsRelative →
      cursor.rest.head? ≠ some 0x01) :
    Agree ((decode reader).read cursor).result ((decode reader).read place).result ∧
      ((decode reader).read cursor).next.Similar ((decode reader).read place).next := by
  obtain ⟨agree, next⟩ :=
    alike_uint8.restate reader.entry reader.entry .instructionPastEntry similar
  refine @bind_similar _ _ (code reader).read (code reader).read _ _ _ _ agree next ?_
  intro byte read
  refine alike_afterCode (fun location relative => ?_) cursor.offset place.offset
  exact placeless relative (location ▸ code_head read)

/-- Where locations are absolute, instructions are read alike in all sections of one byte order. -/
theorem decode_section (absolute : ¬reader.common.added.pointerEncoding.IsRelative)
    {other : FrameSection} (order_eq : other.order = reader.origin.order) :
    decode { reader with origin := other } = decode reader := by
  have location := PointerEncoding.decode_section absolute reader.origin other reader.entry
  have expression : Reader.expression { reader with origin := other } = reader.expression := by
    unfold Reader.expression Reader.encoding
    rw [order_eq]
  have extended (place : Nat) (code : UInt8) :
      extended { reader with origin := other } place code = extended reader place code := by
    simp only [FrameInstruction.extended, location, expression]
    rfl
  simp only [decode, extended]
  rfl

end FrameInstruction

end Dwarf
