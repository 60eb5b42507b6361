import Dwarf.Proofs.Attribute.Layout
import Dwarf.Proofs.Expression.Decoding

/-!
# Operands and how they are laid out

There are fewer ways to lay out an operand than there are shapes: many shapes differ in the width of
a word only, and for two of them the encoding gives the width.  The decoder of a shape recognizes
what its layout stores, so operations that are stored in a row are decoded as they were.
-/

namespace Dwarf

open Decoder

/-- How the operands of a shape are laid out. -/
inductive OperandLayout where
  | none
  /-- A word of a fixed number of bytes. -/
  | word (width : Nat)
  /-- A word of a fixed number of bytes whose highest bit is a sign. -/
  | signedWord (width : Nat)
  /-- An unsigned variable-length integer. -/
  | unsigned
  /-- A signed variable-length integer. -/
  | signed
  /-- A variable-length integer and one with a sign. -/
  | unsignedSigned
  /-- Two unsigned variable-length integers. -/
  | unsignedPair
  /-- A byte string behind its length. -/
  | block
  deriving DecidableEq, Repr

namespace OperandLayout

/-- The operand is of the kind that the layout stores, and the layout has room for it. -/
inductive Fits : OperandLayout → Operand → Prop where
  | none : Fits .none .none
  | word {width : Nat} {number : UInt64} (fits : number.toNat < 256 ^ width) :
      Fits (.word width) (.unsigned number)
  | signedWord {width : Nat} {number : Int64} (least : -(256 ^ width : Int) ≤ 2 * number.toInt)
      (most : 2 * number.toInt < 256 ^ width) : Fits (.signedWord width) (.signed number)
  | unsigned (number : UInt64) : Fits .unsigned (.unsigned number)
  | signed (number : Int64) : Fits .signed (.signed number)
  | unsignedSigned (first : UInt64) (second : Int64) :
      Fits .unsignedSigned (.unsignedSigned first second)
  | unsignedPair (first second : UInt64) : Fits .unsignedPair (.unsignedPair first second)
  | block {bytes : List UInt8} (short : bytes.length < 2 ^ 64) : Fits .block (.block bytes)

/-- The bytes of an operand. -/
def encode (order : ByteOrder) : OperandLayout → Operand → List UInt8
  | .word width, .unsigned number => order.digits width number.toNat
  | .signedWord width, .signed number =>
    order.digits width (number.toInt % 256 ^ width).toNat
  | .unsigned, .unsigned number => Leb128.encode number.toNat
  | .signed, .signed number => Leb128.encodeSigned number.toInt
  | .unsignedSigned, .unsignedSigned first second =>
    Leb128.encode first.toNat ++ Leb128.encodeSigned second.toInt
  | .unsignedPair, .unsignedPair first second =>
    Leb128.encode first.toNat ++ Leb128.encode second.toNat
  | .block, .block bytes => Leb128.encode bytes.length ++ bytes
  | _, _ => []

end OperandLayout

/-- The layout of a shape in expressions of an encoding. -/
def OperandShape.layout (encoding : Encoding) : OperandShape → OperandLayout
  | .none => .none
  | .u8 => .word 1
  | .i8 => .signedWord 1
  | .u16 => .word 2
  | .i16 => .signedWord 2
  | .u32 => .word 4
  | .i32 => .signedWord 4
  | .u64 => .word 8
  | .i64 => .signedWord 8
  | .uleb => .unsigned
  | .sleb => .signed
  | .ulebSleb => .unsignedSigned
  | .ulebUleb => .unsignedPair
  | .address => .word encoding.addressSize
  | .offset => .word encoding.offsetSize
  | .block => .block

/-! ## Words with a sign -/

theorem toInt_ofNat_emod {bits : Nat} {number : Int} (least : -(2 ^ bits : Int) ≤ 2 * number)
    (most : 2 * number < 2 ^ bits) :
    (BitVec.ofNat bits (number % 2 ^ bits).toNat).toInt = number := by
  have modulus : ((2 ^ bits : Nat) : Int) = 2 ^ bits := Int.natCast_pow 2 bits
  have positive : (0 : Int) < 2 ^ bits := Int.pow_pos (by decide)
  rw [BitVec.toInt_ofNat', Int.toNat_of_nonneg (Int.emod_nonneg _ (Int.ne_of_gt positive)),
    ← modulus, Int.emod_bmod]
  apply Int.bmod_eq_of_le
  · omega
  · omega

namespace Decoder

variable {encoding : Encoding} {width : Nat} {number : Int64}

/-- A number with a sign is recognized from its lowest digits, if the word that they make is widened
to the number. -/
theorem recognizes_signedDigits {narrow sign : Type} (positive : 0 < width) {word : Nat → narrow}
    {signed : narrow → sign} {widen : sign → Int64}
    (same : widen (signed (word (number.toInt % 256 ^ width).toNat)) = number) :
    (Decoder.bind (((fixed width positive).map word).map signed).read fun value =>
      Decoder.pure (Operand.signed (widen value))).Recognizes encoding
        (encoding.order.digits width (number.toInt % 256 ^ width).toNat) (.signed number) := by
  have modulus : (0 : Int) < 256 ^ width := Int.pow_pos (by decide)
  have small := Int.emod_lt_of_pos number.toInt modulus
  have fits : (number.toInt % 256 ^ width).toNat < 256 ^ width := by
    rw [Int.toNat_lt (Int.emod_nonneg _ (Int.ne_of_gt modulus)), Int.natCast_pow]
    exact small
  have stored := (@recognizes_digits _ encoding _ _ positive fits word).map signed
  have read := Recognizes.map stored fun value => Operand.signed (widen value)
  rw [same] at read
  exact read

end Decoder

namespace OperandShape

variable {encoding : Encoding} {operand : Operand}

/-- The decoder of a shape recognizes what the layout of the shape stores. -/
theorem recognizes_layout {shape : OperandShape} (addressSize : encoding.addressSize ∈ [1, 2, 4, 8])
    (offsetSize : encoding.offsetSize ∈ [4, 8]) (fits : (shape.layout encoding).Fits operand) :
    shape.decode.Recognizes encoding ((shape.layout encoding).encode encoding.order operand)
      operand := by
  cases shape with
  | none =>
      cases fits
      exact Recognizes.pure _
  | u8 =>
      cases fits with
      | word fits => exact recognizes_widened (@recognizes_sized encoding 1 (by decide) _ fits) _
  | u16 =>
      cases fits with
      | word fits => exact recognizes_widened (@recognizes_sized encoding 2 (by decide) _ fits) _
  | u32 =>
      cases fits with
      | word fits => exact recognizes_widened (@recognizes_sized encoding 4 (by decide) _ fits) _
  | u64 =>
      cases fits with
      | word fits => exact (recognizes_uint64 _).map _
  | i8 =>
      cases fits with
      | @signedWord _ number least most =>
          refine recognizes_signedDigits (by decide) ?_
          rw [← Int64.toInt_inj, Int8.toInt_toInt64]
          exact @toInt_ofNat_emod 8 _ least most
  | i16 =>
      cases fits with
      | @signedWord _ number least most =>
          refine recognizes_signedDigits (by decide) ?_
          rw [← Int64.toInt_inj, Int16.toInt_toInt64]
          exact @toInt_ofNat_emod 16 _ least most
  | i32 =>
      cases fits with
      | @signedWord _ number least most =>
          refine recognizes_signedDigits (by decide) ?_
          rw [← Int64.toInt_inj, Int32.toInt_toInt64]
          exact @toInt_ofNat_emod 32 _ least most
  | i64 =>
      cases fits with
      | @signedWord _ number least most =>
          refine @recognizes_signedDigits encoding 8 number _ _ (by decide) _ _ id ?_
          rw [← Int64.toInt_inj]
          exact @toInt_ofNat_emod 64 _ least most
  | uleb =>
      cases fits with
      | unsigned number => exact (recognizes_unsigned number).map _
  | sleb =>
      cases fits with
      | signed number => exact (recognizes_signed number).map _
  | ulebSleb =>
      cases fits with
      | unsignedSigned first second =>
          exact (recognizes_unsigned first).bind ((recognizes_signed second).map _)
  | ulebUleb =>
      cases fits with
      | unsignedPair first second =>
          exact (recognizes_unsigned first).bind ((recognizes_unsigned second).map _)
  | address =>
      cases fits with
      | word fits => exact (recognizes_address addressSize fits).map _
  | offset =>
      have possible : encoding.offsetSize ∈ [1, 2, 4, 8] :=
        List.mem_cons_of_mem _ (List.mem_cons_of_mem _ offsetSize)
      cases fits with
      | word fits => exact (recognizes_sectionOffset possible fits).map _
  | block =>
      cases fits with
      | @block bytes short =>
          have length : (UInt64.ofNat bytes.length).toNat = bytes.length :=
            UInt64.toNat_ofNat_of_lt short
          have counts := @recognizes_unsigned encoding (.ofNat bytes.length)
          rw [length] at counts
          refine counts.bind ?_
          rw [length]
          exact (recognizes_bytes bytes).map _

end OperandShape

/-! ## Operations in a row -/

namespace Operation

/-- The opcode is in the table, and its operands are of the kind that the table gives and fit. -/
def Storable (encoding : Encoding) (operation : Operation) : Prop :=
  ∃ signature, operation.opcode.signature? = some signature ∧
    (signature.shape.layout encoding).Fits operation.operand

/-- The bytes of an operation; without a signature there is no way to store the operands. -/
def encode (encoding : Encoding) (operation : Operation) : List UInt8 :=
  match operation.opcode.signature? with
  | some signature =>
    operation.opcode.code ::
      (signature.shape.layout encoding).encode encoding.order operation.operand
  | none => [operation.opcode.code]

/-- The bytes of operations in a row. -/
def encodeAll (encoding : Encoding) (operations : List Operation) : List UInt8 :=
  operations.flatMap (encode encoding)

variable {encoding : Encoding} {operations : List Operation}

theorem encode_of_signature {operation : Operation} {signature : Signature}
    (signed : operation.opcode.signature? = some signature) :
    operation.encode encoding = operation.opcode.code ::
      (signature.shape.layout encoding).encode encoding.order operation.operand := by
  rw [encode, signed]

/-- The offsets of operations in a row are the lengths of what is stored before them. -/
theorem stored_encodeAll (addressSize : encoding.addressSize ∈ [1, 2, 4, 8])
    (offsetSize : encoding.offsetSize ∈ [4, 8])
    (storable : ∀ operation ∈ operations, operation.Storable encoding) (offset : Nat) :
    Stored encoding offset (encodeAll encoding operations)
      (operations.mapIdx fun index operation =>
        { operation with
          offset := offset + (encodeAll encoding (operations.take index)).length }) := by
  induction operations generalizing offset with
  | nil => exact .nil offset
  | cons operation rest ih =>
      obtain ⟨⟨signature, signed, fits⟩, others⟩ := List.forall_mem_cons.mp storable
      have recognizes := signature.shape.recognizes_layout addressSize offsetSize fits
      have encoded := @encode_of_signature encoding operation signature signed
      have rest_stored := ih others (offset + (operation.encode encoding).length)
      rw [encoded] at rest_stored
      have stored := Stored.cons signed recognizes rest_stored
      rw [← encoded] at stored
      have later (index : Nat) :
          offset + (encodeAll encoding ((operation :: rest).take (index + 1))).length =
            offset + (operation.encode encoding).length +
              (encodeAll encoding (rest.take index)).length := by
        rw [List.take_succ_cons, encodeAll, List.flatMap_cons, List.length_append, Nat.add_assoc]
        rfl
      rw [List.mapIdx_cons]
      simp only [later]
      exact stored

end Operation

end Dwarf
