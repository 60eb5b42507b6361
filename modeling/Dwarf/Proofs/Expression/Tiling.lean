import Dwarf.Proofs.Decoder.Shift
import Dwarf.Proofs.Expression.Layout

/-!
# Operations tile the bytes

An expression that can be decoded consists of stored operations and of nothing else.  They begin
where the ones before them end, and each of them is decoded from its own bytes alone.  What comes
behind them is decoded as it would be alone, further on.
-/

namespace Dwarf

open Decoder

variable {encoding : Encoding}

/-! ## What is decoded is stored -/

namespace Operation

theorem local_decodeOperand (offset : Nat) (opcode : Opcode) :
    (decodeOperand offset opcode).Local := by
  unfold decodeOperand
  split
  next signature _ => exact (signature.shape.composed_decode fun _ => rfl).local.map _
  next => exact local_fail _

/-- An operation is recognized from nothing but its opcode and operands. -/
theorem exists_operand {offset : Nat} {bytes : List UInt8} {operation : Operation}
    (recognizes : (uint8.bind fun code => decodeOperand offset ⟨code⟩).read.Recognizes encoding
      bytes operation) :
    ∃ opcode signature operand operands, bytes = opcode.code :: operands ∧
      operation = ⟨offset, opcode, operand⟩ ∧ opcode.signature? = some signature ∧
      signature.shape.decode.Recognizes encoding operands operand := by
  obtain ⟨front, operands, code, rfl, first, second⟩ :=
    Recognizes.of_bind local_uint8 (fun code => local_decodeOperand offset ⟨code⟩) recognizes
  unfold decodeOperand at second
  split at second
  next signature signed =>
      obtain ⟨operand, stored, rfl⟩ := second.of_map (signature.shape.composed_decode fun _ => rfl).local
      exact ⟨⟨code⟩, signature, operand, operands, congrArg (· ++ operands) first.of_uint8, rfl,
        signed, stored⟩
  next => exact absurd second Recognizes.not_fail

/-- Operations that are read up to the end of a window are stored there. -/
theorem stored_of_reads {cursor : Cursor} {operations : List Operation}
    (reads : Reads decode cursor operations) (under : cursor.Under encoding) :
    Stored encoding cursor.offset cursor.rest operations := by
  induction reads with
  | @done cursor finished =>
      rw [Cursor.atEnd_iff_rest.mp finished]
      exact .nil cursor.offset
  | @more cursor operation operations _ read _ ih =>
      have locality : (uint8.bind fun code => decodeOperand cursor.offset ⟨code⟩).read.Local :=
        local_uint8.bind fun code => local_decodeOperand cursor.offset ⟨code⟩
      obtain ⟨bytes, after, rest, recognizes⟩ := locality under read
      obtain ⟨fits, _, next⟩ := recognizes under rest
      obtain ⟨opcode, signature, operand, operands, rfl, rfl, signed, stored⟩ :=
        exists_operand recognizes
      have passed : (decode.read cursor).next = cursor.forward _ fits := next
      have later := ih (passed ▸ under.forward fits)
      rw [passed, Cursor.forward_rest rest fits] at later
      have moved : (cursor.forward (opcode.code :: operands).length fits).offset =
          cursor.offset + (opcode.code :: operands).length := (Nat.add_assoc ..).symm
      rw [moved] at later
      rw [rest]
      exact .cons signed stored later

end Operation

namespace LocationExpression

theorem decode_ok {bytes : List UInt8} {expression : LocationExpression}
    (decoded : decode bytes encoding = .ok expression) :
    expression = ⟨bytes, expression.operations, encoding⟩ := by
  unfold decode at decoded
  cases read : Operation.decodeAll bytes encoding with
  | error error =>
      rw [read] at decoded
      cases decoded
  | ok operations =>
      rw [read] at decoded
      cases decoded
      rfl

theorem bytes_of_decode {bytes : List UInt8} {expression : LocationExpression}
    (decoded : decode bytes encoding = .ok expression) : expression.bytes = bytes :=
  congrArg LocationExpression.bytes (decode_ok decoded)

theorem encoding_of_decode {bytes : List UInt8} {expression : LocationExpression}
    (decoded : decode bytes encoding = .ok expression) : expression.encoding = encoding :=
  congrArg LocationExpression.encoding (decode_ok decoded)

theorem stored_of_decode {bytes : List UInt8} {expression : LocationExpression}
    (decoded : decode bytes encoding = .ok expression) :
    Operation.Stored encoding 0 bytes expression.operations := by
  rw [decode_ok decoded, decode_eq_ok_iff] at decoded
  exact Operation.stored_of_reads (reads_of_many decoded) (Cursor.under_cursor encoding bytes 0)

end LocationExpression

/-! ## Slices -/

namespace Operation

variable {offset : Nat} {bytes : List UInt8} {operations : List Operation}

/-- The same operation further on. -/
def shift (distance : Nat) (operation : Operation) : Operation :=
  { operation with offset := operation.offset + distance }

theorem map_shift_zero (operations : List Operation) : operations.map (shift 0) = operations :=
  List.map_id operations

theorem map_shift_shift (operations : List Operation) (near far : Nat) :
    (operations.map (shift near)).map (shift far) = operations.map (shift (near + far)) := by
  rw [List.map_map]
  refine List.map_congr_left fun operation _ => ?_
  exact congrArg (fun offset => { operation with offset }) (Nat.add_assoc ..)

theorem Stored.le_offset (stored : Stored encoding offset bytes operations) {operation : Operation}
    (member : operation ∈ operations) : offset ≤ operation.offset := by
  induction stored with
  | nil => cases member
  | cons _ _ _ ih =>
      rcases List.mem_cons.mp member with rfl | later
      · exact Nat.le_refl _
      · exact Nat.le_trans (Nat.le_add_right _ _) (ih later)

theorem Stored.head_offset (stored : Stored encoding offset bytes operations) :
    ∀ operation ∈ operations.head?, operation.offset = offset := by
  cases stored with
  | nil => exact nofun
  | cons =>
      rintro operation ⟨⟩
      rfl

/-- The offsets increase, since no operation is empty. -/
theorem Stored.ascending (stored : Stored encoding offset bytes operations) :
    (operations.map Operation.offset).Pairwise (· < ·) := by
  induction stored with
  | nil => exact .nil
  | @cons offset opcode _ operand front _ _ _ _ rest ih =>
      rw [List.map_cons, List.pairwise_cons]
      refine ⟨fun later member => ?_, ih⟩
      obtain ⟨operation, found, rfl⟩ := List.mem_map.mp member
      have onward := rest.le_offset found
      rw [List.length_cons] at onward
      change offset < operation.offset
      omega

/-- The bytes are cut into the bytes of each operation. -/
theorem Stored.slices (stored : Stored encoding offset bytes operations) :
    ∃ slices : List (List UInt8), slices.flatten = bytes ∧
      operations.map Operation.offset =
        slices.mapIdx (fun index _ => offset + (slices.take index).flatten.length) ∧
      List.Forall₂ (fun operation slice => slice ≠ [] ∧
        LocationExpression.decode slice encoding =
          .ok ⟨slice, [{ operation with offset := 0 }], encoding⟩) operations slices := by
  induction stored with
  | nil => exact ⟨[], rfl, rfl, .nil⟩
  | @cons offset opcode signature operand front back operations signed recognizes _ ih =>
      obtain ⟨slices, rfl, offsets, alone⟩ := ih
      have single : Stored encoding 0 (opcode.code :: front) [⟨0, opcode, operand⟩] :=
        .single signed recognizes
      refine ⟨(opcode.code :: front) :: slices, rfl, ?_,
        .cons ⟨List.cons_ne_nil _ _, single.decoded⟩ alone⟩
      rw [List.map_cons, List.mapIdx_cons, offsets]
      simp only [List.take_succ_cons, List.flatten_cons, List.length_append, Nat.add_assoc]
      rfl

/-- Stored operations are cut between any two of them. -/
theorem Stored.of_append {before after : List Operation}
    (stored : Stored encoding offset bytes (before ++ after)) :
    ∃ front back, bytes = front ++ back ∧ Stored encoding offset front before ∧
      Stored encoding (offset + front.length) back after := by
  induction before generalizing offset bytes with
  | nil => exact ⟨[], bytes, rfl, .nil offset, stored⟩
  | cons operation before ih =>
      cases stored with
      | @cons _ opcode signature operand first rest _ signed recognizes later =>
          obtain ⟨front, back, rfl, left, right⟩ := ih later
          refine ⟨opcode.code :: first ++ front, back, (List.append_assoc ..).symm,
            .cons signed recognizes left, ?_⟩
          rw [List.length_append, ← Nat.add_assoc]
          exact right

theorem Stored.unshift {distance : Nat}
    (stored : Stored encoding (offset + distance) bytes operations) :
    ∃ nearer, operations = nearer.map (shift distance) ∧ Stored encoding offset bytes nearer := by
  generalize further : offset + distance = place at stored
  induction stored generalizing offset with
  | nil => exact ⟨[], rfl, .nil offset⟩
  | @cons place opcode signature operand front back operations signed recognizes _ ih =>
      have onward : offset + (opcode.code :: front).length + distance =
          place + (opcode.code :: front).length := by omega
      obtain ⟨nearer, rfl, stored⟩ := ih onward
      refine ⟨⟨offset, opcode, operand⟩ :: nearer, ?_, .cons signed recognizes stored⟩
      rw [List.map_cons, shift, further]

end Operation

/-! ## Expressions in a row -/

namespace Operation

theorem shift_withoutSignature (offset distance : Nat) (opcode : Opcode) :
    (withoutSignature offset opcode).shift distance =
      withoutSignature (offset + distance) opcode := by
  unfold withoutSignature
  split
  · rfl
  · rfl

theorem shifts_decodeOperand (offset distance : Nat) (opcode : Opcode) :
    (decodeOperand offset opcode).Shifts distance (shift distance)
      (decodeOperand (offset + distance) opcode) := by
  unfold decodeOperand
  split
  next signature _ => exact (signature.shape.composed_decode fun _ => rfl).shifts.map fun _ => rfl
  next => exact shifts_fail (shift_withoutSignature offset distance opcode)

theorem shifts_decode (distance : Nat) :
    decode.read.Shifts distance (shift distance) decode.read := by
  rw [decode_eq]
  refine shifts_of_shifted
    (fun cursor => (uint8.bind fun code => decodeOperand cursor.offset ⟨code⟩).read)
    (fun place => (uint8.bind fun code => decodeOperand place.offset ⟨code⟩).read) fun shifted => ?_
  rw [shifted.offset_eq]
  exact plain_uint8.shifts.bind fun code => shifts_decodeOperand _ distance ⟨code⟩

theorem stable_decode : decode.read.Stable .offset := by
  rw [decode_eq]
  refine .located fun offset => ?_
  exact local_uint8.stable.bind fun code => (local_decodeOperand offset ⟨code⟩).stable

end Operation

namespace LocationExpression

/-- What comes behind a decoded expression is decoded as it would be alone, and its offsets and the
offset of its error lie further on by the bytes of the expression. -/
theorem decode_append {front : List UInt8} {expression : LocationExpression}
    (decoded : decode front encoding = .ok expression) (back : List UInt8) :
    decode (front ++ back) encoding =
      match decode back encoding with
      | .ok later =>
        .ok ⟨front ++ back, expression.operations ++
          later.operations.map (Operation.shift front.length), encoding⟩
      | .error error => .error (error.shift front.length) := by
  rw [decode_ok decoded, decode_eq_ok_iff] at decoded
  have grown : (encoding.cursor front 0).Grown .offset back (encoding.cursor (front ++ back) 0) :=
    ⟨rfl, rfl, rfl, rfl, rfl⟩
  have under : (encoding.cursor back 0).Under (encoding.cursor front 0).encoding := ⟨rfl, rfl, rfl⟩
  have apart : (encoding.cursor front 0).stop = (encoding.cursor back 0).offset + front.length :=
    rfl
  have whole := (reads_of_many decoded).many_append (Operation.shifts_decode front.length)
    Operation.stable_decode grown under rfl apart
  change Operation.decodeAll (front ++ back) encoding =
    shiftResult front.length _ (Operation.decodeAll back encoding) at whole
  rw [decode, decode, whole]
  cases Operation.decodeAll back encoding with
  | ok later => rfl
  | error error => rfl

/-- Operations that can be stored are decoded from their bytes in a row, each at the offset where the
ones before it end. -/
theorem decode_encodeAll (addressSize : encoding.addressSize ∈ [1, 2, 4, 8])
    (offsetSize : encoding.offsetSize ∈ [4, 8]) {operations : List Operation}
    (storable : ∀ operation ∈ operations, operation.Storable encoding) :
    decode (Operation.encodeAll encoding operations) encoding =
      .ok ⟨Operation.encodeAll encoding operations,
        operations.mapIdx fun index operation =>
          { operation with
            offset := (Operation.encodeAll encoding (operations.take index)).length },
        encoding⟩ := by
  have stored := Operation.stored_encodeAll addressSize offsetSize storable 0
  simp only [Nat.zero_add] at stored
  exact stored.decoded

/-- Decoding is exact.  Operations that can be stored are found again in their bytes.  Whatever is
decoded tiles its bytes: the offsets increase from zero, each operation begins where the bytes of the
ones before it end, and it is the same operation when its bytes are decoded alone.  What comes behind
a decoded expression is decoded as it would be alone, further on, and fails with the same error
further on. -/
theorem decode_exact (encoding : Encoding) (addressSize : encoding.addressSize ∈ [1, 2, 4, 8])
    (offsetSize : encoding.offsetSize ∈ [4, 8]) :
    (∀ operations : List Operation,
      (∀ operation ∈ operations, operation.Storable encoding) →
      decode (Operation.encodeAll encoding operations) encoding =
        .ok ⟨Operation.encodeAll encoding operations,
          operations.mapIdx fun index operation =>
            { operation with
              offset := (Operation.encodeAll encoding (operations.take index)).length },
          encoding⟩) ∧
    (∀ (bytes : List UInt8) (expression : LocationExpression),
      decode bytes encoding = .ok expression →
      (∀ operation ∈ expression.operations.head?, operation.offset = 0) ∧
      (expression.operations.map Operation.offset).Pairwise (· < ·) ∧
      ∃ slices : List (List UInt8), slices.flatten = bytes ∧
        expression.operations.map Operation.offset =
          slices.mapIdx (fun index _ => (slices.take index).flatten.length) ∧
        List.Forall₂ (fun operation slice => slice ≠ [] ∧
          decode slice encoding = .ok ⟨slice, [{ operation with offset := 0 }], encoding⟩)
          expression.operations slices) ∧
    (∀ (front back : List UInt8) (expression : LocationExpression),
      decode front encoding = .ok expression →
      decode (front ++ back) encoding =
        match decode back encoding with
        | .ok later =>
          .ok ⟨front ++ back, expression.operations ++
            later.operations.map (Operation.shift front.length), encoding⟩
        | .error error => .error (error.shift front.length)) := by
  refine ⟨fun operations storable => decode_encodeAll addressSize offsetSize storable, ?_,
    fun front back expression decoded => decode_append decoded back⟩
  intro bytes expression decoded
  have stored := stored_of_decode decoded
  obtain ⟨slices, whole, offsets, alone⟩ := stored.slices
  simp only [Nat.zero_add] at offsets
  exact ⟨stored.head_offset, stored.ascending, slices, whole, offsets, alone⟩

/-- Addresses of four bytes, the most significant byte first. -/
def bigEndian : Encoding :=
  { addressSize := 4, order := .big }

/-- An address, a register with an offset, and a byte string. -/
def mixedOperations : List Operation :=
  [⟨0, .addr, .unsigned 0x12345678⟩, ⟨0, .bregx, .unsignedSigned 3 (-2)⟩,
    ⟨0, .implicitValue, .block [7, 8]⟩]

/-- The bytes of the operations, which are found at the offsets 0, 5 and 8. -/
def mixedBytes : List UInt8 :=
  [0x03, 0x12, 0x34, 0x56, 0x78, 0x92, 3, 0x7e, 0x9e, 2, 7, 8]

theorem decode_exact_mixedOperations :
    bigEndian.addressSize ∈ [1, 2, 4, 8] ∧ bigEndian.offsetSize ∈ [4, 8] ∧
      (∀ operation ∈ mixedOperations, operation.Storable bigEndian) ∧
      decode mixedBytes bigEndian =
        .ok ⟨mixedBytes, [⟨0, .addr, .unsigned 0x12345678⟩, ⟨5, .bregx, .unsignedSigned 3 (-2)⟩,
          ⟨8, .implicitValue, .block [7, 8]⟩], bigEndian⟩ ∧
      (∃ slices : List (List UInt8), slices.flatten = mixedBytes ∧
        [0, 5, 8] = slices.mapIdx fun index _ => (slices.take index).flatten.length) ∧
      decode (mixedBytes ++ [0x96, 0xff]) bigEndian = .error (.unknownOpcode 13 ⟨0xff⟩) := by
  have addressSize : bigEndian.addressSize ∈ [1, 2, 4, 8] := by decide
  have offsetSize : bigEndian.offsetSize ∈ [4, 8] := by decide
  obtain ⟨again, tiles, rows⟩ := decode_exact bigEndian addressSize offsetSize
  have storable : ∀ operation ∈ mixedOperations, operation.Storable bigEndian := by
    simp only [mixedOperations, List.forall_mem_cons]
    exact ⟨⟨_, rfl, .word (by decide)⟩, ⟨_, rfl, .unsignedSigned 3 (-2)⟩,
      ⟨_, rfl, .block (by decide)⟩, nofun⟩
  have bytes : Operation.encodeAll bigEndian mixedOperations = mixedBytes := by decide +kernel
  have placed : (mixedOperations.mapIdx fun index operation =>
      { operation with
        offset := (Operation.encodeAll bigEndian (mixedOperations.take index)).length }) =
      [⟨0, .addr, .unsigned 0x12345678⟩, ⟨5, .bregx, .unsignedSigned 3 (-2)⟩,
        ⟨8, .implicitValue, .block [7, 8]⟩] := by decide +kernel
  have decoded := again mixedOperations storable
  rw [bytes, placed] at decoded
  obtain ⟨_, _, slices, whole, offsets, _⟩ := tiles _ _ decoded
  have unknown : decode [0x96, 0xff] bigEndian = .error (.unknownOpcode 1 ⟨0xff⟩) := by
    decide +kernel
  refine ⟨addressSize, offsetSize, storable, decoded, ⟨slices, whole, offsets⟩, ?_⟩
  rw [rows _ [0x96, 0xff] _ decoded, unknown]
  rfl

end LocationExpression

end Dwarf
