import Dwarf.Line.Table
import Dwarf.Proofs.Decoder.Window

/-!
# Line instructions and the bytes they pass

Reading an instruction of a line program is local: the offset of the instruction shows in errors
only.  Instructions of a fixed form are recognized from their opcode and the shortest encoding of
their operand.  So what a program does to the state of the machine depends on its bytes alone, and
a front that is a run of instructions can be executed first.
-/

namespace Dwarf

open Decoder

variable {encoding : Encoding} {header : LineHeader} {compDir : String}

namespace LineFile

/-- What follows the name of a file. -/
def afterName (compDir : String) (directories : List String) (stored : List UInt8) :
    Decoder (Option LineFile) :=
  if stored.isEmpty then Decoder.pure none
  else
    let name := Utf8.decode stored
    Decoder.bind Decoder.unsigned.read fun directoryIndex =>
      Decoder.bind Decoder.unsigned.read fun modificationTime =>
        Decoder.bind Decoder.unsigned.read fun length =>
          let path := Path.join (directory compDir directories directoryIndex) name
          Decoder.pure (some ⟨name, directoryIndex, modificationTime, length, path⟩)

theorem decode_read (compDir : String) (directories : List String) :
    (decode compDir directories).read =
      Decoder.bind Decoder.cstring.read (afterName compDir directories) := rfl

theorem local_decode (compDir : String) (directories : List String) :
    (decode compDir directories).read.Local := by
  rw [decode_read]
  refine local_cstring.bind fun stored => ?_
  unfold afterName
  split
  · exact local_pure none
  · exact local_unsigned.bind fun _ => local_unsigned.bind fun _ => local_unsigned.map _

end LineFile

namespace LineInstruction

/-! ## Extended instructions -/

theorem local_address (size : Nat) : (address size).Local := by
  unfold address
  split
  · exact local_sized size
  · exact Decoder.local_address

/-- What follows the code of an extended instruction. -/
def afterCode (header : LineHeader) (compDir : String) (start length : Nat) :
    UInt8 → Decoder LineInstruction
  | 1 => Decoder.pure .endSequence
  | 2 => Decoder.bind (address (length - 1)) fun target => Decoder.pure (.setAddress target)
  | 3 =>
    let file := (LineFile.decode compDir header.directories).read
    Decoder.bind (file.mapError (LineHeader.restate start .truncatedFile)) fun file =>
      Decoder.pure (.defineFile file)
  | 4 => Decoder.bind Decoder.unsigned.read fun number => Decoder.pure (.setDiscriminator number)
  | _ => Decoder.pure .ignored

theorem local_afterCode (start length : Nat) (code : UInt8) :
    (afterCode header compDir start length code).Local := by
  unfold afterCode
  split
  · exact local_pure _
  · exact (local_address _).map _
  · exact ((LineFile.local_decode _ _).mapError _).map _
  · exact local_unsigned.map _
  · exact local_pure _

theorem afterCode_follows (start other length : Nat) (code : UInt8) :
    (afterCode header compDir other length code).Follows
      (afterCode header compDir start length code) := by
  unfold afterCode
  split
  · exact Follows.refl _
  · exact Follows.refl _
  · exact Follows.bind ((Follows.refl _).mapError _ _) fun _ => Follows.refl _
  · exact Follows.refl _
  · exact Follows.refl _

/-- The instruction that an announced number of bytes stores; no bytes store none. -/
def payload (header : LineHeader) (compDir : String) (start : Nat) (length : UInt64) :
    Decoder LineInstruction :=
  if length = 0 then Decoder.pure .ignored else extended header compDir start length.toNat

theorem framed_eq (start : Nat) :
    framed header compDir start = Decoder.bind Decoder.unsigned.read fun length =>
      inside length.toNat (LineHeader.restate start .extendedPastProgram)
        (payload header compDir start length) := by
  have same : ∀ length : UInt64, (payload header compDir start length).run = fun body =>
      if length = 0 then .ok .ignored else (extended header compDir start length.toNat).run body := by
    intro length
    funext body
    unfold payload
    split <;> rfl
  unfold framed inside
  simp only [same]
  congr 1
  funext length
  congr 1
  funext body
  split <;> rfl

theorem local_payload (start : Nat) (length : UInt64) :
    (payload header compDir start length).Local := by
  unfold payload
  split
  · exact local_pure _
  · exact local_uint8.bind (local_afterCode start length.toNat)

theorem payload_follows (start other : Nat) (length : UInt64) :
    (payload header compDir other length).Follows (payload header compDir start length) := by
  unfold payload
  split
  · exact Follows.refl _
  · exact Follows.bind (Follows.refl _) (afterCode_follows start other length.toNat)

/-! ## Standard instructions -/

theorem local_skipOperands (count : Nat) : (skipOperands count).Local := by
  induction count with
  | zero => exact local_pure _
  | succ count ih => exact local_unsigned.bind fun _ => ih

theorem local_standard (opcode : UInt8) : (standard header opcode).Local := by
  unfold standard
  split
  · exact local_pure _
  · exact local_unsigned.map _
  · exact local_signed.map _
  · exact local_unsigned.map _
  · exact local_unsigned.map _
  · exact local_pure _
  · exact local_pure _
  · exact local_pure _
  · exact local_uint16.map _
  · exact local_pure _
  · exact local_pure _
  · exact local_unsigned.map _
  · exact (local_skipOperands _).map _

/-- What follows the opcode of an instruction at an offset. -/
def afterOpcode (header : LineHeader) (compDir : String) (start : Nat) (opcode : UInt8) :
    Decoder LineInstruction :=
  if header.opcodeBase ≤ opcode then Decoder.pure (.special (opcode - header.opcodeBase))
  else if opcode = 0 then framed header compDir start
  else standard header opcode

theorem local_afterOpcode (start : Nat) (opcode : UInt8) :
    (afterOpcode header compDir start opcode).Local := by
  unfold afterOpcode
  split
  · exact local_pure _
  · split
    · rw [framed_eq]
      exact local_unsigned.bind fun length => local_inside (local_payload start length) _ _
    · exact local_standard opcode

theorem afterOpcode_follows (start other : Nat) (opcode : UInt8) :
    (afterOpcode header compDir other opcode).Follows
      (afterOpcode header compDir start opcode) := by
  unfold afterOpcode
  split
  · exact Follows.refl _
  · split
    · rw [framed_eq, framed_eq]
      exact Follows.bind (Follows.refl _) fun length =>
        inside_follows (payload_follows start other length) _ _ _
    · exact Follows.refl _

theorem local_decode : (decode header compDir).read.Local := by
  refine local_located (fun start => ?_) fun start other => ?_
  · exact (local_uint8.bind (local_afterOpcode start)).mapError _
  · exact (Follows.bind (Follows.refl _) (afterOpcode_follows start other)).mapError _ _

theorem recognizes_opcode {opcode : UInt8} {operand : List UInt8} {instruction : LineInstruction}
    (follows : ∀ start, (afterOpcode header compDir start opcode).Recognizes encoding operand
      instruction) :
    (decode header compDir).read.Recognizes encoding (opcode :: operand) instruction :=
  .located fun start => ((recognizes_uint8 opcode).bind (follows start)).mapError _

theorem recognizes_special {opcode : UInt8} (special : header.opcodeBase ≤ opcode) :
    (decode header compDir).read.Recognizes encoding [opcode]
      (.special (opcode - header.opcodeBase)) := by
  refine recognizes_opcode fun start => ?_
  rw [afterOpcode, if_pos special]
  exact Recognizes.pure _

/-! ## Instructions of a fixed form -/

/-- The opcode of an instruction of a fixed form.  Extended instructions have the opcode zero;
special instructions, files and instructions without effect have other forms. -/
def opcode? : LineInstruction → Option UInt8
  | .endSequence | .setAddress _ | .setDiscriminator _ => some 0
  | .copy => some 1
  | .advancePc _ => some 2
  | .advanceLine _ => some 3
  | .setFile _ => some 4
  | .setColumn _ => some 5
  | .negateStmt => some 6
  | .setBasicBlock => some 7
  | .constAddPc => some 8
  | .fixedAdvancePc _ => some 9
  | .setPrologueEnd => some 10
  | .setEpilogueBegin => some 11
  | .setIsa _ => some 12
  | .special _ | .defineFile _ | .ignored => none

/-- The bytes of an extended instruction behind their number. -/
def counted (body : List UInt8) : List UInt8 :=
  Leb128.encode body.length ++ body

/-- What is stored behind the opcode. -/
def operand (order : ByteOrder) : LineInstruction → List UInt8
  | .advancePc number | .setFile number | .setColumn number | .setIsa number =>
    Leb128.encode number.toNat
  | .advanceLine delta => Leb128.encodeSigned delta.toInt
  | .fixedAdvancePc bytes => order.digits 2 bytes.toNat
  | .endSequence => counted [1]
  | .setAddress address => counted (2 :: order.digits 8 address.toNat)
  | .setDiscriminator discriminator => counted (4 :: Leb128.encode discriminator.toNat)
  | _ => []

/-- The bytes of an instruction of a fixed form. -/
def encode (order : ByteOrder) (instruction : LineInstruction) : List UInt8 :=
  instruction.opcode?.toList ++ instruction.operand order

/-- The bytes of a run of instructions of a fixed form. -/
def encodeAll (order : ByteOrder) (program : List LineInstruction) : List UInt8 :=
  program.flatMap (encode order)

theorem recognizes_counted {body : List UInt8} {start : Nat} {instruction : LineInstruction}
    (nonempty : body ≠ []) (short : body.length < 2 ^ 64)
    (reads : (extended header compDir start body.length).Recognizes encoding body instruction) :
    (framed header compDir start).Recognizes encoding (counted body) instruction := by
  have length : (UInt64.ofNat body.length).toNat = body.length := by
    rw [UInt64.toNat_ofNat']
    exact Nat.mod_eq_of_lt short
  have nonzero : UInt64.ofNat body.length ≠ 0 := by
    intro zero
    rw [zero] at length
    exact nonempty (List.length_eq_zero_iff.mp length.symm)
  have read : (payload header compDir start (.ofNat body.length)).Recognizes encoding body
      instruction := by
    rw [payload, if_neg nonzero, length]
    exact reads
  have counts := @recognizes_unsigned encoding (.ofNat body.length)
  rw [length] at counts
  have whole := read.inside (LineHeader.restate start .extendedPastProgram)
    ((congrArg List.length (List.append_nil body)).trans length.symm)
  rw [List.append_nil] at whole
  rw [framed_eq]
  exact counts.bind whole

theorem recognizes_extended {code : UInt8} {rest : List UInt8} {start : Nat}
    {instruction : LineInstruction} (short : rest.length < 16)
    (reads : (afterCode header compDir start (rest.length + 1) code).Recognizes encoding rest
      instruction) :
    (framed header compDir start).Recognizes encoding (counted (code :: rest)) instruction := by
  refine recognizes_counted (List.cons_ne_nil code rest) ?_ ?_
  · rw [List.length_cons]
    omega
  · exact (recognizes_uint8 code).bind reads

/-- Extended instructions of a fixed form are recognized behind the opcode zero. -/
theorem recognizes_framed {instruction : LineInstruction} (start : Nat)
    (opcode : instruction.opcode? = some 0) :
    (framed header compDir start).Recognizes encoding (instruction.operand encoding.order)
      instruction := by
  cases instruction
  case endSequence => exact recognizes_extended (by decide) (Recognizes.pure _)
  case setAddress target =>
      have size := encoding.order.digits_length 8 target.toNat
      refine recognizes_extended (by omega) ?_
      rw [size]
      exact (recognizes_uint64 target).map _
  case setDiscriminator number =>
      have size : (Leb128.encode number.toNat).length ≤ 10 :=
        Leb128.length_encode_le (Nat.lt_trans number.toNat_lt (by decide))
      exact recognizes_extended (by omega) ((recognizes_unsigned number).map _)
  all_goals cases opcode

theorem recognizes_standard {instruction : LineInstruction} {opcode : UInt8}
    (found : instruction.opcode? = some opcode) (standing : opcode ≠ 0) :
    (standard header opcode).Recognizes encoding (instruction.operand encoding.order)
      instruction := by
  cases instruction with
  | copy | negateStmt | setBasicBlock | constAddPc | setPrologueEnd | setEpilogueBegin =>
      cases found
      exact Recognizes.pure _
  | advancePc number | setFile number | setColumn number | setIsa number =>
      cases found
      exact (recognizes_unsigned number).map _
  | advanceLine delta =>
      cases found
      exact (recognizes_signed delta).map _
  | fixedAdvancePc bytes =>
      cases found
      exact (recognizes_uint16 bytes).map _
  | endSequence | setAddress _ | setDiscriminator _ =>
      cases found
      exact absurd rfl standing
  | special _ | defineFile _ | ignored => cases found

theorem recognizes_encode {instruction : LineInstruction} {opcode : UInt8}
    (found : instruction.opcode? = some opcode) (below : opcode < header.opcodeBase) :
    (decode header compDir).read.Recognizes encoding (instruction.encode encoding.order)
      instruction := by
  rw [encode, found]
  refine recognizes_opcode fun start => ?_
  rw [afterOpcode, if_neg (UInt8.not_le.mpr below)]
  split
  next zero => exact recognizes_framed start (zero ▸ found)
  next standing => exact recognizes_standard found standing

theorem spelled_encodeAll {program : List LineInstruction}
    (forms : ∀ instruction ∈ program, ∃ opcode,
      instruction.opcode? = some opcode ∧ opcode < header.opcodeBase) :
    Spelled (decode header compDir) encoding (encodeAll encoding.order program) program := by
  refine spelled_flatMap fun instruction member => ?_
  obtain ⟨opcode, found, below⟩ := forms instruction member
  exact recognizes_encode found below

end LineInstruction

/-! ## Replaying bytes -/

namespace LineReplay

/-- The bytes are a run of instructions that takes the machine from one state to another. -/
def Replays (header : LineHeader) (compDir : String) (encoding : Encoding) (bytes : List UInt8)
    (state last : LineReplay) : Prop :=
  ∃ program, Spelled (LineInstruction.decode header compDir) encoding bytes program ∧
    program.foldl (step header) state = last

/-- A front that is a run of instructions is executed first. -/
theorem replays_append {front back : List UInt8} {program : List LineInstruction}
    (spelled : Spelled (LineInstruction.decode header compDir) encoding front program)
    {state last : LineReplay} :
    Replays header compDir encoding (front ++ back) state last ↔
      Replays header compDir encoding back (program.foldl (step header) state) last := by
  constructor
  · rintro ⟨all, whole, ran⟩
    obtain ⟨others, rfl, rest⟩ := spelled.of_append whole
    rw [List.foldl_append] at ran
    exact ⟨others, rest, ran⟩
  · rintro ⟨others, rest, ran⟩
    refine ⟨program ++ others, spelled.append rest, ?_⟩
    rw [List.foldl_append]
    exact ran

end LineReplay

end Dwarf
