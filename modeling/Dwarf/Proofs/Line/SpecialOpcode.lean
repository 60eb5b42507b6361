import Mathlib.Logic.Relation
import Dwarf.Proofs.Line.Unit

/-!
# Special opcodes spelled out

A special opcode stands for an advance of the address, an advance of the line and a copy, and the
constant advance for the advance of the address alone.  Their numbers are computed in words of
several sizes; spelled out, they are plain quotients and remainders.  Spelling out any number of
them leaves the table of a program as it was, and programs that cannot be decoded stay so.
-/

namespace Dwarf

open Decoder

variable {encoding : Encoding} {header : LineHeader} {compDir : String}

namespace LineHeader

/-- The number of a special opcode among the special opcodes. -/
def adjusted (header : LineHeader) (opcode : UInt8) : Nat :=
  opcode.toNat - header.opcodeBase.toNat

/-- The operations by which a special opcode advances the address. -/
def operationAdvance (header : LineHeader) (opcode : UInt8) : Nat :=
  header.adjusted opcode / header.lineRange.toNat

/-- The lines by which a special opcode advances the line. -/
def lineAdvance (header : LineHeader) (opcode : UInt8) : Int :=
  header.lineBase.toInt + (header.adjusted opcode % header.lineRange.toNat : Nat)

/-- The standard instructions that a special opcode stands for. -/
def spelledOut (header : LineHeader) (opcode : UInt8) : List LineInstruction :=
  [.advancePc (.ofNat (header.operationAdvance opcode)),
    .advanceLine (.ofInt (header.lineAdvance opcode)), .copy]

/-- The standard instruction that the constant advance stands for: it goes as far as the last
special opcode. -/
def constantAdvance (header : LineHeader) : List LineInstruction :=
  [.advancePc (.ofNat (header.operationAdvance 255))]

end LineHeader

/-- One special opcode or constant advance of a program is spelled out.  The machine comes to it:
what stands before is a run of instructions, what stands behind may be anything. -/
inductive SpellsOut (header : LineHeader) (compDir : String) (encoding : Encoding) :
    List UInt8 → List UInt8 → Prop where
  | special {front : List UInt8} {program : List LineInstruction} {opcode : UInt8}
      (executed : Spelled (LineInstruction.decode header compDir) encoding front program)
      (special : header.opcodeBase ≤ opcode) (rest : List UInt8) :
      SpellsOut header compDir encoding (front ++ (opcode :: rest))
        (front ++ (LineInstruction.encodeAll encoding.order (header.spelledOut opcode) ++ rest))
  | constant {front : List UInt8} {program : List LineInstruction}
      (executed : Spelled (LineInstruction.decode header compDir) encoding front program)
      (standing : 9 ≤ header.opcodeBase) (rest : List UInt8) :
      SpellsOut header compDir encoding (front ++ (8 :: rest))
        (front ++ (LineInstruction.encodeAll encoding.order header.constantAdvance ++ rest))

namespace LineReplay

/-! ## Steps -/

theorem adjusted_toNat {opcode : UInt8} (special : header.opcodeBase ≤ opcode) :
    (opcode - header.opcodeBase).toNat = header.adjusted opcode :=
  UInt8.toNat_sub_of_le opcode header.opcodeBase special

theorem operations_eq {opcode : UInt8} (special : header.opcodeBase ≤ opcode) :
    ((opcode - header.opcodeBase) / header.lineRange).toUInt64 =
      .ofNat (header.operationAdvance opcode) := by
  have small : header.operationAdvance opcode < 2 ^ 64 := by
    refine Nat.lt_of_le_of_lt (Nat.div_le_self _ _) ?_
    have := opcode.toNat_lt
    unfold LineHeader.adjusted
    omega
  rw [← UInt64.toNat_inj, UInt8.toNat_toUInt64, UInt8.toNat_div, adjusted_toNat special,
    UInt64.toNat_ofNat', Nat.mod_eq_of_lt small]
  rfl

theorem lines_eq {opcode : UInt8} (special : header.opcodeBase ≤ opcode) :
    header.lineBase.toInt64.toUInt64 +
        ((opcode - header.opcodeBase) % header.lineRange).toUInt64 =
      (Int64.ofInt (header.lineAdvance opcode)).toUInt64 := by
  have remainder : ((opcode - header.opcodeBase) % header.lineRange).toUInt64 =
      .ofNat (header.adjusted opcode % header.lineRange.toNat) := by
    have small : header.adjusted opcode % header.lineRange.toNat < 2 ^ 64 := by
      refine Nat.lt_of_le_of_lt (Nat.mod_le _ _) ?_
      have := opcode.toNat_lt
      unfold LineHeader.adjusted
      omega
    rw [← UInt64.toNat_inj, UInt8.toNat_toUInt64, UInt8.toNat_mod, adjusted_toNat special,
      UInt64.toNat_ofNat', Nat.mod_eq_of_lt small]
  rw [LineHeader.lineAdvance, Int64.ofInt_add, Int64.toUInt64_add, remainder]
  rfl

theorem foldl_spelledOut {opcode : UInt8} (special : header.opcodeBase ≤ opcode)
    (state : LineReplay) :
    (header.spelledOut opcode).foldl (step header) state =
      step header state (.special (opcode - header.opcodeBase)) := by
  simp only [LineHeader.spelledOut, List.foldl_cons, List.foldl_nil, step, operations_eq special,
    lines_eq special]

theorem foldl_constantAdvance (state : LineReplay) :
    header.constantAdvance.foldl (step header) state = step header state .constAddPc := by
  have last : header.opcodeBase ≤ 255 := by
    rw [UInt8.le_iff_toNat_le]
    have := header.opcodeBase.toNat_lt
    exact Nat.le_of_lt_succ this
  simp only [LineHeader.constantAdvance, List.foldl_cons, List.foldl_nil, step,
    operations_eq last]

/-! ## Programs -/

theorem spelled_spelledOut (standing : 4 ≤ header.opcodeBase) (opcode : UInt8) :
    Spelled (LineInstruction.decode header compDir) encoding
      (LineInstruction.encodeAll encoding.order (header.spelledOut opcode))
      (header.spelledOut opcode) := by
  refine LineInstruction.spelled_encodeAll ?_
  simp only [LineHeader.spelledOut, List.forall_mem_cons, List.not_mem_nil, false_imp_iff,
    implies_true, and_true]
  have below {opcode : UInt8} (small : opcode < 4) : opcode < header.opcodeBase :=
    UInt8.lt_of_lt_of_le small standing
  exact ⟨⟨2, rfl, below (by decide)⟩, ⟨3, rfl, below (by decide)⟩, ⟨1, rfl, below (by decide)⟩⟩

theorem spelled_constantAdvance (standing : 9 ≤ header.opcodeBase) :
    Spelled (LineInstruction.decode header compDir) encoding
      (LineInstruction.encodeAll encoding.order header.constantAdvance) header.constantAdvance := by
  refine LineInstruction.spelled_encodeAll ?_
  simp only [LineHeader.constantAdvance, List.forall_mem_cons, List.not_mem_nil, false_imp_iff,
    implies_true, and_true]
  exact ⟨2, rfl, UInt8.lt_of_lt_of_le (by decide) standing⟩

/-- Spelling out one opcode changes nothing about what the bytes do to the machine. -/
theorem replays_iff_of_spellsOut (standing : 4 ≤ header.opcodeBase) {bytes longer : List UInt8}
    (spells : SpellsOut header compDir encoding bytes longer) {state last : LineReplay} :
    Replays header compDir encoding bytes state last ↔
      Replays header compDir encoding longer state last := by
  cases spells with
  | @special front program opcode executed special rest =>
      have single := (@LineInstruction.recognizes_special encoding header compDir _ special).spelled
      have short := @replays_append encoding header compDir [opcode] rest _ single
      have long := @replays_append encoding header compDir _ rest _
        (spelled_spelledOut standing opcode)
      rw [replays_append executed, replays_append executed, long, foldl_spelledOut special]
      exact short
  | @constant front program executed constant rest =>
      have below : 8 < header.opcodeBase := UInt8.lt_of_lt_of_le (by decide) constant
      have single : Spelled (LineInstruction.decode header compDir) encoding [8] [.constAddPc] :=
        (@LineInstruction.recognizes_encode encoding header compDir .constAddPc 8 rfl below).spelled
      have short := @replays_append encoding header compDir [8] rest _ single
      have long := @replays_append encoding header compDir _ rest _
        (spelled_constantAdvance constant)
      rw [replays_append executed, replays_append executed, long, foldl_constantAdvance]
      exact short

theorem replays_iff_of_spelled (standing : 4 ≤ header.opcodeBase) {bytes longer : List UInt8}
    (spelled : Relation.ReflTransGen (SpellsOut header compDir encoding) bytes longer)
    {state last : LineReplay} :
    Replays header compDir encoding bytes state last ↔
      Replays header compDir encoding longer state last := by
  induction spelled with
  | refl => exact Iff.rfl
  | tail _ spells ih => exact ih.trans (replays_iff_of_spellsOut standing spells)

end LineReplay

namespace LineTable

/-- Special opcodes and constant advances are abbreviations.  Behind any header that has been
accepted, spelling out any number of them gives a unit that can be decoded if and only if the
original can, and then the header, the files and the sequences are the same. -/
theorem decode_spelled_out {head body longer before after : List UInt8} {files : List LineFile}
    {start : Nat}
    (accepted : (LineHeader.decode before.length compDir).run (encoding.cursor head 0) =
      .ok (header, files, start))
    (standing : 4 ≤ header.opcodeBase)
    (spelled : Relation.ReflTransGen (SpellsOut header compDir encoding)
      (head.drop start ++ body) (head.drop start ++ longer))
    (announced : encoding.Announces (head ++ body).length)
    (announced_longer : encoding.Announces (head ++ longer).length) (table : LineTable) :
    decode (before ++ (encoding.unit (head ++ body) ++ after)) before.length encoding.order
        encoding.addressSize compDir = .ok table ↔
      decode (before ++ (encoding.unit (head ++ longer) ++ after)) before.length encoding.order
        encoding.addressSize compDir = .ok table := by
  rw [decode_unit_eq_ok_iff accepted announced, decode_unit_eq_ok_iff accepted announced_longer]
  simp only [LineReplay.replays_iff_of_spelled standing spelled]

/-- Set the address, advance by a special opcode and by the constant, end the sequence. -/
def compactProgram : List UInt8 :=
  LineInstruction.encode .little (.setAddress 0x1000) ++
    (75 :: (8 :: LineInstruction.encode .little .endSequence))

/-- The same program, with both advances spelled out. -/
def plainProgram : List UInt8 :=
  LineInstruction.encode .little (.setAddress 0x1000) ++
    (LineInstruction.encodeAll .little (wideInstructions.spelledOut 75) ++
      (LineInstruction.encodeAll .little wideInstructions.constantAdvance ++
        LineInstruction.encode .little .endSequence))

/-- The sequence of both programs; the row is at the second operation of an instruction. -/
def advancedTwice : LineSequence where
  start := 0x1002
  stop := 0x100e
  rows := [{ address := 0x1002, opIndex := 1, line := 2, isStmt := true },
    { address := 0x100e, line := 2, isStmt := true, endSequence := true }]

theorem spelled_setAddress :
    Spelled (LineInstruction.decode wideInstructions "") {}
      (LineInstruction.encode .little (.setAddress 0x1000)) [.setAddress 0x1000] :=
  (@LineInstruction.recognizes_encode {} wideInstructions "" (.setAddress 0x1000) 0 rfl
    (by decide)).spelled

theorem compactProgram_decoded :
    decode ([] ++ (({} : Encoding).unit (wideInstructionsBytes ++ compactProgram) ++ [7])) 0
      .little 8 "" = .ok ⟨wideInstructions, [], [advancedTwice]⟩ := by
  have special := (@LineInstruction.recognizes_special {} wideInstructions "" 75
    (by decide)).spelled
  have constant := (@LineInstruction.recognizes_encode {} wideInstructions "" .constAddPc 8
    rfl (by decide)).spelled
  have ends := (@LineInstruction.recognizes_encode {} wideInstructions "" .endSequence 0
    rfl (by decide)).spelled
  have executed : LineReplay.Replays wideInstructions "" {} compactProgram
      (.start wideInstructions) (.run wideInstructions
        [.setAddress 0x1000, .special 62, .constAddPc, .endSequence]) :=
    ⟨_, spelled_setAddress.append (special.append (constant.append ends)), rfl⟩
  exact (@decode_unit_eq_ok_iff {} "" wideInstructionsBytes compactProgram [] [7] _ _ _
    ⟨wideInstructions, [], [advancedTwice]⟩ wideInstructions_accepted (by decide +kernel)).mpr
      ⟨_, executed, by decide +kernel⟩

theorem compactProgram_spelled_out :
    decode ([] ++ (({} : Encoding).unit (wideInstructionsBytes ++ compactProgram) ++ [7])) 0
        .little 8 "" = .ok ⟨wideInstructions, [], [advancedTwice]⟩ ∧
      decode ([] ++ (({} : Encoding).unit (wideInstructionsBytes ++ plainProgram) ++ [7])) 0
        .little 8 "" = .ok ⟨wideInstructions, [], [advancedTwice]⟩ := by
  have announced : ({} : Encoding).Announces (wideInstructionsBytes ++ compactProgram).length := by
    decide +kernel
  have announced_plain :
      ({} : Encoding).Announces (wideInstructionsBytes ++ plainProgram).length := by
    decide +kernel
  refine ⟨compactProgram_decoded, ?_⟩
  have first := @SpellsOut.special wideInstructions "" {} _ _ 75 spelled_setAddress (by decide)
    (8 :: LineInstruction.encode .little .endSequence)
  have later := spelled_setAddress.append
    (@LineReplay.spelled_spelledOut {} wideInstructions "" (by decide) 75)
  have second := @SpellsOut.constant wideInstructions "" {} _ _ later (by decide)
    (LineInstruction.encode .little .endSequence)
  rw [List.append_assoc, List.append_assoc] at second
  have spelled : Relation.ReflTransGen (SpellsOut wideInstructions "" {})
      (wideInstructionsBytes.drop 26 ++ compactProgram)
      (wideInstructionsBytes.drop 26 ++ plainProgram) := .tail (.single first) second
  exact (@decode_spelled_out {} wideInstructions "" _ _ _ [] [7] _ _ wideInstructions_accepted
    (by decide) spelled announced announced_plain _).mp compactProgram_decoded

end LineTable

end Dwarf
