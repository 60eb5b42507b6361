import Mathlib.Logic.Relation
import Dwarf.Proofs.Line.Concatenation

/-!
# Advances that add up

To advance by one number of operations and then by another is to advance by their sum, wherever in an
instruction the machine stands: what the first advance leaves of an instruction carries into the
second, and addresses wrap around.  All that is asked for is that the position itself does not
overflow.  So an advance of a program may be split into several, and its table stays as it was.
-/

namespace Dwarf

open Decoder

variable {encoding : Encoding} {header : LineHeader} {compDir : String}

/-! ## Registers -/

namespace LineRow

variable {position second width : UInt64}

theorem toNat_carried (fits : position.toNat + second.toNat < 2 ^ 64) :
    (position % width + second).toNat = position.toNat % width.toNat + second.toNat := by
  have below : position.toNat % width.toNat + second.toNat < 2 ^ 64 :=
    Nat.lt_of_le_of_lt (Nat.add_le_add_right (Nat.mod_le _ _) _) fits
  rw [UInt64.toNat_add, UInt64.toNat_mod, Nat.mod_eq_of_lt below]

theorem mod_carried (fits : position.toNat + second.toNat < 2 ^ 64) :
    (position % width + second) % width = (position + second) % width := by
  rw [← UInt64.toNat_inj, UInt64.toNat_mod, UInt64.toNat_mod, toNat_carried fits,
    UInt64.toNat_add, Nat.mod_eq_of_lt fits, Nat.mod_add_mod]

theorem div_carried (positive : 0 < width.toNat)
    (fits : position.toNat + second.toNat < 2 ^ 64) :
    position / width + (position % width + second) / width = (position + second) / width := by
  have quotients : position.toNat / width.toNat +
      (position.toNat % width.toNat + second.toNat) / width.toNat =
        (position.toNat + second.toNat) / width.toNat := by
    calc
      _ = (position.toNat % width.toNat + second.toNat +
            width.toNat * (position.toNat / width.toNat)) / width.toNat := by
          rw [Nat.add_mul_div_left _ _ positive, Nat.add_comm]
      _ = (position.toNat + second.toNat) / width.toNat := by
          rw [Nat.add_right_comm, Nat.mod_add_div]
  have small : (position.toNat + second.toNat) / width.toNat < 2 ^ 64 :=
    Nat.lt_of_le_of_lt (Nat.div_le_self _ _) fits
  rw [← UInt64.toNat_inj, UInt64.toNat_add, UInt64.toNat_div, UInt64.toNat_div, UInt64.toNat_div,
    toNat_carried fits, quotients, UInt64.toNat_add, Nat.mod_eq_of_lt small, Nat.mod_eq_of_lt fits]

/-- Two advances are one by the sum, unless the position overflows. -/
theorem advance_advance {row : LineRow} {first second : UInt64}
    (fits : row.opIndex.toNat + first.toNat + second.toNat < 2 ^ 64) :
    (row.advance header first).advance header second = row.advance header (first + second) := by
  have position : (row.opIndex + first).toNat = row.opIndex.toNat + first.toNat := by
    rw [UInt64.toNat_add]
    exact Nat.mod_eq_of_lt (Nat.lt_of_le_of_lt (Nat.le_add_right _ _) fits)
  rw [← position] at fits
  unfold advance
  dsimp only
  by_cases single : header.maximumOperations.toUInt64 ≤ 1
  · simp only [if_pos single, UInt64.mul_add, UInt64.add_assoc]
  · have positive : 0 < header.maximumOperations.toUInt64.toNat := by
      have several := UInt64.le_iff_toNat_le.not.mp single
      exact Nat.lt_trans Nat.zero_lt_one (Nat.not_le.mp several)
    simp only [if_neg single, UInt64.add_assoc, ← UInt64.mul_add, mod_carried fits,
      div_carried positive fits]

end LineRow

/-! ## Programs -/

namespace LineReplay

variable {state : LineReplay}

/-- Several advances do what one does by the sum of their operands. -/
theorem foldl_advances {first total : UInt64} {others : List UInt64}
    (sum : first.toNat + (others.map UInt64.toNat).sum = total.toNat)
    (fits : state.row.opIndex.toNat + total.toNat < 2 ^ 64) :
    ((first :: others).map LineInstruction.advancePc).foldl (step header) state =
      step header state (.advancePc total) := by
  induction others generalizing first with
  | nil =>
      have same : first = total := UInt64.toNat_inj.mp sum
      rw [same]
      rfl
  | cons second others ih =>
      rw [List.map_cons, List.sum_cons, ← Nat.add_assoc] at sum
      have merged : (first + second).toNat = first.toNat + second.toNat := by
        rw [UInt64.toNat_add]
        exact Nat.mod_eq_of_lt (by omega)
      have together : step header (step header state (.advancePc first)) (.advancePc second) =
          step header state (.advancePc (first + second)) := by
        simp only [step]
        rw [LineRow.advance_advance (by omega)]
      rw [← ih (merged ▸ sum)]
      simp only [List.map_cons, List.foldl_cons, together]

end LineReplay

/-- One advance of a program is split into several.  The machine comes to it with a position from
where the advance does not overflow: what stands before is a run of instructions, what stands behind
may be anything. -/
inductive SplitsAdvance (header : LineHeader) (compDir : String) (encoding : Encoding) :
    List UInt8 → List UInt8 → Prop where
  | intro {front whole split : List UInt8} {program : List LineInstruction} {total first : UInt64}
      {others : List UInt64}
      (executed : Spelled (LineInstruction.decode header compDir) encoding front program)
      (advances : Spelled (LineInstruction.decode header compDir) encoding whole
        [.advancePc total])
      (parts : Spelled (LineInstruction.decode header compDir) encoding split
        ((first :: others).map .advancePc))
      (sum : first.toNat + (others.map UInt64.toNat).sum = total.toNat)
      (fits : (LineReplay.run header program).row.opIndex.toNat + total.toNat < 2 ^ 64)
      (rest : List UInt8) :
      SplitsAdvance header compDir encoding (front ++ (whole ++ rest)) (front ++ (split ++ rest))

namespace LineReplay

theorem replays_iff_of_splitsAdvance {bytes longer : List UInt8}
    (splits : SplitsAdvance header compDir encoding bytes longer) {last : LineReplay} :
    Replays header compDir encoding bytes (start header) last ↔
      Replays header compDir encoding longer (start header) last := by
  cases splits with
  | @intro front whole split program total first others executed advances parts sum fits rest =>
      have merged := @foldl_advances header (run header program) first total others sum fits
      rw [run] at merged
      rw [replays_append executed, replays_append executed, replays_append advances,
        replays_append parts, merged]
      exact Iff.rfl

theorem replays_iff_of_split {bytes longer : List UInt8}
    (split : Relation.ReflTransGen (SplitsAdvance header compDir encoding) bytes longer)
    {last : LineReplay} :
    Replays header compDir encoding bytes (start header) last ↔
      Replays header compDir encoding longer (start header) last := by
  induction split with
  | refl => exact Iff.rfl
  | tail _ splits ih => exact ih.trans (replays_iff_of_splitsAdvance splits)

end LineReplay

namespace LineTable

/-- Advances add up.  In every state of the line machine, one advance after another leaves the
registers that an advance by the sum leaves, unless the position overflows.  And behind any header
that has been accepted, splitting any number of advances gives a unit that can be decoded if and only
if the original can, and then the header, the files and all rows are the same. -/
theorem advances_add_up :
    (∀ (header : LineHeader) (row : LineRow) (first second : UInt64),
      row.opIndex.toNat + first.toNat + second.toNat < 2 ^ 64 →
        (row.advance header first).advance header second = row.advance header (first + second)) ∧
    ∀ (encoding : Encoding) (header : LineHeader) (compDir : String)
      (head body longer before after : List UInt8) (files : List LineFile) (start : Nat),
      (LineHeader.decode before.length compDir).run (encoding.cursor head 0) =
        .ok (header, files, start) →
      Relation.ReflTransGen (SplitsAdvance header compDir encoding)
        (head.drop start ++ body) (head.drop start ++ longer) →
      encoding.Announces (head ++ body).length → encoding.Announces (head ++ longer).length →
      ∀ table,
        decode (before ++ (encoding.unit (head ++ body) ++ after)) before.length encoding.order
            encoding.addressSize compDir = .ok table ↔
          decode (before ++ (encoding.unit (head ++ longer) ++ after)) before.length encoding.order
            encoding.addressSize compDir = .ok table := by
  refine ⟨fun header row first second fits => LineRow.advance_advance fits, ?_⟩
  intro encoding header compDir head body longer before after files start accepted split announced
    announced_longer table
  rw [decode_unit_eq_ok_iff accepted announced, decode_unit_eq_ok_iff accepted announced_longer]
  simp only [LineReplay.replays_iff_of_split split]

/-- Come to the second operation of an instruction and append a row. -/
def secondOperation : List LineInstruction :=
  [.setAddress 0x1000, .advancePc 1, .copy]

/-- The bytes of a program that goes on from there by some advances. -/
def advancing (operations : List UInt64) : List UInt8 :=
  LineInstruction.encodeAll .little secondOperation ++
    (LineInstruction.encodeAll .little (operations.map .advancePc) ++
      LineInstruction.encodeAll .little [.endSequence])

/-- The sequence of a program that goes on from there by seven operations. -/
def sevenOperations : LineSequence where
  start := 0x1000
  stop := 0x1004
  rows := [{ address := 0x1000, opIndex := 1, isStmt := true },
    { address := 0x1004, opIndex := 2, isStmt := true, endSequence := true }]

/-- Seven operations are advanced at once, or by two and then by five: the first of these comes to
the end of an instruction. -/
theorem advances_add_up_seven :
    let row : LineRow := { address := 0x1000, opIndex := 1, isStmt := true }
    (row.opIndex.toNat + (2 : UInt64).toNat + (5 : UInt64).toNat < 2 ^ 64 ∧
      (row.advance wideInstructions 2).advance wideInstructions 5 =
        row.advance wideInstructions (2 + 5)) ∧
      SplitsAdvance wideInstructions "" {} (advancing [7]) (advancing [2, 5]) ∧
      decode ([] ++ (({} : Encoding).unit (wideInstructionsBytes ++ advancing [7]) ++ [])) 0
        .little 8 "" = .ok ⟨wideInstructions, [], [sevenOperations]⟩ ∧
      decode ([] ++ (({} : Encoding).unit (wideInstructionsBytes ++ advancing [2, 5]) ++ [])) 0
        .little 8 "" = .ok ⟨wideInstructions, [], [sevenOperations]⟩ := by
  intro row
  obtain ⟨law, programs⟩ := advances_add_up
  have spelled {program : List LineInstruction}
      (formed : ∀ instruction ∈ program, instruction.opcode?.isSome = true) :=
    reads_iff_spelled.mp (reads_encodeAll formed)
  have splits : SplitsAdvance wideInstructions "" {} (advancing [7]) (advancing [2, 5]) :=
    .intro (spelled (by decide)) (@spelled [.advancePc 7] (by decide))
      (@spelled ([2, 5].map .advancePc) (by decide)) (by decide) (by decide) _
  have announced : ({} : Encoding).Announces (wideInstructionsBytes ++ advancing [7]).length := by
    decide +kernel
  have decoded := (@decode_unit_eq_ok_iff {} "" wideInstructionsBytes (advancing [7]) [] [] _ _ _
    ⟨wideInstructions, [], [sevenOperations]⟩ wideInstructions_accepted announced).mpr
      ⟨_, ⟨_, (@spelled secondOperation (by decide)).append
        ((@spelled [.advancePc 7] (by decide)).append (@spelled [.endSequence] (by decide))), rfl⟩,
        by decide +kernel⟩
  refine ⟨⟨by decide, law wideInstructions row 2 5 (by decide)⟩, splits, decoded, ?_⟩
  exact (programs {} wideInstructions "" wideInstructionsBytes _ _ [] [] _ _
    wideInstructions_accepted (.single splits) announced (by decide +kernel) _).mp decoded

/-- Where the position overflows, the wrapped sum is another advance. -/
example :
    let row : LineRow := { isStmt := true }
    let half : UInt64 := 0x8000000000000000
    ((row.advance wideInstructions half).advance wideInstructions half).address ≠
      (row.advance wideInstructions (half + half)).address := by
  decide

end LineTable

end Dwarf
