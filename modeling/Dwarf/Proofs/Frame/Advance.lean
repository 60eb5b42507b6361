import Dwarf.Proofs.Frame.Course
import Dwarf.Proofs.Frame.Nesting

/-!
# Advances

An advance moves on by a number of code units.  Addresses are words, and an advance that leaves them
wraps: it then leads to an address below the one it should lead to, and is dropped where that is not
above the current location.  Where it does lead as far as it should, the addresses that are passed
keep the rules in force before it, whatever the instructions behind it set.
-/

namespace Dwarf

open Decoder

/-! ## Stored advances -/

namespace StoredInstruction

/-- The number of code units by which an instruction advances. -/
def delta? : StoredInstruction → Option Nat
  | advanceLoc units => some units
  | advanceLoc1 units => some units.toNat
  | advanceLoc2 units => some units.toNat
  | advanceLoc4 units => some units.toNat
  | _ => none

theorem meaning_of_delta {instruction : StoredInstruction} {delta : Nat}
    (advances : instruction.delta? = some delta) (reader : FrameInstruction.Reader) :
    instruction.meaning reader = .ok (.advance (.ofNat delta)) := by
  cases instruction with
  | advanceLoc units =>
      cases advances
      rfl
  | advanceLoc1 units =>
      cases advances
      rw [meaning, UInt64.ofNat_uInt8ToNat]
  | advanceLoc2 units =>
      cases advances
      rw [meaning, UInt64.ofNat_uInt16ToNat]
  | advanceLoc4 units =>
      cases advances
      rw [meaning, UInt64.ofNat_uInt32ToNat]
  | _ => cases advances

end StoredInstruction

namespace FrameMachine

variable {origin : FrameSection} {entry : FunctionEntry} {initial : Option RuleSet}

/-! ## The location behind an advance -/

/-- Where an advance leads if addresses are numbers without a bound. -/
def target (machine : FrameMachine) (entry : FunctionEntry) (delta : Nat) : Nat :=
  machine.location.toNat + delta * entry.common.codeAlignment.toNat

/-- An advance leads as far as it should: to a word, or beyond the words and back to the end of the
function or behind it.  Where the function has already come to its end nothing is left to pass. -/
def Arrives (machine : FrameMachine) (entry : FunctionEntry) (delta : Nat) : Prop :=
  machine.target entry delta < UInt64.size ∨ entry.stop ≤ machine.location ∨
    entry.stop.toNat ≤ machine.target entry delta % UInt64.size

instance (machine : FrameMachine) (entry : FunctionEntry) (delta : Nat) :
    Decidable (machine.Arrives entry delta) :=
  inferInstanceAs (Decidable (_ ∨ _ ∨ _))

theorem advance_toNat_mod (machine : FrameMachine) (entry : FunctionEntry) (delta : Nat) :
    (machine.location + .ofNat delta * entry.common.codeAlignment).toNat =
      machine.target entry delta % UInt64.size := by
  rw [UInt64.toNat_add, UInt64.toNat_mul, UInt64.toNat_ofNat', Nat.mod_mul_mod, Nat.add_mod_mod]
  rfl

/-- An advance never fails, and it moves on to its target in the words or to the end of the
function. -/
theorem step_advance (machine : FrameMachine) (origin : FrameSection) (entry : FunctionEntry)
    (initial : Option RuleSet) (place delta : Nat) :
    ∃ next, machine.step origin entry initial place (.advance (.ofNat delta)) = .ok next ∧
      next.location.toNat = max machine.location.toNat
        (min (machine.target entry delta % UInt64.size) entry.stop.toNat) := by
  refine ⟨_, rfl, ?_⟩
  rw [moveTo_location, advance_toNat_mod]

theorem arrives_iff (machine : FrameMachine) (entry : FunctionEntry) (delta : Nat) :
    max machine.location.toNat (min (machine.target entry delta % UInt64.size) entry.stop.toNat) =
        max machine.location.toNat (min (machine.target entry delta) entry.stop.toNat) ↔
      machine.Arrives entry delta := by
  have forward : machine.location.toNat ≤ machine.target entry delta := Nat.le_add_right _ _
  have bound := entry.stop.toNat_lt
  unfold Arrives
  rw [UInt64.le_iff_toNat_le]
  change _ ↔ _ < 2 ^ 64 ∨ _
  by_cases word : machine.target entry delta < UInt64.size
  · rw [Nat.mod_eq_of_lt word]
    exact iff_of_true rfl (.inl word)
  · change ¬_ < 2 ^ 64 at word
    have wraps := Nat.mod_le (machine.target entry delta) UInt64.size
    generalize machine.target entry delta % UInt64.size = wrapped at wraps ⊢
    omega

/-! ## The addresses that are passed -/

namespace Replay

variable {replay : Replay} {machine last : FrameMachine} {cursor : Cursor}

theorem under_of_visits {start : Cursor} {first : FrameMachine}
    (visits : Visits (replay.pass initial) start first cursor machine)
    (under : start.Under replay.reader.encoding) : cursor.Under replay.reader.encoding := by
  induction visits with
  | start => exact under
  | pass _ _ read ih =>
      obtain ⟨_, decoded, next, _⟩ := pass_factors read
      rw [next]
      exact (FrameInstruction.stable_decode replay.reader).under ih decoded

theorem ComesTo.under (comes : replay.ComesTo initial cursor machine) :
    cursor.Under replay.reader.encoding := by
  cases comes with
  | common visits => exact under_of_visits visits (replay.under_cursor _ _)
  | own _ visits => exact under_of_visits visits (replay.under_cursor _ _)

/-- At a place that a replay comes to it executes the instruction stored there, if it succeeds. -/
theorem ComesTo.executes {rows : List UnwindRow} {instruction : FrameInstruction}
    {bytes after : List UInt8} (comes : replay.ComesTo initial cursor machine)
    (replayed : replay.rows = .ok rows)
    (answers : (FrameInstruction.decode replay.reader).read.Answers replay.reader.encoding bytes
      (.ok instruction)) (nonempty : bytes ≠ []) (rest : cursor.rest = bytes ++ after) :
    ∃ place following behind,
      (machine.later 1).step replay.origin replay.entry initial place instruction = .ok following ∧
        replay.ComesTo initial behind following := by
  have unfinished : cursor.atEnd = false := by
    rw [← Bool.not_eq_true, Cursor.atEnd_iff_rest, rest, List.append_eq_nil_iff]
    exact fun empty => nonempty empty.1
  cases passed : ((replay.pass initial machine).read cursor).result with
  | error error =>
      have failed := rows_eq_error_iff.mpr ⟨initial, cursor, machine, comes, unfinished, passed⟩
      cases failed.symm.trans replayed
  | ok following =>
      have executed := passed
      rw [(pass_eq initial machine cursor).1, (answers comes.under rest).1, execute] at executed
      split at executed
      · cases executed
      · exact ⟨_, following, _, executed, comes.pass unfinished passed⟩

/-- The rows of a function hold, for the addresses between a machine that the replay comes to and
the next one, the rules of the first. -/
theorem ComesTo.rows_between {rows : List UnwindRow} {next : FrameMachine} {behind : Cursor}
    {place : Nat} {instruction : FrameInstruction}
    (comes : replay.ComesTo initial cursor machine) (further : replay.ComesTo initial behind next)
    (stepped : (machine.later 1).step replay.origin replay.entry initial place instruction =
      .ok next)
    (replayed : replay.rows = .ok rows) {pc : UInt64} (lower : machine.location ≤ pc)
    (upper : pc < next.location) :
    ((∃ row ∈ rows, row.contains pc = true) ↔ machine.cfa.isSome = true) ∧
      ∀ row ∈ rows, row.contains pc = true →
        machine.cfa = some row.cfa ∧ machine.registers = row.registers := by
  obtain ⟨finished, ⟨rise, fresh, added, between⟩, closed⟩ := further.onward replayed
  have passed : next.rows =
      machine.pending replay.origin replay.entry next.location ++ machine.rows :=
    (step_rows stepped).2
  have rows_eq : ∀ row, row ∈ rows ↔
      row ∈ finished.pending replay.origin replay.entry replay.entry.stop ∨ row ∈ fresh ∨
        row ∈ machine.pending replay.origin replay.entry next.location ∨ row ∈ machine.rows := by
    intro row
    rw [← closed, close_eq, List.mem_reverse, added, passed, List.mem_append, List.mem_append,
      List.mem_append]
  have only (row : UnwindRow) (member : row ∈ rows) (contains : row.contains pc = true) :
      row ∈ machine.pending replay.origin replay.entry next.location := by
    obtain ⟨start, stop⟩ := UnwindRow.contains_iff.mp contains
    have above {location : UInt64} (le : location ≤ row.start) (rise : next.location ≤ location) :
        False :=
      UInt64.not_le.mpr upper (UInt64.le_trans rise (UInt64.le_trans le start))
    rcases (rows_eq row).mp member with last | later | here | earlier
    · exact (above (UInt64.le_of_eq (pending_between last).1.symm) rise).elim
    · exact (above (between row later).1 (UInt64.le_refl _)).elim
    · exact here
    · have below := UInt64.le_trans (comes.stop_le row earlier) lower
      exact (UInt64.not_le.mpr stop below).elim
  refine ⟨⟨?_, ?_⟩, ?_⟩
  · rintro ⟨row, member, contains⟩
    rw [(pending_between (only row member contains)).2.2.1]
    rfl
  · intro defined
    obtain ⟨row, member, start, stop⟩ :=
      @exists_pending replay.origin replay.entry _ _ defined (UInt64.lt_of_le_of_lt lower upper)
    refine ⟨row, (rows_eq row).mpr (.inr (.inr (.inl member))), UnwindRow.contains_iff.mpr ?_⟩
    rw [start, stop]
    exact ⟨lower, upper⟩
  · intro row member contains
    exact (pending_between (only row member contains)).2.2

end Replay

end FrameMachine

namespace FrameTable

open FrameMachine

/-- An advance never fails.  It moves on to its target in the words, or to the end of the function if
that comes first, and this is its target proper exactly if the advance arrives.  Then the addresses
that it passes have the rules in force before it, whatever the replay sets afterwards. -/
theorem rows_passed_by_advance (table : FrameTable) (entry : FunctionEntry)
    {instruction : StoredInstruction} {delta : Nat} (advances : instruction.delta? = some delta) :
    let replay := table.replay entry
    (∀ (machine : FrameMachine) (initial : Option RuleSet) (place : Nat), ∃ next,
      (instruction.meaning replay.reader >>= machine.step table.origin entry initial place) =
          .ok next ∧
        next.location.toNat = max machine.location.toNat
          (min (machine.target entry delta % UInt64.size) entry.stop.toNat) ∧
        (next.location.toNat =
            max machine.location.toNat (min (machine.target entry delta) entry.stop.toNat) ↔
          machine.Arrives entry delta)) ∧
    ∀ {initial : Option RuleSet} {cursor : Cursor} {machine : FrameMachine}
      {bytes after : List UInt8} {rows : List UnwindRow},
      replay.ComesTo initial cursor machine →
      instruction.StoredAs replay.reader.encoding bytes → cursor.rest = bytes ++ after →
      table.rows entry = .ok rows → machine.Arrives entry delta →
      ∀ pc, machine.location ≤ pc →
        pc.toNat < min (machine.target entry delta) entry.stop.toNat →
        ((∃ row ∈ rows, row.contains pc = true) ↔ machine.cfa.isSome = true) ∧
          ∀ row ∈ rows, row.contains pc = true →
            machine.cfa = some row.cfa ∧ machine.registers = row.registers := by
  intro replay
  have meaning := StoredInstruction.meaning_of_delta advances replay.reader
  refine ⟨fun machine initial place => ?_, ?_⟩
  · obtain ⟨next, stepped, location⟩ :=
      step_advance machine table.origin entry initial place delta
    refine ⟨next, ?_, location, ?_⟩
    · rw [meaning]
      exact stepped
    · rw [location]
      exact arrives_iff machine entry delta
  · intro initial cursor machine bytes after rows comes stored rest replayed arrives pc lower upper
    have answers := stored.answers replay.reader
    rw [meaning] at answers
    obtain ⟨place, next, behind, stepped, further⟩ :=
      comes.executes replayed answers stored.ne_nil rest
    obtain ⟨_, same, location⟩ :=
      step_advance (machine.later 1) table.origin entry initial place delta
    cases same.symm.trans stepped
    have arrived := location.trans ((arrives_iff (machine.later 1) entry delta).mpr arrives)
    refine comes.rows_between further stepped replayed lower (UInt64.lt_iff_toNat_lt.mpr ?_)
    rw [arrived]
    exact Nat.lt_of_lt_of_le upper (Nat.le_max_right _ _)

/-- The first address of a function that moves its stack pointer at the second one keeps the rule
before that. -/
theorem rows_passed_by_prologue :
    (StoredInstruction.advanceLoc 1).delta? = some 1 ∧
      ∃ rows, prologueTable.rows prologue = .ok rows ∧
        (∃ row ∈ rows, row.contains 0x1000 = true) ∧
          ∀ row ∈ rows, row.contains 0x1000 = true → row.cfa = .registerPlus 7 8 := by
  let prepared := { FrameMachine.start prologue with
    cfa := some (.registerPlus 7 8), executed := 1 }
  have ready : (prologueTable.replay prologue).run none [0x0c, 7, 8] 12 (.start prologue) =
      .ok prepared := by
    cbv
  have comes : (prologueTable.replay prologue).ComesTo (some prepared.registers)
      ((prologueTable.replay prologue).cursor [0x41, 0x0e, 16] 40) prepared :=
    .own ready .start
  have stored : (StoredInstruction.advanceLoc 1).StoredAs
      (prologueTable.replay prologue).reader.encoding [0x41] := ⟨[], .nil, by decide⟩
  have replayed : (prologueTable.rows prologue).toBool = true := by cbv
  cases rows : prologueTable.rows prologue with
  | error error => rw [rows] at replayed; cases replayed
  | ok found =>
      obtain ⟨held, rules⟩ := (rows_passed_by_advance prologueTable prologue rfl).2 comes stored rfl
        rows (by decide) 0x1000 (by decide) (by decide)
      refine ⟨rfl, found, rfl, held.mpr rfl, fun row member contains => ?_⟩
      exact (Option.some.inj (rules row member contains).1).symm

/-- A function in the last page of the address space.  It advances by as many bytes as are left of the
words and then moves its stack pointer. -/
def lastPage : FunctionEntry where
  offset := 16
  common := {
    offset := 0
    version := 1
    augmentation := ""
    addressSize := 8
    codeAlignment := 1
    dataAlignment := -8
    returnRegister := 16
    added := {}
    hasData := false
    instructions := [0x0c, 7, 8]
    instructionsOffset := 13 }
  start := 0xffffffffffffff00
  range := 0x80
  lsda := none
  instructions := [0x04, 0x00, 0x01, 0x00, 0x00, 0x0e, 16]
  instructionsOffset := 40

/-- The section that the function is stored in. -/
def lastPageTable : FrameTable :=
  decode
    [0x0c, 0, 0, 0, 0xff, 0xff, 0xff, 0xff, 1, 0, 1, 0x78, 0x10, 0x0c, 7, 8,
      0x1b, 0, 0, 0, 0, 0, 0, 0, 0x00, 0xff, 0xff, 0xff, 0xff, 0xff, 0xff, 0xff,
      0x80, 0, 0, 0, 0, 0, 0, 0, 0x04, 0x00, 0x01, 0x00, 0x00, 0x0e, 16]
    ⟨.debug, .little, 0, 8⟩ 10000

/-- The advance should pass the whole function, but it wraps and is dropped, and the rule set behind
it is that of the first address. -/
theorem lastPage_advance_dropped :
    lastPage ∈ lastPageTable.functions ∧
      ∃ (initial : Option RuleSet) (cursor : Cursor) (machine : FrameMachine) (rows : List UnwindRow),
        (lastPageTable.replay lastPage).ComesTo initial cursor machine ∧
          (∃ bytes after, cursor.rest = bytes ++ after ∧
            (StoredInstruction.advanceLoc4 0x100).StoredAs
              (lastPageTable.replay lastPage).reader.encoding bytes) ∧
          lastPageTable.rows lastPage = .ok rows ∧
          lastPage.start.toNat < min (machine.target lastPage 0x100) lastPage.stop.toNat ∧
          machine.cfa = some (.registerPlus 7 8) ∧
          ∃ row ∈ rows, row.contains lastPage.start = true ∧ row.cfa = .registerPlus 7 16 := by
  let prepared := { FrameMachine.start lastPage with
    cfa := some (.registerPlus 7 8), executed := 1 }
  have facts : lastPageTable.functions = [lastPage] ∧
      (lastPageTable.replay lastPage).run none [0x0c, 7, 8] 13 (.start lastPage) = .ok prepared ∧
      (lastPageTable.rows lastPage).map (·.map fun row => (row.contains lastPage.start, row.cfa)) =
        .ok [(true, .registerPlus 7 16)] := by
    decide +kernel
  obtain ⟨functions, ready, replayed⟩ := facts
  obtain ⟨rows, same, row_facts⟩ := map_eq_ok_iff.mp replayed
  obtain ⟨row, rfl, held⟩ := List.map_eq_singleton_iff.mp row_facts
  obtain ⟨contains, cfa⟩ := Prod.mk.inj held
  have order : (lastPageTable.replay lastPage).reader.encoding.order = .little := by
    decide +kernel
  have word := @recognizes_uint32 (lastPageTable.replay lastPage).reader.encoding 0x100
  rw [order] at word
  refine ⟨functions ▸ List.mem_singleton_self lastPage, _, _, prepared, _, .own ready .start,
    ⟨[0x04, 0x00, 0x01, 0x00, 0x00], [0x0e, 16], rfl, ?_⟩, same, by decide, rfl, row,
    List.mem_singleton_self row, contains, cfa⟩
  exact ⟨[[0x00, 0x01, 0x00, 0x00]], .cons word .nil, rfl⟩

end FrameTable

end Dwarf
