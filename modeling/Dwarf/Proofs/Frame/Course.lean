import Dwarf.Proofs.Frame.Alternatives

/-!
# The course of a replay

The replay of a function comes to places of its two programs, at each in the state of a machine.  It
fails exactly where it comes to a place where it cannot go on.  On its way locations never fall, and
the rows that are added between two places lie between their locations.
-/

namespace Dwarf

open Decoder

namespace FrameMachine

variable {origin : FrameSection} {entry : FunctionEntry} {initial : Option RuleSet}

/-! ## Rows between two machines -/

/-- The second machine has moved on from the first, and its further rows lie between their
locations. -/
structure Onward (machine last : FrameMachine) : Prop where
  location_le : machine.location ≤ last.location
  rows : ∃ fresh, last.rows = fresh ++ machine.rows ∧
    ∀ row ∈ fresh, machine.location ≤ row.start ∧ row.stop ≤ last.location

namespace Onward

theorem refl (machine : FrameMachine) : Onward machine machine :=
  ⟨UInt64.le_refl _, [], rfl, by simp⟩

theorem trans {machine middle last : FrameMachine} (first : Onward machine middle)
    (second : Onward middle last) : Onward machine last := by
  obtain ⟨rise, earlier, rows, between⟩ := first
  obtain ⟨further, later, more_rows, more_between⟩ := second
  refine ⟨UInt64.le_trans rise further, later ++ earlier, ?_, ?_⟩
  · rw [more_rows, rows, List.append_assoc]
  · intro row member
    rcases List.mem_append.mp member with member | member
    · obtain ⟨start, stop⟩ := more_between row member
      exact ⟨UInt64.le_trans rise start, stop⟩
    · obtain ⟨start, stop⟩ := between row member
      exact ⟨start, UInt64.le_trans stop further⟩

end Onward

/-- The rules of a machine hold from its location on. -/
theorem pending_between {machine : FrameMachine} {stop : UInt64} {row : UnwindRow}
    (member : row ∈ machine.pending origin entry stop) :
    row.start = machine.location ∧ row.stop = stop ∧ machine.cfa = some row.cfa ∧
      machine.registers = row.registers := by
  unfold pending at member
  cases defined : machine.cfa with
  | none => simp [defined] at member
  | some cfa =>
      simp only [defined] at member
      split at member
      · cases List.mem_singleton.mp member
        exact ⟨rfl, rfl, rfl, rfl⟩
      · cases member

theorem exists_pending {machine : FrameMachine} {stop : UInt64}
    (defined : machine.cfa.isSome = true) (moves : machine.location < stop) :
    ∃ row ∈ machine.pending origin entry stop,
      row.start = machine.location ∧ row.stop = stop := by
  obtain ⟨cfa, defined⟩ := Option.isSome_iff_exists.mp defined
  unfold pending
  simp only [defined, if_pos moves]
  exact ⟨_, List.mem_singleton_self _, rfl, rfl⟩

theorem step_onward {machine next : FrameMachine} {place : Nat} {instruction : FrameInstruction}
    (stepped : machine.step origin entry initial place instruction = .ok next) :
    Onward machine next := by
  obtain ⟨rise, rows⟩ := step_rows stepped
  refine ⟨rise, _, rows, fun row member => ?_⟩
  obtain ⟨start, stop, _⟩ := pending_between member
  exact ⟨UInt64.le_of_eq start.symm, UInt64.le_of_eq stop⟩

namespace Replay

variable {replay : Replay} {machine last : FrameMachine} {cursor place : Cursor}

theorem onward_of_visits (visits : Visits (replay.pass initial) cursor machine place last) :
    Onward machine last := by
  induction visits with
  | start => exact .refl _
  | pass _ _ read ih =>
      obtain ⟨_, _, _, _, stepped⟩ := pass_factors read
      have moved := step_onward stepped
      exact ih.trans ⟨moved.location_le, moved.rows⟩

theorem onward_of_resume (resumed : replay.resume initial machine cursor = .ok last) :
    Onward machine last :=
  let ⟨_, visits⟩ := (untilEnd_eq_ok_iff.mp resumed).visits
  onward_of_visits visits

/-! ## Places -/

/-- The replay of a function comes to a place of the program of the common entry, or behind it to
one of its own program, in the state of a machine. -/
inductive ComesTo (replay : Replay) : Option RuleSet → Cursor → FrameMachine → Prop where
  | common {cursor : Cursor} {machine : FrameMachine}
      (visits : Visits (replay.pass none)
        (replay.cursor replay.entry.common.instructions replay.entry.common.instructionsOffset)
        (.start replay.entry) cursor machine) : ComesTo replay none cursor machine
  | own {prepared : FrameMachine}
      (ready : replay.run none replay.entry.common.instructions
        replay.entry.common.instructionsOffset (.start replay.entry) = .ok prepared)
      {cursor : Cursor} {machine : FrameMachine}
      (visits : Visits (replay.pass (some prepared.registers))
        (replay.cursor replay.entry.instructions replay.entry.instructionsOffset) prepared cursor
        machine) : ComesTo replay (some prepared.registers) cursor machine

theorem ComesTo.pass {following : FrameMachine} (comes : replay.ComesTo initial cursor machine)
    (unfinished : cursor.atEnd = false)
    (read : ((replay.pass initial machine).read cursor).result = .ok following) :
    replay.ComesTo initial ((replay.pass initial machine).read cursor).next following := by
  cases comes with
  | common visits => exact .common (.pass visits unfinished read)
  | own ready visits => exact .own ready (.pass visits unfinished read)

/-- The replay of a function fails exactly if it comes to a place where a pass fails. -/
theorem rows_eq_error_iff {error : Error} :
    replay.rows = .error error ↔
      ∃ initial cursor machine, replay.ComesTo initial cursor machine ∧ cursor.atEnd = false ∧
        ((replay.pass initial machine).read cursor).result = .error error := by
  unfold Replay.rows
  rw [bind_eq_error_iff]
  constructor
  · rintro (failed | ⟨prepared, ready, failed⟩)
    · obtain ⟨cursor, machine, visits, stopped⟩ := untilEnd_eq_error_iff.mp failed
      exact ⟨_, cursor, machine, .common visits, stopped⟩
    · rcases bind_eq_error_iff.mp failed with failed | ⟨_, _, done⟩
      · obtain ⟨cursor, machine, visits, stopped⟩ := untilEnd_eq_error_iff.mp failed
        exact ⟨_, cursor, machine, .own ready visits, stopped⟩
      · cases done
  · rintro ⟨initial, cursor, machine, comes, stopped⟩
    cases comes with
    | common visits => exact .inl (untilEnd_eq_error_iff.mpr ⟨cursor, machine, visits, stopped⟩)
    | own ready visits =>
        refine .inr ⟨_, ready, bind_eq_error_iff.mpr (.inl ?_)⟩
        exact untilEnd_eq_error_iff.mpr ⟨cursor, machine, visits, stopped⟩

/-- From every place that it comes to, a replay that succeeds goes on to the machine whose rows are
closed in the end. -/
theorem ComesTo.onward {rows : List UnwindRow} (comes : replay.ComesTo initial cursor machine)
    (replayed : replay.rows = .ok rows) :
    ∃ finished, Onward machine finished ∧
      (finished.close replay.origin replay.entry replay.entry.stop).rows.reverse = rows := by
  obtain ⟨prepared, finished, prepare, finish, closed⟩ := runs_of_rows replayed
  cases comes with
  | common visits =>
      have resumed := visits.untilEnd_result.symm.trans prepare
      exact ⟨finished, (onward_of_resume resumed).trans (onward_of_resume finish), closed⟩
  | own ready visits =>
      cases ready.symm.trans prepare
      have resumed := visits.untilEnd_result.symm.trans finish
      exact ⟨finished, onward_of_resume resumed, closed⟩

theorem ComesTo.stop_le (comes : replay.ComesTo initial cursor machine) :
    ∀ row ∈ machine.rows, row.stop ≤ machine.location := by
  have onward : Onward (.start replay.entry) machine := by
    cases comes with
    | common visits => exact onward_of_visits visits
    | own ready visits => exact (onward_of_resume ready).trans (onward_of_visits visits)
  obtain ⟨_, fresh, rows, between⟩ := onward
  intro row member
  rw [rows] at member
  exact (between row (by simpa [FrameMachine.start] using member)).2

end Replay

end FrameMachine

end Dwarf
