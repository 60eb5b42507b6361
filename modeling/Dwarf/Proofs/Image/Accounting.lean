import Mathlib.Data.List.Nodup
import Dwarf.Proofs.Image.Load

/-!
# Every unit is accounted for

A visit to the information section ends with a unit or with one failure of its own, and nothing else
is reported for that section or for the abbreviations.  Where nothing is reported, the units fill the
section.
-/

namespace Dwarf

open AbbreviationTable (tableAt)
open UnitHeader (Visit Tiles)

/-- Whether a unit is missing because of a failure. -/
def DecodeFailure.losesUnit (failure : DecodeFailure) : Bool :=
  failure.origin == .info || failure.origin == .abbreviations

namespace Image

variable {sections : Sections} {visit : Visit} {unit : CompilationUnit} {failure : DecodeFailure}

/-! ## Failures that lose no unit -/

theorem error_of_mapM_some {α β : Type} {decode : α → Except DecodeFailure β} {value : α}
    (failed : (some value).mapM decode = .error failure) : decode value = .error failure := by
  rw [Option.mapM_some] at failed
  cases decoded : decode value with
  | error other =>
      rw [decoded] at failed
      cases failed
      rfl
  | ok found =>
      rw [decoded] at failed
      cases failed

theorem origin_of_decodeLines (failed : ImageUnit.decodeLines sections unit = .error failure) :
    failure.origin = .line := by
  unfold ImageUnit.decodeLines at failed
  cases named : (unit.root.value? .stmtList).bind AttributeValue.sectionOffset? with
  | none =>
      rw [named] at failed
      cases failed
  | some offset =>
      rw [named] at failed
      obtain ⟨error, _, rfl⟩ := mapError_eq_error_iff.mp (error_of_mapM_some failed)
      rfl

theorem origin_of_decodeRanges (failed : ImageUnit.decodeRanges sections unit = .error failure) :
    failure.origin = .ranges := by
  obtain ⟨error, _, rfl⟩ := mapError_eq_error_iff.mp failed
  rfl

/-- What is attached to a unit can only fail for itself. -/
theorem attachFailures_lose_nothing (listed : failure ∈ attachFailures sections unit) :
    failure.losesUnit = false := by
  have failed {α : Type} {tried : Except DecodeFailure α}
      (reported : failure ∈ (DecodeFailure.of? tried).toList) : tried = .error failure := by
    cases tried with
    | error other => rw [List.mem_singleton.mp reported]
    | ok value => cases reported
  unfold DecodeFailure.losesUnit
  rcases List.mem_append.mp listed with lines | ranges
  · rw [origin_of_decodeLines (failed lines)]
    rfl
  · rw [origin_of_decodeRanges (failed ranges)]
    rfl

theorem frameFailures_lose_nothing {table : FrameTable} (listed : failure ∈ frameFailures table) :
    failure.losesUnit = false := by
  obtain ⟨⟨offset, error⟩, _, rfl⟩ := List.mem_map.mp listed
  unfold DecodeFailure.losesUnit
  cases table.origin.kind with
  | debug => rfl
  | exception => rfl

/-! ## Failures that lose a unit -/

/-- Why there is no unit at a visit: its header, its table or its entries cannot be decoded. -/
inductive Lost (sections : Sections) (visit : Visit) : DecodeFailure → Prop where
  | header {error : Error} (failed : visit.2 = .error error) :
      Lost sections visit ⟨.info, visit.1, error⟩
  | table {header : UnitHeader} {error : Error} (announced : visit.2 = .ok header)
      (failed : tableAt (sections.data .abbreviations) header.abbrevOffset = .error error) :
      Lost sections visit ⟨.abbreviations, header.abbrevOffset, error⟩
  | entries {header : UnitHeader} {table : AbbreviationTable} {error : Error}
      (announced : visit.2 = .ok header)
      (found : tableAt (sections.data .abbreviations) header.abbrevOffset = .ok table)
      (failed : CompilationUnit.decode (sections.data .info) header table sections.order =
        .error error) :
      Lost sections visit ⟨.info, visit.1, error⟩

theorem lost_of_unitAt (visited : visit ∈ visits sections)
    (failed : unitAt sections visit = .error failure) : Lost sections visit failure := by
  rcases visit with ⟨offset, result⟩
  cases result with
  | error error =>
      cases failed
      exact .header rfl
  | ok header =>
      cases found : tableAt (sections.data .abbreviations) header.abbrevOffset with
      | error error =>
          have job : jobAt (sections.data .abbreviations) (offset, .ok header) =
              .error ⟨.abbreviations, header.abbrevOffset, error⟩ := by
            simp only [jobAt, found]
          rw [unitAt, job] at failed
          cases failed
          exact .table rfl found
      | ok table =>
          have job : jobAt (sections.data .abbreviations) (offset, .ok header) =
              .ok (header, table) := jobAt_eq_ok_iff.mpr ⟨rfl, found⟩
          rw [unitAt, job] at failed
          obtain ⟨error, undecoded, rfl⟩ := mapError_eq_error_iff.mp failed
          dsimp only
          rw [((walk_visits sections).sound visited).offset_eq]
          exact .entries rfl found undecoded

theorem Lost.losesUnit (lost : Lost sections visit failure) : failure.losesUnit = true := by
  cases lost with
  | header failed => rfl
  | table announced failed => rfl
  | entries announced found failed => rfl

theorem filter_failuresAt (visited : visit ∈ visits sections) :
    (failuresAt sections visit).filter DecodeFailure.losesUnit =
      (DecodeFailure.of? (unitAt sections visit)).toList := by
  unfold failuresAt
  cases decoded : unitAt sections visit with
  | error failure => exact List.filter_cons_of_pos (lost_of_unitAt visited decoded).losesUnit
  | ok unit =>
      refine List.filter_eq_nil_iff.mpr fun failure listed => ?_
      rw [attachFailures_lose_nothing listed]
      exact Bool.false_ne_true

theorem Made.filter_failures {image : Image} (made : Made sections image) :
    (image.failures.filter DecodeFailure.losesUnit).Perm
      ((visits sections).filterMap fun visit => DecodeFailure.of? (unitAt sections visit)) := by
  have frames : (image.frames.flatMap frameFailures).filter DecodeFailure.losesUnit = [] := by
    refine List.filter_eq_nil_iff.mpr fun failure listed => ?_
    obtain ⟨table, _, listed⟩ := List.mem_flatMap.mp listed
    rw [frameFailures_lose_nothing listed]
    exact Bool.false_ne_true
  refine (made.failures.filter _).trans (.of_eq ?_)
  rw [List.filter_append, frames, List.append_nil, List.filter_flatMap,
    List.filterMap_eq_flatMap_toList]
  exact List.flatMap_congr fun visit visited => filter_failuresAt visited

/-- Where no unit is lost, the units fill the section. -/
theorem Made.tiles {image : Image} (made : Made sections image)
    (complete : ∀ failure ∈ image.failures, failure.losesUnit = false) :
    Tiles 0 (image.units.map fun unit => unit.unit.header) (sections.data .info).length := by
  have announced (visit : Visit) (visited : visit ∈ visits sections) :
      ((unitAt sections visit).toOption.map fun unit => (unit.header.offset, .ok unit.header)) =
        some visit := by
    cases decoded : unitAt sections visit with
    | ok unit => exact congrArg some (visit_eq_of_unitAt visited decoded).symm
    | error failure =>
        have reported : failure ∈ image.failures.filter DecodeFailure.losesUnit :=
          made.filter_failures.mem_iff.mpr
            (List.mem_filterMap.mpr ⟨visit, visited, by rw [decoded]; rfl⟩)
        obtain ⟨listed, loses⟩ := List.mem_filter.mp reported
        cases (complete failure listed).symm.trans loses
  have headers : (image.units.map fun unit => unit.unit.header).map
      (fun header => ((header.offset, .ok header) : Visit)) = visits sections := by
    have units := congrArg
      (List.map fun unit : CompilationUnit => ((unit.header.offset, .ok unit.header) : Visit))
      made.units_unit
    rw [List.map_filterMap, List.filterMap_congr announced, List.filterMap_some, List.map_map] at units
    rw [List.map_map]
    exact units
  have walk := walk_visits sections
  rw [← headers] at walk
  exact walk.tiles (Nat.zero_le _)

/-- What an image and its failures have to say about the visits. -/
structure Accounts (sections : Sections) (image : Image) : Prop where
  /-- The units are those of the visits, in their order. -/
  units : image.units.map ImageUnit.unit =
    (visits sections).filterMap fun visit => (unitAt sections visit).toOption
  /-- There is a unit where a header is announced and its table and its entries can be decoded. -/
  decoded : ∀ visit unit, unitAt sections visit = .ok unit ↔ ∃ table,
    visit.2 = .ok unit.header ∧
      tableAt (sections.data .abbreviations) unit.header.abbrevOffset = .ok table ∧
        CompilationUnit.decode (sections.data .info) unit.header table sections.order = .ok unit
  /-- Everywhere else there is a failure that says where the unit has been lost. -/
  lost : ∀ visit ∈ visits sections, ∀ failure, unitAt sections visit = .error failure →
    Lost sections visit failure
  /-- These failures are reported once each, and no others of their kind. -/
  failures : (image.failures.filter DecodeFailure.losesUnit).Perm
    ((visits sections).filterMap fun visit => DecodeFailure.of? (unitAt sections visit))
  tiles : (∀ failure ∈ image.failures, failure.losesUnit = false) →
    Tiles 0 (image.units.map fun unit => unit.unit.header) (sections.data .info).length

/-- Loading fails where a section is missing only, and otherwise it accounts for every unit. -/
theorem load_accounts (sections : Sections) (settings : Settings) :
    match load sections settings with
    | .error error =>
      sections.get? .info = none ∧ error = .missingSection .info ∨
        (sections.get? .info).isSome ∧ sections.get? .abbreviations = none ∧
          error = .missingSection .abbreviations
    | .ok image => Accounts sections image := by
  have loads := loads sections settings
  generalize load sections settings = result at loads ⊢
  cases loads with
  | info missing => exact .inl ⟨missing, rfl⟩
  | abbreviations found missing => exact .inr ⟨found, missing, rfl⟩
  | image _ _ made => exact {
      units := made.units_unit
      decoded := fun _ _ => unitAt_eq_ok_iff
      lost := fun _ visited _ failed => lost_of_unitAt visited failed
      failures := made.filter_failures
      tiles := made.tiles }

/-- The second of two units names a table outside of its section. -/
example :
    (load ⟨.little, [(.abbreviations, ⟨[1, 0x24, 0, 0, 0, 0], 0⟩),
      (.info, ⟨[8, 0, 0, 0, 4, 0, 0, 0, 0, 0, 8, 1, 8, 0, 0, 0, 4, 0, 77, 0, 0, 0, 8, 1], 0⟩)]⟩ {}).map
        (fun image => (image.units.map fun unit => unit.unit.offset, image.failures)) =
      .ok ([0], [⟨.abbreviations, 77, .malformedAbbreviation 77 .offsetOutside⟩]) := by
  decide +kernel

end Image

end Dwarf
