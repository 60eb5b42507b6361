import Dwarf.Image
import Dwarf.Proofs.Lookup
import Dwarf.Proofs.Unit.Links
import Dwarf.Proofs.Unit.Scan

/-!
# What an image is made of

The cache of abbreviation tables answers what decoding answers, so each visit of the information
section contributes to the image on its own: a unit with failures of its own, or one failure.
-/

namespace Dwarf

/-! ## The cache -/

namespace AbbreviationTable

/-- The table at an offset, without the number of its bytes. -/
def tableAt (data : List UInt8) (offset : Nat) : Except Error AbbreviationTable :=
  (decode data offset).map Prod.fst

end AbbreviationTable

open AbbreviationTable

namespace AbbreviationCache

/-- Every answer is the one that decoding gives. -/
def Faithful (cache : AbbreviationCache) (data : List UInt8) : Prop :=
  ∀ ⦃offset answer⦄, cache.answers.lookup offset = some answer → answer = tableAt data offset

theorem faithful_empty (data : List UInt8) : ({} : AbbreviationCache).Faithful data :=
  fun _ _ found => nomatch found

theorem Faithful.get {cache : AbbreviationCache} {data : List UInt8} (faithful : cache.Faithful data)
    (offset : Nat) :
    (cache.get data offset).1 = tableAt data offset ∧ (cache.get data offset).2.Faithful data := by
  unfold AbbreviationCache.get
  split
  next answer found => exact ⟨faithful found, faithful⟩
  next =>
    refine ⟨rfl, fun other answer found => ?_⟩
    rw [lookup_cons_if] at found
    split at found
    next same =>
      cases found
      rw [same]
      rfl
    next => exact faithful found

end AbbreviationCache

/-! ## The visits of the information section -/

namespace Image

open UnitHeader (Visit)

/-- The header at a visit and its table, decoded without a cache. -/
def jobAt (abbreviations : List UInt8) (visit : Visit) : Except DecodeFailure Job :=
  match visit.2 with
  | .error error => .error ⟨.info, visit.1, error⟩
  | .ok header =>
    match tableAt abbreviations header.abbrevOffset with
    | .error error => .error ⟨.abbreviations, header.abbrevOffset, error⟩
    | .ok table => .ok (header, table)

theorem job_run {abbreviations : List UInt8} {cache : AbbreviationCache}
    (faithful : cache.Faithful abbreviations) (visit : Visit) :
    ((job abbreviations visit).run cache).1 = jobAt abbreviations visit ∧
      ((job abbreviations visit).run cache).2.Faithful abbreviations := by
  rcases visit with ⟨offset, result⟩
  cases result with
  | error error => exact ⟨rfl, faithful⟩
  | ok header =>
      obtain ⟨same, kept⟩ := faithful.get header.abbrevOffset
      have run : (job abbreviations (offset, .ok header)).run cache =
          (match (cache.get abbreviations header.abbrevOffset).1 with
            | .error error => pure (.error ⟨.abbreviations, header.abbrevOffset, error⟩)
            | .ok table => pure (.ok (header, table)) :
            StateM AbbreviationCache (Except DecodeFailure Job)).run
              (cache.get abbreviations header.abbrevOffset).2 := rfl
      rw [run, same]
      unfold jobAt
      dsimp only
      cases tableAt abbreviations header.abbrevOffset with
      | error error => exact ⟨rfl, kept⟩
      | ok table => exact ⟨rfl, kept⟩

theorem mapM_job {abbreviations : List UInt8} (visits : List Visit) {cache : AbbreviationCache}
    (faithful : cache.Faithful abbreviations) :
    ((visits.mapM (job abbreviations)).run cache).1 = visits.map (jobAt abbreviations) := by
  induction visits generalizing cache with
  | nil => rfl
  | cons visit visits ih =>
      obtain ⟨first, kept⟩ := job_run faithful visit
      rw [List.mapM_cons, List.map_cons, ← first, ← ih kept]
      rfl

theorem jobs_eq (info abbreviations : List UInt8) (order : ByteOrder) :
    jobs info abbreviations order = (UnitHeader.scan info order).map (jobAt abbreviations) :=
  mapM_job _ (AbbreviationCache.faithful_empty abbreviations)

theorem jobAt_eq_ok_iff {abbreviations : List UInt8} {visit : Visit} {header : UnitHeader}
    {table : AbbreviationTable} :
    jobAt abbreviations visit = .ok (header, table) ↔
      visit.2 = .ok header ∧ tableAt abbreviations header.abbrevOffset = .ok table := by
  unfold jobAt
  cases visit.2 with
  | error error => simp
  | ok found =>
      dsimp only
      constructor
      · intro job
        split at job
        next => cases job
        next also =>
          cases job
          exact ⟨rfl, also⟩
      · rintro ⟨same, also⟩
        cases same
        rw [also]

/-! ## Contributions -/

/-- A unit with its line table and its addresses, as far as these can be decoded. -/
def attach (sections : Sections) (unit : CompilationUnit) : ImageUnit :=
  ⟨unit, (ImageUnit.decodeLines sections unit).toOption.join,
    (ImageUnit.decodeRanges sections unit).toOption.getD []⟩

/-- The failures of a unit whose entries can be decoded. -/
def attachFailures (sections : Sections) (unit : CompilationUnit) : List DecodeFailure :=
  (DecodeFailure.of? (ImageUnit.decodeLines sections unit)).toList ++
    (DecodeFailure.of? (ImageUnit.decodeRanges sections unit)).toList

/-- The entries of a unit, or the failure to decode them. -/
def decodeEntries (sections : Sections) (job : Job) : Except DecodeFailure CompilationUnit :=
  (CompilationUnit.decode (sections.data .info) job.1 job.2 sections.order).mapError
    fun error => ⟨.info, job.1.offset, error⟩

theorem decode_eq (sections : Sections) (job : Job) :
    ImageUnit.decode sections job.1 job.2 =
      (decodeEntries sections job).map fun unit =>
        (attach sections unit, attachFailures sections unit) := by
  unfold ImageUnit.decode decodeEntries
  cases CompilationUnit.decode (sections.data .info) job.1 job.2 sections.order with
  | error error => rfl
  | ok unit => rfl

/-- The unit at a visit, or the failure to decode its header, its table or its entries. -/
def unitAt (sections : Sections) (visit : Visit) : Except DecodeFailure CompilationUnit :=
  jobAt (sections.data .abbreviations) visit >>= decodeEntries sections

/-- The failures of a visit. -/
def failuresAt (sections : Sections) (visit : Visit) : List DecodeFailure :=
  match unitAt sections visit with
  | .ok unit => attachFailures sections unit
  | .error failure => [failure]

/-- The visits to the information section. -/
abbrev visits (sections : Sections) : List Visit :=
  UnitHeader.scan (sections.data .info) sections.order

theorem walk_visits (sections : Sections) :
    UnitHeader.Walk (sections.data .info) sections.order 0 (visits sections) :=
  UnitHeader.walk_scanFrom ..

theorem unitAt_eq_ok_iff {sections : Sections} {visit : Visit} {unit : CompilationUnit} :
    unitAt sections visit = .ok unit ↔ ∃ table, visit.2 = .ok unit.header ∧
      tableAt (sections.data .abbreviations) unit.header.abbrevOffset = .ok table ∧
        CompilationUnit.decode (sections.data .info) unit.header table sections.order = .ok unit := by
  have entries (job : Job) : decodeEntries sections job = .ok unit ↔
      CompilationUnit.decode (sections.data .info) job.1 job.2 sections.order = .ok unit := by
    unfold decodeEntries
    cases CompilationUnit.decode (sections.data .info) job.1 job.2 sections.order with
    | error error => simp [mapError_error]
    | ok found => simp [mapError_ok]
  rw [unitAt, bind_eq_ok_iff]
  constructor
  · rintro ⟨⟨header, table⟩, job, decoded⟩
    have decoded := (entries _).mp decoded
    cases (CompilationUnit.decode_arranged decoded).1
    obtain ⟨announced, found⟩ := jobAt_eq_ok_iff.mp job
    exact ⟨table, announced, found, decoded⟩
  · rintro ⟨table, announced, found, decoded⟩
    exact ⟨(unit.header, table), jobAt_eq_ok_iff.mpr ⟨announced, found⟩, (entries _).mpr decoded⟩

theorem visit_eq_of_unitAt {sections : Sections} {visit : Visit} (visited : visit ∈ visits sections)
    {unit : CompilationUnit} (decoded : unitAt sections visit = .ok unit) :
    visit = (unit.header.offset, .ok unit.header) := by
  obtain ⟨_, announced, _⟩ := unitAt_eq_ok_iff.mp decoded
  rcases visit with ⟨offset, result⟩
  cases announced
  rw [((walk_visits sections).sound visited).offset_eq]

theorem toOption_bind {ε α β : Type} (jobs : List (Except ε α)) (decode : α → Except ε β) :
    ((jobs.filterMap Except.toOption).map decode).filterMap Except.toOption =
      jobs.filterMap fun job => (job >>= decode).toOption := by
  induction jobs with
  | nil => rfl
  | cons job jobs ih =>
      cases job with
      | error error => exact ih
      | ok value =>
          change (decode value :: _).filterMap _ = _
          rw [List.filterMap_cons, List.filterMap_cons, ih]
          rfl

/-- Failures to find a table come before failures to decode, and together they are the failures of
the jobs one by one. -/
theorem failures_perm {α : Type} (jobs : List (Except DecodeFailure α))
    (decode : α → Except DecodeFailure (ImageUnit × List DecodeFailure)) :
    (jobs.filterMap DecodeFailure.of? ++
        ((jobs.filterMap Except.toOption).map decode).flatMap failuresOf).Perm
      (jobs.flatMap fun job => failuresOf (job >>= decode)) := by
  induction jobs with
  | nil => exact .refl _
  | cons job jobs ih =>
      cases job with
      | error failure => exact ih.cons failure
      | ok value =>
          change (jobs.filterMap _ ++ (failuresOf (decode value) ++ _)).Perm
            (failuresOf (decode value) ++ _)
          exact (List.perm_append_comm_assoc ..).trans (ih.append_left _)

section

variable (sections : Sections) (visit : Visit)

/-- What becomes of a visit when an image is loaded. -/
def loadAt : Except DecodeFailure (ImageUnit × List DecodeFailure) :=
  jobAt (sections.data .abbreviations) visit >>= fun job => ImageUnit.decode sections job.1 job.2

theorem loadAt_eq :
    loadAt sections visit =
      (unitAt sections visit).map fun unit =>
        (attach sections unit, attachFailures sections unit) := by
  unfold loadAt unitAt
  cases jobAt (sections.data .abbreviations) visit with
  | error failure => rfl
  | ok job => exact decode_eq sections job

theorem toOption_loadAt :
    (loadAt sections visit).toOption.map Prod.fst =
      (unitAt sections visit).toOption.map (attach sections) := by
  rw [loadAt_eq]
  cases unitAt sections visit with
  | error failure => rfl
  | ok unit => rfl

theorem failuresOf_loadAt :
    failuresOf (loadAt sections visit) = failuresAt sections visit := by
  rw [loadAt_eq, failuresAt]
  cases unitAt sections visit with
  | error failure => rfl
  | ok unit => rfl

end

/-- What an image is made of: the units and the failures of the visits, and the failures of the call
frame tables. -/
structure Made (sections : Sections) (image : Image) : Prop where
  units : image.units =
    ((visits sections).filterMap fun visit => (unitAt sections visit).toOption).map (attach sections)
  failures : image.failures.Perm
    ((visits sections).flatMap (failuresAt sections) ++ image.frames.flatMap frameFailures)

theorem Made.units_unit {sections : Sections} {image : Image} (made : Made sections image) :
    image.units.map ImageUnit.unit =
      (visits sections).filterMap fun visit => (unitAt sections visit).toOption := by
  rw [made.units, List.map_map]
  exact List.map_id _

theorem Made.exists_visit {sections : Sections} {image : Image} (made : Made sections image)
    {unit : CompilationUnit} (member : unit ∈ image.units.map ImageUnit.unit) :
    ∃ visit ∈ visits sections, unitAt sections visit = .ok unit := by
  rw [made.units_unit] at member
  obtain ⟨visit, visited, decoded⟩ := List.mem_filterMap.mp member
  exact ⟨visit, visited, toOption_eq_some_iff.mp decoded⟩

/-- Loading fails where one of two sections is missing, and otherwise it makes an image. -/
inductive Loads (sections : Sections) : Except Error Image → Prop where
  | info (missing : sections.get? .info = none) : Loads sections (.error (.missingSection .info))
  | abbreviations (found : (sections.get? .info).isSome)
      (missing : sections.get? .abbreviations = none) :
      Loads sections (.error (.missingSection .abbreviations))
  | image {image : Image} (info : (sections.get? .info).isSome)
      (abbreviations : (sections.get? .abbreviations).isSome) (made : Made sections image) :
      Loads sections (.ok image)

theorem require_of_get? {sections : Sections} {id : SectionId} {value : Section}
    (found : sections.get? id = some value) : sections.require id = .ok (sections.data id) := by
  unfold Sections.require Sections.data
  rw [found]
  rfl

theorem require_of_missing {sections : Sections} {id : SectionId}
    (missing : sections.get? id = none) : sections.require id = .error (.missingSection id) := by
  unfold Sections.require
  rw [missing]

theorem loads (sections : Sections) (settings : Settings) :
    Loads sections (load sections settings) := by
  unfold load
  cases info : sections.get? .info with
  | none =>
      rw [require_of_missing info]
      exact .info info
  | some found =>
      rw [require_of_get? info]
      cases abbreviations : sections.get? .abbreviations with
      | none =>
          rw [require_of_missing abbreviations]
          exact .abbreviations (by rw [info]; rfl) abbreviations
      | some also =>
          rw [require_of_get? abbreviations]
          refine .image (by rw [info]; rfl) (by rw [abbreviations]; rfl) ⟨?_, ?_⟩
          · dsimp only
            rw [toOption_bind, jobs_eq, List.filterMap_map, List.map_filterMap, List.map_filterMap]
            exact congrArg (List.filterMap · _) (funext (toOption_loadAt sections))
          · dsimp only
            rw [jobs_eq]
            refine ((failures_perm _ _).trans ?_).append_right _
            rw [List.flatMap_map]
            exact .of_eq (congrArg (List.flatMap · _) (funext (failuresOf_loadAt sections)))

theorem made_of_load {sections : Sections} {settings : Settings} {image : Image}
    (loaded : load sections settings = .ok image) : Made sections image := by
  have loads := loads sections settings
  rw [loaded] at loads
  cases loads with
  | image _ _ made => exact made

end Image

end Dwarf
