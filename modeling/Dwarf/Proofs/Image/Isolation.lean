import Mathlib.Data.List.Pairwise
import Dwarf.Proofs.Image.Index
import Dwarf.Proofs.Lookup

/-!
# Damage to one unit

Other bytes in place of the entries of one unit leave the walk over the headers, the tables and every
other unit as they are.  Two sets of sections that differ only there are compared visit by visit; the
images made of them then agree on all other units and on what is reported of them.
-/

namespace Dwarf

open UnitHeader (Visit)

/-- The information section with other bytes for the entries of a unit. -/
def UnitHeader.overwrite (header : UnitHeader) (info area : List UInt8) : List UInt8 :=
  info.take header.entriesOffset ++ area ++ info.drop header.stop

theorem UnitHeader.agree_overwrite {header : UnitHeader} {info area : List UInt8}
    (start : header.entriesOffset ≤ header.stop) (inside : header.stop ≤ info.length)
    (size : area.length = header.stop - header.entriesOffset) :
    AgreeOutside header.entriesOffset header.stop info (header.overwrite info area) := by
  have first : (info.take header.entriesOffset).length = header.entriesOffset :=
    List.length_take_of_le (by omega)
  have both : (info.take header.entriesOffset ++ area).length = header.stop := by
    rw [List.length_append, first, size]
    omega
  constructor
  · rw [overwrite, List.length_append, both, List.length_drop]
    omega
  · rw [overwrite, List.append_assoc]
    exact List.take_left' first
  · exact List.drop_left' both

namespace Sections

theorem get?_put (sections : Sections) (id other : SectionId) (value : Section) :
    (sections.put id value).get? other = if other = id then some value else sections.get? other := by
  change List.lookup other ((id, value) :: _) = _
  rw [lookup_cons_if]
  split
  next => rfl
  next different => rw [lookup_filter_ne, if_neg different, get?]

/-- The sections with other bytes for the entries of a unit. -/
def damage (sections : Sections) (header : UnitHeader) (area : List UInt8) : Sections :=
  match sections.get? .info with
  | some found => sections.put .info { found with bytes := header.overwrite found.bytes area }
  | none => sections

/-- Two sets of sections that differ at most in the entries of a unit. -/
structure DamagedIn (header : UnitHeader) (sections other : Sections) : Prop where
  order_eq : other.order = sections.order
  registered : ∀ id, (other.get? id).isSome = (sections.get? id).isSome
  data_eq : ∀ id, id ≠ .info → other.data id = sections.data id
  info : AgreeOutside header.entriesOffset header.stop (sections.data .info) (other.data .info)

theorem damagedIn_damage {sections : Sections} {header : UnitHeader} {area : List UInt8}
    (found : (sections.get? .info).isSome) (start : header.entriesOffset ≤ header.stop)
    (inside : header.stop ≤ (sections.data .info).length)
    (size : area.length = header.stop - header.entriesOffset) :
    DamagedIn header sections (sections.damage header area) := by
  obtain ⟨info, found⟩ := Option.isSome_iff_exists.mp found
  have bytes : sections.data .info = info.bytes := by
    rw [data, found]
    rfl
  have damaged : sections.damage header area =
      sections.put .info { info with bytes := header.overwrite info.bytes area } := by
    rw [damage, found]
  rw [damaged]
  constructor
  · rfl
  · intro id
    by_cases same : id = .info
    · rw [get?_put, if_pos same, same, found]
      rfl
    · rw [get?_put, if_neg same]
  · intro id different
    rw [data, get?_put, if_neg different]
    rfl
  · rw [bytes, data, get?_put, if_pos rfl]
    exact header.agree_overwrite start (bytes ▸ inside) size

end Sections

namespace Image

variable {header : UnitHeader} {sections other : Sections} {visit : Visit}

theorem visit_unique {later : Visit} (visited : visit ∈ visits sections)
    (also : later ∈ visits sections) (same : visit.1 = later.1) : visit = later := by
  have walk := walk_visits sections
  refine Prod.ext same ?_
  rw [(walk.mem visited).2.2, (walk.mem also).2.2, same]

theorem precedes_or {later : Visit} (visited : visit ∈ visits sections)
    (also : later ∈ visits sections) (apart : visit.1 ≠ later.1) :
    UnitHeader.Walk.Precedes visit later ∨ UnitHeader.Walk.Precedes later visit := by
  have either : (visits sections).Pairwise fun visit later =>
      UnitHeader.Walk.Precedes visit later ∨ UnitHeader.Walk.Precedes later visit :=
    (walk_visits sections).pairwise.imp .inl
  have symmetric : Std.Symm fun visit later : Visit =>
      UnitHeader.Walk.Precedes visit later ∨ UnitHeader.Walk.Precedes later visit :=
    ⟨fun _ _ => Or.symm⟩
  exact either.forall visited also fun same => apart (congrArg Prod.fst same)

/-! ## Visits to sections that differ in one unit -/

section Damage

variable (damaged : Sections.DamagedIn header sections other)
  (announced : (header.offset, .ok header) ∈ visits sections)
include damaged

theorem jobAt_eq (visit : Visit) :
    jobAt (other.data .abbreviations) visit = jobAt (sections.data .abbreviations) visit := by
  rw [damaged.data_eq .abbreviations (by decide)]

theorem compDir?_eq (unit : CompilationUnit) : unit.compDir? other = unit.compDir? sections := by
  have strings : AttributeValue.string? other = AttributeValue.string? sections := by
    funext value
    cases value with
    | stringOffset offset =>
        change other.stringAt? offset = sections.stringAt? offset
        rw [Sections.stringAt?, Sections.stringAt?, damaged.data_eq .str (by decide)]
    | _ => rfl
  rw [CompilationUnit.compDir?, strings]
  rfl

theorem decodeLines_eq (unit : CompilationUnit) :
    ImageUnit.decodeLines other unit = ImageUnit.decodeLines sections unit := by
  unfold ImageUnit.decodeLines
  rw [compDir?_eq damaged, damaged.data_eq .line (by decide)]

theorem decodeRanges_eq (unit : CompilationUnit) :
    ImageUnit.decodeRanges other unit = ImageUnit.decodeRanges sections unit := by
  unfold ImageUnit.decodeRanges
  rw [damaged.data_eq .ranges (by decide)]

theorem attach_eq : attach other = attach sections := by
  funext unit
  rw [attach, attach, decodeLines_eq damaged, decodeRanges_eq damaged]

theorem attachFailures_eq : attachFailures other = attachFailures sections := by
  funext unit
  rw [attachFailures, attachFailures, decodeLines_eq damaged, decodeRanges_eq damaged]

include announced

theorem visits_eq : visits other = visits sections := by
  have walk := (walk_visits sections).transfer damaged.info (.inl announced)
  unfold visits
  rw [damaged.order_eq]
  exact walk.eq_scanFrom.symm

/-- The entries of another unit are stored where nothing has changed. -/
theorem decodeEntries_eq {job : Job} (visited : (job.1.offset, .ok job.1) ∈ visits sections)
    (apart : job.1.offset ≠ header.offset) :
    decodeEntries other job = decodeEntries sections job := by
  have sound := (walk_visits sections).sound visited
  have here := (walk_visits sections).sound announced
  have same : ((other.data .info).drop job.1.entriesOffset).take
        (job.1.stop - job.1.entriesOffset) =
      ((sections.data .info).drop job.1.entriesOffset).take (job.1.stop - job.1.entriesOffset) := by
    have := sound.offset_lt
    have := sound.entriesOffset_le
    have := here.offset_lt
    rcases precedes_or visited announced apart with before | behind
    · have := before.2 _ rfl
      exact damaged.info.take_drop (by omega)
    · have := behind.2 _ rfl
      rw [damaged.info.drop_of_le (by omega)]
  unfold decodeEntries CompilationUnit.decode
  rw [same, damaged.order_eq]

theorem unitAt_eq (visited : visit ∈ visits sections) (apart : visit.1 ≠ header.offset) :
    unitAt other visit = unitAt sections visit := by
  unfold unitAt
  rw [jobAt_eq damaged]
  cases found : jobAt (sections.data .abbreviations) visit with
  | error failure => rfl
  | ok job =>
      rcases visit with ⟨offset, result⟩
      obtain ⟨rfl, _⟩ := jobAt_eq_ok_iff.mp found
      have start := ((walk_visits sections).sound visited).offset_eq
      exact decodeEntries_eq damaged announced (start ▸ visited) (start ▸ apart)

theorem failuresAt_eq (visited : visit ∈ visits sections) (apart : visit.1 ≠ header.offset) :
    failuresAt other visit = failuresAt sections visit := by
  unfold failuresAt
  rw [unitAt_eq damaged announced visited apart, attachFailures_eq damaged]

end Damage

/-- The failures of all visits but the one to a header. -/
def failuresBeside (sections : Sections) (header : UnitHeader) : List DecodeFailure :=
  ((visits sections).filter fun visit => visit.1 != header.offset).flatMap (failuresAt sections)

theorem failures_split (announced : (header.offset, .ok header) ∈ visits sections) :
    ((visits sections).flatMap (failuresAt sections)).Perm
      (failuresAt sections (header.offset, .ok header) ++ failuresBeside sections header) := by
  obtain ⟨before, after, split⟩ := List.append_of_mem announced
  have pairwise := (walk_visits sections).pairwise
  rw [split, List.pairwise_append, List.pairwise_cons] at pairwise
  obtain ⟨_, ⟨behind, _⟩, ahead⟩ := pairwise
  have kept_before : before.filter (fun visit => visit.1 != header.offset) = before := by
    refine List.filter_eq_self.mpr fun visit visited => bne_iff_ne.mpr (Nat.ne_of_lt ?_)
    exact (ahead visit visited _ (List.mem_cons_self ..)).1
  have kept_after : after.filter (fun visit => visit.1 != header.offset) = after := by
    refine List.filter_eq_self.mpr fun visit visited => bne_iff_ne.mpr (Nat.ne_of_gt ?_)
    exact (behind visit visited).1
  rw [failuresBeside, split, List.filter_append, List.filter_cons_of_neg (by simp), kept_before,
    kept_after, List.flatMap_append, List.flatMap_append, List.flatMap_cons]
  exact List.perm_append_comm_assoc ..

theorem unit_of_header (sections : Sections) :
    ((unitAt sections (header.offset, .ok header)).toOption.filter fun unit =>
      unit.header ≠ header) = none := by
  rw [Option.filter_eq_none_iff]
  intro unit decoded other
  obtain ⟨_, announced, _⟩ := unitAt_eq_ok_iff.mp (toOption_eq_some_iff.mp decoded)
  exact of_decide_eq_true other (Except.ok.inj announced).symm

/-- Of two images, the second agrees with the first on all units but that of a header, and on what is
reported of them. -/
structure KeepsOthers (header : UnitHeader) (sections other : Sections) (image damaged : Image) :
    Prop where
  visits_eq : visits other = visits sections
  /-- The other units are the same, in the same order. -/
  units : (damaged.units.filter fun unit => unit.unit.header ≠ header) =
    image.units.filter fun unit => unit.unit.header ≠ header
  /-- What is reported of them is the same; the rest is reported of the unit itself or of call frame
  tables. -/
  failures : image.failures.Perm
    (failuresAt sections (header.offset, .ok header) ++ failuresBeside sections header ++
      image.frames.flatMap frameFailures)
  damaged_failures : damaged.failures.Perm
    (failuresAt other (header.offset, .ok header) ++ failuresBeside sections header ++
      damaged.frames.flatMap frameFailures)

theorem keepsOthers_of_damagedIn {image damaged : Image}
    (differ : Sections.DamagedIn header sections other)
    (announced : (header.offset, .ok header) ∈ visits sections) (made : Made sections image)
    (remade : Made other damaged) : KeepsOthers header sections other image damaged where
  visits_eq := visits_eq differ announced
  units := by
    rw [remade.units, made.units, visits_eq differ announced, attach_eq differ, List.filter_map,
      List.filter_map, List.filter_filterMap, List.filter_filterMap]
    congr 1
    refine List.filterMap_congr fun visit visited => ?_
    by_cases same : visit.1 = header.offset
    · obtain rfl := visit_unique visited announced same
      exact (unit_of_header other).trans (unit_of_header sections).symm
    · rw [unitAt_eq differ announced visited same]
  failures := made.failures.trans ((failures_split announced).append_right _)
  damaged_failures := by
    have same := visits_eq differ announced
    have beside : failuresBeside other header = failuresBeside sections header := by
      rw [failuresBeside, failuresBeside, same]
      refine List.flatMap_congr fun visit kept => ?_
      obtain ⟨visited, apart⟩ := List.mem_filter.mp kept
      exact failuresAt_eq differ announced visited (bne_iff_ne.mp apart)
    rw [← beside]
    exact remade.failures.trans ((failures_split (same ▸ announced)).append_right _)

theorem damagedIn_of_load {settings : Settings} {image : Image} {area : List UInt8}
    (loaded : load sections settings = .ok image)
    (announced : (header.offset, .ok header) ∈ visits sections)
    (size : area.length = header.stop - header.entriesOffset) :
    Sections.DamagedIn header sections (sections.damage header area) := by
  have source := loads sections settings
  rw [loaded] at source
  cases source with
  | image info _ _ =>
      have sound := (walk_visits sections).sound announced
      exact Sections.damagedIn_damage info sound.entriesOffset_le sound.stop_le size

/-- What can be loaded can be loaded with damage to a unit, and the damage stays in that unit. -/
theorem load_damagedIn {settings : Settings} {image : Image}
    (differ : Sections.DamagedIn header sections other)
    (loaded : load sections settings = .ok image)
    (announced : (header.offset, .ok header) ∈ visits sections) :
    ∃ damaged, load other settings = .ok damaged ∧
      KeepsOthers header sections other image damaged := by
  have source := loads sections settings
  rw [loaded] at source
  cases source with
  | image info abbreviations made =>
      have target := loads other settings
      generalize load other settings = result at target ⊢
      cases target with
      | info missing =>
          rw [← differ.registered, missing] at info
          cases info
      | abbreviations _ missing =>
          rw [← differ.registered, missing] at abbreviations
          cases abbreviations
      | image _ _ remade =>
          exact ⟨_, rfl, keepsOthers_of_damagedIn differ announced made remade⟩

/-- Damage to the entries of one unit does not affect the other units. -/
theorem damage_keeps_others {settings : Settings} {image : Image} {area : List UInt8}
    (loaded : load sections settings = .ok image)
    (announced : (header.offset, .ok header) ∈ visits sections)
    (size : area.length = header.stop - header.entriesOffset) :
    ∃ damaged, load (sections.damage header area) settings = .ok damaged ∧
      KeepsOthers header sections (sections.damage header area) image damaged :=
  load_damagedIn (damagedIn_of_load loaded announced size) loaded announced

/-- Bytes that are no entries, in place of those of the first of two units. -/
theorem twoFormats_damaged :
    ∃ image damaged, load twoFormats {} = .ok image ∧
      load (twoFormats.damage ⟨0, 15, 4, 0, 8, 4, 11⟩ [9, 9, 9, 9, 9, 9, 9, 9]) {} = .ok damaged ∧
        image.units.length = 2 ∧ damaged.units.length = 1 ∧
          KeepsOthers ⟨0, 15, 4, 0, 8, 4, 11⟩ twoFormats
            (twoFormats.damage ⟨0, 15, 4, 0, 8, 4, 11⟩ [9, 9, 9, 9, 9, 9, 9, 9]) image damaged := by
  have facts : (load twoFormats {}).map (fun image => image.units.length) = .ok 2 := by
    decide +kernel
  have damaged_facts : (load (twoFormats.damage ⟨0, 15, 4, 0, 8, 4, 11⟩ [9, 9, 9, 9, 9, 9, 9, 9])
      {}).map (fun image => image.units.length) = .ok 1 := by
    decide +kernel
  have announced : (0, .ok ⟨0, 15, 4, 0, 8, 4, 11⟩) ∈ visits twoFormats := by
    decide +kernel
  cases loaded : load twoFormats {} with
  | error error =>
      rw [loaded] at facts
      cases facts
  | ok image =>
      rw [loaded] at facts
      obtain ⟨damaged, reloaded, kept⟩ :=
        @damage_keeps_others ⟨0, 15, 4, 0, 8, 4, 11⟩ _ _ _ [9, 9, 9, 9, 9, 9, 9, 9] loaded
          announced rfl
      rw [reloaded] at damaged_facts
      exact ⟨image, damaged, rfl, reloaded, Except.ok.inj facts, Except.ok.inj damaged_facts, kept⟩

end Image

end Dwarf
