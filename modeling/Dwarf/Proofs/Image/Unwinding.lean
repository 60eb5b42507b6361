import Dwarf.Image.Frame
import Dwarf.Proofs.Image.Accounting
import Dwarf.Proofs.Image.Isolation

/-!
# Damage and call frames

Of the units of an image the call frame tables see one number, the address size of the first of them.
Damage to the entries of a unit reaches the tables only where it decides whether that unit is the first
and the next one has another address size.
-/

namespace Dwarf

namespace Sections

variable {sections : Sections} {header : UnitHeader} {area : List UInt8}

theorem damage_order : (sections.damage header area).order = sections.order := by
  unfold damage
  split
  next => rfl
  next => rfl

theorem get?_damage {id : SectionId} (other : id ≠ .info) :
    (sections.damage header area).get? id = sections.get? id := by
  unfold damage
  split
  next => rw [get?_put, if_neg other]
  next => rfl

end Sections

namespace Image

variable {header : UnitHeader} {sections : Sections} {settings : Settings} {image : Image}
  {area : List UInt8}

theorem frames_of_load (loaded : load sections settings = .ok image) :
    image.frames = decodeFrames sections settings (addressSizeOf image.units) := by
  obtain ⟨info, _, loaded⟩ := bind_eq_ok_iff.mp loaded
  obtain ⟨abbreviations, _, loaded⟩ := bind_eq_ok_iff.mp loaded
  cases loaded
  rfl

theorem decodeFrames_damage (size : Nat) :
    decodeFrames (sections.damage header area) settings size =
      decodeFrames sections settings size := by
  unfold decodeFrames
  rw [Sections.damage_order]
  refine List.filterMap_congr fun kind _ => ?_
  have other : kind.section ≠ .info := by
    cases kind with
    | debug => decide
    | exception => decide
  rw [Sections.get?_damage other]

/-! ## The first unit -/

/-- Whether the unit of a header has been decoded. -/
def Holds (image : Image) (header : UnitHeader) : Prop :=
  ∃ unit ∈ image.units, unit.unit.header = header

/-- The units of an image but that of a header. -/
def unitsBeside (image : Image) (header : UnitHeader) : List ImageUnit :=
  image.units.filter fun unit => unit.unit.header ≠ header

/-- Whether the unit of a header is the first that has been decoded. -/
def Leads (image : Image) (header : UnitHeader) : Prop :=
  ∃ unit later, image.units = unit :: later ∧ unit.unit.header = header

theorem addressSizeOf_of_leads (leads : image.Leads header) :
    addressSizeOf image.units = header.addressSize := by
  obtain ⟨unit, later, units, rfl⟩ := leads
  rw [units]
  rfl

theorem addressSizeOf_of_not_leads (follows : ¬image.Leads header) :
    addressSizeOf image.units = addressSizeOf (image.unitsBeside header) := by
  unfold unitsBeside
  cases units : image.units with
  | nil => rfl
  | cons unit later =>
      have other : unit.unit.header ≠ header := fun same => follows ⟨unit, later, units, same⟩
      have kept : decide (unit.unit.header ≠ header) = true := decide_eq_true other
      rw [List.filter_cons, if_pos kept]
      rfl

theorem Made.ascending (made : Made sections image) :
    image.units.Pairwise fun unit later => unit.unit.header.offset < later.unit.header.offset := by
  refine List.pairwise_map (f := ImageUnit.unit)
    (R := fun unit later => unit.header.offset < later.header.offset).mp ?_
  rw [made.units_unit, List.pairwise_filterMap]
  refine (walk_visits sections).pairwise.imp_of_mem ?_
  intro visit later visited later_visited precedes unit decoded other other_decoded
  obtain rfl := visit_eq_of_unitAt visited (toOption_eq_some_iff.mp decoded)
  obtain rfl := visit_eq_of_unitAt later_visited (toOption_eq_some_iff.mp other_decoded)
  exact precedes.1

/-- The unit of a header is the first if there is such a unit and no other one lies before it. -/
theorem leads_iff (made : Made sections image) :
    image.Leads header ↔ image.Holds header ∧
      ∀ unit ∈ image.unitsBeside header, header.offset ≤ unit.unit.header.offset := by
  have ascending := made.ascending
  constructor
  · rintro ⟨unit, later, units, rfl⟩
    rw [units, List.pairwise_cons] at ascending
    refine ⟨⟨unit, units ▸ List.mem_cons_self, rfl⟩, fun other beside => ?_⟩
    obtain ⟨member, _⟩ := List.mem_filter.mp beside
    rw [units] at member
    rcases List.mem_cons.mp member with rfl | member
    · exact Nat.le_refl _
    · exact Nat.le_of_lt (ascending.1 other member)
  · rintro ⟨⟨unit, member, rfl⟩, behind⟩
    cases units : image.units with
    | nil =>
        rw [units] at member
        cases member
    | cons first later =>
        refine ⟨first, later, units, Decidable.byContradiction fun other => ?_⟩
        have beside : first ∈ image.unitsBeside unit.unit.header :=
          List.mem_filter.mpr ⟨units ▸ List.mem_cons_self, decide_eq_true other⟩
        rw [units] at member ascending
        rcases List.mem_cons.mp member with rfl | member
        · exact other rfl
        · exact Nat.not_lt.mpr (behind first beside)
            ((List.pairwise_cons.mp ascending).1 unit member)

/-! ## Two images that differ in one unit -/

/-- Why damage to a unit leaves the address size of call frame tables alone: another unit lies before
it, or it can be decoded in both images or in neither, or the other units come to the same size. -/
inductive Steady (header : UnitHeader) (image damaged : Image) : Prop where
  | follows (unit : ImageUnit) (member : unit ∈ image.units)
      (before : unit.unit.header.offset < header.offset)
  | alike (same : damaged.Holds header ↔ image.Holds header)
  | agreed (same : header.addressSize = addressSizeOf (image.unitsBeside header))

theorem addressSizeOf_eq_of_leads_iff {damaged : Image}
    (beside : damaged.unitsBeside header = image.unitsBeside header)
    (same : damaged.Leads header ↔ image.Leads header) :
    addressSizeOf damaged.units = addressSizeOf image.units := by
  by_cases leads : image.Leads header
  · rw [addressSizeOf_of_leads leads, addressSizeOf_of_leads (same.mpr leads)]
  · rw [addressSizeOf_of_not_leads leads, addressSizeOf_of_not_leads (mt same.mp leads), beside]

theorem addressSizeOf_of_agreed
    (same : header.addressSize = addressSizeOf (image.unitsBeside header)) :
    addressSizeOf image.units = header.addressSize := by
  by_cases leads : image.Leads header
  · exact addressSizeOf_of_leads leads
  · rw [addressSizeOf_of_not_leads leads, same]

/-- If the unit is first in one of the images only and that does not show, the other units come to its
address size. -/
theorem agreed_of_leads {damaged : Image}
    (beside : damaged.unitsBeside header = image.unitsBeside header)
    (leads : image.Leads header) (lost : ¬damaged.Leads header)
    (same : addressSizeOf damaged.units = addressSizeOf image.units) :
    header.addressSize = addressSizeOf (image.unitsBeside header) := by
  rw [← addressSizeOf_of_leads leads, ← same, addressSizeOf_of_not_leads lost, beside]

/-- There is no other reason: without one of them the unit is first in one of the images only, and the
address sizes differ. -/
theorem steady_iff {other : Sections} {damaged : Image} (made : Made sections image)
    (remade : Made other damaged)
    (beside : damaged.unitsBeside header = image.unitsBeside header) :
    Steady header image damaged ↔ addressSizeOf damaged.units = addressSizeOf image.units := by
  have first := @leads_iff header _ _ made
  have also := @leads_iff header _ _ remade
  rw [beside] at also
  constructor
  · intro steady
    cases steady with
    | follows unit member before =>
        have apart : unit.unit.header ≠ header := fun same =>
          Nat.lt_irrefl _ (same ▸ before)
        have behind : unit ∈ image.unitsBeside header :=
          List.mem_filter.mpr ⟨member, decide_eq_true apart⟩
        refine addressSizeOf_eq_of_leads_iff beside ⟨fun leads => ?_, fun leads => ?_⟩
        · exact absurd before (Nat.not_lt.mpr ((also.mp leads).2 unit behind))
        · exact absurd before (Nat.not_lt.mpr ((first.mp leads).2 unit behind))
    | alike same => exact addressSizeOf_eq_of_leads_iff beside (by rw [first, also, same])
    | agreed same =>
        rw [addressSizeOf_of_agreed same, addressSizeOf_of_agreed (beside.symm ▸ same)]
  · intro same
    by_cases behind : ∀ unit ∈ image.unitsBeside header, header.offset ≤ unit.unit.header.offset
    · by_cases holds : image.Holds header
      · by_cases found : damaged.Holds header
        · exact .alike (iff_of_true found holds)
        · have lost : ¬damaged.Leads header := fun leads => found (also.mp leads).1
          exact .agreed (agreed_of_leads beside (first.mpr ⟨holds, behind⟩) lost same)
      · by_cases found : damaged.Holds header
        · have missing : ¬image.Leads header := fun leads => holds (first.mp leads).1
          have agreed := agreed_of_leads beside.symm (also.mpr ⟨found, behind⟩) missing same.symm
          exact .agreed (beside ▸ agreed)
        · exact .alike (iff_of_false found holds)
    · obtain ⟨unit, before⟩ := Classical.not_forall.mp behind
      obtain ⟨beside, before⟩ := Classical.not_imp.mp before
      exact .follows unit (List.mem_filter.mp beside).1 (Nat.not_le.mp before)

/-- A unit that is announced has been decoded, or its failure is reported. -/
theorem Made.holds_or_lost (made : Made sections image)
    (announced : (header.offset, .ok header) ∈ visits sections) :
    image.Holds header ∨
      ∃ failure ∈ image.failures, Lost sections (header.offset, .ok header) failure := by
  cases decoded : unitAt sections (header.offset, .ok header) with
  | ok unit =>
      left
      obtain ⟨_, same, _⟩ := unitAt_eq_ok_iff.mp decoded
      refine ⟨attach sections unit, ?_, (Except.ok.inj same).symm⟩
      rw [made.units]
      exact List.mem_map_of_mem
        (List.mem_filterMap.mpr ⟨_, announced, toOption_eq_some_iff.mpr decoded⟩)
  | error failure =>
      right
      refine ⟨failure, made.failures.mem_iff.mpr (List.mem_append_left _ ?_),
        lost_of_unitAt announced decoded⟩
      refine List.mem_flatMap.mpr ⟨_, announced, ?_⟩
      rw [failuresAt, decoded]
      exact List.mem_singleton_self failure

/-- Damage to the entries of a unit is reported, and where the address size of call frame tables does
not hang on that unit, every frame is unwound as before. -/
theorem damage_keeps_unwinding (loaded : load sections settings = .ok image)
    (announced : (header.offset, .ok header) ∈ visits sections)
    (size : area.length = header.stop - header.entriesOffset) :
    ∃ damaged, load (sections.damage header area) settings = .ok damaged ∧
      (damaged.Holds header ∨ ∃ failure ∈ damaged.failures,
        Lost (sections.damage header area) (header.offset, .ok header) failure) ∧
      (Steady header image damaged →
        damaged.frames = image.frames ∧ ∀ pc, damaged.unwindAt pc = image.unwindAt pc) := by
  have differ := damagedIn_of_load loaded announced size
  obtain ⟨damaged, reloaded, kept⟩ := load_damagedIn differ loaded announced
  have remade := made_of_load reloaded
  refine ⟨damaged, reloaded, remade.holds_or_lost (kept.visits_eq ▸ announced), fun steady => ?_⟩
  have width := (steady_iff (made_of_load loaded) remade kept.units).mp steady
  have frames : damaged.frames = image.frames := by
    rw [frames_of_load reloaded, frames_of_load loaded, width, decodeFrames_damage]
  refine ⟨frames, fun pc => ?_⟩
  rw [unwindAt, unwindAt, frames]

/-- Units with four-byte addresses, and a function whose frames are described in such addresses. -/
def narrowUnits (count : Nat) : Sections :=
  ⟨.little, [(.abbreviations, ⟨[1, 0x24, 0, 0, 0, 0], 0⟩),
    (.info, ⟨(List.replicate count [8, 0, 0, 0, 4, 0, 0, 0, 0, 0, 4, 1]).flatten, 0⟩),
    (.frame, ⟨[0x0c, 0, 0, 0, 0xff, 0xff, 0xff, 0xff, 1, 0, 1, 0x7c, 8, 0x0c, 4, 4,
      0x0c, 0, 0, 0, 0, 0, 0, 0, 0, 0x10, 0, 0, 0x10, 0, 0, 0], 0⟩)]⟩

/-- The header of the first of these units. -/
def firstNarrow : UnitHeader :=
  ⟨0, 8, 4, 0, 4, 4, 11⟩

/-- Where the first of two units is lost, the second one has the same address size. -/
theorem narrowUnits_keep_unwinding :
    ∃ image damaged, load (narrowUnits 2) {} = .ok image ∧
      load ((narrowUnits 2).damage firstNarrow [2]) {} = .ok damaged ∧
        damaged.units.length = 1 ∧ image.unwindAt 0x1000 ≠ .ok none ∧
          damaged.frames = image.frames ∧ ∀ pc, damaged.unwindAt pc = image.unwindAt pc := by
  have facts : (load (narrowUnits 2) {}).map (fun image =>
      (addressSizeOf (image.unitsBeside firstNarrow),
        (image.unwindAt 0x1000).toOption.join.isSome)) = .ok (4, true) := by
    decide +kernel
  have damaged_facts : (load ((narrowUnits 2).damage firstNarrow [2]) {}).map
      (fun image => image.units.length) = .ok 1 := by
    decide +kernel
  have announced : (firstNarrow.offset, .ok firstNarrow) ∈ visits (narrowUnits 2) := by
    decide +kernel
  cases loaded : load (narrowUnits 2) {} with
  | error error =>
      rw [loaded] at facts
      cases facts
  | ok image =>
      rw [loaded] at facts
      simp only [Except.map, Except.ok.injEq, Prod.mk.injEq] at facts
      obtain ⟨damaged, reloaded, _, kept⟩ :=
        @damage_keeps_unwinding firstNarrow _ _ _ [2] loaded announced rfl
      rw [reloaded] at damaged_facts
      obtain ⟨frames, unwound⟩ := kept (.agreed facts.1.symm)
      refine ⟨image, damaged, rfl, reloaded, Except.ok.inj damaged_facts, ?_, frames, unwound⟩
      intro empty
      rw [empty] at facts
      cases facts.2

/-- Where the only unit is lost, its function can no longer be unwound. -/
theorem narrowUnit_loses_unwinding :
    ∃ image damaged, load (narrowUnits 1) {} = .ok image ∧
      (firstNarrow.offset, .ok firstNarrow) ∈ visits (narrowUnits 1) ∧
        firstNarrow.stop - firstNarrow.entriesOffset = [2].length ∧
          load ((narrowUnits 1).damage firstNarrow [2]) {} = .ok damaged ∧
            damaged.unwindAt 0x1000 ≠ image.unwindAt 0x1000 := by
  have facts : (load (narrowUnits 1) {}).map (fun image =>
      (image.unwindAt 0x1000).toOption.join.isSome) = .ok true := by
    decide +kernel
  have damaged_facts : (load ((narrowUnits 1).damage firstNarrow [2]) {}).map
      (fun image => (image.unwindAt 0x1000).toOption.join.isSome) = .ok false := by
    decide +kernel
  have announced : (firstNarrow.offset, .ok firstNarrow) ∈ visits (narrowUnits 1) := by
    decide +kernel
  cases loaded : load (narrowUnits 1) {} with
  | error error =>
      rw [loaded] at facts
      cases facts
  | ok image =>
      cases reloaded : load ((narrowUnits 1).damage firstNarrow [2]) {} with
      | error error =>
          rw [reloaded] at damaged_facts
          cases damaged_facts
      | ok damaged =>
          rw [loaded] at facts
          rw [reloaded] at damaged_facts
          refine ⟨image, damaged, rfl, announced, rfl, rfl, fun same => ?_⟩
          have found : (image.unwindAt 0x1000).toOption.join.isSome = true := Except.ok.inj facts
          have lost : (damaged.unwindAt 0x1000).toOption.join.isSome = false :=
            Except.ok.inj damaged_facts
          rw [same, found] at lost
          cases lost

end Image

end Dwarf
