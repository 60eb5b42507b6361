import Dwarf.Proofs.Image.Load
import Dwarf.Proofs.Unit.Index

/-!
# The entries of an image by offset

Units that have been loaded lie apart from each other in the order of the section, and their entries
begin inside them.  So an offset belongs to one entry of one unit at most, and looking it up in the
image finds that entry.
-/

namespace Dwarf

namespace UnitHeader

/-- Where a unit lies in the section: its header has room in it, the section has room for it, and its
length field alone leads to the same end. -/
structure Extent (info : List UInt8) (order : ByteOrder) (offset : Nat) (header : UnitHeader) :
    Prop where
  offset_eq : header.offset = offset
  offset_lt : header.offset < header.entriesOffset
  entriesOffset_le : header.entriesOffset ≤ header.stop
  stop_le : header.stop ≤ info.length
  declaredStop_eq : declaredStop? info order offset = some header.stop
  /-- In a section whose size is a word, no sum overflows. -/
  stop_toNat : info.length < UInt64.size →
    (UInt64.ofNat header.offset + UInt64.ofNat (lengthFieldSize header.offsetSize) +
      UInt64.ofNat header.unitLength).toNat = header.stop

theorem Sound.extent {info : List UInt8} {order : ByteOrder} {offset : Nat} {header : UnitHeader}
    (sound : Sound info order offset header) : Extent info order offset header where
  offset_eq := sound.offset_eq
  offset_lt := by
    have := sound.offset_lt
    omega
  entriesOffset_le := sound.entriesOffset_le
  stop_le := sound.stop_le
  declaredStop_eq := sound.declaredStop_eq
  stop_toNat word := by
    have bound := Nat.lt_of_le_of_lt sound.stop_le word
    unfold stop UInt64.size at *
    rw [UInt64.toNat_add, UInt64.toNat_add, UInt64.toNat_ofNat', UInt64.toNat_ofNat',
      UInt64.toNat_ofNat']
    omega

end UnitHeader

namespace Image

variable {sections : Sections} {image : Image}

theorem ascending_of_unitAt {visit : UnitHeader.Visit} (visited : visit ∈ visits sections)
    {unit : CompilationUnit} (decoded : unitAt sections visit = .ok unit) :
    Ascending unit.header.offset unit.header.stop unit.entries := by
  obtain rfl := visit_eq_of_unitAt visited decoded
  obtain ⟨table, _, _, entries⟩ := unitAt_eq_ok_iff.mp decoded
  have sound := (walk_visits sections).sound visited
  have := sound.offset_lt
  have := sound.entriesOffset_le
  have size : (CompilationUnit.storedEntries (sections.data .info) unit.header).length ≤
      unit.header.stop - unit.header.entriesOffset := List.length_take_le ..
  exact (CompilationUnit.decode_arranged entries).2.2.1.mono (by omega) (by omega)

theorem Made.separate (made : Made sections image) : image.unitSet.Separate where
  within unit member := by
    obtain ⟨visit, visited, decoded⟩ := made.exists_visit member
    exact ascending_of_unitAt visited decoded
  apart := by
    rw [unitSet, unitSetOf, made.units_unit, List.pairwise_filterMap]
    refine (walk_visits sections).pairwise.imp_of_mem ?_
    intro visit later visited later_visited precedes unit decoded other other_decoded
    obtain rfl := visit_eq_of_unitAt visited (toOption_eq_some_iff.mp decoded)
    obtain rfl := visit_eq_of_unitAt later_visited (toOption_eq_some_iff.mp other_decoded)
    exact precedes.2 _ rfl

/-- The units lie apart from each other in the order of the section, and each entry is found where it
begins, in its own unit. -/
structure ExactIndex (sections : Sections) (image : Image) : Prop where
  extent : ∀ offset header, (offset, .ok header) ∈ visits sections →
    UnitHeader.Extent (sections.data .info) sections.order offset header
  /-- Behind a header the walk goes on at the end of its unit. -/
  onward : ∀ before offset header after, visits sections = before ++ (offset, .ok header) :: after →
    after = UnitHeader.scanFrom (sections.data .info) sections.order header.stop
  announced : ∀ unit ∈ image.units,
    (unit.unit.header.offset, .ok unit.unit.header) ∈ visits sections
  apart : image.units.Pairwise fun unit later => unit.unit.header.stop ≤ later.unit.header.offset
  offsets_nodup :
    (image.units.flatMap fun unit => unit.unit.entries.toList.map Entry.offset).Nodup
  entry?_eq_some_iff : ∀ offset ref, image.entry? offset = some ref ↔
    ref.unit ∈ image.units.map ImageUnit.unit ∧ ref.unit.entry? ref.id = some ref.entry ∧
      ref.entry.offset = offset
  unitFor?_eq_some : ∀ offset ref, image.entry? offset = some ref →
    image.unitSet.unitFor? offset = some ref.unit
  /-- One table for all units answers the same, and no entry of it has replaced another. -/
  index : (∀ offset : Nat, image.unitSet.index[offset]? = image.entry? offset) ∧
    image.unitSet.index.size = image.unitSet.entryCount
  entryCount_eq :
    image.unitSet.entryCount = (image.units.map fun unit => unit.unit.entries.size).sum

/-- The index of the entries of an image by offset is exact. -/
theorem entries_by_offset {settings : Settings} (loaded : load sections settings = .ok image) :
    ExactIndex sections image := by
  have made := made_of_load loaded
  have separate := made.separate
  have walk := walk_visits sections
  exact {
    extent := fun offset header visited => (walk.sound visited).extent
    onward := fun before offset header after split =>
      UnitHeader.Walk.eq_scanFrom (UnitHeader.Walk.after (split ▸ walk))
    announced := fun unit member => by
      obtain ⟨visit, visited, decoded⟩ := made.exists_visit (List.mem_map_of_mem member)
      rw [← visit_eq_of_unitAt visited decoded]
      exact visited
    apart := List.pairwise_map.mp separate.apart
    offsets_nodup := by
      have nodup := separate.nodup
      rw [unitSet, unitSetOf, List.flatMap_map] at nodup
      exact nodup
    entry?_eq_some_iff := fun offset ref => separate.entry?_eq_some_iff.trans
      ⟨fun ⟨has, here⟩ => ⟨has.unit, has.entry, here⟩,
        fun ⟨unit, entry, here⟩ => ⟨⟨unit, entry⟩, here⟩⟩
    unitFor?_eq_some := fun offset ref found => by
      obtain ⟨has, rfl⟩ := separate.entry?_eq_some_iff.mp found
      exact separate.unitFor?_eq_some_iff.mpr ⟨has.unit, separate.contains has⟩
    index := ⟨separate.getElem?_index, separate.size_index⟩
    entryCount_eq := by
      rw [UnitSet.entryCount_eq, unitSet, unitSetOf, List.map_map]
      rfl }

/-- Two units whose headers are of different formats. -/
def twoFormats : Sections :=
  ⟨.little,
    [(.abbreviations, ⟨[1, 0x13, 1, 0, 0, 2, 0x24, 0, 0, 0, 0], 0⟩),
      (.info, ⟨[15, 0, 0, 0, 4, 0, 0, 0, 0, 0, 8, 1, 1, 2, 0, 2, 0, 0, 0,
        0xff, 0xff, 0xff, 0xff, 12, 0, 0, 0, 0, 0, 0, 0, 4, 0, 0, 0, 0, 0, 0, 0, 0, 0, 8, 2], 0⟩)]⟩

theorem twoFormats_by_offset :
    ∃ image, load twoFormats {} = .ok image ∧ image.unitSet.entryCount = 5 ∧
      ExactIndex twoFormats image := by
  have facts : (load twoFormats {}).map (fun image => image.unitSet.entryCount) = .ok 5 := by
    decide +kernel
  cases loaded : load twoFormats {} with
  | error error =>
      rw [loaded] at facts
      cases facts
  | ok image =>
      rw [loaded] at facts
      exact ⟨image, rfl, Except.ok.inj facts, entries_by_offset loaded⟩

end Image

end Dwarf
