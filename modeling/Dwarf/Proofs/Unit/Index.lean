import Std.Data.HashMap
import Mathlib.Algebra.GroupWithZero.Nat
import Mathlib.Data.List.Nodup
import Mathlib.Data.List.Pairwise
import Dwarf.Unit.Set
import Dwarf.Proofs.Unit.Links

/-!
# Entries by offset

The entries of a set of units can be indexed by offset in one table, where a later entry would
replace an earlier one of the same offset.  If the units lie apart from each other and the entries of
each begin inside it, nothing is replaced, and the table answers what a search through the units
answers.
-/

namespace Dwarf

theorem Ascending.mono {start stop first last : Nat} {entries : Array Entry}
    (ascending : Ascending start stop entries) (before : first ≤ start) (after : stop ≤ last) :
    Ascending first last entries where
  ascend := ascending.ascend
  within entry stored :=
    have ⟨above, below⟩ := ascending.within entry stored
    ⟨Nat.le_trans before above, Nat.lt_of_lt_of_le below after⟩

namespace UnitSet

variable {set : UnitSet} {unit other : CompilationUnit} {offset : Nat} {ref same : EntryRef}

/-- Entries begin in their own unit, and each unit lies behind the one before. -/
structure Separate (set : UnitSet) : Prop where
  within : ∀ unit ∈ set.units, Ascending unit.header.offset unit.header.stop unit.entries
  apart : set.units.Pairwise fun unit later => unit.header.stop ≤ later.header.offset

/-- The entry is one of a unit of the set. -/
structure Has (set : UnitSet) (ref : EntryRef) : Prop where
  unit : ref.unit ∈ set.units
  entry : ref.unit.entry? ref.id = some ref.entry

theorem containsOffset_iff :
    unit.containsOffset offset ↔ unit.header.offset ≤ offset ∧ offset < unit.header.stop := by
  unfold CompilationUnit.containsOffset
  rw [Bool.and_eq_true, decide_eq_true_iff, decide_eq_true_iff]

theorem Separate.contains (separate : set.Separate) (has : set.Has ref) :
    ref.unit.containsOffset ref.offset :=
  containsOffset_iff.mpr
    ((separate.within _ has.unit).within _ (Array.mem_of_getElem? has.entry))

/-- No two units share an offset. -/
theorem Separate.unit_unique (separate : set.Separate) (first : unit ∈ set.units)
    (second : other ∈ set.units) (here : unit.containsOffset offset)
    (there : other.containsOffset offset) : unit = other := by
  have disjoint : set.units.Pairwise fun unit other =>
      ¬(unit.containsOffset offset ∧ other.containsOffset offset) := by
    refine separate.apart.imp fun behind both => ?_
    have := (containsOffset_iff.mp both.1).2
    have := (containsOffset_iff.mp both.2).1
    omega
  have symmetric : Std.Symm fun unit other : CompilationUnit =>
      ¬(unit.containsOffset offset ∧ other.containsOffset offset) :=
    ⟨fun _ _ apart both => apart both.symm⟩
  rcases Decidable.em (unit = other) with same | different
  · exact same
  · exact absurd ⟨here, there⟩ (disjoint.forall first second different)

theorem Separate.unique (separate : set.Separate) (first : set.Has ref) (second : set.Has same)
    (offsets : ref.offset = same.offset) : ref = same := by
  have unit := separate.unit_unique first.unit second.unit (separate.contains first)
    (offsets ▸ separate.contains second)
  rcases ref with ⟨_, id, entry⟩
  rcases same with ⟨_, other, found⟩
  cases unit
  cases (separate.within _ first.unit).unique first.entry second.entry offsets
  cases first.entry.symm.trans second.entry
  rfl

theorem Separate.unitFor?_eq_some_iff (separate : set.Separate) :
    set.unitFor? offset = some unit ↔ unit ∈ set.units ∧ unit.containsOffset offset := by
  have sound {other : CompilationUnit} (found : set.unitFor? offset = some other) :
      other ∈ set.units ∧ other.containsOffset offset := by
    unfold unitFor? at found
    have holds := List.find?_some found
    exact ⟨List.mem_of_find?_eq_some found, holds⟩
  constructor
  · exact sound
  · rintro ⟨member, here⟩
    have answers : (set.unitFor? offset).isSome := List.find?_isSome.mpr ⟨unit, member, here⟩
    obtain ⟨other, found⟩ := Option.isSome_iff_exists.mp answers
    obtain ⟨also, there⟩ := sound found
    rw [found, separate.unit_unique also member there here]

/-- A search finds an entry exactly where it begins. -/
theorem Separate.entry?_eq_some_iff (separate : set.Separate) :
    set.entry? offset = some ref ↔ set.Has ref ∧ ref.offset = offset := by
  have sound {found : EntryRef} (answer : set.entry? offset = some found) :
      set.Has found ∧ found.offset = offset := by
    obtain ⟨unit, member, here⟩ := List.exists_of_findSome?_eq_some answer
    obtain ⟨id, numbered, here⟩ := Option.bind_eq_some_iff.mp here
    obtain ⟨entry, stored, rfl⟩ := Option.map_eq_some_iff.mp here
    obtain ⟨_, also, rfl⟩ :=
      (CompilationUnit.idAt?_eq_some_iff_entry? (separate.within unit member)).mp numbered
    cases stored.symm.trans also
    exact ⟨⟨member, stored⟩, rfl⟩
  constructor
  · exact sound
  · rintro ⟨has, rfl⟩
    have numbered := (CompilationUnit.idAt?_eq_some_iff_entry? (separate.within _ has.unit)).mpr
      ⟨ref.entry, has.entry, rfl⟩
    have answers : (set.entry? ref.offset).isSome := by
      refine List.findSome?_isSome_iff.mpr ⟨ref.unit, has.unit, ?_⟩
      rw [EntryRef.offset, numbered, Option.bind_some, has.entry]
      rfl
    obtain ⟨found, answer⟩ := Option.isSome_iff_exists.mp answers
    obtain ⟨found_has, found_offset⟩ := sound answer
    rw [answer, separate.unique found_has has found_offset]

/-! ## One table for all units -/

/-- The entries of a unit with their numbers. -/
def refsOf (unit : CompilationUnit) : List EntryRef :=
  unit.entries.toList.zipIdx.map fun (entry, id) => ⟨unit, id, entry⟩

/-- The entries of all units in order. -/
def refs (set : UnitSet) : List EntryRef :=
  set.units.flatMap refsOf

/-- The entries of all units by offset, filled in order. -/
def index (set : UnitSet) : Std.HashMap Nat EntryRef :=
  .ofList (set.refs.map fun ref => (ref.offset, ref))

theorem mem_refs : ref ∈ set.refs ↔ set.Has ref := by
  unfold refs refsOf
  rw [List.mem_flatMap]
  constructor
  · rintro ⟨unit, member, listed⟩
    obtain ⟨⟨entry, id⟩, numbered, rfl⟩ := List.mem_map.mp listed
    exact ⟨member, Array.getElem?_toList.symm.trans (List.mem_zipIdx_iff_getElem?.mp numbered)⟩
  · rintro ⟨member, stored⟩
    refine ⟨ref.unit, member, List.mem_map.mpr ⟨(ref.entry, ref.id), ?_, rfl⟩⟩
    exact List.mem_zipIdx_iff_getElem?.mpr (Array.getElem?_toList.trans stored)

theorem offsets_refsOf (unit : CompilationUnit) :
    (refsOf unit).map EntryRef.offset = unit.entries.toList.map Entry.offset := by
  have first := congrArg (List.map Entry.offset) (@List.zipIdx_map_fst _ 0 unit.entries.toList)
  rw [List.map_map] at first
  rw [refsOf, List.map_map]
  exact first

theorem offsets_refs (set : UnitSet) :
    set.refs.map EntryRef.offset =
      set.units.flatMap fun unit => unit.entries.toList.map Entry.offset := by
  rw [refs, List.map_flatMap]
  exact congrArg (List.flatMap · _) (funext offsets_refsOf)

/-- The offsets of all entries are distinct. -/
theorem Separate.nodup (separate : set.Separate) :
    (set.units.flatMap fun unit => unit.entries.toList.map Entry.offset).Nodup := by
  rw [List.nodup_flatMap]
  constructor
  · intro unit member
    exact (separate.within unit member).ascend.imp Nat.ne_of_lt
  · refine separate.apart.imp_of_mem fun {unit later} member also behind => ?_
    refine List.disjoint_left.mpr fun offset here there => ?_
    obtain ⟨entry, stored, rfl⟩ := List.mem_map.mp here
    obtain ⟨other, other_stored, same⟩ := List.mem_map.mp there
    have := ((separate.within unit member).within entry (Array.mem_toList_iff.mp stored)).2
    have := ((separate.within later also).within other (Array.mem_toList_iff.mp other_stored)).1
    omega

theorem length_refs : set.refs.length = (set.units.map fun unit => unit.entries.size).sum := by
  unfold refs
  rw [List.length_flatMap]
  congr 1
  refine List.map_congr_left fun unit _ => ?_
  rw [refsOf, List.length_map, List.length_zipIdx, Array.length_toList]

theorem entryCount_eq (set : UnitSet) :
    set.entryCount = (set.units.map fun unit => unit.entries.size).sum := by
  unfold entryCount
  rw [List.sum_eq_foldl, List.foldl_map]

theorem Separate.distinct (separate : set.Separate) :
    (set.refs.map fun ref => (ref.offset, ref)).Pairwise fun ref later =>
      (ref.1 == later.1) = false := by
  rw [List.pairwise_map]
  have nodup := separate.nodup
  rw [← offsets_refs] at nodup
  exact (List.pairwise_map.mp nodup).imp beq_false_of_ne

theorem Separate.size_index (separate : set.Separate) : set.index.size = set.entryCount := by
  rw [index, Std.HashMap.size_ofList separate.distinct, List.length_map, length_refs, entryCount_eq]

theorem Separate.getElem?_index (separate : set.Separate) (offset : Nat) :
    set.index[offset]? = set.entry? offset := by
  cases found : set.entry? offset with
  | some ref =>
      obtain ⟨has, rfl⟩ := separate.entry?_eq_some_iff.mp found
      exact Std.HashMap.getElem?_ofList_of_mem (beq_self_eq_true _) separate.distinct
        (List.mem_map.mpr ⟨ref, mem_refs.mpr has, rfl⟩)
  | none =>
      refine Std.HashMap.getElem?_ofList_of_contains_eq_false ?_
      rw [List.map_map, ← Bool.not_eq_true, List.contains_iff_mem]
      intro listed
      obtain ⟨ref, member, here⟩ := List.mem_map.mp listed
      have answer := separate.entry?_eq_some_iff.mpr ⟨mem_refs.mp member, here⟩
      cases found.symm.trans answer

end UnitSet

end Dwarf
