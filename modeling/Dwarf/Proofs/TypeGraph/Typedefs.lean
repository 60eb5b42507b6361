import Mathlib.Algebra.Group.Nat.Defs
import Dwarf.Proofs.TypeGraph.Chain
import Dwarf.Proofs.Unit.Links

/-!
# Units of typedefs

A unit of typedefs and the numbers that they end at, laid out one behind the other in any order.
The references between them are known from the list that they are made from, so that facts about
graphs of types can be tried out on chains of any length.
-/

namespace Dwarf

/-- What some types are defined as, by their places in a list: as another one, or as a number. -/
structure TypedefList where
  targets : List (Option Nat)
  inside : ∀ target, some target ∈ targets → target < targets.length
  short : targets.length ≤ 2 ^ 32

namespace TypedefList

/-- The offset of a type in the unit.  The header and the root come first, and every type has five
bytes. -/
def place (index : Nat) : Nat :=
  12 + 5 * index

/-- The entry of a type. -/
def entryAt (index : Nat) : Option Nat → Entry
  | none => ⟨place index, .baseType, false, [⟨.byteSize, .data4, .unsigned 4⟩], some 0, #[]⟩
  | some target =>
    ⟨place index, .typedef, false,
      [⟨.type, .ref4, .unitReference (UInt64.ofNat (place target))⟩], some 0, #[]⟩

/-- The entry above all types. -/
def root (count : Nat) : Entry :=
  ⟨11, .compileUnit, true, [], none, (List.range' 1 count).toArray⟩

/-- The unit of some types. -/
def unit (list : TypedefList) : CompilationUnit where
  header := ⟨0, 9 + 5 * list.targets.length, 4, 0, 8, 4, 11⟩
  order := .little
  abbreviations := ⟨[]⟩
  entries := (root list.targets.length :: list.targets.mapIdx entryAt).toArray

def source (list : TypedefList) : TypeSource :=
  { units := ⟨[list.unit]⟩, sections := default, settings := default }

variable {list : TypedefList}

theorem place_injective {first second : Nat} (same : place first = place second) :
    first = second := by
  unfold place at same
  omega

theorem place_lt_iff {first second : Nat} : place first < place second ↔ first < second := by
  unfold place
  omega

theorem entryAt_offset (index : Nat) (target : Option Nat) :
    (entryAt index target).offset = place index := by
  cases target <;> rfl

theorem entry?_succ (index : Nat) :
    list.unit.entry? (index + 1) = list.targets[index]?.map (entryAt index) := by
  rw [CompilationUnit.entry?, unit, List.getElem?_toArray, List.getElem?_cons_succ,
    List.getElem?_mapIdx]

/-- The entries of the unit are in ascending order. -/
theorem ascending (list : TypedefList) :
    Ascending 11 (place list.targets.length) list.unit.entries where
  ascend := by
    rw [unit, List.pairwise_map, List.pairwise_cons]
    constructor
    · intro entry member
      obtain ⟨index, _, rfl⟩ := List.mem_mapIdx.mp member
      rw [entryAt_offset]
      change 11 < place index
      unfold place
      omega
    · rw [List.pairwise_iff_getElem]
      intro first second _ _ before
      simp only [List.getElem_mapIdx, entryAt_offset, place]
      omega
  within := by
    intro entry member
    rw [unit, List.mem_toArray, List.mem_cons] at member
    obtain rfl | member := member
    · refine ⟨Nat.le_refl 11, ?_⟩
      change 11 < place _
      unfold place
      omega
    · obtain ⟨index, bound, rfl⟩ := List.mem_mapIdx.mp member
      rw [entryAt_offset]
      unfold place
      omega

theorem entry?_place {index : Nat} {target : Option Nat} (found : list.targets[index]? = some target) :
    list.source.units.entry? (place index) =
      some ⟨list.unit, index + 1, entryAt index target⟩ := by
  have stored : list.unit.entry? (index + 1) = some (entryAt index target) := by
    rw [entry?_succ, found, Option.map_some]
  have number : list.unit.idAt? (place index) = some (index + 1) :=
    (CompilationUnit.idAt?_eq_some_iff_entry? list.ascending).mpr
      ⟨_, stored, entryAt_offset index target⟩
  simp [UnitSet.entry?, source, number, stored]

/-! ## References -/

/-- A type is defined as another one. -/
def Links (list : TypedefList) (index target : Nat) : Prop :=
  list.targets[index]? = some (some target)

theorem reference?_entryAt {index target : Nat} (links : list.Links index target) :
    EntryRef.reference? ⟨list.unit, index + 1, entryAt index (some target)⟩ .type =
      some (place target) := by
  have inside := list.inside target (List.mem_of_getElem? links)
  have fits : place target < UInt64.size := by
    have short := list.short
    unfold place UInt64.size
    omega
  have word : (UInt64.ofNat (place target)).toNat = place target := by
    rw [UInt64.toNat_ofNat']
    exact Nat.mod_eq_of_lt fits
  change AttributeValue.reference? 0 (.unitReference (UInt64.ofNat (place target))) = _
  rw [AttributeValue.reference?, word, Nat.zero_add, if_pos fits]

theorem refers_entryAt {index : Nat} {target : Option Nat} {referrer : EntryRef}
    (refers : list.source.Refers ⟨list.unit, index + 1, entryAt index target⟩ referrer) :
    target ≠ none ∧ referrer = ⟨list.unit, index + 1, entryAt index target⟩ := by
  cases target with
  | none =>
      cases refers with
      | own shape =>
          obtain shape | shape := shape
          · cases shape
          · cases shape
      | parameter shape => cases shape
      | member shape => cases shape
  | some target =>
      cases refers with
      | own => exact ⟨nofun, rfl⟩
      | parameter shape => cases shape
      | member shape => cases shape

theorem entry?_cases {offset : Nat} {found : EntryRef}
    (present : list.source.units.entry? offset = some found) :
    found.tag.shape? = none ∨ ∃ index target, offset = place index ∧
      list.targets[index]? = some target ∧
        found = ⟨list.unit, index + 1, entryAt index target⟩ := by
  obtain ⟨listed, stored, start⟩ := TypeSource.mem_of_entry? present
  have here : found.unit = list.unit := List.mem_singleton.mp listed
  rw [here, unit, List.mem_toArray, List.mem_cons] at stored
  obtain same | member := stored
  · left
    rw [EntryRef.tag, same]
    rfl
  · obtain ⟨index, bound, same⟩ := List.mem_mapIdx.mp member
    have known := List.getElem?_eq_getElem bound
    have place_eq : offset = place index := by
      rw [← start, EntryRef.offset, ← same, entryAt_offset]
    refine .inr ⟨index, _, place_eq, known, ?_⟩
    rw [place_eq, entry?_place known] at present
    exact (Option.some.inj present).symm

/-- References lead where types are defined as others. -/
theorem follows_iff {offset other : Nat} :
    list.source.Follows offset other ↔
      ∃ index target, list.Links index target ∧ offset = place index ∧ other = place target := by
  constructor
  · rintro ⟨entry, referrer, found, refers, reference, _⟩
    obtain shapeless | ⟨index, target, rfl, listed, rfl⟩ := entry?_cases found
    · cases refers with
      | own shape => simp [shapeless] at shape
      | parameter shape => cases shapeless.symm.trans shape
      | member shape => cases shapeless.symm.trans shape
    · obtain ⟨present, rfl⟩ := refers_entryAt refers
      obtain ⟨target, rfl⟩ := Option.ne_none_iff_exists'.mp present
      cases (reference?_entryAt listed).symm.trans reference
      exact ⟨index, target, listed, rfl, rfl⟩
  · rintro ⟨index, target, links, rfl, rfl⟩
    have inside := list.inside target (List.mem_of_getElem? links)
    refine ⟨_, _, entry?_place links, .own (.inl rfl), reference?_entryAt links, ?_⟩
    rw [entry?_place (List.getElem?_eq_getElem inside)]
    rfl

theorem reaches_cases {offset other : Nat} (reaches : list.source.Reaches offset other) :
    offset = other ∨ ∃ target, target < list.targets.length ∧ other = place target := by
  obtain rfl | ⟨middle, _, follows⟩ := Relation.ReflTransGen.cases_tail reaches
  · exact .inl rfl
  · obtain ⟨index, target, links, _, rfl⟩ := follows_iff.mp follows
    exact .inr ⟨target, list.inside target (List.mem_of_getElem? links), rfl⟩

/-- Nothing is wrong with any of the types. -/
theorem not_broken {index : Nat} (bound : index < list.targets.length) :
    ¬list.source.Broken (place index) := by
  rintro ⟨reached, entry, reaches, found, defective⟩
  obtain ⟨index, bound, rfl⟩ : ∃ index, index < list.targets.length ∧ reached = place index := by
    obtain rfl | elsewhere := reaches_cases reaches
    · exact ⟨index, bound, rfl⟩
    · exact elsewhere
  have known := List.getElem?_eq_getElem bound
  cases (entry?_place known).symm.trans found
  generalize list.targets[index] = target at known defective
  cases defective with
  | tag shapeless => cases target <;> cases shapeless
  | @reference referrer refers present unusable =>
      obtain ⟨some_target, rfl⟩ := refers_entryAt refers
      obtain ⟨target, rfl⟩ := Option.ne_none_iff_exists'.mp some_target
      cases (reference?_entryAt known).symm.trans unusable
  | @target referrer other refers reference missing =>
      obtain ⟨some_target, rfl⟩ := refers_entryAt refers
      obtain ⟨target, rfl⟩ := Option.ne_none_iff_exists'.mp some_target
      cases (reference?_entryAt known).symm.trans reference
      have inside := list.inside target (List.mem_of_getElem? known)
      cases (entry?_place (List.getElem?_eq_getElem inside)).symm.trans missing
  | placement shape => cases target <;> cases shape

theorem typeOffsets_eq (list : TypedefList) :
    list.source.typeOffsets = (List.range list.targets.length).map place := by
  have types : (list.unit.entries.toList.filter fun entry => entry.tag.isType) =
      list.targets.mapIdx entryAt := by
    rw [unit, List.filter_cons_of_neg (by nofun)]
    refine List.filter_eq_self.mpr fun entry member => ?_
    obtain ⟨index, bound, rfl⟩ := List.mem_mapIdx.mp member
    cases list.targets[index] <;> rfl
  change ((list.unit.entries.toList.filter fun entry => entry.tag.isType).map Entry.offset) ++ [] = _
  rw [types, List.append_nil]
  refine List.ext_getElem (by simp) fun index _ _ => ?_
  simp [entryAt_offset]

theorem typeAt_iff {offset : Nat} :
    list.source.TypeAt offset ↔ ∃ index, index < list.targets.length ∧ offset = place index := by
  rw [← TypeSource.mem_typeOffsets, typeOffsets_eq, List.mem_map]
  simp [eq_comm]

theorem flawless (list : TypedefList) : list.source.Flawless := by
  intro offset type
  obtain ⟨index, bound, rfl⟩ := typeAt_iff.mp type
  exact not_broken bound

/-! ## Directions -/

/-- Types are defined as types before them. -/
def Backward (list : TypedefList) : Prop :=
  ∀ {index target}, list.Links index target → target < index

/-- Types are defined as types behind them. -/
def Forward (list : TypedefList) : Prop :=
  ∀ {index target}, list.Links index target → index < target

theorem Backward.acyclic (backward : list.Backward) : list.source.Acyclic := by
  refine .of_rank id fun follows => ?_
  obtain ⟨index, target, links, rfl, rfl⟩ := follows_iff.mp follows
  exact place_lt_iff.mpr (backward links)

theorem Forward.acyclic (forward : list.Forward) : list.source.Acyclic := by
  refine .of_rank (place list.targets.length - ·) fun follows => ?_
  obtain ⟨index, target, links, rfl, rfl⟩ := follows_iff.mp follows
  have inside := place_lt_iff.mpr (list.inside target (List.mem_of_getElem? links))
  have before := place_lt_iff.mpr (forward links)
  omega

theorem typeOffsets_ascend (list : TypedefList) : list.source.typeOffsets.Pairwise (· < ·) := by
  rw [typeOffsets_eq, List.pairwise_map]
  exact List.pairwise_lt_range.imp place_lt_iff.mpr

theorem Backward.bottomUp (backward : list.Backward) : list.source.BottomUp := by
  refine list.typeOffsets_ascend.imp fun {earlier later} before follows => ?_
  obtain ⟨index, target, links, rfl, rfl⟩ := follows_iff.mp follows
  exact Nat.lt_asymm before (place_lt_iff.mpr (backward links))

theorem Forward.topDown (forward : list.Forward) : list.source.TopDown := by
  refine list.typeOffsets_ascend.imp fun {earlier later} before follows => ?_
  obtain ⟨index, target, links, rfl, rfl⟩ := follows_iff.mp follows
  exact Nat.lt_asymm before (place_lt_iff.mpr (forward links))

/-! ## Chains -/

/-- As many types as there are in the shortest chain that is too long, defined by a function. -/
def ofFunction (target? : Nat → Option Nat)
    (inside : ∀ index target, index < 129 → target? index = some target → target < 129) :
    TypedefList where
  targets := (List.range 129).map target?
  inside := by
    intro target member
    obtain ⟨index, bound, same⟩ := List.mem_map.mp member
    rw [List.length_map, List.length_range]
    exact inside index target (List.mem_range.mp bound) same
  short := by simp

theorem links_ofFunction {target? : Nat → Option Nat}
    {inside : ∀ index target, index < 129 → target? index = some target → target < 129}
    {index target : Nat} :
    (ofFunction target? inside).Links index target ↔ index < 129 ∧ target? index = some target := by
  unfold Links ofFunction
  rw [List.getElem?_map]
  by_cases bound : index < 129
  · simp [bound]
  · simp [bound]

theorem typeAt_ofFunction {target? : Nat → Option Nat}
    {inside : ∀ index target, index < 129 → target? index = some target → target < 129}
    {index : Nat} (bound : index < 129) :
    (ofFunction target? inside).source.TypeAt (place index) :=
  typeAt_iff.mpr ⟨index, by simpa [ofFunction] using bound, rfl⟩

/-- A number and a chain of 128 typedefs, each defined as the type before it. -/
def upward : TypedefList :=
  ofFunction (fun index => if index = 0 then none else some (index - 1)) (by grind)

/-- A chain of 128 typedefs, each defined as the type behind it, and a number. -/
def downward : TypedefList :=
  ofFunction (fun index => if index = 128 then none else some (index + 1)) (by grind)

theorem upward_links {index target : Nat} :
    upward.Links index target ↔ index = target + 1 ∧ index < 129 := by
  rw [upward, links_ofFunction]
  grind

theorem downward_links {index target : Nat} :
    downward.Links index target ↔ target = index + 1 ∧ target < 129 := by
  rw [downward, links_ofFunction]
  grind

theorem upward_backward : upward.Backward := by
  intro index target links
  have same := (upward_links.mp links).1
  omega

theorem downward_forward : downward.Forward := by
  intro index target links
  have same := (downward_links.mp links).1
  omega

theorem downward_unshared : downward.source.Unshared := by
  intro first second target left right
  obtain ⟨index, _, links, rfl, rfl⟩ := follows_iff.mp left
  obtain ⟨other, _, other_links, rfl, same⟩ := follows_iff.mp right
  cases place_injective same
  have one := (downward_links.mp links).1
  have two := (downward_links.mp other_links).1
  rw [Nat.succ.inj (one.symm.trans two)]

/-- From every type of the chain so many references lead to the number as there are types before
it. -/
theorem upward_descends {index : Nat} (bound : index < 129) :
    upward.source.Descends index (place index) (place 0) := by
  induction index with
  | zero => exact .here _
  | succ index ih =>
      have links : upward.Links (index + 1) index := upward_links.mpr ⟨rfl, bound⟩
      exact .down (follows_iff.mpr ⟨_, _, links, rfl, rfl⟩) (ih (Nat.lt_of_succ_lt bound))

theorem downward_descends {steps index : Nat} (bound : index + steps < 129) :
    downward.source.Descends steps (place index) (place (index + steps)) := by
  induction steps generalizing index with
  | zero => exact .here _
  | succ steps ih =>
      have links : downward.Links index (index + 1) := downward_links.mpr ⟨rfl, by omega⟩
      have rest := @ih (index + 1) (by omega)
      rw [Nat.add_right_comm] at rest
      exact .down (follows_iff.mpr ⟨_, _, links, rfl, rfl⟩) rest

theorem upward_longChain : upward.source.HasLongChain (place 128) :=
  (TypeSource.hasLongChain_iff upward_backward.acyclic).mpr
    ⟨128, place 0, upward_descends (by decide), Nat.le_refl _⟩

theorem downward_longChain : downward.source.HasLongChain (place 0) :=
  (TypeSource.hasLongChain_iff downward_forward.acyclic).mpr
    ⟨128, place (0 + 128), downward_descends (by decide), Nat.le_refl _⟩

end TypedefList

end Dwarf
