import Mathlib.Logic.Relation
import Dwarf.Image.Subprogram
import Dwarf.Proofs.AddressRange
import Dwarf.Proofs.Image.Index
import Dwarf.Proofs.Unit.Preorder

/-!
# The subprogram around an address

Each subprogram that covers an address is weighed by the width of its first range around it.  The
search goes through them once, in the order of the units and of the entries in them, and keeps the
narrowest, of equally narrow ones the last.  A nested subprogram is stored after the one around it,
so it is preferred even where both have the same range.

A range that has wrapped around contains no address.  It is never weighed, and so no difference that
is computed is negative.
-/

namespace Dwarf

namespace AddressRange

variable {range : AddressRange} {ranges : List AddressRange} {pc : UInt64}

/-- The first of some intervals that contains an address. -/
def FirstAround (ranges : List AddressRange) (pc : UInt64) (range : AddressRange) : Prop :=
  ∃ before after, ranges = before ++ range :: after ∧ range.contains pc = true ∧
    ∀ earlier ∈ before, earlier.contains pc = false

theorem find?_eq_some_iff_firstAround :
    (ranges.find? fun range => range.contains pc) = some range ↔ FirstAround ranges pc range := by
  rw [List.find?_eq_some_iff_append]
  constructor
  · rintro ⟨contains, before, after, split, others⟩
    exact ⟨before, after, split, contains, fun earlier member =>
      Bool.not_eq_true' _ ▸ others earlier member⟩
  · rintro ⟨before, after, split, contains, others⟩
    exact ⟨contains, before, after, split, fun earlier member =>
      (Bool.not_eq_true' _).symm ▸ others earlier member⟩

theorem exists_firstAround (covers : Covers ranges pc) : ∃ range, FirstAround ranges pc range := by
  obtain ⟨other, member, contains⟩ := covers
  have answers : (ranges.find? fun range => range.contains pc).isSome = true :=
    List.find?_isSome.mpr ⟨other, member, contains⟩
  obtain ⟨range, found⟩ := Option.isSome_iff_exists.mp answers
  exact ⟨range, find?_eq_some_iff_firstAround.mp found⟩

theorem FirstAround.covers (first : FirstAround ranges pc range) : Covers ranges pc := by
  obtain ⟨before, after, rfl, contains, _⟩ := first
  exact ⟨range, List.mem_append_right _ List.mem_cons_self, contains⟩

theorem low_add_toNat_sub (contains : range.contains pc = true) :
    range.low.toNat + (range.high - range.low).toNat = range.high.toNat := by
  obtain ⟨above, below⟩ := contains_iff.mp contains
  have ordered : range.low.toNat ≤ range.high.toNat := by omega
  rw [UInt64.toNat_sub_of_le _ _ (UInt64.le_iff_toNat_le.mpr ordered)]
  exact Nat.add_sub_of_le ordered

end AddressRange

namespace EntryRef

variable {ref around inner outer : EntryRef}

/-- The entry lies below another one in the tree of their unit. -/
def Below (inner outer : EntryRef) : Prop :=
  Relation.TransGen (fun ref around => ref.parent? = some around) inner outer

theorem parent?_lt (linked : Linked ref.unit.entries)
    (stored : ref.unit.entry? ref.id = some ref.entry) (hangs : ref.parent? = some around) :
    around.unit = ref.unit ∧ around.unit.entry? around.id = some around.entry ∧
      around.id < ref.id := by
  obtain ⟨id, above, sibling⟩ := Option.bind_eq_some_iff.mp hangs
  obtain ⟨entry, found, rfl⟩ := Option.map_eq_some_iff.mp sibling
  exact ⟨rfl, found, linked.parent_lt stored above⟩

theorem Below.lt (below : Below inner outer) (linked : Linked inner.unit.entries)
    (stored : inner.unit.entry? inner.id = some inner.entry) :
    outer.unit = inner.unit ∧ outer.unit.entry? outer.id = some outer.entry ∧
      outer.id < inner.id := by
  induction below with
  | single hangs => exact parent?_lt linked stored hangs
  | tail _ hangs ih =>
      obtain ⟨same, found, before⟩ := ih
      obtain ⟨also, next_found, less⟩ := parent?_lt (same ▸ linked) found hangs
      exact ⟨also.trans same, next_found, Nat.lt_trans less before⟩

end EntryRef

namespace Image

open AddressRange

variable {image : Image} {pc : UInt64} {number other : Nat} {ref rival : EntryRef} {cover : Cover}

/-! ## Candidates -/

/-- The addresses that an entry of the image covers. -/
def rangesOf (image : Image) (ref : EntryRef) : Except Error (List AddressRange) :=
  AddressRange.ofEntry ref.entry (image.sections.data .ranges) ref.unit.encoding
    ref.unit.baseAddress

/-- A subprogram that covers an address, in the unit of a number.  A unit whose own addresses are
known has one only if it covers the address too. -/
structure Candidate (image : Image) (pc : UInt64) (number : Nat) (ref : EntryRef) : Prop where
  unit : ∃ unit, image.units[number]? = some unit ∧ unit.unit = ref.unit ∧
    (unit.ranges = [] ∨ AddressRange.Covers unit.ranges pc)
  entry : ref.unit.entry? ref.id = some ref.entry
  subprogram : ref.tag = .subprogram
  covers : ∃ ranges, image.rangesOf ref = .ok ranges ∧ AddressRange.Covers ranges pc

/-- The first range of the entry around an address has a number of addresses. -/
def Weighs (image : Image) (pc : UInt64) (ref : EntryRef) (width : Nat) : Prop :=
  ∃ ranges range, image.rangesOf ref = .ok ranges ∧ FirstAround ranges pc range ∧
    range.low.toNat + width = range.high.toNat

/-- The entry comes before another one in the order of the units and of the entries in them. -/
def Precedes (number : Nat) (ref : EntryRef) (later : Nat) (rival : EntryRef) : Prop :=
  number < later ∨ number = later ∧ ref.id < rival.id

/-- A candidate than which none is narrower, and none of those that come later as narrow. -/
structure Tightest (image : Image) (pc : UInt64) (number : Nat) (ref : EntryRef) : Prop where
  candidate : image.Candidate pc number ref
  narrowest : ∀ other rival width rivalWidth, image.Candidate pc other rival →
    image.Weighs pc ref width → image.Weighs pc rival rivalWidth → width ≤ rivalWidth
  last : ∀ other rival width rivalWidth, image.Candidate pc other rival →
    Precedes number ref other rival → image.Weighs pc ref width →
      image.Weighs pc rival rivalWidth → width < rivalWidth

theorem Precedes.irrefl : ¬Precedes number ref number ref := by
  rintro (less | ⟨_, less⟩)
  · exact Nat.lt_irrefl _ less
  · exact Nat.lt_irrefl _ less

theorem Precedes.asymm (precedes : Precedes number ref other rival) :
    ¬Precedes other rival number ref := by
  unfold Precedes at *
  omega

theorem rangeAround?_eq_some_iff {range : AddressRange} :
    image.rangeAround? ref.unit ref.entry pc = some range ↔
      ∃ ranges, image.rangesOf ref = .ok ranges ∧ FirstAround ranges pc range := by
  unfold rangeAround? rangesOf
  cases ofEntry ref.entry (image.sections.data .ranges) ref.unit.encoding
      ref.unit.baseAddress with
  | ok ranges => simp [find?_eq_some_iff_firstAround]
  | error error => simp

theorem weighs_iff {range : AddressRange} {width : Nat}
    (found : image.rangeAround? ref.unit ref.entry pc = some range) :
    image.Weighs pc ref width ↔ range.low.toNat + width = range.high.toNat := by
  constructor
  · rintro ⟨ranges, other, decoded, first, weight⟩
    have also := rangeAround?_eq_some_iff.mpr ⟨ranges, decoded, first⟩
    cases found.symm.trans also
    exact weight
  · intro weight
    obtain ⟨ranges, decoded, first⟩ := rangeAround?_eq_some_iff.mp found
    exact ⟨ranges, range, decoded, first, weight⟩

/-! ## The covers in order -/

theorem contains_of_rangeAround? {range : AddressRange}
    (found : image.rangeAround? ref.unit ref.entry pc = some range) :
    range.contains pc = true := by
  obtain ⟨ranges, _, before, after, _, contains, _⟩ := rangeAround?_eq_some_iff.mp found
  exact contains

theorem mem_coversIn {unit : CompilationUnit} :
    cover ∈ image.coversIn unit pc ↔ cover.ref.unit = unit ∧
      unit.entry? cover.ref.id = some cover.ref.entry ∧ cover.ref.tag = .subprogram ∧
        image.rangeAround? unit cover.ref.entry pc = some cover.range := by
  unfold coversIn
  rw [List.mem_filterMap]
  constructor
  · rintro ⟨⟨entry, id⟩, numbered, kept⟩
    obtain ⟨tagged, kept⟩ := Option.ite_none_right_eq_some.mp kept
    obtain ⟨range, found, rfl⟩ := Option.map_eq_some_iff.mp kept
    have stored := List.mem_zipIdx_iff_getElem?.mp numbered
    exact ⟨rfl, Array.getElem?_toList.symm.trans stored, tagged, found⟩
  · rcases cover with ⟨⟨_, id, entry⟩, range⟩
    rintro ⟨rfl, stored, tagged, found⟩
    refine ⟨(entry, id), List.mem_zipIdx_iff_getElem?.mpr (Array.getElem?_toList.trans stored), ?_⟩
    have tagged : entry.tag = .subprogram := tagged
    dsimp only at found ⊢
    rw [if_pos tagged, found, Option.map_some]

/-- The covers of an address with the numbers of their units. -/
def numberedCovers (image : Image) (pc : UInt64) : List (Nat × Cover) :=
  (image.units.zipIdx.filter fun (unit, _) => unit.ranges.isEmpty || unit.covers pc).flatMap
    fun (unit, number) => (image.coversIn unit.unit pc).map fun cover => (number, cover)

theorem map_snd_numberedCovers (image : Image) (pc : UInt64) :
    (image.numberedCovers pc).map Prod.snd = image.coversAt pc := by
  have units : image.units = image.units.zipIdx.map Prod.fst := (List.zipIdx_map_fst 0 _).symm
  conv_rhs => rw [coversAt, units, List.filter_map, List.flatMap_map]
  rw [numberedCovers, List.map_flatMap]
  simp only [List.map_map, Function.comp_def, List.map_id']

theorem searched_iff {unit : ImageUnit} :
    (unit.ranges.isEmpty || unit.covers pc) = true ↔
      unit.ranges = [] ∨ AddressRange.Covers unit.ranges pc := by
  rw [Bool.or_eq_true, List.isEmpty_iff, ImageUnit.covers, List.any_eq_true]
  rfl

theorem mem_numberedCovers :
    (number, cover) ∈ image.numberedCovers pc ↔ image.Candidate pc number cover.ref ∧
      image.rangeAround? cover.ref.unit cover.ref.entry pc = some cover.range := by
  unfold numberedCovers
  rw [List.mem_flatMap]
  constructor
  · rintro ⟨⟨unit, place⟩, kept, listed⟩
    obtain ⟨found, member, same⟩ := List.mem_map.mp listed
    cases same
    obtain ⟨numbered, searched⟩ := List.mem_filter.mp kept
    obtain ⟨here, stored, tagged, around⟩ := mem_coversIn.mp member
    rw [← here] at stored around
    obtain ⟨ranges, decoded, first⟩ := rangeAround?_eq_some_iff.mp around
    refine ⟨⟨?_, stored, tagged, ranges, decoded, first.covers⟩, around⟩
    exact ⟨unit, List.mem_zipIdx_iff_getElem?.mp numbered, here.symm, searched_iff.mp searched⟩
  · rintro ⟨candidate, around⟩
    obtain ⟨unit, numbered, here, searched⟩ := candidate.unit
    refine ⟨(unit, number), List.mem_filter.mpr ?_, List.mem_map.mpr ⟨cover, ?_, rfl⟩⟩
    · exact ⟨List.mem_zipIdx_iff_getElem?.mpr numbered, searched_iff.mpr searched⟩
    · rw [mem_coversIn, here]
      exact ⟨rfl, candidate.entry, candidate.subprogram, around⟩

theorem zipIdx_pairwise {α : Type} (items : List α) :
    items.zipIdx.Pairwise fun item later => item.2 < later.2 := by
  refine List.pairwise_iff_getElem.mpr fun first second _ _ before => ?_
  rw [List.getElem_zipIdx, List.getElem_zipIdx]
  exact Nat.add_lt_add_left before 0

theorem coversIn_pairwise (image : Image) (unit : CompilationUnit) (pc : UInt64) :
    (image.coversIn unit pc).Pairwise fun cover later => cover.ref.id < later.ref.id := by
  unfold coversIn
  refine List.pairwise_filterMap.mpr ((zipIdx_pairwise _).imp fun before cover kept later too => ?_)
  obtain ⟨_, kept⟩ := Option.ite_none_right_eq_some.mp kept
  obtain ⟨_, too⟩ := Option.ite_none_right_eq_some.mp too
  obtain ⟨_, _, rfl⟩ := Option.map_eq_some_iff.mp kept
  obtain ⟨_, _, rfl⟩ := Option.map_eq_some_iff.mp too
  exact before

/-- The covers are listed in the order of the units and of the entries in them. -/
theorem numberedCovers_pairwise (image : Image) (pc : UInt64) :
    (image.numberedCovers pc).Pairwise fun cover later =>
      Precedes cover.1 cover.2.ref later.1 later.2.ref := by
  unfold numberedCovers
  rw [List.pairwise_flatMap]
  constructor
  · rintro ⟨unit, number⟩ _
    exact List.pairwise_map.mpr
      ((image.coversIn_pairwise unit.unit pc).imp fun before => .inr ⟨rfl, before⟩)
  · refine ((zipIdx_pairwise _).filter _).imp fun before cover listed later also => ?_
    obtain ⟨_, _, rfl⟩ := List.mem_map.mp listed
    obtain ⟨_, _, rfl⟩ := List.mem_map.mp also
    exact .inl before

/-! ## The search -/

/-- What is kept of the covers that have been seen: nothing if there were none, and otherwise one
than which none is narrower, and none after it as narrow. -/
def Narrowest (seen : List Cover) : Option Cover → Prop
  | none => seen = []
  | some best => ∃ before after, seen = before ++ best :: after ∧
      (∀ earlier ∈ before, best.width ≤ earlier.width) ∧
        ∀ later ∈ after, best.width < later.width

theorem Narrowest.width_le {seen : List Cover} {best : Cover}
    (narrowest : Narrowest seen (some best)) (member : cover ∈ seen) :
    best.width ≤ cover.width := by
  obtain ⟨before, after, rfl, none_before, none_after⟩ := narrowest
  rcases List.mem_append.mp member with earlier | behind
  · exact none_before cover earlier
  · rcases List.mem_cons.mp behind with rfl | later
    · exact UInt64.le_refl _
    · exact UInt64.le_of_lt (none_after cover later)

/-- Another cover takes the place of one that is as narrow, and of one that is wider. -/
theorem Narrowest.step {seen : List Cover} {best : Option Cover} (narrowest : Narrowest seen best)
    (next : Cover) : Narrowest (seen ++ [next]) (narrower best next) := by
  cases best with
  | none =>
      obtain rfl : seen = [] := narrowest
      exact ⟨[], [], rfl, nofun, nofun⟩
  | some best =>
      dsimp only [narrower]
      by_cases replaced : next.width ≤ best.width
      · rw [if_pos replaced]
        refine ⟨seen, [], rfl, fun earlier member => ?_, nofun⟩
        exact UInt64.le_trans replaced (narrowest.width_le member)
      · rw [if_neg replaced]
        obtain ⟨before, after, rfl, none_before, none_after⟩ := narrowest
        refine ⟨before, after ++ [next], by simp, none_before, fun later member => ?_⟩
        rcases List.mem_append.mp member with seen_later | latest
        · exact none_after later seen_later
        · rw [List.mem_singleton.mp latest]
          exact UInt64.not_le.mp replaced

theorem Narrowest.foldl (covers : List Cover) {seen : List Cover} {best : Option Cover}
    (narrowest : Narrowest seen best) :
    Narrowest (seen ++ covers) (covers.foldl narrower best) := by
  induction covers generalizing seen best with
  | nil =>
      rw [List.append_nil]
      exact narrowest
  | cons next covers ih =>
      rw [List.append_cons]
      exact ih (narrowest.step next)

theorem narrowest_coversAt (image : Image) (pc : UInt64) :
    Narrowest (image.coversAt pc) ((image.coversAt pc).foldl narrower none) :=
  @Narrowest.foldl (image.coversAt pc) [] none rfl

theorem weighs_iff_of_mem {width : Nat} (listed : (number, cover) ∈ image.numberedCovers pc) :
    image.Weighs pc cover.ref width ↔ width = cover.width.toNat := by
  have around := (mem_numberedCovers.mp listed).2
  have exact_width := low_add_toNat_sub (contains_of_rangeAround? around)
  rw [weighs_iff around, Cover.width]
  omega

theorem candidate_of_mem_coversAt (member : cover ∈ image.coversAt pc) :
    (∃ number, image.Candidate pc number cover.ref) ∧
      image.Weighs pc cover.ref cover.width.toNat ∧
        cover.range.low.toNat + cover.width.toNat = cover.range.high.toNat := by
  rw [← map_snd_numberedCovers] at member
  obtain ⟨⟨number, _⟩, listed, rfl⟩ := List.mem_map.mp member
  obtain ⟨candidate, around⟩ := mem_numberedCovers.mp listed
  exact ⟨⟨number, candidate⟩, (weighs_iff_of_mem listed).mpr rfl,
    low_add_toNat_sub (contains_of_rangeAround? around)⟩

theorem Candidate.exists_mem (candidate : image.Candidate pc number ref) :
    ∃ range, (number, Cover.mk ref range) ∈ image.numberedCovers pc := by
  obtain ⟨ranges, decoded, covers⟩ := candidate.covers
  obtain ⟨range, first⟩ := exists_firstAround covers
  have around := rangeAround?_eq_some_iff.mpr ⟨ranges, decoded, first⟩
  exact ⟨range, mem_numberedCovers.mpr ⟨candidate, around⟩⟩

theorem Candidate.existsUnique_weight (candidate : image.Candidate pc number ref) :
    ∃! width, image.Weighs pc ref width := by
  obtain ⟨range, listed⟩ := candidate.exists_mem
  exact ⟨_, (weighs_iff_of_mem listed).mpr rfl, fun _ => (weighs_iff_of_mem listed).mp⟩

/-- A cover that is narrowest where it stands in the list of all is the tightest. -/
theorem tightest_of_split {before after : List (Nat × Cover)}
    (split : image.numberedCovers pc = before ++ (number, cover) :: after)
    (none_before : ∀ earlier ∈ before, cover.width ≤ earlier.2.width)
    (none_after : ∀ later ∈ after, cover.width < later.2.width) :
    image.Tightest pc number cover.ref := by
  have listed : (number, cover) ∈ image.numberedCovers pc := by
    rw [split]
    exact List.mem_append_right _ List.mem_cons_self
  have least : ∀ rival ∈ image.numberedCovers pc, cover.width ≤ rival.2.width ∧
      (Precedes number cover.ref rival.1 rival.2.ref → cover.width < rival.2.width) := by
    have order := image.numberedCovers_pairwise pc
    rw [split] at order ⊢
    obtain ⟨_, _, before_others⟩ := List.pairwise_append.mp order
    intro rival member
    rcases List.mem_append.mp member with earlier | behind
    · have precedes := before_others rival earlier _ List.mem_cons_self
      exact ⟨none_before rival earlier, fun follows => absurd follows precedes.asymm⟩
    · rcases List.mem_cons.mp behind with rfl | later
      · exact ⟨UInt64.le_refl _, fun follows => absurd follows Precedes.irrefl⟩
      · have wider := none_after rival later
        exact ⟨UInt64.le_of_lt wider, fun _ => wider⟩
  constructor
  · exact (mem_numberedCovers.mp listed).1
  · intro other rival width rivalWidth candidate weighs rival_weighs
    obtain ⟨range, rival_listed⟩ := candidate.exists_mem
    rw [(weighs_iff_of_mem listed).mp weighs, (weighs_iff_of_mem rival_listed).mp rival_weighs]
    exact UInt64.le_iff_toNat_le.mp (least _ rival_listed).1
  · intro other rival width rivalWidth candidate precedes weighs rival_weighs
    obtain ⟨range, rival_listed⟩ := candidate.exists_mem
    rw [(weighs_iff_of_mem listed).mp weighs, (weighs_iff_of_mem rival_listed).mp rival_weighs]
    exact UInt64.lt_iff_toNat_lt.mp ((least _ rival_listed).2 precedes)

theorem exists_tightest (found : (image.coversAt pc).foldl narrower none = some cover) :
    ∃ number, image.Tightest pc number cover.ref := by
  have narrowest := image.narrowest_coversAt pc
  rw [found] at narrowest
  obtain ⟨before, after, split, none_before, none_after⟩ := narrowest
  rw [← map_snd_numberedCovers] at split
  obtain ⟨earlier, rest, numbered, rfl, behind⟩ := List.map_eq_append_iff.mp split
  obtain ⟨⟨number, _⟩, later, rfl, rfl, rfl⟩ := List.map_eq_cons_iff.mp behind
  refine ⟨number, tightest_of_split numbered ?_ ?_⟩
  · exact fun cover member => none_before _ (List.mem_map_of_mem member)
  · exact fun cover member => none_after _ (List.mem_map_of_mem member)

/-- Two entries that neither precede the other are one. -/
theorem Candidate.eq_or_precedes (candidate : image.Candidate pc number ref)
    (also : image.Candidate pc other rival) :
    ref = rival ∨ Precedes number ref other rival ∨ Precedes other rival number ref := by
  by_cases same : number = other ∧ ref.id = rival.id
  · obtain ⟨rfl, ids⟩ := same
    obtain ⟨_, numbered, here, _⟩ := candidate.unit
    obtain ⟨_, also_numbered, there, _⟩ := also.unit
    cases numbered.symm.trans also_numbered
    have stored := candidate.entry
    rw [← here, ids, there] at stored
    have entries := Option.some.inj (stored.symm.trans also.entry)
    rcases ref with ⟨unit, id, entry⟩
    rcases rival with ⟨other, _, _⟩
    cases here.symm.trans there
    cases ids
    cases entries
    exact .inl rfl
  · refine .inr ?_
    unfold Precedes
    omega

theorem Tightest.unique (tightest : image.Tightest pc number ref)
    (also : image.Tightest pc other rival) : ref = rival := by
  obtain ⟨width, weighs, _⟩ := tightest.candidate.existsUnique_weight
  obtain ⟨rivalWidth, rival_weighs, _⟩ := also.candidate.existsUnique_weight
  rcases tightest.candidate.eq_or_precedes also.candidate with same | before | after
  · exact same
  · have wider := tightest.last _ _ _ _ also.candidate before weighs rival_weighs
    have narrow := also.narrowest _ _ _ _ tightest.candidate rival_weighs weighs
    omega
  · have wider := also.last _ _ _ _ tightest.candidate after rival_weighs weighs
    have narrow := tightest.narrowest _ _ _ _ also.candidate weighs rival_weighs
    omega

theorem subprogramAt?_eq_none_iff :
    image.subprogramAt? pc = none ↔ ∀ number ref, ¬image.Candidate pc number ref := by
  rw [subprogramAt?, Option.map_eq_none_iff]
  constructor
  · intro missing number ref candidate
    have narrowest := image.narrowest_coversAt pc
    rw [missing, ← map_snd_numberedCovers] at narrowest
    obtain ⟨range, listed⟩ := candidate.exists_mem
    rw [List.map_eq_nil_iff.mp narrowest] at listed
    cases listed
  · intro missing
    cases found : (image.coversAt pc).foldl narrower none with
    | none => rfl
    | some cover =>
        obtain ⟨number, tightest⟩ := exists_tightest found
        exact absurd tightest.candidate (missing number cover.ref)

theorem subprogramAt?_eq_some_iff :
    image.subprogramAt? pc = some ref ↔ ∃ number, image.Tightest pc number ref := by
  have sound {answer : EntryRef} (found : image.subprogramAt? pc = some answer) :
      ∃ number, image.Tightest pc number answer := by
    obtain ⟨cover, kept, rfl⟩ := Option.map_eq_some_iff.mp found
    exact exists_tightest kept
  constructor
  · exact sound
  · rintro ⟨number, tightest⟩
    cases found : image.subprogramAt? pc with
    | none => exact absurd tightest.candidate (subprogramAt?_eq_none_iff.mp found number ref)
    | some answer =>
        obtain ⟨_, also⟩ := sound found
        rw [tightest.unique also]

/-! ## Nested subprograms -/

variable {sections : Sections}

theorem Made.exists_decode (made : Made sections image) {unit : ImageUnit}
    (member : unit ∈ image.units) : ∃ table,
      CompilationUnit.decode (sections.data .info) unit.unit.header table sections.order =
        .ok unit.unit := by
  obtain ⟨visit, _, decoded⟩ := made.exists_visit (List.mem_map_of_mem member)
  obtain ⟨table, _, _, entries⟩ := unitAt_eq_ok_iff.mp decoded
  exact ⟨table, entries⟩

/-- The subprogram that an image finds around an address: there is one unless nothing is a
candidate, and it is the tightest. -/
structure FindsTightest (image : Image) (pc : UInt64) : Prop where
  none_iff : image.subprogramAt? pc = none ↔ ∀ number ref, ¬image.Candidate pc number ref
  some_iff : ∀ ref, image.subprogramAt? pc = some ref ↔ ∃ number, image.Tightest pc number ref
  weight : ∀ number ref, image.Candidate pc number ref → ∃! width, image.Weighs pc ref width
  /-- No difference that is computed is negative. -/
  width_exact : ∀ cover ∈ image.coversAt pc,
    cover.range.low.toNat + cover.width.toNat = cover.range.high.toNat

/-- What the order of the entries means for the subprograms around an address. -/
structure FindsInnermost (image : Image) (pc : UInt64) : Prop where
  /-- A candidate is the entry that is found at its offset. -/
  entry? : ∀ number ref, image.Candidate pc number ref → image.entry? ref.offset = some ref
  /-- The number of an entry is its place in pre-order. -/
  preorder_eq : ∀ unit ∈ image.units, unit.unit.preorder = unit.unit.entries.toList
  /-- A nested subprogram that is not wider is preferred to the one around it. -/
  nested : ∀ number inner outer width outerWidth, image.Candidate pc number inner →
    inner.Below outer → image.Weighs pc inner width → image.Weighs pc outer outerWidth →
      width ≤ outerWidth → image.subprogramAt? pc ≠ some outer

theorem findsTightest (image : Image) (pc : UInt64) : image.FindsTightest pc where
  none_iff := subprogramAt?_eq_none_iff
  some_iff _ := subprogramAt?_eq_some_iff
  weight _ _ candidate := candidate.existsUnique_weight
  width_exact _ member := (candidate_of_mem_coversAt member).2.2

theorem Made.findsInnermost (made : Made sections image) (pc : UInt64) :
    image.FindsInnermost pc := by
  constructor
  · intro number ref candidate
    obtain ⟨unit, numbered, here, _⟩ := candidate.unit
    refine made.separate.entry?_eq_some_iff.mpr ⟨⟨?_, candidate.entry⟩, rfl⟩
    rw [← here]
    exact List.mem_map_of_mem (List.mem_of_getElem? numbered)
  · intro unit member
    obtain ⟨table, decoded⟩ := made.exists_decode member
    obtain ⟨tree, _, same⟩ := CompilationUnit.decode_eq_ok_iff.mp decoded
    exact CompilationUnit.walk_arena (congrArg CompilationUnit.entries same) (Nat.le_refl _)
  · intro number inner outer width outerWidth candidate below weighs outer_weighs narrow found
    obtain ⟨place, tightest⟩ := subprogramAt?_eq_some_iff.mp found
    obtain ⟨unit, numbered, here, searched⟩ := tightest.candidate.unit
    obtain ⟨home, home_numbered, there, _⟩ := candidate.unit
    obtain ⟨table, decoded⟩ := made.exists_decode (List.mem_of_getElem? home_numbered)
    obtain ⟨_, linked, _⟩ := CompilationUnit.decode_arranged decoded
    rw [there] at linked
    obtain ⟨same, _, before⟩ := below.lt linked candidate.entry
    have also : image.Candidate pc place inner :=
      { candidate with unit := ⟨unit, numbered, here.trans same, searched⟩ }
    have wider := tightest.last _ _ _ _ also (.inr ⟨rfl, before⟩) outer_weighs weighs
    omega

/-- The subprogram that is found around an address is a tightest one, of equally tight ones the last
in the order of the units and of the entries in them, and so the innermost of nested ones. -/
theorem subprogramAt_tightest (image : Image) (pc : UInt64) :
    image.FindsTightest pc ∧
      ∀ sections settings, load sections settings = .ok image → image.FindsInnermost pc :=
  ⟨image.findsTightest pc, fun _ _ loaded => (made_of_load loaded).findsInnermost pc⟩

/-- A subprogram with one below it that lists its addresses.  The list begins with a range that
wraps around, and goes on with the range of the outer one. -/
def nestedSubprograms : Sections :=
  ⟨.little,
    [(.abbreviations, ⟨[1, 0x11, 1, 0, 0, 2, 0x2e, 1, 0x11, 0x01, 0x12, 0x0b, 0, 0,
        3, 0x2e, 0, 0x55, 0x17, 0, 0, 0], 0⟩),
      (.info, ⟨[21, 0, 0, 0, 4, 0, 0, 0, 0, 0, 4, 1, 2, 0x10, 0, 0, 0, 0x10, 3, 0, 0, 0, 0,
        0, 0], 0⟩),
      (.ranges, ⟨[0xff, 0xff, 0xff, 0xff, 0x00, 0xff, 0xff, 0xff, 0x80, 0, 0, 0, 0x80, 1, 0, 0,
        0x10, 1, 0, 0, 0x20, 1, 0, 0, 0, 0, 0, 0, 0, 0, 0, 0], 0⟩)]⟩

/-- The unit of both. -/
def nestedCode : CompilationUnit where
  header := ⟨0, 21, 4, 0, 4, 4, 11⟩
  order := .little
  abbreviations := ⟨[⟨1, .compileUnit, true, []⟩,
    ⟨2, .subprogram, true, [⟨.lowPc, .addr⟩, ⟨.highPc, .data1⟩]⟩,
    ⟨3, .subprogram, false, [⟨.ranges, .secOffset⟩]⟩]⟩
  entries := #[⟨11, .compileUnit, true, [], none, #[1]⟩,
    ⟨12, .subprogram, true, [⟨.lowPc, .addr, .address 0x10⟩, ⟨.highPc, .data1, .unsigned 0x10⟩],
      some 0, #[2]⟩,
    ⟨18, .subprogram, false, [⟨.ranges, .secOffset, .sectionOffset 0⟩], some 1, #[]⟩]

def outerCode : EntryRef := ⟨nestedCode, 1, nestedCode.entries[1]⟩

def innerCode : EntryRef := ⟨nestedCode, 2, nestedCode.entries[2]⟩

theorem nestedSubprograms_tightest :
    ∃ image, load nestedSubprograms {} = .ok image ∧
      image.rangesOf innerCode = .ok [⟨0xffffff80, 0x80⟩, ⟨0x10, 0x20⟩] ∧
      image.Weighs 0x18 outerCode 16 ∧ image.Weighs 0x18 innerCode 16 ∧
      image.subprogramAt? 0x18 = some innerCode ∧ image.subprogramAt? 0x18 ≠ some outerCode ∧
      ∃ number, image.Tightest 0x18 number innerCode := by
  have facts : (load nestedSubprograms {}).map (fun image =>
      (image.coversAt 0x18, image.subprogramAt? 0x18, image.rangesOf innerCode)) =
      .ok ([⟨outerCode, 0x10, 0x20⟩, ⟨innerCode, 0x10, 0x20⟩], some innerCode,
        .ok [⟨0xffffff80, 0x80⟩, ⟨0x10, 0x20⟩]) := by
    decide +kernel
  obtain ⟨image, loaded, answers⟩ := map_eq_ok_iff.mp facts
  obtain ⟨covers, answers⟩ := Prod.mk.inj answers
  obtain ⟨found, decoded⟩ := Prod.mk.inj answers
  have outer_listed : Cover.mk outerCode ⟨0x10, 0x20⟩ ∈ image.coversAt 0x18 := by
    rw [covers]
    exact List.mem_cons_self
  have inner_listed : Cover.mk innerCode ⟨0x10, 0x20⟩ ∈ image.coversAt 0x18 := by
    rw [covers]
    exact List.mem_cons_of_mem _ List.mem_cons_self
  obtain ⟨_, outer_weighs, _⟩ := candidate_of_mem_coversAt outer_listed
  obtain ⟨⟨number, inner⟩, inner_weighs, _⟩ := candidate_of_mem_coversAt inner_listed
  obtain ⟨tightest, innermost⟩ := subprogramAt_tightest image 0x18
  have below : innerCode.Below outerCode := .single rfl
  have nested := (innermost nestedSubprograms {} loaded).nested number innerCode outerCode _ _ inner
    below inner_weighs outer_weighs (Nat.le_refl _)
  exact ⟨image, loaded, decoded, outer_weighs, inner_weighs, found, nested,
    (tightest.some_iff innerCode).mp found⟩

end Image

end Dwarf
