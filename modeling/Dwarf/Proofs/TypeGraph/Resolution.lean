import Mathlib.Data.List.Perm.Subperm
import Dwarf.Proofs.TypeGraph.Node
import Dwarf.Proofs.TypeGraph.Rollback

/-!
# Resolving types

While an entry is being built, its offset is pending; all other known entries are settled, so the
entries that are known once nothing is pending are closed under references and none of them is
defective.  A failure has one of two reasons: a defective entry can be reached, or more entries are
nested than a narrow root can reach.
-/

namespace Dwarf

namespace TypeSource

open Resolving

variable {source : TypeSource}

/-- A graph in which the entries at some offsets are being built. -/
structure Explored (source : TypeSource) (pending : List Nat) (graph : TypeGraph) : Prop where
  settled : ∀ {offset}, graph.Knows offset →
    ∃ entry, source.units.entry? offset = some entry ∧
      (offset ∈ pending ∨ source.Settles entry graph)
  pending : ∀ offset ∈ pending, graph.Knows offset
  failed : ∀ {offset}, graph.Fails offset → source.Narrow offset → source.Broken offset

/-- The pending entries lie on a path from a narrow root, with `count` references to go. -/
structure Nested (source : TypeSource) (root : Nat) (pending : List Nat) (count : Nat) :
    Prop where
  narrow : source.Narrow root
  reached : ∀ offset ∈ pending, source.Reaches root offset
  distinct : pending.Nodup
  deep : maxNesting ≤ pending.length + count

/-- An entry below narrow roots fails only if a defective entry can be reached from it. -/
def Excused (source : TypeSource) (pending : List Nat) (count offset : Nat) : Prop :=
  ∀ root, source.Nested root pending count → source.Reaches root offset →
    (source.units.entry? offset).isSome = true → source.Broken offset

/-! ## Nesting -/

/-- More entries than a narrow root can reach are not nested below it. -/
theorem Nested.count_ne_zero {root offset : Nat} {pending : List Nat}
    (nested : source.Nested root pending 0) (reaches : source.Reaches root offset)
    (fresh : offset ∉ pending) : False := by
  obtain ⟨reached, short, complete⟩ := nested.narrow
  have distinct : (offset :: pending).Nodup := List.nodup_cons.mpr ⟨fresh, nested.distinct⟩
  have among : offset :: pending ⊆ reached := by
    intro other member
    cases member with
    | head => exact complete offset reaches
    | tail _ later => exact complete other (nested.reached other later)
  have length := (List.subperm_of_subset distinct among).length_le
  have deep := nested.deep
  rw [List.length_cons] at length
  omega

theorem Nested.cons {root offset count : Nat} {pending : List Nat}
    (nested : source.Nested root pending (count + 1)) (reaches : source.Reaches root offset)
    (fresh : offset ∉ pending) : source.Nested root (offset :: pending) count where
  narrow := nested.narrow
  reached := List.forall_mem_cons.mpr ⟨reaches, nested.reached⟩
  distinct := List.nodup_cons.mpr ⟨fresh, nested.distinct⟩
  deep := by
    have deep := nested.deep
    rw [List.length_cons]
    omega

theorem Excused.of_cons {offset target count : Nat} {pending : List Nat}
    (fresh : offset ∉ pending) (follows : source.Follows offset target)
    (excused : source.Excused (offset :: pending) count target) :
    source.Excused pending (count + 1) offset := by
  intro root nested reaches found
  have below := excused root (nested.cons reaches fresh) (reaches.tail follows) follows.found
  exact below.head follows

/-! ## Pending entries -/

theorem Explored.reserve {pending : List Nat} {graph : TypeGraph} {offset : Nat}
    {entry : EntryRef} (explored : source.Explored pending graph)
    (found : source.units.entry? offset = some entry) :
    source.Explored (offset :: pending) (graph.reserve offset) where
  settled := by
    intro other known
    obtain rfl | known := TypeGraph.knows_reserve.mp known
    · exact ⟨entry, found, .inl List.mem_cons_self⟩
    · obtain ⟨known_entry, known_found, state⟩ := explored.settled known
      refine ⟨known_entry, known_found, ?_⟩
      cases state with
      | inl member => exact .inl (List.mem_cons_of_mem _ member)
      | inr settles => exact .inr (settles.extend (TypeGraph.extends_reserve graph offset))
  pending := by
    intro other member
    rw [TypeGraph.knows_reserve]
    cases member with
    | head => exact .inl rfl
    | tail _ later => exact .inr (explored.pending other later)
  failed := explored.failed

/-- An entry is no longer pending once it is settled. -/
theorem Explored.fill {pending : List Nat} {graph : TypeGraph} {offset : Nat} {entry : EntryRef}
    (explored : source.Explored (offset :: pending) graph)
    (found : source.units.entry? offset = some entry) (settles : source.Settles entry graph)
    (id : TypeId) (node : TypeNode) : source.Explored pending (graph.fill id node) where
  settled := by
    intro other known
    obtain ⟨known_entry, known_found, state⟩ := explored.settled known
    have extended := TypeGraph.extends_fill graph id node
    refine ⟨known_entry, known_found, ?_⟩
    obtain member | settled := state
    · cases member with
      | head =>
          rw [found] at known_found
          cases known_found
          exact .inr (settles.extend extended)
      | tail _ later => exact .inl later
    · exact .inr (settled.extend extended)
  pending := fun other member => explored.pending other (List.mem_cons_of_mem _ member)
  failed := explored.failed

/-! ## Resolving an entry -/

/-- A new entry is settled by building its node, or its failure has a reason. -/
theorem explore_outcome {pending : List Nat} {count offset : Nat} {entry : EntryRef}
    {graph : TypeGraph} (found : source.units.entry? offset = some entry)
    (explored : source.Explored pending graph) (fresh : ¬graph.Knows offset)
    (resolved : ∀ {origin target}, ∀ fewer < count, Meets (source.Explored (offset :: pending))
      (source.Excused (offset :: pending) fewer target) (fun later => later.Knows target)
      (source.resolve fewer origin target)) :
    Outcome (source.Explored pending) (source.Excused pending count offset)
      (fun later => later.Knows offset) graph (source.explore offset entry count graph) := by
  have outside : offset ∉ pending := fun member => fresh (explored.pending offset member)
  cases count with
  | zero =>
      refine .error fun root nested reaches _ => ?_
      exact (nested.count_ne_zero reaches outside).elim
  | succ count =>
      have defect : source.Defective entry → source.Excused pending (count + 1) offset :=
        fun defective root _ _ _ => ⟨offset, entry, .refl, found, defective⟩
      have resolves : source.Resolves (source.resolve count) entry
          (source.Explored (offset :: pending)) (source.Excused pending (count + 1) offset) := by
        refine ⟨fun {referrer target} refers reference => ?_, defect⟩
        refine (resolved count (Nat.lt_succ_self count)).because fun excused => ?_
        cases target_found : source.units.entry? target with
        | none => exact defect (.target refers reference target_found)
        | some other =>
            refine excused.of_cons outside ⟨entry, referrer, found, refers, reference, ?_⟩
            rw [target_found]
            rfl
      have built := nodeOf_meets resolves (graph.reserve offset) (explored.reserve found)
      simp only [explore]
      generalize source.nodeOf (source.resolve count) entry (graph.reserve offset) = result
        at built ⊢
      cases built with
      | error reason => exact .error reason
      | @ok node later kept extended known =>
          have settles := known later (.refl later)
          have extended_fill := TypeGraph.extends_fill later graph.size node
          refine .ok (kept.fill found settles graph.size node)
            ((extended_fill.trans extended).trans (TypeGraph.extends_reserve graph offset)) ?_
          intro last onward
          exact onward.knows (extended_fill.knows (kept.pending offset List.mem_cons_self))

/-- Resolving an entry keeps the invariant and makes the entry known, or fails for a reason. -/
theorem resolve_meets (count : Nat) {pending : List Nat} (origin offset : Nat) :
    Meets (source.Explored pending) (source.Excused pending count offset)
      (fun graph => graph.Knows offset) (source.resolve count origin offset) := by
  induction count using Nat.strongRecOn generalizing pending origin offset with
  | ind count ih =>
      intro graph explored
      rw [resolve_at]
      cases known : graph.idAt? offset with
      | some id => exact .ok explored (.refl graph) fun last onward => onward.knows ⟨id, known⟩
      | none =>
          cases failed : graph.failureAt? offset with
          | some error =>
              refine .error fun root nested reaches _ => ?_
              exact explored.failed ⟨error, failed⟩ (nested.narrow.of_reaches reaches)
          | none =>
              cases found : source.units.entry? offset with
              | none =>
                  refine .error fun root nested reaches present => ?_
                  rw [found] at present
                  cases present
              | some entry =>
                  exact explore_outcome found explored (TypeGraph.not_knows_iff.mpr known)
                    fun fewer less => ih fewer less _ _

/-! ## Known entries -/

theorem Settles.not_defective {entry : EntryRef} {graph : TypeGraph}
    (settles : source.Settles entry graph)
    (stored : ∀ {offset}, graph.Knows offset → source.units.entry? offset ≠ none) :
    ¬source.Defective entry := by
  intro defective
  cases defective with
  | tag shapeless => exact settles.shaped shapeless
  | reference refers present unusable =>
      obtain absent | ⟨target, reference, _⟩ := settles.referred refers
      · exact present absent
      · rw [unusable] at reference
        cases reference
  | target refers reference missing =>
      exact stored ((settles.referred refers).knows reference) missing
  | placement shape below unplaced present =>
      obtain placed | isVirtual := settles.placed _ below shape
      · exact unplaced placed
      · exact present isVirtual

/-- Once nothing is pending, what a known entry reaches is known. -/
theorem Explored.knows_of_reaches {graph : TypeGraph} (explored : source.Explored [] graph)
    {offset target : Nat} (known : graph.Knows offset) (reaches : source.Reaches offset target) :
    graph.Knows target := by
  induction reaches with
  | refl => exact known
  | @tail middle target _ follows ih =>
      obtain ⟨entry, found, state⟩ := explored.settled ih
      obtain ⟨same, referrer, same_found, refers, reference, _⟩ := follows
      rw [found] at same_found
      cases same_found
      obtain member | settles := state
      · cases member
      · exact (settles.referred refers).knows reference

/-- Once nothing is pending, no defective entry can be reached from a known one. -/
theorem Explored.not_broken {graph : TypeGraph} (explored : source.Explored [] graph)
    {offset : Nat} (known : graph.Knows offset) : ¬source.Broken offset := by
  rintro ⟨reached, entry, reaches, found, defective⟩
  obtain ⟨same, same_found, state⟩ :=
    explored.settled (explored.knows_of_reaches known reaches)
  rw [found] at same_found
  cases same_found
  obtain member | settles := state
  · cases member
  · refine settles.not_defective (fun known missing => ?_) defective
    obtain ⟨other, other_found, _⟩ := explored.settled known
    rw [missing] at other_found
    cases other_found

/-! ## Roots -/

theorem explored_empty : source.Explored [] .empty where
  settled := by
    rintro offset ⟨id, same⟩
    cases same
  pending := by
    intro offset member
    cases member
  failed := by
    rintro offset ⟨error, same⟩
    cases same

theorem Explored.fail {graph : TypeGraph} {offset : Nat} (explored : source.Explored [] graph)
    (reason : source.Narrow offset → source.Broken offset) (error : Error) :
    source.Explored [] (graph.fail offset error) where
  settled := by
    intro other known
    obtain ⟨entry, found, state⟩ := explored.settled known
    refine ⟨entry, found, state.imp_right fun settles => ?_⟩
    exact settles.extend (TypeGraph.extends_fail graph offset error)
  pending := explored.pending
  failed := by
    intro other failed narrow
    obtain rfl | failed := TypeGraph.fails_fail.mp failed
    · exact reason narrow
    · exact explored.failed failed narrow

/-- A root is known in the end or has failed for a reason; what was known before still is. -/
theorem addRoot_explored {graph : TypeGraph} {offset : Nat} (explored : source.Explored [] graph)
    (found : (source.units.entry? offset).isSome = true) :
    source.Explored [] (source.addRoot graph offset) ∧
      (source.addRoot graph offset).Extends graph ∧
        ((source.addRoot graph offset).Knows offset ∨
          (source.addRoot graph offset).Fails offset) := by
  unfold addRoot
  split
  next decided =>
    refine ⟨explored, .refl graph, ?_⟩
    rw [Bool.or_eq_true, Option.isSome_iff_exists, Option.isSome_iff_exists] at decided
    exact decided
  next undecided =>
    have outcome := resolve_meets maxNesting offset offset graph explored
    generalize source.resolve maxNesting offset offset graph = result at outcome ⊢
    cases outcome with
    | @ok id later kept extended known => exact ⟨kept, extended, .inl (known later (.refl later))⟩
    | @error error excused =>
        have reason (narrow : source.Narrow offset) : source.Broken offset := by
          refine excused offset ⟨narrow, ?_, .nil, ?_⟩ .refl found
          · intro other member
            cases member
          · exact Nat.le_add_left _ _
        refine ⟨explored.fail reason error, TypeGraph.extends_fail graph offset error, .inr ?_⟩
        exact TypeGraph.fails_fail.mpr (.inl rfl)

theorem addRoots_explored {offsets : List Nat} {graph : TypeGraph}
    (explored : source.Explored [] graph)
    (found : ∀ offset ∈ offsets, (source.units.entry? offset).isSome = true) :
    source.Explored [] (offsets.foldl source.addRoot graph) ∧
      (offsets.foldl source.addRoot graph).Extends graph ∧
        ∀ offset ∈ offsets, (offsets.foldl source.addRoot graph).Knows offset ∨
          (offsets.foldl source.addRoot graph).Fails offset := by
  induction offsets generalizing graph with
  | nil => exact ⟨explored, .refl graph, fun offset member => nomatch member⟩
  | cons offset offsets ih =>
      obtain ⟨found_first, found_rest⟩ := List.forall_mem_cons.mp found
      obtain ⟨added, extended, decided⟩ := addRoot_explored explored found_first
      obtain ⟨last, extended_last, decided_last⟩ := ih added found_rest
      refine ⟨last, extended_last.trans extended, List.forall_mem_cons.mpr ⟨?_, decided_last⟩⟩
      exact decided.imp extended_last.knows extended_last.fails

/-- The offset of every entry that describes a type names an entry. -/
theorem entry?_of_typeOffsets {offset : Nat} (root : offset ∈ source.typeOffsets) :
    (source.units.entry? offset).isSome = true := by
  unfold typeOffsets at root
  obtain ⟨unit, listed, stored⟩ := List.mem_flatMap.mp root
  obtain ⟨entry, member, rfl⟩ := List.mem_map.mp stored
  have present : entry ∈ unit.entries := Array.mem_toList_iff.mp (List.mem_filter.mp member).1
  have numbered : (unit.idAt? entry.offset).isSome = true := by
    rw [CompilationUnit.idAt?, Array.findIdx?_isSome, Array.any_eq_true']
    exact ⟨entry, present, beq_self_eq_true _⟩
  obtain ⟨id, number⟩ := Option.isSome_iff_exists.mp numbered
  have within : id < unit.entries.size := (Array.findIdx?_eq_some_iff_getElem.mp number).1
  rw [UnitSet.entry?, List.findSome?_isSome_iff]
  refine ⟨unit, listed, ?_⟩
  rw [number, Option.bind_some, CompilationUnit.entry?, Array.getElem?_eq_getElem within]
  rfl

end TypeSource

namespace TypeGraph

theorem lookup_eq_ok_iff {graph : TypeGraph} {offset : Nat} :
    (∃ id, graph.lookup offset = .ok id) ↔ graph.Knows offset := by
  unfold lookup Knows
  cases graph.idAt? offset with
  | none => simp
  | some id => simp

end TypeGraph

namespace TypeSource

theorem not_broken_of_build (source : TypeSource) {offset : Nat}
    (known : source.build.Knows offset) : ¬source.Broken offset := by
  obtain ⟨explored, _⟩ := addRoots_explored (@explored_empty source)
    fun offset member => entry?_of_typeOffsets member
  rw [build_eq] at known
  exact explored.not_broken known

/-- A type has a node exactly when no defective entry can be reached from it. -/
theorem lookup_build_iff (source : TypeSource) {unit : CompilationUnit} {entry : Entry}
    (listed : unit ∈ source.units.units) (stored : entry ∈ unit.entries)
    (type : entry.tag.isType = true)
    (narrow : ∃ reached : List Nat, reached.length ≤ 128 ∧
      ∀ other, source.Reaches entry.offset other → other ∈ reached) :
    (∃ id, source.build.lookup entry.offset = .ok id) ↔
      ¬∃ reached found, source.Reaches entry.offset reached ∧
        source.units.entry? reached = some found ∧ source.Defective found := by
  have root : entry.offset ∈ source.typeOffsets := by
    refine List.mem_flatMap.mpr ⟨unit, listed, List.mem_map.mpr ⟨entry, ?_, rfl⟩⟩
    exact List.mem_filter.mpr ⟨Array.mem_toList_iff.mpr stored, type⟩
  have begun : source.Explored [] .empty := explored_empty
  obtain ⟨explored, _, decided⟩ :=
    addRoots_explored begun fun offset member => entry?_of_typeOffsets member
  rw [TypeGraph.lookup_eq_ok_iff, build_eq]
  constructor
  · exact explored.not_broken
  · intro sound
    obtain known | failed := decided entry.offset root
    · exact known
    · exact absurd (explored.failed failed narrow) sound

/-- A structure and a pointer to it, which is its only member. -/
def cyclicUnit : CompilationUnit where
  header := ⟨0, 17, 4, 0, 8, 4, 11⟩
  order := .little
  abbreviations := ⟨[]⟩
  entries :=
    #[⟨11, .structureType, true, [], none, #[1, 2]⟩,
      ⟨12, .member, false, [⟨.type, ⟨0x13⟩, .unitReference 13⟩], some 0, #[]⟩,
      ⟨13, .pointerType, false, [⟨.type, ⟨0x13⟩, .unitReference 11⟩], some 0, #[]⟩]

def cyclicSource : TypeSource :=
  { units := ⟨[cyclicUnit]⟩, sections := default, settings := default }

theorem cyclicSource_reaches {other : Nat} (reaches : cyclicSource.Reaches 11 other) :
    other ∈ [11, 13] := by
  induction reaches with
  | refl => exact List.mem_cons_self
  | @tail middle target _ follows ih =>
      obtain ⟨entry, referrer, found, refers, reference, _⟩ := follows
      rw [List.mem_cons, List.mem_singleton] at ih
      obtain rfl | rfl := ih
      · have root : cyclicSource.units.entry? 11 = some ⟨cyclicUnit, 0, cyclicUnit.entries[0]⟩ := by
          decide +kernel
        cases root.symm.trans found
        cases refers with
        | own shape => cases shape <;> contradiction
        | parameter shape => contradiction
        | member _ below _ =>
            have only : EntryRef.memberEntries ⟨cyclicUnit, 0, cyclicUnit.entries[0]⟩ =
                [⟨cyclicUnit, 1, cyclicUnit.entries[1]⟩] := by
              decide +kernel
            rw [only, List.mem_singleton] at below
            subst below
            cases reference
            decide
      · have pointer : cyclicSource.units.entry? 13 =
            some ⟨cyclicUnit, 2, cyclicUnit.entries[2]⟩ := by
          decide +kernel
        cases pointer.symm.trans found
        cases refers with
        | own shape =>
            cases reference
            decide
        | parameter shape => contradiction
        | member shape => contradiction

theorem cyclicSource_resolves :
    ¬∃ reached found, cyclicSource.Reaches 11 reached ∧
      cyclicSource.units.entry? reached = some found ∧ cyclicSource.Defective found := by
  have stored : cyclicUnit.entries[0] ∈ cyclicUnit.entries := Array.getElem_mem _
  have narrow : ∃ reached : List Nat, reached.length ≤ 128 ∧
      ∀ other, cyclicSource.Reaches 11 other → other ∈ reached :=
    ⟨[11, 13], by decide, fun _ reaches => cyclicSource_reaches reaches⟩
  exact (lookup_build_iff cyclicSource (.head _) stored rfl narrow).mp ⟨1, by decide +kernel⟩

end TypeSource

end Dwarf
