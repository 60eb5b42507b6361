import Dwarf.Proofs.TypeGraph.Mirror
import Dwarf.Proofs.TypeGraph.Resolution

/-!
# Numbers and places

The numbers of a graph are given out one after the other, each to one entry.  While an entry is
pending its place holds no node yet; every other place mirrors its entry.  Resolving an entry keeps
this, however deep it recurses and whichever pending entries it meets again.  A failed exploration
is dropped with all it has numbered, so adding a root keeps it too, with nothing pending.
-/

namespace Dwarf

/-- Numbers in the order in which they are given out, the latest first. -/
inductive Numbered : List (Nat × TypeId) → Prop where
  | nil : Numbered []
  | cons {offset : Nat} {given : List (Nat × TypeId)} (earlier : Numbered given)
      (fresh : given.lookup offset = none) : Numbered ((offset, given.length + 1) :: given)

namespace Numbered

variable {given : List (Nat × TypeId)}

theorem bound (numbered : Numbered given) {offset : Nat} {id : TypeId}
    (known : given.lookup offset = some id) : 0 < id ∧ id ≤ given.length := by
  induction numbered with
  | nil => cases known
  | @cons first given _ _ ih =>
      rw [lookup_cons_if] at known
      rw [List.length_cons]
      split at known
      next => cases known; exact ⟨Nat.succ_pos _, Nat.le_refl _⟩
      next => exact ⟨(ih known).1, Nat.le_succ_of_le (ih known).2⟩

theorem injective (numbered : Numbered given) {first second : Nat} {id : TypeId}
    (left : given.lookup first = some id) (right : given.lookup second = some id) :
    first = second := by
  induction numbered with
  | nil => cases left
  | @cons offset given earlier _ ih =>
      rw [lookup_cons_if] at left right
      split at left <;> split at right
      next same_left same_right => exact same_left.trans same_right.symm
      next => cases left; exact absurd (earlier.bound right).2 (Nat.not_succ_le_self _)
      next => cases right; exact absurd (earlier.bound left).2 (Nat.not_succ_le_self _)
      next => exact ih left right

theorem exists_of_le (numbered : Numbered given) {id : TypeId} (positive : 0 < id)
    (within : id ≤ given.length) : ∃ offset, given.lookup offset = some id := by
  induction numbered with
  | nil => exact absurd within (Nat.not_le_of_lt positive)
  | @cons offset given earlier fresh ih =>
      obtain rfl | below := Nat.eq_or_lt_of_le within
      · exact ⟨offset, by rw [lookup_cons_if, if_pos rfl]; rfl⟩
      · obtain ⟨other, known⟩ := ih (Nat.le_of_lt_succ below)
        refine ⟨other, ?_⟩
        rw [lookup_cons_if, if_neg, known]
        rintro rfl
        rw [fresh] at known
        cases known

theorem mem_offsets (numbered : Numbered given) (offset : Nat) :
    offset ∈ given.map Prod.fst ↔ ∃ id, given.lookup offset = some id := by
  induction numbered with
  | nil => simp
  | @cons first given _ _ ih =>
      rw [List.map_cons, List.mem_cons, ih, lookup_cons_if]
      by_cases same : offset = first
      · simp [same]
      · simp [same]

theorem nodup_offsets (numbered : Numbered given) : (given.map Prod.fst).Nodup := by
  induction numbered with
  | nil => exact List.nodup_nil
  | @cons offset given earlier fresh ih =>
      refine List.nodup_cons.mpr ⟨fun member => ?_, ih⟩
      obtain ⟨id, known⟩ := (earlier.mem_offsets offset).mp member
      rw [fresh] at known
      cases known

end Numbered

namespace TypeSource

open Resolving

variable {source : TypeSource}

/-- A graph in which the entries at some offsets are being built. -/
structure Consistent (source : TypeSource) (pending : List Nat) (graph : TypeGraph) : Prop where
  void : graph.nodes[0]? = some ⟨none, none, .void⟩
  numbered : Numbered graph.byOffset
  size : graph.size = graph.byOffset.length + 1
  unfailed : ∀ {offset}, graph.Knows offset → ¬graph.Fails offset
  known : ∀ {offset id}, graph.idAt? offset = some id →
    ∃ entry, source.units.entry? offset = some entry ∧
      (offset ∈ pending ∨ source.Mirrors graph entry (graph.node id))

namespace Consistent

variable {pending : List Nat} {graph : TypeGraph}

theorem bound (consistent : source.Consistent pending graph) {offset : Nat} {id : TypeId}
    (known : graph.idAt? offset = some id) : 0 < id ∧ id < graph.size := by
  have bound := consistent.numbered.bound known
  exact ⟨bound.1, consistent.size ▸ Nat.lt_succ_of_le bound.2⟩

theorem node_void (consistent : source.Consistent pending graph) :
    graph.node TypeGraph.void = ⟨none, none, .void⟩ := by
  rw [TypeGraph.node, TypeGraph.void, consistent.void, Option.getD_some]

theorem injective (consistent : source.Consistent pending graph) {first second : Nat}
    {id : TypeId} (left : graph.idAt? first = some id) (right : graph.idAt? second = some id) :
    first = second :=
  consistent.numbered.injective left right

theorem empty : source.Consistent [] .empty where
  void := rfl
  numbered := .nil
  size := rfl
  unfailed := by
    rintro offset ⟨id, known⟩
    cases known
  known := by
    intro offset id known
    cases known

/-- A place is kept for an entry that has none. -/
theorem reserve (consistent : source.Consistent pending graph) {offset : Nat} {entry : EntryRef}
    (found : source.units.entry? offset = some entry) (fresh : graph.idAt? offset = none)
    (unfailed : graph.failureAt? offset = none) :
    source.Consistent (offset :: pending) (graph.reserve offset) := by
  have grows := TypeGraph.grows_reserve fresh
  have positive : 0 < graph.size := consistent.size ▸ Nat.succ_pos _
  exact
    { void := (grows.nodes positive).trans consistent.void
      numbered := by
        have next : graph.nodes.size = graph.byOffset.length + 1 := consistent.size
        simp only [TypeGraph.reserve, next]
        exact .cons consistent.numbered fresh
      size := by
        have next : graph.nodes.size = graph.byOffset.length + 1 := consistent.size
        simp [TypeGraph.reserve, TypeGraph.size, next]
      unfailed := by
        intro other known failed
        obtain rfl | known := TypeGraph.knows_reserve.mp known
        · obtain ⟨error, same⟩ := failed
          exact absurd (unfailed.symm.trans same) (by simp)
        · exact consistent.unfailed known failed
      known := by
        intro other id known
        rw [TypeGraph.idAt?_reserve] at known
        split at known
        next same => exact ⟨entry, same ▸ found, .inl (same ▸ List.mem_cons_self)⟩
        next =>
          obtain ⟨other_entry, other_found, state⟩ := consistent.known known
          refine ⟨other_entry, other_found, state.imp (List.mem_cons_of_mem _) fun mirrors => ?_⟩
          rw [grows.node (consistent.bound known).2]
          exact mirrors.keep grows.idAt? }

/-- The place of a pending entry is filled with a node that mirrors it. -/
theorem fill {offset : Nat} {id : TypeId} {entry : EntryRef} {node : TypeNode}
    (consistent : source.Consistent (offset :: pending) graph)
    (found : source.units.entry? offset = some entry) (number : graph.idAt? offset = some id)
    (mirrors : source.Mirrors graph entry node) :
    source.Consistent pending (graph.fill id node) := by
  have bound := consistent.bound number
  have differs : id ≠ TypeGraph.void := Nat.ne_of_gt bound.1
  exact
    { void := (Array.getElem?_setIfInBounds_ne differs).trans consistent.void
      numbered := consistent.numbered
      size := by simpa [TypeGraph.fill, TypeGraph.size] using consistent.size
      unfailed := consistent.unfailed
      known := by
        intro other number_other known
        obtain ⟨other_entry, other_found, state⟩ := consistent.known known
        refine ⟨other_entry, other_found, ?_⟩
        by_cases same : other = offset
        · subst same
          cases number.symm.trans known
          cases found.symm.trans other_found
          rw [TypeGraph.node_fill bound.2]
          exact .inr (mirrors.keep fun same => same)
        · have differs : id ≠ number_other := by
            rintro rfl
            exact same (consistent.injective known number)
          obtain member | before := state
          · exact .inl ((List.mem_cons.mp member).resolve_left same)
          · refine .inr ?_
            rw [TypeGraph.node_fill_ne differs]
            exact before.keep fun same => same }

theorem fail (consistent : source.Consistent pending graph) {offset : Nat}
    (fresh : graph.idAt? offset = none) (error : Error) :
    source.Consistent pending (graph.fail offset error) where
  void := consistent.void
  numbered := consistent.numbered
  size := consistent.size
  unfailed := by
    intro other known failed
    obtain rfl | failed := TypeGraph.fails_fail.mp failed
    · obtain ⟨id, same⟩ := known
      exact absurd (fresh.symm.trans same) (by simp)
    · exact consistent.unfailed known failed
  known := by
    intro other id known
    obtain ⟨entry, found, state⟩ := consistent.known known
    exact ⟨entry, found, state.imp_right fun mirrors => mirrors.keep fun same => same⟩

end Consistent

/-! ## Resolving an entry -/

/-- A new entry is numbered, and once its node is built it mirrors the entry. -/
theorem explore_consistent {pending : List Nat} {count offset : Nat} {entry : EntryRef}
    {graph later : TypeGraph} {id : TypeId} (consistent : source.Consistent pending graph)
    (fresh : graph.idAt? offset = none) (unfailed : graph.failureAt? offset = none)
    (found : source.units.entry? offset = some entry)
    (numbers : ∀ fewer < count,
      Numbers (source.Consistent (offset :: pending)) (source.resolve fewer))
    (explored : source.explore offset entry count graph = .ok (id, later)) :
    source.Consistent pending later ∧ graph.Grows later ∧ later.idAt? offset = some id := by
  obtain ⟨fewer, node, middle, rfl, rfl, built, rfl⟩ := explore_eq_ok explored
  have reserved := consistent.reserve found fresh unfailed
  obtain ⟨kept, grows, mirrors⟩ :=
    nodeOf_yields (numbers fewer (Nat.lt_succ_self fewer)) _ _ _ reserved built
  have onward := (TypeGraph.grows_reserve fresh).trans grows
  exact ⟨kept.fill found grows.number (mirrors middle (.refl middle)), onward.fill node,
    grows.number⟩

theorem resolve_numbers (count : Nat) (pending : List Nat) :
    Numbers (source.Consistent pending) (source.resolve count) := by
  induction count using Nat.strongRecOn generalizing pending with
  | ind count ih =>
      intro origin offset graph id later consistent resolved
      obtain ⟨known, rfl⟩ | ⟨fresh, unfailed, entry, found, explored⟩ := resolve_eq_ok resolved
      · exact ⟨consistent, .refl later, fun last onward => onward.idAt? known⟩
      · obtain ⟨kept, grows, number⟩ := explore_consistent consistent fresh unfailed found
          (fun fewer less => ih fewer less (offset :: pending)) explored
        exact ⟨kept, grows, fun last onward => onward.idAt? number⟩

/-! ## Roots -/

/-- A root keeps a graph consistent, and no other entry fails. -/
theorem addRoot_consistent {graph : TypeGraph} (consistent : source.Consistent [] graph)
    (offset : Nat) :
    source.Consistent [] (source.addRoot graph offset) ∧
      ∀ {other}, (source.addRoot graph offset).Fails other →
        other = offset ∨ graph.Fails other := by
  obtain ⟨same, _⟩ | ⟨⟨unknown, _⟩, ⟨id, resolved⟩ | ⟨error, _, same⟩⟩ :=
    addRoot_cases source graph offset
  · rw [same]
    exact ⟨consistent, .inr⟩
  · obtain ⟨kept, grows, _⟩ :=
      resolve_numbers maxNesting [] offset offset _ _ _ consistent resolved
    refine ⟨kept, fun failed => .inr ?_⟩
    obtain ⟨error, known⟩ := failed
    exact ⟨error, by rwa [TypeGraph.failureAt?, ← grows.failures]⟩
  · rw [same]
    exact ⟨consistent.fail (TypeGraph.not_knows_iff.mp unknown) error, TypeGraph.fails_fail.mp⟩

theorem addRoots_consistent {graph : TypeGraph} (consistent : source.Consistent [] graph)
    (offsets : List Nat) :
    source.Consistent [] (offsets.foldl source.addRoot graph) ∧
      ∀ {other}, (offsets.foldl source.addRoot graph).Fails other →
        other ∈ offsets ∨ graph.Fails other := by
  induction offsets generalizing graph with
  | nil => exact ⟨consistent, .inr⟩
  | cons offset offsets ih =>
      obtain ⟨added, fails_added⟩ := addRoot_consistent consistent offset
      obtain ⟨last, fails_last⟩ := ih added
      refine ⟨last, fun failed => ?_⟩
      obtain listed | failed := fails_last failed
      · exact .inl (List.mem_cons_of_mem _ listed)
      · obtain rfl | failed := fails_added failed
        · exact .inl List.mem_cons_self
        · exact .inr failed

end TypeSource

end Dwarf
