import Dwarf.Proofs.TypeGraph.Closure

/-!
# The graph of all types

No place of the graph of all types is left unfilled, its numbers are those of its entries, and its
edges lead to what the entries refer to.  The type of any other entry is therefore shared with
every node that refers to the same entry.
-/

namespace Dwarf

/-- Every number of a graph but that of `void` belongs to one entry, and edges are such numbers. -/
structure TypeGraph.Closed (graph : TypeGraph) : Prop where
  filled : ∀ id < graph.size, (graph.node id).kind ≠ .pending
  edges : ∀ id < graph.size, ∀ edge ∈ (graph.node id).edges, edge < graph.size
  numbers : ∀ {offset id}, graph.idAt? offset = some id → id ≠ void ∧ id < graph.size
  injective : ∀ {first second id},
    graph.idAt? first = some id → graph.idAt? second = some id → first = second
  counted : ∃ offsets : List Nat, offsets.Nodup ∧
    (∀ offset, offset ∈ offsets ↔ graph.Knows offset) ∧ graph.size = 1 + offsets.length

namespace TypeSource

/-- A type entry starts at an offset. -/
def TypeAt (source : TypeSource) (offset : Nat) : Prop :=
  ∃ unit ∈ source.units.units, ∃ entry ∈ unit.entries,
    entry.tag.isType = true ∧ entry.offset = offset

/-- A graph in which every type entry is settled one way or the other, and nothing else, and in
which the edges of each node are what its entry refers to. -/
structure Faithful (source : TypeSource) (graph : TypeGraph) : Prop where
  decided : ∀ offset, graph.Knows offset ∨ graph.Fails offset ↔ source.TypeAt offset
  exclusive : ∀ offset, ¬(graph.Knows offset ∧ graph.Fails offset)
  mirrors : ∀ {offset id}, graph.idAt? offset = some id →
    ∃ entry, source.units.entry? offset = some entry ∧
      source.Mirrors graph entry (graph.node id)

/-- The type of an entry that describes none is the number that members and other parts of types
with the same reference have. -/
def Shares (source : TypeSource) (graph : TypeGraph) : Prop :=
  ∀ {offset target : Nat} {id : TypeId} {user : EntryRef},
    source.units.entry? offset = some user → user.tag.isType = false →
    user.reference? .type = some target → graph.idAt? target = some id →
      graph.typeAt source.units offset = .ok id ∧
        ∀ {owner index : Nat} {number : TypeId} {entry referrer : EntryRef},
          graph.idAt? owner = some number →
          source.units.entry? owner = some entry →
          (source.referrers entry)[index]? = some referrer →
          referrer.reference? .type = some target →
            (graph.node number).edges[index]? = some id

variable {source : TypeSource}

theorem isType_of_shape {tag : Tag} (shaped : tag.shape? ≠ none) : tag.isType = true := by
  unfold Tag.shape? at shaped
  split at shaped <;> first | rfl | exact absurd rfl shaped

theorem mem_of_entry? {units : UnitSet} {offset : Nat} {found : EntryRef}
    (present : units.entry? offset = some found) :
    found.unit ∈ units.units ∧ found.entry ∈ found.unit.entries ∧ found.offset = offset := by
  obtain ⟨unit, listed, stored⟩ := List.exists_of_findSome?_eq_some present
  obtain ⟨id, number, entry⟩ := Option.bind_eq_some_iff.mp stored
  obtain ⟨entry, at_number, rfl⟩ := Option.map_eq_some_iff.mp entry
  obtain ⟨within, same, _⟩ := Array.findIdx?_eq_some_iff_getElem.mp number
  obtain ⟨_, rfl⟩ := Array.getElem?_eq_some_iff.mp at_number
  exact ⟨listed, Array.getElem_mem within, beq_iff_eq.mp same⟩

theorem mem_typeOffsets {offset : Nat} : offset ∈ source.typeOffsets ↔ source.TypeAt offset := by
  simp only [typeOffsets, TypeAt, List.mem_flatMap, List.mem_map, List.mem_filter,
    Array.mem_toList_iff, and_assoc]

/-! ## Consistent graphs with nothing pending -/

namespace Consistent

variable {graph : TypeGraph}

theorem mirrors (consistent : source.Consistent [] graph) {offset : Nat} {id : TypeId}
    (known : graph.idAt? offset = some id) :
    ∃ entry, source.units.entry? offset = some entry ∧
      source.Mirrors graph entry (graph.node id) := by
  obtain ⟨entry, found, state⟩ := consistent.known known
  exact ⟨entry, found, state.resolve_left List.not_mem_nil⟩

theorem void_or_known (consistent : source.Consistent [] graph) {id : TypeId}
    (within : id < graph.size) :
    graph.node id = ⟨none, none, .void⟩ ∨ ∃ offset, graph.idAt? offset = some id := by
  obtain rfl | positive := Nat.eq_zero_or_pos id
  · exact .inl consistent.node_void
  · rw [consistent.size] at within
    exact .inr (consistent.numbered.exists_of_le positive (Nat.le_of_lt_succ within))

theorem edge_lt (consistent : source.Consistent [] graph) {referrer : EntryRef} {type : TypeId}
    (leads : graph.Leads referrer type) : type < graph.size := by
  obtain ⟨_, rfl⟩ | ⟨_, _, known⟩ := leads
  · exact consistent.size ▸ Nat.succ_pos _
  · exact (consistent.bound known).2

theorem closed (consistent : source.Consistent [] graph) : graph.Closed where
  filled := by
    intro id within unfilled
    obtain void | ⟨offset, known⟩ := consistent.void_or_known within
    · rw [void] at unfilled
      cases unfilled
    · obtain ⟨entry, _, mirrors⟩ := consistent.mirrors known
      have shape := mirrors.shape
      rw [unfilled] at shape
      exact mirrors.shaped shape.symm
  edges := by
    intro id within edge member
    obtain void | ⟨offset, known⟩ := consistent.void_or_known within
    · rw [void] at member
      cases member
    · obtain ⟨entry, _, mirrors⟩ := consistent.mirrors known
      obtain ⟨referrer, _, leads⟩ := mirrors.referrer member
      exact consistent.edge_lt leads
  numbers := fun known =>
    ⟨Nat.ne_of_gt (consistent.bound known).1, (consistent.bound known).2⟩
  injective := consistent.injective
  counted :=
    ⟨graph.byOffset.map Prod.fst, consistent.numbered.nodup_offsets,
      consistent.numbered.mem_offsets, by rw [consistent.size, List.length_map, Nat.add_comm]⟩

end Consistent

/-! ## Shared types -/

theorem typeAt_eq_ok {graph : TypeGraph} {units : UnitSet} {offset target : Nat}
    {user : EntryRef} {id : TypeId} (present : units.entry? offset = some user)
    (other : user.tag.isType = false) (reference : user.reference? .type = some target)
    (known : graph.idAt? target = some id) : graph.typeAt units offset = .ok id := by
  obtain ⟨value, valued, _⟩ := Option.bind_eq_some_iff.mp reference
  simp only [TypeGraph.typeAt, present, other, valued, reference, known]
  rfl

theorem Faithful.shares {graph : TypeGraph} (faithful : source.Faithful graph) :
    source.Shares graph := by
  intro offset target id user present other reference known
  refine ⟨typeAt_eq_ok present other reference known, ?_⟩
  intro owner index number entry referrer owned found place same
  obtain ⟨owner_entry, owner_found, mirrors⟩ := faithful.mirrors owned
  cases found.symm.trans owner_found
  obtain ⟨edge, at_index, leads⟩ := mirrors.edge place
  cases known.symm.trans (leads.target same)
  exact at_index

theorem build_consistent (source : TypeSource) :
    source.Consistent [] source.build ∧
      ∀ {offset}, source.build.Fails offset → offset ∈ source.typeOffsets := by
  obtain ⟨consistent, fails⟩ := addRoots_consistent Consistent.empty source.typeOffsets
  rw [build_eq]
  refine ⟨consistent, fun failed => (fails failed).resolve_right ?_⟩
  rintro ⟨error, same⟩
  cases same

theorem build_decides (source : TypeSource) {offset : Nat} (root : offset ∈ source.typeOffsets) :
    source.build.Knows offset ∨ source.build.Fails offset := by
  have begun : source.Explored [] .empty := explored_empty
  obtain ⟨_, _, decided⟩ := addRoots_explored begun fun other member => entry?_of_typeOffsets member
  rw [build_eq]
  exact decided offset root

theorem build_faithful (source : TypeSource) : source.Faithful source.build := by
  obtain ⟨consistent, fails⟩ := build_consistent source
  refine ⟨fun offset => ⟨?_, fun type => ?_⟩, fun offset both => ?_, consistent.mirrors⟩
  · rintro (⟨id, known⟩ | failed)
    · obtain ⟨entry, found, mirrors⟩ := consistent.mirrors known
      obtain ⟨listed, stored, start⟩ := mem_of_entry? found
      exact ⟨entry.unit, listed, entry.entry, stored, isType_of_shape mirrors.shaped, start⟩
    · exact mem_typeOffsets.mp (fails failed)
  · exact build_decides source (mem_typeOffsets.mpr type)
  · exact consistent.unfailed both.1 both.2

/-- The graph of all types is closed and faithful to the references between entries, and what an
entry refers to has the same number wherever it is referred to. -/
theorem build_closed_and_faithful (source : TypeSource) :
    source.build.Closed ∧ source.Faithful source.build ∧ source.Shares source.build :=
  ⟨(build_consistent source).1.closed, build_faithful source, (build_faithful source).shares⟩

end TypeSource

end Dwarf
