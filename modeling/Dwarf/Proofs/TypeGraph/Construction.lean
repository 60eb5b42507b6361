import Dwarf.Proofs.TypeGraph.Nesting
import Dwarf.Proofs.TypeGraph.Size

/-!
# How nodes come about

The node of an entry is built while the entry itself and those above it are being built, and what it
says about other types is what the graph says at that moment.  So every node of the graph of all
types has a moment of its own.  An entry that comes before all types that lead to it has a moment
with nothing above it.
-/

namespace Dwarf

open Resolving

namespace TypeSource

variable {source : TypeSource} {pending above : List Nat} {graph later : TypeGraph}
variable {offset : Nat} {entry : EntryRef} {id : TypeId}

/-! ## Entries that are being built -/

/-- A graph in which the entries at some offsets are being built and have places only. -/
structure InProgress (source : TypeSource) (pending : List Nat) (graph : TypeGraph) : Prop where
  consistent : source.Consistent pending graph
  unbuilt : ∀ offset ∈ pending, ∃ id, graph.idAt? offset = some id ∧ graph.node id = .pending

theorem InProgress.node (progress : source.InProgress pending graph) (member : offset ∈ pending)
    {id : TypeId} (known : graph.idAt? offset = some id) : graph.node id = .pending := by
  obtain ⟨place, place_known, unbuilt⟩ := progress.unbuilt offset member
  cases known.symm.trans place_known
  exact unbuilt

theorem Consistent.follows_of_edge (consistent : source.Consistent pending graph)
    (found : source.units.entry? offset = some entry) {node : TypeNode}
    (mirrors : source.Mirrors graph entry node) {edge : TypeId} (member : edge ∈ node.edges) :
    edge = TypeGraph.void ∨
      ∃ next, source.Follows offset next ∧ graph.idAt? next = some edge := by
  obtain ⟨referrer, refers, ⟨_, rfl⟩ | ⟨next, reference, known⟩⟩ := mirrors.referrer member
  · exact .inl rfl
  · obtain ⟨_, next_found, _⟩ := consistent.known known
    refine .inr ⟨next, ⟨entry, referrer, found, refers, reference, ?_⟩, known⟩
    rw [next_found]
    rfl

theorem Consistent.eq_void_of_defers (consistent : source.Consistent pending graph)
    {place : TypeId} (defers : Relation.ReflTransGen graph.Defers TypeGraph.void place) :
    place = TypeGraph.void := by
  obtain rfl | ⟨next, ⟨_, behind⟩, _⟩ := Relation.ReflTransGen.cases_head defers
  · rfl
  · rw [consistent.node_void] at behind
    cases behind

theorem Consistent.void_ne_pending (consistent : source.Consistent pending graph) :
    graph.node TypeGraph.void ≠ .pending := by
  rw [consistent.node_void]
  intro same
  cases same

/-- What an entry defers to for its size can be reached from it.  If that is being built, it is one
of the entries that are. -/
theorem InProgress.reaches_of_defers (progress : source.InProgress pending graph)
    {id place : TypeId} (known : graph.idAt? offset = some id)
    (defers : Relation.ReflTransGen graph.Defers id place) (unbuilt : graph.node place = .pending) :
    ∃ other ∈ pending, graph.idAt? other = some place ∧ source.Reaches offset other := by
  induction defers using Relation.ReflTransGen.head_induction_on generalizing offset with
  | refl =>
      obtain ⟨entry, found, member | mirrors⟩ := progress.consistent.known known
      · exact ⟨offset, member, known, .refl⟩
      · have shape := mirrors.shape
        rw [unbuilt] at shape
        exact absurd shape.symm mirrors.shaped
  | @head id target defers onward ih =>
      obtain ⟨entry, found, member | mirrors⟩ := progress.consistent.known known
      · rw [TypeGraph.Defers, progress.node member known] at defers
        cases defers.2
      · have edge : target ∈ (graph.node id).edges :=
          TypeKind.mem_edges_of_behind defers.2
        obtain rfl | ⟨next, follows, next_known⟩ :=
          progress.consistent.follows_of_edge found mirrors edge
        · cases progress.consistent.eq_void_of_defers onward
          exact absurd unbuilt progress.consistent.void_ne_pending
        · obtain ⟨other, member, place, reaches⟩ := ih next_known
          exact ⟨other, member, place, .head follows reaches⟩

theorem InProgress.reserve (progress : source.InProgress pending graph)
    (found : source.units.entry? offset = some entry) (fresh : graph.idAt? offset = none)
    (unfailed : graph.failureAt? offset = none) :
    source.InProgress (offset :: pending) (graph.reserve offset) where
  consistent := progress.consistent.reserve found fresh unfailed
  unbuilt := by
    have grows := TypeGraph.grows_reserve fresh
    refine List.forall_mem_cons.mpr ⟨⟨graph.size, ?_, ?_⟩, fun other member => ?_⟩
    · rw [TypeGraph.idAt?_reserve, if_pos rfl]
    · simp [TypeGraph.node, TypeGraph.reserve, TypeGraph.size]
    · obtain ⟨id, known, unbuilt⟩ := progress.unbuilt other member
      refine ⟨id, grows.idAt? known, ?_⟩
      rw [grows.node (progress.consistent.bound known).2, unbuilt]

theorem InProgress.fill (progress : source.InProgress (offset :: pending) graph)
    (outside : offset ∉ pending) (found : source.units.entry? offset = some entry) {id : TypeId}
    (number : graph.idAt? offset = some id) {node : TypeNode}
    (mirrors : source.Mirrors graph entry node) :
    source.InProgress pending (graph.fill id node) where
  consistent := progress.consistent.fill found number mirrors
  unbuilt := by
    intro other member
    obtain ⟨place, known, unbuilt⟩ := progress.unbuilt other (List.mem_cons_of_mem _ member)
    have differs : id ≠ place := by
      rintro rfl
      exact outside (progress.consistent.injective known number ▸ member)
    exact ⟨place, known, (TypeGraph.node_fill_ne differs node).trans unbuilt⟩

theorem InProgress.grow (progress : source.InProgress pending graph)
    (consistent : source.Consistent pending later) (grows : graph.Grows later) :
    source.InProgress pending later where
  consistent := consistent
  unbuilt := by
    intro other member
    obtain ⟨place, known, unbuilt⟩ := progress.unbuilt other member
    refine ⟨place, grows.idAt? known, ?_⟩
    rw [grows.node (progress.consistent.bound known).2, unbuilt]

theorem resolve_progresses (count : Nat) (pending : List Nat) :
    Numbers (source.InProgress pending) (source.resolve count) := by
  intro origin target graph id later progress resolved
  obtain ⟨consistent, grows, number⟩ :=
    resolve_numbers count pending origin target _ _ _ progress.consistent resolved
  exact ⟨progress.grow consistent grows, grows, number⟩

/-! ## Moments -/

/-- The node of an entry was built while the entry and those above it were being built. -/
structure Moment (source : TypeSource) (graph : TypeGraph) (offset : Nat) (entry : EntryRef)
    (id : TypeId) (above : List Nat) (count : Nat) (before after : TypeGraph) : Prop where
  begun : source.InProgress (offset :: above) before
  ended : source.InProgress (offset :: above) after
  built : source.nodeOf (source.resolve count) entry before = .ok (graph.node id, after)
  place : after.idAt? offset = some id
  keeps : after.Keeps graph
  reaches : ∀ other ∈ above, source.Reaches other offset

def BuiltBelow (source : TypeSource) (graph : TypeGraph) (offset : Nat) (entry : EntryRef)
    (id : TypeId) (above : List Nat) : Prop :=
  ∃ count before after, source.Moment graph offset entry id above count before after

theorem Moment.mirrors {count : Nat} {before after : TypeGraph}
    (moment : source.Moment graph offset entry id above count before after) :
    source.Mirrors after entry (graph.node id) :=
  (nodeOf_yields (resolve_progresses count (offset :: above)) _ _ _ moment.begun moment.built).2.2
    after (.refl after)

theorem BuiltBelow.keep (built : source.BuiltBelow graph offset entry id above)
    (keeps : graph.Keeps later) : source.BuiltBelow later offset entry id above := by
  obtain ⟨count, before, after, moment⟩ := built
  have finished : graph.node id ≠ .pending := fun unbuilt => by
    have shape := moment.mirrors.shape
    rw [unbuilt] at shape
    exact moment.mirrors.shaped shape.symm
  refine ⟨count, before, after, ?_⟩
  exact { moment with
    built := by rw [keeps.node finished, moment.built]
    keeps := moment.keeps.trans keeps }

/-- A graph in which every node has come about. -/
structure Traced (source : TypeSource) (pending : List Nat) (graph : TypeGraph) : Prop
    extends source.InProgress pending graph where
  traces : ∀ {offset entry id}, source.units.entry? offset = some entry →
    graph.idAt? offset = some id →
      offset ∈ pending ∨ ∃ above, source.BuiltBelow graph offset entry id above

theorem Traced.empty : source.Traced [] .empty where
  consistent := .empty
  unbuilt := fun other member => nomatch member
  traces := by
    intro offset entry id _ known
    cases known

theorem Traced.reserve (traced : source.Traced pending graph)
    (found : source.units.entry? offset = some entry) (fresh : graph.idAt? offset = none)
    (unfailed : graph.failureAt? offset = none) :
    source.Traced (offset :: pending) (graph.reserve offset) where
  toInProgress := traced.toInProgress.reserve found fresh unfailed
  traces := by
    intro other other_entry id other_found known
    rw [TypeGraph.idAt?_reserve] at known
    split at known
    next same => exact .inl (same ▸ List.mem_cons_self)
    next =>
      refine (traced.traces other_found known).imp (List.mem_cons_of_mem _) ?_
      exact fun ⟨above, built⟩ => ⟨above, built.keep (TypeGraph.grows_reserve fresh).keeps⟩

theorem Traced.fill (traced : source.Traced (offset :: pending) graph) (outside : offset ∉ pending)
    (found : source.units.entry? offset = some entry) (number : graph.idAt? offset = some id)
    {node : TypeNode} (mirrors : source.Mirrors graph entry node)
    (own : source.BuiltBelow (graph.fill id node) offset entry id pending) :
    source.Traced pending (graph.fill id node) where
  toInProgress := traced.toInProgress.fill outside found number mirrors
  traces := by
    intro other other_entry other_id other_found known
    have unbuilt := traced.toInProgress.node List.mem_cons_self number
    obtain member | ⟨above, built⟩ := traced.traces other_found known
    · obtain rfl | member := List.mem_cons.mp member
      · cases found.symm.trans other_found
        cases number.symm.trans known
        exact .inr ⟨pending, own⟩
      · exact .inl member
    · exact .inr ⟨above, built.keep (TypeGraph.keeps_fill unbuilt node)⟩

theorem Traced.fail (traced : source.Traced pending graph) (fresh : graph.idAt? offset = none)
    (error : Error) : source.Traced pending (graph.fail offset error) where
  consistent := traced.consistent.fail fresh error
  unbuilt := traced.unbuilt
  traces := fun found known => (traced.traces found known).imp_right fun ⟨above, built⟩ =>
    ⟨above, built.keep (TypeGraph.keeps_fail graph offset error)⟩

/-! ## Resolving an entry -/

theorem builtBelow_fill {count : Nat} {middle : TypeGraph} {node : TypeNode}
    (begun : source.InProgress (offset :: pending) graph)
    (ended : source.InProgress (offset :: pending) middle)
    (built : source.nodeOf (source.resolve count) entry graph = .ok (node, middle))
    (number : middle.idAt? offset = some id)
    (reaches : ∀ other ∈ pending, source.Reaches other offset) :
    source.BuiltBelow (middle.fill id node) offset entry id pending := by
  have here := TypeGraph.node_fill (ended.consistent.bound number).2 node
  have keeps := TypeGraph.keeps_fill (ended.node List.mem_cons_self number) node
  exact ⟨count, graph, middle, begun, ended, by rw [here, built], number, keeps, reaches⟩

theorem reaches_cons (found : source.units.entry? offset = some entry)
    (above : ∀ other ∈ pending, source.Reaches other offset) {referrer : EntryRef} {target : Nat}
    (refers : source.Refers entry referrer) (reference : referrer.reference? .type = some target)
    (present : (source.units.entry? target).isSome = true) :
    ∀ other ∈ offset :: pending, source.Reaches other target := by
  have follows : source.Follows offset target :=
    ⟨entry, referrer, found, refers, reference, present⟩
  refine List.forall_mem_cons.mpr ⟨.single follows, fun other member => ?_⟩
  exact (above other member).tail follows

/-- An entry that has been explored was built while those above it were being built. -/
theorem explore_traced {count : Nat} (traced : source.Traced pending graph)
    (fresh : graph.idAt? offset = none) (unfailed : graph.failureAt? offset = none)
    (found : source.units.entry? offset = some entry)
    (above : ∀ other ∈ pending, source.Reaches other offset)
    (below : ∀ fewer < count, ∀ {origin target},
      ((source.units.entry? target).isSome = true →
        ∀ other ∈ offset :: pending, source.Reaches other target) →
      Meets (source.Traced (offset :: pending)) True (fun later => later.Knows target)
        (source.resolve fewer origin target))
    (explored : source.explore offset entry count graph = .ok (id, later)) :
    source.Traced pending later ∧ source.BuiltBelow later offset entry id pending := by
  obtain ⟨fewer, node, middle, rfl, rfl, built, rfl⟩ := explore_eq_ok explored
  have reserved := traced.reserve found fresh unfailed
  have resolves : source.Resolves (source.resolve fewer) entry
      (source.Traced (offset :: pending)) True :=
    ⟨fun refers reference =>
      below fewer (Nat.lt_succ_self fewer) (reaches_cons found above refers reference),
      fun _ => trivial⟩
  have outcome := nodeOf_meets resolves _ reserved
  rw [built] at outcome
  cases outcome with
  | ok kept _ _ =>
      have numbers := @resolve_progresses source fewer (offset :: pending)
      obtain ⟨_, grows, mirrors⟩ := nodeOf_yields numbers _ _ _ reserved.toInProgress built
      have outside : offset ∉ pending := fun member => by
        obtain ⟨place, known, _⟩ := traced.unbuilt offset member
        cases fresh.symm.trans known
      have own := builtBelow_fill reserved.toInProgress kept.toInProgress built grows.number above
      exact ⟨kept.fill outside found grows.number (mirrors middle (.refl middle)) own, own⟩

theorem resolve_traced (count origin offset : Nat)
    (above : (source.units.entry? offset).isSome = true →
      ∀ other ∈ pending, source.Reaches other offset) :
    Meets (source.Traced pending) True (fun later => later.Knows offset)
      (source.resolve count origin offset) := by
  induction count using Nat.strongRecOn generalizing pending origin offset with
  | ind count ih =>
      intro graph traced
      cases resolved : source.resolve count origin offset graph with
      | error error => exact .error trivial
      | ok pair =>
          obtain ⟨id, later⟩ := pair
          obtain ⟨_, grows, number⟩ :=
            resolve_numbers count pending origin offset _ _ _ traced.consistent resolved
          have known (last : TypeGraph) (onward : last.Extends later) : last.Knows offset :=
            onward.knows ⟨id, number later (.refl later)⟩
          refine .ok ?_ grows.extends known
          obtain ⟨_, rfl⟩ | ⟨fresh, unfailed, entry, found, explored⟩ := resolve_eq_ok resolved
          · exact traced
          · exact (explore_traced traced fresh unfailed found (above (by rw [found]; rfl))
              (fun fewer less _ _ => ih fewer less _ _) explored).1

/-! ## Roots -/

theorem addRoot_traced (traced : source.Traced [] graph) (root : Nat) :
    source.Traced [] (source.addRoot graph root) ∧ graph.Keeps (source.addRoot graph root) := by
  obtain ⟨same, _⟩ | ⟨⟨unknown, _⟩, ⟨id, resolved⟩ | ⟨error, _, same⟩⟩ :=
    addRoot_cases source graph root
  · rw [same]
    exact ⟨traced, .refl graph⟩
  · have outcome := resolve_traced maxNesting root root (fun _ => List.forall_mem_nil _) graph traced
    rw [resolved] at outcome
    obtain ⟨_, grows, _⟩ := resolve_numbers maxNesting [] root root _ _ _ traced.consistent resolved
    cases outcome with
    | ok kept _ _ => exact ⟨kept, grows.keeps⟩
  · rw [same]
    exact ⟨traced.fail (TypeGraph.not_knows_iff.mp unknown) error,
      TypeGraph.keeps_fail graph root error⟩

theorem addRoots_traced (traced : source.Traced [] graph) (roots : List Nat) :
    source.Traced [] (roots.foldl source.addRoot graph) ∧
      graph.Keeps (roots.foldl source.addRoot graph) := by
  induction roots generalizing graph with
  | nil => exact ⟨traced, .refl graph⟩
  | cons root roots ih =>
      obtain ⟨added, keeps⟩ := addRoot_traced traced root
      obtain ⟨last, keeps_last⟩ := ih added
      exact ⟨last, keeps.trans keeps_last⟩

/-- Nothing is being built above a root. -/
theorem addRoot_builtBelow (traced : source.Traced [] graph)
    (found : source.units.entry? offset = some entry) (unknown : ¬graph.Knows offset)
    (known : (source.addRoot graph offset).idAt? offset = some id) :
    source.BuiltBelow (source.addRoot graph offset) offset entry id [] := by
  obtain ⟨same, _⟩ | ⟨_, ⟨other, resolved⟩ | ⟨error, _, same⟩⟩ :=
    addRoot_cases source graph offset
  · exact absurd ⟨id, same ▸ known⟩ unknown
  · obtain ⟨_, _, number⟩ :=
      resolve_numbers maxNesting [] offset offset _ _ _ traced.consistent resolved
    cases (number _ (.refl _)).symm.trans known
    obtain ⟨earlier, _⟩ | ⟨fresh, unnoted, same, same_found, explored⟩ := resolve_eq_ok resolved
    · exact absurd ⟨_, earlier⟩ unknown
    · cases found.symm.trans same_found
      exact (explore_traced traced fresh unnoted found (List.forall_mem_nil _)
        (fun fewer _ _ _ => resolve_traced fewer _ _) explored).2
  · rw [same] at known
    exact absurd ⟨id, known⟩ unknown

/-- An entry comes before all types that lead to it. -/
def Foremost (source : TypeSource) (offset : Nat) : Prop :=
  ∃ earlier later, source.typeOffsets = earlier ++ offset :: later ∧
    ∀ other ∈ earlier, source.build.Knows other → ¬source.Reaches other offset

theorem build_traced (source : TypeSource) : source.Traced [] source.build := by
  rw [build_eq]
  exact (addRoots_traced .empty source.typeOffsets).1

theorem builtBelow_of_foremost (foremost : source.Foremost offset)
    (found : source.units.entry? offset = some entry) (known : source.build.idAt? offset = some id) :
    source.BuiltBelow source.build offset entry id [] := by
  obtain ⟨earlier, later, order, first⟩ := foremost
  have listed (root : Nat) (member : root ∈ earlier ++ offset :: later) :
      (source.units.entry? root).isSome = true := entry?_of_typeOffsets (order ▸ member)
  have rooted := addRoots_rooted fun root member => listed root (List.mem_append_left _ member)
  obtain ⟨before, _⟩ := addRoots_traced .empty earlier
  have split : source.build = later.foldl source.addRoot
      (source.addRoot (earlier.foldl source.addRoot .empty) offset) := by
    rw [build_eq, order, List.foldl_append]
    rfl
  generalize earlier.foldl source.addRoot .empty = graph at rooted before split
  obtain ⟨added, keeps⟩ := addRoot_traced before offset
  obtain ⟨_, keeps_last⟩ := addRoots_traced added later
  rw [← split] at keeps_last
  have unknown : ¬graph.Knows offset := by
    intro known_before
    obtain ⟨root, member, root_known, reaches⟩ := rooted.below known_before
    exact first root member ((keeps.trans keeps_last).knows root_known) reaches
  have present := listed offset (List.mem_append_right _ List.mem_cons_self)
  obtain ⟨explored, _, ⟨number, numbered⟩ | failed⟩ := addRoot_explored rooted.explored present
  · cases known.symm.trans (keeps_last.idAt? numbered)
    exact (addRoot_builtBelow before found unknown numbered).keep keeps_last
  · obtain ⟨_, extended, _⟩ := addRoots_explored explored fun root member =>
      listed root (List.mem_append_right _ (List.mem_cons_of_mem _ member))
    rw [← split] at extended
    exact absurd (extended.fails failed) ((build_consistent source).1.unfailed ⟨id, known⟩)

/-- Every node of the graph of all types has come about, and nothing was being built above an entry
that comes before all types that lead to it. -/
theorem build_traces (found : source.units.entry? offset = some entry)
    (known : source.build.idAt? offset = some id) :
    ∃ above, source.BuiltBelow source.build offset entry id above ∧
      (source.Foremost offset → above = []) := by
  by_cases foremost : source.Foremost offset
  · exact ⟨[], builtBelow_of_foremost foremost found known, fun _ => rfl⟩
  · obtain ⟨above, built⟩ :=
      ((build_traced source).traces found known).resolve_left List.not_mem_nil
    exact ⟨above, built, fun first => absurd first foremost⟩

end TypeSource

end Dwarf
