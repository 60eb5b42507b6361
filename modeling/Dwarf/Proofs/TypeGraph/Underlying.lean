import Mathlib.Data.List.Chain
import Dwarf.Proofs.TypeGraph.Typedefs

/-!
# The type behind typedefs and qualifiers

The underlying type and the size of a type are found on one walk along its typedefs and
qualifiers.  The walk is bounded, so it ends in every graph; on chains within the bound it sees
all there is to see.
-/

namespace Dwarf

namespace TypeGraph

variable {graph : TypeGraph} {id target : TypeId} {behind : List TypeId} {count : Nat}

/-- A type is a typedef or a qualifier of another one. -/
def Behind (graph : TypeGraph) (id target : TypeId) : Prop :=
  (graph.node id).kind.behind? = some target

/-- No chain of typedefs and qualifiers that begins at a type leads back to where it has been. -/
def AcyclicFrom (graph : TypeGraph) (id : TypeId) : Prop :=
  ∀ place, Relation.ReflTransGen graph.Behind id place →
    ¬Relation.TransGen graph.Behind place place

/-- The types behind a type, one behind the other.  The last is neither a typedef nor a
qualifier. -/
inductive Chain (graph : TypeGraph) : TypeId → List TypeId → Prop where
  | last {id : TypeId} (plain : (graph.node id).kind.behind? = none) : Chain graph id []
  | link {id target : TypeId} {behind : List TypeId} (leads : graph.Behind id target)
      (rest : Chain graph target behind) : Chain graph id (target :: behind)

/-- The first size of some types. -/
def firstSize? (graph : TypeGraph) (ids : List TypeId) : Option UInt64 :=
  ids.findSome? fun id => (graph.node id).byteSize

/-- The types that are seen when at most `count` typedefs and qualifiers are followed. -/
def walk (graph : TypeGraph) : Nat → TypeId → List TypeId
  | 0, id => [id]
  | count + 1, id =>
    match (graph.node id).kind.behind? with
    | some target => id :: graph.walk count target
    | none => [id]

/-! ## Walks -/

theorem walk_link (leads : graph.Behind id target) :
    graph.walk (count + 1) id = id :: graph.walk count target := by
  rw [walk, leads]

theorem walk_plain (plain : (graph.node id).kind.behind? = none) : graph.walk count id = [id] := by
  cases count with
  | zero => rfl
  | succ count => rw [walk, plain]

theorem head?_walk (graph : TypeGraph) (count : Nat) (id : TypeId) :
    (graph.walk count id).head? = some id := by
  cases count with
  | zero => rfl
  | succ count =>
      rw [walk]
      split <;> rfl

theorem length_walk_le (graph : TypeGraph) (count : Nat) (id : TypeId) :
    (graph.walk count id).length ≤ count + 1 := by
  induction count generalizing id with
  | zero => exact Nat.le_refl 1
  | succ count ih =>
      cases leads : (graph.node id).kind.behind? with
      | none => simp [walk_plain leads]
      | some target =>
          rw [walk_link leads, List.length_cons]
          exact Nat.succ_le_succ (ih target)

theorem isChain_walk (graph : TypeGraph) (count : Nat) (id : TypeId) :
    (graph.walk count id).IsChain graph.Behind := by
  induction count generalizing id with
  | zero => exact .singleton id
  | succ count ih =>
      cases leads : (graph.node id).kind.behind? with
      | none =>
          rw [walk_plain leads]
          exact .singleton id
      | some target =>
          rw [walk_link leads, List.isChain_cons]
          refine ⟨fun next first => ?_, ih target⟩
          rw [head?_walk] at first
          exact Option.some.inj first ▸ leads

/-- What is seen on a shorter walk is what is seen first on a longer one. -/
theorem take_walk (graph : TypeGraph) (id : TypeId) {fewer : Nat} (fewer_le : fewer ≤ count) :
    (graph.walk count id).take (fewer + 1) = graph.walk fewer id := by
  induction count generalizing fewer id with
  | zero =>
      cases Nat.le_zero.mp fewer_le
      rfl
  | succ count ih =>
      cases leads : (graph.node id).kind.behind? with
      | none => simp [walk_plain leads]
      | some target =>
          rw [walk_link leads, List.take_succ_cons]
          cases fewer with
          | zero => rfl
          | succ fewer => rw [ih target (Nat.le_of_succ_le_succ fewer_le), walk_link leads]

theorem getLast?_walk (graph : TypeGraph) (count : Nat) (id : TypeId) :
    (graph.walk count id).getLast? = some (graph.stripWithin count id) := by
  induction count generalizing id with
  | zero => rfl
  | succ count ih =>
      cases leads : (graph.node id).kind.behind? with
      | none =>
          rw [walk_plain leads, stripWithin, leads]
          rfl
      | some target =>
          rw [walk_link leads, stripWithin, leads, List.getLast?_cons, ih]
          rfl

theorem firstSize?_walk (graph : TypeGraph) (count : Nat) (id : TypeId) :
    graph.firstSize? (graph.walk count id) = graph.sizeWithin (count + 1) id := by
  induction count generalizing id with
  | zero =>
      rw [walk, firstSize?, List.findSome?_singleton, sizeWithin]
      cases (graph.node id).byteSize with
      | some size => rfl
      | none => cases (graph.node id).kind.behind? <;> rfl
  | succ count ih =>
      rw [sizeWithin]
      cases leads : (graph.node id).kind.behind? with
      | none =>
          rw [walk_plain leads, firstSize?, List.findSome?_singleton]
          cases (graph.node id).byteSize <;> rfl
      | some target =>
          rw [walk_link leads, firstSize?, List.findSome?_cons]
          cases (graph.node id).byteSize with
          | some size => rfl
          | none => exact ih target

/-! ## Chains -/

namespace Chain

theorem walk_eq (chain : graph.Chain id behind) (count : Nat) :
    graph.walk count id = (id :: behind).take (count + 1) := by
  induction chain generalizing count with
  | last plain => simp [walk_plain plain]
  | @link id target behind leads _ ih =>
      cases count with
      | zero => rfl
      | succ count => rw [walk_link leads, List.take_succ_cons, ih]

/-- A walk that has not used up its bound has seen a whole chain. -/
theorem of_walk (walked : graph.walk count id = id :: behind) (short : behind.length < count) :
    graph.Chain id behind := by
  induction count generalizing id behind with
  | zero => exact absurd short (Nat.not_lt_zero _)
  | succ count ih =>
      cases leads : (graph.node id).kind.behind? with
      | none =>
          rw [walk_plain leads] at walked
          cases walked
          exact .last leads
      | some target =>
          rw [walk_link leads] at walked
          have rest : graph.walk count target = behind := (List.cons.inj walked).2
          have first := head?_walk graph count target
          rw [rest] at first
          obtain ⟨more, rfl⟩ := List.head?_eq_some_iff.mp first
          exact .link leads (ih rest (Nat.lt_of_succ_lt_succ short))

/-- A type has no more than one chain. -/
theorem unique {others : List TypeId} (chain : graph.Chain id behind)
    (other : graph.Chain id others) : behind = others := by
  induction chain generalizing others with
  | last plain =>
      cases other with
      | last => rfl
      | link leads _ => cases plain.symm.trans leads
  | link leads _ ih =>
      cases other with
      | last plain => cases plain.symm.trans leads
      | link other_leads rest =>
          cases leads.symm.trans other_leads
          rw [ih rest]

theorem isChain (chain : graph.Chain id behind) : (id :: behind).IsChain graph.Behind := by
  induction chain with
  | last plain => exact .singleton _
  | link leads _ ih => exact .cons_cons leads ih

end Chain

/-! ## Chains without cycles -/

theorem Behind.lt_size (leads : graph.Behind id target) : id < graph.size := by
  by_contra outside
  have absent : graph.node id = .pending := by
    rw [node, Array.getElem?_eq_none (Nat.le_of_not_lt outside)]
    rfl
  rw [Behind, absent] at leads
  cases leads

theorem AcyclicFrom.next (acyclic : graph.AcyclicFrom id) (leads : graph.Behind id target) :
    graph.AcyclicFrom target :=
  fun place reaches => acyclic place (.head leads reaches)

theorem AcyclicFrom.nodup (acyclic : graph.AcyclicFrom id)
    (linked : (id :: behind).IsChain graph.Behind) : (id :: behind).Nodup := by
  induction behind generalizing id with
  | nil => exact List.nodup_singleton id
  | cons next behind ih =>
      have further : (id :: next :: behind).IsChain (Relation.TransGen graph.Behind) :=
        linked.imp fun _ _ => Relation.TransGen.single
      obtain ⟨leads, rest⟩ := List.isChain_cons_cons.mp linked
      refine List.nodup_cons.mpr ⟨fun again => ?_, ih (acyclic.next leads) rest⟩
      exact acyclic id .refl (further.rel_cons again)

/-- All types of a chain are nodes of the graph, the last one perhaps excepted. -/
theorem lt_size_of_isChain (linked : (id :: behind).IsChain graph.Behind) :
    ∀ place ∈ (id :: behind).dropLast, place < graph.size := by
  induction behind generalizing id with
  | nil => exact fun place member => absurd member List.not_mem_nil
  | cons next behind ih =>
      obtain ⟨leads, rest⟩ := List.isChain_cons_cons.mp linked
      intro place member
      rw [List.dropLast_cons_cons] at member
      rcases List.mem_cons.mp member with rfl | member
      · exact leads.lt_size
      · exact ih rest place member

theorem AcyclicFrom.length_le (acyclic : graph.AcyclicFrom id)
    (linked : (id :: behind).IsChain graph.Behind) : behind.length ≤ graph.size := by
  have distinct : (id :: behind).dropLast.Nodup :=
    (acyclic.nodup linked).sublist (List.dropLast_sublist _)
  have inside : (id :: behind).dropLast ⊆ List.range graph.size :=
    fun place member => List.mem_range.mpr (lt_size_of_isChain linked place member)
  have bound := (distinct.subperm inside).length_le
  rwa [List.length_dropLast, List.length_cons, List.length_range, Nat.add_sub_cancel] at bound

theorem AcyclicFrom.exists_chain (acyclic : graph.AcyclicFrom id) :
    ∃ behind, graph.Chain id behind := by
  have linked := isChain_walk graph (graph.size + 1) id
  obtain ⟨behind, walked⟩ := List.head?_eq_some_iff.mp (head?_walk graph (graph.size + 1) id)
  rw [walked] at linked
  exact ⟨behind, .of_walk walked (Nat.lt_succ_of_le (acyclic.length_le linked))⟩

/-! ## The bound -/

/-- The last type of a chain is found if and only if all its typedefs and qualifiers are
followed. -/
theorem getLast?_take_iff (distinct : (id :: behind).Nodup) :
    ((id :: behind).take (count + 1)).getLast? = (id :: behind).getLast? ↔
      behind.length ≤ count := by
  constructor
  · intro same
    by_contra long
    have inside : count < (id :: behind).length := Nat.lt_succ_of_lt (Nat.lt_of_not_le long)
    have few : ((id :: behind).take (count + 1)).length = count + 1 :=
      List.length_take_of_le inside
    rw [List.getLast?_eq_getElem?, List.getLast?_eq_getElem?, few, Nat.add_sub_cancel,
      List.getElem?_take_of_lt (Nat.lt_succ_self count)] at same
    have ends : count = (id :: behind).length - 1 :=
      (List.getElem?_inj inside distinct).mp same
    exact long (Nat.le_of_eq ends.symm)
  · intro short
    rw [List.take_of_length_le (Nat.succ_le_succ short)]

theorem firstSize?_take_iff (graph : TypeGraph) (ids : List TypeId) (count : Nat) :
    graph.firstSize? (ids.take count) = graph.firstSize? ids ↔
      graph.firstSize? (ids.take count) ≠ none ∨ graph.firstSize? ids = none := by
  have split : graph.firstSize? ids =
      (graph.firstSize? (ids.take count)).or (graph.firstSize? (ids.drop count)) := by
    unfold firstSize?
    rw [← List.findSome?_append, List.take_append_drop]
  rw [split]
  cases graph.firstSize? (ids.take count) with
  | some size => simp
  | none => simp [eq_comm]

/-- The underlying type and the size of a type are what a walk along at most 32 typedefs and
qualifiers meets, the size on the 32 types before the last.  If no cycle is led into, the walk
goes along the chain of the type: the underlying type is the end of the chain if and only if the
chain has no more than 32 links, and the size is the first one on the chain if and only if one
of the first 32 types has a size or none has. -/
theorem underlying_type_and_size (graph : TypeGraph) (id : TypeId) :
    (∃ seen : List TypeId, seen.head? = some id ∧ seen.IsChain graph.Behind ∧ seen.length ≤ 33 ∧
      seen.getLast? = some (graph.strip id) ∧
      graph.sizeOf? id = graph.firstSize? (seen.take 32)) ∧
    (graph.AcyclicFrom id → ∃ behind, graph.Chain id behind ∧
      ((id :: behind).take 33).getLast? = some (graph.strip id) ∧
      ((id :: behind).getLast? = some (graph.strip id) ↔ behind.length ≤ 32) ∧
      graph.sizeOf? id = graph.firstSize? ((id :: behind).take 32) ∧
      (graph.sizeOf? id = graph.firstSize? (id :: behind) ↔
        graph.firstSize? ((id :: behind).take 32) ≠ none ∨
          graph.firstSize? (id :: behind) = none)) := by
  have last : (graph.walk 32 id).getLast? = some (graph.strip id) := getLast?_walk graph 32 id
  have size : graph.sizeOf? id = graph.firstSize? (graph.walk 31 id) :=
    (firstSize?_walk graph 31 id).symm
  constructor
  · refine ⟨graph.walk 32 id, head?_walk graph 32 id, isChain_walk graph 32 id,
      length_walk_le graph 32 id, last, ?_⟩
    rw [size, take_walk graph id (by decide : 31 ≤ 32)]
  · intro acyclic
    obtain ⟨behind, chain⟩ := acyclic.exists_chain
    rw [chain.walk_eq] at last size
    refine ⟨behind, chain, last, ?_, size, ?_⟩
    · rw [← last, eq_comm]
      exact getLast?_take_iff (acyclic.nodup chain.isChain)
    · rw [size]
      exact firstSize?_take_iff graph (id :: behind) 32

end TypeGraph

namespace TypedefList

open TypeGraph

/-- A number and a chain of 33 typedefs, each defined as the type before it. -/
def tower : TypedefList where
  targets := none :: (List.range 33).map some
  inside := by
    intro target member
    simp at member ⊢
    omega
  short := by simp

/-- The graph of these types: the number first, and every typedef of the type before it. -/
def towerGraph : TypeGraph where
  nodes :=
    (⟨none, none, .void⟩ :: ⟨none, some 4, .base 0⟩ ::
      (List.range 33).map fun index => ⟨none, none, .typedef (index + 1)⟩).toArray
  byOffset := (List.range 34).reverse.map fun index => (place index, index + 1)
  failures := []

theorem tower_build : tower.source.build = towerGraph := by decide +kernel

theorem towerGraph_behind {id target : TypeId} (leads : towerGraph.Behind id target) :
    id = target + 1 := by
  rw [Behind, node, towerGraph, List.getElem?_toArray] at leads
  rcases id with _ | _ | index
  · cases leads
  · cases leads
  · rw [List.getElem?_cons_succ, List.getElem?_cons_succ, List.getElem?_map] at leads
    by_cases bound : index < 33
    · rw [List.getElem?_range bound] at leads
      exact congrArg Nat.succ (Option.some.inj leads)
    · rw [List.getElem?_eq_none (by simpa using bound)] at leads
      cases leads

theorem towerGraph_acyclic (id : TypeId) : towerGraph.AcyclicFrom id := by
  intro place _ back
  have lower {target : TypeId} (leads : Relation.TransGen towerGraph.Behind place target) :
      target < place := by
    induction leads with
    | single leads => exact towerGraph_behind leads ▸ Nat.lt_succ_self _
    | tail _ leads ih =>
        rw [towerGraph_behind leads] at ih
        exact Nat.lt_of_succ_lt ih
  exact Nat.lt_irrefl place (lower back)

/-- The number is found behind 32 typedefs, but not its size. -/
theorem tower_stripped :
    tower.source.build.Chain 33 (List.range' 1 32).reverse ∧ tower.source.build.strip 33 = 1 ∧
      tower.source.build.sizeOf? 33 ≠ some 4 := by
  have walked : towerGraph.walk 33 33 = 33 :: (List.range' 1 32).reverse := by decide +kernel
  have chain : towerGraph.Chain 33 (List.range' 1 32).reverse := .of_walk walked (by decide)
  have size : towerGraph.firstSize? (33 :: (List.range' 1 32).reverse) = some 4 := by decide +kernel
  have sizeless : towerGraph.firstSize? ((33 :: (List.range' 1 32).reverse).take 32) = none := by
    decide +kernel
  obtain ⟨behind, same_chain, _, found, _, sized⟩ :=
    (underlying_type_and_size towerGraph 33).2 (towerGraph_acyclic 33)
  rw [same_chain.unique chain, size, sizeless] at sized
  rw [same_chain.unique chain] at found
  rw [tower_build]
  refine ⟨chain, Option.some.inj (found.mpr (Nat.le_refl 32)).symm, fun known => ?_⟩
  rcases sized.mp known with some_size | no_size
  · exact some_size rfl
  · cases no_size

/-- The number is not found behind 33 typedefs, nor is its size. -/
theorem tower_not_stripped :
    tower.source.build.AcyclicFrom 34 ∧
      tower.source.build.Chain 34 (List.range' 1 33).reverse ∧
      tower.source.build.strip 34 = 2 ∧ tower.source.build.sizeOf? 34 = none ∧
      tower.source.build.firstSize? (34 :: (List.range' 1 33).reverse) = some 4 := by
  rw [tower_build]
  have walked : towerGraph.walk 34 34 = 34 :: (List.range' 1 33).reverse := by decide +kernel
  refine ⟨towerGraph_acyclic 34, .of_walk walked (by decide), ?_, ?_, ?_⟩ <;> decide +kernel

end TypedefList

end Dwarf
