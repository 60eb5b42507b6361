import Dwarf.Proofs.TypeGraph.Faithfulness
import Dwarf.Proofs.TypeGraph.Walk

/-!
# Roots that fail

Whatever has been resolved on the way, a root that fails leaves the nodes and the numbers as they
were before it.  What it adds is one failure, and the error is that of the first demand that a walk
from the root, depth first, cannot meet.  No earlier node has ever led to a place of the attempt.
-/

namespace Dwarf

namespace TypeBuilder

/-- The builder after some roots. -/
def after (source : TypeSource) (roots : List Nat) : TypeBuilder :=
  roots.foldl (addRoot source) { graph := .empty }

/-- What resolving a root comes to, and the builder that it leaves. -/
def attempt (source : TypeSource) (builder : TypeBuilder) (offset : Nat) :
    Except Error TypeId × TypeBuilder :=
  resolve source TypeSource.maxNesting offset offset { graph := builder.graph }

variable {source : TypeSource}

theorem after_concat (roots : List Nat) (offset : Nat) :
    after source (roots ++ [offset]) = addRoot source (after source roots) offset := by
  rw [after, List.foldl_append]
  rfl

theorem after_consistent (roots : List Nat) : source.Consistent [] (after source roots).graph := by
  rw [after, addRoots_graph]
  exact (TypeSource.addRoots_consistent .empty roots).1

/-- A root that fails leaves no trace but its failure. -/
theorem failed_root_leaves_no_trace (source : TypeSource) (roots : List Nat) (offset : Nat)
    {error : Error} {reached : TypeBuilder}
    (unknown : (after source roots).graph.idAt? offset = none)
    (unfailed : (after source roots).graph.failureAt? offset = none)
    (failed : attempt source (after source roots) offset = (.error error, reached)) :
    let before := (after source roots).graph
    let graph := (after source (roots ++ [offset])).graph
    graph.nodes = before.nodes ∧ graph.byOffset = before.byOffset ∧
      graph.failures = (offset, error) :: before.failures ∧
      source.walk before.failureAt? TypeSource.maxNesting offset offset before.offsets =
        .error error ∧
      (∀ id < before.size, reached.graph.node id = before.node id ∧
        ∀ edge ∈ (reached.graph.node id).edges, edge < before.size) ∧
      ∀ other ∈ reached.reserved, before.idAt? other = none ∧
        ∀ id, reached.graph.idAt? other = some id → before.size ≤ id := by
  intro before graph
  have consistent : source.Consistent [] before := after_consistent roots
  have attempted : resolve source TypeSource.maxNesting offset offset { graph := before } =
      (.error error, reached) := failed
  obtain ⟨tried, undoable⟩ := @tracks_resolve source TypeSource.maxNesting offset offset
    { graph := before }
  rw [attempted] at tried undoable
  have undecided : ¬((before.idAt? offset).isSome || (before.failureAt? offset).isSome) = true := by
    simp only [before, unknown, unfailed]
    decide
  have added : graph = before.fail offset error := by
    change (after source (roots ++ [offset])).graph = _
    rw [after_concat, addRoot_graph, TypeSource.addRoot, if_neg undecided, tried]
    rfl
  have walked := TypeSource.walk_eq_error_iff.mpr tried
  refine ⟨added ▸ rfl, added ▸ rfl, added ▸ rfl, walked, fun id within => ?_,
    fun other => undoable.reserved rfl⟩
  have unchanged := undoable.grows.node within
  exact ⟨unchanged, unchanged ▸ consistent.closed.edges id within⟩

/-- A number, and a structure of a pointer to itself and of something that is not there. -/
def danglingUnit : CompilationUnit where
  header := ⟨0, 20, 4, 0, 8, 4, 11⟩
  order := .little
  abbreviations := ⟨[]⟩
  entries :=
    #[⟨11, .baseType, false, [], none, #[]⟩,
      ⟨12, .structureType, true, [], none, #[2, 3]⟩,
      ⟨13, .member, false, [⟨.type, ⟨0x13⟩, .unitReference 15⟩], some 1, #[]⟩,
      ⟨14, .member, false, [⟨.type, ⟨0x13⟩, .unitReference 99⟩], some 1, #[]⟩,
      ⟨15, .pointerType, false, [⟨.type, ⟨0x13⟩, .unitReference 12⟩], none, #[]⟩]

def danglingSource : TypeSource :=
  { units := ⟨[danglingUnit]⟩, sections := default, settings := default }

/-- The pointer has been finished when the structure fails, and is forgotten with it. -/
theorem danglingSource_leaves_no_trace :
    (attempt danglingSource (after danglingSource [11]) 12).2.reserved = [15, 12] ∧
      (after danglingSource [11, 12]).graph.nodes = (after danglingSource [11]).graph.nodes ∧
      (after danglingSource [11, 12]).graph.byOffset = [(11, 1)] ∧
      (after danglingSource [11, 12]).graph.failures =
        [(12, .unresolvedTypeReference 14 99)] := by
  have failed : (attempt danglingSource (after danglingSource [11]) 12).1 =
      .error (.unresolvedTypeReference 14 99) := by decide +kernel
  have unknown : (after danglingSource [11]).graph.idAt? 12 = none := by decide +kernel
  have unfailed : (after danglingSource [11]).graph.failureAt? 12 = none := by decide +kernel
  obtain ⟨nodes, byOffset, failures, _⟩ :=
    failed_root_leaves_no_trace danglingSource [11] 12 unknown unfailed (Prod.ext failed rfl)
  exact ⟨by decide +kernel, nodes, byOffset.trans (by decide +kernel), failures.trans (by decide +kernel)⟩

end TypeBuilder

end Dwarf
