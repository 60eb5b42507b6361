import Dwarf.Proofs.TypeGraph.Bisimulation
import Dwarf.TypeGraph.Equality

/-!
# Structural equality decides bisimilarity

A comparison that finds no difference has assumed a set of pairs each of which has been checked:
together with equality they are a bisimulation.  A comparison that finds a difference has come to
it along edges from the pair that it started from, so no bisimulation relates that pair.
-/

namespace Dwarf

namespace TypeGraph

variable {graph : TypeGraph}

/-- Nothing is left to check for two types if they are the same or a pair of a list. -/
def Assumed (known : List (TypeId × TypeId)) (x y : TypeId) : Prop :=
  x = y ∨ (x, y) ∈ known

/-- Two types agree in their labels, and their edges lead to pairs of a list. -/
def Checked (graph : TypeGraph) (known : List (TypeId × TypeId)) (x y : TypeId) : Prop :=
  (graph.node x).label = (graph.node y).label ∧
    ∀ pair ∈ (graph.node x).edges.zip (graph.node y).edges, Assumed known pair.1 pair.2

/-- A comparison that finds no difference ends with all pairs checked that it has assumed. -/
theorem checked_of_agree {assumed pairs : List (TypeId × TypeId)}
    (agreed : graph.agree assumed pairs = true) :
    ∃ known, assumed ⊆ known ∧ (∀ pair ∈ pairs, Assumed known pair.1 pair.2) ∧
      ∀ x y, (x, y) ∈ known → (x, y) ∈ assumed ∨ graph.Checked known x y := by
  fun_induction agree graph assumed pairs with
  | case1 assumed =>
      refine ⟨assumed, List.Subset.refl _, ?_, fun x y member => .inl member⟩
      intro pair member
      cases member
  | case2 assumed x y rest skipped ih =>
      obtain ⟨known, larger, covers, checked⟩ := ih agreed
      refine ⟨known, larger, List.forall_mem_cons.mpr ⟨?_, covers⟩, checked⟩
      exact skipped.imp_right fun member => larger member
  | case3 assumed x y rest unknown labels ih =>
      obtain ⟨known, larger, covers, checked⟩ := ih agreed
      have here : (x, y) ∈ known := larger List.mem_cons_self
      refine ⟨known, fun pair member => larger (List.mem_cons_of_mem _ member), ?_, ?_⟩
      · refine List.forall_mem_cons.mpr ⟨.inr here, fun pair member => ?_⟩
        exact covers pair (List.mem_append_right _ member)
      · intro first second member
        obtain assumed_again | done := checked first second member
        · cases assumed_again with
          | head =>
              refine .inr ⟨labels, fun pair member => ?_⟩
              exact covers pair (List.mem_append_left _ member)
          | tail _ before => exact .inl before
        · exact .inr done
  | case4 assumed x y rest unknown labels => cases agreed

theorem length_edges_eq {first second : TypeNode} (labels : first.label = second.label) :
    first.edges.length = second.edges.length := by
  have same : (first.kind.map fun _ => 0).edges = (second.kind.map fun _ => 0).edges :=
    congrArg TypeNode.edges labels
  rw [TypeKind.edges_map, TypeKind.edges_map] at same
  have lengths := congrArg List.length same
  rw [List.length_map, List.length_map] at lengths
  exact lengths

theorem isBisimulation_assumed {known : List (TypeId × TypeId)}
    (checked : ∀ x y, (x, y) ∈ known → graph.Checked known x y) :
    graph.IsBisimulation (Assumed known) := by
  rw [isBisimulation_iff]
  rintro x y (rfl | member)
  · exact ⟨rfl, List.forall₂_same.mpr fun _ _ => .inl rfl⟩
  · obtain ⟨labels, edges⟩ := checked x y member
    refine ⟨labels, List.forall₂_iff_zip.mpr ⟨length_edges_eq labels, ?_⟩⟩
    exact fun {_ _} member => edges _ member

/-- No difference is found between types that a bisimulation relates. -/
theorem agree_of_isBisimulation {related : TypeId → TypeId → Prop}
    (bisimulation : graph.IsBisimulation related) {assumed pairs : List (TypeId × TypeId)}
    (each : ∀ pair ∈ pairs, related pair.1 pair.2) : graph.agree assumed pairs = true := by
  fun_induction agree graph assumed pairs with
  | case1 assumed => rfl
  | case2 assumed x y rest skipped ih => exact ih (List.forall_mem_cons.mp each).2
  | case3 assumed x y rest unknown labels ih =>
      obtain ⟨here, others⟩ := List.forall_mem_cons.mp each
      refine ih fun pair member => ?_
      cases List.mem_append.mp member with
      | inl below =>
          have edges := (isBisimulation_iff.mp bisimulation here).2
          exact (List.forall₂_iff_zip.mp edges).2 below
      | inr later => exact others pair later
  | case4 assumed x y rest unknown labels =>
      have here := (List.forall_mem_cons.mp each).1
      exact absurd (isBisimulation_iff.mp bisimulation here).1 labels

theorem structurallyEqual_eq_true_iff {x y : TypeId} :
    graph.structurallyEqual x y = true ↔ graph.Bisimilar x y := by
  unfold structurallyEqual
  constructor
  · intro agreed
    obtain ⟨known, _, covers, checked⟩ := checked_of_agree agreed
    have all (x y : TypeId) (member : (x, y) ∈ known) : graph.Checked known x y :=
      (checked x y member).resolve_left (fun none => nomatch none)
    exact ⟨Assumed known, isBisimulation_assumed all, covers (x, y) List.mem_cons_self⟩
  · rintro ⟨related, bisimulation, same⟩
    refine agree_of_isBisimulation bisimulation fun pair member => ?_
    rw [List.mem_singleton] at member
    exact member ▸ same

/-- Structural equality holds exactly between the types that some bisimulation relates, and so it
is an equivalence. -/
theorem structurallyEqual_decides_bisimilarity (graph : TypeGraph) :
    (∀ x y, graph.structurallyEqual x y = true ↔
      ∃ related, graph.IsBisimulation related ∧ related x y) ∧
      Equivalence fun x y => graph.structurallyEqual x y = true := by
  refine ⟨fun x y => structurallyEqual_eq_true_iff, ?_⟩
  simp only [structurallyEqual_eq_true_iff]
  exact bisimilar_equivalence graph

end TypeGraph

end Dwarf
