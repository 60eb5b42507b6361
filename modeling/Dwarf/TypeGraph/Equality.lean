import Dwarf.TypeGraph

/-! # Structural equality of types

Two types are equal if their labels agree and their edges lead to equal types. Types may refer to
themselves, so a pair that is being compared is assumed to be equal when it is met again: the
comparison looks for a difference and fails to find one. It ends because a graph has finitely many
pairs of nodes. -/

namespace Dwarf

namespace TypeGraph

/-- All pairs of nodes. -/
def pairs (graph : TypeGraph) : List (TypeId × TypeId) :=
  (List.range graph.size).flatMap fun x => (List.range graph.size).map fun y => (x, y)

theorem mem_pairs {graph : TypeGraph} {x y : TypeId} :
    (x, y) ∈ graph.pairs ↔ x < graph.size ∧ y < graph.size := by
  simp [pairs]

/-- The number of pairs of nodes that are not assumed to be equal. -/
def unassumed (graph : TypeGraph) (assumed : List (TypeId × TypeId)) : Nat :=
  (graph.pairs.filter fun pair => !assumed.contains pair).length

theorem filter_cons_lt {pair : TypeId × TypeId} {assumed : List (TypeId × TypeId)}
    (fresh : pair ∉ assumed) :
    ∀ {all : List (TypeId × TypeId)}, pair ∈ all →
      (all.filter fun other => !(pair :: assumed).contains other).length <
        (all.filter fun other => !assumed.contains other).length := by
  intro all present
  induction all with
  | nil => cases present
  | cons head rest shorter =>
    have le : (rest.filter fun other => !(pair :: assumed).contains other).length ≤
        (rest.filter fun other => !assumed.contains other).length := by
      rw [← List.countP_eq_length_filter, ← List.countP_eq_length_filter]
      apply List.countP_mono_left
      intro other _ kept
      simp_all
    by_cases same : head = pair
    · subst same
      simp only [List.contains_eq_mem, List.mem_cons] at le ⊢
      simpa [fresh] using Nat.lt_succ_of_le (by simpa [fresh] using le)
    · have deeper := shorter (by simpa [Ne.symm same] using present)
      by_cases known : head ∈ assumed <;> simp_all

theorem unassumed_cons_lt {graph : TypeGraph} {x y : TypeId} {assumed : List (TypeId × TypeId)}
    (fresh : (x, y) ∉ assumed) (left : x < graph.size) (right : y < graph.size) :
    graph.unassumed ((x, y) :: assumed) < graph.unassumed assumed :=
  filter_cons_lt fresh (mem_pairs.2 ⟨left, right⟩)

theorem unassumed_cons_le (graph : TypeGraph) (pair : TypeId × TypeId)
    (assumed : List (TypeId × TypeId)) :
    graph.unassumed (pair :: assumed) ≤ graph.unassumed assumed := by
  unfold unassumed
  rw [← List.countP_eq_length_filter, ← List.countP_eq_length_filter]
  apply List.countP_mono_left
  intro other _ kept
  simp_all

/-- A number that is not in use has no edges. -/
theorem edges_eq_nil {graph : TypeGraph} {id : TypeId} (outside : graph.size ≤ id) :
    (graph.node id).edges = [] := by
  simp [node, TypeGraph.size] at *
  simp [outside, TypeNode.pending, TypeNode.edges, TypeKind.edges]

/-- Whether no difference is found in some pairs of types, assuming that others are equal. -/
def agree (graph : TypeGraph) (assumed : List (TypeId × TypeId)) :
    List (TypeId × TypeId) → Bool
  | [] => true
  | (x, y) :: rest =>
    if x = y ∨ (x, y) ∈ assumed then graph.agree assumed rest
    else if (graph.node x).label = (graph.node y).label then
      graph.agree ((x, y) :: assumed) ((graph.node x).edges.zip (graph.node y).edges ++ rest)
    else false
termination_by rest => (graph.unassumed assumed, rest.length)
decreasing_by
  · exact Prod.Lex.right _ (Nat.lt_succ_self _)
  · rename_i fresh _
    by_cases inside : x < graph.size ∧ y < graph.size
    · exact Prod.Lex.left _ _
        (unassumed_cons_lt (fun known => fresh (.inr known)) inside.1 inside.2)
    · have none : (graph.node x).edges.zip (graph.node y).edges = [] := by
        rcases Nat.lt_or_ge x graph.size with left | left
        · rcases Nat.lt_or_ge y graph.size with right | right
          · exact absurd ⟨left, right⟩ inside
          · simp [edges_eq_nil right]
        · simp [edges_eq_nil left]
      rw [none]
      rcases Nat.lt_or_eq_of_le (unassumed_cons_le graph (x, y) assumed) with less | same
      · exact Prod.Lex.left _ _ less
      · rw [same]
        exact Prod.Lex.right _ (Nat.lt_succ_self _)

/-- Whether two types are equal as far as can be seen by following edges. -/
def structurallyEqual (graph : TypeGraph) (x y : TypeId) : Bool :=
  graph.agree [] [(x, y)]

end TypeGraph

end Dwarf
