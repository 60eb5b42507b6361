import Mathlib.Data.List.Forall2
import Mathlib.Logic.Relation
import Dwarf.TypeGraph

/-!
# Bisimulations of types

A bisimulation relates nodes that say the same about themselves and whose corresponding edges lead
to related nodes again.  Equality is one, and so are the converse of a bisimulation and the
composite of two; to be related by some bisimulation is therefore an equivalence, whatever cycles
the graph has.
-/

namespace Dwarf

/-- Two members say the same, and their types are related. -/
structure Member.Related (related : TypeId → TypeId → Prop) (member other : Member) : Prop where
  name : member.name = other.name
  byteOffset : member.byteOffset = other.byteOffset
  bitOffset : member.bitOffset = other.bitOffset
  bitSize : member.bitSize = other.bitSize
  isBase : member.isBase = other.isBase
  type : related member.type other.type

/-- Two kinds are of one constructor and say the same, and corresponding edges lead to related
types. -/
inductive TypeKind.Related (related : TypeId → TypeId → Prop) : TypeKind → TypeKind → Prop where
  | void : Related related .void .void
  | base (encoding : UInt8) : Related related (.base encoding) (.base encoding)
  | pointer {x y : TypeId} (target : related x y) : Related related (.pointer x) (.pointer y)
  | reference {x y : TypeId} (target : related x y) (rvalue : Bool) :
      Related related (.reference x rvalue) (.reference y rvalue)
  | array {x y : TypeId} (element : related x y) (dimensions : List Dimension) :
      Related related (.array x dimensions) (.array y dimensions)
  | composite (kind : CompositeKind) {members others : List Member}
      (each : List.Forall₂ (Member.Related related) members others) (declaration : Bool) :
      Related related (.composite kind members declaration) (.composite kind others declaration)
  | enumeration {underlying other : Option TypeId} (integer : Option.Rel related underlying other)
      (enumerators : List Enumerator) :
      Related related (.enumeration underlying enumerators) (.enumeration other enumerators)
  | typedef {x y : TypeId} (target : related x y) : Related related (.typedef x) (.typedef y)
  | qualified (qualifier : Qualifier) {x y : TypeId} (target : related x y) :
      Related related (.qualified qualifier x) (.qualified qualifier y)
  | subroutine {x y : TypeId} {parameters others : List TypeId} (returnType : related x y)
      (each : List.Forall₂ related parameters others) (variadic : Bool) :
      Related related (.subroutine x parameters variadic) (.subroutine y others variadic)
  | unspecified : Related related .unspecified .unspecified
  | pending : Related related .pending .pending

/-- Related nodes say the same, and their corresponding edges lead to related nodes. -/
structure TypeGraph.IsBisimulation (graph : TypeGraph) (related : TypeId → TypeId → Prop) :
    Prop where
  name : ∀ {x y}, related x y → (graph.node x).name = (graph.node y).name
  byteSize : ∀ {x y}, related x y → (graph.node x).byteSize = (graph.node y).byteSize
  kind : ∀ {x y}, related x y → TypeKind.Related related (graph.node x).kind (graph.node y).kind

/-! ## Labels and edges -/

section Edges

variable {related : TypeId → TypeId → Prop}

theorem Member.related_iff {member other : Member} :
    Member.Related related member other ↔
      { member with type := 0 } = { other with type := 0 } ∧ related member.type other.type := by
  constructor
  · rintro ⟨name, byteOffset, bitOffset, bitSize, isBase, type⟩
    refine ⟨?_, type⟩
    rw [name, byteOffset, bitOffset, bitSize, isBase]
  · rintro ⟨label, type⟩
    obtain ⟨name, _, byteOffset, bitOffset, bitSize, isBase⟩ := Member.mk.inj label
    exact ⟨name, byteOffset, bitOffset, bitSize, isBase, type⟩

theorem Member.forall_related_iff {members others : List Member} :
    List.Forall₂ (Member.Related related) members others ↔
      (members.map fun member => { member with type := 0 }) =
          (others.map fun member => { member with type := 0 }) ∧
        List.Forall₂ related (members.map Member.type) (others.map Member.type) := by
  induction members generalizing others with
  | nil => cases others <;> simp
  | cons member members ih =>
      cases others with
      | nil => simp
      | cons other others =>
          rw [List.forall₂_cons, ih, Member.related_iff, List.map_cons, List.map_cons,
            List.map_cons, List.map_cons, List.cons.injEq, List.forall₂_cons]
          exact and_and_and_comm

theorem option_rel_iff {underlying other : Option TypeId} :
    Option.Rel related underlying other ↔
      (underlying.map fun _ => 0) = (other.map fun _ => 0) ∧
        List.Forall₂ related underlying.toList other.toList := by
  cases underlying <;> cases other <;> simp

theorem map_eq_of_forall {types others : List TypeId} (each : List.Forall₂ related types others) :
    (types.map fun _ => 0) = (others.map fun _ => 0) := by
  rw [List.map_const', List.map_const', each.length_eq]

theorem TypeKind.edges_map (f : TypeId → TypeId) (kind : TypeKind) :
    (kind.map f).edges = kind.edges.map f := by
  cases kind <;> simp [TypeKind.map, TypeKind.edges, Option.toList_map]

/-- Kinds are related exactly when they agree apart from their edges and the edges are related. -/
theorem TypeKind.related_iff {first second : TypeKind} :
    TypeKind.Related related first second ↔
      (first.map fun _ => 0) = (second.map fun _ => 0) ∧
        List.Forall₂ related first.edges second.edges := by
  constructor
  · intro same
    cases same with
    | void | unspecified | pending | base encoding => exact ⟨rfl, .nil⟩
    | pointer target | typedef target | reference target rvalue | qualified qualifier target
    | array target dimensions =>
        exact ⟨rfl, .cons target .nil⟩
    | composite kind each declaration =>
        obtain ⟨labels, types⟩ := Member.forall_related_iff.mp each
        exact ⟨congrArg (TypeKind.composite kind · declaration) labels, types⟩
    | enumeration integer enumerators =>
        obtain ⟨labels, types⟩ := option_rel_iff.mp integer
        exact ⟨congrArg (TypeKind.enumeration · enumerators) labels, types⟩
    | subroutine returnType each variadic =>
        have labels := map_eq_of_forall each
        exact ⟨congrArg (TypeKind.subroutine 0 · variadic) labels, .cons returnType each⟩
  · rintro ⟨label, edges⟩
    cases first <;> cases second <;> try cases label
    case void.void.refl => exact .void
    case base.base.refl encoding => exact .base encoding
    case unspecified.unspecified.refl => exact .unspecified
    case pending.pending.refl => exact .pending
    case pointer.pointer.refl => cases edges with | cons target _ => exact .pointer target
    case typedef.typedef.refl => cases edges with | cons target _ => exact .typedef target
    case reference.reference.refl => cases edges with | cons target _ => exact .reference target _
    case qualified.qualified.refl => cases edges with | cons target _ => exact .qualified _ target
    case array.array.refl => cases edges with | cons element _ => exact .array element _
    case composite.composite =>
      obtain ⟨rfl, labels, rfl⟩ := TypeKind.composite.inj label
      exact .composite _ (Member.forall_related_iff.mpr ⟨labels, edges⟩) _
    case enumeration.enumeration =>
      obtain ⟨labels, rfl⟩ := TypeKind.enumeration.inj label
      exact .enumeration (option_rel_iff.mpr ⟨labels, edges⟩) _
    case subroutine.subroutine =>
      obtain ⟨_, _, rfl⟩ := TypeKind.subroutine.inj label
      cases edges with | cons returnType each => exact .subroutine returnType each _

end Edges

namespace TypeGraph

variable {graph : TypeGraph} {related other : TypeId → TypeId → Prop}

/-- A relation is a bisimulation exactly when related nodes have the same label and related
edges. -/
theorem isBisimulation_iff :
    graph.IsBisimulation related ↔ ∀ {x y}, related x y →
      (graph.node x).label = (graph.node y).label ∧
        List.Forall₂ related (graph.node x).edges (graph.node y).edges := by
  constructor
  · intro bisimulation x y same
    obtain ⟨labels, edges⟩ := TypeKind.related_iff.mp (bisimulation.kind same)
    refine ⟨?_, edges⟩
    rw [TypeNode.label, TypeNode.label, labels, bisimulation.name same,
      bisimulation.byteSize same]
  · intro alike
    refine ⟨fun same => ?_, fun same => ?_, fun same => ?_⟩
    · exact (TypeNode.mk.inj (alike same).1).1
    · exact (TypeNode.mk.inj (alike same).1).2.1
    · exact TypeKind.related_iff.mpr ⟨(TypeNode.mk.inj (alike same).1).2.2, (alike same).2⟩

theorem isBisimulation_eq (graph : TypeGraph) : graph.IsBisimulation (· = ·) := by
  rw [isBisimulation_iff]
  rintro x y rfl
  exact ⟨rfl, List.forall₂_same.mpr fun _ _ => rfl⟩

theorem IsBisimulation.flip (bisimulation : graph.IsBisimulation related) :
    graph.IsBisimulation fun x y => related y x := by
  rw [isBisimulation_iff] at bisimulation ⊢
  intro x y same
  obtain ⟨labels, edges⟩ := bisimulation same
  exact ⟨labels.symm, List.Forall₂.flip edges⟩

theorem forall₂_comp {first second third : List TypeId} (left : List.Forall₂ related first second)
    (right : List.Forall₂ other second third) :
    List.Forall₂ (Relation.Comp related other) first third := by
  induction left generalizing third with
  | nil =>
      cases right
      exact .nil
  | cons same _ ih =>
      cases right with
      | cons same_again rest => exact .cons ⟨_, same, same_again⟩ (ih rest)

theorem IsBisimulation.comp (left : graph.IsBisimulation related)
    (right : graph.IsBisimulation other) : graph.IsBisimulation (Relation.Comp related other) := by
  rw [isBisimulation_iff] at left right ⊢
  rintro x z ⟨y, same, same_again⟩
  obtain ⟨labels, edges⟩ := left same
  obtain ⟨more_labels, more_edges⟩ := right same_again
  exact ⟨labels.trans more_labels, forall₂_comp edges more_edges⟩

/-- Some bisimulation relates the two types. -/
def Bisimilar (graph : TypeGraph) (x y : TypeId) : Prop :=
  ∃ related, graph.IsBisimulation related ∧ related x y

theorem bisimilar_equivalence (graph : TypeGraph) : Equivalence graph.Bisimilar where
  refl x := ⟨_, isBisimulation_eq graph, rfl⟩
  symm := by
    rintro x y ⟨related, bisimulation, same⟩
    exact ⟨_, bisimulation.flip, same⟩
  trans := by
    rintro x y z ⟨related, bisimulation, same⟩ ⟨other, other_bisimulation, same_again⟩
    exact ⟨_, bisimulation.comp other_bisimulation, y, same, same_again⟩

end TypeGraph

end Dwarf
