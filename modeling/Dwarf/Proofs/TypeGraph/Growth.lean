import Mathlib.Data.List.Forall2
import Dwarf.Proofs.Except
import Dwarf.Proofs.TypeGraph.Resolving

/-!
# Computations that number new entries

While types are resolved a graph only grows: entries that have a number keep it, and the nodes that
were there when a computation began are not touched by it.  A computation is described by the value
it yields, in a way that stays true however much the graph grows afterwards.  Nothing is said about
a computation that fails, since the graph it leaves is never used.
-/

namespace Dwarf

namespace TypeGraph

/-- A later state of a graph, in which only entries without a number have been added. -/
structure Grows (graph later : TypeGraph) : Prop where
  idAt? : ∀ {offset id}, graph.idAt? offset = some id → later.idAt? offset = some id
  nodes : ∀ {id}, id < graph.size → later.nodes[id]? = graph.nodes[id]?
  failures : later.failures = graph.failures

theorem Grows.refl (graph : TypeGraph) : graph.Grows graph :=
  ⟨id, fun _ => rfl, rfl⟩

theorem Grows.size_le {graph later : TypeGraph} (grows : graph.Grows later) :
    graph.size ≤ later.size := by
  refine Nat.le_of_not_lt fun last => ?_
  have same := grows.nodes last
  have outside : later.nodes[later.size]? = none := Array.getElem?_eq_none (Nat.le_refl _)
  rw [outside] at same
  exact Nat.not_le_of_lt last (Array.getElem?_eq_none_iff.mp same.symm)

theorem Grows.trans {graph later last : TypeGraph} (first : graph.Grows later)
    (second : later.Grows last) : graph.Grows last where
  idAt? := fun known => second.idAt? (first.idAt? known)
  nodes := fun within =>
    (second.nodes (Nat.lt_of_lt_of_le within first.size_le)).trans (first.nodes within)
  failures := second.failures.trans first.failures

theorem Grows.node {graph later : TypeGraph} (grows : graph.Grows later) {id : TypeId}
    (within : id < graph.size) : later.node id = graph.node id := by
  rw [TypeGraph.node, TypeGraph.node, grows.nodes within]

theorem Grows.extends {graph later : TypeGraph} (grows : graph.Grows later) :
    later.Extends graph where
  knows := fun ⟨id, known⟩ => ⟨id, grows.idAt? known⟩
  fails := fun ⟨error, failed⟩ => ⟨error, by rwa [failureAt?, grows.failures]⟩

theorem idAt?_reserve (graph : TypeGraph) (offset other : Nat) :
    (graph.reserve offset).idAt? other =
      if other = offset then some graph.size else graph.idAt? other := by
  unfold TypeGraph.idAt? reserve
  exact lookup_cons_if ..

theorem Grows.number {graph later : TypeGraph} {offset : Nat}
    (grows : (graph.reserve offset).Grows later) : later.idAt? offset = some graph.size := by
  refine grows.idAt? ?_
  rw [idAt?_reserve, if_pos rfl]

theorem grows_reserve {graph : TypeGraph} {offset : Nat} (fresh : graph.idAt? offset = none) :
    graph.Grows (graph.reserve offset) where
  idAt? := by
    intro other id known
    have differs : other ≠ offset := by
      rintro rfl
      rw [fresh] at known
      cases known
    rw [idAt?_reserve, if_neg differs, known]
  nodes := fun within => Array.getElem?_push_lt within ▸ (Array.getElem?_eq_getElem within).symm
  failures := rfl

theorem node_fill {graph : TypeGraph} {id : TypeId} (within : id < graph.size)
    (node : TypeNode) : (graph.fill id node).node id = node := by
  have inside : id < graph.nodes.size := within
  simp [TypeGraph.node, fill, inside]

theorem node_fill_ne {graph : TypeGraph} {id other : TypeId} (differs : id ≠ other)
    (node : TypeNode) : (graph.fill id node).node other = graph.node other := by
  rw [TypeGraph.node, fill, Array.getElem?_setIfInBounds_ne differs, TypeGraph.node]

theorem Grows.fill {graph later : TypeGraph} (grows : graph.Grows later) (node : TypeNode) :
    graph.Grows (later.fill graph.size node) where
  idAt? := grows.idAt?
  nodes := by
    intro id within
    rw [← grows.nodes within]
    exact Array.getElem?_setIfInBounds_ne (Nat.ne_of_gt within)
  failures := grows.failures

end TypeGraph

namespace Resolving

variable {α β : Type} {inv : TypeGraph → Prop}

/-- A computation keeps a property of graphs, makes them grow, and yields values of which something
holds from then on. -/
def Yields (inv : TypeGraph → Prop) (computation : Resolving α) (post : α → TypeGraph → Prop) :
    Prop :=
  ∀ graph value later, inv graph → computation graph = .ok (value, later) →
    inv later ∧ graph.Grows later ∧ ∀ last, later.Grows last → post value last

theorem yields_pure {post : α → TypeGraph → Prop} {value : α} (holds : ∀ graph, post value graph) :
    Yields inv (pure value : Resolving α) post := by
  intro graph _ _ kept computed
  cases computed
  exact ⟨kept, .refl graph, fun last _ => holds last⟩

theorem yields_get :
    Yields inv (get : Resolving TypeGraph) fun found graph => inv found ∧ found.Grows graph := by
  intro graph _ _ kept computed
  cases computed
  exact ⟨kept, .refl graph, fun _ onward => ⟨kept, onward⟩⟩

theorem yields_throw {post : α → TypeGraph → Prop} (error : Error) :
    Yields inv (throw error : Resolving α) post := by
  intro _ _ _ _ computed
  cases computed

/-- The second part may rely on what the first one has yielded. -/
theorem Yields.bind {first : Resolving α} {second : α → Resolving β}
    {post : α → TypeGraph → Prop} {after : β → TypeGraph → Prop} (left : Yields inv first post)
    (right : ∀ value, Yields inv (second value) fun result graph =>
      post value graph → after result graph) :
    Yields inv (first >>= second) after := by
  intro graph result last kept computed
  change (first graph >>= fun pair => second pair.1 pair.2) = _ at computed
  cases begun : first graph with
  | error error =>
      rw [begun] at computed
      cases computed
  | ok pair =>
      obtain ⟨value, middle⟩ := pair
      rw [begun] at computed
      obtain ⟨kept_middle, grows_first, holds⟩ := left _ _ _ kept begun
      obtain ⟨kept_last, grows_second, follows⟩ := right value _ _ _ kept_middle computed
      refine ⟨kept_last, grows_first.trans grows_second, fun final onward => ?_⟩
      exact follows final onward (holds final (grows_second.trans onward))

theorem Yields.bind_at {first : Resolving α} {second : α → Resolving β}
    {post : α → TypeGraph → Prop} {after : β → TypeGraph → Prop} (left : Yields inv first post)
    (right : ∀ value, Yields (fun graph => inv graph ∧ post value graph) (second value) after) :
    Yields inv (first >>= second) after := by
  intro graph result last kept computed
  change (first graph >>= fun pair => second pair.1 pair.2) = _ at computed
  obtain ⟨⟨value, middle⟩, begun, ended⟩ := bind_eq_ok_iff.mp computed
  obtain ⟨kept_middle, grows_first, holds⟩ := left _ _ _ kept begun
  obtain ⟨kept_last, grows_second, follows⟩ :=
    right value _ _ _ ⟨kept_middle, holds middle (.refl middle)⟩ ended
  exact ⟨kept_last.1, grows_first.trans grows_second, follows⟩

theorem Yields.mono {computation : Resolving α} {post after : α → TypeGraph → Prop}
    (yields : Yields inv computation post)
    (weaker : ∀ value graph, post value graph → after value graph) :
    Yields inv computation after := by
  intro graph value later kept computed
  obtain ⟨kept_later, grows, holds⟩ := yields _ _ _ kept computed
  exact ⟨kept_later, grows, fun last onward => weaker value last (holds last onward)⟩

theorem yields_mapM {computation : α → Resolving β} {each : α → β → TypeGraph → Prop}
    (values : List α) (yields : ∀ value ∈ values, Yields inv (computation value) (each value)) :
    Yields inv (values.mapM computation) fun results graph =>
      List.Forall₂ (fun value result => each value result graph) values results := by
  induction values with
  | nil =>
      rw [List.mapM_nil]
      exact yields_pure fun _ => .nil
  | cons value values ih =>
      rw [List.forall_mem_cons] at yields
      rw [List.mapM_cons]
      refine yields.1.bind fun result => (ih yields.2).bind fun results => ?_
      exact yields_pure fun graph others first => .cons first others

end Resolving

end Dwarf
