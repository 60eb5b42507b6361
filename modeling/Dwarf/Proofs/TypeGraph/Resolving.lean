import Dwarf.TypeGraph.Build
import Dwarf.Proofs.Lookup

/-!
# Computations that extend a graph

What a failed resolution has done to a graph is undone, so proofs may take it to have done nothing:
`TypeSource.resolve` delivers no graph when it fails, and `TypeSource.addRoot` goes on with the
graph that it began with.

Resolving only ever adds entries to a graph.  A computation is described by what it keeps, by what
is known once it has succeeded, and by what its failure means; computations that are put together
from others are described by their parts.
-/

namespace Dwarf

/-- A computation that adds types to a graph, and has no effect on it if it fails. -/
abbrev Resolving : Type → Type :=
  StateT TypeGraph (Except Error)

/-- A way to the type of an entry: given the offset of the entry that refers to it and its own
offset. -/
abbrev TypeResolver : Type :=
  Nat → Nat → Resolving TypeId

namespace TypeSource

/-- Resolve the entry at `offset`, which the entry at `origin` refers to, following at most `count`
references from there on. -/
def resolve (source : TypeSource) : Nat → TypeResolver
  | count, origin, offset => do
    let graph ← get
    match graph.idAt? offset, graph.failureAt? offset, source.units.entry? offset with
    | some id, _, _ => return id
    | none, some error, _ => throw error
    | none, none, none => throw (.unresolvedTypeReference origin offset)
    | none, none, some entry =>
      match count with
      | 0 => throw (.typeNestingTooDeep offset maxNesting)
      | count + 1 =>
        let id := graph.size
        set (graph.reserve offset)
        let node ← source.nodeOf (source.resolve count) entry
        modify fun graph => graph.fill id node
        return id

/-- Add the type entry at an offset to a graph. If that fails the graph remains as it was and the
failure is noted. -/
def addRoot (source : TypeSource) (graph : TypeGraph) (offset : Nat) : TypeGraph :=
  if (graph.idAt? offset).isSome || (graph.failureAt? offset).isSome then graph
  else
    match source.resolve maxNesting offset offset graph with
    | .ok (_, extended) => extended
    | .error error => graph.fail offset error

end TypeSource

namespace TypeGraph

/-- The entry at an offset has a node. -/
def Knows (graph : TypeGraph) (offset : Nat) : Prop :=
  ∃ id, graph.idAt? offset = some id

/-- The entry at an offset could not be resolved. -/
def Fails (graph : TypeGraph) (offset : Nat) : Prop :=
  ∃ error, graph.failureAt? offset = some error

theorem not_knows_iff {graph : TypeGraph} {offset : Nat} :
    ¬graph.Knows offset ↔ graph.idAt? offset = none := by
  simp [Knows, Option.eq_none_iff_forall_ne_some]

/-- What was known about entries is still known. -/
structure Extends (later graph : TypeGraph) : Prop where
  knows : ∀ {offset}, graph.Knows offset → later.Knows offset
  fails : ∀ {offset}, graph.Fails offset → later.Fails offset

theorem Extends.refl (graph : TypeGraph) : graph.Extends graph :=
  ⟨id, id⟩

theorem Extends.trans {last later graph : TypeGraph} (second : last.Extends later)
    (first : later.Extends graph) : last.Extends graph :=
  ⟨fun known => second.knows (first.knows known), fun failed => second.fails (first.fails failed)⟩

theorem knows_reserve {graph : TypeGraph} {offset other : Nat} :
    (graph.reserve offset).Knows other ↔ other = offset ∨ graph.Knows other := by
  unfold Knows idAt? reserve
  rw [lookup_cons_if]
  by_cases same : other = offset
  · simp [same]
  · simp [same]

theorem fails_fail {graph : TypeGraph} {offset other : Nat} {error : Error} :
    (graph.fail offset error).Fails other ↔ other = offset ∨ graph.Fails other := by
  unfold Fails failureAt? fail
  rw [lookup_cons_if]
  by_cases same : other = offset
  · simp [same]
  · simp [same]

theorem extends_reserve (graph : TypeGraph) (offset : Nat) :
    (graph.reserve offset).Extends graph :=
  ⟨fun known => knows_reserve.mpr (.inr known), id⟩

theorem extends_fail (graph : TypeGraph) (offset : Nat) (error : Error) :
    (graph.fail offset error).Extends graph :=
  ⟨id, fun failed => fails_fail.mpr (.inr failed)⟩

theorem extends_fill (graph : TypeGraph) (id : TypeId) (node : TypeNode) :
    (graph.fill id node).Extends graph :=
  ⟨fun known => known, fun failed => failed⟩

end TypeGraph

namespace Resolving

variable {α β : Type} {inv post after : TypeGraph → Prop} {broken : Prop}

/-- What a computation that was started at a graph may come to.  If it succeeds it leads to an
extension of the graph that has a property again, and in which and in whose extensions something is
known.  If it fails that has a reason. -/
inductive Outcome (inv : TypeGraph → Prop) (broken : Prop) (post : TypeGraph → Prop)
    (graph : TypeGraph) : Except Error (α × TypeGraph) → Prop where
  | ok {value : α} {later : TypeGraph} (kept : inv later) (extended : later.Extends graph)
      (known : ∀ last : TypeGraph, last.Extends later → post last) :
      Outcome inv broken post graph (.ok (value, later))
  | error {error : Error} (reason : broken) : Outcome inv broken post graph (.error error)

/-- The outcome of a computation at every graph with a property. -/
def Meets (inv : TypeGraph → Prop) (broken : Prop) (post : TypeGraph → Prop)
    (computation : Resolving α) : Prop :=
  ∀ graph, inv graph → Outcome inv broken post graph (computation graph)

theorem meets_pure (always : ∀ graph, post graph) (value : α) :
    Meets inv broken post (pure value : Resolving α) :=
  fun graph holds => .ok holds (.refl graph) fun last _ => always last

theorem meets_get (always : ∀ graph, post graph) :
    Meets inv broken post (get : Resolving TypeGraph) :=
  fun graph holds => .ok holds (.refl graph) fun last _ => always last

theorem meets_throw (reason : broken) (error : Error) :
    Meets inv broken post (throw error : Resolving α) :=
  fun _ _ => .error reason

theorem Outcome.imp {weaker : Prop} {graph : TypeGraph} {result : Except Error (α × TypeGraph)}
    (outcome : Outcome inv broken post graph result) (reason : broken → weaker)
    (known : ∀ graph, post graph → after graph) : Outcome inv weaker after graph result := by
  cases outcome with
  | ok kept extended holds => exact .ok kept extended fun last later => known last (holds last later)
  | error why => exact .error (reason why)

theorem Meets.mono {computation : Resolving α} (meets : Meets inv broken post computation)
    (known : ∀ graph, post graph → after graph) : Meets inv broken after computation :=
  fun graph holds => (meets graph holds).imp id known

theorem Meets.because {weaker : Prop} {computation : Resolving α}
    (meets : Meets inv broken post computation) (reason : broken → weaker) :
    Meets inv weaker post computation :=
  fun graph holds => (meets graph holds).imp reason fun _ => id

theorem Meets.bind {first : Resolving α} {second : α → Resolving β}
    (left : Meets inv broken post first) (right : ∀ value, Meets inv broken after (second value)) :
    Meets inv broken (fun graph => post graph ∧ after graph) (first >>= second) := by
  intro graph holds
  have begun := left graph holds
  change Outcome _ _ _ _ (first graph >>= fun pair => second pair.1 pair.2)
  generalize first graph = result at begun ⊢
  cases begun with
  | error reason => exact .error reason
  | @ok value middle kept extended known =>
      have ended := right value middle kept
      change Outcome _ _ _ _ (second value middle)
      generalize second value middle = last_result at ended ⊢
      cases ended with
      | error reason => exact .error reason
      | ok kept_again extended_again known_again =>
          refine .ok kept_again (extended_again.trans extended) fun last later => ⟨?_, ?_⟩
          · exact known last (later.trans extended_again)
          · exact known_again last later

theorem Meets.bind_left {first : Resolving α} {second : α → Resolving β}
    (left : Meets inv broken post first)
    (right : ∀ value, Meets inv broken (fun _ => True) (second value)) :
    Meets inv broken post (first >>= second) :=
  (left.bind right).mono fun _ both => both.1

theorem meets_mapM {computation : α → Resolving β} {each : α → TypeGraph → Prop} (values : List α)
    (meets : ∀ value ∈ values, Meets inv broken (each value) (computation value)) :
    Meets inv broken (fun graph => ∀ value ∈ values, each value graph)
      (values.mapM computation) := by
  induction values with
  | nil =>
      rw [List.mapM_nil]
      exact meets_pure (fun graph value member => nomatch member) []
  | cons value values ih =>
      rw [List.forall_mem_cons] at meets
      rw [List.mapM_cons]
      have both := meets.1.bind fun found => (ih meets.2).bind_left fun others =>
        meets_pure (fun _ => trivial) (found :: others)
      exact both.mono fun graph each => List.forall_mem_cons.mpr each

end Resolving

namespace TypeSource

variable {source : TypeSource}

/-! ## Entries -/

/-- Resolving an entry that is neither known nor known to fail. -/
def explore (source : TypeSource) (offset : Nat) (entry : EntryRef) : Nat → Resolving TypeId
  | 0 => throw (.typeNestingTooDeep offset maxNesting)
  | count + 1 => fun graph =>
      (source.nodeOf (source.resolve count) entry (graph.reserve offset)).map
        fun (node, later) => (graph.size, later.fill graph.size node)

theorem resolve_at (count origin offset : Nat) (graph : TypeGraph) :
    source.resolve count origin offset graph =
      match graph.idAt? offset, graph.failureAt? offset, source.units.entry? offset with
      | some id, _, _ => .ok (id, graph)
      | none, some error, _ => .error error
      | none, none, none => .error (.unresolvedTypeReference origin offset)
      | none, none, some entry => source.explore offset entry count graph := by
  unfold resolve
  change (match graph.idAt? offset, graph.failureAt? offset, source.units.entry? offset with
    | some id, _, _ => _
    | none, some error, _ => _
    | none, none, none => _
    | none, none, some entry => _ : Resolving TypeId) graph = _
  cases graph.idAt? offset with
  | some id => rfl
  | none =>
      cases graph.failureAt? offset with
      | some error => rfl
      | none =>
          cases source.units.entry? offset with
          | none => rfl
          | some entry =>
              cases count with
              | zero => rfl
              | succ count => rfl

/-- An entry that has been explored has the next number, and its node is in the place kept first. -/
theorem explore_eq_ok {count offset : Nat} {entry : EntryRef} {graph later : TypeGraph}
    {id : TypeId} (explored : source.explore offset entry count graph = .ok (id, later)) :
    ∃ fewer node middle, count = fewer + 1 ∧ id = graph.size ∧
      source.nodeOf (source.resolve fewer) entry (graph.reserve offset) = .ok (node, middle) ∧
      later = middle.fill graph.size node := by
  cases count with
  | zero => cases explored
  | succ fewer =>
      cases built : source.nodeOf (source.resolve fewer) entry (graph.reserve offset) with
      | error error =>
          simp only [explore, built] at explored
          cases explored
      | ok pair =>
          simp only [explore, built] at explored
          cases explored
          exact ⟨fewer, pair.1, pair.2, rfl, rfl, built, rfl⟩

/-- An entry that has been resolved was known, or it has been explored. -/
theorem resolve_eq_ok {count origin offset : Nat} {graph later : TypeGraph} {id : TypeId}
    (resolved : source.resolve count origin offset graph = .ok (id, later)) :
    graph.idAt? offset = some id ∧ later = graph ∨
      graph.idAt? offset = none ∧ graph.failureAt? offset = none ∧
        ∃ entry, source.units.entry? offset = some entry ∧
          source.explore offset entry count graph = .ok (id, later) := by
  rw [resolve_at] at resolved
  cases known : graph.idAt? offset with
  | some other =>
      rw [known] at resolved
      cases resolved
      exact .inl ⟨rfl, rfl⟩
  | none =>
      cases failed : graph.failureAt? offset with
      | some error => simp [known, failed] at resolved
      | none =>
          cases found : source.units.entry? offset with
          | none => simp [known, failed, found] at resolved
          | some entry =>
              simp only [known, failed, found] at resolved
              exact .inr ⟨rfl, rfl, entry, rfl, resolved⟩

/-- What a root does to a graph. -/
theorem addRoot_cases (source : TypeSource) (graph : TypeGraph) (offset : Nat) :
    source.addRoot graph offset = graph ∧ (graph.Knows offset ∨ graph.Fails offset) ∨
      (¬graph.Knows offset ∧ ¬graph.Fails offset) ∧
        ((∃ id, source.resolve maxNesting offset offset graph =
            .ok (id, source.addRoot graph offset)) ∨
          ∃ error, source.resolve maxNesting offset offset graph = .error error ∧
            source.addRoot graph offset = graph.fail offset error) := by
  unfold addRoot
  split
  next decided =>
    rw [Bool.or_eq_true, Option.isSome_iff_exists, Option.isSome_iff_exists] at decided
    exact .inl ⟨rfl, decided⟩
  next undecided =>
    rw [Bool.or_eq_true, Option.isSome_iff_exists, Option.isSome_iff_exists, not_or] at undecided
    refine .inr ⟨undecided, ?_⟩
    cases resolved : source.resolve maxNesting offset offset graph with
    | error error => exact .inr ⟨error, rfl, rfl⟩
    | ok pair => exact .inl ⟨pair.1, rfl⟩

end TypeSource

end Dwarf
