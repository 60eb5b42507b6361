import Dwarf.Proofs.TypeGraph.Reference
import Dwarf.Proofs.TypeGraph.Resolving

/-!
# Walking the references of an entry

Resolving an entry is a walk, depth first and in order, over what entries ask for: the types of
other entries, and things that cannot be had at all.  Nodes do not matter to it, only which entries
it has come to and which are known to fail, so the walk can be done without a graph; and it fails
with the first demand that it cannot meet exactly if resolving does, with the same error.
-/

namespace Dwarf

/-- What the node of an entry takes. -/
inductive TypeDemand where
  /-- The type of the entry at `target`, to which the entry at `origin` refers. -/
  | type (origin target : Nat)
  /-- Something that cannot be had, and the error that says so. -/
  | missing (error : Error)

/-- A walk goes on from the entries that it has come to so far, or it fails. -/
abbrev TypeWalk : Type :=
  List Nat → Except Error (List Nat)

namespace TypeDemand

/-- Meet a demand, with some way to walk to an entry. -/
def meet (follow : Nat → Nat → TypeWalk) : TypeDemand → TypeWalk
  | type origin target => follow origin target
  | missing error => fun _ => .error error

/-- Meet demands one after the other. -/
def meetAll (follow : Nat → Nat → TypeWalk) : List TypeDemand → TypeWalk
  | [], seen => .ok seen
  | demand :: demands, seen => do meetAll follow demands (← demand.meet follow seen)

variable {follow : Nat → Nat → TypeWalk}

theorem meetAll_append (first second : List TypeDemand) :
    meetAll follow (first ++ second) =
      fun seen => meetAll follow first seen >>= meetAll follow second := by
  funext seen
  induction first generalizing seen with
  | nil => rfl
  | cons demand first ih =>
      rw [List.cons_append, meetAll, meetAll, bind_assoc]
      exact congrArg _ (funext ih)

theorem meetAll_singleton (demand : TypeDemand) : meetAll follow [demand] = demand.meet follow :=
  funext fun _ => bind_pure _

end TypeDemand

namespace TypeSource

open TypeDemand

/-- What the type attribute of an entry asks for. -/
def demandOf (referrer : EntryRef) : List TypeDemand :=
  match referrer.value? .type, referrer.reference? .type with
  | none, _ => []
  | some _, some target => [.type referrer.offset target]
  | some _, none => [.missing (.unresolvedTypeReference referrer.offset 0)]

/-- What a child of a composite type asks for.  Children that are neither members nor base classes
ask for nothing, nor do static members and base classes that are found at run time. -/
def demandOfMember (source : TypeSource) (child : EntryRef) : List TypeDemand :=
  if child.entry.flag .declaration then []
  else if child.tag = .member ∨ child.tag = .inheritance then
    match source.location? child with
    | .error error =>
      if child.tag = .inheritance ∧ child.entry.has .virtuality then [] else [.missing error]
    | .ok _ => demandOf child
  else []

/-- What the node of an entry takes, in order. -/
def demands (source : TypeSource) (entry : EntryRef) : List TypeDemand :=
  match entry.tag.shape? with
  | some .plain => []
  | some .target => demandOf entry
  | some .signature =>
    demandOf entry ++ (childrenOf entry .formalParameter).flatMap demandOf
  | some .composite => entry.children.flatMap source.demandOfMember
  | none => [.missing (.unsupportedTag entry.offset entry.tag)]

variable {source : TypeSource} {entry : EntryRef}

/-! ## Demands and references -/

theorem type_mem_demandOf {referrer : EntryRef} {origin target : Nat} :
    .type origin target ∈ demandOf referrer ↔
      origin = referrer.offset ∧ referrer.reference? .type = some target := by
  unfold demandOf
  cases value : referrer.value? .type with
  | none => simp [EntryRef.reference?, value]
  | some found =>
      cases reference : referrer.reference? .type with
      | none => simp
      | some other => simp [eq_comm]

theorem missing_mem_demandOf {referrer : EntryRef} {error : Error}
    (asked : .missing error ∈ demandOf referrer) :
    referrer.value? .type ≠ none ∧ referrer.reference? .type = none := by
  unfold demandOf at asked
  cases value : referrer.value? .type with
  | none => simp [value] at asked
  | some found =>
      cases reference : referrer.reference? .type with
      | none => simp
      | some other => simp [value, reference] at asked

theorem mem_memberEntries {child : EntryRef} :
    child ∈ entry.memberEntries ↔ child ∈ entry.children ∧
      child.entry.flag .declaration = false ∧ (child.tag = .member ∨ child.tag = .inheritance) := by
  simp [EntryRef.memberEntries]

/-- A child asks for something only if it is a member; then its type is asked for, or its place
cannot be evaluated. -/
theorem demandOfMember_cases {child : EntryRef} {demand : TypeDemand}
    (asked : demand ∈ source.demandOfMember child) :
    (child.entry.flag .declaration = false ∧ (child.tag = .member ∨ child.tag = .inheritance)) ∧
      (source.Places child ∧ demand ∈ demandOf child ∨
        ¬source.Places child ∧ ¬child.IsVirtualBase ∧ ∃ error, demand = .missing error) := by
  unfold demandOfMember at asked
  split at asked
  next => cases asked
  next visible =>
    split at asked
    next tag =>
      refine ⟨⟨by simpa using visible, tag⟩, ?_⟩
      cases location : source.location? child with
      | ok place =>
          rw [location] at asked
          exact .inl ⟨⟨place, location⟩, asked⟩
      | error error =>
          simp only [location] at asked
          split at asked
          next => cases asked
          next present =>
            refine .inr ⟨?_, present, error, List.mem_singleton.mp asked⟩
            rintro ⟨place, placed⟩
            cases location.symm.trans placed
    next => cases asked

theorem refers_of_demand {origin target : Nat} (asked : .type origin target ∈ source.demands entry) :
    ∃ referrer, source.Refers entry referrer ∧ referrer.reference? .type = some target := by
  unfold demands at asked
  cases shape : entry.tag.shape? with
  | none => simp [shape] at asked
  | some kind =>
      cases kind with
      | plain => simp [shape] at asked
      | target =>
          rw [shape] at asked
          exact ⟨entry, .own (.inl shape), (type_mem_demandOf.mp asked).2⟩
      | signature =>
          rw [shape] at asked
          obtain own | parameter := List.mem_append.mp asked
          · exact ⟨entry, .own (.inr shape), (type_mem_demandOf.mp own).2⟩
          · obtain ⟨child, listed, asked⟩ := List.mem_flatMap.mp parameter
            rw [childrenOf, List.mem_filter] at listed
            refine ⟨child, .parameter shape listed.1 (by simpa using listed.2), ?_⟩
            exact (type_mem_demandOf.mp asked).2
      | composite =>
          rw [shape] at asked
          obtain ⟨child, below, asked⟩ := List.mem_flatMap.mp asked
          obtain ⟨member, ⟨placed, asked⟩ | ⟨_, _, _, other⟩⟩ := demandOfMember_cases asked
          · refine ⟨child, .member shape (mem_memberEntries.mpr ⟨below, member⟩) fun _ => placed, ?_⟩
            exact (type_mem_demandOf.mp asked).2
          · cases other

theorem defective_of_demand {error : Error} (asked : .missing error ∈ source.demands entry) :
    source.Defective entry := by
  unfold demands at asked
  cases shape : entry.tag.shape? with
  | none => exact .tag shape
  | some kind =>
      cases kind with
      | plain => simp [shape] at asked
      | target =>
          rw [shape] at asked
          obtain ⟨present, unusable⟩ := missing_mem_demandOf asked
          exact .reference (.own (.inl shape)) present unusable
      | signature =>
          rw [shape] at asked
          obtain own | parameter := List.mem_append.mp asked
          · obtain ⟨present, unusable⟩ := missing_mem_demandOf own
            exact .reference (.own (.inr shape)) present unusable
          · obtain ⟨child, listed, asked⟩ := List.mem_flatMap.mp parameter
            rw [childrenOf, List.mem_filter] at listed
            obtain ⟨present, unusable⟩ := missing_mem_demandOf asked
            exact .reference (.parameter shape listed.1 (by simpa using listed.2)) present unusable
      | composite =>
          rw [shape] at asked
          obtain ⟨child, below, asked⟩ := List.mem_flatMap.mp asked
          obtain ⟨member, ⟨placed, asked⟩ | ⟨unplaced, present, _⟩⟩ := demandOfMember_cases asked
          · obtain ⟨present, unusable⟩ := missing_mem_demandOf asked
            have refers := Refers.member shape (mem_memberEntries.mpr ⟨below, member⟩)
              fun _ => placed
            exact .reference refers present unusable
          · exact .placement shape (mem_memberEntries.mpr ⟨below, member⟩) unplaced present

theorem demand_of_refers {referrer : EntryRef} {target : Nat} (sound : ¬source.Defective entry)
    (refers : source.Refers entry referrer) (reference : referrer.reference? .type = some target) :
    .type referrer.offset target ∈ source.demands entry := by
  have asked := type_mem_demandOf.mpr ⟨rfl, reference⟩
  unfold demands
  cases refers with
  | own shape =>
      obtain shape | shape := shape
      · rw [shape]
        exact asked
      · rw [shape]
        exact List.mem_append_left _ asked
  | parameter shape below parameter =>
      rw [shape]
      refine List.mem_append_right _ (List.mem_flatMap.mpr ⟨referrer, ?_, asked⟩)
      exact List.mem_filter.mpr ⟨below, by simp [parameter]⟩
  | member shape below described =>
      rw [shape]
      obtain ⟨child, visible, tag⟩ := mem_memberEntries.mp below
      refine List.mem_flatMap.mpr ⟨referrer, child, ?_⟩
      have placed : source.Places referrer := Classical.byContradiction fun unplaced =>
        sound (.placement shape below unplaced fun isVirtual => unplaced (described isVirtual))
      obtain ⟨place, location⟩ := placed
      rw [demandOfMember, if_neg (by simp [visible]), if_pos tag, location]
      exact asked

/-- What a demand of an entry leads to is an entry that it follows, unless the entry is defective. -/
theorem follows_of_demand {offset origin target : Nat} (found : source.units.entry? offset = some entry)
    (sound : ¬source.Defective entry) (asked : .type origin target ∈ source.demands entry) :
    source.Follows offset target := by
  obtain ⟨referrer, refers, reference⟩ := refers_of_demand asked
  refine ⟨entry, referrer, found, refers, reference, ?_⟩
  cases present : source.units.entry? target with
  | none => exact absurd (.target refers reference present) sound
  | some other => rfl

/-! ## Walks -/

/-- Walk to the entry at `offset`, which the entry at `origin` refers to, and from there on, not
more than `count` references deep. -/
def walk (source : TypeSource) (failureAt? : Nat → Option Error) : Nat → Nat → Nat → TypeWalk
  | count, origin, offset, seen =>
    if offset ∈ seen then .ok seen
    else
      match failureAt? offset, source.units.entry? offset with
      | some error, _ => .error error
      | none, none => .error (.unresolvedTypeReference origin offset)
      | none, some entry =>
        match count with
        | 0 => .error (.typeNestingTooDeep offset maxNesting)
        | count + 1 =>
          meetAll (walk source failureAt? count) (source.demands entry) (offset :: seen)

end TypeSource

/-- The entries that have a number. -/
def TypeGraph.offsets (graph : TypeGraph) : List Nat :=
  graph.byOffset.map Prod.fst

theorem TypeGraph.mem_offsets {graph : TypeGraph} {offset : Nat} :
    offset ∈ graph.offsets ↔ graph.idAt? offset ≠ none := by
  unfold idAt? offsets
  rw [Ne, List.lookup_eq_none_iff, List.mem_map]
  constructor
  · rintro ⟨place, given, rfl⟩ none_given
    simpa using none_given place given
  · intro some_given
    refine Classical.byContradiction fun absent => some_given fun place given => ?_
    exact bne_iff_ne.mpr fun same => absent ⟨place, given, same.symm⟩

/-! ## Computations and walks -/

namespace Resolving

variable {α β : Type} {failures : List (Nat × Error)}

/-- What a computation and a walk have come to is the same. -/
inductive Coincide (failures : List (Nat × Error)) :
    Except Error (α × TypeGraph) → Except Error (List Nat) → Prop where
  | ok {value : α} {later : TypeGraph} (kept : later.failures = failures) :
      Coincide failures (.ok (value, later)) (.ok later.offsets)
  | error (error : Error) : Coincide failures (.error error) (.error error)

/-- A computation is a walk, while some entries are known to fail. -/
def Walks (failures : List (Nat × Error)) (computation : Resolving α) (walk : TypeWalk) : Prop :=
  ∀ graph : TypeGraph, graph.failures = failures →
    Coincide failures (computation graph) (walk graph.offsets)

theorem walks_pure (value : α) : Walks failures (pure value : Resolving α) .ok :=
  fun _ kept => .ok kept

theorem walks_get : Walks failures (get : Resolving TypeGraph) .ok :=
  fun _ kept => .ok kept

theorem walks_throw (error : Error) :
    Walks failures (throw error : Resolving α) fun _ => .error error :=
  fun _ _ => .error error

theorem Walks.bind {first : Resolving α} {second : α → Resolving β} {walk rest : TypeWalk}
    (left : Walks failures first walk) (right : ∀ value, Walks failures (second value) rest) :
    Walks failures (first >>= second) fun seen => walk seen >>= rest := by
  intro graph kept
  have begun := left graph kept
  change Coincide _ (first graph >>= fun pair => second pair.1 pair.2) _
  generalize first graph = result at begun ⊢
  dsimp only
  generalize walk graph.offsets = walked at begun ⊢
  cases begun with
  | error error => exact .error error
  | @ok value later kept_later => exact right value later kept_later

theorem Walks.bind_stay {first : Resolving α} {second : α → Resolving β} {walk : TypeWalk}
    (left : Walks failures first walk) (right : ∀ value, Walks failures (second value) .ok) :
    Walks failures (first >>= second) walk := by
  have both := left.bind right
  have same : (fun seen => walk seen >>= (.ok : TypeWalk)) = walk :=
    funext fun seen => bind_pure (walk seen)
  exact same ▸ both

theorem walks_mapM {follow : Nat → Nat → TypeWalk} {computation : α → Resolving β}
    {demands : α → List TypeDemand}
    (walks : ∀ value, Walks failures (computation value) (TypeDemand.meetAll follow (demands value)))
    (values : List α) :
    Walks failures (values.mapM computation) (TypeDemand.meetAll follow (values.flatMap demands)) := by
  induction values with
  | nil =>
      rw [List.mapM_nil]
      exact walks_pure []
  | cons value values ih =>
      rw [List.mapM_cons, List.flatMap_cons]
      have both := (walks value).bind fun found =>
        ih.bind_stay fun others => walks_pure (found :: others)
      exact TypeDemand.meetAll_append _ _ ▸ both

end Resolving

namespace TypeSource

open Resolving TypeDemand

variable {source : TypeSource} {failures : List (Nat × Error)}

/-! ## Nodes -/

section Nodes

variable {resolve : TypeResolver} {follow : Nat → Nat → TypeWalk}
variable (walks : ∀ origin target, Walks failures (resolve origin target) (follow origin target))

include walks

theorem referent_walks (referrer : EntryRef) :
    Walks failures (referent resolve referrer) (meetAll follow (demandOf referrer)) := by
  unfold referent demandOf
  cases value : referrer.value? .type with
  | none => exact walks_pure _
  | some found =>
      cases reference : referrer.reference? .type with
      | none => exact meetAll_singleton (.missing _) ▸ walks_throw _
      | some target => exact meetAll_singleton (.type _ _) ▸ walks _ _

theorem member?_walks (child : EntryRef) :
    Walks failures (source.member? resolve child)
      (meetAll follow (source.demandOfMember child)) := by
  have described (isBase : Bool) (base : isBase = true ↔ child.tag = .inheritance) :
      Walks failures (source.describedMember resolve child isBase) (meetAll follow
        (match source.location? child with
        | .error error =>
          if child.tag = .inheritance ∧ child.entry.has .virtuality then [] else [.missing error]
        | .ok _ => demandOf child)) := by
    unfold describedMember
    cases source.location? child with
    | error error =>
        simp only [Bool.and_eq_true, base]
        split
        · exact walks_pure _
        · exact meetAll_singleton (.missing _) ▸ walks_throw _
    | ok location =>
        exact (referent_walks walks child).bind_stay fun _ =>
          walks_get.bind_stay fun _ => walks_pure _
  unfold member? demandOfMember
  split
  · exact walks_pure _
  · split
    next tag =>
      rw [if_pos (.inl tag)]
      exact described false (by rw [tag]; decide)
    next tag =>
      rw [if_pos (.inr tag)]
      exact described true (by rw [tag]; decide)
    next other_member other_base =>
      have other : ¬(child.tag = .member ∨ child.tag = .inheritance) :=
        not_or.mpr ⟨other_member, other_base⟩
      rw [if_neg other]
      exact walks_pure _

theorem members_walks (entry : EntryRef) :
    Walks failures (source.members resolve entry)
      (meetAll follow (entry.children.flatMap source.demandOfMember)) :=
  (walks_mapM (member?_walks walks) entry.children).bind_stay fun _ => walks_pure _

/-- Building the node of an entry is meeting what it asks for. -/
theorem nodeOf_walks (entry : EntryRef) :
    Walks failures (source.nodeOf resolve entry) (meetAll follow (source.demands entry)) := by
  have own := referent_walks walks entry
  have ends {kind : TypeKind} {size : Option UInt64} : Walks failures
      (pure ⟨entry.string? .name source.sections, size, kind⟩ : Resolving TypeNode) .ok :=
    walks_pure _
  unfold nodeOf
  split
  case h_1 tag | h_17 tag =>
    have shape : source.demands entry = [] := by simp only [demands, tag]; rfl
    exact shape ▸ ends
  case h_2 tag | h_3 tag | h_4 tag | h_11 tag | h_12 tag | h_13 tag | h_14 tag | h_15 tag =>
    have shape : source.demands entry = demandOf entry := by simp only [demands, tag]; rfl
    exact shape ▸ own.bind_stay fun _ => ends
  case h_5 tag =>
    have shape : source.demands entry = demandOf entry := by simp only [demands, tag]; rfl
    exact shape ▸ own.bind_stay fun _ => walks_get.bind_stay fun _ => ends
  case h_6 tag | h_7 tag | h_8 tag | h_9 tag =>
    have shape : source.demands entry = entry.children.flatMap source.demandOfMember := by
      simp only [demands, tag]; rfl
    exact shape ▸ (members_walks walks entry).bind_stay fun _ => ends
  case h_10 tag =>
    have shape : source.demands entry = demandOf entry := by simp only [demands, tag]; rfl
    rw [shape]
    cases value : entry.value? .type with
    | none =>
        have silent : demandOf entry = [] := by simp only [demandOf, value]
        exact silent ▸ ends
    | some found =>
        exact (own.bind_stay fun type => walks_pure (some type)).bind_stay fun _ => ends
  case h_16 tag =>
    have shape : source.demands entry =
        demandOf entry ++ (childrenOf entry .formalParameter).flatMap demandOf := by
      simp only [demands, tag]; rfl
    rw [shape, meetAll_append]
    exact own.bind fun _ => (walks_mapM (referent_walks walks) _).bind_stay fun _ => ends
  case h_18 =>
    have shape : source.demands entry = [.missing (.unsupportedTag entry.offset entry.tag)] := by
      have shapeless : entry.tag.shape? = none := by
        unfold Tag.shape?
        split <;> first | rfl | contradiction
      simp only [demands, shapeless]
    exact shape ▸ meetAll_singleton (.missing _) ▸ walks_throw _

end Nodes

/-! ## Entries -/

/-- Once a place has been kept for an entry, the walk goes on from there. -/
theorem explore_walks {count offset : Nat} {entry : EntryRef} {graph : TypeGraph}
    (kept : graph.failures = failures)
    (walks : ∀ origin target, Walks failures (source.resolve count origin target)
      (source.walk (failures.lookup ·) count origin target)) :
    Coincide failures (source.explore offset entry (count + 1) graph)
      (meetAll (source.walk (failures.lookup ·) count) (source.demands entry)
        (offset :: graph.offsets)) := by
  have built : Coincide failures (source.nodeOf (source.resolve count) entry (graph.reserve offset))
      (meetAll (source.walk (failures.lookup ·) count) (source.demands entry)
        (offset :: graph.offsets)) :=
    nodeOf_walks walks entry (graph.reserve offset) kept
  simp only [explore]
  generalize source.nodeOf (source.resolve count) entry (graph.reserve offset) = result at built ⊢
  generalize meetAll _ _ _ = walked at built ⊢
  cases built with
  | error error => exact .error error
  | @ok node later kept_later =>
      have filled : (later.fill graph.size node).failures = failures := kept_later
      exact .ok filled

/-- Resolving an entry is walking to it. -/
theorem resolve_walks (count origin offset : Nat) :
    Walks failures (source.resolve count origin offset)
      (source.walk (failures.lookup ·) count origin offset) := by
  induction count using Nat.strongRecOn generalizing origin offset with
  | ind count ih =>
      intro graph kept
      rw [resolve_at, walk]
      have failed : graph.failureAt? offset = failures.lookup offset := by
        rw [TypeGraph.failureAt?, kept]
      rw [failed]
      cases known : graph.idAt? offset with
      | some id =>
          rw [if_pos (TypeGraph.mem_offsets.mpr (by simp [known]))]
          exact .ok kept
      | none =>
          rw [if_neg fun member => TypeGraph.mem_offsets.mp member known]
          cases failures.lookup offset with
          | some error => exact .error error
          | none =>
              cases source.units.entry? offset with
              | none => exact .error _
              | some entry =>
                  cases count with
                  | zero => exact .error _
                  | succ count => exact explore_walks kept (ih count (Nat.lt_succ_self count))

theorem walk_of_resolve (count origin offset : Nat) (graph : TypeGraph) :
    Coincide graph.failures (source.resolve count origin offset graph)
      (source.walk graph.failureAt? count origin offset graph.offsets) :=
  resolve_walks count origin offset graph rfl

theorem walk_eq_error_iff {count origin offset : Nat} {graph : TypeGraph} {error : Error} :
    source.walk graph.failureAt? count origin offset graph.offsets = .error error ↔
      source.resolve count origin offset graph = .error error := by
  have walked := @walk_of_resolve source count origin offset graph
  generalize source.resolve count origin offset graph = result at walked ⊢
  generalize source.walk graph.failureAt? count origin offset graph.offsets = walk at walked ⊢
  cases walked with
  | ok kept => simp
  | error other => simp

theorem walk_eq_ok {count origin offset : Nat} {graph later : TypeGraph} {id : TypeId}
    (resolved : source.resolve count origin offset graph = .ok (id, later)) :
    source.walk graph.failureAt? count origin offset graph.offsets = .ok later.offsets ∧
      later.failures = graph.failures := by
  have walked := @walk_of_resolve source count origin offset graph
  rw [resolved] at walked
  generalize source.walk graph.failureAt? count origin offset graph.offsets = walk at walked ⊢
  cases walked with
  | ok kept => exact ⟨rfl, kept⟩

end TypeSource

end Dwarf
