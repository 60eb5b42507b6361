import Dwarf.Proofs.TypeGraph.Growth
import Dwarf.Proofs.TypeGraph.Reference

/-!
# Nodes that mirror entries

The edges of a node stand for type attributes: its own for a pointer or an array, those of its
members for a structure, those of its parameters for a subroutine.  A node mirrors its entry if
each edge, in order, is the number of the entry that the attribute refers to, and `void` where the
attribute is missing.  The cases are those of the shapes of entries.
-/

namespace Dwarf

open Resolving

/-- The shape of a kind of type.  What is still being built has none, nor has `void`. -/
def TypeKind.shape? : TypeKind → Option TypeShape
  | .base _ | .unspecified => some .plain
  | .pointer _ | .reference _ _ | .typedef _ | .qualified _ _ | .array _ _ | .enumeration _ _ =>
    some .target
  | .subroutine _ _ _ => some .signature
  | .composite _ _ _ => some .composite
  | .void | .pending => none

/-- The type attribute of an entry leads to a type: to `void` if it is missing, and else to the
type of the entry that it refers to. -/
def TypeGraph.Leads (graph : TypeGraph) (referrer : EntryRef) (type : TypeId) : Prop :=
  referrer.value? .type = none ∧ type = TypeGraph.void ∨
    ∃ target, referrer.reference? .type = some target ∧ graph.idAt? target = some type

theorem TypeGraph.Leads.keep {graph later : TypeGraph} {referrer : EntryRef} {type : TypeId}
    (leads : graph.Leads referrer type)
    (kept : ∀ {offset id}, graph.idAt? offset = some id → later.idAt? offset = some id) :
    later.Leads referrer type :=
  leads.imp_right fun ⟨target, reference, known⟩ => ⟨target, reference, kept known⟩

theorem TypeGraph.Leads.target {graph : TypeGraph} {referrer : EntryRef} {type : TypeId}
    (leads : graph.Leads referrer type) {target : Nat}
    (reference : referrer.reference? .type = some target) : graph.idAt? target = some type := by
  obtain ⟨absent, _⟩ | ⟨_, same, known⟩ := leads
  · rw [EntryRef.reference?, absent] at reference
    cases reference
  · cases reference.symm.trans same
    exact known

namespace TypeSource

/-- Whether a child is a member or base class of a composite type.  Static members are not, nor
are virtual base classes that are found at run time. -/
def lists (source : TypeSource) (child : EntryRef) : Bool :=
  !child.entry.flag .declaration && (child.tag == .member || child.tag == .inheritance) &&
    !(child.tag == .inheritance && child.entry.has .virtuality &&
      !(source.location? child).isOk)

/-- The entries whose type attributes the edges of the node of an entry stand for, in order. -/
def referrers (source : TypeSource) (entry : EntryRef) : List EntryRef :=
  match entry.tag.shape? with
  | some .target =>
    if entry.tag = .enumerationType ∧ entry.value? .type = none then [] else [entry]
  | some .signature => entry :: childrenOf entry .formalParameter
  | some .composite => entry.children.filter source.lists
  | some .plain | none => []

theorem refers_of_lists {source : TypeSource} {entry child : EntryRef}
    (shape : entry.tag.shape? = some .composite) (below : child ∈ entry.children)
    (listed : source.lists child = true) : source.Refers entry child := by
  simp only [lists, Bool.and_eq_true, Bool.not_eq_true'] at listed
  obtain ⟨⟨visible, tag⟩, described⟩ := listed
  have member : child ∈ entry.memberEntries :=
    List.mem_filter.mpr ⟨below, by rw [visible, tag]; rfl⟩
  refine .member shape member fun isVirtual => ?_
  rw [isVirtual.1, isVirtual.2] at described
  cases location : source.location? child with
  | error error => simp [location, Except.isOk, Except.toBool] at described
  | ok found => exact ⟨found, location⟩

theorem refers_of_referrers {source : TypeSource} {entry referrer : EntryRef}
    (member : referrer ∈ source.referrers entry) : source.Refers entry referrer := by
  unfold referrers at member
  split at member
  next shape =>
    split at member
    next => cases member
    next =>
      cases List.mem_singleton.mp member
      exact .own (.inl shape)
  next shape =>
    obtain rfl | parameter := List.mem_cons.mp member
    · exact .own (.inr shape)
    · rw [childrenOf, List.mem_filter] at parameter
      exact .parameter shape parameter.1 (by simpa using parameter.2)
  next shape =>
    obtain ⟨below, listed⟩ := List.mem_filter.mp member
    exact refers_of_lists shape below listed
  next => cases member
  next => cases member

/-- A node has the shape of its entry, and its edges lead where the entry refers to. -/
structure Mirrors (source : TypeSource) (graph : TypeGraph) (entry : EntryRef) (node : TypeNode) :
    Prop where
  shape : node.kind.shape? = entry.tag.shape?
  shaped : entry.tag.shape? ≠ none
  edges : List.Forall₂ graph.Leads (source.referrers entry) node.edges

/-- The edges of a node are numbers, so it mirrors its entry for as long as these are kept. -/
theorem Mirrors.keep {source : TypeSource} {graph later : TypeGraph} {entry : EntryRef}
    {node : TypeNode} (mirrors : source.Mirrors graph entry node)
    (kept : ∀ {offset id}, graph.idAt? offset = some id → later.idAt? offset = some id) :
    source.Mirrors later entry node where
  shape := mirrors.shape
  shaped := mirrors.shaped
  edges := mirrors.edges.imp fun _ _ leads => leads.keep kept

theorem Mirrors.referrer {source : TypeSource} {graph : TypeGraph} {entry : EntryRef}
    {node : TypeNode} (mirrors : source.Mirrors graph entry node) {edge : TypeId}
    (member : edge ∈ node.edges) :
    ∃ referrer, source.Refers entry referrer ∧ graph.Leads referrer edge := by
  obtain ⟨index, within, rfl⟩ := List.mem_iff_getElem.mp member
  obtain ⟨same, leads⟩ := List.forall₂_iff_get.mp mirrors.edges
  exact ⟨_, refers_of_referrers (List.getElem_mem _), leads index (same ▸ within) within⟩

theorem Mirrors.edge {source : TypeSource} {graph : TypeGraph} {entry referrer : EntryRef}
    {node : TypeNode} {index : Nat} (mirrors : source.Mirrors graph entry node)
    (place : (source.referrers entry)[index]? = some referrer) :
    ∃ edge, node.edges[index]? = some edge ∧ graph.Leads referrer edge := by
  obtain ⟨within, rfl⟩ := List.getElem?_eq_some_iff.mp place
  obtain ⟨same, leads⟩ := List.forall₂_iff_get.mp mirrors.edges
  have within_edges : index < node.edges.length := same ▸ within
  exact ⟨_, List.getElem?_eq_getElem within_edges, leads index within within_edges⟩

variable {source : TypeSource} {resolve : TypeResolver} {inv : TypeGraph → Prop}

/-- Resolving an entry yields its number. -/
def Numbers (inv : TypeGraph → Prop) (resolve : TypeResolver) : Prop :=
  ∀ origin target, Yields inv (resolve origin target) fun id graph => graph.idAt? target = some id

theorem referent_yields (numbers : Numbers inv resolve) (referrer : EntryRef) :
    Yields inv (referent resolve referrer) fun type graph => graph.Leads referrer type := by
  unfold referent
  cases value : referrer.value? .type with
  | none => exact yields_pure fun _ => .inl ⟨value, rfl⟩
  | some found =>
      cases reference : referrer.reference? .type with
      | none => exact yields_throw _
      | some target =>
          exact (numbers referrer.offset target).mono fun _ _ known =>
            .inr ⟨target, reference, known⟩

/-! ## Members -/

/-- What a member entry says about its bits.  The size of its type stands in for that of the
storage unit. -/
def placement (child : EntryRef) (typeSize : Option UInt64) : BitPlacement where
  dataBitOffset := child.unsigned? .dataBitOffset
  bitOffset := child.unsigned? .bitOffset
  bitSize := child.unsigned? .bitSize
  storage := (child.unsigned? .byteSize).or typeSize

/-- The member that an entry describes, with the type that it has in a graph. -/
def memberAt (source : TypeSource) (child : EntryRef) (isBase : Bool) (location : Option UInt64)
    (graph : TypeGraph) (type : TypeId) : Member where
  name := child.string? .name source.sections
  type
  byteOffset := ((placement child (graph.sizeOf? type)).position location).1
  bitOffset := ((placement child (graph.sizeOf? type)).position location).2
  bitSize := child.unsigned? .bitSize
  isBase

/-- An entry has been made a member in a graph with some property, which may have grown since. -/
def MadeMember (source : TypeSource) (inv : TypeGraph → Prop) (child : EntryRef) (member : Member)
    (graph : TypeGraph) : Prop :=
  ∃ moment location isBase, inv moment ∧ moment.Grows graph ∧ moment.Leads child member.type ∧
    source.location? child = .ok location ∧
      member = source.memberAt child isBase location moment member.type

/-- What a child contributes to the members of a composite type. -/
def Contributes (source : TypeSource) (inv : TypeGraph → Prop) (child : EntryRef)
    (found : Option Member) (graph : TypeGraph) : Prop :=
  match found with
  | some member => source.lists child = true ∧ source.MadeMember inv child member graph
  | none => source.lists child = false

theorem made_members {graph : TypeGraph} {children : List EntryRef} {found : List (Option Member)}
    (contribute : List.Forall₂ (fun child member => source.Contributes inv child member graph)
      children found) :
    List.Forall₂ (fun child member => source.MadeMember inv child member graph)
      (children.filter source.lists) (found.filterMap id) := by
  induction contribute with
  | nil => exact .nil
  | @cons child member children found first _ ih =>
      cases member with
      | none =>
          have unlisted : source.lists child = false := first
          rw [List.filter_cons_of_neg (by simp [unlisted])]
          exact ih
      | some member =>
          obtain ⟨listed, made⟩ := first
          rw [List.filter_cons_of_pos listed]
          exact .cons made ih

theorem leads_members {graph : TypeGraph} {children : List EntryRef} {members : List Member}
    (made : List.Forall₂ (fun child member => source.MadeMember inv child member graph)
      children members) : List.Forall₂ graph.Leads children (members.map Member.type) :=
  List.forall₂_map_right_iff.mpr
    (made.imp fun _ _ ⟨_, _, _, _, grows, leads, _⟩ => leads.keep grows.idAt?)

theorem describedMember_yields (numbers : Numbers inv resolve) {child : EntryRef} {isBase : Bool}
    (visible : child.entry.flag .declaration = false)
    (tag : child.tag = if isBase then .inheritance else .member) :
    Yields inv (source.describedMember resolve child isBase) (source.Contributes inv child) := by
  unfold describedMember
  cases location : source.location? child with
  | error error =>
      dsimp only
      by_cases skipped : (isBase && child.entry.has .virtuality) = true
      · rw [if_pos skipped]
        obtain ⟨rfl, virtuality⟩ := Bool.and_eq_true_iff.mp skipped
        have unlisted : source.lists child = false := by
          simp [lists, visible, tag, virtuality, location, Except.isOk, Except.toBool]
        exact yields_pure fun _ => unlisted
      · rw [if_neg skipped]
        exact yields_throw _
  | ok found =>
      have listed : source.lists child = true := by
        cases isBase <;> simp [lists, visible, tag, location, Except.isOk, Except.toBool]
      refine (referent_yields numbers child).bind_at fun type => yields_get.bind fun moment => ?_
      refine yields_pure fun graph ⟨⟨kept, leads⟩, grows⟩ => ⟨listed, ?_⟩
      exact ⟨moment, found, isBase, kept, grows, leads, location, rfl⟩

theorem member?_yields (numbers : Numbers inv resolve) (child : EntryRef) :
    Yields inv (source.member? resolve child) (source.Contributes inv child) := by
  unfold member?
  by_cases declared : child.entry.flag .declaration = true
  · rw [if_pos declared]
    have unlisted : source.lists child = false := by simp [lists, declared]
    exact yields_pure fun _ => unlisted
  · rw [if_neg declared]
    rw [Bool.not_eq_true] at declared
    split
    next tag => exact describedMember_yields numbers declared tag
    next tag => exact describedMember_yields numbers declared tag
    next other_member other_base =>
      have not_member : child.tag ≠ .member := other_member
      have not_base : child.tag ≠ .inheritance := other_base
      have unlisted : source.lists child = false := by simp [lists, not_member, not_base]
      exact yields_pure fun _ => unlisted

/-! ## Shapes -/

variable {entry : EntryRef}

theorem mirrors_plain (shape : entry.tag.shape? = some .plain) {kind : TypeKind}
    (same : kind.shape? = some .plain) {name : Option String} {size : Option UInt64}
    (graph : TypeGraph) : source.Mirrors graph entry ⟨name, size, kind⟩ where
  shape := same.trans shape.symm
  shaped := by simp [shape]
  edges := by
    have edgeless : kind.edges = [] := by
      cases kind <;> simp_all [TypeKind.shape?, TypeKind.edges]
    simp [referrers, shape, TypeNode.edges, edgeless]

theorem mirrors_target (shape : entry.tag.shape? = some .target)
    (other : entry.tag ≠ .enumerationType ∨ entry.value? .type ≠ none) {kind : TypeKind}
    {type : TypeId} (same : kind.shape? = some .target) (edges : kind.edges = [type])
    {name : Option String} {size : Option UInt64} {graph : TypeGraph}
    (leads : graph.Leads entry type) : source.Mirrors graph entry ⟨name, size, kind⟩ where
  shape := same.trans shape.symm
  shaped := by simp [shape]
  edges := by
    have some_edge : ¬(entry.tag = .enumerationType ∧ entry.value? .type = none) := by
      rintro ⟨enumeration, absent⟩
      exact other.elim (fun differs => differs enumeration) fun present => present absent
    simp only [referrers, shape, if_neg some_edge, TypeNode.edges, edges]
    exact .cons leads .nil

theorem mirrors_enumeration (tag : entry.tag = .enumerationType)
    (absent : entry.value? .type = none) (enumerators : List Enumerator) {name : Option String}
    {size : Option UInt64} (graph : TypeGraph) :
    source.Mirrors graph entry ⟨name, size, .enumeration none enumerators⟩ := by
  have shape : entry.tag.shape? = some .target := by rw [tag]; rfl
  exact
    { shape := shape.symm
      shaped := by simp [shape]
      edges := by
        simp only [referrers, shape, if_pos (And.intro tag absent)]
        exact .nil }

theorem mirrors_signature (shape : entry.tag.shape? = some .signature) {type : TypeId}
    {types : List TypeId} {variadic : Bool} {name : Option String} {size : Option UInt64}
    {graph : TypeGraph} (leads : graph.Leads entry type)
    (parameters : List.Forall₂ graph.Leads (childrenOf entry .formalParameter) types) :
    source.Mirrors graph entry ⟨name, size, .subroutine type types variadic⟩ where
  shape := shape.symm
  shaped := by simp [shape]
  edges := by
    simp only [referrers, shape]
    exact .cons leads parameters

theorem mirrors_composite (shape : entry.tag.shape? = some .composite) {kind : CompositeKind}
    {members : List Member} {declaration : Bool} {name : Option String} {size : Option UInt64}
    {graph : TypeGraph}
    (leads : List.Forall₂ graph.Leads (entry.children.filter source.lists)
      (members.map Member.type)) :
    source.Mirrors graph entry ⟨name, size, .composite kind members declaration⟩ where
  shape := shape.symm
  shaped := by simp [shape]
  edges := by
    simp only [referrers, shape]
    exact leads

theorem members_yields (numbers : Numbers inv resolve) :
    Yields inv (source.members resolve entry) fun members graph =>
      List.Forall₂ (fun child member => source.MadeMember inv child member graph)
        (entry.children.filter source.lists) members :=
  (yields_mapM entry.children fun child _ => member?_yields numbers child).bind fun _ =>
    yields_pure fun _ contribute => made_members contribute

/-- Building the node of an entry yields a node that mirrors it. -/
theorem nodeOf_yields (numbers : Numbers inv resolve) :
    Yields inv (source.nodeOf resolve entry) fun node graph => source.Mirrors graph entry node := by
  have own := referent_yields numbers entry
  unfold nodeOf
  split
  case h_1 tag | h_17 tag =>
    exact yields_pure (mirrors_plain (by rw [tag]; rfl) rfl)
  case h_2 tag | h_3 tag | h_4 tag | h_11 tag | h_12 tag | h_13 tag | h_14 tag | h_15 tag =>
    refine own.bind fun type => yields_pure fun graph leads => ?_
    exact mirrors_target (by rw [tag]; rfl) (.inl (by rw [tag]; decide)) rfl rfl leads
  case h_5 tag =>
    refine own.bind fun type => yields_get.bind fun _ => yields_pure fun graph _ leads => ?_
    exact mirrors_target (by rw [tag]; rfl) (.inl (by rw [tag]; decide)) rfl rfl leads
  case h_6 tag | h_7 tag | h_8 tag | h_9 tag =>
    refine (members_yields numbers).bind fun members => yields_pure fun graph made => ?_
    exact mirrors_composite (by rw [tag]; rfl) (leads_members made)
  case h_10 tag =>
    cases value : entry.value? .type with
    | none => exact yields_pure (mirrors_enumeration tag value _)
    | some found =>
        have underlying : Yields inv ((some found).mapM fun _ => referent resolve entry)
            fun under graph => ∃ type, under = some type ∧ graph.Leads entry type :=
          own.bind fun type => yields_pure fun _ leads => ⟨type, rfl, leads⟩
        refine underlying.bind fun under => yields_pure fun graph ⟨type, same, leads⟩ => ?_
        rw [same]
        exact mirrors_target (by rw [tag]; rfl) (.inr (by simp [value])) rfl rfl leads
  case h_16 tag =>
    refine own.bind fun type =>
      (yields_mapM _ fun child _ => referent_yields numbers child).bind fun types =>
        yields_pure fun graph parameters leads => ?_
    exact mirrors_signature (by rw [tag]; rfl) leads parameters
  case h_18 => exact yields_throw _

end TypeSource

end Dwarf
