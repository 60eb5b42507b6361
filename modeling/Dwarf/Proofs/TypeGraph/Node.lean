import Dwarf.Proofs.TypeGraph.Reference
import Dwarf.Proofs.TypeGraph.Resolving

/-!
# Building nodes

Building the node of an entry resolves what the entry refers to, one reference after the other, and
fails only if the entry is defective or one of the references fails.  The cases are those of the
tags, one lemma for each shape.
-/

namespace Dwarf

namespace TypeSource

open Resolving

variable {source : TypeSource} {resolve : TypeResolver} {entry : EntryRef}
variable {inv : TypeGraph → Prop} {broken : Prop}

/-- The type that an entry refers to, if it refers to any, is known. -/
def Referred (referrer : EntryRef) (graph : TypeGraph) : Prop :=
  referrer.value? .type = none ∨
    ∃ target, referrer.reference? .type = some target ∧ graph.Knows target

/-- All that the node of an entry needs is there. -/
structure Settles (source : TypeSource) (entry : EntryRef) (graph : TypeGraph) : Prop where
  shaped : entry.tag.shape? ≠ none
  placed : ∀ child ∈ entry.memberEntries, entry.tag.shape? = some .composite →
    source.Places child ∨ child.IsVirtualBase
  referred : ∀ {referrer}, source.Refers entry referrer → Referred referrer graph

theorem Referred.knows {referrer : EntryRef} {target : Nat} {graph : TypeGraph}
    (referred : Referred referrer graph) (reference : referrer.reference? .type = some target) :
    graph.Knows target := by
  obtain absent | ⟨other, same, known⟩ := referred
  · rw [EntryRef.reference?, absent] at reference
    cases reference
  · rw [reference] at same
    cases same
    exact known

theorem Referred.extend {referrer : EntryRef} {graph later : TypeGraph}
    (referred : Referred referrer graph) (extended : later.Extends graph) :
    Referred referrer later := by
  obtain absent | ⟨target, reference, known⟩ := referred
  · exact .inl absent
  · exact .inr ⟨target, reference, extended.knows known⟩

theorem Settles.extend {graph later : TypeGraph} (settles : source.Settles entry graph)
    (extended : later.Extends graph) : source.Settles entry later :=
  ⟨settles.shaped, settles.placed, fun refers => (settles.referred refers).extend extended⟩

/-! ## References -/

/-- How the references of an entry are resolved, and what it means if that fails. -/
structure Resolves (source : TypeSource) (resolve : TypeResolver) (entry : EntryRef)
    (inv : TypeGraph → Prop) (broken : Prop) : Prop where
  follow : ∀ {referrer target}, source.Refers entry referrer →
    referrer.reference? .type = some target →
      Meets inv broken (fun graph => graph.Knows target) (resolve referrer.offset target)
  defect : source.Defective entry → broken

theorem referent_meets (resolves : source.Resolves resolve entry inv broken)
    {referrer : EntryRef} (refers : source.Refers entry referrer) :
    Meets inv broken (Referred referrer) (referent resolve referrer) := by
  unfold referent
  cases value : referrer.value? .type with
  | none => exact meets_pure (fun _ => .inl value) _
  | some found =>
      cases reference : referrer.reference? .type with
      | none =>
          have present : referrer.value? .type ≠ none := by simp [value]
          exact meets_throw (resolves.defect (.reference refers present reference)) _
      | some target =>
          exact (resolves.follow refers reference).mono
            fun graph known => .inr ⟨target, reference, known⟩

/-! ## Members -/

/-- All that a member needs is there. -/
def Described (source : TypeSource) (child : EntryRef) (graph : TypeGraph) : Prop :=
  (source.Places child ∨ child.IsVirtualBase) ∧
    ((child.IsVirtualBase → source.Places child) → Referred child graph)

theorem describedMember_meets (resolves : source.Resolves resolve entry inv broken)
    (shape : entry.tag.shape? = some .composite) {child : EntryRef}
    (below : child ∈ entry.memberEntries) {isBase : Bool}
    (base : isBase = true ↔ child.tag = .inheritance) :
    Meets inv broken (source.Described child) (source.describedMember resolve child isBase) := by
  unfold describedMember
  cases location : source.location? child with
  | error error =>
      dsimp only
      have unplaced : ¬source.Places child := by
        rintro ⟨found, placed⟩
        rw [location] at placed
        cases placed
      by_cases isVirtual : child.IsVirtualBase
      · have skipped : (isBase && child.entry.has .virtuality) = true := by
          rw [base.mpr isVirtual.1, isVirtual.2]
          rfl
        rw [if_pos skipped]
        refine meets_pure (fun graph => ⟨.inr isVirtual, fun placed => ?_⟩) _
        exact absurd (placed isVirtual) unplaced
      · have kept : ¬(isBase && child.entry.has .virtuality) = true := by
          rw [Bool.and_eq_true, base]
          exact isVirtual
        rw [if_neg kept]
        exact meets_throw (resolves.defect (.placement shape below unplaced isVirtual)) _
  | ok found =>
      have placed : source.Places child := ⟨found, location⟩
      have followed := referent_meets resolves (.member shape below fun _ => placed)
      have described := followed.mono fun graph referred =>
        (⟨.inl placed, fun _ => referred⟩ : source.Described child graph)
      exact described.bind_left fun type =>
        (meets_get (fun _ => trivial)).bind_left fun graph => meets_pure (fun _ => trivial) _

theorem member?_meets (resolves : source.Resolves resolve entry inv broken)
    (shape : entry.tag.shape? = some .composite) {child : EntryRef}
    (below : child ∈ entry.children) :
    Meets inv broken (fun graph => child ∈ entry.memberEntries → source.Described child graph)
      (source.member? resolve child) := by
  unfold member?
  have among : child ∈ entry.memberEntries ↔ child.entry.flag .declaration = false ∧
      (child.tag = .member ∨ child.tag = .inheritance) := by
    simp [EntryRef.memberEntries, below]
  by_cases declared : child.entry.flag .declaration = true
  · rw [if_pos declared]
    refine meets_pure (fun graph member => ?_) _
    rw [among, declared] at member
    cases member.1
  · rw [if_neg declared]
    rw [Bool.not_eq_true] at declared
    split
    next tag =>
      have member := among.mpr ⟨declared, .inl tag⟩
      have other : child.tag ≠ .inheritance := by rw [tag]; decide
      have base : false = true ↔ child.tag = .inheritance := by simp [other]
      exact (describedMember_meets resolves shape member base).mono fun _ described _ => described
    next tag =>
      have member := among.mpr ⟨declared, .inr tag⟩
      have base : true = true ↔ child.tag = .inheritance := ⟨fun _ => tag, fun _ => rfl⟩
      exact (describedMember_meets resolves shape member base).mono fun _ described _ => described
    next other_member other_base =>
      refine meets_pure (fun graph member => ?_) _
      obtain same | same := (among.mp member).2
      · exact absurd same other_member
      · exact absurd same other_base

/-! ## Shapes -/

theorem shape_unique {first second : TypeShape} (left : entry.tag.shape? = some first)
    (right : entry.tag.shape? = some second) : first = second :=
  Option.some.inj (left.symm.trans right)

theorem settles_plain (shape : entry.tag.shape? = some .plain) (graph : TypeGraph) :
    source.Settles entry graph where
  shaped := by simp [shape]
  placed := fun child _ composite => nomatch shape_unique shape composite
  referred := by
    intro referrer refers
    cases refers <;> simp_all

theorem settles_target (shape : entry.tag.shape? = some .target) {graph : TypeGraph}
    (referred : Referred entry graph) : source.Settles entry graph where
  shaped := by simp [shape]
  placed := fun child _ composite => nomatch shape_unique shape composite
  referred := by
    intro referrer refers
    cases refers with
    | own => exact referred
    | parameter signature => cases shape_unique shape signature
    | member composite => cases shape_unique shape composite

theorem settles_signature (shape : entry.tag.shape? = some .signature) {graph : TypeGraph}
    (referred : Referred entry graph)
    (parameters : ∀ child ∈ childrenOf entry .formalParameter, Referred child graph) :
    source.Settles entry graph where
  shaped := by simp [shape]
  placed := fun child _ composite => nomatch shape_unique shape composite
  referred := by
    intro referrer refers
    cases refers with
    | own => exact referred
    | parameter _ below parameter =>
        exact parameters _ (List.mem_filter.mpr ⟨below, by simp [parameter]⟩)
    | member composite => cases shape_unique shape composite

theorem settles_composite (shape : entry.tag.shape? = some .composite) {graph : TypeGraph}
    (described : ∀ child ∈ entry.children,
      child ∈ entry.memberEntries → source.Described child graph) :
    source.Settles entry graph where
  shaped := by simp [shape]
  placed := fun child below _ => (described child (List.mem_filter.mp below |>.1) below).1
  referred := by
    intro referrer refers
    cases refers with
    | own shapes => simp [shape] at shapes
    | parameter signature => cases shape_unique shape signature
    | member _ below placed =>
        exact (described _ (List.mem_filter.mp below |>.1) below).2 placed

theorem target_meets (resolves : source.Resolves resolve entry inv broken)
    (shape : entry.tag.shape? = some .target) {node : TypeId → Resolving TypeNode}
    (rest : ∀ type, Meets inv broken (fun _ => True) (node type)) :
    Meets inv broken (source.Settles entry) (referent resolve entry >>= node) :=
  ((referent_meets resolves (.own (.inl shape))).mono
    fun _ referred => settles_target shape referred).bind_left rest

theorem composite_meets (resolves : source.Resolves resolve entry inv broken)
    (shape : entry.tag.shape? = some .composite) {node : List Member → Resolving TypeNode}
    (rest : ∀ members, Meets inv broken (fun _ => True) (node members)) :
    Meets inv broken (source.Settles entry) (source.members resolve entry >>= node) := by
  have each := meets_mapM entry.children fun child below => member?_meets resolves shape below
  have members := each.mono fun graph described =>
    (settles_composite shape described : source.Settles entry graph)
  exact (members.bind_left fun found => meets_pure (fun _ => trivial) _).bind_left rest

theorem signature_meets (resolves : source.Resolves resolve entry inv broken)
    (shape : entry.tag.shape? = some .signature)
    {node : TypeId → List TypeId → Resolving TypeNode}
    (rest : ∀ type types, Meets inv broken (fun _ => True) (node type types)) :
    Meets inv broken (source.Settles entry) (do
      let type ← referent resolve entry
      node type (← (childrenOf entry .formalParameter).mapM (referent resolve))) := by
  have own := referent_meets resolves (.own (.inr shape))
  have parameters : Meets inv broken
      (fun graph => ∀ child ∈ childrenOf entry .formalParameter, Referred child graph)
      ((childrenOf entry .formalParameter).mapM (referent resolve)) := by
    refine meets_mapM _ fun child member => ?_
    rw [childrenOf, List.mem_filter] at member
    exact referent_meets resolves (.parameter shape member.1 (by simpa using member.2))
  refine (own.bind fun type => parameters.bind_left (rest type)).mono ?_
  exact fun graph both => settles_signature shape both.1 both.2

/-- Building the node of an entry settles the entry. -/
theorem nodeOf_meets (resolves : source.Resolves resolve entry inv broken) :
    Meets inv broken (source.Settles entry) (source.nodeOf resolve entry) := by
  have ends {kind : TypeKind} {size : Option UInt64} : Meets inv broken (fun _ => True)
      (pure ⟨entry.string? .name source.sections, size, kind⟩ : Resolving TypeNode) :=
    meets_pure (fun _ => trivial) _
  unfold nodeOf
  split
  case h_1 tag | h_17 tag => exact meets_pure (settles_plain (by rw [tag]; rfl)) _
  case h_2 tag | h_3 tag | h_4 tag | h_11 tag | h_12 tag | h_13 tag | h_14 tag | h_15 tag =>
    exact target_meets resolves (by rw [tag]; rfl) fun _ => ends
  case h_5 tag =>
    exact target_meets resolves (by rw [tag]; rfl) fun _ =>
      (meets_get fun _ => trivial).bind_left fun _ => ends
  case h_6 tag | h_7 tag | h_8 tag | h_9 tag =>
    exact composite_meets resolves (by rw [tag]; rfl) fun _ => ends
  case h_10 tag =>
    have shape : entry.tag.shape? = some .target := by rw [tag]; rfl
    cases value : entry.value? .type with
    | none => exact meets_pure (fun _ => settles_target shape (.inl value)) _
    | some found =>
        have own := referent_meets resolves (.own (.inl shape))
        exact ((own.mono fun _ referred => settles_target shape referred).bind_left
          fun type => meets_pure (fun _ => trivial) (some type)).bind_left fun _ => ends
  case h_16 tag => exact signature_meets resolves (by rw [tag]; rfl) fun _ _ => ends
  case h_18 =>
    have shapeless : entry.tag.shape? = none := by
      unfold Tag.shape?
      split <;> first | rfl | contradiction
    exact meets_throw (resolves.defect (.tag shapeless)) _

end TypeSource

end Dwarf
