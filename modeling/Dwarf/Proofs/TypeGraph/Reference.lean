import Mathlib.Logic.Relation
import Dwarf.TypeGraph.Build

/-!
# References between type entries

Building the node of a type entry follows the type attributes of some entries: its own, those of
its parameters, or those of its members, depending on its tag.  An entry is defective if it cannot
have a node whatever the entries are that it refers to.  Nothing here mentions a graph: entries are
named by their offsets, and one of them reaches another if a chain of followed references leads
there.
-/

namespace Dwarf

/-- What the node of a type entry is made of besides the attributes of the entry. -/
inductive TypeShape where
  /-- Of nothing else. -/
  | plain
  /-- Of the type that the entry refers to. -/
  | target
  /-- Of the type that the entry refers to, and of the types of its parameters. -/
  | signature
  /-- Of the types of its members and base classes. -/
  | composite
  deriving DecidableEq

namespace Tag

/-- The shape of the nodes of a tag.  Entries of other tags have no node. -/
def shape? : Tag → Option TypeShape
  | .baseType | .unspecifiedType => some .plain
  | .pointerType | .referenceType | .rvalueReferenceType | .arrayType | .enumerationType
  | .typedef | .constType | .volatileType | .restrictType | .atomicType => some .target
  | .subroutineType => some .signature
  | .structureType | .classType | .unionType | .interfaceType => some .composite
  | _ => none

end Tag

namespace EntryRef

/-- The members and base classes below an entry.  Static members are none. -/
def memberEntries (entry : EntryRef) : List EntryRef :=
  entry.children.filter fun child =>
    !child.entry.flag .declaration && (child.tag == .member || child.tag == .inheritance)

/-- A base class whose place is only known at run time. -/
def IsVirtualBase (child : EntryRef) : Prop :=
  child.tag = .inheritance ∧ child.entry.has .virtuality = true

end EntryRef

namespace TypeSource

variable (source : TypeSource)

/-- The location of a member can be evaluated, or it has none. -/
def Places (child : EntryRef) : Prop :=
  ∃ location, source.location? child = .ok location

/-- Building one entry follows the type attribute of another, if it has one. -/
inductive Refers (entry : EntryRef) : EntryRef → Prop where
  | own (shape : entry.tag.shape? = some .target ∨ entry.tag.shape? = some .signature) :
      Refers entry entry
  | parameter {child : EntryRef} (shape : entry.tag.shape? = some .signature)
      (below : child ∈ entry.children) (parameter : child.tag = .formalParameter) :
      Refers entry child
  | member {child : EntryRef} (shape : entry.tag.shape? = some .composite)
      (below : child ∈ entry.memberEntries)
      (described : child.IsVirtualBase → source.Places child) : Refers entry child

/-- An entry that cannot have a node. -/
inductive Defective (entry : EntryRef) : Prop where
  | tag (shapeless : entry.tag.shape? = none)
  | reference {referrer : EntryRef} (refers : source.Refers entry referrer)
      (present : referrer.value? .type ≠ none) (unusable : referrer.reference? .type = none)
  | target {referrer : EntryRef} {target : Nat} (refers : source.Refers entry referrer)
      (reference : referrer.reference? .type = some target)
      (missing : source.units.entry? target = none)
  | placement {child : EntryRef} (shape : entry.tag.shape? = some .composite)
      (below : child ∈ entry.memberEntries) (unplaced : ¬source.Places child)
      (present : ¬child.IsVirtualBase)

/-- A reference that is followed leads from the entry at one offset to the entry at another. -/
def Follows (offset target : Nat) : Prop :=
  ∃ entry referrer, source.units.entry? offset = some entry ∧ source.Refers entry referrer ∧
    referrer.reference? .type = some target ∧ (source.units.entry? target).isSome = true

/-- Followed references lead from the entry at one offset to the entry at another. -/
def Reaches : Nat → Nat → Prop :=
  Relation.ReflTransGen source.Follows

/-- A defective entry can be reached. -/
def Broken (offset : Nat) : Prop :=
  ∃ reached entry, source.Reaches offset reached ∧
    source.units.entry? reached = some entry ∧ source.Defective entry

/-- No more entries can be reached than references are followed below a root. -/
def Narrow (offset : Nat) : Prop :=
  ∃ reached : List Nat, reached.length ≤ maxNesting ∧
    ∀ other, source.Reaches offset other → other ∈ reached

variable {source}

theorem Follows.found {offset target : Nat} (follows : source.Follows offset target) :
    (source.units.entry? target).isSome = true := by
  obtain ⟨_, _, _, _, _, found⟩ := follows
  exact found

theorem Broken.head {offset target : Nat} (follows : source.Follows offset target)
    (broken : source.Broken target) : source.Broken offset := by
  obtain ⟨reached, entry, reaches, found, defective⟩ := broken
  exact ⟨reached, entry, .head follows reaches, found, defective⟩

theorem Broken.of_reaches {offset target : Nat} (broken : source.Broken target)
    (reaches : source.Reaches offset target) : source.Broken offset := by
  obtain ⟨reached, entry, onward, found, defective⟩ := broken
  exact ⟨reached, entry, reaches.trans onward, found, defective⟩

theorem Narrow.of_reaches {offset target : Nat} (narrow : source.Narrow offset)
    (reaches : source.Reaches offset target) : source.Narrow target := by
  obtain ⟨reached, short, complete⟩ := narrow
  exact ⟨reached, short, fun other later => complete other (reaches.trans later)⟩

end TypeSource

end Dwarf
