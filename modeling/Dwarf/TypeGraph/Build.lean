import Dwarf.TypeGraph.Member

/-! # Building type graphs

A type entry is resolved by keeping a place for its node, resolving what it refers to, and then
filling the place. A reference back to a type that is being built thus finds its place and goes no
further. Resolving follows at most `TypeSource.maxNesting` references below one entry. If an entry
cannot be resolved, all places that have been kept on the way are given up again. -/

namespace Dwarf

namespace Tag

/-- Whether an entry of this tag describes a type. Some of these kinds of types have no node. -/
def isType : Tag → Bool
  | .baseType | .pointerType | .referenceType | .rvalueReferenceType | .arrayType
  | .structureType | .classType | .unionType | .interfaceType | .enumerationType | .typedef
  | .constType | .volatileType | .restrictType | .atomicType | .subroutineType
  | .unspecifiedType | .ptrToMemberType | .stringType | .setType | .fileType | .packedType
  | .sharedType => true
  | _ => false

end Tag

/-- What types are resolved from. -/
structure TypeSource where
  units : UnitSet
  sections : Sections
  settings : Settings
  /-- How the expressions that say where members lie are evaluated. -/
  evaluator : Evaluator := LocationExpression.evaluate

namespace TypeSource

/-- The number of references that are followed below one entry. -/
def maxNesting : Nat := 128

/-! ## Nodes

What an entry refers to is resolved by some way to the type of an entry, given the offset of the
entry that refers to it and its own offset. -/

variable {m : Type → Type} [Monad m] [MonadStateOf TypeGraph m] [MonadExceptOf Error m]

/-- The type that an entry refers to; without a reference it is `void`. -/
def referent (resolve : Nat → Nat → m TypeId) (entry : EntryRef) : m TypeId :=
  match entry.value? .type, entry.reference? .type with
  | none, _ => return TypeGraph.void
  | some _, some target => resolve entry.offset target
  | some _, none => throw (.unresolvedTypeReference entry.offset 0)

/-- The size of an array, if the size of its elements and every dimension are known. -/
def arraySize (graph : TypeGraph) (element : TypeId) (dimensions : List Dimension) :
    Option UInt64 :=
  dimensions.foldl
    (fun size dimension => do Word.mul? (← size) (← dimension.count))
    (graph.sizeOf? element)

/-- The byte offset of a member if its entry gives one. -/
def location? (source : TypeSource) (entry : EntryRef) : Except Error (Option UInt64) :=
  Member.location? source.settings entry source.evaluator

/-- The member or base class that an entry describes. A base class that is found at run time only
is none. -/
def describedMember (source : TypeSource) (resolve : Nat → Nat → m TypeId) (entry : EntryRef)
    (isBase : Bool) : m (Option Member) :=
  match source.location? entry with
  | .error error =>
    if isBase && entry.entry.has .virtuality then return none else throw error
  | .ok location => do
    let type ← referent resolve entry
    let graph ← get
    let placement : BitPlacement :=
      { dataBitOffset := entry.unsigned? .dataBitOffset
        bitOffset := entry.unsigned? .bitOffset
        bitSize := entry.unsigned? .bitSize
        storage := (entry.unsigned? .byteSize).or (graph.sizeOf? type) }
    let (byteOffset, bitOffset) := placement.position location
    return some
      { name := entry.string? .name source.sections
        type, byteOffset, bitOffset, isBase
        bitSize := placement.bitSize }

/-- The member that a child of a composite type describes. Static members and other children
describe none. -/
def member? (source : TypeSource) (resolve : Nat → Nat → m TypeId) (child : EntryRef) :
    m (Option Member) :=
  if child.entry.flag .declaration then return none
  else
    match child.tag with
    | .member => source.describedMember resolve child false
    | .inheritance => source.describedMember resolve child true
    | _ => return none

/-- The members of a composite type in order. -/
def members (source : TypeSource) (resolve : Nat → Nat → m TypeId) (entry : EntryRef) :
    m (List Member) := do
  return (← entry.children.mapM (source.member? resolve)).filterMap id

/-- The children of an entry that have a tag. -/
def childrenOf (entry : EntryRef) (tag : Tag) : List EntryRef :=
  entry.children.filter fun child => child.tag == tag

/-- The node of a type entry. -/
def nodeOf (source : TypeSource) (resolve : Nat → Nat → m TypeId) (entry : EntryRef) :
    m TypeNode :=
  let byteSize := entry.unsigned? .byteSize
  let addressSize := byteSize.or (some entry.unit.encoding.addressSize.toUInt64)
  let node (byteSize : Option UInt64) (kind : TypeKind) : m TypeNode :=
    return ⟨entry.string? .name source.sections, byteSize, kind⟩
  let composite (kind : CompositeKind) : m TypeNode := do
    let members ← source.members resolve entry
    node byteSize (.composite kind members (entry.entry.flag .declaration))
  let qualified (qualifier : Qualifier) : m TypeNode := do
    node byteSize (.qualified qualifier (← referent resolve entry))
  match entry.tag with
  | .baseType => node byteSize (.base ((entry.unsigned? .encoding).getD 0).toUInt8)
  | .pointerType => do node addressSize (.pointer (← referent resolve entry))
  | .referenceType => do node addressSize (.reference (← referent resolve entry) false)
  | .rvalueReferenceType => do node addressSize (.reference (← referent resolve entry) true)
  | .arrayType => do
    let element ← referent resolve entry
    let dimensions := (childrenOf entry .subrangeType).map Dimension.ofEntry
    node (byteSize.or (arraySize (← get) element dimensions)) (.array element dimensions)
  | .structureType => composite .structType
  | .classType => composite .classType
  | .unionType => composite .unionType
  | .interfaceType => composite .interfaceType
  | .enumerationType => do
    let underlying ← (entry.value? .type).mapM fun _ => referent resolve entry
    let enumerators :=
      (childrenOf entry .enumerator).map (Enumerator.ofEntry source.sections)
    node byteSize (.enumeration underlying enumerators)
  | .typedef => do node byteSize (.typedef (← referent resolve entry))
  | .constType => qualified .const
  | .volatileType => qualified .volatile
  | .restrictType => qualified .restrict
  | .atomicType => qualified .atomic
  | .subroutineType => do
    let returnType ← referent resolve entry
    let parameters ← (childrenOf entry .formalParameter).mapM (referent resolve)
    let variadic := !(childrenOf entry .unspecifiedParameters).isEmpty
    node byteSize (.subroutine returnType parameters variadic)
  | .unspecifiedType => node byteSize .unspecified
  | tag => throw (.unsupportedTag entry.offset tag)

end TypeSource

/-! ## Places -/

/-- A graph to which types are being added. -/
structure TypeBuilder where
  graph : TypeGraph
  /-- The entries for which places have been kept since the last root, latest first. -/
  reserved : List Nat := []
  deriving Repr, Inhabited

/-- A computation that adds types to a graph and may fail. What it has done to the graph until then
remains. -/
def Building (α : Type) : Type :=
  ExceptT Error (StateM TypeBuilder) α

namespace Building

instance : Monad Building :=
  inferInstanceAs (Monad (ExceptT Error (StateM TypeBuilder)))

instance : MonadExceptOf Error Building :=
  inferInstanceAs (MonadExceptOf Error (ExceptT Error (StateM TypeBuilder)))

/-- The graph is the part of the state that nodes are made from. -/
instance : MonadStateOf TypeGraph Building where
  get builder := (.ok builder.graph, builder)
  set graph builder := (.ok (), { builder with graph })
  modifyGet change builder :=
    let (value, graph) := change builder.graph
    (.ok value, { builder with graph })

/-- Keep a place for the type of the entry at an offset. -/
def reserve (offset : Nat) : Building Unit :=
  fun builder => (.ok (), ⟨builder.graph.reserve offset, offset :: builder.reserved⟩)

end Building

namespace TypeBuilder

/-- Resolve the entry at `offset`, which the entry at `origin` refers to, following at most `count`
references from there on. -/
def resolve (source : TypeSource) : Nat → Nat → Nat → Building TypeId
  | count, origin, offset => do
    let graph ← get
    match graph.idAt? offset, graph.failureAt? offset, source.units.entry? offset with
    | some id, _, _ => return id
    | none, some error, _ => throw error
    | none, none, none => throw (.unresolvedTypeReference origin offset)
    | none, none, some entry =>
      match count with
      | 0 => throw (.typeNestingTooDeep offset TypeSource.maxNesting)
      | count + 1 =>
        let id := graph.size
        Building.reserve offset
        let node ← source.nodeOf (resolve source count) entry
        modify fun graph => graph.fill id node
        return id

/-- Give up the places that have been kept since the graph had `mark` nodes. -/
def rollback (builder : TypeBuilder) (mark : Nat) : TypeBuilder where
  graph :=
    { builder.graph with
      nodes := builder.graph.nodes.take mark
      byOffset := builder.graph.byOffset.filter fun given => !builder.reserved.contains given.1 }

/-- Add the type entry at an offset. If that fails, the places that have been kept are given up and
the failure is noted. -/
def addRoot (source : TypeSource) (builder : TypeBuilder) (offset : Nat) : TypeBuilder :=
  let graph := builder.graph
  if (graph.idAt? offset).isSome || (graph.failureAt? offset).isSome then builder
  else
    match resolve source TypeSource.maxNesting offset offset { graph } with
    | (.ok _, extended) => extended
    | (.error error, reached) =>
      let restored := reached.rollback graph.size
      { restored with graph := restored.graph.fail offset error }

end TypeBuilder

namespace TypeSource

/-- The offsets of all entries that describe types, in the order of the section. -/
def typeOffsets (source : TypeSource) : List Nat :=
  source.units.units.flatMap fun unit =>
    (unit.entries.toList.filter fun entry => entry.tag.isType).map Entry.offset

/-- The graph of all types. -/
def build (source : TypeSource) : TypeGraph :=
  (source.typeOffsets.foldl (TypeBuilder.addRoot source) { graph := .empty }).graph

end TypeSource

namespace TypeGraph

/-- The type of the entry at an offset: its own if it describes one, else the one it refers to,
else `void`. -/
def typeAt (graph : TypeGraph) (units : UnitSet) (offset : Nat) : Except Error TypeId := do
  let some entry := units.entry? offset
    | throw (.unknownEntry offset)
  if entry.tag.isType then graph.lookup offset
  else
    match entry.value? .type, entry.reference? .type with
    | none, _ => return void
    | some _, none => throw (.unresolvedTypeReference offset 0)
    | some _, some target =>
      match graph.idAt? target, graph.failureAt? target, units.entry? target with
      | some id, _, _ => return id
      | none, some error, _ => throw error
      | none, none, none => throw (.unresolvedTypeReference offset target)
      | none, none, some found => throw (.unsupportedTag target found.tag)

end TypeGraph

end Dwarf
