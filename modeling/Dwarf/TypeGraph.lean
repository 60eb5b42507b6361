import Dwarf.Error
import Dwarf.TypeGraph.Node

/-! # Type graphs

The types of an image as numbered nodes. Node zero is `void`. The graph knows which node belongs
to which entry, and why an entry has none. -/

namespace Dwarf

/-- The types of an image. -/
structure TypeGraph where
  nodes : Array TypeNode
  /-- The nodes of the entries that describe a type, by offset. -/
  byOffset : List (Nat × TypeId)
  /-- The entries that could not be resolved, by offset. -/
  failures : List (Nat × Error)
  deriving DecidableEq, Repr, Inhabited

namespace TypeGraph

/-- The number of `void`. -/
def void : TypeId := 0

/-- The graph that has `void` only. -/
def empty : TypeGraph :=
  ⟨#[⟨none, none, .void⟩], [], []⟩

/-- The number of nodes. -/
def size (graph : TypeGraph) : Nat :=
  graph.nodes.size

/-- The node of a number. A number that is not in use stands for a type that is being built. -/
def node (graph : TypeGraph) (id : TypeId) : TypeNode :=
  graph.nodes[id]?.getD .pending

/-- The node of the entry at an offset. -/
def idAt? (graph : TypeGraph) (offset : Nat) : Option TypeId :=
  graph.byOffset.lookup offset

/-- Why the entry at an offset has no node. -/
def failureAt? (graph : TypeGraph) (offset : Nat) : Option Error :=
  graph.failures.lookup offset

/-- The node of the type entry at an offset, or why there is none. -/
def lookup (graph : TypeGraph) (offset : Nat) : Except Error TypeId :=
  match graph.idAt? offset with
  | some id => .ok id
  | none => .error ((graph.failureAt? offset).getD (.unknownEntry offset))

/-- The failures in ascending order of their offsets. -/
def sortedFailures (graph : TypeGraph) : List (Nat × Error) :=
  graph.failures.mergeSort fun a b => a.1 ≤ b.1

/-- The number of typedefs and qualifiers that are looked through, and of levels that are shown. -/
def maxLevels : Nat := 32

/-- The first size on the way behind typedefs and qualifiers, looking at `count` nodes. -/
def sizeWithin (graph : TypeGraph) : Nat → TypeId → Option UInt64
  | 0, _ => none
  | count + 1, id =>
    match (graph.node id).byteSize with
    | some size => some size
    | none => (graph.node id).kind.behind?.bind (graph.sizeWithin count)

/-- The size of a type in bytes. -/
def sizeOf? (graph : TypeGraph) (id : TypeId) : Option UInt64 :=
  graph.sizeWithin maxLevels id

/-- Follow at most `count` typedefs and qualifiers. -/
def stripWithin (graph : TypeGraph) : Nat → TypeId → TypeId
  | 0, id => id
  | count + 1, id =>
    match (graph.node id).kind.behind? with
    | some target => graph.stripWithin count target
    | none => id

/-- The type behind typedefs and qualifiers. -/
def strip (graph : TypeGraph) (id : TypeId) : TypeId :=
  graph.stripWithin maxLevels id

/-- The members of a type. -/
def members (graph : TypeGraph) (id : TypeId) : List Member :=
  match (graph.node id).kind with
  | .composite _ members _ => members
  | _ => []

/-- The first member of a name. -/
def member? (graph : TypeGraph) (id : TypeId) (name : String) : Option Member :=
  (graph.members id).find? fun member => member.name == some name

/-! ## Changes -/

/-- Keep a place for the type of the entry at an offset. -/
def reserve (graph : TypeGraph) (offset : Nat) : TypeGraph :=
  { graph with
    nodes := graph.nodes.push .pending
    byOffset := (offset, graph.nodes.size) :: graph.byOffset }

/-- Put a node at its place. -/
def fill (graph : TypeGraph) (id : TypeId) (node : TypeNode) : TypeGraph :=
  { graph with nodes := graph.nodes.setIfInBounds id node }

/-- Note why the entry at an offset has no node. -/
def fail (graph : TypeGraph) (offset : Nat) (error : Error) : TypeGraph :=
  { graph with failures := (offset, error) :: graph.failures }

end TypeGraph

end Dwarf
