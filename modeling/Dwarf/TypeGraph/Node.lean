/-! # Type nodes

A type is a node with edges to the types it is made of. What a node says apart from its edges is
its label, so that two nodes can be compared without following them. -/

namespace Dwarf

/-- The number of a node in its graph. -/
abbrev TypeId := Nat

/-- The kinds of types that have members. -/
inductive CompositeKind where
  | structType
  | classType
  | unionType
  | interfaceType
  deriving DecidableEq, Repr, Inhabited

/-- The qualifiers of types. -/
inductive Qualifier where
  | const
  | volatile
  | restrict
  | atomic
  deriving DecidableEq, Repr, Inhabited

/-- A dimension of an array. -/
structure Dimension where
  lowerBound : Int64
  /-- The number of elements, if it is known. -/
  count : Option UInt64
  deriving DecidableEq, Repr, Inhabited

/-- A member or a base class. -/
structure Member where
  name : Option String
  type : TypeId
  byteOffset : UInt64
  /-- The position of a bit field, counted from the least significant bit at the byte offset. -/
  bitOffset : Option UInt64
  bitSize : Option UInt64
  isBase : Bool
  deriving DecidableEq, Repr, Inhabited

/-- A name of an enumeration and its value. -/
structure Enumerator where
  name : String
  value : Int64
  deriving DecidableEq, Repr, Inhabited

/-- The kind of a type. -/
inductive TypeKind where
  | void
  | base (encoding : UInt8)
  | pointer (target : TypeId)
  | reference (target : TypeId) (rvalue : Bool)
  | array (element : TypeId) (dimensions : List Dimension)
  | composite (kind : CompositeKind) (members : List Member) (declaration : Bool)
  | enumeration (underlying : Option TypeId) (enumerators : List Enumerator)
  | typedef (target : TypeId)
  | qualified (qualifier : Qualifier) (target : TypeId)
  | subroutine (returnType : TypeId) (parameters : List TypeId) (variadic : Bool)
  | unspecified
  /-- The type is being built. -/
  | pending
  deriving DecidableEq, Repr, Inhabited

/-- A type. -/
structure TypeNode where
  name : Option String
  byteSize : Option UInt64
  kind : TypeKind
  deriving DecidableEq, Repr, Inhabited

namespace TypeKind

/-- The types a kind refers to, in order. -/
def edges : TypeKind → List TypeId
  | pointer target | reference target _ | typedef target | qualified _ target => [target]
  | array element _ => [element]
  | composite _ members _ => members.map Member.type
  | enumeration underlying _ => underlying.toList
  | subroutine returnType parameters _ => returnType :: parameters
  | void | base _ | unspecified | pending => []

/-- The kind with every reference replaced. -/
def map (f : TypeId → TypeId) : TypeKind → TypeKind
  | pointer target => pointer (f target)
  | reference target rvalue => reference (f target) rvalue
  | typedef target => typedef (f target)
  | qualified qualifier target => qualified qualifier (f target)
  | array element dimensions => array (f element) dimensions
  | composite kind members declaration =>
    composite kind (members.map fun member => { member with type := f member.type }) declaration
  | enumeration underlying enumerators => enumeration (underlying.map f) enumerators
  | subroutine returnType parameters variadic =>
    subroutine (f returnType) (parameters.map f) variadic
  | void => void
  | base encoding => base encoding
  | unspecified => unspecified
  | pending => pending

/-- The type behind a typedef or a qualifier. -/
def behind? : TypeKind → Option TypeId
  | typedef target | qualified _ target => some target
  | _ => none

/-- The type that a kind leads to: a pointee, a referent, a target or an element. -/
def target? : TypeKind → Option TypeId
  | pointer target | reference target _ | typedef target | qualified _ target => some target
  | array element _ => some element
  | _ => none

end TypeKind

namespace TypeNode

/-- The types a node refers to, in order. -/
def edges (node : TypeNode) : List TypeId :=
  node.kind.edges

/-- The node without its references; their number and places remain. -/
def label (node : TypeNode) : TypeNode :=
  { node with kind := node.kind.map fun _ => 0 }

/-- A type that is being built. -/
def pending : TypeNode :=
  ⟨none, none, .pending⟩

end TypeNode

end Dwarf
