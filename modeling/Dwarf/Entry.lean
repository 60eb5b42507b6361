import Dwarf.Attribute

/-! # Entries

A debugging information entry is a tag with attributes. Entries form trees; within a unit they
are numbered in the order in which they are stored, and the links of the tree are numbers. -/

namespace Dwarf

/-- An entry and its place in the tree of its unit. -/
structure Entry where
  /-- The offset of the entry in the information section. -/
  offset : Nat
  tag : Tag
  /-- Whether a list of children follows the entry, be it empty. -/
  hasChildren : Bool
  attributes : List Attribute
  /-- The number of the parent; the root has none. -/
  parent : Option Nat
  /-- The numbers of the children in order. -/
  children : Array Nat
  deriving DecidableEq, Repr, Inhabited

namespace Entry

/-- The first attribute of a name. -/
def attribute? (entry : Entry) (name : AttributeName) : Option Attribute :=
  entry.attributes.find? fun found => found.name == name

/-- The value of the first attribute of a name. -/
def value? (entry : Entry) (name : AttributeName) : Option AttributeValue :=
  (entry.attribute? name).map Attribute.value

def has (entry : Entry) (name : AttributeName) : Bool :=
  (entry.value? name).isSome

/-- Whether a flag is present and set. -/
def flag (entry : Entry) (name : AttributeName) : Bool :=
  ((entry.value? name).bind AttributeValue.flag?).getD false

/-- The value of an attribute as an unsigned constant. -/
def unsigned? (entry : Entry) (name : AttributeName) : Option UInt64 :=
  (entry.value? name).bind AttributeValue.unsigned?

end Entry

end Dwarf
