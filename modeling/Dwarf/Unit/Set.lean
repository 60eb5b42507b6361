import Dwarf.Unit

/-! # Sets of units

The units of an image, and their entries by absolute offset. -/

namespace Dwarf

/-- The units that could be decoded, in the order of the section. -/
structure UnitSet where
  units : List CompilationUnit := []
  deriving Repr, Inhabited

/-- An entry together with its unit and its number there. -/
structure EntryRef where
  unit : CompilationUnit
  id : Nat
  entry : Entry
  deriving DecidableEq, Repr, Inhabited

namespace EntryRef

def offset (ref : EntryRef) : Nat :=
  ref.entry.offset

def tag (ref : EntryRef) : Tag :=
  ref.entry.tag

/-- The value of the first attribute of a name. -/
def value? (ref : EntryRef) (name : AttributeName) : Option AttributeValue :=
  ref.entry.value? name

/-- The value of an attribute as an unsigned constant. -/
def unsigned? (ref : EntryRef) (name : AttributeName) : Option UInt64 :=
  ref.entry.unsigned? name

/-- The absolute offset that an attribute refers to. -/
def reference? (ref : EntryRef) (name : AttributeName) : Option Nat :=
  (ref.value? name).bind (AttributeValue.reference? ref.unit.offset)

/-- The value of an attribute as a string. -/
def string? (ref : EntryRef) (name : AttributeName) (sections : Sections) : Option String :=
  (ref.value? name).bind (AttributeValue.string? sections)

/-- The entry of another number in the same unit. -/
def sibling? (ref : EntryRef) (id : Nat) : Option EntryRef :=
  (ref.unit.entry? id).map fun entry => ⟨ref.unit, id, entry⟩

def parent? (ref : EntryRef) : Option EntryRef :=
  ref.entry.parent.bind ref.sibling?

/-- The children in order. -/
def children (ref : EntryRef) : List EntryRef :=
  ref.entry.children.toList.filterMap ref.sibling?

/-- The innermost entry around another that satisfies a condition, among `count` ancestors. -/
def aroundWithin? (holds : EntryRef → Bool) : Nat → EntryRef → Option EntryRef
  | 0, _ => none
  | count + 1, ref =>
    ref.parent?.bind fun parent =>
      if holds parent then some parent else aroundWithin? holds count parent

/-- The innermost entry around another that satisfies a condition. Parents are stored before their
children, so an entry has no more ancestors than its number. -/
def around? (ref : EntryRef) (holds : EntryRef → Bool) : Option EntryRef :=
  aroundWithin? holds ref.id ref

end EntryRef

namespace UnitSet

/-- The number of entries in all units. -/
def entryCount (set : UnitSet) : Nat :=
  set.units.foldl (fun count unit => count + unit.entries.size) 0

/-- The entry that starts at an absolute offset. -/
def entry? (set : UnitSet) (offset : Nat) : Option EntryRef :=
  set.units.findSome? fun unit =>
    (unit.idAt? offset).bind fun id =>
      (unit.entry? id).map fun entry => ⟨unit, id, entry⟩

/-- The unit that contains an absolute offset. -/
def unitFor? (set : UnitSet) (offset : Nat) : Option CompilationUnit :=
  set.units.find? fun unit => unit.containsOffset offset

end UnitSet

end Dwarf
