import Dwarf.Entry
import Dwarf.Unit.Header

/-! # Units

The entries of a unit are stored as one tree in pre-order. An entry whose layout has children is
followed by them, and a null entry ends the list. `EntryTree` recovers the links while the
entries go by: it keeps the numbers of the entries whose lists are still open. -/

namespace Dwarf

/-- The entries read so far, and the entries whose lists of children are open, innermost first. -/
structure EntryTree where
  entries : Array Entry := #[]
  openParents : List Nat := []
  deriving Repr, Inhabited

namespace EntryTree

/-- Whether the tree has a root and every list of children has ended. -/
def isComplete (tree : EntryTree) : Bool :=
  !tree.entries.isEmpty && tree.openParents.isEmpty

/-- End the innermost list of children at a null entry. After the root has been closed, null
entries are padding; before it they are an error. -/
def close (tree : EntryTree) (unit offset : Nat) : Except Error EntryTree :=
  match tree.openParents with
  | _ :: outer => .ok { tree with openParents := outer }
  | [] => if tree.entries.isEmpty then .error (.unbalancedTree unit offset) else .ok tree

/-- Add an entry at the innermost open place. -/
def add (tree : EntryTree) (offset : Nat) (layout : Abbreviation)
    (attributes : List Attribute) : EntryTree :=
  let id := tree.entries.size
  let parent := tree.openParents.head?
  let linked := match parent with
    | some number =>
      tree.entries.modify number fun entry => { entry with children := entry.children.push id }
    | none => tree.entries
  let entry : Entry :=
    ⟨offset, layout.tag, layout.hasChildren, attributes, parent, #[]⟩
  { entries := linked.push entry
    openParents := if layout.hasChildren then id :: tree.openParents else tree.openParents }

/-- Read one entry, null entries included, of the unit at `unit`. -/
def extend (unit : Nat) (version : UInt16) (table : AbbreviationTable) (tree : EntryTree) :
    Consuming EntryTree :=
  .located fun offset => Decoder.unsigned.bind fun code => do
    if code = 0 then Decoder.ofExcept (tree.close unit offset)
    else if tree.isComplete then throw (.unbalancedTree unit offset)
    else
      let some layout := table.get? code
        | throw (.unknownAbbreviationCode unit offset code)
      let attributes ← layout.attributes.mapM (Attribute.decode offset version)
      return tree.add offset layout attributes

/-- Running out of data inside an entry means that the unit is truncated there. -/
def restate (unit : Nat) : Error → Error
  | .unexpectedEnd offset => .truncatedUnit unit offset
  | error => error

/-- Read entries to the end of the window. The tree has to be complete there. -/
def decode (unit : Nat) (version : UInt16) (table : AbbreviationTable) :
    Decoder (Array Entry) := do
  let tree ← (Decoder.untilEnd (extend unit version table) {} : Decoder EntryTree)
  if tree.isComplete then return tree.entries
  else throw (.truncatedUnit unit (← Decoder.offset))

end EntryTree

/-- A decoded unit. -/
structure CompilationUnit where
  header : UnitHeader
  order : ByteOrder
  abbreviations : AbbreviationTable
  /-- The entries in the order in which they are stored. -/
  entries : Array Entry
  deriving DecidableEq, Repr, Inhabited

namespace CompilationUnit

/-- Decode the entries of the unit that a header announces. -/
def decode (info : List UInt8) (header : UnitHeader) (table : AbbreviationTable)
    (order : ByteOrder) : Except Error CompilationUnit := do
  let stored := (info.drop header.entriesOffset).take (header.stop - header.entriesOffset)
  let cursor := (header.encoding order).cursor stored header.entriesOffset
  let tree := EntryTree.decode header.offset header.version table
  let entries ← (tree.mapError (EntryTree.restate header.offset)).run cursor
  return ⟨header, order, table, entries⟩

/-- The offset of the header. -/
def offset (unit : CompilationUnit) : Nat :=
  unit.header.offset

def encoding (unit : CompilationUnit) : Encoding :=
  unit.header.encoding unit.order

/-- The root of the tree of entries. -/
def root (unit : CompilationUnit) : Entry :=
  unit.entries[0]?.getD default

/-- The entry of a number. -/
def entry? (unit : CompilationUnit) (id : Nat) : Option Entry :=
  unit.entries[id]?

/-- The number of the entry that starts at an offset. -/
def idAt? (unit : CompilationUnit) (offset : Nat) : Option Nat :=
  unit.entries.findIdx? fun entry => entry.offset == offset

/-- Whether an offset lies in the unit, header included. -/
def containsOffset (unit : CompilationUnit) (offset : Nat) : Bool :=
  unit.header.offset ≤ offset && offset < unit.header.stop

/-- The address that location lists and range lists of the unit are relative to. -/
def baseAddress (unit : CompilationUnit) : UInt64 :=
  ((unit.root.value? .lowPc).bind AttributeValue.address?).getD 0

/-- The directory the unit was compiled in. -/
def compDir? (unit : CompilationUnit) (sections : Sections) : Option String :=
  (unit.root.value? .compDir).bind (AttributeValue.string? sections)

/-- Follow child links, parents before their children, for at most `limit` entries. -/
def walk (unit : CompilationUnit) : Nat → List Nat → List Entry
  | 0, _ => []
  | _, [] => []
  | limit + 1, id :: pending =>
    match unit.entry? id with
    | some entry => entry :: unit.walk limit (entry.children.toList ++ pending)
    | none => unit.walk limit pending

/-- The entries that can be reached from the root, parents before their children. A tree has no
more of them than the unit has entries. -/
def preorder (unit : CompilationUnit) : List Entry :=
  unit.walk unit.entries.size [0]

end CompilationUnit

end Dwarf
