import Dwarf.Unit
import Dwarf.Proofs.Attribute.Local

/-!
# Trees of encoded entries

The bytes of a unit flatten an ordered tree.  A node is a byte string that encodes an entry; an
entry whose layout has children is followed by them and by a null entry, and every other entry
stands alone.  The arena of a tree lists its entries in this order and gives each the offset of its
code and the numbers of its parent and children.
-/

namespace Dwarf

/-- A byte string together with the layout and the attributes that it encodes. -/
structure EncodedEntry where
  bytes : List UInt8
  layout : Abbreviation
  attributes : List Attribute

/-- The byte string is read attribute by attribute for a list of specifications. -/
inductive EncodesAttributes (encoding : Encoding) :
    List AttributeSpec → List UInt8 → List Attribute → Prop where
  | none : EncodesAttributes encoding [] [] []
  | more {spec : AttributeSpec} {specs : List AttributeSpec} {field rest : List UInt8}
      {found : Attribute} {attributes : List Attribute}
      (read : (Attribute.decode 0 encoding.version spec).Consumes encoding field found)
      (others : EncodesAttributes encoding specs rest attributes) :
      EncodesAttributes encoding (spec :: specs) (field ++ rest) (found :: attributes)

/-- The byte string is a code of the table, followed by the attributes of its layout. -/
structure EncodedEntry.IsEncoding (table : AbbreviationTable) (encoding : Encoding)
    (entry : EncodedEntry) : Prop where
  declared : table.get? entry.layout.code = some entry.layout
  code_ne_zero : entry.layout.code ≠ 0
  stored : ∃ code rest, entry.bytes = code ++ rest ∧
    Decoder.unsigned.read.Consumes encoding code entry.layout.code ∧
      EncodesAttributes encoding entry.layout.attributes rest entry.attributes

/-- The byte string is a null entry: the code zero. -/
def IsNullEntry (encoding : Encoding) (bytes : List UInt8) : Prop :=
  Decoder.unsigned.read.Consumes encoding bytes 0

/-- A tree of encoded entries.  The list of children of a branch ends with a null entry. -/
inductive EncodedTree where
  | leaf (entry : EncodedEntry)
  | branch (entry : EncodedEntry) (children : List EncodedTree) (terminator : List UInt8)

namespace EncodedTree

/-- The nodes encode entries, and those with children are the ones whose layout says so. -/
inductive WellFormed (table : AbbreviationTable) (encoding : Encoding) : EncodedTree → Prop where
  | leaf {entry : EncodedEntry} (encodes : entry.IsEncoding table encoding)
      (childless : entry.layout.hasChildren = false) : WellFormed table encoding (.leaf entry)
  | branch {entry : EncodedEntry} {children : List EncodedTree} {terminator : List UInt8}
      (encodes : entry.IsEncoding table encoding) (parent : entry.layout.hasChildren = true)
      (descend : ∀ child ∈ children, WellFormed table encoding child)
      (ended : IsNullEntry encoding terminator) :
      WellFormed table encoding (.branch entry children terminator)

mutual

/-- The bytes of a tree in pre-order. -/
def bytes : EncodedTree → List UInt8
  | .leaf entry => entry.bytes
  | .branch entry children terminator => entry.bytes ++ bytesAll children ++ terminator

def bytesAll : List EncodedTree → List UInt8
  | [] => []
  | tree :: trees => bytes tree ++ bytesAll trees

end

mutual

/-- The number of entries of a tree. -/
def size : EncodedTree → Nat
  | .leaf _ => 1
  | .branch _ children _ => 1 + sizeAll children

def sizeAll : List EncodedTree → Nat
  | [] => 0
  | tree :: trees => size tree + sizeAll trees

end

/-- The numbers of neighbouring trees, the first of which has a given number. -/
def numbers : Nat → List EncodedTree → List Nat
  | _, [] => []
  | id, tree :: trees => id :: numbers (id + tree.size) trees

mutual

/-- The entries of a tree that starts at an offset, has a number, and hangs below a parent. -/
def entries (offset id : Nat) (parent : Option Nat) : EncodedTree → List Entry
  | .leaf entry =>
      [⟨offset, entry.layout.tag, entry.layout.hasChildren, entry.attributes, parent, #[]⟩]
  | .branch entry children _ =>
      ⟨offset, entry.layout.tag, entry.layout.hasChildren, entry.attributes, parent,
          (numbers (id + 1) children).toArray⟩ ::
        entriesAll (offset + entry.bytes.length) (id + 1) id children

def entriesAll (offset id parent : Nat) : List EncodedTree → List Entry
  | [] => []
  | tree :: trees =>
      entries offset id (some parent) tree ++
        entriesAll (offset + tree.bytes.length) (id + tree.size) parent trees

end

/-- The arena of a tree that is stored from an offset on. -/
def arena (tree : EncodedTree) (offset : Nat) : Array Entry :=
  (tree.entries offset 0 none).toArray

mutual

theorem length_entries (offset id : Nat) (parent : Option Nat) (tree : EncodedTree) :
    (tree.entries offset id parent).length = tree.size := by
  cases tree with
  | leaf entry => simp only [entries, size, List.length_singleton]
  | branch entry children terminator =>
      rw [entries, size, List.length_cons, length_entriesAll, Nat.add_comm]

theorem length_entriesAll (offset id parent : Nat) (trees : List EncodedTree) :
    (entriesAll offset id parent trees).length = sizeAll trees := by
  cases trees with
  | nil => simp only [entriesAll, sizeAll, List.length_nil]
  | cons tree trees =>
      rw [entriesAll, sizeAll, List.length_append, length_entries, length_entriesAll]

end

end EncodedTree

/-! ## Items -/

/-- What is stored one after the other: entries and null entries. -/
inductive EncodedItem where
  | node (entry : EncodedEntry)
  | null (bytes : List UInt8)

namespace EncodedItem

def bytes : EncodedItem → List UInt8
  | .node entry => entry.bytes
  | .null bytes => bytes

def IsEncoding (table : AbbreviationTable) (encoding : Encoding) : EncodedItem → Prop
  | .node entry => entry.IsEncoding table encoding
  | .null bytes => IsNullEntry encoding bytes

end EncodedItem

namespace EncodedTree

mutual

/-- The items of a tree in pre-order. -/
def items : EncodedTree → List EncodedItem
  | .leaf entry => [.node entry]
  | .branch entry children terminator => .node entry :: (itemsAll children ++ [.null terminator])

def itemsAll : List EncodedTree → List EncodedItem
  | [] => []
  | tree :: trees => items tree ++ itemsAll trees

end

theorem length_items_pos (tree : EncodedTree) : 0 < tree.items.length := by
  cases tree with
  | leaf entry => exact Nat.one_pos
  | branch entry children terminator => exact Nat.succ_pos _

mutual

theorem flatMap_items (tree : EncodedTree) : tree.items.flatMap EncodedItem.bytes = tree.bytes := by
  cases tree with
  | leaf entry => simp [items, bytes, EncodedItem.bytes]
  | branch entry children terminator =>
      simp [items, bytes, EncodedItem.bytes, flatMap_itemsAll children]

theorem flatMap_itemsAll (trees : List EncodedTree) :
    (itemsAll trees).flatMap EncodedItem.bytes = bytesAll trees := by
  cases trees with
  | nil => rfl
  | cons tree trees =>
      rw [itemsAll, bytesAll, List.flatMap_append, flatMap_items tree, flatMap_itemsAll trees]

end

end EncodedTree

end Dwarf
