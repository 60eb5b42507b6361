import Dwarf.Proofs.Unit.Links

/-!
# The order of the entries

Entries are stored with parents before their children, which is the order of a depth-first walk
over the child links.  The walk is a stack machine of its own: it follows the links of the finished
arena, while these links were made by another stack of open parents.  Both agree with the recursion
over the stored tree.
-/

namespace Dwarf

namespace CompilationUnit

open EncodedTree

/-! ## Walking the stored tree -/

/-- The entries stand one after the other in the unit, from a number on. -/
def Stores (unit : CompilationUnit) (id : Nat) (entries : List Entry) : Prop :=
  entries <+: unit.entries.toList.drop id

variable {unit : CompilationUnit} {id : Nat}

theorem Stores.left {first second : List Entry} (stores : unit.Stores id (first ++ second)) :
    unit.Stores id first :=
  (List.prefix_append first second).trans stores

theorem Stores.right {first second : List Entry} (stores : unit.Stores id (first ++ second)) :
    unit.Stores (id + first.length) second := by
  obtain ⟨after, split⟩ := stores
  refine ⟨after, ?_⟩
  rw [← List.drop_drop, ← split, List.append_assoc, List.drop_left]

theorem Stores.head {entry : Entry} {entries : List Entry}
    (stores : unit.Stores id (entry :: entries)) : unit.entry? id = some entry := by
  obtain ⟨after, split⟩ := stores
  have first := congrArg (·[0]?) split
  rw [CompilationUnit.entry?, ← Array.getElem?_toList]
  simpa using first.symm

theorem walk_of_entry? {entry : Entry} (found : unit.entry? id = some entry) (limit : Nat)
    (pending : List Nat) :
    unit.walk (limit + 1) (id :: pending) =
      entry :: unit.walk limit (entry.children.toList ++ pending) := by
  rw [walk, found]

theorem walk_nil (unit : CompilationUnit) (limit : Nat) : unit.walk limit [] = [] := by
  cases limit with
  | zero => rfl
  | succ limit => rfl

mutual

/-- From the number of a stored tree the walk lists its entries and goes on with what is pending. -/
theorem walk_entries {tree : EncodedTree} {offset id : Nat} {parent : Option Nat}
    (stores : unit.Stores id (tree.entries offset id parent)) (limit : Nat) (pending : List Nat) :
    unit.walk (limit + tree.size) (id :: pending) =
      tree.entries offset id parent ++ unit.walk limit pending := by
  cases tree with
  | leaf entry =>
      rw [size, walk_of_entry? stores.head]
      rfl
  | branch entry children terminator =>
      have below : unit.Stores (id + 1)
          (entriesAll (offset + entry.bytes.length) (id + 1) id children) :=
        @Stores.right unit id [_] _ stores
      rw [size, Nat.add_comm 1, ← Nat.add_assoc, walk_of_entry? stores.head,
        walk_entriesAll below limit pending]
      rfl

/-- From the numbers of neighbouring trees the walk lists the entries of one after the other. -/
theorem walk_entriesAll {trees : List EncodedTree} {offset id parent : Nat}
    (stores : unit.Stores id (entriesAll offset id parent trees)) (limit : Nat)
    (pending : List Nat) :
    unit.walk (limit + sizeAll trees) (numbers id trees ++ pending) =
      entriesAll offset id parent trees ++ unit.walk limit pending := by
  cases trees with
  | nil => rfl
  | cons tree trees =>
      rw [entriesAll] at stores
      have others := stores.right
      rw [length_entries] at others
      rw [sizeAll, Nat.add_comm tree.size, ← Nat.add_assoc, numbers, List.cons_append,
        walk_entries stores.left, walk_entriesAll others, entriesAll, List.append_assoc]

end

theorem walk_arena {tree : EncodedTree} {offset limit : Nat}
    (arena : unit.entries = tree.arena offset) (enough : unit.entries.size ≤ limit) :
    unit.walk limit [0] = unit.entries.toList := by
  have stores : unit.Stores 0 (tree.entries offset 0 none) := by
    rw [Stores, List.drop_zero, arena]
    exact List.prefix_rfl
  have size : unit.entries.size = tree.size := by
    rw [arena, EncodedTree.arena, List.size_toArray, length_entries]
  obtain ⟨more, rfl⟩ := Nat.exists_eq_add_of_le' enough
  rw [size, walk_entries stores, walk_nil, List.append_nil, arena]
  rfl

/-- The order in which the entries of a unit are stored is that of their offsets and that of a walk
over the child links, and each entry hangs at one place. -/
structure Preordered (unit : CompilationUnit) : Prop where
  /-- The walk lists all entries in order. -/
  preorder_eq : unit.preorder = unit.entries.toList
  /-- It is finished then: without a limit it goes on no further. -/
  walk_eq : ∀ limit, unit.entries.size ≤ limit → unit.walk limit [0] = unit.entries.toList
  offsets_ascend : (unit.entries.toList.map Entry.offset).Pairwise (· < ·)
  root : unit.entry? 0 = some unit.root ∧ unit.root.parent = none
  /-- Every other entry is one child of one entry, which comes before it. -/
  parent : ∀ id entry, unit.entry? id = some entry → id ≠ 0 →
    ∃ parent above, entry.parent = some parent ∧ parent < id ∧ unit.entry? parent = some above ∧
      above.children.toList.count id = 1 ∧
        ∀ other listing, unit.entry? other = some listing → id ∈ listing.children → other = parent
  /-- Every child is an entry that names its parent. -/
  child : ∀ id entry, unit.entry? id = some entry → ∀ number ∈ entry.children,
    ∃ below, unit.entry? number = some below ∧ below.parent = some id
  children_ascend : ∀ id entry, unit.entry? id = some entry →
    entry.children.toList.Pairwise (· < ·)
  childless : ∀ id entry, unit.entry? id = some entry → entry.hasChildren = false →
    entry.children = #[]
  idAt?_eq_some_iff : ∀ offset id, unit.idAt? offset = some id ↔
    ∃ entry, unit.entry? id = some entry ∧ entry.offset = offset

/-- The entries of a unit that can be decoded are stored in pre-order. -/
theorem entries_in_preorder {info : List UInt8} {header : UnitHeader} {table : AbbreviationTable}
    {order : ByteOrder} {unit : CompilationUnit}
    (decoded : decode info header table order = .ok unit) : unit.Preordered := by
  obtain ⟨_, linked, ascending, nonempty⟩ := decode_arranged decoded
  obtain ⟨tree, _, same⟩ := decode_eq_ok_iff.mp decoded
  have arena := congrArg CompilationUnit.entries same
  have first : unit.entry? 0 = some unit.root := by
    have stored := Array.getElem?_eq_getElem nonempty
    rw [root, stored]
    exact stored
  exact {
    preorder_eq := walk_arena arena (Nat.le_refl _)
    walk_eq := fun limit enough => walk_arena arena enough
    offsets_ascend := ascending.ascend
    root := ⟨first, (linked.parent_eq_none_iff first).mpr rfl⟩
    parent := fun id entry found later => linked.hangs_once found later
    child := fun id entry found number listed => (linked.mem_children_iff found).mp listed
    children_ascend := fun id entry found => linked.children_ascend found
    childless := fun id entry found => linked.childless found
    idAt?_eq_some_iff := fun _ _ => idAt?_eq_some_iff_entry? ascending }

/-- A root with a child that has a child of its own, and with a second child. -/
def nestedUnit : CompilationUnit where
  header := ⟨0, 15, 4, 0, 8, 4, 11⟩
  order := .little
  abbreviations := ⟨[⟨1, .structureType, true, []⟩, ⟨2, .baseType, false, []⟩]⟩
  entries :=
    #[⟨11, .structureType, true, [], none, #[1, 3]⟩, ⟨12, .structureType, true, [], some 0, #[2]⟩,
      ⟨13, .baseType, false, [], some 1, #[]⟩, ⟨15, .baseType, false, [], some 0, #[]⟩]

theorem nestedUnit_in_preorder :
    decode [15, 0, 0, 0, 4, 0, 0, 0, 0, 0, 8, 1, 1, 2, 0, 2, 0, 0, 0] nestedUnit.header
        nestedUnit.abbreviations nestedUnit.order = .ok nestedUnit ∧ nestedUnit.Preordered := by
  have decoded : decode [15, 0, 0, 0, 4, 0, 0, 0, 0, 0, 8, 1, 1, 2, 0, 2, 0, 0, 0]
      nestedUnit.header nestedUnit.abbreviations nestedUnit.order = .ok nestedUnit := by
    decide +kernel
  exact ⟨decoded, entries_in_preorder decoded⟩

end CompilationUnit

end Dwarf
