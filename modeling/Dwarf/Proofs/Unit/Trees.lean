import Dwarf.Proofs.Unit.Flattening

/-!
# Units are flattened trees

The entries of a unit can be decoded exactly when their bytes flatten a tree of encoded entries,
with nothing but null entries after it.  There is one such tree at most, and the decoded unit is
its arena.
-/

namespace Dwarf

variable {table : AbbreviationTable} {encoding : Encoding}

namespace EncodedTree

/-- The bytes of a tree, with null entries as padding after it. -/
structure Flattens (tree : EncodedTree) (table : AbbreviationTable) (encoding : Encoding)
    (stored : List UInt8) : Prop where
  formed : tree.WellFormed table encoding
  padded : ∃ padding : List (List UInt8), (∀ null ∈ padding, IsNullEntry encoding null) ∧
    stored = tree.bytes ++ padding.flatten

/-! ## Trees and their items -/

theorem items_eq_cons (tree : EncodedTree) :
    ∃ entry items, tree.items = .node entry :: items := by
  cases tree with
  | leaf entry => exact ⟨entry, [], rfl⟩
  | branch entry children terminator => exact ⟨entry, _, rfl⟩

mutual

theorem encode_items {tree : EncodedTree} (formed : tree.WellFormed table encoding) :
    ∀ item ∈ tree.items, item.IsEncoding table encoding := by
  intro item member
  cases formed with
  | leaf encodes childless =>
      rw [items, List.mem_singleton] at member
      exact member ▸ encodes
  | branch encodes parent descend ended =>
      rw [items, List.mem_cons, List.mem_append, List.mem_singleton] at member
      obtain rfl | below | rfl := member
      · exact encodes
      · exact encode_itemsAll descend item below
      · exact ended

theorem encode_itemsAll {trees : List EncodedTree}
    (formed : ∀ tree ∈ trees, tree.WellFormed table encoding) :
    ∀ item ∈ itemsAll trees, item.IsEncoding table encoding := by
  intro item member
  cases trees with
  | nil => cases member
  | cons tree trees =>
      obtain ⟨first, others⟩ := List.forall_mem_cons.mp formed
      rw [itemsAll, List.mem_append] at member
      cases member with
      | inl here => exact encode_items first item here
      | inr later => exact encode_itemsAll others item later

end

mutual

/-- A tree can be told from its items, whatever follows them. -/
theorem items_injective {first second : EncodedTree} (left : first.WellFormed table encoding)
    (right : second.WellFormed table encoding) {after behind : List EncodedItem}
    (same : first.items ++ after = second.items ++ behind) : first = second ∧ after = behind := by
  cases left with
  | @leaf entry encodes childless =>
      cases right with
      | leaf _ _ =>
          obtain ⟨heads, tails⟩ := List.cons.inj same
          cases heads
          exact ⟨rfl, tails⟩
      | branch _ parent _ _ =>
          obtain ⟨heads, _⟩ := List.cons.inj same
          cases heads
          rw [childless] at parent
          cases parent
  | @branch entry children terminator encodes parent descend ended =>
      cases right with
      | leaf _ childless =>
          obtain ⟨heads, _⟩ := List.cons.inj same
          cases heads
          rw [childless] at parent
          cases parent
      | branch _ _ other_descend _ =>
          simp only [items, List.cons_append, List.append_assoc, List.nil_append,
            List.cons.injEq] at same
          obtain ⟨heads, tails⟩ := same
          cases heads
          obtain ⟨rfl, rfl, rest⟩ := itemsAll_injective descend other_descend tails
          exact ⟨rfl, rest⟩

/-- A forest can be told from its items and the null entry after them. -/
theorem itemsAll_injective {first second : List EncodedTree}
    (left : ∀ tree ∈ first, tree.WellFormed table encoding)
    (right : ∀ tree ∈ second, tree.WellFormed table encoding) {null other : List UInt8}
    {after behind : List EncodedItem}
    (same : itemsAll first ++ .null null :: after = itemsAll second ++ .null other :: behind) :
    first = second ∧ null = other ∧ after = behind := by
  cases first with
  | nil =>
      cases second with
      | nil =>
          obtain ⟨heads, tails⟩ := List.cons.inj same
          cases heads
          exact ⟨rfl, rfl, tails⟩
      | cons tree trees =>
          obtain ⟨entry, items, begins⟩ := tree.items_eq_cons
          simp [itemsAll, begins] at same
  | cons tree trees =>
      cases second with
      | nil =>
          obtain ⟨entry, items, begins⟩ := tree.items_eq_cons
          simp [itemsAll, begins] at same
      | cons other_tree other_trees =>
          obtain ⟨first, others⟩ := List.forall_mem_cons.mp left
          obtain ⟨other_first, other_others⟩ := List.forall_mem_cons.mp right
          rw [itemsAll, itemsAll, List.append_assoc, List.append_assoc] at same
          obtain ⟨rfl, rest⟩ := items_injective first other_first same
          obtain ⟨rfl, nulls, ends⟩ := itemsAll_injective others other_others rest
          exact ⟨rfl, nulls, ends⟩

end

end EncodedTree

/-! ## Decoding a unit -/

namespace EntryTree

open Decoder EncodedTree

/-- The entries of a unit can be decoded exactly when the loop ends with a complete tree. -/
theorem decode_result_eq_ok {unit : Nat} {version : UInt16} {cursor : Cursor}
    {entries : Array Entry} :
    (decode unit version table cursor).result = .ok entries ↔
      ∃ last, Passes (extend unit version table) cursor {} last ∧ last.isComplete = true ∧
        entries = last.entries := by
  unfold decode
  constructor
  · intro read
    obtain ⟨last, passes, rest⟩ := bind_result_eq_ok.mp read
    cases complete : last.isComplete with
    | true =>
        rw [if_pos complete] at rest
        cases rest
        exact ⟨last, untilEnd_eq_ok_iff.mp passes, complete, rfl⟩
    | false =>
        rw [if_neg (by simp [complete])] at rest
        cases rest
  · rintro ⟨last, passes, complete, rfl⟩
    refine bind_result_eq_ok.mpr ⟨last, untilEnd_eq_ok_iff.mpr passes, ?_⟩
    rw [if_pos complete]
    rfl

theorem graft_empty_entries (offset : Nat) (tree : EncodedTree) :
    (({} : EntryTree).graft offset tree).entries = tree.arena offset := by
  simp [graft, adopt, arena]

theorem graft_empty_complete (offset : Nat) (tree : EncodedTree) :
    (({} : EntryTree).graft offset tree).isComplete = true := by
  rw [isComplete, graft_empty_entries]
  cases tree with
  | leaf entry => rfl
  | branch entry children terminator => rfl

theorem absorbAll_tree {tree : EncodedTree} (formed : tree.WellFormed table encoding)
    (unit offset : Nat) (padding : List (List UInt8)) :
    absorbAll unit offset {} (tree.items ++ padding.map .null) =
      .ok (({} : EntryTree).graft offset tree) := by
  rw [absorbAll_items formed rfl, absorbAll_padding (graft_empty_complete offset tree)]

/-- Items that lead to a complete tree are those of a tree and null entries after it. -/
theorem tree_of_complete {unit offset : Nat} {last : EntryTree} {items : List EncodedItem}
    (encode : ∀ item ∈ items, item.IsEncoding table encoding)
    (absorbed : absorbAll unit offset {} items = .ok last) (complete : last.isComplete = true) :
    ∃ (tree : EncodedTree) (padding : List (List UInt8)), tree.WellFormed table encoding ∧
      items = tree.items ++ padding.map .null := by
  have ended : last.openParents = [] := by
    rw [isComplete, Bool.and_eq_true] at complete
    exact List.isEmpty_iff.mp complete.2
  cases items with
  | nil =>
      cases absorbed
      cases complete
  | cons item items =>
      cases item with
      | null bytes =>
          obtain ⟨next, absorb_null, _⟩ := absorbAll_cons.mp absorbed
          cases absorb_null
      | node entry =>
          obtain ⟨first, others⟩ := List.forall_mem_cons.mp encode
          obtain ⟨tree, after, formed, split⟩ := tree_of_absorbAll first others rfl ended absorbed
          rw [split, absorbAll_items formed rfl] at absorbed
          obtain ⟨padding, nulls⟩ :=
            padding_of_absorbAll (graft_empty_complete offset tree) absorbed
          exact ⟨tree, padding, formed, by rw [split, nulls]⟩

end EntryTree

/-! ## Flattened trees -/

namespace EncodedTree

/-- The bytes of a flattened tree are a run of items. -/
theorem Flattens.items {tree : EncodedTree} {stored : List UInt8}
    (flattens : tree.Flattens table encoding stored) :
    ∃ padding : List (List UInt8),
      (∀ item ∈ tree.items ++ padding.map EncodedItem.null, item.IsEncoding table encoding) ∧
        stored = (tree.items ++ padding.map EncodedItem.null).flatMap EncodedItem.bytes := by
  obtain ⟨padding, nulls, split⟩ := flattens.padded
  refine ⟨padding, ?_, ?_⟩
  · intro item member
    rw [List.mem_append, List.mem_map] at member
    obtain inside | ⟨null, padded, rfl⟩ := member
    · exact encode_items flattens.formed item inside
    · exact nulls null padded
  · rw [split, List.flatMap_append, flatMap_items, List.flatMap_map, List.flatten_eq_flatMap]
    rfl

theorem Flattens.unique {first second : EncodedTree} {stored : List UInt8}
    (left : first.Flattens table encoding stored) (right : second.Flattens table encoding stored) :
    first = second := by
  obtain ⟨padding, encode, split⟩ := left.items
  obtain ⟨other_padding, other_encode, other_split⟩ := right.items
  have same := EncodedItem.eq_of_flatMap_bytes encode other_encode (split.symm.trans other_split)
  exact (items_injective left.formed right.formed same).1

/-- The loop over a window ends with a complete tree exactly when the window holds a flattened
tree, and then with its arena. -/
theorem flattens_iff_passes {unit : Nat} {cursor : Cursor} {entries : Array Entry}
    (under : cursor.Under encoding) :
    (EntryTree.decode unit encoding.version table cursor).result = .ok entries ↔
      ∃ tree : EncodedTree, tree.Flattens table encoding cursor.rest ∧
        entries = tree.arena cursor.offset := by
  rw [EntryTree.decode_result_eq_ok]
  constructor
  · rintro ⟨last, passes, complete, rfl⟩
    obtain ⟨items, encode, split, absorbed⟩ := (EntryTree.passes_iff_absorbAll under).mp passes
    obtain ⟨tree, padding, formed, rfl⟩ := EntryTree.tree_of_complete encode absorbed complete
    rw [EntryTree.absorbAll_tree formed] at absorbed
    cases absorbed
    refine ⟨tree, ⟨formed, padding, ?_, ?_⟩, EntryTree.graft_empty_entries _ _⟩
    · intro null member
      exact encode _ (List.mem_append_right _ (List.mem_map_of_mem member))
    · rw [split, List.flatMap_append, flatMap_items, List.flatMap_map, List.flatten_eq_flatMap]
      rfl
  · rintro ⟨tree, flattens, rfl⟩
    obtain ⟨padding, encode, split⟩ := flattens.items
    refine ⟨({} : EntryTree).graft cursor.offset tree, ?_,
      EntryTree.graft_empty_complete _ _, (EntryTree.graft_empty_entries _ _).symm⟩
    rw [EntryTree.passes_iff_absorbAll under]
    exact ⟨_, encode, split, EntryTree.absorbAll_tree flattens.formed _ _ padding⟩

end EncodedTree

namespace CompilationUnit

/-- The bytes that a header announces as the entries of its unit. -/
def storedEntries (info : List UInt8) (header : UnitHeader) : List UInt8 :=
  (info.drop header.entriesOffset).take (header.stop - header.entriesOffset)

/-- A unit can be decoded exactly when its bytes hold a flattened tree. -/
theorem decode_eq_ok_iff {info : List UInt8} {header : UnitHeader} {table : AbbreviationTable}
    {order : ByteOrder} {unit : CompilationUnit} :
    decode info header table order = .ok unit ↔
      ∃ tree : EncodedTree,
        tree.Flattens table (header.encoding order) (storedEntries info header) ∧
          unit = ⟨header, order, table, tree.arena header.entriesOffset⟩ := by
  have under := Cursor.under_cursor (header.encoding order) (storedEntries info header)
    header.entriesOffset
  unfold decode
  rw [bind_eq_ok_iff]
  constructor
  · rintro ⟨entries, run, same⟩
    cases same
    obtain ⟨tree, flattens, rfl⟩ :=
      (EncodedTree.flattens_iff_passes under).mp (Decoder.mapError_result_eq_ok.mp run)
    exact ⟨tree, flattens, rfl⟩
  · rintro ⟨tree, flattens, rfl⟩
    refine ⟨tree.arena header.entriesOffset, Decoder.mapError_result_eq_ok.mpr ?_, rfl⟩
    exact (EncodedTree.flattens_iff_passes under).mpr ⟨tree, flattens, rfl⟩

/-- The entries of a unit that can be decoded are the arena of the one tree that is stored. -/
theorem decodes_flattened_trees (info : List UInt8) (header : UnitHeader)
    (table : AbbreviationTable) (order : ByteOrder) :
    (∀ tree : EncodedTree,
      tree.Flattens table (header.encoding order) (storedEntries info header) →
        decode info header table order =
          .ok ⟨header, order, table, tree.arena header.entriesOffset⟩) ∧
      ∀ unit : CompilationUnit, decode info header table order = .ok unit →
        ∃ tree : EncodedTree,
          tree.Flattens table (header.encoding order) (storedEntries info header) ∧
            unit = ⟨header, order, table, tree.arena header.entriesOffset⟩ ∧
              ∀ other : EncodedTree,
                other.Flattens table (header.encoding order) (storedEntries info header) →
                  other = tree := by
  constructor
  · intro tree flattens
    exact decode_eq_ok_iff.mpr ⟨tree, flattens, rfl⟩
  · intro unit decoded
    obtain ⟨tree, flattens, same⟩ := decode_eq_ok_iff.mp decoded
    exact ⟨tree, flattens, same, fun other others => others.unique flattens⟩

/-- A root with an attribute and children, and a child without either. -/
def rootAndChild : AbbreviationTable :=
  ⟨[⟨1, ⟨0x11⟩, true, [⟨⟨0x13⟩, ⟨0x0b⟩⟩]⟩, ⟨2, ⟨0x24⟩, false, []⟩]⟩

/-- The root, its child, the end of the children, and a null entry as padding. -/
theorem decodes_root_and_child :
    decode [12, 0, 0, 0, 4, 0, 0, 0, 0, 0, 8, 1, 42, 2, 0, 0] ⟨0, 12, 4, 0, 8, 4, 11⟩
        rootAndChild .little =
      .ok ⟨⟨0, 12, 4, 0, 8, 4, 11⟩, .little, rootAndChild,
        #[⟨11, ⟨0x11⟩, true, [⟨⟨0x13⟩, ⟨0x0b⟩, .unsigned 42⟩], none, #[1]⟩,
          ⟨13, ⟨0x24⟩, false, [], some 0, #[]⟩]⟩ := by
  refine (decodes_flattened_trees _ ⟨0, 12, 4, 0, 8, 4, 11⟩ rootAndChild .little).1
    (.branch ⟨[1, 42], ⟨1, ⟨0x11⟩, true, [⟨⟨0x13⟩, ⟨0x0b⟩⟩]⟩, [⟨⟨0x13⟩, ⟨0x0b⟩, .unsigned 42⟩]⟩
      [.leaf ⟨[2], ⟨2, ⟨0x24⟩, false, []⟩, []⟩] [0]) ⟨?_, [[0]], ?_, rfl⟩
  · refine .branch ⟨rfl, by decide, [1], [42], rfl, ⟨rfl, rfl⟩, ?_⟩ rfl ?_ ⟨rfl, rfl⟩
    · exact @EncodesAttributes.more _ _ [] [42] [] _ [] ⟨rfl, rfl⟩ .none
    · intro child member
      rw [List.mem_singleton] at member
      subst member
      exact .leaf ⟨rfl, by decide, [2], [], rfl, ⟨rfl, rfl⟩, .none⟩ rfl
  · intro null member
    rw [List.mem_singleton] at member
    subst member
    exact ⟨rfl, rfl⟩

end CompilationUnit

end Dwarf
