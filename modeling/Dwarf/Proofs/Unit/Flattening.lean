import Dwarf.Proofs.Unit.Items

/-!
# Absorbing the items of a tree

The items of a tree leave the open lists as they were: they add the entries of the tree and hang
its root below the innermost open parent.  Conversely, items that close the innermost open list are
the items of a forest and a null entry, so the items of a unit are those of one tree and of nothing
but null entries after it.
-/

namespace Dwarf

variable {table : AbbreviationTable} {encoding : Encoding}

namespace EntryTree

open EncodedTree

/-- The numbers are added to the children of the parent, if there is one. -/
def adopt (entries : Array Entry) (parent : Option Nat) (ids : List Nat) : Array Entry :=
  match parent with
  | some number =>
      entries.modify number fun entry => { entry with children := entry.children ++ ids.toArray }
  | none => entries

/-- A whole tree hangs below the innermost open parent. -/
def graft (state : EntryTree) (offset : Nat) (tree : EncodedTree) : EntryTree where
  entries :=
    adopt state.entries state.openParents.head? [state.entries.size] ++
      (tree.entries offset state.entries.size state.openParents.head?).toArray
  openParents := state.openParents

/-- Neighbouring trees hang below a parent. -/
def graftAll (state : EntryTree) (offset parent : Nat) (trees : List EncodedTree) :
    EntryTree where
  entries :=
    adopt state.entries (some parent) (numbers state.entries.size trees) ++
      (entriesAll offset state.entries.size parent trees).toArray
  openParents := state.openParents

/-! ## Adopting children -/

theorem size_adopt (entries : Array Entry) (parent : Option Nat) (ids : List Nat) :
    (adopt entries parent ids).size = entries.size := by
  cases parent with
  | none => rfl
  | some number => exact Array.size_modify

theorem adopt_nil (entries : Array Entry) (parent : Nat) :
    adopt entries (some parent) [] = entries := by
  apply Array.ext'
  simp only [adopt, Array.append_empty, Array.toList_modify]
  exact List.modify_id parent entries.toList

/-- Two lists of numbers are adopted one after the other. -/
theorem adopt_adopt (entries added : Array Entry) {parent : Nat} (known : parent < entries.size)
    (ids others : List Nat) :
    adopt (adopt entries (some parent) ids ++ added) (some parent) others =
      adopt entries (some parent) (ids ++ others) ++ added := by
  apply Array.ext
  · simp [adopt]
  · intro index left right
    simp only [adopt, Array.getElem_modify, Array.getElem_append, Array.size_modify]
    by_cases early : index < entries.size
    · by_cases same : parent = index
      · simp [early, same]
      · simp [early, same]
    · have other : parent ≠ index := by omega
      simp [early, other]

theorem adopt_push (entries : Array Entry) (entry : Entry) (ids : List Nat) :
    adopt (entries.push entry) (some entries.size) ids =
      entries.push { entry with children := entry.children ++ ids.toArray } := by
  apply Array.ext
  · simp [adopt]
  · intro index left right
    simp only [adopt, Array.getElem_modify, Array.getElem_push]
    by_cases early : index < entries.size
    · have other : entries.size ≠ index := by omega
      simp [early, other]
    · have same : entries.size = index := by simp [adopt] at left; omega
      simp [same]

theorem add_eq (state : EntryTree) (offset : Nat) (layout : Abbreviation)
    (attributes : List Attribute) :
    state.add offset layout attributes =
      ⟨(adopt state.entries state.openParents.head? [state.entries.size]).push
          ⟨offset, layout.tag, layout.hasChildren, attributes, state.openParents.head?, #[]⟩,
        if layout.hasChildren then state.entries.size :: state.openParents
        else state.openParents⟩ := by
  unfold add adopt
  cases state.openParents.head? with
  | none => rfl
  | some number => rfl

theorem size_add (state : EntryTree) (offset : Nat) (layout : Abbreviation)
    (attributes : List Attribute) :
    (state.add offset layout attributes).entries.size = state.entries.size + 1 := by
  rw [add_eq, Array.size_push, size_adopt]

theorem openParents_add (state : EntryTree) {layout : Abbreviation}
    (parent : layout.hasChildren = true) (offset : Nat) (attributes : List Attribute) :
    (state.add offset layout attributes).openParents =
      state.entries.size :: state.openParents := by
  rw [add_eq, if_pos parent]

theorem size_graft (state : EntryTree) (offset : Nat) (tree : EncodedTree) :
    (state.graft offset tree).entries.size = state.entries.size + tree.size := by
  simp only [graft, Array.size_append, size_adopt, List.size_toArray, length_entries]

theorem isComplete_of_open {state : EntryTree} {parent : Nat} {outer : List Nat}
    (opened : state.openParents = parent :: outer) : state.isComplete = false := by
  simp [isComplete, opened]

theorem close_of_open {state : EntryTree} {parent : Nat} {outer : List Nat}
    (opened : state.openParents = parent :: outer) (unit offset : Nat) :
    state.close unit offset = .ok ⟨state.entries, outer⟩ := by
  simp [close, opened]

/-! ## Trees are absorbed -/

/-- A branch is its entry and a forest below it. -/
theorem graft_branch (state : EntryTree) (offset : Nat) {entry : EncodedEntry}
    (children : List EncodedTree) (terminator : List UInt8)
    (parent : entry.layout.hasChildren = true) :
    state.graft offset (.branch entry children terminator) =
      ⟨((state.add offset entry.layout entry.attributes).graftAll (offset + entry.bytes.length)
          state.entries.size children).entries, state.openParents⟩ := by
  have size := size_adopt state.entries state.openParents.head? [state.entries.size]
  have latest := adopt_push (adopt state.entries state.openParents.head? [state.entries.size])
    ⟨offset, entry.layout.tag, true, entry.attributes, state.openParents.head?, #[]⟩
    (numbers (state.entries.size + 1) children)
  rw [size] at latest
  simp only [graft, graftAll, add_eq, parent, if_true, Array.size_push, size, latest]
  simp [EncodedTree.entries, parent]

theorem graftAll_cons {state : EntryTree} {parent : Nat} {outer : List Nat}
    (opened : state.openParents = parent :: outer) (known : parent < state.entries.size)
    (offset : Nat) (tree : EncodedTree) (trees : List EncodedTree) :
    state.graftAll offset parent (tree :: trees) =
      (state.graft offset tree).graftAll (offset + tree.bytes.length) parent trees := by
  have size := size_graft state offset tree
  have both := adopt_adopt state.entries
    (tree.entries offset state.entries.size (some parent)).toArray known [state.entries.size]
    (numbers (state.entries.size + tree.size) trees)
  simp only [graftAll, size]
  simp only [graft, opened, List.head?_cons, both, numbers, EncodedTree.entriesAll]
  simp

theorem absorbAll_node {unit offset : Nat} {state : EntryTree} {entry : EncodedEntry}
    (incomplete : state.isComplete = false) (more : List EncodedItem) :
    absorbAll unit offset state (.node entry :: more) =
      absorbAll unit (offset + entry.bytes.length) (state.add offset entry.layout entry.attributes)
        more := by
  rw [absorbAll, absorb, if_neg (by simp [incomplete])]
  rfl

theorem absorbAll_null {unit offset : Nat} {state : EntryTree} {parent : Nat} {outer : List Nat}
    {bytes : List UInt8} (opened : state.openParents = parent :: outer)
    (more : List EncodedItem) :
    absorbAll unit offset state (.null bytes :: more) =
      absorbAll unit (offset + bytes.length) ⟨state.entries, outer⟩ more := by
  rw [absorbAll, absorb, close_of_open opened]
  rfl

mutual

/-- A tree is absorbed wherever an entry may stand. -/
theorem absorbAll_items {tree : EncodedTree} (formed : tree.WellFormed table encoding)
    {unit offset : Nat} {state : EntryTree} (incomplete : state.isComplete = false)
    (more : List EncodedItem) :
    absorbAll unit offset state (tree.items ++ more) =
      absorbAll unit (offset + tree.bytes.length) (state.graft offset tree) more := by
  cases formed with
  | @leaf entry encodes childless =>
      rw [items, List.singleton_append, absorbAll_node incomplete, add_eq]
      simp [graft, EncodedTree.bytes, EncodedTree.entries, childless]
  | @branch entry children terminator encodes parent descend ended =>
      have opened := openParents_add state parent offset entry.attributes
      have known : state.entries.size <
          (state.add offset entry.layout entry.attributes).entries.size := by
        rw [size_add]
        exact Nat.lt_succ_self _
      have still_opened : ((state.add offset entry.layout entry.attributes).graftAll
          (offset + entry.bytes.length) state.entries.size children).openParents =
            state.entries.size :: state.openParents := opened
      rw [items, List.cons_append, List.append_assoc, absorbAll_node incomplete,
        absorbAll_itemsAll descend opened known, List.singleton_append, absorbAll_null still_opened,
        ← graft_branch state offset children terminator parent, EncodedTree.bytes]
      simp only [List.length_append, Nat.add_assoc]

/-- Neighbouring trees are absorbed where a list of children is open. -/
theorem absorbAll_itemsAll {trees : List EncodedTree}
    (formed : ∀ tree ∈ trees, tree.WellFormed table encoding) {unit offset : Nat}
    {state : EntryTree} {parent : Nat} {outer : List Nat}
    (opened : state.openParents = parent :: outer) (known : parent < state.entries.size)
    (more : List EncodedItem) :
    absorbAll unit offset state (itemsAll trees ++ more) =
      absorbAll unit (offset + (bytesAll trees).length) (state.graftAll offset parent trees)
        more := by
  cases trees with
  | nil => simp [itemsAll, bytesAll, graftAll, numbers, entriesAll, adopt_nil]
  | cons tree trees =>
      obtain ⟨first, others⟩ := List.forall_mem_cons.mp formed
      have still_opened : (state.graft offset tree).openParents = parent :: outer := opened
      have still_known : parent < (state.graft offset tree).entries.size := by
        rw [size_graft]
        exact Nat.lt_add_right _ known
      rw [itemsAll, List.append_assoc, absorbAll_items first (isComplete_of_open opened),
        absorbAll_itemsAll others still_opened still_known, graftAll_cons opened known, bytesAll]
      simp only [List.length_append, Nat.add_assoc]

end

theorem absorbAll_padding {unit offset : Nat} {state : EntryTree}
    (complete : state.isComplete = true) (padding : List (List UInt8)) :
    absorbAll unit offset state (padding.map .null) = .ok state := by
  induction padding generalizing offset with
  | nil => rfl
  | cons null padding ih =>
      rw [List.map_cons, absorbAll_cons]
      refine ⟨state, ?_, ih⟩
      simp only [isComplete, Bool.and_eq_true, Bool.not_eq_true', List.isEmpty_iff] at complete
      simp [absorb, close, complete]

/-- After the end of the tree only null entries are absorbed. -/
theorem padding_of_absorbAll {unit offset : Nat} {state last : EntryTree}
    {items : List EncodedItem} (complete : state.isComplete = true)
    (absorbed : absorbAll unit offset state items = .ok last) :
    ∃ padding : List (List UInt8), items = padding.map .null := by
  induction items generalizing offset state with
  | nil => exact ⟨[], rfl⟩
  | cons item items ih =>
      obtain ⟨next, absorb_item, absorb_rest⟩ := absorbAll_cons.mp absorbed
      cases item with
      | node entry =>
          rw [absorb, if_pos complete] at absorb_item
          cases absorb_item
      | null bytes =>
          have alone : absorbAll unit offset state ([bytes].map .null) = .ok state :=
            absorbAll_padding complete [bytes]
          obtain ⟨same, absorb_same, rest⟩ := absorbAll_cons.mp alone
          cases rest
          rw [absorb_same] at absorb_item
          cases absorb_item
          obtain ⟨padding, nulls⟩ := ih complete absorb_rest
          exact ⟨bytes :: padding, by rw [nulls, List.map_cons]⟩

/-! ## What is absorbed are trees -/

mutual

/-- If all lists are closed in the end, an entry begins a tree. -/
theorem tree_of_absorbAll {unit offset : Nat} {state last : EntryTree} {entry : EncodedEntry}
    {items : List EncodedItem} (encodes : entry.IsEncoding table encoding)
    (encode : ∀ item ∈ items, item.IsEncoding table encoding)
    (incomplete : state.isComplete = false) (ended : last.openParents = [])
    (absorbed : absorbAll unit offset state (.node entry :: items) = .ok last) :
    ∃ (tree : EncodedTree) (after : List EncodedItem), tree.WellFormed table encoding ∧
      .node entry :: items = tree.items ++ after := by
  cases parent : entry.layout.hasChildren with
  | false => exact ⟨.leaf entry, items, .leaf encodes parent, rfl⟩
  | true =>
      have opened := openParents_add state parent offset entry.attributes
      have known : state.entries.size <
          (state.add offset entry.layout entry.attributes).entries.size := by
        rw [size_add]
        exact Nat.lt_succ_self _
      rw [absorbAll_node incomplete] at absorbed
      obtain ⟨trees, terminator, after, formed, null, split⟩ :=
        forest_of_absorbAll encode opened known ended absorbed
      refine ⟨.branch entry trees terminator, after, .branch encodes parent formed null, ?_⟩
      rw [split, EncodedTree.items, List.cons_append, List.append_assoc, List.singleton_append]
termination_by (items.length, 1)

/-- If all lists are closed in the end, a forest stands before the end of an open list. -/
theorem forest_of_absorbAll {unit offset : Nat} {state last : EntryTree} {parent : Nat}
    {outer : List Nat} {items : List EncodedItem}
    (encode : ∀ item ∈ items, item.IsEncoding table encoding)
    (opened : state.openParents = parent :: outer) (known : parent < state.entries.size)
    (ended : last.openParents = [])
    (absorbed : absorbAll unit offset state items = .ok last) :
    ∃ (trees : List EncodedTree) (terminator : List UInt8) (after : List EncodedItem),
      (∀ tree ∈ trees, tree.WellFormed table encoding) ∧ IsNullEntry encoding terminator ∧
        items = itemsAll trees ++ .null terminator :: after := by
  cases items with
  | nil =>
      cases absorbed
      rw [opened] at ended
      cases ended
  | cons item items =>
      obtain ⟨first, others⟩ := List.forall_mem_cons.mp encode
      cases item with
      | null bytes => exact ⟨[], bytes, items, by simp, first, rfl⟩
      | node entry =>
          have incomplete := isComplete_of_open opened
          obtain ⟨tree, after, formed, split⟩ :=
            tree_of_absorbAll first others incomplete ended absorbed
          rw [split, absorbAll_items formed incomplete] at absorbed
          have shorter : after.length < items.length + 1 := by
            have lengths := congrArg List.length split
            rw [List.length_append, List.length_cons] at lengths
            have positive := tree.length_items_pos
            omega
          have encode_after : ∀ item ∈ after, item.IsEncoding table encoding := by
            intro item member
            exact encode item (split ▸ List.mem_append_right _ member)
          have still_opened : (state.graft offset tree).openParents = parent :: outer := opened
          have still_known : parent < (state.graft offset tree).entries.size := by
            rw [size_graft]
            exact Nat.lt_add_right _ known
          obtain ⟨trees, terminator, behind, formed_rest, null, split_rest⟩ :=
            forest_of_absorbAll encode_after still_opened still_known ended absorbed
          refine ⟨tree :: trees, terminator, behind,
            List.forall_mem_cons.mpr ⟨formed, formed_rest⟩, null, ?_⟩
          rw [split, split_rest, itemsAll, List.append_assoc]
termination_by (items.length, 0)

end

end EntryTree

end Dwarf
