import Mathlib.Data.List.Nodup
import Dwarf.Proofs.Unit.Trees

/-!
# Links between entries

The tree of a unit grows entry by entry.  A new entry comes after all others and hangs below the
innermost open parent, so parents come before their children, children are numbered in ascending
order, and the links of both directions agree.  Offsets ascend as well, since every pass of the
loop begins behind the one before.
-/

namespace Dwarf

open Decoder

variable {table : AbbreviationTable} {encoding : Encoding}

/-- The links between the entries of an arena agree with each other and with its order. -/
structure Linked (entries : Array Entry) : Prop where
  parent_eq_none_iff : ∀ {id : Nat} {entry : Entry}, entries[id]? = some entry →
    (entry.parent = none ↔ id = 0)
  parent_lt : ∀ {id parent : Nat} {entry : Entry}, entries[id]? = some entry →
    entry.parent = some parent → parent < id
  mem_children_iff : ∀ {parent id : Nat} {above : Entry}, entries[parent]? = some above →
    (id ∈ above.children ↔ ∃ entry, entries[id]? = some entry ∧ entry.parent = some parent)
  children_ascend : ∀ {id : Nat} {entry : Entry}, entries[id]? = some entry →
    entry.children.toList.Pairwise (· < ·)
  childless : ∀ {id : Nat} {entry : Entry}, entries[id]? = some entry →
    entry.hasChildren = false → entry.children = #[]

/-- Every entry but the first is one child of one entry, which comes before it. -/
theorem Linked.hangs_once {entries : Array Entry} (linked : Linked entries) {id : Nat}
    {entry : Entry} (found : entries[id]? = some entry) (later : id ≠ 0) :
    ∃ parent above, entry.parent = some parent ∧ parent < id ∧ entries[parent]? = some above ∧
      above.children.toList.count id = 1 ∧
        ∀ other listing, entries[other]? = some listing → id ∈ listing.children →
          other = parent := by
  obtain ⟨parent, hangs⟩ := Option.ne_none_iff_exists'.mp
    (mt (linked.parent_eq_none_iff found).mp later)
  have before := linked.parent_lt found hangs
  obtain ⟨above, stored⟩ : ∃ above, entries[parent]? = some above := by
    have bound := (Array.getElem?_eq_some_iff.mp found).1
    exact ⟨_, Array.getElem?_eq_getElem (Nat.lt_trans before bound)⟩
  have listed : id ∈ above.children :=
    (linked.mem_children_iff stored).mpr ⟨entry, found, hangs⟩
  have distinct : above.children.toList.Nodup := (linked.children_ascend stored).imp Nat.ne_of_lt
  refine ⟨parent, above, hangs, before, stored, ?_, ?_⟩
  · exact List.count_eq_one_of_mem distinct (Array.mem_toList_iff.mpr listed)
  · intro other listing other_stored other_listed
    obtain ⟨same, same_found, same_hangs⟩ :=
      (linked.mem_children_iff other_stored).mp other_listed
    cases found.symm.trans same_found
    exact Option.some.inj (same_hangs.symm.trans hangs)

/-- The offsets of the entries of an arena ascend, from one offset on and below another. -/
structure Ascending (start stop : Nat) (entries : Array Entry) : Prop where
  ascend : (entries.toList.map Entry.offset).Pairwise (· < ·)
  within : ∀ entry ∈ entries, start ≤ entry.offset ∧ entry.offset < stop

theorem Ascending.unique {start stop : Nat} {entries : Array Entry}
    (ascending : Ascending start stop entries) {id other : Nat} {entry same : Entry}
    (found : entries[id]? = some entry) (other_found : entries[other]? = some same)
    (offsets : entry.offset = same.offset) : id = other := by
  obtain ⟨bound, rfl⟩ := Array.getElem?_eq_some_iff.mp found
  obtain ⟨other_bound, rfl⟩ := Array.getElem?_eq_some_iff.mp other_found
  have ascend := List.pairwise_iff_getElem.mp ascending.ascend
  simp only [List.length_map, Array.length_toList, List.getElem_map, Array.getElem_toList] at ascend
  obtain before | rfl | after := Nat.lt_trichotomy id other
  · exact absurd offsets (Nat.ne_of_lt (ascend id other bound other_bound before))
  · rfl
  · exact absurd offsets (Nat.ne_of_gt (ascend other id other_bound bound after))

namespace EntryTree

/-! ## Adding an entry -/

/-- The entries after one has been added: the new one, and the earlier ones, of which the innermost
open parent has a new child. -/
theorem getElem?_add (state : EntryTree) (offset : Nat) (layout : Abbreviation)
    (attributes : List Attribute) (id : Nat) :
    (state.add offset layout attributes).entries[id]? =
      if id = state.entries.size then
        some ⟨offset, layout.tag, layout.hasChildren, attributes, state.openParents.head?, #[]⟩
      else state.entries[id]?.map fun entry =>
        if state.openParents.head? = some id then
          { entry with children := entry.children.push state.entries.size }
        else entry := by
  unfold add
  cases state.openParents.head? with
  | none =>
      rw [Array.getElem?_push]
      by_cases latest : id = state.entries.size
      · simp [latest]
      · simp [latest]
  | some number =>
      rw [Array.getElem?_push, Array.size_modify, Array.getElem?_modify]
      by_cases latest : id = state.entries.size
      · simp [latest]
      · by_cases same : number = id
        · simp [latest, same]
        · simp [latest, same]

/-- An entry of the larger tree is the new one, or an earlier one with perhaps one more child. -/
theorem add_cases {state : EntryTree} {offset : Nat} {layout : Abbreviation}
    {attributes : List Attribute} {id : Nat} {entry : Entry}
    (found : (state.add offset layout attributes).entries[id]? = some entry) :
    (id = state.entries.size ∧ entry =
        ⟨offset, layout.tag, layout.hasChildren, attributes, state.openParents.head?, #[]⟩) ∨
      ∃ earlier, state.entries[id]? = some earlier ∧ entry = { earlier with
        children := if state.openParents.head? = some id then
          earlier.children.push state.entries.size else earlier.children } := by
  rw [getElem?_add] at found
  by_cases latest : id = state.entries.size
  · rw [if_pos latest] at found
    exact .inl ⟨latest, (Option.some.inj found).symm⟩
  · rw [if_neg latest, Option.map_eq_some_iff] at found
    obtain ⟨earlier, known, rfl⟩ := found
    refine .inr ⟨earlier, known, ?_⟩
    split
    · rfl
    · rfl

/-- The new entry is the last one and leaves the offsets of the earlier ones as they are. -/
theorem offsets_add (state : EntryTree) (offset : Nat) (layout : Abbreviation)
    (attributes : List Attribute) :
    (state.add offset layout attributes).entries.toList.map Entry.offset =
      state.entries.toList.map Entry.offset ++ [offset] := by
  have kept : (state.add offset layout attributes).entries[state.entries.size]? = some
      ⟨offset, layout.tag, layout.hasChildren, attributes, state.openParents.head?, #[]⟩ := by
    rw [getElem?_add, if_pos rfl]
  apply List.ext_getElem?
  intro id
  rw [List.getElem?_map, Array.getElem?_toList]
  obtain early | latest | late := Nat.lt_trichotomy id state.entries.size
  · rw [List.getElem?_append_left (by simpa using early), List.getElem?_map, Array.getElem?_toList,
      getElem?_add, if_neg (Nat.ne_of_lt early)]
    cases state.entries[id]? with
    | none => rfl
    | some entry =>
        simp only [Option.map_some]
        split
        · rfl
        · rfl
  · simp [latest, kept]
  · have beyond : (state.entries.toList.map Entry.offset ++ [offset]).length ≤ id := by
      simpa using Nat.succ_le_of_lt late
    rw [Array.getElem?_eq_none (by rw [size_add]; exact late), List.getElem?_eq_none beyond]
    rfl

/-- The parents whose lists are open have been stored, and their layouts have children. -/
def Opens (state : EntryTree) : Prop :=
  ∀ number ∈ state.openParents, ∃ entry, state.entries[number]? = some entry ∧
    entry.hasChildren = true

theorem Opens.lt {state : EntryTree} (opens : state.Opens) {number : Nat}
    (opened : state.openParents.head? = some number) : number < state.entries.size := by
  obtain ⟨entry, stored, _⟩ := opens number (List.mem_of_head? opened)
  exact (Array.getElem?_eq_some_iff.mp stored).1

theorem Opens.head?_eq_none_iff {state : EntryTree} (opens : state.Opens)
    (incomplete : state.isComplete = false) :
    state.openParents.head? = none ↔ state.entries.size = 0 := by
  rw [List.head?_eq_none_iff]
  constructor
  · intro closed
    simpa [isComplete, closed] using incomplete
  · intro empty
    refine List.eq_nil_iff_forall_not_mem.mpr fun number opened => ?_
    obtain ⟨entry, stored, _⟩ := opens number opened
    have bound := (Array.getElem?_eq_some_iff.mp stored).1
    omega

/-- A new entry leaves the lists open that were open, and may open its own. -/
theorem Opens.add {state : EntryTree} (opens : state.Opens) (offset : Nat) (layout : Abbreviation)
    (attributes : List Attribute) : (state.add offset layout attributes).Opens := by
  have earlier : ∀ number ∈ state.openParents, ∃ entry,
      (state.add offset layout attributes).entries[number]? = some entry ∧
        entry.hasChildren = true := by
    intro number opened
    obtain ⟨entry, stored, parent⟩ := opens number opened
    have bound := (Array.getElem?_eq_some_iff.mp stored).1
    rw [getElem?_add, if_neg (Nat.ne_of_lt bound), stored]
    refine ⟨_, rfl, ?_⟩
    split
    · exact parent
    · exact parent
  intro number opened
  by_cases parent : layout.hasChildren = true
  · rw [add_eq, if_pos parent, List.mem_cons] at opened
    cases opened with
    | inl latest => exact ⟨_, by rw [getElem?_add, if_pos latest], parent⟩
    | inr outer => exact earlier number outer
  · rw [add_eq, if_neg parent] at opened
    exact earlier number opened

theorem opens_empty : Opens {} := by
  simp [Opens]

/-- No item leaves a list open that has no parent. -/
theorem Opens.absorb {unit offset : Nat} {state next : EntryTree} {item : EncodedItem}
    (opens : state.Opens) (absorbed : state.absorb unit offset item = .ok next) : next.Opens := by
  cases item with
  | null bytes =>
      change state.close unit offset = .ok next at absorbed
      unfold close at absorbed
      split at absorbed
      next number outer opened =>
        cases absorbed
        exact fun other listed => opens other (opened ▸ List.mem_cons_of_mem _ listed)
      next =>
        split at absorbed
        · cases absorbed
        · cases absorbed
          exact opens
  | node entry =>
      rw [EntryTree.absorb] at absorbed
      split at absorbed
      · cases absorbed
      · cases absorbed
        exact opens.add _ _ _

/-! ## A step preserves the links -/

theorem add_linked {state : EntryTree} (linked : Linked state.entries) (opens : state.Opens)
    (incomplete : state.isComplete = false) (offset : Nat) (layout : Abbreviation)
    (attributes : List Attribute) :
    Linked (state.add offset layout attributes).entries where
  parent_eq_none_iff found := by
    obtain ⟨rfl, rfl⟩ | ⟨earlier, known, rfl⟩ := add_cases found
    · exact opens.head?_eq_none_iff incomplete
    · have agreed := linked.parent_eq_none_iff known
      exact agreed
  parent_lt found parent := by
    obtain ⟨rfl, rfl⟩ | ⟨earlier, known, rfl⟩ := add_cases found
    · exact opens.lt parent
    · exact linked.parent_lt known parent
  mem_children_iff {parent id above} found := by
    have below : (∃ entry, (state.add offset layout attributes).entries[id]? = some entry ∧
        entry.parent = some parent) ↔
          (∃ entry, state.entries[id]? = some entry ∧ entry.parent = some parent) ∨
            id = state.entries.size ∧ state.openParents.head? = some parent := by
      constructor
      · rintro ⟨entry, stored, hangs⟩
        obtain ⟨rfl, rfl⟩ | ⟨earlier, known, rfl⟩ := add_cases stored
        · exact .inr ⟨rfl, hangs⟩
        · exact .inl ⟨earlier, known, hangs⟩
      · rintro (⟨entry, stored, hangs⟩ | ⟨rfl, hangs⟩)
        · have bound := (Array.getElem?_eq_some_iff.mp stored).1
          rw [getElem?_add, if_neg (Nat.ne_of_lt bound), stored]
          refine ⟨_, rfl, ?_⟩
          split
          · exact hangs
          · exact hangs
        · exact ⟨_, by rw [getElem?_add, if_pos rfl], hangs⟩
    rw [below]
    obtain ⟨rfl, rfl⟩ | ⟨earlier, known, rfl⟩ := add_cases found
    · constructor
      · exact fun listed => absurd listed (Array.not_mem_empty id)
      · rintro (⟨entry, stored, hangs⟩ | ⟨_, hangs⟩)
        · have bound := (Array.getElem?_eq_some_iff.mp stored).1
          exact absurd (linked.parent_lt stored hangs) (Nat.not_lt_of_lt bound)
        · exact absurd (opens.lt hangs) (Nat.lt_irrefl _)
    · rw [← linked.mem_children_iff known]
      by_cases innermost : state.openParents.head? = some parent
      · simp [innermost]
      · simp [innermost]
  children_ascend found := by
    obtain ⟨rfl, rfl⟩ | ⟨earlier, known, rfl⟩ := add_cases found
    · exact .nil
    · have ascend := linked.children_ascend known
      dsimp only
      split
      · rw [Array.toList_push, List.pairwise_append]
        refine ⟨ascend, List.pairwise_singleton _ _, fun child listed latest same => ?_⟩
        obtain ⟨entry, stored, _⟩ :=
          (linked.mem_children_iff known).mp (Array.mem_toList_iff.mp listed)
        rw [List.mem_singleton.mp same]
        exact (Array.getElem?_eq_some_iff.mp stored).1
      · exact ascend
  childless {id entry} found unopened := by
    obtain ⟨rfl, rfl⟩ | ⟨earlier, known, rfl⟩ := add_cases found
    · rfl
    · dsimp only
      split
      next innermost =>
        obtain ⟨entry, stored, parent⟩ := opens id (List.mem_of_head? innermost)
        rw [known] at stored
        cases stored
        exact absurd (parent.symm.trans unopened) (by decide)
      next => exact linked.childless known unopened

/-! ## The whole run -/

/-- What holds of a tree whose entries have been read from one offset up to another. -/
structure Arranged (start stop : Nat) (state : EntryTree) : Prop where
  linked : Linked state.entries
  opens : state.Opens
  ascending : Ascending start stop state.entries

theorem arranged_empty (start stop : Nat) : Arranged start stop {} where
  linked := by constructor <;> simp
  opens := opens_empty
  ascending := by constructor <;> simp

/-- An item between two offsets keeps the tree arranged. -/
theorem Arranged.absorb {start offset stop unit : Nat} {state next : EntryTree}
    {item : EncodedItem} (arranged : Arranged start offset state) (from_start : start ≤ offset)
    (onward : offset < stop) (absorbed : state.absorb unit offset item = .ok next) :
    Arranged start stop next := by
  have opens := arranged.opens.absorb absorbed
  have earlier : ∀ entry ∈ state.entries, start ≤ entry.offset ∧ entry.offset < stop := by
    intro entry stored
    obtain ⟨low, high⟩ := arranged.ascending.within entry stored
    exact ⟨low, Nat.lt_trans high onward⟩
  cases item with
  | null bytes =>
      change state.close unit offset = .ok next at absorbed
      unfold close at absorbed
      split at absorbed
      next number outer opened =>
        cases absorbed
        exact ⟨arranged.linked, opens, arranged.ascending.ascend, earlier⟩
      next =>
        split at absorbed
        · cases absorbed
        · cases absorbed
          exact ⟨arranged.linked, opens, arranged.ascending.ascend, earlier⟩
  | node entry =>
      cases complete : state.isComplete with
      | true =>
          rw [EntryTree.absorb, if_pos complete] at absorbed
          cases absorbed
      | false =>
          rw [EntryTree.absorb, if_neg (by simp [complete])] at absorbed
          cases absorbed
          refine ⟨add_linked arranged.linked arranged.opens complete _ _ _, opens, ?_, ?_⟩
          · rw [offsets_add, List.pairwise_append]
            refine ⟨arranged.ascending.ascend, List.pairwise_singleton _ _, ?_⟩
            intro before listed latest same
            obtain ⟨stored, member, rfl⟩ := List.mem_map.mp listed
            rw [List.mem_singleton.mp same]
            exact (arranged.ascending.within stored (Array.mem_toList_iff.mp member)).2
          · intro stored member
            obtain ⟨id, found⟩ := Array.mem_iff_getElem?.mp member
            obtain ⟨rfl, rfl⟩ | ⟨kept, known, rfl⟩ := add_cases found
            · exact ⟨from_start, onward⟩
            · have bounds := earlier kept (Array.mem_of_getElem? known)
              exact bounds

/-- Items that are stored from an offset on keep the tree arranged up to their end. -/
theorem Arranged.absorbAll {start offset unit : Nat} {state last : EntryTree}
    {items : List EncodedItem} (encode : ∀ item ∈ items, item.IsEncoding table encoding)
    (arranged : Arranged start offset state) (from_start : start ≤ offset)
    (absorbed : EntryTree.absorbAll unit offset state items = .ok last) :
    Arranged start (offset + (items.flatMap EncodedItem.bytes).length) last := by
  induction items generalizing offset state with
  | nil =>
      cases absorbed
      exact arranged
  | cons item items ih =>
      obtain ⟨first, others⟩ := List.forall_mem_cons.mp encode
      obtain ⟨next, absorb_item, absorb_rest⟩ := absorbAll_cons.mp absorbed
      have onward : offset < offset + item.bytes.length :=
        Nat.lt_add_of_pos_right (List.length_pos_iff.mpr first.bytes_ne_nil)
      have step := arranged.absorb from_start onward absorb_item
      rw [List.flatMap_cons, List.length_append, ← Nat.add_assoc]
      exact ih others step (Nat.le_trans from_start (Nat.le_of_lt onward)) absorb_rest

theorem arranged_of_passes {unit : Nat} {cursor : Cursor} {last : EntryTree}
    (under : cursor.Under encoding)
    (passes : Passes (extend unit encoding.version table) cursor {} last) :
    Arranged cursor.offset (cursor.offset + cursor.rest.length) last := by
  obtain ⟨items, encode, split, absorbed⟩ := (passes_iff_absorbAll under).mp passes
  rw [split]
  exact (arranged_empty _ _).absorbAll encode (Nat.le_refl _) absorbed

end EntryTree

namespace CompilationUnit

/-- The entries of a unit are linked, they begin in ascending order inside the bytes that are
stored for them, and there is at least one. -/
theorem decode_arranged {info : List UInt8} {header : UnitHeader} {table : AbbreviationTable}
    {order : ByteOrder} {unit : CompilationUnit}
    (decoded : decode info header table order = .ok unit) :
    unit.header = header ∧ Linked unit.entries ∧
      Ascending header.entriesOffset
        (header.entriesOffset + (storedEntries info header).length) unit.entries ∧
      0 < unit.entries.size := by
  unfold decode at decoded
  obtain ⟨entries, run, same⟩ := bind_eq_ok_iff.mp decoded
  cases same
  have under := Cursor.under_cursor (header.encoding order) (storedEntries info header)
    header.entriesOffset
  obtain ⟨last, passes, complete, rfl⟩ :=
    EntryTree.decode_result_eq_ok.mp (Decoder.mapError_result_eq_ok.mp run)
  have arranged := EntryTree.arranged_of_passes under passes
  refine ⟨rfl, arranged.linked, arranged.ascending, ?_⟩
  rw [EntryTree.isComplete, Bool.and_eq_true, Bool.not_eq_true', Array.isEmpty_eq_false_iff] at complete
  exact Array.size_pos_iff.mpr complete.1

/-- The number at an offset is that of the entry which begins there. -/
theorem idAt?_eq_some_iff_entry? {unit : CompilationUnit} {start stop : Nat}
    (ascending : Ascending start stop unit.entries) {offset id : Nat} :
    unit.idAt? offset = some id ↔
      ∃ entry, unit.entry? id = some entry ∧ entry.offset = offset := by
  rw [idAt?, Array.findIdx?_eq_some_iff_getElem]
  constructor
  · rintro ⟨bound, here, _⟩
    exact ⟨unit.entries[id], Array.getElem?_eq_getElem bound, by simpa using here⟩
  · rintro ⟨entry, found, rfl⟩
    obtain ⟨bound, rfl⟩ := Array.getElem?_eq_some_iff.mp found
    refine ⟨bound, by simp, fun earlier before same => ?_⟩
    have known := Array.getElem?_eq_getElem (Nat.lt_trans before bound)
    exact absurd (ascending.unique known found (by simpa using same)) (Nat.ne_of_lt before)

end CompilationUnit

end Dwarf
