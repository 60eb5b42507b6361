import Dwarf.Proofs.Except
import Dwarf.Proofs.Unit.EncodedTree

/-!
# Reading a unit item by item

A pass of the loop over a unit reads one item: the encoding of an entry or a null entry.  What a
pass does to the tree depends on the item and its offset alone, so a unit can be read exactly when
its bytes are a run of items that the tree absorbs.
-/

namespace Dwarf

open Decoder

variable {table : AbbreviationTable} {encoding : Encoding}

/-! ## Attributes -/

theorem EncodesAttributes.recognizes {specs : List AttributeSpec} {bytes : List UInt8}
    {attributes : List Attribute} (encodes : EncodesAttributes encoding specs bytes attributes)
    (offset : Nat) :
    Recognizes (specs.mapM (Attribute.decode offset encoding.version)) encoding bytes
      attributes := by
  induction encodes with
  | none =>
      rw [List.mapM_nil]
      exact Recognizes.pure _
  | @more spec specs field rest found attributes read others ih =>
      have here : (Attribute.decode offset encoding.version spec).Recognizes encoding field found :=
        (read.recognizes (Attribute.local_decode ..)).follow (Attribute.decode_follows ..)
      have there : (Decoder.bind (specs.mapM (Attribute.decode offset encoding.version))
          fun others => Decoder.pure (found :: others)).Recognizes encoding (rest ++ [])
            (found :: attributes) := ih.bind (Recognizes.pure _)
      rw [List.append_nil] at there
      rw [List.mapM_cons]
      exact here.bind there

/-- Attributes that can be read have been encoded. -/
theorem encodesAttributes_of_read {specs : List AttributeSpec} {offset : Nat} {cursor : Cursor}
    {attributes : List Attribute} (under : cursor.Under encoding)
    (read : (specs.mapM (Attribute.decode offset encoding.version) cursor).result =
      .ok attributes) :
    ∃ bytes after, cursor.rest = bytes ++ after ∧
      EncodesAttributes encoding specs bytes attributes := by
  induction specs generalizing cursor attributes with
  | nil =>
      rw [List.mapM_nil] at read
      cases read
      exact ⟨[], _, rfl, .none⟩
  | cons spec specs ih =>
      rw [List.mapM_cons] at read
      obtain ⟨found, first_read, later_read⟩ := bind_result_eq_ok.mp read
      obtain ⟨others, rest_read, same⟩ := bind_result_eq_ok.mp later_read
      cases same
      obtain ⟨field, after, split, recognizes⟩ :=
        Attribute.local_decode offset encoding.version spec under first_read
      obtain ⟨fits, _, next⟩ := recognizes under split
      rw [next] at rest_read
      obtain ⟨bytes, behind, more, encodes⟩ := ih (under.forward fits) rest_read
      rw [Cursor.forward_rest split fits] at more
      refine ⟨field ++ bytes, behind, ?_, .more ?_ encodes⟩
      · rw [split, more, List.append_assoc]
      · exact (recognizes.follow (Attribute.decode_follows ..)).consumes

/-! ## Items -/

namespace EncodedItem

theorem IsEncoding.code {item : EncodedItem} (encodes : item.IsEncoding table encoding) :
    ∃ code value rest, item.bytes = code ++ rest ∧
      unsigned.read.Recognizes encoding code value := by
  cases item with
  | node entry =>
      obtain ⟨code, rest, split, read, _⟩ := encodes.stored
      exact ⟨code, _, rest, split, read.recognizes local_unsigned⟩
  | null bytes => exact ⟨bytes, 0, [], (List.append_nil _).symm, encodes.recognizes local_unsigned⟩

theorem IsEncoding.bytes_ne_nil {item : EncodedItem} (encodes : item.IsEncoding table encoding) :
    item.bytes ≠ [] := by
  obtain ⟨code, value, rest, split, recognizes⟩ := encodes.code
  obtain ⟨fits, read, next⟩ := recognizes (Cursor.under_cursor encoding code 0)
    (List.append_nil code).symm
  have advanced := unsigned.advances _ _ read
  rw [next] at advanced
  intro empty
  rw [split, List.append_eq_nil_iff] at empty
  obtain ⟨rfl, _⟩ := empty
  exact Nat.lt_irrefl _ advanced

/-- What follows the code decides between items that begin alike. -/
theorem unique {first second : EncodedItem} {after behind : List UInt8}
    (left : first.IsEncoding table encoding) (right : second.IsEncoding table encoding)
    (same : first.bytes ++ after = second.bytes ++ behind) : first = second ∧ after = behind := by
  cases first with
  | null bytes =>
      have left_null := left.recognizes local_unsigned
      cases second with
      | null other =>
          obtain ⟨bytes_eq, _, rest⟩ := left_null.unique (right.recognizes local_unsigned) same
          exact ⟨congrArg null bytes_eq, rest⟩
      | node entry =>
          obtain ⟨code, rest, split, read, _⟩ := right.stored
          change bytes ++ after = entry.bytes ++ behind at same
          rw [split, List.append_assoc] at same
          have codes := (left_null.unique (read.recognizes local_unsigned) same).2.1
          exact absurd codes.symm right.code_ne_zero
  | node entry =>
      obtain ⟨code, rest, split, read, attributes⟩ := left.stored
      have left_code := read.recognizes local_unsigned
      change entry.bytes ++ after = second.bytes ++ behind at same
      rw [split, List.append_assoc] at same
      cases second with
      | null other =>
          have codes := (left_code.unique (right.recognizes local_unsigned) same).2.1
          exact absurd codes left.code_ne_zero
      | node other =>
          obtain ⟨other_code, other_rest, other_split, other_read, other_attributes⟩ :=
            right.stored
          change _ = other.bytes ++ behind at same
          rw [other_split, List.append_assoc] at same
          obtain ⟨code_eq, value_eq, rest_eq⟩ :=
            left_code.unique (other_read.recognizes local_unsigned) same
          have layout_eq : entry.layout = other.layout := by
            have declared := left.declared
            rw [value_eq, right.declared] at declared
            exact (Option.some.inj declared).symm
          rw [layout_eq] at attributes
          obtain ⟨fields_eq, attributes_eq, after_eq⟩ :=
            (attributes.recognizes 0).unique (other_attributes.recognizes 0) rest_eq
          refine ⟨congrArg node ?_, after_eq⟩
          cases entry
          cases other
          simp_all

end EncodedItem

/-! ## The tree absorbs items -/

namespace EntryTree

/-- What an item at an offset does to the tree of a unit. -/
def absorb (unit offset : Nat) (tree : EntryTree) : EncodedItem → Except Error EntryTree
  | .node entry =>
      if tree.isComplete then .error (.unbalancedTree unit offset)
      else .ok (tree.add offset entry.layout entry.attributes)
  | .null _ => tree.close unit offset

/-- Absorb items that are stored from an offset on. -/
def absorbAll (unit : Nat) : Nat → EntryTree → List EncodedItem → Except Error EntryTree
  | _, tree, [] => .ok tree
  | offset, tree, item :: items => do
      let next ← tree.absorb unit offset item
      absorbAll unit (offset + item.bytes.length) next items

theorem absorbAll_cons {unit offset : Nat} {tree last : EntryTree} {item : EncodedItem}
    {items : List EncodedItem} :
    absorbAll unit offset tree (item :: items) = .ok last ↔
      ∃ next, tree.absorb unit offset item = .ok next ∧
        absorbAll unit (offset + item.bytes.length) next items = .ok last := by
  rw [absorbAll]
  exact bind_eq_ok_iff

/-- What a pass does after the code of an item at a known offset. -/
def afterCode (unit : Nat) (version : UInt16) (table : AbbreviationTable) (tree : EntryTree)
    (offset : Nat) (code : UInt64) : Decoder EntryTree := do
  if code = 0 then Decoder.ofExcept (tree.close unit offset)
  else if tree.isComplete then throw (.unbalancedTree unit offset)
  else
    let some layout := table.get? code
      | throw (.unknownAbbreviationCode unit offset code)
    let attributes ← layout.attributes.mapM (Attribute.decode offset version)
    return tree.add offset layout attributes

theorem extend_read (unit : Nat) (version : UInt16) (table : AbbreviationTable) (tree : EntryTree)
    (cursor : Cursor) :
    (extend unit version table tree).read cursor =
      Decoder.bind unsigned.read (afterCode unit version table tree cursor.offset) cursor := rfl

theorem afterCode_zero (unit : Nat) (version : UInt16) (table : AbbreviationTable)
    (tree : EntryTree) (offset : Nat) :
    afterCode unit version table tree offset 0 = Decoder.ofExcept (tree.close unit offset) := by
  rw [afterCode, if_pos rfl]

theorem afterCode_declared {unit offset : Nat} {version : UInt16} {tree : EntryTree}
    {code : UInt64} {layout : Abbreviation} (code_ne_zero : code ≠ 0)
    (incomplete : tree.isComplete = false) (declared : table.get? code = some layout) :
    afterCode unit version table tree offset code =
      Decoder.bind (layout.attributes.mapM (Attribute.decode offset version)) fun attributes =>
        Decoder.pure (tree.add offset layout attributes) := by
  rw [afterCode, if_neg code_ne_zero, if_neg (by simp [incomplete]), declared]
  rfl

/-- An item that the tree absorbs is recognized as such. -/
theorem afterCode_recognizes {unit offset : Nat} {tree next : EntryTree} {item : EncodedItem}
    (encodes : item.IsEncoding table encoding)
    (absorbed : tree.absorb unit offset item = .ok next) :
    (Decoder.bind unsigned.read (afterCode unit encoding.version table tree offset)).Recognizes
      encoding item.bytes next := by
  cases item with
  | null bytes =>
      have read : unsigned.read.Recognizes encoding bytes 0 := encodes.recognizes local_unsigned
      have closed : (afterCode unit encoding.version table tree offset 0).Recognizes encoding []
          next := by
        change tree.close unit offset = .ok next at absorbed
        rw [afterCode_zero, absorbed]
        exact Recognizes.pure next
      have both := read.bind closed
      rw [List.append_nil] at both
      exact both
  | node entry =>
      obtain ⟨code, rest, split, read, attributes⟩ := encodes.stored
      cases complete : tree.isComplete with
      | true =>
          rw [absorb, if_pos complete] at absorbed
          cases absorbed
      | false =>
          rw [absorb, if_neg (by simp [complete])] at absorbed
          cases absorbed
          have fields : (afterCode unit encoding.version table tree offset
              entry.layout.code).Recognizes encoding (rest ++ [])
                (tree.add offset entry.layout entry.attributes) := by
            rw [afterCode_declared encodes.code_ne_zero complete encodes.declared]
            exact (attributes.recognizes offset).bind (Recognizes.pure _)
          rw [List.append_nil] at fields
          change Recognizes _ encoding entry.bytes _
          rw [split]
          exact (read.recognizes local_unsigned).bind fields

/-- A pass that succeeds has read an item that the tree absorbs. -/
theorem absorb_of_extend {unit : Nat} {tree next : EntryTree} {cursor : Cursor}
    (under : cursor.Under encoding)
    (read : ((extend unit encoding.version table tree).read cursor).result = .ok next) :
    ∃ item after, item.IsEncoding table encoding ∧ cursor.rest = item.bytes ++ after ∧
      tree.absorb unit cursor.offset item = .ok next := by
  rw [extend_read] at read
  obtain ⟨value, code_read, later_read⟩ := bind_result_eq_ok.mp read
  obtain ⟨code, after, split, recognizes⟩ := local_unsigned under code_read
  obtain ⟨fits, _, next_eq⟩ := recognizes under split
  by_cases zero : value = 0
  · subst zero
    rw [afterCode_zero] at later_read
    exact ⟨.null code, after, recognizes.consumes, split, later_read⟩
  · cases complete : tree.isComplete with
    | true =>
        rw [afterCode, if_neg zero, if_pos complete] at later_read
        cases later_read
    | false =>
        cases declared : table.get? value with
        | none =>
            rw [afterCode, if_neg zero, if_neg (by simp [complete]), declared] at later_read
            cases later_read
        | some layout =>
            rw [afterCode_declared zero complete declared, next_eq] at later_read
            obtain ⟨attributes, attributes_read, same⟩ := bind_result_eq_ok.mp later_read
            cases same
            obtain ⟨fields, behind, more, encodes⟩ :=
              encodesAttributes_of_read (under.forward fits) attributes_read
            rw [Cursor.forward_rest split fits] at more
            have code_eq : layout.code = value := by
              simpa using List.find?_some declared
            refine ⟨.node ⟨code ++ fields, layout, attributes⟩, behind, ?_, ?_, ?_⟩
            · refine ⟨code_eq ▸ declared, code_eq ▸ zero, code, fields, rfl, ?_, encodes⟩
              exact code_eq ▸ recognizes.consumes
            · change cursor.rest = code ++ fields ++ behind
              rw [split, more, List.append_assoc]
            · rw [absorb, if_neg (by simp [complete])]

/-! ## The loop -/

/-- A window can be read to its end exactly when it is a run of items that the tree absorbs. -/
theorem passes_iff_absorbAll {unit : Nat} {tree last : EntryTree} {cursor : Cursor}
    (under : cursor.Under encoding) :
    Passes (extend unit encoding.version table) cursor tree last ↔
      ∃ items : List EncodedItem, (∀ item ∈ items, item.IsEncoding table encoding) ∧
        cursor.rest = items.flatMap EncodedItem.bytes ∧
          absorbAll unit cursor.offset tree items = .ok last := by
  constructor
  · intro passes
    induction passes with
    | done finished =>
        exact ⟨[], by simp, Cursor.atEnd_iff_rest.mp finished, rfl⟩
    | @more cursor tree middle last unfinished read rest ih =>
        obtain ⟨item, after, encodes, split, absorbed⟩ := absorb_of_extend under read
        obtain ⟨fits, _, next⟩ := afterCode_recognizes encodes absorbed under split
        rw [← extend_read] at next
        rw [next] at ih
        obtain ⟨items, encode, flat, absorb_rest⟩ := ih (under.forward fits)
        rw [Cursor.forward_rest split fits] at flat
        refine ⟨item :: items, ?_, ?_, ?_⟩
        · exact List.forall_mem_cons.mpr ⟨encodes, encode⟩
        · rw [List.flatMap_cons, split, flat]
        · rw [absorbAll_cons]
          refine ⟨middle, absorbed, ?_⟩
          rw [Cursor.offset, Nat.add_assoc]
          exact absorb_rest
  · rintro ⟨items, encode, flat, absorbed⟩
    induction items generalizing cursor tree with
    | nil =>
        cases absorbed
        exact .done (Cursor.atEnd_iff_rest.mpr flat)
    | cons item items ih =>
        obtain ⟨encodes, encode_rest⟩ := List.forall_mem_cons.mp encode
        obtain ⟨middle, absorb_item, absorb_rest⟩ := absorbAll_cons.mp absorbed
        rw [List.flatMap_cons] at flat
        obtain ⟨fits, read, next⟩ := afterCode_recognizes encodes absorb_item under flat
        rw [← extend_read] at read next
        have unfinished : cursor.atEnd = false := by
          rw [← Bool.not_eq_true, Cursor.atEnd_iff_rest, flat, List.append_eq_nil_iff]
          exact fun empty => encodes.bytes_ne_nil empty.1
        refine .more unfinished read ?_
        rw [next]
        refine ih (under.forward fits) encode_rest (Cursor.forward_rest flat fits) ?_
        rw [Cursor.offset, Nat.add_assoc] at absorb_rest
        exact absorb_rest

end EntryTree

/-- Items can be told apart by their bytes. -/
theorem EncodedItem.eq_of_flatMap_bytes {first second : List EncodedItem}
    (left : ∀ item ∈ first, item.IsEncoding table encoding)
    (right : ∀ item ∈ second, item.IsEncoding table encoding)
    (same : first.flatMap bytes = second.flatMap bytes) : first = second := by
  induction first generalizing second with
  | nil =>
      cases second with
      | nil => rfl
      | cons other others =>
          have empty := (List.append_eq_nil_iff.mp same.symm).1
          exact absurd empty (right other List.mem_cons_self).bytes_ne_nil
  | cons item items ih =>
      cases second with
      | nil =>
          have empty := (List.append_eq_nil_iff.mp same).1
          exact absurd empty (left item List.mem_cons_self).bytes_ne_nil
      | cons other others =>
          rw [List.forall_mem_cons] at left right
          obtain ⟨item_eq, rest_eq⟩ := unique left.1 right.1 same
          rw [item_eq, ih left.2 right.2 rest_eq]

end Dwarf
