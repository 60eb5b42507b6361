import Mathlib.Data.List.Basic
import Dwarf.Proofs.Abbreviation.Stored

/-!
# Abbreviation tables and their encodings

A table is decoded exactly where a valid stored table begins.  So the shortest encoding of a table
is decoded as that table wherever it stands, and whatever is decoded was the shortest encoding of
its table if its integers were exact: without superfluous groups, and without bits above a word.
-/

namespace Dwarf

open Decoder

variable {encoding : Encoding}

/-- The bytes of a table, cut into its declarations and the zero code behind them. -/
structure StoredTable where
  declarations : List StoredDeclaration
  stop : StoredNumber

namespace StoredTable

def bytes (stored : StoredTable) : List UInt8 :=
  stored.declarations.flatMap StoredDeclaration.bytes ++ stored.stop.bytes

/-- All the integers of a table, in the order in which they are stored. -/
def numbers (stored : StoredTable) : List StoredNumber :=
  stored.declarations.flatMap StoredDeclaration.numbers ++ [stored.stop]

/-- The table that is declared. -/
def table (stored : StoredTable) : AbbreviationTable :=
  ⟨stored.declarations.map StoredDeclaration.abbreviation⟩

/-- The parts are in their ranges, and no code is declared twice. -/
structure Valid (stored : StoredTable) : Prop where
  declare : ∀ declaration ∈ stored.declarations, declaration.Declares
  distinct : (stored.declarations.map fun declaration => declaration.code.value).Nodup
  stop_eq_zero : stored.stop.value = 0

end StoredTable

namespace AbbreviationTable

/-! ## Decoding -/

/-- A declaration is added to those before it unless its code has been declared. -/
def addTo (found : List Abbreviation) (offset : Nat) (code : UInt64) (declaration : Abbreviation) :
    Decoder (Pass (List Abbreviation) AbbreviationTable) :=
  if found.any fun earlier => earlier.code == code then
    Decoder.fail (.malformedAbbreviation offset (.duplicateCode code))
  else Decoder.pure (.again (declaration :: found))

/-- What follows a code that is read at an offset behind some declarations. -/
def afterCode (found : List Abbreviation) (offset : Nat) (code : UInt64) :
    Decoder (Pass (List Abbreviation) AbbreviationTable) :=
  if code = 0 then Decoder.pure (.done ⟨found.reverse⟩)
  else Decoder.bind (Abbreviation.body offset code) (addTo found offset code)

/-- A pass at a known offset. -/
def extendAt (found : List Abbreviation) (offset : Nat) :
    Consuming (Pass (List Abbreviation) AbbreviationTable) :=
  Decoder.unsigned.bind (afterCode found offset)

theorem local_addTo (found : List Abbreviation) (offset : Nat) (code : UInt64)
    (declaration : Abbreviation) : (addTo found offset code declaration).Local := by
  unfold addTo
  split
  · exact local_fail _
  · exact local_pure _

theorem local_afterCode (found : List Abbreviation) (offset : Nat) (code : UInt64) :
    (afterCode found offset code).Local := by
  unfold afterCode
  split
  · exact local_pure _
  · exact (Abbreviation.local_body offset code).bind (local_addTo found offset code)

theorem extendAt_follows (found : List Abbreviation) (offset other : Nat) :
    (extendAt found other).read.Follows (extendAt found offset).read := by
  refine Follows.bind (Follows.refl _) fun code => ?_
  unfold afterCode
  split
  · exact Follows.refl _
  · refine Follows.bind (Abbreviation.body_follows offset other code) fun declaration => ?_
    unfold addTo
    split
    · exact Follows.fail _ _
    · exact Follows.refl _

theorem local_extendAt (found : List Abbreviation) (offset : Nat) :
    (extendAt found offset).read.Local :=
  local_unsigned.bind (local_afterCode found offset)

theorem local_extend (found : List Abbreviation) : (extend found).read.Local :=
  local_located (local_extendAt found) (extendAt_follows found)

/-- A declaration of a code that has not been declared yet is read as its abbreviation. -/
theorem recognizes_declaration {declaration : StoredDeclaration} {found : List Abbreviation}
    (declares : declaration.Declares)
    (fresh : ∀ earlier ∈ found, earlier.code ≠ declaration.code.value) :
    (extend found).read.Recognizes encoding declaration.bytes
      (.again (declaration.abbreviation :: found)) := by
  refine .located fun offset => declaration.code.recognized.bind ?_
  have unused : ¬(found.any fun earlier => earlier.code == declaration.code.value) = true := by
    simpa using fresh
  have added : (addTo found offset declaration.code.value declaration.abbreviation).Recognizes
      encoding [] (.again (declaration.abbreviation :: found)) := by
    rw [addTo, if_neg unused]
    exact Recognizes.pure _
  have both := (Abbreviation.recognizes_body declares offset).bind added
  rw [List.append_nil] at both
  change (afterCode found offset declaration.code.value).Recognizes encoding _ _
  rw [afterCode, if_neg declares.code_ne_zero]
  exact both

theorem recognizes_stop {stop : StoredNumber} {found : List Abbreviation}
    (zero : stop.value = 0) :
    (extend found).read.Recognizes encoding stop.bytes (.done ⟨found.reverse⟩) := by
  refine .located fun offset => ?_
  have ended : (afterCode found offset stop.value).Recognizes encoding []
      (.done ⟨found.reverse⟩) := by
    rw [afterCode, if_pos zero]
    exact Recognizes.pure _
  have both := (@StoredNumber.recognized encoding stop).bind ended
  rw [List.append_nil] at both
  exact both

/-- What a pass reads is the zero code or a declaration of a new code. -/
theorem pass_of_recognized {found : List Abbreviation} {bytes : List UInt8}
    {result : Pass (List Abbreviation) AbbreviationTable}
    (recognizes : (extend found).read.Recognizes encoding bytes result) :
    (∃ stop : StoredNumber, stop.value = 0 ∧ bytes = stop.bytes ∧
        result = .done ⟨found.reverse⟩) ∨
      ∃ declaration : StoredDeclaration, declaration.Declares ∧
        (∀ earlier ∈ found, earlier.code ≠ declaration.code.value) ∧
          bytes = declaration.bytes ∧ result = .again (declaration.abbreviation :: found) := by
  have here := recognizes.of_located (extendAt_follows found) 0
  obtain ⟨front, back, code, rfl, code_recognizes, later⟩ :=
    here.of_bind local_unsigned (local_afterCode found 0)
  obtain ⟨code, rfl, rfl⟩ := StoredNumber.exists_of_recognized code_recognizes
  rw [afterCode] at later
  split at later
  next zero =>
    obtain ⟨rfl, rfl⟩ := later.of_pure
    exact .inl ⟨code, zero, List.append_nil _, rfl⟩
  next code_ne_zero =>
    obtain ⟨body, none_left, abbreviation, rfl, body_recognizes, added⟩ :=
      later.of_bind (Abbreviation.local_body 0 code.value) (local_addTo found 0 code.value)
    obtain ⟨declaration, declares, bytes_eq, rfl, rfl⟩ :=
      Abbreviation.declaration_of_recognized code_ne_zero body_recognizes
    rw [addTo] at added
    split at added
    next => exact absurd added Recognizes.not_fail
    next unused =>
      obtain ⟨rfl, rfl⟩ := added.of_pure
      refine .inr ⟨declaration, declares, by simpa using unused, ?_, rfl⟩
      rw [List.append_nil, bytes_eq]

/-- The declarations of a table and its zero code are read in rounds. -/
theorem rounds_stored {declarations : List StoredDeclaration} {stop : StoredNumber}
    {found : List Abbreviation} (declare : ∀ declaration ∈ declarations, declaration.Declares)
    (distinct : (declarations.map fun declaration => declaration.code.value).Nodup)
    (fresh : ∀ declaration ∈ declarations, ∀ earlier ∈ found,
      earlier.code ≠ declaration.code.value)
    (zero : stop.value = 0) :
    Rounds extend encoding found
      (declarations.flatMap StoredDeclaration.bytes ++ stop.bytes)
      ⟨found.reverse ++ declarations.map StoredDeclaration.abbreviation⟩ := by
  induction declarations generalizing found with
  | nil =>
      rw [List.map_nil, List.append_nil]
      exact .done (recognizes_stop zero)
  | cons declaration declarations ih =>
      obtain ⟨first, others⟩ := List.forall_mem_cons.mp declare
      obtain ⟨fresh_first, fresh_others⟩ := List.forall_mem_cons.mp fresh
      obtain ⟨unlike, distinct_others⟩ := List.nodup_cons.mp distinct
      have still_fresh : ∀ other ∈ declarations,
          ∀ earlier ∈ declaration.abbreviation :: found, earlier.code ≠ other.code.value := by
        intro other member
        refine List.forall_mem_cons.mpr ⟨fun same => unlike ?_, fresh_others other member⟩
        exact List.mem_map.mpr ⟨other, member, same.symm⟩
      have rest := ih others distinct_others still_fresh
      rw [List.reverse_cons, List.append_assoc] at rest
      rw [List.flatMap_cons, List.append_assoc]
      exact .again (recognizes_declaration first fresh_first) rest

/-- Rounds that end in a table have read declarations of distinct codes and a zero code. -/
theorem stored_of_rounds {found : List Abbreviation} {bytes : List UInt8}
    {table : AbbreviationTable} (rounds : Rounds extend encoding found bytes table) :
    ∃ stored : StoredTable, stored.Valid ∧ stored.bytes = bytes ∧
      (∀ declaration ∈ stored.declarations, ∀ earlier ∈ found,
        earlier.code ≠ declaration.code.value) ∧
          table.declarations = found.reverse ++ stored.table.declarations := by
  induction rounds with
  | @done found bytes table last =>
      obtain ⟨stop, zero, rfl, same⟩ | ⟨_, _, _, _, absent⟩ := pass_of_recognized last
      · cases same
        refine ⟨⟨[], stop⟩, ⟨by simp, List.nodup_nil, zero⟩, rfl, by simp, ?_⟩
        exact (List.append_nil _).symm
      · cases absent
  | @again found middle front back table first _ ih =>
      obtain ⟨_, _, _, absent⟩ | ⟨declaration, declares, fresh, rfl, same⟩ :=
        pass_of_recognized first
      · cases absent
      · cases same
        obtain ⟨⟨declarations, stop⟩, valid, rfl, fresh_rest, split⟩ := ih
        refine ⟨⟨declaration :: declarations, stop⟩, ⟨?_, ?_, valid.stop_eq_zero⟩, ?_, ?_, ?_⟩
        · exact List.forall_mem_cons.mpr ⟨declares, valid.declare⟩
        · refine List.nodup_cons.mpr ⟨fun member => ?_, valid.distinct⟩
          obtain ⟨other, other_member, same⟩ := List.mem_map.mp member
          exact fresh_rest other other_member _ List.mem_cons_self same.symm
        · rw [StoredTable.bytes, List.flatMap_cons, List.append_assoc]
          rfl
        · refine List.forall_mem_cons.mpr ⟨fresh, fun other member => ?_⟩
          exact (List.forall_mem_cons.mp (fresh_rest other member)).2
        · rw [split, List.reverse_cons, List.append_assoc]
          rfl

theorem start_under (data : List UInt8) (offset : Nat) :
    (Cursor.start data offset .little).Under {} :=
  ⟨rfl, rfl, rfl⟩

/-- Decoding runs the loop at the offset and tells where it stopped. -/
theorem decode_eq_ok_iff_iterate {data : List UInt8} {offset count : Nat}
    {table : AbbreviationTable} (within : offset ≤ data.length) :
    decode data offset = .ok (table, count) ↔
      (iterate extend [] (.start (data.drop offset) offset .little)).result = .ok table ∧
        (iterate extend [] (.start (data.drop offset) offset .little)).next.position = count := by
  unfold decode
  rw [if_pos within]
  refine mapError_result_eq_ok.trans (bind_result_eq_ok.trans ⟨?_, ?_⟩)
  · rintro ⟨inner, read, same⟩
    cases same
    exact ⟨read, rfl⟩
  · rintro ⟨read, rfl⟩
    exact ⟨table, read, rfl⟩

/-- A table is decoded exactly where the bytes of a valid stored table begin. -/
theorem decode_eq_ok_iff {data : List UInt8} {offset count : Nat} {table : AbbreviationTable} :
    decode data offset = .ok (table, count) ↔
      offset ≤ data.length ∧ ∃ stored : StoredTable, stored.Valid ∧ stored.table = table ∧
        stored.bytes.length = count ∧ stored.bytes <+: data.drop offset := by
  by_cases within : offset ≤ data.length
  · have under := start_under (data.drop offset) offset
    rw [decode_eq_ok_iff_iterate within]
    constructor
    · rintro ⟨read, stopped⟩
      obtain ⟨bytes, after, rest, rounds⟩ := rounds_of_iterate local_extend under read
      obtain ⟨_, _, next⟩ := rounds.recognizes under rest
      obtain ⟨stored, valid, rfl, _, split⟩ := stored_of_rounds rounds
      refine ⟨within, stored, valid, ?_, ?_, after, rest.symm⟩
      · exact congrArg AbbreviationTable.mk split.symm
      · rw [← stopped, next]
        exact (Nat.zero_add _).symm
    · rintro ⟨_, stored, valid, rfl, rfl, after, split⟩
      have rounds : Rounds extend {} [] stored.bytes stored.table :=
        rounds_stored valid.declare valid.distinct (by simp) valid.stop_eq_zero
      obtain ⟨_, read, next⟩ := rounds.recognizes under split.symm
      refine ⟨read, ?_⟩
      rw [next]
      exact Nat.zero_add _
  · simp [decode, within]

/-- Where codes are distinct, each selects its own declaration. -/
theorem get?_eq_some_iff {table : AbbreviationTable}
    (distinct : (table.declarations.map Abbreviation.code).Nodup) {code : UInt64}
    {declaration : Abbreviation} :
    table.get? code = some declaration ↔
      declaration ∈ table.declarations ∧ declaration.code = code := by
  constructor
  · intro found
    exact ⟨List.mem_of_find?_eq_some found, by simpa using List.find?_some found⟩
  · rintro ⟨member, rfl⟩
    obtain ⟨declarations⟩ := table
    unfold get?
    induction declarations with
    | nil => cases member
    | cons first others ih =>
        obtain ⟨unlike, distinct_others⟩ := List.nodup_cons.mp distinct
        rcases List.mem_cons.mp member with rfl | later
        · exact List.find?_cons_of_pos (beq_self_eq_true _)
        · have differs : ¬(first.code == declaration.code) = true := by
            intro same
            refine unlike (List.mem_map.mpr ⟨declaration, later, ?_⟩)
            exact (beq_iff_eq.mp same).symm
          rw [List.find?_cons_of_neg (by exact differs)]
          exact ih distinct_others later

end AbbreviationTable

/-! ## Encoding -/

namespace AttributeSpec

/-- The two codes of an attribute in their shortest encodings. -/
def encode (spec : AttributeSpec) : List UInt8 :=
  Leb128.encode spec.name.code.toNat ++ Leb128.encode spec.form.code.toNat

/-- The pair that declares an attribute. -/
def stored (spec : AttributeSpec) : StoredPair :=
  ⟨.shortest spec.name.code.toUInt64, .shortest spec.form.code.toUInt64⟩

theorem spec_stored (spec : AttributeSpec) : spec.stored.spec = spec := by
  simp [stored, StoredPair.spec, StoredNumber.shortest]

theorem bytes_stored (spec : AttributeSpec) : spec.stored.bytes = spec.encode := by
  simp [stored, StoredPair.bytes, StoredNumber.shortest, encode]

theorem toUInt64_lt (code : UInt16) : code.toUInt64 < 0x10000 := by
  rw [UInt64.lt_iff_toNat_lt, UInt16.toNat_toUInt64]
  exact code.toNat_lt

theorem toUInt64_toUInt16 {value : UInt64} (narrow : value < 0x10000) :
    value.toUInt16.toUInt64 = value := by
  rw [UInt64.lt_iff_toNat_lt] at narrow
  rw [← UInt64.toNat_inj, UInt16.toNat_toUInt64, UInt64.toNat_toUInt16]
  exact Nat.mod_eq_of_lt narrow

theorem declares_stored {spec : AttributeSpec} (named : spec.name.code ≠ 0)
    (known : spec.form.isKnown = true) : spec.stored.Declares where
  name_ne_zero same := by
    have zero : spec.name.code.toUInt64 = 0 := same
    exact named (by simpa using congrArg UInt64.toUInt16 zero)
  name_lt := toUInt64_lt _
  form_lt := toUInt64_lt _
  form_known := by rw [spec_stored, known]

end AttributeSpec

namespace Abbreviation

/-- Code, tag, children flag and attributes of an abbreviation, with two zeros at the end. -/
def encode (abbreviation : Abbreviation) : List UInt8 :=
  Leb128.encode abbreviation.code.toNat ++ (Leb128.encode abbreviation.tag.code.toNat ++
    (StoredDeclaration.flag abbreviation.hasChildren ::
      (abbreviation.attributes.flatMap AttributeSpec.encode ++
        (Leb128.encode 0 ++ Leb128.encode 0))))

/-- The declaration of an abbreviation. -/
def stored (abbreviation : Abbreviation) : StoredDeclaration where
  code := .shortest abbreviation.code
  tag := .shortest abbreviation.tag.code.toUInt64
  hasChildren := abbreviation.hasChildren
  pairs := abbreviation.attributes.map AttributeSpec.stored
  stop := ⟨.shortest 0, .shortest 0⟩

theorem abbreviation_stored (abbreviation : Abbreviation) :
    abbreviation.stored.abbreviation = abbreviation := by
  have specs : abbreviation.stored.pairs.map StoredPair.spec = abbreviation.attributes := by
    simp [stored, Function.comp_def, AttributeSpec.spec_stored]
  rw [StoredDeclaration.abbreviation, specs]
  simp [stored, StoredNumber.shortest]

theorem bytes_stored (abbreviation : Abbreviation) :
    abbreviation.stored.bytes = abbreviation.encode := by
  have pairs : abbreviation.stored.pairs.flatMap StoredPair.bytes =
      abbreviation.attributes.flatMap AttributeSpec.encode := by
    simp [stored, List.flatMap_map, AttributeSpec.bytes_stored]
  rw [StoredDeclaration.bytes, StoredDeclaration.layoutBytes, pairs]
  simp [stored, StoredNumber.shortest, StoredPair.bytes, encode]

/-- An abbreviation that may be declared. -/
structure Declarable (abbreviation : Abbreviation) : Prop where
  code_ne_zero : abbreviation.code ≠ 0
  names_ne_zero : ∀ spec ∈ abbreviation.attributes, spec.name.code ≠ 0
  forms_known : ∀ spec ∈ abbreviation.attributes, spec.form.isKnown = true

theorem Declarable.stored {abbreviation : Abbreviation} (declarable : abbreviation.Declarable) :
    abbreviation.stored.Declares where
  code_ne_zero := declarable.code_ne_zero
  tag_lt := AttributeSpec.toUInt64_lt _
  pairs_declare pair member := by
    obtain ⟨spec, spec_member, rfl⟩ := List.mem_map.mp member
    exact AttributeSpec.declares_stored (declarable.names_ne_zero spec spec_member)
      (declarable.forms_known spec spec_member)
  stop_ends := ⟨rfl, rfl⟩

end Abbreviation

namespace AbbreviationTable

/-- The declarations of a table and the zero code behind them. -/
def encode (table : AbbreviationTable) : List UInt8 :=
  table.declarations.flatMap Abbreviation.encode ++ Leb128.encode 0

/-- A table that may be declared. -/
structure Declarable (table : AbbreviationTable) : Prop where
  each : ∀ abbreviation ∈ table.declarations, abbreviation.Declarable
  distinct : (table.declarations.map Abbreviation.code).Nodup

/-- The stored form of a table, with all integers as short as they can be. -/
def stored (table : AbbreviationTable) : StoredTable :=
  ⟨table.declarations.map Abbreviation.stored, .shortest 0⟩

theorem table_stored (table : AbbreviationTable) : table.stored.table = table := by
  simp [stored, StoredTable.table, Function.comp_def, Abbreviation.abbreviation_stored]

theorem bytes_stored (table : AbbreviationTable) : table.stored.bytes = table.encode := by
  simp [stored, StoredTable.bytes, encode, List.flatMap_map, Abbreviation.bytes_stored,
    StoredNumber.shortest]

theorem Declarable.stored {table : AbbreviationTable} (declarable : table.Declarable) :
    table.stored.Valid where
  declare declaration member := by
    obtain ⟨abbreviation, abbreviation_member, rfl⟩ := List.mem_map.mp member
    exact (declarable.each abbreviation abbreviation_member).stored
  distinct := by
    rw [AbbreviationTable.stored, List.map_map]
    exact declarable.distinct
  stop_eq_zero := rfl

end AbbreviationTable

/-! ## Exact integers -/

/-- The number takes up as few bytes as it can. -/
def StoredNumber.IsShortest (number : StoredNumber) : Prop :=
  number.bytes = Leb128.encode number.value.toNat

theorem AttributeSpec.toNat_toUInt16 {value : UInt64} (narrow : value < 0x10000) :
    value.toUInt16.toNat = value.toNat := by
  rw [← UInt16.toNat_toUInt64, toUInt64_toUInt16 narrow]

theorem StoredPair.encode_spec {pair : StoredPair} (declares : pair.Declares)
    (shortest : ∀ number ∈ pair.numbers, number.IsShortest) : pair.spec.encode = pair.bytes := by
  have name_bytes : pair.name.bytes = _ := shortest pair.name (by simp [numbers])
  have form_bytes : pair.form.bytes = _ := shortest pair.form (by simp [numbers])
  rw [bytes, name_bytes, form_bytes, AttributeSpec.encode]
  rw [spec, AttributeSpec.toNat_toUInt16 declares.name_lt,
    AttributeSpec.toNat_toUInt16 declares.form_lt]

theorem StoredPair.bytes_of_ends {pair : StoredPair} (ends : pair.Ends)
    (shortest : ∀ number ∈ pair.numbers, number.IsShortest) :
    pair.bytes = Leb128.encode 0 ++ Leb128.encode 0 := by
  have name_bytes : pair.name.bytes = _ := shortest pair.name (by simp [numbers])
  have form_bytes : pair.form.bytes = _ := shortest pair.form (by simp [numbers])
  rw [bytes, name_bytes, form_bytes, ends.name_eq_zero, ends.form_eq_zero]
  rfl

namespace StoredDeclaration

theorem declarable {declaration : StoredDeclaration} (declares : declaration.Declares) :
    declaration.abbreviation.Declarable where
  code_ne_zero := declares.code_ne_zero
  names_ne_zero spec member zero := by
    obtain ⟨pair, pair_member, rfl⟩ := List.mem_map.mp member
    have pair_declares := declares.pairs_declare pair pair_member
    have narrow := AttributeSpec.toUInt64_toUInt16 pair_declares.name_lt
    have zero_name : pair.name.value.toUInt16 = 0 := zero
    rw [zero_name] at narrow
    exact pair_declares.name_ne_zero narrow.symm
  forms_known spec member := by
    obtain ⟨pair, pair_member, rfl⟩ := List.mem_map.mp member
    exact (declares.pairs_declare pair pair_member).form_known

theorem encode_abbreviation {declaration : StoredDeclaration} (declares : declaration.Declares)
    (shortest : ∀ number ∈ declaration.numbers, number.IsShortest) :
    declaration.abbreviation.encode = declaration.bytes := by
  simp only [numbers, List.forall_mem_cons, List.forall_mem_append, List.mem_flatMap,
    forall_exists_index, and_imp] at shortest
  obtain ⟨code_bytes, tag_bytes, pairs_shortest, stop_shortest⟩ := shortest
  have pairs_bytes : (declaration.pairs.map StoredPair.spec).flatMap AttributeSpec.encode =
      declaration.pairs.flatMap StoredPair.bytes := by
    rw [List.flatMap_map]
    refine List.flatMap_congr fun pair member => ?_
    exact StoredPair.encode_spec (declares.pairs_declare pair member) fun number found =>
      pairs_shortest number pair member found
  rw [Abbreviation.encode, bytes, layoutBytes, abbreviation, pairs_bytes, code_bytes, tag_bytes,
    StoredPair.bytes_of_ends declares.stop_ends stop_shortest,
    AttributeSpec.toNat_toUInt16 declares.tag_lt]

end StoredDeclaration

namespace StoredTable

theorem Valid.declarable {stored : StoredTable} (valid : stored.Valid) :
    stored.table.Declarable where
  each abbreviation member := by
    obtain ⟨declaration, declaration_member, rfl⟩ := List.mem_map.mp member
    exact StoredDeclaration.declarable (valid.declare declaration declaration_member)
  distinct := by
    rw [table, List.map_map]
    exact valid.distinct

/-- A table whose integers are all as short as they can be is stored as it is encoded. -/
theorem Valid.encode_table {stored : StoredTable} (valid : stored.Valid)
    (shortest : ∀ number ∈ stored.numbers, number.IsShortest) :
    stored.table.encode = stored.bytes := by
  simp only [numbers, List.forall_mem_append, List.mem_flatMap, forall_exists_index, and_imp,
    List.mem_singleton, forall_eq] at shortest
  obtain ⟨declarations_shortest, stop_bytes⟩ := shortest
  have declarations_bytes :
      (stored.declarations.map StoredDeclaration.abbreviation).flatMap Abbreviation.encode =
        stored.declarations.flatMap StoredDeclaration.bytes := by
    rw [List.flatMap_map]
    refine List.flatMap_congr fun declaration member => ?_
    exact StoredDeclaration.encode_abbreviation (valid.declare declaration member)
      fun number found => declarations_shortest number declaration member found
  rw [AbbreviationTable.encode, table, bytes, declarations_bytes, stop_bytes, valid.stop_eq_zero]
  rfl

end StoredTable

namespace AbbreviationTable

/-- Where a table has been decoded, the bytes behind it do not matter and neither do those
before. -/
theorem decode_stored {stored : StoredTable} (valid : stored.Valid) (before after : List UInt8) :
    decode (before ++ (stored.bytes ++ after)) before.length =
      .ok (stored.table, stored.bytes.length) := by
  refine decode_eq_ok_iff.mpr ⟨by simp, stored, valid, rfl, rfl, ?_⟩
  rw [List.drop_left]
  exact List.prefix_append _ _

/-- Decoding and encoding undo each other.  A table that may be declared is decoded from its
encoding, wherever that stands, and each code selects its own declaration.  And whatever is
decoded may be declared; however its bytes are cut into integers, these declare that table, and
where all of them are exact, the bytes are its encoding. -/
theorem decode_encode_inverse (table : AbbreviationTable) :
    (table.Declarable → ∀ before after : List UInt8,
      decode (before ++ (table.encode ++ after)) before.length =
          .ok (table, table.encode.length) ∧
        ∀ code declaration, table.get? code = some declaration ↔
          declaration ∈ table.declarations ∧ declaration.code = code) ∧
      ∀ (data : List UInt8) (offset count : Nat), decode data offset = .ok (table, count) →
        table.Declarable ∧
          (∃ stored : StoredTable, stored.Valid ∧ stored.bytes = (data.drop offset).take count) ∧
          ∀ stored : StoredTable, stored.Valid →
            stored.bytes = (data.drop offset).take count →
              stored.table = table ∧
                ((∀ number ∈ stored.numbers, Leb128.IsMinimal number.bytes ∧
                    Leb128.groupsValue number.bytes < 2 ^ 64) →
                  table.encode = (data.drop offset).take count) := by
  refine ⟨fun declarable before after => ⟨?_, fun code declaration => ?_⟩, ?_⟩
  · have decoded := decode_stored declarable.stored before after
    rw [bytes_stored, table_stored] at decoded
    exact decoded
  · exact get?_eq_some_iff declarable.distinct
  · intro data offset count decoded
    obtain ⟨within, found, valid, rfl, rfl, is_front⟩ := decode_eq_ok_iff.mp decoded
    have passed := List.prefix_iff_eq_take.mp is_front
    refine ⟨valid.declarable, ⟨found, valid, passed⟩, fun stored stored_valid same => ?_⟩
    have here := decode_stored stored_valid [] []
    have there := decode_stored valid [] []
    rw [← passed] at same
    rw [same] at here
    have table_eq : stored.table = found.table :=
      congrArg Prod.fst (Except.ok.inj (here.symm.trans there))
    refine ⟨table_eq, fun exact_numbers => ?_⟩
    rw [← passed, ← same, ← table_eq]
    refine stored_valid.encode_table fun number member => ?_
    obtain ⟨minimal, fits⟩ := exact_numbers number member
    exact StoredNumber.bytes_eq_encode minimal fits

/-- Two declarations; the first has an attribute, the code of the second takes up two bytes. -/
def twoDeclarations : AbbreviationTable :=
  ⟨[⟨1, .compileUnit, true, [⟨.name, .string⟩]⟩, ⟨300, .unionType, false, []⟩]⟩

theorem twoDeclarations_restored :
    decode ([0xff] ++ (twoDeclarations.encode ++ [7])) 1 = .ok (twoDeclarations, 14) ∧
      (∃ declaration, twoDeclarations.get? 300 = some declaration ∧
        declaration.tag = .unionType) ∧
      twoDeclarations.encode = (([0xff] ++ (twoDeclarations.encode ++ [7])).drop 1).take 14 := by
  have declarable : twoDeclarations.Declarable := by
    refine ⟨?_, by decide⟩
    simp only [twoDeclarations, List.forall_mem_cons, List.not_mem_nil, false_imp_iff,
      implies_true, and_true]
    exact ⟨⟨by decide, by decide, by decide⟩, ⟨by decide, by decide, by decide⟩⟩
  have size : twoDeclarations.encode.length = 14 := by decide +kernel
  obtain ⟨decoded, selects⟩ := (decode_encode_inverse twoDeclarations).1 declarable [0xff] [7]
  rw [size] at decoded
  refine ⟨decoded, ⟨_, (selects 300 _).mpr ⟨List.mem_cons_of_mem _ List.mem_cons_self, rfl⟩, rfl⟩, ?_⟩
  obtain ⟨_, _, cut⟩ := (decode_encode_inverse twoDeclarations).2 _ _ _ decoded
  obtain ⟨_, encoded⟩ := cut twoDeclarations.stored declarable.stored (by decide +kernel)
  exact encoded (by decide +kernel)

/-- A declaration whose code has ten groups of ones, six bits more than a word. -/
def overfullCode : StoredTable where
  declarations := [{
    code := ⟨[0xff, 0xff, 0xff, 0xff, 0xff, 0xff, 0xff, 0xff, 0xff, 0x7f], 0xffffffffffffffff, rfl⟩
    tag := ⟨[0x11], 0x11, rfl⟩
    hasChildren := false
    pairs := []
    stop := ⟨⟨[0], 0, rfl⟩, ⟨[0], 0, rfl⟩⟩ }]
  stop := ⟨[0], 0, rfl⟩

/-- Without the bound, a table whose integers have no superfluous groups need not come back: the
group that straddles the end of a word loses its upper bits. -/
theorem overfullCode_not_restored :
    overfullCode.Valid ∧ (∀ number ∈ overfullCode.numbers, Leb128.IsMinimal number.bytes) ∧
      decode overfullCode.bytes 0 = .ok (overfullCode.table, 15) ∧
        overfullCode.table.encode ≠ overfullCode.bytes := by
  have valid : overfullCode.Valid := by
    refine ⟨?_, by decide, rfl⟩
    simp only [overfullCode, List.forall_mem_cons, List.not_mem_nil, false_imp_iff, implies_true,
      and_true]
    exact ⟨by decide, by decide, by simp, ⟨rfl, rfl⟩⟩
  refine ⟨valid, by decide, ?_, by decide +kernel⟩
  exact decode_stored valid [] []

end AbbreviationTable

end Dwarf
