import Dwarf.Abbreviation
import Dwarf.Proofs.Decoder.Integer

/-!
# Abbreviations as they are stored

The bytes of an abbreviation are variable-length integers and a children flag.  A stored
abbreviation keeps the bytes of each integer beside its value, so it says how the bytes are cut and
what they declare.  The decoders of pairs and declarations recognize the bytes of stored ones, and
nothing else.
-/

namespace Dwarf

open Decoder

variable {encoding : Encoding}

/-- A byte string that is read to its end as an unsigned number. -/
structure StoredNumber where
  bytes : List UInt8
  value : UInt64
  reads : Leb128.unsigned bytes = ⟨.ok value, bytes.length⟩

namespace StoredNumber

/-- A number in its shortest encoding. -/
def shortest (value : UInt64) : StoredNumber where
  bytes := Leb128.encode value.toNat
  value := value
  reads := by simpa using Leb128.unsigned_encode value []

theorem recognized (number : StoredNumber) :
    unsigned.read.Recognizes encoding number.bytes number.value :=
  recognizes_unsigned_iff.mpr number.reads

theorem exists_of_recognized {bytes : List UInt8} {value : UInt64}
    (recognizes : unsigned.read.Recognizes encoding bytes value) :
    ∃ number : StoredNumber, number.bytes = bytes ∧ number.value = value :=
  ⟨⟨bytes, value, recognizes_unsigned_iff.mp recognizes⟩, rfl, rfl⟩

/-- A number without superfluous groups whose groups denote a word is stored in its shortest
encoding.  Without the bound the value may lack the highest bits of the groups. -/
theorem bytes_eq_encode {number : StoredNumber} (minimal : Leb128.IsMinimal number.bytes)
    (fits : Leb128.groupsValue number.bytes < 2 ^ 64) :
    number.bytes = Leb128.encode number.value.toNat := by
  have terminated := Leb128.terminated_of_unsigned number.reads
  have scanned := Leb128.unsigned_of_fits terminated fits []
  rw [List.append_nil, number.reads] at scanned
  have value_eq : number.value = UInt64.ofNat (Leb128.groupsValue number.bytes) :=
    Except.ok.inj (congrArg Leb128.Scan.result scanned)
  rw [value_eq, UInt64.toNat_ofNat', Nat.mod_eq_of_lt fits]
  exact Leb128.eq_encode terminated minimal

end StoredNumber

/-! ## Pairs -/

/-- The two codes of a declared attribute, or the two zeros behind the last one. -/
structure StoredPair where
  name : StoredNumber
  form : StoredNumber

namespace StoredPair

def bytes (pair : StoredPair) : List UInt8 :=
  pair.name.bytes ++ pair.form.bytes

def numbers (pair : StoredPair) : List StoredNumber :=
  [pair.name, pair.form]

/-- The attribute that a pair declares. -/
def spec (pair : StoredPair) : AttributeSpec :=
  ⟨⟨pair.name.value.toUInt16⟩, ⟨pair.form.value.toUInt16⟩⟩

/-- The pair declares an attribute. -/
structure Declares (pair : StoredPair) : Prop where
  name_ne_zero : pair.name.value ≠ 0
  name_lt : pair.name.value < 0x10000
  form_lt : pair.form.value < 0x10000
  form_known : pair.spec.form.isKnown = true

/-- The pair ends a declaration. -/
structure Ends (pair : StoredPair) : Prop where
  name_eq_zero : pair.name.value = 0
  form_eq_zero : pair.form.value = 0

end StoredPair

namespace AttributeSpec

theorem ofCodes_eq_ok_iff {offset : Nat} {name form : UInt64} {spec : AttributeSpec} :
    ofCodes offset name form = .ok spec ↔
      (name ≠ 0 ∧ name < 0x10000 ∧ form < 0x10000 ∧ Form.isKnown ⟨form.toUInt16⟩ = true) ∧
        ⟨⟨name.toUInt16⟩, ⟨form.toUInt16⟩⟩ = spec := by
  unfold ofCodes
  by_cases unnamed : name = 0
  · simp [unnamed]
  · by_cases declared : form < 0x10000 ∧ name < 0x10000 ∧ Form.isKnown ⟨form.toUInt16⟩ = true
    · simp [unnamed, declared]
    · simp only [unnamed, if_false, declared, reduceCtorEq, ne_eq, not_false_eq_true, true_and,
        false_iff, not_and]
      intro known
      exact absurd ⟨known.2.1, known.1, known.2.2⟩ declared

/-- What follows the two codes of a pair at a known offset. -/
def afterCodes (offset : Nat) (name form : UInt64) : Decoder (Option AttributeSpec) :=
  if name = 0 ∧ form = 0 then Decoder.pure none
  else Decoder.bind (Decoder.ofExcept (ofCodes offset name form)) fun spec =>
    Decoder.pure (some spec)

/-- Reading a pair at a known offset. -/
def decodeAt (offset : Nat) : Consuming (Option AttributeSpec) :=
  Decoder.unsigned.bind fun name => Decoder.bind Decoder.unsigned.read (afterCodes offset name)

theorem local_afterCodes (offset : Nat) (name form : UInt64) :
    (afterCodes offset name form).Local := by
  unfold afterCodes
  split
  · exact local_pure none
  · exact (local_ofExcept _).bind fun spec => local_pure _

theorem local_decodeAt (offset : Nat) : (decodeAt offset).read.Local :=
  local_unsigned.bind fun name => local_unsigned.bind (local_afterCodes offset name)

theorem afterCodes_follows (offset other : Nat) (name form : UInt64) :
    (afterCodes other name form).Follows (afterCodes offset name form) := by
  unfold afterCodes
  split
  · exact Follows.refl _
  · refine Follows.bind (fun cursor spec read => ⟨?_, rfl⟩) fun spec => Follows.refl _
    exact ofCodes_eq_ok_iff.mpr (ofCodes_eq_ok_iff.mp read)

theorem decodeAt_follows (offset other : Nat) :
    (decodeAt other).read.Follows (decodeAt offset).read :=
  Follows.bind (Follows.refl _) fun name =>
    Follows.bind (Follows.refl _) (afterCodes_follows offset other name)

theorem local_decode : decode.read.Local :=
  local_located local_decodeAt decodeAt_follows

theorem recognizes_codes {pair : StoredPair} {result : Option AttributeSpec}
    (follows : ∀ offset, (afterCodes offset pair.name.value pair.form.value).Recognizes encoding []
      result) :
    decode.read.Recognizes encoding pair.bytes result := by
  refine .located fun offset => ?_
  have both : (decodeAt offset).read.Recognizes encoding
      (pair.name.bytes ++ (pair.form.bytes ++ [])) result :=
    pair.name.recognized.bind (pair.form.recognized.bind (follows offset))
  rw [List.append_nil] at both
  exact both

theorem recognizes_pair {pair : StoredPair} (declares : pair.Declares) :
    decode.read.Recognizes encoding pair.bytes (some pair.spec) := by
  refine recognizes_codes fun offset => ?_
  rw [afterCodes, if_neg fun zeros => declares.name_ne_zero zeros.1]
  refine Recognizes.map (.ofExcept (ofCodes_eq_ok_iff.mpr ⟨?_, rfl⟩)) some
  exact ⟨declares.name_ne_zero, declares.name_lt, declares.form_lt, declares.form_known⟩

theorem recognizes_end {pair : StoredPair} (ends : pair.Ends) :
    decode.read.Recognizes encoding pair.bytes none := by
  refine recognizes_codes fun offset => ?_
  rw [afterCodes, if_pos ⟨ends.name_eq_zero, ends.form_eq_zero⟩]
  exact Recognizes.pure none

/-- What is read as a pair is a pair that declares an attribute or ends a declaration. -/
theorem pair_of_recognized {bytes : List UInt8} {result : Option AttributeSpec}
    (recognizes : decode.read.Recognizes encoding bytes result) :
    ∃ pair : StoredPair, pair.bytes = bytes ∧
      (pair.Ends ∧ result = none ∨ pair.Declares ∧ result = some pair.spec) := by
  have here := recognizes.of_located decodeAt_follows 0
  obtain ⟨first, back, name, rfl, name_recognizes, later⟩ :=
    here.of_bind local_unsigned fun name => local_unsigned.bind (local_afterCodes 0 name)
  obtain ⟨second, none_left, form, rfl, form_recognizes, last⟩ :=
    later.of_bind local_unsigned (local_afterCodes 0 name)
  obtain ⟨stored_name, rfl, rfl⟩ := StoredNumber.exists_of_recognized name_recognizes
  obtain ⟨stored_form, rfl, rfl⟩ := StoredNumber.exists_of_recognized form_recognizes
  rw [afterCodes] at last
  split at last
  next zeros =>
    obtain ⟨rfl, rfl⟩ := last.of_pure
    rw [List.append_nil]
    exact ⟨⟨stored_name, stored_form⟩, rfl, .inl ⟨⟨zeros.1, zeros.2⟩, rfl⟩⟩
  next =>
    obtain ⟨spec, checked, rfl⟩ := last.of_map (local_ofExcept _)
    obtain ⟨rfl, accepted⟩ := checked.of_ofExcept
    obtain ⟨⟨name_ne_zero, name_lt, form_lt, form_known⟩, rfl⟩ := ofCodes_eq_ok_iff.mp accepted
    rw [List.append_nil]
    exact ⟨⟨stored_name, stored_form⟩, rfl,
      .inr ⟨⟨name_ne_zero, name_lt, form_lt, form_known⟩, rfl⟩⟩

theorem listed_pairs {pairs : List StoredPair} {stop : StoredPair}
    (declare : ∀ pair ∈ pairs, pair.Declares) (ends : stop.Ends) :
    Listed decode encoding (pairs.flatMap StoredPair.bytes ++ stop.bytes)
      (pairs.map StoredPair.spec) := by
  induction pairs with
  | nil => exact .stop (recognizes_end ends)
  | cons pair pairs ih =>
      obtain ⟨first, rest⟩ := List.forall_mem_cons.mp declare
      rw [List.flatMap_cons, List.append_assoc]
      exact .more (recognizes_pair first) (ih rest)

theorem pairs_of_listed {bytes : List UInt8} {specs : List AttributeSpec}
    (listed : Listed decode encoding bytes specs) :
    ∃ pairs : List StoredPair, ∃ stop : StoredPair,
      (∀ pair ∈ pairs, pair.Declares) ∧ stop.Ends ∧
        bytes = pairs.flatMap StoredPair.bytes ++ stop.bytes ∧
          specs = pairs.map StoredPair.spec := by
  induction listed with
  | stop last =>
      obtain ⟨pair, rfl, ⟨ends, _⟩ | ⟨_, present⟩⟩ := pair_of_recognized last
      · exact ⟨[], pair, by simp, ends, rfl, rfl⟩
      · cases present
  | @more front back spec specs first _ ih =>
      obtain ⟨pair, rfl, ⟨_, absent⟩ | ⟨declares, same⟩⟩ := pair_of_recognized first
      · cases absent
      · obtain ⟨pairs, stop, declare, ends, rfl, rfl⟩ := ih
        cases same
        refine ⟨pair :: pairs, stop, List.forall_mem_cons.mpr ⟨declares, declare⟩, ends, ?_, rfl⟩
        rw [List.flatMap_cons, List.append_assoc]

end AttributeSpec

/-! ## Declarations -/

/-- The bytes of one declaration, cut into its parts. -/
structure StoredDeclaration where
  code : StoredNumber
  tag : StoredNumber
  hasChildren : Bool
  pairs : List StoredPair
  stop : StoredPair

namespace StoredDeclaration

/-- The children flag as a byte. -/
def flag (hasChildren : Bool) : UInt8 :=
  if hasChildren then 1 else 0

/-- The bytes behind the tag. -/
def layoutBytes (declaration : StoredDeclaration) : List UInt8 :=
  flag declaration.hasChildren ::
    (declaration.pairs.flatMap StoredPair.bytes ++ declaration.stop.bytes)

def bytes (declaration : StoredDeclaration) : List UInt8 :=
  declaration.code.bytes ++ (declaration.tag.bytes ++ declaration.layoutBytes)

def numbers (declaration : StoredDeclaration) : List StoredNumber :=
  declaration.code :: declaration.tag ::
    (declaration.pairs.flatMap StoredPair.numbers ++ declaration.stop.numbers)

/-- The abbreviation that is declared. -/
def abbreviation (declaration : StoredDeclaration) : Abbreviation :=
  ⟨declaration.code.value, ⟨declaration.tag.value.toUInt16⟩, declaration.hasChildren,
    declaration.pairs.map StoredPair.spec⟩

/-- The parts are in their ranges. -/
structure Declares (declaration : StoredDeclaration) : Prop where
  code_ne_zero : declaration.code.value ≠ 0
  tag_lt : declaration.tag.value < 0x10000
  pairs_declare : ∀ pair ∈ declaration.pairs, pair.Declares
  stop_ends : declaration.stop.Ends

end StoredDeclaration

namespace Abbreviation

/-- What the children flag of the declaration at an offset says. -/
def flagMeaning (offset : Nat) : UInt8 → Decoder Bool
  | 0 => Decoder.pure false
  | 1 => Decoder.pure true
  | flag => Decoder.fail (.malformedAbbreviation offset (.childrenFlag flag))

theorem childrenFlag_eq (offset : Nat) :
    childrenFlag offset = Decoder.bind Decoder.uint8.read (flagMeaning offset) := rfl

theorem local_flagMeaning (offset : Nat) (flag : UInt8) : (flagMeaning offset flag).Local := by
  unfold flagMeaning
  split
  · exact local_pure false
  · exact local_pure true
  · exact local_fail _

theorem flagMeaning_follows (offset other : Nat) (flag : UInt8) :
    (flagMeaning other flag).Follows (flagMeaning offset flag) := by
  unfold flagMeaning
  split
  · exact Follows.refl _
  · exact Follows.refl _
  · exact Follows.fail _ _

theorem recognizes_flag (offset : Nat) (hasChildren : Bool) :
    (childrenFlag offset).Recognizes encoding [StoredDeclaration.flag hasChildren] hasChildren := by
  cases hasChildren with
  | false => exact (recognizes_uint8 0).bind (Recognizes.pure false)
  | true => exact (recognizes_uint8 1).bind (Recognizes.pure true)

theorem flag_of_recognized {offset : Nat} {bytes : List UInt8} {hasChildren : Bool}
    (recognizes : (childrenFlag offset).Recognizes encoding bytes hasChildren) :
    bytes = [StoredDeclaration.flag hasChildren] := by
  rw [childrenFlag_eq] at recognizes
  obtain ⟨front, back, flag, rfl, read, meaning⟩ :=
    recognizes.of_bind local_uint8 (local_flagMeaning offset)
  cases read.of_uint8
  unfold flagMeaning at meaning
  split at meaning
  · obtain ⟨rfl, rfl⟩ := meaning.of_pure
    rfl
  · obtain ⟨rfl, rfl⟩ := meaning.of_pure
    rfl
  · exact absurd meaning Recognizes.not_fail

/-- What follows the children flag of a declaration. -/
def afterFlag (code tag : UInt64) (hasChildren : Bool) : Decoder Abbreviation :=
  Decoder.bind (Decoder.untilNone AttributeSpec.decode) fun attributes =>
    Decoder.pure ⟨code, ⟨tag.toUInt16⟩, hasChildren, attributes⟩

/-- What follows the tag of the declaration at an offset. -/
def afterTag (offset : Nat) (code tag : UInt64) : Decoder Abbreviation :=
  if 0x10000 ≤ tag then Decoder.fail (.malformedAbbreviation offset (.wideTag tag))
  else Decoder.bind (childrenFlag offset) (afterFlag code tag)

theorem body_eq (offset : Nat) (code : UInt64) :
    body offset code = Decoder.bind Decoder.unsigned.read (afterTag offset code) := rfl

theorem local_childrenFlag (offset : Nat) : (childrenFlag offset).Local :=
  local_uint8.bind (local_flagMeaning offset)

theorem local_afterFlag (code tag : UInt64) (hasChildren : Bool) :
    (afterFlag code tag hasChildren).Local :=
  (local_untilNone AttributeSpec.local_decode).map _

theorem local_afterTag (offset : Nat) (code tag : UInt64) : (afterTag offset code tag).Local := by
  unfold afterTag
  split
  · exact local_fail _
  · exact (local_childrenFlag offset).bind (local_afterFlag code tag)

theorem local_body (offset : Nat) (code : UInt64) : (body offset code).Local :=
  local_unsigned.bind (local_afterTag offset code)

theorem body_follows (offset other : Nat) (code : UInt64) :
    (body other code).Follows (body offset code) := by
  refine Follows.bind (Follows.refl _) fun tag => ?_
  change (afterTag other code tag).Follows (afterTag offset code tag)
  unfold afterTag
  split
  · exact Follows.fail _ _
  · refine Follows.bind ?_ fun hasChildren => Follows.refl _
    exact Follows.bind (Follows.refl _) (flagMeaning_follows offset other)

theorem recognizes_body {declaration : StoredDeclaration} (declares : declaration.Declares)
    (offset : Nat) :
    (body offset declaration.code.value).Recognizes encoding
      (declaration.tag.bytes ++ declaration.layoutBytes) declaration.abbreviation := by
  refine declaration.tag.recognized.bind ?_
  change (afterTag offset _ declaration.tag.value).Recognizes encoding declaration.layoutBytes _
  rw [afterTag, if_neg (UInt64.not_le.mpr declares.tag_lt)]
  have listed :=
    @AttributeSpec.listed_pairs encoding _ _ declares.pairs_declare declares.stop_ends
  exact (recognizes_flag offset declaration.hasChildren).bind (listed.recognizes.map _)

theorem declaration_of_recognized {offset : Nat} {code : StoredNumber} {bytes : List UInt8}
    {abbreviation : Abbreviation} (code_ne_zero : code.value ≠ 0)
    (recognizes : (body offset code.value).Recognizes encoding bytes abbreviation) :
    ∃ declaration : StoredDeclaration, declaration.Declares ∧
      declaration.bytes = code.bytes ++ bytes ∧ declaration.abbreviation = abbreviation ∧
        declaration.code = code := by
  rw [body_eq] at recognizes
  obtain ⟨front, later, tag, rfl, tag_recognizes, rest⟩ :=
    recognizes.of_bind local_unsigned (local_afterTag offset code.value)
  obtain ⟨tag, rfl, rfl⟩ := StoredNumber.exists_of_recognized tag_recognizes
  rw [afterTag] at rest
  split at rest
  next => exact absurd rest Recognizes.not_fail
  next narrow =>
    obtain ⟨flag, layout, hasChildren, rfl, flag_recognizes, last⟩ :=
      rest.of_bind (local_childrenFlag offset) (local_afterFlag code.value tag.value)
    cases flag_of_recognized flag_recognizes
    obtain ⟨specs, specs_recognized, rfl⟩ :=
      last.of_map (local_untilNone AttributeSpec.local_decode)
    obtain ⟨pairs, stop, declare, ends, rfl, rfl⟩ :=
      AttributeSpec.pairs_of_listed (specs_recognized.listed AttributeSpec.local_decode)
    refine ⟨⟨code, tag, hasChildren, pairs, stop⟩, ?_, rfl, rfl, rfl⟩
    exact ⟨code_ne_zero, UInt64.not_le.mp narrow, declare, ends⟩

end Abbreviation

end Dwarf
