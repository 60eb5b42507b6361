import Dwarf.Attribute
import Dwarf.Proofs.Decoder.Integer
import Dwarf.Proofs.Text.Utf8

/-!
# Forms and how they lay out values

There are more forms than ways to lay out a value: many forms differ in the width of a number or in
what the number stands for.  A layout says how the values of a form become bytes, and the decoder of
the form recognizes what its layout stores.
-/

namespace Dwarf

open Decoder

/-- How the values of a form are laid out. -/
inductive FormLayout where
  /-- A word of a fixed number of bytes, from which the value is made. -/
  | fixed (width : Nat) (make : UInt64 → AttributeValue)
  /-- An unsigned variable-length integer, from which the value is made. -/
  | unsigned (make : UInt64 → AttributeValue)
  /-- A signed variable-length integer. -/
  | signed
  /-- A byte string behind its length, which has a fixed number of bytes. -/
  | counted (width : Nat)
  /-- A byte string behind its length, which is a variable-length integer. -/
  | measured
  /-- A truth value of one byte. -/
  | flag
  /-- Nothing at all; that the attribute is there is its value. -/
  | present
  /-- A terminated string. -/
  | text

/-- The layout stores a value as a byte string. -/
inductive FormLayout.Stores (order : ByteOrder) :
    FormLayout → AttributeValue → List UInt8 → Prop where
  | fixed {width : Nat} {make : UInt64 → AttributeValue} (word : UInt64)
      (fits : word.toNat < 256 ^ width) :
      Stores order (.fixed width make) (make word) (order.digits width word.toNat)
  | unsigned {make : UInt64 → AttributeValue} (word : UInt64) :
      Stores order (.unsigned make) (make word) (Leb128.encode word.toNat)
  | signed (number : Int64) :
      Stores order .signed (.signed number) (Leb128.encodeSigned number.toInt)
  | counted {width : Nat} (bytes : List UInt8) (fits : bytes.length < 256 ^ width) :
      Stores order (.counted width) (.block bytes) (order.digits width bytes.length ++ bytes)
  | measured (bytes : List UInt8) (fits : bytes.length < 2 ^ 64) :
      Stores order .measured (.block bytes) (Leb128.encode bytes.length ++ bytes)
  | flag (value : Bool) : Stores order .flag (.flag value) [if value then 1 else 0]
  | present : Stores order .present (.flag true) []
  | text (value : String) (terminated : '\x00' ∉ value.toList) :
      Stores order .text (.string value) (Utf8.encode value ++ [0])

/-- The layout of a form in units of an encoding; `none` for an indirect form and for forms that are
not known.  In version 2 a reference to another unit has the size of an address. -/
def Form.layout? (encoding : Encoding) : Form → Option FormLayout
  | .addr => some (.fixed encoding.addressSize .address)
  | .block1 => some (.counted 1)
  | .block2 => some (.counted 2)
  | .block4 => some (.counted 4)
  | .block | .exprloc => some .measured
  | .data1 => some (.fixed 1 .unsigned)
  | .data2 => some (.fixed 2 .unsigned)
  | .data4 => some (.fixed 4 .unsigned)
  | .data8 => some (.fixed 8 .unsigned)
  | .sdata => some .signed
  | .udata => some (.unsigned .unsigned)
  | .flag => some .flag
  | .flagPresent => some .present
  | .string => some .text
  | .strp => some (.fixed encoding.offsetSize .stringOffset)
  | .ref1 => some (.fixed 1 .unitReference)
  | .ref2 => some (.fixed 2 .unitReference)
  | .ref4 => some (.fixed 4 .unitReference)
  | .ref8 => some (.fixed 8 .unitReference)
  | .refUdata => some (.unsigned .unitReference)
  | .refAddr =>
    some (.fixed (if encoding.version = 2 then encoding.addressSize else encoding.offsetSize)
      .infoReference)
  | .refSig8 => some (.fixed 8 .signature)
  | .secOffset => some (.fixed encoding.offsetSize .sectionOffset)
  | _ => none

variable {encoding : Encoding} {value : AttributeValue} {bytes : List UInt8}

/-! ## Recognized layouts -/

namespace Decoder

variable {α narrow : Type}

theorem recognizes_widened {decoder : Consuming narrow} {widen : narrow → UInt64} {word : UInt64}
    {bytes : List UInt8} (read : (decoder.map widen).read.Recognizes encoding bytes word)
    (f : UInt64 → α) :
    (Decoder.bind decoder.read fun number => Decoder.pure (f (widen number))).Recognizes encoding
      bytes (f word) := by
  have both := read.map f
  change (Decoder.bind (Decoder.bind decoder.read fun number => Decoder.pure (widen number))
    fun word => Decoder.pure (f word)).Recognizes encoding bytes (f word) at both
  rw [Decoder.bind_bind] at both
  exact both

theorem recognizes_cstring {text : List UInt8} (nonzero : ∀ byte ∈ text, byte ≠ 0) :
    cstring.read.Recognizes encoding (text ++ [0]) text := by
  intro cursor after _ rest
  have terminated : 0 ∈ cursor.rest := by simp [rest]
  have length : (cursor.rest.takeWhile (· != 0)).length + 1 = (text ++ [0]).length := by
    rw [rest, takeWhile_terminated after nonzero, List.length_append, List.length_singleton]
  refine ⟨Cursor.fits_of_rest rest, ?_, ?_⟩
  · simp only [cstring, terminated, dite_true]
    rw [rest, takeWhile_terminated after nonzero]
  · simp only [cstring, terminated, dite_true, length]

end Decoder

namespace Form

theorem recognizes_blockOf {number : Type} {decoder : Decoder number} {length : number}
    {front : List UInt8} (count : number → Nat)
    (read : decoder.Recognizes encoding front length) (same : count length = bytes.length) :
    (Decoder.bind decoder fun length => blockOf (count length)).Recognizes encoding
      (front ++ bytes) (.block bytes) := by
  refine read.bind ?_
  rw [same]
  exact (recognizes_bytes bytes).map _

theorem recognizes_flag (value : Bool) :
    (Decoder.bind uint8.read fun byte => Decoder.pure (.flag (byte != 0))).Recognizes encoding
      [if value then 1 else 0] (AttributeValue.flag value) := by
  cases value with
  | false => exact (recognizes_uint8 0).map _
  | true => exact (recognizes_uint8 1).map _

theorem recognizes_text {text : String} (terminated : '\x00' ∉ text.toList) :
    (Decoder.bind cstring.read fun stored => Decoder.pure (.string (Utf8.decode stored))).Recognizes
      encoding (Utf8.encode text ++ [0]) (AttributeValue.string text) := by
  have read := (@recognizes_cstring encoding _ (Utf8.zero_not_mem_encode terminated)).map
    fun stored => AttributeValue.string (Utf8.decode stored)
  rw [Utf8.decode_encode] at read
  exact read

/-- The decoder of a form recognizes what the layout of the form stores. -/
theorem recognizes_layout {form : Form} {layout : FormLayout}
    (addressSize : encoding.addressSize ∈ [1, 2, 4, 8]) (offsetSize : encoding.offsetSize ∈ [4, 8])
    (laid : form.layout? encoding = some layout) (stores : layout.Stores encoding.order value bytes) :
    ∃ reader, form.value? encoding.version = some reader ∧
      reader.Recognizes encoding bytes value := by
  have offset_width : encoding.offsetSize ∈ [1, 2, 4, 8] :=
    List.mem_cons_of_mem _ (List.mem_cons_of_mem _ offsetSize)
  unfold layout? at laid
  split at laid <;> cases laid <;> cases stores
  case h_1.refl.fixed word fits =>
      exact ⟨_, rfl, (recognizes_address addressSize fits).map _⟩
  case h_2.refl.counted bytes fits =>
      exact ⟨_, rfl, recognizes_blockOf UInt8.toNat (recognizes_digits (by decide) fits UInt8.ofNat)
        (UInt8.toNat_ofNat_of_lt fits)⟩
  case h_3.refl.counted bytes fits =>
      exact ⟨_, rfl, recognizes_blockOf UInt16.toNat
        (recognizes_digits (by decide) fits UInt16.ofNat) (UInt16.toNat_ofNat_of_lt fits)⟩
  case h_4.refl.counted bytes fits =>
      exact ⟨_, rfl, recognizes_blockOf UInt32.toNat
        (recognizes_digits (by decide) fits UInt32.ofNat) (UInt32.toNat_ofNat_of_lt fits)⟩
  case h_5.refl.measured bytes fits | h_6.refl.measured bytes fits =>
      have length : (UInt64.ofNat bytes.length).toNat = bytes.length :=
        UInt64.toNat_ofNat_of_lt fits
      rw [← length]
      exact ⟨_, rfl, recognizes_blockOf UInt64.toNat (recognizes_unsigned _) length⟩
  case h_7.refl.fixed word fits | h_8.refl.fixed word fits | h_9.refl.fixed word fits |
      h_17.refl.fixed word fits | h_18.refl.fixed word fits | h_19.refl.fixed word fits =>
      exact ⟨_, rfl, recognizes_widened (recognizes_sized (by decide) fits) _⟩
  case h_10.refl.fixed word fits | h_20.refl.fixed word fits | h_23.refl.fixed word fits =>
      exact ⟨_, rfl, (recognizes_uint64 word).map _⟩
  case h_11.refl.signed number =>
      exact ⟨_, rfl, (recognizes_signed number).map _⟩
  case h_12.refl.unsigned word | h_21.refl.unsigned word =>
      exact ⟨_, rfl, (recognizes_unsigned word).map _⟩
  case h_13.refl.flag value =>
      exact ⟨_, rfl, recognizes_flag value⟩
  case h_14.refl.present =>
      exact ⟨_, rfl, Recognizes.pure _⟩
  case h_15.refl.text text terminated =>
      exact ⟨_, rfl, recognizes_text terminated⟩
  case h_16.refl.fixed word fits | h_24.refl.fixed word fits =>
      exact ⟨_, rfl, (recognizes_sectionOffset offset_width fits).map _⟩
  case h_22.refl.fixed word fits =>
      by_cases second : encoding.version = 2
      · rw [if_pos second] at fits ⊢
        exact ⟨_, if_pos second, (recognizes_address addressSize fits).map _⟩
      · rw [if_neg second] at fits ⊢
        exact ⟨_, if_neg second, (recognizes_sectionOffset offset_width fits).map _⟩

/-! ## Known forms -/

/-- Every known form has a layout, unless it is indirect. -/
theorem exists_layout (encoding : Encoding) {form : Form} (known : form.isKnown = true)
    (direct : form ≠ .indirect) : ∃ layout, form.layout? encoding = some layout := by
  have listed : form ∈ readable.filter (· ≠ .indirect) :=
    List.mem_filter.mpr ⟨of_decide_eq_true known, decide_eq_true direct⟩
  have all : (readable.filter (· ≠ .indirect)).all
      (fun other => (other.layout? encoding).isSome) = true := rfl
  exact Option.isSome_iff_exists.mp (List.all_eq_true.mp all form listed)

theorem value?_of_unknown {form : Form} (unknown : form.isKnown = false) (version : UInt16) :
    form.value? version = none := by
  unfold value?
  split <;> first | rfl | exact absurd unknown (by decide)

end Form

end Dwarf
