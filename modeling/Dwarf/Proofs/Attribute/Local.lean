import Dwarf.Attribute
import Dwarf.Proofs.Decoder.Local

/-!
# Attributes and the bytes they pass

Reading an attribute is local: forms are followed and values are read by primitive reads alone.
The offset of the entry is only named in errors, so it does not matter where an attribute is read
successfully.
-/

namespace Dwarf

open Decoder

namespace Form

theorem local_resolve (count : Nat) (form : Form) : (resolve count form).Local := by
  induction count generalizing form with
  | zero =>
      unfold resolve
      exact local_pure _
  | succ count ih =>
      unfold resolve
      split
      next other form same =>
        cases same
        exact local_unsigned.bind fun code => ih _
      next => exact local_pure _

theorem local_blockOf (length : Nat) : (blockOf length).Local :=
  (local_bytes length).map _

/-- Whatever the form, its values are read locally. -/
theorem local_value {form : Form} {version : UInt16} {reader : Decoder AttributeValue}
    (found : form.value? version = some reader) : reader.Local := by
  unfold value? at found
  split at found
  case h_1 => cases found; exact local_address.map _
  case h_2 => cases found; exact local_uint8.bind fun _ => local_blockOf _
  case h_3 => cases found; exact local_uint16.bind fun _ => local_blockOf _
  case h_4 => cases found; exact local_uint32.bind fun _ => local_blockOf _
  case h_5 | h_6 => cases found; exact local_unsigned.bind fun _ => local_blockOf _
  case h_7 | h_13 | h_17 => cases found; exact local_uint8.map _
  case h_8 | h_18 => cases found; exact local_uint16.map _
  case h_9 | h_19 => cases found; exact local_uint32.map _
  case h_10 | h_20 | h_23 => cases found; exact local_uint64.map _
  case h_11 => cases found; exact local_signed.map _
  case h_12 | h_21 => cases found; exact local_unsigned.map _
  case h_14 => cases found; exact local_pure _
  case h_15 => cases found; exact local_cstring.map _
  case h_16 | h_24 => cases found; exact local_sectionOffset.map _
  case h_22 =>
      split at found
      · cases found; exact local_address.map _
      · cases found; exact local_sectionOffset.map _
  case h_25 => cases found

end Form

namespace Attribute

theorem local_decode (entry : Nat) (version : UInt16) (spec : AttributeSpec) :
    (decode entry version spec).Local := by
  unfold decode
  refine (Form.local_resolve _ _).bind fun form => ?_
  cases found : form.value? version with
  | none => exact local_fail _
  | some reader =>
      refine (Form.local_value found).bind fun value => ?_
      split
      · exact local_pure _
      · exact local_fail _

theorem decode_follows (entry other : Nat) (version : UInt16) (spec : AttributeSpec) :
    (decode other version spec).Follows (decode entry version spec) := by
  unfold decode
  refine Follows.bind (Follows.refl _) fun form => ?_
  cases form.value? version with
  | none => exact Follows.fail _ _
  | some reader =>
      refine Follows.bind (Follows.refl _) fun value => ?_
      split
      · exact Follows.refl _
      · exact Follows.fail _ _

end Attribute

end Dwarf
