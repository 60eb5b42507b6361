/-! # Attribute forms

The form of an attribute says how its value is laid out in the section. -/

namespace Dwarf

/-- The form of an attribute. Any 16-bit code may occur. -/
structure Form where
  code : UInt16
  deriving DecidableEq, Repr, Inhabited

namespace Form

@[match_pattern] def addr : Form := ⟨0x01⟩
@[match_pattern] def block2 : Form := ⟨0x03⟩
@[match_pattern] def block4 : Form := ⟨0x04⟩
@[match_pattern] def data2 : Form := ⟨0x05⟩
@[match_pattern] def data4 : Form := ⟨0x06⟩
@[match_pattern] def data8 : Form := ⟨0x07⟩
@[match_pattern] def string : Form := ⟨0x08⟩
@[match_pattern] def block : Form := ⟨0x09⟩
@[match_pattern] def block1 : Form := ⟨0x0a⟩
@[match_pattern] def data1 : Form := ⟨0x0b⟩
@[match_pattern] def flag : Form := ⟨0x0c⟩
@[match_pattern] def sdata : Form := ⟨0x0d⟩
@[match_pattern] def strp : Form := ⟨0x0e⟩
@[match_pattern] def udata : Form := ⟨0x0f⟩
@[match_pattern] def refAddr : Form := ⟨0x10⟩
@[match_pattern] def ref1 : Form := ⟨0x11⟩
@[match_pattern] def ref2 : Form := ⟨0x12⟩
@[match_pattern] def ref4 : Form := ⟨0x13⟩
@[match_pattern] def ref8 : Form := ⟨0x14⟩
@[match_pattern] def refUdata : Form := ⟨0x15⟩
@[match_pattern] def indirect : Form := ⟨0x16⟩
@[match_pattern] def secOffset : Form := ⟨0x17⟩
@[match_pattern] def exprloc : Form := ⟨0x18⟩
@[match_pattern] def flagPresent : Form := ⟨0x19⟩
@[match_pattern] def refSig8 : Form := ⟨0x20⟩

/-- The forms whose values can be read. -/
def readable : List Form :=
  [addr, block2, block4, data2, data4, data8, string, block, block1, data1, flag, sdata, strp,
   udata, refAddr, ref1, ref2, ref4, ref8, refUdata, indirect, secOffset, exprloc, flagPresent,
   refSig8]

/-- Codes with a name, in ascending order. -/
def names : List (UInt16 × String) :=
  [
    (0x00, "null"), (0x01, "addr"), (0x02, "ref"), (0x03, "block2"), (0x04, "block4"),
    (0x05, "data2"), (0x06, "data4"), (0x07, "data8"), (0x08, "string"), (0x09, "block"),
    (0x0a, "block1"), (0x0b, "data1"), (0x0c, "flag"), (0x0d, "sdata"), (0x0e, "strp"),
    (0x0f, "udata"), (0x10, "ref_addr"), (0x11, "ref1"), (0x12, "ref2"), (0x13, "ref4"),
    (0x14, "ref8"), (0x15, "ref_udata"), (0x16, "indirect"), (0x17, "sec_offset"),
    (0x18, "exprloc"), (0x19, "flag_present"), (0x1a, "strx"), (0x1b, "addrx"), (0x1c, "ref_sup4"),
    (0x1d, "strp_sup"), (0x1e, "data16"), (0x1f, "line_strp"), (0x20, "ref_sig8"),
    (0x21, "implicit_const"), (0x22, "loclistx"), (0x23, "rnglistx"), (0x24, "ref_sup8"),
    (0x25, "strx1"), (0x26, "strx2"), (0x27, "strx3"), (0x28, "strx4"), (0x29, "addrx1"),
    (0x2a, "addrx2"), (0x2b, "addrx3"), (0x2c, "addrx4"), (0x1f01, "GNU_addr_index"),
    (0x1f02, "GNU_str_index"), (0x1f20, "GNU_ref_alt"), (0x1f21, "GNU_strp_alt") ]

/-- The name of a form in messages. -/
def text (form : Form) : String :=
  match names.lookup form.code with
  | some name => "DW_FORM_" ++ name
  | none => "Unknown DwForm: " ++ toString form.code.toNat

/-- Whether values of this form can be read. Abbreviation tables may use no other form. -/
def isKnown (form : Form) : Bool :=
  form ∈ readable

end Form

end Dwarf
