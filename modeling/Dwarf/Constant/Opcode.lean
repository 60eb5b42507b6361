/-! # Expression opcodes

The first byte of a location operation. -/

namespace Dwarf

/-- The opcode of a location operation. Any byte may occur. -/
structure Opcode where
  code : UInt8
  deriving DecidableEq, Repr, Inhabited

namespace Opcode

@[match_pattern] def addr : Opcode := ⟨0x03⟩
@[match_pattern] def deref : Opcode := ⟨0x06⟩
@[match_pattern] def const1u : Opcode := ⟨0x08⟩
@[match_pattern] def const1s : Opcode := ⟨0x09⟩
@[match_pattern] def const2u : Opcode := ⟨0x0a⟩
@[match_pattern] def const2s : Opcode := ⟨0x0b⟩
@[match_pattern] def const4u : Opcode := ⟨0x0c⟩
@[match_pattern] def const4s : Opcode := ⟨0x0d⟩
@[match_pattern] def const8u : Opcode := ⟨0x0e⟩
@[match_pattern] def const8s : Opcode := ⟨0x0f⟩
@[match_pattern] def constu : Opcode := ⟨0x10⟩
@[match_pattern] def consts : Opcode := ⟨0x11⟩
@[match_pattern] def dup : Opcode := ⟨0x12⟩
@[match_pattern] def drop : Opcode := ⟨0x13⟩
/-- The opcode that copies the second value of the stack. -/
@[match_pattern] def dupSecond : Opcode := ⟨0x14⟩
@[match_pattern] def pick : Opcode := ⟨0x15⟩
@[match_pattern] def swap : Opcode := ⟨0x16⟩
@[match_pattern] def rot : Opcode := ⟨0x17⟩
@[match_pattern] def xderef : Opcode := ⟨0x18⟩
@[match_pattern] def abs : Opcode := ⟨0x19⟩
@[match_pattern] def and : Opcode := ⟨0x1a⟩
@[match_pattern] def div : Opcode := ⟨0x1b⟩
@[match_pattern] def minus : Opcode := ⟨0x1c⟩
@[match_pattern] def mod : Opcode := ⟨0x1d⟩
@[match_pattern] def mul : Opcode := ⟨0x1e⟩
@[match_pattern] def neg : Opcode := ⟨0x1f⟩
@[match_pattern] def not : Opcode := ⟨0x20⟩
@[match_pattern] def or : Opcode := ⟨0x21⟩
@[match_pattern] def plus : Opcode := ⟨0x22⟩
@[match_pattern] def plusUconst : Opcode := ⟨0x23⟩
@[match_pattern] def shl : Opcode := ⟨0x24⟩
@[match_pattern] def shr : Opcode := ⟨0x25⟩
@[match_pattern] def shra : Opcode := ⟨0x26⟩
@[match_pattern] def xor : Opcode := ⟨0x27⟩
@[match_pattern] def bra : Opcode := ⟨0x28⟩
@[match_pattern] def eq : Opcode := ⟨0x29⟩
@[match_pattern] def ge : Opcode := ⟨0x2a⟩
@[match_pattern] def gt : Opcode := ⟨0x2b⟩
@[match_pattern] def le : Opcode := ⟨0x2c⟩
@[match_pattern] def lt : Opcode := ⟨0x2d⟩
@[match_pattern] def ne : Opcode := ⟨0x2e⟩
@[match_pattern] def skip : Opcode := ⟨0x2f⟩
@[match_pattern] def regx : Opcode := ⟨0x90⟩
@[match_pattern] def fbreg : Opcode := ⟨0x91⟩
@[match_pattern] def bregx : Opcode := ⟨0x92⟩
@[match_pattern] def piece : Opcode := ⟨0x93⟩
@[match_pattern] def derefSize : Opcode := ⟨0x94⟩
@[match_pattern] def xderefSize : Opcode := ⟨0x95⟩
@[match_pattern] def nop : Opcode := ⟨0x96⟩
@[match_pattern] def pushObjectAddress : Opcode := ⟨0x97⟩
@[match_pattern] def call2 : Opcode := ⟨0x98⟩
@[match_pattern] def call4 : Opcode := ⟨0x99⟩
@[match_pattern] def callRef : Opcode := ⟨0x9a⟩
@[match_pattern] def formTlsAddress : Opcode := ⟨0x9b⟩
@[match_pattern] def callFrameCfa : Opcode := ⟨0x9c⟩
@[match_pattern] def bitPiece : Opcode := ⟨0x9d⟩
@[match_pattern] def implicitValue : Opcode := ⟨0x9e⟩
@[match_pattern] def stackValue : Opcode := ⟨0x9f⟩
@[match_pattern] def entryValue : Opcode := ⟨0xa3⟩
@[match_pattern] def gnuPushTlsAddress : Opcode := ⟨0xe0⟩
@[match_pattern] def gnuEntryValue : Opcode := ⟨0xf3⟩

/-- Codes with a name, in ascending order. -/
def names : List (UInt8 × String) :=
  [
    (0x03, "addr"), (0x06, "deref"), (0x08, "const1u"), (0x09, "const1s"), (0x0a, "const2u"),
    (0x0b, "const2s"), (0x0c, "const4u"), (0x0d, "const4s"), (0x0e, "const8u"), (0x0f, "const8s"),
    (0x10, "constu"), (0x11, "consts"), (0x12, "dup"), (0x13, "drop"), (0x14, "over"),
    (0x15, "pick"), (0x16, "swap"), (0x17, "rot"), (0x18, "xderef"), (0x19, "abs"), (0x1a, "and"),
    (0x1b, "div"), (0x1c, "minus"), (0x1d, "mod"), (0x1e, "mul"), (0x1f, "neg"), (0x20, "not"),
    (0x21, "or"), (0x22, "plus"), (0x23, "plus_uconst"), (0x24, "shl"), (0x25, "shr"),
    (0x26, "shra"), (0x27, "xor"), (0x28, "bra"), (0x29, "eq"), (0x2a, "ge"), (0x2b, "gt"),
    (0x2c, "le"), (0x2d, "lt"), (0x2e, "ne"), (0x2f, "skip"), (0x30, "lit0"), (0x31, "lit1"),
    (0x32, "lit2"), (0x33, "lit3"), (0x34, "lit4"), (0x35, "lit5"), (0x36, "lit6"), (0x37, "lit7"),
    (0x38, "lit8"), (0x39, "lit9"), (0x3a, "lit10"), (0x3b, "lit11"), (0x3c, "lit12"),
    (0x3d, "lit13"), (0x3e, "lit14"), (0x3f, "lit15"), (0x40, "lit16"), (0x41, "lit17"),
    (0x42, "lit18"), (0x43, "lit19"), (0x44, "lit20"), (0x45, "lit21"), (0x46, "lit22"),
    (0x47, "lit23"), (0x48, "lit24"), (0x49, "lit25"), (0x4a, "lit26"), (0x4b, "lit27"),
    (0x4c, "lit28"), (0x4d, "lit29"), (0x4e, "lit30"), (0x4f, "lit31"), (0x50, "reg0"),
    (0x51, "reg1"), (0x52, "reg2"), (0x53, "reg3"), (0x54, "reg4"), (0x55, "reg5"), (0x56, "reg6"),
    (0x57, "reg7"), (0x58, "reg8"), (0x59, "reg9"), (0x5a, "reg10"), (0x5b, "reg11"),
    (0x5c, "reg12"), (0x5d, "reg13"), (0x5e, "reg14"), (0x5f, "reg15"), (0x60, "reg16"),
    (0x61, "reg17"), (0x62, "reg18"), (0x63, "reg19"), (0x64, "reg20"), (0x65, "reg21"),
    (0x66, "reg22"), (0x67, "reg23"), (0x68, "reg24"), (0x69, "reg25"), (0x6a, "reg26"),
    (0x6b, "reg27"), (0x6c, "reg28"), (0x6d, "reg29"), (0x6e, "reg30"), (0x6f, "reg31"),
    (0x70, "breg0"), (0x71, "breg1"), (0x72, "breg2"), (0x73, "breg3"), (0x74, "breg4"),
    (0x75, "breg5"), (0x76, "breg6"), (0x77, "breg7"), (0x78, "breg8"), (0x79, "breg9"),
    (0x7a, "breg10"), (0x7b, "breg11"), (0x7c, "breg12"), (0x7d, "breg13"), (0x7e, "breg14"),
    (0x7f, "breg15"), (0x80, "breg16"), (0x81, "breg17"), (0x82, "breg18"), (0x83, "breg19"),
    (0x84, "breg20"), (0x85, "breg21"), (0x86, "breg22"), (0x87, "breg23"), (0x88, "breg24"),
    (0x89, "breg25"), (0x8a, "breg26"), (0x8b, "breg27"), (0x8c, "breg28"), (0x8d, "breg29"),
    (0x8e, "breg30"), (0x8f, "breg31"), (0x90, "regx"), (0x91, "fbreg"), (0x92, "bregx"),
    (0x93, "piece"), (0x94, "deref_size"), (0x95, "xderef_size"), (0x96, "nop"),
    (0x97, "push_object_address"), (0x98, "call2"), (0x99, "call4"), (0x9a, "call_ref"),
    (0x9b, "form_tls_address"), (0x9c, "call_frame_cfa"), (0x9d, "bit_piece"),
    (0x9e, "implicit_value"), (0x9f, "stack_value"), (0xa0, "implicit_pointer"), (0xa1, "addrx"),
    (0xa2, "constx"), (0xa3, "entry_value"), (0xa4, "const_type"), (0xa5, "regval_type"),
    (0xa6, "deref_type"), (0xa7, "xderef_type"), (0xa8, "convert"), (0xa9, "reinterpret"),
    (0xe0, "GNU_push_tls_address"), (0xed, "WASM_location"), (0xf2, "GNU_implicit_pointer"),
    (0xf3, "GNU_entry_value"), (0xf4, "GNU_const_type"), (0xf5, "GNU_regval_type"),
    (0xf6, "GNU_deref_type"), (0xf7, "GNU_convert"), (0xf9, "GNU_reinterpret"),
    (0xfa, "GNU_parameter_ref"), (0xfb, "GNU_addr_index"), (0xfc, "GNU_const_index") ]

/-- Whether some name is given to the code. -/
def isNamed (opcode : Opcode) : Bool :=
  (names.lookup opcode.code).isSome

/-- The name of an opcode in messages. -/
def text (opcode : Opcode) : String :=
  match names.lookup opcode.code with
  | some name => "DW_OP_" ++ name
  | none => "Unknown DwOp: " ++ toString opcode.code.toNat

end Opcode

end Dwarf
