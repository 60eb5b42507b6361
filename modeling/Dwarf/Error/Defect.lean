import Dwarf.Text.Hex
import Dwarf.Text.Quoted

/-! # Defects

What can be wrong with an abbreviation table, a line program or call frame information, and how a
target can refuse an access. Each defect is a cause; its wording is given once, by `message`. -/

namespace Dwarf

/-- What is wrong with an abbreviation table. -/
inductive AbbreviationDefect where
  | offsetOutside
  | unterminated
  | wideTag (tag : UInt64)
  | childrenFlag (flag : UInt8)
  | unnamedAttribute
  | unknownForm
  | duplicateCode (code : UInt64)
  deriving DecidableEq, Repr

/-- The wording of an abbreviation defect. -/
def AbbreviationDefect.message : AbbreviationDefect → String
  | offsetOutside => "table offset is outside .debug_abbrev"
  | unterminated => "table ends before its terminator"
  | wideTag tag => s!"tag 0x{Hex.digits tag.toNat} does not fit in 16 bits"
  | childrenFlag flag => s!"invalid children flag {flag.toNat}"
  | unnamedAttribute => "attribute name 0 with a non-zero form"
  | unknownForm => "unknown attribute form"
  | duplicateCode code => s!"duplicate abbreviation code {code.toNat}"

/-- What is wrong with a line program. -/
inductive LineDefect where
  | offsetOutside
  | truncatedLength
  | unitPastSection
  | truncatedHeader
  | unsupportedVersion (version : UInt16)
  | headerPastUnit
  | noOperations
  | zeroLineRange
  | zeroOpcodeBase
  | operandPastProgram
  | extendedPastProgram
  | truncatedFile
  deriving DecidableEq, Repr

/-- The wording of a line program defect. -/
def LineDefect.message : LineDefect → String
  | offsetOutside => "offset is past the end of .debug_line"
  | truncatedLength => "truncated unit length"
  | unitPastSection => "unit length runs past the section"
  | truncatedHeader => "truncated header"
  | unsupportedVersion version => s!"unsupported version {version.toNat}"
  | headerPastUnit => "header length runs past the unit"
  | noOperations => "maximum_operations_per_instruction is 0"
  | zeroLineRange => "line_range is 0"
  | zeroOpcodeBase => "opcode_base is 0"
  | operandPastProgram => "opcode operand runs past the program"
  | extendedPastProgram => "extended opcode length runs past the program"
  | truncatedFile => "truncated DW_LNE_define_file"

/-- What is wrong with call frame information. -/
inductive FrameDefect where
  | headerPastSection
  | offsetOutside
  | entryPastSection
  | truncatedCie
  | unsupportedVersion (version : UInt8)
  | segmented
  | wideReturnRegister
  | unsupportedAugmentation (text : String)
  | truncatedFde
  | pointerPastEntry
  | pointerOmitted
  | indirectPointer
  | pointerFormat (encoding : UInt8)
  | pointerApplication (application : UInt8)
  | danglingCie (pointer : Nat)
  | instructionPastEntry
  | truncatedRegister
  | wideRegister (register : UInt64)
  | truncatedExpressionLength
  | expressionPastEntry
  | locationBackwards
  | nothingRemembered
  | registerWithoutCfa
  | offsetWithoutCfa
  | unknownInstruction (code : UInt8)
  | cfaNotAddress
  | registerNotValue
  deriving DecidableEq, Repr

/-- The wording of a call frame defect. -/
def FrameDefect.message : FrameDefect → String
  | headerPastSection => "entry header runs past the section"
  | offsetOutside => "offset is past the end of the section"
  | entryPastSection => "entry length runs past the section"
  | truncatedCie => "truncated CIE"
  | unsupportedVersion version => s!"unsupported CIE version {version.toNat}"
  | segmented => "segmented addressing is not supported"
  | wideReturnRegister => "return address register out of range"
  | unsupportedAugmentation text => "unsupported augmentation " ++ Quoted.quote text
  | truncatedFde => "truncated FDE"
  | pointerPastEntry => "pointer runs past the entry"
  | pointerOmitted => "pointer encoding is DW_EH_PE_omit"
  | indirectPointer => "indirect pointers are not supported"
  | pointerFormat encoding => s!"unknown pointer format 0x{Hex.byte encoding}"
  | pointerApplication application =>
    s!"unsupported pointer application 0x{Hex.byte application}"
  | danglingCie pointer => s!"CIE pointer 0x{Hex.digits pointer} is not a CIE"
  | instructionPastEntry => "call frame instruction runs past the entry"
  | truncatedRegister => "truncated register number"
  | wideRegister register => s!"register number {register.toNat} out of range"
  | truncatedExpressionLength => "truncated expression length"
  | expressionPastEntry => "expression runs past the entry"
  | locationBackwards => "DW_CFA_set_loc moves backwards"
  | nothingRemembered => "DW_CFA_restore_state without a remembered state"
  | registerWithoutCfa => "DW_CFA_def_cfa_register without a register CFA"
  | offsetWithoutCfa => "CFA offset changed without a register CFA"
  | unknownInstruction code => s!"unknown call frame instruction 0x{Hex.byte code}"
  | cfaNotAddress => "CFA expression did not produce an address"
  | registerNotValue => "register expression did not produce a value"

/-- How an access to a target fails. -/
inductive AccessFault where
  /-- There is no target to read a register from. -/
  | registerWithoutTarget (register : Nat)
  /-- There is no target to read memory from. -/
  | memoryWithoutTarget (address : UInt64)
  /-- A memory read for an expression ended early. -/
  | shortRead (address : UInt64) (wanted got : Nat)
  /-- A memory read for a saved register ended early. -/
  | shortSavedRegister (address : UInt64)
  /-- The target has no such register. -/
  | noRegister (register : Nat)
  /-- Nothing is mapped at the address. -/
  | unmapped (address : UInt64)
  deriving DecidableEq, Repr

/-- The wording of an access fault. -/
def AccessFault.message : AccessFault → String
  | registerWithoutTarget register =>
    s!"register {register} is not available without a target"
  | memoryWithoutTarget address =>
    s!"memory at 0x{Hex.digits address.toNat} is not available without a target"
  | shortRead address wanted got =>
    s!"short read at 0x{Hex.digits address.toNat}: wanted {wanted} bytes, got {got}"
  | shortSavedRegister address =>
    s!"short read of saved register at 0x{Hex.digits address.toNat}"
  | noRegister register => s!"no register {register}"
  | unmapped address => s!"unmapped 0x{Hex.digits address.toNat}"

end Dwarf
