import Dwarf.Constant.AttributeName
import Dwarf.Constant.Form
import Dwarf.Constant.Opcode
import Dwarf.Constant.Tag
import Dwarf.Error.Defect
import Dwarf.SectionId

/-! # Errors

Everything that can go wrong while debug information is decoded or queried. Offsets are absolute
offsets in the section that the error is about, except that offsets of operations count from the
start of their expression. -/

namespace Dwarf

/-- A failure of a decoder or a query. -/
inductive Error where
  /-- An abbreviation table cannot be decoded. -/
  | malformedAbbreviation (offset : Nat) (defect : AbbreviationDefect)
  /-- An entry uses a code that its abbreviation table does not define. -/
  | unknownAbbreviationCode (unit offset : Nat) (code : UInt64)
  /-- A unit header declares a version other than 2, 3 or 4. -/
  | unsupportedVersion (offset : Nat) (version : UInt16)
  /-- A unit ends inside an entry or with entries still open. -/
  | truncatedUnit (unit offset : Nat)
  /-- A null entry precedes the root, or an entry follows the closed root. -/
  | unbalancedTree (unit offset : Nat)
  /-- An attribute uses a form outside its classes. -/
  | illegalForm (offset : Nat) (name : AttributeName) (form : Form)
  /-- A reference names an offset at which no entry starts. -/
  | unresolvedTypeReference (source target : Nat)
  /-- The tag of an entry describes no type. -/
  | unsupportedTag (offset : Nat) (tag : Tag)
  /-- A chain of type references is too long. -/
  | typeNestingTooDeep (offset limit : Nat)
  /-- A byte of an expression is no opcode. -/
  | unknownOpcode (offset : Nat) (opcode : Opcode)
  /-- An operation is not implemented. -/
  | unsupportedOpcode (offset : Nat) (opcode : Opcode)
  /-- An operation needs more values than the stack holds. -/
  | stackUnderflow (offset : Nat) (opcode : Opcode)
  /-- The stack would grow beyond its limit. -/
  | stackOverflow (offset limit : Nat)
  /-- A division or remainder by zero. -/
  | divisionByZero (offset : Nat)
  /-- A branch leads to no operation. -/
  | invalidBranch (offset : Nat) (target : Int)
  /-- A location that only a piece may follow is followed by something else. -/
  | invalidTerminator (offset : Nat)
  /-- A program executes more operations than its budget. -/
  | budgetExceeded (budget : Nat)
  /-- A variable has no location at a program counter. -/
  | noLocationAtPc (entry : Nat) (pc : UInt64)
  /-- No entry starts at an offset. -/
  | unknownEntry (offset : Nat)
  /-- The frame base is needed and cannot be determined. -/
  | missingFrameBase (offset : Nat)
  /-- The canonical frame address is needed and not known. -/
  | missingCfa (pc : UInt64)
  /-- A line program cannot be decoded. -/
  | malformedLineProgram (offset : Nat) (defect : LineDefect)
  /-- Call frame information cannot be decoded or replayed. -/
  | malformedCallFrame (offset : Nat) (defect : FrameDefect)
  /-- A location list is not terminated or leaves its section. -/
  | malformedLocationList (offset : Nat)
  /-- A range list is not terminated or leaves its section. -/
  | malformedRangeList (offset : Nat)
  /-- A read leaves the bytes at hand. -/
  | unexpectedEnd (offset : Nat)
  /-- A required section is not registered. -/
  | missingSection (id : SectionId)
  /-- The target refuses a read. -/
  | targetAccess (fault : AccessFault)
  deriving DecidableEq, Repr

namespace Error

/-- The message of an error. -/
def message : Error → String
  | malformedAbbreviation offset defect =>
    s!"Malformed abbreviation at .debug_abbrev+0x{Hex.digits offset}: {defect.message}"
  | unknownAbbreviationCode unit offset code =>
    s!"Unit at 0x{Hex.digits unit}: abbreviation code {code.toNat} " ++
      s!"at 0x{Hex.digits offset} is not defined"
  | unsupportedVersion offset version =>
    s!"Unsupported DWARF version {version.toNat} at 0x{Hex.digits offset}"
  | truncatedUnit unit offset =>
    s!"Truncated unit at 0x{Hex.digits unit}: ran out of data at 0x{Hex.digits offset}"
  | unbalancedTree unit offset =>
    s!"Unbalanced DIE tree in unit at 0x{Hex.digits unit}: " ++
      s!"entry at 0x{Hex.digits offset} has no open parent"
  | illegalForm offset name form =>
    s!"Attribute {name.text} at 0x{Hex.digits offset} cannot use form {form.text}"
  | unresolvedTypeReference source target =>
    s!"DIE at 0x{Hex.digits source} references 0x{Hex.digits target}, which is not a DIE"
  | unsupportedTag offset tag =>
    s!"DIE at 0x{Hex.digits offset} with tag {tag.text} does not describe a type"
  | typeNestingTooDeep offset limit =>
    s!"Type at 0x{Hex.digits offset} nests more than {limit} types deep"
  | unknownOpcode offset opcode =>
    s!"Unknown opcode 0x{Hex.byte opcode.code} at expression offset {offset}"
  | unsupportedOpcode offset opcode =>
    s!"Unsupported opcode {opcode.text} at expression offset {offset}"
  | stackUnderflow offset opcode =>
    s!"Stack underflow executing {opcode.text} at expression offset {offset}"
  | stackOverflow offset limit =>
    s!"Stack overflow at expression offset {offset} (limit {limit})"
  | divisionByZero offset => s!"Division by zero at expression offset {offset}"
  | invalidBranch offset target =>
    s!"Branch at expression offset {offset} targets invalid offset {target}"
  | invalidTerminator offset =>
    s!"Location terminator at expression offset {offset} is not followed by a piece"
  | budgetExceeded budget => s!"Instruction budget of {budget} operations exceeded"
  | noLocationAtPc entry pc =>
    s!"DIE at 0x{Hex.digits entry} has no location at pc 0x{Hex.digits pc.toNat}"
  | unknownEntry offset => s!"No DIE at .debug_info+0x{Hex.digits offset}"
  | missingFrameBase offset => s!"No frame base available for DIE at 0x{Hex.digits offset}"
  | missingCfa pc =>
    s!"No canonical frame address available for pc 0x{Hex.digits pc.toNat}"
  | malformedLineProgram offset defect =>
    s!"Malformed line program at .debug_line+0x{Hex.digits offset}: {defect.message}"
  | malformedCallFrame offset defect =>
    s!"Malformed call frame information at 0x{Hex.digits offset}: {defect.message}"
  | malformedLocationList offset =>
    s!"Malformed location list at .debug_loc+0x{Hex.digits offset}"
  | malformedRangeList offset =>
    s!"Malformed range list at .debug_ranges+0x{Hex.digits offset}"
  | unexpectedEnd offset => s!"Unexpected end of data at 0x{Hex.digits offset}"
  | missingSection id => s!"Missing section {id.name}"
  | targetAccess fault => s!"Target access failed: {fault.message}"

/-- Whether the error makes a whole unit unreadable. -/
def isStructural : Error → Bool
  | malformedAbbreviation .. | unknownAbbreviationCode .. | unsupportedVersion ..
  | truncatedUnit .. | unbalancedTree .. | illegalForm .. => true
  | _ => false

end Error

end Dwarf
