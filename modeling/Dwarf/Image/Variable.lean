import Dwarf.Image.Frame
import Dwarf.LocationList

/-! # Variables of an image

An entry may leave out attributes and refer to another entry, its origin, which has them. The
location of a variable is given by an expression, or by a list of expressions for ranges of
addresses; the frame base and the canonical frame address are computed only if the expression
uses them. Expressions of entries and expressions of unwind rules have an evaluator each. -/

namespace Dwarf

namespace Image

/-- The number of entries that are asked for an attribute, origins included. -/
def maxOrigins : Nat := 8

/-- The entry that another one completes. -/
def origin? (image : Image) (ref : EntryRef) : Option EntryRef :=
  ((ref.reference? .abstractOrigin).or (ref.reference? .specification)).bind image.entry?

/-- The attribute of an entry, or of the nearest of `count - 1` origins that has it, with the entry
that has it. -/
def inheritedWithin? (image : Image) (name : AttributeName) :
    Nat → EntryRef → Option (EntryRef × AttributeValue)
  | 0, _ => none
  | count + 1, ref =>
    match ref.value? name with
    | some value => some (ref, value)
    | none => (image.origin? ref).bind (image.inheritedWithin? name count)

/-- The attribute of an entry or of its origins, with the entry that has it. -/
def inherited? (image : Image) (ref : EntryRef) (name : AttributeName) :
    Option (EntryRef × AttributeValue) :=
  image.inheritedWithin? name maxOrigins ref

/-- The name of the entry at an offset. A name for the linker stands in for a missing one. -/
def nameAt? (image : Image) (offset : Nat) : Option String :=
  (image.entry? offset).bind fun ref =>
    [AttributeName.name, .linkageName, .mipsLinkageName].findSome? fun name =>
      (image.inherited? ref name).bind fun (_, value) => value.string? image.sections

/-- The expression that an attribute of `holder` gives for an address. -/
def expressionAt (image : Image) (holder : EntryRef) (value : AttributeValue) (pc : UInt64) :
    Except Error (Option LocationExpression) :=
  match value with
  | .block bytes => do return some (← LocationExpression.decode bytes holder.unit.encoding)
  | .sectionOffset offset => do
    let list ← LocationList.decode (image.sections.data .loc) offset.toNat holder.unit.encoding
      holder.unit.baseAddress
    return list.find? pc
  | _ => return none

/-- The place of a value that is given as a constant. -/
def constantPlace (sections : Sections) (value : AttributeValue) : Place :=
  match value with
  | .unsigned number => .value number
  | .signed number => .value number.toUInt64
  | .block bytes => .bytes bytes
  | value =>
    match value.string? sections with
    | some text => .bytes text.toUTF8.toList
    | none => .unavailable

/-- The location of an entry that has no location attribute: its constant value, if any. -/
def constantLocation (image : Image) (ref : EntryRef) : Location :=
  match image.inherited? ref .constValue with
  | some (_, value) => .whole (constantPlace image.sections value)
  | none => .whole .unavailable

/-- The canonical frame address, if an expression uses it. -/
def cfaFor (image : Image) (expression : LocationExpression) (pc : UInt64)
    (rules : Evaluator := LocationExpression.evaluate) : Access (Option UInt64) :=
  if expression.usesCfa then image.cfaAt pc rules else return none

/-- The frame base that a location stands for. The frame base in a register is its content. -/
def baseOf : Location → Access (Option UInt64)
  | .whole (.address address) => return some address
  | .whole (.value value) => return some value
  | .whole (.register register) => return some (← Access.register register)
  | _ => return none

/-- The expression for the frame base of the subprogram around an entry, and the subprogram. -/
def frameBaseExpression (image : Image) (ref : EntryRef) (pc : UInt64) :
    Except Error (Option (EntryRef × LocationExpression)) :=
  match ref.around? fun outer => outer.tag == .subprogram with
  | none => return none
  | some subprogram =>
    match image.inherited? subprogram .frameBase with
    | none => return none
    | some (holder, value) => do
      return (← image.expressionAt holder value pc).map fun expression => (subprogram, expression)

/-- The frame base of the subprogram around an entry. -/
def frameBase (image : Image) (ref : EntryRef) (pc : UInt64)
    (evaluator rules : Evaluator := LocationExpression.evaluate) :
    Access (Option UInt64) := do
  match ← Access.ofExcept (image.frameBaseExpression ref pc) with
  | none => return none
  | some (subprogram, expression) =>
    let cfa ← image.cfaFor expression pc rules
    let evaluation := { cfa, entry := subprogram.offset, pc : Evaluation }
    baseOf (← evaluator expression (evaluation.withLimits image.settings))

/-- The location of the variable at an offset when the program is stopped at an address. A frame
base that is given takes the place of the one that the subprogram around the variable has. -/
def variableLocation (image : Image) (offset : Nat) (pc : UInt64) (given : Option UInt64)
    (evaluator rules : Evaluator := LocationExpression.evaluate) : Access Location := do
  let some ref := image.entry? offset
    | throw (.unknownEntry offset)
  let some (holder, value) := image.inherited? ref .location
    | return image.constantLocation ref
  let some expression ← Access.ofExcept (image.expressionAt holder value pc)
    | throw (.noLocationAtPc offset pc)
  let frameBase ←
    if given.isNone && expression.usesFrameBase then image.frameBase ref pc evaluator rules
    else pure given
  let cfa ← image.cfaFor expression pc rules
  let evaluation := { frameBase, cfa, entry := offset, pc : Evaluation }
  evaluator expression (evaluation.withLimits image.settings)

end Image

end Dwarf
