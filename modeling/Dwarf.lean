import Dwarf.Abbreviation
import Dwarf.Abbreviation.Cache
import Dwarf.AddressRange
import Dwarf.Attribute
import Dwarf.Attribute.Class
import Dwarf.Attribute.Value
import Dwarf.Bisection
import Dwarf.ByteOrder
import Dwarf.Constant.AttributeName
import Dwarf.Constant.Form
import Dwarf.Constant.Opcode
import Dwarf.Constant.Tag
import Dwarf.Cursor
import Dwarf.Decoder
import Dwarf.Decoder.Primitive
import Dwarf.Encoding
import Dwarf.Entry
import Dwarf.Error
import Dwarf.Error.Defect
import Dwarf.Expression
import Dwarf.Expression.Arithmetic
import Dwarf.Expression.Instruction
import Dwarf.Expression.Machine
import Dwarf.Expression.Operation
import Dwarf.Frame.Entry
import Dwarf.Frame.Instruction
import Dwarf.Frame.Machine
import Dwarf.Frame.Pointer
import Dwarf.Frame.Rule
import Dwarf.Frame.Section
import Dwarf.Frame.Table
import Dwarf.Frame.Unwind
import Dwarf.Image
import Dwarf.Image.Frame
import Dwarf.Image.Line
import Dwarf.Image.Subprogram
import Dwarf.Image.Variable
import Dwarf.Leb128
import Dwarf.Line.Header
import Dwarf.Line.Program
import Dwarf.Line.Row
import Dwarf.Line.Table
import Dwarf.Location
import Dwarf.LocationList
import Dwarf.Log
import Dwarf.ObjectFile
import Dwarf.ObjectFile.Elf
import Dwarf.ObjectFile.Elf.Layout
import Dwarf.ObjectFile.Elf.SectionHeader
import Dwarf.ObjectFile.MachO
import Dwarf.ObjectFile.Sections
import Dwarf.Proofs.Decoder.Session
import Dwarf.Proofs.Expression.AddressSpace
import Dwarf.Proofs.Expression.Refinement
import Dwarf.Proofs.Frame.Rows
import Dwarf.Proofs.Image.Limits
import Dwarf.Proofs.Line.Advance
import Dwarf.Proofs.TypeGraph.Equality
import Dwarf.Proofs.TypeGraph.Faithfulness
import Dwarf.Proofs.TypeGraph.Resolution
import Dwarf.Proofs.Unit.Trees
import Dwarf.SectionId
import Dwarf.Sections
import Dwarf.Settings
import Dwarf.Settings.Environment
import Dwarf.Target
import Dwarf.Target.Snapshot
import Dwarf.Text.Blank
import Dwarf.Text.Decimal
import Dwarf.Text.Hex
import Dwarf.Text.Path
import Dwarf.Text.Printable
import Dwarf.Text.Quoted
import Dwarf.Text.Utf8
import Dwarf.TypeGraph
import Dwarf.TypeGraph.Build
import Dwarf.TypeGraph.Display
import Dwarf.TypeGraph.Equality
import Dwarf.TypeGraph.Member
import Dwarf.TypeGraph.Node
import Dwarf.Unit
import Dwarf.Unit.Header
import Dwarf.Unit.Set
import Dwarf.Word
import Dwarf.Proofs.Unit.Links
import Dwarf.Proofs.Unit.Preorder
import Dwarf.Proofs.Decoder.Confined
import Dwarf.Proofs.Unit.Header
import Dwarf.Proofs.Unit.Scan
import Dwarf.Proofs.Image.Load
import Dwarf.Proofs.Unit.Index
import Dwarf.Proofs.Image.Index
import Dwarf.Proofs.Image.Accounting
import Dwarf.Proofs.Image.Isolation
import Dwarf.Proofs.Image.Unwinding
import Dwarf.Proofs.Leb128
import Dwarf.Proofs.Decoder.Composition
import Dwarf.Proofs.Abbreviation.RoundTrip
import Dwarf.Proofs.Decoder.Window
import Dwarf.Proofs.Line.Instruction
import Dwarf.Proofs.Line.RoundTrip
import Dwarf.Proofs.Line.Sequence
import Dwarf.Proofs.Line.SpecialOpcode
import Dwarf.Proofs.Line.Unit
import Dwarf.Proofs.Decoder.Integer
import Dwarf.Proofs.AddressList
import Dwarf.Proofs.AddressRange
import Dwarf.Proofs.Bisection
import Dwarf.Proofs.Expression.Reads
import Dwarf.Proofs.Image.FrameBase
import Dwarf.Proofs.Frame.Alternatives
import Dwarf.Proofs.Frame.Formats
import Dwarf.Proofs.Faults
import Dwarf.Proofs.TypeGraph.Rollback
import Dwarf.Proofs.TypeGraph.FailedRoot
import Dwarf.Proofs.TypeGraph.Nesting
import Dwarf.Proofs.TypeGraph.Typedefs
import Dwarf.Proofs.TypeGraph.ArraySize
import Dwarf.Proofs.TypeGraph.Underlying
import Dwarf.Proofs.TypeGraph.BitField
import Dwarf.Proofs.Unit.ShortUnits
import Dwarf.Proofs.Attribute.RoundTrip
import Dwarf.Proofs.Image.Line
import Dwarf.Proofs.Line.Statements
import Dwarf.Proofs.Line.Files
import Dwarf.Proofs.StableSort
import Dwarf.Proofs.Decoder.Continuation
import Dwarf.Proofs.Line.Concatenation
import Dwarf.Proofs.Line.WellFormed
import Dwarf.Proofs.Frame.Nesting
import Dwarf.Proofs.Frame.Accounting
import Dwarf.Proofs.Frame.Lookup
import Dwarf.Proofs.Frame.Course
import Dwarf.Proofs.Frame.Faults
import Dwarf.Proofs.Frame.Advance
import Dwarf.Proofs.Decoder.Correspondence
import Dwarf.Proofs.Frame.Relocation
import Dwarf.Proofs.Decoder.Budget
import Dwarf.Proofs.Frame.Budget
import Dwarf.Proofs.Decoder.AddressSize
import Dwarf.Proofs.Expression.Decoding
import Dwarf.Proofs.Frame.ExpressionRules
import Dwarf.Proofs.Expression.Narrowing
import Dwarf.Proofs.Expression.Effect
import Dwarf.Proofs.Expression.Limits
import Dwarf.Proofs.Decoder.Shift
import Dwarf.Proofs.Expression.Layout
import Dwarf.Proofs.Expression.Tiling
import Dwarf.Proofs.Expression.Inputs
import Dwarf.Proofs.Expression.Branches
import Dwarf.Proofs.Expression.Straight
import Dwarf.Proofs.Expression.Pieces
import Dwarf.Proofs.Expression.InPlace
import Dwarf.Proofs.Leb128.Groups
import Dwarf.Proofs.Leb128.Reading
import Dwarf.Proofs.Decoder.Leb128
import Dwarf.Proofs.Image.Subprogram
