import Dwarf.Frame.Table
import Dwarf.Proofs.Decoder.Window

/-!
# The layout of call frame sections

Descriptions of common entries and of functions are laid out one behind the other.  The places do not
depend on the kind of the section, since in both kinds an entry is a length of four bytes, a mark of
four bytes and the same contents; only the marks differ.
-/

namespace Dwarf

/-- The number of the return address register of a common entry, which is stored in a form that
depends on the version. -/
inductive ReturnRegister where
  /-- A byte, in version 1. -/
  | byte (number : UInt8)
  /-- A variable-length integer, in version 3. -/
  | leb128 (number : UInt16)
  deriving DecidableEq, Repr

namespace ReturnRegister

def version : ReturnRegister → UInt8
  | byte _ => 1
  | leb128 _ => 3

def number : ReturnRegister → Nat
  | byte number => number.toNat
  | leb128 number => number.toNat

def stored : ReturnRegister → List UInt8
  | byte number => [number]
  | leb128 number => Leb128.encode number.toNat

end ReturnRegister

/-- What a common entry without augmentation says. -/
structure CommonDescription where
  codeAlignment : UInt64
  dataAlignment : Int64
  returnRegister : ReturnRegister
  instructions : List UInt8
  deriving DecidableEq, Repr

namespace CommonDescription

/-- The fields before the instructions: the version, no augmentation, and the numbers. -/
def header (description : CommonDescription) : List UInt8 :=
  [description.returnRegister.version] ++ ([0] ++ (Leb128.encode description.codeAlignment.toNat ++
    (Leb128.encodeSigned description.dataAlignment.toInt ++ description.returnRegister.stored)))

def contents (description : CommonDescription) : List UInt8 :=
  description.header ++ description.instructions

/-- The common entry that is stored at an offset. -/
def entry (description : CommonDescription) (offset addressSize : Nat) : CommonEntry where
  offset
  version := description.returnRegister.version
  augmentation := ""
  addressSize
  codeAlignment := description.codeAlignment
  dataAlignment := description.dataAlignment
  returnRegister := description.returnRegister.number
  added := {}
  hasData := false
  instructions := description.instructions
  instructionsOffset := offset + 8 + description.header.length

end CommonDescription

/-- What the entry of a function says. -/
structure FunctionDescription where
  /-- The common entry, as its number among those that are stored before. -/
  common : Nat
  start : UInt64
  range : UInt64
  instructions : List UInt8
  deriving DecidableEq, Repr

namespace FunctionDescription

def contents (description : FunctionDescription) (order : ByteOrder) (addressSize : Nat) :
    List UInt8 :=
  order.digits addressSize description.start.toNat ++
    (order.digits addressSize description.range.toNat ++ description.instructions)

theorem contents_length (description : FunctionDescription) (order : ByteOrder)
    (addressSize : Nat) :
    (description.contents order addressSize).length =
      2 * addressSize + description.instructions.length := by
  simp only [contents, List.length_append, ByteOrder.digits_length]
  omega

/-- The function entry that is stored at an offset, with its common entry. -/
def entry (description : FunctionDescription) (offset : Nat) (common : CommonEntry) :
    FunctionEntry where
  offset
  common
  start := description.start
  range := description.range
  lsda := none
  instructions := description.instructions
  instructionsOffset := offset + 8 + 2 * common.addressSize

end FunctionDescription

/-- An entry of a call frame section. -/
inductive FrameDescription where
  | common (description : CommonDescription)
  | function (description : FunctionDescription)
  deriving DecidableEq, Repr

/-- An entry at its place, a function with its common entry. -/
inductive PlacedFrame where
  | common (offset : Nat) (description : CommonDescription)
  | function (offset : Nat) (common : CommonEntry) (description : FunctionDescription)

namespace PlacedFrame

/-- The function entry, if it is one. -/
def function? : PlacedFrame → Option FunctionEntry
  | .common _ _ => none
  | .function offset named description => some (description.entry offset named)

/-- The entry can be stored with a length of four bytes: the length is not the one that announces
longer lengths, addresses have their size, and the common entry can be named in both kinds of
sections. -/
def Storable (addressSize : Nat) : PlacedFrame → Prop
  | .common _ description => 4 + description.contents.length < 0xffffffff
  | .function offset named description =>
    4 + (2 * addressSize + description.instructions.length) < 0xffffffff ∧
      (description.start.toNat < 256 ^ addressSize ∧ description.range.toNat < 256 ^ addressSize) ∧
        named.offset < 0xffffffff ∧ offset + 4 - named.offset < 0x100000000

instance (addressSize : Nat) : DecidablePred (Storable addressSize)
  | .common _ _ => inferInstanceAs (Decidable (_ < _))
  | .function _ _ _ => inferInstanceAs (Decidable (_ ∧ _ ∧ _))

end PlacedFrame

namespace FrameDescription

/-- Every function names a common entry before it, where some number of them stands before all. -/
def CommonsPrecede : Nat → List FrameDescription → Prop
  | _, [] => True
  | count, .common _ :: rest => CommonsPrecede (count + 1) rest
  | count, .function description :: rest =>
    description.common < count ∧ CommonsPrecede count rest

instance decidableCommonsPrecede : (count : Nat) → (descriptions : List FrameDescription) →
    Decidable (CommonsPrecede count descriptions)
  | _, [] => .isTrue trivial
  | count, .common _ :: rest => decidableCommonsPrecede (count + 1) rest
  | count, .function description :: rest =>
    have := decidableCommonsPrecede count rest
    inferInstanceAs (Decidable (description.common < count ∧ _))

/-- Lay out entries from an offset on, behind some common entries. -/
def place (addressSize : Nat) : Nat → List CommonEntry → List FrameDescription → List PlacedFrame
  | _, _, [] => []
  | offset, known, .common description :: rest =>
    .common offset description ::
      place addressSize (offset + 8 + description.contents.length)
        (known ++ [description.entry offset addressSize]) rest
  | offset, known, .function description :: rest =>
    (known[description.common]?.map (.function offset · description)).toList ++
      place addressSize (offset + 8 + (2 * addressSize + description.instructions.length)) known rest

end FrameDescription

namespace FrameKind

/-- The mark of a common entry. -/
def commonMark : FrameKind → Nat
  | debug => 0xffffffff
  | exception => 0

/-- The mark of a function entry: the offset of its common entry, or the distance back to it from
the mark itself. -/
def functionMark (kind : FrameKind) (offset named : Nat) : Nat :=
  match kind with
  | debug => named
  | exception => offset + 4 - named

/-- What follows the last entry: in the loaded section a zero length. -/
def terminator : FrameKind → List UInt8
  | debug => []
  | exception => [0, 0, 0, 0]

end FrameKind

namespace FrameSection

/-- How the numbers of a section are stored, with lengths of four bytes. -/
def encoding (origin : FrameSection) : Encoding where
  addressSize := origin.addressSize
  order := origin.order

/-- An entry with a mark: its length, the mark and its contents. -/
def framed (origin : FrameSection) (mark : Nat) (contents : List UInt8) : List UInt8 :=
  origin.order.digits 4 (4 + contents.length) ++ (origin.order.digits 4 mark ++ contents)

theorem framed_length (origin : FrameSection) (mark : Nat) (contents : List UInt8) :
    (origin.framed mark contents).length = 8 + contents.length := by
  simp only [framed, List.length_append, ByteOrder.digits_length]
  omega

/-- The bytes of an entry in a section. -/
def stored (origin : FrameSection) : PlacedFrame → List UInt8
  | .common _ description => origin.framed origin.kind.commonMark description.contents
  | .function offset common description =>
    origin.framed (origin.kind.functionMark offset common.offset)
      (description.contents origin.order origin.addressSize)

/-- The bytes of a section with some entries. -/
def encode (origin : FrameSection) (descriptions : List FrameDescription) : List UInt8 :=
  (FrameDescription.place origin.addressSize 0 [] descriptions).flatMap origin.stored ++
    origin.kind.terminator

end FrameSection

end Dwarf
