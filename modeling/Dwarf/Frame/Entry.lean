import Dwarf.Frame.Pointer
import Dwarf.Text.Utf8

/-! # Entries of call frame information

A common entry holds what the functions of an object file share; a function entry covers the
addresses of one function and names its common entry. Both carry instructions. -/

namespace Dwarf

/-- An entry whose extent is known but whose contents have not been read. -/
structure FrameEntry where
  offset : Nat
  isCommon : Bool
  /-- The offset of the common entry that a function entry names. -/
  commonOffset : Nat
  /-- What follows the mark of the entry. -/
  body : Cursor
  /-- The offset of the next entry. -/
  next : Nat

namespace FrameEntry

/-- Whether the mark of an entry makes it a common one, and the offset that it names otherwise.
In the loaded section the mark counts back from its own place; offsets wrap at the word size. -/
def classify (kind : FrameKind) (place mark : Nat) (offsetSize : Nat) : Bool × Nat :=
  match kind with
  | .exception => (mark == 0, (place + (UInt64.size - mark)) % UInt64.size)
  | .debug => (mark == (if offsetSize = 8 then UInt64.size - 1 else UInt32.size - 1), mark)

/-- Read the mark of an entry. -/
def mark (kind : FrameKind) : Decoder (Bool × Nat) := do
  let cursor ← Decoder.cursor
  let mark ← Decoder.sectionOffset
  return classify kind cursor.offset mark.toNat cursor.offsetSize

/-- Read the extent of the entry at `offset`. A zero length ends the loaded section; in the other
section it is padding, which counts as a common entry without contents. -/
def extent (origin : FrameSection) (offset : Nat) : Decoder (Option FrameEntry) := do
  let malformed := FrameDefect.restate offset
  let length ← Consuming.mapError (malformed .headerPastSection) Decoder.initialLength
  if length = 0 ∧ origin.kind = .exception then return none
  else
    let inner ← (Decoder.split length.toNat).mapError (malformed .entryPastSection)
    let next ← Decoder.offset
    if length = 0 then return some ⟨offset, true, 0, inner, next⟩
    else
      let marked := (mark origin.kind).mapError (malformed .headerPastSection) inner
      let (isCommon, commonOffset) ← Decoder.ofExcept marked.result
      return some ⟨offset, isCommon, commonOffset, marked.next, next⟩

/-- The extent of the entry at an offset; `none` at the end of the loaded section. -/
def frame (origin : FrameSection) (data : List UInt8) (offset : Nat) :
    Except Error (Option FrameEntry) :=
  if offset ≤ data.length then
    (extent origin offset).run
      ((Cursor.start (data.drop offset) offset origin.order).withAddressSize origin.addressSize)
  else .error (.malformedCallFrame offset .offsetOutside)

/-- The entries from an offset on, each with its offset. The walk ends at the end of the section
or with the first entry whose extent cannot be read. -/
def framesFrom (origin : FrameSection) (data : List UInt8) (offset : Nat) :
    List (Nat × Except Error FrameEntry) :=
  if offset < data.length then
    match frame origin data offset with
    | .ok none => []
    | .error error => [(offset, .error error)]
    | .ok (some entry) =>
      (offset, .ok entry) ::
        if offset < entry.next then framesFrom origin data entry.next else []
  else []
termination_by data.length - offset

end FrameEntry

/-- What the augmentation of a common entry adds. -/
structure FrameAugmentation where
  /-- The encoding of the addresses of function entries. -/
  pointerEncoding : PointerEncoding := .absolute
  /-- The encoding of the pointers to language-specific data. -/
  lsdaEncoding : Option PointerEncoding := none
  personality : Option UInt64 := none
  isSignal : Bool := false
  deriving DecidableEq, Repr, Inhabited

/-- A common entry. -/
structure CommonEntry where
  offset : Nat
  version : UInt8
  augmentation : String
  addressSize : Nat
  /-- The unit of advances. -/
  codeAlignment : UInt64
  /-- The unit of offsets. -/
  dataAlignment : Int64
  /-- The register that stands for the return address. -/
  returnRegister : Nat
  added : FrameAugmentation
  /-- Whether function entries carry augmentation data. -/
  hasData : Bool
  instructions : List UInt8
  instructionsOffset : Nat
  deriving DecidableEq, Repr, Inhabited

/-- A function entry. -/
structure FunctionEntry where
  offset : Nat
  common : CommonEntry
  start : UInt64
  range : UInt64
  /-- The pointer to language-specific data. -/
  lsda : Option UInt64
  instructions : List UInt8
  instructionsOffset : Nat
  deriving DecidableEq, Repr, Inhabited

namespace FrameAugmentation

/-- Read what the letters of an augmentation announce. Letters after an unknown one cannot be
interpreted. -/
def decode (origin : FrameSection) (entry : Nat) :
    FrameAugmentation → List Char → Decoder FrameAugmentation
  | added, 'R' :: rest => do
    let code ← Decoder.uint8
    decode origin entry { added with pointerEncoding := ⟨code⟩ } rest
  | added, 'L' :: rest => do
    let code ← Decoder.uint8
    decode origin entry { added with lsdaEncoding := some ⟨code⟩ } rest
  | added, 'P' :: rest => do
    let code ← Decoder.uint8
    let pointer ← PointerEncoding.decode ⟨code⟩ origin entry
    decode origin entry { added with personality := some pointer } rest
  | added, 'S' :: rest => decode origin entry { added with isSignal := true } rest
  | added, _ => return added

end FrameAugmentation

namespace CommonEntry

/-- Whether entries of a version occur in a kind of section. -/
def supports (kind : FrameKind) (version : UInt8) : Bool :=
  match kind with
  | .exception => version == 1 || version == 3
  | .debug => version == 1 || version == 3 || version == 4

/-- Read the size of addresses, which version 4 states. -/
def statedAddressSize (origin : FrameSection) (offset : Nat) (version : UInt8) : Decoder Nat := do
  if version = 4 then
    let addressSize ← Decoder.uint8
    let segmentSize ← Decoder.uint8
    if segmentSize = 0 then return addressSize.toNat
    else throw (.malformedCallFrame offset .segmented)
  else return origin.addressSize

/-- Read the number of the return address register. -/
def register (offset : Nat) (version : UInt8) : Decoder Nat := do
  if version = 1 then return (← Decoder.uint8).toNat
  else
    let register ← Decoder.unsigned
    if register < 0x10000 then return register.toNat
    else throw (.malformedCallFrame offset .wideReturnRegister)

/-- Read the augmentation data. The letter `z` announces its length; without it no other letter
can be interpreted. Addresses in the data have the size that the entry states. -/
def augmentationData (origin : FrameSection) (offset addressSize : Nat) (augmentation : String) :
    Decoder (Bool × FrameAugmentation) := do
  match augmentation.toList with
  | [] => return (false, {})
  | 'z' :: letters =>
    let length ← Decoder.unsigned
    let data ← Decoder.split length.toNat
    let added ← Decoder.ofExcept <|
      (FrameAugmentation.decode origin offset {} letters).run (data.withAddressSize addressSize)
    return (true, added)
  | _ => throw (.malformedCallFrame offset (.unsupportedAugmentation augmentation))

/-- Read the fields of the common entry at `offset`. -/
def fields (origin : FrameSection) (offset : Nat) : Decoder CommonEntry := do
  let version ← Decoder.uint8
  if !supports origin.kind version then
    throw (.malformedCallFrame offset (.unsupportedVersion version))
  else
    let augmentation := Utf8.decode (← Decoder.cstring)
    let addressSize ← statedAddressSize origin offset version
    let codeAlignment ← Decoder.unsigned
    let dataAlignment ← Decoder.signed
    let returnRegister ← register offset version
    let (hasData, added) ← augmentationData origin offset addressSize augmentation
    let rest ← Decoder.cursor
    return {
      offset
      version
      augmentation
      addressSize
      codeAlignment
      dataAlignment
      returnRegister
      added
      hasData
      instructions := rest.rest
      instructionsOffset := rest.offset }

/-- Decode a common entry. -/
def decode (origin : FrameSection) (entry : FrameEntry) : Except Error CommonEntry :=
  ((fields origin entry.offset).mapError (FrameDefect.restate entry.offset .truncatedCie)).run
    entry.body

end CommonEntry

namespace FunctionEntry

/-- The address after the last one of the function. It wraps at the word size. -/
def stop (entry : FunctionEntry) : UInt64 :=
  entry.start + entry.range

def contains (entry : FunctionEntry) (pc : UInt64) : Bool :=
  entry.start ≤ pc && pc < entry.stop

/-- Read the augmentation data of a function entry: a pointer, where the common entry gives its
encoding. -/
def augmentationData (origin : FrameSection) (common : CommonEntry) (offset : Nat) :
    Decoder (Option UInt64) := do
  if common.hasData then
    let length ← Decoder.unsigned
    let data ← Decoder.split length.toNat
    match common.added.lsdaEncoding.filter (· != .omitted) with
    | some encoding =>
      return some (← Decoder.ofExcept ((encoding.decode origin offset).run data))
    | none => return none
  else return none

/-- Read the fields of the function entry at `offset`. -/
def fields (origin : FrameSection) (common : CommonEntry) (offset : Nat) :
    Decoder FunctionEntry := do
  let encoding := common.added.pointerEncoding
  let start ← encoding.decode origin offset
  let range ← encoding.formatOnly.decode origin offset
  let lsda ← augmentationData origin common offset
  let rest ← Decoder.cursor
  return {
    offset
    common
    start
    range
    lsda
    instructions := rest.rest
    instructionsOffset := rest.offset }

/-- Decode a function entry with its common entry. -/
def decode (origin : FrameSection) (common : CommonEntry) (entry : FrameEntry) :
    Except Error FunctionEntry :=
  let malformed := FrameDefect.restate entry.offset .truncatedFde
  ((fields origin common entry.offset).mapError malformed).run
    (entry.body.withAddressSize common.addressSize)

end FunctionEntry

end Dwarf
