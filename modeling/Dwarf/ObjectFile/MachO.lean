import Dwarf.ObjectFile

/-! # Mach-O files

The header of a wide Mach-O file is followed by load commands. A segment command lists sections,
whose names have a fixed length and end at the first zero. A file whose symbols do not lie in it is
refused. -/

namespace Dwarf

namespace ObjectFile.MachO

/-- The byte order that the first bytes of a file announce. -/
def identify? : List UInt8 → Option ByteOrder
  | 0xcf :: 0xfa :: 0xed :: 0xfe :: _ => some .little
  | 0xfe :: 0xed :: 0xfa :: 0xcf :: _ => some .big
  | _ => none

def headerSize : Nat := 32

/-- The size of a segment command without its sections. -/
def segmentSize : Nat := 72

/-- The size of a section in a segment command. -/
def sectionSize : Nat := 80

/-- The code of the command for a segment. -/
def segmentCommand : Nat := 0x19

/-- The size of a symbol table command. -/
def symbolsSize : Nat := 24

/-- The code of the command for a symbol table. -/
def symbolsCommand : Nat := 0x02

/-- The size of a symbol. -/
def symbolSize : Nat := 16

/-- Whether a section of these flags has no bytes in the file. -/
def isZeroFill (flags : Nat) : Bool :=
  [0x01, 0x0c, 0x12].contains (flags % 256)

/-- Split off the load commands, each as its code and all of its bytes. The list ends early at a
command that does not lie in it. -/
def commands (order : ByteOrder) : Nat → List UInt8 → List (Nat × List UInt8)
  | 0, _ => []
  | count + 1, bytes =>
    match field? order bytes 0 4, field? order bytes 4 4 with
    | some code, some size =>
      if size < 8 then []
      else
        match slice? bytes 0 size with
        | some command => (code, command) :: commands order count (bytes.drop size)
        | none => []
    | _, _ => []

/-- Read a section of a segment command. -/
def readSection? (order : ByteOrder) (record : List UInt8) : Option ObjectSection := do
  let name ← slice? record 0 16
  let address ← field? order record 32 8
  let size ← field? order record 40 8
  let offset ← field? order record 48 4
  let flags ← field? order record 64 4
  return {
    name := some (name.takeWhile (· != 0))
    address := UInt64.ofNat address
    extent := if isZeroFill flags then none else some (offset, size) }

/-- The sections of a segment command. -/
def segmentSections? (order : ByteOrder) (command : List UInt8) : Option (List ObjectSection) := do
  let _ ← slice? command 0 segmentSize
  let count ← field? order command 64 4
  (← table? command segmentSize count sectionSize).mapM (readSection? order)

/-- The symbols of a symbol table command. -/
def symbols? (order : ByteOrder) (file command : List UInt8) : Option (List UInt8) := do
  let _ ← slice? command 0 symbolsSize
  let offset ← field? order command 8 4
  let count ← field? order command 12 4
  slice? file offset (count * symbolSize)

/-- The sections of a load command of a file. Only segments have any. -/
def sectionsOf? (order : ByteOrder) (file : List UInt8) (code : Nat) (command : List UInt8) :
    Option (List ObjectSection) :=
  if code = segmentCommand then segmentSections? order command
  else if code = symbolsCommand then (symbols? order file command).map fun _ => []
  else some []

/-- The load commands of a file. A list of commands that does not lie in the file is empty. -/
def commandsOf? (order : ByteOrder) (bytes : List UInt8) : Option (List (Nat × List UInt8)) := do
  let header ← slice? bytes 0 headerSize
  let count ← field? order header 16 4
  let size ← field? order header 20 4
  return commands order count ((slice? bytes headerSize size).getD [])

/-- Read a wide Mach-O file. -/
def read? (bytes : List UInt8) : Option ObjectFile := do
  let order ← identify? bytes
  let sections ← (← commandsOf? order bytes).mapM fun (code, command) =>
    sectionsOf? order bytes code command
  return { format := .machO, order, bytes, sections := sections.flatten }

end ObjectFile.MachO

end Dwarf
