/-! # UTF-8 text of unknown quality

Debug information stores names as bytes that nobody has checked. `Utf8.decode` reads them as
UTF-8 and replaces each maximal run of bytes that begins a character but does not finish one by
a single replacement character, so every byte string has a text. -/

namespace Dwarf.Utf8

/-- The replacement character, written for each ill-formed run. -/
def replacement : Char := '\ufffd'

/-- A character whose lead byte has been read: the bits so far, the number of bytes still to
come, and the range in which the next one has to lie. -/
structure Partial where
  bits : Nat
  missing : Nat
  low : UInt8
  high : UInt8
  deriving DecidableEq, Repr

/-- What one byte does at the start of a character. -/
inductive Lead where
  | complete (char : Char)
  | opens (state : Partial)
  | invalid
  deriving DecidableEq, Repr

/-- Classify a byte at the start of a character. The ranges of the second byte exclude overlong
forms, surrogates and values above `10ffff`. -/
def lead (byte : UInt8) : Lead :=
  if byte < 0x80 then .complete (Char.ofNat byte.toNat)
  else if byte < 0xc2 then .invalid
  else if byte < 0xe0 then .opens ⟨byte.toNat % 0x20, 1, 0x80, 0xbf⟩
  else if byte = 0xe0 then .opens ⟨0, 2, 0xa0, 0xbf⟩
  else if byte = 0xed then .opens ⟨0xd, 2, 0x80, 0x9f⟩
  else if byte < 0xf0 then .opens ⟨byte.toNat % 0x10, 2, 0x80, 0xbf⟩
  else if byte = 0xf0 then .opens ⟨0, 3, 0x90, 0xbf⟩
  else if byte < 0xf4 then .opens ⟨byte.toNat % 0x8, 3, 0x80, 0xbf⟩
  else if byte = 0xf4 then .opens ⟨4, 3, 0x80, 0x8f⟩
  else .invalid

/-- Add a continuation byte to an unfinished character. -/
def Partial.extend (state : Partial) (byte : UInt8) : Lead :=
  let bits := state.bits * 64 + byte.toNat % 64
  if state.missing ≤ 1 then .complete (Char.ofNat bits)
  else .opens ⟨bits, state.missing - 1, 0x80, 0xbf⟩

mutual

/-- Decode at the start of a character. -/
def characters : List UInt8 → List Char
  | [] => []
  | byte :: rest =>
    match lead byte with
    | .complete char => char :: characters rest
    | .opens state => continued state rest
    | .invalid => replacement :: characters rest

/-- Decode inside a character. A byte that cannot continue it ends the ill-formed run and is
read again as the start of the next character. -/
def continued (state : Partial) : List UInt8 → List Char
  | [] => [replacement]
  | byte :: rest =>
    if state.low ≤ byte ∧ byte ≤ state.high then
      match state.extend byte with
      | .complete char => char :: characters rest
      | .opens next => continued next rest
      | .invalid => replacement :: characters rest
    else
      match lead byte with
      | .complete char => replacement :: char :: characters rest
      | .opens next => replacement :: continued next rest
      | .invalid => replacement :: replacement :: characters rest

end

/-- The text of a byte string. -/
def decode (bytes : List UInt8) : String :=
  String.ofList (characters bytes)

end Dwarf.Utf8
