/-! # Blank characters

The characters that count as white space by the data of Unicode, and the removal of them from the
ends of a text. -/

namespace Dwarf.Blank

/-- Inclusive ranges of the blank characters, in ascending order. -/
def ranges : List (Nat × Nat) :=
  [
    (0x0009, 0x000d), (0x0020, 0x0020), (0x0085, 0x0085), (0x00a0, 0x00a0), (0x1680, 0x1680),
    (0x2000, 0x200a), (0x2028, 0x2029), (0x202f, 0x202f), (0x205f, 0x205f), (0x3000, 0x3000) ]

/-- Whether a character is blank. -/
def isBlank (char : Char) : Bool :=
  ranges.any fun (first, last) => first ≤ char.toNat && char.toNat ≤ last

/-- A text without the blank characters at its ends. -/
def trim (text : List Char) : List Char :=
  ((text.dropWhile isBlank).reverse.dropWhile isBlank).reverse

end Dwarf.Blank
