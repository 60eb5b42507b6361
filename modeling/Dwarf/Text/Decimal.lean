/-! # Decimal numbers

A number is written with ASCII digits, and a plus sign may precede them. -/

namespace Dwarf.Decimal

/-- The number that some digits stand for, following the digits of `value`. -/
def accumulate? : Nat → List Char → Option Nat
  | value, [] => some value
  | value, char :: rest =>
    if char.isDigit then accumulate? (10 * value + (char.toNat - '0'.toNat)) rest else none

/-- The number that a text of at least one digit stands for. -/
def digits? : List Char → Option Nat
  | [] => none
  | text => accumulate? 0 text

/-- The number that a text stands for, if it fits in 64 bits. -/
def word? (text : List Char) : Option Nat :=
  let unsigned := match text with
    | '+' :: rest => rest
    | _ => text
  (digits? unsigned).filter (· < UInt64.size)

end Dwarf.Decimal
