import Dwarf.Encoding

/-! # Arithmetic at the width of an address

The stack of an expression holds words. Results are truncated to the width of an address, and
signed operations first extend the sign from that width. -/

namespace Dwarf

namespace Encoding

/-- The width of an address in bits, between one byte and one word. -/
def addressBits (encoding : Encoding) : Nat :=
  8 * min 8 (max 1 encoding.addressSize)

/-- The low bits of a word that an address keeps. -/
def truncate (encoding : Encoding) (value : UInt64) : UInt64 :=
  value &&& encoding.maxAddress

/-- The low bits of a word as a signed number of the width of an address. -/
def signExtend (encoding : Encoding) (value : UInt64) : Int64 :=
  let unused := 64 - encoding.addressBits
  (value <<< UInt64.ofNat unused).toInt64 >>> Int64.ofNat unused

end Encoding

/-- An operator on one value. -/
inductive UnaryOp where
  | abs
  | neg
  | not
  /-- Add a constant. -/
  | plus (addend : UInt64)
  deriving DecidableEq, Repr

/-- The result of an operator on one value. -/
def UnaryOp.apply (op : UnaryOp) (encoding : Encoding) (value : UInt64) : UInt64 :=
  encoding.truncate <|
    match op with
    | abs =>
      let signed := encoding.signExtend value
      (if signed < 0 then -signed else signed).toUInt64
    | neg => (-encoding.signExtend value).toUInt64
    | not => ~~~value
    | plus addend => value + addend

/-- An operator on two values. -/
inductive BinaryOp where
  | and
  | div
  | minus
  | mod
  | mul
  | or
  | plus
  | shl
  | shr
  | shra
  | xor
  | eq
  | ge
  | gt
  | le
  | lt
  | ne
  deriving DecidableEq, Repr

namespace BinaryOp

/-- The truth value of a comparison as a word. -/
def truth (holds : Bool) : UInt64 :=
  if holds then 1 else 0

/-- Shift by an amount unless it is at least the width, when nothing is left. -/
def shifted (encoding : Encoding) (amount result : UInt64) : UInt64 :=
  if amount < UInt64.ofNat encoding.addressBits then encoding.truncate result else 0

/-- The result of an operator on the value below the top and the top value; `none` stands for a
division by zero. Division is signed and truncates, the remainder is unsigned, and comparisons
are signed. -/
def apply (op : BinaryOp) (encoding : Encoding) (lhs rhs : UInt64) : Option UInt64 :=
  let left := encoding.signExtend lhs
  let right := encoding.signExtend rhs
  match op with
  | and => some (encoding.truncate (lhs &&& rhs))
  | or => some (encoding.truncate (lhs ||| rhs))
  | xor => some (encoding.truncate (lhs ^^^ rhs))
  | plus => some (encoding.truncate (lhs + rhs))
  | minus => some (encoding.truncate (lhs - rhs))
  | mul => some (encoding.truncate (lhs * rhs))
  | div => if right = 0 then none else some (encoding.truncate (left / right).toUInt64)
  | mod => if rhs = 0 then none else some (encoding.truncate (lhs % rhs))
  | shl => some (shifted encoding rhs (lhs <<< rhs))
  | shr => some (shifted encoding rhs (lhs >>> rhs))
  | shra =>
    let amount := if rhs < 63 then rhs else 63
    some (encoding.truncate (left >>> amount.toInt64).toUInt64)
  | eq => some (truth (left == right))
  | ne => some (truth (left != right))
  | lt => some (truth (left < right))
  | le => some (truth (left ≤ right))
  | gt => some (truth (right < left))
  | ge => some (truth (right ≤ left))

end BinaryOp

end Dwarf
