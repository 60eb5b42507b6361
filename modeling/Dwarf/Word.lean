/-! # Exact arithmetic on words

Sums, differences and products of words that are given only when they fit. -/

namespace Dwarf.Word

/-- The product of two words, if it is a word. -/
def mul? (a b : UInt64) : Option UInt64 :=
  if a.toNat * b.toNat < UInt64.size then some (a * b) else none

/-- The difference of two words, if it is not negative. -/
def sub? (a b : UInt64) : Option UInt64 :=
  if b ≤ a then some (a - b) else none

/-- The difference of two words, or zero. -/
def monus (a b : UInt64) : UInt64 :=
  if b ≤ a then a - b else 0

end Dwarf.Word
