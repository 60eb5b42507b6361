import Dwarf.Abbreviation

/-! # Shared abbreviation tables

Many units share a table. A cache decodes each offset once and afterwards repeats that answer, be
it a table or an error. -/

namespace Dwarf

/-- The answers given so far, by offset. -/
structure AbbreviationCache where
  answers : List (Nat × Except Error AbbreviationTable) := []
  deriving Inhabited

namespace AbbreviationCache

/-- The number of offsets that have been decoded. -/
def size (cache : AbbreviationCache) : Nat :=
  cache.answers.length

/-- The table at an offset, and the cache that remembers it. The data counts only when the offset
is asked for the first time. -/
def get (cache : AbbreviationCache) (data : List UInt8) (offset : Nat) :
    Except Error AbbreviationTable × AbbreviationCache :=
  match cache.answers.lookup offset with
  | some answer => (answer, cache)
  | none =>
    let answer := (AbbreviationTable.decode data offset).map Prod.fst
    (answer, ⟨(offset, answer) :: cache.answers⟩)

end AbbreviationCache

end Dwarf
