/-! # Bisection

Where the items that satisfy a condition come before all others, the boundary between the two is
found by halving. -/

namespace Dwarf.Bisection

variable {α : Type}

/-- Whether the item at a position satisfies a condition. -/
def holdsAt (holds : α → Bool) (items : Array α) (position : Nat) : Bool :=
  (items[position]?).any holds

/-- Halve a range of positions, given by its first one and its length, until it is one position. The
item in the middle is kept with those behind it if it satisfies the condition, and left out with
them if it does not. -/
def narrow (holds : α → Bool) (items : Array α) (first length : Nat) : Nat :=
  if length ≤ 1 then first
  else
    let half := length / 2
    if holdsAt holds items (first + half) then narrow holds items (first + half) (length - half)
    else narrow holds items first (length - half)
termination_by length

/-- The number of items before the boundary. -/
def boundary (holds : α → Bool) (items : List α) : Nat :=
  let items := items.toArray
  let position := narrow holds items 0 items.size
  if holdsAt holds items position then position + 1 else position

end Dwarf.Bisection
