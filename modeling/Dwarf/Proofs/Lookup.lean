/-!
# Lists of keys with values

Looking up a key finds what was put in front last, and nothing after the key has been filtered out.
-/

namespace Dwarf

variable {κ α : Type} [BEq κ] [LawfulBEq κ] [DecidableEq κ]

theorem lookup_cons_if (key other : κ) (value : α) (entries : List (κ × α)) :
    ((key, value) :: entries).lookup other =
      if other = key then some value else entries.lookup other := by
  by_cases same : other = key
  · simp [same]
  · simp [same, List.lookup_cons, beq_false_of_ne same]

theorem lookup_filter_ne (key other : κ) (entries : List (κ × α)) :
    (entries.filter fun entry => entry.1 != key).lookup other =
      if other = key then none else entries.lookup other := by
  induction entries with
  | nil => simp
  | cons head rest ih =>
      obtain ⟨kept, value⟩ := head
      by_cases removed : kept = key
      · rw [List.filter_cons_of_neg (by simp [removed]), ih, lookup_cons_if]
        by_cases same : other = key
        · simp [same]
        · simp [same, removed]
      · rw [List.filter_cons_of_pos (by simp [removed]), lookup_cons_if, lookup_cons_if, ih]
        by_cases here : other = kept
        · simp [here, removed]
        · simp [here]

end Dwarf
