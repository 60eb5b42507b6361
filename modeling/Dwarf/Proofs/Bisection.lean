import Mathlib.Data.List.TakeWhile
import Dwarf.Bisection

/-!
# The boundary that bisection finds

Halving keeps the boundary within the range of positions, and the position that is left decides on
which side of it the boundary is.  So where the items that satisfy a condition come first, bisection
counts what a walk from the start would count.  A search that goes back from the boundary is then a
search of all items from their end.
-/

namespace Dwarf

/-- The item is the last one of a list that has a property. -/
def LastWith {α : Type} (property : α → Prop) (items : List α) (item : α) : Prop :=
  ∃ before after, items = before ++ item :: after ∧ property item ∧
    ∀ later ∈ after, ¬property later

theorem LastWith.mem {α : Type} {property : α → Prop} {items : List α} {item : α}
    (last : LastWith property items item) : item ∈ items ∧ property item := by
  obtain ⟨before, after, rfl, has, _⟩ := last
  exact ⟨List.mem_append_right _ List.mem_cons_self, has⟩

/-- A search from the end finds the last item that satisfies a condition. -/
theorem find?_reverse_eq_some_iff {α : Type} {holds : α → Bool} {items : List α} {item : α} :
    items.reverse.find? holds = some item ↔ LastWith (fun item => holds item = true) items item := by
  rw [List.find?_eq_some_iff_append]
  constructor
  · rintro ⟨item_holds, after, before, split, others⟩
    have turned := congrArg List.reverse split
    rw [List.reverse_reverse, List.reverse_append, List.reverse_cons, List.append_assoc] at turned
    refine ⟨before.reverse, after.reverse, turned, item_holds, fun later member => ?_⟩
    have fails := others later (List.mem_reverse.mp member)
    rw [Bool.not_eq_true'] at fails
    exact Bool.eq_false_iff.mp fails
  · rintro ⟨before, after, rfl, item_holds, others⟩
    refine ⟨item_holds, after.reverse, before.reverse, ?_, fun later member => ?_⟩
    · rw [List.reverse_append, List.reverse_cons, List.append_assoc]
      rfl
    · rw [Bool.not_eq_true']
      exact Bool.eq_false_iff.mpr (others later (List.mem_reverse.mp member))

end Dwarf

namespace Dwarf.Bisection

variable {α : Type} {holds : α → Bool}

/-- The items before a position satisfy a condition, and no others do. -/
def Splits (holds : α → Bool) (items : Array α) (cut : Nat) : Prop :=
  ∀ position, holdsAt holds items position = decide (position < cut)

theorem Splits.within {items : Array α} {cut : Nat} (splits : Splits holds items cut)
    {first length : Nat} (low : first ≤ cut) (high : cut ≤ first + length) :
    narrow holds items first length ≤ cut ∧ cut ≤ narrow holds items first length + 1 := by
  fun_induction narrow holds items first length with
  | case1 first length single => omega
  | case2 first length several half kept ih =>
      rw [splits, decide_eq_true_eq] at kept
      exact ih (Nat.le_of_lt kept) (by omega)
  | case3 first length several half left ih =>
      rw [splits, decide_eq_true_eq] at left
      exact ih low (by omega)

theorem narrow_eq_or_holdsAt (holds : α → Bool) (items : Array α) (first length : Nat) :
    narrow holds items first length = first ∨
      holdsAt holds items (narrow holds items first length) = true := by
  fun_induction narrow holds items first length with
  | case1 => exact .inl rfl
  | case2 first length several half kept ih =>
      rcases ih with unmoved | moved
      · rw [unmoved]
        exact .inr kept
      · exact .inr moved
  | case3 first length several half left ih => exact ih

theorem Splits.narrow_eq {items : Array α} {last : Nat} (splits : Splits holds items (last + 1))
    (inside : last < items.size) : narrow holds items 0 items.size = last := by
  have high : last + 1 ≤ 0 + items.size := by omega
  obtain ⟨below, above⟩ := splits.within (Nat.zero_le _) high
  rcases narrow_eq_or_holdsAt holds items 0 items.size with unmoved | moved
  · omega
  · rw [splits, decide_eq_true_eq] at moved
    omega

theorem Splits.le_length {items : List α} {cut : Nat} (splits : Splits holds items.toArray cut) :
    cut ≤ items.length := by
  have behind := splits items.length
  rw [holdsAt, List.getElem?_toArray, List.getElem?_eq_none (Nat.le_refl _)] at behind
  exact Nat.le_of_not_lt (of_decide_eq_false behind.symm)

theorem Splits.boundary_eq {items : List α} {cut : Nat} (splits : Splits holds items.toArray cut) :
    boundary holds items = cut := by
  have high : cut ≤ 0 + items.toArray.size := by
    have := splits.le_length
    rw [List.size_toArray]
    omega
  obtain ⟨below, above⟩ := splits.within (Nat.zero_le cut) high
  unfold boundary
  dsimp only
  rw [splits]
  by_cases inside : narrow holds items.toArray 0 items.toArray.size < cut
  · rw [if_pos (decide_eq_true inside)]
    omega
  · rw [if_neg (by rw [decide_eq_false inside]; exact Bool.false_ne_true)]
    omega

theorem splits_append {front back : List α} (front_holds : ∀ item ∈ front, holds item = true)
    (back_fails : ∀ item ∈ back, holds item = false) :
    Splits holds (front ++ back).toArray front.length := by
  intro position
  rw [holdsAt, List.getElem?_toArray]
  by_cases inside : position < front.length
  · rw [List.getElem?_append_left inside, List.getElem?_eq_getElem inside, decide_eq_true inside]
    exact front_holds _ (List.getElem_mem inside)
  · rw [List.getElem?_append_right (Nat.le_of_not_lt inside), decide_eq_false inside]
    cases found : back[position - front.length]? with
    | none => rfl
    | some item => exact back_fails item (List.mem_of_getElem? found)

/-- Once an item fails where those that satisfy the condition come first, all others fail. -/
theorem fails_of_mem_dropWhile {items : List α}
    (ordered : items.Pairwise fun item later => holds later = true → holds item = true) :
    ∀ item ∈ items.dropWhile holds, holds item = false := by
  induction items with
  | nil => exact nofun
  | cons first rest ih =>
      obtain ⟨before_rest, rest_ordered⟩ := List.pairwise_cons.mp ordered
      cases first_holds : holds first with
      | true =>
          rw [List.dropWhile_cons_of_pos first_holds]
          exact ih rest_ordered
      | false =>
          rw [List.dropWhile_cons_of_neg (by rw [first_holds]; exact Bool.false_ne_true)]
          intro item member
          rcases List.mem_cons.mp member with rfl | later
          · exact first_holds
          · cases item_holds : holds item with
            | false => rfl
            | true => exact absurd (before_rest item later item_holds) (by simp [first_holds])

variable {items : List α}
  (ordered : items.Pairwise fun item later => holds later = true → holds item = true)
include ordered

theorem exists_boundary :
    ∃ front back, items = front ++ back ∧ boundary holds items = front.length ∧
      (∀ item ∈ front, holds item = true) ∧ ∀ item ∈ back, holds item = false := by
  have front_holds : ∀ item ∈ items.takeWhile holds, holds item = true :=
    fun _ member => List.mem_takeWhile_imp member
  have back_fails := fails_of_mem_dropWhile ordered
  have splits := splits_append front_holds back_fails
  rw [List.takeWhile_append_dropWhile] at splits
  exact ⟨items.takeWhile holds, items.dropWhile holds, List.takeWhile_append_dropWhile.symm,
    splits.boundary_eq, front_holds, back_fails⟩

/-- The item before the boundary is the last one that satisfies the condition. -/
theorem find?_reverse_eq :
    items.reverse.find? holds =
      match boundary holds items with
      | 0 => none
      | last + 1 => items[last]? := by
  obtain ⟨front, back, rfl, boundary_eq, front_holds, back_fails⟩ := exists_boundary ordered
  have behind : back.reverse.find? holds = none := by
    refine List.find?_eq_none.mpr fun item member => ?_
    rw [back_fails item (List.mem_reverse.mp member)]
    exact Bool.false_ne_true
  rw [boundary_eq, List.reverse_append, List.find?_append, behind, Option.none_or]
  rcases List.eq_nil_or_concat front with rfl | ⟨init, last, rfl⟩
  · rfl
  · have last_holds : holds last = true := front_holds last (by simp)
    simp [last_holds]

theorem find?_reverse_take {wanted : α → Bool}
    (narrower : ∀ item, wanted item = true → holds item = true) :
    (items.take (boundary holds items)).reverse.find? wanted = items.reverse.find? wanted := by
  obtain ⟨front, back, rfl, boundary_eq, front_holds, back_fails⟩ := exists_boundary ordered
  have behind : back.reverse.find? wanted = none := by
    refine List.find?_eq_none.mpr fun item member found => ?_
    have fails := back_fails item (List.mem_reverse.mp member)
    rw [narrower item found] at fails
    cases fails
  rw [boundary_eq, List.take_left, List.reverse_append, List.find?_append, behind, Option.none_or]

omit ordered in
theorem ordered_of_ascending {key : α → UInt64}
    (ascending : items.Pairwise fun item later => key item ≤ key later) (bound : UInt64) :
    items.Pairwise fun item later =>
      decide (key later ≤ bound) = true → decide (key item ≤ bound) = true :=
  ascending.imp fun above later =>
    decide_eq_true (UInt64.le_trans above (of_decide_eq_true later))

omit ordered in
/-- Where keys ascend, a search that goes back from the boundary of the items up to a bound loses
nothing that is found up to the bound only. -/
theorem find?_below {key : α → UInt64}
    (ascending : items.Pairwise fun item later => key item ≤ key later) {bound : UInt64}
    {wanted : α → Bool} (below : ∀ item, wanted item = true → key item ≤ bound) :
    (items.take (boundary (fun item => key item ≤ bound) items)).reverse.find? wanted =
      items.reverse.find? wanted :=
  find?_reverse_take (ordered_of_ascending ascending bound) fun item found =>
    decide_eq_true (below item found)

end Dwarf.Bisection
