/-!
# Sorting by a key

Sorting by a key puts the items into the order of their keys and leaves those of one key in the
order in which they were.  The two together determine the sorted list, so it makes no difference
whether parts have been sorted before.
-/

namespace Dwarf

variable {α : Type} (key : α → UInt64)

theorem key_le_trans (a b c : α) (ab : decide (key a ≤ key b) = true)
    (bc : decide (key b ≤ key c) = true) : decide (key a ≤ key c) = true := by
  rw [decide_eq_true_eq] at ab bc ⊢
  exact UInt64.le_trans ab bc

theorem key_le_total (a b : α) : (decide (key a ≤ key b) || decide (key b ≤ key a)) = true := by
  rw [Bool.or_eq_true, decide_eq_true_eq, decide_eq_true_eq]
  exact UInt64.le_total (key a) (key b)

theorem pairwise_mergeSort_key (items : List α) :
    (items.mergeSort fun a b => key a ≤ key b).Pairwise fun a b => key a ≤ key b :=
  (List.pairwise_mergeSort (key_le_trans key) (key_le_total key) items).imp of_decide_eq_true

/-- Sorting leaves the items of one key in their order. -/
theorem filter_mergeSort_key (items : List α) (value : UInt64) :
    ((items.mergeSort fun a b => key a ≤ key b).filter fun item => key item == value) =
      items.filter fun item => key item == value := by
  have one_key : (items.filter fun item => key item == value).Pairwise
      fun a b => decide (key a ≤ key b) = true := by
    refine List.pairwise_of_forall_mem_list ?_
    intro a left b right
    have a_key : key a = value := by simpa using (List.mem_filter.mp left).2
    have b_key : key b = value := by simpa using (List.mem_filter.mp right).2
    rw [decide_eq_true_eq, a_key, b_key]
    exact UInt64.le_refl value
  have kept := List.sublist_mergeSort (key_le_trans key) (key_le_total key) one_key
    List.filter_sublist
  have inside := kept.filter fun item => key item == value
  rw [List.filter_filter] at inside
  simp only [Bool.and_self] at inside
  refine (inside.eq_of_length ?_).symm
  exact ((List.mergeSort_perm items _).filter _).length_eq.symm

section

variable {key} {items others : List α}

theorem key_first_le {first item : α} {rest : List α}
    (sorted : (first :: rest).Pairwise fun a b => key a ≤ key b) (member : item ∈ first :: rest) :
    key first ≤ key item := by
  rcases List.mem_cons.mp member with rfl | later
  · exact UInt64.le_refl _
  · exact (List.pairwise_cons.mp sorted).1 item later

theorem mem_of_filter_key
    (same : ∀ value, (items.filter fun item => key item == value) =
      others.filter fun item => key item == value) {item : α} (member : item ∈ items) :
    item ∈ others := by
  have found : item ∈ items.filter fun other => key other == key item :=
    List.mem_filter.mpr ⟨member, beq_self_eq_true _⟩
  rw [same] at found
  exact (List.mem_filter.mp found).1

theorem mergeSort_swap {first second : α} (below : key second < key first) :
    ([first, second].mergeSort fun a b => key a ≤ key b) = [second, first] := by
  have above : ¬key first ≤ key second := UInt64.not_le.mpr below
  simp [List.mergeSort, List.MergeSort.Internal.splitInTwo, List.merge, above]

/-- Lists in the order of their keys are the same if they have the same items of each key. -/
theorem eq_of_filter_key (sorted : items.Pairwise fun a b => key a ≤ key b)
    (others_sorted : others.Pairwise fun a b => key a ≤ key b)
    (same : ∀ value, (items.filter fun item => key item == value) =
      others.filter fun item => key item == value) : items = others := by
  induction items generalizing others with
  | nil =>
      refine (List.eq_nil_iff_forall_not_mem.mpr fun item member => ?_).symm
      exact List.not_mem_nil (mem_of_filter_key (fun value => (same value).symm) member)
  | cons first rest ih =>
      cases others with
      | nil => cases mem_of_filter_key same (List.mem_cons_self ..)
      | cons other others =>
          have key_eq : key other = key first :=
            UInt64.le_antisymm
              (key_first_le others_sorted (mem_of_filter_key same (List.mem_cons_self ..)))
              (key_first_le sorted
                (mem_of_filter_key (fun value => (same value).symm) (List.mem_cons_self ..)))
          have heads : first = other := by
            have first_key := same (key first)
            rw [List.filter_cons_of_pos (by simp), List.filter_cons_of_pos (by simp [key_eq])]
              at first_key
            exact (List.cons.inj first_key).1
          subst heads
          refine congrArg (first :: ·) (ih (List.pairwise_cons.mp sorted).2
            (List.pairwise_cons.mp others_sorted).2 fun value => ?_)
          have whole := same value
          rw [List.filter_cons, List.filter_cons] at whole
          split at whole
          · exact (List.cons.inj whole).2
          · exact whole

end

theorem mergeSort_append_key (items others : List α) :
    (((items.mergeSort fun a b => key a ≤ key b) ++ others.mergeSort fun a b => key a ≤ key b)
      |>.mergeSort fun a b => key a ≤ key b) =
      (items ++ others).mergeSort fun a b => key a ≤ key b := by
  refine eq_of_filter_key (pairwise_mergeSort_key key _) (pairwise_mergeSort_key key _)
    fun value => ?_
  rw [filter_mergeSort_key, filter_mergeSort_key, List.filter_append, List.filter_append,
    filter_mergeSort_key, filter_mergeSort_key]

/-- Where the keys agree, what relates the items in their first order relates them still. -/
theorem pairwise_mergeSort_lex {related : α → α → Prop} {items : List α}
    (before : items.Pairwise related) :
    (items.mergeSort fun a b => key a ≤ key b).Pairwise
      fun a b => key a < key b ∨ key a = key b ∧ related a b := by
  rw [List.pairwise_iff_forall_sublist]
  intro a b pair
  have le := List.pairwise_iff_forall_sublist.mp (pairwise_mergeSort_key key items) pair
  rcases UInt64.lt_or_eq_of_le le with less | equal
  · exact .inl less
  · refine .inr ⟨equal, ?_⟩
    have together := pair.filter fun item => key item == key b
    rw [filter_mergeSort_key, List.filter_cons_of_pos (by simp [equal]),
      List.filter_cons_of_pos (by simp), List.filter_nil] at together
    exact List.pairwise_iff_forall_sublist.mp before (together.trans List.filter_sublist)

end Dwarf
