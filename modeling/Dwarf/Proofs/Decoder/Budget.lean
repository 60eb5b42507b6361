import Dwarf.Proofs.Decoder.Passes

/-!
# Loops within a budget

A loop may be allowed a number of passes only.  As long as that is enough it ends as it does
without a limit; one pass less, and it is refused instead, whatever would have come of the pass.
-/

namespace Dwarf.Decoder

variable {σ : Type}

/-- The number of passes that a loop starts, the one that fails included. -/
def started (pass : σ → Consuming σ) (state : σ) (cursor : Cursor) : Nat :=
  if cursor.atEnd then 0
  else
    match _found : (pass state).read cursor with
    | ⟨.error _, _, _⟩ => 1
    | ⟨.ok following, next, _⟩ => started pass following next + 1
termination_by cursor.remaining
decreasing_by
  have advanced := (pass state).advances cursor
  rw [_found] at advanced
  exact Cursor.Reaches.remaining_lt ‹_› (advanced _ rfl)

variable {pass : σ → Consuming σ} {state : σ} {cursor : Cursor}

theorem started_of_atEnd (finished : cursor.atEnd = true) : started pass state cursor = 0 := by
  rw [started, if_pos finished]

theorem started_of_ok {following : σ} (unfinished : cursor.atEnd = false)
    (read : ((pass state).read cursor).result = .ok following) :
    started pass state cursor =
      started pass following ((pass state).read cursor).next + 1 := by
  rw [started, if_neg (by simp [unfinished])]
  split
  next same => rw [same] at read; cases read
  next same =>
    rw [same] at read ⊢
    cases read
    rfl

/-- A pass that is refused once the budget is spent. -/
def within (budget : Nat) (spent : σ → Nat) (refusal : Error) (pass : σ → Consuming σ) (state : σ) :
    Consuming σ :=
  if budget ≤ spent state then .fail refusal else pass state

/-- Every pass that succeeds is counted. -/
def Counts (spent : σ → Nat) (pass : σ → Consuming σ) : Prop :=
  ∀ ⦃state following : σ⦄ ⦃cursor : Cursor⦄, ((pass state).read cursor).result = .ok following →
    spent following = spent state + 1

variable {spent : σ → Nat}

theorem Counts.untilEnd (counts : Counts spent pass) {last : σ}
    (run : (untilEnd pass state cursor).result = .ok last) :
    spent last = spent state + started pass state cursor := by
  have passes := untilEnd_eq_ok_iff.mp run
  clear run
  induction passes with
  | done finished => rw [started_of_atEnd finished, Nat.add_zero]
  | more unfinished read _ ih =>
      rw [ih, started_of_ok unfinished read, counts read]
      omega

theorem within_of_spent {budget : Nat} {refusal : Error} (exhausted : budget ≤ spent state) :
    (((within budget spent refusal pass) state).read cursor).result = .error refusal := by
  rw [within, if_pos exhausted]
  rfl

theorem within_of_affordable {budget : Nat} {refusal : Error} (affordable : spent state < budget) :
    within budget spent refusal pass state = pass state :=
  if_neg (Nat.not_le_of_lt affordable)

/-- A loop within a budget ends as it does without one if the budget covers the passes that it
starts then, and it is refused if not. -/
theorem Counts.untilEnd_within (counts : Counts spent pass) {budget : Nat} (refusal : Error)
    (covered : spent state ≤ budget) :
    (Decoder.untilEnd (within budget spent refusal pass) state cursor).result =
      if spent state + started pass state cursor ≤ budget then
        (Decoder.untilEnd pass state cursor).result
      else .error refusal := by
  fun_induction started pass state cursor with
  | case1 state cursor finished =>
      rw [if_pos (by omega), untilEnd_of_atEnd finished, untilEnd_of_atEnd finished]
  | case2 state cursor unfinished error next reached found =>
      have unfinished : cursor.atEnd = false := by simpa using unfinished
      have failed : ((pass state).read cursor).result = .error error := by rw [found]
      by_cases affordable : spent state + 1 ≤ budget
      · rw [if_pos affordable, untilEnd_result_of_error unfinished failed]
        refine untilEnd_result_of_error unfinished ?_
        rw [within_of_affordable affordable]
        exact failed
      · rw [if_neg affordable]
        exact untilEnd_result_of_error unfinished (within_of_spent (Nat.le_of_not_lt affordable))
  | case3 state cursor unfinished following next reached found ih =>
      have unfinished : cursor.atEnd = false := by simpa using unfinished
      have read : ((pass state).read cursor).result = .ok following := by rw [found]
      have onward : ((pass state).read cursor).next = next := by rw [found]
      have counted := counts read
      by_cases affordable : spent state + 1 ≤ budget
      · have same := @within_of_affordable _ pass state _ _ refusal affordable
        have read_within : ((within budget spent refusal pass state).read cursor).result =
            .ok following := by
          rw [same]
          exact read
        rw [(untilEnd_result_of_ok unfinished read_within).1, same, onward, ih (by omega),
          (untilEnd_result_of_ok unfinished read).1, onward, counted, Nat.add_assoc,
          Nat.add_comm 1]
      · rw [if_neg (by omega)]
        exact untilEnd_result_of_error unfinished (within_of_spent (Nat.le_of_not_lt affordable))

end Dwarf.Decoder
