import Dwarf.Proofs.Expression.Change

/-!
# What an evaluation does

An observation of an evaluation lists the states that it goes through, beside its outcome and its
reads of the target.  The list is instrumentation: the outcome and the reads are those of the
evaluation itself.
-/

namespace Dwarf

/-- An evaluation as it is seen from outside. -/
structure Observation where
  outcome : Except Error Location
  reads : Array TargetRead
  /-- What each operation that was tried led to, in order: a state or the error of the last one. -/
  steps : List (Except Error Machine)

namespace LocationExpression

variable (expression : LocationExpression) (evaluation : Evaluation)

/-- The operations that are left after one of them, and the state in which they are executed. -/
def goOn (operation : Operation) (rest : List Operation) :
    Machine × Option Int64 → Access (List Operation × Machine)
  | (machine, none) => return (rest, machine)
  | (machine, some displacement) =>
    return (← Access.ofExcept (expression.following operation displacement), machine)

/-- Execute the first of some operations. -/
def advance (operation : Operation) (rest : List Operation) (machine : Machine) :
    Access (List Operation × Machine) := do
  expression.goOn operation rest (← machine.step evaluation expression.encoding operation)

/-- Execute operations with the budget that is left and note the states. -/
def observeFrom (target : Option Target) :
    Nat → List Operation → Machine → Array TargetRead → Observation
  | _, [], machine, reads => ⟨machine.location, reads, []⟩
  | 0, _ :: _, _, reads => ⟨.error (.budgetExceeded evaluation.budget), reads, []⟩
  | budget + 1, operation :: rest, machine, reads =>
    match (expression.advance evaluation operation rest machine).resume target reads with
    | (.ok (following, next), later) =>
      let observation := observeFrom target budget following next later
      { observation with steps := .ok next :: observation.steps }
    | (.error error, later) => ⟨.error error, later, [.error error]⟩

/-- Evaluate an expression and note the states. -/
def observe (target : Option Target) : Observation :=
  expression.observeFrom evaluation target evaluation.budget expression.operations
    (.start evaluation) #[]

variable {expression evaluation} {target : Option Target} {reads : Array TargetRead}

/-- A run executes one operation and then those that it leads to. -/
theorem resume_run_cons {budget : Nat} {operation : Operation} {rest : List Operation}
    {machine : Machine} :
    (expression.run evaluation (budget + 1) (operation :: rest) machine).resume target reads =
      match (expression.advance evaluation operation rest machine).resume target reads with
      | (.ok (following, next), later) =>
        (expression.run evaluation budget following next).resume target later
      | (.error error, later) => (.error error, later) := by
  rw [run, advance, Access.resume_bind, Access.resume_bind]
  obtain ⟨outcome, later⟩ :=
    (machine.step evaluation expression.encoding operation).resume target reads
  cases outcome with
  | error => rfl
  | ok result =>
      obtain ⟨next, jump⟩ := result
      cases jump with
      | none => rfl
      | some displacement =>
          simp only [goOn, Access.resume_bind, Access.resume_ofExcept]
          cases expression.following operation displacement <;> rfl

theorem observeFrom_eq_resume (budget : Nat) (operations : List Operation) (machine : Machine)
    (reads : Array TargetRead) :
    let observation :=
      expression.observeFrom evaluation target budget operations machine reads
    (observation.outcome, observation.reads) =
      (expression.run evaluation budget operations machine).resume target reads := by
  induction budget generalizing operations machine reads with
  | zero => cases operations <;> rfl
  | succ budget ih =>
      cases operations with
      | nil => rfl
      | cons operation rest =>
          rw [resume_run_cons, observeFrom]
          obtain ⟨outcome, later⟩ :=
            (expression.advance evaluation operation rest machine).resume target reads
          cases outcome with
          | error => rfl
          | ok result => exact ih result.1 result.2 later

theorem observe_eq_run :
    ((expression.observe evaluation target).outcome,
        (expression.observe evaluation target).reads) =
      (expression.evaluate evaluation).run target :=
  observeFrom_eq_resume _ _ _ _

/-! ## What every observation keeps -/

theorem following_subset {operation : Operation} {displacement : Int64}
    {following : List Operation}
    (found : expression.following operation displacement = .ok following) :
    following ⊆ expression.operations := by
  unfold LocationExpression.following operationsFrom? at found
  dsimp only at found
  split at found
  next operations somewhere =>
    cases found
    split at somewhere
    next =>
      cases somewhere
      exact List.nil_subset _
    next =>
      split at somewhere
      next => cases somewhere
      next tail =>
        cases somewhere
        exact List.dropWhile_subset _
  next => cases found

/-- One operation changes the state, and what follows it is part of the expression. -/
theorem ensures_advance {operation : Operation} {rest : List Operation} {machine : Machine}
    (within : rest ⊆ expression.operations) :
    (expression.advance evaluation operation rest machine).Ensures fun result =>
      result.1 ⊆ expression.operations ∧
        machine.Change evaluation expression.encoding operation result.2 := by
  refine Machine.ensures_step.bind fun result changed => ?_
  obtain ⟨next, jump⟩ := result
  cases jump with
  | none => exact Access.ensures_pure ⟨within, changed⟩
  | some displacement =>
      dsimp only [goOn]
      cases found : expression.following operation displacement with
      | error => exact Access.ensures_throw
      | ok following => exact Access.ensures_pure ⟨following_subset found, changed⟩

theorem observeFrom_length_le (budget : Nat) (operations : List Operation) (machine : Machine)
    (reads : Array TargetRead) :
    (expression.observeFrom evaluation target budget operations machine reads).steps.length ≤
      budget := by
  induction budget generalizing operations machine reads with
  | zero => cases operations <;> exact Nat.le_refl 0
  | succ budget ih =>
      cases operations with
      | nil => exact Nat.zero_le _
      | cons operation rest =>
          unfold observeFrom
          split
          next => exact Nat.succ_le_succ (ih _ _ _)
          next => exact Nat.le_add_left 1 budget

/-- What holds at the start and is kept by every change holds all along.  The induction on the budget
also needs that what is left to execute stays within the expression, whose operations keep it. -/
theorem observeFrom_invariant {invariant : Machine → Prop}
    (kept : ∀ operation ∈ expression.operations, ∀ machine next, invariant machine →
      machine.Change evaluation expression.encoding operation next → invariant next)
    (target : Option Target) (budget : Nat) (operations : List Operation) (machine : Machine)
    (reads : Array TargetRead) (within : operations ⊆ expression.operations)
    (start : invariant machine) :
    let observation := expression.observeFrom evaluation target budget operations machine reads
    (∀ machine, .ok machine ∈ observation.steps → invariant machine) ∧
      ∀ location, observation.outcome = .ok location →
        ∃ machine, invariant machine ∧ machine.location = .ok location := by
  induction budget generalizing operations machine reads with
  | zero =>
      cases operations with
      | nil => exact ⟨nofun, fun location found => ⟨machine, start, found⟩⟩
      | cons operation rest => exact ⟨nofun, nofun⟩
  | succ budget ih =>
      cases operations with
      | nil => exact ⟨nofun, fun location found => ⟨machine, start, found⟩⟩
      | cons operation rest =>
          obtain ⟨first, later⟩ := List.cons_subset.mp within
          unfold observeFrom
          split
          next following next read advanced =>
            obtain ⟨inside, changed⟩ := ensures_advance later _ _ _ _ advanced
            have holds := kept operation first machine next start changed
            obtain ⟨states, outcome⟩ := ih following next read inside holds
            refine ⟨fun state member => ?_, outcome⟩
            obtain same | member := List.mem_cons.mp member
            · cases same
              exact holds
            · exact states state member
          next =>
            refine ⟨fun state member => ?_, nofun⟩
            cases List.mem_singleton.mp member

end LocationExpression

theorem Machine.Change.length_le {machine next : Machine} {evaluation : Evaluation}
    {encoding : Encoding} {operation : Operation}
    (change : machine.Change evaluation encoding operation next) :
    next.stack.length ≤ max evaluation.stackLimit machine.stack.length := by
  cases change with
  | push _ room _ => exact Nat.le_trans room (Nat.le_max_left _ _)
  | keep from_stack | settle from_stack =>
      exact Nat.le_trans from_stack.length_le (Nat.le_max_right _ _)
  | piece sizeBits bitOffset =>
      refine Nat.le_trans ?_ (Nat.le_max_right _ _)
      obtain ⟨stack, pending, pieces⟩ := machine
      cases pending with
      | some => exact Nat.le_refl _
      | none =>
          cases stack with
          | nil => exact Nat.le_refl _
          | cons top rest => exact Nat.le_succ _

theorem LocationExpression.observe_bounded (expression : LocationExpression)
    (evaluation : Evaluation) (target : Option Target) :
    (expression.observe evaluation target).steps.length ≤ evaluation.budget ∧
      ∀ machine, .ok machine ∈ (expression.observe evaluation target).steps →
        machine.stack.length ≤ max evaluation.stackLimit evaluation.initial.length := by
  refine ⟨observeFrom_length_le _ _ _ _, ?_⟩
  refine (observeFrom_invariant ?_ target _ _ _ _ (List.Subset.refl _) ?_).1
  · intro operation _ machine next within change
    exact Nat.le_trans change.length_le (Nat.max_le.mpr ⟨Nat.le_max_left _ _, within⟩)
  · exact Nat.le_trans (Nat.le_of_eq List.length_reverse) (Nat.le_max_right _ _)

end Dwarf
